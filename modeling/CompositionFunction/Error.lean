import CompositionFunction.Text.Quoted

/-!
# Errors

What the library and its command line report when something cannot be done.

`Error` is `ComposeFnError` of the program, and `Error.text` what it displays.
-/

set_option autoImplicit false

namespace CompositionFunction

/-- Why something cannot be done. -/
inductive Error where
  /-- A call lacks something that it needs. -/
  | validation (message : String)
  /-- A value and its structured form do not fit each other. -/
  | conversion (type message : String)
  /-- The configuration cannot be used. -/
  | config (message : String)
  /-- A document or an argument is malformed. -/
  | parse (message : String)
  /-- A file cannot be used. -/
  | io (path message : String)
deriving DecidableEq, Repr

namespace Error

/-- The wording of an error. -/
def text : Error → String
  | validation message => "validation error: " ++ message
  | conversion type message => "cannot convert " ++ type ++ ": " ++ message
  | config message => "config error: " ++ message
  | parse message => "parse error: " ++ message
  | io path message => "I/O error at " ++ Text.quoted path ++ ": " ++ message

/-- The error is about what a call lacks. -/
def isValidation : Error → Bool
  | validation _ => true
  | _ => false

end Error

end CompositionFunction
