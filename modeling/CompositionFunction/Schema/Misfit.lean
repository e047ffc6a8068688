import CompositionFunction.Base64
import CompositionFunction.Duration
import CompositionFunction.Json.Tree

/-!
# Why a document does not fit

A document is refused because it is no JSON document, or because it is one whose parts do not fit
the message. A misfit says what was found and what was expected.
-/

set_option autoImplicit false

namespace CompositionFunction.Schema

open Json Text

/-- What was found in a document. -/
inductive Found where
  | null
  | bool (value : Bool)
  | number (value : Number)
  | text (value : String)
  | sequence
  | map
  /-- The bare name of an option that carries a value. -/
  | bareOption
deriving DecidableEq, Repr

/-- What was expected in its place. -/
inductive Expected where
  | text
  | sequence
  | map
  | record (name : String)
  /-- Nothing, beside the name of an option that carries no value. -/
  | nothing
  /-- The value of an option. -/
  | optionValue
  /-- The name of an option. -/
  | optionName
  /-- The name of an option, alone or with its value. -/
  | anOption
deriving DecidableEq, Repr

/-- Why a part of a document does not fit. -/
inductive Misfit where
  | kind (found : Found) (expected : Expected)
  | duplicateField (name : String)
  | missingField (name : String)
  | unknownOption (name : String) (known : List String)
  /-- A record in array form ends before a field that it needs. -/
  | tooShort (items : Nat) (record : String) (fields : Nat)
  /-- A record in array form goes on after its last field. -/
  | tooLong (items : Nat)
  /-- The same in a part that was set aside. -/
  | tooLongFor (items fields : Nat)
  /-- An option with its value has one member. -/
  | notSingle
  /-- None of the options of a union is among the members of the record. -/
  | noOption (union : String)
  | duration (error : Duration.Error)
  | connectionDetail (key : String) (error : Base64.Error)
deriving DecidableEq, Repr

/-- Why a document is refused. -/
inductive Refusal where
  /-- It is no JSON document. -/
  | notJson
  /-- Up to here it is one, but it does not fit. -/
  | misfit (misfit : Misfit)
deriving DecidableEq, Repr

/-! ## Wording -/

/-- A name as messages show it. -/
def marked (name : String) : String := "\x60" ++ name ++ "\x60"

/-- The wording of what was found. -/
def Found.wording : Found → String
  | .null => "null"
  | .bool b => "boolean " ++ marked (if b then "true" else "false")
  | .number (.int i least greatest) =>
    "integer " ++ marked (String.ofList (Number.int i least greatest).write)
  | .number (.float x) => "floating point " ++ marked (String.ofList (Number.float x).write)
  | .text s => "string " ++ quoted s
  | .sequence => "sequence"
  | .map => "map"
  | .bareOption => "unit variant"

/-- The wording of what was expected. -/
def Expected.wording : Expected → String
  | .text => "a string"
  | .sequence => "a sequence"
  | .map => "a map"
  | .record name => "struct " ++ name
  | .nothing => "unit"
  | .optionValue => "newtype variant"
  | .optionName => "variant identifier"
  | .anOption => "string or map"

/-- The wording of a choice between names. -/
def oneOf : List String → String
  | [] => "there are no variants"
  | [a] => "expected " ++ marked a
  | [a, b] => "expected " ++ marked a ++ " or " ++ marked b
  | names => "expected one of " ++ ", ".intercalate (names.map marked)

/-- A count of elements. -/
def elements (n : Nat) : String := if n = 1 then "1 element" else s!"{n} elements"

/-- The wording of a misfit. -/
def Misfit.message : Misfit → String
  | .kind found expected => "invalid type: " ++ found.wording ++ ", expected " ++ expected.wording
  | .duplicateField name => "duplicate field " ++ marked name
  | .missingField name => "missing field " ++ marked name
  | .unknownOption name known => "unknown variant " ++ marked name ++ ", " ++ oneOf known
  | .tooShort items record fields =>
    s!"invalid length {items}, expected struct {record} with " ++ elements fields
  | .tooLong items => s!"invalid length {items}, expected fewer elements in array"
  | .tooLongFor items fields =>
    s!"invalid length {items}, expected " ++ elements fields ++ " in sequence"
  | .notSingle => "invalid value: map, expected map with a single key"
  | .noOption union => s!"no variant of enum {union} found in flattened data"
  | .duration e => e.message
  | .connectionDetail key e => "connection detail " ++ quoted key ++ ": " ++ e.message

/-- The wording of a refusal. -/
def Refusal.message : Refusal → String
  | .notJson => "not a JSON document"
  | .misfit m => m.message

/-! ## Meeting something else -/

/-- What the token is, if it stands for something. -/
def foundToken? : Token → Option Found
  | .openArray => some .sequence
  | .openObject => some .map
  | .null => some .null
  | .bool b => some (.bool b)
  | .number n => n.map .number
  | .text s => s.map .text
  | _ => none

/-- What the tree is, if it stands for something. -/
def found? : Tree → Option Found
  | .null => some .null
  | .bool b => some (.bool b)
  | .number n => n.map .number
  | .text s => s.map .text
  | .array _ => some .sequence
  | .object _ _ => some .map
  | .broken => none

/-- The refusal of something else than what is expected. -/
def unexpected (found : Option Found) (expected : Expected) : Refusal :=
  match found with
  | some f => .misfit (.kind f expected)
  | none => .notJson

end CompositionFunction.Schema
