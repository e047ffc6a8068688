import CompositionFunction.Schema.Read
import CompositionFunction.Schema.Write

/-!
# Results

What a function reports to people: a message and how grave it is. Severities are named in full in
documents and by a word on the command line.

`FunctionResult` and `Severity` have their names from the program, where `Severity.ofWord` is
`from_str`.
-/

set_option autoImplicit false

namespace CompositionFunction

open Schema

/-- How grave a result is. -/
inductive Severity where
  | unspecified
  | fatal
  | warning
  | normal
deriving DecidableEq, Repr

namespace Severity

/-- The name of a severity in documents. -/
def label : Severity → String
  | unspecified => "SEVERITY_UNSPECIFIED"
  | fatal => "SEVERITY_FATAL"
  | warning => "SEVERITY_WARNING"
  | normal => "SEVERITY_NORMAL"

/-- The severities in the order in which they are listed. -/
def all : List Severity := [unspecified, fatal, warning, normal]

/-- How severities stand in documents. -/
def shape : Shape Severity := .choice (all.map fun s => (s.label, s)) label

/-- A word that names no severity, in lower case. -/
structure UnknownWord where
  word : String
deriving DecidableEq, Repr

/-- The wording of the refusal. -/
def UnknownWord.message (u : UnknownWord) : String :=
  "unknown severity " ++ Text.quoted u.word ++ " (expected fatal, warning, or normal)"

/-- The severity that a word names; the case of its ASCII letters does not matter. -/
def ofWord (word : String) : Except UnknownWord Severity :=
  let lower := String.ofList (word.toList.map Char.toLower)
  if lower = "fatal" then .ok fatal
  else if lower = "warning" ∨ lower = "warn" then .ok warning
  else if lower = "normal" then .ok normal
  else .error ⟨lower⟩

end Severity

/-- A message to people. -/
structure FunctionResult where
  severity : Severity
  message : String
deriving DecidableEq, Repr

namespace FunctionResult

/-- How results stand in documents. -/
def shape : Shape FunctionResult :=
  Shape.via
    (.record "FunctionResult"
      (.cons (.defaulted "severity" Severity.shape .unspecified)
        (.cons (.defaulted "message" .text "") .nil)))
    (fun (severity, message, ()) => ⟨severity, message⟩)
    (fun r => (r.severity, r.message, ()))

end FunctionResult

end CompositionFunction
