import CompositionFunction.Reply.Call

/-!
# Flags that add to a response

A flag says in one text what to add to the response: a key of the context, a requirement, or a
result. Its parts are found by the separators from left to right; empty parts are parts as well.

`contextEntry` is `parse_context` of the program, `resultEntry` is `parse_result`,
`namedRequirement` is `parse_name_requirement`, and `labelledRequirement` is
`parse_labels_requirement`.
-/

set_option autoImplicit false

namespace CompositionFunction.CommandLine

open Text

/-- Why a flag is malformed. -/
inductive FlagFault where
  | context (raw : String)
  | result (raw : String)
  | severity (word : Severity.UnknownWord)
  | requireName (raw : String)
  | requireLabels (raw : String)
deriving DecidableEq, Repr

namespace FlagFault

/-- The wording of the fault. -/
def message : FlagFault → String
  | context raw => "context " ++ quoted raw ++ " must be KEY=VALUE"
  | result raw => "result " ++ quoted raw ++ " must be SEVERITY:MESSAGE"
  | severity word => word.message
  | requireName raw => "requirement " ++ quoted raw ++ " must be ID=APIVERSION:KIND:NAME"
  | requireLabels raw => "requirement " ++ quoted raw ++ " must be ID=APIVERSION:KIND[:K=V,...]"

/-- The error that it is reported as. -/
def error (fault : FlagFault) : Error := .parse fault.message

end FlagFault

/-- The parts around the first separator. -/
def cut (sep : Char) (s : String) : Option (String × String) :=
  (splitFirst sep s.toList).map fun p => (String.ofList p.1, String.ofList p.2)

/-! ## The kinds of flags -/

/-- A key of the context and its value: a value that is no JSON document is a text. -/
def contextEntry (raw : String) : Except FlagFault (String × Json) :=
  match cut '=' raw with
  | none => .error (.context raw)
  | some (key, value) => .ok (key, (Json.parse? value).getD (.text value))

/-- The severity and the message of a result. -/
def resultEntry (raw : String) : Except FlagFault (Severity × String) :=
  match cut ':' raw with
  | none => .error (.result raw)
  | some (word, message) =>
    match Severity.ofWord word with
    | .error e => .error (.severity e)
    | .ok severity => .ok (severity, message)

/-- The parts of a requirement: its name, the version and the kind of resources, and what follows a
second colon. -/
def requirementParts? (raw : String) : Option (String × GroupVersionKind × Option String) := do
  let (id, rest) ← cut '=' raw
  let (apiVersion, rest) ← cut ':' rest
  match cut ':' rest with
  | none => some (id, .ofApiVersion apiVersion rest, none)
  | some (kind, selection) => some (id, .ofApiVersion apiVersion kind, some selection)

/-- The name of a requirement, the kind of resources, and the name of the one selected. -/
def namedRequirement (raw : String) : Except FlagFault (String × GroupVersionKind × String) :=
  match requirementParts? raw with
  | some (id, gvk, some name) => .ok (id, gvk, name)
  | _ => .error (.requireName raw)

/-- The labels of a list with commas between them; nothing between two commas is no label. -/
def labelList? (s : String) : Option (StringMap String) :=
  let parts := (splitAll ',' s.toList).filter fun part => !part.isEmpty
  (parts.mapM fun part =>
    (splitFirst '=' part).map fun p => (String.ofList p.1, String.ofList p.2)).map StringMap.ofList

/-- The name of a requirement, the kind of resources, and the labels of those selected. -/
def labelledRequirement (raw : String) :
    Except FlagFault (String × GroupVersionKind × StringMap String) :=
  match requirementParts? raw with
  | none => .error (.requireLabels raw)
  | some (id, gvk, selection) =>
    match labelList? (selection.getD "") with
    | some labels => .ok (id, gvk, labels)
    | none => .error (.requireLabels raw)

end CompositionFunction.CommandLine
