import CompositionFunction.Error
import CompositionFunction.GroupVersionKind
import CompositionFunction.Schema.Read
import CompositionFunction.Schema.Write

/-!
# Resource bodies

A body is a JSON object of any content. It states its kind and name in members that may be missing
or of another type. A typed value becomes a body if it is written as an object, and a body becomes
a typed value if it fits the type.

`JsonObject` is `Struct` of the program and `Body` is `Unstructured`, with `api_version`, `kind`,
`name` and `gvk`. `TypedValue.toBody` is `as_struct`, `Body.toTyped` is `from_struct`, and
`TypedValue.kindOf` is `json_kind`.
-/

set_option autoImplicit false

namespace CompositionFunction

open Schema

/-- How kinds stand in documents. -/
def GroupVersionKind.shape : Shape GroupVersionKind :=
  Shape.via
    (.record "GroupVersionKind"
      (.cons (.required "group" .text) <|
      .cons (.required "version" .text) <|
      .cons (.required "kind" .text) .nil))
    (fun (group, version, kind, ()) => ⟨group, version, kind⟩)
    (fun g => (g.group, g.version, g.kind, ()))

/-- A resource body. -/
abbrev Body : Type := JsonObject

namespace Body

/-- The text of a member, if it is a text. -/
def textAt? (body : Body) (name : String) : Option String := (body.find? name).bind Json.text?

/-- The version that the body states. -/
def apiVersion? (body : Body) : Option String := textAt? body "apiVersion"

/-- The kind that the body states. -/
def kind? (body : Body) : Option String := textAt? body "kind"

/-- The name in the metadata of the body. -/
def name? (body : Body) : Option String := do
  let metadata ← (← body.find? "metadata").object?
  textAt? metadata "name"

/-- The full kind of a body that states version and kind. -/
def gvk? (body : Body) : Option GroupVersionKind := do
  let apiVersion ← apiVersion? body
  let kind ← kind? body
  some (.ofApiVersion apiVersion kind)

end Body

/-! ## Typed values and bodies -/

/-- Why a value cannot be written as JSON at all. -/
inductive EncodingFault where
  /-- A map has a key that is no text. -/
  | keyNotText
  /-- An integer does not fit 64 bits. -/
  | numberOutOfRange
  /-- The type itself refuses to write the value, for a reason of its own. -/
  | refused (reason : String)
deriving DecidableEq, Repr

/-- The wording of the fault. -/
def EncodingFault.message : EncodingFault → String
  | .keyNotText => "key must be a string"
  | .numberOutOfRange => "number out of range"
  | .refused reason => reason

/-- A typed value: the name of its type, and how it is written. -/
structure TypedValue where
  typeName : String
  encoding : Except EncodingFault Json

namespace TypedValue

/-- A value of a shape. -/
def ofShape {α : Type} (typeName : String) (shape : Shape α) (a : α) : TypedValue :=
  ⟨typeName, .ok (shape.value a)⟩

/-- A free-form value. -/
def ofJson (typeName : String) (v : Json) : TypedValue := ⟨typeName, .ok v⟩

/-- What a JSON value is, in words. -/
def kindOf : Json → String
  | .null => "null"
  | .bool _ => "a boolean"
  | .number _ => "a number"
  | .text _ => "a string"
  | .array _ => "an array"
  | .object _ => "an object"

/-- The body of a value that is written as an object. -/
def toBody (v : TypedValue) : Except Error Body :=
  match v.encoding with
  | .ok (.object members) => .ok members
  | .ok other => .error (.conversion v.typeName ("expected a JSON object, got " ++ kindOf other))
  | .error fault => .error (.conversion v.typeName fault.message)

end TypedValue

/-- The value of a shape that a body stands for. -/
def Body.toTyped {α : Type} (typeName : String) (shape : Shape α) (body : Body) :
    Except Error α :=
  (shape.ofValue (.object body)).mapError fun refusal => .conversion typeName refusal.message

end CompositionFunction
