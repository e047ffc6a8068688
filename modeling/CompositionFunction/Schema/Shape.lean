import CompositionFunction.Schema.Misfit

/-!
# Shapes of messages

A shape describes how the values of a type stand in a document. Shapes are data: what reads a
document, what writes one, and every law about the two are recursions over the shape, so a message
type only has to say which fields it has.

The shapes stand for the attributes of the message types of the program, from which `Deserialize`
and `Serialize` are derived there.
-/

set_option autoImplicit false

namespace CompositionFunction.Schema

/-- One value of each type of a list. -/
def Row : List Type → Type
  | [] => Unit
  | α :: αs => α × Row αs

/-- The values found so far for the types of a list. -/
def Slots : List Type → Type
  | [] => Unit
  | α :: αs => Option α × Slots αs

mutual

/-- How the values of a type stand in a document. -/
inductive Shape : Type → Type 1 where
  /-- Any JSON value. -/
  | any : Shape Json
  /-- A string. -/
  | text : Shape String
  /-- An object of any content. -/
  | object : Shape JsonObject
  /-- An object whose members all have one shape. -/
  | map {α : Type} (value : Shape α) : Shape (StringMap α)
  /-- An array whose items all have one shape. -/
  | list {α : Type} (item : Shape α) : Shape (List α)
  /-- One of some named options without values. -/
  | choice {α : Type} (options : List (String × α)) (label : α → String) : Shape α
  /-- One of two named options that each carry a value. -/
  | either {α β : Type} (left : String) (leftValue : Shape α) (right : String)
      (rightValue : Shape β) : Shape (α ⊕ β)
  /-- An object with known fields. -/
  | record {αs : List Type} (name : String) (fields : Fields αs) : Shape (Row αs)
  /-- An object with known fields and one member more, an option of a union. -/
  | recordWith {αs : List Type} {α β : Type} (name : String) (fields : Fields αs)
      (union : String) (left : String) (leftValue : Shape α) (right : String)
      (rightValue : Shape β) : Shape (Row αs × (α ⊕ β))
  /-- Values that are written as those of another shape, not all of which stand for one. -/
  | refined {α β : Type} (base : Shape α) (decode : α → Except Misfit β) (encode : β → α) :
      Shape β

/-- The fields of a record in their order. -/
inductive Fields : List Type → Type 1 where
  | nil : Fields []
  | cons {α : Type} {αs : List Type} (field : Field α) (rest : Fields αs) : Fields (α :: αs)

/-- A field of a record. -/
inductive Field : Type → Type 1 where
  /-- A field that has to be present. -/
  | required {α : Type} (name : String) (shape : Shape α) : Field α
  /-- A field that stands for its default when it is absent, and is always written. -/
  | defaulted {α : Type} (name : String) (shape : Shape α) (default : α) : Field α
  /-- A field that stands for its default when it is absent, and is not written then. -/
  | trimmed {α : Type} (name : String) (shape : Shape α) (default : α)
      (same : DecidableEq α) : Field α
  /-- A field that may be absent or null, and is not written then. -/
  | optional {α : Type} (name : String) (shape : Shape α) : Field (Option α)

end

/-- The name of a field. -/
def Field.name {α : Type} : Field α → String
  | .required name _ => name
  | .defaulted name _ _ => name
  | .trimmed name _ _ _ => name
  | .optional name _ => name

/-- What a field stands for when it is absent. -/
def Field.whenAbsent? : {α : Type} → Field α → Option α
  | _, .required _ _ => none
  | _, .defaulted _ _ a => some a
  | _, .trimmed _ _ a _ => some a
  | _, .optional _ _ => some none

/-- The names of some fields. -/
def Fields.names : {αs : List Type} → Fields αs → List String
  | _, .nil => []
  | _, .cons field rest => field.name :: rest.names

/-- A shape that another type shares by a one-to-one correspondence. -/
def Shape.via {α β : Type} (base : Shape α) (make : α → β) (parts : β → α) : Shape β :=
  .refined base (fun a => .ok (make a)) parts

end CompositionFunction.Schema
