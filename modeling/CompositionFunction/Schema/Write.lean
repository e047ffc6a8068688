import CompositionFunction.Schema.Shape

/-!
# Writing a value by its shape

The fields of a record are written in their order, without those that have nothing to say.

In the program `render` is `to_string` or `to_string_pretty`, and `value` is `to_value`.

* `Shape.document` : the document of a value.
* `Shape.value` : the JSON value of a value.
-/

set_option autoImplicit false

namespace CompositionFunction.Schema

open Json

mutual

/-- The document of a value of a shape. -/
def Shape.document : {α : Type} → Shape α → α → Document
  | _, .any, v => Json.document v
  | _, .text, s => .text s
  | _, .object, members => (Json.object members).document
  | _, .map value, m => .object (m.toList.map fun e => (e.1, value.document e.2))
  | _, .list item, as => .array (as.map fun a => item.document a)
  | _, .choice _ label, a => .text (label a)
  | _, .either left leftValue right rightValue, a =>
    match a with
    | .inl a => .object [(left, leftValue.document a)]
    | .inr b => .object [(right, rightValue.document b)]
  | _, .record _ fields, row => .object (fields.members row)
  | _, .recordWith _ fields _ left leftValue right rightValue, (row, a) =>
    match a with
    | .inl a => .object (fields.members row ++ [(left, leftValue.document a)])
    | .inr b => .object (fields.members row ++ [(right, rightValue.document b)])
  | _, .refined base _ encode, b => base.document (encode b)
termination_by structural _ s => s

/-- The document of a field, unless it is not written. -/
def Field.document? : {α : Type} → Field α → α → Option Document
  | _, .required _ shape, a => some (shape.document a)
  | _, .defaulted _ shape _, a => some (shape.document a)
  | _, .trimmed _ shape default same, a =>
    match same a default with
    | isTrue _ => none
    | isFalse _ => some (shape.document a)
  | _, .optional _ shape, a =>
    match a with
    | none => none
    | some a => some (shape.document a)
termination_by structural _ f => f

/-- The members of a record. -/
def Fields.members : {αs : List Type} → Fields αs → Row αs → List (String × Document)
  | _, .nil, _ => []
  | _, .cons field rest, (a, row) =>
    match field.document? a with
    | some d => (field.name, d) :: rest.members row
    | none => rest.members row
termination_by structural _ fs => fs

end

variable {α : Type}

/-- The text of a value of a shape in a layout. -/
def Shape.render (shape : Shape α) (layout : Document.Layout) (a : α) : String :=
  (shape.document a).render layout

/-- The JSON value of a value of a shape. -/
def Shape.value (shape : Shape α) (a : α) : Json := (shape.document a).value

end CompositionFunction.Schema
