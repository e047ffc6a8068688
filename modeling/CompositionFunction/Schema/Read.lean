import CompositionFunction.Schema.Shape

/-!
# Reading a tree by its shape

A tree is read from left to right, and the first fault decides. Members of an object that are no
fields of the record are skipped; of them only the grammar counts. A record may also be given as an
array of its fields.

In the program `ofText` is `from_str` and `ofValue` is `from_value`.

* `Shape.ofTree` : a tree as a value of a shape.
* `Shape.ofText` : a text as a value of a shape.
* `Shape.ofValue` : a JSON value as a value of a shape.
-/

set_option autoImplicit false

namespace CompositionFunction.Schema

open Json

variable {α β : Type}

/-! ## Containers -/

/-- Goes through the members of an object in order, each of which has to have a name. -/
def readMembers {σ : Type} (f : σ → String → Tree → Except Refusal σ) (ending : Ending) :
    σ → List (Option String × Tree) → Except Refusal σ
  | s, [] => if ending = .closed then .ok s else .error .notJson
  | _, (none, _) :: _ => .error .notJson
  | s, (some name, t) :: rest =>
    match f s name t with
    | .error e => .error e
    | .ok next => readMembers f ending next rest

/-- Goes through the items of an array in order. -/
def readItems (f : Tree → Except Refusal α) : List Tree → Except Refusal (List α)
  | [] => .ok []
  | t :: ts =>
    match f t with
    | .error e => .error e
    | .ok a =>
      match readItems f ts with
      | .error e => .error e
      | .ok as => .ok (a :: as)

/-- Skips a member. -/
def skip (t : Tree) : Except Refusal Unit :=
  if t.isGrammatical then .ok () else .error .notJson

/-- Goes into a container. -/
def enter (source : Source) : Except Refusal Source :=
  match source.enter? with
  | some inner => .ok inner
  | none => .error .notJson

/-- What follows the last field of a record in array form. -/
def endOfArray (source : Source) (items fields : Nat) : List Tree → Except Refusal Unit
  | [] => .ok ()
  | .broken :: _ => .error .notJson
  | _ :: _ =>
    match source with
    | .text _ => .error .notJson
    | .value => .error (.misfit (.tooLong items))
    | .setAside => .error (.misfit (.tooLongFor items fields))

/-! ## Options -/

/-- Reads an option by its name alone, or with its value as an object of one member. -/
def readOption (source : Source) (known : List (String × β)) (bare : β → Except Refusal α)
    (valued : β → Source → Tree → Except Refusal α) (t : Tree) : Except Refusal α :=
  let find (name : String) : Except Refusal β :=
    match known.lookup name with
    | some b => .ok b
    | none => .error (.misfit (.unknownOption name (known.map Prod.fst)))
  match t with
  | .text (some name) => do bare (← find name)
  | .object members ending => do
    let inner ← enter source
    match source, members, ending with
    | .text _, [], .cut at? => .error (unexpected (at?.bind foundToken?) .optionName)
    | .text _, [], .closed => .error .notJson
    | .text _, (none, _) :: _, _ => .error .notJson
    | .text _, (some name, value) :: rest, ending =>
      let a ← valued (← find name) inner value
      if rest.isEmpty && ending = .closed then .ok a else .error .notJson
    | _, [(some name, value)], _ => valued (← find name) inner value
    | _, _, _ => .error (.misfit .notSingle)
  | t =>
    match source with
    | .text _ => .error .notJson
    | _ => .error (unexpected (found? t) .anOption)

/-! ## Shapes -/

/-- The slots of a record of which nothing has been found. -/
def Fields.blank : {αs : List Type} → Fields αs → Slots αs
  | _, .nil => ()
  | _, .cons _ rest => (none, rest.blank)

/-- The record of what has been found: an absent field stands for its default. -/
def Fields.fill : {αs : List Type} → Fields αs → Slots αs → Except Refusal (Row αs)
  | _, .nil, _ => .ok ()
  | _, .cons field rest, (slot, slots) =>
    match slot.or field.whenAbsent? with
    | none => .error (.misfit (.missingField field.name))
    | some a =>
      match rest.fill slots with
      | .error e => .error e
      | .ok row => .ok (a, row)

/-- The first of some named trees whose name is one of two. -/
def firstNamed? (left right : String) : List (String × Tree) → Option (String × Tree)
  | [] => none
  | (name, t) :: rest =>
    if name = left ∨ name = right then some (name, t) else firstNamed? left right rest

mutual

/-- A tree as a value of a shape. -/
def Shape.ofTree (source : Source) : {α : Type} → Shape α → Tree → Except Refusal α
  | _, .any, t =>
    match t.json? source with
    | some v => .ok v
    | none => .error .notJson
  | _, .text, t =>
    match t with
    | .text (some s) => .ok s
    | t => .error (unexpected (found? t) .text)
  | _, .object, t =>
    match t with
    | .object members ending => do
      let inner ← enter source
      readMembers (fun before name t =>
        match t.json? inner with
        | some v => .ok (before.insert name v)
        | none => .error .notJson) ending StringMap.empty members
    | t => .error (unexpected (found? t) .map)
  | _, .map value, t =>
    match t with
    | .object members ending => do
      let inner ← enter source
      readMembers (fun before name t =>
        match value.ofTree inner t with
        | .ok a => .ok (before.insert name a)
        | .error e => .error e) ending StringMap.empty members
    | t => .error (unexpected (found? t) .map)
  | _, .list item, t =>
    match t with
    | .array items => do
      let inner ← enter source
      readItems (fun t => item.ofTree inner t) items
    | t => .error (unexpected (found? t) .sequence)
  | _, .choice options _, t =>
    readOption source options .ok (fun a _ t =>
      match t with
      | .null => .ok a
      | t => .error (unexpected (found? t) .nothing)) t
  | _, .either left leftValue right rightValue, t =>
    readOption source [(left, true), (right, false)]
      (fun _ => .error (.misfit (.kind .bareOption .optionValue)))
      (fun isLeft inner t =>
        if isLeft then (leftValue.ofTree inner t).map .inl
        else (rightValue.ofTree inner t).map .inr) t
  | _, .record name fields, t =>
    match t with
    | .object members ending => do
      let inner ← enter source
      let slots ← readMembers (fun slots name t =>
        match fields.put? inner name t slots with
        | some result => result
        | none => (skip t).map fun _ => slots) ending fields.blank members
      fields.fill slots
    | .array items => do
      let inner ← enter source
      let (row, rest) ← fields.ofItems inner name fields.names.length 0 items
      endOfArray source items.length fields.names.length rest
      .ok row
    | t => .error (unexpected (found? t) (.record name))
  | _, .recordWith name fields union left leftValue right rightValue, t =>
    match t with
    | .object members ending => do
      let inner ← enter source
      let (slots, aside) ← readMembers (fun (slots, aside) name t =>
        match fields.put? inner name t slots with
        | some result => result.map fun slots => (slots, aside)
        | none =>
          match t.json? inner with
          | some _ => .ok (slots, aside ++ [(name, t)])
          | none => .error .notJson) ending (fields.blank, []) members
      let row ← fields.fill slots
      match firstNamed? left right aside with
      | none => .error (.misfit (.noOption union))
      | some (option, t) =>
        if option = left then (leftValue.ofTree .setAside t).map fun a => (row, .inl a)
        else (rightValue.ofTree .setAside t).map fun b => (row, .inr b)
    | t => .error (unexpected (found? t) (.record name))
  | _, .refined base decode _, t =>
    match base.ofTree source t with
    | .error e => .error e
    | .ok a => (decode a).mapError .misfit
termination_by structural _ s => s

/-- A tree as the value of a field that is present. -/
def Field.ofTree (source : Source) : {α : Type} → Field α → Tree → Except Refusal α
  | _, .required _ shape, t => shape.ofTree source t
  | _, .defaulted _ shape _, t => shape.ofTree source t
  | _, .trimmed _ shape _ _, t => shape.ofTree source t
  | _, .optional _ shape, t =>
    match t with
    | .null => .ok none
    | t => (shape.ofTree source t).map some
termination_by structural _ f => f

/-- Puts a member into the slot of its field, which has to be blank; there may be no such
field. -/
def Fields.put? (source : Source) (name : String) (t : Tree) :
    {αs : List Type} → Fields αs → Slots αs → Option (Except Refusal (Slots αs))
  | _, .nil, _ => none
  | _, .cons field rest, (slot, slots) =>
    if name = field.name then
      match slot with
      | some _ => some (.error (.misfit (.duplicateField name)))
      | none => some ((field.ofTree source t).map fun a => (some a, slots))
    else (rest.put? source name t slots).map fun result => result.map fun slots => (slot, slots)
termination_by structural _ fs => fs

/-- The record whose fields are the first ones of some items, and the items after them. -/
def Fields.ofItems (source : Source) (record : String) (count index : Nat) :
    {αs : List Type} → Fields αs → List Tree → Except Refusal (Row αs × List Tree)
  | _, .nil, ts => .ok ((), ts)
  | _, .cons field rest, ts =>
    match ts with
    | [] =>
      match field.whenAbsent? with
      | none => .error (.misfit (.tooShort index record count))
      | some a => (rest.ofItems source record count (index + 1) []).map fun r => ((a, r.1), r.2)
    | t :: ts =>
      match field.ofTree source t with
      | .error e => .error e
      | .ok a => (rest.ofItems source record count (index + 1) ts).map fun r => ((a, r.1), r.2)
termination_by structural _ fs => fs

end

/-- A text as a value of a shape. -/
def Shape.ofText (shape : Shape α) (s : String) : Except Refusal α :=
  let outline := Outline.ofText s
  match shape.ofTree .document outline.root with
  | .error e => .error e
  | .ok a => if outline.isWhole then .ok a else .error .notJson

/-- A JSON value as a value of a shape. -/
def Shape.ofValue (shape : Shape α) (v : Json) : Except Refusal α := shape.ofTree .value v.tree

end CompositionFunction.Schema
