import CompositionFunction.Json.Value

/-!
# JSON documents

A document is JSON in the order in which it is written. It is laid out compactly, without blanks,
or indented by two blanks a level; empty arrays and objects stay on one line.

`Document.render` is `to_string` of the program and, indented, `to_string_pretty`.

* `Json.document` : a value as a document, its members in key order.
* `Document.value` : what a document means, where of two members of one name the last counts.
* `Document.value_document` : a value is what its document means.
-/

set_option autoImplicit false

namespace CompositionFunction.Json

/-- JSON in the order in which it is written. -/
inductive Document where
  | null
  | bool (value : Bool)
  | number (value : Number)
  | text (value : String)
  | array (items : List Document)
  | object (members : List (String × Document))

/-! ## Documents and values -/

mutual

/-- The document of a value, its members in key order. -/
def document : Json → Document
  | .null => .null
  | .bool b => .bool b
  | .number n => .number n
  | .text s => .text s
  | .array items => .array (itemDocuments items)
  | .object members => .object (memberDocuments members)
termination_by structural v => v

/-- The documents of some values. -/
def itemDocuments : List Json → List Document
  | [] => []
  | v :: vs => document v :: itemDocuments vs
termination_by structural vs => vs

/-- The documents of some members. -/
def memberDocuments : {lo : Option String} → Entries Json lo → List (String × Document)
  | _, .nil => []
  | _, .cons key _ v rest => (key, document v) :: memberDocuments rest
termination_by structural _ m => m

end

namespace Document

mutual

/-- What a document means. -/
def value : Document → Json
  | .null => .null
  | .bool b => .bool b
  | .number n => .number n
  | .text s => .text s
  | .array items => .array (itemValues items)
  | .object members => .object (memberValues .empty members)
termination_by structural d => d

/-- What some documents mean. -/
def itemValues : List Document → List Json
  | [] => []
  | d :: ds => d.value :: itemValues ds
termination_by structural ds => ds

/-- The members of an object, added to those before them. -/
def memberValues (before : JsonObject) : List (String × Document) → JsonObject
  | [] => before
  | (key, d) :: rest => memberValues (before.insert key d.value) rest
termination_by structural ds => ds

end

theorem memberValues_eq (before : JsonObject) (members : List (String × Document)) :
    memberValues before members = before.insertAll (members.map fun m => (m.1, m.2.value)) := by
  induction members generalizing before with
  | nil => rfl
  | cons m rest ih => exact ih _

mutual

/-- A value is what its document means. -/
@[simp] theorem value_document : (v : Json) → v.document.value = v
  | .null => rfl
  | .bool _ => rfl
  | .number _ => rfl
  | .text _ => rfl
  | .array items => by simp [document, value, itemValues_itemDocuments items]
  | .object members => by
    simp only [document, value, memberValues_eq, memberDocuments_value members]
    exact congrArg Json.object (StringMap.ofList_toList members)

theorem itemValues_itemDocuments : (vs : List Json) → itemValues (itemDocuments vs) = vs
  | [] => rfl
  | v :: vs => by simp [itemDocuments, itemValues, value_document v, itemValues_itemDocuments vs]

theorem memberDocuments_value : {lo : Option String} → (m : Entries Json lo) →
    ((memberDocuments m).map fun e => (e.1, e.2.value)) = m.toList
  | _, .nil => rfl
  | _, .cons key _ v rest => by
    simp [memberDocuments, Entries.toList, value_document v, memberDocuments_value rest]

end

/-! ## Layout -/

/-- The four hexadecimal digits of a control character. -/
def controlDigits (c : Char) : List Char :=
  let ds := Nat.toDigits 16 c.toNat
  List.replicate (4 - ds.length) '0' ++ ds

/-- A character inside a string: quotes, backslashes and control characters are escaped. -/
def escapeChar (c : Char) : List Char :=
  if c = '"' then ['\\', '"']
  else if c = '\\' then ['\\', '\\']
  else if c = '\x08' then ['\\', 'b']
  else if c = '\x0c' then ['\\', 'f']
  else if c = '\n' then ['\\', 'n']
  else if c = '\r' then ['\\', 'r']
  else if c = '\t' then ['\\', 't']
  else if c < ' ' then ['\\', 'u'] ++ controlDigits c
  else [c]

/-- A string between quotes. -/
def writeText (s : String) : List Char := '"' :: s.toList.flatMap escapeChar ++ ['"']

/-- How a document is laid out. -/
inductive Layout where
  /-- No blanks at all. -/
  | compact
  /-- Each item and member on a line of its own, indented by two blanks a level. -/
  | indented
deriving DecidableEq, Repr

/-- The start of a line at a level. -/
def Layout.line : Layout → Nat → List Char
  | .compact, _ => []
  | .indented, level => '\n' :: List.replicate (2 * level) ' '

/-- What stands between the name and the value of a member. -/
def Layout.colon : Layout → List Char
  | .compact => [':']
  | .indented => [':', ' ']

mutual

/-- The characters of a document whose first line is at a level. -/
def write (layout : Layout) (level : Nat) : Document → List Char
  | .null => ['n', 'u', 'l', 'l']
  | .bool true => ['t', 'r', 'u', 'e']
  | .bool false => ['f', 'a', 'l', 's', 'e']
  | .number n => n.write
  | .text s => writeText s
  | .array [] => ['[', ']']
  | .array (d :: ds) =>
    '[' :: layout.line (level + 1) ++ write layout (level + 1) d ++
      writeItems layout (level + 1) ds ++ layout.line level ++ [']']
  | .object [] => ['\x7b', '\x7d']
  | .object ((key, d) :: ms) =>
    '\x7b' :: layout.line (level + 1) ++ writeText key ++ layout.colon ++
      write layout (level + 1) d ++ writeMembers layout (level + 1) ms ++
      layout.line level ++ ['\x7d']
termination_by structural d => d

/-- The items after the first one, each after a comma. -/
def writeItems (layout : Layout) (level : Nat) : List Document → List Char
  | [] => []
  | d :: ds =>
    ',' :: layout.line level ++ write layout level d ++ writeItems layout level ds
termination_by structural ds => ds

/-- The members after the first one, each after a comma. -/
def writeMembers (layout : Layout) (level : Nat) : List (String × Document) → List Char
  | [] => []
  | (key, d) :: ms =>
    ',' :: layout.line level ++ writeText key ++ layout.colon ++ write layout level d ++
      writeMembers layout level ms
termination_by structural ms => ms

end

/-- The text of a document. -/
def render (layout : Layout) (d : Document) : String := String.ofList (d.write layout 0)

end Document

end CompositionFunction.Json
