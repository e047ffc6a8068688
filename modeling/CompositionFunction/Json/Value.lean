import CompositionFunction.Json.Number
import CompositionFunction.StringMap

/-!
# JSON values

A value of JSON by its meaning: the members of an object are a map, so neither their order nor
earlier duplicates of a name belong to it. Equality of values is decidable.

`Json` is `Value` of the program.
-/

set_option autoImplicit false

namespace CompositionFunction

/-- A JSON value. -/
inductive Json where
  | null
  | bool (value : Bool)
  | number (value : Json.Number)
  | text (value : String)
  | array (items : List Json)
  | object (members : Entries Json none)

/-- A free-form object. -/
abbrev JsonObject : Type := StringMap Json

namespace Json

instance : Inhabited Json := ⟨null⟩

mutual

/-- Equality of values is decided part by part. -/
def decEq : (a b : Json) → Decidable (a = b)
  | .null, .null => isTrue rfl
  | .bool a, .bool b =>
    if h : a = b then isTrue (by rw [h]) else isFalse (by intro e; injection e; contradiction)
  | .number a, .number b =>
    if h : a = b then isTrue (by rw [h]) else isFalse (by intro e; injection e; contradiction)
  | .text a, .text b =>
    if h : a = b then isTrue (by rw [h]) else isFalse (by intro e; injection e; contradiction)
  | .array a, .array b =>
    match decEqItems a b with
    | isTrue h => isTrue (by rw [h])
    | isFalse h => isFalse (by intro e; injection e; contradiction)
  | .object a, .object b =>
    match decEqMembers a b with
    | isTrue h => isTrue (by rw [h])
    | isFalse h => isFalse (by intro e; injection e; contradiction)
  | .null, .bool _ | .null, .number _ | .null, .text _ | .null, .array _ | .null, .object _
  | .bool _, .null | .bool _, .number _ | .bool _, .text _ | .bool _, .array _
  | .bool _, .object _ | .number _, .null | .number _, .bool _ | .number _, .text _
  | .number _, .array _ | .number _, .object _ | .text _, .null | .text _, .bool _
  | .text _, .number _ | .text _, .array _ | .text _, .object _ | .array _, .null
  | .array _, .bool _ | .array _, .number _ | .array _, .text _ | .array _, .object _
  | .object _, .null | .object _, .bool _ | .object _, .number _ | .object _, .text _
  | .object _, .array _ => isFalse nofun
termination_by structural a => a

/-- Equality of item lists. -/
def decEqItems : (a b : List Json) → Decidable (a = b)
  | [], [] => isTrue rfl
  | [], _ :: _ => isFalse nofun
  | _ :: _, [] => isFalse nofun
  | x :: xs, y :: ys =>
    match decEq x y with
    | isTrue h =>
      match decEqItems xs ys with
      | isTrue hs => isTrue (by rw [h, hs])
      | isFalse hs => isFalse (by intro e; injection e; contradiction)
    | isFalse h => isFalse (by intro e; injection e; contradiction)
termination_by structural a => a

/-- Equality of members. -/
def decEqMembers : {lo : Option String} → (a b : Entries Json lo) → Decidable (a = b)
  | _, .nil, .nil => isTrue rfl
  | _, .nil, .cons .. => isFalse nofun
  | _, .cons .., .nil => isFalse nofun
  | _, .cons k _ v r, .cons k' _ v' r' =>
    if hkey : k = k' then by
      subst hkey
      exact match decEq v v' with
      | isTrue h =>
        match decEqMembers r r' with
        | isTrue hs => isTrue (by rw [h, hs])
        | isFalse hs => isFalse (by intro e; injection e; contradiction)
      | isFalse h => isFalse (by intro e; injection e; contradiction)
    else isFalse (by intro e; injection e; contradiction)
termination_by structural _ a => a

end

instance : DecidableEq Json := decEq

/-- The text of a value that is one. -/
def text? : Json → Option String
  | text s => some s
  | _ => none

/-- The members of a value that is an object. -/
def object? : Json → Option JsonObject
  | object members => some members
  | _ => none

end Json

end CompositionFunction
