/-!
# Maps keyed by strings

A `StringMap α` is a finite map from strings to `α`, held as its entries in ascending key order.
The order is part of the type, so each map has one representation and equal maps are equal values.
Keys are ordered by code point, which is also the order of their UTF-8 bytes.

The maps of the program are `BTreeMap`.

* `find?_insert` : after an insertion the key has the new value and every other key its old one.
* `ext` : two maps with the same value at every key are equal.
* `ofList_toList` : a map is the one built from its own entries.
-/

set_option autoImplicit false

namespace CompositionFunction

/-- `Above lo key`: the key lies above the lower bound, if there is one. -/
def Above : Option String → String → Prop
  | none, _ => True
  | some b, key => b < key

/-- Entries in ascending key order, all of whose keys lie above `lo`. -/
inductive Entries (α : Type) : Option String → Type where
  | nil {lo : Option String} : Entries α lo
  | cons {lo : Option String} (key : String) (above : Above lo key) (value : α)
      (rest : Entries α (some key)) : Entries α lo

/-- A finite map from strings. -/
abbrev StringMap (α : Type) : Type := Entries α none

/-- Of two keys one is smaller, or they are the same. -/
theorem above_of_not_lt {key k : String} (hlt : ¬ key < k) (hne : key ≠ k) : Above (some k) key :=
  Std.lt_of_le_of_ne (String.not_lt.mp hlt) (Ne.symm hne)

namespace Entries

variable {α β : Type} {lo : Option String}

/-! ## Looking up and inserting -/

/-- The value at a key. -/
def find? (k : String) : {lo : Option String} → Entries α lo → Option α
  | _, nil => none
  | _, cons key _ value rest => if k = key then some value else rest.find? k

/-- Sets the value at a key, whether or not it had one. -/
def insert (key : String) (value : α) :
    {lo : Option String} → Above lo key → Entries α lo → Entries α lo
  | _, h, nil => cons key h value nil
  | _, h, cons k hk v rest =>
    if hlt : key < k then cons key h value (cons k hlt v rest)
    else if heq : key = k then cons k hk value rest
    else cons k hk v (rest.insert key value (above_of_not_lt hlt heq))

/-- The entries in ascending key order. -/
def toList : {lo : Option String} → Entries α lo → List (String × α)
  | _, nil => []
  | _, cons key _ value rest => (key, value) :: rest.toList

/-- The number of entries. -/
def size (m : Entries α lo) : Nat := m.toList.length

/-- Transforms the values in ascending key order, up to the first failure. -/
def traverse {ε : Type} (f : String → α → Except ε β) :
    {lo : Option String} → Entries α lo → Except ε (Entries β lo)
  | _, nil => .ok nil
  | _, cons key h value rest =>
    match f key value with
    | .error e => .error e
    | .ok b =>
      match rest.traverse f with
      | .error e => .error e
      | .ok bs => .ok (cons key h b bs)

/-- Transforms every value. -/
def map (f : α → β) : {lo : Option String} → Entries α lo → Entries β lo
  | _, nil => nil
  | _, cons key h value rest => cons key h (f value) (rest.map f)

/-- Equality of entries is decided entry by entry. -/
def decEq [DecidableEq α] : {lo : Option String} → (a b : Entries α lo) → Decidable (a = b)
  | _, nil, nil => isTrue rfl
  | _, nil, cons .. => isFalse nofun
  | _, cons .., nil => isFalse nofun
  | _, cons k hk v r, cons k' hk' v' r' =>
    if hkey : k = k' then by
      subst hkey
      exact if hval : v = v' then
          match decEq r r' with
          | isTrue hrest => isTrue (by rw [hval, hrest])
          | isFalse hrest => isFalse (by intro h; injection h; contradiction)
        else isFalse (by intro h; injection h; contradiction)
    else isFalse (by intro h; injection h; contradiction)

instance [DecidableEq α] : DecidableEq (Entries α lo) := decEq

/-! ## What lies above the bound -/

/-- Every key of the entries lies above their bound. -/
theorem above_of_find? {k : String} {v : α} :
    {lo : Option String} → {m : Entries α lo} → m.find? k = some v → Above lo k
  | _, nil, h => by simp [find?] at h
  | lo, cons key habove value rest, h => by
    by_cases hk : k = key
    · exact hk ▸ habove
    · simp only [find?, if_neg hk] at h
      have hlt : key < k := above_of_find? h
      cases lo with
      | none => trivial
      | some b => exact String.lt_trans habove hlt

/-- A key at or below the bound has no value. -/
theorem find?_bound {b : String} (m : Entries α (some b)) : m.find? b = none := by
  cases h : m.find? b with
  | none => rfl
  | some v => exact absurd (above_of_find? h) (String.lt_irrefl b)

/-- After an insertion the key has the new value and every other key its old one. -/
theorem find?_insert (k key : String) (value : α) :
    {lo : Option String} → (h : Above lo key) → (m : Entries α lo) →
      (m.insert key value h).find? k = if k = key then some value else m.find? k
  | _, h, nil => by simp [insert, find?]
  | _, h, cons x hx v rest => by
    unfold insert
    split
    · simp [find?]
    · split
      · subst_vars; by_cases hk : k = x <;> simp [find?, hk]
      · next hlt hne =>
        simp only [find?, find?_insert k key value (above_of_not_lt hlt hne) rest]
        by_cases hk : k = x
        · subst hk; simp [Ne.symm hne]
        · simp [hk]

/-- Entries with the same value at every key are equal. -/
theorem ext : {lo : Option String} → {m n : Entries α lo} →
    (∀ k, m.find? k = n.find? k) → m = n
  | _, nil, nil, _ => rfl
  | _, nil, cons key _ value _, h => by simpa [find?] using h key
  | _, cons key _ value _, nil, h => by simpa [find?] using h key
  | _, cons k hk v r, cons k' hk' v' r', h => by
    have hkey : k = k' := by
      by_cases hne : k = k'
      · exact hne
      · have h1 : r'.find? k = some v := by have := h k; simpa [find?, hne] using this.symm
        have h2 : r.find? k' = some v' := by
          have := h k'; simpa [find?, Ne.symm hne] using this
        exact absurd (above_of_find? h1) (String.lt_asymm (above_of_find? h2))
    subst hkey
    have hval : v = v' := by simpa [find?] using h k
    subst hval
    have hrest : r = r' := ext fun x => by
      by_cases hx : x = k
      · subst hx; rw [find?_bound, find?_bound]
      · have := h x; simpa [find?, hx] using this
    rw [hrest]

end Entries

namespace StringMap

variable {α β : Type}

/-- The map without entries. -/
def empty : StringMap α := .nil

/-- Whether the map has no entry. -/
def isEmpty (m : StringMap α) : Bool := m.toList.isEmpty

/-- Sets the value at a key, whether or not it had one. -/
def insert (m : StringMap α) (key : String) (value : α) : StringMap α :=
  Entries.insert key value trivial m

/-- Inserts the entries from left to right, so that the last one of a key counts. -/
def insertAll (m : StringMap α) (entries : List (String × α)) : StringMap α :=
  entries.foldl (fun acc e => acc.insert e.1 e.2) m

/-- The map of some entries, of which the last one of each key counts. -/
def ofList (entries : List (String × α)) : StringMap α := empty.insertAll entries

/-- After an insertion the key has the new value and every other key its old one. -/
theorem find?_insert (m : StringMap α) (k key : String) (value : α) :
    (m.insert key value).find? k = if k = key then some value else m.find? k :=
  @Entries.find?_insert α k key value none trivial m

/-- The empty map has no value at any key. -/
@[simp] theorem find?_empty (k : String) : (empty : StringMap α).find? k = none := rfl

/-- Inserting the entries of `n` overrides `m` wherever `n` has a value. -/
theorem find?_insertAll_toList (k : String) :
    {lo : Option String} → (m : StringMap α) → (n : Entries α lo) →
      (m.insertAll n.toList).find? k = (n.find? k).or (m.find? k)
  | _, m, .nil => by simp [insertAll, Entries.toList, Entries.find?]
  | _, m, .cons key _ value rest => by
    have ih := find?_insertAll_toList k (m.insert key value) rest
    simp only [insertAll, Entries.toList, List.foldl_cons] at ih ⊢
    rw [ih, find?_insert]
    by_cases hk : k = key
    · subst hk; simp [Entries.find?, Entries.find?_bound]
    · simp [Entries.find?, hk]

/-- Maps with the same value at every key are equal. -/
theorem ext {m n : StringMap α} (h : ∀ k, m.find? k = n.find? k) : m = n := Entries.ext h

/-- A map is the one built from its own entries. -/
@[simp] theorem ofList_toList (m : StringMap α) : ofList m.toList = m :=
  ext fun k => by rw [ofList, find?_insertAll_toList]; simp

end StringMap

end CompositionFunction
