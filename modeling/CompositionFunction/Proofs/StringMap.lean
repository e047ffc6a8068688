import CompositionFunction.StringMap

/-!
# Maps and their entries

A map holds exactly the entries that looking up its keys gives, and no key twice. Built from
entries with distinct keys, it gives each of them back.

* `mem_toList` : the entries of a map are what it gives for its keys.
* `find?_ofList` : a map built from entries with distinct keys holds just these.
-/

set_option autoImplicit false

namespace CompositionFunction

/-! ## Looking up in a list of entries -/

section Lookup

variable {α β : Type}

theorem lookup_cons_if (k : String) (e : String × α) (es : List (String × α)) :
    (e :: es).lookup k = if k = e.1 then some e.2 else es.lookup k := by
  rw [List.lookup_cons]
  by_cases hk : k = e.1
  · rw [if_pos hk, beq_iff_eq.2 hk]
  · rw [if_neg hk, beq_eq_false_iff_ne.2 hk]

/-- What looking up gives after a transformation of the values. -/
theorem lookup_map_snd (f : α → β) (k : String) (es : List (String × α)) :
    (es.map fun e => (e.1, f e.2)).lookup k = (es.lookup k).map f := by
  induction es with
  | nil => rfl
  | cons e es ih =>
    rw [List.map_cons, lookup_cons_if, lookup_cons_if, ih]
    split <;> rfl

theorem lookup_eq_none {k : String} {es : List (String × α)} :
    es.lookup k = none ↔ k ∉ es.map Prod.fst := by
  induction es with
  | nil => simp
  | cons e es ih =>
    rw [lookup_cons_if, List.map_cons, List.mem_cons]
    by_cases hk : k = e.1
    · simp [hk]
    · simp [hk, ih]

theorem mem_of_lookup {k : String} {v : α} {es : List (String × α)}
    (h : es.lookup k = some v) : (k, v) ∈ es := by
  induction es with
  | nil => simp at h
  | cons e es ih =>
    rw [lookup_cons_if] at h
    split at h
    · rename_i hk
      rw [hk, ← Option.some.inj h]
      exact List.mem_cons_self
    · exact List.mem_cons_of_mem _ (ih h)

theorem lookup_of_mem {es : List (String × α)} (h : (es.map Prod.fst).Nodup) {e : String × α}
    (he : e ∈ es) : es.lookup e.1 = some e.2 := by
  induction es with
  | nil => cases he
  | cons x es ih =>
    rw [List.map_cons, List.nodup_cons] at h
    rw [lookup_cons_if]
    rcases List.mem_cons.1 he with rfl | he
    · rw [if_pos rfl]
    · rw [if_neg fun hkey : e.1 = x.1 => h.1 (hkey ▸ List.mem_map_of_mem he), ih h.2 he]

end Lookup

/-! ## The entries of a map -/

namespace Entries

variable {α β : Type}

/-- Every key of a list of entries lies above their bound. -/
theorem above_of_mem {lo : Option String} {m : Entries α lo} {e : String × α}
    (h : e ∈ m.toList) : Above lo e.1 := by
  induction m with
  | nil => simp [toList] at h
  | @cons lo key above value rest ih =>
    rw [toList, List.mem_cons] at h
    rcases h with rfl | h
    · exact above
    · have hlt : key < e.1 := ih h
      cases lo with
      | none => trivial
      | some b => exact String.lt_trans above hlt

/-- The entries of a map are what it gives for its keys. -/
theorem mem_toList {lo : Option String} {m : Entries α lo} {k : String} {v : α} :
    (k, v) ∈ m.toList ↔ m.find? k = some v := by
  induction m with
  | nil => simp [toList, find?]
  | cons key above value rest ih =>
    rw [toList, List.mem_cons, find?]
    by_cases hk : k = key
    · subst hk
      have hrest : (k, v) ∉ rest.toList := fun h => String.lt_irrefl k (above_of_mem h)
      simp [hrest, eq_comm]
    · simp [hk, ih]

/-- No key stands twice among the entries. -/
theorem nodup_keys {lo : Option String} (m : Entries α lo) : (m.toList.map Prod.fst).Nodup := by
  induction m with
  | nil => exact List.nodup_nil
  | cons key above value rest ih =>
    rw [toList, List.map_cons, List.nodup_cons]
    refine ⟨?_, ih⟩
    intro h
    obtain ⟨e, he, rfl⟩ := List.mem_map.1 h
    exact String.lt_irrefl e.1 (above_of_mem he)

/-- Looking a key up among the entries is looking it up in the map. -/
theorem lookup_toList (k : String) {lo : Option String} (m : Entries α lo) :
    m.toList.lookup k = m.find? k := by
  induction m with
  | nil => rfl
  | cons key above value rest ih => rw [toList, lookup_cons_if, find?, ih]

theorem find?_map (f : α → β) (k : String) {lo : Option String} (m : Entries α lo) :
    (m.map f).find? k = (m.find? k).map f := by
  induction m with
  | nil => rfl
  | cons key above value rest ih =>
    rw [map, find?, find?, ih]
    split <;> rfl

/-- Transforming the values and back gives them again. -/
theorem traverse_map {ε : Type} {f : String → β → Except ε α} {g : α → β}
    (h : ∀ key a, f key (g a) = .ok a) {lo : Option String} (m : Entries α lo) :
    (m.map g).traverse f = .ok m := by
  induction m with
  | nil => rfl
  | cons key above value rest ih => rw [map, traverse, h key value, ih]

/-- Transforming the values and back gives them again. -/
theorem map_of_traverse {ε : Type} {f : String → α → Except ε β} {g : β → α}
    (h : ∀ key a b, f key a = .ok b → g b = a) {lo : Option String} {m : Entries α lo} :
    ∀ {n : Entries β lo}, m.traverse f = .ok n → n.map g = m := by
  induction m with
  | nil =>
    intro n hn
    cases hn
    rfl
  | cons key above value rest ih =>
    intro n hn
    rw [traverse] at hn
    split at hn
    · cases hn
    rename_i b hb
    split at hn
    · cases hn
    rename_i bs hbs
    cases hn
    rw [map, h key value b hb, ih hbs]

end Entries

/-! ## Building a map -/

namespace StringMap

variable {α : Type}

/-- Of two values for a key the later one counts. -/
theorem insert_insert (m : StringMap α) (key : String) (a b : α) :
    (m.insert key a).insert key b = m.insert key b :=
  ext fun k => by
    rw [find?_insert, find?_insert, find?_insert]
    split <;> rfl

/-- Inserting entries with distinct keys overrides the map at just these keys. -/
theorem find?_insertAll (k : String) (es : List (String × α)) : ∀ m : StringMap α,
    (es.map Prod.fst).Nodup → (m.insertAll es).find? k = (es.lookup k).or (m.find? k) := by
  induction es with
  | nil => intro m _; rfl
  | cons e es ih =>
    intro m h
    rw [List.map_cons, List.nodup_cons] at h
    show ((m.insert e.1 e.2).insertAll es).find? k = _
    rw [ih _ h.2, find?_insert, lookup_cons_if]
    by_cases hk : k = e.1
    · rw [if_pos hk, if_pos hk, lookup_eq_none.2 (hk ▸ h.1)]
      rfl
    · rw [if_neg hk, if_neg hk]

/-- A map built from entries with distinct keys holds just these. -/
theorem find?_ofList {es : List (String × α)} (h : (es.map Prod.fst).Nodup) (k : String) :
    (ofList es).find? k = es.lookup k := by
  rw [ofList, find?_insertAll k es empty h, find?_empty, Option.or_none]

end StringMap

end CompositionFunction
