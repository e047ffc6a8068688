import CompositionFunction.Proofs.StringMap

/-!
# The last of several writes

A state is changed step by step, and each step may write a value that is looked at later. What is
seen in the end is the value that was written last, or the one seen before if none was.

* `foldl_last_write` : the value seen after all steps.
* `find?_insertAll_last` : a map filled from a list holds the last value of each key.
-/

set_option autoImplicit false

namespace CompositionFunction

/-! ## Steps that write -/

section Steps

variable {σ β α : Type} {step : σ → β → σ} {bs : List β}

theorem or_getLast?_filterMap_cons (write : β → Option α) (b : β) (bs : List β) (x : Option α) :
    ((b :: bs).filterMap write).getLast?.or x =
      (bs.filterMap write).getLast?.or ((write b).or x) := by
  cases hb : write b with
  | none => simp [hb]
  | some a =>
    cases hlast : (bs.filterMap write).getLast? with
    | none => simp [hb, List.getLast?_cons, hlast]
    | some z => simp [hb, List.getLast?_cons, hlast]

/-- Where each step overwrites what is seen or leaves it, the last value written is seen. -/
theorem foldl_last_write (view : σ → Option α) {write : β → Option α}
    (h : ∀ b ∈ bs, ∀ s, view (step s b) = (write b).or (view s)) (s : σ) :
    view (bs.foldl step s) = (bs.filterMap write).getLast?.or (view s) := by
  induction bs generalizing s with
  | nil => rfl
  | cons b bs ih =>
    rw [List.foldl_cons, ih fun x hx => h x (List.mem_cons_of_mem _ hx),
      h b List.mem_cons_self, or_getLast?_filterMap_cons]

/-- Where each step adds at most one item, the items stand in the order of the steps. -/
theorem foldl_collect (view : σ → List α) {write : β → Option α}
    (h : ∀ b ∈ bs, ∀ s, view (step s b) = view s ++ (write b).toList) (s : σ) :
    view (bs.foldl step s) = view s ++ bs.filterMap write := by
  induction bs generalizing s with
  | nil => simp
  | cons b bs ih =>
    rw [List.foldl_cons, ih fun x hx => h x (List.mem_cons_of_mem _ hx), h b List.mem_cons_self]
    cases hb : write b with
    | none => simp [hb]
    | some a => simp [hb]

/-- Where each step may bring something about, it is there if it was or if one step did. -/
theorem foldl_any (view : σ → Bool) {write : β → Bool}
    (h : ∀ b ∈ bs, ∀ s, view (step s b) = (write b || view s)) (s : σ) :
    view (bs.foldl step s) = (bs.any write || view s) := by
  induction bs generalizing s with
  | nil => simp
  | cons b bs ih =>
    rw [List.foldl_cons, ih fun x hx => h x (List.mem_cons_of_mem _ hx), h b List.mem_cons_self,
      List.any_cons, ← Bool.or_assoc, Bool.or_comm (bs.any write)]

/-- What no step changes is seen as before. -/
theorem foldl_unchanged (view : σ → α) (h : ∀ b ∈ bs, ∀ s, view (step s b) = view s) (s : σ) :
    view (bs.foldl step s) = view s := by
  induction bs generalizing s with
  | nil => rfl
  | cons b bs ih =>
    rw [List.foldl_cons, ih fun x hx => h x (List.mem_cons_of_mem _ hx), h b List.mem_cons_self]

end Steps

/-! ## Entries of which the last one counts -/

section LastAt

variable {α β : Type}

/-- The value that stands last under a key. -/
def lastAt? (k : String) (es : List (String × α)) : Option α :=
  (es.filterMap fun e => if e.1 = k then some e.2 else none).getLast?

/-- What stands last after a transformation of the values. -/
theorem lastAt?_map (f : α → β) (k : String) (es : List (String × α)) :
    lastAt? k (es.map fun e => (e.1, f e.2)) = (lastAt? k es).map f := by
  unfold lastAt?
  rw [List.filterMap_map, ← List.getLast?_map, List.map_filterMap]
  congr 2
  funext e
  by_cases he : e.1 = k <;> simp [he]

/-- A later list decides where it has the key. -/
theorem lastAt?_append (k : String) (es fs : List (String × α)) :
    lastAt? k (es ++ fs) = (lastAt? k fs).or (lastAt? k es) := by
  unfold lastAt?
  rw [List.filterMap_append, List.getLast?_append]

theorem mem_of_lastAt? {k : String} {a : α} {es : List (String × α)}
    (h : lastAt? k es = some a) : (k, a) ∈ es := by
  obtain ⟨e, he, hentry⟩ := List.mem_filterMap.1 (List.mem_of_getLast? h)
  split at hentry
  · rename_i hk
    cases hentry
    exact hk ▸ he
  · cases hentry

theorem lastAt?_eq_none {k : String} {es : List (String × α)} :
    lastAt? k es = none ↔ k ∉ es.map Prod.fst := by
  unfold lastAt?
  rw [List.getLast?_eq_none_iff, List.filterMap_eq_nil_iff]
  constructor
  · intro h hk
    obtain ⟨e, he, rfl⟩ := List.mem_map.1 hk
    simpa using h e he
  · exact fun h e he => if_neg fun hk : e.1 = k => h (hk ▸ List.mem_map_of_mem he)

/-- Lists without a common key may stand in either order. -/
theorem lastAt?_append_comm {es fs : List (String × α)}
    (h : ∀ k ∈ es.map Prod.fst, k ∉ fs.map Prod.fst) (k : String) :
    lastAt? k (es ++ fs) = lastAt? k (fs ++ es) := by
  rw [lastAt?_append, lastAt?_append]
  by_cases hk : k ∈ es.map Prod.fst
  · rw [lastAt?_eq_none.2 (h k hk), Option.none_or, Option.or_none]
  · rw [lastAt?_eq_none.2 hk, Option.none_or, Option.or_none]

/-- Where no key stands twice, each entry is the last one of its key. -/
theorem lastAt?_eq_some_iff {es : List (String × α)} (h : (es.map Prod.fst).Nodup) {k : String}
    {a : α} : lastAt? k es = some a ↔ (k, a) ∈ es := by
  refine ⟨mem_of_lastAt?, fun hmem => ?_⟩
  cases hlast : lastAt? k es with
  | none => exact absurd (List.mem_map_of_mem hmem) (lastAt?_eq_none.1 hlast)
  | some b =>
    have ha := lookup_of_mem h hmem
    have hb := lookup_of_mem h (mem_of_lastAt? hlast)
    exact congrArg some (Option.some.inj (hb.symm.trans ha))

/-- Where no key stands twice, the order of the entries does not matter. -/
theorem lastAt?_perm {es fs : List (String × α)} (h : (es.map Prod.fst).Nodup)
    (hperm : es.Perm fs) (k : String) : lastAt? k es = lastAt? k fs := by
  refine Option.ext fun a => ?_
  rw [lastAt?_eq_some_iff h, lastAt?_eq_some_iff ((hperm.map Prod.fst).nodup_iff.1 h),
    hperm.mem_iff]

end LastAt

/-- A map filled from a list holds the last value of each key, and else what it held. -/
theorem StringMap.find?_insertAll_last {α : Type} (k : String) (es : List (String × α))
    (m : StringMap α) : (m.insertAll es).find? k = (lastAt? k es).or (m.find? k) := by
  refine foldl_last_write (fun m : StringMap α => m.find? k) (fun e _ m => ?_) m
  show (m.insert e.1 e.2).find? k = _
  rw [find?_insert]
  by_cases hk : k = e.1
  · simp [hk]
  · simp [hk, Ne.symm hk]

/-- Only the last value of each key counts for a map filled from a list. -/
theorem StringMap.insertAll_congr {α : Type} {es fs : List (String × α)}
    (h : ∀ k, lastAt? k es = lastAt? k fs) (m : StringMap α) : m.insertAll es = m.insertAll fs :=
  StringMap.ext fun k => by rw [find?_insertAll_last, find?_insertAll_last, h k]

/-- A map built from a list gives the last value of each key. -/
theorem StringMap.find?_ofList_last {α : Type} (k : String) (es : List (String × α)) :
    (StringMap.ofList es).find? k = lastAt? k es := by
  rw [ofList, find?_insertAll_last, find?_empty, Option.or_none]

/-- A map is the one built from its own entries, in whatever order they are listed. -/
theorem StringMap.ofList_of_perm {α : Type} {es : List (String × α)} {m : StringMap α}
    (h : es.Perm m.toList) : StringMap.ofList es = m := by
  have hnodup : (es.map Prod.fst).Nodup := (h.map Prod.fst).nodup_iff.2 (Entries.nodup_keys m)
  calc StringMap.ofList es
      = StringMap.ofList m.toList := insertAll_congr (lastAt?_perm hnodup h) .empty
    _ = m := ofList_toList m

/-- Transforming the values of a map that was added to. -/
theorem StringMap.map_insertAll {α β : Type} (f : α → β) (m : StringMap α)
    (es : List (String × α)) :
    Entries.map f (m.insertAll es) =
      StringMap.insertAll (Entries.map f m) (es.map fun e => (e.1, f e.2)) := by
  refine StringMap.ext fun k => ?_
  rw [Entries.find?_map, find?_insertAll_last, find?_insertAll_last, lastAt?_map, Entries.find?_map,
    Option.map_or]

end CompositionFunction
