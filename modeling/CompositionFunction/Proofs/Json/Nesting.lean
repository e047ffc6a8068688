import CompositionFunction.Proofs.Json.Members

/-!
# How deep documents nest

The depth of a document is the number of containers around its innermost part. A source of trees
admits a depth if so many containers may be entered in it.

* `json?_tree` : the tree of a document of an admitted depth is read as what the document means.
* `depth_le_of_json?` : a value that is read from a text nests no deeper than the text may.
-/

set_option autoImplicit false

namespace CompositionFunction.Json

/-! ## Depth -/

namespace Document

mutual

/-- The number of containers around the innermost part. -/
def depth : Document → Nat
  | .array items => itemsDepth items + 1
  | .object members => membersDepth members + 1
  | _ => 0
termination_by structural d => d

/-- The greatest depth of some documents. -/
def itemsDepth : List Document → Nat
  | [] => 0
  | d :: ds => max d.depth (itemsDepth ds)
termination_by structural ds => ds

/-- The greatest depth of the values of some members. -/
def membersDepth : List (String × Document) → Nat
  | [] => 0
  | (_, d) :: ms => max d.depth (membersDepth ms)
termination_by structural ms => ms

end

theorem itemsDepth_le_iff {n : Nat} {ds : List Document} :
    itemsDepth ds ≤ n ↔ ∀ d ∈ ds, d.depth ≤ n := by
  induction ds with
  | nil => simp [itemsDepth]
  | cons d ds ih => rw [itemsDepth, Nat.max_le, ih, List.forall_mem_cons]

theorem membersDepth_le_iff {n : Nat} {ms : List (String × Document)} :
    membersDepth ms ≤ n ↔ ∀ m ∈ ms, m.2.depth ≤ n := by
  induction ms with
  | nil => simp [membersDepth]
  | cons m ms ih => rw [membersDepth, Nat.max_le, ih, List.forall_mem_cons]

end Document

/-! ## Sources -/

namespace Source

/-- Containers of this depth may be entered. -/
def Admits : Source → Nat → Prop
  | .text levels, depth => depth ≤ levels
  | _, _ => True

theorem Admits.mono {source : Source} {n k : Nat} (h : source.Admits n) (hle : k ≤ n) :
    source.Admits k := by
  cases source with
  | text levels => exact Nat.le_trans hle h
  | value => trivial
  | setAside => trivial

theorem Admits.enter {source : Source} {n : Nat} (h : source.Admits (n + 1)) :
    ∃ inner, source.enter? = some inner ∧ inner.Admits n := by
  cases source with
  | text levels =>
    cases levels with
    | zero => exact absurd h (Nat.not_succ_le_zero n)
    | succ levels => exact ⟨.text levels, rfl, Nat.le_of_succ_le_succ h⟩
  | value => exact ⟨.value, rfl, trivial⟩
  | setAside => exact ⟨.setAside, rfl, trivial⟩

end Source

/-! ## Written documents as ordinary values -/

mutual

/-- **The tree of a document of an admitted depth is read as what the document means.** -/
theorem json?_tree : ∀ (d : Document) {source : Source}, source.Admits d.depth →
    d.tree.json? source = some d.value
  | .null, source, _ => by rw [Document.tree, Tree.json?, Document.value]
  | .bool b, source, _ => by rw [Document.tree, Tree.json?, Document.value]
  | .number n, source, _ => by rw [Document.tree, Tree.json?, Document.value]; rfl
  | .text s, source, _ => by rw [Document.tree, Tree.json?, Document.value]; rfl
  | .array items, source, h => by
    rw [Document.depth] at h
    obtain ⟨inner, henter, hinner⟩ := h.enter
    rw [Document.tree, Tree.json?, henter, Document.value]
    simp only [jsonItems?_itemTrees items hinner, Option.map_some]
  | .object members, source, h => by
    rw [Document.depth] at h
    obtain ⟨inner, henter, hinner⟩ := h.enter
    rw [Document.tree, Tree.json?, henter, Document.value]
    simp only [jsonMembers?_memberTrees members .empty hinner, if_true]

theorem jsonItems?_itemTrees : ∀ (ds : List Document) {source : Source},
    source.Admits (Document.itemsDepth ds) →
      Tree.jsonItems? source (Document.itemTrees ds) = some (Document.itemValues ds)
  | [], source, _ => by rw [Document.itemTrees, Tree.jsonItems?, Document.itemValues]
  | d :: ds, source, h => by
    rw [Document.itemsDepth] at h
    rw [Document.itemTrees, Tree.jsonItems?, json?_tree d (h.mono (Nat.le_max_left _ _)),
      Document.itemValues]
    simp only [jsonItems?_itemTrees ds (h.mono (Nat.le_max_right _ _)), Option.map_some]

theorem jsonMembers?_memberTrees : ∀ (ms : List (String × Document)) (before : JsonObject)
    {source : Source}, source.Admits (Document.membersDepth ms) →
      Tree.jsonMembers? source before (Document.memberTrees ms) =
        some (Document.memberValues before ms)
  | [], before, source, _ => by
    rw [Document.memberTrees, Tree.jsonMembers?, Document.memberValues]
  | (key, d) :: ms, before, source, h => by
    rw [Document.membersDepth] at h
    rw [Document.memberTrees, Tree.jsonMembers?, json?_tree d (h.mono (Nat.le_max_left _ _)),
      Document.memberValues]
    exact jsonMembers?_memberTrees ms _ (h.mono (Nat.le_max_right _ _))

end

/-! ## Values read from a text -/

theorem memberDocuments_eq {lo : Option String} (entries : Entries Json lo) :
    memberDocuments entries = entries.toList.map fun e => (e.1, e.2.document) := by
  induction entries with
  | nil => rfl
  | cons key _ v rest ih => rw [memberDocuments, Entries.toList, List.map_cons, ih]

/-- What holds for the documents of all members holds key by key. -/
theorem forall_memberDocuments {p : Document → Prop} {entries : JsonObject} :
    (∀ m ∈ memberDocuments entries, p m.2) ↔
      ∀ k v, entries.find? k = some v → p v.document := by
  rw [memberDocuments_eq]
  constructor
  · intro h k v hk
    exact h (k, v.document) (List.mem_map_of_mem (Entries.mem_toList.2 hk))
  · intro h m hm
    obtain ⟨e, he, rfl⟩ := List.mem_map.1 hm
    exact h e.1 e.2 (Entries.mem_toList.1 he)

theorem membersDepth_memberDocuments_le {n : Nat} {entries : JsonObject} :
    Document.membersDepth (memberDocuments entries) ≤ n ↔
      ∀ k v, entries.find? k = some v → v.document.depth ≤ n :=
  Document.membersDepth_le_iff.trans (forall_memberDocuments (p := fun d => d.depth ≤ n))

mutual

/-- **A value that is read from a text nests no deeper than the text may.** -/
theorem depth_le_of_json? : ∀ (t : Tree) {levels : Nat} {v : Json},
    t.json? (.text levels) = some v → v.document.depth ≤ levels
  | .null, levels, v, h => by
    rw [Tree.json?, Option.some.injEq] at h
    rw [← h]; exact Nat.zero_le _
  | .bool b, levels, v, h => by
    rw [Tree.json?, Option.some.injEq] at h
    rw [← h]; exact Nat.zero_le _
  | .number n, levels, v, h => by
    rw [Tree.json?] at h
    obtain ⟨x, _, rfl⟩ := Option.map_eq_some_iff.1 h
    exact Nat.zero_le _
  | .text s, levels, v, h => by
    rw [Tree.json?] at h
    obtain ⟨x, _, rfl⟩ := Option.map_eq_some_iff.1 h
    exact Nat.zero_le _
  | .array ts, levels, v, h => by
    obtain ⟨inner, vs, henter, hvs, rfl⟩ := Tree.json?_array h
    cases levels with
    | zero => cases henter
    | succ levels =>
      cases henter
      rw [document, Document.depth]
      exact Nat.succ_le_succ (itemsDepth_le_of_jsonItems? ts hvs)
  | .object members ending, levels, v, h => by
    obtain ⟨inner, ms, entries, henter, hms, _, hentries, _, rfl⟩ := Tree.json?_object h
    cases levels with
    | zero => cases henter
    | succ levels =>
      cases henter
      rw [document, Document.depth]
      refine Nat.succ_le_succ (membersDepth_memberDocuments_le.2 fun k v hk => ?_)
      rw [← hms] at hentries
      exact depth_le_of_jsonMembers? members (by simp) hentries k v hk
  | .broken, levels, v, h => by rw [Tree.json?] at h; cases h

theorem itemsDepth_le_of_jsonItems? : ∀ (ts : List Tree) {levels : Nat} {vs : List Json},
    Tree.jsonItems? (.text levels) ts = some vs →
      Document.itemsDepth (itemDocuments vs) ≤ levels
  | [], levels, vs, h => by
    rw [Tree.jsonItems?, Option.some.injEq] at h
    rw [← h]; exact Nat.zero_le _
  | t :: ts, levels, vs, h => by
    rw [Tree.jsonItems?] at h
    split at h
    · cases h
    rename_i v hv
    obtain ⟨us, hus, rfl⟩ := Option.map_eq_some_iff.1 h
    rw [itemDocuments, Document.itemsDepth]
    exact Nat.max_le.2 ⟨depth_le_of_json? t hv, itemsDepth_le_of_jsonItems? ts hus⟩

theorem depth_le_of_jsonMembers? : ∀ (members : List (Option String × Tree)) {levels : Nat}
    {before entries : JsonObject},
      (∀ k v, before.find? k = some v → v.document.depth ≤ levels) →
        Tree.jsonMembers? (.text levels) before members = some entries →
          ∀ k v, entries.find? k = some v → v.document.depth ≤ levels
  | [], levels, before, entries, hbefore, h, k, v, hk => by
    rw [Tree.jsonMembers?, Option.some.injEq] at h
    exact hbefore k v (h ▸ hk)
  | (none, t) :: members, levels, before, entries, _, h, k, v, hk => by
    simp [Tree.jsonMembers?] at h
  | (some name, t) :: members, levels, before, entries, hbefore, h, k, v, hk => by
    rw [Tree.jsonMembers?] at h
    split at h
    · cases h
    rename_i w hw
    refine depth_le_of_jsonMembers? members (fun k' v' hk' => ?_) h k v hk
    rw [StringMap.find?_insert] at hk'
    split at hk'
    · rw [← Option.some.inj hk']; exact depth_le_of_json? t hw
    · exact hbefore k' v' hk'

end

end CompositionFunction.Json
