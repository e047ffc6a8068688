import CompositionFunction.Proofs.Json.Nesting

/-!
# Documents as trees

A document becomes a tree as it is written, or through what it means. Both ways keep texts and
arrays, and give the members of an object by their names; only the order of members differs.

* `faithful_tree`, `faithful_value` : the two ways to render a document as a tree.
-/

set_option autoImplicit false

namespace CompositionFunction.Json

/-- A rendering of documents as trees that keeps what they say; the order of members is free. -/
structure Faithful (write : Document → Tree) : Prop where
  text : ∀ s, write (.text s) = .text (some s)
  array : ∀ ds, write (.array ds) = .array (ds.map write)
  single : ∀ key d, write (.object [(key, d)]) = .object [(some key, write d)] .closed
  object : ∀ ms : List (String × Document), (ms.map Prod.fst).Nodup →
    ∃ ns, write (.object ms) = .object (named ns) .closed ∧ (ns.map Prod.fst).Nodup ∧
      ∀ k, ns.lookup k = (ms.lookup k).map write
  json : ∀ d source, source.Admits d.depth → (write d).json? source = some d.value

theorem itemTrees_eq (ds : List Document) : Document.itemTrees ds = ds.map Document.tree := by
  induction ds with
  | nil => rfl
  | cons d ds ih => rw [Document.itemTrees, List.map_cons, ih]

theorem memberTrees_eq (ms : List (String × Document)) :
    Document.memberTrees ms = named (ms.map fun m => (m.1, m.2.tree)) := by
  induction ms with
  | nil => rfl
  | cons m ms ih =>
    rw [Document.memberTrees, ih]
    rfl

/-- The tree of a document is a faithful rendering. -/
theorem faithful_tree : Faithful Document.tree where
  text _ := rfl
  array ds := by rw [Document.tree, itemTrees_eq]
  single _ _ := rfl
  object ms hdistinct := by
    refine ⟨ms.map fun m => (m.1, m.2.tree), by rw [Document.tree, memberTrees_eq], ?_, ?_⟩
    · rw [List.map_map]
      exact hdistinct
    · intro k
      exact lookup_map_snd Document.tree k ms
  json d _ h := json?_tree d h

theorem itemDocuments_eq (vs : List Json) : itemDocuments vs = vs.map document := by
  induction vs with
  | nil => rfl
  | cons v vs ih => rw [itemDocuments, List.map_cons, ih]

theorem itemValues_eq (ds : List Document) : Document.itemValues ds = ds.map Document.value := by
  induction ds with
  | nil => rfl
  | cons d ds ih => rw [Document.itemValues, List.map_cons, ih]

theorem tree_array (vs : List Json) : Json.tree (.array vs) = .array (vs.map Json.tree) := by
  unfold Json.tree
  rw [document, Document.tree, itemTrees_eq, itemDocuments_eq, List.map_map]
  rfl

theorem tree_object (entries : JsonObject) : Json.tree (.object entries) =
    .object (named (entries.toList.map fun e => (e.1, e.2.tree))) .closed := by
  unfold Json.tree
  rw [document, Document.tree, memberTrees_eq, memberDocuments_eq, List.map_map]
  rfl

/-- The members of the tree of a value, by name. -/
theorem nodup_treeNames (entries : JsonObject) :
    ((entries.toList.map fun e => (e.1, Json.tree e.2)).map Prod.fst).Nodup := by
  rw [List.map_map]
  exact entries.nodup_keys

theorem lookup_tree (entries : JsonObject) (k : String) :
    (entries.toList.map fun e => (e.1, Json.tree e.2)).lookup k =
      (entries.find? k).map Json.tree := by
  rw [lookup_map_snd, Entries.lookup_toList]

/-- What a document with distinct names means, by name. -/
theorem find?_memberValues {ms : List (String × Document)} (h : (ms.map Prod.fst).Nodup)
    (k : String) :
    (Document.memberValues .empty ms).find? k = (ms.lookup k).map Document.value := by
  rw [Document.memberValues_eq, ← StringMap.ofList, StringMap.find?_ofList, lookup_map_snd]
  rw [List.map_map]
  exact h

/-- The tree of what a document means is a faithful rendering. -/
theorem faithful_value : Faithful fun d => d.value.tree where
  text _ := rfl
  array ds := by
    rw [Document.value, tree_array, itemValues_eq, List.map_map]
    rfl
  single _ _ := rfl
  object ms hdistinct := by
    refine ⟨_, by rw [Document.value, tree_object], nodup_treeNames _, fun k => ?_⟩
    rw [lookup_tree, find?_memberValues hdistinct, Option.map_map]
    rfl
  json d source h := by
    have hread : d.tree.json? (.text d.depth) = some d.value := json?_tree d (Nat.le_refl _)
    have hdepth : d.value.document.depth ≤ d.depth := depth_le_of_json? d.tree hread
    show d.value.document.tree.json? source = _
    rw [json?_tree d.value.document (h.mono hdepth), Document.value_document]

/-! ## What faithful renderings have in common -/

section Common

variable {write : Document → Tree}

/-- Every member of a rendered object is read as an ordinary value. -/
theorem Faithful.readable (hw : Faithful write) {source : Source}
    {ms : List (String × Document)} (hadmits : source.Admits (Document.membersDepth ms))
    {ns : List (String × Tree)} (hdistinct : (ns.map Prod.fst).Nodup)
    (hlookup : ∀ k, ns.lookup k = (ms.lookup k).map write) :
    ∀ n ∈ ns, ∃ v, n.2.json? source = some v := by
  intro n hn
  have hread := lookup_of_mem hdistinct hn
  rw [hlookup] at hread
  obtain ⟨d, hd, hwrite⟩ := Option.map_eq_some_iff.1 hread
  have hdepth := Document.membersDepth_le_iff.1 (Nat.le_refl _) _ (mem_of_lookup hd)
  exact ⟨d.value, hwrite ▸ hw.json d source (hadmits.mono hdepth)⟩

/-- Only null is rendered as null. -/
theorem Faithful.ne_null (hw : Faithful write) {d : Document} (h : d ≠ .null) :
    write d ≠ .null := by
  intro hnull
  have hread := hw.json d .value trivial
  rw [hnull, Tree.json?, Option.some.injEq] at hread
  cases d with
  | null => exact h rfl
  | _ => cases hread

end Common

end CompositionFunction.Json
