import CompositionFunction.Proofs.Schema.NormalForm

/-!
# Values without floating-point numbers

The numbers of a written value are those of the value that it was read from: a record adds names and
texts, but no numbers. So what is read from a value without floating-point numbers is written
without them.

* `isFloatFree_memberAt?` : the members of such a value.
* `Shape.KeepsFloatFree` : what a shape writes for such a value.
* `Shape.record_keepsFloatFree` : a record keeps what its fields keep.
-/

set_option autoImplicit false

namespace CompositionFunction.Json

/-! ## Parts of values -/

theorem Document.areFloatFree_iff {ds : List Document} :
    areFloatFree ds = true ↔ ∀ d ∈ ds, d.isFloatFree = true := by
  induction ds with
  | nil => simp [areFloatFree]
  | cons d ds ih => rw [areFloatFree, Bool.and_eq_true, ih, List.forall_mem_cons]

theorem Document.haveFloatFreeValues_iff {ms : List (String × Document)} :
    haveFloatFreeValues ms = true ↔ ∀ m ∈ ms, m.2.isFloatFree = true := by
  induction ms with
  | nil => simp [haveFloatFreeValues]
  | cons m ms ih => rw [haveFloatFreeValues, Bool.and_eq_true, ih, List.forall_mem_cons]

theorem isFloatFree_array {vs : List Json} :
    (Json.array vs).document.isFloatFree = true ↔ ∀ v ∈ vs, v.document.isFloatFree = true := by
  rw [document, Document.isFloatFree, Document.areFloatFree_iff, itemDocuments_eq,
    List.forall_mem_map]

theorem isFloatFree_object {entries : JsonObject} :
    (Json.object entries).document.isFloatFree = true ↔
      ∀ k v, entries.find? k = some v → v.document.isFloatFree = true := by
  rw [document, Document.isFloatFree, Document.haveFloatFreeValues_iff]
  exact forall_memberDocuments (p := fun d => d.isFloatFree = true)

/-- A member of a record, by name or by place. -/
theorem isFloatFree_memberAt? {names : List String} {v w : Json} {name : String}
    (h : v.document.isFloatFree = true) (hw : Rule.memberAt? names v name = some w) :
    w.document.isFloatFree = true := by
  cases v with
  | object entries => exact isFloatFree_object.1 h name w hw
  | array vs => exact isFloatFree_array.1 h w (List.of_mem_zip (mem_of_lookup hw)).2
  | _ => cases hw

end CompositionFunction.Json

namespace CompositionFunction.Schema

open Json

/-! ## What shapes keep -/

/-- What the shape reads from a value without floating-point numbers, it writes without them. -/
def Shape.KeepsFloatFree {α : Type} (shape : Shape α) : Prop :=
  ∀ source v a, source.enter? = some source → shape.ofTree source (Json.tree v) = .ok a →
    v.document.isFloatFree = true → (shape.document a).isFloatFree = true

/-- The same for a field and the member that is found for it. -/
def Field.KeepsFloatFree {α : Type} (field : Field α) : Prop :=
  ∀ source found a, source.enter? = some source → field.Gives source (found.map Json.tree) a →
    (∀ v, found = some v → v.document.isFloatFree = true) →
      ∀ d, field.document? a = some d → d.isFloatFree = true

/-- The same for each field of a record. -/
inductive Fields.KeepFloatFree : {αs : List Type} → Fields αs → Prop where
  | nil : KeepFloatFree .nil
  | cons {α : Type} {αs : List Type} {field : Field α} {rest : Fields αs}
      (head : field.KeepsFloatFree) (tail : rest.KeepFloatFree) : KeepFloatFree (.cons field rest)

section Keeps

variable {α β : Type} {αs : List Type}

/-- A shape that writes no numbers at all keeps every value free of them. -/
theorem Shape.keepsFloatFree_of_document {shape : Shape α}
    (h : ∀ a, (shape.document a).isFloatFree = true) : shape.KeepsFloatFree :=
  fun _ _ a _ _ _ => h a

theorem Shape.object_keepsFloatFree : Shape.object.KeepsFloatFree := by
  intro source v entries _ h hv
  rw [eq_of_json?_tree (Shape.object_eq_ok.1 h)] at hv
  exact hv

theorem Shape.isFloatFree_texts (m : StringMap String) :
    ((Shape.map .text).document m).isFloatFree = true := by
  refine Document.haveFloatFreeValues_iff.2 fun x hx => ?_
  obtain ⟨_, _, rfl⟩ := List.mem_map.1 hx
  rfl

theorem Shape.map_keepsFloatFree {value : Shape α} (hvalue : value.KeepsFloatFree) :
    (Shape.map value).KeepsFloatFree := by
  intro source v m hfree h hv
  cases v with
  | object entries =>
    rw [tree_object, Shape.map_object (nodup_treeNames entries), hfree] at h
    obtain ⟨_, ⟨⟩, hread⟩ := h
    refine Document.haveFloatFreeValues_iff.2 fun x hx => ?_
    obtain ⟨⟨k, a⟩, hmem, rfl⟩ := List.mem_map.1 hx
    have ha : m.find? k = some a := Entries.mem_toList.1 hmem
    have hk := hread k
    rw [lookup_tree] at hk
    cases hw : entries.find? k with
    | none =>
      rw [hw] at hk
      cases ha.symm.trans hk
    | some w =>
      rw [hw] at hk
      obtain ⟨b, hb, hm⟩ := hk
      obtain rfl : a = b := Option.some.inj (ha.symm.trans hm)
      exact hvalue source w a hfree hb (isFloatFree_object.1 hv k w hw)
  | array vs => rw [tree_array] at h; cases h
  | _ => cases h

theorem Shape.via_keepsFloatFree {base : Shape α} {make : α → β} {parts : β → α}
    (hbase : base.KeepsFloatFree) (hparts : ∀ a, parts (make a) = a) :
    (base.via make parts).KeepsFloatFree := by
  intro source v b hfree h hv
  obtain ⟨a, ha, hmake⟩ := Shape.refined_eq_ok.1 h
  obtain rfl := Except.ok.inj hmake
  show (base.document (parts (make a))).isFloatFree = true
  rw [hparts]
  exact hbase source v a hfree ha hv

/-! ### Fields and records -/

theorem Field.optional_keepsFloatFree {name : String} {shape : Shape α}
    (hshape : shape.KeepsFloatFree) : (Field.optional name shape).KeepsFloatFree := by
  intro source found a hfree h hfound d hd
  cases found with
  | none =>
    obtain rfl := Option.some.inj h
    cases hd
  | some v =>
    have hread : (Field.optional name shape).ofTree source v.tree = .ok a := h
    by_cases hnull : v.tree = .null
    · rw [hnull] at hread
      obtain rfl := Except.ok.inj hread
      cases hd
    · rw [Field.optional_ofTree hnull] at hread
      obtain ⟨b, hb, rfl⟩ := map_eq_ok.1 hread
      obtain rfl := Option.some.inj hd
      exact hshape source v b hfree hb (hfound v rfl)

theorem Field.trimmed_keepsFloatFree {name : String} {shape : Shape α}
    (hshape : shape.KeepsFloatFree) (default : α) (same : DecidableEq α) :
    (Field.trimmed name shape default same).KeepsFloatFree := by
  intro source found a hfree h hfound d hd
  by_cases hdefault : a = default
  · rw [hdefault, Field.document?_trimmed_self] at hd
    cases hd
  · rw [Field.document?_trimmed_ne hdefault] at hd
    obtain rfl := Option.some.inj hd
    cases found with
    | none => exact absurd (Option.some.inj h).symm hdefault
    | some v => exact hshape source v a hfree h (hfound v rfl)

/-- A record writes no floating-point numbers if no field does. -/
theorem Fields.haveFloatFreeValues_cons {field : Field α} {rest : Fields αs} {a : α}
    {row : Row αs} :
    Document.haveFloatFreeValues ((Fields.cons field rest).members (a, row)) = true ↔
      (∀ d, field.document? a = some d → d.isFloatFree = true) ∧
        Document.haveFloatFreeValues (rest.members row) = true := by
  rw [Document.haveFloatFreeValues_iff, Document.haveFloatFreeValues_iff]
  exact Fields.forall_members_cons (p := fun d => d.isFloatFree = true)

theorem Fields.KeepFloatFree.members {fields : Fields αs} {source : Source}
    {find : String → Option Json} (h : fields.KeepFloatFree) (hfree : source.enter? = some source)
    (hfind : ∀ k v, find k = some v → v.document.isFloatFree = true) :
    ∀ {row : Row αs}, fields.Gives source (fun k => (find k).map Json.tree) row →
      Document.haveFloatFreeValues (fields.members row) = true := by
  induction h with
  | nil =>
    intro row _
    rfl
  | @cons _ _ field rest head tail ih =>
    rintro ⟨a, row⟩ ⟨hfield, hrest⟩
    exact Fields.haveFloatFreeValues_cons.2
      ⟨head source (find field.name) a hfree hfield (hfind field.name), ih hrest⟩

theorem Shape.record_keepsFloatFree {name : String} {fields : Fields αs}
    (hnames : fields.names.Nodup) (hfields : fields.KeepFloatFree) :
    (Shape.record name fields).KeepsFloatFree := by
  intro source v row hfree h hv
  exact hfields.members hfree (fun _ _ => isFloatFree_memberAt? hv)
    (Shape.record_gives hnames hfree h)

end Keeps

end CompositionFunction.Schema
