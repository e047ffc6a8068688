import CompositionFunction.Proofs.Json.Outline
import CompositionFunction.Proofs.Json.Rendering
import CompositionFunction.Proofs.Schema.Record
import CompositionFunction.Schema.Write

/-!
# Reading back what was written

A lawful shape reads what it writes as the value it was written for, from the text as well as from
the value of the document. Both are ways to render a document as a tree that keep its texts, its
arrays and what it means, and give the members of an object by their names.

* `Shape.readsBack` : the round trip for every faithful rendering.
* `Shape.ofText_render` : the round trip through text.
* `Shape.ofValue_value` : the round trip through values.
-/

set_option autoImplicit false

namespace CompositionFunction.Schema

open Json

/-! ## Lawful shapes -/

mutual

/-- A shape whose names are distinct and whose decoding undoes its encoding. -/
def Shape.Lawful : {α : Type} → Shape α → Prop
  | _, .any => True
  | _, .text => True
  | _, .object => True
  | _, .map value => value.Lawful
  | _, .list item => item.Lawful
  | _, .choice options label => ∀ a, options.lookup (label a) = some a
  | _, .either left leftValue right rightValue =>
    left ≠ right ∧ leftValue.Lawful ∧ rightValue.Lawful
  | _, .record _ fields => fields.names.Nodup ∧ fields.Lawful
  | _, .recordWith _ fields _ left leftValue right rightValue =>
    (left :: right :: fields.names).Nodup ∧ fields.Lawful ∧ leftValue.Lawful ∧ rightValue.Lawful
  | _, .refined base decode encode =>
    base.Lawful ∧ (∀ b, decode (encode b) = .ok b) ∧
      ∀ a b, decode a = .ok b → (base.document (encode b)).depth ≤ (base.document a).depth
termination_by structural _ s => s

/-- A field of a lawful shape; one that may be null is never written as null. -/
def Field.Lawful : {α : Type} → Field α → Prop
  | _, .required _ shape => shape.Lawful
  | _, .defaulted _ shape _ => shape.Lawful
  | _, .trimmed _ shape _ _ => shape.Lawful
  | _, .optional _ shape => shape.Lawful ∧ ∀ a, shape.document a ≠ .null
termination_by structural _ f => f

/-- All fields are lawful. -/
def Fields.Lawful : {αs : List Type} → Fields αs → Prop
  | _, .nil => True
  | _, .cons field rest => field.Lawful ∧ rest.Lawful
termination_by structural _ fs => fs

end

/-- A one-to-one correspondence keeps a shape lawful. -/
theorem Shape.via_lawful {α β : Type} {base : Shape α} {make : α → β} {parts : β → α}
    (hbase : base.Lawful) (hmake : ∀ b, make (parts b) = b) (hparts : ∀ a, parts (make a) = a) :
    (base.via make parts).Lawful := by
  refine ⟨hbase, fun b => congrArg Except.ok (hmake b), fun a b h => ?_⟩
  obtain rfl := Except.ok.inj h
  exact Nat.le_of_eq (by rw [hparts])

/-! ## What records write -/

section Trimmed

variable {α : Type} {name : String} {shape : Shape α} {a : α} {same : DecidableEq α}

/-- The default of a trimmed field is not written. -/
theorem Field.document?_trimmed_self : (Field.trimmed name shape a same).document? a = none := by
  rw [document?]
  cases same a a with
  | isTrue _ => rfl
  | isFalse hne => exact absurd rfl hne

/-- Any other value of a trimmed field is written. -/
theorem Field.document?_trimmed_ne {default : α} (h : a ≠ default) :
    (Field.trimmed name shape default same).document? a = some (shape.document a) := by
  rw [document?]
  cases same a default with
  | isTrue heq => exact absurd heq h
  | isFalse _ => rfl

end Trimmed

section Members

variable {αs : List Type}

theorem Fields.members_cons {α : Type} (field : Field α) (rest : Fields αs) (a : α)
    (row : Row αs) : (Fields.cons field rest).members (a, row) =
      match field.document? a with
      | some d => (field.name, d) :: rest.members row
      | none => rest.members row :=
  rfl

/-- What holds for all members holds for what each field writes. -/
theorem Fields.forall_members_cons {α : Type} {p : Document → Prop} {field : Field α}
    {rest : Fields αs} {a : α} {row : Row αs} :
    (∀ m ∈ (Fields.cons field rest).members (a, row), p m.2) ↔
      (∀ d, field.document? a = some d → p d) ∧ ∀ m ∈ rest.members row, p m.2 := by
  rw [members_cons]
  cases field.document? a with
  | none => simp
  | some d => simp

/-- A record writes members of its own names, in their order. -/
theorem Fields.members_names : ∀ {αs : List Type} (fields : Fields αs) (row : Row αs),
    ((fields.members row).map Prod.fst).Sublist fields.names
  | _, .nil, _ => List.Sublist.refl []
  | _, .cons field rest, (a, row) => by
    rw [members_cons, names]
    have ih := rest.members_names row
    cases field.document? a with
    | none => exact ih.cons field.name
    | some d => exact ih.cons_cons field.name

/-- The member of a field is the one that the field writes. -/
theorem Fields.lookup_members_head {α : Type} {field : Field α} {rest : Fields αs}
    (h : field.name ∉ rest.names) (a : α) (row : Row αs) :
    ((Fields.cons field rest).members (a, row)).lookup field.name = field.document? a := by
  rw [members_cons]
  cases field.document? a with
  | none => exact lookup_eq_none.2 fun hmem => h ((rest.members_names row).subset hmem)
  | some d => exact List.lookup_cons_self

theorem Fields.lookup_members_rest {α : Type} {field : Field α} {rest : Fields αs} {k : String}
    (h : k ≠ field.name) (a : α) (row : Row αs) :
    ((Fields.cons field rest).members (a, row)).lookup k = (rest.members row).lookup k := by
  rw [members_cons]
  cases field.document? a with
  | none => rfl
  | some d => rw [lookup_cons_if, if_neg h]

/-- One member more, under a name of its own, does not hide a field. -/
theorem Fields.lookup_append {fields : Fields αs} {key k : String} (hkey : key ∉ fields.names)
    (hk : k ∈ fields.names) (row : Row αs) (d : Document) :
    (fields.members row ++ [(key, d)]).lookup k = (fields.members row).lookup k := by
  rw [List.lookup_append, lookup_cons_if, if_neg fun e : k = key => hkey (e ▸ hk)]
  exact Option.or_none

theorem Fields.lookup_append_other {fields : Fields αs} {k : String} (hk : k ∉ fields.names)
    (key : String) (row : Row αs) (d : Document) :
    (fields.members row ++ [(key, d)]).lookup k = if k = key then some d else none := by
  have habsent : (fields.members row).lookup k = none :=
    lookup_eq_none.2 fun h => hk ((fields.members_names row).subset h)
  rw [List.lookup_append, habsent, Option.none_or, lookup_cons_if]
  rfl

theorem Fields.nodup_append {fields : Fields αs} {key : String} (hkey : key ∉ fields.names)
    (hnames : fields.names.Nodup) (row : Row αs) (d : Document) :
    ((fields.members row ++ [(key, d)]).map Prod.fst).Nodup := by
  have hsub := fields.members_names row
  rw [List.map_append, List.nodup_append]
  refine ⟨hnames.sublist hsub, List.pairwise_singleton _ key, ?_⟩
  intro a ha b hb hab
  rw [hab, List.mem_singleton.1 hb] at ha
  exact hkey (hsub.subset ha)

end Members

/-! ## The round trip -/

/-- The shape reads back what it writes, from sources that go as deep. -/
def Shape.ReadsBack (write : Document → Tree) {α : Type} (shape : Shape α) : Prop :=
  ∀ (source : Source) (a : α), source.Admits (shape.document a).depth →
    shape.ofTree source (write (shape.document a)) = .ok a

/-- The field is read back from the member that it writes, or from there being none. -/
def Field.ReadsBack (write : Document → Tree) {α : Type} (field : Field α) : Prop :=
  ∀ (source : Source) (a : α), (∀ d, field.document? a = some d → source.Admits d.depth) →
    field.Gives source ((field.document? a).map write) a

/-- The fields are read back from the members that they write. -/
def Fields.ReadBack (write : Document → Tree) {αs : List Type} (fields : Fields αs) : Prop :=
  ∀ (source : Source) (row : Row αs),
    source.Admits (Document.membersDepth (fields.members row)) →
      fields.Gives source (fun k => ((fields.members row).lookup k).map write) row

section RoundTrip

variable {write : Document → Tree} {α β : Type} {αs : List Type} {fields : Fields αs}

/-! ### Values, maps and lists -/

theorem Shape.any_readsBack (hw : Faithful write) : Shape.any.ReadsBack write := by
  intro source v hadmits
  have hread := hw.json v.document source hadmits
  rw [Document.value_document] at hread
  exact Shape.any_eq_ok.2 hread

theorem Shape.object_readsBack (hw : Faithful write) : Shape.object.ReadsBack write := by
  intro source entries hadmits
  have hread := hw.json (Json.object entries).document source hadmits
  rw [Document.value_document] at hread
  exact Shape.object_eq_ok.2 hread

theorem Shape.text_readsBack (hw : Faithful write) : Shape.text.ReadsBack write := by
  intro source s _
  rw [Shape.document, hw.text]
  rfl

theorem Shape.map_readsBack (hw : Faithful write) {value : Shape α}
    (hvalue : value.ReadsBack write) : (Shape.map value).ReadsBack write := by
  intro source m hadmits
  have hnames : ((m.toList.map fun e => (e.1, value.document e.2)).map Prod.fst).Nodup := by
    rw [List.map_map]
    exact m.nodup_keys
  rw [Shape.document, Document.depth] at hadmits
  obtain ⟨inner, henter, hinner⟩ := hadmits.enter
  obtain ⟨ns, hns, hdistinct, hlookup⟩ := hw.object _ hnames
  rw [Shape.document, hns]
  refine (Shape.map_object hdistinct m).2 ⟨inner, henter, ?_⟩
  intro k
  rw [hlookup, lookup_map_snd, Entries.lookup_toList]
  cases hk : m.find? k with
  | none => exact rfl
  | some v =>
    have hmem := List.mem_map_of_mem (f := fun e => (e.1, value.document e.2))
      (Entries.mem_toList.2 hk)
    have hdepth := Document.membersDepth_le_iff.1 (Nat.le_refl _) _ hmem
    exact ⟨v, hvalue inner v (hinner.mono hdepth), rfl⟩

theorem readItems_map {f : Tree → Except Refusal α} (g : α → Tree) {as : List α}
    (h : ∀ a ∈ as, f (g a) = .ok a) : readItems f (as.map g) = .ok as := by
  induction as with
  | nil => rfl
  | cons a as ih =>
    have hrest := ih fun b hb => h b (List.mem_cons_of_mem _ hb)
    exact readItems_cons.2 ⟨a, as, h a List.mem_cons_self, hrest, rfl⟩

theorem Shape.list_readsBack (hw : Faithful write) {item : Shape α}
    (hitem : item.ReadsBack write) : (Shape.list item).ReadsBack write := by
  intro source as hadmits
  rw [Shape.document, Document.depth] at hadmits
  obtain ⟨inner, henter, hinner⟩ := hadmits.enter
  rw [Shape.document, hw.array, List.map_map]
  refine Shape.list_array.2 ⟨inner, henter, readItems_map _ ?_⟩
  intro a ha
  have hmem := List.mem_map_of_mem (f := fun a => item.document a) ha
  have hdepth := Document.itemsDepth_le_iff.1 (Nat.le_refl _) _ hmem
  exact hitem inner a (hinner.mono hdepth)

/-! ### Options -/

theorem Shape.choice_readsBack (hw : Faithful write) {options : List (String × α)}
    {label : α → String} (h : ∀ a, options.lookup (label a) = some a) :
    (Shape.choice options label).ReadsBack write := by
  intro source a _
  rw [Shape.document, hw.text]
  exact readOption_text.2 ⟨a, h a, rfl⟩

theorem Shape.either_readsBack (hw : Faithful write) {left right : String} {leftValue : Shape α}
    {rightValue : Shape β} (hne : left ≠ right) (hleft : leftValue.ReadsBack write)
    (hright : rightValue.ReadsBack write) :
    (Shape.either left leftValue right rightValue).ReadsBack write := by
  intro source choice hadmits
  cases choice with
  | inl a =>
    obtain ⟨inner, henter, hinner⟩ := hadmits.enter
    have hread := hleft inner a (hinner.mono (Nat.le_max_left _ _))
    rw [Shape.document, hw.single]
    exact (readOption_single henter).2
      ⟨true, List.lookup_cons_self, map_eq_ok.2 ⟨a, hread, rfl⟩⟩
  | inr b =>
    obtain ⟨inner, henter, hinner⟩ := hadmits.enter
    have hread := hright inner b (hinner.mono (Nat.le_max_left _ _))
    have hoption : [(left, true), (right, false)].lookup right = some false := by
      rw [lookup_cons_if, if_neg (Ne.symm hne)]
      exact List.lookup_cons_self
    rw [Shape.document, hw.single]
    exact (readOption_single henter).2 ⟨false, hoption, map_eq_ok.2 ⟨b, hread, rfl⟩⟩

/-! ### Records -/

theorem Field.trimmed_readsBack {name : String} {shape : Shape α} {default : α}
    {same : DecidableEq α} (hshape : shape.ReadsBack write) :
    (Field.trimmed name shape default same).ReadsBack write := by
  intro source a hadmits
  cases same a default with
  | isTrue hsame =>
    subst hsame
    rw [Field.document?_trimmed_self]
    rfl
  | isFalse hne =>
    rw [Field.document?_trimmed_ne hne] at hadmits ⊢
    exact hshape source a (hadmits _ rfl)

theorem Field.optional_readsBack (hw : Faithful write) {name : String} {shape : Shape α}
    (hnull : ∀ a, shape.document a ≠ .null) (hshape : shape.ReadsBack write) :
    (Field.optional name shape).ReadsBack write := by
  intro source found hadmits
  cases found with
  | none => rfl
  | some a =>
    have hread := hshape source a (hadmits _ rfl)
    have hne : write (shape.document a) ≠ .null := hw.ne_null (hnull a)
    exact (Field.optional_ofTree hne).trans (map_eq_ok.2 ⟨a, hread, rfl⟩)

theorem Fields.cons_readBack {field : Field α} {rest : Fields αs} (hname : field.name ∉ rest.names)
    (hfield : field.ReadsBack write) (hrest : rest.ReadBack write) :
    (Fields.cons field rest).ReadBack write := by
  rintro source ⟨a, row⟩ hadmits
  rw [Fields.members_cons] at hadmits
  rw [Fields.Gives, Fields.lookup_members_head hname]
  constructor
  · apply hfield
    intro d hd
    rw [hd] at hadmits
    exact hadmits.mono (Nat.le_max_left _ _)
  · refine (rest.gives_congr row fun k hk => ?_).2 (hrest source row ?_)
    · rw [Fields.lookup_members_rest fun e : k = field.name => hname (e ▸ hk)]
    · cases hd : field.document? a with
      | none => rw [hd] at hadmits; exact hadmits
      | some d => rw [hd] at hadmits; exact hadmits.mono (Nat.le_max_right _ _)

theorem Shape.record_readsBack (hw : Faithful write) (name : String) (hnames : fields.names.Nodup)
    (hfields : fields.ReadBack write) : (Shape.record name fields).ReadsBack write := by
  intro source row hadmits
  obtain ⟨inner, henter, hinner⟩ := hadmits.enter
  obtain ⟨ns, hns, hdistinct, hlookup⟩ := hw.object (fields.members row)
    (hnames.sublist (fields.members_names row))
  have hread : ∀ n ∈ ns, n.2.isGrammatical = true := by
    intro n hn
    obtain ⟨v, hv⟩ := hw.readable hinner hdistinct hlookup n hn
    exact Tree.isGrammatical_of_json? n.2 hv
  rw [Shape.document, hns]
  refine (Shape.record_object name hnames hdistinct hread row).2 ⟨inner, henter, ?_⟩
  rw [funext hlookup]
  exact hfields inner row hinner

/-- A record with a member more is read back if its fields and that member are. -/
theorem Shape.recordWith_write (hw : Faithful write) {name union left right : String}
    {leftValue : Shape α} {rightValue : Shape β} (hnames : (left :: right :: fields.names).Nodup)
    (hback : fields.ReadBack write) {source : Source} {row : Row αs} {choice : α ⊕ β}
    {key : String} {d : Document}
    (hadmits : source.Admits (Document.object (fields.members row ++ [(key, d)])).depth)
    (hkey : key = left ∨ key = right)
    (hunion : unionOfTree left leftValue rightValue (key, write d) = .ok choice) :
    (Shape.recordWith name fields union left leftValue right rightValue).ofTree source
      (write (.object (fields.members row ++ [(key, d)]))) = .ok (row, choice) := by
  have hnodup := hnames
  simp only [List.nodup_cons, List.mem_cons, not_or] at hnames
  obtain ⟨⟨hne, hleft⟩, hright, hfields⟩ := hnames
  have hown : key ∉ fields.names := by
    rcases hkey with rfl | rfl
    · exact hleft
    · exact hright
  obtain ⟨inner, henter, hinner⟩ := hadmits.enter
  obtain ⟨ns, hns, hdistinct, hlookup⟩ := hw.object _ (fields.nodup_append hown hfields row d)
  rw [hns]
  refine (Shape.recordWith_object hnodup hdistinct henter
    (hw.readable hinner hdistinct hlookup) row choice).2 ⟨?_, (key, write d), ?_, hunion⟩
  · have hdepth : Document.membersDepth (fields.members row) ≤
        Document.membersDepth (fields.members row ++ [(key, d)]) :=
      Document.membersDepth_le_iff.2 fun m hm =>
        Document.membersDepth_le_iff.1 (Nat.le_refl _) m (List.mem_append_left _ hm)
    refine (fields.gives_congr row fun k hk => ?_).2 (hback inner row (hinner.mono hdepth))
    rw [hlookup, Fields.lookup_append hown hk]
  · have hother : ∀ k, k ∉ fields.names →
        ns.lookup k = if k = key then some (write d) else none := by
      intro k hk
      rw [hlookup, Fields.lookup_append_other hk]
      split <;> rfl
    rcases hkey with rfl | rfl
    · rw [firstNamed?_eq_lookup (by rw [hother right hright, if_neg (Ne.symm hne)]),
        hother key hleft, if_pos rfl]
      rfl
    · rw [firstNamed?_swap, firstNamed?_eq_lookup (by rw [hother left hleft, if_neg hne]),
        hother key hright, if_pos rfl]
      rfl

theorem Shape.recordWith_readsBack (hw : Faithful write) {name union left right : String}
    {leftValue : Shape α} {rightValue : Shape β} (hnames : (left :: right :: fields.names).Nodup)
    (hfields : fields.ReadBack write) (hleft : leftValue.ReadsBack write)
    (hright : rightValue.ReadsBack write) :
    (Shape.recordWith name fields union left leftValue right rightValue).ReadsBack write := by
  rintro source ⟨row, choice⟩ hadmits
  -- What is set aside is read without a limit, so its depth does not matter.
  cases choice with
  | inl a =>
    refine Shape.recordWith_write hw hnames hfields hadmits (Or.inl rfl) ?_
    rw [unionOfTree, if_pos rfl]
    exact map_eq_ok.2 ⟨a, hleft .setAside a trivial, rfl⟩
  | inr b =>
    have hne : right ≠ left := by
      rintro rfl
      exact (List.nodup_cons.1 hnames).1 List.mem_cons_self
    refine Shape.recordWith_write hw hnames hfields hadmits (Or.inr rfl) ?_
    rw [unionOfTree, if_neg hne]
    exact map_eq_ok.2 ⟨b, hright .setAside b trivial, rfl⟩

/-! ### Every shape -/

mutual

/-- **A lawful shape reads every faithful rendering of what it writes for a value as that value**,
if the source admits the depth. -/
theorem Shape.readsBack (hw : Faithful write) : ∀ {α : Type} (shape : Shape α), shape.Lawful →
    shape.ReadsBack write
  | _, .any, _ => Shape.any_readsBack hw
  | _, .text, _ => Shape.text_readsBack hw
  | _, .object, _ => Shape.object_readsBack hw
  | _, .map value, h => Shape.map_readsBack hw (value.readsBack hw h)
  | _, .list item, h => Shape.list_readsBack hw (item.readsBack hw h)
  | _, .choice _ _, h => Shape.choice_readsBack hw h
  | _, .either _ leftValue _ rightValue, h =>
    Shape.either_readsBack hw h.1 (leftValue.readsBack hw h.2.1) (rightValue.readsBack hw h.2.2)
  | _, .record name fields, h =>
    Shape.record_readsBack hw name h.1 (fields.readBack hw h.1 h.2)
  | _, .recordWith _ fields _ _ leftValue _ rightValue, h =>
    Shape.recordWith_readsBack hw h.1 (fields.readBack hw h.1.tail.tail h.2.1)
      (leftValue.readsBack hw h.2.2.1) (rightValue.readsBack hw h.2.2.2)
  | _, .refined base _ encode, h => fun source b hadmits =>
    Shape.refined_eq_ok.2 ⟨encode b, base.readsBack hw h.1 source (encode b) hadmits, h.2.1 b⟩
termination_by structural _ shape => shape

theorem Field.readsBack (hw : Faithful write) : ∀ {α : Type} (field : Field α), field.Lawful →
    field.ReadsBack write
  | _, .required _ shape, h => fun source a hadmits =>
    shape.readsBack hw h source a (hadmits _ rfl)
  | _, .defaulted _ shape _, h => fun source a hadmits =>
    shape.readsBack hw h source a (hadmits _ rfl)
  | _, .trimmed _ shape _ _, h => Field.trimmed_readsBack (shape.readsBack hw h)
  | _, .optional _ shape, h => Field.optional_readsBack hw h.2 (shape.readsBack hw h.1)
termination_by structural _ field => field

theorem Fields.readBack (hw : Faithful write) : ∀ {αs : List Type} (fields : Fields αs),
    fields.names.Nodup → fields.Lawful → fields.ReadBack write
  | _, .nil, _, _ => fun _ _ _ => trivial
  | _, .cons field rest, hnames, h =>
    Fields.cons_readBack (List.nodup_cons.1 hnames).1 (field.readsBack hw h.1)
      (rest.readBack hw (List.nodup_cons.1 hnames).2 h.2)
termination_by structural _ fields => fields

end

end RoundTrip

/-! ## Texts and values -/

section Readers

variable {α : Type} {shape : Shape α}

/-- A text whose outline is the document of a value is read as the value, if it nests no deeper than
the reader goes. -/
theorem Shape.ofText_of_outline (hlawful : shape.Lawful) {s : String} {a : α}
    (h : Outline.ofText s = ⟨(shape.document a).tree, true⟩)
    (hdepth : (shape.document a).depth ≤ 127) : shape.ofText s = .ok a := by
  have hread : shape.ofTree .document (shape.document a).tree = .ok a :=
    shape.readsBack faithful_tree hlawful .document a hdepth
  rw [Shape.ofText_eq_ok, h]
  exact ⟨hread, rfl⟩

/-- **A text that was written in either layout is read back**, if it nests no deeper than the
reader goes and has no fraction or exponent. -/
theorem Shape.ofText_render (hlawful : shape.Lawful) {a : α}
    (hfloat : (shape.document a).isFloatFree = true) (hdepth : (shape.document a).depth ≤ 127)
    (layout : Document.Layout) : shape.ofText (shape.render layout a) = .ok a :=
  Shape.ofText_of_outline hlawful
    (Json.ofText_render layout (Document.hasStableNumbers_of_isFloatFree _ hfloat)) hdepth

/-- **A value that was written is read back**, however deep it nests. -/
theorem Shape.ofValue_value (hlawful : shape.Lawful) (a : α) :
    shape.ofValue (shape.value a) = .ok a :=
  shape.readsBack faithful_value hlawful .value a trivial

/-- Different values are written differently. -/
theorem Shape.value_injective (hlawful : shape.Lawful) {a b : α}
    (h : shape.value a = shape.value b) : a = b := by
  have ha := Shape.ofValue_value hlawful a
  rw [h, Shape.ofValue_value hlawful b] at ha
  exact (Except.ok.inj ha).symm

end Readers

end CompositionFunction.Schema
