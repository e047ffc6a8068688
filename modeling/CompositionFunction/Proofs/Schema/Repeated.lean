import CompositionFunction.Proofs.Json.Distinct
import CompositionFunction.Proofs.Schema.RoundTrip

/-!
# Texts that repeat names

An object of a text may repeat a name. The value that it is read as keeps the last member of the
name, and so does a map; a record refuses a field that is repeated, and skips the rest. So what is
read from a text is also read from its value, whatever is repeated. A record with a member more is
left out, for the first of its options counts.

* `Shape.isPlain` : no record of the shape has a member more.
* `Shape.follows` : what is read from a tree is read from the value of the tree.
* `Shape.ofValue_of_ofText` : the same for texts.
-/

set_option autoImplicit false

namespace CompositionFunction.Schema

open Json

mutual

/-- No record has a member more. -/
def Shape.isPlain : {α : Type} → Shape α → Bool
  | _, .any => true
  | _, .text => true
  | _, .object => true
  | _, .map value => value.isPlain
  | _, .list item => item.isPlain
  | _, .choice _ _ => true
  | _, .either _ leftValue _ rightValue => leftValue.isPlain && rightValue.isPlain
  | _, .record _ fields => fields.arePlain
  | _, .recordWith .. => false
  | _, .refined base _ _ => base.isPlain
termination_by structural _ s => s

/-- The same for a field. -/
def Field.isPlain : {α : Type} → Field α → Bool
  | _, .required _ shape => shape.isPlain
  | _, .defaulted _ shape _ => shape.isPlain
  | _, .trimmed _ shape _ _ => shape.isPlain
  | _, .optional _ shape => shape.isPlain
termination_by structural _ f => f

/-- The same for the fields of a record. -/
def Fields.arePlain : {αs : List Type} → Fields αs → Bool
  | _, .nil => true
  | _, .cons field rest => field.isPlain && rest.arePlain
termination_by structural _ fs => fs

end

/-! ## What follows -/

/-- What the shape reads from a tree, it reads from the value that the tree is read as. -/
def Shape.Follows {α : Type} (shape : Shape α) : Prop :=
  ∀ (source free : Source) (t : Tree) (v : Json) (a : α), free.enter? = some free →
    t.json? source = some v → shape.ofTree source t = .ok a → shape.ofTree free v.tree = .ok a

/-- The same for the tree of a field that is there. -/
def Field.Follows {α : Type} (field : Field α) : Prop :=
  ∀ (source free : Source) (t : Tree) (v : Json) (a : α), free.enter? = some free →
    t.json? source = some v → field.ofTree source t = .ok a → field.ofTree free v.tree = .ok a

/-- The same for each field of a record. -/
inductive Fields.Follow : {αs : List Type} → Fields αs → Prop where
  | nil : Follow .nil
  | cons {α : Type} {αs : List Type} {field : Field α} {rest : Fields αs} (head : field.Follows)
      (tail : rest.Follow) : Follow (.cons field rest)

section Follows

variable {α β : Type} {αs : List Type} {fields : Fields αs} {source free inner : Source}

/-! ### Values, maps and lists -/

theorem Shape.any_follows : Shape.any.Follows := by
  intro source free t v a hfree hvalue h
  rw [Shape.any_eq_ok, hvalue] at h
  rw [Shape.any_eq_ok, ← h, json?_valueTree hfree]

theorem Shape.text_follows : Shape.text.Follows := by
  intro source free t v a hfree hvalue h
  rw [Shape.text_eq_ok] at h ⊢
  exact (Tree.reads_of_json? hvalue).eq_text.1 h

theorem Shape.object_follows : Shape.object.Follows := by
  intro source free t v entries hfree hvalue h
  rw [Shape.object_eq_ok, hvalue] at h
  rw [Shape.object_eq_ok, ← h, json?_valueTree hfree]

/-- The entries of a map are read from the values of an object, key by key. -/
def Entries.ReadFrom (f : Tree → Except Refusal α) (values : JsonObject) (m : StringMap α) : Prop :=
  ∀ k, match values.find? k with
    | none => m.find? k = none
    | some v => ∃ a, f v.tree = .ok a ∧ m.find? k = some a

theorem Entries.ReadFrom.insert {f : Tree → Except Refusal α} {values : JsonObject}
    {m : StringMap α} {name : String} {v : Json} {a : α} (h : Entries.ReadFrom f values m)
    (ha : f v.tree = .ok a) : Entries.ReadFrom f (values.insert name v) (m.insert name a) := by
  intro k
  rw [StringMap.find?_insert, StringMap.find?_insert]
  by_cases hk : k = name
  · rw [if_pos hk, if_pos hk]
    exact ⟨a, ha, rfl⟩
  · rw [if_neg hk, if_neg hk]
    exact h k

/-- A map and the value grow member by member, and stay in step. -/
theorem readFrom_of_readMembers {f g : Tree → Except Refusal α} {ending : Ending}
    (hf : ∀ t v a, t.json? inner = some v → f t = .ok a → g v.tree = .ok a)
    {ms : List (String × Tree)} : ∀ {before values : JsonObject} {m found : StringMap α},
      Entries.ReadFrom g before m → Tree.jsonMembers? inner before (named ms) = some values →
        readMembers (insertRead f) ending m (named ms) = .ok found →
          Entries.ReadFrom g values found := by
  induction ms with
  | nil =>
    intro before values m found hbefore hvalues h
    obtain ⟨_, rfl⟩ := readMembers_nil.1 h
    cases hvalues
    exact hbefore
  | cons member ms ih =>
    intro before values m found hbefore hvalues h
    obtain ⟨name, t⟩ := member
    rw [named, List.map_cons, Tree.jsonMembers?] at hvalues
    split at hvalues
    · cases hvalues
    rename_i v hv
    rw [readMembers_cons] at h
    obtain ⟨next, hnext, hrest⟩ := bind_eq_ok.1 h
    obtain ⟨a, ha, rfl⟩ := insertRead_eq_ok.1 hnext
    exact ih (hbefore.insert (hf t v a hv ha)) hvalues hrest

theorem Shape.map_follows {value : Shape α} (hvalue : value.Follows) :
    (Shape.map value).Follows := by
  intro source free t v m hfree hread h
  obtain ⟨inner, ms, ending, rfl, henter, hmembers⟩ := Shape.map_ok h
  obtain ⟨inner', _, values, henter', hms, _, hvalues, _, rfl⟩ := Tree.json?_object hread
  obtain rfl := named_injective hms
  obtain rfl : inner = inner' := Option.some.inj (henter.symm.trans henter')
  have hblank : Entries.ReadFrom (value.ofTree free) .empty StringMap.empty := by
    intro k
    rw [StringMap.find?_empty]
    rfl
  have hstep : ∀ t v a, t.json? inner = some v → value.ofTree inner t = .ok a →
      value.ofTree free v.tree = .ok a := fun t v a => hvalue inner free t v a hfree
  have hentries := readFrom_of_readMembers hstep hblank hvalues hmembers
  rw [tree_object, Shape.map_object (nodup_treeNames values)]
  refine ⟨free, hfree, fun k => ?_⟩
  have hk := hentries k
  rw [lookup_tree]
  cases hfind : values.find? k with
  | none =>
    rw [hfind] at hk
    exact hk
  | some w =>
    rw [hfind] at hk
    exact hk

theorem readItems_follows {f g : Tree → Except Refusal α}
    (hf : ∀ t v a, t.json? inner = some v → f t = .ok a → g v.tree = .ok a) {ts : List Tree} :
    ∀ {vs : List Json} {as : List α}, Tree.jsonItems? inner ts = some vs →
      readItems f ts = .ok as → readItems g (vs.map Json.tree) = .ok as := by
  induction ts with
  | nil =>
    intro vs as hvs h
    cases hvs
    exact h
  | cons t ts ih =>
    intro vs as hvs h
    rw [Tree.jsonItems?] at hvs
    split at hvs
    · cases hvs
    rename_i v hv
    obtain ⟨us, hus, rfl⟩ := Option.map_eq_some_iff.1 hvs
    obtain ⟨a, rest, ha, hrest, rfl⟩ := readItems_cons.1 h
    rw [List.map_cons]
    exact readItems_cons.2 ⟨a, rest, hf t v a hv ha, ih hus hrest, rfl⟩

theorem Shape.list_follows {item : Shape α} (hitem : item.Follows) :
    (Shape.list item).Follows := by
  intro source free t v as hfree hread h
  obtain ⟨ts, rfl⟩ := Shape.list_ok h
  obtain ⟨inner, vs, henter, hvs, rfl⟩ := Tree.json?_array hread
  obtain ⟨inner', henter', hitems⟩ := Shape.list_array.1 h
  obtain rfl : inner = inner' := Option.some.inj (henter.symm.trans henter')
  rw [tree_array, Shape.list_array]
  exact ⟨free, hfree, readItems_follows (fun t v a => hitem inner free t v a hfree) hvs hitems⟩

/-! ### Options -/

/-- An option is one member, which cannot be repeated. -/
theorem readOption_follows {known : List (String × β)} {bare : β → Except Refusal α}
    {valued : β → Source → Tree → Except Refusal α} {t : Tree} {v : Json} {a : α}
    (hfree : free.enter? = some free) (hread : t.json? source = some v)
    (hvalued : ∀ inner b part w, part.json? inner = some w → valued b inner part = .ok a →
      valued b free w.tree = .ok a)
    (h : readOption source known bare valued t = .ok a) :
    readOption free known bare valued v.tree = .ok a := by
  rcases readOption_eq_ok h with ⟨name, b, rfl, hname, hbare⟩ |
    ⟨inner, name, part, ending, b, rfl, henter, hname, hpart⟩
  · cases hread
    exact readOption_text.2 ⟨b, hname, hbare⟩
  · obtain ⟨inner', ms, values, henter', hms, rfl, hvalues, _, rfl⟩ := Tree.json?_object hread
    obtain rfl : inner = inner' := Option.some.inj (henter.symm.trans henter')
    obtain rfl : [(name, part)] = ms := named_injective hms
    rw [named, List.map_cons, Tree.jsonMembers?] at hvalues
    split at hvalues
    · cases hvalues
    rename_i w hw
    cases hvalues
    exact (readOption_single hfree).2 ⟨b, hname, hvalued inner b part w hw hpart⟩

theorem Shape.choice_follows {options : List (String × α)} {label : α → String} :
    (Shape.choice options label).Follows := by
  intro source free t v a hfree hread h
  refine readOption_follows hfree hread (fun inner b part w hw hpart => ?_) h
  cases part with
  | null =>
    cases hw
    exact hpart
  | _ => cases hpart

theorem Shape.either_follows {left right : String} {leftValue : Shape α} {rightValue : Shape β}
    (hleft : leftValue.Follows) (hright : rightValue.Follows) :
    (Shape.either left leftValue right rightValue).Follows := by
  intro source free t v a hfree hread h
  refine readOption_follows hfree hread (fun inner isLeft part w hw hpart => ?_) h
  cases isLeft with
  | true =>
    obtain ⟨b, hb, rfl⟩ := map_eq_ok.1 hpart
    exact map_eq_ok.2 ⟨b, hleft inner free part w b hfree hw hb, rfl⟩
  | false =>
    obtain ⟨b, hb, rfl⟩ := map_eq_ok.1 hpart
    exact map_eq_ok.2 ⟨b, hright inner free part w b hfree hw hb, rfl⟩

/-! ### Fields -/

theorem Field.optional_follows {name : String} {shape : Shape α} (hshape : shape.Follows) :
    (Field.optional name shape).Follows := by
  intro source free t v a hfree hread h
  by_cases hnull : t = .null
  · subst hnull
    cases hread
    exact h
  · have hne : v.tree ≠ .null := fun hv => hnull ((Tree.reads_of_json? hread).eq_null.2 hv)
    rw [Field.optional_ofTree hnull] at h
    rw [Field.optional_ofTree hne]
    obtain ⟨b, hb, rfl⟩ := map_eq_ok.1 h
    exact map_eq_ok.2 ⟨b, hshape source free t v b hfree hread hb, rfl⟩

/-! ### Records -/

/-- What the members give for a field is read from each of them; there is but one. -/
theorem Field.GivenBy.ofTree {field : Field α} {trees : List Tree} {t : Tree} {a : α}
    (h : field.GivenBy source none trees a) (ht : t ∈ trees) : field.ofTree source t = .ok a := by
  match trees with
  | [u] =>
    obtain rfl := List.mem_singleton.1 ht
    exact h
  | _ :: _ :: _ => exact h.elim

/-- What the members of an object give for the fields, the members of its value give. -/
theorem Fields.Follow.gives {ms : List (String × Tree)} {entries : JsonObject}
    (hfields : fields.Follow) (hfree : free.enter? = some free)
    (hentries : Tree.jsonMembers? source .empty (named ms) = some entries) {row : Row αs}
    (hgiven : fields.GivenBy source ms fields.blank row) :
    fields.Gives free (fun k => (entries.find? k).map Json.tree) row := by
  induction hfields with
  | nil => trivial
  | @cons _ _ field rest head tail ih =>
    obtain ⟨a, row⟩ := row
    obtain ⟨hfield, hrest⟩ := hgiven
    refine ⟨?_, ih hrest⟩
    show field.Gives free ((entries.find? field.name).map Json.tree) a
    obtain ⟨t, v, ht, hfind, hv⟩ | ⟨habsent, hfind⟩ := Tree.mem_of_jsonMembers? field.name hentries
    · rw [hfind]
      exact head source free t v a hfree hv (hfield.ofTree (mem_treesOf.2 ht))
    · rw [treesOf_eq_nil habsent] at hfield
      rw [hfind]
      exact hfield

/-- The items of an array give the fields what their values give them. -/
theorem Fields.Follow.ofItems {record : String} {count : Nat} (hfields : fields.Follow)
    (hfree : free.enter? = some free) : ∀ {index : Nat} {ts : List Tree} {vs : List Json}
    {row : Row αs}, Tree.jsonItems? source ts = some vs →
      fields.ofItems source record count index ts = .ok (row, []) →
        fields.ofItems free record count index (vs.map Json.tree) = .ok (row, []) := by
  induction hfields with
  | nil =>
    intro index ts vs row hvs h
    cases h
    cases hvs
    rfl
  | cons head _ ih =>
    rintro index ts vs ⟨a, row⟩ hvs h
    obtain ⟨hhead, htail⟩ := Fields.ofItems_cons_eq_ok.1 h
    refine Fields.ofItems_cons_eq_ok.2 ?_
    cases ts with
    | nil =>
      cases hvs
      have hnone : Tree.jsonItems? source [] = some [] := rfl
      exact ⟨hhead, ih hnone htail⟩
    | cons t ts =>
      rw [Tree.jsonItems?] at hvs
      split at hvs
      · cases hvs
      rename_i v hv
      obtain ⟨us, hus, rfl⟩ := Option.map_eq_some_iff.1 hvs
      exact ⟨head source free t v a hfree hv hhead, ih hus htail⟩

theorem Shape.record_follows {name : String} (hnames : fields.names.Nodup)
    (hfields : fields.Follow) : (Shape.record name fields).Follows := by
  intro source free t v row hfree hread h
  obtain ⟨inner, henter, ⟨ms, ending, found, rfl, hfound, hfill⟩ | ⟨ts, left, rfl, _⟩⟩ :=
    Shape.record_ok h
  · obtain ⟨inner', _, values, henter', hms, hclosed, hvalues, _, rfl⟩ := Tree.json?_object hread
    obtain rfl := named_injective hms
    subst hclosed
    obtain rfl : inner = inner' := Option.some.inj (henter.symm.trans henter')
    obtain ⟨hgiven, _⟩ :=
      (fields.readMembers_givenBy hnames row ms fields.blank).1 ⟨found, hfound, hfill⟩
    have hgives := hfields.gives hfree hvalues hgiven
    have hgrammatical : ∀ n ∈ values.toList.map fun e => (e.1, Json.tree e.2),
        n.2.isGrammatical = true := by
      intro n hn
      obtain ⟨e, _, rfl⟩ := List.mem_map.1 hn
      exact isGrammatical_valueTree e.2
    rw [tree_object, Shape.record_object name hnames (nodup_treeNames values) hgrammatical]
    exact ⟨free, hfree, (fields.gives_congr row fun k _ => lookup_tree values k).2 hgives⟩
  · obtain ⟨inner', vs, henter', hvs, rfl⟩ := Tree.json?_array hread
    obtain ⟨_, henter'', hgives⟩ := (Shape.record_array name hnames ts row).1 h
    obtain rfl := Option.some.inj (henter''.symm.trans henter')
    have hitems := (fields.ofItems_eq_ok name fields.names.length 0 ts row hnames).2 hgives
    rw [tree_array, Shape.record_array name hnames]
    exact ⟨free, hfree, (fields.ofItems_eq_ok name fields.names.length 0 _ row hnames).1
      (hfields.ofItems hfree hvs hitems)⟩

/-! ### Refinements -/

theorem Shape.refined_follows {base : Shape α} {decode : α → Except Misfit β} {encode : β → α}
    (hbase : base.Follows) : (Shape.refined base decode encode).Follows := by
  intro source free t v b hfree hread h
  obtain ⟨a, ha, hdecode⟩ := Shape.refined_eq_ok.1 h
  exact Shape.refined_eq_ok.2 ⟨a, hbase source free t v a hfree hread ha, hdecode⟩

/-! ### Every shape -/

mutual

/-- **What is read from a tree is read from the value of the tree**, unless the first of two options
counts. -/
theorem Shape.follows : ∀ {α : Type} (shape : Shape α), shape.Lawful → shape.isPlain = true →
    shape.Follows
  | _, .any, _, _ => Shape.any_follows
  | _, .text, _, _ => Shape.text_follows
  | _, .object, _, _ => Shape.object_follows
  | _, .map value, h, hplain => Shape.map_follows (value.follows h hplain)
  | _, .list item, h, hplain => Shape.list_follows (item.follows h hplain)
  | _, .choice _ _, _, _ => Shape.choice_follows
  | _, .either _ leftValue _ rightValue, h, hplain =>
    have hplain := Bool.and_eq_true_iff.1 hplain
    Shape.either_follows (leftValue.follows h.2.1 hplain.1) (rightValue.follows h.2.2 hplain.2)
  | _, .record _ fields, h, hplain => Shape.record_follows h.1 (fields.follow h.2 hplain)
  | _, .refined base _ _, h, hplain => Shape.refined_follows (base.follows h.1 hplain)
termination_by structural _ shape => shape

theorem Field.follows : ∀ {α : Type} (field : Field α), field.Lawful → field.isPlain = true →
    field.Follows
  | _, .required _ shape, h, hplain => shape.follows h hplain
  | _, .defaulted _ shape _, h, hplain => shape.follows h hplain
  | _, .trimmed _ shape _ _, h, hplain => shape.follows h hplain
  | _, .optional _ shape, h, hplain => Field.optional_follows (shape.follows h.1 hplain)
termination_by structural _ field => field

theorem Fields.follow : ∀ {αs : List Type} (fields : Fields αs), fields.Lawful →
    fields.arePlain = true → fields.Follow
  | _, .nil, _, _ => .nil
  | _, .cons field rest, h, hplain =>
    have hplain := Bool.and_eq_true_iff.1 hplain
    .cons (field.follows h.1 hplain.1) (rest.follow h.2 hplain.2)
termination_by structural _ fields => fields

end

end Follows

/-- **What is read from a text is read from the value of the text.** -/
theorem Shape.ofValue_of_ofText {α : Type} {shape : Shape α} (hlawful : shape.Lawful)
    (hplain : shape.isPlain = true) {s : String} {v : Json} {a : α} (hvalue : parse? s = some v)
    (h : shape.ofText s = .ok a) : shape.ofValue v = .ok a := by
  obtain ⟨hv, _⟩ := parse?_eq_some.1 hvalue
  obtain ⟨hread, _⟩ := Shape.ofText_eq_ok.1 h
  exact shape.follows hlawful hplain .document .value _ v a rfl hv hread

end CompositionFunction.Schema
