import CompositionFunction.Proofs.Schema.RoundTrip

/-!
# How deep a value that was read is written

Reading fills in defaults, so a value may be written with more containers than it was read from.
But the defaults of a shape stand at fixed places: below a depth that the shape alone decides, a
value is written no deeper than it was read.

* `Shape.reserve` : the depth that the defaults of a shape may reach.
* `Shape.nests` : a value is written no deeper than it was read, or than the reserve.
* `Shape.depth_le_of_ofText` : what was read from a text may be read again.
-/

set_option autoImplicit false

namespace CompositionFunction.Schema

open Json

/-! ## The depth of defaults -/

mutual

/-- The depth that the defaults of a shape may reach. -/
def Shape.reserve : {α : Type} → Shape α → Nat
  | _, .any => 0
  | _, .text => 0
  | _, .object => 0
  | _, .map value => value.reserve + 1
  | _, .list item => item.reserve + 1
  | _, .choice _ _ => 0
  | _, .either _ leftValue _ rightValue => max leftValue.reserve rightValue.reserve + 1
  | _, .record _ fields => fields.reserve + 1
  | _, .recordWith _ fields _ _ leftValue _ rightValue =>
    max fields.reserve (max leftValue.reserve rightValue.reserve) + 1
  | _, .refined base _ _ => base.reserve
termination_by structural _ s => s

/-- The depth that the defaults of a field may reach. -/
def Field.reserve : {α : Type} → Field α → Nat
  | _, .required _ shape => shape.reserve
  | _, .defaulted _ shape default => max shape.reserve (shape.document default).depth
  | _, .trimmed _ shape _ _ => shape.reserve
  | _, .optional _ shape => shape.reserve
termination_by structural _ f => f

/-- The depth that the defaults of some fields may reach. -/
def Fields.reserve : {αs : List Type} → Fields αs → Nat
  | _, .nil => 0
  | _, .cons field rest => max field.reserve rest.reserve
termination_by structural _ fs => fs

end

/-! ## The depth of trees -/

/-- A tree nests at most so deep: its source ends there, or it is an ordinary value of this
depth. -/
def Within (source : Source) (t : Tree) (n : Nat) : Prop :=
  source = .text n ∨ ∃ v, t.json? (.text n) = some v

section Within

variable {source inner : Source} {n : Nat}

theorem enter_text {n : Nat} {inner : Source} (h : (Source.text n).enter? = some inner) :
    ∃ k, n = k + 1 ∧ inner = .text k := by
  cases n with
  | zero => cases h
  | succ k => exact ⟨k, rfl, (Option.some.inj h).symm⟩

theorem Within.depth_le {t : Tree} {v : Json} (h : Within source t n)
    (hread : t.json? source = some v) : v.document.depth ≤ n := by
  rcases h with rfl | ⟨w, hw⟩
  · exact depth_le_of_json? t hread
  · have hvalue := t.json?_unbounded .value rfl hread
    rw [t.json?_unbounded .value rfl hw, Option.some.injEq] at hvalue
    exact hvalue ▸ depth_le_of_json? t hw

/-- What is set aside is an ordinary value, whose depth is known. -/
theorem Within.aside {t : Tree} {v : Json} (h : Within source t n) (hread : t.json? source = some v)
    (aside : Source) : Within aside t n := by
  rcases h with rfl | hvalue
  · exact Or.inr ⟨v, hread⟩
  · exact Or.inr hvalue

theorem Within.items {ts : List Tree} (h : Within source (.array ts) n)
    (henter : source.enter? = some inner) :
    ∃ k, n = k + 1 ∧ ∀ t ∈ ts, Within inner t k := by
  rcases h with rfl | ⟨v, hv⟩
  · obtain ⟨k, rfl, rfl⟩ := enter_text henter
    exact ⟨k, rfl, fun t _ => Or.inl rfl⟩
  · obtain ⟨inside, vs, hinside, hvs, _⟩ := Tree.json?_array hv
    obtain ⟨k, rfl, rfl⟩ := enter_text hinside
    exact ⟨k, rfl, fun t ht => Or.inr (Tree.mem_of_jsonItems? hvs t ht)⟩

theorem Within.members {ms : List (String × Tree)} {ending : Ending}
    (h : Within source (.object (named ms) ending) n) (henter : source.enter? = some inner) :
    ∃ k, n = k + 1 ∧ ∀ m ∈ ms, Within inner m.2 k := by
  rcases h with rfl | ⟨v, hv⟩
  · obtain ⟨k, rfl, rfl⟩ := enter_text henter
    exact ⟨k, rfl, fun m _ => Or.inl rfl⟩
  · obtain ⟨inside, ns, entries, hinside, hns, _, _, hread, _⟩ := Tree.json?_object hv
    obtain ⟨k, rfl, rfl⟩ := enter_text hinside
    obtain rfl := named_injective hns
    exact ⟨k, rfl, fun m hm => Or.inr (hread m hm)⟩

end Within

/-! ## The depth of what was read -/

/-- What the shape reads from a tree within `n` it writes within `b`, if neither `n` nor the reserve
is more. -/
def Shape.Nests {α : Type} (shape : Shape α) (reserve : Nat) : Prop :=
  ∀ (source : Source) (t : Tree) (n b : Nat) (a : α), Within source t n → n ≤ b → reserve ≤ b →
    shape.ofTree source t = .ok a → (shape.document a).depth ≤ b

/-- The same for a field and the tree that is found for it, if there is one. -/
def Field.Nests {α : Type} (field : Field α) (reserve : Nat) : Prop :=
  ∀ (source : Source) (found : Option Tree) (n b : Nat) (a : α) (d : Document),
    (∀ t, found = some t → Within source t n) → n ≤ b → reserve ≤ b →
      field.Gives source found a → field.document? a = some d → d.depth ≤ b

/-- The same for each of some fields. -/
inductive Fields.Nest : {αs : List Type} → Fields αs → Nat → Prop where
  | nil : Nest .nil 0
  | cons {α : Type} {αs : List Type} {field : Field α} {rest : Fields αs} {r s : Nat}
      (head : field.Nests r) (tail : rest.Nest s) : Nest (.cons field rest) (max r s)

section Nests

variable {α β : Type} {αs : List Type} {fields : Fields αs} {r : Nat}

/-! ### Values, maps and lists -/

theorem Shape.any_nests : Shape.any.Nests 0 := by
  intro source t n b v hwithin hn _ h
  exact Nat.le_trans (hwithin.depth_le (Shape.any_eq_ok.1 h)) hn

theorem Shape.object_nests : Shape.object.Nests 0 := by
  intro source t n b entries hwithin hn _ h
  exact Nat.le_trans (hwithin.depth_le (Shape.object_eq_ok.1 h)) hn

theorem Shape.map_nests {value : Shape α} (hvalue : value.Nests r) :
    (Shape.map value).Nests (r + 1) := by
  intro source t n b m hwithin hn hreserve h
  obtain ⟨inner, ms, ending, rfl, henter, hread⟩ := Shape.map_ok h
  obtain ⟨k, rfl, hmembers⟩ := hwithin.members henter
  obtain ⟨c, rfl⟩ : ∃ c, b = c + 1 := ⟨b - 1, by omega⟩
  -- No entry of the map that is built member by member goes deeper.
  have hentries : ∀ key v, m.find? key = some v → (value.document v).depth ≤ c := by
    refine readMembers_invariant
      (fun m : StringMap α => ∀ key v, m.find? key = some v → (value.document v).depth ≤ c)
      ?_ hread ?_
    · intro x hx before next hnext hbefore key v hkey
      obtain ⟨a, ha, rfl⟩ := insertRead_eq_ok.1 hnext
      rw [StringMap.find?_insert] at hkey
      split at hkey
      · obtain rfl := Option.some.inj hkey
        exact hvalue inner x.2 k c a (hmembers x hx) (by omega) (by omega) ha
      · exact hbefore key v hkey
    · intro key v hkey
      cases hkey
  refine Nat.succ_le_succ (Document.membersDepth_le_iff.2 ?_)
  intro x hx
  obtain ⟨e, he, rfl⟩ := List.mem_map.1 hx
  exact hentries e.1 e.2 (Entries.mem_toList.1 he)

theorem mem_of_readItems {f : Tree → Except Refusal α} {a : α} {ts : List Tree} :
    ∀ {as : List α}, readItems f ts = .ok as → a ∈ as → ∃ t ∈ ts, f t = .ok a := by
  induction ts with
  | nil =>
    intro as h ha
    rw [readItems_nil.1 h] at ha
    cases ha
  | cons t ts ih =>
    intro as h ha
    obtain ⟨a', rest, ht, hrest, rfl⟩ := readItems_cons.1 h
    rcases List.mem_cons.1 ha with rfl | ha
    · exact ⟨t, List.mem_cons_self, ht⟩
    · obtain ⟨t', ht', hread⟩ := ih hrest ha
      exact ⟨t', List.mem_cons_of_mem _ ht', hread⟩

theorem Shape.list_nests {item : Shape α} (hitem : item.Nests r) :
    (Shape.list item).Nests (r + 1) := by
  intro source t n b as hwithin hn hreserve h
  obtain ⟨ts, rfl⟩ := Shape.list_ok h
  obtain ⟨inner, henter, hread⟩ := Shape.list_array.1 h
  obtain ⟨k, rfl, hitems⟩ := hwithin.items henter
  obtain ⟨c, rfl⟩ : ∃ c, b = c + 1 := ⟨b - 1, by omega⟩
  refine Nat.succ_le_succ (Document.itemsDepth_le_iff.2 ?_)
  intro d hd
  obtain ⟨a, ha, rfl⟩ := List.mem_map.1 hd
  obtain ⟨t, ht, hitemRead⟩ := mem_of_readItems hread ha
  exact hitem inner t k c a (hitems t ht) (by omega) (by omega) hitemRead

/-! ### Options -/

theorem Shape.either_nests {left right : String} {leftValue : Shape α} {rightValue : Shape β}
    {s : Nat} (hleft : leftValue.Nests r) (hright : rightValue.Nests s) :
    (Shape.either left leftValue right rightValue).Nests (max r s + 1) := by
  intro source t n b choice hwithin hn hreserve h
  rcases readOption_eq_ok h with ⟨_, _, _, _, hbare⟩ |
    ⟨inner, name, t, ending, isLeft, rfl, henter, _, hvalued⟩
  · cases hbare
  have hwithin : Within source (.object (named [(name, t)]) ending) n := hwithin
  obtain ⟨k, rfl, hmembers⟩ := hwithin.members henter
  obtain ⟨c, rfl⟩ : ∃ c, b = c + 1 := ⟨b - 1, by omega⟩
  have ht := hmembers (name, t) List.mem_cons_self
  cases isLeft with
  | true =>
    obtain ⟨a, ha, rfl⟩ := map_eq_ok.1 hvalued
    have hdepth := hleft inner t k c a ht (by omega) (by omega) ha
    exact Nat.succ_le_succ (Nat.max_le.2 ⟨hdepth, Nat.zero_le c⟩)
  | false =>
    obtain ⟨a, ha, rfl⟩ := map_eq_ok.1 hvalued
    have hdepth := hright inner t k c a ht (by omega) (by omega) ha
    exact Nat.succ_le_succ (Nat.max_le.2 ⟨hdepth, Nat.zero_le c⟩)

/-! ### Fields -/

theorem Field.required_nests {name : String} {shape : Shape α} (hshape : shape.Nests r) :
    (Field.required name shape).Nests r := by
  intro source found n b a d hwithin hn hreserve h hd
  cases hd
  cases found with
  | none => cases h
  | some t => exact hshape source t n b a (hwithin t rfl) hn hreserve h

theorem Field.defaulted_nests {name : String} {shape : Shape α} (default : α)
    (hshape : shape.Nests r) :
    (Field.defaulted name shape default).Nests (max r (shape.document default).depth) := by
  intro source found n b a d hwithin hn hreserve h hd
  cases hd
  cases found with
  | none =>
    obtain rfl := Option.some.inj h
    omega
  | some t => exact hshape source t n b a (hwithin t rfl) hn (by omega) h

theorem Field.trimmed_nests {name : String} {shape : Shape α} {default : α}
    {same : DecidableEq α} (hshape : shape.Nests r) :
    (Field.trimmed name shape default same).Nests r := by
  intro source found n b a d hwithin hn hreserve h hd
  cases same a default with
  | isTrue hsame =>
    subst hsame
    rw [Field.document?_trimmed_self] at hd
    cases hd
  | isFalse hne =>
    rw [Field.document?_trimmed_ne hne] at hd
    cases hd
    cases found with
    | none => exact absurd (Option.some.inj h).symm hne
    | some t => exact hshape source t n b a (hwithin t rfl) hn hreserve h

theorem Field.optional_nests {name : String} {shape : Shape α} (hshape : shape.Nests r) :
    (Field.optional name shape).Nests r := by
  intro source found n b a d hwithin hn hreserve h hd
  cases a with
  | none => cases hd
  | some a =>
    cases hd
    cases found with
    | none => cases h
    | some t =>
      have hread : (Field.optional name shape).ofTree source t = .ok (some a) := h
      have hne : t ≠ .null := by
        rintro rfl
        cases hread
      rw [Field.optional_ofTree hne] at hread
      obtain ⟨_, ha, hsome⟩ := map_eq_ok.1 hread
      cases hsome
      exact hshape source t n b a (hwithin t rfl) hn hreserve ha

theorem Fields.membersDepth_cons {b : Nat} {field : Field α} {rest : Fields αs} {a : α}
    {row : Row αs} (hfield : ∀ d, field.document? a = some d → d.depth ≤ b)
    (hrest : Document.membersDepth (rest.members row) ≤ b) :
    Document.membersDepth ((Fields.cons field rest).members (a, row)) ≤ b := by
  rw [members_cons]
  cases hd : field.document? a with
  | none => exact hrest
  | some d => exact Nat.max_le.2 ⟨hfield d hd, hrest⟩

/-! ### Records -/

/-- The fields that have been found are written no deeper than this. -/
def Fields.SlotsDepth (b : Nat) : {αs : List Type} → Fields αs → Slots αs → Prop
  | _, .nil, _ => True
  | _, .cons field rest, (slot, slots) =>
    (∀ a d, slot = some a → field.document? a = some d → d.depth ≤ b) ∧ rest.SlotsDepth b slots

theorem Fields.Nest.slotsDepth_blank (hfields : fields.Nest r) (b : Nat) :
    fields.SlotsDepth b fields.blank := by
  induction hfields with
  | nil => trivial
  | cons _ _ ih => exact ⟨nofun, ih⟩

/-- A member that is put into its slot keeps the bound of the slots. -/
theorem Fields.Nest.slotsDepth_put? {source : Source} {name : String} {t : Tree} {n b : Nat}
    (hfields : fields.Nest r) (hwithin : Within source t n) (hn : n ≤ b) (hreserve : r ≤ b) :
    ∀ {slots next : Slots αs}, fields.SlotsDepth b slots →
      fields.put? source name t slots = some (.ok next) → fields.SlotsDepth b next := by
  induction hfields with
  | nil =>
    intro slots next _ h
    cases h
  | @cons _ _ field rest r s head tail ih =>
    rintro ⟨slot, slots⟩ next ⟨hslot, hslots⟩ h
    rw [Fields.put?_cons] at h
    split at h
    · cases slot with
      | some _ => cases h
      | none =>
        obtain ⟨a, ha, rfl⟩ := map_eq_ok.1 (Option.some.inj h)
        refine ⟨?_, hslots⟩
        intro a' d ha' hd
        obtain rfl := Option.some.inj ha'
        refine head source (some t) n b a d ?_ hn (by omega) ha hd
        intro t' ht'
        obtain rfl := Option.some.inj ht'
        exact hwithin
    · obtain ⟨result, hresult, hmap⟩ := Option.map_eq_some_iff.1 h
      obtain ⟨slots', rfl, rfl⟩ := map_eq_ok.1 hmap
      exact ⟨hslot, ih (by omega) hslots hresult⟩

/-- What was found is within the bound, and what was not is within the reserve. -/
theorem Fields.Nest.depth_fill {b : Nat} (hfields : fields.Nest r) (hreserve : r ≤ b) :
    ∀ {slots : Slots αs} {row : Row αs}, fields.SlotsDepth b slots →
      fields.GivenBy .value [] slots row →
        Document.membersDepth (fields.members row) ≤ b := by
  induction hfields with
  | nil =>
    intro slots row _ _
    exact Nat.zero_le b
  | @cons _ _ field rest r s head tail ih =>
    rintro ⟨slot, slots⟩ ⟨a, row⟩ ⟨hslot, hslots⟩ ⟨hfield, hrest⟩
    refine Fields.membersDepth_cons ?_ (ih (by omega) hslots hrest)
    intro d hd
    cases slot with
    | none =>
      refine head .value none 0 b a d ?_ (Nat.zero_le b) (by omega) hfield hd
      intro t ht
      cases ht
    | some found =>
      obtain rfl : found = a := hfield
      exact hslot found d rfl hd

/-- The members of an object are put into their slots one by one. -/
theorem Fields.Nest.depth_object {source : Source} {n b : Nat} {ms : List (String × Tree)}
    {ending : Ending} {found : Slots αs} {row : Row αs} (hfields : fields.Nest r)
    (hwithin : ∀ m ∈ ms, Within source m.2 n) (hn : n ≤ b) (hreserve : r ≤ b)
    (hfound : readMembers (fields.step source) ending fields.blank (named ms) = .ok found)
    (hfill : fields.fill found = .ok row) : Document.membersDepth (fields.members row) ≤ b := by
  refine hfields.depth_fill hreserve ?_ ((fields.givenBy_nil found row).2 hfill)
  refine readMembers_invariant (fields.SlotsDepth b) ?_ hfound (hfields.slotsDepth_blank b)
  intro m hm slots next hnext hslots
  rcases fields.step_eq_ok hnext with rfl | hnext
  · exact hslots
  · exact hfields.slotsDepth_put? (hwithin m hm) hn hreserve hslots hnext

theorem Fields.Nest.depth_array {source : Source} {record : String} {count n b : Nat}
    (hfields : fields.Nest r) (hn : n ≤ b) (hreserve : r ≤ b) :
    ∀ {index : Nat} {ts left : List Tree} {row : Row αs}, (∀ t ∈ ts, Within source t n) →
      fields.ofItems source record count index ts = .ok (row, left) →
        Document.membersDepth (fields.members row) ≤ b := by
  induction hfields with
  | nil =>
    intro index ts left row _ _
    exact Nat.zero_le b
  | @cons _ _ field rest r s head tail ih =>
    rintro index ts left ⟨a, row⟩ hwithin h
    obtain ⟨hfield, hrest⟩ := Fields.ofItems_cons_eq_ok.1 h
    refine Fields.membersDepth_cons ?_
      (ih (by omega) (fun t ht => hwithin t (List.mem_of_mem_tail ht)) hrest)
    intro d hd
    refine head source ts.head? n b a d ?_ hn (by omega) hfield hd
    intro t ht
    exact hwithin t (List.mem_of_mem_head? ht)

theorem Shape.record_nests {name : String} (hfields : fields.Nest r) :
    (Shape.record name fields).Nests (r + 1) := by
  intro source t n b row hwithin hn hreserve h
  obtain ⟨inner, henter, ⟨ms, ending, found, rfl, hfound, hfill⟩ | ⟨ts, left, rfl, hitems⟩⟩ :=
    Shape.record_ok h
  · obtain ⟨k, rfl, hmembers⟩ := hwithin.members henter
    obtain ⟨c, rfl⟩ : ∃ c, b = c + 1 := ⟨b - 1, by omega⟩
    exact Nat.succ_le_succ
      (hfields.depth_object hmembers (by omega) (by omega) hfound hfill)
  · obtain ⟨k, rfl, hts⟩ := hwithin.items henter
    obtain ⟨c, rfl⟩ : ∃ c, b = c + 1 := ⟨b - 1, by omega⟩
    exact Nat.succ_le_succ (hfields.depth_array (by omega) (by omega) hts hitems)

theorem membersDepth_append {b : Nat} {ms : List (String × Document)} {key : String} {d : Document}
    (hms : Document.membersDepth ms ≤ b) (hd : d.depth ≤ b) :
    Document.membersDepth (ms ++ [(key, d)]) ≤ b := by
  apply Document.membersDepth_le_iff.2
  intro m hm
  rcases List.mem_append.1 hm with hm | hm
  · exact Document.membersDepth_le_iff.1 hms m hm
  · rw [List.mem_singleton.1 hm]
    exact hd

theorem Shape.recordWith_nests {name union left right : String} {leftValue : Shape α}
    {rightValue : Shape β} {s u : Nat} (hfields : fields.Nest r) (hleft : leftValue.Nests s)
    (hright : rightValue.Nests u) :
    (Shape.recordWith name fields union left leftValue right rightValue).Nests
      (max r (max s u) + 1) := by
  rintro source t n b ⟨row, choice⟩ hwithin hn hreserve h
  obtain ⟨ms, ending, rfl⟩ := Shape.recordWith_ok h
  obtain ⟨inner, henter, ⟨found, hfound, hfill⟩, hothers, m, hm, hunion⟩ :=
    Shape.recordWith_eq_ok.1 h
  obtain ⟨k, rfl, hmembers⟩ := hwithin.members henter
  obtain ⟨c, rfl⟩ : ∃ c, b = c + 1 := ⟨b - 1, by omega⟩
  have hrow := hfields.depth_object (b := c) hmembers (by omega) (by omega) hfound hfill
  have hmem := mem_of_firstNamed? hm
  obtain ⟨v, hv⟩ := hothers m hmem
  have haside : Within .setAside m.2 k := (hmembers m (List.mem_filter.1 hmem).1).aside hv _
  unfold unionOfTree at hunion
  split at hunion
  · obtain ⟨a, ha, rfl⟩ := map_eq_ok.1 hunion
    have hdepth := hleft .setAside m.2 k c a haside (by omega) (by omega) ha
    exact Nat.succ_le_succ (membersDepth_append hrow hdepth)
  · obtain ⟨a, ha, rfl⟩ := map_eq_ok.1 hunion
    have hdepth := hright .setAside m.2 k c a haside (by omega) (by omega) ha
    exact Nat.succ_le_succ (membersDepth_append hrow hdepth)

/-! ### Refinements -/

theorem Shape.refined_nests {base : Shape α} {decode : α → Except Misfit β} {encode : β → α}
    (hdecode : ∀ a b, decode a = .ok b →
      (base.document (encode b)).depth ≤ (base.document a).depth) (hbase : base.Nests r) :
    (Shape.refined base decode encode).Nests r := by
  intro source t n b x hwithin hn hreserve h
  obtain ⟨a, ha, hx⟩ := Shape.refined_eq_ok.1 h
  exact Nat.le_trans (hdecode a x hx) (hbase source t n b a hwithin hn hreserve ha)

/-! ### Every shape -/

mutual

/-- **A value is written no deeper than it was read, or than the reserve of its shape.** -/
theorem Shape.nests : ∀ {α : Type} (shape : Shape α), shape.Lawful → shape.Nests shape.reserve
  | _, .any, _ => Shape.any_nests
  | _, .text, _ => fun _ _ _ b _ _ _ _ _ => Nat.zero_le b
  | _, .object, _ => Shape.object_nests
  | _, .map value, h => Shape.map_nests (value.nests h)
  | _, .list item, h => Shape.list_nests (item.nests h)
  | _, .choice _ _, _ => fun _ _ _ b _ _ _ _ _ => Nat.zero_le b
  | _, .either _ leftValue _ rightValue, h =>
    Shape.either_nests (leftValue.nests h.2.1) (rightValue.nests h.2.2)
  | _, .record _ fields, h => Shape.record_nests (fields.nest h.2)
  | _, .recordWith _ fields _ _ leftValue _ rightValue, h =>
    Shape.recordWith_nests (fields.nest h.2.1) (leftValue.nests h.2.2.1)
      (rightValue.nests h.2.2.2)
  | _, .refined base _ _, h => Shape.refined_nests h.2.2 (base.nests h.1)
termination_by structural _ shape => shape

theorem Field.nests : ∀ {α : Type} (field : Field α), field.Lawful → field.Nests field.reserve
  | _, .required _ shape, h => Field.required_nests (shape.nests h)
  | _, .defaulted _ shape default, h => Field.defaulted_nests default (shape.nests h)
  | _, .trimmed _ shape _ _, h => Field.trimmed_nests (shape.nests h)
  | _, .optional _ shape, h => Field.optional_nests (shape.nests h.1)
termination_by structural _ field => field

theorem Fields.nest : ∀ {αs : List Type} (fields : Fields αs), fields.Lawful →
    fields.Nest fields.reserve
  | _, .nil, _ => .nil
  | _, .cons field rest, h => .cons (field.nests h.1) (rest.nest h.2)
termination_by structural _ fields => fields

end

end Nests

/-- **What was read from a text is never written deeper than a text may nest.** -/
theorem Shape.depth_le_of_ofText {α : Type} {shape : Shape α} (hlawful : shape.Lawful)
    (hreserve : shape.reserve ≤ 127) {s : String} {a : α} (h : shape.ofText s = .ok a) :
    (shape.document a).depth ≤ 127 := by
  obtain ⟨hread, _⟩ := Shape.ofText_eq_ok.1 h
  exact shape.nests hlawful .document _ 127 127 _ (Or.inl rfl) (Nat.le_refl 127) hreserve hread

end CompositionFunction.Schema
