import CompositionFunction.Proofs.Schema.Container

/-!
# The fields of a record

A record goes through the members of an object and puts each of them into the slot of its field,
which has to be blank; a member without a field is skipped. So what is read can be said of each
field by itself: it is given by the only member of its name, or by its default if there is none. A
name that stands twice is refused wherever it stands, and no order of the members matters.

* `Fields.put?`, `Fields.step` : what is done with one member.
* `Fields.GivenBy` : what the members of its name give for each field.
* `Fields.readMembers_givenBy` : what is read from all members.
-/

set_option autoImplicit false

namespace CompositionFunction.Schema

open Json

section Fields

variable {source : Source}

/-! ## One member -/

/-- The slots of a record by their first one. -/
def Slots.cons {α : Type} {αs : List Type} (slot : Option α) (slots : Slots αs) :
    Slots (α :: αs) :=
  (slot, slots)

theorem Fields.put?_cons {name : String} {t : Tree} {α : Type} {αs : List Type} (field : Field α)
    (rest : Fields αs) (slot : Option α) (slots : Slots αs) :
    (Fields.cons field rest).put? source name t (slot, slots) =
      if name = field.name then
        match slot with
        | some _ => some (.error (.misfit (.duplicateField name)))
        | none =>
          some ((field.ofTree source t).map fun a => Slots.cons (some a) slots)
      else
        (rest.put? source name t slots).map fun result => result.map (Slots.cons slot) :=
  rfl

/-- A member has no field exactly if no field has its name. -/
theorem Fields.put?_eq_none {name : String} {t : Tree} : ∀ {αs : List Type} (fields : Fields αs)
    (slots : Slots αs), fields.put? source name t slots = none ↔ name ∉ fields.names
  | _, .nil, _ => by simp [put?, names]
  | _, .cons field rest, (slot, slots) => by
    rw [put?_cons, names, List.mem_cons]
    by_cases hname : name = field.name
    · rw [if_pos hname]
      cases slot <;> simp [hname]
    · rw [if_neg hname, Option.map_eq_none_iff, rest.put?_eq_none slots]
      simp [hname]

theorem Fields.put?_of_mem {name : String} {αs : List Type} (fields : Fields αs)
    (h : name ∈ fields.names) (t : Tree) (slots : Slots αs) :
    ∃ result, fields.put? source name t slots = some result := by
  cases hput : fields.put? source name t slots with
  | none => exact absurd h ((fields.put?_eq_none slots).1 hput)
  | some result => exact ⟨result, rfl⟩

/-- What a record does with a member. -/
def Fields.step (source : Source) {αs : List Type} (fields : Fields αs) (slots : Slots αs)
    (name : String) (t : Tree) : Except Refusal (Slots αs) :=
  match fields.put? source name t slots with
  | some result => result
  | none => (skip t).map fun _ => slots

theorem skip_eq_ok {t : Tree} : skip t = .ok () ↔ t.isGrammatical = true := by
  unfold skip
  cases t.isGrammatical <;> simp

theorem Fields.step_of_none {αs : List Type} (fields : Fields αs) {slots : Slots αs}
    {name : String} {t : Tree} (h : fields.put? source name t slots = none)
    (hread : t.isGrammatical = true) : fields.step source slots name t = .ok slots := by
  unfold step
  rw [h]
  exact map_eq_ok.2 ⟨(), skip_eq_ok.2 hread, rfl⟩

theorem Fields.step_of_some {αs : List Type} (fields : Fields αs) {slots : Slots αs}
    {name : String} {t : Tree} {result : Except Refusal (Slots αs)}
    (h : fields.put? source name t slots = some result) :
    fields.step source slots name t = result := by
  unfold step
  rw [h]

/-- A member is put into the slot of its field, or it is skipped. -/
theorem Fields.step_eq_ok {αs : List Type} (fields : Fields αs) {slots next : Slots αs}
    {name : String} {t : Tree} (h : fields.step source slots name t = .ok next) :
    next = slots ∨ fields.put? source name t slots = some (.ok next) := by
  unfold step at h
  split at h
  · rename_i result hput
    exact Or.inr (h ▸ hput)
  · obtain ⟨_, _, rfl⟩ := map_eq_ok.1 h
    exact Or.inl rfl

/-- The members without a field. -/
def Fields.others {αs : List Type} (fields : Fields αs) (ms : List (String × Tree)) :
    List (String × Tree) :=
  ms.filter fun m => m.1 ∉ fields.names

end Fields

/-! ## The members of a field -/

/-- The trees of the members of a name. -/
def treesOf (name : String) (ms : List (String × Tree)) : List Tree :=
  (ms.filter fun m => m.1 = name).map Prod.snd

theorem treesOf_cons_self (name : String) (t : Tree) (ms : List (String × Tree)) :
    treesOf name ((name, t) :: ms) = t :: treesOf name ms := by
  simp [treesOf]

theorem treesOf_cons_ne {name other : String} (h : other ≠ name) (t : Tree)
    (ms : List (String × Tree)) : treesOf name ((other, t) :: ms) = treesOf name ms := by
  simp [treesOf, h]

theorem treesOf_eq_nil {name : String} {ms : List (String × Tree)}
    (h : name ∉ ms.map Prod.fst) : treesOf name ms = [] := by
  rw [treesOf, List.map_eq_nil_iff, List.filter_eq_nil_iff]
  exact fun m hm hname => h (of_decide_eq_true hname ▸ List.mem_map_of_mem hm)

theorem mem_treesOf {name : String} {t : Tree} {ms : List (String × Tree)} :
    t ∈ treesOf name ms ↔ (name, t) ∈ ms := by
  simp [treesOf]

section Fields

variable {α : Type} {αs : List Type} {source : Source}

/-- A field was found before, or it is read from its only tree, or it is absent. -/
def Field.GivenBy (source : Source) (field : Field α) (slot : Option α) (trees : List Tree)
    (a : α) : Prop :=
  match slot, trees with
  | none, [] => field.whenAbsent? = some a
  | none, [t] => field.ofTree source t = .ok a
  | some b, [] => b = a
  | _, _ => False

/-- Each field of a record was found before, or it is given by the members of its name. -/
def Fields.GivenBy (source : Source) (ms : List (String × Tree)) :
    {αs : List Type} → Fields αs → Slots αs → Row αs → Prop
  | _, .nil, _, _ => True
  | _, .cons field rest, (slot, slots), (a, row) =>
    field.GivenBy source slot (treesOf field.name ms) a ∧ rest.GivenBy source ms slots row

/-- What is found first has to be the only tree of its field. -/
theorem Field.givenBy_cons {field : Field α} {t : Tree} {trees : List Tree} {a : α} :
    field.GivenBy source none (t :: trees) a ↔
      ∃ b, field.ofTree source t = .ok b ∧ field.GivenBy source (some b) trees a := by
  cases trees with
  | nil =>
    constructor
    · intro h
      exact ⟨a, h, rfl⟩
    · rintro ⟨b, hb, rfl⟩
      exact hb
  | cons u trees => exact ⟨nofun, fun ⟨_, _, h⟩ => h.elim⟩

theorem Field.givenBy_perm {field : Field α} {slot : Option α} {trees others : List Tree} {a : α}
    (h : trees.Perm others) (hgiven : field.GivenBy source slot trees a) :
    field.GivenBy source slot others a := by
  match trees with
  | [] =>
    rw [h.nil_eq] at hgiven
    exact hgiven
  | [t] =>
    rw [List.singleton_perm.1 h] at hgiven
    exact hgiven
  | _ :: _ :: _ => cases slot <;> exact hgiven.elim

theorem Fields.givenBy_perm {ms ns : List (String × Tree)} (h : ms.Perm ns) : ∀ {αs : List Type}
    {fields : Fields αs} {slots : Slots αs} {row : Row αs},
    fields.GivenBy source ms slots row → fields.GivenBy source ns slots row
  | _, .nil, _, _, _ => trivial
  | _, .cons _ _, (_, _), (_, _), hgiven =>
    ⟨Field.givenBy_perm ((h.filter _).map _) hgiven.1, Fields.givenBy_perm h hgiven.2⟩

/-- A member that has no field gives nothing. -/
theorem Fields.givenBy_cons_other {name : String} (t : Tree) (ms : List (String × Tree)) :
    ∀ {αs : List Type} (fields : Fields αs) (slots : Slots αs) (row : Row αs),
      name ∉ fields.names →
        (fields.GivenBy source ((name, t) :: ms) slots row ↔ fields.GivenBy source ms slots row)
  | _, .nil, _, _, _ => Iff.rfl
  | _, .cons field rest, (slot, slots), (a, row), h => by
    rw [names, List.mem_cons, not_or] at h
    rw [GivenBy, GivenBy, treesOf_cons_ne h.1, rest.givenBy_cons_other t ms slots row h.2]

/-- Without members the slots decide, and the defaults. -/
theorem Fields.givenBy_nil : ∀ {αs : List Type} (fields : Fields αs) (slots : Slots αs)
    (row : Row αs), fields.GivenBy source [] slots row ↔ fields.fill slots = .ok row
  | _, .nil, _, _ => ⟨fun _ => rfl, fun _ => trivial⟩
  | _, .cons field rest, (slot, slots), (a, row) => by
    rw [fill, GivenBy, rest.givenBy_nil slots row]
    have hfield : field.GivenBy source slot [] a ↔ slot.or field.whenAbsent? = some a := by
      cases slot with
      | none => rw [Option.none_or]; rfl
      | some b => rw [Option.some_or, Option.some.injEq]; rfl
    rw [treesOf, List.filter_nil, List.map_nil, hfield]
    cases slot.or field.whenAbsent? with
    | none => simp
    | some b =>
      cases rest.fill slots with
      | error e => simp
      | ok found =>
        constructor
        · rintro ⟨hb, hfound⟩; cases hb; cases hfound; rfl
        · intro h; cases h; exact ⟨rfl, rfl⟩

/-- Putting a member into its slot and reading on is reading with the member in front. -/
theorem Fields.put?_givenBy {name : String} {t : Tree} {ms : List (String × Tree)} :
    ∀ {αs : List Type} (fields : Fields αs) (slots : Slots αs) {result : Except Refusal (Slots αs)},
      fields.names.Nodup → fields.put? source name t slots = some result → ∀ row : Row αs,
        ((∃ next, result = .ok next ∧ fields.GivenBy source ms next row) ↔
          fields.GivenBy source ((name, t) :: ms) slots row)
  | _, .nil, _, result, _, h, _ => by cases h
  | _, .cons field rest, (slot, slots), result, hnames, h, (a, row) => by
    rw [names, List.nodup_cons] at hnames
    rw [put?_cons] at h
    rw [GivenBy]
    by_cases hname : name = field.name
    · subst hname
      rw [if_pos rfl] at h
      rw [treesOf_cons_self, rest.givenBy_cons_other t ms slots row hnames.1]
      cases slot with
      | some b =>
        obtain rfl := Option.some.inj h
        constructor
        · rintro ⟨_, hnext, _⟩; cases hnext
        · rintro ⟨hfield, _⟩; exact hfield.elim
      | none =>
        obtain rfl := Option.some.inj h
        rw [Field.givenBy_cons]
        constructor
        · rintro ⟨next, hnext, hfield, hrest⟩
          obtain ⟨b, hb, rfl⟩ := map_eq_ok.1 hnext
          exact ⟨⟨b, hb, hfield⟩, hrest⟩
        · rintro ⟨⟨b, hb, hfield⟩, hrest⟩
          exact ⟨(some b, slots), map_eq_ok.2 ⟨b, hb, rfl⟩, hfield, hrest⟩
    · rw [if_neg hname] at h
      obtain ⟨inner, hinner, rfl⟩ := Option.map_eq_some_iff.1 h
      rw [treesOf_cons_ne hname, ← rest.put?_givenBy slots hnames.2 hinner row]
      constructor
      · rintro ⟨next, hnext, hfield, hrest⟩
        obtain ⟨slots', hslots', rfl⟩ := map_eq_ok.1 hnext
        exact ⟨hfield, slots', hslots', hrest⟩
      · rintro ⟨hfield, slots', hslots', hrest⟩
        exact ⟨(slot, slots'), map_eq_ok.2 ⟨slots', hslots', rfl⟩, hfield, hrest⟩

/-- **What a record reads from its members**, said of each field by itself; the members without a
field have to follow the grammar. -/
theorem Fields.readMembers_givenBy (fields : Fields αs) (hnames : fields.names.Nodup)
    (row : Row αs) (ms : List (String × Tree)) : ∀ slots : Slots αs,
      ((∃ found, readMembers (fields.step source) .closed slots (named ms) = .ok found ∧
          fields.fill found = .ok row) ↔
        fields.GivenBy source ms slots row ∧
          ∀ m ∈ fields.others ms, m.2.isGrammatical = true) := by
  induction ms with
  | nil =>
    intro slots
    rw [fields.givenBy_nil]
    constructor
    · rintro ⟨found, hfound, hfill⟩
      cases hfound
      exact ⟨hfill, fun m hm => by cases hm⟩
    · rintro ⟨hfill, _⟩
      exact ⟨slots, rfl, hfill⟩
  | cons member ms ih =>
    intro slots
    obtain ⟨name, t⟩ := member
    rw [readMembers_cons]
    cases hput : fields.put? source name t slots with
    | none =>
      have habsent := (fields.put?_eq_none slots).1 hput
      have hothers : fields.others ((name, t) :: ms) = (name, t) :: fields.others ms := by
        simp [others, habsent]
      rw [fields.givenBy_cons_other t ms slots row habsent, hothers, List.forall_mem_cons,
        and_left_comm, ← ih slots]
      constructor
      · rintro ⟨found, hfound, hfill⟩
        obtain ⟨next, hnext, hrest⟩ := bind_eq_ok.1 hfound
        unfold step at hnext
        rw [hput] at hnext
        obtain ⟨_, hskip, rfl⟩ := map_eq_ok.1 hnext
        exact ⟨skip_eq_ok.1 hskip, found, hrest, hfill⟩
      · rintro ⟨hread, found, hrest, hfill⟩
        exact ⟨found, bind_eq_ok.2 ⟨slots, fields.step_of_none hput hread, hrest⟩, hfill⟩
    | some result =>
      have hpresent : name ∈ fields.names := by
        by_cases hname : name ∈ fields.names
        · exact hname
        · rw [(fields.put?_eq_none slots).2 hname] at hput
          cases hput
      have hothers : fields.others ((name, t) :: ms) = fields.others ms := by
        simp [others, hpresent]
      rw [hothers, ← fields.put?_givenBy slots hnames hput row, fields.step_of_some hput]
      constructor
      · rintro ⟨found, hfound, hfill⟩
        obtain ⟨next, hnext, hrest⟩ := bind_eq_ok.1 hfound
        obtain ⟨hgiven, hread⟩ := (ih next).1 ⟨found, hrest, hfill⟩
        exact ⟨⟨next, hnext, hgiven⟩, hread⟩
      · rintro ⟨⟨next, hnext, hgiven⟩, hread⟩
        obtain ⟨found, hrest, hfill⟩ := (ih next).2 ⟨hgiven, hread⟩
        exact ⟨found, bind_eq_ok.2 ⟨next, hnext, hrest⟩, hfill⟩

theorem Fields.mem_others_perm {fields : Fields αs} {ms ns : List (String × Tree)}
    (h : ms.Perm ns) {m : String × Tree} (hm : m ∈ fields.others ns) : m ∈ fields.others ms :=
  (h.filter _).mem_iff.2 hm

end Fields

end CompositionFunction.Schema
