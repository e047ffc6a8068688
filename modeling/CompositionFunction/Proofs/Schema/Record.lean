import CompositionFunction.Proofs.Schema.Fields

/-!
# Reading records by name

A record is read from the members of an object, each field from the member of its name, whatever
their order. As long as no name is repeated it is enough to look the names up. A record in array
form is read as if its items had the names of the fields in their order.

* `Shape.record_members`, `Shape.recordWith_members` : what is read from any object.
* `Shape.record_object`, `Shape.recordWith_object` : the same where no name is repeated.
* `Shape.record_array` : what is read from an array.
-/

set_option autoImplicit false

namespace CompositionFunction.Schema

open Json

/-! ## Fields by name -/

section Gives

variable {α : Type}

/-- A field is read as a value from the tree found for it, or stands for it if there is none. -/
def Field.Gives (source : Source) (field : Field α) (found : Option Tree) (a : α) : Prop :=
  match found with
  | none => field.whenAbsent? = some a
  | some t => field.ofTree source t = .ok a

/-- Each field of a record is read from the tree of its name. -/
def Fields.Gives (source : Source) (find : String → Option Tree) :
    {αs : List Type} → Fields αs → Row αs → Prop
  | _, .nil, _ => True
  | _, .cons field rest, (a, row) =>
    field.Gives source (find field.name) a ∧ rest.Gives source find row

end Gives

section Fields

variable {source : Source}

theorem Fields.gives_congr {find find' : String → Option Tree} : ∀ {αs : List Type}
    (fields : Fields αs) (row : Row αs), (∀ name ∈ fields.names, find name = find' name) →
      (fields.Gives source find row ↔ fields.Gives source find' row)
  | _, .nil, _, _ => Iff.rfl
  | _, .cons field rest, (a, row), h => by
    rw [Gives, Gives, h field.name List.mem_cons_self,
      rest.gives_congr row fun name hname => h name (List.mem_cons_of_mem _ hname)]

/-- Among members with distinct names there is at most one of each name. -/
theorem treesOf_eq_lookup (name : String) {ms : List (String × Tree)}
    (h : (ms.map Prod.fst).Nodup) : treesOf name ms = (ms.lookup name).toList := by
  induction ms with
  | nil => rfl
  | cons m ms ih =>
    obtain ⟨other, t⟩ := m
    rw [List.map_cons, List.nodup_cons] at h
    rw [lookup_cons_if]
    by_cases hname : name = other
    · subst hname
      rw [if_pos rfl, treesOf_cons_self, treesOf_eq_nil h.1]
      rfl
    · rw [if_neg hname, treesOf_cons_ne (Ne.symm hname), ih h.2]

theorem Field.givenBy_toList {α : Type} {field : Field α} {found : Option Tree} {a : α} :
    field.GivenBy source none found.toList a ↔ field.Gives source found a := by
  cases found <;> exact Iff.rfl

/-- If no name is repeated, each field is given by the member of its name. -/
theorem Fields.givenBy_iff_gives {ms : List (String × Tree)} (h : (ms.map Prod.fst).Nodup) :
    ∀ {αs : List Type} (fields : Fields αs) (row : Row αs),
      fields.GivenBy source ms fields.blank row ↔ fields.Gives source (ms.lookup ·) row
  | _, .nil, _ => Iff.rfl
  | _, .cons field rest, (a, row) => by
    rw [Gives, ← Field.givenBy_toList, ← treesOf_eq_lookup field.name h,
      ← rest.givenBy_iff_gives h row]
    exact Iff.rfl

end Fields

/-! ## Records -/

section Record

variable {source : Source} {αs : List Type}

/-- **What a record reads from an object**, whatever the order of the members. -/
theorem Shape.record_members (name : String) {fields : Fields αs} (hnames : fields.names.Nodup)
    (ms : List (String × Tree)) (row : Row αs) :
    (Shape.record name fields).ofTree source (.object (named ms) .closed) = .ok row ↔
      ∃ inner, source.enter? = some inner ∧ fields.GivenBy inner ms fields.blank row ∧
        ∀ m ∈ fields.others ms, m.2.isGrammatical = true := by
  show (enter source >>= fun inner =>
    readMembers (fields.step inner) .closed fields.blank (named ms) >>= fields.fill) = .ok row ↔ _
  simp only [bind_eq_ok, enter_eq_ok]
  exact exists_congr fun inner => and_congr_right fun _ =>
    fields.readMembers_givenBy hnames row ms fields.blank

/-- **An object without repeated names is read as the record that its members give.** -/
theorem Shape.record_object (name : String) {fields : Fields αs} (hnames : fields.names.Nodup)
    {ms : List (String × Tree)} (hdistinct : (ms.map Prod.fst).Nodup)
    (hread : ∀ m ∈ ms, m.2.isGrammatical = true) (row : Row αs) :
    (Shape.record name fields).ofTree source (.object (named ms) .closed) = .ok row ↔
      ∃ inner, source.enter? = some inner ∧ fields.Gives inner (ms.lookup ·) row := by
  rw [Shape.record_members name hnames]
  refine exists_congr fun inner => and_congr_right fun _ => ?_
  rw [fields.givenBy_iff_gives hdistinct]
  exact and_iff_left fun m hm => hread m (List.mem_filter.1 hm).1

/-- A row that begins with a value, and the items after it. -/
def Row.cons {α : Type} (a : α) (r : Row αs × List Tree) : Row (α :: αs) × List Tree :=
  ((a, r.1), r.2)

theorem map_cons_eq_ok {α : Type} {x : Except Refusal (Row αs × List Tree)} {a b : α}
    {row : Row αs} {left : List Tree} :
    x.map (Row.cons b) = .ok ((a, row), left) ↔
      b = a ∧ x = .ok (row, left) := by
  rw [map_eq_ok]
  constructor
  · rintro ⟨⟨found, rest⟩, hx, h⟩
    cases h
    exact ⟨rfl, hx⟩
  · rintro ⟨rfl, hx⟩
    exact ⟨(row, left), hx, rfl⟩

/-- The first item of an array is for the first field, and the other items are for the others. -/
theorem Fields.ofItems_cons_eq_ok {record : String} {count index : Nat} {α : Type}
    {field : Field α} {rest : Fields αs} {ts left : List Tree} {a : α} {row : Row αs} :
    (Fields.cons field rest).ofItems source record count index ts = .ok ((a, row), left) ↔
      field.Gives source ts.head? a ∧
        rest.ofItems source record count (index + 1) ts.tail = .ok (row, left) := by
  cases ts with
  | nil =>
    rw [Fields.ofItems, List.head?_nil, Field.Gives]
    cases field.whenAbsent? with
    | none => simp
    | some b => exact map_cons_eq_ok.trans (and_congr_left' Option.some_inj.symm)
  | cons t ts =>
    rw [Fields.ofItems, List.head?_cons, Field.Gives]
    cases field.ofTree source t with
    | error e => simp
    | ok b => exact map_cons_eq_ok.trans (and_congr_left' (Except.ok.injEq b a).symm.to_iff)

/-- The first items of an array give a record, each for the field at its place. -/
theorem Fields.ofItems_eq_ok (record : String) (count : Nat) : ∀ {αs : List Type}
    (fields : Fields αs) (index : Nat) (ts : List Tree) (row : Row αs), fields.names.Nodup →
      (fields.ofItems source record count index ts = .ok (row, []) ↔
        ts.length ≤ fields.names.length ∧
          fields.Gives source ((fields.names.zip ts).lookup ·) row)
  | _, .nil, index, ts, row, _ => by
    show (Except.ok ((), ts) : Except Refusal (Row [] × List Tree)) = .ok (row, []) ↔ _
    cases ts with
    | nil => exact ⟨fun _ => ⟨Nat.le_refl 0, trivial⟩, fun _ => rfl⟩
    | cons t ts =>
      constructor
      · intro h; cases h
      · intro h; exact absurd h.1 (Nat.not_succ_le_zero _)
  | _, .cons field rest, index, ts, (a, row), hnames => by
    rw [names, List.nodup_cons] at hnames
    rw [ofItems_cons_eq_ok, rest.ofItems_eq_ok record count (index + 1) ts.tail row hnames.2, names,
      Gives]
    cases ts with
    | nil =>
      rw [List.tail_nil, List.zip_nil_right, List.zip_nil_right]
      simp
    | cons t ts =>
      have hrest : rest.Gives source ((rest.names.zip ts).lookup ·) row ↔
          rest.Gives source (((field.name, t) :: rest.names.zip ts).lookup ·) row :=
        rest.gives_congr row fun k hk => by
          rw [lookup_cons_if, if_neg fun e : k = field.name => hnames.1 (e ▸ hk)]
      have hhead : ((field.name, t) :: rest.names.zip ts).lookup field.name = some t :=
        List.lookup_cons_self
      rw [List.tail_cons, List.zip_cons_cons, List.length_cons, List.length_cons,
        Nat.succ_le_succ_iff, ← hrest, hhead]
      exact and_left_comm

theorem endOfArray_eq_ok {items count : Nat} {rest : List Tree} :
    endOfArray source items count rest = .ok () ↔ rest = [] := by
  rcases rest with _ | ⟨t, rest⟩
  · exact ⟨fun _ => rfl, fun _ => rfl⟩
  · refine ⟨fun h => ?_, fun h => by cases h⟩
    cases t <;> cases source <;> cases h

/-- **An array is read as the record that its items give**, each for the field at its place. -/
theorem Shape.record_array (name : String) {fields : Fields αs} (hnames : fields.names.Nodup)
    (ts : List Tree) (row : Row αs) :
    (Shape.record name fields).ofTree source (.array ts) = .ok row ↔
      ∃ inner, source.enter? = some inner ∧ ts.length ≤ fields.names.length ∧
        fields.Gives inner ((fields.names.zip ts).lookup ·) row := by
  show (enter source >>= fun inner =>
    fields.ofItems inner name fields.names.length 0 ts >>= fun r =>
      endOfArray source ts.length fields.names.length r.2 >>= fun _ => .ok r.1) = .ok row ↔ _
  simp only [bind_eq_ok, enter_eq_ok]
  refine exists_congr fun inner => and_congr_right fun _ => ?_
  rw [← fields.ofItems_eq_ok name fields.names.length 0 ts row hnames]
  constructor
  · rintro ⟨⟨found, rest⟩, hitems, ⟨⟩, hend, hrow⟩
    cases hrow
    have hrest : rest = [] := endOfArray_eq_ok.1 hend
    rw [hrest] at hitems
    exact hitems
  · intro hitems
    exact ⟨(row, []), hitems, (), rfl, rfl⟩

/-- What is read as a record is an object or an array. -/
theorem Shape.record_ok {name : String} {fields : Fields αs} {t : Tree} {row : Row αs}
    (h : (Shape.record name fields).ofTree source t = .ok row) :
    ∃ inner, source.enter? = some inner ∧
      ((∃ ms ending found, t = .object (named ms) ending ∧
          readMembers (fields.step inner) ending fields.blank (named ms) = .ok found ∧
          fields.fill found = .ok row) ∨
        ∃ ts left, t = .array ts ∧
          fields.ofItems inner name fields.names.length 0 ts = .ok (row, left)) := by
  cases t with
  | object members ending =>
    obtain ⟨inner, henter, h⟩ := bind_eq_ok.1 h
    obtain ⟨found, hfound, hfill⟩ := bind_eq_ok.1 h
    obtain ⟨ms, rfl, _⟩ := named_of_readMembers hfound
    exact ⟨inner, enter_eq_ok.1 henter, Or.inl ⟨ms, ending, found, rfl, hfound, hfill⟩⟩
  | array ts =>
    obtain ⟨inner, henter, h⟩ := bind_eq_ok.1 h
    obtain ⟨⟨row', left⟩, hitems, h⟩ := bind_eq_ok.1 h
    obtain ⟨_, _, hrow⟩ := bind_eq_ok.1 h
    cases hrow
    exact ⟨inner, enter_eq_ok.1 henter, Or.inr ⟨ts, left, rfl, hitems⟩⟩
  | _ => cases h

end Record

/-! ## Records with a member more -/

section RecordWith

variable {source : Source} {αs : List Type}

/-- What a record with a member more does with a member: those without a field are set aside. -/
def Fields.stepAside (source : Source) (fields : Fields αs) :
    Slots αs × List (String × Tree) → String → Tree →
      Except Refusal (Slots αs × List (String × Tree)) :=
  fun (slots, aside) name t =>
    match fields.put? source name t slots with
    | some result => result.map fun slots => (slots, aside)
    | none =>
      match t.json? source with
      | some _ => .ok (slots, aside ++ [(name, t)])
      | none => .error .notJson

/-- Setting members aside does not change how the fields are read; what is set aside has to be
readable. -/
theorem Fields.readMembers_stepAside (fields : Fields αs) (ending : Ending) (found : Slots αs)
    (kept : List (String × Tree)) (ms : List (String × Tree)) : ∀ (slots : Slots αs)
    (aside : List (String × Tree)),
      readMembers (fields.stepAside source) ending (slots, aside) (named ms) = .ok (found, kept) ↔
        readMembers (fields.step source) ending slots (named ms) = .ok found ∧
          kept = aside ++ fields.others ms ∧
            ∀ m ∈ fields.others ms, ∃ v, m.2.json? source = some v := by
  induction ms with
  | nil =>
    intro slots aside
    rw [readMembers_nil, readMembers_nil]
    simp [others, and_assoc]
  | cons member ms ih =>
    intro slots aside
    obtain ⟨name, t⟩ := member
    rw [readMembers_cons, readMembers_cons, bind_eq_ok, bind_eq_ok]
    by_cases hname : name ∈ fields.names
    · obtain ⟨result, hput⟩ : ∃ result, fields.put? source name t slots = some result :=
        fields.put?_of_mem hname t slots
      have hothers : fields.others ((name, t) :: ms) = fields.others ms := by
        simp [others, hname]
      have haside : fields.stepAside source (slots, aside) name t =
          result.map fun slots => (slots, aside) := by
        simp only [stepAside, hput]
      rw [haside, fields.step_of_some hput, hothers]
      constructor
      · rintro ⟨next, hnext, h⟩
        obtain ⟨next, hresult, rfl⟩ := map_eq_ok.1 hnext
        obtain ⟨hfound, hkept⟩ := (ih next aside).1 h
        exact ⟨⟨next, hresult, hfound⟩, hkept⟩
      · rintro ⟨⟨next, hresult, hfound⟩, hkept⟩
        exact ⟨(next, aside), map_eq_ok.2 ⟨next, hresult, rfl⟩, (ih next aside).2 ⟨hfound, hkept⟩⟩
    · have hput : fields.put? source name t slots = none := (fields.put?_eq_none slots).2 hname
      have hothers : fields.others ((name, t) :: ms) = (name, t) :: fields.others ms := by
        simp [others, hname]
      have haside : fields.stepAside source (slots, aside) name t =
          match t.json? source with
          | some _ => .ok (slots, aside ++ [(name, t)])
          | none => .error .notJson := by
        simp only [stepAside, hput]
      rw [haside, hothers]
      constructor
      · rintro ⟨next, hnext, h⟩
        split at hnext
        · rename_i v hv
          cases hnext
          obtain ⟨hfound, hkept, hread⟩ := (ih slots _).1 h
          have hstep := fields.step_of_none hput (Tree.isGrammatical_of_json? t hv)
          refine ⟨⟨slots, hstep, hfound⟩, ?_, ?_⟩
          · rw [hkept, List.append_assoc]
            rfl
          · intro m hm
            rcases List.mem_cons.1 hm with rfl | hm
            · exact ⟨v, hv⟩
            · exact hread m hm
        · cases hnext
      · rintro ⟨⟨next, hnext, hfound⟩, hkept, hread⟩
        obtain ⟨v, hv⟩ := hread (name, t) List.mem_cons_self
        rw [fields.step_of_none hput (Tree.isGrammatical_of_json? t hv)] at hnext
        cases hnext
        refine ⟨(slots, aside ++ [(name, t)]), by simp only [hv], (ih slots _).2 ⟨hfound, ?_, ?_⟩⟩
        · rw [hkept, List.append_assoc]
          rfl
        · intro m hm
          exact hread m (List.mem_cons_of_mem _ hm)

/-! ### The member more -/

/-- The members that are options of a union. -/
def optionsAmong (left right : String) (ms : List (String × Tree)) : List (String × Tree) :=
  ms.filter fun m => m.1 = left ∨ m.1 = right

theorem firstNamed?_eq_head? (left right : String) (ms : List (String × Tree)) :
    firstNamed? left right ms = (optionsAmong left right ms).head? := by
  induction ms with
  | nil => rfl
  | cons m ms ih =>
    obtain ⟨name, t⟩ := m
    rw [firstNamed?, ih, optionsAmong, optionsAmong, List.filter_cons]
    by_cases hname : name = left ∨ name = right <;> simp [hname]

theorem firstNamed?_others {left right : String} {fields : Fields αs}
    (hleft : left ∉ fields.names) (hright : right ∉ fields.names) (ms : List (String × Tree)) :
    firstNamed? left right (fields.others ms) = firstNamed? left right ms := by
  rw [firstNamed?_eq_head?, firstNamed?_eq_head?, optionsAmong, Fields.others, List.filter_filter]
  refine congrArg List.head? (List.filter_congr fun m _ => ?_)
  by_cases hl : m.1 = left
  · simp [hl, hleft]
  · by_cases hr : m.1 = right <;> simp [hl, hr, hright]

theorem firstNamed?_swap (left right : String) (ms : List (String × Tree)) :
    firstNamed? left right ms = firstNamed? right left ms := by
  rw [firstNamed?_eq_head?, firstNamed?_eq_head?]
  simp only [optionsAmong, or_comm]

theorem mem_of_firstNamed? {left right : String} {m : String × Tree} {ms : List (String × Tree)}
    (h : firstNamed? left right ms = some m) : m ∈ ms := by
  rw [firstNamed?_eq_head?] at h
  exact (List.mem_filter.1 (List.mem_of_head? h)).1

/-- If one of two names is missing, the first of both is the other one. -/
theorem firstNamed?_eq_lookup {left right : String} {ms : List (String × Tree)}
    (h : ms.lookup right = none) :
    firstNamed? left right ms = (ms.lookup left).map fun t => (left, t) := by
  induction ms with
  | nil => rfl
  | cons member ms ih =>
    obtain ⟨name, t⟩ := member
    rw [lookup_cons_if] at h ⊢
    by_cases hright : right = name
    · rw [if_pos hright] at h
      cases h
    · rw [if_neg hright] at h
      rw [firstNamed?, ih h]
      by_cases hleft : left = name
      · simp [hleft]
      · simp [Ne.symm hleft, Ne.symm hright, hleft]

variable {α β : Type}

/-- A member as an option of a union with its value. -/
def unionOfTree (left : String) (leftValue : Shape α) (rightValue : Shape β) (m : String × Tree) :
    Except Refusal (α ⊕ β) :=
  if m.1 = left then (leftValue.ofTree .setAside m.2).map .inl
  else (rightValue.ofTree .setAside m.2).map .inr

/-- A row with the first option of a union among the members that are no fields. -/
def withOption (union left right : String) (leftValue : Shape α) (rightValue : Shape β)
    (row : Row αs) (aside : List (String × Tree)) : Except Refusal (Row αs × (α ⊕ β)) :=
  match firstNamed? left right aside with
  | none => .error (.misfit (.noOption union))
  | some (option, t) =>
    if option = left then (leftValue.ofTree .setAside t).map fun a => (row, .inl a)
    else (rightValue.ofTree .setAside t).map fun b => (row, .inr b)

theorem withOption_eq_ok {union left right : String} {leftValue : Shape α} {rightValue : Shape β}
    {found row : Row αs} {aside : List (String × Tree)} {choice : α ⊕ β} :
    withOption union left right leftValue rightValue found aside = .ok (row, choice) ↔
      found = row ∧ ∃ m, firstNamed? left right aside = some m ∧
        unionOfTree left leftValue rightValue m = .ok choice := by
  unfold withOption unionOfTree
  cases firstNamed? left right aside with
  | none => simp
  | some m =>
    simp only [Option.some.injEq, exists_eq_left']
    split <;> simp [map_eq_ok, and_left_comm]

theorem Shape.recordWith_eq_ok {name union left right : String} {fields : Fields αs}
    {leftValue : Shape α} {rightValue : Shape β} {ms : List (String × Tree)} {ending : Ending}
    {row : Row αs} {choice : α ⊕ β} :
    (Shape.recordWith name fields union left leftValue right rightValue).ofTree source
        (.object (named ms) ending) = .ok (row, choice) ↔
      ∃ inner, source.enter? = some inner ∧
        (∃ found, readMembers (fields.step inner) ending fields.blank (named ms) = .ok found ∧
          fields.fill found = .ok row) ∧
        (∀ m ∈ fields.others ms, ∃ v, m.2.json? inner = some v) ∧
        ∃ m, firstNamed? left right (fields.others ms) = some m ∧
          unionOfTree left leftValue rightValue m = .ok choice := by
  show (enter source >>= fun inner =>
    readMembers (fields.stepAside inner) ending (fields.blank, []) (named ms) >>= fun r =>
      fields.fill r.1 >>= fun found =>
        withOption union left right leftValue rightValue found r.2) = .ok (row, choice) ↔ _
  simp only [bind_eq_ok, enter_eq_ok, withOption_eq_ok]
  refine exists_congr fun inner => and_congr_right fun _ => ?_
  constructor
  · rintro ⟨⟨found, kept⟩, hread, row', hfill, rfl, hoption⟩
    obtain ⟨hfound, rfl, hothers⟩ :=
      (fields.readMembers_stepAside ending found kept ms fields.blank []).1 hread
    exact ⟨⟨found, hfound, hfill⟩, hothers, hoption⟩
  · rintro ⟨⟨found, hfound, hfill⟩, hothers, hoption⟩
    refine ⟨(found, fields.others ms), ?_, row, hfill, rfl, hoption⟩
    exact (fields.readMembers_stepAside ending found _ ms fields.blank []).2 ⟨hfound, rfl, hothers⟩

/-- What is read as a record with a member more is an object. -/
theorem Shape.recordWith_ok {name union left right : String} {fields : Fields αs}
    {leftValue : Shape α} {rightValue : Shape β} {t : Tree} {x : Row αs × (α ⊕ β)}
    (h : (Shape.recordWith name fields union left leftValue right rightValue).ofTree source t =
      .ok x) : ∃ ms ending, t = .object (named ms) ending := by
  cases t with
  | object members ending =>
    obtain ⟨inner, _, h⟩ := bind_eq_ok.1 h
    obtain ⟨found, hfound, _⟩ := bind_eq_ok.1 h
    obtain ⟨ms, rfl, _⟩ := named_of_readMembers hfound
    exact ⟨ms, ending, rfl⟩
  | _ => cases h

/-- **What a record with a member more reads from its members.** -/
theorem Shape.recordWith_members {name union left right : String} {fields : Fields αs}
    {leftValue : Shape α} {rightValue : Shape β} {ms : List (String × Tree)} {row : Row αs}
    {choice : α ⊕ β} (hnames : (left :: right :: fields.names).Nodup) :
    (Shape.recordWith name fields union left leftValue right rightValue).ofTree source
        (.object (named ms) .closed) = .ok (row, choice) ↔
      ∃ inner, source.enter? = some inner ∧ fields.GivenBy inner ms fields.blank row ∧
        (∀ m ∈ fields.others ms, ∃ v, m.2.json? inner = some v) ∧
        ∃ m, (optionsAmong left right ms).head? = some m ∧
          unionOfTree left leftValue rightValue m = .ok choice := by
  simp only [List.nodup_cons, List.mem_cons, not_or] at hnames
  obtain ⟨⟨_, hleft⟩, hright, hfields⟩ := hnames
  rw [Shape.recordWith_eq_ok, firstNamed?_others hleft hright, firstNamed?_eq_head?]
  refine exists_congr fun inner => and_congr_right fun _ => ?_
  rw [fields.readMembers_givenBy hfields row ms fields.blank, and_assoc]
  refine and_congr_right fun _ => ⟨fun h => h.2, fun h => ⟨fun m hm => ?_, h⟩⟩
  obtain ⟨v, hv⟩ := h.1 m hm
  exact Tree.isGrammatical_of_json? m.2 hv

/-- **An object without repeated names is read as the record that its members give**, with its first
member that is an option of the union. -/
theorem Shape.recordWith_object {name union left right : String} {fields : Fields αs}
    {leftValue : Shape α} {rightValue : Shape β}
    (hnames : (left :: right :: fields.names).Nodup) {ms : List (String × Tree)}
    (hdistinct : (ms.map Prod.fst).Nodup) {inner : Source} (henter : source.enter? = some inner)
    (hread : ∀ m ∈ ms, ∃ v, m.2.json? inner = some v) (row : Row αs) (choice : α ⊕ β) :
    (Shape.recordWith name fields union left leftValue right rightValue).ofTree source
        (.object (named ms) .closed) = .ok (row, choice) ↔
      fields.Gives inner (ms.lookup ·) row ∧
        ∃ m, firstNamed? left right ms = some m ∧
          unionOfTree left leftValue rightValue m = .ok choice := by
  rw [Shape.recordWith_members hnames, firstNamed?_eq_head?]
  constructor
  · rintro ⟨inner', henter', hgiven, _, h⟩
    obtain rfl : inner = inner' := Option.some.inj (henter.symm.trans henter')
    exact ⟨(fields.givenBy_iff_gives hdistinct row).1 hgiven, h⟩
  · rintro ⟨hgives, h⟩
    exact ⟨inner, henter, (fields.givenBy_iff_gives hdistinct row).2 hgives,
      fun m hm => hread m (List.mem_filter.1 hm).1, h⟩

end RecordWith

end CompositionFunction.Schema
