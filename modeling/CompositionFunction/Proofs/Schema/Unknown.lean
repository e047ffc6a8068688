import CompositionFunction.Proofs.Schema.Record
import CompositionFunction.Proofs.Schema.Role

/-!
# Members that a record does not know

A record skips the members that it has no field for, so one more of them changes nothing, wherever
in a message the record stands. Of a member that is skipped only the grammar counts. But what is set
aside, to be read again later, has to be readable.

* `readMembers_insert`, `readMembers_replace` : members that do not change what is read.
* `Shape.recordWith_chosen` : a record with a member more keeps only one of the other members.
* `Shape.ignores` : a member more that a record skips changes nothing in what is read.
* `Shape.ofText_gains` : the same for a text.
-/

set_option autoImplicit false

namespace CompositionFunction.Schema

open Json

/-- A record skips a member: it does not know the name, the value follows the grammar, and if it is
set aside it is readable at its depth. -/
structure Role.Skips (role : Role) (source : Source) (pointer : Pointer) (m : String × Tree) :
    Prop where
  unknown : m.1 ∉ role.names
  isGrammatical : m.2.isGrammatical = true
  readable : role.isAside = true →
    ∃ inner, source.within? (pointer.length + 1) = some inner ∧ m.2.IsReadable inner

/-! ## Containers with a member more -/

section Containers

variable {α β σ : Type} {source : Source}

theorem bind_enter_congr {f g : Source → Except Refusal α}
    (h : ∀ inner, source.enter? = some inner → f inner = g inner) :
    (enter source >>= f) = (enter source >>= g) := by
  unfold enter
  cases henter : source.enter? with
  | none => rfl
  | some inner => exact h inner henter

section Members

variable {f : σ → String → Tree → Except Refusal σ} {ending : Ending}

/-- What is read alike may stand for each other behind any members. -/
theorem readMembers_behind {after after' : List (Option String × Tree)}
    (h : ∀ s, readMembers f ending s after' = readMembers f ending s after)
    (before : List (Option String × Tree)) : ∀ s,
      readMembers f ending s (before ++ after') = readMembers f ending s (before ++ after) := by
  induction before with
  | nil => exact h
  | cons m before ih =>
    intro s
    obtain ⟨_ | name, t⟩ := m
    · rfl
    · rw [List.cons_append, List.cons_append, readMembers, readMembers]
      cases f s name t with
      | error e => rfl
      | ok next => exact ih next

/-- A member that changes nothing may stand anywhere. -/
theorem readMembers_insert {name : String} {u : Tree} (h : ∀ s, f s name u = .ok s)
    (before after : List (Option String × Tree)) :
    ∀ s, readMembers f ending s (before ++ (some name, u) :: after) =
      readMembers f ending s (before ++ after) :=
  readMembers_behind (fun s => by rw [readMembers, h]) before

/-- Members that are read alike may stand for each other. -/
theorem readMembers_replace {name : String} {t t' : Tree} (h : ∀ s, f s name t' = f s name t)
    (before after : List (Option String × Tree)) :
    ∀ s, readMembers f ending s (before ++ (some name, t') :: after) =
      readMembers f ending s (before ++ (some name, t) :: after) :=
  readMembers_behind (fun s => by rw [readMembers, readMembers, h]) before

end Members

theorem readItems_replace {f : Tree → Except Refusal α} {t t' : Tree} (h : f t' = f t)
    (before after : List Tree) :
    readItems f (before ++ t' :: after) = readItems f (before ++ t :: after) := by
  induction before with
  | nil => rw [List.nil_append, List.nil_append, readItems, readItems, h]
  | cons x before ih => rw [List.cons_append, List.cons_append, readItems, readItems, ih]

theorem bind_findOption_congr {known : List (String × β)} {name : String}
    {f g : β → Except Refusal α} (h : ∀ b, known.lookup name = some b → f b = g b) :
    (findOption known name >>= f) = (findOption known name >>= g) := by
  unfold findOption
  cases hlookup : known.lookup name with
  | none => rfl
  | some b => exact h b hlookup

/-- Values of an option that are read alike may stand for each other. -/
theorem readOption_replace {known : List (String × β)} {bare : β → Except Refusal α}
    {valued : β → Source → Tree → Except Refusal α} {name : String} {t t' : Tree}
    (h : ∀ inner b, source.enter? = some inner → known.lookup name = some b →
      valued b inner t' = valued b inner t)
    (before after : List (Option String × Tree)) (ending : Ending) :
    readOption source known bare valued (.object (before ++ (some name, t') :: after) ending) =
      readOption source known bare valued (.object (before ++ (some name, t) :: after) ending) := by
  unfold readOption
  refine bind_enter_congr fun inner henter => ?_
  rcases before with _ | ⟨⟨_ | other, x⟩, before⟩
  · cases source with
    | text levels =>
      refine bind_findOption_congr fun b hb => ?_
      rw [h inner b henter hb]
    | value | setAside =>
      cases after with
      | nil => exact bind_findOption_congr fun b hb => h inner b henter hb
      | cons => rfl
  -- Another member stands first: it is read, or there are too many members.
  · cases source <;> cases before <;> rfl
  · cases source <;> cases before <;> rfl

end Containers

/-! ## What is skipped -/

section Skips

variable {role : Role} {source inner : Source} {key : Key} {pointer : Pointer} {m : String × Tree}

theorem Role.Skips.enter (h : role.Skips source (key :: pointer) m)
    (henter : source.enter? = some inner) : role.Skips inner pointer m := by
  refine ⟨h.unknown, h.isGrammatical, fun haside => ?_⟩
  obtain ⟨deep, hdeep, hread⟩ := h.readable haside
  obtain ⟨next, hnext, hdeep⟩ := Option.bind_eq_some_iff.1 hdeep
  obtain rfl : inner = next := Option.some.inj (henter.symm.trans hnext)
  exact ⟨deep, hdeep, hread⟩

/-- What is readable at its depth may be set aside. -/
theorem Role.Skips.setAside (h : role.aside.Skips source pointer m) :
    role.Skips .setAside pointer m := by
  refine ⟨h.unknown, h.isGrammatical, fun _ => ?_⟩
  obtain ⟨_, _, v, hv⟩ := h.readable rfl
  exact ⟨.setAside, Source.within?_setAside _, v, m.2.json?_unbounded .setAside rfl hv⟩

end Skips

/-- The shape reads a tree as it reads the tree with a member more that a record in it skips. -/
def Shape.Ignores {α : Type} (shape : Shape α) : Prop :=
  ∀ ⦃source : Source⦄ ⦃pointer : Pointer⦄ ⦃role : Role⦄ ⦃m : String × Tree⦄ ⦃t t' : Tree⦄,
    shape.roleAt pointer = some role → role.Skips source pointer m →
      Tree.Gains (some m.1, m.2) pointer t t' → shape.ofTree source t' = shape.ofTree source t

/-- The same for a field. -/
def Field.Ignores {α : Type} (field : Field α) : Prop :=
  ∀ ⦃source : Source⦄ ⦃pointer : Pointer⦄ ⦃role : Role⦄ ⦃m : String × Tree⦄ ⦃t t' : Tree⦄,
    field.roleAt pointer = some role → role.Skips source pointer m →
      Tree.Gains (some m.1, m.2) pointer t t' → field.ofTree source t' = field.ofTree source t

/-- The same for the fields of a record, whose values stand under their names or in their order. -/
structure Fields.Ignore {αs : List Type} (fields : Fields αs) : Prop where
  put? : ∀ ⦃source : Source⦄ ⦃pointer : Pointer⦄ ⦃role : Role⦄ ⦃m : String × Tree⦄
    ⦃t t' : Tree⦄ ⦃name : String⦄, fields.roleUnder name pointer = some role →
      role.Skips source pointer m → Tree.Gains (some m.1, m.2) pointer t t' →
        ∀ slots, fields.put? source name t' slots = fields.put? source name t slots
  ofItems : ∀ ⦃source : Source⦄ ⦃pointer : Pointer⦄ ⦃role : Role⦄ ⦃m : String × Tree⦄
    ⦃t t' : Tree⦄ ⦃before : List Tree⦄, fields.roleIn before.length pointer = some role →
      role.Skips source pointer m → Tree.Gains (some m.1, m.2) pointer t t' →
        ∀ record count index after,
          fields.ofItems source record count index (before ++ t' :: after) =
            fields.ofItems source record count index (before ++ t :: after)

theorem Fields.mem_names_of_roleUnder {name : String} {pointer : Pointer} {role : Role} :
    ∀ {αs : List Type} {fields : Fields αs}, fields.roleUnder name pointer = some role →
      name ∈ fields.names
  | _, .nil, h => by cases h
  | _, .cons field rest, h => by
    rw [roleUnder] at h
    split at h
    · rename_i hname
      exact hname ▸ List.mem_cons_self
    · exact List.mem_cons_of_mem _ (Fields.mem_names_of_roleUnder h)

/-- The value of a member is put into the same slot. -/
theorem Fields.Ignore.step {αs : List Type} {fields : Fields αs} (hfields : fields.Ignore)
    {source : Source} {pointer : Pointer} {role : Role} {m : String × Tree} {t t' : Tree}
    {name : String} (hrole : fields.roleUnder name pointer = some role)
    (hskips : role.Skips source pointer m) (hgains : Tree.Gains (some m.1, m.2) pointer t t')
    (slots : Slots αs) : fields.step source slots name t' = fields.step source slots name t := by
  obtain ⟨result, hput⟩ : ∃ result, fields.put? source name t slots = some result :=
    fields.put?_of_mem (Fields.mem_names_of_roleUnder hrole) t slots
  have hput' := hfields.put? hrole hskips hgains slots
  rw [hput] at hput'
  rw [fields.step_of_some hput, fields.step_of_some hput']

section Ignores

variable {α β : Type} {αs : List Type}

theorem Shape.map_ignores {value : Shape α} (hvalue : value.Ignores) :
    (Shape.map value).Ignores := by
  intro source pointer role m t t' hrole hskips hgains
  cases hgains with
  | here | item => cases hrole
  | @member pointer x x' before name after ending h =>
    cases name with
    | none => cases hrole
    | some name =>
      refine bind_enter_congr fun inner henter => readMembers_replace ?_ before after _
      intro s
      rw [hvalue hrole (hskips.enter henter) h]

theorem Shape.list_ignores {item : Shape α} (hitem : item.Ignores) : (Shape.list item).Ignores := by
  intro source pointer role m t t' hrole hskips hgains
  cases hgains with
  | here | member => cases hrole
  | item before after h =>
    refine bind_enter_congr fun inner henter => readItems_replace ?_ before after
    exact hitem hrole (hskips.enter henter) h

theorem Shape.either_ignores {left right : String} {leftValue : Shape α} {rightValue : Shape β}
    (hleft : leftValue.Ignores) (hright : rightValue.Ignores) :
    (Shape.either left leftValue right rightValue).Ignores := by
  intro source pointer role m t t' hrole hskips hgains
  cases hgains with
  | here | item => cases hrole
  | @member pointer x x' before name after ending h =>
    cases name with
    | none => cases hrole
    | some name =>
      refine readOption_replace ?_ before after ending
      intro inner isLeft henter hlookup
      have hrole : (if name = left then leftValue.roleAt pointer
        else if name = right then rightValue.roleAt pointer else none) = some role := hrole
      rw [lookup_cons_if] at hlookup
      split at hlookup
      · rename_i hname
        cases hlookup
        rw [if_pos hname] at hrole
        rw [if_pos rfl, if_pos rfl, hleft hrole (hskips.enter henter) h]
      · rename_i hname
        rw [if_neg hname] at hrole
        rw [lookup_cons_if] at hlookup
        split at hlookup
        · rename_i hname
          cases hlookup
          rw [if_pos hname] at hrole
          rw [if_neg (by simp), if_neg (by simp), hright hrole (hskips.enter henter) h]
        · cases hlookup

theorem Shape.refined_ignores {base : Shape α} (hbase : base.Ignores)
    (decode : α → Except Misfit β) (encode : β → α) :
    (Shape.refined base decode encode).Ignores := by
  intro source pointer role m t t' hrole hskips hgains
  rw [ofTree, ofTree, hbase hrole hskips hgains]

theorem Shape.record_ignores (name : String) {fields : Fields αs} (hfields : fields.Ignore) :
    (Shape.record name fields).Ignores := by
  intro source pointer role m t t' hrole hskips hgains
  cases hgains with
  | here before after ending =>
    cases hrole
    refine bind_enter_congr fun inner _ => ?_
    have hstep : ∀ slots, fields.step inner slots m.1 m.2 = .ok slots := fun slots =>
      fields.step_of_none ((fields.put?_eq_none slots).2 hskips.unknown) hskips.isGrammatical
    exact congrArg (· >>= fun slots => fields.fill slots)
      (readMembers_insert hstep before after fields.blank)
  | @member pointer x x' before name' after ending h =>
    cases name' with
    | none => cases hrole
    | some name' =>
      refine bind_enter_congr fun inner henter => ?_
      have hstep : ∀ slots, fields.step inner slots name' x' = fields.step inner slots name' x :=
        hfields.step hrole (hskips.enter henter) h
      exact congrArg (· >>= fun slots => fields.fill slots)
        (readMembers_replace hstep before after fields.blank)
  | @item pointer x x' before after h =>
    refine bind_enter_congr fun inner henter => ?_
    have hitems := hfields.ofItems hrole (hskips.enter henter) h name fields.names.length 0 after
    have hlength : (before ++ x' :: after).length = (before ++ x :: after).length := by
      rw [List.length_append, List.length_append, List.length_cons, List.length_cons]
    rw [hitems, hlength]

/-! ### A record with a member more -/

/-- What a record with a member more does with a member, if it keeps no more of the members that are
set aside than what the first option among them is read as. -/
def Fields.stepChosen (source : Source) (fields : Fields αs) (left right : String)
    (option : String × Tree → Except Refusal β) :
    Slots αs × Option (Except Refusal β) → String → Tree →
      Except Refusal (Slots αs × Option (Except Refusal β)) :=
  fun (slots, chosen) name t =>
    match fields.put? source name t slots with
    | some result => result.map fun slots => (slots, chosen)
    | none =>
      match t.json? source with
      | some _ =>
        .ok (slots, chosen.or
          (if name = left ∨ name = right then some (option (name, t)) else none))
      | none => .error .notJson

/-- Reading members commutes with a view of what has been read. -/
theorem readMembers_map {σ τ : Type} {f : σ → String → Tree → Except Refusal σ}
    {g : τ → String → Tree → Except Refusal τ} {view : σ → τ} {ending : Ending}
    (h : ∀ s name t, (f s name t).map view = g (view s) name t)
    (members : List (Option String × Tree)) : ∀ s,
      (readMembers f ending s members).map view = readMembers g ending (view s) members := by
  induction members with
  | nil =>
    intro s
    rw [readMembers, readMembers]
    split <;> rfl
  | cons m members ih =>
    intro s
    obtain ⟨_ | name, t⟩ := m
    · rfl
    · rw [readMembers, readMembers, ← h]
      cases f s name t with
      | error e => rfl
      | ok next => exact ih next

theorem firstNamed?_append (left right : String) (ms : List (String × Tree)) (name : String)
    (t : Tree) : firstNamed? left right (ms ++ [(name, t)]) =
      (firstNamed? left right ms).or
        (if name = left ∨ name = right then some (name, t) else none) := by
  rw [firstNamed?_eq_head?, firstNamed?_eq_head?, optionsAmong, optionsAmong, List.filter_append,
    List.head?_append]
  by_cases h : name = left ∨ name = right <;> simp [h]

/-- What counts of the members that are set aside: what the first option is read as. -/
def chosen (left right : String) (option : String × Tree → Except Refusal β)
    (s : Slots αs × List (String × Tree)) : Slots αs × Option (Except Refusal β) :=
  (s.1, (firstNamed? left right s.2).map option)

theorem Fields.stepAside_chosen {source : Source} {fields : Fields αs} {left right : String}
    {option : String × Tree → Except Refusal β} (s : Slots αs × List (String × Tree))
    (name : String) (t : Tree) :
    (fields.stepAside source s name t).map (chosen left right option) =
      fields.stepChosen source left right option (chosen left right option s) name t := by
  obtain ⟨slots, aside⟩ := s
  unfold stepAside stepChosen chosen
  dsimp only
  cases fields.put? source name t slots with
  | some result => cases result <;> rfl
  | none =>
    cases t.json? source with
    | none => rfl
    | some v =>
      have hfirst := firstNamed?_append left right aside name t
      simp only [Except.map, hfirst]
      by_cases h : name = left ∨ name = right <;> cases firstNamed? left right aside <;> simp [h]

theorem withOption_eq_map {union left right : String} {leftValue : Shape α} {rightValue : Shape β}
    {row : Row αs} {aside : List (String × Tree)} :
    withOption union left right leftValue rightValue row aside =
      match (firstNamed? left right aside).map (unionOfTree left leftValue rightValue) with
      | none => .error (.misfit (.noOption union))
      | some option => option.map fun a => (row, a) := by
  unfold withOption unionOfTree
  cases firstNamed? left right aside with
  | none => rfl
  | some m =>
    dsimp only [Option.map_some]
    split
    · cases leftValue.ofTree .setAside m.2 <;> rfl
    · cases rightValue.ofTree .setAside m.2 <;> rfl

/-- **A record with a member more**, without what it sets aside. -/
theorem Shape.recordWith_chosen {source : Source} {name union left right : String}
    {fields : Fields αs} {leftValue : Shape α} {rightValue : Shape β}
    {members : List (Option String × Tree)} {ending : Ending} :
    (Shape.recordWith name fields union left leftValue right rightValue).ofTree source
        (.object members ending) =
      (enter source >>= fun inner =>
        readMembers (fields.stepChosen inner left right (unionOfTree left leftValue rightValue))
          ending (fields.blank, none) members >>= fun found =>
        fields.fill found.1 >>= fun row =>
        match found.2 with
        | none => .error (.misfit (.noOption union))
        | some option => option.map fun a => (row, a)) := by
  refine bind_enter_congr fun inner _ => ?_
  have hchosen : (readMembers (fields.stepAside inner) ending (fields.blank, []) members).map
      (chosen left right (unionOfTree left leftValue rightValue)) =
      readMembers (fields.stepChosen inner left right (unionOfTree left leftValue rightValue))
        ending (fields.blank, none) members :=
    readMembers_map Fields.stepAside_chosen members (fields.blank, [])
  show (readMembers (fields.stepAside inner) ending (fields.blank, []) members >>= fun r =>
    fields.fill r.1 >>= fun row =>
      withOption union left right leftValue rightValue row r.2) = _
  rw [← hchosen]
  cases readMembers (fields.stepAside inner) ending (fields.blank, []) members with
  | error e => rfl
  | ok found =>
    show (fields.fill found.1 >>= fun row => withOption union left right leftValue rightValue row
      found.2) = (fields.fill found.1 >>= fun row => _)
    simp only [withOption_eq_map]
    rfl

/-- A readable member that is neither a field nor an option changes nothing. -/
theorem Fields.stepChosen_skips {source : Source} {fields : Fields αs} {left right : String}
    {option : String × Tree → Except Refusal β} {m : String × Tree}
    (hname : m.1 ∉ left :: right :: fields.names) (hread : m.2.IsReadable source)
    (s : Slots αs × Option (Except Refusal β)) :
    fields.stepChosen source left right option s m.1 m.2 = .ok s := by
  obtain ⟨slots, chosen⟩ := s
  obtain ⟨v, hv⟩ := hread
  simp only [List.mem_cons, not_or] at hname
  obtain ⟨hleft, hright, hname⟩ := hname
  unfold stepChosen
  simp only [(fields.put?_eq_none slots).2 hname, hv, hleft, hright, or_self, if_false,
    Option.or_none]

/-- Members that are put into the same slot, or are equally readable and read as the same option,
may stand for each other. -/
theorem Fields.stepChosen_replace {source : Source} {fields : Fields αs} {left right : String}
    {option : String × Tree → Except Refusal β} {name : String} {t t' : Tree}
    (hfield : name ∈ fields.names →
      ∀ slots, fields.put? source name t' slots = fields.put? source name t slots)
    (hoption : name ∉ fields.names → (t'.IsReadable source ↔ t.IsReadable source) ∧
      option (name, t') = option (name, t))
    (s : Slots αs × Option (Except Refusal β)) :
    fields.stepChosen source left right option s name t' =
      fields.stepChosen source left right option s name t := by
  obtain ⟨slots, chosen⟩ := s
  unfold stepChosen
  dsimp only
  by_cases hname : name ∈ fields.names
  · obtain ⟨result, hput⟩ : ∃ result, fields.put? source name t slots = some result :=
      fields.put?_of_mem hname t slots
    rw [hfield hname slots, hput]
  · obtain ⟨hread, hoption⟩ := hoption hname
    rw [(fields.put?_eq_none slots).2 hname, (fields.put?_eq_none slots).2 hname, hoption]
    cases hx : t.json? source with
    | some v =>
      obtain ⟨v', hx'⟩ := hread.2 ⟨v, hx⟩
      rw [hx']
    | none =>
      cases hx' : t'.json? source with
      | none => rfl
      | some v' =>
        obtain ⟨v, hv⟩ := hread.1 ⟨v', hx'⟩
        rw [hx] at hv
        cases hv

/-- An option beside the fields is read alike from what is set aside. -/
theorem unionOfTree_replace {left right : String} {leftValue : Shape α} {rightValue : Shape β}
    (hleft : leftValue.Ignores) (hright : rightValue.Ignores) {name : String} {source : Source}
    {pointer : Pointer} {role : Role} {m : String × Tree} {t t' : Tree}
    (hrole : (if name = left then (leftValue.roleAt pointer).map Role.aside
      else if name = right then (rightValue.roleAt pointer).map Role.aside else none) = some role)
    (hskips : role.Skips source pointer m) (hgains : Tree.Gains (some m.1, m.2) pointer t t') :
    (t'.IsReadable source ↔ t.IsReadable source) ∧
      unionOfTree left leftValue rightValue (name, t') =
        unionOfTree left leftValue rightValue (name, t) := by
  have hread : role.isAside = true → (t'.IsReadable source ↔ t.IsReadable source) := by
    intro haside
    obtain ⟨inner, hinner, hu⟩ := hskips.readable haside
    exact hgains.isReadable_iff hinner hu
  unfold unionOfTree
  dsimp only
  split at hrole
  · rename_i hname
    obtain ⟨k, hk, rfl⟩ := Option.map_eq_some_iff.1 hrole
    rw [if_pos hname, if_pos hname, hleft hk hskips.setAside hgains]
    exact ⟨hread rfl, rfl⟩
  · rename_i hname
    split at hrole
    · obtain ⟨k, hk, rfl⟩ := Option.map_eq_some_iff.1 hrole
      rw [if_neg hname, if_neg hname, hright hk hskips.setAside hgains]
      exact ⟨hread rfl, rfl⟩
    · cases hrole

theorem Shape.recordWith_ignores (name : String) {fields : Fields αs} (union : String)
    {left right : String} {leftValue : Shape α} {rightValue : Shape β} (hfields : fields.Ignore)
    (hleft : leftValue.Ignores) (hright : rightValue.Ignores) :
    (Shape.recordWith name fields union left leftValue right rightValue).Ignores := by
  intro source pointer role m t t' hrole hskips hgains
  cases hgains with
  | here before after ending =>
    cases hrole
    rw [recordWith_chosen, recordWith_chosen]
    refine bind_enter_congr fun inner henter => ?_
    obtain ⟨next, hnext, hread⟩ := hskips.readable rfl
    obtain ⟨_, hsource, ⟨⟩⟩ := Option.bind_eq_some_iff.1 hnext
    obtain rfl : inner = next := Option.some.inj (henter.symm.trans hsource)
    refine congrArg (· >>= _) (readMembers_insert ?_ before after _)
    exact Fields.stepChosen_skips hskips.unknown hread
  | @member pointer x x' before name' after ending h =>
    cases name' with
    | none => cases hrole
    | some name' =>
      rw [recordWith_chosen, recordWith_chosen]
      refine bind_enter_congr fun inner henter => ?_
      refine congrArg (· >>= _) (readMembers_replace ?_ before after _)
      intro s
      have hskips := hskips.enter henter
      refine Fields.stepChosen_replace (fun hname => ?_) (fun hname => ?_) s
      · exact hfields.put? ((if_pos hname).symm.trans hrole) hskips h
      · exact unionOfTree_replace hleft hright ((if_neg hname).symm.trans hrole) hskips h
  | item => cases hrole

/-! ### Fields -/

theorem Field.optional_ignores (name : String) {shape : Shape α} (hshape : shape.Ignores) :
    (Field.optional name shape).Ignores := by
  intro source pointer role m t t' hrole hskips hgains
  obtain ⟨ht, ht'⟩ := hgains.ne_null
  rw [Field.optional_ofTree ht, Field.optional_ofTree ht', hshape hrole hskips hgains]

theorem Fields.nil_ignore : Fields.nil.Ignore := ⟨nofun, nofun⟩

theorem Fields.cons_ignore {field : Field α} {rest : Fields αs} (hfield : field.Ignores)
    (hrest : rest.Ignore) : (Fields.cons field rest).Ignore := by
  constructor
  · rintro source pointer role m t t' name hrole hskips hgains ⟨slot, slots⟩
    have hrole : (if name = field.name then field.roleAt pointer
      else rest.roleUnder name pointer) = some role := hrole
    rw [put?_cons, put?_cons]
    split at hrole
    · rename_i hname
      rw [if_pos hname, if_pos hname, hfield hrole hskips hgains]
    · rename_i hname
      rw [if_neg hname, if_neg hname, hrest.put? hrole hskips hgains slots]
  · intro source pointer role m t t' before hrole hskips hgains record count index after
    cases before with
    | nil =>
      have hfield : field.ofTree source t' = field.ofTree source t :=
        hfield hrole hskips hgains
      rw [List.nil_append, List.nil_append, ofItems, ofItems, hfield]
    | cons x before =>
      have hrest : ∀ index, rest.ofItems source record count index (before ++ t' :: after) =
          rest.ofItems source record count index (before ++ t :: after) :=
        fun index => hrest.ofItems hrole hskips hgains record count index after
      rw [List.cons_append, List.cons_append, ofItems, ofItems, hrest]

end Ignores

mutual

/-- **A member more that a record does not know changes nothing**, wherever in a value of the shape
the record stands. -/
theorem Shape.ignores : ∀ {α : Type} (shape : Shape α), shape.Ignores
  | _, .any => nofun
  | _, .text => nofun
  | _, .object => nofun
  | _, .map value => Shape.map_ignores value.ignores
  | _, .list item => Shape.list_ignores item.ignores
  | _, .choice _ _ => nofun
  | _, .either _ leftValue _ rightValue => Shape.either_ignores leftValue.ignores rightValue.ignores
  | _, .record name fields => Shape.record_ignores name fields.ignore
  | _, .recordWith name fields union _ leftValue _ rightValue =>
    Shape.recordWith_ignores name union fields.ignore leftValue.ignores rightValue.ignores
  | _, .refined base decode encode => Shape.refined_ignores base.ignores decode encode
termination_by structural _ shape => shape

theorem Field.ignores : ∀ {α : Type} (field : Field α), field.Ignores
  | _, .required _ shape => shape.ignores
  | _, .defaulted _ shape _ => shape.ignores
  | _, .trimmed _ shape _ _ => shape.ignores
  | _, .optional name shape => Field.optional_ignores name shape.ignores
termination_by structural _ field => field

theorem Fields.ignore : ∀ {αs : List Type} (fields : Fields αs), fields.Ignore
  | _, .nil => Fields.nil_ignore
  | _, .cons field rest => Fields.cons_ignore field.ignores rest.ignore
termination_by structural _ fields => fields

end

/-- **A text is read alike with a member more that a record skips.** -/
theorem Shape.ofText_gains {α : Type} (shape : Shape α) {s s' : String} {pointer : Pointer}
    {role : Role} {m : String × Tree} (hwhole : (Outline.ofText s).isWhole = true)
    (hgains : TextGains (some m.1, m.2) pointer s s') (hrole : shape.roleAt pointer = some role)
    (hskips : role.Skips .document pointer m) : shape.ofText s' = shape.ofText s := by
  obtain ⟨t, houtline⟩ : ∃ t, Outline.ofText s = ⟨t, true⟩ :=
    ⟨(Outline.ofText s).root, by rw [← hwhole]⟩
  obtain ⟨t', houtline', htree⟩ := hgains.outline houtline
  unfold ofText
  rw [houtline, houtline']
  dsimp only
  rw [shape.ignores hrole hskips htree]

end CompositionFunction.Schema
