import CompositionFunction.Proofs.Json.Members
import CompositionFunction.Proofs.Outcome
import CompositionFunction.Schema.Read

/-!
# Reading maps, lists and options

What a successful reading of a container says of its parts, and the other way round. Of a map whose
names are distinct each entry comes from the member of its name.

* `Shape.map_object`, `Shape.list_array`, `Shape.object_eq_ok` : containers of one shape.
* `readOption_eq_ok`, `readOption_single` : options by their name or with their value.
-/

set_option autoImplicit false

namespace CompositionFunction.Schema

open Json

variable {α β : Type} {source : Source}

/-! ## Going through members -/

theorem enter_eq_ok {inner : Source} : enter source = .ok inner ↔ source.enter? = some inner := by
  unfold enter
  cases source.enter? <;> simp

theorem readMembers_nil {σ : Type} {f : σ → String → Tree → Except Refusal σ} {ending : Ending}
    {s s' : σ} : readMembers f ending s (named []) = .ok s' ↔ ending = .closed ∧ s' = s := by
  unfold named readMembers
  by_cases h : ending = .closed <;> simp [h, eq_comm]

theorem readMembers_cons {σ : Type} (f : σ → String → Tree → Except Refusal σ) (ending : Ending)
    (s : σ) (name : String) (t : Tree) (ms : List (String × Tree)) :
    readMembers f ending s (named ((name, t) :: ms)) =
      (f s name t >>= fun next => readMembers f ending next (named ms)) := by
  unfold named
  rw [List.map_cons, readMembers]
  cases f s name t <;> rfl

/-- Members that are read have names and are closed. -/
theorem named_of_readMembers {σ : Type} {f : σ → String → Tree → Except Refusal σ}
    {ending : Ending} {members : List (Option String × Tree)} : ∀ {s s' : σ},
      readMembers f ending s members = .ok s' → ∃ ms, members = named ms ∧ ending = .closed := by
  induction members with
  | nil =>
    intro s s' h
    obtain ⟨hclosed, _⟩ := readMembers_nil.1 h
    exact ⟨[], rfl, hclosed⟩
  | cons member members ih =>
    intro s s' h
    obtain ⟨name?, t⟩ := member
    cases name? with
    | none => cases h
    | some name =>
      unfold readMembers at h
      split at h
      · cases h
      obtain ⟨ms, rfl, hclosed⟩ := ih h
      exact ⟨(name, t) :: ms, rfl, hclosed⟩

/-- **What every member preserves, all of them preserve.** -/
theorem readMembers_invariant {σ : Type} {f : σ → String → Tree → Except Refusal σ}
    {ending : Ending} (P : σ → Prop) {ms : List (String × Tree)} : ∀ {s s' : σ},
      (∀ m ∈ ms, ∀ s next, f s m.1 m.2 = .ok next → P s → P next) →
        readMembers f ending s (named ms) = .ok s' → P s → P s' := by
  induction ms with
  | nil =>
    intro s s' _ h hs
    obtain ⟨_, rfl⟩ := readMembers_nil.1 h
    exact hs
  | cons m ms ih =>
    intro s s' hstep h hs
    rw [readMembers_cons] at h
    obtain ⟨next, hnext, hrest⟩ := bind_eq_ok.1 h
    have hheld : P next := hstep m List.mem_cons_self s next hnext hs
    exact ih (fun x hx => hstep x (List.mem_cons_of_mem _ hx)) hrest hheld

/-! ## Maps -/

/-- Adds a member to a map. -/
def insertRead (f : Tree → Except Refusal α) (before : StringMap α) (name : String) (t : Tree) :
    Except Refusal (StringMap α) :=
  match f t with
  | .ok a => .ok (before.insert name a)
  | .error e => .error e

theorem insertRead_eq_ok {f : Tree → Except Refusal α} {before after : StringMap α}
    {name : String} {t : Tree} :
    insertRead f before name t = .ok after ↔ ∃ a, f t = .ok a ∧ after = before.insert name a := by
  unfold insertRead
  cases f t <;> simp [eq_comm]

/-- With distinct names, each entry is what the member of its name is read as. -/
theorem readMembers_insertRead {f : Tree → Except Refusal α} {m : StringMap α}
    {ms : List (String × Tree)} : ∀ {before : StringMap α}, (ms.map Prod.fst).Nodup →
      (readMembers (insertRead f) .closed before (named ms) = .ok m ↔
        ∀ k, match ms.lookup k with
          | none => m.find? k = before.find? k
          | some t => ∃ a, f t = .ok a ∧ m.find? k = some a) := by
  induction ms with
  | nil =>
    intro before _
    rw [readMembers_nil]
    constructor
    · rintro ⟨_, rfl⟩ k
      exact rfl
    · intro h
      exact ⟨rfl, StringMap.ext h⟩
  | cons member ms ih =>
    intro before hdistinct
    obtain ⟨name, t⟩ := member
    rw [List.map_cons, List.nodup_cons] at hdistinct
    have hname : ms.lookup name = none := lookup_eq_none.2 hdistinct.1
    rw [readMembers_cons, bind_eq_ok]
    constructor
    · rintro ⟨next, hnext, hread⟩ k
      obtain ⟨a, ha, rfl⟩ := insertRead_eq_ok.1 hnext
      have hrest := (ih hdistinct.2).1 hread k
      rw [lookup_cons_if]
      by_cases hk : k = name
      · subst hk
        rw [hname] at hrest
        rw [if_pos rfl]
        exact ⟨a, ha, by rw [hrest, StringMap.find?_insert, if_pos rfl]⟩
      · rw [StringMap.find?_insert, if_neg hk] at hrest
        rw [if_neg hk]
        exact hrest
    · intro h
      have hhead := h name
      rw [lookup_cons_if, if_pos rfl] at hhead
      obtain ⟨a, ha, hfind⟩ := hhead
      refine ⟨before.insert name a, insertRead_eq_ok.2 ⟨a, ha, rfl⟩, ?_⟩
      apply (ih hdistinct.2).2
      intro k
      have hk := h k
      rw [lookup_cons_if] at hk
      by_cases hkey : k = name
      · subst hkey
        rw [hname, StringMap.find?_insert, if_pos rfl]
        exact hfind
      · rw [if_neg hkey] at hk
        rw [StringMap.find?_insert, if_neg hkey]
        exact hk

/-- **An object is read as the map that its members give**, whatever their order. -/
theorem Shape.map_object {value : Shape α} {ms : List (String × Tree)}
    (hdistinct : (ms.map Prod.fst).Nodup) (m : StringMap α) :
    (Shape.map value).ofTree source (.object (named ms) .closed) = .ok m ↔
      ∃ inner, source.enter? = some inner ∧
        ∀ k, match ms.lookup k with
          | none => m.find? k = none
          | some t => ∃ a, value.ofTree inner t = .ok a ∧ m.find? k = some a := by
  show (enter source >>= fun inner =>
    readMembers (insertRead (value.ofTree inner)) .closed StringMap.empty (named ms)) = .ok m ↔ _
  simp only [bind_eq_ok, enter_eq_ok, readMembers_insertRead hdistinct, StringMap.find?_empty]

theorem Shape.map_ok {value : Shape α} {t : Tree} {m : StringMap α}
    (h : (Shape.map value).ofTree source t = .ok m) :
    ∃ inner ms ending, t = .object (named ms) ending ∧ source.enter? = some inner ∧
      readMembers (insertRead (value.ofTree inner)) ending StringMap.empty (named ms) = .ok m := by
  cases t with
  | object members ending =>
    obtain ⟨inner, henter, hread⟩ := bind_eq_ok.1 h
    obtain ⟨ms, rfl, _⟩ := named_of_readMembers hread
    exact ⟨inner, ms, ending, rfl, enter_eq_ok.1 henter, hread⟩
  | _ => cases h

/-! ## Ordinary values -/

theorem Shape.any_eq_ok {t : Tree} {v : Json} :
    Shape.any.ofTree source t = .ok v ↔ t.json? source = some v := by
  rw [Shape.ofTree]
  cases t.json? source <;> simp

theorem Shape.text_eq_ok {t : Tree} {s : String} :
    Shape.text.ofTree source t = .ok s ↔ t = .text (some s) := by
  cases t with
  | text x =>
    cases x with
    | none => exact ⟨nofun, nofun⟩
    | some x => exact ⟨fun h => by rw [Except.ok.inj h], fun h => by cases h; rfl⟩
  | number n => cases n <;> exact ⟨nofun, nofun⟩
  | _ => exact ⟨nofun, nofun⟩

theorem readMembers_json {inner : Source} {ending : Ending} {entries : JsonObject}
    {members : List (Option String × Tree)} : ∀ {before : JsonObject},
      readMembers (fun before name t =>
        match t.json? inner with
        | some v => .ok (before.insert name v)
        | none => .error .notJson) ending before members = .ok entries ↔
      Tree.jsonMembers? inner before members = some entries ∧ ending = .closed := by
  induction members with
  | nil =>
    intro before
    unfold readMembers Tree.jsonMembers?
    by_cases h : ending = .closed <;> simp [h]
  | cons member members ih =>
    intro before
    obtain ⟨name?, t⟩ := member
    cases name? with
    | none => simp [readMembers, Tree.jsonMembers?]
    | some name =>
      rw [readMembers, Tree.jsonMembers?]
      cases t.json? inner with
      | none => simp
      | some v => exact ih

/-- An object of any content is read as an ordinary value. -/
theorem Shape.object_eq_ok {t : Tree} {entries : JsonObject} :
    Shape.object.ofTree source t = .ok entries ↔ t.json? source = some (.object entries) := by
  cases t with
  | object members ending =>
    show (enter source >>= fun inner => readMembers _ ending StringMap.empty members) =
      .ok entries ↔ _
    simp only [bind_eq_ok, enter_eq_ok]
    rw [Tree.json?]
    cases source.enter? with
    | none => simp
    | some inner =>
      simp only [Option.some.injEq, exists_eq_left']
      refine readMembers_json.trans ?_
      cases Tree.jsonMembers? inner .empty members with
      | none => simp
      | some found => by_cases h : ending = .closed <;> simp [h]
  | array ts =>
    constructor <;> intro h
    · cases h
    · obtain ⟨_, _, _, _, h⟩ := Tree.json?_array h
      cases h
  | number n =>
    constructor <;> intro h
    · cases h
    · obtain ⟨_, _, h⟩ := Option.map_eq_some_iff.1 h
      cases h
  | text s =>
    constructor <;> intro h
    · cases h
    · obtain ⟨_, _, h⟩ := Option.map_eq_some_iff.1 h
      cases h
  | null | bool _ | broken => constructor <;> intro h <;> cases h

/-! ## Lists -/

theorem readItems_nil {f : Tree → Except Refusal α} {as : List α} :
    readItems f [] = .ok as ↔ as = [] := by
  unfold readItems
  simp [eq_comm]

theorem readItems_cons {f : Tree → Except Refusal α} {t : Tree} {ts : List Tree} {as : List α} :
    readItems f (t :: ts) = .ok as ↔
      ∃ a rest, f t = .ok a ∧ readItems f ts = .ok rest ∧ as = a :: rest := by
  rw [readItems]
  cases f t with
  | error e => simp
  | ok a => cases readItems f ts <;> simp [eq_comm]

theorem Shape.list_array {item : Shape α} {ts : List Tree} {as : List α} :
    (Shape.list item).ofTree source (.array ts) = .ok as ↔
      ∃ inner, source.enter? = some inner ∧ readItems (item.ofTree inner) ts = .ok as := by
  show (enter source >>= fun inner => readItems (item.ofTree inner) ts) = .ok as ↔ _
  simp only [bind_eq_ok, enter_eq_ok]

theorem Shape.list_ok {item : Shape α} {t : Tree} {as : List α}
    (h : (Shape.list item).ofTree source t = .ok as) : ∃ ts, t = .array ts := by
  cases t with
  | array ts => exact ⟨ts, rfl⟩
  | _ => cases h

/-! ## Refinements -/

theorem Shape.refined_eq_ok {base : Shape α} {decode : α → Except Misfit β} {encode : β → α}
    {t : Tree} {b : β} :
    (Shape.refined base decode encode).ofTree source t = .ok b ↔
      ∃ a, base.ofTree source t = .ok a ∧ decode a = .ok b := by
  rw [Shape.ofTree]
  cases base.ofTree source t <;> simp [mapError_eq_ok]

/-! ## Options -/

section Option

variable {known : List (String × β)} {bare : β → Except Refusal α}
  {valued : β → Source → Tree → Except Refusal α} {a : α}

/-- The option of a name. -/
def findOption (known : List (String × β)) (name : String) : Except Refusal β :=
  match known.lookup name with
  | some b => .ok b
  | none => .error (.misfit (.unknownOption name (known.map Prod.fst)))

theorem findOption_eq_ok {name : String} {b : β} :
    findOption known name = .ok b ↔ known.lookup name = some b := by
  unfold findOption
  cases known.lookup name <;> simp

theorem readOption_text {name : String} :
    readOption source known bare valued (.text (some name)) = .ok a ↔
      ∃ b, known.lookup name = some b ∧ bare b = .ok a := by
  show (findOption known name >>= bare) = .ok a ↔ _
  simp only [bind_eq_ok, findOption_eq_ok]

theorem readOption_single {inner : Source} (henter : source.enter? = some inner) {name : String}
    {t : Tree} :
    readOption source known bare valued (.object [(some name, t)] .closed) = .ok a ↔
      ∃ b, known.lookup name = some b ∧ valued b inner t = .ok a := by
  have hvalued : (findOption known name >>= fun b => valued b inner t) = .ok a ↔
      ∃ b, known.lookup name = some b ∧ valued b inner t = .ok a := by
    simp only [bind_eq_ok, findOption_eq_ok]
  rw [← hvalued]
  unfold readOption
  simp only [enter_eq_ok.2 henter]
  cases source with
  | text levels =>
    show (findOption known name >>= fun b => valued b inner t >>= fun a =>
      if (([] : List (Option String × Tree)).isEmpty && decide (Ending.closed = .closed)) = true
      then .ok a else .error .notJson) = .ok a ↔ _
    simp [bind_eq_ok]
  | value => rfl
  | setAside => rfl

/-- An option is given by its name alone, or by an object of one member with its name. -/
theorem readOption_eq_ok {t : Tree} (h : readOption source known bare valued t = .ok a) :
    (∃ name b, t = .text (some name) ∧ known.lookup name = some b ∧ bare b = .ok a) ∨
      ∃ inner name value ending b, t = .object [(some name, value)] ending ∧
        source.enter? = some inner ∧ known.lookup name = some b ∧ valued b inner value = .ok a := by
  unfold readOption at h
  dsimp only at h
  split at h
  · rename_i name
    obtain ⟨b, hb, hbare⟩ := bind_eq_ok.1 h
    exact Or.inl ⟨name, b, rfl, findOption_eq_ok.1 hb, hbare⟩
  · obtain ⟨inner, henter, h⟩ := bind_eq_ok.1 h
    split at h
    · cases h
    · cases h
    · cases h
    · rename_i name value rest _
      obtain ⟨b, hb, h⟩ := bind_eq_ok.1 h
      obtain ⟨a', hvalued, h⟩ := bind_eq_ok.1 h
      split at h
      · rename_i hend
        cases h
        rw [Bool.and_eq_true, List.isEmpty_iff] at hend
        obtain ⟨rfl, _⟩ := hend
        exact Or.inr ⟨inner, name, value, _, b, rfl, enter_eq_ok.1 henter,
          findOption_eq_ok.1 hb, hvalued⟩
      · cases h
    · rename_i name value _ _
      obtain ⟨b, hb, hvalued⟩ := bind_eq_ok.1 h
      exact Or.inr ⟨inner, name, value, _, b, rfl, enter_eq_ok.1 henter,
        findOption_eq_ok.1 hb, hvalued⟩
    · cases h
  · split at h <;> cases h

/-- The tree has the form of an option. -/
def isOption : Tree → Bool
  | .text (some _) => true
  | .object [(some _, _)] _ => true
  | _ => false

theorem readOption_ne_ok {t : Tree} (ht : isOption t = false) :
    readOption source known bare valued t ≠ .ok a := by
  intro h
  rcases readOption_eq_ok h with ⟨_, _, rfl, _⟩ | ⟨_, _, _, _, _, rfl, _⟩
  · cases ht
  · cases ht

/-- A value that may be null is read as one of its shape unless it is null. -/
theorem Field.optional_ofTree {name : String} {shape : Shape α} {t : Tree} (h : t ≠ .null) :
    (Field.optional name shape).ofTree source t = (shape.ofTree source t).map some := by
  cases t with
  | null => exact absurd rfl h
  | _ => rfl

end Option

/-! ## Texts -/

/-- A text is read as a value of a shape if its outline is, and nothing is left over. -/
theorem Shape.ofText_eq_ok {shape : Shape α} {s : String} {a : α} :
    shape.ofText s = .ok a ↔
      shape.ofTree .document (Outline.ofText s).root = .ok a ∧
        (Outline.ofText s).isWhole = true := by
  unfold Shape.ofText
  dsimp only
  cases shape.ofTree .document (Outline.ofText s).root with
  | error e => simp
  | ok b => cases (Outline.ofText s).isWhole <;> simp

end CompositionFunction.Schema
