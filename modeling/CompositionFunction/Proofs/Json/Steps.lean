import CompositionFunction.Json.Tree

/-!
# The steps of the reader

The reader of tokens keeps what is due and the containers around the place. What one token can do
there is one of a few steps, and a text is whole exactly if the steps lead to the end of a value
outside of all containers.

* `Progress.advance?_eq_some` : the steps of the reader, one by one.
* `Outline.ofTokens_eq_whole` : a whole outline as a run of the reader.
* `Progress.run?_simulation` : readers that stay related at every step stay related over every run.
* `Progress.run?_within` : a run within some containers is a run within more of them.
* `Outline.isGrammatical_of_whole` : a whole text follows the grammar.
-/

set_option autoImplicit false

namespace CompositionFunction.Json

/-! ## One step -/

/-- The tree of a token that is a value. -/
def Token.leaf? : Token → Option Tree
  | .null => some .null
  | .bool b => some (.bool b)
  | .number n => some (.number n)
  | .text s => some (.text s)
  | _ => none

/-- What one token can do: what is due before it, and what is due after it. -/
inductive Advance : Progress → Token → Progress → Prop where
  | leaf {due : Due} {token : Token} {t : Tree} (hdue : due = .value ∨ due = .firstItem)
      (h : token.leaf? = some t) (frames : List Frame) :
    Advance ⟨due, frames⟩ token ⟨.next t, frames⟩
  | openArray {due : Due} (hdue : due = .value ∨ due = .firstItem) (frames : List Frame) :
    Advance ⟨due, frames⟩ .openArray ⟨.firstItem, .array [] :: frames⟩
  | openObject {due : Due} (hdue : due = .value ∨ due = .firstItem) (frames : List Frame) :
    Advance ⟨due, frames⟩ .openObject ⟨.name [], frames⟩
  | emptyArray (frames : List Frame) :
    Advance ⟨.firstItem, .array [] :: frames⟩ .closeArray ⟨.next (.array []), frames⟩
  | item (t : Tree) (before : List Tree) (frames : List Frame) :
    Advance ⟨.next t, .array before :: frames⟩ .comma ⟨.value, .array (t :: before) :: frames⟩
  | array (t : Tree) (before : List Tree) (frames : List Frame) :
    Advance ⟨.next t, .array before :: frames⟩ .closeArray
      ⟨.next (.array (t :: before).reverse), frames⟩
  | emptyObject (frames : List Frame) :
    Advance ⟨.name [], frames⟩ .closeObject ⟨.next (.object [] .closed), frames⟩
  | name (before : List (Option String × Tree)) (name : Option String) (frames : List Frame) :
    Advance ⟨.name before, frames⟩ (.text name) ⟨.colon before name, frames⟩
  | colon (before : List (Option String × Tree)) (name : Option String) (frames : List Frame) :
    Advance ⟨.colon before name, frames⟩ .colon ⟨.value, .object before name :: frames⟩
  | member (t : Tree) (before : List (Option String × Tree)) (name : Option String)
      (frames : List Frame) :
    Advance ⟨.next t, .object before name :: frames⟩ .comma ⟨.name ((name, t) :: before), frames⟩
  | object (t : Tree) (before : List (Option String × Tree)) (name : Option String)
      (frames : List Frame) :
    Advance ⟨.next t, .object before name :: frames⟩ .closeObject
      ⟨.next (.object ((name, t) :: before).reverse .closed), frames⟩

namespace Progress

variable {p q next : Progress} {token : Token}

theorem advance?_due {due : Due} (hdue : due = .value ∨ due = .firstItem) (frames : List Frame)
    (h : token ≠ .closeArray) : advance? ⟨due, frames⟩ token = value? frames token := by
  rcases hdue with rfl | rfl
  · rfl
  · unfold advance?
    split <;> first | rfl | contradiction

theorem advance_of_value? {due : Due} (hdue : due = .value ∨ due = .firstItem)
    {frames : List Frame} (h : value? frames token = some next) :
    Advance ⟨due, frames⟩ token next := by
  unfold value? at h
  split at h <;> cases h
  case h_5 => exact .openArray hdue frames
  case h_6 => exact .openObject hdue frames
  all_goals exact .leaf hdue rfl frames

theorem advance_of_after? {t : Tree} {frames : List Frame} (h : after? t frames token = some next) :
    Advance ⟨.next t, frames⟩ token next := by
  unfold after? at h
  split at h <;> cases h
  · exact .item t _ _
  · exact .array t _ _
  · exact .member t _ _ _
  · exact .object t _ _ _

/-- **The steps of the reader**, one by one. -/
theorem advance?_eq_some : p.advance? token = some next ↔ Advance p token next := by
  constructor
  · obtain ⟨due, frames⟩ := p
    intro h
    unfold advance? at h
    split at h
    case h_1 hdue =>
      obtain rfl : due = .value := hdue
      exact advance_of_value? (Or.inl rfl) h
    case h_2 hdue hframes =>
      obtain rfl : due = .firstItem := hdue
      obtain rfl : frames = _ := hframes
      cases h
      exact .emptyArray _
    case h_3 hdue _ =>
      obtain rfl : due = .firstItem := hdue
      exact advance_of_value? (Or.inr rfl) h
    case h_4 hdue =>
      obtain rfl : due = _ := hdue
      cases h
      exact .name _ _ _
    case h_5 hdue =>
      obtain rfl : due = _ := hdue
      cases h
      exact .emptyObject _
    case h_6 => cases h
    case h_7 hdue =>
      obtain rfl : due = _ := hdue
      cases h
      exact .colon _ _ _
    case h_8 => cases h
    case h_9 hdue =>
      obtain rfl : due = _ := hdue
      exact advance_of_after? h
    case h_10 => cases h
  · intro h
    cases h with
    | leaf hdue h frames =>
      cases token <;> cases h <;> exact advance?_due hdue frames nofun
    | openArray hdue frames => exact advance?_due hdue frames nofun
    | openObject hdue frames => exact advance?_due hdue frames nofun
    | _ => rfl

/-! ## Runs -/

/-- The progress that some tokens make, if the grammar allows them all. -/
def run? (p : Progress) (tokens : List Token) : Option Progress :=
  tokens.foldlM Progress.advance? p

theorem run?_nil : p.run? [] = some p := rfl

theorem run?_cons {tokens : List Token} :
    p.run? (token :: tokens) = some q ↔
      ∃ next, Advance p token next ∧ next.run? tokens = some q := by
  rw [run?, List.foldlM_cons]
  simp only [← advance?_eq_some]
  exact Option.bind_eq_some_iff

theorem run?_append {tokens more : List Token} :
    p.run? (tokens ++ more) = some q ↔
      ∃ next, p.run? tokens = some next ∧ next.run? more = some q := by
  rw [run?, List.foldlM_append]
  exact Option.bind_eq_some_iff

/-- Readers that stay related at every step stay related over every run. -/
theorem run?_simulation {R : Progress → Progress → Prop}
    (hstep : ∀ {p p' next : Progress} {token : Token}, R p p' → Advance p token next →
      ∃ next', Advance p' token next' ∧ R next next') {tokens : List Token} :
    ∀ {p p' q : Progress}, R p p' → p.run? tokens = some q →
      ∃ q', p'.run? tokens = some q' ∧ R q q' := by
  induction tokens with
  | nil =>
    intro p p' q h hrun
    cases hrun
    exact ⟨p', rfl, h⟩
  | cons token tokens ih =>
    intro p p' q h hrun
    obtain ⟨next, hnext, hrun⟩ := run?_cons.1 hrun
    obtain ⟨next', hnext', h⟩ := hstep h hnext
    obtain ⟨q', hrun', h⟩ := ih h hrun
    exact ⟨q', run?_cons.2 ⟨next', hnext', hrun'⟩, h⟩

/-! ## Whole outlines -/

/-- The outline is settled, because the grammar was broken. -/
def isSettled (p : Progress) : Bool :=
  match p.due with
  | .nothing _ => true
  | _ => false

theorem isSettled_of_advance (h : Advance p token next) : next.isSettled = false := by
  cases h <;> rfl

theorem cutOff_isWhole (h : p.isSettled = false) (at? : Option Token) :
    (p.cutOff at?).isWhole = false := by
  unfold cutOff
  split
  case h_8 hdue => rw [isSettled, hdue] at h; cases h
  all_goals rfl

theorem finish_settled (outline : Outline) (tokens : List Token) : ∀ frames : List Frame,
    (tokens.foldl step ⟨.nothing outline, frames⟩).finish = outline := by
  induction tokens with
  | nil => intro frames; rfl
  | cons token tokens ih => intro frames; exact ih []

theorem finish_eq_whole {t : Tree} (h : p.isSettled = false) :
    p.finish = ⟨t, true⟩ ↔ p = ⟨.next t, []⟩ := by
  constructor
  · intro hfinish
    unfold finish at hfinish
    split at hfinish
    · rename_i hdue hframes
      cases hfinish
      rw [← hdue, ← hframes]
    · have hcut := cutOff_isWhole h none
      rw [hfinish] at hcut
      cases hcut
  · rintro rfl
    rfl

/-- **An outline is whole** exactly if the tokens lead to the end of a value outside of all
containers. -/
theorem finish_foldl_eq_whole {t : Tree} (tokens : List Token) : ∀ {p : Progress},
    p.isSettled = false →
      ((tokens.foldl step p).finish = ⟨t, true⟩ ↔ p.run? tokens = some ⟨.next t, []⟩) := by
  induction tokens with
  | nil =>
    intro p hp
    rw [List.foldl_nil, run?_nil, Option.some.injEq, finish_eq_whole hp]
  | cons token tokens ih =>
    intro p hp
    rw [List.foldl_cons, step]
    cases hadvance : p.advance? token with
    | none =>
      have hfinish : (tokens.foldl step (expect (.nothing (p.cutOff (some token))) [])).finish =
          p.cutOff (some token) := finish_settled _ tokens []
      refine iff_of_false (fun h => ?_) (fun h => ?_)
      · have hcut := cutOff_isWhole hp (some token)
        rw [← hfinish, h] at hcut
        cases hcut
      · obtain ⟨next, hnext, _⟩ := run?_cons.1 h
        rw [advance?_eq_some.2 hnext] at hadvance
        cases hadvance
    | some next =>
      have hnext := advance?_eq_some.1 hadvance
      refine (ih (isSettled_of_advance hnext)).trans ?_
      rw [run?_cons]
      constructor
      · exact fun h => ⟨next, hnext, h⟩
      · rintro ⟨other, hother, h⟩
        rw [← advance?_eq_some, hadvance, Option.some.injEq] at hother
        exact hother ▸ h

end Progress

open Progress

theorem Outline.ofTokens_eq_whole {tokens : List Token} {t : Tree} :
    ofTokens tokens = ⟨t, true⟩ ↔ run? ⟨.value, []⟩ tokens = some ⟨.next t, []⟩ :=
  finish_foldl_eq_whole tokens rfl

/-- What the grammar allows is not broken. -/
theorem broken_not_mem_of_run? {tokens : List Token} : ∀ {p q : Progress},
    p.run? tokens = some q → .broken ∉ tokens := by
  induction tokens with
  | nil => intro p q _ hmem; cases hmem
  | cons token tokens ih =>
    intro p q h hmem
    obtain ⟨next, hnext, hrun⟩ := run?_cons.1 h
    rcases List.mem_cons.1 hmem with rfl | hmem
    · cases hnext with
      | leaf _ h _ => cases h
    · exact ih hrun hmem

/-! ## Within other containers -/

/-- The progress within more containers. -/
def Progress.within (p : Progress) (outer : List Frame) : Progress := ⟨p.due, p.frames ++ outer⟩

/-- What the reader does within some containers, it does within more of them. -/
theorem Advance.within {p next : Progress} {token : Token} (h : Advance p token next)
    (outer : List Frame) : Advance (p.within outer) token (next.within outer) := by
  cases h with
  | leaf hdue h frames => exact .leaf hdue h _
  | openArray hdue frames => exact .openArray hdue _
  | openObject hdue frames => exact .openObject hdue _
  | emptyArray frames => exact .emptyArray _
  | item t before frames => exact .item t before _
  | array t before frames => exact .array t before _
  | emptyObject frames => exact .emptyObject _
  | name before name frames => exact .name before name _
  | colon before name frames => exact .colon before name _
  | member t before name frames => exact .member t before name _
  | object t before name frames => exact .object t before name _

theorem Progress.run?_within {tokens : List Token} (outer : List Frame) {p q : Progress}
    (h : p.run? tokens = some q) : (p.within outer).run? tokens = some (q.within outer) := by
  obtain ⟨_, hrun, rfl⟩ := run?_simulation (R := fun p p' => p' = p.within outer)
    (fun h hnext => ⟨_, h ▸ hnext.within outer, rfl⟩) rfl h
  exact hrun

/-- The tokens of a whole value lead to its end within any containers. -/
theorem Progress.run?_value {tokens : List Token} {t : Tree}
    (h : Outline.ofTokens tokens = ⟨t, true⟩) (frames : List Frame) :
    run? ⟨.value, frames⟩ tokens = some ⟨.next t, frames⟩ :=
  run?_within frames (Outline.ofTokens_eq_whole.1 h)

/-! ## The grammar -/

theorem Tree.areGrammatical_iff {ts : List Tree} :
    areGrammatical ts = true ↔ ∀ t ∈ ts, t.isGrammatical = true := by
  induction ts with
  | nil => simp [areGrammatical]
  | cons t ts ih => rw [areGrammatical, Bool.and_eq_true, ih, List.forall_mem_cons]

theorem Tree.haveGrammaticalValues_iff {ms : List (Option String × Tree)} :
    haveGrammaticalValues ms = true ↔ ∀ m ∈ ms, m.2.isGrammatical = true := by
  induction ms with
  | nil => simp [haveGrammaticalValues]
  | cons m ms ih => rw [haveGrammaticalValues, Bool.and_eq_true, ih, List.forall_mem_cons]

/-- What a container holds so far follows the grammar. -/
def Frame.IsGrammatical : Frame → Prop
  | .array before => ∀ t ∈ before, t.isGrammatical = true
  | .object before _ => ∀ m ∈ before, m.2.isGrammatical = true

/-- What has been read of the innermost container follows the grammar. -/
def Due.IsGrammatical : Due → Prop
  | .name before | .colon before _ => ∀ m ∈ before, m.2.isGrammatical = true
  | .next t => t.isGrammatical = true
  | _ => True

/-- All that has been read follows the grammar. -/
def Progress.IsGrammatical (p : Progress) : Prop :=
  p.due.IsGrammatical ∧ ∀ f ∈ p.frames, f.IsGrammatical

theorem Tree.isGrammatical_array {before : List Tree} (h : ∀ t ∈ before, t.isGrammatical = true) :
    (Tree.array before.reverse).isGrammatical = true := by
  rw [isGrammatical, areGrammatical_iff]
  exact fun t ht => h t (List.mem_reverse.1 ht)

theorem Tree.isGrammatical_object {before : List (Option String × Tree)}
    (h : ∀ m ∈ before, m.2.isGrammatical = true) :
    (Tree.object before.reverse .closed).isGrammatical = true := by
  rw [isGrammatical, decide_eq_true rfl, Bool.true_and, haveGrammaticalValues_iff]
  exact fun m hm => h m (List.mem_reverse.1 hm)

theorem Advance.isGrammatical {p next : Progress} {token : Token} (h : Advance p token next)
    (hp : p.IsGrammatical) : next.IsGrammatical := by
  obtain ⟨hdue, hframes⟩ := hp
  cases h with
  | leaf _ h frames =>
    refine ⟨?_, hframes⟩
    cases token <;> cases h <;> rfl
  | openArray _ frames => exact ⟨trivial, List.forall_mem_cons.2 ⟨nofun, hframes⟩⟩
  | openObject _ frames => exact ⟨nofun, hframes⟩
  | emptyArray frames => exact ⟨rfl, (List.forall_mem_cons.1 hframes).2⟩
  | item t before frames =>
    obtain ⟨hbefore, hframes⟩ := List.forall_mem_cons.1 hframes
    exact ⟨trivial, List.forall_mem_cons.2 ⟨List.forall_mem_cons.2 ⟨hdue, hbefore⟩, hframes⟩⟩
  | array t before frames =>
    obtain ⟨hbefore, hframes⟩ := List.forall_mem_cons.1 hframes
    exact ⟨Tree.isGrammatical_array (List.forall_mem_cons.2 ⟨hdue, hbefore⟩), hframes⟩
  | emptyObject frames => exact ⟨rfl, hframes⟩
  | name before name frames => exact ⟨hdue, hframes⟩
  | colon before name frames => exact ⟨trivial, List.forall_mem_cons.2 ⟨hdue, hframes⟩⟩
  | member t before name frames =>
    obtain ⟨hbefore, hframes⟩ := List.forall_mem_cons.1 hframes
    exact ⟨List.forall_mem_cons.2 ⟨hdue, hbefore⟩, hframes⟩
  | object t before name frames =>
    obtain ⟨hbefore, hframes⟩ := List.forall_mem_cons.1 hframes
    exact ⟨Tree.isGrammatical_object (List.forall_mem_cons.2 ⟨hdue, hbefore⟩), hframes⟩

theorem Progress.isGrammatical_run? {tokens : List Token} {p q : Progress}
    (h : p.run? tokens = some q) (hp : p.IsGrammatical) : q.IsGrammatical := by
  obtain ⟨_, _, _, hq⟩ := run?_simulation (R := fun p p' => p' = p ∧ p.IsGrammatical)
    (fun h hnext => ⟨_, h.1 ▸ hnext, rfl, hnext.isGrammatical h.2⟩) ⟨rfl, hp⟩ h
  exact hq

/-- **A whole text follows the grammar.** -/
theorem Outline.isGrammatical_of_whole {tokens : List Token} {t : Tree}
    (h : ofTokens tokens = ⟨t, true⟩) : t.isGrammatical = true :=
  (isGrammatical_run? (ofTokens_eq_whole.1 h) ⟨trivial, nofun⟩).1

end CompositionFunction.Json
