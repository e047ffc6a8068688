import CompositionFunction.Proofs.Json.Members
import CompositionFunction.Proofs.Json.Scan
import CompositionFunction.Proofs.Json.Steps

/-!
# A member more

A member that is put into an object of a text is put into the same object of the tree of the text,
and nothing else of the tree changes: the reader passes through the same containers as before, one
of which holds a member more from there on.

* `Tree.Gains` : a tree has a member more in the object at a place.
* `Progress.Gains.advance` : two readers that differ in a member go on differing in it only.
* `TextGains.outline` : a member that is put into a text is put into the tree of the text.
-/

set_option autoImplicit false

namespace CompositionFunction.Json

/-! ## Places in a tree -/

/-- A step from a container to one of its parts. -/
inductive Key where
  | member (name : Option String)
  | item (index : Nat)
deriving DecidableEq, Repr

/-- The way from the root of a tree to one of its parts. -/
abbrev Pointer : Type := List Key

/-- The second tree has the member more in the object at the place, and is like the first one
elsewhere. -/
inductive Tree.Gains (m : Option String × Tree) : Pointer → Tree → Tree → Prop where
  | here (before after : List (Option String × Tree)) (ending : Ending) :
    Gains m [] (.object (before ++ after) ending) (.object (before ++ m :: after) ending)
  | member {pointer : Pointer} {t t' : Tree} (before : List (Option String × Tree))
      (name : Option String) (after : List (Option String × Tree)) (ending : Ending)
      (value : Gains m pointer t t') :
    Gains m (.member name :: pointer) (.object (before ++ (name, t) :: after) ending)
      (.object (before ++ (name, t') :: after) ending)
  | item {pointer : Pointer} {t t' : Tree} (before after : List Tree)
      (item : Gains m pointer t t') :
    Gains m (.item before.length :: pointer) (.array (before ++ t :: after))
      (.array (before ++ t' :: after))

theorem Tree.Gains.ne_null {m : Option String × Tree} {pointer : Pointer} {t t' : Tree}
    (h : Tree.Gains m pointer t t') : t ≠ .null ∧ t' ≠ .null := by
  cases h <;> exact ⟨nofun, nofun⟩

/-- The source within so many containers. -/
def Source.within? (source : Source) : Nat → Option Source
  | 0 => some source
  | n + 1 => source.enter?.bind fun inner => inner.within? n

theorem Source.within?_setAside (n : Nat) : Source.setAside.within? n = some .setAside := by
  induction n with
  | zero => rfl
  | succ n ih => exact ih

/-- **A readable member more leaves a tree as readable as it was.** -/
theorem Tree.Gains.isReadable_iff {name : String} {u : Tree} {pointer : Pointer} {t t' : Tree}
    (h : Tree.Gains (some name, u) pointer t t') : ∀ {source inner : Source},
      source.within? (pointer.length + 1) = some inner → u.IsReadable inner →
        (t'.IsReadable source ↔ t.IsReadable source) := by
  induction h with
  | here before after ending =>
    intro source inner hinner hread
    obtain ⟨_, henter, ⟨⟩⟩ := Option.bind_eq_some_iff.1 hinner
    simp only [Tree.isReadable_object, henter, Option.some.injEq, exists_eq_left',
      List.forall_mem_append, List.forall_mem_cons, Option.isSome_some, hread, true_and]
  | member before name' after ending _ ih =>
    intro source inner hinner hread
    obtain ⟨next, henter, hnext⟩ := Option.bind_eq_some_iff.1 hinner
    simp only [Tree.isReadable_object, henter, Option.some.injEq, exists_eq_left',
      List.forall_mem_append, List.forall_mem_cons, ih hnext hread]
  | item before after _ ih =>
    intro source inner hinner hread
    obtain ⟨next, henter, hnext⟩ := Option.bind_eq_some_iff.1 hinner
    simp only [Tree.isReadable_array, henter, Option.some.injEq, exists_eq_left',
      List.forall_mem_append, List.forall_mem_cons, ih hnext hread]

open Progress

/-! ## Two readers that differ in a member -/

section Gains

variable {m : Option String × Tree} {pointer : Pointer}

/-- However they go on, the second object has the member more. -/
def MembersGain (m : Option String × Tree) (pointer : Pointer)
    (before before' : List (Option String × Tree)) : Prop :=
  ∀ after ending, Tree.Gains m pointer (.object (before.reverse ++ after) ending)
    (.object (before'.reverse ++ after) ending)

/-- However they go on, the second array has the member more. -/
def ItemsGain (m : Option String × Tree) (pointer : Pointer) (before before' : List Tree) : Prop :=
  ∀ after, Tree.Gains m pointer (.array (before.reverse ++ after))
    (.array (before'.reverse ++ after))

theorem MembersGain.here (m : Option String × Tree) (before : List (Option String × Tree)) :
    MembersGain m [] before (m :: before) := by
  intro after ending
  rw [List.reverse_cons, List.append_assoc]
  exact .here before.reverse after ending

theorem MembersGain.value {t t' : Tree} (h : Tree.Gains m pointer t t') (name : Option String)
    (before : List (Option String × Tree)) :
    MembersGain m (.member name :: pointer) ((name, t) :: before) ((name, t') :: before) := by
  intro after ending
  rw [List.reverse_cons, List.reverse_cons, List.append_assoc, List.append_assoc]
  exact .member before.reverse name after ending h

theorem MembersGain.cons {before before' : List (Option String × Tree)}
    (h : MembersGain m pointer before before') (x : Option String × Tree) :
    MembersGain m pointer (x :: before) (x :: before') := by
  intro after ending
  rw [List.reverse_cons, List.reverse_cons, List.append_assoc, List.append_assoc]
  exact h (x :: after) ending

theorem MembersGain.object {before before' : List (Option String × Tree)}
    (h : MembersGain m pointer before before') :
    Tree.Gains m pointer (.object before.reverse .closed) (.object before'.reverse .closed) := by
  simpa using h [] .closed

theorem ItemsGain.value {t t' : Tree} (h : Tree.Gains m pointer t t') (before : List Tree) :
    ItemsGain m (.item before.length :: pointer) (t :: before) (t' :: before) := by
  intro after
  rw [List.reverse_cons, List.reverse_cons, List.append_assoc, List.append_assoc,
    ← List.length_reverse]
  exact .item before.reverse after h

theorem ItemsGain.cons {before before' : List Tree} (h : ItemsGain m pointer before before')
    (t : Tree) : ItemsGain m pointer (t :: before) (t :: before') := by
  intro after
  rw [List.reverse_cons, List.reverse_cons, List.append_assoc, List.append_assoc]
  exact h (t :: after)

theorem ItemsGain.array {before before' : List Tree} (h : ItemsGain m pointer before before') :
    Tree.Gains m pointer (.array before.reverse) (.array before'.reverse) := by
  simpa using h []

theorem ItemsGain.ne_nil {before before' : List Tree} (h : ItemsGain m pointer before before') :
    before ≠ [] := by
  rintro rfl
  have harray : Tree.Gains m pointer (.array []) (.array (before'.reverse ++ [])) := h []
  generalize hempty : Tree.array [] = t, Tree.array (before'.reverse ++ []) = t' at harray
  cases harray with
  | item items after _ => cases items <;> cases hempty
  | _ => cases hempty

/-- The part of a container that is being read. -/
def Frame.key : Frame → Key
  | .array before => .item before.length
  | .object _ name => .member name

/-- The way into the innermost container. -/
def pointerOf (frames : List Frame) : Pointer := (frames.map Frame.key).reverse

theorem pointerOf_cons (f : Frame) (frames : List Frame) :
    pointerOf (f :: frames) ++ pointer = pointerOf frames ++ f.key :: pointer := by
  rw [pointerOf, List.map_cons, List.reverse_cons, List.append_assoc]
  rfl

/-- One of the containers around a place has the member more, at this place in the whole. -/
inductive FramesGain (m : Option String × Tree) : Pointer → List Frame → List Frame → Prop where
  | array {pointer : Pointer} {before before' : List Tree}
      (h : ItemsGain m pointer before before') (outer : List Frame) :
    FramesGain m (pointerOf outer ++ pointer) (.array before :: outer) (.array before' :: outer)
  | object {pointer : Pointer} {before before' : List (Option String × Tree)}
      (h : MembersGain m pointer before before') (name : Option String) (outer : List Frame) :
    FramesGain m (pointerOf outer ++ pointer) (.object before name :: outer)
      (.object before' name :: outer)
  | outer {pointer : Pointer} {outer outer' : List Frame} (f : Frame)
      (h : FramesGain m pointer outer outer') : FramesGain m pointer (f :: outer) (f :: outer')

/-- What has been read has the member more, at this place in the whole. -/
inductive Progress.Gains (m : Option String × Tree) : Pointer → Progress → Progress → Prop where
  | name {pointer : Pointer} {before before' : List (Option String × Tree)}
      (h : MembersGain m pointer before before') (hne : before ≠ []) (frames : List Frame) :
    Gains m (pointerOf frames ++ pointer) ⟨.name before, frames⟩ ⟨.name before', frames⟩
  | colon {pointer : Pointer} {before before' : List (Option String × Tree)}
      (h : MembersGain m pointer before before') (name : Option String) (frames : List Frame) :
    Gains m (pointerOf frames ++ pointer) ⟨.colon before name, frames⟩ ⟨.colon before' name, frames⟩
  | next {pointer : Pointer} {t t' : Tree} (h : Tree.Gains m pointer t t') (frames : List Frame) :
    Gains m (pointerOf frames ++ pointer) ⟨.next t, frames⟩ ⟨.next t', frames⟩
  | frames {pointer : Pointer} {frames frames' : List Frame} (due : Due)
      (h : FramesGain m pointer frames frames') : Gains m pointer ⟨due, frames⟩ ⟨due, frames'⟩

/-- **One token keeps two readers apart by the member**, and by nothing else. -/
theorem Progress.Gains.advance {p p' next : Progress} {token : Token}
    (h : Progress.Gains m pointer p p') (hnext : Advance p token next) :
    ∃ next', Advance p' token next' ∧ Progress.Gains m pointer next next' := by
  cases hnext with
  | leaf hdue htoken frames =>
    cases h with
    | frames _ h => exact ⟨_, .leaf hdue htoken _, .frames _ h⟩
    | name | colon | next => rcases hdue with hdue | hdue <;> cases hdue
  | openArray hdue frames =>
    cases h with
    | frames _ h => exact ⟨_, .openArray hdue _, .frames _ (.outer _ h)⟩
    | name | colon | next => rcases hdue with hdue | hdue <;> cases hdue
  | openObject hdue frames =>
    cases h with
    | frames _ h => exact ⟨_, .openObject hdue _, .frames _ h⟩
    | name | colon | next => rcases hdue with hdue | hdue <;> cases hdue
  | emptyArray frames =>
    cases h with
    | frames _ h =>
      cases h with
      | array h _ => exact absurd rfl h.ne_nil
      | outer _ h => exact ⟨_, .emptyArray _, .frames _ h⟩
  | item t before frames =>
    cases h with
    | next h _ =>
      rw [pointerOf_cons]
      exact ⟨_, .item _ before frames, .frames _ (.array (.value h before) frames)⟩
    | frames _ h =>
      cases h with
      | array h _ => exact ⟨_, .item t _ frames, .frames _ (.array (h.cons t) frames)⟩
      | outer _ h => exact ⟨_, .item t before _, .frames _ (.outer _ h)⟩
  | array t before frames =>
    cases h with
    | next h _ =>
      rw [pointerOf_cons]
      exact ⟨_, .array _ before frames, .next (ItemsGain.value h before).array frames⟩
    | frames _ h =>
      cases h with
      | array h _ => exact ⟨_, .array t _ frames, .next (h.cons t).array frames⟩
      | outer _ h => exact ⟨_, .array t before _, .frames _ h⟩
  | emptyObject frames =>
    cases h with
    | name h hne _ => exact absurd rfl hne
    | frames _ h => exact ⟨_, .emptyObject _, .frames _ h⟩
  | name before name frames =>
    cases h with
    | name h _ _ => exact ⟨_, .name _ name frames, .colon h name frames⟩
    | frames _ h => exact ⟨_, .name before name _, .frames _ h⟩
  | colon before name frames =>
    cases h with
    | colon h _ _ => exact ⟨_, .colon _ name frames, .frames _ (.object h name frames)⟩
    | frames _ h => exact ⟨_, .colon before name _, .frames _ (.outer _ h)⟩
  | member t before name frames =>
    cases h with
    | next h _ =>
      rw [pointerOf_cons]
      exact ⟨_, .member _ before name frames,
        .name (.value h name before) (List.cons_ne_nil _ _) frames⟩
    | frames _ h =>
      cases h with
      | object h _ _ =>
        exact ⟨_, .member t _ name frames, .name (h.cons (name, t)) (List.cons_ne_nil _ _) frames⟩
      | outer _ h => exact ⟨_, .member t before name _, .frames _ h⟩
  | object t before name frames =>
    cases h with
    | next h _ =>
      rw [pointerOf_cons]
      exact ⟨_, .object _ before name frames, .next (MembersGain.value h name before).object frames⟩
    | frames _ h =>
      cases h with
      | object h _ _ => exact ⟨_, .object t _ name frames, .next (h.cons (name, t)).object frames⟩
      | outer _ h => exact ⟨_, .object t before name _, .frames _ h⟩

/-- So do all the tokens that follow. -/
theorem Progress.Gains.run? {tokens : List Token} {p p' q : Progress}
    (h : Progress.Gains m pointer p p') (hrun : p.run? tokens = some q) :
    ∃ q', p'.run? tokens = some q' ∧ Progress.Gains m pointer q q' :=
  run?_simulation Progress.Gains.advance h hrun

/-- At the end, the second tree has the member more. -/
theorem Progress.Gains.tree {t : Tree} {q : Progress}
    (h : Progress.Gains m pointer ⟨.next t, []⟩ q) :
    ∃ t', q = ⟨.next t', []⟩ ∧ Tree.Gains m pointer t t' := by
  cases h with
  | next h _ => exact ⟨_, rfl, h⟩
  | frames _ h => cases h

/-- If the readers differ in the member once one token more is read, the trees differ in it. -/
theorem Outline.whole_of_gains {tokens inserted more : List Token} {first : Token}
    {p p' : Progress} {t : Tree} (hread : run? ⟨.value, []⟩ tokens = some p)
    (hinserted : p.run? inserted = some p')
    (hfirst : ∀ next, Advance p first next →
      ∃ next', Advance p' first next' ∧ Progress.Gains m pointer next next')
    (hwhole : ofTokens (tokens ++ first :: more) = ⟨t, true⟩) :
    ∃ t', ofTokens (tokens ++ inserted ++ first :: more) = ⟨t', true⟩ ∧
      Tree.Gains m pointer t t' := by
  obtain ⟨q, hq, hrest⟩ := run?_append.1 (ofTokens_eq_whole.1 hwhole)
  obtain rfl : p = q := Option.some.inj (hread.symm.trans hq)
  obtain ⟨next, hnext, hmore⟩ := run?_cons.1 hrest
  obtain ⟨next', hnext', hgains⟩ := hfirst next hnext
  obtain ⟨q', hmore', hgains⟩ := hgains.run? hmore
  obtain ⟨t', rfl, htree⟩ := hgains.tree
  refine ⟨t', ofTokens_eq_whole.2 ?_, htree⟩
  exact run?_append.2 ⟨p', run?_append.2 ⟨p, hread, hinserted⟩, run?_cons.2 ⟨next', hnext', hmore'⟩⟩

end Gains

/-! ## Tokens -/

/-- The tokens are those of a member. -/
def IsMember (tokens : List Token) (m : Option String × Tree) : Prop :=
  ∃ value, tokens = .text m.1 :: .colon :: value ∧ Outline.ofTokens value = ⟨m.2, true⟩

/-- Between the tokens that are read and those that are left, a member is inserted among the members
of the object at a place: before another member, after one, or as the only one. -/
inductive Inserts (m : Option String × Tree) :
    Pointer → List Token → List Token → List Token → Prop where
  | before {read member more : List Token} {before : List (Option String × Tree)}
      {frames : List Frame} {name : Option String}
      (hread : run? ⟨.value, []⟩ read = some ⟨.name before, frames⟩) (hmember : IsMember member m) :
    Inserts m (pointerOf frames) read (member ++ [.comma]) (.text name :: more)
  | after {read member more : List Token} {t : Tree} {before : List (Option String × Tree)}
      {name : Option String} {frames : List Frame} {token : Token}
      (hread : run? ⟨.value, []⟩ read = some ⟨.next t, .object before name :: frames⟩)
      (hmember : IsMember member m) (htoken : token = .comma ∨ token = .closeObject) :
    Inserts m (pointerOf frames) read (.comma :: member) (token :: more)
  | only {read member more : List Token} {frames : List Frame}
      (hread : run? ⟨.value, []⟩ read = some ⟨.name [], frames⟩) (hmember : IsMember member m) :
    Inserts m (pointerOf frames) read member (.closeObject :: more)

section Inserts

variable {m : Option String × Tree} {pointer : Pointer} {read member inserted left : List Token}

/-- The tokens of a member lead from its name to the end of its value. -/
theorem IsMember.run? (h : IsMember member m) (before : List (Option String × Tree))
    (frames : List Frame) :
    Progress.run? ⟨.name before, frames⟩ member =
      some ⟨.next m.2, .object before m.1 :: frames⟩ := by
  obtain ⟨value, rfl, hwhole⟩ := h
  refine run?_cons.2 ⟨_, .name before m.1 frames, run?_cons.2 ⟨_, .colon before m.1 frames, ?_⟩⟩
  exact run?_value hwhole _

/-- **Tokens gain a member where their tree does.** -/
theorem Inserts.outline {t : Tree} (h : Inserts m pointer read inserted left)
    (hwhole : Outline.ofTokens (read ++ left) = ⟨t, true⟩) :
    ∃ t', Outline.ofTokens (read ++ inserted ++ left) = ⟨t', true⟩ ∧
      Tree.Gains m pointer t t' := by
  cases h with
  | @before _ member _ before frames name hread hmember =>
    have hinserted : Progress.run? ⟨.name before, frames⟩ (member ++ [.comma]) =
        some ⟨.name (m :: before), frames⟩ :=
      run?_append.2 ⟨_, hmember.run? before frames, run?_cons.2 ⟨_, .member _ _ _ _, rfl⟩⟩
    refine Outline.whole_of_gains hread hinserted ?_ hwhole
    intro next hnext
    cases hnext with
    | leaf hdue => rcases hdue with hdue | hdue <;> cases hdue
    | name =>
      exact ⟨_, .name _ _ _, by simpa using Progress.Gains.colon (.here m before) name frames⟩
  | @after _ member _ x before name frames token hread hmember htoken =>
    have hinserted : Progress.run? ⟨.next x, .object before name :: frames⟩ (.comma :: member) =
        some ⟨.next m.2, .object ((name, x) :: before) m.1 :: frames⟩ :=
      run?_cons.2 ⟨_, .member x before name frames, hmember.run? _ frames⟩
    have hgain : MembersGain m [] ((name, x) :: before) (m :: (name, x) :: before) := .here m _
    refine Outline.whole_of_gains hread hinserted ?_ hwhole
    intro next hnext
    rcases htoken with rfl | rfl
    · cases hnext with
      | leaf hdue => rcases hdue with hdue | hdue <;> cases hdue
      | member =>
        exact ⟨_, .member _ _ _ _,
          by simpa using Progress.Gains.name hgain (List.cons_ne_nil _ _) frames⟩
    · cases hnext with
      | leaf hdue => rcases hdue with hdue | hdue <;> cases hdue
      | object =>
        exact ⟨_, .object _ _ _ _, by simpa using Progress.Gains.next hgain.object frames⟩
  | @only _ member _ frames hread hmember =>
    have hgain : MembersGain m [] [] [m] := .here m []
    refine Outline.whole_of_gains hread (hmember.run? [] frames) ?_ hwhole
    intro next hnext
    cases hnext with
    | leaf hdue => rcases hdue with hdue | hdue <;> cases hdue
    | emptyObject =>
      exact ⟨_, .object _ _ _ _, by simpa using Progress.Gains.next hgain.object frames⟩

/-- The value of a member that is inserted follows the grammar. -/
theorem Inserts.isGrammatical (h : Inserts m pointer read inserted left) :
    m.2.isGrammatical = true := by
  cases h with
  | before _ hmember | after _ hmember _ | only _ hmember =>
    obtain ⟨value, _, hwhole⟩ := hmember
    exact Outline.isGrammatical_of_whole hwhole

/-! ## Texts -/

/-- The second text has the text of a member more, in the object at a place. -/
def TextGains (m : Option String × Tree) (pointer : Pointer) (s s' : String) : Prop :=
  ∃ read inserted left : List Char, s.toList = read ++ left ∧ s'.toList = read ++ inserted ++ left ∧
    Inserts m pointer (scan read) (scan inserted) (scan left)

theorem IsMember.broken_not_mem (h : IsMember member m) : .broken ∉ member := by
  obtain ⟨value, rfl, hwhole⟩ := h
  simpa using broken_not_mem_of_run? (Outline.ofTokens_eq_whole.1 hwhole)

theorem Inserts.broken_not_mem (h : Inserts m pointer read inserted left) :
    .broken ∉ read ∧ .broken ∉ inserted := by
  cases h with
  | before hread hmember | after hread hmember _ | only hread hmember =>
    exact ⟨broken_not_mem_of_run? hread, by simpa using hmember.broken_not_mem⟩

/-- What is inserted, and what is left after it, begin with tokens that end a number. -/
theorem Inserts.endsNumber (h : Inserts m pointer read inserted left) :
    (∃ first more, inserted = first :: more ∧ first.endsNumber = true) ∧
      ∃ next more, left = next :: more ∧ next.endsNumber = true := by
  cases h with
  | before _ hmember =>
    obtain ⟨value, rfl, _⟩ := hmember
    exact ⟨⟨_, _, rfl, rfl⟩, _, _, rfl, rfl⟩
  | after _ _ htoken =>
    refine ⟨⟨_, _, rfl, rfl⟩, _, _, rfl, ?_⟩
    rcases htoken with rfl | rfl <;> rfl
  | only _ hmember =>
    obtain ⟨value, rfl, _⟩ := hmember
    exact ⟨⟨_, _, rfl, rfl⟩, _, _, rfl, rfl⟩

theorem TextGains.isGrammatical {s s' : String} (h : TextGains m pointer s s') :
    m.2.isGrammatical = true := by
  obtain ⟨_, _, _, _, _, hinserts⟩ := h
  exact hinserts.isGrammatical

/-- **A text gains a member where its tree does.** Putting the text of a member among the members of
an object keeps a whole text whole, and its tree has the member more in the same object. -/
theorem TextGains.outline {s s' : String} {t : Tree} (h : TextGains m pointer s s')
    (hwhole : Outline.ofText s = ⟨t, true⟩) :
    ∃ t', Outline.ofText s' = ⟨t', true⟩ ∧ Tree.Gains m pointer t t' := by
  obtain ⟨read, inserted, left, hs, hs', hinserts⟩ := h
  obtain ⟨hread, hinserted⟩ := hinserts.broken_not_mem
  obtain ⟨⟨first, _, hfirst, hends⟩, next, _, hnext, hends'⟩ := hinserts.endsNumber
  rw [Outline.ofText, hs, scan_append hread (endsNumber_of_scan hnext hends')] at hwhole
  rw [Outline.ofText, hs', scan_insert hread hinserted hfirst hends hnext hends']
  exact hinserts.outline hwhole

end Inserts

end CompositionFunction.Json
