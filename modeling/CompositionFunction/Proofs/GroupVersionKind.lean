import CompositionFunction.GroupVersionKind

/-!
# Kinds and their apiVersion

A kind is split from an `apiVersion` at the last slash, and joined into one again without a slash if
its group is empty. So splitting undoes joining unless the version has a slash, and joining undoes
splitting unless the text states an empty group.

* `ofApiVersion_eq_iff` : the one kind that an `apiVersion` states.
* `ofApiVersion_apiVersion_iff` : which kinds are split from their own `apiVersion`.
* `rejoins_ofApiVersion` : which texts are joined again as they were, and what others become.
-/

set_option autoImplicit false

namespace CompositionFunction.GroupVersionKind

open Text

variable {g : GroupVersionKind} {s kind : String}

/-- The kind was split from some `apiVersion`. -/
def IsSplit (g : GroupVersionKind) : Prop :=
  ∃ apiVersion kind, g = ofApiVersion apiVersion kind

/-- The kind that an `apiVersion` and a kind state: the last slash ends the group, and without one
there is no group. -/
structure IsStatedBy (g : GroupVersionKind) (apiVersion kind : String) : Prop where
  kind_eq : g.kind = kind
  slash_notMem : '/' ∉ g.version.toList
  joins : apiVersion = g.group ++ "/" ++ g.version ∨ g.group = "" ∧ apiVersion = g.version

/-! ## Splitting -/

theorem isStatedBy_ofApiVersion (s kind : String) : (ofApiVersion s kind).IsStatedBy s kind := by
  unfold ofApiVersion
  cases hsplit : splitLast '/' s.toList with
  | none => exact ⟨rfl, splitLast_eq_none_iff.1 hsplit, .inr ⟨rfl, rfl⟩⟩
  | some p =>
    obtain ⟨group, version⟩ := p
    obtain ⟨hs, hversion⟩ := splitLast_eq_some_iff.1 hsplit
    refine ⟨rfl, by simpa using hversion, .inl ?_⟩
    rw [← String.toList_inj, hs]
    simp

/-- No other kind is stated than the one that is split off. -/
theorem IsStatedBy.ofApiVersion_eq (h : g.IsStatedBy s kind) : ofApiVersion s kind = g := by
  obtain ⟨group, version, _⟩ := g
  obtain ⟨rfl, hslash, hjoins⟩ := h
  unfold ofApiVersion
  rcases hjoins with rfl | ⟨rfl, rfl⟩
  · have hjoined : (group ++ "/" ++ version).toList = group.toList ++ '/' :: version.toList := by
      simp
    rw [splitLast_eq_some_iff.2 ⟨hjoined, hslash⟩]
    simp
  · rw [splitLast_eq_none_iff.2 hslash]

/-- **The kind split from an `apiVersion` is the one that it states.** -/
theorem ofApiVersion_eq_iff : ofApiVersion s kind = g ↔ g.IsStatedBy s kind :=
  ⟨fun h => h ▸ isStatedBy_ofApiVersion s kind, IsStatedBy.ofApiVersion_eq⟩

theorem IsStatedBy.isSplit (h : g.IsStatedBy s kind) : g.IsSplit :=
  ⟨s, kind, h.ofApiVersion_eq.symm⟩

/-- The last slash ends the group, so there is none in the version. -/
theorem IsSplit.slash_notMem (h : g.IsSplit) : '/' ∉ g.version.toList := by
  obtain ⟨apiVersion, kind, rfl⟩ := h
  exact (isStatedBy_ofApiVersion apiVersion kind).slash_notMem

/-! ## Splitting what was joined -/

/-- Without a slash in the version, a kind is stated by its own `apiVersion`. -/
theorem isStatedBy_apiVersion (h : '/' ∉ g.version.toList) :
    g.IsStatedBy g.apiVersion g.kind := by
  refine ⟨rfl, h, ?_⟩
  unfold apiVersion
  by_cases hgroup : g.group = ""
  · exact .inr ⟨hgroup, if_pos hgroup⟩
  · exact .inl (if_neg hgroup)

/-- Without a slash in the version, the joined `apiVersion` is split where it was joined. -/
theorem ofApiVersion_apiVersion (h : '/' ∉ g.version.toList) :
    ofApiVersion g.apiVersion g.kind = g :=
  (isStatedBy_apiVersion h).ofApiVersion_eq

/-- Only a slash in the version keeps a kind from being split from its own `apiVersion`. -/
theorem ofApiVersion_apiVersion_iff :
    ofApiVersion g.apiVersion g.kind = g ↔ '/' ∉ g.version.toList :=
  ⟨fun h => (ofApiVersion_eq_iff.1 h).slash_notMem, ofApiVersion_apiVersion⟩

/-- What is split, joined and split again is what was split first. -/
theorem ofApiVersion_apiVersion_ofApiVersion (s kind : String) :
    ofApiVersion (ofApiVersion s kind).apiVersion kind = ofApiVersion s kind := by
  have hstated := isStatedBy_ofApiVersion s kind
  have hagain := ofApiVersion_apiVersion hstated.slash_notMem
  rwa [hstated.kind_eq] at hagain

/-! ## Joining what was split -/

/-- The text states an empty group: it is a slash, followed by a version without a slash. -/
structure StatesEmptyGroup (s version : String) : Prop where
  text_eq : s = "/" ++ version
  slash_notMem : '/' ∉ version.toList

/-- The slash of an empty group is lost. -/
theorem StatesEmptyGroup.apiVersion_eq {version : String} (h : StatesEmptyGroup s version)
    (kind : String) : (ofApiVersion s kind).apiVersion = version := by
  have hstated : IsStatedBy ⟨"", version, kind⟩ s kind := ⟨rfl, h.slash_notMem, .inl h.text_eq⟩
  rw [hstated.ofApiVersion_eq]
  rfl

theorem StatesEmptyGroup.ne {version : String} (h : StatesEmptyGroup s version) : version ≠ s := by
  intro heq
  have hlength := congrArg (fun t : String => t.toList.length) (heq.trans h.text_eq)
  simp at hlength

/-- Every other text is joined again as it was. -/
theorem apiVersion_ofApiVersion (h : ¬ ∃ version, StatesEmptyGroup s version) (kind : String) :
    (ofApiVersion s kind).apiVersion = s := by
  obtain ⟨_, hslash, hjoins⟩ := isStatedBy_ofApiVersion s kind
  generalize ofApiVersion s kind = g at hslash hjoins
  unfold apiVersion
  rcases hjoins with hjoins | ⟨hgroup, hjoins⟩
  · have hgroup : g.group ≠ "" := by
      intro hempty
      rw [hempty] at hjoins
      exact h ⟨g.version, hjoins, hslash⟩
    rw [if_neg hgroup, hjoins]
  · rw [if_pos hgroup, hjoins]

/-- What a text becomes when it is split and joined again: only the slash of an empty group is
lost. -/
structure Rejoins (s joined : String) : Prop where
  same_iff : joined = s ↔ ¬ ∃ version, StatesEmptyGroup s version
  slash_lost : ∀ version, StatesEmptyGroup s version → joined = version

theorem rejoins_ofApiVersion (s kind : String) : Rejoins s (ofApiVersion s kind).apiVersion where
  same_iff := by
    refine ⟨?_, fun h => apiVersion_ofApiVersion h kind⟩
    rintro h ⟨version, hempty⟩
    exact hempty.ne ((hempty.apiVersion_eq kind).symm.trans h)
  slash_lost _ h := h.apiVersion_eq kind

/-- A kind with a version has an `apiVersion`. -/
theorem apiVersion_ne_empty (h : g.version ≠ "") : g.apiVersion ≠ "" := by
  unfold apiVersion
  split
  · exact h
  · intro hempty
    have hlist := congrArg String.toList hempty
    simp at hlist

end CompositionFunction.GroupVersionKind
