import CompositionFunction.Text.Split

/-!
# The parts between separators

The parts of a text are its pieces: what reaches from one separator to the next, or to an end of the
text. Parts that were joined with separators between them are found again.

* `mem_splitAll_iff` : the parts of a text are its pieces.
* `splitAll_intercalate` : parts that were joined are split again.
-/

set_option autoImplicit false

namespace CompositionFunction.Text

variable {sep : Char} {a s piece : List Char}

/-- A text has no separator, or it is a part without one, a separator, and a further text. -/
@[elab_as_elim]
theorem separated_induction (sep : Char) {motive : List Char → Prop}
    (whole : ∀ a, sep ∉ a → motive a)
    (parted : ∀ a b, sep ∉ a → motive b → motive (a ++ sep :: b)) (s : List Char) : motive s := by
  suffices h : ∀ a, sep ∉ a → motive (a ++ s) from h [] List.not_mem_nil
  induction s with
  | nil =>
    intro a ha
    rw [List.append_nil]
    exact whole a ha
  | cons c cs ih =>
    intro a ha
    by_cases hc : c = sep
    · subst hc
      exact parted a cs ha (ih [] List.not_mem_nil)
    · have hmove : a ++ c :: cs = (a ++ [c]) ++ cs := by simp
      rw [hmove]
      exact ih (a ++ [c]) (by simp [ha, Ne.symm hc])

theorem splitAll_ne_nil (sep : Char) (s : List Char) : splitAll sep s ≠ [] := by
  cases s with
  | nil => simp [splitAll]
  | cons c cs =>
    unfold splitAll
    split
    · simp
    · split <;> simp

/-- Without a separator a text is its only part. -/
theorem splitAll_of_notMem (h : sep ∉ a) : splitAll sep a = [a] := by
  induction a with
  | nil => rfl
  | cons c cs ih =>
    rw [List.mem_cons, not_or] at h
    rw [splitAll, if_neg (Ne.symm h.1), ih h.2]

/-- A text is split at a separator into the parts of what stands before and behind it. -/
theorem splitAll_append (a b : List Char) :
    splitAll sep (a ++ sep :: b) = splitAll sep a ++ splitAll sep b := by
  induction a with
  | nil => simp [splitAll]
  | cons c cs ih =>
    rw [List.cons_append, splitAll, splitAll, ih]
    by_cases hc : c = sep
    · rw [if_pos hc, if_pos hc, List.cons_append]
    · rw [if_neg hc, if_neg hc]
      cases hparts : splitAll sep cs with
      | nil => exact absurd hparts (splitAll_ne_nil sep cs)
      | cons part parts => rfl

/-! ## Pieces -/

/-- The piece has no separator in it, and reaches to one or to the end of the text on either side. -/
structure IsPiece (sep : Char) (piece s : List Char) : Prop where
  sep_notMem : sep ∉ piece
  reaches : ∃ before after, s = before ++ piece ++ after ∧
    (before = [] ∨ ∃ b, before = b ++ [sep]) ∧ (after = [] ∨ ∃ b, after = sep :: b)

/-- A piece behind a separator is one of the whole text. -/
theorem IsPiece.behind {b : List Char} (h : IsPiece sep piece b) (a : List Char) :
    IsPiece sep piece (a ++ sep :: b) := by
  obtain ⟨hpiece, before, after, rfl, hbefore, hafter⟩ := h
  refine ⟨hpiece, a ++ sep :: before, after, by simp, .inr ?_, hafter⟩
  rcases hbefore with rfl | ⟨b, rfl⟩
  · exact ⟨a, rfl⟩
  · exact ⟨a ++ sep :: b, by simp⟩

theorem isPiece_of_mem : piece ∈ splitAll sep s → IsPiece sep piece s := by
  induction s using separated_induction sep with
  | whole a ha =>
    rw [splitAll_of_notMem ha, List.mem_singleton]
    rintro rfl
    exact ⟨ha, [], [], by simp, .inl rfl, .inl rfl⟩
  | parted a b ha ih =>
    rw [splitAll_append, splitAll_of_notMem ha, List.mem_append, List.mem_singleton]
    rintro (rfl | h)
    · exact ⟨ha, [], sep :: b, rfl, .inl rfl, .inr ⟨b, rfl⟩⟩
    · exact (ih h).behind a

theorem IsPiece.mem (h : IsPiece sep piece s) : piece ∈ splitAll sep s := by
  obtain ⟨hpiece, before, after, rfl, hbefore, hafter⟩ := h
  have hmem : piece ∈ splitAll sep (piece ++ after) := by
    rcases hafter with rfl | ⟨b, rfl⟩
    · rw [List.append_nil, splitAll_of_notMem hpiece]
      exact List.mem_singleton_self piece
    · rw [splitAll_append, splitAll_of_notMem hpiece]
      exact List.mem_append_left _ (List.mem_singleton_self piece)
  rcases hbefore with rfl | ⟨b, rfl⟩
  · exact hmem
  · have hparted : b ++ [sep] ++ piece ++ after = b ++ sep :: (piece ++ after) := by simp
    rw [hparted, splitAll_append]
    exact List.mem_append_right _ hmem

/-- **The parts of a text are its pieces.** -/
theorem mem_splitAll_iff : piece ∈ splitAll sep s ↔ IsPiece sep piece s :=
  ⟨isPiece_of_mem, IsPiece.mem⟩

/-! ## Joined parts -/

/-- **Parts that were joined are split again**, if no separator stands in them. -/
theorem splitAll_intercalate {parts : List (List Char)} (hne : parts ≠ [])
    (h : ∀ part ∈ parts, sep ∉ part) : splitAll sep ([sep].intercalate parts) = parts := by
  induction parts with
  | nil => exact absurd rfl hne
  | cons part parts ih =>
    have hpart : splitAll sep part = [part] := splitAll_of_notMem (h part List.mem_cons_self)
    cases parts with
    | nil => rw [List.intercalate_singleton, hpart]
    | cons next parts =>
      rw [List.intercalate_cons_cons, List.append_assoc, List.singleton_append, splitAll_append,
        hpart, ih (List.cons_ne_nil next parts) fun x hx => h x (List.mem_cons_of_mem _ hx)]
      rfl

end CompositionFunction.Text
