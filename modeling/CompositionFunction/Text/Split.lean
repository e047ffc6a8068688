/-!
# Splitting text at a separator

Texts are lists of characters here. A text is split at the first or at the last occurrence of a
separator, or at all of them.

The program splits by `split_once`, `rsplit_once` and `splitn`, and by `split`.

* `splitFirst_eq_some_iff` : the parts around the first separator are the only way to write the
  text with no separator in the left part.
* `splitLast_eq_some_iff` : the same for the last separator and the right part.
-/

set_option autoImplicit false

namespace CompositionFunction.Text

/-- The parts before and after the first separator. -/
def splitFirst (sep : Char) : List Char → Option (List Char × List Char)
  | [] => none
  | c :: cs => if c = sep then some ([], cs) else (splitFirst sep cs).map fun p => (c :: p.1, p.2)

/-- The parts before and after the last separator. -/
def splitLast (sep : Char) : List Char → Option (List Char × List Char)
  | [] => none
  | c :: cs =>
    match splitLast sep cs with
    | some p => some (c :: p.1, p.2)
    | none => if c = sep then some ([], cs) else none

/-- The parts between the separators; there is one more of them than of separators. -/
def splitAll (sep : Char) : List Char → List (List Char)
  | [] => [[]]
  | c :: cs =>
    if c = sep then [] :: splitAll sep cs
    else match splitAll sep cs with
      | [] => [[c]]
      | part :: parts => (c :: part) :: parts

/-- The parts around the first separator are the only way to write the text with no separator in
the left part. -/
theorem splitFirst_eq_some_iff {sep : Char} {s a b : List Char} :
    splitFirst sep s = some (a, b) ↔ s = a ++ sep :: b ∧ sep ∉ a := by
  induction s generalizing a with
  | nil => simp [splitFirst]
  | cons c cs ih =>
    by_cases hc : c = sep
    · subst hc
      cases a with
      | nil => simp [splitFirst]
      | cons x xs => simp [splitFirst]; intro h; simp [h]
    · cases a with
      | nil => simp [splitFirst, hc]
      | cons x xs =>
        have hsplit : splitFirst sep (c :: cs) = some (x :: xs, b) ↔
            c = x ∧ splitFirst sep cs = some (xs, b) := by
          cases h : splitFirst sep cs with
          | none => simp [splitFirst, hc, h]
          | some p => simp [splitFirst, hc, h, Prod.ext_iff, and_assoc]
        rw [hsplit, ih]
        constructor
        · rintro ⟨rfl, rfl, h⟩
          exact ⟨rfl, by simp [Ne.symm hc, h]⟩
        · rintro ⟨hs, h⟩
          simp only [List.cons_append, List.cons.injEq] at hs
          exact ⟨hs.1, hs.2, fun hm => h (List.mem_cons_of_mem _ hm)⟩

/-- There is nothing to split exactly when the separator does not occur. -/
theorem splitFirst_eq_none_iff {sep : Char} {s : List Char} :
    splitFirst sep s = none ↔ sep ∉ s := by
  induction s with
  | nil => simp [splitFirst]
  | cons c cs ih =>
    by_cases hc : c = sep
    · simp [splitFirst, hc]
    · simp [splitFirst, hc, ih, Ne.symm hc]

/-- There is nothing to split exactly when the separator does not occur. -/
theorem splitLast_eq_none_iff {sep : Char} {s : List Char} :
    splitLast sep s = none ↔ sep ∉ s := by
  induction s with
  | nil => simp [splitLast]
  | cons c cs ih =>
    cases h : splitLast sep cs with
    | some p =>
      have hmem : sep ∈ cs := by
        by_cases hm : sep ∈ cs
        · exact hm
        · simp [ih.2 hm] at h
      simp [splitLast, h, hmem]
    | none =>
      have := ih.1 h
      by_cases hc : c = sep
      · simp [splitLast, h, hc]
      · simp [splitLast, h, hc, this, Ne.symm hc]

/-- The parts around the last separator are the only way to write the text with no separator in
the right part. -/
theorem splitLast_eq_some_iff {sep : Char} {s a b : List Char} :
    splitLast sep s = some (a, b) ↔ s = a ++ sep :: b ∧ sep ∉ b := by
  induction s generalizing a b with
  | nil => simp [splitLast]
  | cons c cs ih =>
    cases h : splitLast sep cs with
    | some p =>
      obtain ⟨u, v⟩ := p
      obtain ⟨hcs, hv⟩ := ih.1 h
      simp only [splitLast, h, Option.some.injEq, Prod.mk.injEq]
      constructor
      · rintro ⟨rfl, rfl⟩
        exact ⟨by rw [hcs]; rfl, hv⟩
      · rintro ⟨hs, hb⟩
        cases a with
        | nil =>
          simp only [List.nil_append, List.cons.injEq] at hs
          exact absurd (hs.2 ▸ hcs ▸ by simp) hb
        | cons x xs =>
          simp only [List.cons_append, List.cons.injEq] at hs
          have := ih.2 ⟨hs.2, hb⟩
          rw [h, Option.some.injEq, Prod.mk.injEq] at this
          exact ⟨by rw [hs.1, this.1], this.2⟩
    | none =>
      have hn : sep ∉ cs := splitLast_eq_none_iff.1 h
      by_cases hc : c = sep
      · subst hc
        simp only [splitLast, h, if_true, Option.some.injEq, Prod.mk.injEq]
        constructor
        · rintro ⟨rfl, rfl⟩
          exact ⟨rfl, hn⟩
        · rintro ⟨hs, hb⟩
          cases a with
          | nil => simpa using hs
          | cons x xs =>
            simp only [List.cons_append, List.cons.injEq] at hs
            exact absurd (hs.2 ▸ by simp) hn
      · simp only [splitLast, h, if_neg hc, reduceCtorEq, false_iff, not_and]
        intro hs
        cases a with
        | nil => simp only [List.nil_append, List.cons.injEq] at hs; exact absurd hs.1 hc
        | cons x xs =>
          simp only [List.cons_append, List.cons.injEq] at hs
          exact absurd (hs.2 ▸ by simp) hn

end CompositionFunction.Text
