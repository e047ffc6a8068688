import CompositionFunction.Duration
import CompositionFunction.Proofs.Text.Decimal

/-!
# Durations and their texts

A duration is read back from its text, and the text of a duration that is read is the canonical
form of what was read: without a sign, superfluous zeros, or a point with nothing behind it.

* `parse_text` : a duration is read back from its text.
* `text_of_parse` : the text of what is read is the canonical form of the text.
-/

set_option autoImplicit false

namespace CompositionFunction.Duration

open Text

/-! ## The parts of a text -/

/-- What stands before and behind the first point. -/
def parts (body : List Char) : List Char × List Char := (splitFirst '.' body).getD (body, [])

/-- Digits without a sign. -/
def unsigned (cs : List Char) : List Char :=
  match cs with
  | '+' :: rest => rest
  | _ => cs

/-- The characters of the canonical form of a duration, from its two parts. -/
def canonicalChars (whole fraction : List Char) : List Char :=
  let digits := withoutTrailingZeros fraction
  withoutLeadingZeros (unsigned whole) ++ (if digits = [] then [] else '.' :: digits) ++ ['s']

/-- The canonical form of the text of a duration. -/
def canonicalText (s : String) : String :=
  String.ofList (canonicalChars (parts s.toList.dropLast).1 (parts s.toList.dropLast).2)

/-- A text with its unit is read by its parts. -/
theorem parse_eq {s : String} {body : List Char} (h : s.toList = body ++ ['s']) :
    parse s =
      match readWord? (parts body).1 with
      | none => .error (.seconds s)
      | some seconds =>
        if hfraction : isFraction (parts body).2 = true then
          .ok ⟨seconds.val, nanosOf (parts body).2, seconds.property, nanosOf_lt hfraction⟩
        else .error (.fraction s) := by
  have hreverse : s.toList.reverse = 's' :: body.reverse := by rw [h, List.reverse_append]; rfl
  simp only [parse, hreverse, List.reverse_reverse]
  rfl

/-- A text that is read as a duration ends in its unit. -/
theorem toList_of_parse {s : String} {d : Duration} (h : parse s = .ok d) :
    s.toList = s.toList.dropLast ++ ['s'] := by
  unfold parse at h
  split at h
  · rename_i reversed hreverse
    have hlist : s.toList = reversed.reverse ++ ['s'] := by
      rw [← List.reverse_reverse s.toList, hreverse, List.reverse_cons]
    rw [hlist, List.dropLast_concat]
  · cases h

/-! ## Seconds -/

/-- A word is the number behind its sign. -/
theorem readWord?_eq (cs : List Char) :
    readWord? cs =
      match readNat? (unsigned cs) with
      | none => none
      | some n => if h : n < 2 ^ 64 then some ⟨n, h⟩ else none := by
  rfl

theorem unsigned_digits (n : Nat) : unsigned (digits n) = digits n := by
  unfold unsigned
  split
  · rename_i rest hplus
    have hdigit : ('+' : Char).isDigit = true := isDigit_of_mem_digits (n := n) (by simp [hplus])
    exact absurd hdigit (by decide)
  · rfl

theorem readWord?_digits {n : Nat} (h : n < 2 ^ 64) : readWord? (digits n) = some ⟨n, h⟩ := by
  rw [readWord?_eq, unsigned_digits, readNat?_digits]
  simp only [dif_pos h]

theorem digits_of_readWord? {cs : List Char} {n : { n : Nat // n < 2 ^ 64 }}
    (h : readWord? cs = some n) : digits n.val = withoutLeadingZeros (unsigned cs) := by
  rw [readWord?_eq] at h
  split at h
  · cases h
  rename_i k hk
  split at h
  · have hval : n.val = k := by rw [← Option.some.inj h]
    rw [readNat?] at hk
    split at hk
    · cases hk
    · rename_i hdigits
      simp only [Bool.or_eq_true, Bool.not_eq_true', not_or, Bool.not_eq_false,
        List.all_eq_true] at hdigits
      rw [hval, ← Option.some.inj hk, digits_ofDigits hdigits.2]
  · cases h

/-! ## Fractions -/

/-- The digits of a fraction, filled up to nine. -/
theorem fractionDigits_append (n : Nat) (h : n < 10 ^ 9) :
    fractionDigits n ++ List.replicate (9 - (fractionDigits n).length) '0' = digitsPadded 9 n := by
  have happend := withoutTrailingZeros_append (digitsPadded 9 n)
  rw [length_digitsPadded (by decide) h] at happend
  exact happend

theorem isFraction_fractionDigits {n : Nat} (h : n < 10 ^ 9) :
    isFraction (fractionDigits n) = true := by
  have happend := fractionDigits_append n h
  have hlength := congrArg List.length happend
  rw [length_digitsPadded (by decide) h, List.length_append] at hlength
  simp only [isFraction, Bool.and_eq_true, decide_eq_true_eq, List.all_eq_true]
  refine ⟨by omega, fun c hc => ?_⟩
  exact isDigit_of_mem_digitsPadded (happend ▸ List.mem_append_left _ hc)

theorem nanosOf_fractionDigits {n : Nat} (h : n < 10 ^ 9) : nanosOf (fractionDigits n) = n := by
  rw [nanosOf, fractionDigits_append n h, ofDigits_digitsPadded]

/-- The fraction of what a fraction stands for is the fraction without trailing zeros. -/
theorem fractionDigits_nanosOf {ds : List Char} (h : isFraction ds = true) :
    fractionDigits (nanosOf ds) = withoutTrailingZeros ds := by
  simp only [isFraction, Bool.and_eq_true, decide_eq_true_eq, List.all_eq_true] at h
  have hlength : (ds ++ List.replicate (9 - ds.length) '0').length = 9 := by
    rw [List.length_append, List.length_replicate]; omega
  have hne : ds ++ List.replicate (9 - ds.length) '0' ≠ [] := by
    intro hnil; rw [hnil] at hlength; cases hlength
  have hpadded := digitsPadded_ofDigits hne fun c hc => by
    rcases List.mem_append.1 hc with hc | hc
    · exact h.2 c hc
    · rw [List.eq_of_mem_replicate hc]; decide
  rw [hlength] at hpadded
  show withoutTrailingZeros (digitsPadded 9 (nanosOf ds)) = _
  rw [nanosOf, hpadded, withoutTrailingZeros_append_zeros]

theorem fractionDigits_eq_nil {n : Nat} (h : n < 10 ^ 9) : fractionDigits n = [] ↔ n = 0 := by
  constructor
  · intro hnil
    have hvalue := nanosOf_fractionDigits h
    rw [hnil] at hvalue
    exact hvalue.symm
  · rintro rfl; decide

/-! ## Texts -/

/-- The characters of the text of a duration. -/
theorem toList_text (d : Duration) : d.text.toList =
    digits d.seconds ++ (if d.nanos = 0 then [] else '.' :: fractionDigits d.nanos) ++ ['s'] := by
  rw [text, String.toList_ofList]

theorem point_notMem_digits (n : Nat) : '.' ∉ digits n := fun h =>
  absurd (isDigit_of_mem_digits h) (by decide)

/-- **A duration is read back from its text.** -/
theorem parse_text (d : Duration) : parse d.text = .ok d := by
  have hparts : parts (digits d.seconds ++
      (if d.nanos = 0 then [] else '.' :: fractionDigits d.nanos)) =
        (digits d.seconds, fractionDigits d.nanos) := by
    split
    · rename_i hzero
      rw [List.append_nil, parts, splitFirst_eq_none_iff.2 (point_notMem_digits _),
        (fractionDigits_eq_nil d.nanos_lt).2 hzero]
      rfl
    · rw [parts, splitFirst_eq_some_iff.2 ⟨rfl, point_notMem_digits _⟩]
      rfl
  rw [parse_eq (toList_text d), hparts]
  simp only [readWord?_digits d.seconds_lt, isFraction_fractionDigits d.nanos_lt, dite_true,
    nanosOf_fractionDigits d.nanos_lt]

/-- **The text of what is read is the canonical form of the text.** -/
theorem text_of_parse {s : String} {d : Duration} (h : parse s = .ok d) :
    d.text = canonicalText s := by
  rw [parse_eq (toList_of_parse h)] at h
  split at h
  · cases h
  rename_i seconds hseconds
  split at h
  · rename_i hfraction
    have hnanos := nanosOf_lt hfraction
    have hnil := fractionDigits_eq_nil hnanos
    rw [fractionDigits_nanosOf hfraction] at hnil
    cases h
    rw [canonicalText, canonicalChars, ← digits_of_readWord? hseconds, text]
    simp only [hnil, fractionDigits_nanosOf hfraction]
  · cases h

end CompositionFunction.Duration
