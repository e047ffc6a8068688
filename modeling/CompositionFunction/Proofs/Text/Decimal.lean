import CompositionFunction.Text.Decimal

/-!
# Canonical decimal numerals

The digits of a number begin with zero only if there is no other digit, and among the numerals of
a number they are the one without superfluous zeros.

* `digits_ofDigits` : the digits of what some digits stand for are these without leading zeros.
* `digits_head` : the first digit of a positive number is not zero.
* `digitsPadded_ofDigits` : filled up to their count, the digits of what some digits stand for are
  these digits.
-/

set_option autoImplicit false

namespace CompositionFunction.Text

/-- Some digits without the zeros before them; a zero stays if there is nothing else. -/
def withoutLeadingZeros (ds : List Char) : List Char :=
  match ds.dropWhile (· = '0') with
  | [] => ['0']
  | d :: rest => d :: rest

/-! ## Single digits -/

/-- The number that a digit stands for is below ten, and the digit is its only one. -/
theorem digits_of_isDigit {c : Char} (h : c.isDigit = true) :
    c.toNat - '0'.toNat < 10 ∧ digits (c.toNat - '0'.toNat) = [c] := by
  have hrange := Char.isDigit_iff_toNat.1 h
  have hzero : '0'.toNat = 48 := rfl
  have hnine : '9'.toNat = 57 := rfl
  have hlt : c.toNat - '0'.toNat < 10 := by omega
  refine ⟨hlt, ?_⟩
  rw [digits, Nat.toDigits_of_lt_base hlt]
  have hchar : (Nat.digitChar (c.toNat - '0'.toNat)).toNat = c.toNat := by
    rw [Nat.toNat_digitChar_of_lt_ten hlt]; omega
  rw [Char.toNat_inj.1 hchar]

theorem digits_zero : digits 0 = ['0'] := Nat.toDigits_zero 10

/-- Digits after those of a positive number extend it. -/
theorem digits_ofDigitChars {ds : List Char} : ∀ {n : Nat}, 0 < n →
    (∀ c ∈ ds, c.isDigit = true) → digits (Nat.ofDigitChars 10 ds n) = digits n ++ ds := by
  induction ds with
  | nil => intro n _ _; rw [Nat.ofDigitChars_nil, List.append_nil]
  | cons c cs ih =>
    intro n hn hds
    obtain ⟨hlt, hc⟩ := digits_of_isDigit (hds c List.mem_cons_self)
    have happend : digits (10 * n + (c.toNat - '0'.toNat)) = digits n ++ [c] := by
      rw [← hc]; exact (Nat.toDigits_append_toDigits (by decide) hn hlt).symm
    rw [Nat.ofDigitChars_cons, ih (by omega) (fun x hx => hds x (List.mem_cons_of_mem _ hx)),
      happend, List.append_assoc, List.singleton_append]

/-! ## Canonical numerals -/

/-- The digits of what some digits stand for are these without leading zeros. -/
theorem digits_ofDigits {ds : List Char} (hds : ∀ c ∈ ds, c.isDigit = true) :
    digits (ofDigits ds) = withoutLeadingZeros ds := by
  induction ds with
  | nil => exact digits_zero
  | cons c cs ih =>
    have hcs : ∀ x ∈ cs, x.isDigit = true := fun x hx => hds x (List.mem_cons_of_mem _ hx)
    by_cases hzero : c = '0'
    · subst hzero
      have hvalue : ofDigits ('0' :: cs) = ofDigits cs := by
        rw [ofDigits, Nat.ofDigitChars_cons]; rfl
      rw [hvalue, ih hcs, withoutLeadingZeros, withoutLeadingZeros,
        List.dropWhile_cons_of_pos (by simp)]
    · obtain ⟨hlt, hc⟩ := digits_of_isDigit (hds c List.mem_cons_self)
      have hpos : 0 < c.toNat - '0'.toNat := by
        refine Nat.pos_of_ne_zero fun h => hzero ?_
        rw [h, digits_zero] at hc
        exact (List.cons.inj hc).1.symm
      rw [ofDigits, Nat.ofDigitChars_cons, Nat.mul_zero, Nat.zero_add,
        digits_ofDigitChars hpos hcs, hc, withoutLeadingZeros,
        List.dropWhile_cons_of_neg (by simp [hzero])]
      rfl

theorem ofDigits_digits (n : Nat) : ofDigits (digits n) = n :=
  Nat.ofDigitChars_toDigits (by decide) (by decide)

/-- The first digit of a positive number is not zero. -/
theorem digits_head {n : Nat} (h : 0 < n) : ∃ first ds, digits n = first :: ds ∧ first ≠ '0' := by
  have hcanonical : digits n = withoutLeadingZeros (digits n) := by
    rw [← digits_ofDigits fun _ => isDigit_of_mem_digits, ofDigits_digits]
  rw [withoutLeadingZeros] at hcanonical
  split at hcanonical
  · have hn := ofDigits_digits n
    rw [hcanonical] at hn
    exact absurd hn (Nat.ne_of_lt h)
  · rename_i first ds hdrop
    refine ⟨first, ds, hcanonical, fun hzero => ?_⟩
    have hkept := List.head?_dropWhile_not (· = '0') (digits n)
    rw [hdrop, hzero] at hkept
    simp at hkept

/-! ## Zeros on the left and on the right -/

/-- Some digits without the zeros after them. -/
def withoutTrailingZeros (ds : List Char) : List Char := (ds.reverse.dropWhile (· = '0')).reverse

theorem takeWhile_zero (ds : List Char) :
    ds.takeWhile (· = '0') = List.replicate (ds.takeWhile (· = '0')).length '0' := by
  rw [List.eq_replicate_iff]
  refine ⟨rfl, fun c hc => ?_⟩
  have hall := List.all_takeWhile (p := fun c => decide (c = '0')) (l := ds)
  exact of_decide_eq_true (List.all_eq_true.1 hall c hc)

/-- The zeros after some digits are as many as are missing without them. -/
theorem withoutTrailingZeros_append (ds : List Char) :
    withoutTrailingZeros ds ++ List.replicate (ds.length - (withoutTrailingZeros ds).length) '0' =
      ds := by
  have hsplit := List.takeWhile_append_dropWhile (p := fun c => decide (c = '0')) (l := ds.reverse)
  have hlength := congrArg List.length hsplit
  rw [List.length_append, List.length_reverse] at hlength
  rw [withoutTrailingZeros, List.length_reverse,
    show ds.length - (ds.reverse.dropWhile (· = '0')).length =
      (ds.reverse.takeWhile (· = '0')).length by omega,
    ← List.reverse_replicate, ← takeWhile_zero, ← List.reverse_append, hsplit, List.reverse_reverse]

/-- Zeros at the end do not count. -/
theorem withoutTrailingZeros_append_zeros (ds : List Char) (n : Nat) :
    withoutTrailingZeros (ds ++ List.replicate n '0') = withoutTrailingZeros ds := by
  rw [withoutTrailingZeros, List.reverse_append, List.reverse_replicate,
    List.dropWhile_append_of_pos fun c hc => by simp [List.eq_of_mem_replicate hc]]
  rfl

theorem ofDigits_zeros_append (n : Nat) (ds : List Char) :
    ofDigits (List.replicate n '0' ++ ds) = ofDigits ds := by
  rw [ofDigits, Nat.ofDigitChars_append, Nat.ofDigitChars_replicate_zero, Nat.mul_zero]
  rfl

theorem ofDigits_digitsPadded (width n : Nat) : ofDigits (digitsPadded width n) = n := by
  rw [digitsPadded, ofDigits_zeros_append, ofDigits_digits]

theorem length_digitsPadded {width n : Nat} (hwidth : 0 < width) (h : n < 10 ^ width) :
    (digitsPadded width n).length = width := by
  have hle : (digits n).length ≤ width := (Nat.length_toDigits_le_iff (by decide) hwidth).2 h
  rw [digitsPadded, List.length_append, List.length_replicate]
  omega

theorem isDigit_of_mem_digitsPadded {width n : Nat} {c : Char} (h : c ∈ digitsPadded width n) :
    c.isDigit = true := by
  rcases List.mem_append.1 h with h | h
  · rw [List.eq_of_mem_replicate h]; decide
  · exact isDigit_of_mem_digits h

/-- Filled up to their count, the digits of what some digits stand for are these digits. -/
theorem digitsPadded_ofDigits {ds : List Char} (hne : ds ≠ [])
    (hds : ∀ c ∈ ds, c.isDigit = true) : digitsPadded ds.length (ofDigits ds) = ds := by
  have hsplit := List.takeWhile_append_dropWhile (p := fun c => decide (c = '0')) (l := ds)
  have hlength := congrArg List.length hsplit
  rw [List.length_append] at hlength
  rw [digitsPadded, digits_ofDigits hds, withoutLeadingZeros]
  split
  · rename_i hdrop
    rw [hdrop, List.append_nil] at hsplit
    rw [hdrop, List.length_nil, Nat.add_zero] at hlength
    have hpos : 0 < ds.length := List.length_pos_iff.2 hne
    calc List.replicate (ds.length - ['0'].length) '0' ++ ['0']
        = List.replicate ds.length '0' := by
          rw [← List.replicate_succ', List.length_singleton, Nat.sub_add_cancel hpos]
      _ = ds := by rw [← hlength, ← takeWhile_zero, hsplit]
  · rename_i d rest hdrop
    rw [← hdrop, show ds.length - (ds.dropWhile (· = '0')).length =
      (ds.takeWhile (· = '0')).length by omega, ← takeWhile_zero, hsplit]

end CompositionFunction.Text
