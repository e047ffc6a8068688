/-!
# Decimal numerals

Natural numbers as ASCII decimal digits. Reading accepts leading zeros; a 64-bit word may also be
written with one leading plus sign.

* `readNat?_digits` : the digits of a number read back as the number.
-/

set_option autoImplicit false

-- Powers of numbers are those of the core library, also where a general `^` is in scope.
attribute [instance (high), default_instance (high)] instPowNat

namespace CompositionFunction.Text

/-- The decimal digits of a number, without leading zeros. -/
def digits (n : Nat) : List Char := Nat.toDigits 10 n

/-- The number that some decimal digits stand for. -/
def ofDigits (ds : List Char) : Nat := Nat.ofDigitChars 10 ds 0

/-- Reads a number written with at least one digit and nothing else. -/
def readNat? (cs : List Char) : Option Nat :=
  if cs.isEmpty || !cs.all Char.isDigit then none else some (ofDigits cs)

/-- Reads a number below `2 ^ 64`, which may have one leading plus sign. -/
def readWord? (cs : List Char) : Option { n : Nat // n < 2 ^ 64 } :=
  let unsigned := match cs with
    | '+' :: rest => rest
    | _ => cs
  match readNat? unsigned with
  | none => none
  | some n => if h : n < 2 ^ 64 then some ⟨n, h⟩ else none

/-- The digits of a number, filled up with zeros on the left to a given count. -/
def digitsPadded (width n : Nat) : List Char :=
  List.replicate (width - (digits n).length) '0' ++ digits n

theorem isDigit_of_mem_digits {n : Nat} {c : Char} (h : c ∈ digits n) : c.isDigit = true :=
  Nat.isDigit_of_mem_toDigits (by decide) (by decide) h

theorem digits_ne_nil (n : Nat) : digits n ≠ [] := Nat.toDigits_ne_nil

/-- The digits of a number read back as the number. -/
@[simp] theorem readNat?_digits (n : Nat) : readNat? (digits n) = some n := by
  have hall : (digits n).all Char.isDigit = true :=
    List.all_eq_true.2 fun _ => isDigit_of_mem_digits
  have hne : (digits n).isEmpty = false := by simp [digits_ne_nil]
  have hval : ofDigits (digits n) = n := Nat.ofDigitChars_toDigits (by decide) (by decide)
  simp [readNat?, hall, hne, hval]

end CompositionFunction.Text
