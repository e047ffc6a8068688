import CompositionFunction.Json.Binary64.Shortest

/-!
# Numbers of JSON

A number is an integer that fits a signed or an unsigned 64-bit word, or a floating-point number.
A numeral without point and exponent is read as an integer if it fits; negative zero and all other
numerals are floating-point numbers.
-/

set_option autoImplicit false

namespace CompositionFunction.Json

open Text

/-- A number: an integer of 64 bits, signed or unsigned, or a floating-point number. -/
inductive Number where
  | int (value : Int) (least : -2 ^ 63 ≤ value) (greatest : value < 2 ^ 64)
  | float (value : Binary64)
deriving DecidableEq, Repr

/-- Numbers have exponents from the sixth place behind the point and from `10 ^ 16` on. -/
def numberLayout : DecimalLayout := ⟨-5, 15⟩

/-- The decimal text of an integer. -/
def intDigits (i : Int) : List Char :=
  (if i < 0 then ['-'] else []) ++ digits i.natAbs

/-- The text of a number. -/
def Number.write : Number → List Char
  | .int i _ _ => intDigits i
  | .float x => x.write numberLayout

/-- A number as it is written: sign, whole part, fraction, and exponent with its sign. Without a
point the fraction is empty. -/
structure Numeral where
  negative : Bool
  whole : List Char
  fraction : List Char
  exponent : Option (Bool × List Char)
deriving DecidableEq, Repr

namespace Numeral

/-- The number that one decimal digit stands for. -/
def digitValue (c : Char) : Nat := c.toNat - '0'.toNat

/-- The leading digits that fit a 64-bit word, and how many whole digits follow them. -/
def gatherWhole (word : Nat) : List Char → Nat × Nat
  | [] => (word, 0)
  | c :: cs =>
    let next := word * 10 + digitValue c
    if next < 2 ^ 64 then gatherWhole next cs else (word, cs.length + 1)

/-- The word extended by the fraction digits that fit, and how many did. -/
def gatherFraction (word taken : Nat) : List Char → Nat × Nat
  | [] => (word, taken)
  | c :: cs =>
    let next := word * 10 + digitValue c
    if next < 2 ^ 64 then gatherFraction next (taken + 1) cs else (word, taken)

/-- The exponent as written. -/
def exponentValue (n : Numeral) : Int :=
  match n.exponent with
  | none => 0
  | some (negative, ds) => if negative then -(ofDigits ds : Int) else ofDigits ds

/-- The numeral as a floating-point number, from the digits that fit a word. -/
def toFloat? (n : Numeral) : Option Binary64 := do
  let (wholeWord, dropped) := gatherWhole 0 n.whole
  let (word, taken) := gatherFraction wholeWord 0 n.fraction
  let significand ← Magnitude.nearest? word 1
  let magnitude ← significand.scale? ((dropped : Int) - taken + n.exponentValue)
  some ⟨n.negative, magnitude⟩

/-- The numeral as an integer, if it is one that fits and not negative zero. -/
def toInt? (n : Numeral) : Option Number :=
  if n.fraction.isEmpty && n.exponent.isNone then
    let magnitude := ofDigits n.whole
    if n.negative then
      if h : 0 < magnitude ∧ magnitude ≤ 2 ^ 63 then
        some (.int (-magnitude) (by omega) (by omega))
      else none
    else if h : magnitude < 2 ^ 64 then some (.int magnitude (by omega) (by omega))
    else none
  else none

/-- The number that a numeral stands for, unless it is out of range. -/
def value? (n : Numeral) : Option Number :=
  match n.toInt? with
  | some number => some number
  | none => n.toFloat?.map .float

end Numeral

end CompositionFunction.Json
