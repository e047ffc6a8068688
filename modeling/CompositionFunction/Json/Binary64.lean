import CompositionFunction.Text.Decimal

/-!
# Binary floating point of 64 bits

A finite magnitude is a significand below `2 ^ 53` times a power of two, in the one normal form
that the format has for it. Products and quotients are exact ratios rounded to the nearest
magnitude, of two equally near ones to the even significand.
-/

set_option autoImplicit false

namespace CompositionFunction.Json

/-- The normal form: the significand has its top bit set unless the exponent is the least one. -/
def IsNormal (significand : Nat) (exponent : Int) : Prop :=
  significand < 2 ^ 53 ∧ -1074 ≤ exponent ∧ exponent ≤ 971 ∧
    (2 ^ 52 ≤ significand ∨ exponent = -1074)

instance (significand : Nat) (exponent : Int) : Decidable (IsNormal significand exponent) :=
  inferInstanceAs (Decidable (_ ∧ _))

/-- The magnitude `significand * 2 ^ exponent`. -/
structure Magnitude where
  significand : Nat
  exponent : Int
  normal : IsNormal significand exponent
deriving DecidableEq, Repr

/-- A finite number of the format; there are two zeros. -/
structure Binary64 where
  negative : Bool
  magnitude : Magnitude
deriving DecidableEq, Repr

/-- A quotient rounded to the nearest integer, a half to the even one. -/
def roundQuotient (num den : Nat) : Nat :=
  let q := num / den
  let twice := 2 * (num % den)
  if twice < den then q
  else if den < twice then q + 1
  else if q % 2 = 0 then q else q + 1

namespace Magnitude

/-- Zero. -/
def zero : Magnitude := ⟨0, -1074, by decide⟩

/-- The magnitude with these parts, if it is one of the format. -/
def ofParts? (significand : Nat) (exponent : Int) : Option Magnitude :=
  if h : IsNormal significand exponent then some ⟨significand, exponent, h⟩ else none

/-- The magnitude nearest to a ratio; there is none beyond the greatest one. -/
def nearest? (num den : Nat) : Option Magnitude :=
  if num = 0 then some zero
  else
    let guess : Int := (num.log2 : Int) - den.log2
    let isBelow := num * 2 ^ (-guess).toNat < den * 2 ^ guess.toNat
    let top := if isBelow then guess - 1 else guess
    let exponent := max (-1074) (top - 52)
    let significand := roundQuotient (num * 2 ^ (-exponent).toNat) (den * 2 ^ exponent.toNat)
    if significand = 2 ^ 53 then ofParts? (2 ^ 52) (exponent + 1)
    else ofParts? significand exponent

/-- The numerator of the magnitude as a ratio. -/
def numerator (m : Magnitude) : Nat := m.significand * 2 ^ m.exponent.toNat

/-- The denominator of the magnitude as a ratio. -/
def denominator (m : Magnitude) : Nat := 2 ^ (-m.exponent).toNat

/-- The rounded product. -/
def mul? (a b : Magnitude) : Option Magnitude :=
  nearest? (a.numerator * b.numerator) (a.denominator * b.denominator)

/-- The rounded quotient. -/
def div? (a b : Magnitude) : Option Magnitude :=
  nearest? (a.numerator * b.denominator) (a.denominator * b.numerator)

/-- The magnitude nearest to a power of ten. -/
def pow10? (n : Nat) : Option Magnitude := nearest? (10 ^ n) 1

/-- Scales by a power of ten in steps of at most `10 ^ 308`, each of which is rounded. -/
def scale? (m : Magnitude) (exponent : Int) : Option Magnitude :=
  if exponent.natAbs ≤ 308 then do
    let power ← pow10? exponent.natAbs
    if 0 ≤ exponent then m.mul? power else m.div? power
  else if m = zero then some m
  else if 0 < exponent then none
  else do
    let smaller ← m.div? (← pow10? 308)
    smaller.scale? (exponent + 308)
termination_by exponent.natAbs

end Magnitude

end CompositionFunction.Json
