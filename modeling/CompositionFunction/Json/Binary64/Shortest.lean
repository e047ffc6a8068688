import CompositionFunction.Json.Binary64
import CompositionFunction.Text.Decimal

/-!
# The shortest decimal of a floating-point number

A magnitude is written with the fewest digits that are nearer to it than to any other magnitude.
The decimals with an exponent `p` form a grid; the coarsest grid with a point among the numbers
that round to the magnitude has the fewest digits, and of its points one of the two neighbours of
the magnitude is the nearest.
-/

set_option autoImplicit false

namespace CompositionFunction.Json

/-- The decimal `digits * 10 ^ exponent`. -/
structure ShortDecimal where
  digits : Nat
  exponent : Int
deriving DecidableEq, Repr

namespace Magnitude

/-- Four times the distance to the lower end of the numbers that round to the magnitude, in units
of its last bit: below a power of two the next magnitude is nearer. -/
def lowerReach (m : Magnitude) : Nat :=
  if m.significand = 2 ^ 52 ∧ -1074 < m.exponent then 1 else 2

/-- Whether the ratio rounds to the magnitude; an end of the range does for an even significand. -/
def attracts (m : Magnitude) (num den : Nat) : Bool :=
  let value := 4 * num * m.denominator
  let bit := den * 2 ^ m.exponent.toNat
  let lower := bit * (4 * m.significand - m.lowerReach)
  let upper := bit * (4 * m.significand + 2)
  if m.significand % 2 = 0 then lower ≤ value && value ≤ upper
  else lower < value && value < upper

/-- The point of the grid of an exponent that is nearest to the magnitude among its neighbours
that round to it. -/
def gridPoint? (m : Magnitude) (p : Int) : Option Nat :=
  let up := 10 ^ p.toNat
  let down := 10 ^ (-p).toNat
  let num := m.numerator * down
  let den := m.denominator * up
  let below := num / den
  let rest := num % den
  let hasBelow := m.attracts (below * up) down
  let hasAbove := m.attracts ((below + 1) * up) down
  if hasBelow && hasAbove then some (roundQuotient num den)
  else if hasBelow then some below
  else if hasAbove && rest ≠ 0 then some (below + 1)
  else none

/-- The coarsest grid with a point, among so many grids from an exponent downwards. -/
def coarsest (m : Magnitude) (p : Int) : Nat → ShortDecimal
  | 0 => ⟨0, 0⟩
  | count + 1 =>
    match m.gridPoint? p with
    | some digits => ⟨digits, p⟩
    | none => m.coarsest (p - 1) count

/-- The shortest decimal of the magnitude. The search begins above its leading digit and ends
where a grid is finer than the format. -/
def shortest (m : Magnitude) : ShortDecimal :=
  if m.significand = 0 then ⟨0, 0⟩
  else
    let bits : Int := m.exponent + m.significand.log2 + 1
    m.coarsest (bits * 30103 / 100000 + 1) 24

end Magnitude

/-- How a decimal is laid out: from the least to the greatest exponent of the first digit in
positional notation, beyond that with an exponent. -/
structure DecimalLayout where
  leastPositional : Int
  greatestPositional : Int

open Text

/-- The digits of a decimal with a point or an exponent, so that it does not look like an
integer or stands with its exponent. -/
def DecimalLayout.write (layout : DecimalLayout) (d : ShortDecimal) : List Char :=
  let ds := digits d.digits
  let first : Int := (ds.length : Int) - 1 + d.exponent
  if first < layout.leastPositional || layout.greatestPositional < first then
    let fraction := ds.drop 1
    let point := if fraction.isEmpty then [] else '.' :: fraction
    let sign := if first < 0 then '-' else '+'
    ds.take 1 ++ point ++ ['e', sign] ++ digits first.natAbs
  else if 0 ≤ d.exponent then ds ++ List.replicate d.exponent.toNat '0' ++ ['.', '0']
  else if 0 ≤ first then ds.take (first.toNat + 1) ++ '.' :: ds.drop (first.toNat + 1)
  else ['0', '.'] ++ List.replicate (first.natAbs - 1) '0' ++ ds

/-- The text of a number in a layout. -/
def Binary64.write (layout : DecimalLayout) (x : Binary64) : List Char :=
  (if x.negative then ['-'] else []) ++ layout.write x.magnitude.shortest

end CompositionFunction.Json
