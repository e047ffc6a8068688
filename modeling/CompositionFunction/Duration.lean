import CompositionFunction.Text.Decimal
import CompositionFunction.Text.Quoted
import CompositionFunction.Text.Split

/-!
# Durations

A duration is a whole number of seconds below `2 ^ 64` and a number of nanoseconds below `10 ^ 9`.
Its text is the seconds, the fraction without trailing zeros, and the unit: `60s`, `1.5s`,
`0.000000001s`. Reading also accepts a leading plus sign, leading zeros, and any fraction of up to
nine digits, trailing zeros and the empty one included.

`Duration.text` is `format_duration` of the program, and `Duration.parse` is `parse_duration`.
-/

set_option autoImplicit false

namespace CompositionFunction

/-- A length of time to the nanosecond. -/
structure Duration where
  /-- Whole seconds. -/
  seconds : Nat
  /-- Nanoseconds on top of the whole seconds. -/
  nanos : Nat
  seconds_lt : seconds < 2 ^ 64
  nanos_lt : nanos < 10 ^ 9
deriving DecidableEq, Repr

namespace Duration

open Text

/-- A whole number of seconds. -/
def ofSeconds (n : Nat) (h : n < 2 ^ 64) : Duration := ⟨n, 0, h, by decide⟩

/-- The digits of the fraction, without trailing zeros. -/
def fractionDigits (nanos : Nat) : List Char :=
  ((digitsPadded 9 nanos).reverse.dropWhile (· = '0')).reverse

/-- The text of a duration. -/
def text (d : Duration) : String :=
  let fraction := if d.nanos = 0 then [] else '.' :: fractionDigits d.nanos
  String.ofList (digits d.seconds ++ fraction ++ ['s'])

/-- Why a text is no duration. -/
inductive Error where
  /-- The text does not end in the unit. -/
  | unit (text : String)
  /-- What stands before the point is not a number of seconds. -/
  | seconds (text : String)
  /-- What stands after the point is not a fraction of at most nine digits. -/
  | fraction (text : String)
deriving DecidableEq, Repr

/-- The wording of the refusal. -/
def Error.message : Error → String
  | .unit s => "duration " ++ quoted s ++ " must end in 's'"
  | .seconds s => "invalid seconds in duration " ++ quoted s
  | .fraction s => "invalid fractional seconds in duration " ++ quoted s

/-- A fraction of at most nine digits. -/
def isFraction (ds : List Char) : Bool := ds.length ≤ 9 && ds.all Char.isDigit

/-- The nanoseconds of a fraction, which is filled up with zeros on the right. -/
def nanosOf (ds : List Char) : Nat := ofDigits (ds ++ List.replicate (9 - ds.length) '0')

theorem ofDigitChars_lt {ds : List Char} (h : ∀ c ∈ ds, c.isDigit = true) (acc : Nat) :
    Nat.ofDigitChars 10 ds acc < (acc + 1) * 10 ^ ds.length := by
  induction ds generalizing acc with
  | nil => simp
  | cons c cs ih =>
    have hc := h c (by simp)
    have hdigit : c.toNat - '0'.toNat ≤ 9 := by
      have hle := (Char.isDigit_iff_toNat.1 hc).2
      have hnine : '9'.toNat = 57 := rfl
      have hzero : '0'.toNat = 48 := rfl
      omega
    have ih' := ih (fun x hx => h x (List.mem_cons_of_mem _ hx)) (10 * acc + (c.toNat - '0'.toNat))
    rw [Nat.ofDigitChars_cons]
    calc Nat.ofDigitChars 10 cs (10 * acc + (c.toNat - '0'.toNat))
        < (10 * acc + (c.toNat - '0'.toNat) + 1) * 10 ^ cs.length := ih'
      _ ≤ ((acc + 1) * 10) * 10 ^ cs.length := Nat.mul_le_mul_right _ (by omega)
      _ = (acc + 1) * 10 ^ (c :: cs).length := by rw [List.length_cons, Nat.pow_succ']; ac_rfl

/-- A fraction stands for less than a second. -/
theorem nanosOf_lt {ds : List Char} (h : isFraction ds = true) : nanosOf ds < 10 ^ 9 := by
  simp only [isFraction, Bool.and_eq_true, decide_eq_true_eq, List.all_eq_true] at h
  have hdigits : ∀ c ∈ ds ++ List.replicate (9 - ds.length) '0', c.isDigit = true := by
    intro c hc
    rcases List.mem_append.1 hc with hc | hc
    · exact h.2 c hc
    · rw [List.eq_of_mem_replicate hc]; decide
  have := ofDigitChars_lt hdigits 0
  have hlen : (ds ++ List.replicate (9 - ds.length) '0').length = 9 := by simp; omega
  rw [hlen] at this
  simpa [nanosOf, ofDigits] using this

/-- Reads the text of a duration. -/
def parse (s : String) : Except Error Duration :=
  match s.toList.reverse with
  | 's' :: reversed =>
    let (whole, fraction) := (splitFirst '.' reversed.reverse).getD (reversed.reverse, [])
    match readWord? whole with
    | none => .error (.seconds s)
    | some seconds =>
      if h : isFraction fraction = true then
        .ok ⟨seconds.val, nanosOf fraction, seconds.property, nanosOf_lt h⟩
      else .error (.fraction s)
  | _ => .error (.unit s)

end Duration

end CompositionFunction
