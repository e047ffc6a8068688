import CompositionFunction.Toml.Scalar
import CompositionFunction.Proofs.Text.Decimal
import CompositionFunction.Proofs.Toml.Reader

/-!
# Numbers and truth values in TOML

Digits without superfluous zeros are read as their number, and the words for truth values as these,
wherever the text does not go on with the same scalar. The other scalars are tried first, so it also
has to be seen that none of them begins like a number: a date and a time need a mark behind their
first digits, a floating-point number a point or an exponent.

* `continuesNumber` : what may stand behind the digits of a number.
* `PlainValue` : a number or a truth value as it is written.
* `scalar_plain` : a plain value is read back.
-/

set_option autoImplicit false

namespace CompositionFunction.Toml

open Reader Text

/-- A character that may stand behind the first digits of a number, a date or a time. -/
def continuesNumber (c : Char) : Bool :=
  c.isAlphanum || c = '_' || c = '.' || c = ':' || c = '-'

section Digits

variable {cs ds rest : List Char} {c : Char}

theorem continuesNumber_of_isDigit {c : Char} (h : c.isDigit = true) :
    continuesNumber c = true := by
  simp [continuesNumber, Char.isAlphanum, h]

/-- A number does not begin with a character that is no digit. -/
theorem ends_digits (hc : c.isDigit = false) (n : Nat) (rest : List Char) :
    Ends (· = c) (digits n ++ rest) :=
  (apart_mark hc).ends (digits_ne_nil n) (fun _ => isDigit_of_mem_digits) rest

/-! ## What a number is not -/

theorem longString_of_ends {part : Reader (List Char)} (h : Ends (· = c) cs) :
    longString c part cs = none := bind_of_none (word_of_ends h)

theorem basicString_of_ends (h : Ends (· = '"') cs) : basicString cs = none :=
  bind_of_none (char_of_ends h)

theorem literalString_of_ends (h : Ends (· = '\'') cs) : literalString cs = none :=
  bind_of_none (char_of_ends h)

theorem anyString_of_ends (hdouble : Ends (· = '"') cs) (hsingle : Ends (· = '\'') cs) :
    anyString cs = none := by
  rw [anyString, orElse_of_none (longString_of_ends hdouble),
    orElse_of_none (basicString_of_ends hdouble), orElse_of_none (longString_of_ends hsingle)]
  exact literalString_of_ends hsingle

/-- Of a run of digits exactly so many are taken, and the others are left. -/
theorem rest_of_exactly {n : Nat} : ∀ {ds taken left : List Char}, (∀ d ∈ ds, d.isDigit = true) →
    Ends Char.isDigit rest → exactly Char.isDigit n (ds ++ rest) = some (taken, left) →
      ∃ more, (∀ d ∈ more, d.isDigit = true) ∧ left = more ++ rest := by
  induction n with
  | zero =>
    intro ds taken left hds _ h
    cases h
    exact ⟨ds, hds, rfl⟩
  | succ n ih =>
    intro ds taken left hds hrest h
    cases ds with
    | nil =>
      rw [List.nil_append, exactly, bind_of_none (satisfy_of_ends hrest)] at h
      cases h
    | cons d ds =>
      rw [List.cons_append, exactly, bind_of_some (satisfy_cons (hds d List.mem_cons_self) _)] at h
      cases hmore : exactly Char.isDigit n (ds ++ rest) with
      | none => rw [bind_of_none hmore] at h; cases h
      | some r =>
        rw [bind_of_some hmore] at h
        cases h
        exact ih (fun x hx => hds x (List.mem_cons_of_mem _ hx)) hrest hmore

/-- A field of digits is not followed by a mark if the digits are not. -/
theorem field_char_eq_none {β : Type} {width least greatest : Nat} {k : Nat → Char → Reader β}
    (hc : c.isDigit = false) (hds : ∀ d ∈ ds, d.isDigit = true) (hrest : Ends Char.isDigit rest)
    (hmark : Ends (· = c) rest) :
    (field width least greatest >>= fun n => char c >>= k n) (ds ++ rest) = none := by
  rw [field, bind_assoc]
  cases htaken : exactly Char.isDigit width (ds ++ rest) with
  | none => exact bind_of_none htaken
  | some r =>
    obtain ⟨more, hmore, hleft⟩ := rest_of_exactly hds hrest htaken
    rw [bind_of_some htaken, bind_assoc]
    cases hrequire : require
        (decide (least ≤ ofDigits r.1) && decide (ofDigits r.1 ≤ greatest)) r.2 with
    | none => exact bind_of_none hrequire
    | some s =>
      have hsame : s.2 = r.2 := by
        unfold require at hrequire
        split at hrequire
        · cases hrequire; rfl
        · cases hrequire
      rw [bind_of_some hrequire, pure_bind, hsame, hleft]
      exact bind_of_none (char_of_ends (hmark.behind (apart_mark hc) hmore))

end Digits

/-! ## Numbers -/

section Number

variable {n : Nat} {rest : List Char} (hrest : Ends continuesNumber rest)

theorem sign_digits (n : Nat) (rest : List Char) :
    sign (digits n ++ rest) = some (false, digits n ++ rest) := by
  have hnone : (char '+' <|> char '-') (digits n ++ rest) = none := by
    rw [orElse_of_none (char_of_ends (ends_digits (by decide) n rest))]
    exact char_of_ends (ends_digits (by decide) n rest)
  rw [sign, bind_of_some (optional?_of_none hnone)]
  rfl

theorem specialFloat_digits (n : Nat) (rest : List Char) :
    specialFloat (digits n ++ rest) = none := by
  rw [specialFloat, bind_of_some (sign_digits n rest),
    orElse_of_none (word_of_ends (ends_digits (by decide) n rest))]
  exact word_of_ends (ends_digits (by decide) n rest)

include hrest

theorem digitGroups_run {ds : List Char} (hne : ds ≠ []) (hds : ∀ d ∈ ds, d.isDigit = true) :
    digitGroups Char.isDigit (ds ++ rest) = some (ds, rest) := by
  cases ds with
  | nil => exact absurd rfl hne
  | cons d ds =>
    have hstop : (satisfy Char.isDigit <|> (do let _ ← char '_'; satisfy Char.isDigit)) rest =
        none := by
      rw [orElse_of_none (satisfy_of_ends (hrest.of_imp fun _ => continuesNumber_of_isDigit))]
      exact bind_of_none (char_of_ends (hrest.mark (by decide)))
    rw [digitGroups, List.cons_append, bind_of_some (satisfy_cons (hds d List.mem_cons_self) _),
      bind_of_some (many_of_takes (takes_run (fun c hc cs =>
        orElse_of_some (satisfy_cons (hds c (List.mem_cons_of_mem _ hc)) cs)) hstop))]
    rfl

/-- The digits of a number are taken to their end. -/
theorem decimalDigits_digits (n : Nat) :
    decimalDigits (digits n ++ rest) = some (digits n, rest) := by
  rcases Nat.eq_zero_or_pos n with rfl | hn
  · rw [digits_zero]
    exact orElse_of_some (bind_of_some (char_cons '0' rest))
  · obtain ⟨first, ds, hdigits, hzero⟩ := digits_head hn
    have hchar : char '0' (digits n ++ rest) = none := by
      rw [hdigits]
      exact char_of_ends (ends_cons.2 (decide_eq_false hzero))
    rw [decimalDigits, orElse_of_none (bind_of_none hchar)]
    exact digitGroups_run hrest (digits_ne_nil n) fun _ => isDigit_of_mem_digits

/-- Digits without superfluous zeros do not go on like the mark of another base. -/
theorem markedInteger_digits (n : Nat) {mark : Char} (hmark : continuesNumber mark = true)
    (base : Nat) (isDigit : Char → Bool) :
    markedInteger ['0', mark] base isDigit (digits n ++ rest) = none := by
  refine bind_of_none ?_
  rcases Nat.eq_zero_or_pos n with rfl | hn
  · refine if_neg fun hprefix => ?_
    obtain ⟨more, hmore⟩ := List.isPrefixOf_iff_prefix.1 hprefix
    have htail : mark :: more = rest := (List.cons.inj hmore).2
    have hends := hrest mark (htail ▸ rfl)
    rw [hmark] at hends
    cases hends
  · obtain ⟨first, ds, hdigits, hzero⟩ := digits_head hn
    rw [hdigits]
    exact word_of_ends (ends_cons.2 (decide_eq_false hzero))

theorem decimalInteger_digits (n : Nat) :
    decimalInteger (digits n ++ rest) = some ((n : Int), rest) := by
  rw [decimalInteger, bind_of_some (sign_digits n rest),
    bind_of_some (decimalDigits_digits hrest n), ofDigits_digits]
  rfl

theorem integer_digits (h : n < 2 ^ 63) :
    integer (digits n ++ rest) = some ((n : Int), rest) := by
  have hrange : (decide (-2 ^ 63 ≤ (n : Int)) && decide ((n : Int) < 2 ^ 63)) = true := by
    simp only [Bool.and_eq_true, decide_eq_true_eq]
    omega
  have hdecimal : (markedInteger ['0', 'x'] 16 isHexDigit <|>
      markedInteger ['0', 'o'] 8 (fun c => '0' ≤ c && c ≤ '7') <|>
      markedInteger ['0', 'b'] 2 (fun c => c = '0' || c = '1') <|> decimalInteger)
        (digits n ++ rest) = some ((n : Int), rest) := by
    rw [orElse_of_none (markedInteger_digits hrest n (by decide) _ _),
      orElse_of_none (markedInteger_digits hrest n (by decide) _ _),
      orElse_of_none (markedInteger_digits hrest n (by decide) _ _)]
    exact decimalInteger_digits hrest n
  rw [integer, bind_of_some hdecimal, bind_of_some (require_of_true hrange _)]
  rfl

theorem float_digits (n : Nat) : float (digits n ++ rest) = none := by
  have hexponent : exponent rest = none := by
    refine bind_of_none ?_
    rw [orElse_of_none (char_of_ends (hrest.mark (by decide)))]
    exact char_of_ends (hrest.mark (by decide))
  have hfraction : fraction rest = none := bind_of_none (char_of_ends (hrest.mark (by decide)))
  rw [float, bind_of_some (sign_digits n rest), bind_of_some (decimalDigits_digits hrest n)]
  refine bind_of_none ?_
  rw [orElse_of_none (bind_of_none hexponent)]
  exact bind_of_none hfraction

theorem dateTime_digits (n : Nat) : dateTime (digits n ++ rest) = none := by
  have hdigits : ∀ d ∈ digits n, d.isDigit = true := fun _ => isDigit_of_mem_digits
  have hends : Ends Char.isDigit rest := hrest.of_imp fun _ => continuesNumber_of_isDigit
  have hdate : date (digits n ++ rest) = none :=
    field_char_eq_none (by decide) hdigits hends (hrest.mark (by decide))
  rw [dateTime, orElse_of_none (bind_of_none hdate)]
  exact field_char_eq_none (by decide) hdigits hends (hrest.mark (by decide))

/-- **A number below `2 ^ 63` is read back from its digits.** -/
theorem scalar_digits (h : n < 2 ^ 63) :
    scalar (digits n ++ rest) = some (.integer n, rest) := by
  have hstring : anyString (digits n ++ rest) = none :=
    anyString_of_ends (ends_digits (by decide) n rest) (ends_digits (by decide) n rest)
  rw [scalar, orElse_of_none (map_of_none hstring),
    orElse_of_none (bind_of_none (dateTime_digits hrest n)),
    orElse_of_none (bind_of_none (float_digits hrest n)),
    orElse_of_none (bind_of_none (specialFloat_digits n rest)),
    orElse_of_some (map_of_some (integer_digits hrest h))]

end Number

/-! ## Plain values -/

/-- A number that fits into the integers of TOML, or a truth value. -/
inductive PlainValue where
  | count (n : Nat) (lt : n < 2 ^ 63)
  | truth (b : Bool)

namespace PlainValue

/-- The value as it is written. -/
def text : PlainValue → List Char
  | count n _ => digits n
  | truth b => if b then ['t', 'r', 'u', 'e'] else ['f', 'a', 'l', 's', 'e']

/-- The value as it is read. -/
def item : PlainValue → Item
  | count n _ => .integer n
  | truth b => .bool b

end PlainValue

/-- **A plain value is read back** where the text does not go on with a number. -/
theorem scalar_plain (v : PlainValue) {rest : List Char} (hrest : Ends continuesNumber rest) :
    scalar (v.text ++ rest) = some (v.item, rest) := by
  cases v with
  | count n lt => exact scalar_digits hrest lt
  | truth b => cases b <;> rfl

end CompositionFunction.Toml
