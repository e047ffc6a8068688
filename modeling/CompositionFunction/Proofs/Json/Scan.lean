import CompositionFunction.Json.Document
import CompositionFunction.Json.Token
import CompositionFunction.Proofs.Text.Decimal

/-!
# The tokens of a written document

A document is cut into the tokens that it was written from, in either layout: blanks leave no token,
an escaped string is read as the string, and the digits of an integer are read as the integer. Only
a floating-point number may be read as another one; a number is stable if it is read from its text.

* `scan_eq` : scanning, as a recursion over the text that is left.
* `Number.isStable` : a number is read back from its own text.
* `tokensFrom_append` : the tokens of one text after another.
* `tokensFrom_write` : a written document yields its tokens, whatever may follow it.
-/

set_option autoImplicit false

namespace CompositionFunction.Json

open Text

/-! ## Scanning as a recursion over the text -/

/-- The tokens of the text that is left in a state of the scanner. -/
def Scanning.tokensFrom : Scanning → List Char → List Token
  | state, [] => state.final
  | state, c :: cs => (state.step c).1 ++ (state.step c).2.tokensFrom cs

open Scanning

/-- The tokens that scanning ends with. -/
def Scanned.finish (s : Scanned) : List Token := s.tokens.reverse ++ s.state.final

theorem finish_foldl (cs : List Char) : ∀ (tokens : List Token) (state : Scanning),
    (cs.foldl Scanned.step ⟨tokens, state⟩).finish = tokens.reverse ++ state.tokensFrom cs := by
  induction cs with
  | nil => intro tokens state; rfl
  | cons c cs ih =>
    intro tokens state
    have hstep : Scanned.step ⟨tokens, state⟩ c =
        ⟨(state.step c).1.reverse ++ tokens, (state.step c).2⟩ := rfl
    rw [List.foldl_cons, hstep, ih, List.reverse_append, List.reverse_reverse, List.append_assoc]
    rfl

/-- Scanning is the recursion from the state between two tokens. -/
theorem scan_eq (cs : List Char) : scan cs = between.tokensFrom cs :=
  (finish_foldl cs [] between).trans (List.nil_append _)

/-! ## Strings -/

/-- A string read so far without fault. -/
def Spelling.sound (before : List Char) : Spelling := ⟨before, none, true⟩

/-- A code unit below the surrogates is its character. -/
theorem pushUnit_sound (before : List Char) {unit : Nat} (h : unit < 0xd800) :
    (Spelling.sound before).pushUnit unit = .sound (Char.ofNat unit :: before) := by
  have hhigh : (decide (0xd800 ≤ unit) && decide (unit < 0xdc00)) = false := by
    simp; omega
  have hlow : (decide (0xdc00 ≤ unit) && decide (unit < 0xe000)) = false := by
    simp; omega
  rw [Spelling.pushUnit, hhigh, hlow]
  rfl

theorem controlDigits_ofNat : ∀ n : Fin 32, Document.controlDigits (Char.ofNat n) =
    ['0', '0', Nat.digitChar (n / 16), Nat.digitChar (n % 16)] := by
  decide +kernel

theorem hexValue?_digitChar : ∀ d : Fin 16, hexValue? (Nat.digitChar d) = some d.val := by
  decide

theorem tokensFrom_unit (s : Spelling) (due code : Nat) {c : Char} {v : Nat}
    (h : hexValue? c = some v) (rest : List Char) :
    (unit s (due + 2) code).tokensFrom (c :: rest) =
      (unit s (due + 1) (code * 16 + v)).tokensFrom rest := by
  have hdue : ¬ due + 2 ≤ 1 := by omega
  simp only [tokensFrom, step, h, if_neg hdue]
  rfl

theorem tokensFrom_lastUnit (s : Spelling) (code : Nat) {c : Char} {v : Nat}
    (h : hexValue? c = some v) (rest : List Char) :
    (unit s 1 code).tokensFrom (c :: rest) =
      (string (s.pushUnit (code * 16 + v))).tokensFrom rest := by
  simp only [tokensFrom, step, h, if_pos (Nat.le_refl 1)]
  rfl

/-- A control character is read back from its four digits. -/
theorem tokensFrom_controlDigits (before : List Char) {c : Char} (h : c.toNat < 32)
    (rest : List Char) :
    (unit (.sound before) 4 0).tokensFrom (Document.controlDigits c ++ rest) =
      (string (.sound (c :: before))).tokensFrom rest := by
  have hdigits := controlDigits_ofNat ⟨c.toNat, h⟩
  have hhigh := hexValue?_digitChar ⟨c.toNat / 16, by omega⟩
  have hlow := hexValue?_digitChar ⟨c.toNat % 16, by omega⟩
  have hzero : hexValue? '0' = some 0 := rfl
  simp only [Char.ofNat_toNat] at hdigits hhigh hlow
  have hcode : ((0 * 16 + 0) * 16 + 0) * 16 + c.toNat / 16 = c.toNat / 16 := by omega
  have hvalue : c.toNat / 16 * 16 + c.toNat % 16 = c.toNat := by omega
  rw [hdigits]
  simp only [List.cons_append, List.nil_append]
  rw [tokensFrom_unit _ 2 0 hzero, tokensFrom_unit _ 1 _ hzero, tokensFrom_unit _ 0 _ hhigh, hcode,
    tokensFrom_lastUnit _ _ hlow, hvalue, pushUnit_sound before (by omega), Char.ofNat_toNat]

/-- The escaped form of a character is read as the character. -/
theorem tokensFrom_escapeChar (before : List Char) (c : Char) (rest : List Char) :
    (string (.sound before)).tokensFrom (Document.escapeChar c ++ rest) =
      (string (.sound (c :: before))).tokensFrom rest := by
  unfold Document.escapeChar
  split
  · rename_i h; subst h; rfl
  split
  · rename_i h; subst h; rfl
  split
  · rename_i h; subst h; rfl
  split
  · rename_i h; subst h; rfl
  split
  · rename_i h; subst h; rfl
  split
  · rename_i h; subst h; rfl
  split
  · rename_i h; subst h; rfl
  split
  · rename_i hlt
    exact tokensFrom_controlDigits before hlt rest
  · rename_i hquote hslash _ _ _ _ _ hge
    simp only [List.cons_append, List.nil_append, tokensFrom, step, if_neg hquote, if_neg hslash,
      if_neg hge]
    rfl

/-- An escaped string is read as the string. -/
theorem tokensFrom_escaped (cs : List Char) : ∀ (before rest : List Char),
    (string (.sound before)).tokensFrom (cs.flatMap Document.escapeChar ++ '"' :: rest) =
      .text (some (String.ofList (before.reverse ++ cs))) :: between.tokensFrom rest := by
  induction cs with
  | nil => intro before rest; simp only [List.append_nil]; rfl
  | cons c cs ih =>
    intro before rest
    rw [List.flatMap_cons, List.append_assoc, tokensFrom_escapeChar, ih]
    simp only [List.reverse_cons, List.append_assoc, List.singleton_append]

theorem tokensFrom_writeText (s : String) (rest : List Char) :
    between.tokensFrom (Document.writeText s ++ rest) =
      .text (some s) :: between.tokensFrom rest := by
  have h := tokensFrom_escaped s.toList [] rest
  simp only [List.reverse_nil, List.nil_append, String.ofList_toList] at h
  rw [← h]
  simp only [Document.writeText, List.cons_append, List.append_assoc, List.nil_append]
  rfl

/-! ## Integers -/

/-- What follows does not go on with a number. -/
def EndsNumber (rest : List Char) : Prop :=
  ∀ c cs, rest = c :: cs → c.isDigit = false ∧ c ≠ '.' ∧ c ≠ 'e' ∧ c ≠ 'E'

theorem endsNumber_nil : EndsNumber [] := by intro c cs h; cases h

theorem endsNumber_cons {c : Char} {cs : List Char}
    (h : c.isDigit = false ∧ c ≠ '.' ∧ c ≠ 'e' ∧ c ≠ 'E') : EndsNumber (c :: cs) := by
  intro c' cs' heq; cases heq; exact h

/-- The part of an integer that its first digit begins. -/
def integerPart (first : Char) : NumeralPart := if first = '0' then .zero else .whole

theorem integerPart_isFinal (first : Char) : (integerPart first).isFinal = true := by
  unfold integerPart; split <;> rfl

theorem push?_of_endsNumber (n : Numeral) {part : NumeralPart} (hpart : part.isFinal = true)
    {c : Char} (h : c.isDigit = false ∧ c ≠ '.' ∧ c ≠ 'e' ∧ c ≠ 'E') : n.push? part c = none := by
  obtain ⟨hdigit, hpoint, he, hE⟩ := h
  cases part with
  | zero => simp [Numeral.push?, hpoint, he, hE]
  | whole => simp [Numeral.push?, hdigit, hpoint, he, hE]
  | fraction => simp [Numeral.push?, hdigit, he, hE]
  | exponent => simp [Numeral.push?, hdigit]
  | _ => cases hpart

/-- A numeral ends where nothing goes on with it. -/
theorem tokensFrom_endsNumber (n : Numeral) {part : NumeralPart} (hpart : part.isFinal = true)
    {rest : List Char} (h : EndsNumber rest) :
    (numeral n part).tokensFrom rest = .number n.value? :: between.tokensFrom rest := by
  cases rest with
  | nil => simp only [tokensFrom, final, if_pos hpart]
  | cons c cs =>
    have hc := h c cs rfl
    simp only [tokensFrom, step, push?_of_endsNumber n hpart hc, hpart, hc.1, Bool.not_false,
      Bool.and_self, if_true]
    rfl

theorem tokensFrom_whole (negative : Bool) (ds : List Char) (hds : ∀ c ∈ ds, c.isDigit = true) :
    ∀ (whole rest : List Char),
      (numeral ⟨negative, whole, [], none⟩ .whole).tokensFrom (ds ++ rest) =
        (numeral ⟨negative, whole ++ ds, [], none⟩ .whole).tokensFrom rest := by
  induction ds with
  | nil => intro whole rest; rw [List.nil_append, List.append_nil]
  | cons d ds ih =>
    intro whole rest
    have hd : d.isDigit = true := hds d List.mem_cons_self
    have ih' := ih (fun c hc => hds c (List.mem_cons_of_mem _ hc)) (whole ++ [d]) rest
    rw [List.append_assoc, List.singleton_append] at ih'
    rw [← ih', List.cons_append, tokensFrom]
    simp only [step, Numeral.push?, hd, if_true]
    rfl

theorem begin_digit : ∀ d : Fin 10, begin (Nat.digitChar d) =
    ([], .numeral ⟨false, [Nat.digitChar d], [], none⟩ (integerPart (Nat.digitChar d))) := by
  decide

theorem push?_sign (negative : Bool) {c : Char} (h : c.isDigit = true) :
    (Numeral.mk negative [] [] none).push? .sign c =
      some (⟨negative, [c], [], none⟩, integerPart c) := by
  simp only [Numeral.push?, h, if_true]
  rfl

/-- The digits of a number, after a sign or not, up to where nothing goes on with them. -/
theorem tokensFrom_digits (n : Nat) (negative : Bool) {rest : List Char} (h : EndsNumber rest) :
    between.tokensFrom ((if negative then ['-'] else []) ++ digits n ++ rest) =
      .number (Numeral.mk negative (digits n) [] none).value? :: between.tokensFrom rest := by
  obtain ⟨first, ds, hdigits, hwhole⟩ : ∃ first ds, digits n = first :: ds ∧
      (first = '0' → ds = []) := by
    rcases Nat.eq_zero_or_pos n with hzero | hpos
    · exact ⟨'0', [], by rw [hzero, digits_zero], fun _ => rfl⟩
    · obtain ⟨first, ds, hdigits, hfirst⟩ := digits_head hpos
      exact ⟨first, ds, hdigits, fun h => absurd h hfirst⟩
  have hall : ∀ c ∈ digits n, c.isDigit = true := fun _ => isDigit_of_mem_digits
  rw [hdigits] at hall ⊢
  have hfirst : first.isDigit = true := hall first List.mem_cons_self
  have htail : (numeral ⟨negative, [first], [], none⟩ (integerPart first)).tokensFrom (ds ++ rest) =
      .number (Numeral.mk negative (first :: ds) [] none).value? :: between.tokensFrom rest := by
    rw [← tokensFrom_endsNumber _ (integerPart_isFinal first) h]
    by_cases hzero : first = '0'
    · rw [hwhole hzero, List.nil_append]
    · have hpart : integerPart first = .whole := if_neg hzero
      rw [hpart, tokensFrom_whole _ _ fun c hc => hall c (List.mem_cons_of_mem _ hc)]
      rfl
  rw [← htail]
  cases negative with
  | true =>
    show (numeral ⟨true, [], [], none⟩ .sign).tokensFrom (first :: (ds ++ rest)) = _
    rw [tokensFrom]
    simp only [step, push?_sign true hfirst]
    rfl
  | false =>
    obtain ⟨hlt, hdigit⟩ := digits_of_isDigit hfirst
    have hchar : Nat.digitChar (first.toNat - '0'.toNat) = first := by
      rw [digits, Nat.toDigits_of_lt_base hlt] at hdigit
      exact (List.cons.inj hdigit).1
    have hbegin := begin_digit ⟨_, hlt⟩
    simp only [hchar] at hbegin
    show between.tokensFrom (first :: (ds ++ rest)) = _
    rw [tokensFrom]
    simp only [step, hbegin]
    rfl

/-- The digits of an integer of 64 bits stand for it. -/
theorem value?_digits {i : Int} (least : -2 ^ 63 ≤ i) (greatest : i < 2 ^ 64) :
    (Numeral.mk (decide (i < 0)) (digits i.natAbs) [] none).value? =
      some (.int i least greatest) := by
  have hint : (Numeral.mk (decide (i < 0)) (digits i.natAbs) [] none).toInt? =
      some (.int i least greatest) := by
    simp only [Numeral.toInt?, List.isEmpty_nil, Option.isNone_none, Bool.and_self, if_true,
      ofDigits_digits]
    by_cases hneg : i < 0
    · have hmagnitude : 0 < i.natAbs ∧ i.natAbs ≤ 2 ^ 63 := by omega
      simp only [hneg, decide_true, if_true, dif_pos hmagnitude]
      congr 2
      omega
    · have hmagnitude : i.natAbs < 2 ^ 64 := by omega
      simp only [hneg, decide_false, Bool.false_eq_true, if_false, dif_pos hmagnitude]
      congr 2
      omega
  rw [Numeral.value?, hint]

theorem tokensFrom_intDigits {i : Int} (least : -2 ^ 63 ≤ i) (greatest : i < 2 ^ 64)
    {rest : List Char} (h : EndsNumber rest) :
    between.tokensFrom (intDigits i ++ rest) =
      .number (some (.int i least greatest)) :: between.tokensFrom rest := by
  have hdigits := tokensFrom_digits i.natAbs (decide (i < 0)) h
  rw [value?_digits least greatest] at hdigits
  rw [← hdigits, intDigits]
  simp only [decide_eq_true_eq]

/-! ## Numbers -/

theorem broken_mem_begin {c : Char} (h : (begin c).2 = .stopped) : .broken ∈ (begin c).1 := by
  unfold begin at h ⊢
  split at h
  case h_17 =>
    split at h
    · cases h
    · rename_i hdigit
      rw [if_neg hdigit]
      exact List.mem_singleton_self _
  all_goals cases h

/-- Scanning stops with a broken token only. -/
theorem broken_mem_step {state : Scanning} {c : Char} (h : state ≠ .stopped)
    (hstep : (state.step c).2 = .stopped) : .broken ∈ (state.step c).1 := by
  cases state with
  | between => exact broken_mem_begin hstep
  | word due token =>
    rcases due with _ | ⟨d, _ | ⟨e, due⟩⟩
    · exact List.mem_singleton_self _
    · by_cases hd : c = d
      · simp [step, hd] at hstep
      · simp [step, hd, stop]
    · by_cases hd : c = d
      · simp [step, hd] at hstep
      · simp [step, hd, stop]
  | numeral n part =>
    cases hpush : n.push? part c with
    | some longer => simp [step, hpush] at hstep
    | none =>
      by_cases hends : (part.isFinal && !c.isDigit) = true
      · simp only [step, hpush, hends, if_true] at hstep ⊢
        exact List.mem_cons_of_mem _ (broken_mem_begin hstep)
      · simp [step, hpush, hends, stop]
  | string s =>
    simp only [step] at hstep ⊢
    split at hstep
    · cases hstep
    split at hstep
    · cases hstep
    split at hstep
    · rename_i hquote hslash hcontrol
      rw [if_neg hquote, if_neg hslash, if_pos hcontrol]
      exact List.mem_singleton_self _
    · cases hstep
  | escape s =>
    by_cases hu : c = 'u'
    · simp [step, hu] at hstep
    · cases hescaped : escaped? c with
      | some d => simp [step, hu, hescaped] at hstep
      | none => simp [step, hu, hescaped, stop]
  | unit s due code =>
    cases hhex : hexValue? c with
    | some v =>
      simp only [step, hhex] at hstep
      split at hstep <;> cases hstep
    | none => simp [step, hhex, stop]
  | stopped => exact absurd rfl h

/-- **Texts are scanned one after the other** if the first breaks off no token and no number goes on
in the second. -/
theorem tokensFrom_append {rest : List Char} (hrest : EndsNumber rest) {cs : List Char} :
    ∀ {state : Scanning}, state ≠ .stopped → .broken ∉ state.tokensFrom cs →
      state.tokensFrom (cs ++ rest) = state.tokensFrom cs ++ between.tokensFrom rest := by
  induction cs with
  | nil =>
    intro state hstate h
    cases state with
    | between => rfl
    | stopped => exact absurd rfl hstate
    | numeral n part =>
      by_cases hpart : part.isFinal = true
      · rw [List.nil_append, tokensFrom_endsNumber n hpart hrest, tokensFrom, final, if_pos hpart]
        rfl
      · rw [tokensFrom, final, if_neg hpart] at h
        exact absurd (List.mem_singleton_self _) h
    | _ => exact absurd (List.mem_singleton_self _) h
  | cons c cs ih =>
    intro state hstate h
    rw [tokensFrom, List.mem_append, not_or] at h
    have hnext : (state.step c).2 ≠ .stopped := fun hstop => h.1 (broken_mem_step hstate hstop)
    rw [List.cons_append, tokensFrom, tokensFrom, ih hnext h.2, List.append_assoc]

theorem scan_append {cs rest : List Char} (hcs : .broken ∉ scan cs) (hrest : EndsNumber rest) :
    scan (cs ++ rest) = scan cs ++ scan rest := by
  rw [scan_eq] at hcs
  rw [scan_eq, scan_eq, scan_eq]
  exact tokensFrom_append hrest nofun hcs

/-- A numeral is a number, or it is broken off. -/
theorem head?_numeral (cs : List Char) : ∀ (n : Numeral) (part : NumeralPart),
    ((numeral n part).tokensFrom cs).head? = some .broken ∨
      ∃ v, ((numeral n part).tokensFrom cs).head? = some (.number v) := by
  induction cs with
  | nil =>
    intro n part
    rw [tokensFrom, final]
    split
    · exact Or.inr ⟨_, rfl⟩
    · exact Or.inl rfl
  | cons c cs ih =>
    intro n part
    rw [tokensFrom, step]
    cases n.push? part c with
    | some longer => exact ih longer.1 longer.2
    | none =>
      dsimp only
      split
      · exact Or.inr ⟨_, rfl⟩
      · exact Or.inl rfl

theorem begin_of_isDigit {c : Char} (h : c.isDigit = true) :
    ∃ n part, begin c = ([], .numeral n part) := by
  unfold begin
  split
  case h_16 => exact ⟨_, _, rfl⟩
  case h_17 => rw [if_pos h]; exact ⟨_, _, rfl⟩
  case h_15 => exact ⟨_, _, rfl⟩
  all_goals cases h

/-- The token is neither a number nor broken. -/
def Token.endsNumber : Token → Bool
  | .number _ | .broken => false
  | _ => true

/-- No number goes on in a text that begins with a token of another kind. -/
theorem endsNumber_of_scan {cs : List Char} {token : Token} {more : List Token}
    (h : scan cs = token :: more) (htoken : token.endsNumber = true) : EndsNumber cs := by
  rintro c rest rfl
  rw [scan_eq] at h
  refine ⟨?_, ?_, ?_, ?_⟩
  · rw [Bool.eq_false_iff]
    intro hdigit
    obtain ⟨n, part, hbegin⟩ := begin_of_isDigit hdigit
    rw [tokensFrom, step, hbegin, List.nil_append] at h
    have hhead := head?_numeral rest n part
    rw [h, List.head?_cons] at hhead
    rcases hhead with hhead | ⟨v, hhead⟩ <;> cases hhead <;> cases htoken
  all_goals
    rintro rfl
    cases (List.cons.inj h).1
    cases htoken

/-- A text between two others is scanned on its own if neither it nor the last one can go on with a
number. -/
theorem scan_insert {cs inserted rest : List Char} (hcs : .broken ∉ scan cs)
    (hinserted : .broken ∉ scan inserted) {first next : Token} {more later : List Token}
    (hfirst : scan inserted = first :: more) (hends : first.endsNumber = true)
    (hnext : scan rest = next :: later) (hends' : next.endsNumber = true) :
    scan (cs ++ inserted ++ rest) = scan cs ++ scan inserted ++ scan rest := by
  have hrest : EndsNumber rest := endsNumber_of_scan hnext hends'
  have happend : EndsNumber (inserted ++ rest) := by
    cases inserted with
    | nil => exact hrest
    | cons c inserted => exact endsNumber_cons (endsNumber_of_scan hfirst hends c inserted rfl)
  rw [List.append_assoc, scan_append hcs happend, scan_append hinserted hrest, List.append_assoc]

/-- A number is read back from its own text. -/
def Number.isStable (n : Number) : Bool := scan n.write = [.number (some n)]

theorem tokensFrom_number {n : Number} (h : n.isStable = true) {rest : List Char}
    (hrest : EndsNumber rest) :
    between.tokensFrom (n.write ++ rest) = .number (some n) :: between.tokensFrom rest := by
  have hscan : between.tokensFrom n.write = [.number (some n)] :=
    (scan_eq _).symm.trans (of_decide_eq_true h)
  have hsound : .broken ∉ between.tokensFrom n.write := by simp [hscan]
  have hbetween : between ≠ .stopped := by simp
  rw [tokensFrom_append hrest hbetween hsound, hscan]
  rfl

theorem isStable_int {i : Int} (least : -2 ^ 63 ≤ i) (greatest : i < 2 ^ 64) :
    (Number.int i least greatest).isStable = true := by
  have hint := tokensFrom_intDigits least greatest endsNumber_nil
  rw [List.append_nil] at hint
  exact decide_eq_true ((scan_eq _).trans hint)

/-! ## Documents -/

namespace Document

mutual

/-- A document holds no floating-point number. -/
def isFloatFree : Document → Bool
  | .number (.float _) => false
  | .array items => areFloatFree items
  | .object members => haveFloatFreeValues members
  | _ => true
termination_by structural d => d

/-- No document of a list holds a floating-point number. -/
def areFloatFree : List Document → Bool
  | [] => true
  | d :: ds => d.isFloatFree && areFloatFree ds
termination_by structural ds => ds

/-- No value of a member holds a floating-point number. -/
def haveFloatFreeValues : List (String × Document) → Bool
  | [] => true
  | (_, d) :: ms => d.isFloatFree && haveFloatFreeValues ms
termination_by structural ms => ms

end

mutual

/-- Every number of a document is read back from its own text. -/
def hasStableNumbers : Document → Bool
  | .number n => n.isStable
  | .array items => haveStableNumbers items
  | .object members => haveStableValues members
  | _ => true
termination_by structural d => d

/-- Every number of some documents is read back from its own text. -/
def haveStableNumbers : List Document → Bool
  | [] => true
  | d :: ds => d.hasStableNumbers && haveStableNumbers ds
termination_by structural ds => ds

/-- Every number in the values of some members is read back from its own text. -/
def haveStableValues : List (String × Document) → Bool
  | [] => true
  | (_, d) :: ms => d.hasStableNumbers && haveStableValues ms
termination_by structural ms => ms

end

mutual

/-- Integers are read back from their texts. -/
theorem hasStableNumbers_of_isFloatFree : ∀ (d : Document), d.isFloatFree = true →
    d.hasStableNumbers = true
  | .null, _ => rfl
  | .bool _, _ => rfl
  | .number (.int _ least greatest), _ => by
    rw [hasStableNumbers]
    exact isStable_int least greatest
  | .number (.float _), h => by simp [isFloatFree] at h
  | .text _, _ => rfl
  | .array items, h => by
    rw [isFloatFree] at h
    rw [hasStableNumbers]
    exact haveStableNumbers_of_areFloatFree items h
  | .object members, h => by
    rw [isFloatFree] at h
    rw [hasStableNumbers]
    exact haveStableValues_of_haveFloatFreeValues members h

theorem haveStableNumbers_of_areFloatFree : ∀ (ds : List Document), areFloatFree ds = true →
    haveStableNumbers ds = true
  | [], _ => by rw [haveStableNumbers]
  | d :: ds, h => by
    rw [areFloatFree, Bool.and_eq_true] at h
    rw [haveStableNumbers, hasStableNumbers_of_isFloatFree d h.1,
      haveStableNumbers_of_areFloatFree ds h.2, Bool.and_self]

theorem haveStableValues_of_haveFloatFreeValues : ∀ (ms : List (String × Document)),
    haveFloatFreeValues ms = true → haveStableValues ms = true
  | [], _ => by rw [haveStableValues]
  | (_, d) :: ms, h => by
    rw [haveFloatFreeValues, Bool.and_eq_true] at h
    rw [haveStableValues, hasStableNumbers_of_isFloatFree d h.1,
      haveStableValues_of_haveFloatFreeValues ms h.2, Bool.and_self]

end

mutual

/-- The tokens that a document is written from. -/
def tokens : Document → List Token
  | .null => [.null]
  | .bool b => [.bool b]
  | .number n => [.number (some n)]
  | .text s => [.text (some s)]
  | .array [] => [.openArray, .closeArray]
  | .array (d :: ds) => .openArray :: d.tokens ++ laterItemTokens ds ++ [.closeArray]
  | .object [] => [.openObject, .closeObject]
  | .object ((key, d) :: ms) =>
    .openObject :: .text (some key) :: .colon :: d.tokens ++ laterMemberTokens ms ++ [.closeObject]
termination_by structural d => d

/-- The tokens of the items after the first one, each after a comma. -/
def laterItemTokens : List Document → List Token
  | [] => []
  | d :: ds => .comma :: d.tokens ++ laterItemTokens ds
termination_by structural ds => ds

/-- The tokens of the members after the first one, each after a comma. -/
def laterMemberTokens : List (String × Document) → List Token
  | [] => []
  | (key, d) :: ms => .comma :: .text (some key) :: .colon :: d.tokens ++ laterMemberTokens ms
termination_by structural ms => ms

end

end Document

/-- A new line leaves no token. -/
theorem tokensFrom_line (layout : Document.Layout) (level : Nat) (rest : List Char) :
    between.tokensFrom (layout.line level ++ rest) = between.tokensFrom rest := by
  have hblanks : ∀ n, between.tokensFrom (List.replicate n ' ' ++ rest) =
      between.tokensFrom rest := by
    intro n
    induction n with
    | zero => rfl
    | succ n ih => rw [← ih]; rfl
  cases layout with
  | compact => rfl
  | indented => rw [← hblanks (2 * level)]; rfl

theorem tokensFrom_colon (layout : Document.Layout) (rest : List Char) :
    between.tokensFrom (layout.colon ++ rest) = .colon :: between.tokensFrom rest := by
  cases layout <;> rfl

/-- A single token, and the state between tokens after it. -/
theorem tokensFrom_sign {c : Char} {token : Token} (h : between.step c = ([token], .between))
    (rest : List Char) : between.tokensFrom (c :: rest) = token :: between.tokensFrom rest := by
  rw [tokensFrom, h]; rfl

theorem endsNumber_line (layout : Document.Layout) (level : Nat) {c : Char} {rest : List Char}
    (h : c.isDigit = false ∧ c ≠ '.' ∧ c ≠ 'e' ∧ c ≠ 'E') :
    EndsNumber (layout.line level ++ c :: rest) := by
  cases layout with
  | compact => exact endsNumber_cons h
  | indented => exact endsNumber_cons (by decide)

theorem endsNumber_writeItems (layout : Document.Layout) (level : Nat) {rest : List Char}
    (h : EndsNumber rest) : ∀ ds, EndsNumber (Document.writeItems layout level ds ++ rest)
  | [] => h
  | _ :: _ => endsNumber_cons (by decide)

theorem endsNumber_writeMembers (layout : Document.Layout) (level : Nat) {rest : List Char}
    (h : EndsNumber rest) : ∀ ms, EndsNumber (Document.writeMembers layout level ms ++ rest)
  | [] => h
  | _ :: _ => endsNumber_cons (by decide)

mutual

/-- **A written document yields its tokens**, whatever may follow it. -/
theorem tokensFrom_write (layout : Document.Layout) : ∀ (d : Document) (level : Nat)
    (rest : List Char), d.hasStableNumbers = true → EndsNumber rest →
      between.tokensFrom (d.write layout level ++ rest) = d.tokens ++ between.tokensFrom rest
  | .null, level, rest, _, _ => by rw [Document.write, Document.tokens]; rfl
  | .bool true, level, rest, _, _ => by rw [Document.write, Document.tokens]; rfl
  | .bool false, level, rest, _, _ => by rw [Document.write, Document.tokens]; rfl
  | .number n, level, rest, hstable, h => by
    rw [Document.write, Document.tokens]
    exact tokensFrom_number hstable h
  | .text s, level, rest, _, _ => by
    rw [Document.write, Document.tokens]
    exact tokensFrom_writeText s rest
  | .array [], level, rest, _, _ => by rw [Document.write, Document.tokens]; rfl
  | .array (d :: ds), level, rest, hstable, _ => by
    simp only [Document.hasStableNumbers, Document.haveStableNumbers, Bool.and_eq_true] at hstable
    have hend : EndsNumber (layout.line level ++ ']' :: rest) := endsNumber_line _ _ (by decide)
    have hopen : between.step '[' = ([.openArray], .between) := rfl
    have hclose : between.step ']' = ([.closeArray], .between) := rfl
    simp only [Document.write, Document.tokens, List.cons_append, List.append_assoc,
      List.nil_append]
    rw [tokensFrom_sign hopen, tokensFrom_line,
      tokensFrom_write layout d _ _ hstable.1 (endsNumber_writeItems _ _ hend ds),
      tokensFrom_writeItems layout ds _ _ hstable.2 hend, tokensFrom_line, tokensFrom_sign hclose]
  | .object [], level, rest, _, _ => by rw [Document.write, Document.tokens]; rfl
  | .object ((key, d) :: ms), level, rest, hstable, _ => by
    simp only [Document.hasStableNumbers, Document.haveStableValues, Bool.and_eq_true] at hstable
    have hend : EndsNumber (layout.line level ++ '\x7d' :: rest) :=
      endsNumber_line _ _ (by decide)
    have hopen : between.step '\x7b' = ([.openObject], .between) := rfl
    have hclose : between.step '\x7d' = ([.closeObject], .between) := rfl
    simp only [Document.write, Document.tokens, List.cons_append, List.append_assoc,
      List.nil_append]
    rw [tokensFrom_sign hopen, tokensFrom_line, tokensFrom_writeText, tokensFrom_colon,
      tokensFrom_write layout d _ _ hstable.1 (endsNumber_writeMembers _ _ hend ms),
      tokensFrom_writeMembers layout ms _ _ hstable.2 hend, tokensFrom_line,
      tokensFrom_sign hclose]

theorem tokensFrom_writeItems (layout : Document.Layout) : ∀ (ds : List Document) (level : Nat)
    (rest : List Char), Document.haveStableNumbers ds = true → EndsNumber rest →
      between.tokensFrom (Document.writeItems layout level ds ++ rest) =
        Document.laterItemTokens ds ++ between.tokensFrom rest
  | [], level, rest, _, _ => by rw [Document.writeItems, Document.laterItemTokens]; rfl
  | d :: ds, level, rest, hstable, h => by
    simp only [Document.haveStableNumbers, Bool.and_eq_true] at hstable
    have hcomma : between.step ',' = ([.comma], .between) := rfl
    simp only [Document.writeItems, Document.laterItemTokens, List.cons_append, List.append_assoc]
    rw [tokensFrom_sign hcomma, tokensFrom_line,
      tokensFrom_write layout d _ _ hstable.1 (endsNumber_writeItems _ _ h ds),
      tokensFrom_writeItems layout ds _ _ hstable.2 h]

theorem tokensFrom_writeMembers (layout : Document.Layout) :
    ∀ (ms : List (String × Document)) (level : Nat) (rest : List Char),
      Document.haveStableValues ms = true → EndsNumber rest →
        between.tokensFrom (Document.writeMembers layout level ms ++ rest) =
          Document.laterMemberTokens ms ++ between.tokensFrom rest
  | [], level, rest, _, _ => by rw [Document.writeMembers, Document.laterMemberTokens]; rfl
  | (key, d) :: ms, level, rest, hstable, h => by
    simp only [Document.haveStableValues, Bool.and_eq_true] at hstable
    have hcomma : between.step ',' = ([.comma], .between) := rfl
    simp only [Document.writeMembers, Document.laterMemberTokens, List.cons_append,
      List.append_assoc]
    rw [tokensFrom_sign hcomma, tokensFrom_line, tokensFrom_writeText, tokensFrom_colon,
      tokensFrom_write layout d _ _ hstable.1 (endsNumber_writeMembers _ _ h ms),
      tokensFrom_writeMembers layout ms _ _ hstable.2 h]

end

/-- The tokens of the text of a document are those that it was written from. -/
theorem scan_render (layout : Document.Layout) {d : Document} (h : d.hasStableNumbers = true) :
    scan (d.render layout).toList = d.tokens := by
  have hwrite := tokensFrom_write layout d 0 [] h endsNumber_nil
  rw [List.append_nil] at hwrite
  rw [scan_eq, Document.render, String.toList_ofList]
  exact hwrite.trans (List.append_nil _)

/-- The end of the line adds none. -/
theorem scan_render_line (layout : Document.Layout) {d : Document}
    (h : d.hasStableNumbers = true) : scan (d.render layout ++ "\n").toList = d.tokens := by
  have hline : EndsNumber ['\n'] := endsNumber_cons (by decide)
  rw [scan_eq, Document.render, String.toList_append, String.toList_ofList]
  exact (tokensFrom_write layout d 0 ['\n'] h hline).trans (List.append_nil _)

end CompositionFunction.Json
