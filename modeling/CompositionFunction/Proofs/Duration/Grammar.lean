import CompositionFunction.Proofs.Duration

/-!
# The grammar of durations

A text is read as a duration exactly if it writes one: perhaps a plus sign, the digits of the
seconds, perhaps a point and at most nine digits, and the unit. Of all the ways to write a duration
its own text is the canonical one.

* `Writing` : a way to write a duration.
* `parse_eq_ok_iff` : what is read is what is written in one of these ways.
* `Writing.text_duration_iff` : a way to write a duration is its text exactly if it is canonical.
* `survives_text` : a duration is what its text says, and nothing else has that text.
* `parse_follows_grammar` : which texts are read, as what, and why the others are not.
-/

set_option autoImplicit false

namespace CompositionFunction.Duration

open Text

/-! ## Ways to write a duration -/

/-- A way to write a duration. -/
structure Writing where
  hasPlus : Bool
  /-- The digits of the seconds. -/
  whole : List Char
  /-- The digits behind the point, if there is one. -/
  fraction : Option (List Char)
  whole_ne_nil : whole ≠ []
  isDigit_whole : ∀ c ∈ whole, c.isDigit = true
  whole_lt : ofDigits whole < 2 ^ 64
  length_fraction : (fraction.getD []).length ≤ 9
  isDigit_fraction : ∀ c ∈ fraction.getD [], c.isDigit = true

theorem isFraction_iff {ds : List Char} :
    isFraction ds = true ↔ ds.length ≤ 9 ∧ ∀ c ∈ ds, c.isDigit = true := by
  simp [isFraction]

/-- Digits that are moved to the left by zeros. -/
theorem nanosOf_eq (ds : List Char) : nanosOf ds = ofDigits ds * 10 ^ (9 - ds.length) := by
  rw [nanosOf, ofDigits, Nat.ofDigitChars_append, Nat.ofDigitChars_replicate_zero, Nat.mul_comm]
  rfl

namespace Writing

/-- The digits behind the point; there are none without a point. -/
def places (w : Writing) : List Char := w.fraction.getD []

/-- The seconds with their sign. -/
def signedWhole (w : Writing) : List Char := if w.hasPlus then '+' :: w.whole else w.whole

/-- All but the unit. -/
def body (w : Writing) : List Char :=
  w.signedWhole ++ match w.fraction with
    | none => []
    | some ds => '.' :: ds

/-- The text that is written. -/
def text (w : Writing) : String := String.ofList (w.body ++ ['s'])

theorem isFraction_places (w : Writing) : isFraction w.places = true :=
  isFraction_iff.2 ⟨w.length_fraction, w.isDigit_fraction⟩

theorem nanos_lt (w : Writing) : ofDigits w.places * 10 ^ (9 - w.places.length) < 10 ^ 9 := by
  rw [← nanosOf_eq]
  exact nanosOf_lt w.isFraction_places

/-- The duration that is written. -/
def duration (w : Writing) : Duration :=
  ⟨ofDigits w.whole, ofDigits w.places * 10 ^ (9 - w.places.length), w.whole_lt, w.nanos_lt⟩

/-- There is no plus sign, no superfluous zero, and no point without digits behind it. -/
structure IsCanonical (w : Writing) : Prop where
  plus : w.hasPlus = false
  leading : w.whole.head? = some '0' → w.whole = ['0']
  trailing : ∀ ds, w.fraction = some ds → ds ≠ [] ∧ ds.getLast? ≠ some '0'

theorem point_notMem_signedWhole (w : Writing) : '.' ∉ w.signedWhole := by
  have hwhole : '.' ∉ w.whole := fun h => absurd (w.isDigit_whole '.' h) (by decide)
  unfold signedWhole
  split
  · exact fun h => (List.mem_cons.1 h).elim (by decide) hwhole
  · exact hwhole

theorem parts_body (w : Writing) : parts w.body = (w.signedWhole, w.places) := by
  have hpoint := w.point_notMem_signedWhole
  unfold parts body places
  cases w.fraction with
  | none => rw [List.append_nil, splitFirst_eq_none_iff.2 hpoint]; rfl
  | some ds => rw [splitFirst_eq_some_iff.2 ⟨rfl, hpoint⟩]; rfl

end Writing

/-! ## Seconds -/

/-- A number of seconds: perhaps a plus sign, and at least one digit, within 64 bits. -/
def IsSeconds (cs : List Char) : Prop :=
  ∃ ds, (cs = ds ∨ cs = '+' :: ds) ∧ ds ≠ [] ∧ (∀ c ∈ ds, c.isDigit = true) ∧
    ofDigits ds < 2 ^ 64

theorem unsigned_plus (ds : List Char) : unsigned ('+' :: ds) = ds := rfl

theorem unsigned_of_isDigit {ds : List Char} (h : ∀ c ∈ ds, c.isDigit = true) :
    unsigned ds = ds := by
  unfold unsigned
  split
  · exact absurd (h '+' List.mem_cons_self) (by decide)
  · rfl

theorem eq_unsigned (cs : List Char) : cs = unsigned cs ∨ cs = '+' :: unsigned cs := by
  unfold unsigned
  split
  · exact Or.inr rfl
  · exact Or.inl rfl

theorem readNat?_eq_some {cs : List Char} {n : Nat} :
    readNat? cs = some n ↔ cs ≠ [] ∧ (∀ c ∈ cs, c.isDigit = true) ∧ ofDigits cs = n := by
  unfold readNat?
  split
  · rename_i h
    have hbad : ¬ (cs ≠ [] ∧ ∀ c ∈ cs, c.isDigit = true) := by
      rintro ⟨hne, hdigits⟩
      simp [hne, List.all_eq_true.2 hdigits] at h
    exact ⟨nofun, fun h => (hbad ⟨h.1, h.2.1⟩).elim⟩
  · rename_i h
    simp only [Bool.or_eq_true, List.isEmpty_iff, Bool.not_eq_true', not_or, Bool.not_eq_false,
      List.all_eq_true] at h
    rw [Option.some.injEq]
    exact ⟨fun hn => ⟨h.1, h.2, hn⟩, fun hn => hn.2.2⟩

/-- A number of 64 bits is read from its digits, with or without a plus sign. -/
theorem readWord?_eq_some {cs : List Char} {n : { n : Nat // n < 2 ^ 64 }} :
    readWord? cs = some n ↔
      ∃ ds, (cs = ds ∨ cs = '+' :: ds) ∧ ds ≠ [] ∧ (∀ c ∈ ds, c.isDigit = true) ∧
        ofDigits ds = n.val := by
  rw [readWord?_eq]
  constructor
  · intro h
    split at h
    · cases h
    rename_i k hk
    obtain ⟨hne, hdigits, hvalue⟩ := readNat?_eq_some.1 hk
    split at h
    · refine ⟨unsigned cs, eq_unsigned cs, hne, hdigits, ?_⟩
      rw [hvalue, ← Option.some.inj h]
    · cases h
  · rintro ⟨ds, hcs, hne, hdigits, hvalue⟩
    have hunsigned : unsigned cs = ds := by
      rcases hcs with rfl | rfl
      · exact unsigned_of_isDigit hdigits
      · exact unsigned_plus ds
    rw [hunsigned, readNat?_eq_some.2 ⟨hne, hdigits, hvalue⟩]
    simp only [dif_pos n.property]

theorem readWord?_eq_none {cs : List Char} : readWord? cs = none ↔ ¬ IsSeconds cs := by
  constructor
  · rintro h ⟨ds, hcs, hne, hdigits, hlt⟩
    rw [readWord?_eq_some (n := ⟨ofDigits ds, hlt⟩) |>.2 ⟨ds, hcs, hne, hdigits, rfl⟩] at h
    cases h
  · intro h
    cases hread : readWord? cs with
    | none => rfl
    | some n =>
      obtain ⟨ds, hcs, hne, hdigits, hvalue⟩ := readWord?_eq_some.1 hread
      exact (h ⟨ds, hcs, hne, hdigits, hvalue ▸ n.property⟩).elim

/-! ## What is read -/

theorem parse_writing (w : Writing) : parse w.text = .ok w.duration := by
  have htext : w.text.toList = w.body ++ ['s'] := String.toList_ofList
  have hsigned : w.signedWhole = w.whole ∨ w.signedWhole = '+' :: w.whole := by
    unfold Writing.signedWhole
    cases w.hasPlus <;> simp
  have hread : readWord? w.signedWhole = some ⟨ofDigits w.whole, w.whole_lt⟩ :=
    readWord?_eq_some.2 ⟨w.whole, hsigned, w.whole_ne_nil, w.isDigit_whole, rfl⟩
  rw [parse_eq htext, w.parts_body]
  simp only [hread, w.isFraction_places, dite_true, nanosOf_eq]
  rfl

/-- The parts of a text make up the text. -/
theorem eq_of_parts (body : List Char) : ∃ fraction : Option (List Char),
    (parts body).2 = fraction.getD [] ∧ body = (parts body).1 ++ match fraction with
      | none => []
      | some ds => '.' :: ds := by
  unfold parts
  cases hsplit : splitFirst '.' body with
  | none => exact ⟨none, rfl, (List.append_nil body).symm⟩
  | some p => exact ⟨some p.2, rfl, (splitFirst_eq_some_iff.1 hsplit).1⟩

/-- **A text is read as a duration exactly if it is a way to write it.** -/
theorem parse_eq_ok_iff {s : String} {d : Duration} :
    parse s = .ok d ↔ ∃ w : Writing, w.text = s ∧ w.duration = d := by
  constructor
  · intro h
    have htext := toList_of_parse h
    rw [parse_eq htext] at h
    split at h
    · cases h
    rename_i seconds hseconds
    split at h
    · rename_i hfraction
      obtain ⟨fraction, hplaces, hbody⟩ := eq_of_parts s.toList.dropLast
      obtain ⟨ds, hsigned, hne, hdigits, hvalue⟩ := readWord?_eq_some.1 hseconds
      rw [hplaces] at hfraction
      have hplus : ∃ hasPlus : Bool, (parts s.toList.dropLast).1 =
          if hasPlus then '+' :: ds else ds := by
        rcases hsigned with hsigned | hsigned
        · exact ⟨false, hsigned⟩
        · exact ⟨true, hsigned⟩
      obtain ⟨hasPlus, hsigned⟩ := hplus
      have hlt : ofDigits ds < 2 ^ 64 := hvalue ▸ seconds.property
      obtain ⟨hlength, hplacesDigits⟩ := isFraction_iff.1 hfraction
      let w : Writing := ⟨hasPlus, ds, fraction, hne, hdigits, hlt, hlength, hplacesDigits⟩
      have hw : w.text = s := by
        have hchars : w.body = s.toList.dropLast := by rw [hbody, hsigned]; rfl
        rw [Writing.text, hchars, ← htext, String.ofList_toList]
      have hd : w.duration = d := by
        have hparse := parse_writing w
        rw [hw, parse_eq htext] at hparse
        simp only [hseconds, hplaces, hfraction, dite_true] at hparse h
        exact (Except.ok.inj (h.symm.trans hparse)).symm
      exact ⟨w, hw, hd⟩
    · cases h
  · rintro ⟨w, rfl, rfl⟩
    exact parse_writing w

/-! ## The canonical way -/

theorem withoutLeadingZeros_eq_self {ds : List Char} (hne : ds ≠ [])
    (h : ds.head? = some '0' → ds = ['0']) : withoutLeadingZeros ds = ds := by
  obtain ⟨d, rest, rfl⟩ := List.exists_cons_of_ne_nil hne
  by_cases hd : d = '0'
  · rw [h (congrArg some hd)]
    rfl
  · unfold withoutLeadingZeros
    rw [List.dropWhile_cons_of_neg (by simp [hd])]

theorem withoutTrailingZeros_eq_self {ds : List Char} (h : ds.getLast? ≠ some '0') :
    withoutTrailingZeros ds = ds := by
  rw [List.getLast?_eq_head?_reverse] at h
  unfold withoutTrailingZeros
  cases hrev : ds.reverse with
  | nil => rw [List.dropWhile_nil, ← hrev, List.reverse_reverse]
  | cons d rest =>
    rw [hrev] at h
    have hd : d ≠ '0' := fun hd => h (congrArg some hd)
    rw [List.dropWhile_cons_of_neg (by simp [hd]), ← hrev, List.reverse_reverse]

/-- The digits of a number have no superfluous zero. -/
theorem head?_digits {n : Nat} (h : (digits n).head? = some '0') : digits n = ['0'] := by
  rcases Nat.eq_zero_or_pos n with rfl | hpos
  · exact digits_zero
  · obtain ⟨first, ds, hdigits, hfirst⟩ := digits_head hpos
    rw [hdigits] at h
    exact absurd (Option.some.inj h) hfirst

theorem getLast?_fractionDigits (n : Nat) : (fractionDigits n).getLast? ≠ some '0' := by
  intro h
  rw [fractionDigits, List.getLast?_reverse] at h
  have hkept := List.head?_dropWhile_not (· = '0') (digitsPadded 9 n).reverse
  rw [h] at hkept
  simp at hkept

/-- The places that the text of a duration has, if any. -/
def fraction? (d : Duration) : Option (List Char) :=
  if d.nanos = 0 then none else some (fractionDigits d.nanos)

theorem isFraction_fraction? (d : Duration) : isFraction (d.fraction?.getD []) = true := by
  unfold fraction?
  split
  · rfl
  · exact isFraction_fractionDigits d.nanos_lt

/-- How the text of a duration writes it. -/
def canonicalWriting (d : Duration) : Writing where
  hasPlus := false
  whole := digits d.seconds
  fraction := d.fraction?
  whole_ne_nil := digits_ne_nil d.seconds
  isDigit_whole _ := isDigit_of_mem_digits
  whole_lt := by rw [ofDigits_digits]; exact d.seconds_lt
  length_fraction := (isFraction_iff.1 d.isFraction_fraction?).1
  isDigit_fraction := (isFraction_iff.1 d.isFraction_fraction?).2

theorem canonicalWriting_isCanonical (d : Duration) : d.canonicalWriting.IsCanonical where
  plus := rfl
  leading := head?_digits
  trailing ds h := by
    change d.fraction? = some ds at h
    unfold fraction? at h
    split at h
    · cases h
    · rename_i hnanos
      obtain rfl := Option.some.inj h
      exact ⟨fun hnil => hnanos ((fractionDigits_eq_nil d.nanos_lt).1 hnil),
        getLast?_fractionDigits d.nanos⟩

theorem text_canonicalWriting (d : Duration) : d.canonicalWriting.text = d.text := by
  unfold Writing.text Writing.body canonicalWriting fraction?
  rw [text]
  dsimp only
  split <;> rfl

/-- A text can be taken apart in one way only. -/
theorem Writing.text_injective {w w' : Writing} (h : w.text = w'.text) : w = w' := by
  have hbody : w.body = w'.body := List.append_cancel_right (String.ofList_injective h)
  have hparts : parts w.body = parts w'.body := congrArg parts hbody
  rw [parts_body, parts_body, Prod.mk.injEq] at hparts
  have hbehind : (match w.fraction with | none => [] | some ds => '.' :: ds) =
      match w'.fraction with | none => [] | some ds => '.' :: ds := by
    unfold body at hbody
    rw [hparts.1] at hbody
    exact List.append_cancel_left hbody
  obtain ⟨plus, whole, fraction, _, hdigits, _, _, _⟩ := w
  obtain ⟨plus', whole', fraction', _, hothers, _, _, _⟩ := w'
  have hsigned := hparts.1
  simp only [signedWhole] at hsigned
  have hwhole : plus = plus' ∧ whole = whole' := by
    cases plus <;> cases plus' <;> simp only [if_true, Bool.false_eq_true, if_false] at hsigned
    · exact ⟨rfl, hsigned⟩
    · exact absurd (hdigits '+' (hsigned ▸ List.mem_cons_self)) (by decide)
    · exact absurd (hothers '+' (hsigned ▸ List.mem_cons_self)) (by decide)
    · exact ⟨rfl, (List.cons.inj hsigned).2⟩
  have hfraction : fraction = fraction' := by
    cases fraction <;> cases fraction' <;> simp_all
  obtain ⟨rfl, rfl⟩ := hwhole
  subst hfraction
  rfl

/-- A canonical way to write a duration is the one of its text. -/
theorem Writing.IsCanonical.text_duration {w : Writing} (h : w.IsCanonical) :
    w.duration.text = w.text := by
  have hwhole : digits (ofDigits w.whole) = w.whole := by
    rw [digits_ofDigits w.isDigit_whole, withoutLeadingZeros_eq_self w.whole_ne_nil h.leading]
  have hfraction := w.isFraction_places
  have hnanos : w.duration.nanos = nanosOf w.places := (nanosOf_eq w.places).symm
  have hzero := fractionDigits_eq_nil w.duration.nanos_lt
  rw [hnanos, fractionDigits_nanosOf hfraction] at hzero
  rw [Duration.text, Writing.text, body, signedWhole, h.plus, hnanos,
    fractionDigits_nanosOf hfraction]
  show String.ofList (digits (ofDigits w.whole) ++ _ ++ ['s']) = _
  rw [hwhole]
  cases hplaces : w.fraction with
  | none =>
    have hnil : w.places = [] := by rw [places, hplaces]; rfl
    rw [if_pos (hzero.1 (by rw [hnil]; rfl))]
    rfl
  | some ds =>
    obtain ⟨hne, hlast⟩ := h.trailing ds hplaces
    have hds : w.places = ds := by rw [places, hplaces]; rfl
    rw [hds, withoutTrailingZeros_eq_self hlast] at hzero ⊢
    rw [if_neg fun hnanos => hne (hzero.2 hnanos)]
    rfl

/-- **A way to write a duration is its own text exactly if it is canonical.** -/
theorem Writing.text_duration_iff (w : Writing) : w.duration.text = w.text ↔ w.IsCanonical := by
  constructor
  · intro h
    rw [← text_canonicalWriting] at h
    rw [← text_injective h]
    exact canonicalWriting_isCanonical w.duration
  · exact IsCanonical.text_duration

/-! ## What is refused -/

/-- The text ends in the unit. -/
def EndsInUnit (s : String) : Prop := s.toList.getLast? = some 's'

theorem EndsInUnit.toList_eq {s : String} (h : EndsInUnit s) :
    s.toList = s.toList.dropLast ++ ['s'] := by
  obtain ⟨body, hbody⟩ := List.getLast?_eq_some_iff.1 h
  rw [hbody, List.dropLast_concat]

theorem parse_of_not_endsInUnit {s : String} (h : ¬ EndsInUnit s) :
    parse s = .error (.unit s) := by
  unfold parse
  split
  · rename_i reversed hreverse
    refine absurd ?_ h
    rw [EndsInUnit, List.getLast?_eq_head?_reverse, hreverse]
    rfl
  · rfl

theorem parse_of_not_isSeconds {s : String} (hunit : EndsInUnit s)
    (h : ¬ IsSeconds (parts s.toList.dropLast).1) : parse s = .error (.seconds s) := by
  rw [parse_eq hunit.toList_eq, readWord?_eq_none.2 h]

theorem parse_of_not_isFraction {s : String} (hunit : EndsInUnit s)
    (hseconds : IsSeconds (parts s.toList.dropLast).1)
    (h : isFraction (parts s.toList.dropLast).2 = false) : parse s = .error (.fraction s) := by
  rw [parse_eq hunit.toList_eq]
  cases hread : readWord? (parts s.toList.dropLast).1 with
  | none => exact absurd hseconds (readWord?_eq_none.1 hread)
  | some seconds => simp only [h, Bool.false_eq_true, dite_false]

theorem exists_of_parts {s : String} (hunit : EndsInUnit s)
    (hseconds : IsSeconds (parts s.toList.dropLast).1)
    (h : isFraction (parts s.toList.dropLast).2 = true) : ∃ d, parse s = .ok d := by
  rw [parse_eq hunit.toList_eq]
  cases hread : readWord? (parts s.toList.dropLast).1 with
  | none => exact absurd hseconds (readWord?_eq_none.1 hread)
  | some seconds =>
    simp only [h, dite_true]
    exact ⟨_, rfl⟩

/-! ## Results -/

/-- **A duration survives its text form**, and no other duration has that text. -/
theorem survives_text (d : Duration) :
    parse d.text = .ok d ∧ ∀ other : Duration, other.text = d.text ↔ other = d := by
  refine ⟨parse_text d, fun other => ⟨fun h => ?_, fun h => h ▸ rfl⟩⟩
  have hother := parse_text other
  rw [h, parse_text d] at hother
  exact (Except.ok.inj hother).symm

/-- **Exactly the texts of the grammar are read as durations.** The seconds are the number before
the point, the nanoseconds the places behind it, which never make up a whole second, and the text of
what is read is the text again exactly if that is canonical. Of another text the unit is refused
first, then the seconds, then the fraction. -/
theorem parse_follows_grammar :
    (∀ w : Writing, ∃ d, parse w.text = .ok d ∧ d.seconds = ofDigits w.whole ∧
      d.nanos = ofDigits w.places * 10 ^ (9 - w.places.length) ∧ d.nanos < 10 ^ 9 ∧
      (d.text = w.text ↔ w.IsCanonical)) ∧
    ∀ s : String,
      (∀ d, parse s = .ok d ↔ ∃ w : Writing, w.text = s ∧ w.duration = d) ∧
      ((∃ w : Writing, w.text = s) ∨ parse s = .error (.unit s) ∨
        parse s = .error (.seconds s) ∨ parse s = .error (.fraction s)) ∧
      (parse s = .error (.unit s) ↔ ¬ EndsInUnit s) ∧
      (parse s = .error (.seconds s) ↔
        EndsInUnit s ∧ ¬ IsSeconds (parts s.toList.dropLast).1) ∧
      (parse s = .error (.fraction s) ↔
        EndsInUnit s ∧ IsSeconds (parts s.toList.dropLast).1 ∧
          ¬ ((parts s.toList.dropLast).2.length ≤ 9 ∧
            ∀ c ∈ (parts s.toList.dropLast).2, c.isDigit = true)) := by
  refine ⟨fun w => ⟨w.duration, parse_writing w, rfl, rfl, w.nanos_lt, w.text_duration_iff⟩,
    fun s => ⟨fun d => parse_eq_ok_iff, ?_⟩⟩
  rw [← isFraction_iff]
  -- exactly one of the verdicts holds, and it decides each of the statements
  by_cases hunit : EndsInUnit s
  · by_cases hseconds : IsSeconds (parts s.toList.dropLast).1
    · cases hfraction : isFraction (parts s.toList.dropLast).2 with
      | false =>
        have hparse := parse_of_not_isFraction hunit hseconds hfraction
        simp [hparse, hunit, hseconds]
      | true =>
        obtain ⟨d, hparse⟩ := exists_of_parts hunit hseconds hfraction
        obtain ⟨w, hw, _⟩ := parse_eq_ok_iff.1 hparse
        have hexists : ∃ w : Writing, w.text = s := ⟨w, hw⟩
        simp [hparse, hunit, hseconds, hexists]
    · have hparse := parse_of_not_isSeconds hunit hseconds
      simp [hparse, hunit, hseconds]
  · have hparse := parse_of_not_endsInUnit hunit
    simp [hparse, hunit]

end CompositionFunction.Duration
