import CompositionFunction.Toml.Reader

/-!
# What readers take off a text

A reader is known by what it takes off the front of a text. A sequence goes on where its first step
stopped, an alternative counts only if the one before it fails, and a run or a repetition ends where
the text does not go on in the same way.

* `Ends` : a text that does not go on with a character of a class.
* `Apart` : two classes without a common character.
* `Takes` : the parts that a repetition takes, one after the other.
* `many_of_takes` : a repetition takes them whatever its bound.
-/

set_option autoImplicit false

namespace CompositionFunction.Toml.Reader

variable {α β : Type} {p q : Reader α} {cs rest : List Char}

/-! ## Sequences and alternatives -/

theorem bind_of_some {f : α → Reader β} {a : α} (h : p cs = some (a, rest)) :
    (p >>= f) cs = f a rest := by
  show (p cs).bind (fun r => f r.1 r.2) = _
  rw [h]
  rfl

theorem bind_of_none {f : α → Reader β} (h : p cs = none) : (p >>= f) cs = none := by
  show (p cs).bind (fun r => f r.1 r.2) = _
  rw [h]
  rfl

theorem map_of_some {f : α → β} {a : α} (h : p cs = some (a, rest)) :
    (f <$> p) cs = some (f a, rest) := by
  show (p cs).bind (fun r => some (f r.1, r.2)) = _
  rw [h]
  rfl

theorem map_of_none {f : α → β} (h : p cs = none) : (f <$> p) cs = none := by
  show (p cs).bind (fun r => some (f r.1, r.2)) = _
  rw [h]
  rfl

theorem orElse_of_some {r : α × List Char} (h : p cs = some r) : (p <|> q) cs = some r := by
  show (p cs <|> q cs) = _
  rw [h]
  rfl

theorem orElse_of_none (h : p cs = none) : (p <|> q) cs = q cs := by
  show (p cs <|> q cs) = _
  rw [h]
  rfl

theorem optional?_of_none (h : p cs = none) : optional? p cs = some (none, cs) := by
  rw [optional?, orElse_of_none (map_of_none h)]
  rfl

theorem require_of_true {condition : Bool} (h : condition = true) (cs : List Char) :
    require condition cs = some ((), cs) := if_pos h

/-! ## Single characters and runs of them -/

/-- The text does not go on with a character of the class. -/
def Ends (p : Char → Bool) (cs : List Char) : Prop := ∀ c ∈ cs.head?, p c = false

/-- No character belongs to both classes. -/
def Apart (q p : Char → Bool) : Prop := ∀ c, q c = true → p c = false

section Characters

variable {p q : Char → Bool} {c : Char} {run : List Char}

theorem apart_mark (hc : q c = false) : Apart q (· = c) := fun x hx =>
  decide_eq_false fun hxc => by rw [hxc, hc] at hx; cases hx

theorem ends_nil (p : Char → Bool) : Ends p [] := nofun

theorem ends_cons : Ends p (c :: cs) ↔ p c = false := by simp [Ends]

theorem Ends.of_imp (h : Ends p cs) (hpq : ∀ c, q c = true → p c = true) : Ends q cs := by
  intro c hc
  have hp := h c hc
  cases hq : q c with
  | false => rfl
  | true => rw [hpq c hq] at hp; cases hp

theorem Ends.mark (h : Ends p cs) (hc : p c = true) : Ends (· = c) cs :=
  h.of_imp fun x hx => by rw [of_decide_eq_true hx]; exact hc

/-- A text that goes on with a character of one class does not go on with one of another. -/
theorem Apart.ends (hqp : Apart q p) (hne : run ≠ []) (hrun : ∀ c ∈ run, q c = true)
    (rest : List Char) : Ends p (run ++ rest) := by
  cases run with
  | nil => exact absurd rfl hne
  | cons c cs => exact ends_cons.2 (hqp c (hrun c List.mem_cons_self))

theorem Ends.behind (h : Ends p rest) (hqp : Apart q p) (hrun : ∀ c ∈ run, q c = true) :
    Ends p (run ++ rest) := by
  cases run with
  | nil => exact h
  | cons c cs => exact ends_cons.2 (hqp c (hrun c List.mem_cons_self))

theorem satisfy_cons (h : p c = true) (cs : List Char) : satisfy p (c :: cs) = some (c, cs) :=
  if_pos h

theorem satisfy_of_ends (h : Ends p cs) : satisfy p cs = none := by
  cases cs with
  | nil => rfl
  | cons c cs => exact if_neg (by rw [ends_cons.1 h]; decide)

theorem char_cons (c : Char) (cs : List Char) : char c (c :: cs) = some (c, cs) :=
  satisfy_cons (decide_eq_true rfl) cs

theorem char_of_ends (h : Ends (· = c) cs) : char c cs = none := satisfy_of_ends h

theorem word_cons (c : Char) (w cs : List Char) : word (c :: w) (c :: cs) = word w cs := by
  simp [word]

theorem word_of_ends {w : List Char} (h : Ends (· = c) cs) : word (c :: w) cs = none := by
  cases cs with
  | nil => rfl
  | cons x cs =>
    have hne : x ≠ c := of_decide_eq_false (ends_cons.1 h)
    refine if_neg fun hprefix => ?_
    obtain ⟨more, hmore⟩ := List.isPrefixOf_iff_prefix.1 hprefix
    exact hne (List.cons.inj hmore).1.symm

theorem span_append (hrun : ∀ c ∈ run, p c = true) (h : Ends p rest) :
    span p (run ++ rest) = some (run, rest) := by
  have hstop : rest.takeWhile p = [] ∧ rest.dropWhile p = rest := by
    cases rest with
    | nil => exact ⟨rfl, rfl⟩
    | cons c cs =>
      have hc : ¬ p c = true := by rw [ends_cons.1 h]; decide
      exact ⟨List.takeWhile_cons_of_neg hc, List.dropWhile_cons_of_neg hc⟩
  rw [span, List.takeWhile_append_of_pos hrun, List.dropWhile_append_of_pos hrun, hstop.1, hstop.2,
    List.append_nil]

theorem span1_append (hne : run ≠ []) (hrun : ∀ c ∈ run, p c = true) (h : Ends p rest) :
    span1 p (run ++ rest) = some (run, rest) := by
  cases run with
  | nil => exact absurd rfl hne
  | cons c cs =>
    rw [span1, List.cons_append, bind_of_some (satisfy_cons (hrun c List.mem_cons_self) _),
      bind_of_some (span_append (fun x hx => hrun x (List.mem_cons_of_mem _ hx)) h)]
    rfl

end Characters

/-! ## Repetitions -/

/-- From the text the parts are taken one after the other, up to a rest that no part starts. -/
inductive Takes (p : Reader α) : List Char → List α → List Char → Prop where
  | stop {cs : List Char} (h : p cs = none) : Takes p cs [] cs
  | next {cs mid rest : List Char} {a : α} {as : List α} (h : p cs = some (a, mid))
      (shorter : mid.length < cs.length) (more : Takes p mid as rest) : Takes p cs (a :: as) rest

/-- **A repetition takes the parts one after the other.** -/
theorem many_of_takes {as : List α} (h : Takes p cs as rest) : many p cs = some (as, rest) := by
  suffices hbound : ∀ bound, cs.length ≤ bound → manyUpTo p bound cs = some (as, rest) from
    hbound cs.length (Nat.le_refl _)
  induction h with
  | @stop cs h =>
    intro bound _
    cases bound with
    | zero => rfl
    | succ bound => simp only [manyUpTo, h]
  | next h shorter _ ih =>
    intro bound hbound
    cases bound with
    | zero => omega
    | succ bound =>
      simp only [manyUpTo, h]
      exact map_of_some (ih bound (by omega))

theorem many_of_none (h : p cs = none) : many p cs = some ([], cs) := many_of_takes (.stop h)

/-- A repetition of single characters takes a run of them. -/
theorem takes_run {p : Reader Char} {run : List Char}
    (hrun : ∀ c ∈ run, ∀ cs, p (c :: cs) = some (c, cs)) (h : p rest = none) :
    Takes p (run ++ rest) run rest := by
  induction run with
  | nil => exact .stop h
  | cons c cs ih =>
    exact .next (hrun c List.mem_cons_self _) (Nat.lt_succ_self _)
      (ih fun x hx => hrun x (List.mem_cons_of_mem _ hx))

end CompositionFunction.Toml.Reader
