import CompositionFunction.Proofs.Schema.Nesting

/-!
# Levels of shapes

A shape without a place for content of any kind is written within a depth that the shape alone
decides. A record is as deep as the deepest of the fields that are written.

* `Shape.levels?` : the levels of a shape, if they are limited.
* `Shape.depth_le` : a value is written within the levels of its shape.
* `Fields.membersDepth_cons_le` : the depth of a record, field by field.
-/

set_option autoImplicit false

namespace CompositionFunction.Schema

open Json

/-- The greater of two limits, if both are limited. -/
def maxLevels? (a b : Option Nat) : Option Nat := a.bind fun n => b.map fun k => max n k

mutual

/-- How many containers a value may be written in, if the shape limits it. -/
def Shape.levels? : {α : Type} → Shape α → Option Nat
  | _, .any => none
  | _, .text => some 0
  | _, .object => none
  | _, .map value => value.levels?.map Nat.succ
  | _, .list item => item.levels?.map Nat.succ
  | _, .choice _ _ => some 0
  | _, .either _ leftValue _ rightValue =>
    (maxLevels? leftValue.levels? rightValue.levels?).map Nat.succ
  | _, .record _ fields => fields.levels?.map Nat.succ
  | _, .recordWith _ fields _ _ leftValue _ rightValue =>
    (maxLevels? fields.levels? (maxLevels? leftValue.levels? rightValue.levels?)).map Nat.succ
  | _, .refined base _ _ => base.levels?
termination_by structural _ s => s

/-- The levels of a field. -/
def Field.levels? : {α : Type} → Field α → Option Nat
  | _, .required _ shape => shape.levels?
  | _, .defaulted _ shape _ => shape.levels?
  | _, .trimmed _ shape _ _ => shape.levels?
  | _, .optional _ shape => shape.levels?
termination_by structural _ f => f

/-- The greatest levels of some fields. -/
def Fields.levels? : {αs : List Type} → Fields αs → Option Nat
  | _, .nil => some 0
  | _, .cons field rest => maxLevels? field.levels? rest.levels?
termination_by structural _ fs => fs

end

theorem maxLevels?_eq_some {a b : Option Nat} {n : Nat} (h : maxLevels? a b = some n) :
    ∃ k l, a = some k ∧ b = some l ∧ k ≤ n ∧ l ≤ n := by
  obtain ⟨k, rfl, hk⟩ := Option.bind_eq_some_iff.1 h
  obtain ⟨l, rfl, rfl⟩ := Option.map_eq_some_iff.1 hk
  exact ⟨k, l, rfl, rfl, Nat.le_max_left k l, Nat.le_max_right k l⟩

section Levels

variable {α : Type} {αs : List Type}

/-- A record is as deep as the deepest of the fields that are written. -/
theorem Fields.membersDepth_cons_le {n : Nat} {field : Field α} {rest : Fields αs} {a : α}
    {row : Row αs} :
    Document.membersDepth ((Fields.cons field rest).members (a, row)) ≤ n ↔
      (∀ d, field.document? a = some d → d.depth ≤ n) ∧
        Document.membersDepth (rest.members row) ≤ n := by
  rw [Document.membersDepth_le_iff, Document.membersDepth_le_iff]
  exact Fields.forall_members_cons (p := fun d => d.depth ≤ n)

/-- An optional field is as deep as what it holds. -/
theorem Field.optional_depth_le {n : Nat} {name : String} {shape : Shape α} {a : Option α} :
    (∀ d, (Field.optional name shape).document? a = some d → d.depth ≤ n) ↔
      ∀ x, a = some x → (shape.document x).depth ≤ n := by
  have hdocument : (Field.optional name shape).document? a = a.map shape.document := by
    cases a <;> rfl
  simp [hdocument]

end Levels

mutual

/-- **A value is written within the levels of its shape.** -/
theorem Shape.depth_le : ∀ {α : Type} (shape : Shape α) {n : Nat} (a : α),
    shape.levels? = some n → (shape.document a).depth ≤ n
  | _, .any, _, _, h => by cases h
  | _, .text, _, _, _ => Nat.zero_le _
  | _, .object, _, _, h => by cases h
  | _, .map value, n, m, h => by
    obtain ⟨k, hk, rfl⟩ := Option.map_eq_some_iff.1 h
    refine Nat.succ_le_succ (Document.membersDepth_le_iff.2 fun x hx => ?_)
    obtain ⟨e, _, rfl⟩ := List.mem_map.1 hx
    exact value.depth_le e.2 hk
  | _, .list item, n, as, h => by
    obtain ⟨k, hk, rfl⟩ := Option.map_eq_some_iff.1 h
    refine Nat.succ_le_succ (Document.itemsDepth_le_iff.2 fun d hd => ?_)
    obtain ⟨a, _, rfl⟩ := List.mem_map.1 hd
    exact item.depth_le a hk
  | _, .choice _ _, _, _, _ => Nat.zero_le _
  | _, .either _ leftValue _ rightValue, n, a, h => by
    obtain ⟨m, hm, rfl⟩ := Option.map_eq_some_iff.1 h
    obtain ⟨k, l, hk, hl, hkm, hlm⟩ := maxLevels?_eq_some hm
    cases a with
    | inl a =>
      have ha := Nat.le_trans (leftValue.depth_le a hk) hkm
      exact Nat.succ_le_succ (Nat.max_le.2 ⟨ha, Nat.zero_le _⟩)
    | inr b =>
      have hb := Nat.le_trans (rightValue.depth_le b hl) hlm
      exact Nat.succ_le_succ (Nat.max_le.2 ⟨hb, Nat.zero_le _⟩)
  | _, .record _ fields, n, row, h => by
    obtain ⟨k, hk, rfl⟩ := Option.map_eq_some_iff.1 h
    exact Nat.succ_le_succ (fields.membersDepth_le row hk)
  | _, .recordWith _ fields _ _ leftValue _ rightValue, n, (row, a), h => by
    obtain ⟨m, hm, rfl⟩ := Option.map_eq_some_iff.1 h
    obtain ⟨i, j, hi, hj, him, hjm⟩ := maxLevels?_eq_some hm
    obtain ⟨k, l, hk, hl, hkj, hlj⟩ := maxLevels?_eq_some hj
    have hrow := Nat.le_trans (fields.membersDepth_le row hi) him
    cases a with
    | inl a =>
      have ha := Nat.le_trans (leftValue.depth_le a hk) (Nat.le_trans hkj hjm)
      exact Nat.succ_le_succ (membersDepth_append hrow ha)
    | inr b =>
      have hb := Nat.le_trans (rightValue.depth_le b hl) (Nat.le_trans hlj hjm)
      exact Nat.succ_le_succ (membersDepth_append hrow hb)
  | _, .refined base _ encode, _, b, h => base.depth_le (encode b) h
termination_by structural _ shape => shape

theorem Field.depth_le : ∀ {α : Type} (field : Field α) {n : Nat} (a : α) (d : Document),
    field.levels? = some n → field.document? a = some d → d.depth ≤ n
  | _, .required _ shape, _, a, d, h, hd => Option.some.inj hd ▸ shape.depth_le a h
  | _, .defaulted _ shape _, _, a, d, h, hd => Option.some.inj hd ▸ shape.depth_le a h
  | _, .trimmed _ shape default same, _, a, d, h, hd => by
    cases same a default with
    | isTrue hsame =>
      subst hsame
      rw [Field.document?_trimmed_self] at hd
      cases hd
    | isFalse hne =>
      rw [Field.document?_trimmed_ne hne] at hd
      exact Option.some.inj hd ▸ shape.depth_le a h
  | _, .optional _ shape, _, a, d, h, hd =>
    Field.optional_depth_le.2 (fun x _ => shape.depth_le x h) d hd
termination_by structural _ field => field

theorem Fields.membersDepth_le : ∀ {αs : List Type} (fields : Fields αs) {n : Nat} (row : Row αs),
    fields.levels? = some n → Document.membersDepth (fields.members row) ≤ n
  | _, .nil, _, _, _ => Nat.zero_le _
  | _, .cons field rest, _, (a, row), h => by
    obtain ⟨k, l, hk, hl, hkn, hln⟩ := maxLevels?_eq_some h
    refine Fields.membersDepth_cons_le.2 ⟨fun d hd => ?_, ?_⟩
    · exact Nat.le_trans (field.depth_le a d hk hd) hkn
    · exact Nat.le_trans (rest.membersDepth_le row hl) hln
termination_by structural _ fields => fields

end

end CompositionFunction.Schema
