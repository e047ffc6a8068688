import CompositionFunction.Proofs.Json.Insertion
import CompositionFunction.Schema.Shape

/-!
# Records within messages

The shape of a message says which objects of a document are read as records, and as which ones.
What one of them does not know it skips; but within a record with a member more all is set aside to
be read again later, unless it belongs to a field.

* `Shape.roleAt` : the role of the object at a place.
* `Shape.isWithin_of_isAside` : what is set aside stands in a record with a member more.
-/

set_option autoImplicit false

namespace CompositionFunction.Schema

open Json

/-- The role of an object that is read as a record. -/
structure Role where
  /-- The name of the record. -/
  record : String
  /-- The names that mean something in it. -/
  names : List String
  /-- What else it holds is set aside, by the record or by one around it. -/
  isAside : Bool
deriving DecidableEq, Repr

/-- The role within what is set aside. -/
def Role.aside (role : Role) : Role := { role with isAside := true }

mutual

/-- The role of the object at a place, if a value of the shape has a record there. -/
def Shape.roleAt : {α : Type} → Shape α → Pointer → Option Role
  | _, .any, _ => none
  | _, .text, _ => none
  | _, .object, _ => none
  | _, .map value, pointer =>
    match pointer with
    | .member (some _) :: pointer => value.roleAt pointer
    | _ => none
  | _, .list item, pointer =>
    match pointer with
    | .item _ :: pointer => item.roleAt pointer
    | _ => none
  | _, .choice _ _, _ => none
  | _, .either left leftValue right rightValue, pointer =>
    match pointer with
    | .member (some name) :: pointer =>
      if name = left then leftValue.roleAt pointer
      else if name = right then rightValue.roleAt pointer
      else none
    | _ => none
  | _, .record name fields, pointer =>
    match pointer with
    | [] => some ⟨name, fields.names, false⟩
    | .member (some name) :: pointer => fields.roleUnder name pointer
    | .item index :: pointer => fields.roleIn index pointer
    | _ => none
  | _, .recordWith name fields _ left leftValue right rightValue, pointer =>
    match pointer with
    | [] => some ⟨name, left :: right :: fields.names, true⟩
    | .member (some name) :: pointer =>
      if name ∈ fields.names then fields.roleUnder name pointer
      else if name = left then (leftValue.roleAt pointer).map Role.aside
      else if name = right then (rightValue.roleAt pointer).map Role.aside
      else none
    | _ => none
  | _, .refined base _ _, pointer => base.roleAt pointer
termination_by structural _ s => s

/-- The same for a place in the value of a field. -/
def Field.roleAt : {α : Type} → Field α → Pointer → Option Role
  | _, .required _ shape, pointer => shape.roleAt pointer
  | _, .defaulted _ shape _, pointer => shape.roleAt pointer
  | _, .trimmed _ shape _ _, pointer => shape.roleAt pointer
  | _, .optional _ shape, pointer => shape.roleAt pointer
termination_by structural _ f => f

/-- The same for a place in the value of the field of a name. -/
def Fields.roleUnder (name : String) : {αs : List Type} → Fields αs → Pointer → Option Role
  | _, .nil, _ => none
  | _, .cons field rest, pointer =>
    if name = field.name then field.roleAt pointer else rest.roleUnder name pointer
termination_by structural _ fs => fs

/-- The same for a place in an item of a record in array form. -/
def Fields.roleIn : {αs : List Type} → Fields αs → Nat → Pointer → Option Role
  | _, .nil, _, _ => none
  | _, .cons field rest, index, pointer =>
    match index with
    | 0 => field.roleAt pointer
    | index + 1 => rest.roleIn index pointer
termination_by structural _ fs => fs

end

/-! ## Within a record -/

/-- By their roles, the object at a place or one around it is read as the record of a name. -/
def IsWithin (roleAt : Pointer → Option Role) (record : String) (pointer : Pointer) : Prop :=
  ∃ outer, outer <+: pointer ∧ ∃ role, roleAt outer = some role ∧ role.record = record

section IsWithin

variable {f g : Pointer → Option Role} {record : String} {pointer : Pointer}

theorem IsWithin.root {role : Role} (h : f [] = some role) (hrecord : role.record = record) :
    IsWithin f record pointer := ⟨[], List.nil_prefix, role, h, hrecord⟩

theorem IsWithin.mono (h : IsWithin f record pointer)
    (hroles : ∀ outer role, f outer = some role → g outer = some role) :
    IsWithin g record pointer := by
  obtain ⟨outer, hprefix, role, hrole, hrecord⟩ := h
  exact ⟨outer, hprefix, role, hroles outer role hrole, hrecord⟩

theorem IsWithin.step (h : IsWithin f record pointer) {key : Key}
    (hroles : ∀ outer role, f outer = some role → g (key :: outer) = some role) :
    IsWithin g record (key :: pointer) := by
  obtain ⟨outer, hprefix, role, hrole, hrecord⟩ := h
  exact ⟨key :: outer, List.cons_prefix_cons.2 ⟨rfl, hprefix⟩, role, hroles outer role hrole,
    hrecord⟩

/-- The places around a place are found by cutting its way short. -/
theorem isWithin_iff : IsWithin f record pointer ↔
    ∃ n ∈ List.range (pointer.length + 1),
      (f (pointer.take n)).any (fun role => role.record = record) = true := by
  simp only [Option.any_eq_true, decide_eq_true_iff]
  constructor
  · rintro ⟨outer, hprefix, role, hrole, hrecord⟩
    have houter : outer = pointer.take outer.length := List.prefix_iff_eq_take.1 hprefix
    have hlength : outer.length < pointer.length + 1 := Nat.lt_succ_of_le hprefix.length_le
    exact ⟨outer.length, List.mem_range.2 hlength, role, houter ▸ hrole, hrecord⟩
  · rintro ⟨n, _, role, hrole, hrecord⟩
    exact ⟨pointer.take n, List.take_prefix n pointer, role, hrole, hrecord⟩

instance : Decidable (IsWithin f record pointer) := decidable_of_iff _ isWithin_iff.symm

end IsWithin

/-! ## What is set aside -/

mutual

/-- All records with a member more have this name. -/
def Shape.setsAsideIn (record : String) : {α : Type} → Shape α → Bool
  | _, .any => true
  | _, .text => true
  | _, .object => true
  | _, .map value => value.setsAsideIn record
  | _, .list item => item.setsAsideIn record
  | _, .choice _ _ => true
  | _, .either _ leftValue _ rightValue =>
    leftValue.setsAsideIn record && rightValue.setsAsideIn record
  | _, .record _ fields => fields.setAsideIn record
  | _, .recordWith name _ _ _ _ _ _ => name = record
  | _, .refined base _ _ => base.setsAsideIn record
termination_by structural _ s => s

/-- The same for a field. -/
def Field.setsAsideIn (record : String) : {α : Type} → Field α → Bool
  | _, .required _ shape => shape.setsAsideIn record
  | _, .defaulted _ shape _ => shape.setsAsideIn record
  | _, .trimmed _ shape _ _ => shape.setsAsideIn record
  | _, .optional _ shape => shape.setsAsideIn record
termination_by structural _ f => f

/-- The same for all fields of a record. -/
def Fields.setAsideIn (record : String) : {αs : List Type} → Fields αs → Bool
  | _, .nil => true
  | _, .cons field rest => field.setsAsideIn record && rest.setAsideIn record
termination_by structural _ fs => fs

end

mutual

/-- **What is set aside stands in a record with a member more.** -/
theorem Shape.isWithin_of_isAside {record : String} : ∀ {α : Type} (shape : Shape α)
    {pointer : Pointer} {role : Role}, shape.setsAsideIn record = true →
      shape.roleAt pointer = some role → role.isAside = true → IsWithin shape.roleAt record pointer
  | _, .any, _, _, _, hrole, _ => by cases hrole
  | _, .text, _, _, _, hrole, _ => by cases hrole
  | _, .object, _, _, _, hrole, _ => by cases hrole
  | _, .map value, .member (some _) :: _, _, hname, hrole, haside =>
    (value.isWithin_of_isAside hname hrole haside).step fun _ _ h => h
  | _, .list item, .item _ :: _, _, hname, hrole, haside =>
    (item.isWithin_of_isAside hname hrole haside).step fun _ _ h => h
  | _, .choice _ _, _, _, _, hrole, _ => by cases hrole
  | _, .either left leftValue right rightValue, .member (some name) :: pointer, role, hname, hrole,
      haside => by
    obtain ⟨hleft, hright⟩ := (Bool.and_eq_true _ _).mp hname
    have hrole : (if name = left then leftValue.roleAt pointer
      else if name = right then rightValue.roleAt pointer else none) = some role := hrole
    split at hrole
    · rename_i hn
      exact (leftValue.isWithin_of_isAside hleft hrole haside).step fun _ _ h => (if_pos hn).trans h
    · rename_i hn
      split at hrole
      · rename_i hn'
        exact (rightValue.isWithin_of_isAside hright hrole haside).step fun _ _ h =>
          (if_neg hn).trans ((if_pos hn').trans h)
      · cases hrole
  | _, .record _ _, [], _, _, hrole, haside => by cases hrole; cases haside
  | _, .record _ fields, .member (some name) :: _, _, hname, hrole, haside =>
    (fields.isWithin_of_under name hname hrole haside).step fun _ _ h => h
  | _, .record _ fields, .item index :: _, _, hname, hrole, haside =>
    (fields.isWithin_of_in index hname hrole haside).step fun _ _ h => h
  | _, .recordWith _ _ _ _ _ _ _, _, _, hname, _, _ => .root rfl (of_decide_eq_true hname)
  | _, .refined base _ _, _, _, hname, hrole, haside =>
    base.isWithin_of_isAside hname hrole haside
termination_by structural _ shape => shape

theorem Field.isWithin_of_isAside {record : String} : ∀ {α : Type} (field : Field α)
    {pointer : Pointer} {role : Role}, field.setsAsideIn record = true →
      field.roleAt pointer = some role → role.isAside = true → IsWithin field.roleAt record pointer
  | _, .required _ shape, _, _, hname, hrole, haside => shape.isWithin_of_isAside hname hrole haside
  | _, .defaulted _ shape _, _, _, hname, hrole, haside =>
    shape.isWithin_of_isAside hname hrole haside
  | _, .trimmed _ shape _ _, _, _, hname, hrole, haside =>
    shape.isWithin_of_isAside hname hrole haside
  | _, .optional _ shape, _, _, hname, hrole, haside => shape.isWithin_of_isAside hname hrole haside
termination_by structural _ field => field

theorem Fields.isWithin_of_under {record : String} (name : String) : ∀ {αs : List Type}
    (fields : Fields αs) {pointer : Pointer} {role : Role}, fields.setAsideIn record = true →
      fields.roleUnder name pointer = some role → role.isAside = true →
        IsWithin (fields.roleUnder name) record pointer
  | _, .nil, _, _, _, hrole, _ => by cases hrole
  | _, .cons field rest, pointer, role, hname, hrole, haside => by
    obtain ⟨hfield, hrest⟩ := (Bool.and_eq_true _ _).mp hname
    have hrole : (if name = field.name then field.roleAt pointer
      else rest.roleUnder name pointer) = some role := hrole
    split at hrole
    · rename_i hn
      exact (field.isWithin_of_isAside hfield hrole haside).mono fun _ _ h => (if_pos hn).trans h
    · rename_i hn
      exact (rest.isWithin_of_under name hrest hrole haside).mono fun _ _ h => (if_neg hn).trans h
termination_by structural _ fields => fields

theorem Fields.isWithin_of_in {record : String} : ∀ {αs : List Type} (fields : Fields αs)
    (index : Nat) {pointer : Pointer} {role : Role}, fields.setAsideIn record = true →
      fields.roleIn index pointer = some role → role.isAside = true →
        IsWithin (fields.roleIn index) record pointer
  | _, .nil, _, _, _, _, hrole, _ => by cases hrole
  | _, .cons field rest, index, _, _, hname, hrole, haside => by
    obtain ⟨hfield, hrest⟩ := (Bool.and_eq_true _ _).mp hname
    cases index with
    | zero => exact field.isWithin_of_isAside hfield hrole haside
    | succ index => exact rest.isWithin_of_in index hrest hrole haside
termination_by structural _ fields => fields

end

end CompositionFunction.Schema
