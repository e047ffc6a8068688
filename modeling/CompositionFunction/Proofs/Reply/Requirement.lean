import CompositionFunction.Proofs.GroupVersionKind
import CompositionFunction.Proofs.Reply.Run

/-!
# Requirements that are accepted

A requirement is accepted if it could be looked up. What is registered was accepted, so it is
complete, and if its kind was split from an `apiVersion`, the registered selector still tells it.

* `Requirement.refusal?_eq_none` : which requirements are accepted.
* `Call.registered` : what stands under an ID was stated by the last accepted call.
-/

set_option autoImplicit false

namespace CompositionFunction

theorem requirementFault?_eq_none {selectedBy : SelectedBy} {id : String}
    {gvk : GroupVersionKind} :
    requirementFault? selectedBy id gvk = none ↔ gvk.version ≠ "" ∧ gvk.kind ≠ "" ∧ id ≠ "" := by
  have hempty : gvk.isEmpty = true → gvk.version = "" := by
    unfold GroupVersionKind.isEmpty
    simp only [Bool.and_eq_true, decide_eq_true_eq]
    exact fun h => h.1.2
  have hcomplete : gvk.isComplete = true ↔ gvk.version ≠ "" ∧ gvk.kind ≠ "" := by
    simp [GroupVersionKind.isComplete]
  unfold requirementFault?
  split
  · rename_i h
    simp [hempty h]
  · split
    · rename_i h
      simp only [reduceCtorEq, false_iff]
      intro hparts
      rw [hcomplete.2 ⟨hparts.1, hparts.2.1⟩] at h
      cases h
    · rename_i h
      have hparts := hcomplete.1 (by simpa using h)
      by_cases hid : id = "" <;> simp [hid, hparts]

theorem nameFault?_eq_none {id name : String} {gvk : GroupVersionKind} :
    nameFault? id name gvk = none ↔
      gvk.version ≠ "" ∧ gvk.kind ≠ "" ∧ id ≠ "" ∧ name ≠ "" := by
  have hcommon := @requirementFault?_eq_none .name id gvk
  unfold nameFault?
  cases hfault : requirementFault? .name id gvk with
  | some fault =>
    simp only [hfault, reduceCtorEq, false_iff] at hcommon ⊢
    exact fun h => hcommon ⟨h.1, h.2.1, h.2.2.1⟩
  | none =>
    have hparts := hcommon.1 hfault
    by_cases hname : name = "" <;> simp [hname, hparts]

namespace Requirement

/-- A requirement is accepted if its kind has a version and a kind, if it has an ID, and if it gives
a name where it selects by name. -/
theorem refusal?_eq_none {q : Requirement} :
    q.refusal? = none ↔ q.gvk.version ≠ "" ∧ q.gvk.kind ≠ "" ∧ q.id ≠ "" ∧
      ∀ name, q.selection = .byName name → name ≠ "" := by
  obtain ⟨id, gvk, selection⟩ := q
  cases selection with
  | byName name =>
    show nameFault? id name gvk = none ↔ _
    rw [nameFault?_eq_none]
    simp
  | byLabels labels =>
    show requirementFault? .labels id gvk = none ↔ _
    rw [requirementFault?_eq_none]
    simp

@[simp] theorem requirement?_call (q : Requirement) : q.call.requirement? = some q := by
  obtain ⟨id, gvk, selection⟩ := q
  cases selection <;> rfl

@[simp] theorem target_call (q : Requirement) : q.call.target = .requirements := by
  obtain ⟨id, gvk, selection⟩ := q
  cases selection <;> rfl

/-- The call that states a requirement is the one of that requirement. -/
theorem call_of_requirement? {c : Call} {q : Requirement} (h : c.requirement? = some q) :
    q.call = c := by
  cases c with
  | requireByName => cases h; rfl
  | requireByLabels => cases h; rfl
  | _ => cases h

end Requirement

/-- A registered selector and its ID say what to look up. -/
structure ResourceSelector.IsComplete (id : String) (s : ResourceSelector) : Prop where
  id_ne : id ≠ ""
  apiVersion_ne : s.apiVersion ≠ ""
  kind_ne : s.kind ≠ ""
  name_ne : ∀ name, s.selection = .byName name → name ≠ ""

/-- A registered selector is that of a requirement, whose kind can be split from it again. -/
structure ResourceSelector.StandsFor (s : ResourceSelector) (q : Requirement) : Prop where
  selector_eq : q.selector = s
  splits : GroupVersionKind.ofApiVersion s.apiVersion s.kind = q.gvk
  version_ne : q.gvk.version ≠ ""

namespace Requirement

variable {q : Requirement}

/-- What an accepted requirement registers is complete. -/
theorem selector_isComplete (h : q.refusal? = none) : q.selector.IsComplete q.id := by
  obtain ⟨hversion, hkind, hid, hname⟩ := refusal?_eq_none.1 h
  exact ⟨hid, GroupVersionKind.apiVersion_ne_empty hversion, hkind, hname⟩

/-- What an accepted requirement registers tells its kind, if that was split from an
`apiVersion`. -/
theorem selector_standsFor (h : q.refusal? = none) (hsplit : q.gvk.IsSplit) :
    q.selector.StandsFor q :=
  ⟨rfl, GroupVersionKind.ofApiVersion_apiVersion hsplit.slash_notMem, (refusal?_eq_none.1 h).1⟩

end Requirement

namespace Call

/-- What stands under an ID in the end, if nothing stood there before, was stated by the last
accepted call for that ID. -/
theorem registered {start : Response} {calls : List Call} {id : String} {s : ResourceSelector}
    (hstart : start.selectorAt? id = none) (h : (applyAll start calls).selectorAt? id = some s) :
    ∃ q, ((succeeded start calls).filterMap (requirementAt? id)).getLast? = some q ∧
      q.selector = s ∧ q.id = id ∧ q.refusal? = none ∧ q.call ∈ calls := by
  rw [view_applyAll fun h => selectorAt?_of_run h id, hstart, Option.or_none,
    filterMap_selectorAt?,
    List.getLast?_map] at h
  obtain ⟨q, hq, hs⟩ := Option.map_eq_some_iff.1 h
  obtain ⟨c, hc, hstated⟩ := List.mem_filterMap.1 (List.mem_of_getLast? hq)
  obtain ⟨hrequirement, hid⟩ := Option.filter_eq_some_iff.1 hstated
  obtain rfl := Requirement.call_of_requirement? hrequirement
  refine ⟨q, hq, hs, of_decide_eq_true hid, ?_, mem_of_mem_succeeded hc⟩
  obtain ⟨next, hrun⟩ := run_of_mem_succeeded hc start
  rw [run_call] at hrun
  cases hrefusal : q.refusal? with
  | none => rfl
  | some fault => simp [hrefusal] at hrun

end Call

end CompositionFunction
