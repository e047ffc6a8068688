import CompositionFunction.Proofs.Reply.InPlace
import CompositionFunction.Proofs.Reply.Requirement

/-!
# Which requirements are accepted

All that may be wrong with a requirement can be listed by looking at each of its parts alone. A
requirement with nothing wrong is registered under its ID; of one with several faults the first is
reported, and the response is left as it was.

* `Requirement.complaints` : all that is wrong with a requirement.
* `Response.Registers` : what registering a selector does to a response, and what it leaves alone.
* `Requirement.accepted_iff_complete` : what a call that states a requirement does.
-/

set_option autoImplicit false

namespace CompositionFunction

/-- All that is wrong with the kind and the ID of a requirement. -/
def kindAndIdComplaints (selectedBy : SelectedBy) (id : String) (gvk : GroupVersionKind) :
    List RequirementFault :=
  (if gvk.group = "" ∧ gvk.version = "" ∧ gvk.kind = "" then [.emptyKind selectedBy] else []) ++
  (if gvk.version = "" ∨ gvk.kind = "" then [.incompleteKind selectedBy gvk] else []) ++
  (if id = "" then [.emptyId selectedBy] else [])

/-- The checks stop at the first fault. -/
theorem requirementFault?_eq_head? (selectedBy : SelectedBy) (id : String)
    (gvk : GroupVersionKind) :
    requirementFault? selectedBy id gvk = (kindAndIdComplaints selectedBy id gvk).head? := by
  have hempty : gvk.isEmpty = true ↔ gvk.group = "" ∧ gvk.version = "" ∧ gvk.kind = "" := by
    simp [GroupVersionKind.isEmpty, and_assoc]
  have hincomplete : (!gvk.isComplete) = true ↔ gvk.version = "" ∨ gvk.kind = "" := by
    simp [GroupVersionKind.isComplete, Decidable.or_iff_not_imp_left]
  unfold requirementFault? kindAndIdComplaints
  simp only [hempty, hincomplete]
  split
  · rfl
  · split
    · rfl
    · split <;> rfl

namespace Requirement

/-- What the requirement selects resources by. -/
def selectedBy (q : Requirement) : SelectedBy :=
  match q.selection with
  | .byName _ => .name
  | .byLabels _ => .labels

/-- All that is wrong with a requirement, by weight. -/
def complaints (q : Requirement) : List RequirementFault :=
  kindAndIdComplaints q.selectedBy q.id q.gvk ++
  (if q.selection = .byName "" then [.emptyName] else [])

theorem refusal?_eq_head? (q : Requirement) : q.refusal? = q.complaints.head? := by
  obtain ⟨id, gvk, selection⟩ := q
  unfold refusal? complaints
  rw [List.head?_append]
  cases selection with
  | byName name =>
    show nameFault? id name gvk = _
    unfold nameFault?
    rw [requirementFault?_eq_head?]
    show _ = (kindAndIdComplaints .name id gvk).head?.or _
    cases (kindAndIdComplaints .name id gvk).head? with
    | some fault => rfl
    | none => by_cases hname : name = "" <;> simp [hname]
  | byLabels labels =>
    show requirementFault? .labels id gvk = (kindAndIdComplaints .labels id gvk).head?.or _
    rw [requirementFault?_eq_head?]
    simp

/-- What a call that states a requirement does in place. -/
theorem perform_call (r : Response) (q : Requirement) :
    q.call.perform.on r = match q.refusal? with
      | some fault => (.error fault.error, r)
      | none => (.ok (), r.require q.id q.selector) := by
  have hrun := Call.run_call r q
  cases hrefusal : q.refusal? with
  | some fault =>
    rw [hrefusal] at hrun
    exact Call.perform_of_error hrun
  | none =>
    rw [hrefusal] at hrun
    exact Call.perform_of_ok hrun

theorem isOk_perform_call (r : Response) (q : Requirement) :
    (q.call.perform.on r).1.isOk = true ↔ q.refusal? = none := by
  rw [perform_call]
  cases q.refusal? with
  | some fault => exact ⟨nofun, nofun⟩
  | none => exact ⟨fun _ => rfl, fun _ => rfl⟩

end Requirement

/-- `r.Registers id s next`: the response `next` is `r` with the selector `s` under an ID. -/
structure Response.Registers (r : Response) (id : String) (s : ResourceSelector)
    (next : Response) : Prop where
  entry : next.selectorAt? id = some s
  others : ∀ other, other ≠ id → next.selectorAt? other = r.selectorAt? other
  rest : next = { r with requirements := next.requirements }

theorem Response.registers_require (r : Response) (id : String) (s : ResourceSelector) :
    r.Registers id s (r.require id s) where
  entry := by rw [selectorAt?_require, if_pos rfl, Option.some_or]
  others other hother := by rw [selectorAt?_require, if_neg (Ne.symm hother), Option.none_or]
  rest := rfl

namespace Requirement

/-- **A requirement is accepted exactly if it is complete, and a refused one leaves no trace.** By
name it needs a version, a kind, an ID and a name, by labels a version, a kind and an ID. The first
complaint is the error, and then the response is what it was. Without complaints the selector is
registered under the ID, with the version alone as its `apiVersion` if there is no group, and
nothing else changes. -/
theorem accepted_iff_complete (r : Response) :
    (∀ id name gvk, ((Call.requireByName id name gvk).perform.on r).1.isOk = true ↔
      gvk.version ≠ "" ∧ gvk.kind ≠ "" ∧ id ≠ "" ∧ name ≠ "") ∧
    (∀ id labels gvk, ((Call.requireByLabels id labels gvk).perform.on r).1.isOk = true ↔
      gvk.version ≠ "" ∧ gvk.kind ≠ "" ∧ id ≠ "") ∧
    ∀ q : Requirement, match q.complaints.head? with
      | some fault => q.call.perform.on r = (.error (.validation fault.message), r)
      | none => ∃ next, q.call.perform.on r = (.ok (), next) ∧
        r.Registers q.id
          ⟨if q.gvk.group = "" then q.gvk.version else q.gvk.group ++ "/" ++ q.gvk.version,
            q.gvk.kind, q.selection⟩ next := by
  refine ⟨fun id name gvk => ?_, fun id labels gvk => ?_, fun q => ?_⟩
  · exact (isOk_perform_call r ⟨id, gvk, .byName name⟩).trans nameFault?_eq_none
  · exact (isOk_perform_call r ⟨id, gvk, .byLabels ⟨labels⟩⟩).trans requirementFault?_eq_none
  · have hperform := perform_call r q
    rw [refusal?_eq_head?] at hperform
    cases hcomplaint : q.complaints.head? with
    | some fault =>
      rw [hcomplaint] at hperform
      exact hperform
    | none =>
      rw [hcomplaint] at hperform
      exact ⟨_, hperform, r.registers_require q.id q.selector⟩

/-- Labels, even without any of them, take the place of a name. -/
example : (((Call.requireByLabels "id" .empty ⟨"apps", "v1", "Deployment"⟩).perform.on
    (Response.empty.require "id" ⟨"v1", "Secret", .byName "n"⟩)).2.selectorAt? "id") =
      some ⟨"apps/v1", "Deployment", .byLabels ⟨.empty⟩⟩ := rfl

end Requirement

end CompositionFunction
