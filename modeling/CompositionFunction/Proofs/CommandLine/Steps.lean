import CompositionFunction.CommandLine.Respond
import CompositionFunction.Proofs.Reply.Contents

/-!
# The calls that flags stand for

Flags are read kind by kind, and the first malformed one decides. If there is none, they make one
run of calls, in which each refused requirement is followed by a report of its refusal.

* `RespondFlags.calls` : the calls of the flags.
* `responseTo_eq` : the response is that of a run of these calls.
-/

set_option autoImplicit false

namespace CompositionFunction.CommandLine

/-! ## What the flags say -/

/-- The requirement that a flag states by name. -/
def namedBy (raw : String) : Except FlagFault Requirement :=
  (namedRequirement raw).map fun (id, gvk, name) => ⟨id, gvk, .byName name⟩

/-- The requirement that a flag states by labels. -/
def labelledBy (raw : String) : Except FlagFault Requirement :=
  (labelledRequirement raw).map fun (id, gvk, labels) => ⟨id, gvk, .byLabels ⟨labels⟩⟩

namespace RespondFlags

/-- Every flag can be read. -/
structure WellFormed (f : RespondFlags) : Prop where
  context : ∀ raw ∈ f.context, ∃ e, contextEntry raw = .ok e
  requireName : ∀ raw ∈ f.requireName, ∃ e, namedRequirement raw = .ok e
  requireLabels : ∀ raw ∈ f.requireLabels, ∃ e, labelledRequirement raw = .ok e
  results : ∀ raw ∈ f.results, ∃ e, resultEntry raw = .ok e

/-- The faults of the malformed flags, in the order in which the flags are read. -/
def faults (f : RespondFlags) : List FlagFault :=
  f.context.filterMap (fun raw => errorOf? (contextEntry raw)) ++
  f.requireName.filterMap (fun raw => errorOf? (namedRequirement raw)) ++
  f.requireLabels.filterMap (fun raw => errorOf? (labelledRequirement raw)) ++
  f.results.filterMap fun raw => errorOf? (resultEntry raw)

/-- The keys of the context with their values. -/
def contextEntries (f : RespondFlags) : List (String × Json) :=
  f.context.filterMap fun raw => (contextEntry raw).toOption

/-- The requirements, those by name before those by labels. -/
def requirements (f : RespondFlags) : List Requirement :=
  f.requireName.filterMap (fun raw => (namedBy raw).toOption) ++
  f.requireLabels.filterMap fun raw => (labelledBy raw).toOption

/-- The requirements that are accepted. -/
def accepted (f : RespondFlags) : List Requirement :=
  f.requirements.filter fun q => q.refusal?.isNone

/-- Why the other ones are refused. -/
def refusals (f : RespondFlags) : List RequirementFault :=
  f.requirements.filterMap Requirement.refusal?

/-- The results to report. -/
def resultEntries (f : RespondFlags) : List FunctionResult :=
  f.results.filterMap fun raw =>
    (resultEntry raw).toOption.map fun (severity, message) => ⟨severity, message⟩

end RespondFlags

/-! ## The first malformed flag -/

theorem wellFormed_snd (steps : List (Except FlagFault Step)) :
    (wellFormed steps).2 = (steps.filterMap errorOf?).head? := by
  induction steps with
  | nil => rfl
  | cons step steps ih =>
    cases step with
    | error fault => rfl
    | ok step => exact ih

theorem wellFormed_fst {steps : List (Except FlagFault Step)} (h : steps.filterMap errorOf? = []) :
    (wellFormed steps).1 = steps.filterMap Except.toOption := by
  induction steps with
  | nil => rfl
  | cons step steps ih =>
    cases step with
    | error fault => cases h
    | ok step => exact congrArg (step :: ·) (ih h)

namespace RespondFlags

variable {f : RespondFlags}

theorem filterMap_errorOf?_steps (f : RespondFlags) : f.steps.filterMap errorOf? = f.faults := by
  unfold steps faults
  simp only [List.filterMap_append, List.filterMap_map, Function.comp_def, errorOf?_map]

theorem wellFormed_iff : f.WellFormed ↔ f.faults = [] := by
  unfold faults
  simp only [List.append_eq_nil_iff, List.filterMap_eq_nil_iff, errorOf?_eq_none, and_assoc]
  constructor
  · intro h
    exact ⟨h.context, h.requireName, h.requireLabels, h.results⟩
  · rintro ⟨hcontext, hname, hlabels, hresults⟩
    exact ⟨hcontext, hname, hlabels, hresults⟩

end RespondFlags

/-! ## The calls of the flags

A step whose requirement is refused is a call that fails and a report of the refusal. With both among
the calls, what is known of runs of calls holds for steps. -/

/-- What is done with a requirement: it is stated, and a refusal is reported as fatal. -/
def requirementCalls (q : Requirement) : List Call :=
  q.call :: q.refusal?.toList.map fun fault => Call.fatal fault.error.text

namespace Step

/-- The calls that a step stands for. -/
def calls (s : Step) : List Call :=
  s.call :: s.refusal?.toList.map fun e => Call.fatal e.text

/-- The step of a key of the context. -/
def ofContext (e : String × Json) : Step := .context e.1 e.2

/-- The step of a requirement. -/
def ofRequirement (q : Requirement) : Step :=
  match q.selection with
  | .byName name => .requireName q.id name q.gvk
  | .byLabels labels => .requireLabels q.id labels.labels q.gvk

/-- The step of a result. -/
def ofResult (result : FunctionResult) : Step := .result result.severity result.message

@[simp] theorem call_ofRequirement (q : Requirement) : (ofRequirement q).call = q.call := by
  obtain ⟨id, gvk, selection⟩ := q
  cases selection <;> rfl

@[simp] theorem refusal?_ofRequirement (q : Requirement) :
    (ofRequirement q).refusal? = q.refusal?.map RequirementFault.error := by
  obtain ⟨id, gvk, selection⟩ := q
  cases selection <;> rfl

theorem calls_ofRequirement (q : Requirement) : (ofRequirement q).calls = requirementCalls q := by
  unfold calls requirementCalls
  rw [call_ofRequirement, refusal?_ofRequirement]
  cases q.refusal? <;> rfl

/-- A step fails for the reason that it is refused for. -/
theorem error?_call (s : Step) (r : Response) : s.call.error? r = s.refusal? := by
  cases s with
  | context key value => rfl
  | requireName id name gvk => exact Call.error?_call r ⟨id, gvk, .byName name⟩
  | requireLabels id labels gvk => exact Call.error?_call r ⟨id, gvk, .byLabels ⟨labels⟩⟩
  | result severity message => rfl

/-- A step makes its calls. -/
theorem apply_eq (s : Step) (r : Response) : s.apply r = Call.applyAll r s.calls := by
  have herror := s.error?_call r
  rw [Call.error?_run] at herror
  unfold calls
  rw [← herror]
  show _ = Call.applyAll (s.call.apply r) _
  unfold apply Call.apply
  cases s.call.run r <;> rfl

end Step

theorem afterSteps_eq (request : Request) (ttl : Duration) (steps : List Step) :
    afterSteps request ttl steps =
      Call.applyAll (.replyTo request ttl) (steps.flatMap Step.calls) := by
  unfold afterSteps Call.applyAll
  rw [List.foldl_flatMap]
  congr 1
  funext r s
  exact s.apply_eq r

namespace RespondFlags

variable {f : RespondFlags}

/-- The calls of the flags, in the order in which they are made. -/
def calls (f : RespondFlags) : List Call :=
  f.contextEntries.map (fun e => .setContext e.1 e.2) ++
  f.requirements.flatMap requirementCalls ++
  f.resultEntries.map fun result => .report result.severity result.message

/-- The steps of the flags that can be read. -/
theorem filterMap_toOption_steps (f : RespondFlags) :
    f.steps.filterMap Except.toOption =
      f.contextEntries.map Step.ofContext ++ f.requirements.map Step.ofRequirement ++
        f.resultEntries.map Step.ofResult := by
  unfold steps contextEntries requirements resultEntries namedBy labelledBy
  simp only [List.filterMap_append, List.filterMap_map, Function.comp_def, toOption_map,
    List.map_append, List.map_filterMap, Option.map_map, List.append_assoc]
  rfl

theorem flatMap_calls (f : RespondFlags) :
    (f.steps.filterMap Except.toOption).flatMap Step.calls = f.calls := by
  rw [filterMap_toOption_steps]
  unfold calls
  simp only [List.flatMap_append, List.flatMap_map, Step.calls_ofRequirement]
  rw [List.map_eq_flatMap, List.map_eq_flatMap]
  rfl

end RespondFlags

/-- The first malformed flag decides; without one, the flags make a run of calls. -/
theorem responseTo_eq (request : Request) (f : RespondFlags) (config : Config) :
    responseTo request f config = match f.faults.head? with
      | some fault => .error fault
      | none => .ok (Call.applyAll (.replyTo request (f.ttlOr config)) f.calls) := by
  have hcases : responseTo request f config = match (wellFormed f.steps).2 with
      | some fault => .error fault
      | none => .ok (afterSteps request (f.ttlOr config) (wellFormed f.steps).1) := by
    unfold responseTo
    rcases wellFormed f.steps with ⟨steps, _ | fault⟩ <;> rfl
  rw [hcases, wellFormed_snd, f.filterMap_errorOf?_steps]
  cases hfirst : f.faults.head? with
  | some fault => rfl
  | none =>
    have hnone : f.steps.filterMap errorOf? = [] := by
      rw [f.filterMap_errorOf?_steps]
      exact List.head?_eq_none_iff.1 hfirst
    rw [wellFormed_fst hnone, afterSteps_eq, f.flatMap_calls]

theorem responseTo_eq_ok {request : Request} {f : RespondFlags} {config : Config} {r : Response} :
    responseTo request f config = .ok r ↔
      f.WellFormed ∧ Call.applyAll (.replyTo request (f.ttlOr config)) f.calls = r := by
  rw [responseTo_eq, RespondFlags.wellFormed_iff]
  cases hfirst : f.faults.head? with
  | some fault =>
    have hfaults : f.faults ≠ [] := by
      intro hnil
      rw [hnil] at hfirst
      cases hfirst
    simp [hfaults]
  | none => simp [List.head?_eq_none_iff.1 hfirst]

theorem responseTo_eq_error {request : Request} {f : RespondFlags} {config : Config}
    {fault : FlagFault} :
    responseTo request f config = .error fault ↔ f.faults.head? = some fault := by
  rw [responseTo_eq]
  cases f.faults.head? <;> simp

end CompositionFunction.CommandLine
