import CompositionFunction.Proofs.CommandLine.LabelsFlag
import CompositionFunction.Proofs.CommandLine.Steps
import CompositionFunction.Proofs.Reply.Interleaving
import CompositionFunction.Proofs.Reply.Requirement

/-!
# What flags make of a request

Each section of the response sees its own calls only, so what it holds is said of the flags for
that section alone.

* `RespondFlags.Answered` : the response that the flags want.
* `response_of_flags` : when there is a response, and which one.
* `registered_requirements_complete` : what is registered can be looked up.
-/

set_option autoImplicit false

namespace CompositionFunction.CommandLine

/-! ## The calls to each section -/

namespace RespondFlags

open Call

theorem addressing_requirementCalls (s : Section) (q : Requirement) :
    addressing s (requirementCalls q) =
      (if .requirements = s then [q.call] else []) ++
        if .results = s then q.refusal?.toList.map (fun fault => fatal fault.error.text) else [] := by
  have hcall := addressing_map Requirement.call Requirement.target_call s [q]
  have hreport := addressing_map (fun fault : RequirementFault => fatal fault.error.text)
    (fun _ => rfl) s q.refusal?.toList
  rw [← hreport]
  exact (addressing_append s [q.call] _).trans (congrArg (· ++ _) hcall)

theorem addressing_calls (s : Section) (f : RespondFlags) :
    addressing s f.calls =
      (if .context = s then f.contextEntries.map (fun e => .setContext e.1 e.2) else []) ++
      f.requirements.flatMap (fun q => addressing s (requirementCalls q)) ++
      if .results = s then f.resultEntries.map (fun result => .report result.severity result.message)
      else [] := by
  rw [calls, addressing_append, addressing_append, addressing_flatMap,
    addressing_map (fun e : String × Json => setContext e.1 e.2) fun _ => rfl,
    addressing_map (fun result : FunctionResult => report result.severity result.message) fun _ => rfl]

theorem addressing_context (f : RespondFlags) :
    addressing .context f.calls = f.contextEntries.map fun e => .setContext e.1 e.2 := by
  simp [addressing_calls, addressing_requirementCalls]

theorem addressing_requirements (f : RespondFlags) :
    addressing .requirements f.calls = f.requirements.map Requirement.call := by
  simp [addressing_calls, addressing_requirementCalls, List.map_eq_flatMap]

/-- Of the calls of requirements, those that follow a refused one report a result. -/
theorem filterMap_result?_requirements (qs : List Requirement) :
    (qs.flatMap requirementCalls).filterMap result? =
      (qs.filterMap Requirement.refusal?).map fun fault => ⟨.fatal, fault.error.text⟩ := by
  induction qs with
  | nil => rfl
  | cons q qs ih =>
    have hcall : q.call.result? = none := by
      obtain ⟨id, gvk, selection⟩ := q
      cases selection <;> rfl
    rw [List.flatMap_cons, List.filterMap_append, ih, requirementCalls,
      List.filterMap_cons_none hcall, List.filterMap_cons]
    cases q.refusal? <;> rfl

theorem filterMap_result? (f : RespondFlags) :
    f.calls.filterMap result? =
      f.refusals.map (fun fault => ⟨.fatal, fault.error.text⟩) ++ f.resultEntries := by
  have hcontext : (f.contextEntries.map fun e => setContext e.1 e.2).filterMap result? = [] := by
    simp [result?]
  have hresults : (f.resultEntries.map fun result =>
      report result.severity result.message).filterMap result? = f.resultEntries := by
    rw [List.filterMap_map]
    exact List.filterMap_some
  unfold calls refusals
  rw [List.filterMap_append, List.filterMap_append, hcontext, hresults,
    filterMap_result?_requirements, List.nil_append]

theorem succeeded_context (r : Response) (es : List (String × Json)) :
    succeeded r (es.map fun e => setContext e.1 e.2) = es.map fun e => setContext e.1 e.2 := by
  rw [succeeded_eq_filter r r, List.filter_eq_self]
  intro c hc
  obtain ⟨e, _, rfl⟩ := List.mem_map.1 hc
  rfl

theorem succeeded_requirements (r : Response) (qs : List Requirement) :
    succeeded r (qs.map Requirement.call) =
      (qs.filter fun q => q.refusal?.isNone).map Requirement.call := by
  rw [succeeded_eq_filter r r, List.filter_map]
  congr 2
  funext q
  simp [error?_call]

/-! ## What the sections of the response hold -/

section Views

variable (r : Response) (f : RespondFlags)

theorem contextAt?_calls (key : String) :
    (applyAll r f.calls).contextAt? key = (lastAt? key f.contextEntries).or (r.contextAt? key) := by
  rw [view_applyAll (fun h => contextAt?_of_run h key),
    ← filterMap_addressing (fun _ h => contextAt?_of_target h key), ← succeeded_addressing,
    addressing_context, succeeded_context, List.filterMap_map]
  rfl

theorem succeeded_addressing_requirements :
    succeeded r (addressing .requirements f.calls) = f.accepted.map Requirement.call := by
  rw [addressing_requirements, succeeded_requirements]
  rfl

/-- The requirements stated under an ID by the calls that succeed are the accepted ones. -/
theorem filterMap_requirementAt?_calls (id : String) :
    (succeeded r f.calls).filterMap (requirementAt? id) = f.accepted.filter fun q => q.id = id := by
  rw [← filterMap_addressing (fun _ h => requirementAt?_of_target h id), ← succeeded_addressing,
    succeeded_addressing_requirements, List.filterMap_map, ← List.filterMap_eq_filter]
  congr 1
  funext q
  simp [requirementAt?, Option.filter, Option.guard]

theorem selectorAt?_calls (id : String) :
    (applyAll r f.calls).selectorAt? id =
      ((f.accepted.filter fun q => q.id = id).getLast?.map Requirement.selector).or
        (r.selectorAt? id) := by
  rw [view_applyAll (fun h => selectorAt?_of_run h id), filterMap_selectorAt?,
    filterMap_requirementAt?_calls, List.getLast?_map]

theorem context_calls_eq_none :
    (applyAll r f.calls).context = none ↔ r.context = none ∧ f.contextEntries = [] := by
  have hhas := has_applyAll_eq_false (s := .context) (k := .context)
    (by intro t; cases t <;> decide) r f.calls
  rw [addressing_context, succeeded_context, List.map_eq_nil_iff] at hhas
  simpa [Response.has] using hhas

theorem requirements_calls_eq_none :
    (applyAll r f.calls).requirements = none ↔ r.requirements = none ∧ f.accepted = [] := by
  have hhas := has_applyAll_eq_false (s := .requirements) (k := .requirements)
    (by intro t; cases t <;> decide) r f.calls
  rw [succeeded_addressing_requirements, List.map_eq_nil_iff] at hhas
  simpa [Response.has] using hhas

/-- No flag is about the desired state. -/
theorem desired_calls : (applyAll r f.calls).desired = r.desired := by
  have hcomposite : addressing .composite f.calls = [] := by
    simp [addressing_calls, addressing_requirementCalls]
  have hcomposed : addressing .composed f.calls = [] := by
    simp [addressing_calls, addressing_requirementCalls]
  refine foldl_unchanged Response.desired (fun c hc s => ?_) r
  cases hrun : c.run s with
  | ok next =>
    rw [apply_of_ok hrun]
    refine desired_of_run hrun (fun h => ?_) fun h => ?_
    · exact List.ne_nil_of_mem (mem_addressing.2 ⟨hc, h⟩) hcomposite
    · exact List.ne_nil_of_mem (mem_addressing.2 ⟨hc, h⟩) hcomposed
  | error e => rw [apply_of_error hrun]

end Views

/-- The response to a request as the flags want it. -/
structure Answered (f : RespondFlags) (request : Request) (config : Config) (r : Response) :
    Prop where
  info : r.info = some ⟨request.tag, some (match f.ttl with
    | some ⟨n, h⟩ => .ofSeconds n h
    | none => config.ttl)⟩
  desired : r.desired = request.desired
  /-- The flags override the context of the request, the last one of each key. -/
  contextAt? : ∀ key, r.contextAt? key = (lastAt? key f.contextEntries).or (request.contextValue? key)
  context_eq_none : r.context = none ↔ request.context = none ∧ f.context = []
  /-- Of the accepted requirements, the last one of each ID is registered. -/
  selectorAt? : ∀ id, r.selectorAt? id =
    (f.accepted.filter fun q => q.id = id).getLast?.map Requirement.selector
  requirements_eq_none : r.requirements = none ↔ f.accepted = []
  /-- The refused requirements are reported before the results of the flags. -/
  results : r.results = f.refusals.map (fun fault => ⟨.fatal, fault.error.text⟩) ++ f.resultEntries

/-- No well-formed flag is lost. -/
theorem WellFormed.contextEntries_eq_nil {f : RespondFlags} (h : f.WellFormed) :
    f.contextEntries = [] ↔ f.context = [] := by
  have hread := map_eq_map_ok h.context
  rw [← List.map_eq_nil_iff (f := contextEntry), hread, List.map_eq_nil_iff]
  rfl

theorem WellFormed.answered {f : RespondFlags} (h : f.WellFormed) (request : Request)
    (config : Config) :
    f.Answered request config (applyAll (.replyTo request (f.ttlOr config)) f.calls) where
  info := by
    rw [info_applyAll]
    rfl
  desired := desired_calls _ f
  contextAt? := contextAt?_calls _ f
  context_eq_none := by
    rw [context_calls_eq_none, h.contextEntries_eq_nil]
    rfl
  selectorAt? := fun id => (selectorAt?_calls _ f id).trans (Option.or_none ..)
  requirements_eq_none := by
    rw [requirements_calls_eq_none]
    exact and_iff_right rfl
  results := by
    rw [results_applyAll, filterMap_result?]
    rfl

end RespondFlags

/-- **What the flags make of a request.** There is a response if every flag is well formed, and else
the first malformed flag decides. Well-formed flags set the keys of the context and the requirements,
where the last one counts, and report results; a refused requirement is reported as well. -/
theorem response_of_flags (request : Request) (f : RespondFlags) (config : Config) :
    ((∃ r, responseTo request f config = .ok r) ↔ f.WellFormed) ∧
      (∀ fault, responseTo request f config = .error fault ↔ f.faults.head? = some fault) ∧
      ∀ r, responseTo request f config = .ok r → f.Answered request config r := by
  refine ⟨?_, fun fault => responseTo_eq_error, fun r h => ?_⟩
  · simp only [responseTo_eq_ok, exists_and_left, exists_eq', and_true]
  · obtain ⟨hf, rfl⟩ := responseTo_eq_ok.1 h
    exact hf.answered request config

/-- A key given twice, a requirement overridden by one that selects by labels, and a refused one. -/
theorem overriding_flags_answered :
    let request : Request := { Request.empty with
      info := some ⟨"t"⟩
      context := some (StringMap.ofList [("k", .text "old"), ("left", .null)]) }
    let f : RespondFlags := ⟨"-", some ⟨30, by decide⟩, ["k=1", "k=x"],
      ["c=v1:ConfigMap:one", "=v1:ConfigMap:two"], ["c=apps/v1:Deployment:tier=db"],
      ["Warning:low"], false⟩
    ∃ r, responseTo request f .builtIn = .ok r ∧ f.WellFormed ∧
      r.info = some ⟨"t", some (.ofSeconds 30 (by decide))⟩ ∧
      r.contextAt? "k" = some (.text "x") ∧ r.contextAt? "left" = some .null ∧
      r.selectorAt? "c" =
        some ⟨"apps/v1", "Deployment", .byLabels ⟨StringMap.ofList [("tier", "db")]⟩⟩ ∧
      r.results = [⟨.fatal, (RequirementFault.emptyId .name).error.text⟩, ⟨.warning, "low"⟩] := by
  intro request f
  have hf : f.WellFormed := RespondFlags.wellFormed_iff.2 (by decide +kernel)
  obtain ⟨r, hr⟩ := (response_of_flags request f .builtIn).1.2 hf
  have hanswered := (response_of_flags request f .builtIn).2.2 r hr
  refine ⟨r, hr, hf, hanswered.info, ?_, ?_, ?_, ?_⟩
  · rw [hanswered.contextAt?]
    decide +kernel
  · rw [hanswered.contextAt?]
    decide +kernel
  · rw [hanswered.selectorAt?]
    decide +kernel
  · rw [hanswered.results]
    decide +kernel

/-! ## What is registered -/

theorem isSplit_of_namedBy {raw : String} {q : Requirement} (h : namedBy raw = .ok q) :
    q.gvk.IsSplit := by
  obtain ⟨⟨id, gvk, name⟩, hread, rfl⟩ := map_eq_ok.1 h
  obtain ⟨_, _, _, hstated⟩ := namedRequirement_eq_ok.1 hread
  exact hstated.isSplit

theorem isSplit_of_labelledBy {raw : String} {q : Requirement} (h : labelledBy raw = .ok q) :
    q.gvk.IsSplit := by
  obtain ⟨⟨id, gvk, labels⟩, hread, rfl⟩ := map_eq_ok.1 h
  obtain ⟨_, ⟨_, _, _, hstated⟩, _⟩ := labelledRequirement_eq_ok.1 hread
  exact hstated.isSplit

theorem RespondFlags.isSplit_of_mem_requirements {f : RespondFlags} {q : Requirement}
    (h : q ∈ f.requirements) : q.gvk.IsSplit := by
  unfold requirements at h
  rcases List.mem_append.1 h with h | h
  · obtain ⟨raw, _, hread⟩ := List.mem_filterMap.1 h
    exact isSplit_of_namedBy (toOption_eq_some.1 hread)
  · obtain ⟨raw, _, hread⟩ := List.mem_filterMap.1 h
    exact isSplit_of_labelledBy (toOption_eq_some.1 hread)

/-- **What is registered can be looked up.** From the response to a request or the empty one, every
run of calls registers complete selectors under IDs that are not empty. Where the kinds were split
from an `apiVersion`, as those of all flags are, each selector tells the kind that was asked for. -/
theorem registered_requirements_complete :
    (∀ start : Response, (start = .empty ∨ ∃ request ttl, start = .replyTo request ttl) →
      ∀ (calls : List Call) (id : String) (s : ResourceSelector),
        (Call.applyAll start calls).selectorAt? id = some s →
          s.IsComplete id ∧
            ((∀ c ∈ calls, ∀ q, c.requirement? = some q → q.gvk.IsSplit) →
              ∃ q, ((Call.succeeded start calls).filterMap (Call.requirementAt? id)).getLast? =
                some q ∧ s.StandsFor q)) ∧
      ∀ (request : Request) (f : RespondFlags) (config : Config) (r : Response),
        responseTo request f config = .ok r →
          ∀ (id : String) (s : ResourceSelector), r.selectorAt? id = some s →
            s.IsComplete id ∧
              ∃ q, (f.accepted.filter fun q => q.id = id).getLast? = some q ∧ s.StandsFor q := by
  refine ⟨fun start hstart calls id s h => ?_, fun request f config r hr id s h => ?_⟩
  · have hnone : start.selectorAt? id = none := by
      rcases hstart with rfl | ⟨request, ttl, rfl⟩ <;> rfl
    obtain ⟨q, hlast, rfl, rfl, haccepted, hmem⟩ := Call.registered hnone h
    exact ⟨Requirement.selector_isComplete haccepted, fun hsplit => ⟨q, hlast,
      Requirement.selector_standsFor haccepted (hsplit _ hmem q q.requirement?_call)⟩⟩
  · obtain ⟨_, rfl⟩ := responseTo_eq_ok.1 hr
    obtain ⟨q, hlast, rfl, rfl, haccepted, _⟩ := Call.registered rfl h
    rw [f.filterMap_requirementAt?_calls] at hlast
    have hmem := (List.mem_filter.1 (List.mem_of_getLast? hlast)).1
    have hsplit := RespondFlags.isSplit_of_mem_requirements (List.mem_filter.1 hmem).1
    exact ⟨Requirement.selector_isComplete haccepted, q, hlast,
      Requirement.selector_standsFor haccepted hsplit⟩

/-- A selection by name gives way to one by labels, after a refused one; a flag registers the same
selector. -/
theorem overriding_requirements_complete :
    let core := GroupVersionKind.ofApiVersion "v1" "ConfigMap"
    let apps := GroupVersionKind.ofApiVersion "apps/v1" "Deployment"
    let calls : List Call := [.requireByName "a" "one" core, .requireByLabels "a" .empty apps,
      .requireByName "a" "" core, .normal "done"]
    let f : RespondFlags := ⟨"-", none, [], ["a=v1:ConfigMap:one"], ["a=apps/v1:Deployment"], [],
      true⟩
    let s : ResourceSelector := ⟨"apps/v1", "Deployment", .byLabels ⟨.empty⟩⟩
    (Call.applyAll .empty calls).selectorAt? "a" = some s ∧
      (∃ q, ((Call.succeeded .empty calls).filterMap (Call.requirementAt? "a")).getLast? = some q ∧
        s.StandsFor q) ∧
      ∃ r, responseTo .empty f .builtIn = .ok r ∧ r.selectorAt? "a" = some s ∧
        s.IsComplete "a" := by
  intro core apps calls f s
  have hcalls : (Call.applyAll .empty calls).selectorAt? "a" = some s := by decide +kernel
  have hcore : core.IsSplit := ⟨_, _, rfl⟩
  have happs : apps.IsSplit := ⟨_, _, rfl⟩
  have hsplit : ∀ c ∈ calls, ∀ q, c.requirement? = some q → q.gvk.IsSplit := by
    intro c hc q hq
    simp only [calls, List.mem_cons, List.not_mem_nil, or_false] at hc
    rcases hc with rfl | rfl | rfl | rfl
    · cases hq
      exact hcore
    · cases hq
      exact happs
    · cases hq
      exact hcore
    · cases hq
  have hf : f.WellFormed := RespondFlags.wellFormed_iff.2 (by decide +kernel)
  have hflags : (Call.applyAll (.replyTo .empty (f.ttlOr .builtIn)) f.calls).selectorAt? "a" =
      some s := by decide +kernel
  have hr : responseTo .empty f .builtIn =
      .ok (Call.applyAll (.replyTo .empty (f.ttlOr .builtIn)) f.calls) :=
    responseTo_eq_ok.2 ⟨hf, rfl⟩
  obtain ⟨hrun, hrespond⟩ := registered_requirements_complete
  exact ⟨hcalls, (hrun .empty (.inl rfl) calls "a" s hcalls).2 hsplit,
    _, hr, hflags, (hrespond .empty f .builtIn _ hr "a" s hflags).1⟩

end CompositionFunction.CommandLine
