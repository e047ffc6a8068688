import CompositionFunction.Proofs.Reply.Contents

/-!
# Runs of calls

A response is built by a run of calls, some of which fail. Each view of the response at the end
follows from the calls that succeeded: it shows what the last one of them wrote there, or what it
showed at the start.

* `Call.succeeded` : the calls of a run that succeed.
* `Call.view_applyAll` : a view after a run, from what one call does to it.
* `Call.earlier_data_kept` : all views after a run.
-/

set_option autoImplicit false

namespace CompositionFunction

namespace Call

/-! ## One call -/

section Step

variable {r next : Response} {c : Call}

theorem info_of_run (h : c.run r = .ok next) : next.info = r.info := by
  cases writes_of_run h <;> rfl

theorem results_of_run (h : c.run r = .ok next) :
    next.results = r.results ++ c.result?.toList := by
  cases writes_of_run h with
  | result severity message => rfl
  | _ => exact (List.append_nil r.results).symm

theorem desired_of_run (h : c.run r = .ok next) (hcomposite : c.target ≠ .composite)
    (hcomposed : c.target ≠ .composed) : next.desired = r.desired := by
  cases writes_of_run h with
  | composite => exact absurd rfl hcomposite
  | composed => exact absurd rfl hcomposed
  | _ => rfl

theorem has_of_run (h : c.run r = .ok next) (k : Container) :
    next.has k = (c.target.liesIn k || r.has k) := by
  cases writes_of_run h with
  | composite details converted =>
    cases k with
    | composed => exact congrArg Option.isSome (Response.composed_desiredOrEmpty r)
    | _ => rfl
  | _ => cases k <;> rfl

theorem contextAt?_of_run (h : c.run r = .ok next) (key : String) :
    next.contextAt? key = (c.contextAt? key).or (r.contextAt? key) := by
  cases writes_of_run h with
  | context key' value => exact Response.contextAt?_setContext r key' value key
  | _ => rfl

theorem composite?_of_run (h : c.run r = .ok next) :
    next.composite? = c.composite?.or r.composite? := by
  cases writes_of_run h with
  | composite details converted =>
    simp only [composite?, converted]
    rfl
  | composed converted => exact Response.composite_desiredOrEmpty r
  | _ => rfl

/-- The bodies of a batch are those of its entries, in order. -/
theorem map_bodies {entries : List (String × TypedValue × Readiness)}
    {resources : List (String × DesiredResource)} (h : bodies entries = .ok resources) :
    (entries.map fun e => (e.1, (e.2.1.toBody, e.2.2))) =
      resources.map fun e => (e.1, (.ok e.2.body, e.2.ready)) := by
  induction entries generalizing resources with
  | nil =>
    cases h
    rfl
  | cons e entries ih =>
    obtain ⟨name, value, ready⟩ := e
    unfold bodies at h
    split at h
    · cases h
    rename_i body hbody
    split at h
    · cases h
    rename_i rest hrest
    cases h
    rw [List.map_cons, List.map_cons, ih hrest, hbody]

/-- A batch sets the last resource that it lists under a name. -/
theorem composedAt?_eq {entries : List (String × TypedValue × Readiness)}
    {resources : List (String × DesiredResource)} (h : bodies entries = .ok resources)
    (name : String) :
    composedAt? name (setComposed entries) =
      (lastAt? name resources).map fun d => ⟨some d.body, .empty, d.ready⟩ := by
  have hlast := congrArg (lastAt? name) (map_bodies h)
  rw [lastAt?_map fun p : TypedValue × Readiness => (p.1.toBody, p.2),
    lastAt?_map fun d : DesiredResource => (Except.ok d.body, d.ready)] at hlast
  calc composedAt? name (setComposed entries)
      = ((lastAt? name entries).map fun p => (p.1.toBody, p.2)).bind fun q =>
          q.1.toOption.map fun body => ⟨some body, .empty, q.2⟩ := by rw [Option.bind_map]; rfl
    _ = (lastAt? name resources).bind fun d => some ⟨some d.body, .empty, d.ready⟩ := by
        rw [hlast, Option.bind_map]; rfl
    _ = (lastAt? name resources).map fun d => ⟨some d.body, .empty, d.ready⟩ := by
        rw [Option.map_eq_bind]; rfl

theorem composedAt?_of_run (h : c.run r = .ok next) (name : String) :
    next.composedAt? name = (c.composedAt? name).or (r.composedAt? name) := by
  cases writes_of_run h with
  | composite details converted =>
    show r.desiredOrEmpty.composed.bind _ = r.composedAt? name
    rw [Response.composed_desiredOrEmpty]
    rfl
  | composed converted => rw [composedAt?_eq converted, Response.composedAt?_setComposed]
  | _ => rfl

/-- A requirement sets its selector under its own ID. -/
theorem selectorAt?_of_requirement {q : Requirement} (h : c.requirement? = some q) (id : String) :
    c.selectorAt? id = if q.id = id then some q.selector else none := by
  unfold selectorAt? requirementAt?
  rw [h]
  by_cases hid : q.id = id <;> simp [Option.filter, hid]

theorem selectorAt?_of_run (h : c.run r = .ok next) (id : String) :
    next.selectorAt? id = (c.selectorAt? id).or (r.selectorAt? id) := by
  cases writes_of_run h with
  | byName accepted => rw [Response.selectorAt?_require, selectorAt?_of_requirement rfl]; rfl
  | byLabels accepted => rw [Response.selectorAt?_require, selectorAt?_of_requirement rfl]; rfl
  | _ => rfl

/-- Reporting a result cannot fail. -/
theorem result?_of_error {e : Error} (h : c.run r = .error e) : c.result? = none := by
  cases c with
  | report severity message => cases h
  | _ => rfl

end Step

/-! ## The calls that succeed -/

/-- The calls of a run that succeed, in order. -/
def succeeded (r : Response) : List Call → List Call
  | [] => []
  | c :: calls =>
    match c.run r with
    | .ok next => c :: succeeded next calls
    | .error _ => succeeded r calls

section Run

variable {r : Response} {calls : List Call} {c : Call}

theorem apply_of_ok {next : Response} (h : c.run r = .ok next) : c.apply r = next := by
  unfold apply
  rw [h]

theorem apply_of_error {e : Error} (h : c.run r = .error e) : c.apply r = r := by
  unfold apply
  rw [h]

theorem succeeded_of_ok {next : Response} (h : c.run r = .ok next) :
    succeeded r (c :: calls) = c :: succeeded next calls := by
  rw [succeeded, h]

theorem succeeded_of_error {e : Error} (h : c.run r = .error e) :
    succeeded r (c :: calls) = succeeded r calls := by
  rw [succeeded, h]

/-- The calls that succeed are those without an error, in whatever response that is looked for. -/
theorem succeeded_eq_filter (r s : Response) (calls : List Call) :
    succeeded r calls = calls.filter fun c => (c.error? s).isNone := by
  induction calls generalizing r with
  | nil => rfl
  | cons c calls ih =>
    rw [List.filter_cons, error?_eq s r, error?_run]
    cases hrun : c.run r with
    | ok next =>
      rw [succeeded_of_ok hrun, ih next]
      rfl
    | error e =>
      rw [succeeded_of_error hrun, ih r]
      rfl

/-- A call of a run that succeeds would succeed in any response. -/
theorem run_of_mem_succeeded (h : c ∈ succeeded r calls) (s : Response) :
    ∃ next, c.run s = .ok next := by
  rw [succeeded_eq_filter r s, List.mem_filter, Option.isNone_iff_eq_none, error?_run] at h
  exact errorOf?_eq_none.1 h.2

theorem mem_of_mem_succeeded (h : c ∈ succeeded r calls) : c ∈ calls := by
  rw [succeeded_eq_filter r r] at h
  exact (List.mem_filter.1 h).1

/-- The calls that fail leave no trace. -/
theorem applyAll_succeeded (r : Response) (calls : List Call) :
    applyAll r (succeeded r calls) = applyAll r calls := by
  induction calls generalizing r with
  | nil => rfl
  | cons c calls ih =>
    show _ = applyAll (c.apply r) calls
    cases hrun : c.run r with
    | ok next =>
      rw [succeeded_of_ok hrun, apply_of_ok hrun, ← ih next, ← apply_of_ok hrun]
      rfl
    | error e => rw [succeeded_of_error hrun, apply_of_error hrun, ih r]

/-! ## Views after a run -/

/-- What is seen after a run is what the last successful call wrote there, or what was seen before,
if a successful call does just that. -/
theorem view_applyAll {α : Type} {view : Response → Option α} {part : Call → Option α}
    (step : ∀ {r next : Response} {c : Call}, c.run r = .ok next →
      view next = (part c).or (view r)) (r : Response) (calls : List Call) :
    view (applyAll r calls) = ((succeeded r calls).filterMap part).getLast?.or (view r) := by
  rw [← applyAll_succeeded]
  refine foldl_last_write view (fun c hc s => ?_) r
  obtain ⟨next, hnext⟩ := run_of_mem_succeeded hc s
  rw [apply_of_ok hnext, step hnext]

theorem has_applyAll (r : Response) (calls : List Call) (k : Container) :
    (applyAll r calls).has k = ((succeeded r calls).any (fun c => c.target.liesIn k) || r.has k) := by
  rw [← applyAll_succeeded]
  refine foldl_any (fun s : Response => s.has k) (fun c hc s => ?_) r
  obtain ⟨next, hnext⟩ := run_of_mem_succeeded hc s
  rw [apply_of_ok hnext, has_of_run hnext]

theorem info_applyAll (r : Response) (calls : List Call) : (applyAll r calls).info = r.info := by
  refine foldl_unchanged Response.info (fun c _ s => ?_) r
  cases hrun : c.run s with
  | ok next => rw [apply_of_ok hrun, info_of_run hrun]
  | error e => rw [apply_of_error hrun]

/-- Every reporting call adds its result, and no other call adds one. -/
theorem results_applyAll (r : Response) (calls : List Call) :
    (applyAll r calls).results = r.results ++ calls.filterMap result? := by
  refine foldl_collect Response.results (fun c _ s => ?_) r
  cases hrun : c.run s with
  | ok next => rw [apply_of_ok hrun, results_of_run hrun]
  | error e => rw [apply_of_error hrun, result?_of_error hrun, Option.toList_none, List.append_nil]

/-- **A run loses and disturbs nothing that was there before.** The values, the composite, the
resources and the requirements after it are those of the last successful call that set them, or the
earlier ones; results are added after the earlier ones, one for each call that reports one; a
container is there if it was, or if a successful call wrote into it. -/
theorem earlier_data_kept (r : Response) (calls : List Call) :
    let final := applyAll r calls
    let done := succeeded r calls
    final.info = r.info ∧
      final.results = r.results ++ calls.filterMap result? ∧
      (∀ key, final.contextAt? key =
        (done.filterMap (contextAt? key)).getLast?.or (r.contextAt? key)) ∧
      (∀ name, final.composedAt? name =
        (done.filterMap (composedAt? name)).getLast?.or (r.composedAt? name)) ∧
      (∀ id, final.selectorAt? id =
        (done.filterMap (selectorAt? id)).getLast?.or (r.selectorAt? id)) ∧
      final.composite? = (done.filterMap composite?).getLast?.or r.composite? ∧
      ∀ k, final.has k = true ↔ r.has k = true ∨ ∃ c ∈ done, c.target.liesIn k = true := by
  intro final done
  refine ⟨info_applyAll r calls, results_applyAll r calls,
    fun key => view_applyAll (fun h => contextAt?_of_run h key) r calls,
    fun name => view_applyAll (fun h => composedAt?_of_run h name) r calls,
    fun id => view_applyAll (fun h => selectorAt?_of_run h id) r calls,
    view_applyAll composite?_of_run r calls, fun k => ?_⟩
  rw [has_applyAll r calls k, Bool.or_eq_true, List.any_eq_true, or_comm]

end Run

end Call

end CompositionFunction
