import CompositionFunction.Proofs.Reply.Run
import CompositionFunction.Proofs.StringMap

/-!
# What the next function reads

A response hands its desired state and its context over to the next request. What is read there is
what was read at the start, overridden by what the calls in between wrote: each call adds to it
just what it was given.

* `Call.entries` : the composed resources that a call lists, as they are read later.
* `Call.composed_of_run` : what one call adds to the composed resources that are read.
* `Call.next_request_reads_writes` : what is read after a run.
-/

set_option autoImplicit false

namespace CompositionFunction

/-- Adding to a map twice is adding both lists in order. -/
theorem StringMap.insertAll_append {α : Type} (m : StringMap α) (es fs : List (String × α)) :
    m.insertAll (es ++ fs) = (m.insertAll es).insertAll fs := List.foldl_append

namespace Call

/-! ## What a call lists -/

/-- The composed resources that a call sets, each with its body and its readiness. -/
def entries : Call → List (String × DesiredResource)
  | setComposed resources =>
    resources.filterMap fun (name, value, ready) =>
      value.toBody.toOption.map fun body => (name, ⟨body, ready⟩)
  | _ => []

/-- The composite that a call sets, with its connection details. -/
def compositeEntry? : Call → Option ObservedResource
  | setComposite value details => value.toBody.toOption.map fun body => ⟨body, details⟩
  | _ => none

/-- A batch whose bodies can all be written lists them all. -/
theorem entries_eq {resources : List (String × TypedValue × Readiness)}
    {desired : List (String × DesiredResource)} (h : bodies resources = .ok desired) :
    entries (setComposed resources) = desired := by
  have hmap := congrArg (List.filterMap fun e : String × Except Error Body × Readiness =>
    e.2.1.toOption.map fun body => (e.1, DesiredResource.mk body e.2.2)) (map_bodies h)
  rw [List.filterMap_map, List.filterMap_map] at hmap
  exact hmap.trans (List.filterMap_some)

theorem compositeEntry?_eq (c : Call) :
    c.compositeEntry? = c.composite?.map Resource.asObserved := by
  cases c with
  | setComposite value details =>
    show value.toBody.toOption.map _ = (value.toBody.toOption.map _).map _
    rw [Option.map_map]
    rfl
  | _ => rfl

/-- What is written of some resources is read as these. -/
theorem map_asDesired (desired : List (String × DesiredResource)) :
    (desired.map fun e => (e.1, Resource.mk (some e.2.body) .empty e.2.ready)).map
      (fun e => (e.1, e.2.asDesired)) = desired := by
  rw [List.map_map]
  calc desired.map _ = desired.map id :=
        List.map_congr_left fun e _ => congrArg (Prod.mk e.1) (Resource.asDesired_mk e.2 .empty)
    _ = desired := List.map_id desired

/-! ## One call -/

section Step

variable {r next : Response} {c : Call}

/-- A call that succeeds adds what it lists to the composed resources that are read. -/
theorem composed_of_run (h : c.run r = .ok next) :
    (State.composedOf next.desired).map Resource.asDesired =
      StringMap.insertAll ((State.composedOf r.desired).map Resource.asDesired) c.entries := by
  cases writes_of_run h with
  | composite details converted =>
    show (r.desiredOrEmpty.composed.getD .empty).map _ = (r.composed?.getD .empty).map _
    rw [Response.composed_desiredOrEmpty]
  | @composed resources desired converted =>
    show Entries.map _ (r.composedOrEmpty.insertAll _) =
      StringMap.insertAll (Entries.map _ (r.composed?.getD .empty)) _
    rw [StringMap.map_insertAll, map_asDesired, entries_eq converted, Response.composedOrEmpty,
      Response.composed_desiredOrEmpty]
  | _ => rfl

/-- Setting a key of the context cannot fail. -/
theorem contextAt?_of_error {e : Error} (h : c.run r = .error e) (key : String) :
    c.contextAt? key = none := by
  cases c with
  | setContext => cases h
  | _ => rfl

end Step

/-! ## A run -/

/-- A run adds what its successful calls list, in their order. -/
theorem composed_applyAll (r : Response) (calls : List Call) :
    (State.composedOf (applyAll r calls).desired).map Resource.asDesired =
      StringMap.insertAll ((State.composedOf r.desired).map Resource.asDesired)
        ((succeeded r calls).flatMap entries) := by
  induction calls generalizing r with
  | nil => rfl
  | cons c calls ih =>
    show Entries.map _ (State.composedOf (applyAll (c.apply r) calls).desired) = _
    rw [ih]
    cases hrun : c.run r with
    | ok next =>
      rw [apply_of_ok hrun, composed_of_run hrun, succeeded_of_ok hrun, List.flatMap_cons,
        StringMap.insertAll_append]
    | error e => rw [apply_of_error hrun, succeeded_of_error hrun]

/-- All the calls that set a key of the context succeed. -/
theorem filterMap_contextAt?_succeeded (r : Response) (key : String) (calls : List Call) :
    (succeeded r calls).filterMap (contextAt? key) = calls.filterMap (contextAt? key) := by
  induction calls generalizing r with
  | nil => rfl
  | cons c calls ih =>
    cases hrun : c.run r with
    | ok next => rw [succeeded_of_ok hrun, List.filterMap_cons, List.filterMap_cons, ih next]
    | error e =>
      rw [succeeded_of_error hrun, ih r, List.filterMap_cons, contextAt?_of_error hrun]

/-- **What one function writes, the next one reads.** The request that takes over the desired state
and the context after a run shows the composed resources of the first request, overridden by what
the successful batches list, in their order; the last composite that was set, or else the first
request's; and under each key of the context the value that was set last, or else the first
request's. -/
theorem next_request_reads_writes (first next : Request) (ttl : Duration) (calls : List Call)
    (desired : next.desired = (applyAll (.replyTo first ttl) calls).desired)
    (context : next.context = (applyAll (.replyTo first ttl) calls).context) :
    let done := succeeded (.replyTo first ttl) calls
    next.desiredComposed = StringMap.insertAll first.desiredComposed (done.flatMap entries) ∧
      next.desiredComposite =
        (done.filterMap compositeEntry?).getLast?.getD first.desiredComposite ∧
      ∀ key, next.contextValue? key =
        (calls.filterMap (contextAt? key)).getLast?.or (first.contextValue? key) := by
  intro done
  refine ⟨?_, ?_, fun key => ?_⟩
  · unfold Request.desiredComposed
    rw [desired]
    exact composed_applyAll _ _
  · have hlast := view_applyAll composite?_of_run (.replyTo first ttl) calls
    have hentries : done.filterMap compositeEntry? =
        (done.filterMap composite?).map Resource.asObserved := by
      rw [List.map_filterMap, ← funext compositeEntry?_eq]
    unfold Request.desiredComposite State.compositeOf
    rw [desired]
    show ((applyAll (.replyTo first ttl) calls).composite?.getD .empty).asObserved = _
    rw [hlast, hentries, List.getLast?_map]
    cases (done.filterMap composite?).getLast? <;> rfl
  · unfold Request.contextValue?
    rw [context]
    show (applyAll (.replyTo first ttl) calls).contextAt? key = _
    rw [view_applyAll (fun h => contextAt?_of_run h key), filterMap_contextAt?_succeeded]
    rfl

/-- A batch with a body that cannot be written hands nothing over, a later batch overrides a name,
and the composite and the context of the first request are read where nothing overrides them. -/
theorem overridden_state_handed_over :
    let body (kind : String) := StringMap.ofList [("kind", Json.text kind)]
    let value (kind : String) := TypedValue.ofJson "Value" (.object (body kind))
    let first : Request := { Request.empty with
      desired := some ⟨some ⟨some (body "X"), .empty, .yes⟩,
        some (StringMap.ofList [("a", ⟨none, .empty, .yes⟩), ("b", ⟨none, .empty, .no⟩)])⟩
      context := some (StringMap.ofList [("k", .null), ("l", .bool true)]) }
    let calls := [setComposed [("a", value "A", .no), ("c", .ofJson "Value" .null, .yes)],
      setComposed [("a", value "B", .unspecified), ("c", value "C", .no)],
      setComposite (.ofJson "Value" (.text "X")) .empty, setContext "k" (.text "v"),
      setComposed [("a", value "D", .yes)]]
    let r := applyAll (.replyTo first (.ofSeconds 60 (by decide))) calls
    let next : Request := { Request.empty with desired := r.desired, context := r.context }
    next.desired = r.desired ∧ next.context = r.context ∧
      next.desiredComposed = StringMap.ofList [("a", ⟨body "D", .yes⟩), ("b", ⟨.empty, .no⟩),
        ("c", ⟨body "C", .no⟩)] ∧
      next.desiredComposite = ⟨body "X", .empty⟩ ∧
      next.contextValue? "k" = some (.text "v") ∧ next.contextValue? "l" = some (.bool true) := by
  intro body value first calls r next
  have hlisted : first.desiredComposed.insertAll
      ((succeeded (.replyTo first (.ofSeconds 60 (by decide))) calls).flatMap entries) =
        StringMap.ofList
          [("a", ⟨body "D", .yes⟩), ("b", ⟨.empty, .no⟩), ("c", ⟨body "C", .no⟩)] := by
    decide +kernel +revert
  obtain ⟨hcomposed, hcomposite, hcontext⟩ :=
    next_request_reads_writes first next (.ofSeconds 60 (by decide)) calls rfl rfl
  exact ⟨rfl, rfl, hcomposed.trans hlisted, hcomposite.trans rfl, (hcontext "k").trans rfl,
    (hcontext "l").trans rfl⟩

end Call

end CompositionFunction
