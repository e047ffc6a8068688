import CompositionFunction.Proofs.Reply.Run

/-!
# Interleaved runs

Calls that address different sections do not interfere with each other: of two runs in which each
section gets the same calls in the same order, the ends are the same, and each call succeeds or
fails alike in both. Calls that fail might as well not be made.

* `Call.outcomes` : the calls of a run with their errors.
* `Call.FailuresInserted` : a run into which failing calls were put.
* `Call.interleavings_agree` : how calls are interleaved does not matter, nor do those that fail.
-/

set_option autoImplicit false

namespace CompositionFunction

namespace Call

/-- The calls of a run, each with the error that it fails with, if it does. -/
def outcomes (r : Response) : List Call → List (Call × Option Error)
  | [] => []
  | c :: calls => (c, c.error? r) :: outcomes (c.apply r) calls

/-- `FailuresInserted r calls more`: from `r` on, `more` makes the calls of `calls` and in between
others that fail where they are made. -/
inductive FailuresInserted : Response → List Call → List Call → Prop
  | done (r : Response) : FailuresInserted r [] []
  | kept {r : Response} {calls more : List Call} (c : Call)
      (rest : FailuresInserted (c.apply r) calls more) :
      FailuresInserted r (c :: calls) (c :: more)
  | inserted {r : Response} {calls more : List Call} {c : Call} {e : Error}
      (fails : c.run r = .error e) (rest : FailuresInserted r calls more) :
      FailuresInserted r calls (c :: more)

/-! ## What a section sees of a run -/

/-- The calls of a run that address a section. -/
def addressing (s : Section) (calls : List Call) : List Call :=
  calls.filter fun c => c.target = s

theorem mem_addressing {s : Section} {calls : List Call} {c : Call} :
    c ∈ addressing s calls ↔ c ∈ calls ∧ c.target = s := by
  unfold addressing
  rw [List.mem_filter, decide_eq_true_eq]

theorem addressing_append (s : Section) (cs ds : List Call) :
    addressing s (cs ++ ds) = addressing s cs ++ addressing s ds := List.filter_append ..

theorem addressing_flatMap {α : Type} (s : Section) (calls : α → List Call) (as : List α) :
    addressing s (as.flatMap calls) = as.flatMap fun a => addressing s (calls a) :=
  List.filter_flatMap

/-- Calls to one section are addressed to that one and to no other. -/
theorem addressing_map {α : Type} (call : α → Call) {t : Section}
    (h : ∀ a, (call a).target = t) (s : Section) (as : List α) :
    addressing s (as.map call) = if t = s then as.map call else [] := by
  have hmem : ∀ c ∈ as.map call, c.target = t := by
    intro c hc
    obtain ⟨a, _, rfl⟩ := List.mem_map.1 hc
    exact h a
  unfold addressing
  by_cases hs : t = s
  · rw [if_pos hs, List.filter_eq_self]
    exact fun c hc => decide_eq_true ((hmem c hc).trans hs)
  · rw [if_neg hs, List.filter_eq_nil_iff]
    exact fun c hc hc' => hs ((hmem c hc).symm.trans (of_decide_eq_true hc'))

/-- What only calls to one section write is found among these calls. -/
theorem filterMap_addressing {α : Type} {part : Call → Option α} {s : Section}
    (hpart : ∀ c : Call, c.target ≠ s → part c = none) (calls : List Call) :
    (addressing s calls).filterMap part = calls.filterMap part := by
  unfold addressing
  rw [List.filterMap_filter]
  congr 1
  funext c
  by_cases hc : c.target = s
  · simp [hc]
  · simp [hc, hpart c hc]

theorem succeeded_addressing (r : Response) (s : Section) (calls : List Call) :
    succeeded r (addressing s calls) = addressing s (succeeded r calls) := by
  unfold addressing
  rw [succeeded_eq_filter r r, succeeded_eq_filter r r, List.filter_filter, List.filter_filter]
  congr 1
  funext c
  exact Bool.and_comm _ _

/-- A container that only one section lies in stays missing if no call to that section succeeds. -/
theorem has_applyAll_eq_false {s : Section} {k : Container}
    (hk : ∀ t : Section, t.liesIn k = true ↔ t = s) (r : Response) (calls : List Call) :
    (applyAll r calls).has k = false ↔
      r.has k = false ∧ succeeded r (addressing s calls) = [] := by
  rw [has_applyAll, Bool.or_eq_false_iff, and_comm, List.any_eq_false, succeeded_addressing,
    List.eq_nil_iff_forall_not_mem]
  simp only [mem_addressing, hk, not_and]

theorem outcomes_eq_map (r s : Response) (calls : List Call) :
    outcomes r calls = calls.map fun c => (c, c.error? s) := by
  induction calls generalizing r with
  | nil => rfl
  | cons c calls ih =>
    unfold outcomes
    rw [List.map_cons, ih, error?_eq r s]

section Independence

variable {cs ds : List Call}

/-- Runs with the same calls to a section write the same there. -/
theorem filterMap_succeeded_eq {α : Type} {part : Call → Option α} {s : Section}
    (h : addressing s cs = addressing s ds) (hpart : ∀ c : Call, c.target ≠ s → part c = none)
    (r : Response) :
    (succeeded r cs).filterMap part = (succeeded r ds).filterMap part := by
  rw [← filterMap_addressing hpart, ← succeeded_addressing, h, succeeded_addressing,
    filterMap_addressing hpart]

/-- Runs with the same calls to each section make the same calls. -/
theorem mem_succeeded_iff (h : ∀ s, addressing s cs = addressing s ds) (r : Response) (c : Call) :
    c ∈ succeeded r cs ↔ c ∈ succeeded r ds := by
  have hc := h c.target
  have hmem : ∀ calls, c ∈ succeeded r calls ↔ c ∈ succeeded r (addressing c.target calls) := by
    intro calls
    rw [succeeded_addressing, mem_addressing]
    simp
  rw [hmem cs, hmem ds, hc]

/-- A view that only calls to one section change is the same after runs with the same calls to it. -/
theorem view_applyAll_eq {α : Type} {view : Response → Option α} {part : Call → Option α}
    {s : Section} (step : ∀ {r next : Response} {c : Call}, c.run r = .ok next →
      view next = (part c).or (view r)) (hpart : ∀ c : Call, c.target ≠ s → part c = none)
    (h : addressing s cs = addressing s ds) (r : Response) :
    view (applyAll r cs) = view (applyAll r ds) := by
  rw [view_applyAll step, view_applyAll step, filterMap_succeeded_eq h hpart]

/-- Runs with the same calls to each section end in the same response. -/
theorem applyAll_eq_of_addressing (h : ∀ s, addressing s cs = addressing s ds) (r : Response) :
    applyAll r cs = applyAll r ds := by
  refine Response.ext_views ?_ ?_ (fun k => ?_) (fun key => ?_) ?_ (fun name => ?_) fun id => ?_
  · rw [info_applyAll, info_applyAll]
  · rw [results_applyAll, results_applyAll, ← filterMap_addressing (fun _ => result?_of_target) cs,
      h, filterMap_addressing fun _ => result?_of_target]
  · have hany : (succeeded r cs).any (fun c => c.target.liesIn k) =
        (succeeded r ds).any fun c => c.target.liesIn k := by
      rw [Bool.eq_iff_iff, List.any_eq_true, List.any_eq_true]
      simp only [mem_succeeded_iff h r]
    rw [has_applyAll, has_applyAll, hany]
  · exact view_applyAll_eq (fun h => contextAt?_of_run h key)
      (fun _ h => contextAt?_of_target h key) (h .context) r
  · exact view_applyAll_eq composite?_of_run (fun _ => composite?_of_target) (h .composite) r
  · exact view_applyAll_eq (fun h => composedAt?_of_run h name)
      (fun _ h => composedAt?_of_target h name) (h .composed) r
  · exact view_applyAll_eq (fun h => selectorAt?_of_run h id)
      (fun _ h => congrArg (Option.map Requirement.selector) (requirementAt?_of_target h id))
      (h .requirements) r

end Independence

/-- Inserted failures leave no trace. -/
theorem FailuresInserted.applyAll_eq {r : Response} {calls more : List Call}
    (h : FailuresInserted r calls more) : applyAll r more = applyAll r calls := by
  induction h with
  | done r => rfl
  | kept c rest ih => exact ih
  | @inserted r calls more c e fails rest ih =>
    show applyAll (c.apply r) more = _
    rw [apply_of_error fails, ih]

/-- **How the calls to different sections are interleaved does not matter**: runs with the same
calls to each section end in the same response, and the calls to each section have the same
outcomes. Nor do failing calls matter: without them, or with more of them, a run ends in the same
response. -/
theorem interleavings_agree (r : Response) :
    (∀ cs ds : List Call, (∀ s, addressing s cs = addressing s ds) →
      applyAll r cs = applyAll r ds ∧
        ∀ s : Section, ((outcomes r cs).filter fun o => o.1.target = s) =
          (outcomes r ds).filter fun o => o.1.target = s) ∧
      (∀ calls, applyAll r (succeeded r calls) = applyAll r calls) ∧
      ∀ calls more, FailuresInserted r calls more → applyAll r more = applyAll r calls := by
  refine ⟨fun cs ds h => ⟨applyAll_eq_of_addressing h r, fun s => ?_⟩, applyAll_succeeded r,
    fun calls more h => h.applyAll_eq⟩
  have hfilter : ∀ calls, ((outcomes r calls).filter fun o => o.1.target = s) =
      (addressing s calls).map fun c => (c, c.error? r) := by
    intro calls
    rw [outcomes_eq_map r r, List.filter_map]
    rfl
  rw [hfilter cs, hfilter ds, h s]

/-- Composite and composed resources, which share a container, are set in either order, with a
refused batch, a refused requirement and results in between. -/
theorem desired_state_interleaves :
    let body := TypedValue.ofJson "Value" (.object (StringMap.ofList [("kind", .text "Bucket")]))
    let bad := TypedValue.ofJson "Value" (.text "no object")
    let refused := requireByName "" "n" ⟨"", "v1", "ConfigMap"⟩
    let cs := [setComposite body .empty, setComposed [("a", body, .yes), ("b", bad, .no)], refused,
      setComposed [("a", body, .no)], normal "done"]
    let ds := [setComposed [("a", body, .yes), ("b", bad, .no)], normal "done",
      setComposed [("a", body, .no)], setComposite body .empty, refused]
    (∀ s, addressing s cs = addressing s ds) ∧
      applyAll .empty cs = applyAll .empty ds ∧
      ((outcomes .empty cs).filter fun o => o.1.target = .composed) =
        ((outcomes .empty ds).filter fun o => o.1.target = .composed) ∧
      FailuresInserted .empty [normal "done"] [refused, normal "done"] ∧
      applyAll .empty [refused, normal "done"] = applyAll .empty [normal "done"] := by
  intro body bad refused cs ds
  have hsame : ∀ s, addressing s cs = addressing s ds := by
    intro s
    cases s <;> rfl
  have hinserted : FailuresInserted .empty [normal "done"] [refused, normal "done"] :=
    .inserted rfl (.kept _ (.done _))
  obtain ⟨hfinal, houtcomes⟩ := (interleavings_agree .empty).1 cs ds hsame
  exact ⟨hsame, hfinal, houtcomes .composed, hinserted,
    (interleavings_agree .empty).2.2 _ _ hinserted⟩

end Call

end CompositionFunction
