import CompositionFunction.Proofs.Reply.Requirement

/-!
# Requiring resources of the kind of a body

A body states its kind in two texts, which are split for a requirement and joined again in the
selector that is registered for it.

* `Body.gvk?_eq_some` : the kind that a body states.
* `GroupVersionKind.splitting_and_joining_inverse` : where splitting and joining undo each other, and
  what is registered for the kind of a body.
-/

set_option autoImplicit false

namespace CompositionFunction

/-- A body has a kind if it states an `apiVersion` and a kind. -/
theorem Body.gvk?_eq_some {body : Body} {gvk : GroupVersionKind} :
    body.gvk? = some gvk ↔
      ∃ s kind, body.apiVersion? = some s ∧ body.kind? = some kind ∧ gvk.IsStatedBy s kind := by
  unfold gvk?
  constructor
  · intro h
    obtain ⟨s, hs, h⟩ := Option.bind_eq_some_iff.1 h
    obtain ⟨kind, hkind, h⟩ := Option.bind_eq_some_iff.1 h
    cases h
    exact ⟨s, kind, hs, hkind, GroupVersionKind.isStatedBy_ofApiVersion s kind⟩
  · rintro ⟨s, kind, hs, hkind, hstated⟩
    rw [hs, hkind, ← hstated.ofApiVersion_eq]
    rfl

/-- An accepted requirement is registered under its ID. -/
theorem Requirement.selectorAt?_of_run {q : Requirement} {r next : Response}
    (h : q.call.run r = .ok next) : next.selectorAt? q.id = some q.selector := by
  rw [Call.selectorAt?_of_run h, Call.selectorAt?_of_requirement q.requirement?_call, if_pos rfl,
    Option.some_or]

namespace GroupVersionKind

/-- **Splitting and joining are inverse exactly where they can be.** A kind is split from its own
`apiVersion` if its version has no slash. A text is joined again as it was unless it states an empty
group, whose slash is lost; split once more, it gives the same kind. So the selector that is
registered for the kind of a body has the `apiVersion` of the body, but for that slash. -/
theorem splitting_and_joining_inverse :
    (∀ g : GroupVersionKind, ofApiVersion g.apiVersion g.kind = g ↔ '/' ∉ g.version.toList) ∧
    (∀ s kind, Rejoins s (ofApiVersion s kind).apiVersion) ∧
    (∀ s kind, ofApiVersion (ofApiVersion s kind).apiVersion kind = ofApiVersion s kind) ∧
    ∀ (body : Body) (q : Requirement) (r next : Response),
      body.gvk? = some q.gvk → q.call.run r = .ok next →
        ∃ s kind selector, body.apiVersion? = some s ∧ body.kind? = some kind ∧
          next.selectorAt? q.id = some selector ∧ selector.kind = kind ∧
          Rejoins s selector.apiVersion := by
  refine ⟨fun g => ofApiVersion_apiVersion_iff, rejoins_ofApiVersion,
    ofApiVersion_apiVersion_ofApiVersion, fun body q r next hbody hrun => ?_⟩
  obtain ⟨s, kind, hs, hkind, hstated⟩ := Body.gvk?_eq_some.1 hbody
  refine ⟨s, kind, q.selector, hs, hkind, Requirement.selectorAt?_of_run hrun, hstated.kind_eq, ?_⟩
  show Rejoins s q.gvk.apiVersion
  rw [← hstated.ofApiVersion_eq]
  exact rejoins_ofApiVersion s kind

/-- A body whose `apiVersion` starts with its only slash, and one where a second slash follows. -/
theorem empty_group_rejoined :
    let coreBody : Body := StringMap.ofList [("apiVersion", .text "/v1"), ("kind", .text "K")]
    let deepBody : Body := StringMap.ofList [("apiVersion", .text "/a/v1"), ("kind", .text "K")]
    let core : Requirement := ⟨"core", ⟨"", "v1", "K"⟩, .byName "n"⟩
    let deep : Requirement := ⟨"deep", ⟨"/a", "v1", "K"⟩, .byLabels ⟨.empty⟩⟩
    (coreBody.gvk? = some core.gvk ∧ ∃ next, core.call.run .empty = .ok next ∧
      (next.selectorAt? "core").map ResourceSelector.apiVersion = some "v1") ∧
    deepBody.gvk? = some deep.gvk ∧ ∃ next, deep.call.run .empty = .ok next ∧
      (next.selectorAt? "deep").map ResourceSelector.apiVersion = some "/a/v1" := by
  intro coreBody deepBody core deep
  have hcore : coreBody.gvk? = some core.gvk := by decide +kernel
  have hdeep : deepBody.gvk? = some deep.gvk := by decide +kernel
  obtain ⟨_, _, _, hregistered⟩ := splitting_and_joining_inverse
  refine ⟨⟨hcore, _, rfl, ?_⟩, hdeep, _, rfl, ?_⟩
  · obtain ⟨s, _, selector, hs, _, hselector, _, hrejoins⟩ :=
      hregistered coreBody core .empty _ hcore rfl
    obtain rfl : "/v1" = s := Option.some.inj hs
    rw [hselector]
    exact congrArg some (hrejoins.slash_lost "v1" ⟨rfl, by decide⟩)
  · obtain ⟨s, _, selector, hs, _, hselector, _, hrejoins⟩ :=
      hregistered deepBody deep .empty _ hdeep rfl
    obtain rfl : "/a/v1" = s := Option.some.inj hs
    rw [hselector]
    refine congrArg some (hrejoins.same_iff.2 ?_)
    rintro ⟨version, htext, hslash⟩
    have hversion : "a/v1".toList = version.toList := by
      simpa using congrArg String.toList htext
    rw [← hversion] at hslash
    exact hslash (by decide)

end GroupVersionKind

end CompositionFunction
