import CompositionFunction.Proofs.LastWrite
import CompositionFunction.Proofs.Outcome
import CompositionFunction.Reply.Call

/-!
# What a call writes

A response is seen through its views: the values under the keys of its maps, its composite, its
results, and which of its containers are there. Two responses with the same views are equal. A call
addresses one section; what it writes there is said of the call alone.

* `Response.ext_views` : responses with the same views are equal.
* `Call.writes_of_run` : all that a successful call can do.
* `Call.error?_eq` : whether a call fails does not depend on the response.
-/

set_option autoImplicit false

namespace CompositionFunction

/-- The containers of a response that may be missing. -/
inductive Container where
  | desired
  | composed
  | context
  | requirements
  | selectors
deriving DecidableEq, Repr

/-- The sections of a response that calls address. -/
inductive Section where
  | context
  | composite
  | composed
  | requirements
  | results
deriving DecidableEq, Repr

/-- What is written into a section stands in these containers. -/
def Section.liesIn : Section → Container → Bool
  | .context, .context => true
  | .composite, .desired => true
  | .composed, .desired => true
  | .composed, .composed => true
  | .requirements, .requirements => true
  | .requirements, .selectors => true
  | _, _ => false

/-! ## Views of a response -/

namespace Response

/-- The value under a key of the context. -/
def contextAt? (r : Response) (key : String) : Option Json :=
  r.context.bind fun context => context.find? key

/-- The composite resource as it shall be. -/
def composite? (r : Response) : Option Resource := r.desired.bind State.composite

/-- The composed resources as they shall be. -/
def composed? (r : Response) : Option (StringMap Resource) := r.desired.bind State.composed

/-- The composed resource of a name. -/
def composedAt? (r : Response) (name : String) : Option Resource :=
  r.composed?.bind fun composed => composed.find? name

/-- The selectors of the requirements. -/
def selectors? (r : Response) : Option (StringMap ResourceSelector) :=
  r.requirements.bind Requirements.extraResources

/-- The selector of a requirement. -/
def selectorAt? (r : Response) (id : String) : Option ResourceSelector :=
  r.selectors?.bind fun selectors => selectors.find? id

/-- A container is there. -/
def has (r : Response) : Container → Bool
  | .desired => r.desired.isSome
  | .composed => r.composed?.isSome
  | .context => r.context.isSome
  | .requirements => r.requirements.isSome
  | .selectors => r.selectors?.isSome

end Response

namespace Response

/-! What stands in a section that may be missing is what is seen of it. -/

@[simp] theorem find?_contextOrEmpty (r : Response) (key : String) :
    r.contextOrEmpty.find? key = r.contextAt? key := by
  unfold contextOrEmpty contextAt?
  cases r.context <;> rfl

@[simp] theorem composite_desiredOrEmpty (r : Response) :
    r.desiredOrEmpty.composite = r.composite? := by
  unfold desiredOrEmpty composite?
  cases r.desired <;> rfl

@[simp] theorem composed_desiredOrEmpty (r : Response) :
    r.desiredOrEmpty.composed = r.composed? := by
  unfold desiredOrEmpty composed?
  cases r.desired <;> rfl

@[simp] theorem find?_composedOrEmpty (r : Response) (name : String) :
    r.composedOrEmpty.find? name = r.composedAt? name := by
  unfold composedOrEmpty composedAt?
  rw [composed_desiredOrEmpty]
  cases r.composed? <;> rfl

@[simp] theorem find?_selectorsOrEmpty (r : Response) (id : String) :
    r.selectorsOrEmpty.find? id = r.selectorAt? id := by
  unfold selectorsOrEmpty requirementsOrEmpty selectorAt? selectors?
  cases r.requirements with
  | none => rfl
  | some requirements =>
    show (requirements.extraResources.getD .empty).find? id =
      requirements.extraResources.bind fun selectors => selectors.find? id
    cases requirements.extraResources <;> rfl

/-! What is written into a section is seen there. -/

theorem contextAt?_setContext (r : Response) (key' : String) (value : Json) (key : String) :
    (r.setContext key' value).contextAt? key =
      (if key' = key then some value else none).or (r.contextAt? key) := by
  show (r.contextOrEmpty.insert key' value).find? key = _
  rw [StringMap.find?_insert, find?_contextOrEmpty]
  by_cases hkey : key = key'
  · simp [hkey]
  · simp [hkey, Ne.symm hkey]

theorem composedAt?_setComposed (r : Response) (entries : List (String × DesiredResource))
    (name : String) :
    (r.setComposed entries).composedAt? name =
      ((lastAt? name entries).map fun d => ⟨some d.body, .empty, d.ready⟩).or
        (r.composedAt? name) := by
  show (r.composedOrEmpty.insertAll _).find? name = _
  rw [StringMap.find?_insertAll_last, find?_composedOrEmpty,
    lastAt?_map fun d : DesiredResource => Resource.mk (some d.body) .empty d.ready]

theorem selectorAt?_require (r : Response) (id' : String) (selector : ResourceSelector)
    (id : String) :
    (r.require id' selector).selectorAt? id =
      (if id' = id then some selector else none).or (r.selectorAt? id) := by
  show (r.selectorsOrEmpty.insert id' selector).find? id = _
  rw [StringMap.find?_insert, find?_selectorsOrEmpty]
  by_cases hid : id = id'
  · simp [hid]
  · simp [hid, Ne.symm hid]

end Response

/-- Parts that may be missing are equal if both are there or both missing, and equal if there. -/
theorem option_eq_of_isSome {α : Type} {x y : Option α} (hsome : x.isSome = y.isSome)
    (h : ∀ a b, x = some a → y = some b → a = b) : x = y := by
  cases x with
  | none =>
    cases y with
    | none => rfl
    | some b => cases hsome
  | some a =>
    cases y with
    | none => cases hsome
    | some b => exact congrArg some (h a b rfl rfl)

theorem optionMap_ext {α : Type} {m n : Option (StringMap α)} (hsome : m.isSome = n.isSome)
    (h : ∀ k, (m.bind fun m => m.find? k) = n.bind fun n => n.find? k) : m = n := by
  refine option_eq_of_isSome hsome fun a b ha hb => StringMap.ext fun k => ?_
  have hk := h k
  rwa [ha, hb] at hk

/-- Responses with the same views are equal. -/
theorem Response.ext_views {r s : Response} (info : r.info = s.info)
    (results : r.results = s.results) (has : ∀ k, r.has k = s.has k)
    (contextAt? : ∀ key, r.contextAt? key = s.contextAt? key)
    (composite? : r.composite? = s.composite?)
    (composedAt? : ∀ name, r.composedAt? name = s.composedAt? name)
    (selectorAt? : ∀ id, r.selectorAt? id = s.selectorAt? id) : r = s := by
  have hcontext : r.context = s.context := optionMap_ext (has .context) contextAt?
  have hcomposed : r.composed? = s.composed? := optionMap_ext (has .composed) composedAt?
  have hselectors : r.selectors? = s.selectors? := optionMap_ext (has .selectors) selectorAt?
  have hdesired : r.desired = s.desired := by
    refine option_eq_of_isSome (has .desired) fun a b ha hb => ?_
    unfold Response.composite? at composite?
    unfold Response.composed? at hcomposed
    rw [ha, hb] at composite? hcomposed
    obtain ⟨_, _⟩ := a
    cases composite?
    cases hcomposed
    rfl
  have hrequirements : r.requirements = s.requirements := by
    refine option_eq_of_isSome (has .requirements) fun a b ha hb => ?_
    unfold Response.selectors? at hselectors
    rw [ha, hb] at hselectors
    obtain ⟨_⟩ := a
    cases hselectors
    rfl
  obtain ⟨_, _, _, _, _⟩ := r
  cases info
  cases hdesired
  cases results
  cases hcontext
  cases hrequirements
  rfl

/-! ## Requirements -/

/-- A requirement as a call states it. -/
structure Requirement where
  id : String
  gvk : GroupVersionKind
  selection : Match
deriving DecidableEq

namespace Requirement

/-- Why the requirement is refused, if it is. -/
def refusal? (q : Requirement) : Option RequirementFault :=
  match q.selection with
  | .byName name => nameFault? q.id name q.gvk
  | .byLabels _ => labelsFault? q.id q.gvk

/-- The selector that stands for the requirement. -/
def selector (q : Requirement) : ResourceSelector := ⟨q.gvk.apiVersion, q.gvk.kind, q.selection⟩

/-- The call that states the requirement. -/
def call (q : Requirement) : Call :=
  match q.selection with
  | .byName name => .requireByName q.id name q.gvk
  | .byLabels labels => .requireByLabels q.id labels.labels q.gvk

end Requirement

/-! ## What a call addresses and writes -/

namespace Call

/-- The section that a call addresses. -/
def target : Call → Section
  | setContext .. => .context
  | setComposite .. => .composite
  | setComposed .. => .composed
  | requireByName .. => .requirements
  | requireByLabels .. => .requirements
  | report .. => .results

/-- The value that a call sets under a key of the context. -/
def contextAt? (key : String) : Call → Option Json
  | setContext key' value => if key' = key then some value else none
  | _ => none

/-- The composite that a call sets. -/
def composite? : Call → Option Resource
  | setComposite value details =>
    value.toBody.toOption.map fun body => ⟨some body, details, .unspecified⟩
  | _ => none

/-- The composed resource that a call sets under a name, the last one that it lists. -/
def composedAt? (name : String) : Call → Option Resource
  | setComposed entries =>
    (lastAt? name entries).bind fun (value, ready) =>
      value.toBody.toOption.map fun body => ⟨some body, .empty, ready⟩
  | _ => none

/-- The requirement that a call states. -/
def requirement? : Call → Option Requirement
  | requireByName id name gvk => some ⟨id, gvk, .byName name⟩
  | requireByLabels id labels gvk => some ⟨id, gvk, .byLabels ⟨labels⟩⟩
  | _ => none

/-- The requirement that a call states under an ID. -/
def requirementAt? (id : String) (c : Call) : Option Requirement :=
  c.requirement?.filter fun q => q.id = id

/-- The selector that a call sets under an ID. -/
def selectorAt? (id : String) (c : Call) : Option ResourceSelector :=
  (c.requirementAt? id).map Requirement.selector

/-- The result that a call reports. -/
def result? : Call → Option FunctionResult
  | report severity message => some ⟨severity, message⟩
  | _ => none

/-! A call sets nothing in a section that it does not address. -/

section Target

variable {c : Call}

theorem contextAt?_of_target (h : c.target ≠ .context) (key : String) :
    c.contextAt? key = none := by
  cases c with
  | setContext => exact absurd rfl h
  | _ => rfl

theorem composite?_of_target (h : c.target ≠ .composite) : c.composite? = none := by
  cases c with
  | setComposite => exact absurd rfl h
  | _ => rfl

theorem composedAt?_of_target (h : c.target ≠ .composed) (name : String) :
    c.composedAt? name = none := by
  cases c with
  | setComposed => exact absurd rfl h
  | _ => rfl

theorem requirementAt?_of_target (h : c.target ≠ .requirements) (id : String) :
    c.requirementAt? id = none := by
  cases c with
  | requireByName => exact absurd rfl h
  | requireByLabels => exact absurd rfl h
  | _ => rfl

theorem result?_of_target (h : c.target ≠ .results) : c.result? = none := by
  cases c with
  | report => exact absurd rfl h
  | _ => rfl

end Target

/-- The selectors that calls set under an ID are those of the requirements that they state. -/
theorem filterMap_selectorAt? (id : String) (calls : List Call) :
    calls.filterMap (selectorAt? id) =
      (calls.filterMap (requirementAt? id)).map Requirement.selector :=
  (List.map_filterMap ..).symm

/-- A successful call writes what it was given, and only into the section that it addresses. -/
inductive Writes (r : Response) : Call → Response → Prop
  | context (key : String) (value : Json) :
      Writes r (.setContext key value) (r.setContext key value)
  | composite {value : TypedValue} {body : Body} (details : ConnectionDetails)
      (converted : value.toBody = .ok body) :
      Writes r (.setComposite value details) (r.setComposite body details)
  | composed {entries : List (String × TypedValue × Readiness)}
      {resources : List (String × DesiredResource)} (converted : bodies entries = .ok resources) :
      Writes r (.setComposed entries) (r.setComposed resources)
  | byName {id name : String} {gvk : GroupVersionKind}
      (accepted : nameFault? id name gvk = none) :
      Writes r (.requireByName id name gvk)
        (r.require id ⟨gvk.apiVersion, gvk.kind, .byName name⟩)
  | byLabels {id : String} {labels : StringMap String} {gvk : GroupVersionKind}
      (accepted : labelsFault? id gvk = none) :
      Writes r (.requireByLabels id labels gvk)
        (r.require id ⟨gvk.apiVersion, gvk.kind, .byLabels ⟨labels⟩⟩)
  | result (severity : Severity) (message : String) :
      Writes r (.report severity message) (r.report severity message)

/-- All that a successful call can do. -/
theorem writes_of_run {r next : Response} {c : Call} (h : c.run r = .ok next) :
    Writes r c next := by
  cases c with
  | setContext key value =>
    cases h
    exact .context key value
  | setComposite value details =>
    obtain ⟨body, hbody, rfl⟩ := map_eq_ok.1 h
    exact .composite details hbody
  | setComposed entries =>
    obtain ⟨resources, hresources, rfl⟩ := map_eq_ok.1 h
    exact .composed hresources
  | requireByName id name gvk =>
    have hrequired := mapError_eq_ok.1 h
    unfold Response.requireByName at hrequired
    split at hrequired
    · cases hrequired
    · rename_i haccepted
      cases hrequired
      exact .byName haccepted
  | requireByLabels id labels gvk =>
    have hrequired := mapError_eq_ok.1 h
    unfold Response.requireByLabels at hrequired
    split at hrequired
    · cases hrequired
    · rename_i haccepted
      cases hrequired
      exact .byLabels haccepted
  | report severity message =>
    cases h
    exact .result severity message

/-- A requirement is refused for its own reasons. -/
theorem run_call (r : Response) (q : Requirement) :
    q.call.run r = match q.refusal? with
      | some fault => .error fault.error
      | none => .ok (r.require q.id q.selector) := by
  obtain ⟨id, gvk, selection⟩ := q
  cases selection with
  | byName name =>
    show (r.requireByName id name gvk).mapError RequirementFault.error = _
    simp only [Response.requireByName, Requirement.refusal?]
    cases nameFault? id name gvk <;> rfl
  | byLabels labels =>
    show (r.requireByLabels id labels.labels gvk).mapError RequirementFault.error = _
    simp only [Response.requireByLabels, Requirement.refusal?]
    cases labelsFault? id gvk <;> rfl

theorem error?_run (r : Response) (c : Call) : c.error? r = errorOf? (c.run r) := by
  unfold error?
  cases c.run r <;> rfl

theorem error?_call (r : Response) (q : Requirement) :
    q.call.error? r = q.refusal?.map RequirementFault.error := by
  rw [error?_run, run_call]
  cases q.refusal? <;> rfl

/-- Whether and why a call fails does not depend on the response. -/
theorem error?_eq (r s : Response) (c : Call) : c.error? r = c.error? s := by
  cases c with
  | setContext key value => rfl
  | setComposite value details => simp only [error?_run, run, errorOf?_map]
  | setComposed entries => simp only [error?_run, run, errorOf?_map]
  | requireByName id name gvk =>
    exact (error?_call r ⟨id, gvk, .byName name⟩).trans (error?_call s _).symm
  | requireByLabels id labels gvk =>
    exact (error?_call r ⟨id, gvk, .byLabels ⟨labels⟩⟩).trans (error?_call s _).symm
  | report severity message => rfl

end Call

end CompositionFunction
