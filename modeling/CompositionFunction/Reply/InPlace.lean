import CompositionFunction.Reply.Call

/-!
# Building a response in place

A function has one response, which its calls change where it stands. A call first looks at what it
was given. Then it writes: the container that it needs comes into being if it is missing, and the
entries are put into it one after the other. A failure does not undo what was written before, so
whether a call that fails leaves a trace depends on the order of its steps.

The containers come into being as in `context_mut`, `desired_mut`, `resources_mut`,
`requirements_mut` and `extra_resources_mut` of the program.

* `Edit` : work on a response in place.
* `Call.perform` : the steps of a call.
-/

set_option autoImplicit false

namespace CompositionFunction

/-- Work on a response in place. If it fails, what it wrote before that stays written. -/
abbrev Edit : Type → Type := ExceptT Error (StateM Response)

namespace Edit

variable {α : Type}

/-- The outcome of the work, and the response that it leaves behind. -/
def on (work : Edit α) (r : Response) : Except Error α × Response := work.run.run r

/-- Goes on with what was computed beside the response, or fails as that did. -/
def ofOutcome : Except Error α → Edit α
  | .ok a => pure a
  | .error e => throw e

/-- Fails if there is a reason to refuse a requirement. -/
def refuse : Option RequirementFault → Edit Unit
  | none => pure ()
  | some fault => throw fault.error

/-! ## Containers -/

/-- From here on there is a context. -/
def ensureContext : Edit Unit := modify fun r => r.withContext r.contextOrEmpty

/-- From here on there is a desired state. -/
def ensureDesired : Edit Unit := modify fun r => r.withDesired r.desiredOrEmpty

/-- From here on the desired state has a map of composed resources. -/
def ensureComposed : Edit Unit := do
  ensureDesired
  modify fun r => r.withComposed r.composedOrEmpty

/-- From here on there are requirements. -/
def ensureRequirements : Edit Unit := modify fun r => r.withRequirements r.requirementsOrEmpty

/-- From here on the requirements have a map of selectors. -/
def ensureSelectors : Edit Unit := do
  ensureRequirements
  modify fun r => r.withSelectors r.selectorsOrEmpty

/-! ## Entries -/

/-- Puts a value under a key of the context. -/
def putContext (key : String) (value : Json) : Edit Unit := do
  ensureContext
  modify fun r => r.withContext (r.contextOrEmpty.insert key value)

/-- Puts the composite resource into the desired state. -/
def putComposite (composite : Resource) : Edit Unit := do
  ensureDesired
  modify fun r => r.withDesired { r.desiredOrEmpty with composite := some composite }

/-- Puts composed resources into the desired state, one by one. -/
def putComposed (resources : List (String × DesiredResource)) : Edit Unit := do
  ensureComposed
  resources.forM fun (name, d) =>
    modify fun r => r.withComposed (r.composedOrEmpty.insert name ⟨some d.body, .empty, d.ready⟩)

/-- Puts a selector under the name of a requirement. -/
def putSelector (id : String) (selector : ResourceSelector) : Edit Unit := do
  ensureSelectors
  modify fun r => r.withSelectors (r.selectorsOrEmpty.insert id selector)

end Edit

open Edit in
/-- The steps of a call. -/
def Call.perform : Call → Edit Unit
  | setContext key value => putContext key value
  | setComposite value details => do
    let body ← ofOutcome value.toBody
    putComposite ⟨some body, details, .unspecified⟩
  | setComposed entries => do
    let resources ← ofOutcome (bodies entries)
    putComposed resources
  | requireByName id name gvk => do
    refuse (nameFault? id name gvk)
    putSelector id ⟨gvk.apiVersion, gvk.kind, .byName name⟩
  | requireByLabels id labels gvk => do
    refuse (labelsFault? id gvk)
    putSelector id ⟨gvk.apiVersion, gvk.kind, .byLabels ⟨labels⟩⟩
  | report severity message => modify fun r => r.report severity message

end CompositionFunction
