import CompositionFunction.Message.Reading
import CompositionFunction.Message.Response

/-!
# The sections of a response

A response to a request takes over its tag, its desired state and its context. Context, desired
state and requirements come into being when something is put into them; what they held before
stays.

`replyTo` is `to` of the program; `setContext`, `setComposite` and `setComposed` are
`set_context_key`, `set_desired_composite_resource` and `set_desired_composed_resources`, `require`
is `insert`, and `report` is `append_result`. What may be missing is reached there by `context_mut`,
`desired_mut`, `resources_mut`, `requirements_mut` and `extra_resources_mut`.
-/

set_option autoImplicit false

namespace CompositionFunction

namespace Response

/-- The response to a request before the function has done anything. -/
def replyTo (request : Request) (ttl : Duration) : Response :=
  ⟨some ⟨request.tag, some ttl⟩, request.desired, [], request.context, none⟩

/-! ## What the sections hold -/

/-- The context, which may be missing. -/
def contextOrEmpty (r : Response) : JsonObject := r.context.getD .empty

/-- The desired state, which may be missing. -/
def desiredOrEmpty (r : Response) : State := r.desired.getD .empty

/-- The composed resources, which may be missing. -/
def composedOrEmpty (r : Response) : StringMap Resource :=
  r.desiredOrEmpty.composed.getD .empty

/-- The requirements, which may be missing. -/
def requirementsOrEmpty (r : Response) : Requirements := r.requirements.getD .empty

/-- The selectors of further resources, which may be missing. -/
def selectorsOrEmpty (r : Response) : StringMap ResourceSelector :=
  r.requirementsOrEmpty.extraResources.getD .empty

/-! ## Putting something into a section -/

/-- Replaces the context. -/
def withContext (r : Response) (context : JsonObject) : Response :=
  { r with context := some context }

/-- Replaces the desired state. -/
def withDesired (r : Response) (desired : State) : Response := { r with desired := some desired }

/-- Replaces the composed resources. -/
def withComposed (r : Response) (composed : StringMap Resource) : Response :=
  r.withDesired { r.desiredOrEmpty with composed := some composed }

/-- Replaces the requirements. -/
def withRequirements (r : Response) (requirements : Requirements) : Response :=
  { r with requirements := some requirements }

/-- Replaces the selectors of further resources. -/
def withSelectors (r : Response) (selectors : StringMap ResourceSelector) : Response :=
  r.withRequirements { r.requirementsOrEmpty with extraResources := some selectors }

/-- Sets a key of the context. -/
def setContext (r : Response) (key : String) (value : Json) : Response :=
  r.withContext (r.contextOrEmpty.insert key value)

/-- Sets the composite resource as it shall be. -/
def setComposite (r : Response) (body : Body) (details : ConnectionDetails) : Response :=
  r.withDesired
    { r.desiredOrEmpty with composite := some ⟨some body, details, .unspecified⟩ }

/-- Sets composed resources as they shall be, the last one of each name; others stay. -/
def setComposed (r : Response) (entries : List (String × DesiredResource)) : Response :=
  r.withComposed (r.composedOrEmpty.insertAll
    (entries.map fun e => (e.1, ⟨some e.2.body, .empty, e.2.ready⟩)))

/-- Sets the selector of a requirement. -/
def require (r : Response) (id : String) (selector : ResourceSelector) : Response :=
  r.withSelectors (r.selectorsOrEmpty.insert id selector)

/-- Adds a result after the others. -/
def report (r : Response) (severity : Severity) (message : String) : Response :=
  { r with results := r.results ++ [⟨severity, message⟩] }

end Response

end CompositionFunction
