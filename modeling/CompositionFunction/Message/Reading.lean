import CompositionFunction.Message.Body
import CompositionFunction.Message.Request

/-!
# What a function reads from its request

A part that the request does not carry is read as an empty one; only the input has to be there.

In the program `ObservedResource` is `Composite` and `ObservedComposed`, `DesiredResource` is
`DesiredComposed`, and `Readiness` is the `Ready` beside them, which is another type than the one of
documents and is mapped to it and from it. What is read is `get_context_key` (`contextValue?`),
`get_input` (`inputAs`), `get_observed_composite_resource` and `get_desired_composite_resource`,
`get_observed_composed_resources` and `get_desired_composed_resources`, and `get_extra_resources`
(`extraBodies`).
-/

set_option autoImplicit false

namespace CompositionFunction

open Schema

/-- Whether a resource is ready, as a function sees it. -/
inductive Readiness where
  | unspecified
  | no
  | yes
deriving DecidableEq, Repr

namespace Readiness

/-- A definite statement. -/
def ofBool (b : Bool) : Readiness := if b then yes else no

/-- The statement in a document. -/
def toReady : Readiness → Ready
  | unspecified => .unspecified
  | no => .no
  | yes => .yes

end Readiness

namespace Ready

/-- The statement to a function. -/
def toReadiness : Ready → Readiness
  | unspecified => .unspecified
  | no => .no
  | yes => .yes

instance : Coe Readiness Ready := ⟨Readiness.toReady⟩

instance : Coe Ready Readiness := ⟨toReadiness⟩

/-- A definite statement in a document. -/
def ofBool (b : Bool) : Ready := Readiness.ofBool b

@[simp] theorem toReady_toReadiness (r : Ready) : r.toReadiness.toReady = r := by
  cases r <;> rfl

end Ready

@[simp] theorem Readiness.toReadiness_toReady (r : Readiness) : r.toReady.toReadiness = r := by
  cases r <;> rfl

/-- A resource that is there, with the details needed to connect to it. -/
structure ObservedResource where
  body : Body
  connectionDetails : ConnectionDetails
deriving DecidableEq

/-- A resource that shall be there, with a statement whether it is ready. -/
structure DesiredResource where
  body : Body
  ready : Readiness
deriving DecidableEq

namespace Resource

/-- The body of a resource; one without body has the empty one. -/
def bodyOrEmpty (r : Resource) : Body := r.body.getD .empty

/-- The resource with its connection details. -/
def asObserved (r : Resource) : ObservedResource := ⟨r.bodyOrEmpty, r.connectionDetails⟩

/-- The resource with its readiness. -/
def asDesired (r : Resource) : DesiredResource := ⟨r.bodyOrEmpty, r.ready⟩

/-- What was written of a resource that shall be there is read again. -/
theorem asDesired_mk (d : DesiredResource) (details : ConnectionDetails) :
    (Resource.mk (some d.body) details d.ready).asDesired = d :=
  congrArg (DesiredResource.mk d.body) d.ready.toReadiness_toReady

end Resource

/-- The composite resource of a state that may be missing. -/
def State.compositeOf (state : Option State) : ObservedResource :=
  ((state.bind State.composite).getD .empty).asObserved

/-- The composed resources of a state that may be missing. -/
def State.composedOf (state : Option State) : StringMap Resource :=
  (state.bind State.composed).getD .empty

namespace Request

/-- The value that earlier functions left under a key of the context. -/
def contextValue? (r : Request) (key : String) : Option Json :=
  r.context.bind fun context => context.find? key

/-- The input as a value of a shape. -/
def inputAs {α : Type} (r : Request) (typeName : String) (shape : Shape α) : Except Error α :=
  match r.input with
  | none => .error (.validation "request has no input")
  | some input => Body.toTyped typeName shape input

/-- The composite resource as it is. -/
def observedComposite (r : Request) : ObservedResource := State.compositeOf r.observed

/-- The composite resource as it shall be. -/
def desiredComposite (r : Request) : ObservedResource := State.compositeOf r.desired

/-- The composed resources as they are, by name. -/
def observedComposed (r : Request) : StringMap ObservedResource :=
  (State.composedOf r.observed).map Resource.asObserved

/-- The composed resources as they shall be, by name. -/
def desiredComposed (r : Request) : StringMap DesiredResource :=
  (State.composedOf r.desired).map Resource.asDesired

/-- The bodies of the resources fetched for each requirement. -/
def extraBodies (r : Request) : StringMap (List Body) :=
  r.extraResources.map fun resources => resources.items.filterMap Resource.body

end Request

end CompositionFunction
