import CompositionFunction.Message.State

/-!
# Requests

A request brings a function the observed and the desired state, its own input, the context that
earlier functions left, and the resources that it asked for before.

`Request` is `RunFunctionRequest` of the program, with its `meta` as `info`; `RequestMeta` and
`Resources` have their names from there.
-/

set_option autoImplicit false

namespace CompositionFunction

open Schema

/-- What a request says of itself. -/
structure RequestMeta where
  tag : String
deriving DecidableEq, Repr

namespace RequestMeta

/-- How it stands in documents. -/
def shape : Shape RequestMeta :=
  Shape.via (.record "RequestMeta" (.cons (.defaulted "tag" .text "") .nil))
    (fun (tag, ()) => ⟨tag⟩) (fun m => (m.tag, ()))

end RequestMeta

/-- The resources fetched for one requirement. -/
structure Resources where
  items : List Resource
deriving DecidableEq

namespace Resources

/-- How fetched resources stand in documents. -/
def shape : Shape Resources :=
  Shape.via (.record "Resources" (.cons (.defaulted "items" (.list Resource.shape) []) .nil))
    (fun (items, ()) => ⟨items⟩) (fun r => (r.items, ()))

end Resources

/-- What a function is called with. -/
structure Request where
  info : Option RequestMeta
  observed : Option State
  desired : Option State
  /-- The input meant for this function alone. -/
  input : Option JsonObject
  /-- What earlier functions left for later ones. -/
  context : Option JsonObject
  /-- The resources fetched for earlier requirements, by the name of the requirement. -/
  extraResources : StringMap Resources
deriving DecidableEq

namespace Request

/-- The request that says nothing. -/
def empty : Request := ⟨none, none, none, none, none, .empty⟩

/-- The fields of a request. -/
def fields : Fields [Option RequestMeta, Option State, Option State, Option JsonObject,
    Option JsonObject, StringMap Resources] :=
  .cons (.optional "meta" RequestMeta.shape) <|
  .cons (.optional "observed" State.shape) <|
  .cons (.optional "desired" State.shape) <|
  .cons (.optional "input" .object) <|
  .cons (.optional "context" .object) <|
  .cons (.trimmed "extraResources" (.map Resources.shape) .empty inferInstance) .nil

/-- How requests stand in documents. -/
def shape : Shape Request :=
  Shape.via (.record "RunFunctionRequest" fields)
    (fun (info, observed, desired, input, context, extra, ()) =>
      ⟨info, observed, desired, input, context, extra⟩)
    (fun r =>
      (r.info, r.observed, r.desired, r.input, r.context, r.extraResources, ()))

/-- The tag of a request; one that says nothing of itself has the empty tag. -/
def tag (r : Request) : String := (r.info.map RequestMeta.tag).getD ""

end Request

end CompositionFunction
