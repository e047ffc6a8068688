import CompositionFunction.Schema.Read
import CompositionFunction.Schema.Write

/-!
# Resources and states

A resource has a body, the details needed to connect to it, and a statement whether it is ready.
A state is a composite resource with the resources composed into it, by name.

`State`, `Resource`, `ConnectionDetails` and the `Ready` of documents have their names from the
program, where `State.composed` is `resources` and `Resource.body` is `resource`. The two maps of
`ConnectionDetails` are `serialize` and `deserialize` of `connection_details`.
-/

set_option autoImplicit false

namespace CompositionFunction

open Schema

/-- Whether a resource is ready, as documents state it. -/
inductive Ready where
  | unspecified
  | no
  | yes
deriving DecidableEq, Repr

namespace Ready

/-- The name of a statement in documents. -/
def label : Ready → String
  | unspecified => "READY_UNSPECIFIED"
  | no => "READY_FALSE"
  | yes => "READY_TRUE"

/-- The statements in the order in which they are listed. -/
def all : List Ready := [unspecified, no, yes]

/-- How statements stand in documents. -/
def shape : Shape Ready := .choice (all.map fun r => (r.label, r)) label

end Ready

/-- The details needed to connect to a resource, each of them some bytes. -/
abbrev ConnectionDetails : Type := StringMap Bytes

namespace ConnectionDetails

/-- The bytes of each detail; the first refused one in key order decides. -/
def ofTexts (texts : StringMap String) : Except Misfit ConnectionDetails :=
  texts.traverse fun key s => (Base64.decode s).mapError (.connectionDetail key)

/-- The text of each detail. -/
def texts (details : ConnectionDetails) : StringMap String := details.map Base64.encode

/-- How connection details stand in documents. -/
def shape : Shape ConnectionDetails := .refined (.map .text) ofTexts texts

end ConnectionDetails

/-- A resource. -/
structure Resource where
  /-- The body, an object of any content. -/
  body : Option JsonObject
  connectionDetails : ConnectionDetails
  ready : Ready
deriving DecidableEq

namespace Resource

/-- The resource that says nothing. -/
def empty : Resource := ⟨none, .empty, .unspecified⟩

/-- The fields of a resource. -/
def fields : Fields [Option JsonObject, ConnectionDetails, Ready] :=
  .cons (.optional "resource" .object) <|
  .cons (.trimmed "connectionDetails" ConnectionDetails.shape .empty inferInstance) <|
  .cons (.trimmed "ready" Ready.shape .unspecified inferInstance) .nil

/-- How resources stand in documents. -/
def shape : Shape Resource :=
  Shape.via (.record "Resource" fields)
    (fun (body, connectionDetails, ready, ()) => ⟨body, connectionDetails, ready⟩)
    (fun r => (r.body, r.connectionDetails, r.ready, ()))

end Resource

/-- A composite resource with the resources composed into it. -/
structure State where
  composite : Option Resource
  /-- The composed resources by name; there may be none, or no map of them. -/
  composed : Option (StringMap Resource)
deriving DecidableEq

namespace State

/-- The state that says nothing. -/
def empty : State := ⟨none, none⟩

/-- The fields of a state. -/
def fields : Fields [Option Resource, Option (StringMap Resource)] :=
  .cons (.optional "composite" Resource.shape) <|
  .cons (.optional "resources" (.map Resource.shape)) .nil

/-- How states stand in documents. -/
def shape : Shape State :=
  Shape.via (.record "State" fields)
    (fun (composite, composed, ()) => ⟨composite, composed⟩)
    (fun s => (s.composite, s.composed, ()))

end State

end CompositionFunction
