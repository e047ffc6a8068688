import CompositionFunction.Message.Result
import CompositionFunction.Message.State

/-!
# Responses

A response carries the desired state and the context on to later functions, reports results, and
may require further resources, which are selected by name or by labels.

`Response` is `RunFunctionResponse` of the program, with its `meta` as `info`. `ResponseMeta`,
`Requirements`, `ResourceSelector`, `Match` and `MatchLabels` have their names from there; the
`selection` of a selector is its `selector`.
-/

set_option autoImplicit false

namespace CompositionFunction

open Schema

/-! ## What is said of the response -/

/-- What a response says of itself. -/
structure ResponseMeta where
  tag : String
  /-- For how long the response may be kept. -/
  ttl : Option Duration
deriving DecidableEq, Repr

/-- How durations stand in documents. -/
def Duration.shape : Shape Duration :=
  .refined .text (fun s => (Duration.parse s).mapError .duration) Duration.text

namespace ResponseMeta

/-- How it stands in documents. -/
def shape : Shape ResponseMeta :=
  Shape.via
    (.record "ResponseMeta"
      (.cons (.defaulted "tag" .text "") (.cons (.optional "ttl" Duration.shape) .nil)))
    (fun (tag, ttl, ()) => ⟨tag, ttl⟩) (fun m => (m.tag, m.ttl, ()))

end ResponseMeta

/-! ## Requirements -/

/-- The labels that resources are selected by. -/
structure MatchLabels where
  labels : StringMap String
deriving DecidableEq

namespace MatchLabels

/-- How labels stand in documents. -/
def shape : Shape MatchLabels :=
  Shape.via (.record "MatchLabels" (.cons (.defaulted "labels" (.map .text) .empty) .nil))
    (fun (labels, ()) => ⟨labels⟩) (fun m => (m.labels, ()))

end MatchLabels

/-- Which resources of a kind are selected. -/
inductive Match where
  | byName (name : String)
  | byLabels (labels : MatchLabels)
deriving DecidableEq

namespace Match

/-- The selection of one of the two options. -/
def ofSum : String ⊕ MatchLabels → Match
  | .inl name => byName name
  | .inr labels => byLabels labels

/-- The option of a selection. -/
def toSum : Match → String ⊕ MatchLabels
  | byName name => .inl name
  | byLabels labels => .inr labels

/-- How selections stand in documents. -/
def shape : Shape Match :=
  Shape.via (.either "matchName" .text "matchLabels" MatchLabels.shape) ofSum toSum

end Match

/-- The resources that a requirement selects. -/
structure ResourceSelector where
  apiVersion : String
  kind : String
  selection : Match
deriving DecidableEq

namespace ResourceSelector

/-- How selectors stand in documents: the selection is a member beside the kind. -/
def shape : Shape ResourceSelector :=
  Shape.via
    (.recordWith "ResourceSelector"
      (.cons (.required "apiVersion" .text) (.cons (.required "kind" .text) .nil))
      "Match" "matchName" .text "matchLabels" MatchLabels.shape)
    (fun ((apiVersion, kind, ()), selection) => ⟨apiVersion, kind, .ofSum selection⟩)
    (fun s => ((s.apiVersion, s.kind, ()), s.selection.toSum))

end ResourceSelector

/-- What a function requires for its next call. -/
structure Requirements where
  /-- The selectors of further resources, by the name of the requirement. -/
  extraResources : Option (StringMap ResourceSelector)
deriving DecidableEq

namespace Requirements

/-- No requirements. -/
def empty : Requirements := ⟨none⟩

/-- How requirements stand in documents. -/
def shape : Shape Requirements :=
  Shape.via
    (.record "Requirements"
      (.cons (.optional "extraResources" (.map ResourceSelector.shape)) .nil))
    (fun (extra, ()) => ⟨extra⟩) (fun r => (r.extraResources, ()))

end Requirements

/-! ## Responses -/

/-- What a function answers. -/
structure Response where
  info : Option ResponseMeta
  desired : Option State
  results : List FunctionResult
  context : Option JsonObject
  requirements : Option Requirements
deriving DecidableEq

namespace Response

/-- The response that says nothing. -/
def empty : Response := ⟨none, none, [], none, none⟩

/-- The fields of a response. -/
def fields : Fields [Option ResponseMeta, Option State, List FunctionResult, Option JsonObject,
    Option Requirements] :=
  .cons (.optional "meta" ResponseMeta.shape) <|
  .cons (.optional "desired" State.shape) <|
  .cons (.trimmed "results" (.list FunctionResult.shape) [] inferInstance) <|
  .cons (.optional "context" .object) <|
  .cons (.optional "requirements" Requirements.shape) .nil

/-- How responses stand in documents. -/
def shape : Shape Response :=
  Shape.via (.record "RunFunctionResponse" fields)
    (fun (info, desired, results, context, requirements, ()) =>
      ⟨info, desired, results, context, requirements⟩)
    (fun r => (r.info, r.desired, r.results, r.context, r.requirements, ()))

end Response

end CompositionFunction
