import CompositionFunction.Config
import CompositionFunction.CommandLine.Event
import CompositionFunction.CommandLine.Flag

/-!
# Responding to a request

The flags of a command become steps, kind by kind: context, requirements by name, requirements by
labels, results. The first malformed flag stops the command. A requirement that is refused does
not: it becomes a fatal result.

`RespondFlags` is `RespondArgs` of the program, and `responseTo` is `build_response`.
-/

set_option autoImplicit false

namespace CompositionFunction.CommandLine

/-- What the user says of the response. -/
structure RespondFlags where
  /-- The file of the request; a dash is the standard input. -/
  request : String
  /-- For how many seconds the response may be kept, if not as configured. -/
  ttl : Option { n : Nat // n < 2 ^ 64 }
  context : List String
  requireName : List String
  requireLabels : List String
  results : List String
  /-- The document is not indented, whatever is configured. -/
  compact : Bool
deriving DecidableEq, Repr

/-! ## Steps -/

/-- What one flag does to the response. -/
inductive Step where
  | context (key : String) (value : Json)
  | requireName (id name : String) (gvk : GroupVersionKind)
  | requireLabels (id : String) (labels : StringMap String) (gvk : GroupVersionKind)
  | result (severity : Severity) (message : String)

namespace Step

/-- The call that a step makes. -/
def call : Step → Call
  | context key value => .setContext key value
  | requireName id name gvk => .requireByName id name gvk
  | requireLabels id labels gvk => .requireByLabels id labels gvk
  | result severity message => .report severity message

/-- Why the requirement of a step is refused. -/
def refusal? : Step → Option Error
  | requireName id name gvk => (nameFault? id name gvk).map RequirementFault.error
  | requireLabels id _ gvk => (labelsFault? id gvk).map RequirementFault.error
  | context _ _ | result _ _ => none

/-- The response after a step. A refused requirement is reported as fatal. -/
def apply (r : Response) (s : Step) : Response :=
  match s.call.run r with
  | .ok next => next
  | .error e => r.report .fatal e.text

/-- What is logged of a step. -/
def events (s : Step) : List Event :=
  match s.refusal?, s with
  | some e, _ => [.rejected e, .reporting .fatal e.text]
  | none, context key _ => [.settingContext key]
  | none, requireName id name gvk => [.requiringByName id name gvk]
  | none, requireLabels id labels gvk => [.requiringByLabels id labels.size gvk]
  | none, result severity message => [.reporting severity message]

end Step

namespace RespondFlags

/-- The steps of the flags in order, with the malformed ones among them. -/
def steps (f : RespondFlags) : List (Except FlagFault Step) :=
  f.context.map (fun raw => (contextEntry raw).map fun (key, value) => .context key value) ++
  f.requireName.map (fun raw =>
    (namedRequirement raw).map fun (id, gvk, name) => .requireName id name gvk) ++
  f.requireLabels.map (fun raw =>
    (labelledRequirement raw).map fun (id, gvk, labels) => .requireLabels id labels gvk) ++
  f.results.map (fun raw =>
    (resultEntry raw).map fun (severity, message) => .result severity message)

/-- For how long the response may be kept. -/
def ttlOr (f : RespondFlags) (config : Config) : Duration :=
  match f.ttl with
  | some ⟨n, h⟩ => .ofSeconds n h
  | none => config.ttl

end RespondFlags

/-- The steps before the first malformed one, and that one. -/
def wellFormed : List (Except FlagFault Step) → List Step × Option FlagFault
  | [] => ([], none)
  | .error fault :: _ => ([], some fault)
  | .ok step :: rest => (step :: (wellFormed rest).1, (wellFormed rest).2)

/-- The response to a request, built by steps. -/
def afterSteps (request : Request) (ttl : Duration) (steps : List Step) : Response :=
  steps.foldl Step.apply (.replyTo request ttl)

/-- The response to a request, or the first malformed flag. -/
def responseTo (request : Request) (flags : RespondFlags) (config : Config) :
    Except FlagFault Response :=
  match wellFormed flags.steps with
  | (_, some fault) => .error fault
  | (steps, none) => .ok (afterSteps request (flags.ttlOr config) steps)

/-- What is logged while a response is built. -/
def responseEvents (request : Request) (flags : RespondFlags) (config : Config) : List Event :=
  let ttl := flags.ttlOr config
  let (steps, fault) := wellFormed flags.steps
  let after := if fault.isSome then [] else
    [.built (afterSteps request ttl steps).results.length]
  .building request.tag ttl.seconds :: steps.flatMap Step.events ++ after

/-- How the document of a response is laid out. -/
def layoutOf (flags : RespondFlags) (config : Config) : Json.Document.Layout :=
  if config.pretty && !flags.compact then .indented else .compact

end CompositionFunction.CommandLine
