import CompositionFunction.Reply.Requirement

/-!
# Calls that build a response

A function builds its response by a sequence of calls. A call that fails leaves the response as it
was.

A `Call` is a call to one of the functions of the program that change a response; `fatal`, `warning`
and `normal` have their names from there.
-/

set_option autoImplicit false

namespace CompositionFunction

/-- A call that builds a response. -/
inductive Call where
  | setContext (key : String) (value : Json)
  | setComposite (body : TypedValue) (details : ConnectionDetails)
  | setComposed (entries : List (String × TypedValue × Readiness))
  | requireByName (id name : String) (gvk : GroupVersionKind)
  | requireByLabels (id : String) (labels : StringMap String) (gvk : GroupVersionKind)
  | report (severity : Severity) (message : String)

namespace Call

/-- Reports that the pipeline cannot go on. -/
def fatal (message : String) : Call := report .fatal message

/-- Reports a warning. -/
def warning (message : String) : Call := report .warning message

/-- Reports that all is well. -/
def normal (message : String) : Call := report .normal message

/-- The bodies of some typed values; the first one that is no body decides. -/
def bodies : List (String × TypedValue × Readiness) → Except Error (List (String × DesiredResource))
  | [] => .ok []
  | (name, value, ready) :: rest =>
    match value.toBody with
    | .error e => .error e
    | .ok body =>
      match bodies rest with
      | .error e => .error e
      | .ok entries => .ok ((name, ⟨body, ready⟩) :: entries)

/-- The response after a call, or why the call fails. -/
def run (r : Response) : Call → Except Error Response
  | setContext key value => .ok (r.setContext key value)
  | setComposite value details => value.toBody.map fun body => r.setComposite body details
  | setComposed entries => (bodies entries).map r.setComposed
  | requireByName id name gvk => (r.requireByName id name gvk).mapError RequirementFault.error
  | requireByLabels id labels gvk =>
    (r.requireByLabels id labels gvk).mapError RequirementFault.error
  | report severity message => .ok (r.report severity message)

/-- The response after a call; a call that fails changes nothing. -/
def apply (r : Response) (call : Call) : Response :=
  match call.run r with
  | .ok next => next
  | .error _ => r

/-- Why a call fails, if it does. -/
def error? (r : Response) (call : Call) : Option Error :=
  match call.run r with
  | .ok _ => none
  | .error e => some e

/-- The response after some calls in order. -/
def applyAll (r : Response) (calls : List Call) : Response := calls.foldl apply r

end Call

end CompositionFunction
