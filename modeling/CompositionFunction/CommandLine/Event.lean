import CompositionFunction.Reply.Call

/-!
# Log records

What the command line logs on its way. Each event has a level, a message and fields of its own;
how many levels are logged depends on how often the user asks for more.

How many levels are logged is set by `init_tracing` of the program.
-/

set_option autoImplicit false

namespace CompositionFunction.CommandLine

open Text

/-- How important an event is, the most important first. -/
inductive LogLevel where
  | warn
  | info
  | debug
  | trace
deriving DecidableEq, Repr

namespace LogLevel

/-- The name of a level. -/
def name : LogLevel → String
  | warn => "WARN"
  | info => "INFO"
  | debug => "DEBUG"
  | trace => "TRACE"

/-- How often the user has to ask for more to see events of the level. -/
def neededVerbosity : LogLevel → Nat
  | warn | info => 0
  | debug => 1
  | trace => 2

end LogLevel

/-- Something to log. -/
inductive Event where
  | configMissing (path : String)
  | configCreated (path : String)
  | building (tag : String) (ttlSeconds : Nat)
  | settingContext (key : String)
  | requiringByName (id name : String) (gvk : GroupVersionKind)
  | requiringByLabels (id : String) (labels : Nat) (gvk : GroupVersionKind)
  | rejected (error : Error)
  | reporting (severity : Severity) (message : String)
  | built (results : Nat)
deriving DecidableEq, Repr

namespace Event

/-- The level of an event. -/
def level : Event → LogLevel
  | rejected _ => .warn
  | configCreated _ | building _ _ => .info
  | configMissing _ | requiringByName _ _ _ | requiringByLabels _ _ _ | built _ => .debug
  | settingContext _ | reporting _ _ => .trace

/-- The message of an event; that of a report is the message reported. -/
def message : Event → String
  | configMissing _ => "config file not found, using defaults"
  | configCreated _ => "created default config file"
  | building _ _ => "building response"
  | settingContext _ => "setting context key"
  | requiringByName _ _ _ => "requesting extra resource by name"
  | requiringByLabels _ _ _ => "requesting extra resources by labels"
  | rejected _ => "requirement rejected"
  | reporting _ message => message
  | built _ => "response built"

/-- The name of a severity in log records. -/
def severityName : Severity → String
  | .unspecified => "Unspecified"
  | .fatal => "Fatal"
  | .warning => "Warning"
  | .normal => "Normal"

/-- A count as a JSON value; one that needs more than 64 bits does not occur. -/
def count (n : Nat) : Json :=
  if h : n < 2 ^ 64 then .number (.int n (by omega) (by omega)) else .null

/-- The fields of an event beside its message. -/
def fields : Event → List (String × Json)
  | configMissing path | configCreated path => [("path", .text (quoted path))]
  | building tag ttlSeconds => [("tag", .text tag), ("ttl_secs", count ttlSeconds)]
  | settingContext key => [("key", .text key)]
  | requiringByName id name gvk =>
    [("id", .text id), ("name", .text name), ("gvk", .text gvk.text)]
  | requiringByLabels id labels gvk =>
    [("id", .text id), ("label_count", count labels), ("gvk", .text gvk.text)]
  | rejected e => [("e", .text e.text)]
  | reporting severity _ => [("severity", .text (severityName severity))]
  | built results => [("results", count results)]

/-- The message and the fields of an event. -/
def record (e : Event) : JsonObject := .ofList (("message", .text e.message) :: e.fields)

end Event

/-- The events that are logged if the user asks for more so often. -/
def logged (verbosity : Nat) (events : List Event) : List Event :=
  events.filter fun e => e.level.neededVerbosity ≤ verbosity

end CompositionFunction.CommandLine
