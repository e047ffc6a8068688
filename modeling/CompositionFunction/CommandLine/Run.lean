import CompositionFunction.CommandLine.Arguments
import CompositionFunction.CommandLine.Settings

/-!
# Running a command

A command reads its files, and its outcome is a text to print or an error. The configuration is
loaded first, then the request is read, then the flags are looked at.

`runCommand` is `run` of the program; `respond`, `createConfig` and `showConfig` are `cmd_respond`,
`cmd_config_init` and `cmd_config_show`, and `requestFrom` is `read_request`.
-/

set_option autoImplicit false

namespace CompositionFunction.CommandLine

/-- What a command comes to. -/
structure Outcome where
  /-- The text to print, or why there is none. -/
  result : Except Error String
  /-- What is to be logged. -/
  events : List Event

variable {m : Type → Type} [Monad m] [Host m]

/-- The request of a file, or of the standard input. The error of a text that is no request names
the source; the reason, which the program states after it, is left out. -/
def requestFrom (source : String) : m (Except Error Request) := do
  let text ← if source = "-" then
      match (← Host.readInput).bind textOf with
      | .ok s => pure (.ok s)
      | .error fault => pure (.error (.io "<stdin>" fault.message))
    else readText source
  match text with
  | .error e => return .error e
  | .ok s =>
    match Request.shape.ofText s with
    | .ok request => return .ok request
    | .error _ => return .error (.parse ("invalid request document " ++ source))

/-- The line of a response. -/
def responseLine (layout : Json.Document.Layout) (response : Response) : String :=
  Response.shape.render layout response ++ "\n"

/-- Responds to a request. -/
def respond (home : String) (flags : RespondFlags) : m Outcome := do
  match ← currentConfig home with
  | (.error e, events) => return ⟨.error e, events⟩
  | (.ok config, events) =>
    match ← requestFrom flags.request with
    | .error e => return ⟨.error e, events⟩
    | .ok request =>
      let events := events ++ responseEvents request flags config
      match responseTo request flags config with
      | .error fault => return ⟨.error fault.error, events⟩
      | .ok response => return ⟨.ok (responseLine (layoutOf flags config) response), events⟩

/-- The text that shows the document of a configuration, which is a document of TOML itself. -/
def configText (path toml : String) : String :=
  "# " ++ path ++ "\n" ++ toml ++ "\n"

/-- Shows the configuration. -/
def showConfig (home : String) : m Outcome := do
  match ← currentConfig home with
  | (.error e, events) => return ⟨.error e, events⟩
  | (.ok config, events) =>
    match config.render with
    | .error message => return ⟨.error (.config message), events⟩
    | .ok toml => return ⟨.ok (configText (configPath home) toml), events⟩

/-- Writes the built-in configuration. -/
def createConfig (home : String) : m Outcome := do
  match ← storeBuiltIn home with
  | (.error e, events) => return ⟨.error e, events⟩
  | (.ok path, events) => return ⟨.ok ("Config initialized at: " ++ path ++ "\n"), events⟩

/-- Runs a command. -/
def runCommand (home : String) : Command → m Outcome
  | .respond flags => respond home flags
  | .configInit => createConfig home
  | .configShow => showConfig home

/-! ## As a program -/

/-- The version of the program. -/
def versionLine : String := "composefn 0.1.0\n"

/-- What a run of the program shows and returns. -/
structure Exit where
  code : Nat
  stdout : String
  events : List Event

/-- A run that ends with the arguments. -/
def UsageFault.exit (fault : UsageFault) (help : String) : Exit :=
  match fault with
  | .help => ⟨0, help, []⟩
  | .version => ⟨0, versionLine, []⟩
  | _ => ⟨2, "", []⟩

/-- A run that ends with the outcome of a command, of which the user sees some events. -/
def Outcome.exit (outcome : Outcome) (verbosity : Nat) : Exit :=
  match outcome.result with
  | .ok text => ⟨0, text, logged verbosity outcome.events⟩
  | .error _ => ⟨1, "", logged verbosity outcome.events⟩

end CompositionFunction.CommandLine
