import CompositionFunction.CommandLine.Respond
import CompositionFunction.Text.Decimal

/-!
# Arguments

The arguments name a command and its options. They are read from left to right. The value of an
option may be attached by an equals sign or be the next argument, which then does not begin with a
dash. Such a value is looked at when the option is settled: at the next option that is known, or
at the end, after the arguments of a command inside.

`Invocation` is `Cli` of the program, `Command` is `Command` with `ConfigAction`, and the flags are
`RespondArgs`.
-/

set_option autoImplicit false

namespace CompositionFunction.CommandLine

open Text

/-- How log records are written. -/
inductive LogFormat where
  | text
  | json
deriving DecidableEq, Repr

/-- What to do. -/
inductive Command where
  | respond (flags : RespondFlags)
  | configInit
  | configShow
deriving DecidableEq, Repr

/-- A command with what holds for all commands. -/
structure Invocation where
  logFormat : LogFormat
  /-- How often the user asks for more log records. -/
  verbosity : Nat
  command : Command
deriving DecidableEq, Repr

/-- Why the arguments are not a command to be run. -/
inductive UsageFault where
  /-- An option lacks its value, or the value is none of those it may have. -/
  | invalidValue
  /-- A value is malformed. -/
  | valueValidation
  /-- An option is given twice. -/
  | argumentConflict
  /-- An option that has no value is given one. -/
  | tooManyValues
  | unknownArgument
  | invalidSubcommand
  | missingSubcommand
  /-- Nothing is asked for, so the help is shown as an error. -/
  | helpOnNothing
  /-- The help is asked for. -/
  | help
  /-- The version is asked for. -/
  | version
deriving DecidableEq, Repr

/-- Showing what was asked for is no failure. -/
def UsageFault.isRequest : UsageFault → Bool
  | help | version => true
  | _ => false

/-! ## Commands and options -/

/-- A command, or a group of commands. -/
inductive Level where
  | top
  | config
  | respond
  | configInit
  | configShow
deriving DecidableEq, Repr

/-- The commands of a group. -/
def Level.commands : Level → List (String × Level)
  | .top => [("respond", .respond), ("config", .config)]
  | .config => [("init", .configInit), ("show", .configShow)]
  | .respond | .configInit | .configShow => []

/-- Whether a command of a group has the name; each group has a command for help. -/
def Level.hasCommand (level : Level) (name : String) : Bool :=
  !level.commands.isEmpty && (name = "help" || (level.commands.lookup name).isSome)

/-- An option with a value. -/
inductive ValueOption where
  | logFormat
  | request
  | ttl
  | context
  | requireName
  | requireLabels
  | result
deriving DecidableEq, Repr

/-- An option without value. -/
inductive Switch where
  | verbose
  | compact
  | help
  | version
deriving DecidableEq, Repr

/-- The long options of a level. -/
def Level.options (level : Level) : List (String × (ValueOption ⊕ Switch)) :=
  let always := [("log-format", .inl .logFormat), ("verbose", .inr .verbose), ("help", .inr .help)]
  match level with
  | .top => ("version", .inr .version) :: always
  | .respond =>
    [("request", .inl .request), ("ttl", .inl .ttl), ("context", .inl .context),
      ("require-name", .inl .requireName), ("require-labels", .inl .requireLabels),
      ("result", .inl .result), ("compact", .inr .compact)] ++ always
  | .config | .configInit | .configShow => always

/-- The letter of an option at a level. -/
def Level.letter? (level : Level) (c : Char) : Option Switch :=
  if c = 'v' then some .verbose
  else if c = 'h' then some .help
  else if c = 'V' ∧ level = .top then some .version
  else none

/-! ## What has been given -/

/-- The options given at one level so far. -/
structure Given where
  logFormat : Option LogFormat := none
  verbosity : Nat := 0
  request : Option String := none
  ttl : Option { n : Nat // n < 2 ^ 64 } := none
  context : List String := []
  requireName : List String := []
  requireLabels : List String := []
  results : List String := []
  compact : Bool := false
deriving DecidableEq, Repr

namespace Given

/-- Something has been given. -/
def isSomething (g : Given) : Bool := g ≠ {}

/-- Sets an option that may be given once. -/
def once {α : Type} (before : Option α) (value : Except UsageFault α) : Except UsageFault α :=
  if before.isSome then .error .argumentConflict else value

/-- Takes the value of an option. -/
def take (g : Given) (option : ValueOption) (value : String) : Except UsageFault Given :=
  match option with
  | .logFormat => do
    let format ← once g.logFormat <|
      if value = "text" then .ok .text
      else if value = "json" then .ok .json
      else .error .invalidValue
    .ok { g with logFormat := some format }
  | .request => do
    let request ← once g.request (.ok value)
    .ok { g with request := some request }
  | .ttl => do
    let ttl ← once g.ttl <|
      match readWord? value.toList with
      | some n => .ok n
      | none => .error .valueValidation
    .ok { g with ttl := some ttl }
  | .context => .ok { g with context := g.context ++ [value] }
  | .requireName => .ok { g with requireName := g.requireName ++ [value] }
  | .requireLabels => .ok { g with requireLabels := g.requireLabels ++ [value] }
  | .result => .ok { g with results := g.results ++ [value] }

/-- Turns a switch on. -/
def turnOn (g : Given) : Switch → Except UsageFault Given
  | .verbose => .ok { g with verbosity := g.verbosity + 1 }
  | .compact => if g.compact then .error .argumentConflict else .ok { g with compact := true }
  | .help => .error .help
  | .version => .error .version

/-- The flags for a response. -/
def respondFlags (g : Given) : RespondFlags :=
  ⟨g.request.getD "-", g.ttl, g.context, g.requireName, g.requireLabels, g.results, g.compact⟩

end Given

/-- An option that is not settled yet, and its value if it has come. -/
structure Pending where
  option : ValueOption
  value : Option String

/-- How far the arguments of a level have been read. -/
structure Scan where
  given : Given := {}
  pending : Option Pending := none
  /-- Two dashes have come, after which nothing is an option. -/
  isTrailing : Bool := false

namespace Scan

/-- The value of the last option is due. -/
def isDue (s : Scan) : Bool :=
  match s.pending with
  | some p => p.value.isNone
  | none => false

/-- Settles the last option. -/
def settle (s : Scan) : Except UsageFault Given :=
  match s.pending with
  | none => .ok s.given
  | some ⟨option, some value⟩ => s.given.take option value
  | some ⟨_, none⟩ => .error .invalidValue

/-- Settles the last option and changes what has been given. -/
def settleAnd (s : Scan) (f : Given → Except UsageFault Given) : Except UsageFault Scan := do
  let given ← f (← s.settle)
  .ok { s with given, pending := none }

/-- Reads a long option. -/
def long (level : Level) (s : Scan) (name : String) (attached : Option String) :
    Except UsageFault Scan :=
  match level.options.lookup name, attached with
  | none, _ => .error .unknownArgument
  | some (.inl option), some value => s.settleAnd fun g => g.take option value
  | some (.inl option), none => do
    let given ← s.settle
    .ok { s with given, pending := some ⟨option, none⟩ }
  | some (.inr _), some _ => .error .tooManyValues
  | some (.inr switch), none => s.settleAnd fun g => g.turnOn switch

/-- Reads the letters of short options. -/
def letters (level : Level) : Scan → List Char → Except UsageFault Scan
  | s, [] => .ok s
  | s, c :: cs =>
    match level.letter? c with
    | none => .error .unknownArgument
    | some switch =>
      match s.settleAnd fun g => g.turnOn switch with
      | .error e => .error e
      | .ok next => letters level next cs

/-- The fault of an argument that is neither option nor value nor command. -/
def strayFault (level : Level) (s : Scan) (arg : String) : UsageFault :=
  if level.commands.isEmpty || (s.isTrailing && level.hasCommand arg) then .unknownArgument
  else .invalidSubcommand

/-- Reads the arguments of a level up to the name of a command, which comes with the arguments
after it. -/
def run (level : Level) :
    Scan → List String → Except UsageFault (Scan × Option (String × List String))
  | s, [] => .ok (s, none)
  | s, arg :: args =>
    if s.isTrailing then .error (s.strayFault level arg)
    else if !s.isDue && level.hasCommand arg then .ok (s, some (arg, args))
    else if arg = "--" then run level { s with isTrailing := true } args
    else match arg.toList with
      | '-' :: '-' :: body =>
        let (name, attached) := match splitFirst '=' body with
          | some (name, value) => (String.ofList name, some (String.ofList value))
          | none => (String.ofList body, none)
        match s.long level name attached with
        | .error e => .error e
        | .ok next => run level next args
      | '-' :: c :: cs =>
        match s.letters level (c :: cs) with
        | .error e => .error e
        | .ok next => run level next args
      | _ =>
        match s.pending with
        | some ⟨option, none⟩ =>
          run level { s with pending := some ⟨option, some arg⟩ } args
        | _ => .error (s.strayFault level arg)

end Scan

/-! ## Whole command lines -/

/-- The help that some names of commands ask for. -/
def helpFor : Level → List String → UsageFault
  | _, [] => .help
  | level, name :: names =>
    match level.commands.lookup name with
    | some inner => helpFor inner names
    | none =>
      if level.hasCommand name && names.isEmpty then .help else .invalidSubcommand

/-- What holds for all commands: the innermost level that says something of it counts. -/
def Given.within (outer inner : Given) : Given :=
  { inner with
    logFormat := inner.logFormat.or outer.logFormat
    verbosity := if inner.verbosity = 0 then outer.verbosity else inner.verbosity }

/-- Why a group without command is not run. -/
def Given.nothingFault (g : Given) : UsageFault :=
  if g.isSomething then .missingSubcommand else .helpOnNothing

/-- The command of the arguments of a single command, and what was given. -/
def parseCommand (level : Level) (args : List String) : Except UsageFault (Command × Given) := do
  let (s, _) ← Scan.run level {} args
  let given ← s.settle
  match level with
  | .configInit => .ok (.configInit, given)
  | .configShow => .ok (.configShow, given)
  | _ => .ok (.respond given.respondFlags, given)

/-- The command of the arguments of a group, by the reader for the commands inside. -/
def parseGroup (level : Level)
    (inside : Level → List String → Except UsageFault (Command × Given)) (args : List String) :
    Except UsageFault (Command × Given) := do
  let (s, command) ← Scan.run level {} args
  match command with
  | none => .error (← s.settle).nothingFault
  | some (name, rest) =>
    match level.commands.lookup name with
    | none => .error (helpFor level rest)
    | some inner =>
      let (command, given) ← inside inner rest
      let outer ← s.settle
      .ok (command, outer.within given)

/-- The command that the arguments name. -/
def parseArguments (args : List String) : Except UsageFault Invocation := do
  let inConfig := parseGroup .config parseCommand
  let (command, given) ← parseGroup .top
    (fun level rest => if level = .config then inConfig rest else parseCommand level rest) args
  .ok ⟨given.logFormat.getD .text, given.verbosity, command⟩

end CompositionFunction.CommandLine
