import CompositionFunction.Config
import CompositionFunction.CommandLine.Event
import CompositionFunction.Files.Host

/-!
# Where the configuration is

The configuration is a file in a directory of its own in the home directory. Without the file the
built-in configuration holds.

`configDirectory` is `config_dir` of the program, `configPath` is `config_file_path`, `configAt` is
`load_config_from`, `currentConfig` is `load_config`, and `storeBuiltIn` is `init_config`.
-/

set_option autoImplicit false

namespace CompositionFunction.CommandLine

/-- The directory of the configuration. -/
def configDirectory (home : String) : String := joinPath home ".composefn"

/-- The file of the configuration. -/
def configPath (home : String) : String := joinPath (configDirectory home) "composefn.toml"

variable {m : Type → Type} [Monad m] [Host m]

/-- The text of a file. -/
def readText (path : String) : m (Except Error String) := do
  match (← Host.readFile path).bind textOf with
  | .ok s => pure (.ok s)
  | .error fault => pure (.error (.io path fault.message))

/-- The configuration in a file. The error of a text that states none names the file; the reason,
which the program states after it, is left out. -/
def configAt (path : String) : m (Except Error Config) := do
  match ← readText path with
  | .error e => pure (.error e)
  | .ok s =>
    match Config.parse? s with
    | some config => pure (.ok config)
    | none => pure (.error (.config ("failed to parse " ++ path)))

/-- The configuration, with what is to be logged. -/
def currentConfig (home : String) : m (Except Error Config × List Event) := do
  let path := configPath home
  if ← Host.isThere path then return (← configAt path, [])
  else return (.ok .builtIn, [.configMissing path])

/-- Writes the built-in configuration to its file, whatever that held before. -/
def storeBuiltIn (home : String) : m (Except Error String × List Event) := do
  let directory := configDirectory home
  let path := configPath home
  match ← Host.makeDirectories directory with
  | .error fault => return (.error (.io directory fault.message), [])
  | .ok () =>
    match Config.builtIn.render with
    | .error message => return (.error (.config message), [])
    | .ok toml =>
      match ← Host.writeFile path (utf8 toml) with
      | .error fault => return (.error (.io path fault.message), [])
      | .ok () => return (.ok path, [.configCreated path])

end CompositionFunction.CommandLine
