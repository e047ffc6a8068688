import CompositionFunction.CommandLine.Run

/-!
# The program

Runs a command on the real file system. The document goes to standard output; log records, and why
there is no document, go to standard error.

`runProgram` is `main` of the program.
-/

set_option autoImplicit false

namespace CompositionFunction.CommandLine

/-- Why an operation on a file failed. -/
def faultOf : IO.Error → FileFault
  | .noFileOrDirectory .. => .missing
  | .alreadyExists .. => .alreadyThere
  | .inappropriateType _ 20 _ => .notDirectory
  | .inappropriateType _ _ _ => .isDirectory
  | e => .other (toString e)

/-- The result of an operation on a file. -/
def attempt {α : Type} (action : IO α) : IO (Except FileFault α) := do
  match ← action.toBaseIO with
  | .ok a => pure (.ok a)
  | .error e => pure (.error (faultOf e))

/-- All bytes of a stream, those read so far coming first. -/
partial def readAll (stream : IO.FS.Stream) (before : ByteArray) : IO ByteArray := do
  let more ← stream.read 65536
  if more.isEmpty then pure before else readAll stream (before ++ more)

instance : Host IO where
  readFile path := attempt do return (← IO.FS.readBinFile path).data.toList
  isThere path := do
    match ← (IO.FS.Handle.mk path .read).toBaseIO with
    | .ok _ => pure true
    | .error (.permissionDenied ..) => pure true
    | .error _ => pure false
  makeDirectories path := attempt (IO.FS.createDirAll path)
  writeFile path bytes := attempt (IO.FS.writeBinFile path bytes.toByteArray)
  readInput := attempt do return (← readAll (← IO.getStdin) .empty).data.toList

/-- How the program is called. -/
def helpText : String :=
  let lines : List String := [
    "Build composition function responses from request documents.",
    "",
    "Usage: composefn [OPTIONS] <COMMAND>",
    "",
    "Commands:",
    "  respond  Build a response to a request and print it as JSON",
    "  config   Configuration management",
    "  help     Print this message or the help of the given subcommand(s)",
    "",
    "Options:",
    "      --log-format <LOG_FORMAT>  Log format: text (default) or json",
    "  -v, --verbose...               Verbosity level (-v, -vv, -vvv)",
    "  -h, --help                     Print help",
    "  -V, --version                  Print version"]
  String.join (lines.map fun line => line ++ "\n")

/-- A log record as a line. -/
def eventLine (format : LogFormat) (e : Event) : String :=
  match format with
  | .json =>
    let record : Json.Document := .object
      [("level", .text e.level.name), ("fields", (Json.object e.record).document)]
    record.render .compact
  | .text =>
    let fields := e.fields.map fun (name, value) => " " ++ name ++ "=" ++ value.document.render .compact
    e.level.name ++ " " ++ e.message ++ String.join fields

/-- Runs the command of the arguments; the result is the exit code. -/
def runProgram (args : List String) : IO UInt32 := do
  let stderr ← IO.getStderr
  match parseArguments args with
  | .error fault =>
    let exit := fault.exit helpText
    (← IO.getStdout).putStr exit.stdout
    if !fault.isRequest then stderr.putStr helpText
    pure (UInt32.ofNat exit.code)
  | .ok invocation =>
    match ← IO.getEnv "HOME" with
    | none =>
      stderr.putStrLn (Error.config "could not determine home directory").text
      pure 1
    | some home =>
      let outcome : Outcome ← runCommand home invocation.command
      let exit := outcome.exit invocation.verbosity
      for e in exit.events do stderr.putStrLn (eventLine invocation.logFormat e)
      if let .error e := outcome.result then stderr.putStrLn ("Error: " ++ e.text)
      (← IO.getStdout).putStr exit.stdout
      pure (UInt32.ofNat exit.code)

end CompositionFunction.CommandLine

/-- The program. -/
def main (args : List String) : IO UInt32 := CompositionFunction.CommandLine.runProgram args
