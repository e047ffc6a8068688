import CompositionFunction.Bytes

/-!
# Files

What the command line needs of its surroundings: files by path, and the bytes of its standard
input. A program over files does not say where they are, so it can be run on a real file system or
on a tree of files in memory.

In the program `readFile` is `read_to_string` before the bytes are taken for a text, `isThere` is
`exists`, `makeDirectories` is `create_dir_all`, `writeFile` is `write`, and `joinPath` is `join`.
-/

set_option autoImplicit false

namespace CompositionFunction

/-- Why a file cannot be used. -/
inductive FileFault where
  | missing
  | alreadyThere
  | notDirectory
  | isDirectory
  /-- The bytes are no text. -/
  | notText
  /-- Any other reason, in words. -/
  | other (reason : String)
deriving DecidableEq, Repr

/-- The wording of the fault. -/
def FileFault.message : FileFault → String
  | missing => "No such file or directory (os error 2)"
  | alreadyThere => "File exists (os error 17)"
  | notDirectory => "Not a directory (os error 20)"
  | isDirectory => "Is a directory (os error 21)"
  | notText => "stream did not contain valid UTF-8"
  | other reason => reason

/-- Surroundings with files. -/
class Host (m : Type → Type) where
  /-- The bytes of a file. -/
  readFile : String → m (Except FileFault Bytes)
  /-- Whether there is something at a path. -/
  isThere : String → m Bool
  /-- Makes a directory and those around it, as far as they are missing. -/
  makeDirectories : String → m (Except FileFault Unit)
  /-- Writes a file, whatever it held before. -/
  writeFile : String → Bytes → m (Except FileFault Unit)
  /-- The bytes of the standard input. -/
  readInput : m (Except FileFault Bytes)

/-- Bytes that shall be a text. -/
def textOf (bytes : Bytes) : Except FileFault String :=
  match ofUtf8? bytes with
  | some s => .ok s
  | none => .error .notText

/-- The path of an entry of a directory. -/
def joinPath (directory name : String) : String :=
  if directory = "" ∨ directory.toList.getLast? = some '/' then directory ++ name
  else directory ++ "/" ++ name

end CompositionFunction
