import CompositionFunction.Files.Host
import CompositionFunction.StringMap
import CompositionFunction.Text.Split

/-!
# A tree of files in memory

Directories hold files and directories by name. A path leads from the root, or from the working
directory, through directories; it fails at the first name that is not there or is a file although
the path goes on.
-/

set_option autoImplicit false

namespace CompositionFunction

/-- A file or a directory. -/
inductive FileNode where
  | file (content : Bytes)
  | directory (entries : Entries FileNode none)

namespace FileNode

/-- A directory that holds nothing. -/
def empty : FileNode := directory .nil

/-- What is at the end of some steps, given the directories around, the innermost first. -/
def walk (around : List FileNode) (node : FileNode) : List String → Except FileFault FileNode
  | [] => .ok node
  | step :: steps =>
    match node with
    | file _ => .error .notDirectory
    | directory entries =>
      if step = "" ∨ step = "." then walk around node steps
      else if step = ".." then
        match around with
        | [] => walk [] node steps
        | outer :: outers => walk outers outer steps
      else match entries.find? step with
        | some inner => walk (node :: around) inner steps
        | none => .error .missing

/-- The tree with a file at the end of some names. -/
def write (content : Bytes) : List String → FileNode → Except FileFault FileNode
  | [], directory _ => .error .isDirectory
  | [], file _ => .ok (file content)
  | _ :: _, file _ => .error .notDirectory
  | name :: names, directory entries =>
    match entries.find? name, names with
    | some inner, names =>
      (write content names inner).map fun inner => directory (StringMap.insert entries name inner)
    | none, [] => .ok (directory (StringMap.insert entries name (file content)))
    | none, _ :: _ => .error .missing

/-- The tree with a directory at the end of some names. -/
def makeDirectories : List String → FileNode → Except FileFault FileNode
  | [], directory entries => .ok (directory entries)
  | [], file _ => .error .alreadyThere
  | _ :: _, file _ => .error .notDirectory
  | name :: names, directory entries =>
    (makeDirectories names ((entries.find? name).getD empty)).map fun inner =>
      directory (StringMap.insert entries name inner)

end FileNode

/-- The files that a program sees. -/
structure FileTree where
  root : FileNode
  /-- The names from the root to the working directory. -/
  workingDirectory : List String
  /-- The bytes of the standard input. -/
  input : Bytes

namespace FileTree

/-- The steps of a path from the root. -/
def steps (t : FileTree) (path : String) : List String :=
  let parts := (Text.splitAll '/' path.toList).map String.ofList
  if path.toList.head? = some '/' then parts else t.workingDirectory ++ parts

/-- The names that steps from the root lead through. -/
def names (steps : List String) : List String :=
  (steps.foldl (fun before step =>
    if step = "" ∨ step = "." then before
    else if step = ".." then before.drop 1
    else step :: before) []).reverse

/-- What is at a path. -/
def node (t : FileTree) (path : String) : Except FileFault FileNode :=
  if path = "" then .error .missing else FileNode.walk [] t.root (t.steps path)

/-- The bytes of the file at a path. -/
def read (t : FileTree) (path : String) : Except FileFault Bytes :=
  match t.node path with
  | .ok (.file content) => .ok content
  | .ok (.directory _) => .error .isDirectory
  | .error fault => .error fault

/-- Replaces the tree, unless that fails. -/
def change (result : Except FileFault FileNode) : StateM FileTree (Except FileFault Unit) :=
  match result with
  | .ok root => do modify fun t => { t with root }; pure (.ok ())
  | .error fault => pure (.error fault)

end FileTree

instance : Host (StateM FileTree) where
  readFile path := do return (← get).read path
  isThere path := do return ((← get).node path).isOk
  makeDirectories path := do
    let t ← get
    FileTree.change (FileNode.makeDirectories (FileTree.names (t.steps path)) t.root)
  writeFile path content := do
    let t ← get
    FileTree.change (FileNode.write content (FileTree.names (t.steps path)) t.root)
  readInput := do return .ok (← get).input

end CompositionFunction
