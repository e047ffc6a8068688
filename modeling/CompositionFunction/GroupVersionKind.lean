import CompositionFunction.Text.Quoted
import CompositionFunction.Text.Split

/-!
# Kinds of resources

A resource states its kind by `apiVersion` and `kind`. The first is a version, alone for the core
group or after its group and a slash.

`GroupVersionKind` has its name from the program, where `ofApiVersion` is `from_api_version_kind`,
`apiVersion` is `group_version`, and `text` and `partsText` are what it displays.
-/

set_option autoImplicit false

namespace CompositionFunction

/-- A kind of resource; the empty group is the core group. -/
structure GroupVersionKind where
  group : String
  version : String
  kind : String
deriving DecidableEq, Repr

namespace GroupVersionKind

open Text

/-- The kind that a resource states: the last slash of `apiVersion` ends the group. -/
def ofApiVersion (apiVersion kind : String) : GroupVersionKind :=
  match splitLast '/' apiVersion.toList with
  | some (group, version) => ⟨String.ofList group, String.ofList version, kind⟩
  | none => ⟨"", apiVersion, kind⟩

/-- The `apiVersion` of a kind: group and version, or the version alone for the core group. -/
def apiVersion (g : GroupVersionKind) : String :=
  if g.group = "" then g.version else g.group ++ "/" ++ g.version

/-- No part is given. -/
def isEmpty (g : GroupVersionKind) : Bool := g.group = "" && g.version = "" && g.kind = ""

/-- Version and kind are given, so the kind can be looked up. -/
def isComplete (g : GroupVersionKind) : Bool := g.version ≠ "" && g.kind ≠ ""

/-- The kind on one line, for people. -/
def text (g : GroupVersionKind) : String := g.apiVersion ++ ", Kind=" ++ g.kind

/-- The three parts by name, each between quotes. -/
def partsText (g : GroupVersionKind) : String :=
  "GroupVersionKind \x7b group: " ++ quoted g.group ++ ", version: " ++ quoted g.version ++
    ", kind: " ++ quoted g.kind ++ " \x7d"

end GroupVersionKind

end CompositionFunction
