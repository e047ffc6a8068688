import CompositionFunction.Reply.Sections

/-!
# Requiring further resources

A requirement has a name, under which the resources arrive with the next request, and selects
resources of one kind. It is refused, and nothing is written, if it could not be looked up: the
kind needs a version and a kind, the requirement a name, and a selection by name a name.

`requireByName` and `requireByLabels` are `request_extra_resource_by_name` and
`request_extra_resource_by_labels` of the program, and `requirementFault?` is `validate`.
-/

set_option autoImplicit false

namespace CompositionFunction

/-- What resources are selected by. -/
inductive SelectedBy where
  | name
  | labels
deriving DecidableEq, Repr

/-- The word for it. -/
def SelectedBy.word : SelectedBy → String
  | .name => "name"
  | .labels => "labels"

/-- Why a requirement is refused. -/
inductive RequirementFault where
  /-- No part of the kind is given. -/
  | emptyKind (selectedBy : SelectedBy)
  /-- The version or the kind is missing. -/
  | incompleteKind (selectedBy : SelectedBy) (gvk : GroupVersionKind)
  /-- The requirement has no name. -/
  | emptyId (selectedBy : SelectedBy)
  /-- The resource to select has no name. -/
  | emptyName
deriving DecidableEq, Repr

namespace RequirementFault

/-- The wording of the refusal. -/
def message : RequirementFault → String
  | emptyKind selectedBy =>
    "cannot request extra resource by " ++ selectedBy.word ++ " with empty GVK"
  | incompleteKind selectedBy gvk =>
    "cannot request extra resource by " ++ selectedBy.word ++ " with incomplete GVK " ++
      gvk.partsText
  | emptyId selectedBy =>
    "cannot request extra resource by " ++ selectedBy.word ++ " with empty ID"
  | emptyName => "cannot request extra resource by name with empty name"

/-- The error that it is reported as. -/
def error (fault : RequirementFault) : Error := .validation fault.message

end RequirementFault

/-- The first reason to refuse a requirement, whatever it selects. -/
def requirementFault? (selectedBy : SelectedBy) (id : String) (gvk : GroupVersionKind) :
    Option RequirementFault :=
  if gvk.isEmpty then some (.emptyKind selectedBy)
  else if !gvk.isComplete then some (.incompleteKind selectedBy gvk)
  else if id = "" then some (.emptyId selectedBy)
  else none

/-- The first reason to refuse a requirement that selects by name. -/
def nameFault? (id name : String) (gvk : GroupVersionKind) : Option RequirementFault :=
  match requirementFault? .name id gvk with
  | some fault => some fault
  | none => if name = "" then some .emptyName else none

/-- The first reason to refuse a requirement that selects by labels. -/
def labelsFault? (id : String) (gvk : GroupVersionKind) : Option RequirementFault :=
  requirementFault? .labels id gvk

namespace Response

/-- Requires the resource of a kind that has a name. -/
def requireByName (r : Response) (id name : String) (gvk : GroupVersionKind) :
    Except RequirementFault Response :=
  match nameFault? id name gvk with
  | some fault => .error fault
  | none => .ok (r.require id ⟨gvk.apiVersion, gvk.kind, .byName name⟩)

/-- Requires the resources of a kind that have some labels; without labels, all of them. -/
def requireByLabels (r : Response) (id : String) (labels : StringMap String)
    (gvk : GroupVersionKind) : Except RequirementFault Response :=
  match labelsFault? id gvk with
  | some fault => .error fault
  | none => .ok (r.require id ⟨gvk.apiVersion, gvk.kind, .byLabels ⟨labels⟩⟩)

end Response

end CompositionFunction
