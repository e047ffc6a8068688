import CompositionFunction.Json.Value
import CompositionFunction.Proofs.Duration
import CompositionFunction.Proofs.StringMap

/-!
# Normal forms of values

A normal form is given by rules on JSON alone: what becomes of a value, and what becomes of a member
of a record that may be absent. The rule of a record is built from the rules of its members, and
nothing else remains of it.

* `Rule`, `FieldRule` : what becomes of values and of members.
* `Rule.record`, `Rule.recordWith` : the rules of records.
-/

set_option autoImplicit false

namespace CompositionFunction.Json

/-- What becomes of a value. -/
abbrev Rule : Type := Json → Json

/-- What becomes of a member of a record, which may be absent before and after. -/
abbrev FieldRule : Type := Option Json → Option Json

namespace FieldRule

/-- The member has to be there, and stays. -/
def kept (rule : Rule) : FieldRule := Option.map rule

/-- An absent member is filled in. -/
def filled (rule : Rule) (default : Json) : FieldRule
  | none => some default
  | some v => some (rule v)

/-- A member that has nothing to say is omitted. -/
def omitted (rule : Rule) (default : Json) : FieldRule
  | none => none
  | some v => if rule v = default then none else some (rule v)

/-- A null member is omitted. -/
def unlessNull (rule : Rule) : FieldRule
  | none => none
  | some v => if v = .null then none else some (rule v)

end FieldRule

namespace Rule

/-- Every member of an object. -/
def eachMember (rule : Rule) : Rule
  | .object members => .object (members.map rule)
  | v => v

/-- To leave every member as it is is to leave the object as it is. -/
theorem eachMember_id : eachMember id = id := by
  funext v
  cases v with
  | object members =>
    refine congrArg Json.object (StringMap.ext fun k => ?_)
    rw [Entries.find?_map, Option.map_id]
    rfl
  | _ => rfl

/-- Every item of an array. -/
def eachItem (rule : Rule) : Rule
  | .array items => .array (items.map rule)
  | v => v

/-- The only member of an object. -/
def onlyMember? : Json → Option (String × Json)
  | .object members =>
    match members.toList with
    | [m] => some m
    | _ => none
  | _ => none

/-- An option that is given with null is given by its name alone. -/
def optionName : Rule := fun v =>
  match onlyMember? v with
  | some (name, .null) => .text name
  | _ => v

/-- The value of the option that is given. -/
def optionValue (left : String) (leftRule rightRule : Rule) : Rule := fun v =>
  match onlyMember? v with
  | some (name, w) =>
    .object (StringMap.ofList [(name, if name = left then leftRule w else rightRule w)])
  | none => v

/-- The member of a record by its name, or by the place of its name if the record is an array. -/
def memberAt? (names : List String) (v : Json) (name : String) : Option Json :=
  match v with
  | .object members => members.find? name
  | .array items => (names.zip items).lookup name
  | _ => none

/-- The members of a record that remain, by their rules; no others do. -/
def members (rules : List (String × FieldRule)) (find : String → Option Json) :
    List (String × Json) :=
  rules.filterMap fun r => (r.2 (find r.1)).map fun w => (r.1, w)

theorem members_cons (name : String) (rule : FieldRule) (rules : List (String × FieldRule))
    (find : String → Option Json) :
    members ((name, rule) :: rules) find =
      ((rule (find name)).map fun w => (name, w)).toList ++ members rules find := by
  unfold members
  rw [List.filterMap_cons]
  dsimp only
  cases rule (find name) <;> rfl

/-- The text of a duration, as it is written. -/
def durationText : Rule
  | .text s => .text (Duration.canonicalText s)
  | v => v

/-- A record is an object with the members that remain. -/
def record (rules : List (String × FieldRule)) : Rule := fun v =>
  .object (StringMap.ofList (members rules (memberAt? (rules.map Prod.fst) v)))

/-- Of two options beside the members of a record, the first in key order is used. -/
def firstOption (first second : String) (firstRule secondRule : Rule)
    (find : String → Option Json) : List (String × Json) :=
  match find first with
  | some w => [(first, firstRule w)]
  | none => ((find second).map fun w => (second, secondRule w)).toList

section Option

variable {first second : String} {firstRule secondRule : Rule} {find : String → Option Json}
  {w : Json}

theorem firstOption_first (h : find first = some w) :
    firstOption first second firstRule secondRule find = [(first, firstRule w)] := by
  unfold firstOption
  rw [h]

theorem firstOption_second (hfirst : find first = none) (hsecond : find second = some w) :
    firstOption first second firstRule secondRule find = [(second, secondRule w)] := by
  unfold firstOption
  rw [hfirst, hsecond]
  rfl

end Option

/-- A record with a member more has the members that remain, and the option that is used. -/
def recordWith (rules : List (String × FieldRule)) (first second : String)
    (firstRule secondRule : Rule) : Rule := fun v =>
  let find := memberAt? (rules.map Prod.fst) v
  let option := firstOption first second firstRule secondRule find
  .object (StringMap.ofList (members rules find ++ option))

end Rule

end CompositionFunction.Json
