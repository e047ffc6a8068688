import CompositionFunction.Json.Document
import CompositionFunction.Json.Token

/-!
# The shape of JSON text

A tree is a text by its grammar alone: members stand in the order of the text, repeated names
included, and a text that breaks the grammar has the tree of what stands before that place. So a
reader that goes through a tree from left to right meets every fault where a reader of the text
would meet it.

* `Tree.json?` : a tree as an ordinary value, if it is one of the grammar, its numbers and strings
  stand for something, and its containers do not nest deeper than the source allows.
* `Outline.ofText` : the tree of a text.
-/

set_option autoImplicit false

namespace CompositionFunction.Json

/-- How the members of an object end: closed, or cut off, perhaps at a token that begins no
member. -/
inductive Ending where
  | closed
  | cut (at? : Option Token)
deriving DecidableEq, Repr

/-- A text by its grammar. The last item of a broken array is broken. -/
inductive Tree where
  | null
  | bool (value : Bool)
  | number (value : Option Number)
  | text (value : Option String)
  | array (items : List Tree)
  | object (members : List (Option String × Tree)) (ending : Ending)
  | broken

/-- The tree of a whole text. -/
structure Outline where
  root : Tree
  /-- Nothing but blanks follows the root. -/
  isWhole : Bool

/-! ## From tokens -/

/-- A container around the place that is being read; what it holds so far has its last part
first. -/
inductive Frame where
  | array (before : List Tree)
  | object (before : List (Option String × Tree)) (name : Option String)

/-- What is due next. -/
inductive Due where
  /-- A value. -/
  | value
  /-- A value or the end of the array. -/
  | firstItem
  /-- The name of a member, or the end of the object if it is to be its first one. -/
  | name (before : List (Option String × Tree))
  /-- The colon after a name. -/
  | colon (before : List (Option String × Tree)) (name : Option String)
  /-- A comma or the end of the innermost container, after this value. -/
  | next (value : Tree)
  /-- Nothing: the outline is settled. -/
  | nothing (outline : Outline)

/-- How far the tokens have been read. -/
structure Progress where
  due : Due
  frames : List Frame

namespace Progress

/-- Puts a cut-off tree into the containers around it. -/
def unwind (t : Tree) : List Frame → Tree
  | [] => t
  | .array before :: frames => unwind (.array (t :: before).reverse) frames
  | .object before name :: frames =>
    unwind (.object ((name, t) :: before).reverse (.cut none)) frames

/-- The outline if the grammar is broken here, perhaps by a token. -/
def cutOff (p : Progress) (at? : Option Token) : Outline :=
  match p.due, p.frames with
  | .value, frames | .firstItem, frames => ⟨unwind .broken frames, false⟩
  | .name before, frames => ⟨unwind (.object before.reverse (.cut at?)) frames, false⟩
  | .colon before name, frames =>
    ⟨unwind (.object ((name, .broken) :: before).reverse (.cut none)) frames, false⟩
  | .next t, [] => ⟨t, false⟩
  | .next t, .array before :: frames =>
    ⟨unwind (.array (.broken :: t :: before).reverse) frames, false⟩
  | .next t, .object before name :: frames =>
    ⟨unwind (.object ((name, t) :: before).reverse (.cut none)) frames, false⟩
  | .nothing outline, _ => outline

/-- Goes on to what is due. -/
def expect (due : Due) (frames : List Frame) : Progress := ⟨due, frames⟩

/-- A token where a value is due. -/
def value? (frames : List Frame) : Token → Option Progress
  | .null => some (expect (.next .null) frames)
  | .bool b => some (expect (.next (.bool b)) frames)
  | .number n => some (expect (.next (.number n)) frames)
  | .text s => some (expect (.next (.text s)) frames)
  | .openArray => some (expect .firstItem (.array [] :: frames))
  | .openObject => some (expect (.name []) frames)
  | _ => none

/-- A token after a value. -/
def after? (t : Tree) : List Frame → Token → Option Progress
  | .array before :: frames, .comma => some (expect .value (.array (t :: before) :: frames))
  | .array before :: frames, .closeArray =>
    some (expect (.next (.array (t :: before).reverse)) frames)
  | .object before name :: frames, .comma =>
    some (expect (.name ((name, t) :: before)) frames)
  | .object before name :: frames, .closeObject =>
    some (expect (.next (.object ((name, t) :: before).reverse .closed)) frames)
  | _, _ => none

/-- The progress a token makes, if the grammar allows it here. -/
def advance? (p : Progress) (token : Token) : Option Progress :=
  match p.due, p.frames, token with
  | .value, frames, token => value? frames token
  | .firstItem, .array [] :: frames, .closeArray => some (expect (.next (.array [])) frames)
  | .firstItem, frames, token => value? frames token
  | .name before, frames, .text name => some (expect (.colon before name) frames)
  | .name [], frames, .closeObject => some (expect (.next (.object [] .closed)) frames)
  | .name _, _, _ => none
  | .colon before name, frames, .colon => some (expect .value (.object before name :: frames))
  | .colon _ _, _, _ => none
  | .next t, frames, token => after? t frames token
  | .nothing _, _, _ => none

/-- Reads one token more. -/
def step (p : Progress) (token : Token) : Progress :=
  match p.advance? token with
  | some next => next
  | none => expect (.nothing (p.cutOff (some token))) []

/-- The outline if the text ends here. -/
def finish (p : Progress) : Outline :=
  match p.due, p.frames with
  | .next t, [] => ⟨t, true⟩
  | _, _ => p.cutOff none

end Progress

/-- The outline of some tokens. -/
def Outline.ofTokens (tokens : List Token) : Outline :=
  (tokens.foldl Progress.step ⟨.value, []⟩).finish

/-- The outline of a text. -/
def Outline.ofText (s : String) : Outline := ofTokens (scan s.toList)

/-! ## Ordinary values -/

/-- Where a tree comes from: from a text, in which so many more levels of containers may be
entered; from a value; or from members that were set aside while an object was read. -/
inductive Source where
  | text (levels : Nat)
  | value
  | setAside
deriving DecidableEq, Repr

/-- The source inside a container; a text may be too deep. -/
def Source.enter? : Source → Option Source
  | .text 0 => none
  | .text (levels + 1) => some (.text levels)
  | .value => some .value
  | .setAside => some .setAside

/-- A whole text, whose containers may nest 127 levels deep. -/
def Source.document : Source := .text 127

namespace Tree

mutual

/-- A tree as an ordinary value. -/
def json? (source : Source) : Tree → Option Json
  | .null => some .null
  | .bool b => some (.bool b)
  | .number n => n.map .number
  | .text s => s.map .text
  | .array items =>
    match source.enter? with
    | none => none
    | some inner => (jsonItems? inner items).map .array
  | .object members ending =>
    match source.enter? with
    | none => none
    | some inner =>
      match jsonMembers? inner .empty members with
      | none => none
      | some entries => if ending = .closed then some (.object entries) else none
  | .broken => none
termination_by structural t => t

/-- Trees as the items of an array. -/
def jsonItems? (source : Source) : List Tree → Option (List Json)
  | [] => some []
  | t :: ts =>
    match t.json? source with
    | none => none
    | some v => (jsonItems? source ts).map (v :: ·)
termination_by structural ts => ts

/-- Named trees as members, added to those before them. -/
def jsonMembers? (source : Source) (before : JsonObject) :
    List (Option String × Tree) → Option JsonObject
  | [] => some before
  | (none, _) :: _ => none
  | (some name, t) :: rest =>
    match t.json? source with
    | none => none
    | some v => jsonMembers? source (before.insert name v) rest
termination_by structural ms => ms

end

mutual

/-- A tree follows the grammar; its numbers and strings may stand for nothing. -/
def isGrammatical : Tree → Bool
  | .array items => areGrammatical items
  | .object members ending => ending = .closed && haveGrammaticalValues members
  | .broken => false
  | _ => true
termination_by structural t => t

/-- All trees follow the grammar. -/
def areGrammatical : List Tree → Bool
  | [] => true
  | t :: ts => t.isGrammatical && areGrammatical ts
termination_by structural ts => ts

/-- The values of all members follow the grammar. -/
def haveGrammaticalValues : List (Option String × Tree) → Bool
  | [] => true
  | (_, t) :: rest => t.isGrammatical && haveGrammaticalValues rest
termination_by structural ms => ms

end

end Tree

mutual

/-- The tree of a document. -/
def Document.tree : Document → Tree
  | .null => .null
  | .bool b => .bool b
  | .number n => .number (some n)
  | .text s => .text (some s)
  | .array items => .array (Document.itemTrees items)
  | .object members => .object (Document.memberTrees members) .closed
termination_by structural d => d

/-- The trees of some documents. -/
def Document.itemTrees : List Document → List Tree
  | [] => []
  | d :: ds => d.tree :: Document.itemTrees ds
termination_by structural ds => ds

/-- The trees of some members. -/
def Document.memberTrees : List (String × Document) → List (Option String × Tree)
  | [] => []
  | (name, d) :: rest => (some name, d.tree) :: Document.memberTrees rest
termination_by structural ms => ms

end

/-- The tree of a value, its members in key order. -/
def tree (v : Json) : Tree := v.document.tree

/-- The value of a text, if it is a document of JSON. -/
def parse? (s : String) : Option Json :=
  let outline := Outline.ofText s
  match outline.root.json? .document with
  | some v => if outline.isWhole then some v else none
  | none => none

end CompositionFunction.Json
