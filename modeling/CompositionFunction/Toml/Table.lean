/-!
# Tables of TOML

A document is a table that grows entry by entry. A table remembers how it came about, because that
decides what may still be added: dotted keys extend only tables made by dotted keys, a header opens
only a table that is new or was implied by the header of a table inside it, and a table in braces
is finished.
-/

set_option autoImplicit false

namespace CompositionFunction.Toml

/-- How a table came about. -/
inductive Origin where
  /-- In braces. -/
  | inline
  /-- By its own header. -/
  | header
  /-- By the header of a table inside it. -/
  | implied
  /-- By a dotted key. -/
  | dotted
deriving DecidableEq, Repr

/-- A value; of floating-point numbers and dates only the kind is kept. -/
inductive Item where
  | text (value : String)
  | integer (value : Int)
  | float
  | bool (value : Bool)
  | date
  | array (items : List Item)
  | table (origin : Origin) (entries : List (String × Item))
  /-- Tables with the same header, the last one first. -/
  | tables (tables : List (List (String × Item)))

/-- The entries of a table. -/
abbrev Table : Type := List (String × Item)

namespace Table

/-- Replaces the value of a key. -/
def set (t : Table) (key : String) (item : Item) : Table :=
  t.map fun e => if e.1 = key then (key, item) else e

/-- Adds an entry, which has to be new, in the table at the end of a path of dotted keys. That
table has to be open for entries: it is where the path starts, or was made by a dotted key. -/
def addAt (isOpen : Bool) : List String → String → Item → Table → Option Table
  | [], key, item, t => if isOpen && (t.lookup key).isNone then some (t ++ [(key, item)]) else none
  | p :: path, key, item, t =>
    match t.lookup p with
    | none => (addAt true path key item []).map fun inner => t ++ [(p, .table .dotted inner)]
    | some (.table .dotted inner) =>
      (addAt true path key item inner).map fun inner => t.set p (.table .dotted inner)
    | some (.table .implied inner) =>
      (addAt false path key item inner).map fun inner => t.set p (.table .implied inner)
    | some (.tables (last :: before)) =>
      (addAt false path key item last).map fun last => t.set p (.tables (last :: before))
    | some _ => none

/-- Changes the table at the end of a path of headers, where missing tables are implied. Of tables
with the same header the last one is meant. -/
def changeAt (change : Table → Option Table) : List String → Table → Option Table
  | [], t => change t
  | p :: path, t =>
    match t.lookup p with
    | none => (changeAt change path []).map fun inner => t ++ [(p, .table .implied inner)]
    | some (.table .inline _) => none
    | some (.table origin inner) =>
      (changeAt change path inner).map fun inner => t.set p (.table origin inner)
    | some (.tables (last :: before)) =>
      (changeAt change path last).map fun last => t.set p (.tables (last :: before))
    | some _ => none

/-- Opens the table of a header, which has to be new or implied. -/
def openTable (key : String) (t : Table) : Option Table :=
  match t.lookup key with
  | none => some (t ++ [(key, .table .header [])])
  | some (.table .implied inner) => some (t.set key (.table .header inner))
  | some _ => none

/-- Opens one more of the tables with a header. -/
def openNext (key : String) (t : Table) : Option Table :=
  match t.lookup key with
  | none => some (t ++ [(key, .tables [[]])])
  | some (.tables tables) => some (t.set key (.tables ([] :: tables)))
  | some _ => none

end Table

/-! ## From lines to a table -/

/-- A dotted key: the keys on the way, and the last one. -/
structure Key where
  path : List String
  last : String
deriving DecidableEq, Repr

/-- All keys of a dotted key. -/
def Key.all (k : Key) : List String := k.path ++ [k.last]

/-- A line of a document that says something. -/
inductive Line where
  | entry (key : Key) (item : Item)
  | header (key : Key)
  /-- The header of one of several tables. -/
  | nextHeader (key : Key)

/-- A document so far: the table, and the header that entries belong to. -/
structure Draft where
  table : Table
  under : List String

/-- The document after one line more. -/
def Draft.add? (d : Draft) : Line → Option Draft
  | .entry key item =>
    (d.table.changeAt (Table.addAt true key.path key.last item) d.under).map fun table =>
      { d with table }
  | .header key =>
    (d.table.changeAt (Table.openTable key.last) key.path).map fun table => ⟨table, key.all⟩
  | .nextHeader key =>
    (d.table.changeAt (Table.openNext key.last) key.path).map fun table => ⟨table, key.all⟩

/-- The table of some lines. -/
def Table.ofLines? (lines : List Line) : Option Table :=
  (lines.foldlM Draft.add? ⟨[], []⟩).map Draft.table

/-- The entries of a table in braces. -/
def Table.ofEntries? (entries : List (Key × Item)) : Option Table :=
  entries.foldlM (fun t e => Table.addAt true e.1.path e.1.last e.2 t) []

end CompositionFunction.Toml
