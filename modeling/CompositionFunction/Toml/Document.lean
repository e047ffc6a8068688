import CompositionFunction.Toml.Scalar

/-!
# Documents of TOML

A document is a sequence of lines: entries, headers, comments and empty ones. Arrays and tables in
braces nest at most 79 deep, and a dotted key has at most 79 parts.

`parse?` is the part of `from_str` of the program that does not depend on the type that is read.

* `Toml.parse?` : the table of a document.
-/

set_option autoImplicit false

namespace CompositionFunction.Toml

open Reader

/-- The deepest nesting of values, and the longest dotted key. -/
def greatestDepth : Nat := 79

/-! ## Keys -/

/-- A character of a key without quotes. -/
def isKeyChar (c : Char) : Bool :=
  c.isAlphanum || c = '-' || c = '_'

/-- One part of a key. -/
def keyPart : Reader String := do
  blanks
  let part ← basicString <|> literalString <|> (String.ofList <$> span1 isKeyChar)
  blanks
  pure part

/-- A key, whose parts have points between them. -/
def key : Reader Key := do
  let first ← keyPart
  let rest ← many (do let _ ← char '.'; keyPart)
  let parts := first :: rest
  require (parts.length ≤ greatestDepth)
  pure ⟨parts.dropLast, parts.getLastD ""⟩

/-! ## Values -/

/-- Blanks, comments and line breaks. -/
def gap : Reader Unit := do
  let _ ← many ((do let _ ← span1 isBlank) <|> newline <|> comment)

/-- An array of values, after the last of which a comma may stand. -/
def array (value : Reader Item) : Reader Item := do
  let item : Reader Item := do gap; let v ← value; gap; pure v
  let _ ← char '['
  let items ← optional? (do
    let first ← item
    let rest ← many (do let _ ← char ','; item)
    let _ ← optional? (char ',')
    pure (first :: rest))
  gap
  let _ ← char ']'
  pure (.array (items.getD []))

/-- A key with its value. -/
def keyValue (value : Reader Item) : Reader (Key × Item) := do
  let k ← key
  let _ ← char '='
  blanks
  let v ← value
  pure (k, v)

/-- A table in braces. -/
def inlineTable (value : Reader Item) : Reader Item := do
  let entry : Reader (Key × Item) := do let e ← keyValue value; blanks; pure e
  let _ ← char '\x7b'
  let entries ← optional? (do
    let first ← entry
    let rest ← many (do let _ ← char ','; entry)
    pure (first :: rest))
  blanks
  let _ ← char '\x7d'
  match Table.ofEntries? (entries.getD []) with
  | some table => pure (.table .inline table)
  | none => failure

/-- A value whose containers nest so many levels deep. -/
def value : Nat → Reader Item
  | 0 => scalar
  | levels + 1 => scalar <|> array (value levels) <|> inlineTable (value levels)

/-! ## Lines -/

/-- The rest of a line that has said what it says. -/
def lineEnd : Reader Unit := do
  blanks
  let _ ← optional? comment
  newline <|> atEnd

/-- A comment or nothing. -/
def emptyLine : Reader (Option Line) :=
  (do comment; newline <|> atEnd; pure none) <|> (do newline; pure none)

/-- A header. -/
def headerLine : Reader (Option Line) :=
  (do
    word ['[', '[']
    let k ← key
    word [']', ']']
    lineEnd
    pure (some (.nextHeader k))) <|>
  (do
    let _ ← char '['
    let k ← key
    let _ ← char ']'
    lineEnd
    pure (some (.header k)))

/-- An entry. -/
def entryLine : Reader (Option Line) := do
  let (k, v) ← keyValue (value greatestDepth)
  lineEnd
  pure (some (.entry k v))

/-- A line, from its first character that is not blank on. -/
def line : Reader (Option Line) := do
  let l ← emptyLine <|> headerLine <|> entryLine
  blanks
  pure l

/-- The lines of a document, before which a byte-order mark may stand. -/
def lines : Reader (List Line) := do
  let _ ← optional? (char '\ufeff')
  blanks
  let ls ← many line
  atEnd
  pure (ls.filterMap id)

/-- The table of a document. -/
def parse? (s : String) : Option Table := do
  let (ls, _) ← lines s.toList
  Table.ofLines? ls

end CompositionFunction.Toml
