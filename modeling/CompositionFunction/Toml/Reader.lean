/-!
# Readers of text

A reader takes something off the front of a text, or fails. Of two alternatives the second one
starts where the first one did. A repetition goes on as long as its part can be read; every part
takes at least one character, so a text has no more parts than characters.
-/

set_option autoImplicit false

namespace CompositionFunction.Toml

/-- Takes something off the front of a text. -/
abbrev Reader (α : Type) : Type := StateT (List Char) Option α

namespace Reader

variable {α : Type}

/-- One character of a class. -/
def satisfy (p : Char → Bool) : Reader Char := fun cs =>
  match cs with
  | [] => none
  | c :: rest => if p c then some (c, rest) else none

/-- This character. -/
def char (c : Char) : Reader Char := satisfy (· = c)

/-- These characters. -/
def word (w : List Char) : Reader Unit := fun cs =>
  if w.isPrefixOf cs then some ((), cs.drop w.length) else none

/-- The longest run of characters of a class, which may be empty. -/
def span (p : Char → Bool) : Reader (List Char) := fun cs =>
  some (cs.takeWhile p, cs.dropWhile p)

/-- The longest run of characters of a class, which has at least one. -/
def span1 (p : Char → Bool) : Reader (List Char) := do
  let first ← satisfy p
  let rest ← span p
  pure (first :: rest)

/-- The end of the text. -/
def atEnd : Reader Unit := fun cs => if cs.isEmpty then some ((), []) else none

/-- A part that may be missing. -/
def optional? (p : Reader α) : Reader (Option α) := (some <$> p) <|> pure none

/-- As many parts as can be read, up to a bound. -/
def manyUpTo (p : Reader α) : Nat → Reader (List α)
  | 0 => pure []
  | bound + 1 => fun cs =>
    match p cs with
    | none => some ([], cs)
    | some (a, rest) => ((a :: ·) <$> manyUpTo p bound) rest

/-- As many parts as can be read. -/
def many (p : Reader α) : Reader (List α) := fun cs => manyUpTo p cs.length cs

/-- Goes on only if the condition holds. -/
def require (condition : Bool) : Reader Unit := fun cs =>
  if condition then some ((), cs) else none

/-- Exactly so many characters of a class. -/
def exactly (p : Char → Bool) : Nat → Reader (List Char)
  | 0 => pure []
  | n + 1 => do
    let c ← satisfy p
    let rest ← exactly p n
    pure (c :: rest)

end Reader

end CompositionFunction.Toml
