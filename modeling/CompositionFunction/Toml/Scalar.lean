import CompositionFunction.Json.Binary64
import CompositionFunction.Json.Token
import CompositionFunction.Toml.Reader
import CompositionFunction.Toml.Table

/-!
# Scalars of TOML

Strings in four spellings, integers of 64 bits in four bases, floating-point numbers, truth values,
and dates and times. Numbers may have single underscores between digits.
-/

set_option autoImplicit false

namespace CompositionFunction.Toml

open Reader Text

/-! ## Characters -/

/-- A blank within a line. -/
def isBlank (c : Char) : Bool := c = ' ' || c = '\t'

/-- A character that may stand in a comment: no control character but the tab. -/
def isCommentChar (c : Char) : Bool := c = '\t' || (' ' ≤ c && c ≠ '\x7f')

/-- A character that stands for itself between double quotes. -/
def isBasicChar (c : Char) : Bool := isCommentChar c && c ≠ '"' && c ≠ '\\'

/-- A character that stands for itself between single quotes. -/
def isLiteralChar (c : Char) : Bool := isCommentChar c && c ≠ '\''

/-- Blanks within a line. -/
def blanks : Reader Unit := do let _ ← span isBlank

/-- The end of a line. -/
def newline : Reader Unit := word ['\n'] <|> word ['\r', '\n']

/-- A comment up to the end of its line. -/
def comment : Reader Unit := do
  let _ ← char '#'
  let _ ← span isCommentChar

/-! ## Strings -/

/-- A hexadecimal digit. -/
def isHexDigit (c : Char) : Bool := (Json.hexValue? c).isSome

/-- The number of some hexadecimal digits. -/
def ofHexDigits (ds : List Char) : Nat :=
  ds.foldl (fun n c => n * 16 + (Json.hexValue? c).getD 0) 0

/-- A code point of so many hexadecimal digits. -/
def codePoint (count : Nat) : Reader Char := do
  let n := ofHexDigits (← exactly isHexDigit count)
  require (n.isValidChar)
  pure (Char.ofNat n)

/-- What follows a backslash. -/
def escape : Reader Char :=
  (do let _ ← char 'b'; pure '\x08') <|> (do let _ ← char 't'; pure '\t') <|>
  (do let _ ← char 'n'; pure '\n') <|> (do let _ ← char 'f'; pure '\x0c') <|>
  (do let _ ← char 'r'; pure '\r') <|> char '"' <|> char '\\' <|>
  (do let _ ← char 'u'; codePoint 4) <|> (do let _ ← char 'U'; codePoint 8)

/-- A character between double quotes. -/
def basicChar : Reader Char := satisfy isBasicChar <|> (do let _ ← char '\\'; escape)

/-- A string between double quotes. -/
def basicString : Reader String := do
  let _ ← char '"'
  let cs ← many basicChar
  let _ ← char '"'
  pure (String.ofList cs)

/-- A string between single quotes. -/
def literalString : Reader String := do
  let _ ← char '\''
  let cs ← span isLiteralChar
  let _ ← char '\''
  pure (String.ofList cs)

/-- One or two quotes inside a string of several lines, where three quotes would end it. -/
def innerQuotes (quote : Char) : Reader (List Char) := fun cs =>
  let quotes := cs.takeWhile (· = quote)
  if 1 ≤ quotes.length ∧ quotes.length ≤ 2 then some (quotes, cs.dropWhile (· = quote)) else none

/-- The end of a string of several lines, with up to two quotes that belong to it. -/
def closingQuotes (quote : Char) : Reader (List Char) := fun cs =>
  let quotes := cs.takeWhile (· = quote)
  if 3 ≤ quotes.length ∧ quotes.length ≤ 5 then
    some (quotes.drop 3, cs.dropWhile (· = quote))
  else none

/-- A line break that a backslash takes out, with the blanks around it. -/
def foldedBreak : Reader (List Char) := do
  let _ ← char '\\'
  blanks
  newline
  let _ ← many (newline <|> (do let _ ← span1 isBlank))
  pure []

/-- A line break. -/
def lineBreak : Reader (List Char) := do newline; pure ['\n']

/-- A string of several lines between three quotes each; a line break right after the first ones
does not belong to it. -/
def longString (quote : Char) (part : Reader (List Char)) : Reader String := do
  word [quote, quote, quote]
  let _ ← optional? newline
  let parts ← many (part <|> lineBreak <|> innerQuotes quote)
  let last ← closingQuotes quote
  pure (String.ofList (parts.flatten ++ last))

/-- A string. -/
def anyString : Reader String :=
  longString '"' ((do let c ← satisfy isBasicChar; pure [c]) <|> foldedBreak <|>
    (do let c ← basicChar; pure [c])) <|>
  basicString <|>
  longString '\'' (do let c ← satisfy isLiteralChar; pure [c]) <|>
  literalString

/-! ## Numbers -/

/-- The sign of a number; whether it is negative. -/
def sign : Reader Bool := do
  match ← optional? (char '+' <|> char '-') with
  | some '-' => pure true
  | _ => pure false

/-- Digits with single underscores between them. -/
def digitGroups (isDigit : Char → Bool) : Reader (List Char) := do
  let first ← satisfy isDigit
  let rest ← many (satisfy isDigit <|> (do let _ ← char '_'; satisfy isDigit))
  pure (first :: rest)

/-- Decimal digits without a leading zero. -/
def decimalDigits : Reader (List Char) :=
  (do let _ ← char '0'; pure ['0']) <|> digitGroups Char.isDigit

/-- An integer in a base that has a mark. -/
def markedInteger (mark : List Char) (base : Nat) (isDigit : Char → Bool) : Reader Int := do
  word mark
  let ds ← digitGroups isDigit
  pure (ds.foldl (fun n c => n * base + (Json.hexValue? c).getD 0) 0 : Nat)

/-- A decimal integer. -/
def decimalInteger : Reader Int := do
  let negative ← sign
  let n : Int := ofDigits (← decimalDigits)
  pure (if negative then -n else n)

/-- An integer of 64 bits. -/
def integer : Reader Int := do
  let i ← markedInteger ['0', 'x'] 16 isHexDigit <|>
    markedInteger ['0', 'o'] 8 (fun c => '0' ≤ c && c ≤ '7') <|>
    markedInteger ['0', 'b'] 2 (fun c => c = '0' || c = '1') <|> decimalInteger
  require (-2 ^ 63 ≤ i && i < 2 ^ 63)
  pure i

/-- Whether a decimal is not too great for a floating-point number. -/
def isInRange (significand : Nat) (exponent : Int) : Bool :=
  let first := ((digits significand).length : Int) + exponent
  if significand = 0 || first < 0 then true
  else if 400 < first then false
  else
    (Json.Magnitude.nearest? (significand * 10 ^ exponent.toNat) (10 ^ (-exponent).toNat)).isSome

/-- The exponent of a floating-point number. -/
def exponent : Reader Int := do
  let _ ← char 'e' <|> char 'E'
  let negative ← sign
  let n : Int := ofDigits (← digitGroups Char.isDigit)
  pure (if negative then -n else n)

/-- The digits after the point. -/
def fraction : Reader (List Char) := do
  let _ ← char '.'
  digitGroups Char.isDigit

/-- A floating-point number: it has a point or an exponent, and no positive one is too great. -/
def float : Reader Unit := do
  let negative ← sign
  let whole ← decimalDigits
  let (after, e) ← (do let e ← exponent; pure ([], e)) <|>
    (do let ds ← fraction; let e ← optional? exponent; pure (ds, e.getD 0))
  require (negative || isInRange (ofDigits (whole ++ after)) (e - after.length))

/-- A number that is infinite, or none. -/
def specialFloat : Reader Unit := do
  let _ ← sign
  word ['i', 'n', 'f'] <|> word ['n', 'a', 'n']

/-- A truth value. -/
def bool : Reader Bool :=
  (do word ['t', 'r', 'u', 'e']; pure true) <|>
  (do word ['f', 'a', 'l', 's', 'e']; pure false)

/-! ## Dates -/

/-- A number of so many digits up to a greatest one. -/
def field (width least greatest : Nat) : Reader Nat := do
  let n := ofDigits (← exactly Char.isDigit width)
  require (least ≤ n && n ≤ greatest)
  pure n

/-- The number of days of a month. -/
def daysOf (year month : Nat) : Nat :=
  if month = 2 then
    if year % 4 = 0 ∧ (year % 100 ≠ 0 ∨ year % 400 = 0) then 29 else 28
  else if month = 4 ∨ month = 6 ∨ month = 9 ∨ month = 11 then 30
  else 31

/-- A day of the calendar. -/
def date : Reader Unit := do
  let year ← field 4 0 9999
  let _ ← char '-'
  let month ← field 2 1 12
  let _ ← char '-'
  let _ ← field 2 1 (daysOf year month)

/-- A time of day. -/
def time : Reader Unit := do
  let _ ← field 2 0 23
  let _ ← char ':'
  let _ ← field 2 0 59
  let _ ← char ':'
  let _ ← field 2 0 60
  let _ ← optional? (do let _ ← char '.'; span1 Char.isDigit)

/-- The distance of a local time from universal time. -/
def offset : Reader Unit :=
  (do let _ ← char 'Z' <|> char 'z') <|>
  (do
    let _ ← char '+' <|> char '-'
    let _ ← field 2 0 23
    let _ ← char ':'
    let _ ← field 2 0 59)

/-- A date, a time, or both, then perhaps with an offset. -/
def dateTime : Reader Unit :=
  (do
    date
    let _ ← optional? (do
      let _ ← char 'T' <|> char 't' <|> char ' '
      time
      let _ ← optional? offset)) <|>
  time

/-! ## Scalars -/

/-- A scalar. -/
def scalar : Reader Item :=
  (Item.text <$> anyString) <|> (do dateTime; pure .date) <|> (do float; pure .float) <|>
  (do specialFloat; pure .float) <|> (Item.integer <$> integer) <|> (Item.bool <$> bool)

end CompositionFunction.Toml
