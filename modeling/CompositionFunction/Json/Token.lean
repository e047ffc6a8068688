import CompositionFunction.Json.Number

/-!
# The tokens of JSON text

A text is cut into tokens from left to right; where no token can begin or one breaks off, the
tokens end in `Token.broken`. Two kinds of token may be well formed and yet stand for nothing: a
numeral out of range, and a string with half of a surrogate pair.

The scanner reads one character at a time, so its state says all it knows of the text so far.
-/

set_option autoImplicit false

namespace CompositionFunction.Json

/-- A token. A number or string that stands for nothing has no value. -/
inductive Token where
  | openArray
  | closeArray
  | openObject
  | closeObject
  | comma
  | colon
  | null
  | bool (value : Bool)
  | number (value : Option Number)
  | text (value : Option String)
  | broken
deriving DecidableEq, Repr

/-! ## Strings -/

/-- The part of a string read so far. -/
structure Spelling where
  /-- The characters, the last one first. -/
  characters : List Char
  /-- The first half of a surrogate pair whose second half is due. -/
  high : Option Nat
  /-- No half of a surrogate pair stood alone. -/
  isSound : Bool
deriving DecidableEq, Repr

namespace Spelling

/-- The string before its first character. -/
def start : Spelling := ⟨[], none, true⟩

/-- Adds a character. -/
def push (s : Spelling) (c : Char) : Spelling :=
  ⟨c :: s.characters, none, s.isSound && s.high.isNone⟩

/-- Adds a UTF-16 code unit; two halves of a surrogate pair are one character. -/
def pushUnit (s : Spelling) (unit : Nat) : Spelling :=
  if 0xd800 ≤ unit && unit < 0xdc00 then
    ⟨s.characters, some unit, s.isSound && s.high.isNone⟩
  else if 0xdc00 ≤ unit && unit < 0xe000 then
    match s.high with
    | some high =>
      ⟨Char.ofNat (0x10000 + (high - 0xd800) * 0x400 + (unit - 0xdc00)) :: s.characters, none,
        s.isSound⟩
    | none => ⟨s.characters, none, false⟩
  else s.push (Char.ofNat unit)

/-- The token of the finished string. -/
def token (s : Spelling) : Token :=
  .text (if s.isSound && s.high.isNone then some (String.ofList s.characters.reverse) else none)

end Spelling

/-- The character of a one-letter escape. -/
def escaped? (c : Char) : Option Char :=
  if c = '"' ∨ c = '\\' ∨ c = '/' then some c
  else if c = 'b' then some '\x08'
  else if c = 'f' then some '\x0c'
  else if c = 'n' then some '\n'
  else if c = 'r' then some '\r'
  else if c = 't' then some '\t'
  else none

/-- The number of a hexadecimal digit. -/
def hexValue? (c : Char) : Option Nat :=
  if '0' ≤ c && c ≤ '9' then some (c.toNat - 48)
  else if 'a' ≤ c && c ≤ 'f' then some (c.toNat - 87)
  else if 'A' ≤ c && c ≤ 'F' then some (c.toNat - 55)
  else none

/-! ## Numerals -/

/-- The part of a numeral that was read last. -/
inductive NumeralPart where
  | sign
  | zero
  | whole
  | point
  | fraction
  | mark
  | exponentSign
  | exponent
deriving DecidableEq, Repr

/-- A numeral may end after this part. -/
def NumeralPart.isFinal : NumeralPart → Bool
  | .zero | .whole | .fraction | .exponent => true
  | .sign | .point | .mark | .exponentSign => false

namespace Numeral

/-- Adds a digit to the exponent. -/
def pushExponent (n : Numeral) (c : Char) : Numeral :=
  match n.exponent with
  | some (negative, ds) => { n with exponent := some (negative, ds ++ [c]) }
  | none => { n with exponent := some (false, [c]) }

/-- The numeral one character on, and the part that the character belongs to. -/
def push? (n : Numeral) (part : NumeralPart) (c : Char) : Option (Numeral × NumeralPart) :=
  let mark : Option (Numeral × NumeralPart) :=
    if c = 'e' ∨ c = 'E' then some (n, .mark) else none
  match part with
  | .sign =>
    if c.isDigit then some ({ n with whole := [c] }, if c = '0' then .zero else .whole) else none
  | .zero => if c = '.' then some (n, .point) else mark
  | .whole =>
    if c.isDigit then some ({ n with whole := n.whole ++ [c] }, .whole)
    else if c = '.' then some (n, .point)
    else mark
  | .point => if c.isDigit then some ({ n with fraction := [c] }, .fraction) else none
  | .fraction =>
    if c.isDigit then some ({ n with fraction := n.fraction ++ [c] }, .fraction) else mark
  | .mark =>
    if c = '+' then some ({ n with exponent := some (false, []) }, .exponentSign)
    else if c = '-' then some ({ n with exponent := some (true, []) }, .exponentSign)
    else if c.isDigit then some (n.pushExponent c, .exponent)
    else none
  | .exponentSign | .exponent => if c.isDigit then some (n.pushExponent c, .exponent) else none

end Numeral

/-! ## Scanning -/

/-- What the scanner is in the middle of. -/
inductive Scanning where
  /-- Between two tokens. -/
  | between
  /-- In a word of which these letters are due. -/
  | word (due : List Char) (token : Token)
  | numeral (numeral : Numeral) (part : NumeralPart)
  | string (spelling : Spelling)
  /-- After a backslash. -/
  | escape (spelling : Spelling)
  /-- In a code unit that lacks so many digits. -/
  | unit (spelling : Spelling) (due : Nat) (code : Nat)
  /-- After a broken token. -/
  | stopped
deriving DecidableEq, Repr

namespace Scanning

/-- No token goes on or begins with the character. -/
def stop : List Token × Scanning := ([.broken], .stopped)

/-- The character begins a token, is one, or is blank. -/
def begin (c : Char) : List Token × Scanning :=
  match c with
  | ' ' | '\t' | '\n' | '\r' => ([], .between)
  | '[' => ([.openArray], .between)
  | ']' => ([.closeArray], .between)
  | '\x7b' => ([.openObject], .between)
  | '\x7d' => ([.closeObject], .between)
  | ',' => ([.comma], .between)
  | ':' => ([.colon], .between)
  | '"' => ([], .string .start)
  | 'n' => ([], .word ['u', 'l', 'l'] .null)
  | 't' => ([], .word ['r', 'u', 'e'] (.bool true))
  | 'f' => ([], .word ['a', 'l', 's', 'e'] (.bool false))
  | '-' => ([], .numeral ⟨true, [], [], none⟩ .sign)
  | '0' => ([], .numeral ⟨false, ['0'], [], none⟩ .zero)
  | c => if c.isDigit then ([], .numeral ⟨false, [c], [], none⟩ .whole) else stop

/-- The tokens that the character ends or is, and the state after it. -/
def step (state : Scanning) (c : Char) : List Token × Scanning :=
  match state with
  | .between => begin c
  | .word [] _ => stop
  | .word [d] token => if c = d then ([token], .between) else stop
  | .word (d :: due) token => if c = d then ([], .word due token) else stop
  | .numeral n part =>
    match n.push? part c with
    | some (longer, next) => ([], .numeral longer next)
    | none =>
      if part.isFinal && !c.isDigit then
        let (tokens, next) := begin c
        (.number n.value? :: tokens, next)
      else stop
  | .string s =>
    if c = '"' then ([s.token], .between)
    else if c = '\\' then ([], .escape s)
    else if c < ' ' then stop
    else ([], .string (s.push c))
  | .escape s =>
    if c = 'u' then ([], .unit s 4 0)
    else match escaped? c with
      | some d => ([], .string (s.push d))
      | none => stop
  | .unit s due code =>
    match hexValue? c with
    | some v =>
      if due ≤ 1 then ([], .string (s.pushUnit (code * 16 + v)))
      else ([], .unit s (due - 1) (code * 16 + v))
    | none => stop
  | .stopped => ([], .stopped)

/-- The tokens that the end of the text ends or breaks off. -/
def final : Scanning → List Token
  | .between | .stopped => []
  | .numeral n part => if part.isFinal then [.number n.value?] else [.broken]
  | _ => [.broken]

end Scanning

/-- The tokens found so far, the last one first, and the state of the scanner. -/
structure Scanned where
  tokens : List Token
  state : Scanning

/-- Scans one character more. -/
def Scanned.step (s : Scanned) (c : Char) : Scanned :=
  let (tokens, state) := s.state.step c
  ⟨tokens.reverse ++ s.tokens, state⟩

/-- The tokens of a text. -/
def scan (cs : List Char) : List Token :=
  let scanned := cs.foldl Scanned.step ⟨[], .between⟩
  scanned.tokens.reverse ++ scanned.state.final

end CompositionFunction.Json
