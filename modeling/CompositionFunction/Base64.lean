import CompositionFunction.Bytes

/-!
# Base64

Three bytes are four symbols of six bits; a last group of one or two bytes is filled up with
padding. A text is read only if it is what writing its bytes gives: padding is required, and the
bits of the last symbol beyond the last byte are zero. A refused text is refused for the first of
its faults, in the order in which `Base64.decode` looks at them.

These are the rules of the engine `STANDARD` of the program.
-/

set_option autoImplicit false

namespace CompositionFunction

namespace Base64

/-! ## The alphabet -/

/-- The symbol of a number below 64. -/
def symbol (v : Nat) : UInt8 :=
  if v < 26 then UInt8.ofNat (65 + v)
  else if v < 52 then UInt8.ofNat (97 + (v - 26))
  else if v < 62 then UInt8.ofNat (48 + (v - 52))
  else if v = 62 then 43
  else 47

/-- The number that a symbol stands for. -/
def value? (b : UInt8) : Option Nat :=
  let n := b.toNat
  if 65 ≤ n && n ≤ 90 then some (n - 65)
  else if 97 ≤ n && n ≤ 122 then some (n - 97 + 26)
  else if 48 ≤ n && n ≤ 57 then some (n - 48 + 52)
  else if n = 43 then some 62
  else if n = 47 then some 63
  else none

/-- The padding sign `=`. -/
def pad : UInt8 := 61

/-! ## Writing -/

/-- The symbols of some bytes. -/
def symbols : Bytes → Bytes
  | [] => []
  | [a] => [symbol (a.toNat / 4), symbol (a.toNat % 4 * 16), pad, pad]
  | [a, b] =>
    [symbol (a.toNat / 4), symbol (a.toNat % 4 * 16 + b.toNat / 16),
      symbol (b.toNat % 16 * 4), pad]
  | a :: b :: c :: rest =>
    symbol (a.toNat / 4) :: symbol (a.toNat % 4 * 16 + b.toNat / 16) ::
      symbol (b.toNat % 16 * 4 + c.toNat / 64) :: symbol (c.toNat % 64) :: symbols rest

/-- The text of some bytes. -/
def encode (bytes : Bytes) : String :=
  String.ofList ((symbols bytes).map fun b => Char.ofNat b.toNat)

/-! ## Reading -/

/-- Why a text is refused. -/
inductive Error where
  /-- A byte that may not stand at its place. -/
  | symbol (byte : UInt8) (offset : Nat)
  /-- The last group has fewer than two symbols; up to there the text has this many. -/
  | length (count : Nat)
  /-- The last group is not filled up. -/
  | padding
  /-- The last symbol has bits beyond the last byte. -/
  | lastSymbol (byte : UInt8) (offset : Nat)
deriving DecidableEq, Repr

/-- The wording of the refusal. -/
def Error.message : Error → String
  | .symbol byte offset => s!"Invalid symbol {byte.toNat}, offset {offset}."
  | .length count => s!"Invalid input length: {count}"
  | .padding => "Invalid padding"
  | .lastSymbol byte offset => s!"Invalid last symbol {byte.toNat}, offset {offset}."

/-- The number of the symbol at an offset. -/
def valueAt (offset : Nat) (b : UInt8) : Except Error Nat :=
  match value? b with
  | some v => .ok v
  | none => .error (.symbol b offset)

/-- The symbols of the last group and the number of padding signs after them. -/
def lastGroup (start : Nat) (seen : List Nat) (pads : Nat) : Bytes → Except Error (List Nat × Nat)
  | [] => .ok (seen, pads)
  | b :: rest =>
    if b = pad then
      if seen.length + pads < 2 then .error (.symbol b (start + seen.length + pads))
      else lastGroup start seen (pads + 1) rest
    else if pads ≠ 0 then .error (.symbol pad (start + seen.length))
    else match valueAt (start + seen.length) b with
      | .error e => .error e
      | .ok v => lastGroup start (seen ++ [v]) pads rest

/-- The bytes of the last group, whose bits beyond the last byte have to be zero. -/
def lastBytes (start : Nat) : List Nat → Nat → Except Error Bytes
  | [], _ => .error (.length start)
  | [_], _ => .error (.length (start + 1))
  | [v, w], pads =>
    if pads ≠ 2 then .error .padding
    else if w % 16 ≠ 0 then .error (.lastSymbol (symbol w) (start + 1))
    else .ok [UInt8.ofNat (v * 4 + w / 16)]
  | [v, w, x], pads =>
    if pads ≠ 1 then .error .padding
    else if x % 4 ≠ 0 then .error (.lastSymbol (symbol x) (start + 2))
    else .ok [UInt8.ofNat (v * 4 + w / 16), UInt8.ofNat (w % 16 * 16 + x / 4)]
  | v :: w :: x :: y :: _, _ =>
    .ok [UInt8.ofNat (v * 4 + w / 16), UInt8.ofNat (w % 16 * 16 + x / 4),
      UInt8.ofNat (x % 4 * 64 + y)]

/-- The bytes of some symbols, group by group from an offset on. -/
def bytesFrom (offset : Nat) : Bytes → Except Error Bytes
  | [] => .ok []
  | a :: b :: c :: d :: e :: rest => do
    let v ← valueAt offset a
    let w ← valueAt (offset + 1) b
    let x ← valueAt (offset + 2) c
    let y ← valueAt (offset + 3) d
    let bytes ← bytesFrom (offset + 4) (e :: rest)
    .ok (UInt8.ofNat (v * 4 + w / 16) :: UInt8.ofNat (w % 16 * 16 + x / 4) ::
      UInt8.ofNat (x % 4 * 64 + y) :: bytes)
  | last => do
    let (seen, pads) ← lastGroup offset [] 0 last
    lastBytes offset seen pads

/-- The last byte stands alone in its group and is neither a symbol nor padding. -/
def strayLast? (bytes : Bytes) : Option Error :=
  if bytes.length % 4 = 1 then
    match bytes.getLast? with
    | some b =>
      if b ≠ pad && (value? b).isNone then some (.symbol b (bytes.length - 1)) else none
    | none => none
  else none

/-- The bytes that a text stands for. A stray last byte is reported first, then faults are from
left to right, and those of the last group as a whole come last. -/
def decode (s : String) : Except Error Bytes :=
  let bytes := utf8 s
  match strayLast? bytes with
  | some e => .error e
  | none => bytesFrom 0 bytes

end Base64

end CompositionFunction
