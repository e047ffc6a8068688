import CompositionFunction.Proofs.Base64

/-!
# The canonical texts of bytes

A text in Base64 consists of groups of four letters of the alphabet. The last group may stand for
one or two bytes only; then it is filled up with padding, and the bits that no byte needs are zero.
Exactly these texts are read.

* `IsCanonical` : the texts in Base64, letter by letter.
* `isCanonical_iff_encode` : they are the texts of bytes.
* `exists_decode_iff` : they are the texts that are read.
-/

set_option autoImplicit false

namespace CompositionFunction.Base64

/-! ## Letters -/

/-- The alphabet; each letter stands for the number of its place. -/
def alphabet : List Char :=
  "ABCDEFGHIJKLMNOPQRSTUVWXYZabcdefghijklmnopqrstuvwxyz0123456789+/".toList

/-- The letter of a number. -/
def letter (v : Fin 64) : Char := alphabet.getD v '='

/-- The letters are those that are written. -/
theorem ofNat_symbol : ∀ v : Fin 64, Char.ofNat (symbol v).toNat = letter v := by
  decide +kernel

/-- Symbols as characters. -/
def chars (bytes : Bytes) : List Char := bytes.map fun b => Char.ofNat b.toNat

theorem toList_encode (bytes : Bytes) : (encode bytes).toList = chars (symbols bytes) :=
  String.toList_ofList

/-! ## Canonical texts -/

/-- A text in Base64: groups of four letters, the last of which may be padded. -/
inductive IsCanonical : List Char → Prop where
  | nil : IsCanonical []
  /-- Three bytes. -/
  | group (v w x y : Fin 64) {rest : List Char} (more : IsCanonical rest) :
      IsCanonical (letter v :: letter w :: letter x :: letter y :: rest)
  /-- A single byte at the end, which leaves four bits over. -/
  | oneByte (v w : Fin 64) (unused : w.val % 16 = 0) :
      IsCanonical [letter v, letter w, '=', '=']
  /-- Two bytes at the end, which leave two bits over. -/
  | twoBytes (v w x : Fin 64) (unused : x.val % 4 = 0) :
      IsCanonical [letter v, letter w, letter x, '=']

theorem isCanonical_symbols : ∀ bytes : Bytes, IsCanonical (chars (symbols bytes))
  | [] => .nil
  | [a] => by
    have ha := a.toNat_lt
    have h := IsCanonical.oneByte ⟨a.toNat / 4, by omega⟩ ⟨a.toNat % 4 * 16, by omega⟩
      (by show a.toNat % 4 * 16 % 16 = 0; omega)
    rw [← ofNat_symbol, ← ofNat_symbol] at h
    exact h
  | [a, b] => by
    have ha := a.toNat_lt
    have hb := b.toNat_lt
    have h := IsCanonical.twoBytes ⟨a.toNat / 4, by omega⟩
      ⟨a.toNat % 4 * 16 + b.toNat / 16, by omega⟩ ⟨b.toNat % 16 * 4, by omega⟩
      (by show b.toNat % 16 * 4 % 4 = 0; omega)
    rw [← ofNat_symbol, ← ofNat_symbol, ← ofNat_symbol] at h
    exact h
  | a :: b :: c :: rest => by
    have ha := a.toNat_lt
    have hb := b.toNat_lt
    have hc := c.toNat_lt
    have h := IsCanonical.group ⟨a.toNat / 4, by omega⟩
      ⟨a.toNat % 4 * 16 + b.toNat / 16, by omega⟩ ⟨b.toNat % 16 * 4 + c.toNat / 64, by omega⟩
      ⟨c.toNat % 64, by omega⟩ (isCanonical_symbols rest)
    rw [← ofNat_symbol, ← ofNat_symbol, ← ofNat_symbol, ← ofNat_symbol] at h
    exact h

/-- A canonical text is that of the bytes its groups stand for. -/
theorem exists_symbols {cs : List Char} (h : IsCanonical cs) :
    ∃ bytes, chars (symbols bytes) = cs := by
  induction h with
  | nil => exact ⟨[], rfl⟩
  | group v w x y _ ih =>
    obtain ⟨bytes, rfl⟩ := ih
    have hgroup := symbols_group v.isLt w.isLt x.isLt y.isLt bytes
    refine ⟨_, congrArg chars hgroup |>.trans ?_⟩
    simp only [chars, List.map_cons, ofNat_symbol]
  | oneByte v w unused =>
    have hlast : lastBytes 0 [v.val, w.val] 2 = .ok [UInt8.ofNat (v.val * 4 + w.val / 16)] := by
      simp [lastBytes, unused]
    have hsymbols := symbols_of_lastBytes (by simp) (by simp) hlast
    refine ⟨_, congrArg chars hsymbols |>.trans ?_⟩
    simp only [chars, List.map_cons, List.map_nil, List.map_append, ofNat_symbol]
    rfl
  | twoBytes v w x unused =>
    have hlast : lastBytes 0 [v.val, w.val, x.val] 1 = .ok [UInt8.ofNat (v.val * 4 + w.val / 16),
        UInt8.ofNat (w.val % 16 * 16 + x.val / 4)] := by
      simp [lastBytes, unused]
    have hsymbols := symbols_of_lastBytes (by simp) (by simp) hlast
    refine ⟨_, congrArg chars hsymbols |>.trans ?_⟩
    simp only [chars, List.map_cons, List.map_nil, List.map_append, ofNat_symbol]
    rfl

/-- **The canonical texts are the texts of bytes.** -/
theorem isCanonical_iff_encode {s : String} :
    IsCanonical s.toList ↔ ∃ bytes, encode bytes = s := by
  constructor
  · intro h
    obtain ⟨bytes, hbytes⟩ := exists_symbols h
    exact ⟨bytes, String.toList_injective ((toList_encode bytes).trans hbytes)⟩
  · rintro ⟨bytes, rfl⟩
    rw [toList_encode]
    exact isCanonical_symbols bytes

/-- **Exactly the canonical texts are read.** -/
theorem exists_decode_iff {s : String} :
    (∃ bytes, decode s = .ok bytes) ↔ IsCanonical s.toList := by
  rw [isCanonical_iff_encode]
  constructor
  · rintro ⟨bytes, h⟩
    exact ⟨bytes, encode_of_decode h⟩
  · rintro ⟨bytes, rfl⟩
    exact ⟨bytes, decode_encode bytes⟩

end CompositionFunction.Base64
