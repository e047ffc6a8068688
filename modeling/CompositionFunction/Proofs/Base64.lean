import CompositionFunction.Base64
import CompositionFunction.Proofs.Outcome

/-!
# Base64 is a bijection

Bytes are read back from their text, and the only text that is read as some bytes is theirs: the
padding is required and the bits beyond the last byte are zero.

* `decode_encode` : bytes are read back from their text.
* `encode_of_decode` : what is read is the text of what it is read as.
-/

set_option autoImplicit false

namespace CompositionFunction.Base64

/-! ## Symbols -/

theorem value?_symbol_all : ∀ v : Fin 64, value? (symbol v) = some v.val ∧ symbol v ≠ pad := by
  decide +kernel

theorem value?_symbol {v : Nat} (h : v < 64) : value? (symbol v) = some v :=
  (value?_symbol_all ⟨v, h⟩).1

theorem symbol_ne_pad {v : Nat} (h : v < 64) : symbol v ≠ pad := (value?_symbol_all ⟨v, h⟩).2

theorem symbol_of_value?_all : ∀ n : Fin 256, ∀ v : Fin 64,
    value? (UInt8.ofNat n) = some v.val → symbol v = UInt8.ofNat n := by
  decide +kernel

theorem value?_lt_all : ∀ n : Fin 256, ∀ v ∈ value? (UInt8.ofNat n), v < 64 := by
  decide +kernel

/-- A number has one symbol. -/
theorem symbol_of_value? {b : UInt8} {v : Nat} (h : value? b = some v) :
    v < 64 ∧ symbol v = b := by
  have hb : UInt8.ofNat b.toNat = b := UInt8.ofNat_toNat
  have hlt : v < 64 := value?_lt_all ⟨b.toNat, b.toNat_lt⟩ v (by rw [hb]; exact h)
  have hsymbol := symbol_of_value?_all ⟨b.toNat, b.toNat_lt⟩ ⟨v, hlt⟩ (by rw [hb]; exact h)
  exact ⟨hlt, by rw [hb] at hsymbol; exact hsymbol⟩

theorem valueAt_symbol (offset : Nat) {v : Nat} (h : v < 64) :
    valueAt offset (symbol v) = .ok v := by
  rw [valueAt, value?_symbol h]

theorem symbol_of_valueAt {offset : Nat} {b : UInt8} {v : Nat} (h : valueAt offset b = .ok v) :
    v < 64 ∧ symbol v = b := by
  unfold valueAt at h
  split at h
  · rename_i w hw
    rw [Except.ok.injEq] at h
    exact symbol_of_value? (h ▸ hw)
  · cases h

/-! ## Text -/

theorem utf8EncodeChar_all : ∀ n : Fin 128,
    String.utf8EncodeChar (Char.ofNat n) = [UInt8.ofNat n] := by
  decide +kernel

theorem symbol_lt_all : ∀ v : Fin 64, (symbol v).toNat < 128 := by
  decide +kernel

theorem symbol_lt {v : Nat} (h : v < 64) : (symbol v).toNat < 128 := symbol_lt_all ⟨v, h⟩

/-- The symbols of some bytes are characters of a single byte. -/
theorem symbols_lt : ∀ (bytes : Bytes), ∀ b ∈ symbols bytes, b.toNat < 128
  | [], b, hb => by simp [symbols] at hb
  | [x], b, hb => by
    have hx := x.toNat_lt
    simp only [symbols, List.mem_cons, List.not_mem_nil, or_false] at hb
    rcases hb with rfl | rfl | rfl | rfl
    · exact symbol_lt (by omega)
    · exact symbol_lt (by omega)
    · decide
    · decide
  | [x, y], b, hb => by
    have hx := x.toNat_lt
    have hy := y.toNat_lt
    simp only [symbols, List.mem_cons, List.not_mem_nil, or_false] at hb
    rcases hb with rfl | rfl | rfl | rfl
    · exact symbol_lt (by omega)
    · exact symbol_lt (by omega)
    · exact symbol_lt (by omega)
    · decide
  | x :: y :: z :: rest, b, hb => by
    have hx := x.toNat_lt
    have hy := y.toNat_lt
    have hz := z.toNat_lt
    simp only [symbols, List.mem_cons] at hb
    rcases hb with rfl | rfl | rfl | rfl | hb
    · exact symbol_lt (by omega)
    · exact symbol_lt (by omega)
    · exact symbol_lt (by omega)
    · exact symbol_lt (by omega)
    · exact symbols_lt rest b hb

/-- The bytes of the text are the symbols. -/
theorem utf8_encode (bytes : Bytes) : utf8 (encode bytes) = symbols bytes := by
  have hascii : ∀ bs : Bytes, (∀ b ∈ bs, b.toNat < 128) →
      (bs.map fun b => Char.ofNat b.toNat).flatMap String.utf8EncodeChar = bs := by
    intro bs
    induction bs with
    | nil => intro _; rfl
    | cons b bs ih =>
      intro h
      have hb := utf8EncodeChar_all ⟨b.toNat, h b List.mem_cons_self⟩
      simp only [UInt8.ofNat_toNat] at hb
      rw [List.map_cons, List.flatMap_cons, hb, ih fun x hx => h x (List.mem_cons_of_mem _ hx)]
      rfl
  rw [utf8, encode, String.toList_ofList, hascii _ (symbols_lt bytes)]

theorem utf8_injective {s t : String} (h : utf8 s = utf8 t) : s = t := by
  have hread := ofUtf8?_utf8 s
  rw [h, ofUtf8?_utf8] at hread
  exact (Option.some.inj hread).symm

/-! ## Groups -/

theorem length_symbols : ∀ bytes : Bytes, (symbols bytes).length % 4 = 0
  | [] => rfl
  | [x] => by simp [symbols]
  | [x, y] => by simp [symbols]
  | x :: y :: z :: rest => by
    have := length_symbols rest
    simp only [symbols, List.length_cons]
    omega

/-- Up to four symbols that are left are the last group. -/
theorem bytesFrom_last (offset : Nat) {last : Bytes} (hne : last ≠ []) (hlength : last.length ≤ 4) :
    bytesFrom offset last =
      match lastGroup offset [] 0 last with
      | .error e => .error e
      | .ok (seen, pads) => lastBytes offset seen pads := by
  rw [bytesFrom]
  · cases lastGroup offset [] 0 last <;> rfl
  · exact hne
  · intro a b c d e rest hlong
    rw [hlong] at hlength
    simp only [List.length_cons] at hlength
    omega

theorem lastGroup_pads (start : Nat) (seen : List Nat) : ∀ (k pads : Nat),
    2 ≤ seen.length + pads →
      lastGroup start seen pads (List.replicate k pad) = .ok (seen, pads + k)
  | 0, pads, _ => rfl
  | k + 1, pads, h => by
    have hfew : ¬ seen.length + pads < 2 := by omega
    rw [List.replicate_succ, lastGroup, if_pos rfl, if_neg hfew,
      lastGroup_pads start seen k (pads + 1) (by omega)]
    congr 2
    omega

/-- The symbols of a last group, filled up with padding. -/
theorem lastGroup_symbols (start k : Nat) : ∀ (vs seen : List Nat), (∀ v ∈ vs, v < 64) →
    2 ≤ seen.length + vs.length →
      lastGroup start seen 0 (vs.map symbol ++ List.replicate k pad) = .ok (seen ++ vs, k)
  | [], seen, _, h => by
    rw [List.map_nil, List.nil_append, List.append_nil, lastGroup_pads start seen k 0 h,
      Nat.zero_add]
  | v :: vs, seen, hvs, h => by
    have hv : v < 64 := hvs v List.mem_cons_self
    have hzero : ¬ (0 : Nat) ≠ 0 := fun h => h rfl
    rw [List.length_cons] at h
    rw [List.map_cons, List.cons_append, lastGroup, if_neg (symbol_ne_pad hv), if_neg hzero,
      valueAt_symbol _ hv]
    simp only
    rw [lastGroup_symbols start k vs (seen ++ [v])
      (fun w hw => hvs w (List.mem_cons_of_mem _ hw)) (by rw [List.length_append]; simp; omega),
      List.append_assoc, List.singleton_append]

/-- A last group consists of symbols and padding after them. -/
theorem eq_of_lastGroup (start : Nat) : ∀ (group : Bytes) (seen : List Nat) (pads : Nat)
    {all : List Nat} {k : Nat}, lastGroup start seen pads group = .ok (all, k) →
      ∃ vs j, all = seen ++ vs ∧ k = pads + j ∧ group = vs.map symbol ++ List.replicate j pad ∧
        (∀ v ∈ vs, v < 64) ∧ (pads ≠ 0 → vs = [])
  | [], seen, pads, all, k, h => by
    rw [lastGroup, Except.ok.injEq, Prod.mk.injEq] at h
    exact ⟨[], 0, by rw [List.append_nil, h.1], h.2.symm, rfl, by simp, fun _ => rfl⟩
  | b :: group, seen, pads, all, k, h => by
    rw [lastGroup] at h
    split at h
    · rename_i hpad
      split at h
      · cases h
      obtain ⟨vs, j, hall, hk, hgroup, hvs, hnil⟩ := eq_of_lastGroup start group seen (pads + 1) h
      have hvs' : vs = [] := hnil (Nat.succ_ne_zero pads)
      subst hvs'
      refine ⟨[], j + 1, hall, by omega, ?_, by simp, fun _ => rfl⟩
      rw [hpad, hgroup, List.replicate_succ]
      rfl
    · split at h
      · cases h
      rename_i hpads
      split at h
      · cases h
      rename_i v hv
      obtain ⟨vs, j, hall, hk, hgroup, hvs, _⟩ := eq_of_lastGroup start group (seen ++ [v]) pads h
      obtain ⟨hlt, hsymbol⟩ := symbol_of_valueAt hv
      refine ⟨v :: vs, j, ?_, hk, ?_, ?_, fun h => absurd h hpads⟩
      · rw [hall, List.append_assoc, List.singleton_append]
      · rw [hgroup, List.map_cons, hsymbol, List.cons_append]
      · intro w hw
        rcases List.mem_cons.1 hw with rfl | hw
        · exact hlt
        · exact hvs w hw

/-! ## Reading what was written -/

theorem ofNat_eq {b : UInt8} {n : Nat} (h : n = b.toNat) : UInt8.ofNat n = b := by
  rw [h, UInt8.ofNat_toNat]

/-- The symbols of some bytes are read as the bytes. -/
theorem bytesFrom_symbols : ∀ (bytes : Bytes) (offset : Nat),
    bytesFrom offset (symbols bytes) = .ok bytes
  | [], offset => rfl
  | [x], offset => by
    have hx := x.toNat_lt
    have hgroup := lastGroup_symbols offset 2 [x.toNat / 4, x.toNat % 4 * 16] []
      (by simp; omega) (by simp)
    have hzero : ¬ x.toNat % 4 * 16 % 16 ≠ 0 := by omega
    have hbyte : UInt8.ofNat (x.toNat / 4 * 4 + x.toNat % 4 * 16 / 16) = x := ofNat_eq (by omega)
    rw [bytesFrom_last offset (by simp [symbols]) (by simp [symbols])]
    simp only [symbols, List.map_cons, List.map_nil, List.cons_append, List.nil_append,
      List.replicate_succ, List.replicate_zero] at hgroup ⊢
    simp only [hgroup, lastBytes, if_neg hzero, hbyte]
    rfl
  | [x, y], offset => by
    have hx := x.toNat_lt
    have hy := y.toNat_lt
    have hgroup := lastGroup_symbols offset 1
      [x.toNat / 4, x.toNat % 4 * 16 + y.toNat / 16, y.toNat % 16 * 4] []
      (by simp; omega) (by simp)
    have hzero : ¬ y.toNat % 16 * 4 % 4 ≠ 0 := by omega
    have hfirst : UInt8.ofNat (x.toNat / 4 * 4 + (x.toNat % 4 * 16 + y.toNat / 16) / 16) = x :=
      ofNat_eq (by omega)
    have hsecond : UInt8.ofNat ((x.toNat % 4 * 16 + y.toNat / 16) % 16 * 16 +
        y.toNat % 16 * 4 / 4) = y := ofNat_eq (by omega)
    rw [bytesFrom_last offset (by simp [symbols]) (by simp [symbols])]
    simp only [symbols, List.map_cons, List.map_nil, List.cons_append, List.nil_append,
      List.replicate_succ, List.replicate_zero] at hgroup ⊢
    simp only [hgroup, lastBytes, if_neg hzero, hfirst, hsecond]
    rfl
  | x :: y :: z :: rest, offset => by
    have hx := x.toNat_lt
    have hy := y.toNat_lt
    have hz := z.toNat_lt
    have hfirst : UInt8.ofNat (x.toNat / 4 * 4 + (x.toNat % 4 * 16 + y.toNat / 16) / 16) = x :=
      ofNat_eq (by omega)
    have hsecond : UInt8.ofNat ((x.toNat % 4 * 16 + y.toNat / 16) % 16 * 16 +
        (y.toNat % 16 * 4 + z.toNat / 64) / 4) = y := ofNat_eq (by omega)
    have hthird : UInt8.ofNat ((y.toNat % 16 * 4 + z.toNat / 64) % 4 * 64 + z.toNat % 64) = z :=
      ofNat_eq (by omega)
    cases hrest : symbols rest with
    | nil =>
      -- only the empty list has no symbols, so this is the last group
      have hempty : rest = [] := by
        have hbytes := bytesFrom_symbols rest 0
        rw [hrest] at hbytes
        exact (Except.ok.inj hbytes).symm
      have hgroup := lastGroup_symbols offset 0
        [x.toNat / 4, x.toNat % 4 * 16 + y.toNat / 16, y.toNat % 16 * 4 + z.toNat / 64,
          z.toNat % 64] [] (by simp; omega) (by simp)
      rw [symbols, hrest, hempty, bytesFrom_last offset (by simp) (by simp)]
      simp only [List.map_cons, List.map_nil, List.cons_append, List.nil_append,
        List.replicate_zero] at hgroup ⊢
      simp only [hgroup, lastBytes, hfirst, hsecond, hthird]
    | cons b more =>
      have ih := bytesFrom_symbols rest (offset + 4)
      rw [hrest] at ih
      rw [symbols, hrest, bytesFrom, valueAt_symbol _ (by omega), valueAt_symbol _ (by omega),
        valueAt_symbol _ (by omega), valueAt_symbol _ (by omega), ih]
      simp only [bind, Except.bind, hfirst, hsecond, hthird]

/-- **Bytes are read back from their text.** -/
theorem decode_encode (bytes : Bytes) : decode (encode bytes) = .ok bytes := by
  have hlength := length_symbols bytes
  have hstray : strayLast? (symbols bytes) = none := by
    rw [strayLast?, if_neg (by omega)]
  unfold decode
  simp only [utf8_encode, hstray, bytesFrom_symbols]

/-! ## Writing what was read -/

/-- The symbols of the three bytes that four symbols are read as. -/
theorem symbols_group {v w x y : Nat} (hv : v < 64) (hw : w < 64) (hx : x < 64) (hy : y < 64)
    (rest : Bytes) :
    symbols (UInt8.ofNat (v * 4 + w / 16) :: UInt8.ofNat (w % 16 * 16 + x / 4) ::
        UInt8.ofNat (x % 4 * 64 + y) :: rest) =
      symbol v :: symbol w :: symbol x :: symbol y :: symbols rest := by
  have hfirst : (UInt8.ofNat (v * 4 + w / 16)).toNat = v * 4 + w / 16 := by
    rw [UInt8.toNat_ofNat']; omega
  have hsecond : (UInt8.ofNat (w % 16 * 16 + x / 4)).toNat = w % 16 * 16 + x / 4 := by
    rw [UInt8.toNat_ofNat']; omega
  have hthird : (UInt8.ofNat (x % 4 * 64 + y)).toNat = x % 4 * 64 + y := by
    rw [UInt8.toNat_ofNat']; omega
  rw [symbols, hfirst, hsecond, hthird, show (v * 4 + w / 16) / 4 = v by omega,
    show (v * 4 + w / 16) % 4 * 16 + (w % 16 * 16 + x / 4) / 16 = w by omega,
    show (w % 16 * 16 + x / 4) % 16 * 4 + (x % 4 * 64 + y) / 64 = x by omega,
    show (x % 4 * 64 + y) % 64 = y by omega]

/-- The symbols of the bytes of a last group are the group. -/
theorem symbols_of_lastBytes {start pads : Nat} {vs : List Nat} {bytes : Bytes}
    (hvs : ∀ v ∈ vs, v < 64) (hlength : vs.length + pads ≤ 4)
    (h : lastBytes start vs pads = .ok bytes) :
    symbols bytes = vs.map symbol ++ List.replicate pads pad := by
  rcases vs with _ | ⟨v, _ | ⟨w, _ | ⟨x, _ | ⟨y, vs⟩⟩⟩⟩
  · rw [lastBytes] at h; cases h
  · rw [lastBytes] at h; cases h
  · have hv : v < 64 := hvs v (by simp)
    have hw : w < 64 := hvs w (by simp)
    rw [lastBytes] at h
    split at h
    · cases h
    split at h
    · cases h
    rename_i hpads hzero
    cases h
    have hbyte : (UInt8.ofNat (v * 4 + w / 16)).toNat = v * 4 + w / 16 := by
      rw [UInt8.toNat_ofNat']; omega
    rw [show pads = 2 by omega, symbols, hbyte, show (v * 4 + w / 16) / 4 = v by omega,
      show (v * 4 + w / 16) % 4 * 16 = w by omega]
    rfl
  · have hv : v < 64 := hvs v (by simp)
    have hw : w < 64 := hvs w (by simp)
    have hx : x < 64 := hvs x (by simp)
    rw [lastBytes] at h
    split at h
    · cases h
    split at h
    · cases h
    rename_i hpads hzero
    cases h
    have hfirst : (UInt8.ofNat (v * 4 + w / 16)).toNat = v * 4 + w / 16 := by
      rw [UInt8.toNat_ofNat']; omega
    have hsecond : (UInt8.ofNat (w % 16 * 16 + x / 4)).toNat = w % 16 * 16 + x / 4 := by
      rw [UInt8.toNat_ofNat']; omega
    rw [show pads = 1 by omega, symbols, hfirst, hsecond,
      show (v * 4 + w / 16) / 4 = v by omega,
      show (v * 4 + w / 16) % 4 * 16 + (w % 16 * 16 + x / 4) / 16 = w by omega,
      show (w % 16 * 16 + x / 4) % 16 * 4 = x by omega]
    rfl
  · have hnil : vs = [] := by
      simp only [List.length_cons] at hlength
      exact List.length_eq_zero_iff.1 (by omega)
    subst hnil
    rw [lastBytes, Except.ok.injEq] at h
    simp only [List.length_cons, List.length_nil] at hlength
    rw [← h, show pads = 0 by omega,
      symbols_group (hvs v (by simp)) (hvs w (by simp)) (hvs x (by simp)) (hvs y (by simp))]
    rfl

/-- The symbols of what is read are what is read. -/
theorem symbols_of_bytesFrom (cs : Bytes) (offset : Nat) {bytes : Bytes}
    (h : bytesFrom offset cs = .ok bytes) : symbols bytes = cs := by
  induction offset, cs using bytesFrom.induct generalizing bytes with
  | case1 offset =>
    rw [bytesFrom, Except.ok.injEq] at h
    rw [← h]; rfl
  | case2 offset a b c d e rest ih =>
    rw [bytesFrom] at h
    obtain ⟨v, hv, h1⟩ := bind_eq_ok.1 h
    obtain ⟨w, hw, h2⟩ := bind_eq_ok.1 h1
    obtain ⟨x, hx, h3⟩ := bind_eq_ok.1 h2
    obtain ⟨y, hy, h4⟩ := bind_eq_ok.1 h3
    obtain ⟨more, hmore, h5⟩ := bind_eq_ok.1 h4
    obtain ⟨hv, ha⟩ := symbol_of_valueAt hv
    obtain ⟨hw, hb⟩ := symbol_of_valueAt hw
    obtain ⟨hx, hc⟩ := symbol_of_valueAt hx
    obtain ⟨hy, hd⟩ := symbol_of_valueAt hy
    rw [← Except.ok.inj h5, symbols_group hv hw hx hy, ih hmore, ha, hb, hc, hd]
  | case3 offset last hne hlong =>
    have hlength : last.length ≤ 4 := by
      rcases last with _ | ⟨a, _ | ⟨b, _ | ⟨c, _ | ⟨d, _ | ⟨e, rest⟩⟩⟩⟩⟩
      · exact Nat.zero_le 4
      · exact (by decide : 1 ≤ 4)
      · exact (by decide : 2 ≤ 4)
      · exact (by decide : 3 ≤ 4)
      · exact Nat.le_refl 4
      · exact (hlong a b c d e rest rfl).elim
    rw [bytesFrom_last offset hne hlength] at h
    split at h
    · cases h
    rename_i seen pads hgroup
    obtain ⟨vs, j, hseen, hpads, hlast, hvs, _⟩ := eq_of_lastGroup offset last [] 0 hgroup
    rw [List.nil_append] at hseen
    rw [Nat.zero_add] at hpads
    subst hseen hpads
    rw [hlast, List.length_append, List.length_map, List.length_replicate] at hlength
    rw [symbols_of_lastBytes hvs hlength h, hlast]

/-- **What is read is the text of what it is read as.** -/
theorem encode_of_decode {s : String} {bytes : Bytes} (h : decode s = .ok bytes) :
    encode bytes = s := by
  unfold decode at h
  simp only at h
  split at h
  · cases h
  · apply utf8_injective
    rw [utf8_encode]
    exact symbols_of_bytesFrom _ 0 h

end CompositionFunction.Base64
