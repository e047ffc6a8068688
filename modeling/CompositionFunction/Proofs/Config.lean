import CompositionFunction.Config
import CompositionFunction.Proofs.Toml.Document

/-!
# Configurations and their documents

A number of seconds that was read is an integer of TOML, so every configuration that was read has a
document; and the document of a configuration is read as the configuration, also between lines that
say nothing.

* `ttlSeconds_lt_of_parse?` : what was read can be written.
* `parse?_among` : what was written is read back.
-/

set_option autoImplicit false

namespace CompositionFunction.Config

open Toml

/-! ## What was read -/

theorem ttlSeconds_lt_of_withTtl {c d : Config} {item : Option Item} (hc : c.ttlSeconds < 2 ^ 63)
    (h : c.withTtl item = some d) : d.ttlSeconds < 2 ^ 63 := by
  unfold withTtl at h
  split at h
  · cases h
    exact hc
  · rename_i i
    split at h
    · rename_i hi
      cases h
      show i.toNat < 2 ^ 63
      omega
    · cases h
  · cases h

theorem ttlSeconds_of_withPretty {c d : Config} {item : Option Item}
    (h : c.withPretty item = some d) : d.ttlSeconds = c.ttlSeconds := by
  unfold withPretty at h
  split at h
  · cases h
    rfl
  · cases h
    rfl
  · cases h

theorem ttlSeconds_lt_of_ofSettings? {ttl pretty : Option Item} {c : Config}
    (h : ofSettings? ttl pretty = some c) : c.ttlSeconds < 2 ^ 63 := by
  obtain ⟨d, hd, hc⟩ := Option.bind_eq_some_iff.1 h
  rw [ttlSeconds_of_withPretty hc]
  exact ttlSeconds_lt_of_withTtl (by decide) hd

theorem ttlSeconds_lt_of_ofDefaults? {item : Option Item} {c : Config}
    (h : ofDefaults? item = some c) : c.ttlSeconds < 2 ^ 63 := by
  have hbuiltIn : builtIn.ttlSeconds < 2 ^ 63 := by decide
  unfold ofDefaults? at h
  split at h
  · cases h
    exact hbuiltIn
  · exact ttlSeconds_lt_of_ofSettings? h
  · exact ttlSeconds_lt_of_ofSettings? h
  · cases h
    exact hbuiltIn
  · cases h

/-- **What was read can be written**: its number of seconds is an integer of TOML. -/
theorem ttlSeconds_lt_of_parse? {s : String} {c : Config} (h : parse? s = some c) :
    c.ttlSeconds < 2 ^ 63 := by
  obtain ⟨table, _, hc⟩ := Option.bind_eq_some_iff.1 h
  exact ttlSeconds_lt_of_ofDefaults? hc

/-! ## What was written -/

/-- The lines of the document of a configuration. -/
def lines (c : Config) (h : c.ttlSeconds < 2 ^ 63) : List PlainLine :=
  [.header ⟨"defaults".toList, by decide, List.all_eq_true.1 (by decide)⟩,
    .entry ⟨"ttl_secs".toList, by decide, List.all_eq_true.1 (by decide)⟩ (.count c.ttlSeconds h),
    .entry ⟨"pretty".toList, by decide, List.all_eq_true.1 (by decide)⟩ (.truth c.pretty)]

theorem render_of_lt {c : Config} (h : c.ttlSeconds < 2 ^ 63) :
    c.render = .ok (String.ofList ((c.lines h).flatMap PlainLine.text)) := by
  rw [render, if_pos h]
  refine congrArg Except.ok (String.toList_inj.1 ?_)
  cases hpretty : c.pretty <;>
    simp [lines, PlainLine.text, PlainValue.text, hpretty, String.toList_append]

theorem render_eq_ok {c : Config} {toml : String} :
    c.render = .ok toml ↔
      ∃ h : c.ttlSeconds < 2 ^ 63, toml = String.ofList ((c.lines h).flatMap PlainLine.text) := by
  by_cases h : c.ttlSeconds < 2 ^ 63
  · rw [render_of_lt h]
    exact ⟨fun htoml => ⟨h, (Except.ok.inj htoml).symm⟩, fun ⟨_, htoml⟩ => congrArg _ htoml.symm⟩
  · rw [render, if_neg h]
    exact ⟨nofun, fun ⟨hlt, _⟩ => absurd hlt h⟩

/-- The table of the lines: one section with the two settings. -/
theorem ofLines?_lines (c : Config) (h : c.ttlSeconds < 2 ^ 63) :
    Table.ofLines? ((c.lines h).filterMap PlainLine.meaning) =
      some [("defaults", .table .header
        [("ttl_secs", .integer c.ttlSeconds), ("pretty", .bool c.pretty)])] := rfl

theorem ofSettings?_own {c : Config} (h : c.ttlSeconds < 2 ^ 63) :
    ofSettings? (some (.integer c.ttlSeconds)) (some (.bool c.pretty)) = some c := by
  have hrange : 0 ≤ (c.ttlSeconds : Int) ∧ (c.ttlSeconds : Int) < 2 ^ 63 := by omega
  simp only [ofSettings?, withTtl, dif_pos hrange]
  rfl

theorem ofDefaults?_section (ttl pretty : Item) :
    ofDefaults? (some (.table .header [("ttl_secs", ttl), ("pretty", pretty)])) =
      ofSettings? (some ttl) (some pretty) := rfl

/-- **What was written is read back**, also between lines that say nothing. -/
theorem parse?_among {c : Config} (h : c.ttlSeconds < 2 ^ 63) {before after : List PlainLine}
    (hbefore : ∀ l ∈ before, l.meaning = none) (hafter : ∀ l ∈ after, l.meaning = none) :
    parse? (String.ofList ((before ++ (c.lines h ++ after)).flatMap PlainLine.text)) = some c := by
  have hmeaning : (before ++ (c.lines h ++ after)).filterMap PlainLine.meaning =
      (c.lines h).filterMap PlainLine.meaning := by
    rw [List.filterMap_append, List.filterMap_append, List.filterMap_eq_nil_iff.2 hbefore,
      List.filterMap_eq_nil_iff.2 hafter, List.append_nil, List.nil_append]
  show (Toml.parse? _).bind _ = _
  rw [parse?_plain, hmeaning, ofLines?_lines, Option.bind_some, List.lookup_cons_self,
    ofDefaults?_section, ofSettings?_own h]

/-- The document of a configuration is read as the configuration. -/
theorem parse?_of_render {c : Config} {toml : String} (h : c.render = .ok toml) :
    parse? toml = some c := by
  obtain ⟨hlt, rfl⟩ := render_eq_ok.1 h
  have hnone : ∀ l ∈ ([] : List PlainLine), l.meaning = none := List.forall_mem_nil _
  have hread := parse?_among hlt hnone hnone
  rwa [List.append_nil, List.nil_append] at hread

end CompositionFunction.Config
