import CompositionFunction.Json.Tree
import CompositionFunction.Proofs.StringMap

/-!
# Trees that are ordinary values

A tree that is read as an ordinary value follows the grammar, its objects are closed, and each of
their members has a name. If no name is repeated, a member of the value is what the member of that
name is read as.

* `json?_unbounded` : a source without a limit reads what any other source does.
* `json?_array`, `json?_object` : what the parts of a container are read as.
* `isReadable_array`, `isReadable_object` : a container is readable if all its parts are.
-/

set_option autoImplicit false

namespace CompositionFunction.Json

/-- Trees by their names, as the members of an object. -/
def named (ms : List (String × Tree)) : List (Option String × Tree) :=
  ms.map fun m => (some m.1, m.2)

theorem named_injective {ms ns : List (String × Tree)} (h : named ms = named ns) : ms = ns := by
  refine (List.map_inj_right ?_).1 h
  rintro ⟨key, t⟩ ⟨key', t'⟩ heq
  simpa using heq

namespace Tree

/-! ## Members -/

/-- The members of an object that is read as a value have names and are read as values. -/
theorem named_of_jsonMembers? {source : Source} {members : List (Option String × Tree)} :
    ∀ {before entries : JsonObject}, jsonMembers? source before members = some entries →
      ∃ ms, members = named ms ∧ ∀ m ∈ ms, ∃ v, m.2.json? source = some v := by
  induction members with
  | nil =>
    intro before entries _
    exact ⟨[], rfl, by simp⟩
  | cons member members ih =>
    intro before entries h
    obtain ⟨name?, t⟩ := member
    cases name? with
    | none => simp [jsonMembers?] at h
    | some name =>
      rw [jsonMembers?] at h
      split at h
      · cases h
      rename_i v hv
      obtain ⟨ms, hms, hread⟩ := ih h
      refine ⟨(name, t) :: ms, by rw [hms]; rfl, ?_⟩
      intro m hm
      rcases List.mem_cons.1 hm with rfl | hm
      · exact ⟨v, hv⟩
      · exact hread m hm

/-- With distinct names, each member of the value is what the member of that name is read as. -/
theorem rel_jsonMembers? {source : Source} (k : String) {ms : List (String × Tree)} :
    ∀ {before entries : JsonObject}, (ms.map Prod.fst).Nodup →
      jsonMembers? source before (named ms) = some entries →
        (∃ t v, ms.lookup k = some t ∧ entries.find? k = some v ∧ t.json? source = some v) ∨
          (ms.lookup k = none ∧ entries.find? k = before.find? k) := by
  induction ms with
  | nil =>
    intro before entries _ h
    rw [named, List.map_nil, jsonMembers?, Option.some.injEq] at h
    exact Or.inr ⟨rfl, by rw [h]⟩
  | cons m ms ih =>
    intro before entries hnames h
    rw [List.map_cons, List.nodup_cons] at hnames
    rw [named, List.map_cons, jsonMembers?] at h
    split at h
    · cases h
    rename_i w hw
    have hrest := ih hnames.2 h
    rw [StringMap.find?_insert] at hrest
    rw [lookup_cons_if]
    by_cases hk : k = m.1
    · rw [if_pos hk] at hrest ⊢
      rcases hrest with ⟨t, v, ht, _, _⟩ | ⟨_, hfind⟩
      · exact absurd (lookup_eq_none.2 (hk ▸ hnames.1)) (by rw [ht]; simp)
      · exact Or.inl ⟨m.2, w, rfl, hfind, hw⟩
    · rw [if_neg hk] at hrest ⊢
      exact hrest

/-- Repeated names or not, what the value holds under a name is read from a member of that name. -/
theorem mem_of_jsonMembers? {source : Source} (k : String) {ms : List (String × Tree)} :
    ∀ {before entries : JsonObject}, jsonMembers? source before (named ms) = some entries →
      (∃ t v, (k, t) ∈ ms ∧ entries.find? k = some v ∧ t.json? source = some v) ∨
        (k ∉ ms.map Prod.fst ∧ entries.find? k = before.find? k) := by
  induction ms with
  | nil =>
    intro before entries h
    rw [named, List.map_nil, jsonMembers?, Option.some.injEq] at h
    exact Or.inr ⟨List.not_mem_nil, by rw [h]⟩
  | cons m ms ih =>
    intro before entries h
    rw [named, List.map_cons, jsonMembers?] at h
    split at h
    · cases h
    rename_i w hw
    have hrest := ih h
    rw [StringMap.find?_insert] at hrest
    rcases hrest with ⟨t, v, ht, hfind, hv⟩ | ⟨habsent, hfind⟩
    · exact Or.inl ⟨t, v, List.mem_cons_of_mem _ ht, hfind, hv⟩
    · by_cases hk : k = m.1
      · rw [if_pos hk] at hfind
        exact Or.inl ⟨m.2, w, hk ▸ List.mem_cons_self, hfind, hw⟩
      · rw [if_neg hk] at hfind
        exact Or.inr ⟨fun hmem => (List.mem_cons.1 hmem).elim hk habsent, hfind⟩

theorem exists_jsonMembers? {source : Source} {ms : List (String × Tree)}
    (h : ∀ m ∈ ms, ∃ v, m.2.json? source = some v) :
    ∀ before : JsonObject, ∃ entries, jsonMembers? source before (named ms) = some entries := by
  induction ms with
  | nil => exact fun before => ⟨before, rfl⟩
  | cons m ms ih =>
    intro before
    obtain ⟨v, hv⟩ := h m List.mem_cons_self
    rw [named, List.map_cons, jsonMembers?, hv]
    exact ih (fun m' hm => h m' (List.mem_cons_of_mem _ hm)) (before.insert m.1 v)

/-! ## Containers -/

/-- The items of an array that is read as a value are read as values. -/
theorem mem_of_jsonItems? {source : Source} {ts : List Tree} : ∀ {vs : List Json},
    jsonItems? source ts = some vs → ∀ t ∈ ts, ∃ v, t.json? source = some v := by
  induction ts with
  | nil =>
    intro vs _ t ht
    cases ht
  | cons t ts ih =>
    intro vs h t' ht'
    rw [jsonItems?] at h
    split at h
    · cases h
    rename_i v hv
    obtain ⟨us, hus, _⟩ := Option.map_eq_some_iff.1 h
    rcases List.mem_cons.1 ht' with rfl | ht'
    · exact ⟨v, hv⟩
    · exact ih hus t' ht'

theorem json?_array {source : Source} {ts : List Tree} {v : Json}
    (h : (Tree.array ts).json? source = some v) :
    ∃ inner vs, source.enter? = some inner ∧ jsonItems? inner ts = some vs ∧ v = .array vs := by
  rw [json?] at h
  split at h
  · cases h
  rename_i inner henter
  obtain ⟨vs, hvs, rfl⟩ := Option.map_eq_some_iff.1 h
  exact ⟨inner, vs, henter, hvs, rfl⟩

theorem json?_object {source : Source} {members : List (Option String × Tree)} {ending : Ending}
    {v : Json} (h : (Tree.object members ending).json? source = some v) :
    ∃ inner ms entries, source.enter? = some inner ∧ members = named ms ∧ ending = .closed ∧
      jsonMembers? inner .empty (named ms) = some entries ∧
      (∀ m ∈ ms, ∃ v, m.2.json? inner = some v) ∧ v = .object entries := by
  rw [json?] at h
  split at h
  · cases h
  rename_i inner henter
  split at h
  · cases h
  rename_i entries hentries
  split at h
  · rename_i hclosed
    obtain ⟨ms, hms, hread⟩ := named_of_jsonMembers? hentries
    subst hms
    exact ⟨inner, ms, entries, henter, rfl, hclosed, hentries, hread, (Option.some.inj h).symm⟩
  · cases h

/-- An object whose members are read as values is read as a value. -/
theorem exists_json?_object {source inner : Source} (henter : source.enter? = some inner)
    {ms : List (String × Tree)} (h : ∀ m ∈ ms, ∃ v, m.2.json? inner = some v) :
    ∃ entries, (Tree.object (named ms) .closed).json? source = some (.object entries) := by
  obtain ⟨entries, hentries⟩ := exists_jsonMembers? h .empty
  refine ⟨entries, ?_⟩
  rw [json?, henter]
  simp only [hentries, if_true]

/-! ## Readable trees -/

/-- The tree is an ordinary value, at the depth of the source. -/
def IsReadable (source : Source) (t : Tree) : Prop := ∃ v, t.json? source = some v

theorem exists_jsonItems? {source : Source} {ts : List Tree} (h : ∀ t ∈ ts, t.IsReadable source) :
    ∃ vs, jsonItems? source ts = some vs := by
  induction ts with
  | nil => exact ⟨[], rfl⟩
  | cons t ts ih =>
    obtain ⟨⟨v, hv⟩, hts⟩ := List.forall_mem_cons.1 h
    obtain ⟨vs, hvs⟩ := ih hts
    exact ⟨v :: vs, by rw [jsonItems?, hv, hvs]; rfl⟩

theorem isReadable_array {source : Source} {ts : List Tree} :
    (Tree.array ts).IsReadable source ↔
      ∃ inner, source.enter? = some inner ∧ ∀ t ∈ ts, t.IsReadable inner := by
  constructor
  · rintro ⟨v, hv⟩
    obtain ⟨inner, vs, henter, hvs, _⟩ := json?_array hv
    exact ⟨inner, henter, mem_of_jsonItems? hvs⟩
  · rintro ⟨inner, henter, hread⟩
    obtain ⟨vs, hvs⟩ := exists_jsonItems? hread
    exact ⟨.array vs, by rw [json?, henter]; simp only [hvs, Option.map_some]⟩

theorem exists_named {members : List (Option String × Tree)}
    (h : ∀ m ∈ members, m.1.isSome = true) : ∃ ms, members = named ms := by
  induction members with
  | nil => exact ⟨[], rfl⟩
  | cons m members ih =>
    obtain ⟨hm, hmembers⟩ := List.forall_mem_cons.1 h
    obtain ⟨ms, rfl⟩ := ih hmembers
    obtain ⟨name, hname⟩ := Option.isSome_iff_exists.1 hm
    exact ⟨(name, m.2) :: ms, by rw [named, named, List.map_cons, ← hname]⟩

theorem isReadable_object {source : Source} {members : List (Option String × Tree)}
    {ending : Ending} :
    (Tree.object members ending).IsReadable source ↔ ending = .closed ∧
      ∃ inner, source.enter? = some inner ∧
        ∀ m ∈ members, m.1.isSome = true ∧ m.2.IsReadable inner := by
  constructor
  · rintro ⟨v, hv⟩
    obtain ⟨inner, ms, _, henter, rfl, hclosed, _, hread, _⟩ := json?_object hv
    refine ⟨hclosed, inner, henter, fun m hm => ?_⟩
    obtain ⟨n, hn, rfl⟩ := List.mem_map.1 hm
    exact ⟨rfl, hread n hn⟩
  · rintro ⟨rfl, inner, henter, hread⟩
    obtain ⟨ms, rfl⟩ := exists_named fun m hm => (hread m hm).1
    have hvalues : ∀ m ∈ ms, ∃ v, m.2.json? inner = some v :=
      fun m hm => (hread (some m.1, m.2) (List.mem_map_of_mem hm)).2
    obtain ⟨entries, hentries⟩ := exists_json?_object henter hvalues
    exact ⟨.object entries, hentries⟩

/-! ## What does not depend on the source -/

mutual

/-- A source without a limit reads what any other source does: only the depth is limited. -/
theorem json?_unbounded : ∀ (t : Tree) {source : Source} {v : Json} (free : Source),
    free.enter? = some free → t.json? source = some v → t.json? free = some v
  | .null, source, v, free, _, h => by rw [json?] at h ⊢; exact h
  | .bool b, source, v, free, _, h => by rw [json?] at h ⊢; exact h
  | .number n, source, v, free, _, h => by rw [json?] at h ⊢; exact h
  | .text s, source, v, free, _, h => by rw [json?] at h ⊢; exact h
  | .array ts, source, v, free, hfree, h => by
    obtain ⟨inner, vs, _, hvs, rfl⟩ := json?_array h
    rw [json?, hfree]
    simp only [jsonItems?_unbounded ts free hfree hvs, Option.map_some]
  | .object members ending, source, v, free, hfree, h => by
    obtain ⟨inner, ms, entries, _, hms, hclosed, hentries, _, rfl⟩ := json?_object h
    rw [← hms] at hentries
    rw [json?, hfree]
    simp only [jsonMembers?_unbounded members free hfree hentries, hclosed, if_true]
  | .broken, source, v, free, _, h => by rw [json?] at h; cases h

theorem jsonItems?_unbounded : ∀ (ts : List Tree) {source : Source} {vs : List Json}
    (free : Source), free.enter? = some free → jsonItems? source ts = some vs →
      jsonItems? free ts = some vs
  | [], source, vs, free, _, h => by rw [jsonItems?] at h ⊢; exact h
  | t :: ts, source, vs, free, hfree, h => by
    rw [jsonItems?] at h
    split at h
    · cases h
    rename_i v hv
    obtain ⟨us, hus, rfl⟩ := Option.map_eq_some_iff.1 h
    rw [jsonItems?, json?_unbounded t free hfree hv]
    simp only [jsonItems?_unbounded ts free hfree hus, Option.map_some]

theorem jsonMembers?_unbounded : ∀ (members : List (Option String × Tree)) {source : Source}
    {before entries : JsonObject} (free : Source), free.enter? = some free →
      jsonMembers? source before members = some entries →
        jsonMembers? free before members = some entries
  | [], source, before, entries, free, _, h => by rw [jsonMembers?] at h ⊢; exact h
  | (none, t) :: members, source, before, entries, free, _, h => by simp [jsonMembers?] at h
  | (some name, t) :: members, source, before, entries, free, hfree, h => by
    rw [jsonMembers?] at h
    split at h
    · cases h
    rename_i v hv
    rw [jsonMembers?, json?_unbounded t free hfree hv]
    exact jsonMembers?_unbounded members free hfree h

end

mutual

/-- What is read as a value follows the grammar. -/
theorem isGrammatical_of_json? : ∀ (t : Tree) {source : Source} {v : Json},
    t.json? source = some v → t.isGrammatical = true
  | .null, _, _, _ => rfl
  | .bool _, _, _, _ => rfl
  | .number _, _, _, _ => rfl
  | .text _, _, _, _ => rfl
  | .array ts, source, v, h => by
    obtain ⟨inner, vs, _, hvs, _⟩ := json?_array h
    rw [isGrammatical]
    exact areGrammatical_of_jsonItems? ts hvs
  | .object members ending, source, v, h => by
    obtain ⟨inner, ms, entries, _, hms, hclosed, hentries, _, _⟩ := json?_object h
    rw [← hms] at hentries
    rw [isGrammatical, hclosed, haveGrammaticalValues_of_jsonMembers? members hentries]
    rfl
  | .broken, source, v, h => by rw [json?] at h; cases h

theorem areGrammatical_of_jsonItems? : ∀ (ts : List Tree) {source : Source} {vs : List Json},
    jsonItems? source ts = some vs → areGrammatical ts = true
  | [], _, _, _ => rfl
  | t :: ts, source, vs, h => by
    rw [jsonItems?] at h
    split at h
    · cases h
    rename_i v hv
    obtain ⟨us, hus, _⟩ := Option.map_eq_some_iff.1 h
    rw [areGrammatical, isGrammatical_of_json? t hv, areGrammatical_of_jsonItems? ts hus]
    rfl

theorem haveGrammaticalValues_of_jsonMembers? : ∀ (members : List (Option String × Tree))
    {source : Source} {before entries : JsonObject},
      jsonMembers? source before members = some entries → haveGrammaticalValues members = true
  | [], _, _, _, _ => rfl
  | (none, t) :: members, source, before, entries, h => by simp [jsonMembers?] at h
  | (some name, t) :: members, source, before, entries, h => by
    rw [jsonMembers?] at h
    split at h
    · cases h
    rename_i v hv
    rw [haveGrammaticalValues, isGrammatical_of_json? t hv,
      haveGrammaticalValues_of_jsonMembers? members h]
    rfl

end

end Tree

/-- A text is read as a value if its outline is, and nothing is left over. -/
theorem parse?_eq_some {s : String} {v : Json} :
    parse? s = some v ↔
      (Outline.ofText s).root.json? .document = some v ∧ (Outline.ofText s).isWhole = true := by
  unfold parse?
  dsimp only
  cases (Outline.ofText s).root.json? .document with
  | none => simp
  | some w => simp [and_comm]

end CompositionFunction.Json
