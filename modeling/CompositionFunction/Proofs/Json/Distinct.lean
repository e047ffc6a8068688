import CompositionFunction.Proofs.Json.Rendering

/-!
# Texts without repeated names

A text and the value that it is read as have the same shape. If no object of the text repeats a
name, the members of the two correspond by name, although they may stand in another order.

* `Reads` : how the tree of a text and the value that it is read as correspond.
* `rel_members`, `rel_items` : their parts correspond.
-/

set_option autoImplicit false

namespace CompositionFunction.Json

namespace Tree

mutual

/-- No object repeats a name. -/
def hasDistinctNames : Tree → Bool
  | .array items => haveDistinctNames items
  | .object members _ => decide (members.map Prod.fst).Nodup && haveDistinctValues members
  | _ => true
termination_by structural t => t

/-- No object in some items repeats a name. -/
def haveDistinctNames : List Tree → Bool
  | [] => true
  | t :: ts => t.hasDistinctNames && haveDistinctNames ts
termination_by structural ts => ts

/-- No object in the values of some members repeats a name. -/
def haveDistinctValues : List (Option String × Tree) → Bool
  | [] => true
  | (_, t) :: ms => t.hasDistinctNames && haveDistinctValues ms
termination_by structural ms => ms

end

theorem haveDistinctNames_iff {ts : List Tree} :
    haveDistinctNames ts = true ↔ ∀ t ∈ ts, t.hasDistinctNames = true := by
  induction ts with
  | nil => simp [haveDistinctNames]
  | cons t ts ih => rw [haveDistinctNames, Bool.and_eq_true, ih, List.forall_mem_cons]

theorem haveDistinctValues_iff {ms : List (String × Tree)} :
    haveDistinctValues (named ms) = true ↔ ∀ m ∈ ms, m.2.hasDistinctNames = true := by
  induction ms with
  | nil => simp [named, haveDistinctValues]
  | cons m ms ih =>
    rw [List.forall_mem_cons, ← ih, ← Bool.and_eq_true]
    rfl

theorem hasDistinctNames_object {ms : List (String × Tree)} {ending : Ending} :
    (Tree.object (named ms) ending).hasDistinctNames = true ↔
      (ms.map Prod.fst).Nodup ∧ ∀ m ∈ ms, m.2.hasDistinctNames = true := by
  have hnames : (named ms).map Prod.fst = (ms.map Prod.fst).map some := by
    rw [named, List.map_map, List.map_map]
    rfl
  rw [hasDistinctNames, Bool.and_eq_true, decide_eq_true_iff, haveDistinctValues_iff, hnames,
    List.Nodup, List.pairwise_map]
  simp only [ne_eq, Option.some.injEq, List.Nodup]

/-! ## A tree and its value -/

/-- A tree and the value that it is read as, part by part. -/
inductive Reads (source : Source) : Tree → Json → Prop where
  | null : Reads source .null .null
  | bool (b : Bool) : Reads source (.bool b) (.bool b)
  | number (n : Number) : Reads source (.number (some n)) (.number n)
  | text (s : String) : Reads source (.text (some s)) (.text s)
  | array {inner : Source} {ts : List Tree} {vs : List Json} (enter : source.enter? = some inner)
      (items : jsonItems? inner ts = some vs) : Reads source (.array ts) (.array vs)
  | object {inner : Source} {ms : List (String × Tree)} {entries : JsonObject}
      (enter : source.enter? = some inner)
      (members : jsonMembers? inner .empty (named ms) = some entries)
      (readable : ∀ m ∈ ms, ∃ v, m.2.json? inner = some v) :
      Reads source (.object (named ms) .closed) (.object entries)

theorem reads_of_json? {source : Source} {t : Tree} {v : Json} (h : t.json? source = some v) :
    Reads source t v := by
  cases t with
  | null => cases h; exact .null
  | bool b => cases h; exact .bool b
  | number n =>
    obtain ⟨x, rfl, rfl⟩ := Option.map_eq_some_iff.1 h
    exact .number x
  | text s =>
    obtain ⟨x, rfl, rfl⟩ := Option.map_eq_some_iff.1 h
    exact .text x
  | array ts =>
    obtain ⟨inner, vs, henter, hvs, rfl⟩ := json?_array h
    exact .array henter hvs
  | object members ending =>
    obtain ⟨inner, ms, entries, henter, rfl, rfl, hentries, hread, rfl⟩ := json?_object h
    exact .object henter hentries hread
  | broken => cases h

/-- The value is read as null exactly where the text is. -/
theorem Reads.eq_null {source : Source} {t : Tree} {v : Json} (h : Reads source t v) :
    t = .null ↔ v.tree = .null := by
  cases h with
  | null => exact ⟨fun _ => rfl, fun _ => rfl⟩
  | array _ _ => rw [tree_array]; exact ⟨nofun, nofun⟩
  | object _ _ _ => rw [tree_object]; exact ⟨nofun, nofun⟩
  | _ => exact ⟨nofun, nofun⟩

theorem Reads.eq_text {source : Source} {t : Tree} {v : Json} {s : String} (h : Reads source t v) :
    t = .text (some s) ↔ v.tree = .text (some s) := by
  cases h with
  | text x => exact Iff.rfl
  | array _ _ => rw [tree_array]; exact ⟨nofun, nofun⟩
  | object _ _ _ => rw [tree_object]; exact ⟨nofun, nofun⟩
  | _ => exact ⟨nofun, nofun⟩

end Tree

/-! ## Where the depth is not limited -/

theorem Source.admits_of_free {free : Source} (h : free.enter? = some free) (n : Nat) :
    free.Admits n := by
  cases free with
  | text levels =>
    cases levels with
    | zero => cases h
    | succ levels => simp [Source.enter?] at h
  | value => trivial
  | setAside => trivial

/-- Without a limit, the tree of a value is read as that value. -/
theorem json?_valueTree {free : Source} (h : free.enter? = some free) (v : Json) :
    v.tree.json? free = some v := by
  have hread := json?_tree v.document (Source.admits_of_free h v.document.depth)
  rw [Document.value_document] at hread
  exact hread

theorem isGrammatical_valueTree (v : Json) : v.tree.isGrammatical = true := by
  have hfree : Source.value.enter? = some .value := rfl
  exact Tree.isGrammatical_of_json? v.tree (json?_valueTree hfree v)

/-! ## Corresponding parts -/

/-- A part of a text and the part of the value that it is read as: both are there, or neither. -/
def Corresponds (source : Source) (found found' : Option Tree) : Prop :=
  match found with
  | none => found' = none
  | some t => ∃ v : Json, found' = some v.tree ∧ t.json? source = some v ∧
    t.hasDistinctNames = true

/-- The members of an object correspond by name. -/
theorem rel_members {inner : Source} {ms : List (String × Tree)} {entries : JsonObject}
    (hdistinct : (ms.map Prod.fst).Nodup) (hvalues : ∀ m ∈ ms, m.2.hasDistinctNames = true)
    (h : Tree.jsonMembers? inner .empty (named ms) = some entries) (k : String) :
    Corresponds inner (ms.lookup k)
      ((entries.toList.map fun e => (e.1, Json.tree e.2)).lookup k) := by
  rw [lookup_tree]
  rcases Tree.rel_jsonMembers? k hdistinct h with ⟨t, v, ht, hv, hread⟩ | ⟨ht, hv⟩
  · rw [ht, hv]
    exact ⟨v, rfl, hread, hvalues (k, t) (mem_of_lookup ht)⟩
  · rw [ht, hv]
    exact rfl

/-- The items of an array correspond by the names that they are given in order. -/
theorem rel_items {inner : Source} (k : String) : ∀ {names : List String} {ts : List Tree}
    {vs : List Json}, (∀ t ∈ ts, t.hasDistinctNames = true) →
      Tree.jsonItems? inner ts = some vs →
        Corresponds inner ((names.zip ts).lookup k) ((names.zip (vs.map Json.tree)).lookup k)
  | [], _, _, _, _ => rfl
  | _ :: _, [], vs, _, h => by
    cases h
    exact rfl
  | name :: names, t :: ts, vs, hdistinct, h => by
    rw [Tree.jsonItems?] at h
    split at h
    · cases h
    rename_i v hv
    obtain ⟨us, hus, rfl⟩ := Option.map_eq_some_iff.1 h
    rw [List.map_cons, List.zip_cons_cons, List.zip_cons_cons, lookup_cons_if, lookup_cons_if]
    by_cases hk : k = name
    · rw [if_pos hk, if_pos hk]
      exact ⟨v, rfl, hv, hdistinct t List.mem_cons_self⟩
    · rw [if_neg hk, if_neg hk]
      exact rel_items k (fun t ht => hdistinct t (List.mem_cons_of_mem _ ht)) hus

theorem length_jsonItems? {inner : Source} {ts : List Tree} : ∀ {vs : List Json},
    Tree.jsonItems? inner ts = some vs → vs.length = ts.length := by
  induction ts with
  | nil =>
    intro vs h
    cases h
    rfl
  | cons t ts ih =>
    intro vs h
    rw [Tree.jsonItems?] at h
    split at h
    · cases h
    obtain ⟨us, hus, rfl⟩ := Option.map_eq_some_iff.1 h
    rw [List.length_cons, List.length_cons, ih hus]

end CompositionFunction.Json
