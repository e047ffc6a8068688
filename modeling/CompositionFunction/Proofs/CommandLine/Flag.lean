import CompositionFunction.CommandLine.Flag
import CompositionFunction.Proofs.GroupVersionKind

/-!
# How flags state requirements

A requirement is written as its ID, an equals sign, an `apiVersion`, a colon, a kind, and perhaps a
colon and what it selects. A part ends at the first separator that can end it, so a text is written in
one way at most, and later parts may have separators in them.

* `RequirementText` : the parts of a requirement as they are written.
* `RequirementText.Writes.unique` : a text is written in one way at most.
* `named_requirement_unambiguous` : which flags select by name, and what they say.
-/

set_option autoImplicit false

namespace CompositionFunction.CommandLine

open Text

variable {raw : String}

/-! ## Cutting a text in two -/

theorem cut_eq_some_iff {sep : Char} {s a b : String} :
    cut sep s = some (a, b) ↔ s.toList = a.toList ++ sep :: b.toList ∧ sep ∉ a.toList := by
  unfold cut
  rw [Option.map_eq_some_iff]
  constructor
  · rintro ⟨⟨x, y⟩, hsplit, hparts⟩
    obtain ⟨rfl, rfl⟩ := Prod.mk.inj hparts
    simpa using splitFirst_eq_some_iff.1 hsplit
  · intro h
    exact ⟨(a.toList, b.toList), splitFirst_eq_some_iff.2 h, by simp⟩

theorem cut_eq_none_iff {sep : Char} {s : String} : cut sep s = none ↔ sep ∉ s.toList := by
  unfold cut
  rw [Option.map_eq_none_iff, splitFirst_eq_none_iff]

/-! ## The parts of a requirement -/

/-- The parts of a requirement as they are written. -/
structure RequirementText where
  id : String
  apiVersion : String
  kind : String
  /-- What follows the kind and a colon, if anything does. -/
  selection : Option String

namespace RequirementText

variable {p q : RequirementText}

/-- What stands behind the equals sign. -/
def rest (p : RequirementText) : String :=
  match p.selection with
  | none => p.apiVersion ++ ":" ++ p.kind
  | some selection => p.apiVersion ++ ":" ++ p.kind ++ ":" ++ selection

/-- The parts in a row, with the separators between them. -/
def text (p : RequirementText) : String := p.id ++ "=" ++ p.rest

theorem colon_mem_rest (p : RequirementText) : ':' ∈ p.rest.toList := by
  unfold rest
  cases p.selection <;> simp

/-- `p.Writes raw`: the text is written with these parts, none of which has the separator in it that
ends it. -/
structure Writes (p : RequirementText) (raw : String) : Prop where
  text_eq : raw = p.text
  id_plain : '=' ∉ p.id.toList
  apiVersion_plain : ':' ∉ p.apiVersion.toList
  kind_plain : ':' ∉ p.kind.toList

/-- The parts that a text is written with. -/
def ofText? (raw : String) : Option RequirementText := do
  let (id, rest) ← cut '=' raw
  let (apiVersion, rest) ← cut ':' rest
  match cut ':' rest with
  | none => some ⟨id, apiVersion, rest, none⟩
  | some (kind, selection) => some ⟨id, apiVersion, kind, some selection⟩

theorem writes_of_ofText? (h : ofText? raw = some p) : p.Writes raw := by
  unfold ofText? at h
  obtain ⟨⟨id, rest⟩, hid, h⟩ := Option.bind_eq_some_iff.1 h
  obtain ⟨⟨apiVersion, last⟩, hversion, h⟩ := Option.bind_eq_some_iff.1 h
  obtain ⟨hraw, hid⟩ := cut_eq_some_iff.1 hid
  obtain ⟨hrest, hversion⟩ := cut_eq_some_iff.1 hversion
  dsimp only at h
  split at h
  · rename_i hkind
    cases h
    refine ⟨?_, hid, hversion, cut_eq_none_iff.1 hkind⟩
    rw [← String.toList_inj, hraw, hrest]
    simp [text, RequirementText.rest]
  · rename_i kind selection hkind
    cases h
    obtain ⟨hlast, hkind⟩ := cut_eq_some_iff.1 hkind
    refine ⟨?_, hid, hversion, hkind⟩
    rw [← String.toList_inj, hraw, hrest, hlast]
    simp [text, RequirementText.rest]

theorem Writes.ofText?_eq (h : p.Writes raw) : ofText? raw = some p := by
  obtain ⟨id, apiVersion, kind, selection⟩ := p
  obtain ⟨rfl, hid, hversion, hkind⟩ := h
  have hraw : ∀ rest, cut '=' (id ++ "=" ++ rest) = some (id, rest) := fun rest =>
    cut_eq_some_iff.2 ⟨by simp, hid⟩
  have hrest : ∀ last, cut ':' (apiVersion ++ ":" ++ last) = some (apiVersion, last) := fun last =>
    cut_eq_some_iff.2 ⟨by simp, hversion⟩
  cases selection with
  | none => simp [ofText?, text, rest, hraw, hrest, cut_eq_none_iff.2 hkind]
  | some selection =>
    have hlast : cut ':' (kind ++ ":" ++ selection) = some (kind, selection) :=
      cut_eq_some_iff.2 ⟨by simp, hkind⟩
    have hparts : apiVersion ++ ":" ++ kind ++ ":" ++ selection =
        apiVersion ++ ":" ++ (kind ++ ":" ++ selection) := by simp [String.append_assoc]
    simp [ofText?, text, rest, hraw, hparts, hrest, hlast]

/-- The parts that are found are those that the text is written with. -/
theorem ofText?_eq_some_iff : ofText? raw = some p ↔ p.Writes raw :=
  ⟨writes_of_ofText?, Writes.ofText?_eq⟩

/-- A text is written in one way at most. -/
theorem Writes.unique (hp : p.Writes raw) (hq : q.Writes raw) : p = q :=
  Option.some.inj (hp.ofText?_eq.symm.trans hq.ofText?_eq)

end RequirementText

theorem requirementParts?_eq (raw : String) :
    requirementParts? raw = (RequirementText.ofText? raw).map fun p =>
      (p.id, .ofApiVersion p.apiVersion p.kind, p.selection) := by
  unfold requirementParts? RequirementText.ofText?
  cases cut '=' raw with
  | none => rfl
  | some first =>
    obtain ⟨id, rest⟩ := first
    show (cut ':' rest).bind _ = ((cut ':' rest).bind _).map _
    cases cut ':' rest with
    | none => rfl
    | some second =>
      obtain ⟨apiVersion, rest⟩ := second
      dsimp only [Option.bind_some]
      cases cut ':' rest <;> rfl

/-- The parts of a flag that states a requirement. -/
theorem requirementParts?_eq_some_iff {id : String} {gvk : GroupVersionKind}
    {selection : Option String} :
    requirementParts? raw = some (id, gvk, selection) ↔
      ∃ apiVersion kind, (RequirementText.mk id apiVersion kind selection).Writes raw ∧
        gvk.IsStatedBy apiVersion kind := by
  rw [requirementParts?_eq, Option.map_eq_some_iff]
  constructor
  · rintro ⟨⟨id, apiVersion, kind, selection⟩, hparts, heq⟩
    cases heq
    exact ⟨apiVersion, kind, RequirementText.ofText?_eq_some_iff.1 hparts,
      GroupVersionKind.isStatedBy_ofApiVersion apiVersion kind⟩
  · rintro ⟨apiVersion, kind, hwrites, hstated⟩
    exact ⟨_, RequirementText.ofText?_eq_some_iff.2 hwrites, by rw [hstated.ofApiVersion_eq]⟩

/-! ## Selection by name -/

/-- What a flag that selects by name says. -/
theorem namedRequirement_eq_ok {id name : String} {gvk : GroupVersionKind} :
    namedRequirement raw = .ok (id, gvk, name) ↔
      ∃ apiVersion kind, (RequirementText.mk id apiVersion kind (some name)).Writes raw ∧
        gvk.IsStatedBy apiVersion kind := by
  rw [← requirementParts?_eq_some_iff]
  unfold namedRequirement
  split
  · rename_i hparts
    simp [hparts]
  · rename_i hother
    refine ⟨nofun, fun h => absurd h (hother id gvk name)⟩

/-- There is one complaint only. -/
theorem namedRequirement_eq_error (h : ¬ ∃ result, namedRequirement raw = .ok result) :
    namedRequirement raw = .error (.requireName raw) := by
  unfold namedRequirement at h ⊢
  split
  · rename_i hparts
    simp [hparts] at h
  · rfl

/-- An `apiVersion` has no other characters than its parts and a slash. -/
theorem colon_notMem_apiVersion {gvk : GroupVersionKind} (hgroup : ':' ∉ gvk.group.toList)
    (hversion : ':' ∉ gvk.version.toList) : ':' ∉ gvk.apiVersion.toList := by
  unfold GroupVersionKind.apiVersion
  split
  · exact hversion
  · simp [hgroup, hversion]

/-- **A flag that selects by name is read in one way only.** It is read exactly if it can be written
as `ID=APIVERSION:KIND:NAME`, where the parts before the name have no separator in them that ends
them, and there is one way to do so at most. A kind without colons is read back from its own
`apiVersion`, whatever the name is, if its version has no slash. -/
theorem named_requirement_unambiguous :
    (∀ raw, (∃ result, namedRequirement raw = .ok result) ↔
      ∃ id apiVersion kind name, (RequirementText.mk id apiVersion kind (some name)).Writes raw) ∧
    (∀ raw (p q : RequirementText), p.Writes raw → q.Writes raw → p = q) ∧
    (∀ raw id apiVersion kind name,
      (RequirementText.mk id apiVersion kind (some name)).Writes raw →
        ∃ gvk : GroupVersionKind, namedRequirement raw = .ok (id, gvk, name) ∧
          gvk.IsStatedBy apiVersion kind) ∧
    (∀ raw, (¬ ∃ id apiVersion kind name,
        (RequirementText.mk id apiVersion kind (some name)).Writes raw) →
      (namedRequirement raw).mapError FlagFault.error =
        .error (.parse ("requirement " ++ quoted raw ++ " must be ID=APIVERSION:KIND:NAME"))) ∧
    ∀ (id name : String) (gvk : GroupVersionKind), '=' ∉ id.toList → ':' ∉ gvk.group.toList →
      ':' ∉ gvk.version.toList → ':' ∉ gvk.kind.toList → '/' ∉ gvk.version.toList →
        namedRequirement (id ++ "=" ++ gvk.apiVersion ++ ":" ++ gvk.kind ++ ":" ++ name) =
          .ok (id, gvk, name) := by
  have hread : ∀ raw, (∃ result, namedRequirement raw = .ok result) ↔
      ∃ id apiVersion kind name,
        (RequirementText.mk id apiVersion kind (some name)).Writes raw := by
    intro raw
    constructor
    · rintro ⟨⟨id, gvk, name⟩, h⟩
      obtain ⟨apiVersion, kind, hwrites, _⟩ := namedRequirement_eq_ok.1 h
      exact ⟨id, apiVersion, kind, name, hwrites⟩
    · rintro ⟨id, apiVersion, kind, name, hwrites⟩
      exact ⟨_, namedRequirement_eq_ok.2 ⟨apiVersion, kind, hwrites,
        GroupVersionKind.isStatedBy_ofApiVersion apiVersion kind⟩⟩
  refine ⟨hread, fun raw p q hp hq => hp.unique hq, ?_, ?_, ?_⟩
  · intro raw id apiVersion kind name hwrites
    have hstated := GroupVersionKind.isStatedBy_ofApiVersion apiVersion kind
    exact ⟨_, namedRequirement_eq_ok.2 ⟨apiVersion, kind, hwrites, hstated⟩, hstated⟩
  · intro raw hnone
    rw [namedRequirement_eq_error (mt (hread raw).1 hnone)]
    rfl
  · intro id name gvk hid hgroup hversion hkind hslash
    exact namedRequirement_eq_ok.2 ⟨gvk.apiVersion, gvk.kind,
      ⟨by simp [RequirementText.text, RequirementText.rest, String.append_assoc], hid,
        colon_notMem_apiVersion hgroup hversion, hkind⟩,
      GroupVersionKind.isStatedBy_apiVersion hslash⟩

/-- A group with a slash and a name with both separators are read back; without a name there is
nothing to read. -/
theorem separators_in_name_read_back :
    let gvk : GroupVersionKind := ⟨"a/b", "v1", "K"⟩
    namedRequirement "id=a/b/v1:K:x:y=z" = .ok ("id", gvk, "x:y=z") ∧
    (∀ p : RequirementText, p.Writes "id=a/b/v1:K:x:y=z" →
      p = ⟨"id", "a/b/v1", "K", some "x:y=z"⟩) ∧
    (∃ read, namedRequirement "id=a/b/v1:K:x:y=z" = .ok ("id", read, "x:y=z") ∧
      read.IsStatedBy "a/b/v1" "K") ∧
    (namedRequirement "id=v1:K").mapError FlagFault.error =
      .error (.parse ("requirement " ++ quoted "id=v1:K" ++ " must be ID=APIVERSION:KIND:NAME")) := by
  intro gvk
  obtain ⟨_, hunique, hparts, herror, hback⟩ := named_requirement_unambiguous
  have hwrites : (RequirementText.mk "id" "a/b/v1" "K" (some "x:y=z")).Writes
      "id=a/b/v1:K:x:y=z" := ⟨rfl, by decide, by decide, by decide⟩
  have hunnamed : (RequirementText.mk "id" "v1" "K" none).Writes "id=v1:K" :=
    ⟨rfl, by decide, by decide, by decide⟩
  refine ⟨?_, fun p hp => hunique _ p _ hp hwrites, hparts _ _ _ _ _ hwrites, herror _ ?_⟩
  · exact hback "id" "x:y=z" gvk (by decide) (by decide) (by decide) (by decide) (by decide)
  · rintro ⟨id, apiVersion, kind, name, hnamed⟩
    cases hunique _ _ _ hnamed hunnamed

end CompositionFunction.CommandLine
