import CompositionFunction.Proofs.CommandLine.Flag
import CompositionFunction.Proofs.LastWrite
import CompositionFunction.Proofs.Outcome
import CompositionFunction.Proofs.Text.Split

/-!
# How flags list labels

Behind its second colon a requirement may list labels, with commas between them. Nothing between two
commas is no label; every other piece must have an equals sign, and the first one ends the key.

* `ListsLabels` : a text is a list of labels.
* `labelList?_labelText` : the labels of a list that was written.
* `labelled_requirement_grammar` : which flags select by labels, and what they say.
-/

set_option autoImplicit false

namespace CompositionFunction.CommandLine

open Text

variable {raw : String}

/-! ## Lists of labels -/

/-- Between the commas, each piece that is not empty has an equals sign. -/
def ListsLabels (s : String) : Prop :=
  ∀ piece, IsPiece ',' piece s.toList → piece ≠ [] → '=' ∈ piece

/-- A text is read as labels if it lists some. -/
theorem exists_labelList?_iff {s : String} :
    (∃ labels, labelList? s = some labels) ↔ ListsLabels s := by
  let pieces := (splitAll ',' s.toList).filter fun piece => !piece.isEmpty
  let label (piece : List Char) : Option (String × String) :=
    (splitFirst '=' piece).map fun p => (String.ofList p.1, String.ofList p.2)
  have hread : (∃ labels, labelList? s = some labels) ↔ ∃ es, pieces.mapM label = some es := by
    constructor
    · rintro ⟨labels, h⟩
      obtain ⟨es, hes, _⟩ := Option.map_eq_some_iff.1 h
      exact ⟨es, hes⟩
    · rintro ⟨es, hes⟩
      exact ⟨StringMap.ofList es, Option.map_eq_some_iff.2 ⟨es, hes, rfl⟩⟩
  have hlabel : ∀ piece, (∃ e, label piece = some e) ↔ '=' ∈ piece := by
    intro piece
    rw [← Option.isSome_iff_exists, Option.isSome_map, Option.isSome_iff_ne_none, Ne,
      splitFirst_eq_none_iff, Decidable.not_not]
  rw [hread, exists_mapM_iff]
  constructor
  · intro h piece hpiece hne
    have hmem : piece ∈ pieces :=
      List.mem_filter.2 ⟨mem_splitAll_iff.2 hpiece, by simpa using hne⟩
    exact (hlabel piece).1 (h piece hmem)
  · intro h piece hmem
    obtain ⟨hpiece, hne⟩ := List.mem_filter.1 hmem
    exact (hlabel piece).2 (h piece (mem_splitAll_iff.1 hpiece) (by simpa using hne))

/-- The text of a list of labels. -/
def labelText (es : List (String × String)) : String :=
  ",".intercalate (es.map fun e => e.1 ++ "=" ++ e.2)

/-- The key of a label can be told from its value, and the label from others. -/
structure IsLabel (e : String × String) : Prop where
  equals_notMem : '=' ∉ e.1.toList
  comma_notMem_key : ',' ∉ e.1.toList
  comma_notMem_value : ',' ∉ e.2.toList

instance (e : String × String) : Decidable (IsLabel e) :=
  decidable_of_iff ('=' ∉ e.1.toList ∧ ',' ∉ e.1.toList ∧ ',' ∉ e.2.toList)
    ⟨fun ⟨equals, key, value⟩ => ⟨equals, key, value⟩,
      fun ⟨equals, key, value⟩ => ⟨equals, key, value⟩⟩

/-- The pieces of the text of a list are its labels. -/
theorem pieces_labelText {es : List (String × String)} (h : ∀ e ∈ es, IsLabel e) :
    ((splitAll ',' (labelText es).toList).filter fun piece => !piece.isEmpty) =
      es.map fun e => e.1.toList ++ '=' :: e.2.toList := by
  have htext : (labelText es).toList =
      [','].intercalate (es.map fun e => e.1.toList ++ '=' :: e.2.toList) := by
    unfold labelText
    rw [String.toList_intercalate, List.map_map]
    congr 2
    funext e
    simp
  rw [htext]
  by_cases hes : es = []
  · subst hes
    rfl
  · rw [splitAll_intercalate (by simpa using hes), List.filter_eq_self]
    · intro piece hpiece
      obtain ⟨e, _, rfl⟩ := List.mem_map.1 hpiece
      simp
    · intro piece hpiece
      obtain ⟨e, he, rfl⟩ := List.mem_map.1 hpiece
      simp [(h e he).comma_notMem_key, (h e he).comma_notMem_value]

/-- The labels of a list that was written are read back, the last one of each key. -/
theorem labelList?_labelText {es : List (String × String)} (h : ∀ e ∈ es, IsLabel e) :
    labelList? (labelText es) = some (StringMap.ofList es) := by
  unfold labelList?
  dsimp only
  rw [pieces_labelText h, mapM_map_eq_some]
  · rfl
  · intro e he
    rw [splitFirst_eq_some_iff.2 ⟨rfl, (h e he).equals_notMem⟩]
    simp

/-! ## Selection by labels -/

/-- What a flag that selects by labels says. -/
theorem labelledRequirement_eq_ok {id : String} {gvk : GroupVersionKind}
    {labels : StringMap String} :
    labelledRequirement raw = .ok (id, gvk, labels) ↔
      ∃ selection, (∃ apiVersion kind,
        (RequirementText.mk id apiVersion kind selection).Writes raw ∧
          gvk.IsStatedBy apiVersion kind) ∧ labelList? (selection.getD "") = some labels := by
  simp only [← requirementParts?_eq_some_iff]
  unfold labelledRequirement
  cases hparts : requirementParts? raw with
  | none => simp
  | some parts =>
    obtain ⟨id, gvk, selection⟩ := parts
    dsimp only
    cases hlabels : labelList? (selection.getD "") with
    | none =>
      refine ⟨nofun, ?_⟩
      rintro ⟨_, heq, h⟩
      cases heq
      rw [hlabels] at h
      cases h
    | some labels =>
      constructor
      · intro h
        cases h
        exact ⟨selection, rfl, hlabels⟩
      · rintro ⟨_, heq, h⟩
        cases heq
        rw [hlabels] at h
        cases h
        rfl

/-- There is one complaint only. -/
theorem labelledRequirement_eq_error (h : ¬ ∃ result, labelledRequirement raw = .ok result) :
    labelledRequirement raw = .error (.requireLabels raw) := by
  unfold labelledRequirement at h ⊢
  split
  · rfl
  · rename_i hparts
    split
    · rename_i hlabels
      simp [hparts, hlabels] at h
    · rfl

/-- The text has an equals sign, a colon behind the first one, and a list of labels behind the
second colon, if there is one. -/
def StatesLabels (raw : String) : Prop :=
  ∃ id rest, raw = id ++ "=" ++ rest ∧ '=' ∉ id.toList ∧ ':' ∈ rest.toList ∧
    ∀ apiVersion kind list, rest = apiVersion ++ ":" ++ kind ++ ":" ++ list →
      ':' ∉ apiVersion.toList → ':' ∉ kind.toList → ListsLabels list

theorem listsLabels_empty : ListsLabels "" := by
  intro piece hpiece hne
  have hmem : piece ∈ splitAll ',' [] := mem_splitAll_iff.2 hpiece
  exact absurd (List.mem_singleton.1 hmem) hne

/-- The text is that of a requirement that lists labels, if it selects anything. -/
theorem statesLabels_iff :
    StatesLabels raw ↔ ∃ p : RequirementText, p.Writes raw ∧ ListsLabels (p.selection.getD "") := by
  constructor
  · rintro ⟨id, rest, rfl, hid, hcolon, hlist⟩
    cases hcut : cut ':' rest with
    | none => exact absurd hcolon (cut_eq_none_iff.1 hcut)
    | some parts =>
      obtain ⟨apiVersion, last⟩ := parts
      obtain ⟨hrest, hversion⟩ := cut_eq_some_iff.1 hcut
      cases hcut : cut ':' last with
      | none =>
        have hparts : rest = apiVersion ++ ":" ++ last := by
          rw [← String.toList_inj, hrest]
          simp
        exact ⟨⟨id, apiVersion, last, none⟩,
          ⟨congrArg (id ++ "=" ++ ·) hparts, hid, hversion, cut_eq_none_iff.1 hcut⟩,
          listsLabels_empty⟩
      | some parts =>
        obtain ⟨kind, list⟩ := parts
        obtain ⟨hlast, hkind⟩ := cut_eq_some_iff.1 hcut
        have hparts : rest = apiVersion ++ ":" ++ kind ++ ":" ++ list := by
          rw [← String.toList_inj, hrest, hlast]
          simp
        exact ⟨⟨id, apiVersion, kind, some list⟩,
          ⟨congrArg (id ++ "=" ++ ·) hparts, hid, hversion, hkind⟩,
          hlist apiVersion kind list hparts hversion hkind⟩
  · rintro ⟨p, hwrites, hlabels⟩
    refine ⟨p.id, p.rest, hwrites.text_eq, hwrites.id_plain, p.colon_mem_rest, ?_⟩
    intro apiVersion kind list hrest hversion hkind
    have hparts : (RequirementText.mk p.id apiVersion kind (some list)).Writes raw :=
      ⟨hwrites.text_eq.trans (congrArg (p.id ++ "=" ++ ·) hrest), hwrites.id_plain, hversion, hkind⟩
    rw [← hparts.unique hwrites] at hlabels
    exact hlabels

theorem exists_labelledRequirement_iff :
    (∃ result, labelledRequirement raw = .ok result) ↔ StatesLabels raw := by
  rw [statesLabels_iff]
  constructor
  · rintro ⟨⟨id, gvk, labels⟩, h⟩
    obtain ⟨selection, ⟨apiVersion, kind, hwrites, _⟩, hlabels⟩ := labelledRequirement_eq_ok.1 h
    exact ⟨_, hwrites, exists_labelList?_iff.1 ⟨labels, hlabels⟩⟩
  · rintro ⟨⟨id, apiVersion, kind, selection⟩, hwrites, hlist⟩
    obtain ⟨labels, hlabels⟩ := exists_labelList?_iff.2 hlist
    exact ⟨(id, _, labels), labelledRequirement_eq_ok.2 ⟨selection, ⟨apiVersion, kind, hwrites,
      GroupVersionKind.isStatedBy_ofApiVersion apiVersion kind⟩, hlabels⟩⟩

/-- **What a flag that selects by labels is.** It is read exactly if it is written as
`ID=APIVERSION:KIND` or as `ID=APIVERSION:KIND:LIST` with a list of labels. Labels that can be told
from each other are read back as they were listed, in whatever order, and the last one of a key
counts. -/
theorem labelled_requirement_grammar :
    (∀ raw, (∃ result, labelledRequirement raw = .ok result) ↔ StatesLabels raw) ∧
    (∀ raw, ¬ StatesLabels raw →
      (labelledRequirement raw).mapError FlagFault.error =
        .error (.parse ("requirement " ++ quoted raw ++ " must be ID=APIVERSION:KIND[:K=V,...]"))) ∧
    ∀ (id apiVersion kind : String) (es : List (String × String)), '=' ∉ id.toList →
      ':' ∉ apiVersion.toList → ':' ∉ kind.toList → (∀ e ∈ es, IsLabel e) →
        ∃ (gvk : GroupVersionKind) (labels : StringMap String),
          labelledRequirement
              (id ++ "=" ++ apiVersion ++ ":" ++ kind ++ ":" ++ labelText es) =
            .ok (id, gvk, labels) ∧
          gvk.IsStatedBy apiVersion kind ∧
          (∀ key, labels.find? key = lastAt? key es) ∧
          ∀ m : StringMap String, es.Perm m.toList → labels = m := by
  refine ⟨fun raw => exists_labelledRequirement_iff, fun raw h => ?_, ?_⟩
  · rw [labelledRequirement_eq_error (mt exists_labelledRequirement_iff.1 h)]
    rfl
  · intro id apiVersion kind es hid hversion hkind hes
    have hstated := GroupVersionKind.isStatedBy_ofApiVersion apiVersion kind
    have hwrites : (RequirementText.mk id apiVersion kind (some (labelText es))).Writes
        (id ++ "=" ++ apiVersion ++ ":" ++ kind ++ ":" ++ labelText es) :=
      ⟨by simp [RequirementText.text, RequirementText.rest, String.append_assoc], hid, hversion,
        hkind⟩
    have hread := labelledRequirement_eq_ok.2
      ⟨_, ⟨apiVersion, kind, hwrites, hstated⟩, labelList?_labelText hes⟩
    exact ⟨_, _, hread, hstated, fun key => StringMap.find?_ofList_last key es,
      fun m hperm => StringMap.ofList_of_perm hperm⟩

/-- Labels with separators in their values are read back from either order, of a key that is given
twice the last value counts, and a piece without an equals sign is no label. -/
theorem listed_labels_read_back :
    let m : StringMap String := StringMap.ofList [("a", "x:y=z"), ("b", "")]
    (∃ gvk, labelledRequirement "id=a/v1:K:b=,a=x:y=z" = .ok ("id", gvk, m)) ∧
    (∃ gvk labels, labelledRequirement "id=v1:K:a=x,a=y" = .ok ("id", gvk, labels) ∧
      labels.find? "a" = some "y") ∧
    (labelledRequirement "id=v1:K:a=x,b").mapError FlagFault.error =
      .error (.parse ("requirement " ++ quoted "id=v1:K:a=x,b" ++
        " must be ID=APIVERSION:KIND[:K=V,...]")) := by
  intro m
  obtain ⟨hread, herror, hback⟩ := labelled_requirement_grammar
  refine ⟨?_, ?_, herror _ ?_⟩
  · obtain ⟨gvk, labels, h, _, _, hperm⟩ := hback "id" "a/v1" "K" [("b", ""), ("a", "x:y=z")]
      (by decide) (by decide) (by decide) (by decide)
    obtain rfl : labels = m := hperm m (.swap _ _ [])
    exact ⟨gvk, h⟩
  · obtain ⟨gvk, labels, h, _, hlast, _⟩ := hback "id" "v1" "K" [("a", "x"), ("a", "y")]
      (by decide) (by decide) (by decide) (by decide)
    exact ⟨gvk, labels, h, (hlast "a").trans (by decide)⟩
  · intro h
    obtain ⟨result, hresult⟩ := (hread _).2 h
    have hrefused : labelledRequirement "id=v1:K:a=x,b" = .error (.requireLabels "id=v1:K:a=x,b") :=
      rfl
    rw [hrefused] at hresult
    cases hresult

end CompositionFunction.CommandLine
