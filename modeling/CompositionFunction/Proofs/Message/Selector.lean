import CompositionFunction.Proofs.Message.Lawful
import CompositionFunction.Proofs.Schema.NormalForm
import CompositionFunction.Proofs.Schema.Order

/-!
# The selection that a document states

A selector selects by name or by labels, and its document says which in a member beside the version
and the kind. But a document with both members, or with one of them twice, is accepted as well. Then
the first of them counts: in a text the one that is written first, in a value the labels. Such a
document selects something else once its members are reordered or once it is read from its value.

* `ResourceSelector.ofMembers_eq_ok` : which objects are read as which selector.
* `ResourceSelector.unambiguous_iff_choices_agree` : when every reading of a text is the same.
* `ResourceSelector.both_selections_accepted` : members that are read in different ways.
-/

set_option autoImplicit false

namespace CompositionFunction

open Json Schema

/-! ## Members that state a selection -/

/-- A member states the selection. -/
def Match.StatedBy (selection : Match) (m : String × Tree) : Prop :=
  match selection with
  | .byName name => m = ("matchName", .text (some name))
  | .byLabels labels =>
    m.1 = "matchLabels" ∧ MatchLabels.shape.ofTree .setAside m.2 = .ok labels

theorem Match.unionOfTree_eq_ok {m : String × Tree} (hm : m.1 = "matchName" ∨ m.1 = "matchLabels")
    {selection : Match} :
    unionOfTree "matchName" .text MatchLabels.shape m = .ok selection.toSum ↔
      selection.StatedBy m := by
  obtain ⟨name, t⟩ := m
  unfold unionOfTree
  rcases hm with rfl | rfl
  · rw [if_pos rfl, map_eq_ok]
    simp only [Shape.text_eq_ok]
    cases selection with
    | byName name => simp [toSum, StatedBy]
    | byLabels labels => simp [toSum, StatedBy]
  · rw [if_neg (by simp), map_eq_ok]
    cases selection with
    | byName name => simp [toSum, StatedBy]
    | byLabels labels => simp [toSum, StatedBy]

theorem Match.statedBy_name {selection : Match} {t : Tree} :
    selection.StatedBy ("matchName", t) ↔
      ∃ name, selection = .byName name ∧ t = .text (some name) := by
  cases selection <;> simp [StatedBy]

namespace ResourceSelector

/-- The members of an object that state a selection. -/
abbrev choices (ms : List (String × Tree)) : List (String × Tree) :=
  optionsAmong "matchName" "matchLabels" ms

/-- An object with these members, read as a selector. -/
def ofMembers (source : Source) (ms : List (String × Tree)) : Except Refusal ResourceSelector :=
  shape.ofTree source (.object (named ms) .closed)

/-- What is in the members of a selector: version and kind once, as strings, and a selection,
which the first of the members that state one decides. -/
structure ReadFrom (s : ResourceSelector) (ms : List (String × Tree)) : Prop where
  apiVersion : treesOf "apiVersion" ms = [.text (some s.apiVersion)]
  kind : treesOf "kind" ms = [.text (some s.kind)]
  selection : ∃ m, (choices ms).head? = some m ∧ s.selection.StatedBy m

/-! ## What is read -/

/-- The fields of a selector. -/
abbrev fields : Fields [String, String] :=
  .cons (.required "apiVersion" .text) (.cons (.required "kind" .text) .nil)

/-- The parts of a selector as they stand in documents. -/
abbrev parts : Shape (Row [String, String] × (String ⊕ MatchLabels)) :=
  .recordWith "ResourceSelector" fields "Match" "matchName" .text "matchLabels" MatchLabels.shape

/-- The parts of a selector. -/
def row (s : ResourceSelector) : Row [String, String] := (s.apiVersion, s.kind, ())

theorem nodup_names : ("matchName" :: "matchLabels" :: fields.names).Nodup := by decide

variable {source inner : Source} {ms : List (String × Tree)} {s : ResourceSelector}

theorem shape_eq_ok {t : Tree} :
    shape.ofTree source t = .ok s ↔ parts.ofTree source t = .ok (s.row, s.selection.toSum) := by
  refine Shape.refined_eq_ok.trans ?_
  constructor
  · rintro ⟨⟨⟨apiVersion, kind, ⟨⟩⟩, x⟩, h, hs⟩
    cases hs
    rw [h, row, Match.toSum_ofSum]
  · intro h
    refine ⟨_, h, ?_⟩
    exact congrArg (fun x => Except.ok (ResourceSelector.mk s.apiVersion s.kind x))
      (Match.ofSum_toSum s.selection)

theorem givenBy_required {name a : String} {trees : List Tree} :
    (Field.required name .text).GivenBy source none trees a ↔ trees = [.text (some a)] := by
  match trees with
  | [] => exact ⟨nofun, nofun⟩
  | [t] =>
    show Shape.text.ofTree source t = .ok a ↔ _
    rw [Shape.text_eq_ok, List.singleton_inj]
  | _ :: _ :: _ => exact ⟨nofun, nofun⟩

theorem fields_givenBy : fields.GivenBy inner ms fields.blank s.row ↔
    treesOf "apiVersion" ms = [.text (some s.apiVersion)] ∧
      treesOf "kind" ms = [.text (some s.kind)] :=
  and_congr givenBy_required ((and_congr_left' givenBy_required).trans (iff_of_eq (and_true _)))

theorem statedBy_of_head? {m : String × Tree} (h : (choices ms).head? = some m) :
    unionOfTree "matchName" .text MatchLabels.shape m = .ok s.selection.toSum ↔
      s.selection.StatedBy m :=
  Match.unionOfTree_eq_ok (of_decide_eq_true (List.mem_filter.1 (List.mem_of_head? h)).2)

/-- The fields of a selector can be read, so all its members can if the others can. -/
theorem ReadFrom.readable (h : s.ReadFrom ms)
    (hothers : ∀ m ∈ fields.others ms, ∃ v, m.2.json? inner = some v) :
    ∀ m ∈ ms, ∃ v, m.2.json? inner = some v := by
  rintro ⟨name, t⟩ hm
  have hfield : ∀ {a : String}, treesOf name ms = [.text (some a)] →
      ∃ v, t.json? inner = some v := by
    intro a htrees
    have ht := mem_treesOf.2 hm
    rw [htrees, List.mem_singleton] at ht
    exact ⟨.text a, ht ▸ rfl⟩
  by_cases hname : name ∈ fields.names
  · rcases List.mem_cons.1 hname with rfl | hname
    · exact hfield h.apiVersion
    · obtain rfl := List.mem_singleton.1 hname
      exact hfield h.kind
  · exact hothers (name, t) (List.mem_filter.2 ⟨hm, decide_eq_true hname⟩)

/-- **Which objects are read as which selector**: what else they hold only has to be readable. -/
theorem ofMembers_eq_ok : ofMembers source ms = .ok s ↔ s.ReadFrom ms ∧
    ∃ inner, source.enter? = some inner ∧ ∀ m ∈ ms, ∃ v, m.2.json? inner = some v := by
  rw [ofMembers, shape_eq_ok, Shape.recordWith_members nodup_names]
  constructor
  · rintro ⟨inner, henter, hgiven, hothers, m, hfirst, hunion⟩
    obtain ⟨hversion, hkind⟩ := fields_givenBy.1 hgiven
    have hread : s.ReadFrom ms := ⟨hversion, hkind, m, hfirst, (statedBy_of_head? hfirst).1 hunion⟩
    exact ⟨hread, inner, henter, hread.readable hothers⟩
  · rintro ⟨⟨hversion, hkind, m, hfirst, hstated⟩, inner, henter, hread⟩
    exact ⟨inner, henter, fields_givenBy.2 ⟨hversion, hkind⟩,
      fun n hn => hread n (List.mem_filter.1 hn).1, m, hfirst, (statedBy_of_head? hfirst).2 hstated⟩

/-! ## When all readings agree -/

theorem forall_choices_iff :
    (∀ m ∈ choices ms,
      unionOfTree "matchName" .text MatchLabels.shape m = .ok s.selection.toSum) ↔
      ∀ m ∈ choices ms, s.selection.StatedBy m :=
  forall₂_congr fun _ hm =>
    Match.unionOfTree_eq_ok (of_decide_eq_true (List.mem_filter.1 hm).2)

/-- The order of the members does not matter exactly if they all state the same selection. -/
theorem ofMembers_perm_iff (h : ofMembers source ms = .ok s) :
    (∀ ns, ms.Perm ns → ofMembers source ns = .ok s) ↔
      ∀ m ∈ choices ms, s.selection.StatedBy m := by
  rw [← forall_choices_iff, ← Shape.recordWith_perm_iff nodup_names (shape_eq_ok.1 h)]
  exact forall₂_congr fun _ _ => shape_eq_ok

/-- Members that all state the same selection are read alike from the value of the object. -/
theorem ofValue_of_ofMembers (h : ofMembers source ms = .ok s)
    (hall : ∀ m ∈ choices ms, s.selection.StatedBy m) :
    ∃ v, (Tree.object (named ms) .closed).json? source = some v ∧ shape.ofValue v = .ok s := by
  obtain ⟨_, inner, henter, hread⟩ := ofMembers_eq_ok.1 h
  obtain ⟨entries, hentries⟩ := Tree.exists_json?_object henter hread
  have hlabels : MatchLabels.shape.Follows := Shape.follows _ MatchLabels.shape_lawful rfl
  have hfields : fields.Follow := fields.follow ⟨trivial, trivial, trivial⟩ rfl
  refine ⟨.object entries, hentries, shape_eq_ok.2 ?_⟩
  exact Shape.recordWith_ofValue nodup_names hfields Shape.text_follows hlabels rfl hentries
    (shape_eq_ok.1 h) (forall_choices_iff.2 hall)

/-- A text that is read as a selector is an object. -/
theorem ofMembers_of_ofText {t : String} (h : shape.ofText t = .ok s) :
    ∃ ms, Outline.ofText t = ⟨.object (named ms) .closed, true⟩ ∧
      ofMembers .document ms = .ok s := by
  obtain ⟨hread, hwhole⟩ := Shape.ofText_eq_ok.1 h
  obtain ⟨ms, ending, hroot⟩ := Shape.recordWith_ok (shape_eq_ok.1 hread)
  rw [hroot] at hread
  obtain ⟨_, _, ⟨found, hfound, _⟩, _⟩ := Shape.recordWith_eq_ok.1 (shape_eq_ok.1 hread)
  obtain ⟨_, _, rfl⟩ := named_of_readMembers hfound
  exact ⟨ms, by rw [← hroot, ← hwhole], hread⟩

/-- A value that is read as a selector is an object. -/
theorem ofMembers_of_ofValue {v : Json} (h : shape.ofValue v = .ok s) :
    ∃ entries, v = .object entries ∧
      ofMembers .value (entries.toList.map fun e => (e.1, e.2.tree)) = .ok s := by
  obtain ⟨ms, ending, htree⟩ := Shape.recordWith_ok (shape_eq_ok.1 h)
  cases v with
  | object entries =>
    refine ⟨entries, rfl, ?_⟩
    rw [ofMembers, ← tree_object]
    exact h
  | _ => cases htree

/-- What the only tree of a name says of a value. -/
theorem find?_of_treesOf {entries : JsonObject} {name a : String}
    (h : treesOf name (entries.toList.map fun e => (e.1, e.2.tree)) = [.text (some a)]) :
    entries.find? name = some (.text a) := by
  have hmem : Tree.text (some a) ∈ treesOf name (entries.toList.map fun e => (e.1, e.2.tree)) :=
    h ▸ List.mem_singleton_self _
  obtain ⟨⟨k, v⟩, hv, he⟩ := List.mem_map.1 (mem_treesOf.1 hmem)
  obtain ⟨rfl, htree⟩ := Prod.mk.inj he
  obtain rfl : v = .text a := tree_injective htree
  exact Entries.mem_toList.1 hv

/-- **When a selector document is unambiguous.** A text that is accepted states version and kind
once, and at least one selection. All orders of its members and its value are read as the selector
that the text is read as exactly if all the members that state a selection state that one; a text
with a single one is such a text. A value that is accepted states version and kind, and if it holds
labels these are the selection, whatever name it holds beside them. -/
theorem unambiguous_iff_choices_agree (s : ResourceSelector) :
    (∀ t : String, shape.ofText t = .ok s →
      ∃ ms, Outline.ofText t = ⟨.object (named ms) .closed, true⟩ ∧ s.ReadFrom ms ∧
        (((∀ ns, ms.Perm ns → ofMembers .document ns = .ok s) ∧
            ∃ v, parse? t = some v ∧ shape.ofValue v = .ok s) ↔
          ∀ m ∈ choices ms, s.selection.StatedBy m)) ∧
    ∀ v : Json, shape.ofValue v = .ok s →
      ∃ entries, v = .object entries ∧ entries.find? "apiVersion" = some (.text s.apiVersion) ∧
        entries.find? "kind" = some (.text s.kind) ∧
        match entries.find? "matchLabels" with
        | some labels => s.selection.StatedBy ("matchLabels", labels.tree)
        | none => ∃ name, entries.find? "matchName" = some (.text name) ∧
            s.selection = .byName name := by
  refine ⟨fun t h => ?_, fun v h => ?_⟩
  · obtain ⟨ms, houtline, hmembers⟩ := ofMembers_of_ofText h
    refine ⟨ms, houtline, (ofMembers_eq_ok.1 hmembers).1, ?_⟩
    rw [ofMembers_perm_iff hmembers]
    refine ⟨fun hagree => hagree.1, fun hall => ⟨hall, ?_⟩⟩
    obtain ⟨v, hv, hvalue⟩ := ofValue_of_ofMembers hmembers hall
    exact ⟨v, parse?_eq_some.2 ⟨houtline ▸ hv, houtline ▸ rfl⟩, hvalue⟩
  · obtain ⟨entries, rfl, hmembers⟩ := ofMembers_of_ofValue h
    obtain ⟨⟨hversion, hkind, m, hfirst, hstated⟩, _⟩ := ofMembers_eq_ok.1 hmembers
    refine ⟨entries, rfl, find?_of_treesOf hversion, find?_of_treesOf hkind, ?_⟩
    rw [← firstNamed?_eq_head?, firstNamed?_toList (by decide)] at hfirst
    cases hlabels : entries.find? "matchLabels" with
    | some labels =>
      rw [hlabels] at hfirst
      cases hfirst
      exact hstated
    | none =>
      rw [hlabels] at hfirst
      obtain ⟨w, hw, rfl⟩ := Option.map_eq_some_iff.1 hfirst
      obtain ⟨name, hname, htree⟩ := Match.statedBy_name.1 hstated
      obtain rfl : w = .text name := tree_injective htree
      exact ⟨name, hw, hname⟩

/-- A document with one selection, before the kind and after a member that is no field. -/
theorem single_selection_unambiguous :
    let t := "\x7b\"other\":[],\"matchName\":\"n\",\"kind\":\"K\",\"apiVersion\":\"v1\"\x7d"
    let s : ResourceSelector := ⟨"v1", "K", .byName "n"⟩
    let ms := [("other", .array []), ("matchName", .text (some "n")), ("kind", .text (some "K")),
      ("apiVersion", .text (some "v1"))]
    shape.ofText t = .ok s ∧ (∀ ns, ms.Perm ns → ofMembers .document ns = .ok s) ∧
      ∃ v, parse? t = some v ∧ shape.ofValue v = .ok s ∧
        ∃ entries, v = .object entries ∧ entries.find? "kind" = some (.text "K") := by
  intro t s ms
  have hread : shape.ofText t = .ok s := toOption_eq_some.1 (by decide +kernel)
  obtain ⟨ms', houtline, _, hagree⟩ := (unambiguous_iff_choices_agree s).1 t hread
  have htokens : scan t.toList = Document.tokens (.object [("other", .array []),
      ("matchName", .text "n"), ("kind", .text "K"), ("apiVersion", .text "v1")]) := by
    decide +kernel
  have hms : Outline.ofText t = ⟨.object (named ms) .closed, true⟩ := ofText_of_scan htokens
  rw [hms, Outline.mk.injEq, Tree.object.injEq] at houtline
  obtain rfl := named_injective houtline.1.1
  have hall : ∀ m ∈ choices ms, s.selection.StatedBy m := by
    simp [ms, choices, optionsAmong, s, Match.StatedBy]
  obtain ⟨horders, v, hv, hvalue⟩ := hagree.2 hall
  obtain ⟨entries, hentries, _, hkind, _⟩ := (unambiguous_iff_choices_agree s).2 v hvalue
  exact ⟨hread, horders, v, hv, hvalue, entries, hentries, hkind⟩

/-- With a name and with labels the same members are read by the name or by the labels, whichever is
written first, and the value of both texts is read by the labels. -/
theorem both_selections_accepted :
    let name := "\"matchName\":\"n\""
    let labels := "\"matchLabels\":\x7b\x7d"
    let text (first second : String) :=
      "\x7b\"apiVersion\":\"v1\",\"kind\":\"K\"," ++ first ++ "," ++ second ++ "\x7d"
    let byName : ResourceSelector := ⟨"v1", "K", .byName "n"⟩
    let byLabels : ResourceSelector := ⟨"v1", "K", .byLabels ⟨.empty⟩⟩
    let v := Json.object (StringMap.ofList [("apiVersion", .text "v1"), ("kind", .text "K"),
      ("matchName", .text "n"), ("matchLabels", .object StringMap.empty)])
    shape.ofText (text name labels) = .ok byName ∧
      shape.ofText (text labels name) = .ok byLabels ∧
      parse? (text name labels) = some v ∧ parse? (text labels name) = some v ∧
      shape.ofValue v = .ok byLabels := by
  intro name labels text byName byLabels v
  have hname : (shape.ofText (text name labels)).toOption = some byName := by
    decide +kernel +revert
  have hlabels : (shape.ofText (text labels name)).toOption = some byLabels := by
    decide +kernel +revert
  have hvalue : (shape.ofValue v).toOption = some byLabels := by decide +kernel +revert
  refine ⟨toOption_eq_some.1 hname, toOption_eq_some.1 hlabels, ?_, ?_,
    toOption_eq_some.1 hvalue⟩ <;> decide +kernel +revert

end ResourceSelector

end CompositionFunction
