import CompositionFunction.Proofs.Base64.Canonical
import CompositionFunction.Proofs.Message.Lawful
import CompositionFunction.Proofs.Schema.FloatFree
import CompositionFunction.Proofs.Schema.Levels

/-!
# Connection details are carried one to one

Connection details are written as an object of strings, each the text of its bytes in Base64. They
are read back from it, and what is read from an object of strings is written as these strings. Of
the strings that are not in Base64, that of the least key is refused, wherever it stands in the
document.

* `Entries.exists_traverse_iff`, `Entries.traverse_eq_error_iff` : when a transformation of all
  values succeeds, and which failure decides otherwise.
* `ofStrings` : an object of strings, in the order of a document.
* `carried_one_to_one` : what is read from connection details, and what is refused.
-/

set_option autoImplicit false

namespace CompositionFunction

open Json Schema

/-! ## Transforming all values of a map -/

namespace Entries

variable {α β ε : Type} {f : String → α → Except ε β}

/-- What is found is the first value or a value of the rest, never both. -/
theorem find?_cons_eq_some {lo : Option String} {key : String} {above : Above lo key} {value : α}
    {rest : Entries α (some key)} {k : String} {v : α} :
    (cons key above value rest).find? k = some v ↔
      (k = key ∧ value = v) ∨ rest.find? k = some v := by
  rw [find?]
  split
  · rename_i hkey
    rw [hkey, find?_bound, Option.some.injEq]
    simp
  · rename_i hkey
    simp [hkey]

/-- What holds of all values holds of the first one and of the rest. -/
theorem forall_find?_cons {lo : Option String} {key : String} {above : Above lo key} {value : α}
    {rest : Entries α (some key)} {P : String → α → Prop} :
    (∀ k v, (cons key above value rest).find? k = some v → P k v) ↔
      P key value ∧ ∀ k v, rest.find? k = some v → P k v := by
  simp only [find?_cons_eq_some]
  constructor
  · exact fun h => ⟨h key value (Or.inl ⟨rfl, rfl⟩), fun k v hk => h k v (Or.inr hk)⟩
  · rintro ⟨hfirst, hrest⟩ k v (⟨rfl, rfl⟩ | hk)
    · exact hfirst
    · exact hrest k v hk

/-- All values are transformed exactly if each of them is. -/
theorem exists_traverse_iff {lo : Option String} {m : Entries α lo} :
    (∃ n, m.traverse f = .ok n) ↔ ∀ k v, m.find? k = some v → ∃ b, f k v = .ok b := by
  induction m with
  | nil => exact iff_of_true ⟨nil, rfl⟩ nofun
  | cons key above value rest ih =>
    rw [forall_find?_cons, ← ih, traverse]
    cases f key value with
    | error e => simp
    | ok b => cases rest.traverse f <;> simp

/-- The failure that decides is that of the least key whose value fails. -/
theorem traverse_eq_error_iff {lo : Option String} {m : Entries α lo} {e : ε} :
    m.traverse f = .error e ↔
      ∃ k v, m.find? k = some v ∧ f k v = .error e ∧
        ∀ k' v', k' < k → m.find? k' = some v' → ∃ b, f k' v' = .ok b := by
  induction m with
  | nil =>
    constructor
    · intro h
      cases h
    · rintro ⟨k, v, h, _⟩
      cases h
  | cons key above value rest ih =>
    simp only [find?_cons_eq_some]
    rw [traverse]
    cases hvalue : f key value with
    | error e' =>
      constructor
      · intro h
        obtain rfl : e' = e := Except.error.inj h
        refine ⟨key, value, Or.inl ⟨rfl, rfl⟩, hvalue, ?_⟩
        rintro k' v' hlt (⟨rfl, _⟩ | hk')
        · exact absurd hlt (String.lt_irrefl k')
        · exact absurd (above_of_find? hk') (String.lt_asymm hlt)
      · rintro ⟨k, v, ⟨rfl, rfl⟩ | hk, hfail, hleast⟩
        · rw [hvalue] at hfail
          exact congrArg Except.error (Except.error.inj hfail)
        · obtain ⟨b, hb⟩ := hleast key value (above_of_find? hk) (Or.inl ⟨rfl, rfl⟩)
          rw [hvalue] at hb
          cases hb
    | ok b =>
      refine Iff.trans (b := rest.traverse f = .error e) ?_ (ih.trans ⟨?_, ?_⟩)
      · cases rest.traverse f <;> simp
      · rintro ⟨k, v, hk, hfail, hleast⟩
        refine ⟨k, v, Or.inr hk, hfail, ?_⟩
        rintro k' v' hlt (⟨rfl, rfl⟩ | hk')
        · exact ⟨b, hvalue⟩
        · exact hleast k' v' hlt hk'
      · rintro ⟨k, v, ⟨rfl, rfl⟩ | hk, hfail, hleast⟩
        · rw [hvalue] at hfail
          cases hfail
        · exact ⟨k, v, hk, hfail, fun k' v' hlt hk' => hleast k' v' hlt (Or.inr hk')⟩

end Entries

/-! ## Objects of strings -/

namespace ConnectionDetails

/-- Strings by their names as the members of an object. -/
def stringMembers (ss : List (String × String)) : List (Option String × Tree) :=
  ss.map fun e => (some e.1, .text (some e.2))

/-- An object of strings in the order of a document; a name may be repeated. -/
def ofStrings (ss : List (String × String)) : Tree := .object (stringMembers ss) .closed

section Strings

variable {source inner : Source}

/-- Strings are read one after the other, so that the last one of each name counts. -/
theorem readMembers_strings (ss : List (String × String)) (ending : Ending)
    (rest : List (Option String × Tree)) : ∀ before : StringMap String,
      readMembers (insertRead (Shape.text.ofTree inner)) ending before (stringMembers ss ++ rest) =
        readMembers (insertRead (Shape.text.ofTree inner)) ending (before.insertAll ss) rest := by
  induction ss with
  | nil => intro before; rfl
  | cons e ss ih => intro before; exact ih (before.insert e.1 e.2)

theorem ofTree_strings (henter : source.enter? = some inner) (ss : List (String × String)) :
    (Shape.map .text).ofTree source (ofStrings ss) = .ok (StringMap.ofList ss) := by
  have hread : readMembers (insertRead (Shape.text.ofTree inner)) .closed StringMap.empty
      (stringMembers ss ++ []) = .ok (StringMap.ofList ss) :=
    readMembers_strings ss .closed [] .empty
  rw [List.append_nil] at hread
  show (enter source >>= fun inner => readMembers (insertRead (Shape.text.ofTree inner)) .closed
    StringMap.empty (stringMembers ss)) = _
  rw [enter_eq_ok.2 henter]
  exact hread

/-- The first value that is no string is refused, whatever the strings before it are. -/
theorem ofTree_not_string (henter : source.enter? = some inner) (ss : List (String × String))
    (name : String) {t : Tree} (ht : ∀ s, t ≠ .text (some s)) (rest : List (Option String × Tree))
    (ending : Ending) :
    (Shape.map .text).ofTree source (.object (stringMembers ss ++ (some name, t) :: rest) ending) =
      .error (unexpected (found? t) .text) := by
  have hrefused : Shape.text.ofTree inner t = .error (unexpected (found? t) .text) := by
    unfold Shape.ofTree
    split
    · rename_i s
      exact absurd rfl (ht s)
    · rfl
  have hstep : ∀ before : StringMap String, insertRead (Shape.text.ofTree inner) before name t =
      .error (unexpected (found? t) .text) := by
    intro before
    unfold insertRead
    rw [hrefused]
  show (enter source >>= fun inner => readMembers (insertRead (Shape.text.ofTree inner)) ending
    StringMap.empty (stringMembers ss ++ (some name, t) :: rest)) = _
  rw [enter_eq_ok.2 henter]
  show readMembers _ ending StringMap.empty (stringMembers ss ++ (some name, t) :: rest) = _
  rw [readMembers_strings, readMembers, hstep]

/-- Members that are read as strings are strings. -/
theorem strings_of_readMembers {ending : Ending} {ms : List (String × Tree)} :
    ∀ {before m : StringMap String},
      readMembers (insertRead (Shape.text.ofTree inner)) ending before (named ms) = .ok m →
        ∃ ss, named ms = stringMembers ss ∧ m = before.insertAll ss := by
  induction ms with
  | nil =>
    intro before m h
    obtain ⟨_, rfl⟩ := readMembers_nil.1 h
    exact ⟨[], rfl, rfl⟩
  | cons member ms ih =>
    intro before m h
    obtain ⟨name, t⟩ := member
    rw [readMembers_cons] at h
    obtain ⟨next, hnext, hrest⟩ := bind_eq_ok.1 h
    obtain ⟨s, hs, rfl⟩ := insertRead_eq_ok.1 hnext
    obtain rfl := Shape.text_eq_ok.1 hs
    obtain ⟨ss, hss, rfl⟩ := ih hrest
    refine ⟨(name, s) :: ss, ?_, rfl⟩
    show (some name, Tree.text (some s)) :: named ms = _
    rw [hss]
    rfl

/-- Only objects of strings are read as maps of strings. -/
theorem eq_ofStrings {t : Tree} {m : StringMap String}
    (h : (Shape.map .text).ofTree source t = .ok m) :
    ∃ ss, t = ofStrings ss ∧ m = StringMap.ofList ss := by
  obtain ⟨inner, ms, ending, rfl, _, hread⟩ := Shape.map_ok h
  obtain ⟨_, _, rfl⟩ := named_of_readMembers hread
  obtain ⟨ss, hss, rfl⟩ := strings_of_readMembers hread
  exact ⟨ss, by rw [ofStrings, hss], rfl⟩

end Strings

/-! ## Details -/

section Details

variable {source inner : Source} {ss : List (String × String)}

/-- An object of strings is read as details by its strings. -/
theorem ofTree_ofStrings (henter : source.enter? = some inner) (ss : List (String × String)) :
    shape.ofTree source (ofStrings ss) = (ofTexts (StringMap.ofList ss)).mapError .misfit := by
  unfold shape
  rw [Shape.ofTree, ofTree_strings henter]

theorem exists_ofTexts_iff {ts : StringMap String} :
    (∃ details, ofTexts ts = .ok details) ↔
      ∀ k s, ts.find? k = some s → Base64.IsCanonical s.toList := by
  unfold ofTexts
  rw [Entries.exists_traverse_iff]
  refine forall₃_congr fun k s _ => ?_
  simp only [mapError_eq_ok]
  exact Base64.exists_decode_iff

/-- The least key with a string that is not in Base64 is refused. -/
theorem ofTexts_eq_error_iff {ts : StringMap String} {misfit : Misfit} :
    ofTexts ts = .error misfit ↔
      ∃ k s fault, ts.find? k = some s ∧ Base64.decode s = .error fault ∧
        misfit = .connectionDetail k fault ∧
        ∀ k' s', k' < k → ts.find? k' = some s' → Base64.IsCanonical s'.toList := by
  unfold ofTexts
  rw [Entries.traverse_eq_error_iff]
  simp only [mapError_eq_ok, Base64.exists_decode_iff]
  constructor
  · rintro ⟨k, s, hs, hfail, hleast⟩
    cases hdecode : Base64.decode s with
    | ok bytes => rw [hdecode] at hfail; cases hfail
    | error fault =>
      rw [hdecode] at hfail
      exact ⟨k, s, fault, hs, hdecode, (Except.error.inj hfail).symm, hleast⟩
  · rintro ⟨k, s, fault, hs, hdecode, rfl, hleast⟩
    exact ⟨k, s, hs, by rw [hdecode]; rfl, hleast⟩

/-- Details are read back from their text in either layout. -/
theorem ofText_render (layout : Document.Layout) (details : ConnectionDetails) :
    shape.ofText (shape.render layout details) = .ok details := by
  have hlevels : shape.levels? = some 1 := rfl
  have hfloat : (shape.document details).isFloatFree = true :=
    Shape.isFloatFree_texts (texts details)
  have hdepth : (shape.document details).depth ≤ 127 :=
    Nat.le_trans (shape.depth_le details hlevels) (by decide)
  exact Shape.ofText_render shape_lawful hfloat hdepth layout

theorem ofTree_eq_error_iff (henter : source.enter? = some inner) {refusal : Refusal} :
    shape.ofTree source (ofStrings ss) = .error refusal ↔
      ∃ k s fault, (StringMap.ofList ss).find? k = some s ∧ Base64.decode s = .error fault ∧
        refusal = .misfit (.connectionDetail k fault) ∧
        ∀ k' s', k' < k → (StringMap.ofList ss).find? k' = some s' →
          Base64.IsCanonical s'.toList := by
  rw [ofTree_ofStrings henter, mapError_eq_error]
  constructor
  · rintro ⟨misfit, herror, rfl⟩
    obtain ⟨k, s, fault, hs, hdecode, rfl, hleast⟩ := ofTexts_eq_error_iff.1 herror
    exact ⟨k, s, fault, hs, hdecode, rfl, hleast⟩
  · rintro ⟨k, s, fault, hs, hdecode, rfl, hleast⟩
    exact ⟨_, ofTexts_eq_error_iff.2 ⟨k, s, fault, hs, hdecode, rfl, hleast⟩, rfl⟩

/-- **Connection details are carried one to one.** They are read back from what is written for them.
Only objects of strings are read as details, and writing these gives the strings again. An object of
strings is read exactly if each of them is in Base64; otherwise the least key of one that is not is
refused, wherever it stands, but only where all values are strings: the first one that is none is
refused before. -/
theorem carried_one_to_one :
    (∀ details : ConnectionDetails,
      (∀ layout, shape.ofText (shape.render layout details) = .ok details) ∧
        shape.ofValue (shape.value details) = .ok details) ∧
    (∀ (source : Source) (t : Tree) (details : ConnectionDetails),
      shape.ofTree source t = .ok details →
        ∃ ss, t = ofStrings ss ∧ texts details = StringMap.ofList ss) ∧
    ∀ source inner : Source, source.enter? = some inner → ∀ ss : List (String × String),
      ((∃ details, shape.ofTree source (ofStrings ss) = .ok details) ↔
        ∀ k s, (StringMap.ofList ss).find? k = some s → Base64.IsCanonical s.toList) ∧
      (∀ refusal, shape.ofTree source (ofStrings ss) = .error refusal ↔
        ∃ k s fault, (StringMap.ofList ss).find? k = some s ∧ Base64.decode s = .error fault ∧
          refusal = .misfit (.connectionDetail k fault) ∧
          ∀ k' s', k' < k → (StringMap.ofList ss).find? k' = some s' →
            Base64.IsCanonical s'.toList) ∧
      ∀ (name : String) (t : Tree) (rest : List (Option String × Tree)) (ending : Ending),
        (∀ s, t ≠ .text (some s)) →
          shape.ofTree source (.object (stringMembers ss ++ (some name, t) :: rest) ending) =
            .error (unexpected (found? t) .text) := by
  refine ⟨fun details => ⟨fun layout => ofText_render layout details,
    Shape.ofValue_value shape_lawful details⟩, ?_, fun source inner henter ss => ⟨?_, ?_, ?_⟩⟩
  · intro source t details h
    obtain ⟨ts, hts, hdetails⟩ := Shape.refined_eq_ok.1 h
    obtain ⟨ss, ht, rfl⟩ := eq_ofStrings hts
    exact ⟨ss, ht, texts_ofTexts hdetails⟩
  · simp only [ofTree_ofStrings henter, mapError_eq_ok]
    exact exists_ofTexts_iff
  · exact fun refusal => ofTree_eq_error_iff henter
  · intro name t rest ending ht
    unfold shape
    rw [Shape.ofTree, ofTree_not_string henter ss name ht rest ending]

end Details

end ConnectionDetails

end CompositionFunction
