import CompositionFunction.Proofs.Message.Types
import CompositionFunction.Proofs.Schema.Unknown

/-!
# Fields that a message does not know

A message may carry fields that its reader does not know. They may stand in any of its parts, and
hold what the reader could not even read, as long as it follows the grammar. Only a selector sets
aside what it does not know, so in a selector the value has to be readable.

* `MessageType.inSelector_of_isAside` : what is set aside in a message stands in a selector.
* `MessageType.unknown_members_ignored` : unknown members never change how a message is read.
-/

set_option autoImplicit false

namespace CompositionFunction.MessageType

open Json Schema

/-! ## Selectors -/

/-- The object at a place of a message is read as a selector, or stands in one. -/
def InSelector (T : MessageType) (pointer : Pointer) : Prop :=
  IsWithin T.shape.roleAt "ResourceSelector" pointer

instance (T : MessageType) (pointer : Pointer) : Decidable (T.InSelector pointer) :=
  inferInstanceAs (Decidable (IsWithin _ _ _))

/-- What is set aside in a message stands in a selector. -/
theorem inSelector_of_isAside {T : MessageType} {pointer : Pointer} {role : Role}
    (hrole : T.shape.roleAt pointer = some role) (haside : role.isAside = true) :
    T.InSelector pointer := by
  have hname : T.shape.setsAsideIn "ResourceSelector" = true := by cases T <;> decide
  exact T.shape.isWithin_of_isAside hname hrole haside

example : response.InSelector [.member (some "requirements"), .member (some "extraResources"),
    .member (some "a"), .member (some "matchLabels")] := by decide

/-! ## Unknown members -/

/-- **Unknown members never change how a message is read.** If a member is put into an object of the
text that is read as a record, under a name that the record does not know, the outcome is the same
message or the same refusal. Its value only has to follow the grammar: it may nest too deep, and its
numbers and strings may stand for nothing. In a selector it has to be readable at its depth. -/
theorem unknown_members_ignored (T : MessageType) {text longer name : String} {value : Tree}
    {pointer : Pointer} {role : Role} (hwhole : (Outline.ofText text).isWhole = true)
    (hlonger : TextGains (some name, value) pointer text longer)
    (hrole : T.shape.roleAt pointer = some role) (hname : name ∉ role.names)
    (hreadable : T.InSelector pointer → ∃ inner,
      Source.document.within? (pointer.length + 1) = some inner ∧ value.IsReadable inner) :
    T.shape.ofText longer = T.shape.ofText text := by
  have hskips : role.Skips .document pointer (name, value) :=
    ⟨hname, hlonger.isGrammatical, fun haside => hreadable (inSelector_of_isAside hrole haside)⟩
  exact T.shape.ofText_gains hwhole hlonger hrole hskips

/-- A resource may hold a number out of range and half of a surrogate pair; what stands beside the
labels of a selector is readable. -/
theorem unknown_size_and_note_ignored :
    let resource := "\x7b\"composite\":\x7b\"ready\":\"READY_SOON\""
    let size := ", \"size\":[1e999,\"\\ud800\"]"
    let selector := "\x7b\"kind\":\"K\",\"matchLabels\":\x7b"
    let note := "\"note\":[null], "
    let labels := "\"labels\":\x7b\x7d\x7d,\"apiVersion\":\"v1\"\x7d"
    state.shape.ofText (resource ++ size ++ "\x7d\x7d") =
        state.shape.ofText (resource ++ "\x7d\x7d") ∧
      resourceSelector.shape.ofText (selector ++ note ++ labels) =
        resourceSelector.shape.ofText (selector ++ labels) := by
  intro resource size selector note labels
  constructor
  · have hwhole : (Outline.ofText (resource ++ "\x7d\x7d")).isWhole = true := by
      decide +kernel +revert
    have hread : scan resource.toList = [.openObject, .text (some "composite"), .colon,
        .openObject, .text (some "ready"), .colon, .text (some "READY_SOON")] := by
      decide +kernel +revert
    have hinserted : scan size.toList = [.comma, .text (some "size"), .colon, .openArray,
        .number none, .comma, .text none, .closeArray] := by
      decide +kernel +revert
    have hframes : Progress.run? ⟨.value, []⟩ (scan resource.toList) =
        some ⟨.next (.text (some "READY_SOON")), [.object [] (some "ready"),
          .object [] (some "composite")]⟩ := by
      rw [hread]
      rfl
    have hmember : IsMember [.text (some "size"), .colon, .openArray, .number none, .comma,
        .text none, .closeArray] (some "size", .array [.number none, .text none]) := ⟨_, rfl, rfl⟩
    have hgains : TextGains (some "size", .array [.number none, .text none])
        [.member (some "composite")] (resource ++ "\x7d\x7d") (resource ++ size ++ "\x7d\x7d") := by
      refine ⟨resource.toList, size.toList, "\x7d\x7d".toList, by simp, by simp, ?_⟩
      rw [hinserted]
      exact .after hframes hmember (Or.inr rfl)
    refine unknown_members_ignored state hwhole hgains rfl (by decide) ?_
    exact fun hselector => absurd hselector (by decide)
  · have hwhole : (Outline.ofText (selector ++ labels)).isWhole = true := by
      decide +kernel +revert
    have hread : scan selector.toList = [.openObject, .text (some "kind"), .colon,
        .text (some "K"), .comma, .text (some "matchLabels"), .colon, .openObject] := by
      decide +kernel +revert
    have hinserted : scan note.toList = [.text (some "note"), .colon, .openArray, .null,
        .closeArray] ++ [.comma] := by
      decide +kernel +revert
    have hleft : scan labels.toList = [.text (some "labels"), .colon, .openObject, .closeObject,
        .closeObject, .comma, .text (some "apiVersion"), .colon, .text (some "v1"),
        .closeObject] := by
      decide +kernel +revert
    have hframes : Progress.run? ⟨.value, []⟩ (scan selector.toList) =
        some ⟨.name [], [.object [(some "kind", .text (some "K"))] (some "matchLabels")]⟩ := by
      rw [hread]
      rfl
    have hmember : IsMember [.text (some "note"), .colon, .openArray, .null, .closeArray]
        (some "note", .array [.null]) := ⟨_, rfl, rfl⟩
    have hgains : TextGains (some "note", .array [.null]) [.member (some "matchLabels")]
        (selector ++ labels) (selector ++ note ++ labels) := by
      refine ⟨selector.toList, note.toList, labels.toList, by simp, by simp, ?_⟩
      rw [hinserted, hleft]
      exact .before hframes hmember
    refine unknown_members_ignored resourceSelector hwhole hgains rfl (by decide) ?_
    exact fun _ => ⟨.text 125, rfl, .array [.null], rfl⟩

end CompositionFunction.MessageType
