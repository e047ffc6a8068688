import CompositionFunction.Message.Reading
import CompositionFunction.Proofs.Message.Types
import CompositionFunction.Proofs.Schema.Agreement

/-!
# Reading and writing messages

Every message is read back from its text and from its value, and the readers of texts and of values
agree.

* `message_read_back_from_text` : messages are read back from their texts.
* `message_read_back_from_body` : messages are read back from their bodies.
* `text_and_value_read_alike` : a text and its value are read as the same message.
-/

set_option autoImplicit false

namespace CompositionFunction

open Schema

namespace MessageType

/-! ## Texts -/

/-- **A message without fractions is read back from its text** in either layout, if it nests at most
127 levels deep or was itself read from a text; and no message that was read from a text nests
deeper than that. -/
theorem message_read_back_from_text (T : MessageType) :
    (∀ m : T.Value, (T.shape.document m).isFloatFree = true →
      ((T.shape.document m).depth ≤ 127 ∨ ∃ s, T.shape.ofText s = .ok m) →
        ∀ layout, T.shape.ofText (T.shape.render layout m) = .ok m) ∧
      ∀ (s : String) (m : T.Value), T.shape.ofText s = .ok m →
        (T.shape.document m).depth ≤ 127 := by
  have hbounded : ∀ (s : String) (m : T.Value), T.shape.ofText s = .ok m →
      (T.shape.document m).depth ≤ 127 := fun s m h =>
    Shape.depth_le_of_ofText T.shape_lawful T.reserve_le h
  refine ⟨fun m hfloat hdepth layout => ?_, hbounded⟩
  refine Shape.ofText_render T.shape_lawful hfloat ?_ layout
  rcases hdepth with hdepth | ⟨s, hs⟩
  · exact hdepth
  · exact hbounded s m hs

/-- Quotes, control characters and nested values come through, and so do absent parts. -/
theorem escaped_response_read_back :
    let m : Response :=
      { Response.empty with
        results := [⟨.fatal, "line\n\"quoted\" \x01 é"⟩]
        context := some (StringMap.ofList
          [("k\\", .array [.number (.int (-3) (by decide) (by decide)), .null, .object .nil])]) }
    ((shape response).document m).isFloatFree = true ∧ ((shape response).document m).depth ≤ 127 ∧
      (shape response).ofText ((shape response).render .indented m) = .ok m ∧
        (shape response).ofText "\x7b\x7d" = .ok Response.empty ∧
          ((shape response).document Response.empty).depth ≤ 127 :=
  ⟨by decide, by decide,
    (message_read_back_from_text response).1 _ (by decide) (Or.inl (by decide)) .indented, rfl,
    (message_read_back_from_text response).2 "\x7b\x7d" Response.empty rfl⟩

end MessageType

/-! ## Bodies -/

/-- **A value that is written as an object is read back from its body**, and so is the input of a
request that carries the body. -/
theorem message_read_back_from_body (T : BodyType) (typeName : String) (m : T.Value) :
    ∃ body, (TypedValue.ofShape typeName T.shape m).toBody = .ok body ∧
      Body.toTyped typeName T.shape body = .ok m ∧
        ∀ r : Request, r.input = some body → r.inputAs typeName T.shape = .ok m := by
  obtain ⟨body, hbody⟩ := T.value_isObject m
  have hwritten : (TypedValue.ofShape typeName T.shape m).toBody = .ok body := by
    unfold TypedValue.ofShape TypedValue.toBody
    rw [hbody]
  have hread : Body.toTyped typeName T.shape body = .ok m := by
    unfold Body.toTyped
    rw [mapError_eq_ok, ← hbody]
    exact Shape.ofValue_value T.shape_lawful m
  refine ⟨body, hwritten, hread, fun r hinput => ?_⟩
  unfold Request.inputAs
  rw [hinput]
  exact hread

/-- Labels are read back from their body, also as the input of a request. -/
theorem labels_read_back :
    let m : StringMap String := StringMap.ofList [("app", "web"), ("", "\x00")]
    ∃ body, (TypedValue.ofShape "Labels" BodyType.labels.shape m).toBody = .ok body ∧
      Body.toTyped "Labels" BodyType.labels.shape body = .ok m ∧
        Request.inputAs ⟨none, none, none, some body, none, .empty⟩ "Labels"
          BodyType.labels.shape = .ok m := by
  intro m
  obtain ⟨body, hwritten, hread, hinput⟩ := message_read_back_from_body .labels "Labels" m
  exact ⟨body, hwritten, hread, hinput _ rfl⟩

/-! ## The two readers -/

/-- **A text and the value that it is read as give the same message, or none.** -/
theorem text_and_value_read_alike (T : MessageType) {s : String} {v : Json}
    (hvalue : Json.parse? s = some v)
    (hdistinct : (Json.Outline.ofText s).root.hasDistinctNames = true)
    (hclear : T.shape.isUnambiguous (Json.Outline.ofText s).root = true) (m : T.Value) :
    (T.shape.ofText s = .ok m ↔ T.shape.ofValue v = .ok m) ∧
      ∀ typeName body, v = .object body →
        (T.shape.ofText s = .ok m ↔ Body.toTyped typeName T.shape body = .ok m) := by
  have hagree := Shape.ofText_iff_ofValue T.shape_lawful hvalue hdistinct hclear m
  refine ⟨hagree, fun typeName body hbody => ?_⟩
  unfold Body.toTyped
  rw [mapError_eq_ok, ← hbody]
  exact hagree

/-- Requirements with a selector, whose members are in no order, are read alike. -/
theorem requirements_read_alike :
    let s := "\x7b\"extraResources\":\x7b\"a\":\x7b\"kind\":\"K\",\"matchName\":\"n\"," ++
      "\"apiVersion\":\"v1\",\"other\":[true]\x7d\x7d\x7d"
    let v := Json.object (StringMap.ofList [("extraResources", .object (StringMap.ofList
      [("a", .object (StringMap.ofList [("apiVersion", .text "v1"), ("kind", .text "K"),
        ("matchName", .text "n"), ("other", .array [.bool true])]))]))])
    let m : Requirements := ⟨some (StringMap.ofList [("a", ⟨"v1", "K", .byName "n"⟩)])⟩
    Json.parse? s = some v ∧ (Json.Outline.ofText s).root.hasDistinctNames = true ∧
      (MessageType.shape .requirements).isUnambiguous (Json.Outline.ofText s).root = true ∧
        ((MessageType.shape .requirements).ofText s = .ok m ↔
          (MessageType.shape .requirements).ofValue v = .ok m) := by
  intro s v m
  have hvalue : Json.parse? s = some v := by decide +kernel
  have hdistinct : (Json.Outline.ofText s).root.hasDistinctNames = true := by decide +kernel
  have hclear : (MessageType.shape .requirements).isUnambiguous (Json.Outline.ofText s).root =
      true := by decide +kernel
  exact ⟨hvalue, hdistinct, hclear,
    (text_and_value_read_alike .requirements hvalue hdistinct hclear m).1⟩

end CompositionFunction
