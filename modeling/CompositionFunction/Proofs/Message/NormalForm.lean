import CompositionFunction.Proofs.Message.Types
import CompositionFunction.Proofs.Schema.NormalForm

/-!
# The normal forms of messages

What a message is written as is the normal form of what it was read from. The normal form of each
type of message is a rule on JSON alone.

* `MessageType.normalForm` : the rule of each type of message.
* `written_in_normalForm` : a message that was read is written in normal form.
-/

set_option autoImplicit false

namespace CompositionFunction

open Json Schema

/-! ## States -/

/-- A resource keeps its body and its details as they are; empty details and an unspecified
readiness are omitted. -/
def Resource.normalForm : Rule := Rule.record [
  ("resource", .unlessNull id),
  ("connectionDetails", .omitted id (.object .nil)),
  ("ready", .omitted Rule.optionName (.text "READY_UNSPECIFIED"))]

example : Resource.normalForm (.array [.null, .object .nil,
    .object (StringMap.ofList [("READY_TRUE", .null)])]) =
      .object (StringMap.ofList [("ready", .text "READY_TRUE")]) := by
  decide

/-- A state keeps its resources under their names, and the map of them if it is empty. -/
def State.normalForm : Rule := Rule.record [
  ("composite", .unlessNull Resource.normalForm),
  ("resources", .unlessNull (Rule.eachMember Resource.normalForm))]

theorem ConnectionDetails.shape_normalises : ConnectionDetails.shape.Normalises id := by
  show ConnectionDetails.shape.Normalises (id ∘ id)
  refine Shape.refined_normalises Shape.texts_normalise fun ts details h => ?_
  rw [texts_ofTexts h]
  rfl

theorem Ready.shape_normalises : Ready.shape.Normalises Rule.optionName := by
  refine Shape.choice_normalises fun name ready h => ?_
  obtain ⟨_, _, hready⟩ := List.mem_map.1 (mem_of_lookup h)
  cases hready
  rfl

theorem Resource.shape_normalises : Resource.shape.Normalises Resource.normalForm := by
  refine Shape.via_normalises (Shape.record_normalises (by decide) ?_) ?_
  · exact .cons (Field.optional_normalises Shape.object_normalises) <|
      .cons (Field.trimmed_normalises ConnectionDetails.shape_normalises
        ConnectionDetails.shape_lawful .empty _) <|
      .cons (Field.trimmed_normalises Ready.shape_normalises Ready.shape_lawful .unspecified _) .nil
  · rintro ⟨body, connectionDetails, ready, ⟨⟩⟩
    rfl

theorem State.shape_normalises : State.shape.Normalises State.normalForm := by
  refine Shape.via_normalises (Shape.record_normalises (by decide) ?_) ?_
  · exact .cons (Field.optional_normalises Resource.shape_normalises) <|
      .cons (Field.optional_normalises (Shape.map_normalises Resource.shape_normalises)) .nil
  · rintro ⟨composite, composed, ⟨⟩⟩
    rfl

/-! ## Requests -/

/-- A missing tag is filled in. -/
def RequestMeta.normalForm : Rule := Rule.record [("tag", .filled id (.text ""))]

/-- Missing items are filled in. -/
def Resources.normalForm : Rule := Rule.record [
  ("items", .filled (Rule.eachItem Resource.normalForm) (.array []))]

/-- A request keeps input and context as they are; an empty map of extra resources is omitted. -/
def Request.normalForm : Rule := Rule.record [
  ("meta", .unlessNull RequestMeta.normalForm),
  ("observed", .unlessNull State.normalForm),
  ("desired", .unlessNull State.normalForm),
  ("input", .unlessNull id),
  ("context", .unlessNull id),
  ("extraResources", .omitted (Rule.eachMember Resources.normalForm) (.object .nil))]

theorem RequestMeta.shape_normalises : RequestMeta.shape.Normalises RequestMeta.normalForm := by
  refine Shape.via_normalises (Shape.record_normalises (by decide) ?_) ?_
  · exact .cons (Field.defaulted_normalises Shape.text_normalises "") .nil
  · rintro ⟨tag, ⟨⟩⟩
    rfl

theorem Resources.shape_normalises : Resources.shape.Normalises Resources.normalForm := by
  refine Shape.via_normalises (Shape.record_normalises (by decide) ?_) ?_
  · exact .cons (Field.defaulted_normalises (Shape.list_normalises Resource.shape_normalises) [])
      .nil
  · rintro ⟨items, ⟨⟩⟩
    rfl

theorem Request.shape_normalises : Request.shape.Normalises Request.normalForm := by
  refine Shape.via_normalises (Shape.record_normalises (by decide) ?_) ?_
  · exact .cons (Field.optional_normalises RequestMeta.shape_normalises) <|
      .cons (Field.optional_normalises State.shape_normalises) <|
      .cons (Field.optional_normalises State.shape_normalises) <|
      .cons (Field.optional_normalises Shape.object_normalises) <|
      .cons (Field.optional_normalises Shape.object_normalises) <|
      .cons (Field.trimmed_normalises (Shape.map_normalises Resources.shape_normalises)
        Resources.shape_lawful .empty _) .nil
  · rintro ⟨info, observed, desired, input, context, extra, ⟨⟩⟩
    rfl

/-! ## Responses -/

/-- A missing tag is filled in, and the time to live is written as durations are. -/
def ResponseMeta.normalForm : Rule := Rule.record [
  ("tag", .filled id (.text "")),
  ("ttl", .unlessNull Rule.durationText)]

/-- Missing labels are filled in. -/
def MatchLabels.normalForm : Rule := Rule.record [("labels", .filled id (.object .nil))]

/-- A match keeps its name, or its labels in their form. -/
def Match.normalForm : Rule := Rule.optionValue "matchName" id MatchLabels.normalForm

/-- A selector keeps version and kind, and the labels if there are any, else the name. -/
def ResourceSelector.normalForm : Rule :=
  Rule.recordWith [("apiVersion", .kept id), ("kind", .kept id)]
    "matchLabels" "matchName" MatchLabels.normalForm id

/-- Requirements keep the map of selectors, also if it is empty. -/
def Requirements.normalForm : Rule := Rule.record [
  ("extraResources", .unlessNull (Rule.eachMember ResourceSelector.normalForm))]

/-- A missing severity and a missing message are filled in. -/
def FunctionResult.normalForm : Rule := Rule.record [
  ("severity", .filled Rule.optionName (.text "SEVERITY_UNSPECIFIED")),
  ("message", .filled id (.text ""))]

/-- A response keeps the context as it is; an empty list of results is omitted. -/
def Response.normalForm : Rule := Rule.record [
  ("meta", .unlessNull ResponseMeta.normalForm),
  ("desired", .unlessNull State.normalForm),
  ("results", .omitted (Rule.eachItem FunctionResult.normalForm) (.array [])),
  ("context", .unlessNull id),
  ("requirements", .unlessNull Requirements.normalForm)]

theorem Duration.shape_normalises : Duration.shape.Normalises Rule.durationText := by
  show Duration.shape.Normalises (Rule.durationText ∘ id)
  refine Shape.refined_normalises Shape.text_normalises fun s d h => ?_
  exact congrArg Json.text (Duration.text_of_parse (mapError_eq_ok.1 h))

theorem ResponseMeta.shape_normalises : ResponseMeta.shape.Normalises ResponseMeta.normalForm := by
  refine Shape.via_normalises (Shape.record_normalises (by decide) ?_) ?_
  · exact .cons (Field.defaulted_normalises Shape.text_normalises "") <|
      .cons (Field.optional_normalises Duration.shape_normalises) .nil
  · rintro ⟨tag, ttl, ⟨⟩⟩
    rfl

theorem MatchLabels.shape_normalises : MatchLabels.shape.Normalises MatchLabels.normalForm := by
  refine Shape.via_normalises (Shape.record_normalises (by decide) ?_) ?_
  · exact .cons (Field.defaulted_normalises Shape.texts_normalise .empty) .nil
  · rintro ⟨labels, ⟨⟩⟩
    rfl

theorem Match.shape_normalises : Match.shape.Normalises Match.normalForm :=
  Shape.via_normalises
    (Shape.either_normalises Shape.text_normalises MatchLabels.shape_normalises) toSum_ofSum

theorem ResourceSelector.shape_normalises :
    ResourceSelector.shape.Normalises ResourceSelector.normalForm := by
  refine Shape.via_normalises (Shape.recordWith_normalises (by decide) (by decide) ?_
    Shape.text_normalises MatchLabels.shape_normalises) ?_
  · exact .cons (Field.required_normalises Shape.text_normalises) <|
      .cons (Field.required_normalises Shape.text_normalises) .nil
  · rintro ⟨⟨apiVersion, kind, ⟨⟩⟩, x⟩
    exact congrArg (Prod.mk _) (Match.toSum_ofSum x)

theorem Requirements.shape_normalises : Requirements.shape.Normalises Requirements.normalForm := by
  refine Shape.via_normalises (Shape.record_normalises (by decide) ?_) ?_
  · exact .cons (Field.optional_normalises (Shape.map_normalises ResourceSelector.shape_normalises))
      .nil
  · rintro ⟨extra, ⟨⟩⟩
    rfl

theorem Severity.shape_normalises : Severity.shape.Normalises Rule.optionName := by
  refine Shape.choice_normalises fun name severity h => ?_
  obtain ⟨_, _, hseverity⟩ := List.mem_map.1 (mem_of_lookup h)
  cases hseverity
  rfl

theorem FunctionResult.shape_normalises :
    FunctionResult.shape.Normalises FunctionResult.normalForm := by
  refine Shape.via_normalises (Shape.record_normalises (by decide) ?_) ?_
  · exact .cons (Field.defaulted_normalises Severity.shape_normalises .unspecified) <|
      .cons (Field.defaulted_normalises Shape.text_normalises "") .nil
  · rintro ⟨severity, message, ⟨⟩⟩
    rfl

theorem Response.shape_normalises : Response.shape.Normalises Response.normalForm := by
  refine Shape.via_normalises (Shape.record_normalises (by decide) ?_) ?_
  · exact .cons (Field.optional_normalises ResponseMeta.shape_normalises) <|
      .cons (Field.optional_normalises State.shape_normalises) <|
      .cons (Field.trimmed_normalises (Shape.list_normalises FunctionResult.shape_normalises)
        FunctionResult.shape_lawful [] _) <|
      .cons (Field.optional_normalises Shape.object_normalises) <|
      .cons (Field.optional_normalises Requirements.shape_normalises) .nil
  · rintro ⟨info, desired, results, context, requirements, ⟨⟩⟩
    rfl

/-! ## All messages -/

namespace MessageType

/-- The normal form of what is read as a message of a type. -/
def normalForm : MessageType → Rule
  | request => Request.normalForm
  | response => Response.normalForm
  | state => State.normalForm
  | resource => Resource.normalForm
  | resources => Resources.normalForm
  | requestMeta => RequestMeta.normalForm
  | responseMeta => ResponseMeta.normalForm
  | requirements => Requirements.normalForm
  | resourceSelector => ResourceSelector.normalForm
  | selection => Match.normalForm
  | matchLabels => MatchLabels.normalForm
  | functionResult => FunctionResult.normalForm
  | severity => Rule.optionName
  | ready => Rule.optionName

theorem shape_normalises : (T : MessageType) → T.shape.Normalises T.normalForm
  | request => Request.shape_normalises
  | response => Response.shape_normalises
  | state => State.shape_normalises
  | resource => Resource.shape_normalises
  | resources => Resources.shape_normalises
  | requestMeta => RequestMeta.shape_normalises
  | responseMeta => ResponseMeta.shape_normalises
  | requirements => Requirements.shape_normalises
  | resourceSelector => ResourceSelector.shape_normalises
  | selection => Match.shape_normalises
  | matchLabels => MatchLabels.shape_normalises
  | functionResult => FunctionResult.shape_normalises
  | severity => Severity.shape_normalises
  | ready => Ready.shape_normalises

/-- **A message that was read from a value is written as the normal form of that value.** -/
theorem written_in_normalForm (T : MessageType) {v : Json} {m : T.Value}
    (h : T.shape.ofValue v = .ok m) : T.shape.value m = T.normalForm v :=
  T.shape_normalises .value v m rfl h

/-- A response in array form, with a time to live of its own spelling and a fatal result whose
severity is given as an object. -/
theorem array_response_in_normalForm :
    let v := Json.array [
      .object (StringMap.ofList [("ttl", .text "+060.50s"), ("other", .null)]), .null,
      .array [.object (StringMap.ofList
        [("severity", .object (StringMap.ofList [("SEVERITY_FATAL", .null)]))])]]
    let m : Response :=
      { Response.empty with
        info := some ⟨"", some ⟨60, 500000000, by decide, by decide⟩⟩
        results := [⟨.fatal, ""⟩] }
    (shape response).ofValue v = .ok m ∧ (shape response).value m = normalForm response v :=
  ⟨rfl, written_in_normalForm response rfl⟩

end MessageType

end CompositionFunction
