import CompositionFunction.Message.Body
import CompositionFunction.Message.Request
import CompositionFunction.Message.Response
import CompositionFunction.Proofs.Base64
import CompositionFunction.Proofs.Duration
import CompositionFunction.Proofs.Schema.RoundTrip

/-!
# The shapes of all messages are lawful

The names of each record are distinct, each option is found by its label, and durations and
connection details are read back from their texts.
-/

set_option autoImplicit false

namespace CompositionFunction

open Schema

/-! ## Texts -/

theorem Duration.shape_lawful : Duration.shape.Lawful := by
  refine ⟨trivial, fun d => ?_, fun _ _ _ => Nat.le_refl 0⟩
  rw [mapError_eq_ok]
  exact Duration.parse_text d

theorem ConnectionDetails.ofTexts_texts (details : ConnectionDetails) :
    ofTexts (texts details) = .ok details :=
  Entries.traverse_map (fun key bytes => by rw [Base64.decode_encode]; rfl) details

theorem ConnectionDetails.texts_ofTexts {ts : StringMap String} {details : ConnectionDetails}
    (h : ofTexts ts = .ok details) : texts details = ts := by
  refine Entries.map_of_traverse (fun key s bytes hbytes => ?_) h
  exact Base64.encode_of_decode (mapError_eq_ok.1 hbytes)

theorem ConnectionDetails.shape_lawful : ConnectionDetails.shape.Lawful := by
  refine ⟨trivial, ofTexts_texts, fun ts details h => ?_⟩
  exact Nat.le_of_eq (by rw [texts_ofTexts h])

/-! ## Options -/

theorem Ready.shape_lawful : Ready.shape.Lawful := by
  intro ready
  cases ready <;> decide

theorem Severity.shape_lawful : Severity.shape.Lawful := by
  intro severity
  cases severity <;> decide

/-! ## States -/

theorem Resource.shape_lawful : Resource.shape.Lawful := by
  refine Shape.via_lawful ⟨by decide, ⟨trivial, fun _ => nofun⟩, ConnectionDetails.shape_lawful,
    Ready.shape_lawful, trivial⟩ (fun _ => rfl) ?_
  rintro ⟨body, connectionDetails, ready, ⟨⟩⟩
  rfl

theorem State.shape_lawful : State.shape.Lawful := by
  refine Shape.via_lawful ⟨by decide, ⟨Resource.shape_lawful, fun _ => nofun⟩,
    ⟨Resource.shape_lawful, fun _ => nofun⟩, trivial⟩ (fun _ => rfl) ?_
  rintro ⟨composite, composed, ⟨⟩⟩
  rfl

/-! ## Requests -/

theorem RequestMeta.shape_lawful : RequestMeta.shape.Lawful := by
  refine Shape.via_lawful ⟨by decide, trivial, trivial⟩ (fun _ => rfl) ?_
  rintro ⟨tag, ⟨⟩⟩
  rfl

theorem Resources.shape_lawful : Resources.shape.Lawful := by
  refine Shape.via_lawful ⟨by decide, Resource.shape_lawful, trivial⟩ (fun _ => rfl) ?_
  rintro ⟨items, ⟨⟩⟩
  rfl

theorem Request.shape_lawful : Request.shape.Lawful := by
  refine Shape.via_lawful ⟨by decide, ⟨RequestMeta.shape_lawful, fun _ => nofun⟩,
    ⟨State.shape_lawful, fun _ => nofun⟩, ⟨State.shape_lawful, fun _ => nofun⟩,
    ⟨trivial, fun _ => nofun⟩, ⟨trivial, fun _ => nofun⟩, Resources.shape_lawful, trivial⟩
    (fun _ => rfl) ?_
  rintro ⟨info, observed, desired, input, context, extra, ⟨⟩⟩
  rfl

/-! ## Responses -/

theorem ResponseMeta.shape_lawful : ResponseMeta.shape.Lawful := by
  refine Shape.via_lawful ⟨by decide, trivial, ⟨Duration.shape_lawful, fun _ => nofun⟩, trivial⟩
    (fun _ => rfl) ?_
  rintro ⟨tag, ttl, ⟨⟩⟩
  rfl

theorem MatchLabels.shape_lawful : MatchLabels.shape.Lawful := by
  refine Shape.via_lawful ⟨by decide, trivial, trivial⟩ (fun _ => rfl) ?_
  rintro ⟨labels, ⟨⟩⟩
  rfl

theorem Match.ofSum_toSum (selection : Match) : Match.ofSum selection.toSum = selection := by
  cases selection <;> rfl

theorem Match.toSum_ofSum (x : String ⊕ MatchLabels) : (Match.ofSum x).toSum = x := by
  cases x <;> rfl

theorem Match.shape_lawful : Match.shape.Lawful :=
  Shape.via_lawful ⟨by decide, trivial, MatchLabels.shape_lawful⟩ ofSum_toSum toSum_ofSum

theorem ResourceSelector.shape_lawful : ResourceSelector.shape.Lawful := by
  refine Shape.via_lawful ⟨by decide, ⟨trivial, trivial, trivial⟩, trivial,
    MatchLabels.shape_lawful⟩ (fun s => ?_) ?_
  · exact congrArg (ResourceSelector.mk s.apiVersion s.kind) (Match.ofSum_toSum s.selection)
  · rintro ⟨⟨apiVersion, kind, ⟨⟩⟩, x⟩
    exact congrArg (Prod.mk _) (Match.toSum_ofSum x)

theorem Requirements.shape_lawful : Requirements.shape.Lawful := by
  refine Shape.via_lawful ⟨by decide, ⟨ResourceSelector.shape_lawful, fun _ => nofun⟩, trivial⟩
    (fun _ => rfl) ?_
  rintro ⟨extra, ⟨⟩⟩
  rfl

theorem FunctionResult.shape_lawful : FunctionResult.shape.Lawful := by
  refine Shape.via_lawful ⟨by decide, Severity.shape_lawful, trivial, trivial⟩ (fun _ => rfl) ?_
  rintro ⟨severity, message, ⟨⟩⟩
  rfl

theorem Response.shape_lawful : Response.shape.Lawful := by
  refine Shape.via_lawful ⟨by decide, ⟨ResponseMeta.shape_lawful, fun _ => nofun⟩,
    ⟨State.shape_lawful, fun _ => nofun⟩, FunctionResult.shape_lawful,
    ⟨trivial, fun _ => nofun⟩, ⟨Requirements.shape_lawful, fun _ => nofun⟩, trivial⟩
    (fun _ => rfl) ?_
  rintro ⟨info, desired, results, context, requirements, ⟨⟩⟩
  rfl

/-! ## Kinds -/

theorem GroupVersionKind.shape_lawful : GroupVersionKind.shape.Lawful := by
  refine Shape.via_lawful ⟨by decide, trivial, trivial, trivial, trivial⟩ (fun _ => rfl) ?_
  rintro ⟨group, version, kind, ⟨⟩⟩
  rfl

end CompositionFunction
