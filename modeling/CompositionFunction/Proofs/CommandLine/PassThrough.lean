import CompositionFunction.Proofs.CommandLine.Printed
import CompositionFunction.Proofs.Message.NormalForm
import CompositionFunction.Proofs.Schema.FloatFree
import CompositionFunction.Proofs.Schema.Repeated

/-!
# Responding without flags

A response without flags carries desired state and context of the request on. So its printed
document holds the context of the request document as it is, and its desired state in normal form.

* `Request.gives_of_ofText` : what a request is read from, member by member.
* `Response.written` : what a response is written as, member by member.
* `state_passed_through` : what is printed of a request document.
-/

set_option autoImplicit false

namespace CompositionFunction

open Json Schema

/-! ## From the request to the response -/

/-- A request that is read from a text is given by the members of the value of the text. -/
theorem Request.gives_of_ofText {s : String} {v : Json} {q : Request} (hvalue : parse? s = some v)
    (h : Request.shape.ofText s = .ok q) :
    Request.fields.Gives .value (fun k => (Rule.memberAt? Request.fields.names v k).map Json.tree)
      (q.info, q.observed, q.desired, q.input, q.context, q.extraResources, ()) := by
  have hread : Request.shape.ofValue v = .ok q :=
    Shape.ofValue_of_ofText Request.shape_lawful rfl hvalue h
  obtain ⟨⟨info, observed, desired, input, context, extra, ⟨⟩⟩, hrow, hmake⟩ :=
    Shape.refined_eq_ok.1 hread
  obtain rfl := Except.ok.inj hmake
  exact Shape.record_gives (by decide) rfl hrow

/-- A response is written as an object of what its fields write. -/
theorem Response.written (r : Response) : ∃ out : JsonObject, Response.shape.value r = .object out ∧
    Response.fields.Written (out.find? ·)
      (r.info, r.desired, r.results, r.context, r.requirements, ()) :=
  Shape.record_written Response.fields (by decide)
    (r.info, r.desired, r.results, r.context, r.requirements, ())

theorem ResponseMeta.written (m : ResponseMeta) : ∃ out : JsonObject,
    ResponseMeta.shape.value m = .object out ∧ out.find? "tag" = some (.text m.tag) := by
  obtain ⟨out, hout, htag, _⟩ := Shape.record_written
    (.cons (.defaulted "tag" .text "") (.cons (.optional "ttl" Duration.shape) .nil)) (by decide)
    (m.tag, m.ttl, ())
  exact ⟨out, hout, htag⟩

/-! ## Numbers -/

theorem Resource.shape_keepsFloatFree : Resource.shape.KeepsFloatFree := by
  have hdetails : ConnectionDetails.shape.KeepsFloatFree :=
    Shape.keepsFloatFree_of_document fun details => Shape.isFloatFree_texts details.texts
  have hready : Ready.shape.KeepsFloatFree := Shape.keepsFloatFree_of_document fun _ => rfl
  refine Shape.via_keepsFloatFree (Shape.record_keepsFloatFree (by decide) ?_) ?_
  · exact .cons (Field.optional_keepsFloatFree Shape.object_keepsFloatFree) <|
      .cons (Field.trimmed_keepsFloatFree hdetails .empty _) <|
      .cons (Field.trimmed_keepsFloatFree hready .unspecified _) .nil
  · rintro ⟨body, connectionDetails, ready, ⟨⟩⟩
    rfl

theorem State.shape_keepsFloatFree : State.shape.KeepsFloatFree := by
  refine Shape.via_keepsFloatFree (Shape.record_keepsFloatFree (by decide) ?_) ?_
  · exact .cons (Field.optional_keepsFloatFree Resource.shape_keepsFloatFree) <|
      .cons (Field.optional_keepsFloatFree
        (Shape.map_keepsFloatFree Resource.shape_keepsFloatFree)) .nil
  · rintro ⟨composite, composed, ⟨⟩⟩
    rfl

/-- A response without results and requirements has the numbers of its desired state and of its
context. -/
theorem Response.isFloatFree_replyTo {q : Request} {ttl : Duration}
    (hdesired : ∀ d, (Field.optional "desired" State.shape).document? q.desired = some d →
      d.isFloatFree = true)
    (hcontext : ∀ d, (Field.optional "context" Shape.object).document? q.context = some d →
      d.isFloatFree = true) :
    (Response.shape.document (.replyTo q ttl)).isFloatFree = true := by
  have hinfo : ∀ d, (Field.optional "meta" ResponseMeta.shape).document?
      (some ⟨q.tag, some ttl⟩) = some d → d.isFloatFree = true := by
    rintro d ⟨⟩
    rfl
  have hresults : ∀ d, (Field.trimmed "results" (.list FunctionResult.shape) []
      inferInstance).document? [] = some d → d.isFloatFree = true := by
    intro d hd
    rw [Field.document?_trimmed_self] at hd
    cases hd
  refine Fields.haveFloatFreeValues_cons.2 ⟨hinfo, ?_⟩
  refine Fields.haveFloatFreeValues_cons.2 ⟨hdesired, ?_⟩
  refine Fields.haveFloatFreeValues_cons.2 ⟨hresults, ?_⟩
  refine Fields.haveFloatFreeValues_cons.2 ⟨hcontext, ?_⟩
  exact Fields.haveFloatFreeValues_cons.2 ⟨nofun, rfl⟩

namespace CommandLine

/-! ## The printed document -/

/-- Without flags, the response is the reply to the request. -/
theorem responseTo_noFlags (request : Request) (source : String) (compact : Bool)
    (config : Config) :
    responseTo request ⟨source, none, [], [], [], [], compact⟩ config =
      .ok (.replyTo request config.ttl) := rfl

/-- **Without flags, the state is passed through.** For every request document without
floating-point numbers, in object or in array form, the printed document has the context of the
request as it is and its desired state in normal form, and neither if the request has none. It has
the tag of the request, and neither results nor requirements. -/
theorem state_passed_through {t : FileTree} {home source s : String} {v : Json} {config : Config}
    {request : Request}
    (hconfig : ((currentConfig home :
      StateM FileTree (Except Error Config × List Event)).run t).1.1 = .ok config)
    (hsource : sourceText t source = .ok s) (hvalue : parse? s = some v)
    (hrequest : Request.shape.ofText s = .ok request) (hfloat : v.document.isFloatFree = true)
    (compact : Bool) :
    ∃ text out,
      ((respond home ⟨source, none, [], [], [], [], compact⟩ :
          StateM FileTree Outcome).run t).1.result = .ok text ∧
        parse? text = some (.object out) ∧
        out.find? "context" =
          FieldRule.unlessNull id (Rule.memberAt? Request.fields.names v "context") ∧
        out.find? "desired" =
          FieldRule.unlessNull State.normalForm (Rule.memberAt? Request.fields.names v "desired") ∧
        (∃ info, out.find? "meta" = some (.object info) ∧
          info.find? "tag" = some (.text request.tag)) ∧
        out.find? "results" = none ∧ out.find? "requirements" = none := by
  obtain ⟨_, _, hdesired, _, hcontext, _⟩ := Request.gives_of_ofText hvalue hrequest
  let r := Response.replyTo request config.ttl
  let layout := layoutOf ⟨source, none, [], [], [], [], compact⟩ config
  have hprinted := result_respond_eq_ok.2 ⟨config, request, r, hconfig,
    requestFrom_eq_ok.2 ⟨s, hsource, hrequest⟩,
    responseTo_noFlags request source compact config, rfl⟩
  -- The document is read as the value of the response: it is not too deep, and has no floats.
  have hdepth : (Response.shape.document r).depth ≤ 127 :=
    (Response.depth_le_iff r).2 (Request.depth_le_of_ofText hrequest)
  have hnumbers : (Response.shape.document r).isFloatFree = true :=
    Response.isFloatFree_replyTo
      (Field.optional_keepsFloatFree State.shape_keepsFloatFree .value _ _ rfl hdesired
        fun _ => isFloatFree_memberAt? hfloat)
      (Field.optional_keepsFloatFree Shape.object_keepsFloatFree .value _ _ rfl hcontext
        fun _ => isFloatFree_memberAt? hfloat)
  have hread : parse? (responseLine layout r) = some (Response.shape.value r) :=
    parse?_of_outline
      (ofText_render_line layout (Document.hasStableNumbers_of_isFloatFree _ hnumbers)) hdepth
  obtain ⟨out, hout, hinfo, hdesired', hresults, hcontext', hrequirements, _⟩ := Response.written r
  obtain ⟨info, hinfo', htag⟩ := ResponseMeta.written ⟨request.tag, some config.ttl⟩
  rw [hout] at hread
  refine ⟨_, out, hprinted, hread, ?_, ?_, ⟨info, ?_, htag⟩, ?_, ?_⟩
  · exact hcontext'.trans
      (Field.optional_normalises Shape.object_normalises .value _ _ rfl hcontext)
  · exact hdesired'.trans
      (Field.optional_normalises State.shape_normalises .value _ _ rfl hdesired)
  · exact hinfo.trans (congrArg some hinfo')
  · exact hresults.trans (congrArg (Option.map Document.value) Field.document?_trimmed_self)
  · exact hrequirements

/-- A request in array form. It has one resource, with a member that no field reads, twice, and a
context whose key is escaped. -/
def arrayRequestText : String :=
  "[\x7b\"tag\":\"t\"\x7d,null,\x7b\"composite\":null,\"resources\":\x7b\"a\":" ++
    "\x7b\"x\":0,\"x\":1,\"ready\":\x7b\"READY_TRUE\":null\x7d\x7d\x7d\x7d,null," ++
    "\x7b\"\\u006b\":[true,\x7b\x7d]\x7d]"

/-- What it is read as. -/
def arrayRequestValue : Json :=
  let ready := Json.object (StringMap.ofList [("READY_TRUE", .null)])
  let a := Json.object (StringMap.ofList
    [("ready", ready), ("x", .number (.int 1 (by decide) (by decide)))])
  .array [.object (StringMap.ofList [("tag", .text "t")]), .null,
    .object (StringMap.ofList
      [("composite", .null), ("resources", .object (StringMap.ofList [("a", a)]))]),
    .null, .object (StringMap.ofList [("k", .array [.bool true, .object .nil])])]

/-- Of the request in array form, the context is printed as it is, and the resource without the
member that no field reads. -/
theorem array_request_passed_through :
    (parse? arrayRequestText = some arrayRequestValue ∧
      arrayRequestValue.document.isFloatFree = true) ∧
    ∃ text out,
      ((respond "/" ⟨"-", none, [], [], [], [], false⟩ : StateM FileTree Outcome).run
          (onlyInput arrayRequestText)).1.result = .ok text ∧
        parse? text = some (.object out) ∧
        out.find? "context" =
          some (.object (StringMap.ofList [("k", .array [.bool true, .object .nil])])) ∧
        out.find? "desired" = some (.object (StringMap.ofList [("resources", .object
          (StringMap.ofList [("a", .object
            (StringMap.ofList [("ready", .text "READY_TRUE")]))]))])) := by
  have hsource := sourceText_onlyInput arrayRequestText
  have hvalue : parse? arrayRequestText = some arrayRequestValue := by decide +kernel
  have hfloat : arrayRequestValue.document.isFloatFree = true := by decide +kernel
  obtain ⟨request, hrequest⟩ : ∃ request, Request.shape.ofText arrayRequestText = .ok request := by
    have hread : (Request.shape.ofText arrayRequestText).isOk = true := by decide +kernel
    cases hok : Request.shape.ofText arrayRequestText with
    | error e =>
      rw [hok] at hread
      cases hread
    | ok request => exact ⟨request, rfl⟩
  obtain ⟨text, out, hprinted, hout, hcontext, hdesired, _⟩ := state_passed_through
    (currentConfig_onlyInput arrayRequestText) hsource hvalue hrequest hfloat false
  refine ⟨⟨hvalue, hfloat⟩, text, out, hprinted, hout, hcontext.trans ?_, hdesired.trans ?_⟩
  · decide +kernel
  · decide +kernel

end CommandLine

end CompositionFunction
