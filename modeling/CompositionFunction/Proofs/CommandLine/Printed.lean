import CompositionFunction.Proofs.CommandLine.ContextFlag
import CompositionFunction.Proofs.CommandLine.Run
import CompositionFunction.Proofs.Message.Types
import CompositionFunction.Proofs.Schema.Levels

/-!
# Reading the printed response

Each value of the context is read as a document of its own, and printed two levels down in another
one. What was read as deep as a reader goes is printed deeper than that. Everything else in a
printed response either was read from the request, at the same level, or is flat.

* `Response.depth_le_iff` : what decides how deep a response is printed.
* `printed_response_read_back` : when the printed line is read as the response.
* `deep_value_not_read_back` : a value that the flag accepts and the reader of responses refuses.
-/

set_option autoImplicit false

namespace CompositionFunction

open Json Schema

/-! ## How deep messages are printed -/

/-- An optional object is printed one level above its members. -/
theorem object_depth_le {n : Nat} {members : Option JsonObject} :
    (∀ ms, members = some ms → (Shape.object.document ms).depth ≤ n + 1) ↔
      ∀ key v, (members.bind fun ms => ms.find? key) = some v → v.document.depth ≤ n := by
  cases members with
  | none => simp
  | some ms =>
    have hmembers : (Shape.object.document ms).depth ≤ n + 1 ↔
        ∀ key v, ms.find? key = some v → v.document.depth ≤ n :=
      Nat.succ_le_succ_iff.trans membersDepth_memberDocuments_le
    simpa using hmembers

/-- A response is as deep as its desired state and its context make it. -/
theorem Response.depth_le_iff (r : Response) :
    (Response.shape.document r).depth ≤ 127 ↔
      (∀ s, r.desired = some s → (State.shape.document s).depth ≤ 126) ∧
        ∀ key v, r.contextAt? key = some v → v.document.depth ≤ 125 := by
  have hinfo : ∀ m, r.info = some m → (ResponseMeta.shape.document m).depth ≤ 126 := fun m _ =>
    Nat.le_trans (Shape.depth_le ResponseMeta.shape (n := 1) m rfl) (by decide)
  have hresults : ∀ d, (Field.trimmed "results" (.list FunctionResult.shape) []
      inferInstance).document? r.results = some d → d.depth ≤ 126 := fun d hd =>
    Nat.le_trans (Field.depth_le _ (n := 2) r.results d rfl hd) (by decide)
  have hrequirements : ∀ q, r.requirements = some q →
      (Requirements.shape.document q).depth ≤ 126 := fun q _ =>
    Nat.le_trans (Shape.depth_le Requirements.shape (n := 5) q rfl) (by decide)
  show Document.membersDepth (fields.members
    (r.info, r.desired, r.results, r.context, r.requirements, ())) + 1 ≤ 126 + 1 ↔ _
  refine Nat.succ_le_succ_iff.trans ⟨fun h => ?_, fun ⟨hdesired, hcontext⟩ => ?_⟩
  · obtain ⟨_, h⟩ := Fields.membersDepth_cons_le.1 h
    obtain ⟨hdesired, h⟩ := Fields.membersDepth_cons_le.1 h
    obtain ⟨_, h⟩ := Fields.membersDepth_cons_le.1 h
    obtain ⟨hcontext, _⟩ := Fields.membersDepth_cons_le.1 h
    exact ⟨Field.optional_depth_le.1 hdesired,
      object_depth_le.1 (Field.optional_depth_le.1 hcontext)⟩
  · refine Fields.membersDepth_cons_le.2 ⟨Field.optional_depth_le.2 hinfo, ?_⟩
    refine Fields.membersDepth_cons_le.2 ⟨Field.optional_depth_le.2 hdesired, ?_⟩
    refine Fields.membersDepth_cons_le.2 ⟨hresults, ?_⟩
    refine Fields.membersDepth_cons_le.2
      ⟨Field.optional_depth_le.2 (object_depth_le.2 hcontext), ?_⟩
    exact Fields.membersDepth_cons_le.2
      ⟨Field.optional_depth_le.2 hrequirements, Nat.zero_le 126⟩

/-- What was read from a request is no deeper than it may be in a response. -/
theorem Request.depth_le_of_ofText {s : String} {q : Request} (h : Request.shape.ofText s = .ok q) :
    (∀ d, q.desired = some d → (State.shape.document d).depth ≤ 126) ∧
      ∀ key v, q.contextValue? key = some v → v.document.depth ≤ 125 := by
  have hreserve : Request.shape.reserve ≤ 127 := by decide
  have hdepth := Shape.depth_le_of_ofText Request.shape_lawful hreserve h
  have hmembers : Document.membersDepth (fields.members
      (q.info, q.observed, q.desired, q.input, q.context, q.extraResources, ())) ≤ 126 :=
    Nat.le_of_succ_le_succ hdepth
  obtain ⟨_, hmembers⟩ := Fields.membersDepth_cons_le.1 hmembers
  obtain ⟨_, hmembers⟩ := Fields.membersDepth_cons_le.1 hmembers
  obtain ⟨hdesired, hmembers⟩ := Fields.membersDepth_cons_le.1 hmembers
  obtain ⟨_, hmembers⟩ := Fields.membersDepth_cons_le.1 hmembers
  obtain ⟨hcontext, _⟩ := Fields.membersDepth_cons_le.1 hmembers
  exact ⟨Field.optional_depth_le.1 hdesired,
    object_depth_le.1 (Field.optional_depth_le.1 hcontext)⟩

namespace CommandLine

/-! ## The printed line -/

section Printed

variable {request : Request} {flags : RespondFlags} {config : Config} {r : Response}

/-- The response to a request that was read is too deep only for a value of a flag. -/
theorem depth_le_iff_of_responseTo {s : String} (hrequest : Request.shape.ofText s = .ok request)
    (h : responseTo request flags config = .ok r) :
    (Response.shape.document r).depth ≤ 127 ↔
      ∀ key v, lastAt? key flags.contextEntries = some v → v.document.depth ≤ 125 := by
  obtain ⟨_, rfl⟩ := responseTo_eq_ok.1 h
  obtain ⟨hdesired, hcontext⟩ := Request.depth_le_of_ofText hrequest
  rw [Response.depth_le_iff, RespondFlags.desired_calls]
  simp only [RespondFlags.contextAt?_calls]
  constructor
  · rintro ⟨_, hvalues⟩ key v hv
    exact hvalues key v (by rw [hv]; rfl)
  · intro hflags
    refine ⟨hdesired, fun key v hv => ?_⟩
    rcases Option.or_eq_some_iff.1 hv with hv | ⟨_, hv⟩
    · exact hflags key v hv
    · exact hcontext key v hv

/-- A line with stable numbers is read as the response exactly if it is not too deep. -/
theorem ofText_responseLine_iff (hstable : (Response.shape.document r).hasStableNumbers = true)
    (layout : Document.Layout) :
    Response.shape.ofText (responseLine layout r) = .ok r ↔
      (Response.shape.document r).depth ≤ 127 := by
  have hreserve : Response.shape.reserve ≤ 127 := by decide
  constructor
  · exact Shape.depth_le_of_ofText Response.shape_lawful hreserve
  · exact Shape.ofText_of_outline Response.shape_lawful (ofText_render_line layout hstable)

/-- **When the printed line can be read back.** If every number in the response is read back from
its own text, the line is read as the response that was built, in either layout, exactly if no value
that the flags put into the context nests deeper than 125 levels. -/
theorem printed_response_read_back {t : FileTree} {home : String}
    (hconfig : ((currentConfig home :
      StateM FileTree (Except Error Config × List Event)).run t).1.1 = .ok config)
    (hrequest : ((requestFrom flags.request :
      StateM FileTree (Except Error Request)).run t).1 = .ok request)
    (hresponse : responseTo request flags config = .ok r) :
    ((respond home flags : StateM FileTree Outcome).run t).1.result =
        .ok (responseLine (layoutOf flags config) r) ∧
      ((Response.shape.document r).hasStableNumbers = true → ∀ layout,
        (Response.shape.ofText (responseLine layout r) = .ok r ↔
          ∀ key v, lastAt? key flags.contextEntries = some v → v.document.depth ≤ 125)) := by
  refine ⟨result_respond_eq_ok.2 ⟨config, request, r, hconfig, hrequest, hresponse, rfl⟩,
    fun hstable layout => ?_⟩
  obtain ⟨s, _, hs⟩ := requestFrom_eq_ok.1 hrequest
  rw [ofText_responseLine_iff hstable layout, depth_le_iff_of_responseTo hs hresponse]

end Printed

/-! ## Values that are not read back -/

/-- The flags that set one key of the context, for a request on the standard input. -/
def onlyContext (raw : String) : RespondFlags := ⟨"-", none, [raw], [], [], [], true⟩

theorem responseTo_onlyContext {raw key : String} {v : Json} (h : contextEntry raw = .ok (key, v))
    (request : Request) (config : Config) :
    responseTo request (onlyContext raw) config =
      .ok ((Response.replyTo request config.ttl).setContext key v) := by
  have hsteps : (onlyContext raw).steps = [.ok (.context key v)] := by
    show [(contextEntry raw).map fun e => Step.context e.1 e.2] = _
    rw [h]
    rfl
  unfold responseTo
  rw [hsteps]
  rfl

/-- An array in an array, and so on, so many of them around the empty one. -/
def nestedArray : Nat → Json
  | 0 => .array []
  | n + 1 => .array [nestedArray n]

theorem depth_nestedArray (n : Nat) : (nestedArray n).document.depth = n + 1 := by
  induction n with
  | zero => rfl
  | succ n ih =>
    show max (nestedArray n).document.depth 0 + 1 = _
    rw [ih]
    omega

theorem hasStableNumbers_nestedArray (n : Nat) :
    (nestedArray n).document.hasStableNumbers = true := by
  induction n with
  | zero => rfl
  | succ n ih =>
    show ((nestedArray n).document.hasStableNumbers && true) = true
    rw [ih]
    rfl

theorem contextEntries_onlyContext {raw key : String} {v : Json}
    (h : contextEntry raw = .ok (key, v)) : (onlyContext raw).contextEntries = [(key, v)] := by
  show [raw].filterMap (fun raw => (contextEntry raw).toOption) = _
  rw [List.filterMap_cons, h]
  rfl

/-- The empty request, as an object without members. -/
def emptyRequestText : String := "\x7b\x7d"

theorem requestFrom_emptyRequestText : ((requestFrom "-" :
    StateM FileTree (Except Error Request)).run (onlyInput emptyRequestText)).1 = .ok .empty :=
  requestFrom_eq_ok.2 ⟨emptyRequestText, sourceText_onlyInput emptyRequestText, rfl⟩

/-- The line of a response to the empty request that sets one key of the context. -/
theorem respond_onlyContext {raw key : String} {v : Json} (h : contextEntry raw = .ok (key, v)) :
    ((respond "/" (onlyContext raw) : StateM FileTree Outcome).run
        (onlyInput emptyRequestText)).1.result =
      .ok (responseLine .compact
        ((Response.replyTo .empty Config.builtIn.ttl).setContext key v)) :=
  result_respond_eq_ok.2 ⟨.builtIn, .empty, _, currentConfig_onlyInput emptyRequestText,
    requestFrom_emptyRequestText, responseTo_onlyContext h .empty .builtIn, rfl⟩

/-- A value of 125 levels is read back. -/
theorem deep_value_read_back :
    let raw := "k" ++ "=" ++ (nestedArray 124).document.render .compact
    let r := (Response.replyTo .empty Config.builtIn.ttl).setContext "k" (nestedArray 124)
    ((respond "/" (onlyContext raw) : StateM FileTree Outcome).run
        (onlyInput emptyRequestText)).1.result =
        .ok (responseLine .compact r) ∧
      Response.shape.ofText (responseLine .compact r) = .ok r ∧
      Response.shape.ofText (responseLine .indented r) = .ok r := by
  intro raw r
  have hentry : contextEntry raw = .ok ("k", nestedArray 124) := by
    have hdepth : (nestedArray 124).document.depth ≤ 127 := by
      rw [depth_nestedArray]
      decide
    rw [contextEntry_render (by decide) .compact (hasStableNumbers_nestedArray 124) hdepth,
      Document.value_document]
  obtain ⟨hprinted, hread⟩ := printed_response_read_back
    (currentConfig_onlyInput emptyRequestText) requestFrom_emptyRequestText
    (responseTo_onlyContext hentry .empty .builtIn)
  have hstable : (Response.shape.document r).hasStableNumbers = true := by decide +kernel
  have hdepth : ∀ key v, lastAt? key (onlyContext raw).contextEntries = some v →
      v.document.depth ≤ 125 := by
    intro key v hv
    rw [contextEntries_onlyContext hentry] at hv
    by_cases hkey : "k" = key
    · simp only [lastAt?, hkey, List.filterMap_cons, if_true, List.filterMap_nil,
        List.getLast?_singleton, Option.some.injEq] at hv
      exact hv ▸ Nat.le_of_eq (depth_nestedArray 124)
    · simp [lastAt?, hkey] at hv
  exact ⟨hprinted, (hread hstable .compact).2 hdepth, (hread hstable .indented).2 hdepth⟩

/-- A value of 126 levels, which the flag accepts, is not read back, and neither is a number whose
text is read as another one. -/
theorem deep_and_unstable_values_not_read_back :
    let deep := "k" ++ "=" ++ (nestedArray 125).document.render .compact
    let unstable := "k=5.695789113176888e-14"
    (∃ r, responseTo .empty (onlyContext deep) .builtIn = .ok r ∧
      ((respond "/" (onlyContext deep) : StateM FileTree Outcome).run
        (onlyInput emptyRequestText)).1.result =
        .ok (responseLine .compact r) ∧
      Response.shape.ofText (responseLine .compact r) ≠ .ok r) ∧
    ∃ r, responseTo .empty (onlyContext unstable) .builtIn = .ok r ∧
      ((respond "/" (onlyContext unstable) : StateM FileTree Outcome).run
        (onlyInput emptyRequestText)).1.result = .ok (responseLine .compact r) ∧
      Response.shape.ofText (responseLine .compact r) ≠ .ok r := by
  intro deep unstable
  constructor
  · have hentry : contextEntry deep = .ok ("k", nestedArray 125) := by
      have hdepth : (nestedArray 125).document.depth ≤ 127 := by
        rw [depth_nestedArray]
        decide
      rw [contextEntry_render (by decide) .compact (hasStableNumbers_nestedArray 125) hdepth,
        Document.value_document]
    refine ⟨_, responseTo_onlyContext hentry .empty .builtIn, respond_onlyContext hentry, ?_⟩
    intro hread
    have hreserve : Response.shape.reserve ≤ 127 := by decide
    have hdepth := Shape.depth_le_of_ofText Response.shape_lawful hreserve hread
    have hvalue := ((Response.depth_le_iff _).1 hdepth).2 "k" (nestedArray 125) rfl
    rw [depth_nestedArray] at hvalue
    exact absurd hvalue (by decide)
  · let number := "5.695789113176888e-14"
    let v := (Json.parse? number).getD (.text number)
    let r := (Response.replyTo .empty Config.builtIn.ttl).setContext "k" v
    have hcut : cut '=' unstable = some ("k", number) := by decide +kernel +revert
    have hother : (Response.shape.ofText (responseLine .compact r)).toOption ≠ some r := by
      decide +kernel +revert
    have hentry : contextEntry unstable = .ok ("k", v) := by
      rw [contextEntry, hcut]
    exact ⟨r, responseTo_onlyContext hentry .empty .builtIn, respond_onlyContext hentry,
      fun hread => hother (congrArg Except.toOption hread)⟩

end CommandLine

end CompositionFunction
