import CompositionFunction.Proofs.Reply.Contents
import CompositionFunction.Proofs.StringMap

/-!
# Writing back what was read

A function that reads the desired state of its request and sets it unchanged in its response keeps
what the readers show. What they do not show is lost: the readiness of the composite and the
connection details of composed resources; and a resource without body gets the empty one.

* `Call.setReadComposed`, `Call.setReadComposite` : the calls that write back what was read.
* `Call.desired_written_back` : the desired state after them, and when it is the one before.
* `Call.readiness_and_details_dropped` : a state of which every part loses something.
-/

set_option autoImplicit false

namespace CompositionFunction

/-- Setting under every key what was made of its value makes that of the whole map. -/
theorem StringMap.insertAll_map_toList {α β : Type} (f : α → β) (g : β → α) (m : StringMap α) :
    m.insertAll ((Entries.map f m).toList.map fun e => (e.1, g e.2)) =
      Entries.map (fun a => g (f a)) m := by
  have hkeys : (((Entries.map f m).toList.map fun e => (e.1, g e.2)).map Prod.fst).Nodup := by
    rw [List.map_map]
    exact Entries.nodup_keys (Entries.map f m)
  refine StringMap.ext fun k => ?_
  rw [find?_insertAll k _ m hkeys, lookup_map_snd, Entries.lookup_toList, Entries.find?_map,
    Entries.find?_map]
  cases Entries.find? k m <;> rfl

/-- A map is unchanged by a transformation that changes none of its values. -/
theorem StringMap.map_eq_self_iff {α : Type} {f : α → α} {m : StringMap α} :
    Entries.map f m = m ↔ ∀ k a, m.find? k = some a → f a = a := by
  constructor
  · intro h k a ha
    have hk := Entries.find?_map f k m
    rw [h, ha] at hk
    exact (Option.some.inj hk).symm
  · intro h
    refine StringMap.ext fun k => ?_
    rw [Entries.find?_map]
    cases ha : Entries.find? k m with
    | none => rfl
    | some a => exact congrArg some (h k a ha)

namespace Resource

/-- What is left of a composite that was read and written back. -/
def rewrittenComposite (r : Resource) : Resource :=
  ⟨some r.bodyOrEmpty, r.connectionDetails, .unspecified⟩

/-- What is left of a composed resource that was read and written back. -/
def rewrittenComposed (r : Resource) : Resource := ⟨some r.bodyOrEmpty, .empty, r.ready⟩

/-- What is written of a composed resource that was read. -/
theorem mk_asDesired (r : Resource) :
    Resource.mk (some r.asDesired.body) .empty r.asDesired.ready = r.rewrittenComposed :=
  congrArg (Resource.mk (some r.bodyOrEmpty) .empty) r.ready.toReady_toReadiness

theorem some_bodyOrEmpty_eq {r : Resource} : some r.bodyOrEmpty = r.body ↔ r.body.isSome := by
  unfold bodyOrEmpty
  cases r.body with
  | none => exact ⟨nofun, nofun⟩
  | some body => exact ⟨fun _ => rfl, fun _ => rfl⟩

theorem rewrittenComposite_eq {r : Resource} :
    r.rewrittenComposite = r ↔ r.body.isSome ∧ r.ready = .unspecified := by
  rw [← some_bodyOrEmpty_eq]
  constructor
  · intro h
    exact ⟨congrArg body h, (congrArg ready h).symm⟩
  · rintro ⟨hbody, hready⟩
    rw [rewrittenComposite, hbody, ← hready]

theorem rewrittenComposed_eq {r : Resource} :
    r.rewrittenComposed = r ↔ r.body.isSome ∧ r.connectionDetails = .empty := by
  rw [← some_bodyOrEmpty_eq]
  constructor
  · intro h
    exact ⟨congrArg body h, (congrArg connectionDetails h).symm⟩
  · rintro ⟨hbody, hdetails⟩
    rw [rewrittenComposed, hbody, ← hdetails]

end Resource

namespace Call

/-- Sets the composed resources that were read from a request. -/
def setReadComposed (typeName : String) (q : Request) : Call :=
  setComposed (q.desiredComposed.toList.map fun e =>
    (e.1, .ofJson typeName (.object e.2.body), e.2.ready))

/-- Sets the composite that was read from a request. -/
def setReadComposite (typeName : String) (q : Request) : Call :=
  setComposite (.ofJson typeName (.object q.desiredComposite.body))
    q.desiredComposite.connectionDetails

/-- Bodies are written as they are. -/
theorem bodies_ofJson (typeName : String) (es : List (String × DesiredResource)) :
    bodies (es.map fun e => (e.1, .ofJson typeName (.object e.2.body), e.2.ready)) = .ok es := by
  induction es with
  | nil => rfl
  | cons e es ih =>
    rw [List.map_cons, bodies, ih]
    rfl

/-- Composed resources that are written back keep their bodies and their readiness. -/
theorem run_setReadComposed (typeName : String) (q : Request) (ttl : Duration) :
    (setReadComposed typeName q).run (.replyTo q ttl) =
      .ok ((Response.replyTo q ttl).withComposed
        ((State.composedOf q.desired).map Resource.rewrittenComposed)) := by
  have hread : (Response.replyTo q ttl).composedOrEmpty = State.composedOf q.desired := by
    unfold Response.composedOrEmpty
    rw [Response.composed_desiredOrEmpty]
    rfl
  show (bodies (q.desiredComposed.toList.map _)).map (Response.replyTo q ttl).setComposed = _
  rw [bodies_ofJson]
  show Except.ok ((Response.replyTo q ttl).setComposed q.desiredComposed.toList) = _
  have hwritten := StringMap.insertAll_map_toList Resource.asDesired
    (fun d : DesiredResource => Resource.mk (some d.body) .empty d.ready)
    (State.composedOf q.desired)
  rw [funext Resource.mk_asDesired] at hwritten
  rw [Response.setComposed, hread]
  exact congrArg (fun m => Except.ok ((Response.replyTo q ttl).withComposed m)) hwritten

/-- **Writing back what was read keeps what the readers show, and only that.** Both calls succeed.
The composite keeps its body and its connection details and loses its readiness; the composed
resources keep their bodies and their readiness and lose their connection details; a missing body
becomes the empty one; nothing else changes. So the desired state is the one before exactly if every
resource has a body, the composite states no readiness and no composed resource has details. -/
theorem desired_written_back (typeName : String) (q : Request) (ttl : Duration) (x : Resource)
    (m : StringMap Resource) (h : q.desired = some ⟨some x, some m⟩) :
    ∃ between final, (setReadComposed typeName q).run (.replyTo q ttl) = .ok between ∧
      (setReadComposite typeName q).run between = .ok final ∧
      final = { Response.replyTo q ttl with
        desired := some ⟨some ⟨some x.bodyOrEmpty, x.connectionDetails, .unspecified⟩,
          some (m.map fun c => ⟨some c.bodyOrEmpty, .empty, c.ready⟩)⟩ } ∧
      (final.desired = q.desired ↔
        (x.body.isSome ∧ x.ready = .unspecified) ∧
          ∀ name c, m.find? name = some c → c.body.isSome ∧ c.connectionDetails = .empty) := by
  obtain ⟨info, observed, desired, input, context, extraResources⟩ := q
  cases h
  refine ⟨_, _, run_setReadComposed typeName _ ttl, rfl, rfl, ?_⟩
  rw [← Resource.rewrittenComposite_eq]
  simp only [← Resource.rewrittenComposed_eq]
  rw [← StringMap.map_eq_self_iff]
  constructor
  · intro hsame
    have hstate := Option.some.inj hsame
    exact ⟨Option.some.inj (congrArg State.composite hstate),
      Option.some.inj (congrArg State.composed hstate)⟩
  · rintro ⟨hcomposite, hcomposed⟩
    show some (State.mk (some x.rewrittenComposite)
      (some (Entries.map Resource.rewrittenComposed m))) = some ⟨some x, some m⟩
    rw [hcomposite, hcomposed]

/-- A state without readiness of the composite and without connection details of composed resources
is left as it is. -/
theorem stated_bodies_left_alone :
    let body (kind : String) := StringMap.ofList [("kind", Json.text kind)]
    let composite : Resource := ⟨some (body "X"), StringMap.ofList [("u", [1])], .unspecified⟩
    let composed := StringMap.ofList [("a", Resource.mk (some (body "A")) .empty .no)]
    let q : Request := { Request.empty with desired := some ⟨some composite, some composed⟩ }
    q.desired = some ⟨some composite, some composed⟩ ∧
      ∃ between final,
        (setReadComposed "Body" q).run (.replyTo q (.ofSeconds 60 (by decide))) = .ok between ∧
          (setReadComposite "Body" q).run between = .ok final ∧ final.desired = q.desired := by
  intro body composite composed q
  obtain ⟨between, final, hcomposed, hcomposite, _, hsame⟩ :=
    desired_written_back "Body" q (.ofSeconds 60 (by decide)) composite composed rfl
  refine ⟨rfl, between, final, hcomposed, hcomposite, hsame.2 ⟨⟨rfl, rfl⟩, ?_⟩⟩
  intro name c hc
  have hmem := Entries.mem_toList.2 hc
  cases hmem with
  | head => exact ⟨rfl, rfl⟩
  | tail _ hmem => cases hmem

/-- A ready composite, a composed resource with a connection detail and one without a body: each
loses what the readers do not show. -/
theorem readiness_and_details_dropped :
    let body (kind : String) := StringMap.ofList [("kind", Json.text kind)]
    let details := StringMap.ofList [("p", [(1 : UInt8)])]
    let q : Request := { Request.empty with
      desired := some ⟨some ⟨some (body "X"), details, .yes⟩,
        some (StringMap.ofList [("a", ⟨some (body "A"), details, .no⟩),
          ("b", ⟨none, .empty, .yes⟩)])⟩ }
    ∃ between final,
      (setReadComposed "Body" q).run (.replyTo q (.ofSeconds 60 (by decide))) = .ok between ∧
        (setReadComposite "Body" q).run between = .ok final ∧
        final.desired ≠ q.desired ∧
        final.composite? = some ⟨some (body "X"), details, .unspecified⟩ ∧
        final.composedAt? "a" = some ⟨some (body "A"), .empty, .no⟩ ∧
        final.composedAt? "b" = some ⟨some .empty, .empty, .yes⟩ := by
  intro body details q
  refine ⟨_, _, run_setReadComposed "Body" q _, rfl, ?_, rfl, ?_, ?_⟩ <;> decide +kernel +revert

end Call

end CompositionFunction
