import CompositionFunction.Proofs.Reply.Handover
import CompositionFunction.Proofs.Reply.InPlace

/-!
# Batches of desired resources

Desired composed resources are set in batches. A batch with a body that cannot be written is refused
as a whole, whatever stands before or after that body. A batch without one is merged into the
resources that are there. Of the resources under one name only the last one counts, so batches merge
as maps do.

* `Batch.desired_set_all_or_nothing` : a refused batch or composite leaves no trace.
* `Response.setComposed_congr` : only the last resource of each name counts.
* `Batch.batches_merge_like_maps` : the order of a batch, its repetition, its parts.
-/

set_option autoImplicit false

namespace CompositionFunction

/-! ## Bodies -/

namespace TypedValue

/-- The value is written as an object. -/
def isBody (v : TypedValue) : Bool :=
  match v.encoding with
  | .ok (.object _) => true
  | _ => false

/-- What is wrong with a value that is not written as an object: what it is written as, or why it
is not written at all. -/
def mismatch (v : TypedValue) : String :=
  match v.encoding with
  | .ok other => "expected a JSON object, got " ++ kindOf other
  | .error fault => fault.message

theorem toBody_of_isBody {v : TypedValue} (h : v.isBody = true) : ∃ body, v.toBody = .ok body := by
  obtain ⟨typeName, encoding⟩ := v
  unfold isBody at h
  split at h
  · rename_i members hencoding
    cases hencoding
    exact ⟨members, rfl⟩
  · cases h

theorem toBody_of_not_isBody {v : TypedValue} (h : v.isBody = false) :
    v.toBody = .error (.conversion v.typeName v.mismatch) := by
  obtain ⟨typeName, encoding⟩ := v
  cases encoding with
  | error fault => rfl
  | ok json =>
    cases json with
    | object members => cases h
    | _ => rfl

end TypedValue

/-! ## Batches -/

/-- Composed resources to set, each with its name, its body and its readiness. -/
abbrev Batch : Type := List (String × TypedValue × Readiness)

/-- Both succeed on a response, and they leave the same one behind. -/
def Edit.AgreeOn (p q : Edit Unit) (r : Response) : Prop :=
  ∃ next, p.on r = (.ok (), next) ∧ q.on r = (.ok (), next)

namespace Response

/-- Two batches one after the other are one batch. -/
theorem setComposed_setComposed (r : Response) (xs ys : List (String × DesiredResource)) :
    (r.setComposed xs).setComposed ys = r.setComposed (xs ++ ys) := by
  unfold setComposed
  rw [List.map_append, StringMap.insertAll_append]
  rfl

/-- Only the last resource of each name counts. -/
theorem setComposed_congr {xs ys : List (String × DesiredResource)}
    (h : ∀ name, lastAt? name xs = lastAt? name ys) (r : Response) :
    r.setComposed xs = r.setComposed ys := by
  refine congrArg r.withComposed (StringMap.insertAll_congr (fun name => ?_) _)
  rw [lastAt?_map fun d : DesiredResource => Resource.mk (some d.body) .empty d.ready, h name,
    lastAt?_map fun d : DesiredResource => Resource.mk (some d.body) .empty d.ready]

end Response

namespace Batch

variable {b xs ys : Batch} {r : Response}

/-- The names in a batch. -/
def names (b : Batch) : List String := b.map Prod.fst

/-- Every body of the batch can be written. -/
def Converts (b : Batch) : Prop := ∀ e ∈ b, e.2.1.isBody = true

instance (b : Batch) : Decidable b.Converts :=
  inferInstanceAs (Decidable (∀ e ∈ b, e.2.1.isBody = true))

/-- The first body of the batch that cannot be written. -/
def misfit? (b : Batch) : Option TypedValue := (b.map fun e => e.2.1).find? fun v => !v.isBody

/-- Sets the resources of the batch in place. -/
def write (b : Batch) : Edit Unit := (Call.setComposed b).perform

/-- The resources of the batch whose bodies can be written. -/
def resources (b : Batch) : List (String × DesiredResource) := (Call.setComposed b).entries

theorem misfit?_eq_none : b.misfit? = none ↔ b.Converts := by
  unfold misfit? Converts
  rw [List.find?_eq_none, List.forall_mem_map]
  simp

/-- The first body that cannot be written decides, whatever comes after it. -/
theorem bodies_of_misfit? {v : TypedValue} (h : b.misfit? = some v) :
    Call.bodies b = .error (.conversion v.typeName v.mismatch) := by
  induction b with
  | nil => cases h
  | cons e b ih =>
    obtain ⟨name, value, ready⟩ := e
    unfold Call.bodies
    cases hvalue : value.isBody with
    | false =>
      obtain rfl : value = v := by simpa [misfit?, hvalue] using h
      rw [TypedValue.toBody_of_not_isBody hvalue]
    | true =>
      obtain ⟨body, hbody⟩ := TypedValue.toBody_of_isBody hvalue
      rw [hbody, ih (by simpa [misfit?, hvalue] using h)]

theorem bodies_of_converts (h : b.Converts) : Call.bodies b = .ok b.resources := by
  suffices hbodies : ∃ resources, Call.bodies b = .ok resources by
    obtain ⟨resources, hresources⟩ := hbodies
    exact hresources.trans (congrArg Except.ok (Call.entries_eq hresources).symm)
  induction b with
  | nil => exact ⟨[], rfl⟩
  | cons e b ih =>
    obtain ⟨body, hbody⟩ := TypedValue.toBody_of_isBody (h e List.mem_cons_self)
    obtain ⟨resources, hresources⟩ := ih fun x hx => h x (List.mem_cons_of_mem _ hx)
    refine ⟨(e.1, ⟨body, e.2.2⟩) :: resources, ?_⟩
    rw [Call.bodies, hbody, hresources]

theorem write_of_misfit? {v : TypedValue} (h : b.misfit? = some v) (r : Response) :
    b.write.on r = (.error (.conversion v.typeName v.mismatch), r) := by
  refine Call.perform_of_error ?_
  rw [Call.run, bodies_of_misfit? h]
  rfl

theorem write_of_converts (h : b.Converts) (r : Response) :
    b.write.on r = (.ok (), r.setComposed b.resources) := by
  refine Call.perform_of_ok ?_
  rw [Call.run, bodies_of_converts h]
  rfl

theorem setComposite_of_isBody {v : TypedValue} (h : v.isBody = true) (details : ConnectionDetails)
    (r : Response) :
    ∃ body, v.toBody = .ok body ∧
      (Call.setComposite v details).perform.on r = (.ok (), r.setComposite body details) := by
  obtain ⟨body, hbody⟩ := TypedValue.toBody_of_isBody h
  refine ⟨body, hbody, Call.perform_of_ok ?_⟩
  rw [Call.run, hbody]
  rfl

theorem setComposite_of_not_isBody {v : TypedValue} (h : v.isBody = false)
    (details : ConnectionDetails) (r : Response) :
    (Call.setComposite v details).perform.on r =
      (.error (.conversion v.typeName v.mismatch), r) := by
  refine Call.perform_of_error ?_
  rw [Call.run, TypedValue.toBody_of_not_isBody h]
  rfl

/-- **Setting desired resources is all or nothing.** A batch with a body that cannot be written
fails with the error of the first such body, and the response is what it was before; any other batch
succeeds, and its resources are set with their bodies. It is the same with the composite
resource. -/
theorem desired_set_all_or_nothing (r : Response) :
    (∀ b : Batch, match b.misfit? with
      | some v => b.write.on r = (.error (.conversion v.typeName v.mismatch), r)
      | none => Call.bodies b = .ok b.resources ∧
          b.write.on r = (.ok (), r.setComposed b.resources)) ∧
      ∀ (v : TypedValue) (details : ConnectionDetails),
        if v.isBody = true then
          ∃ body, v.toBody = .ok body ∧
            (Call.setComposite v details).perform.on r = (.ok (), r.setComposite body details)
        else (Call.setComposite v details).perform.on r =
          (.error (.conversion v.typeName v.mismatch), r) := by
  refine ⟨fun b => ?_, fun v details => ?_⟩
  · cases hmisfit : b.misfit? with
    | some v => exact write_of_misfit? hmisfit r
    | none =>
      have hconverts := misfit?_eq_none.1 hmisfit
      exact ⟨bodies_of_converts hconverts, write_of_converts hconverts r⟩
  · split
    · rename_i hbody
      exact setComposite_of_isBody hbody details r
    · rename_i hbody
      exact setComposite_of_not_isBody (Bool.eq_false_iff.2 hbody) details r

/-- The first of two bodies that cannot be written decides, and no container comes into being. -/
example :
    let value (v : Json) := TypedValue.ofJson "Value" v
    (write [("a", value (.object StringMap.empty), .yes), ("b", value .null, .no),
      ("c", value (.text "c"), .no)]).on .empty =
        (.error (.conversion "Value" "expected a JSON object, got null"), .empty) := rfl

/-! ## Merging -/

theorem map_fst_resources (h : b.Converts) : b.resources.map Prod.fst = b.names := by
  have hmap := congrArg (List.map Prod.fst) (Call.map_bodies (bodies_of_converts h))
  rw [List.map_map, List.map_map] at hmap
  exact hmap.symm

theorem Converts.append (hxs : xs.Converts) (hys : ys.Converts) : (xs ++ ys : Batch).Converts :=
  fun e he => (List.mem_append.1 he).elim (hxs e) (hys e)

theorem resources_append (xs ys : Batch) :
    resources (xs ++ ys) = xs.resources ++ ys.resources := List.filterMap_append

/-- Two batches one after the other set the resources of both. -/
theorem write_write_on (hxs : xs.Converts) (hys : ys.Converts) (r : Response) :
    Edit.on (do xs.write; ys.write) r =
      (.ok (), r.setComposed (xs.resources ++ ys.resources)) := by
  rw [Edit.on_bind, write_of_converts hxs]
  show ys.write.on _ = _
  rw [write_of_converts hys, Response.setComposed_setComposed]

/-- Whether a batch succeeds is the matter of its bodies, one by one. -/
theorem isOk_write (b : Batch) (r : Response) :
    (b.write.on r).1.isOk = b.all fun e => e.2.1.isBody := by
  cases hmisfit : b.misfit? with
  | none =>
    have hconverts := misfit?_eq_none.1 hmisfit
    rw [write_of_converts hconverts, List.all_eq_true.2 hconverts]
    rfl
  | some v =>
    have hbad : ¬ b.Converts := fun h => by
      rw [misfit?_eq_none.2 h] at hmisfit
      cases hmisfit
    rw [write_of_misfit? hmisfit, Bool.eq_false_iff.2 fun hall => hbad (List.all_eq_true.1 hall)]
    rfl

/-- **Batches merge like maps.** Two batches one after the other are one batch; a batch whose names
are distinct may be listed in any order, and no order of a batch changes whether it succeeds;
setting a batch again changes nothing; batches without a common name may be set in either order. -/
theorem batches_merge_like_maps (r : Response) :
    (∀ xs ys : Batch, xs.Converts → ys.Converts →
      Edit.AgreeOn (do xs.write; ys.write) (write (xs ++ ys)) r) ∧
    (∀ xs ys : Batch, xs.Converts → xs.names.Nodup → xs.Perm ys →
      Edit.AgreeOn xs.write ys.write r) ∧
    (∀ xs ys : Batch, xs.Perm ys → (xs.write.on r).1.isOk = (ys.write.on r).1.isOk) ∧
    (∀ xs : Batch, xs.Converts → Edit.AgreeOn (do xs.write; xs.write) xs.write r) ∧
    ∀ xs ys : Batch, xs.Converts → ys.Converts →
      (∀ name ∈ xs.names, name ∉ ys.names) →
      Edit.AgreeOn (do xs.write; ys.write) (do ys.write; xs.write) r := by
  refine ⟨fun xs ys hxs hys => ?_, fun xs ys hxs hnodup hperm => ?_, fun xs ys hperm => ?_,
    fun xs hxs => ?_, fun xs ys hxs hys hdisjoint => ?_⟩
  · refine ⟨_, write_write_on hxs hys r, ?_⟩
    rw [write_of_converts (hxs.append hys), resources_append]
  · have hys : ys.Converts := fun e he => hxs e (hperm.mem_iff.2 he)
    have hnames : (xs.resources.map Prod.fst).Nodup := map_fst_resources hxs ▸ hnodup
    refine ⟨_, write_of_converts hxs r, ?_⟩
    rw [write_of_converts hys, Response.setComposed_congr (lastAt?_perm hnames (hperm.filterMap _))]
    rfl
  · rw [isOk_write, isOk_write, hperm.all_eq]
  · refine ⟨_, write_write_on hxs hxs r, ?_⟩
    have hlast : ∀ name, lastAt? name xs.resources =
        lastAt? name (xs.resources ++ xs.resources) := by
      intro name
      rw [lastAt?_append, Option.or_self]
    rw [write_of_converts hxs, Response.setComposed_congr hlast]
  · refine ⟨_, write_write_on hxs hys r, ?_⟩
    rw [← map_fst_resources hxs, ← map_fst_resources hys] at hdisjoint
    rw [write_write_on hys hxs, Response.setComposed_congr (lastAt?_append_comm hdisjoint)]

/-- Batches that overlap with each other and with what is there, one of them with a name twice, are
merged; a body that cannot be written is refused wherever it stands. -/
theorem overlapping_batches_merge :
    let value (kind : String) :=
      TypedValue.ofJson "Value" (.object (StringMap.ofList [("kind", .text kind)]))
    let r := Response.empty.setComposed [("a", ⟨.empty, .no⟩)]
    let xs : Batch := [("a", value "A", .yes), ("b", value "B", .no)]
    let ys : Batch := [("b", value "C", .unspecified), ("b", value "D", .yes)]
    let zs : Batch := [("c", value "E", .no)]
    let bad : Batch := [("d", .ofJson "Value" .null, .yes)]
    Edit.AgreeOn (do xs.write; ys.write) (write (xs ++ ys)) r ∧
      Edit.AgreeOn xs.write (write xs.reverse) r ∧
      ((write (xs ++ bad)).on r).1.isOk = ((write (bad ++ xs)).on r).1.isOk ∧
      Edit.AgreeOn (do ys.write; ys.write) ys.write r ∧
      Edit.AgreeOn (do ys.write; zs.write) (do zs.write; ys.write) r := by
  intro value r xs ys zs bad
  have hxs : xs.Converts := by decide
  have hys : ys.Converts := by decide
  obtain ⟨happend, hperm, hisOk, htwice, hcomm⟩ := batches_merge_like_maps r
  exact ⟨happend xs ys hxs hys, hperm xs _ hxs (by decide) xs.reverse_perm.symm,
    hisOk _ _ List.perm_append_comm, htwice ys hys, hcomm ys zs hys (by decide) (by decide)⟩

end Batch

end CompositionFunction
