import CompositionFunction.Proofs.Reply.Run
import CompositionFunction.Reply.InPlace

/-!
# Calls made in place

A call made in place checks before it writes, and nothing that it does after its checks can fail.
So its outcome, and the response that it leaves behind, are those of the call as a whole.

* `Edit.on_bind`, `Edit.on_forM` : steps one after the other, and a step for each item.
* `Call.perform_on` : what a call does in place.
* `Call.perform_failed` : a call that fails leaves the response as it found it.
-/

set_option autoImplicit false

namespace CompositionFunction

/-! ## Steps -/

namespace Edit

variable {α β : Type}

/-- The second step works on what the first one leaves behind, and is not taken if that fails. -/
theorem on_bind (first : Edit α) (next : α → Edit β) (r : Response) :
    (first >>= next).on r = match first.on r with
      | (.ok a, s) => (next a).on s
      | (.error e, s) => (.error e, s) := by
  show ExceptT.bindCont next (first r).1 (first r).2 = match first r with
      | (.ok a, s) => next a s
      | (.error e, s) => (.error e, s)
  obtain ⟨outcome, s⟩ := first r
  cases outcome <;> rfl

@[simp] theorem on_modify (f : Response → Response) (r : Response) :
    (modify f : Edit PUnit).on r = (.ok (), f r) := rfl

@[simp] theorem on_ofOutcome (x : Except Error α) (r : Response) : (ofOutcome x).on r = (x, r) := by
  cases x <;> rfl

/-- What is written for each item is written in their order. -/
theorem on_forM (write : β → Response → Response) (items : List β) (r : Response) :
    (items.forM fun b => (modify (write b) : Edit PUnit)).on r =
      (.ok (), items.foldl (fun s b => write b s) r) := by
  induction items generalizing r with
  | nil => rfl
  | cons b items ih =>
    show ((modify (write b) : Edit PUnit) >>= fun _ =>
      items.forM fun b => (modify (write b) : Edit PUnit)).on r = _
    rw [on_bind, on_modify]
    exact ih (write b r)

/-- Composed resources that are put into the map one by one are those inserted at once. -/
theorem foldl_putComposed (resources : List (String × DesiredResource)) (r : Response)
    (m : StringMap Resource) :
    resources.foldl (fun s e => s.withComposed
        (s.composedOrEmpty.insert e.1 ⟨some e.2.body, .empty, e.2.ready⟩)) (r.withComposed m) =
      r.withComposed (m.insertAll
        (resources.map fun e => (e.1, ⟨some e.2.body, .empty, e.2.ready⟩))) := by
  induction resources generalizing m with
  | nil => rfl
  | cons e resources ih => exact ih (m.insert e.1 ⟨some e.2.body, .empty, e.2.ready⟩)

theorem putComposed_on (resources : List (String × DesiredResource)) (r : Response) :
    (putComposed resources).on r = (.ok (), r.setComposed resources) := by
  refine (on_bind ensureComposed _ r).trans ?_
  refine (on_forM _ resources (r.withComposed r.composedOrEmpty)).trans ?_
  exact congrArg (Prod.mk _) (foldl_putComposed resources r r.composedOrEmpty)

end Edit

/-! ## Calls -/

namespace Call

open Edit

variable {r next : Response} {c : Call}

/-- **What a call does in place is what it does as a whole**: the outcome is the same, and the
response left behind is the one after the call. -/
theorem perform_on (c : Call) (r : Response) :
    c.perform.on r = ((c.run r).map fun _ => (), c.apply r) := by
  unfold apply
  cases c with
  | setContext key value => rfl
  | setComposite value details =>
    rw [perform, on_bind, on_ofOutcome, run]
    cases value.toBody <;> rfl
  | setComposed entries =>
    rw [perform, on_bind, on_ofOutcome, run]
    cases bodies entries with
    | error e => rfl
    | ok resources => exact putComposed_on resources r
  | requireByName id name gvk =>
    rw [perform, run, Response.requireByName]
    cases nameFault? id name gvk <;> rfl
  | requireByLabels id labels gvk =>
    rw [perform, run, Response.requireByLabels]
    cases labelsFault? id gvk <;> rfl
  | report severity message => rfl

theorem perform_of_ok (h : c.run r = .ok next) : c.perform.on r = (.ok (), next) := by
  rw [perform_on, h, apply_of_ok h]
  rfl

theorem perform_of_error {e : Error} (h : c.run r = .error e) :
    c.perform.on r = (.error e, r) := by
  rw [perform_on, h, apply_of_error h]
  rfl

/-- A call that fails leaves the response as it found it. -/
theorem perform_failed {e : Error} (h : c.perform.on r = (.error e, next)) : next = r := by
  cases hrun : c.run r with
  | ok s =>
    rw [perform_of_ok hrun] at h
    cases h
  | error e' =>
    rw [perform_of_error hrun] at h
    exact (congrArg Prod.snd h).symm

end Call

end CompositionFunction
