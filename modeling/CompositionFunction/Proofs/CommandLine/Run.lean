import CompositionFunction.CommandLine.Run
import CompositionFunction.Files.Tree
import CompositionFunction.Proofs.Outcome

/-!
# When a command responds

Responding only reads files. It prints the line of a response if the configuration can be loaded,
the request can be read and no flag is malformed.

* `ReadsOnly` : programs that leave the files as they are.
* `result_respond_eq_ok` : what is printed, and when.
* `requestFrom_eq_ok` : the request is the text of its source.
-/

set_option autoImplicit false

namespace CompositionFunction.CommandLine

/-! ## Reading files -/

/-- The program leaves the files as they are. -/
def ReadsOnly {α : Type} (p : StateM FileTree α) : Prop := ∀ t, (p.run t).2 = t

section ReadsOnly

variable {α β : Type} {p : StateM FileTree α}

/-- What follows a program that only reads starts with the same files. -/
theorem ReadsOnly.run_bind (h : ReadsOnly p) (f : α → StateM FileTree β) (t : FileTree) :
    (p >>= f).run t = (f (p.run t).1).run t := by
  show (f (p.run t).1).run (p.run t).2 = _
  rw [h t]

theorem ReadsOnly.bind {f : α → StateM FileTree β} (h : ReadsOnly p) (hf : ∀ a, ReadsOnly (f a)) :
    ReadsOnly (p >>= f) := by
  intro t
  rw [h.run_bind]
  exact hf _ t

theorem readsOnly_pure (a : α) : ReadsOnly (pure a) := fun _ => rfl

theorem readsOnly_readFile (path : String) :
    ReadsOnly (Host.readFile path : StateM FileTree (Except FileFault Bytes)) := fun _ => rfl

theorem readsOnly_isThere (path : String) :
    ReadsOnly (Host.isThere path : StateM FileTree Bool) := fun _ => rfl

theorem readsOnly_readInput :
    ReadsOnly (Host.readInput : StateM FileTree (Except FileFault Bytes)) := fun _ => rfl

theorem run_readText (path : String) (t : FileTree) :
    (readText path : StateM FileTree (Except Error String)).run t =
      (((t.read path).bind textOf).mapError fun fault => .io path fault.message, t) := by
  have hread : (StateT.run (Host.readFile path : StateM FileTree (Except FileFault Bytes)) t).1 =
      t.read path := rfl
  unfold readText
  rw [(readsOnly_readFile path).run_bind, hread]
  cases (t.read path).bind textOf <;> rfl

theorem readsOnly_readText (path : String) :
    ReadsOnly (readText path : StateM FileTree (Except Error String)) := by
  intro t
  rw [run_readText]

theorem readsOnly_configAt (path : String) :
    ReadsOnly (configAt path : StateM FileTree (Except Error Config)) := by
  refine (readsOnly_readText path).bind fun text => ?_
  split
  · exact readsOnly_pure _
  · split <;> exact readsOnly_pure _

theorem readsOnly_currentConfig (home : String) :
    ReadsOnly (currentConfig home : StateM FileTree (Except Error Config × List Event)) := by
  refine (readsOnly_isThere _).bind fun isThere => ?_
  split
  · exact (readsOnly_configAt _).bind fun config => readsOnly_pure _
  · exact readsOnly_pure _

end ReadsOnly

/-! ## The request -/

/-- The text of a source, which is a file or the standard input. -/
def sourceText (t : FileTree) (source : String) : Except FileFault String :=
  (if source = "-" then .ok t.input else t.read source).bind textOf

/-- A text on the standard input, and no file at all. -/
def onlyInput (s : String) : FileTree := ⟨.empty, [], utf8 s⟩

theorem sourceText_onlyInput (s : String) : sourceText (onlyInput s) "-" = .ok s := by
  show textOf (utf8 s) = _
  rw [textOf, ofUtf8?_utf8]

theorem currentConfig_onlyInput (s : String) : ((currentConfig "/" :
    StateM FileTree (Except Error Config × List Event)).run (onlyInput s)).1.1 = .ok .builtIn := rfl

/-- The name that a source has in errors. -/
def sourceName (source : String) : String := if source = "-" then "<stdin>" else source

/-- The request of a text, which may not have been found. -/
def requestOf (source : String) : Except Error String → Except Error Request
  | .error e => .error e
  | .ok s =>
    match Request.shape.ofText s with
    | .ok request => .ok request
    | .error _ => .error (.parse ("invalid request document " ++ source))

/-- The request is that of the text of its source. -/
theorem run_requestFrom (source : String) (t : FileTree) :
    (requestFrom source : StateM FileTree (Except Error Request)).run t =
      (requestOf source ((sourceText t source).mapError fun fault =>
        .io (sourceName source) fault.message), t) := by
  have hrequest : ∀ text : Except Error String,
      (match text with
        | .error e => pure (.error e)
        | .ok s =>
          match Request.shape.ofText s with
          | .ok request => pure (.ok request)
          | .error _ => pure (.error (.parse ("invalid request document " ++ source))) :
        StateM FileTree (Except Error Request)).run t = (requestOf source text, t) := by
    intro text
    unfold requestOf
    cases text with
    | error e => rfl
    | ok s =>
      dsimp only
      cases Request.shape.ofText s <;> rfl
  unfold requestFrom sourceText sourceName
  by_cases hsource : source = "-"
  · have hinput : (StateT.run (Host.readInput : StateM FileTree (Except FileFault Bytes)) t).1 =
        .ok t.input := rfl
    rw [if_pos hsource, if_pos hsource, if_pos hsource, readsOnly_readInput.run_bind, hinput]
    cases (Except.ok t.input).bind textOf with
    | error fault => exact hrequest (.error (.io "<stdin>" fault.message))
    | ok s => exact hrequest (.ok s)
  · rw [if_neg hsource, if_neg hsource, if_neg hsource, (readsOnly_readText source).run_bind,
      run_readText]
    exact hrequest _

theorem readsOnly_requestFrom (source : String) :
    ReadsOnly (requestFrom source : StateM FileTree (Except Error Request)) := by
  intro t
  rw [run_requestFrom]

/-- A request is read from the text of its source. -/
theorem requestFrom_eq_ok {source : String} {t : FileTree} {request : Request} :
    ((requestFrom source : StateM FileTree (Except Error Request)).run t).1 = .ok request ↔
      ∃ s, sourceText t source = .ok s ∧ Request.shape.ofText s = .ok request := by
  rw [run_requestFrom]
  cases sourceText t source with
  | error fault => exact ⟨nofun, nofun⟩
  | ok s =>
    show (match Request.shape.ofText s with
      | .ok request => Except.ok request
      | .error _ => .error _) = _ ↔ _
    cases hs : Request.shape.ofText s with
    | error refusal => simp [hs]
    | ok read => simp [hs]

/-! ## The response -/

/-- **What is printed, and when**: the line of the response to the request, if there are a
configuration and a request and no flag is malformed. -/
theorem result_respond_eq_ok {home : String} {flags : RespondFlags} {t : FileTree} {text : String} :
    ((respond home flags : StateM FileTree Outcome).run t).1.result = .ok text ↔
      ∃ config request response,
        ((currentConfig home : StateM FileTree (Except Error Config × List Event)).run t).1.1 =
            .ok config ∧
          ((requestFrom flags.request : StateM FileTree (Except Error Request)).run t).1 =
            .ok request ∧
          responseTo request flags config = .ok response ∧
          responseLine (layoutOf flags config) response = text := by
  unfold respond
  rw [(readsOnly_currentConfig home).run_bind]
  rcases ((currentConfig home : StateM FileTree (Except Error Config × List Event)).run t).1 with
    ⟨e | config, events⟩
  · exact ⟨nofun, fun ⟨_, _, _, hconfig, _⟩ => nomatch hconfig⟩
  · dsimp only
    rw [(readsOnly_requestFrom flags.request).run_bind]
    rcases ((requestFrom flags.request : StateM FileTree (Except Error Request)).run t).1 with
      e | request
    · exact ⟨nofun, fun ⟨_, _, _, _, hrequest, _⟩ => nomatch hrequest⟩
    · dsimp only
      cases hresponse : responseTo request flags config with
      | error fault =>
        refine ⟨nofun, ?_⟩
        rintro ⟨_, _, _, ⟨⟩, ⟨⟩, hok, _⟩
        rw [hresponse] at hok
        cases hok
      | ok response =>
        constructor
        · intro h
          exact ⟨config, request, response, rfl, rfl, hresponse, Except.ok.inj h⟩
        · rintro ⟨_, _, _, ⟨⟩, ⟨⟩, hok, rfl⟩
          rw [hresponse] at hok
          cases hok
          rfl

end CompositionFunction.CommandLine
