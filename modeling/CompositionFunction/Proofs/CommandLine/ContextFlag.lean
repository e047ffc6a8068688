import CompositionFunction.Proofs.CommandLine.Respond
import CompositionFunction.Proofs.Json.Outline

/-!
# What flags put into the context

A flag for the context is a key, an equals sign, and a text. The text is read as a document, and is
taken as it is where that fails. So a value has its own text as a flag, and a text that looks like a
document can be put between quotes.

* `contextEntry_render` : the text of a document sets what the document means.
* `contextAt?_of_contextEntries` : the context of a response, from what its flags set.
* `context_entries_expressed` : which flag sets a value or a text, and what a list of flags sets.
-/

set_option autoImplicit false

namespace CompositionFunction.CommandLine

open Json

variable {key : String}

/-! ## One flag -/

/-- The first equals sign ends the key, and a text that is no document is taken as it is. -/
theorem contextEntry_eq (hkey : '=' ∉ key.toList) (text : String) :
    contextEntry (key ++ "=" ++ text) = .ok (key, (Json.parse? text).getD (.text text)) := by
  have hcut : cut '=' (key ++ "=" ++ text) = some (key, text) :=
    cut_eq_some_iff.2 ⟨by simp, hkey⟩
  rw [contextEntry, hcut]

/-- A flag with the text of a document sets what the document means, as deep as a text may nest. -/
theorem contextEntry_render (hkey : '=' ∉ key.toList) (layout : Document.Layout)
    {d : Document} (hstable : d.hasStableNumbers = true) (hdepth : d.depth ≤ 127) :
    contextEntry (key ++ "=" ++ d.render layout) = .ok (key, d.value) := by
  rw [contextEntry_eq hkey, parse?_of_outline (ofText_render layout hstable) hdepth]
  rfl

/-- A flag with the text of a value sets the value. -/
theorem contextEntry_value (hkey : '=' ∉ key.toList) (layout : Document.Layout) {v : Json}
    (hfloat : v.document.isFloatFree = true) (hdepth : v.document.depth ≤ 127) :
    contextEntry (key ++ "=" ++ v.document.render layout) = .ok (key, v) := by
  have hstable := Document.hasStableNumbers_of_isFloatFree v.document hfloat
  rw [contextEntry_render hkey layout hstable hdepth, Document.value_document]

/-! ## The context of a response -/

namespace RespondFlags

variable {f : RespondFlags}

theorem contextEntries_of_map {es : List (String × Json)}
    (h : f.context.map contextEntry = es.map .ok) : f.contextEntries = es := by
  calc f.contextEntries
      = (f.context.map contextEntry).filterMap Except.toOption := by
        rw [List.filterMap_map]
        rfl
    _ = es := by
        rw [h, List.filterMap_map]
        exact List.filterMap_some

/-- Flags for the context that can be read leave a command well-formed. -/
theorem WellFormed.of_contextEntries {es : List (String × Json)}
    (hothers : { f with context := [] }.WellFormed)
    (h : f.context.map contextEntry = es.map .ok) : f.WellFormed where
  context raw hraw := by
    have hmem : contextEntry raw ∈ es.map Except.ok := h ▸ List.mem_map_of_mem hraw
    obtain ⟨e, _, he⟩ := List.mem_map.1 hmem
    exact ⟨e, he.symm⟩
  requireName := hothers.requireName
  requireLabels := hothers.requireLabels
  results := hothers.results

end RespondFlags

/-- The entries that the flags set override the context of the request. -/
theorem contextAt?_of_contextEntries {f : RespondFlags} {es : List (String × Json)}
    (h : f.context.map contextEntry = es.map .ok) (hothers : { f with context := [] }.WellFormed)
    (request : Request) (config : Config) :
    ∃ r, responseTo request f config = .ok r ∧
      ∀ key, r.contextAt? key = (lastAt? key es).or (request.contextValue? key) := by
  have hf : f.WellFormed := .of_contextEntries hothers h
  refine ⟨_, responseTo_eq_ok.2 ⟨hf, rfl⟩, fun key => ?_⟩
  rw [(hf.answered request config).contextAt?, RespondFlags.contextEntries_of_map h]

/-- **Every entry of the context can be expressed by a flag.** The text of a value without
floating-point numbers sets the value, in either layout, up to the depth that a text may have; a text
that is no document sets itself; and so for every text there is a flag that sets it. Of several flags
for a key the last one counts, and the other keys of the request are kept. -/
theorem context_entries_expressed :
    (∀ (key : String) (v : Json) (layout : Document.Layout), '=' ∉ key.toList →
      v.document.isFloatFree = true → v.document.depth ≤ 127 →
        contextEntry (key ++ "=" ++ v.document.render layout) = .ok (key, v)) ∧
    (∀ key text : String, '=' ∉ key.toList → Json.parse? text = none →
      contextEntry (key ++ "=" ++ text) = .ok (key, .text text)) ∧
    (∀ key s : String, '=' ∉ key.toList →
      ∃ text, contextEntry (key ++ "=" ++ text) = .ok (key, .text s)) ∧
    ∀ (request : Request) (config : Config) (f : RespondFlags) (es : List (String × Json)),
      f.context.map contextEntry = es.map .ok → { f with context := [] }.WellFormed →
        ∃ r, responseTo request f config = .ok r ∧
          ∀ key, r.contextAt? key = (lastAt? key es).or (request.contextValue? key) := by
  refine ⟨fun key v layout hkey hfloat hdepth => contextEntry_value hkey layout hfloat hdepth,
    fun key text hkey hrefused => ?_, fun key s hkey => ?_,
    fun request config f es h hothers => contextAt?_of_contextEntries h hothers request config⟩
  · rw [contextEntry_eq hkey, hrefused]
    rfl
  · exact ⟨(Json.text s).document.render .compact,
      contextEntry_value hkey .compact rfl (Nat.zero_le 127)⟩

/-- An array as it is printed, the same text between quotes, a number with a leading zero, and a key
of the request without a flag. -/
theorem json_like_text_expressed :
    let request : Request := { Request.empty with
      context := some (StringMap.ofList [("a", .null), ("left", .bool true)]) }
    let v : Json := .array [.text "=", .null]
    let quoted : Json := .text (v.document.render .compact)
    let f : RespondFlags := ⟨"-", none, ["a=0", "b=01", "b=" ++ quoted.document.render .compact,
      "a=" ++ v.document.render .indented, "c=01"], [], [], ["Normal:done"], true⟩
    (∃ text, contextEntry ("b" ++ "=" ++ text) = .ok ("b", quoted)) ∧
      ∃ r, responseTo request f .builtIn = .ok r ∧ r.contextAt? "a" = some v ∧
        r.contextAt? "b" = some quoted ∧ r.contextAt? "c" = some (.text "01") ∧
        r.contextAt? "left" = some (.bool true) := by
  intro request v quoted f
  obtain ⟨hvalue, hrefused, htext, hresponse⟩ := context_entries_expressed
  let zero : Json := .number (.int 0 (by decide) (by decide))
  have hzero : contextEntry "a=0" = .ok ("a", zero) :=
    hvalue "a" zero .compact (by decide) rfl (by decide)
  have hv : contextEntry ("a=" ++ v.document.render .indented) = .ok ("a", v) :=
    hvalue "a" v .indented (by decide) rfl (by decide)
  have hquoted : contextEntry ("b=" ++ quoted.document.render .compact) = .ok ("b", quoted) :=
    hvalue "b" quoted .compact (by decide) rfl (by decide)
  have hnumeral : Json.parse? "01" = none := by decide +kernel
  have hb : contextEntry "b=01" = .ok ("b", .text "01") := hrefused "b" "01" (by decide) hnumeral
  have hc : contextEntry "c=01" = .ok ("c", .text "01") := hrefused "c" "01" (by decide) hnumeral
  have hflags : f.context.map contextEntry =
      [("a", zero), ("b", .text "01"), ("b", quoted), ("a", v), ("c", .text "01")].map .ok := by
    simp only [f, List.map_cons, List.map_nil, hzero, hb, hquoted, hv, hc]
  have hothers : { f with context := [] }.WellFormed :=
    RespondFlags.wellFormed_iff.2 (by decide +kernel)
  obtain ⟨r, hr, hcontext⟩ := hresponse request .builtIn f _ hflags hothers
  refine ⟨htext "b" (v.document.render .compact) (by decide), r, hr, ?_, ?_, ?_, ?_⟩
  · rw [hcontext]
    rfl
  · rw [hcontext]
    rfl
  · rw [hcontext]
    rfl
  · rw [hcontext]
    rfl

end CompositionFunction.CommandLine
