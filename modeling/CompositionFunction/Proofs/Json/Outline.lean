import CompositionFunction.Proofs.Json.Nesting
import CompositionFunction.Proofs.Json.Scan

/-!
# The outline of a written document

Read where a value is due, the tokens of a document settle its tree, in whatever containers the
value stands.

* `foldl_tokens` : the tokens of a document lead from a due value to its tree.
* `ofText_render` : the outline of a written text is the tree of the document, and whole.
* `parse?_of_outline` : a text with the outline of a document is read as what the document means.
-/

set_option autoImplicit false

namespace CompositionFunction.Json

open Progress

/-- The first token of a document does not close an array. -/
theorem tokens_head (d : Document) :
    ∃ token more, d.tokens = token :: more ∧ token ≠ .closeArray := by
  rcases d with _ | b | n | s | (_ | ⟨d, ds⟩) | (_ | ⟨⟨key, d⟩, ms⟩) <;> rw [Document.tokens]
  all_goals exact ⟨_, _, rfl, by simp⟩

/-- Unless it closes the array, a first item is read like any other value. -/
theorem step_firstItem {token : Token} (h : token ≠ .closeArray) (before : List Tree)
    (frames : List Frame) :
    (expect .firstItem (.array before :: frames)).step token =
      (expect .value (.array before :: frames)).step token := by
  cases token <;> cases before <;> first | rfl | exact absurd rfl h

theorem foldl_firstItem (d : Document) (before : List Tree) (frames : List Frame) :
    d.tokens.foldl Progress.step (expect .firstItem (.array before :: frames)) =
      d.tokens.foldl Progress.step (expect .value (.array before :: frames)) := by
  obtain ⟨token, more, htokens, hclose⟩ := tokens_head d
  rw [htokens, List.foldl_cons, List.foldl_cons, step_firstItem hclose]

mutual

/-- **The tokens of a document settle its tree**, within whatever containers are open. -/
theorem foldl_tokens : ∀ (d : Document) (frames : List Frame),
    d.tokens.foldl Progress.step (expect .value frames) = expect (.next d.tree) frames
  | .null, frames => by rw [Document.tokens, Document.tree]; rfl
  | .bool b, frames => by rw [Document.tokens, Document.tree]; rfl
  | .number n, frames => by rw [Document.tokens, Document.tree]; rfl
  | .text s, frames => by rw [Document.tokens, Document.tree]; rfl
  | .array [], frames => by rw [Document.tokens, Document.tree]; rfl
  | .array (d :: ds), frames => by
    have hopen : (expect .value frames).step .openArray =
        expect .firstItem (.array [] :: frames) := rfl
    rw [Document.tokens, List.cons_append, List.cons_append, List.append_assoc, List.foldl_cons,
      hopen, List.foldl_append, foldl_firstItem, foldl_tokens d,
      foldl_laterItemTokens ds d.tree [] frames, Document.tree, Document.itemTrees]
    rfl
  | .object [], frames => by rw [Document.tokens, Document.tree]; rfl
  | .object ((key, d) :: ms), frames => by
    have hopen : (expect .value frames).step .openObject = expect (.name []) frames := rfl
    have hname : (expect (.name []) frames).step (.text (some key)) =
        expect (.colon [] (some key)) frames := rfl
    have hcolon : (expect (.colon [] (some key)) frames).step .colon =
        expect .value (.object [] (some key) :: frames) := rfl
    simp only [Document.tokens, List.cons_append, List.append_assoc, List.foldl_cons]
    rw [hopen, hname, hcolon, List.foldl_append, foldl_tokens d,
      foldl_laterMemberTokens ms d.tree [] (some key) frames, Document.tree,
      Document.memberTrees]
    rfl

theorem foldl_laterItemTokens : ∀ (ds : List Document) (t : Tree) (before : List Tree)
    (frames : List Frame),
    (Document.laterItemTokens ds ++ [Token.closeArray]).foldl Progress.step
        (expect (.next t) (.array before :: frames)) =
      expect (.next (.array ((t :: before).reverse ++ Document.itemTrees ds))) frames
  | [], t, before, frames => by
    rw [Document.laterItemTokens, Document.itemTrees, List.append_nil]; rfl
  | d :: ds, t, before, frames => by
    have hcomma : (expect (.next t) (.array before :: frames)).step .comma =
        expect .value (.array (t :: before) :: frames) := rfl
    rw [Document.laterItemTokens, List.cons_append, List.cons_append, List.append_assoc,
      List.foldl_cons, hcomma, List.foldl_append, foldl_tokens d,
      foldl_laterItemTokens ds d.tree (t :: before) frames, Document.itemTrees,
      List.reverse_cons, List.append_assoc]
    rfl

theorem foldl_laterMemberTokens : ∀ (ms : List (String × Document)) (t : Tree)
    (before : List (Option String × Tree)) (name : Option String) (frames : List Frame),
    (Document.laterMemberTokens ms ++ [Token.closeObject]).foldl Progress.step
        (expect (.next t) (.object before name :: frames)) =
      expect (.next (.object (((name, t) :: before).reverse ++ Document.memberTrees ms) .closed))
        frames
  | [], t, before, name, frames => by
    rw [Document.laterMemberTokens, Document.memberTrees, List.append_nil]; rfl
  | (key, d) :: ms, t, before, name, frames => by
    have hcomma : (expect (.next t) (.object before name :: frames)).step .comma =
        expect (.name ((name, t) :: before)) frames := rfl
    have hname : (expect (.name ((name, t) :: before)) frames).step (.text (some key)) =
        expect (.colon ((name, t) :: before) (some key)) frames := rfl
    have hcolon : (expect (.colon ((name, t) :: before) (some key)) frames).step .colon =
        expect .value (.object ((name, t) :: before) (some key) :: frames) := rfl
    simp only [Document.laterMemberTokens, List.cons_append, List.append_assoc, List.foldl_cons]
    rw [hcomma, hname, hcolon, List.foldl_append, foldl_tokens d,
      foldl_laterMemberTokens ms d.tree ((name, t) :: before) (some key) frames,
      Document.memberTrees, List.reverse_cons, List.append_assoc]
    rfl

end

/-- A text with the tokens of a document has the tree of the document for its outline, and is
whole. -/
theorem ofText_of_scan {s : String} {d : Document} (h : scan s.toList = d.tokens) :
    Outline.ofText s = ⟨d.tree, true⟩ := by
  have htokens : d.tokens.foldl Progress.step ⟨.value, []⟩ = expect (.next d.tree) [] :=
    foldl_tokens d []
  rw [Outline.ofText, h, Outline.ofTokens, htokens]
  rfl

/-- The outline of the text of a document is its tree, and whole. -/
theorem ofText_render (layout : Document.Layout) {d : Document} (h : d.hasStableNumbers = true) :
    Outline.ofText (d.render layout) = ⟨d.tree, true⟩ := ofText_of_scan (scan_render layout h)

/-- So is the outline of the text as a line. -/
theorem ofText_render_line (layout : Document.Layout) {d : Document}
    (h : d.hasStableNumbers = true) : Outline.ofText (d.render layout ++ "\n") = ⟨d.tree, true⟩ :=
  ofText_of_scan (scan_render_line layout h)

/-- A text with the outline of a document is read as what the document means, if it nests no deeper
than a text may. -/
theorem parse?_of_outline {s : String} {d : Document} (h : Outline.ofText s = ⟨d.tree, true⟩)
    (hdepth : d.depth ≤ 127) : parse? s = some d.value := by
  have hread : d.tree.json? .document = some d.value := json?_tree d hdepth
  rw [parse?_eq_some, h]
  exact ⟨hread, rfl⟩

end CompositionFunction.Json
