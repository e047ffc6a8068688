import CompositionFunction.Files.Tree
import CompositionFunction.Proofs.Outcome
import CompositionFunction.Proofs.StringMap
import CompositionFunction.Proofs.Text.Split

/-!
# Paths in a tree of files

Reading follows a path step by step through the directories, and writing goes by the names that are
left when the steps back are taken out. Where the steps lead somewhere, the names lead to the same
place; so what was written at a path is what is read there, or the path leads nowhere.

* `FileNode.at?` : what stands at the end of some names.
* `FileNode.put` : a file in a directory that is made as far as it is missing.
* `FileNode.put_eq_ok_iff` : it can be put there if nothing is in the way.
* `FileNode.keeps_put` : nothing else goes away.
* `FileTree.at?_of_node` : steps that lead somewhere lead where the names lead.
* `FileTree.read_after_put` : what was put in place of a file is read there.
-/

set_option autoImplicit false

namespace CompositionFunction

namespace FileNode

variable {content : Bytes} {names more : List String} {name : String} {node new : FileNode}

/-! ## Names -/

/-- What stands at the end of some names. -/
def at? : List String → FileNode → Option FileNode
  | [], node => some node
  | _ :: _, file _ => none
  | name :: names, directory entries =>
    match entries.find? name with
    | some inner => at? names inner
    | none => none

theorem at?_cons {inner : FileNode} {entries : StringMap FileNode}
    (h : entries.find? name = some inner) (names : List String) :
    at? (name :: names) (directory entries) = at? names inner := by
  simp only [at?, h]

theorem at?_append (names more : List String) : ∀ node : FileNode,
    at? (names ++ more) node = (at? names node).bind (at? more) := by
  induction names with
  | nil => intro node; rfl
  | cons name names ih =>
    intro node
    cases node with
    | file content => rfl
    | directory entries =>
      simp only [List.cons_append, at?]
      cases entries.find? name with
      | none => rfl
      | some inner => exact ih inner

theorem at?_singleton (name : String) (entries : StringMap FileNode) :
    at? [name] (directory entries) = entries.find? name := by
  simp only [at?]
  cases entries.find? name <;> rfl

/-- Writing below a name that is there changes what stands behind it. -/
theorem write_cons {inner : FileNode} {entries : StringMap FileNode}
    (h : entries.find? name = some inner) (names : List String) :
    write content (name :: names) (directory entries) =
      (write content names inner).map fun inner =>
        directory (StringMap.insert entries name inner) := by
  rw [write]
  exact h

theorem find?_insert_self (entries : StringMap FileNode) (name : String) (inner : FileNode) :
    (StringMap.insert entries name inner).find? name = some inner := by
  rw [StringMap.find?_insert, if_pos rfl]

/-- What writing below a name does: it changes what stands behind the name, or adds a file. -/
theorem write_cons_eq_ok (h : write content (name :: names) node = .ok new) :
    ∃ entries inner, node = directory entries ∧
      new = directory (StringMap.insert entries name inner) ∧
      ((∃ old, entries.find? name = some old ∧ write content names old = .ok inner) ∨
        entries.find? name = none ∧ names = [] ∧ inner = file content) := by
  cases node with
  | file old => cases h
  | directory entries =>
    unfold write at h
    split at h
    · rename_i old hfind
      obtain ⟨inner, hinner, rfl⟩ := map_eq_ok.1 h
      exact ⟨entries, inner, rfl, rfl, .inl ⟨old, hfind, hinner⟩⟩
    · rename_i hfind
      cases h
      exact ⟨entries, _, rfl, rfl, .inr ⟨hfind, rfl, rfl⟩⟩
    · cases h

/-- What was written at the end of some names stands there. -/
theorem at?_write : ∀ {names : List String} {node new : FileNode},
    write content names node = .ok new → at? names new = some (file content) := by
  intro names
  induction names with
  | nil =>
    intro node new h
    cases node with
    | file old => cases h; rfl
    | directory entries => cases h
  | cons name names ih =>
    intro node new h
    obtain ⟨entries, inner, rfl, rfl, hinner⟩ := write_cons_eq_ok h
    rw [at?_cons (find?_insert_self entries name inner)]
    obtain ⟨old, _, hwrite⟩ | ⟨_, rfl, rfl⟩ := hinner
    · exact ih hwrite
    · rfl

/-! ## A file in its directory -/

/-- The tree with a file in a directory that is made as far as it is missing. -/
def put (content : Bytes) (names : List String) (name : String) (node : FileNode) :
    Except FileFault FileNode :=
  (makeDirectories names node).bind (write content (names ++ [name]))

theorem at?_put (h : put content names name node = .ok new) :
    at? (names ++ [name]) new = some (file content) := by
  obtain ⟨made, _, hwrite⟩ := bind_eq_ok.1 h
  exact at?_write hwrite

/-- Putting a file below a name changes what stands behind the name. -/
theorem put_cons (outer : String) (entries : StringMap FileNode) :
    put content (outer :: names) name (directory entries) =
      (put content names name ((entries.find? outer).getD empty)).map fun inner =>
        directory (StringMap.insert entries outer inner) := by
  unfold put
  rw [makeDirectories]
  cases makeDirectories names ((entries.find? outer).getD empty) with
  | error fault => rfl
  | ok made =>
    show write content (outer :: (names ++ [name]))
      (directory (StringMap.insert entries outer made)) = _
    rw [write_cons (find?_insert_self entries outer made)]
    simp only [StringMap.insert_insert]
    rfl

/-- A file can be put at the end of the names: as far as they lead, they lead through directories,
and there is none at their end. -/
def admits : List String → FileNode → Bool
  | [], file _ => true
  | [], directory _ => false
  | _ :: _, file _ => false
  | name :: names, directory entries =>
    match entries.find? name with
    | some inner => admits names inner
    | none => true

theorem admits_of_at? : ∀ {names : List String} {node : FileNode},
    at? names node = some (file content) → admits names node = true := by
  intro names
  induction names with
  | nil =>
    intro node h
    cases h
    rfl
  | cons name names ih =>
    intro node h
    cases node with
    | file old => cases h
    | directory entries =>
      simp only [at?] at h
      simp only [admits]
      split at h
      · exact ih h
      · cases h

theorem put_nil_eq_ok_iff (content : Bytes) (name : String) (node : FileNode) :
    (∃ new, put content [] name node = .ok new) ↔ admits [name] node = true := by
  cases node with
  | file old => exact ⟨fun ⟨_, h⟩ => (nomatch h), nofun⟩
  | directory entries =>
    show (∃ new, write content [name] (directory entries) = .ok new) ↔ _
    cases hfind : entries.find? name with
    | none => simp [write, admits, hfind]
    | some inner =>
      rw [write_cons hfind]
      cases inner with
      | file old => simp [write, admits, hfind, Except.map]
      | directory inner => simp [write, admits, hfind, Except.map]

/-- **A file can be put** in its directory exactly if nothing is in the way. -/
theorem put_eq_ok_iff (content : Bytes) (names : List String) (name : String) : ∀ node : FileNode,
    (∃ new, put content names name node = .ok new) ↔ admits (names ++ [name]) node = true := by
  induction names with
  | nil => exact put_nil_eq_ok_iff content name
  | cons outer names ih =>
    intro node
    cases node with
    | file old => exact ⟨fun ⟨_, h⟩ => (nomatch h), nofun⟩
    | directory entries =>
      have hinner := ih ((entries.find? outer).getD empty)
      have hmap : (∃ new, put content (outer :: names) name (directory entries) = .ok new) ↔
          ∃ inner, put content names name ((entries.find? outer).getD empty) = .ok inner := by
        rw [put_cons]
        exact ⟨fun ⟨_, h⟩ => (map_eq_ok.1 h).imp fun _ => And.left,
          fun ⟨inner, h⟩ => ⟨_, map_eq_ok.2 ⟨inner, h, rfl⟩⟩⟩
      rw [hmap, hinner, List.cons_append, admits]
      -- A directory that was missing is empty, so behind it nothing is in the way.
      cases entries.find? outer with
      | some inner => rfl
      | none => cases names <;> exact ⟨fun _ => rfl, fun _ => rfl⟩

/-! ## What stays -/

/-- The node is a file. -/
def isFile : FileNode → Bool
  | file _ => true
  | directory _ => false

/-- What was there is there: files are files, and directories are directories. -/
def Keeps (old new : FileNode) : Prop :=
  ∀ names found, at? names old = some found →
    ∃ found', at? names new = some found' ∧ found'.isFile = found.isFile

theorem Keeps.refl (node : FileNode) : Keeps node node := fun _ found h => ⟨found, h, rfl⟩

theorem Keeps.trans {old between new : FileNode} (h : Keeps old between) (h' : Keeps between new) :
    Keeps old new := by
  intro names found hfound
  obtain ⟨found', hfound', hfile⟩ := h names found hfound
  obtain ⟨found'', hfound'', hfile'⟩ := h' names found' hfound'
  exact ⟨found'', hfound'', hfile'.trans hfile⟩

theorem keeps_insert {entries : StringMap FileNode}
    (h : ∀ inner, entries.find? name = some inner → Keeps inner new) :
    Keeps (directory entries) (directory (StringMap.insert entries name new)) := by
  intro names found hfound
  cases names with
  | nil =>
    cases hfound
    exact ⟨_, rfl, rfl⟩
  | cons first names =>
    simp only [at?] at hfound
    split at hfound
    · rename_i inner hfind
      by_cases hname : first = name
      · subst hname
        rw [at?_cons (find?_insert_self entries first new)]
        exact h inner hfind names found hfound
      · have hstill : (StringMap.insert entries name new).find? first = some inner := by
          rw [StringMap.find?_insert, if_neg hname, hfind]
        rw [at?_cons hstill]
        exact ⟨found, hfound, rfl⟩
    · cases hfound

theorem keeps_write : ∀ {names : List String} {node new : FileNode},
    write content names node = .ok new → Keeps node new := by
  intro names
  induction names with
  | nil =>
    intro node new h
    cases node with
    | directory entries => cases h
    | file old =>
      cases h
      intro names found hfound
      cases names with
      | nil =>
        cases hfound
        exact ⟨_, rfl, rfl⟩
      | cons first names => cases hfound
  | cons name names ih =>
    intro node new h
    obtain ⟨entries, inner, rfl, rfl, ⟨old, hold, hwrite⟩ | ⟨hnone, _, _⟩⟩ := write_cons_eq_ok h
    · refine keeps_insert fun old' hold' => ?_
      cases hold.symm.trans hold'
      exact ih hwrite
    · exact keeps_insert fun old hold => nomatch hnone.symm.trans hold

theorem keeps_makeDirectories : ∀ {names : List String} {node new : FileNode},
    makeDirectories names node = .ok new → Keeps node new := by
  intro names
  induction names with
  | nil =>
    intro node new h
    cases node with
    | file old => cases h
    | directory entries =>
      cases h
      exact Keeps.refl _
  | cons name names ih =>
    intro node new h
    cases node with
    | file old => cases h
    | directory entries =>
      rw [makeDirectories] at h
      obtain ⟨inner, hinner, rfl⟩ := map_eq_ok.1 h
      refine keeps_insert fun inner' hfind => ?_
      rw [hfind] at hinner
      exact ih hinner

/-- **Nothing goes away** when a file is put somewhere. -/
theorem keeps_put (h : put content names name node = .ok new) : Keeps node new := by
  obtain ⟨made, hmade, hwrite⟩ := bind_eq_ok.1 h
  exact (keeps_makeDirectories hmade).trans (keeps_write hwrite)

/-! ## Steps -/

/-- The node stands behind the names, of which the innermost is the first, and the directories
around it are these. -/
inductive StandsAt (root : FileNode) : List String → List FileNode → FileNode → Prop where
  | root : StandsAt root [] [] root
  | inner {before : List String} {around : List FileNode} {entries : StringMap FileNode}
      {name : String} {node : FileNode} (outer : StandsAt root before around (directory entries))
      (find : entries.find? name = some node) :
      StandsAt root (name :: before) (directory entries :: around) node

theorem StandsAt.at? {root : FileNode} {before : List String} {around : List FileNode}
    (h : StandsAt root before around node) : FileNode.at? before.reverse root = some node := by
  induction h with
  | root => rfl
  | inner _ find ih => rw [List.reverse_cons, at?_append, ih, Option.bind_some, at?_singleton, find]

end FileNode

namespace FileTree

open FileNode

/-- The names behind which one step more leads, the innermost first. -/
def follow (before : List String) (step : String) : List String :=
  if step = "" ∨ step = "." then before
  else if step = ".." then before.drop 1
  else step :: before

theorem names_eq (steps : List String) : names steps = (steps.foldl follow []).reverse := rfl

/-- A step that is a name comes last among the names. -/
theorem names_append {name : String} (hname : name ≠ "" ∧ name ≠ "." ∧ name ≠ "..")
    (steps : List String) : names (steps ++ [name]) = names steps ++ [name] := by
  have hfollow : ∀ before, follow before name = name :: before := fun before => by
    rw [follow, if_neg (not_or.2 ⟨hname.1, hname.2.1⟩), if_neg hname.2.2]
  rw [names_eq, names_eq, List.foldl_append, List.foldl_cons, List.foldl_nil, hfollow,
    List.reverse_cons]

/-- Where one step leads: what is there, and the directories around it. -/
def move (around : List FileNode) (node : FileNode) (step : String) :
    Except FileFault (List FileNode × FileNode) :=
  match node with
  | file _ => .error .notDirectory
  | directory entries =>
    if step = "" ∨ step = "." then .ok (around, node)
    else if step = ".." then
      match around with
      | [] => .ok ([], node)
      | outer :: outers => .ok (outers, outer)
    else match entries.find? step with
      | some inner => .ok (node :: around, inner)
      | none => .error .missing

theorem walk_cons (around : List FileNode) (node : FileNode) (step : String) (steps : List String) :
    walk around node (step :: steps) =
      (move around node step).bind fun reached => walk reached.1 reached.2 steps := by
  cases node with
  | file content => rfl
  | directory entries =>
    simp only [walk, move]
    split
    · rfl
    split
    · cases around <;> rfl
    · cases entries.find? step <;> rfl

section Walk

variable {root old new node node' found : FileNode} {before steps : List String} {step : String}
  {around around' : List FileNode} {reached : List FileNode × FileNode}

/-- **One step** leads on by the names: a step back takes a name out and leads to the directory
around. -/
theorem standsAt_of_move (h : StandsAt root before around node)
    (hmove : move around node step = .ok reached) :
    StandsAt root (follow before step) reached.1 reached.2 := by
  cases node with
  | file content => cases hmove
  | directory entries =>
    simp only [move] at hmove
    rw [follow]
    split at hmove
    · rename_i hstay
      cases hmove
      rwa [if_pos hstay]
    rename_i hmoves
    rw [if_neg hmoves]
    split at hmove
    · rename_i hback
      rw [if_pos hback]
      cases h with
      | root =>
        cases hmove
        exact .root
      | inner outer find =>
        cases hmove
        exact outer
    rename_i hname
    rw [if_neg hname]
    split at hmove
    · rename_i inner hfind
      cases hmove
      exact .inner h hfind
    · cases hmove

/-- The names keep pace with the walk along the steps. -/
theorem standsAt_of_walk : ∀ {before : List String} {around : List FileNode} {node : FileNode},
    StandsAt root before around node → walk around node steps = .ok found →
      ∃ around, StandsAt root (steps.foldl follow before) around found := by
  induction steps with
  | nil =>
    intro before around node h hwalk
    cases hwalk
    exact ⟨around, h⟩
  | cons step steps ih =>
    intro before around node h hwalk
    rw [walk_cons] at hwalk
    obtain ⟨reached, hmove, hrest⟩ := bind_eq_ok.1 hwalk
    exact ih (standsAt_of_move h hmove) hrest

/-- Where nothing goes away, a step that leads somewhere does so still. -/
theorem move_of_keeps (hkeeps : Keeps old new) (h : StandsAt old before around node)
    (h' : StandsAt new before around' node') (hmove : move around node step = .ok reached) :
    ∃ reached', move around' node' step = .ok reached' := by
  -- Both nodes are behind the same names, so the second one is a directory like the first.
  obtain ⟨kept, hkept, hfile⟩ := hkeeps _ _ h.at?
  cases hkept.symm.trans h'.at?
  cases node with
  | file content => cases hmove
  | directory entries =>
    cases node' with
    | file content => cases hfile
    | directory entries' =>
      simp only [move] at hmove ⊢
      split at hmove
      · rename_i hstay
        rw [if_pos hstay]
        exact ⟨_, rfl⟩
      rename_i hmoves
      rw [if_neg hmoves]
      split at hmove
      · rename_i hback
        rw [if_pos hback]
        cases around' <;> exact ⟨_, rfl⟩
      rename_i hname
      rw [if_neg hname]
      split at hmove
      · rename_i inner hfind
        obtain ⟨inner', hinner', _⟩ := hkeeps _ _ (StandsAt.inner h hfind).at?
        have hfind' : entries'.find? step = some inner' := by
          rw [List.reverse_cons, at?_append, h'.at?, Option.bind_some, at?_singleton] at hinner'
          exact hinner'
        exact ⟨_, by rw [hfind']⟩
      · cases hmove

/-- Where nothing goes away, steps that lead somewhere do so still: the two walks are always behind
the same names. -/
theorem walk_of_keeps (hkeeps : Keeps old new) : ∀ {before : List String}
    {around around' : List FileNode} {node node' : FileNode},
    StandsAt old before around node → StandsAt new before around' node' →
      walk around node steps = .ok found → ∃ found', walk around' node' steps = .ok found' := by
  induction steps with
  | nil => exact fun _ _ _ => ⟨_, rfl⟩
  | cons step steps ih =>
    intro before around around' node node' h h' hwalk
    rw [walk_cons] at hwalk ⊢
    obtain ⟨reached, hmove, hrest⟩ := bind_eq_ok.1 hwalk
    obtain ⟨reached', hmove'⟩ := move_of_keeps hkeeps h h' hmove
    rw [hmove']
    exact ih (standsAt_of_move h hmove) (standsAt_of_move h' hmove') hrest

end Walk

/-- **Steps that lead somewhere lead where the names lead.** -/
theorem at?_of_node {t : FileTree} {path : String} {found : FileNode}
    (h : t.node path = .ok found) :
    at? (names (t.steps path)) t.root = some found := by
  unfold node at h
  split at h
  · cases h
  · obtain ⟨around, hstands⟩ := standsAt_of_walk .root h
    exact hstands.at?

/-- The steps to an entry of a directory. -/
theorem steps_append (t : FileTree) {directory name : String} (hdirectory : directory ≠ "")
    (hname : '/' ∉ name.toList) :
    t.steps (directory ++ "/" ++ name) = t.steps directory ++ [name] := by
  have hlist : (directory ++ "/" ++ name).toList = directory.toList ++ '/' :: name.toList := by
    simp [String.toList_append]
  have hhead : (directory.toList ++ '/' :: name.toList).head? = directory.toList.head? := by
    cases hdir : directory.toList with
    | nil => exact absurd (String.toList_eq_nil_iff.1 hdir) hdirectory
    | cons c cs => rfl
  have hparts : (Text.splitAll '/' (directory.toList ++ '/' :: name.toList)).map String.ofList =
      (Text.splitAll '/' directory.toList).map String.ofList ++ [name] := by
    rw [Text.splitAll_append, Text.splitAll_of_notMem hname, List.map_append, List.map_singleton,
      String.ofList_toList]
  simp only [steps, hlist, hhead, hparts]
  split
  · rfl
  · rw [List.append_assoc]

theorem read_eq_ok {t : FileTree} {path : String} {content : Bytes} :
    t.read path = .ok content ↔ t.node path = .ok (.file content) := by
  unfold read
  cases t.node path with
  | error fault => exact ⟨nofun, nofun⟩
  | ok found =>
    cases found with
    | file content => exact ⟨fun h => by cases h; rfl, fun h => by cases h; rfl⟩
    | directory entries => exact ⟨nofun, nofun⟩

section Put

variable {t : FileTree} {path : String} {names : List String} {name : String} {content : Bytes}
  {root : FileNode}

/-- Where a file was put, a path leads to it or nowhere. -/
theorem node_after_put (hnames : FileTree.names (t.steps path) = names ++ [name])
    (h : put content names name t.root = .ok root) {found : FileNode}
    (hfound : { t with root }.node path = .ok found) : found = .file content := by
  have hat := at?_of_node hfound
  have hsteps : { t with root }.steps path = t.steps path := rfl
  rw [hsteps, hnames, at?_put h] at hat
  exact (Option.some.inj hat).symm

/-- **What was put in place of a file** is read there. -/
theorem read_after_put (hnames : FileTree.names (t.steps path) = names ++ [name])
    (h : put content names name t.root = .ok root) {old : Bytes} (hold : t.read path = .ok old) :
    { t with root }.read path = .ok content := by
  obtain ⟨found, hfound⟩ : ∃ found, { t with root }.node path = .ok found := by
    have hnode := read_eq_ok.1 hold
    unfold node at hnode ⊢
    split at hnode
    · cases hnode
    · rename_i hpath
      rw [if_neg hpath]
      exact walk_of_keeps (keeps_put h) .root .root hnode
  rw [read_eq_ok, hfound, node_after_put hnames h hfound]

end Put

end FileTree

end CompositionFunction
