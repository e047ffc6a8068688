import CompositionFunction.Proofs.CommandLine.Run
import CompositionFunction.Proofs.Config
import CompositionFunction.Proofs.Files.Tree

/-!
# The file of the configuration

What is shown of a configuration is a document of it, with the path in a comment. What is created is
the document of the built-in configuration, at the path where the configuration is loaded from.

* `parse?_configText` : what is shown is a document of the configuration.
* `result_showConfig_eq_ok` : what is shown, and when.
* `createConfig_succeeds_iff` : when the file can be created.
* `currentConfig_after_createConfig` : what is loaded after that.
* `shown_and_created_configurations_reload` : both are loaded as what they were written from.
-/

set_option autoImplicit false

namespace CompositionFunction.CommandLine

open Toml FileNode

/-! ## The path -/

/-- No character is one of the control characters of ASCII. -/
def ControlFree (s : String) : Prop := ∀ c ∈ s.toList, ' ' ≤ c ∧ c ≠ '\x7f'

instance (s : String) : Decidable (ControlFree s) :=
  List.decidableBAll (fun c => ' ' ≤ c ∧ c ≠ '\x7f') s.toList

theorem ControlFree.append {s s' : String} (h : ControlFree s) (h' : ControlFree s') :
    ControlFree (s ++ s') := by
  intro c hc
  rw [String.toList_append, List.mem_append] at hc
  exact hc.elim (h c) (h' c)

theorem ControlFree.joinPath {directory name : String} (h : ControlFree directory)
    (hname : ControlFree name) : ControlFree (joinPath directory name) := by
  unfold CompositionFunction.joinPath
  split
  · exact h.append hname
  · exact (h.append (by decide)).append hname

theorem ControlFree.configPath {home : String} (h : ControlFree home) :
    ControlFree (configPath home) := (h.joinPath (by decide)).joinPath (by decide)

theorem ControlFree.isCommentChar {s : String} (h : ControlFree s) :
    ∀ c ∈ s.toList, isCommentChar c = true := by
  intro c hc
  obtain ⟨hspace, hdelete⟩ := h c hc
  simp [Toml.isCommentChar, hspace, hdelete]

/-- The path of an entry ends as the name of the entry does. -/
theorem getLast?_joinPath (directory : String) {name : String} (hname : name ≠ "") :
    (joinPath directory name).toList.getLast? = name.toList.getLast? := by
  have hlist : name.toList ≠ [] := fun h => hname (String.toList_eq_nil_iff.1 h)
  unfold joinPath
  split <;> rw [String.toList_append, List.getLast?_append,
    List.getLast?_eq_some_getLast hlist, Option.some_or]

theorem getLast?_configDirectory (home : String) :
    (configDirectory home).toList.getLast? = some 'n' :=
  getLast?_joinPath home (by decide)

theorem configDirectory_ne_empty (home : String) : configDirectory home ≠ "" := by
  intro h
  have hlast := getLast?_configDirectory home
  rw [h] at hlast
  cases hlast

theorem configPath_eq (home : String) :
    configPath home = configDirectory home ++ "/" ++ "composefn.toml" := by
  have hlast : (configDirectory home).toList.getLast? ≠ some '/' := by
    rw [getLast?_configDirectory]
    decide
  exact if_neg (not_or.2 ⟨configDirectory_ne_empty home, hlast⟩)

/-- The names of the directory of the configuration. -/
def configNames (t : FileTree) (home : String) : List String :=
  FileTree.names (t.steps (configDirectory home))

/-- The file is in its directory. -/
theorem names_configPath (t : FileTree) (home : String) :
    FileTree.names (t.steps (configPath home)) = configNames t home ++ ["composefn.toml"] := by
  rw [configNames, configPath_eq, t.steps_append (configDirectory_ne_empty home) (by decide),
    FileTree.names_append (by decide)]

/-! ## Loading -/

section Load

variable {t : FileTree} {home path s : String} {c : Config}

/-- A configuration is loaded if the file has a text and the text is a document of it. -/
theorem configAt_eq_ok :
    ((configAt path : StateM FileTree (Except Error Config)).run t).1 = .ok c ↔
      ∃ s, (t.read path).bind textOf = .ok s ∧ Config.parse? s = some c := by
  unfold configAt
  rw [(readsOnly_readText path).run_bind, run_readText]
  cases (t.read path).bind textOf with
  | error fault => exact ⟨nofun, nofun⟩
  | ok s =>
    dsimp only [Except.mapError]
    cases hs : Config.parse? s with
    | none =>
      refine ⟨nofun, ?_⟩
      rintro ⟨_, ⟨⟩, hsome⟩
      cases hs.symm.trans hsome
    | some read =>
      constructor
      · intro h
        exact ⟨s, rfl, hs.trans (congrArg some (Except.ok.inj h))⟩
      · rintro ⟨_, ⟨⟩, hsome⟩
        cases hs.symm.trans hsome
        rfl

theorem configAt_of_read (hread : t.read path = .ok (utf8 s)) (hs : Config.parse? s = some c) :
    ((configAt path : StateM FileTree (Except Error Config)).run t).1 = .ok c := by
  refine configAt_eq_ok.2 ⟨s, ?_, hs⟩
  rw [hread]
  show textOf (utf8 s) = _
  rw [textOf, ofUtf8?_utf8]

theorem exists_read_of_configAt
    (h : ((configAt path : StateM FileTree (Except Error Config)).run t).1 = .ok c) :
    ∃ content, t.read path = .ok content := by
  obtain ⟨_, hs, _⟩ := configAt_eq_ok.1 h
  exact (bind_eq_ok.1 hs).imp fun _ => And.left

/-- The configuration is that of its file, if there is one. -/
theorem currentConfig_eq :
    ((currentConfig home : StateM FileTree (Except Error Config × List Event)).run t).1.1 =
      if (t.node (configPath home)).isOk then
        ((configAt (configPath home) : StateM FileTree (Except Error Config)).run t).1
      else .ok .builtIn := by
  have hthere : (StateT.run (Host.isThere (configPath home) : StateM FileTree Bool) t).1 =
      (t.node (configPath home)).isOk := rfl
  unfold currentConfig
  rw [(readsOnly_isThere _).run_bind, hthere]
  split
  · rw [(readsOnly_configAt _).run_bind]
    rfl
  · rfl

theorem currentConfig_of_configAt
    (h : ((configAt (configPath home) : StateM FileTree (Except Error Config)).run t).1 = .ok c) :
    ((currentConfig home : StateM FileTree (Except Error Config × List Event)).run t).1.1 =
      .ok c := by
  obtain ⟨content, hread⟩ := exists_read_of_configAt h
  rw [currentConfig_eq, FileTree.read_eq_ok.1 hread]
  exact h

/-- A configuration that was loaded can be written. -/
theorem ttlSeconds_lt_of_currentConfig
    (h : ((currentConfig home : StateM FileTree (Except Error Config × List Event)).run t).1.1 =
      .ok c) : c.ttlSeconds < 2 ^ 63 := by
  rw [currentConfig_eq] at h
  split at h
  · obtain ⟨_, _, hparse⟩ := configAt_eq_ok.1 h
    exact Config.ttlSeconds_lt_of_parse? hparse
  · cases h
    decide

end Load

/-! ## Showing -/

section Show

variable {t : FileTree} {home path toml text : String} {c : Config}

/-- **What is shown is a document** of the configuration, if the path can stand in a comment. -/
theorem parse?_configText (hpath : ControlFree path) (h : c.render = .ok toml) :
    Config.parse? (configText path toml) = some c := by
  obtain ⟨hlt, rfl⟩ := Config.render_eq_ok.1 h
  have hcomment : ∀ ch ∈ ' ' :: path.toList, isCommentChar ch = true :=
    List.forall_mem_cons.2 ⟨rfl, hpath.isCommentChar⟩
  have htext : configText path (String.ofList ((c.lines hlt).flatMap PlainLine.text)) =
      String.ofList (([PlainLine.comment (' ' :: path.toList) hcomment] ++
        (c.lines hlt ++ [PlainLine.empty])).flatMap PlainLine.text) := by
    apply String.toList_inj.1
    simp [configText, String.toList_append, PlainLine.text]
  rw [htext]
  exact Config.parse?_among hlt (List.forall_mem_singleton.2 rfl) (List.forall_mem_singleton.2 rfl)

/-- The comment ends where the path has a line break. -/
example : Config.parse? (configText "/home/\nuser" "") = none := by decide +kernel

/-- **What is shown, and when**: the document of the configuration, if there is a configuration. -/
theorem result_showConfig_eq_ok :
    ((showConfig home : StateM FileTree Outcome).run t).1.result = .ok text ↔
      ∃ c toml,
        ((currentConfig home : StateM FileTree (Except Error Config × List Event)).run t).1.1 =
            .ok c ∧
          c.render = .ok toml ∧ configText (configPath home) toml = text := by
  unfold showConfig
  rw [(readsOnly_currentConfig home).run_bind]
  rcases ((currentConfig home : StateM FileTree (Except Error Config × List Event)).run t).1 with
    ⟨e | c, events⟩
  · exact ⟨nofun, fun ⟨_, _, hconfig, _⟩ => nomatch hconfig⟩
  · dsimp only
    cases hrender : c.render with
    | error message =>
      refine ⟨nofun, ?_⟩
      rintro ⟨_, _, ⟨⟩, hok, _⟩
      rw [hrender] at hok
      cases hok
    | ok toml =>
      constructor
      · intro h
        exact ⟨c, toml, rfl, hrender, Except.ok.inj h⟩
      · rintro ⟨_, _, ⟨⟩, hok, rfl⟩
        rw [hrender] at hok
        cases hok
        rfl

end Show

/-! ## Creating -/

section Create

variable {t : FileTree} {home text : String} {made root : FileNode} {fault : FileFault}

theorem run_bind {α β : Type} (p : StateM FileTree α) (f : α → StateM FileTree β) (t : FileTree) :
    (p >>= f).run t = (f (p.run t).1).run (p.run t).2 := rfl

theorem run_change_ok (root : FileNode) (t : FileTree) :
    (FileTree.change (.ok root)).run t = (.ok (), { t with root }) := rfl

theorem run_makeDirectories (path : String) (t : FileTree) :
    (Host.makeDirectories path : StateM FileTree (Except FileFault Unit)).run t =
      (FileTree.change (makeDirectories (FileTree.names (t.steps path)) t.root)).run t := rfl

theorem run_writeFile (path : String) (content : Bytes) (t : FileTree) :
    (Host.writeFile path content : StateM FileTree (Except FileFault Unit)).run t =
      (FileTree.change (write content (FileTree.names (t.steps path)) t.root)).run t := rfl

/-- The document of the built-in configuration. -/
def builtInText : String := "[defaults]\nttl_secs = 60\npretty = true\n"

theorem render_builtIn : Config.builtIn.render = .ok builtInText := rfl

/-- The files with the document of the built-in configuration at its place. -/
def putBuiltIn (t : FileTree) (home : String) : Except FileFault FileNode :=
  put (utf8 builtInText) (configNames t home) "composefn.toml" t.root

/-- Once its directory is there, the file is written. -/
theorem run_storeBuiltIn_of_made (h : makeDirectories (configNames t home) t.root = .ok made) :
    (storeBuiltIn home : StateM FileTree (Except Error String × List Event)).run t =
      match write (utf8 builtInText) (configNames t home ++ ["composefn.toml"]) made with
      | .error fault =>
        ((.error (.io (configPath home) fault.message), []), { t with root := made })
      | .ok root =>
        ((.ok (configPath home), [.configCreated (configPath home)]), { t with root }) := by
  -- The names depend on the working directory only, which stays.
  have hnames : FileTree.names ({ t with root := made }.steps (configPath home)) =
      configNames t home ++ ["composefn.toml"] := names_configPath t home
  unfold storeBuiltIn
  rw [run_bind, run_makeDirectories, ← configNames, h, run_change_ok]
  dsimp only
  rw [render_builtIn]
  dsimp only
  rw [run_bind, run_writeFile, hnames]
  cases write (utf8 builtInText) (configNames t home ++ ["composefn.toml"]) made <;> rfl

theorem run_storeBuiltIn_of_put (h : putBuiltIn t home = .ok root) :
    (storeBuiltIn home : StateM FileTree (Except Error String × List Event)).run t =
      ((.ok (configPath home), [.configCreated (configPath home)]), { t with root }) := by
  obtain ⟨made, hmade, hwrite⟩ := bind_eq_ok.1 h
  rw [run_storeBuiltIn_of_made hmade, hwrite]

/-- Where it cannot be put, there is an error: of the directory, or of the file. -/
theorem run_storeBuiltIn_of_put_error (h : putBuiltIn t home = .error fault) :
    ∃ e t', (storeBuiltIn home : StateM FileTree (Except Error String × List Event)).run t =
      ((.error e, []), t') := by
  cases hmade : makeDirectories (configNames t home) t.root with
  | error fault =>
    unfold storeBuiltIn
    rw [run_bind, run_makeDirectories, ← configNames, hmade]
    exact ⟨_, _, rfl⟩
  | ok made =>
    have hwrite : write (utf8 builtInText) (configNames t home ++ ["composefn.toml"]) made =
        .error fault := by
      unfold putBuiltIn put at h
      rwa [hmade] at h
    rw [run_storeBuiltIn_of_made hmade, hwrite]
    exact ⟨_, _, rfl⟩

/-- What is told of the file that was created. -/
def createdText (home : String) : String := "Config initialized at: " ++ configPath home ++ "\n"

theorem run_createConfig_of_put (h : putBuiltIn t home = .ok root) :
    (createConfig home : StateM FileTree Outcome).run t =
      (⟨.ok (createdText home), [.configCreated (configPath home)]⟩, { t with root }) := by
  unfold createConfig
  rw [run_bind, run_storeBuiltIn_of_put h]
  rfl

/-- The file is created if it can be put in its directory. -/
theorem result_createConfig_eq_ok :
    ((createConfig home : StateM FileTree Outcome).run t).1.result = .ok text ↔
      (∃ root, putBuiltIn t home = .ok root) ∧ createdText home = text := by
  cases h : putBuiltIn t home with
  | ok root =>
    rw [run_createConfig_of_put h]
    exact ⟨fun htext => ⟨⟨root, rfl⟩, Except.ok.inj htext⟩, fun ⟨_, htext⟩ => congrArg _ htext⟩
  | error fault =>
    refine ⟨fun hok => ?_, fun ⟨⟨_, hroot⟩, _⟩ => nomatch hroot⟩
    obtain ⟨e, t', hrun⟩ := run_storeBuiltIn_of_put_error h
    unfold createConfig at hok
    rw [run_bind, hrun] at hok
    cases hok

/-- **When the file can be created**: if nothing is in the way to it. -/
theorem createConfig_succeeds_iff :
    (∃ text, ((createConfig home : StateM FileTree Outcome).run t).1.result = .ok text) ↔
      admits (FileTree.names (t.steps (configPath home))) t.root = true := by
  rw [names_configPath, ← put_eq_ok_iff (utf8 builtInText)]
  constructor
  · rintro ⟨_, htext⟩
    exact (result_createConfig_eq_ok.1 htext).1
  · intro hput
    exact ⟨_, result_createConfig_eq_ok.2 ⟨hput, rfl⟩⟩

/-- A file that is there can be created anew. -/
theorem read_after_createConfig {content : Bytes} (h : t.read (configPath home) = .ok content) :
    ((createConfig home : StateM FileTree Outcome).run t).1.result = .ok (createdText home) ∧
      ((createConfig home : StateM FileTree Outcome).run t).2.read (configPath home) =
        .ok (utf8 builtInText) := by
  have hadmits : admits (configNames t home ++ ["composefn.toml"]) t.root = true := by
    rw [← names_configPath]
    exact admits_of_at? (FileTree.at?_of_node (FileTree.read_eq_ok.1 h))
  obtain ⟨root, hroot⟩ := (put_eq_ok_iff (utf8 builtInText) _ _ t.root).2 hadmits
  rw [run_createConfig_of_put hroot]
  exact ⟨rfl, FileTree.read_after_put (names_configPath t home) hroot h⟩

/-- **What is loaded after the file was created** is the built-in configuration. -/
theorem currentConfig_after_createConfig
    (h : ((createConfig home : StateM FileTree Outcome).run t).1.result = .ok text) :
    ((currentConfig home : StateM FileTree (Except Error Config × List Event)).run
      ((createConfig home : StateM FileTree Outcome).run t).2).1.1 = .ok .builtIn := by
  obtain ⟨⟨root, hroot⟩, _⟩ := result_createConfig_eq_ok.1 h
  rw [run_createConfig_of_put hroot, currentConfig_eq]
  cases hnode : { t with root }.node (configPath home) with
  | error fault => rfl
  | ok found =>
    cases FileTree.node_after_put (names_configPath t home) hroot hnode
    exact configAt_of_read (FileTree.read_eq_ok.2 hnode) (Config.parse?_of_render render_builtIn)

end Create

/-! ## Reloading -/

/-- **What is shown of a configuration is loaded as the configuration**, wherever it is stored, if
its path has no control character; **and what was created is loaded as the built-in one**, whatever
was there before. -/
theorem shown_and_created_configurations_reload (home : String) (t : FileTree) :
    (∀ c, ((configAt (configPath home) : StateM FileTree (Except Error Config)).run t).1 = .ok c →
      ∃ toml, c.render = .ok toml ∧
        ((showConfig home : StateM FileTree Outcome).run t).1.result =
            .ok (configText (configPath home) toml) ∧
          (ControlFree home → ∀ (u : FileTree) (path : String),
            u.read path = .ok (utf8 (configText (configPath home) toml)) →
              ((configAt path : StateM FileTree (Except Error Config)).run u).1 = .ok c)) ∧
    (∀ content, t.read (configPath home) = .ok content →
      ((createConfig home : StateM FileTree Outcome).run t).1.result = .ok (createdText home) ∧
        ((createConfig home : StateM FileTree Outcome).run t).2.read (configPath home) =
          .ok (utf8 builtInText)) ∧
    ∀ text, ((createConfig home : StateM FileTree Outcome).run t).1.result = .ok text →
      ((currentConfig home : StateM FileTree (Except Error Config × List Event)).run
        ((createConfig home : StateM FileTree Outcome).run t).2).1.1 = .ok .builtIn := by
  refine ⟨fun c hc => ?_, fun content => read_after_createConfig,
    fun text => currentConfig_after_createConfig⟩
  have hcurrent := currentConfig_of_configAt hc
  obtain ⟨toml, hrender⟩ : ∃ toml, c.render = .ok toml :=
    ⟨_, Config.render_of_lt (ttlSeconds_lt_of_currentConfig hcurrent)⟩
  refine ⟨toml, hrender, result_showConfig_eq_ok.2 ⟨c, toml, hcurrent, hrender, rfl⟩, ?_⟩
  intro hhome u path hread
  exact configAt_of_read hread (parse?_configText hhome.configPath hrender)

/-- A home directory with a text for its configuration. -/
def homeWith (toml : String) : FileTree where
  root := ["home", "user", ".composefn", "composefn.toml"].foldr
    (fun name inner => directory (.cons name trivial inner .nil)) (file (utf8 toml))
  workingDirectory := []
  input := []

theorem read_homeWith (toml : String) :
    (homeWith toml).read (configPath "/home/user") = .ok (utf8 toml) := rfl

/-- The greatest number of seconds that can be configured, in a document that sets it with marks
between its digits and in a table on one line. -/
def greatestTtlText : String :=
  "defaults = \x7b ttl_secs = 9_223_372_036_854_775_807, pretty = false \x7d # years"

theorem greatest_ttl_reloads_until_created_anew :
    ∃ c text,
      c.ttlSeconds = 2 ^ 63 - 1 ∧ c.pretty = false ∧
      ((showConfig "/home/user" : StateM FileTree Outcome).run
        (homeWith greatestTtlText)).1.result = .ok text ∧
      ((configAt (configPath "/home/user") : StateM FileTree (Except Error Config)).run
        (homeWith text)).1 = .ok c ∧
      ((currentConfig "/home/user" : StateM FileTree (Except Error Config × List Event)).run
        ((createConfig "/home/user" : StateM FileTree Outcome).run
          (homeWith greatestTtlText)).2).1.1 = .ok .builtIn := by
  have hloaded : ((configAt (configPath "/home/user") : StateM FileTree (Except Error Config)).run
      (homeWith greatestTtlText)).1 = .ok ⟨2 ^ 63 - 1, false, by decide⟩ :=
    configAt_of_read (read_homeWith greatestTtlText) (by decide +kernel)
  obtain ⟨hshow, hcreate, hcurrent⟩ :=
    shown_and_created_configurations_reload "/home/user" (homeWith greatestTtlText)
  obtain ⟨toml, _, hshown, hreload⟩ := hshow _ hloaded
  have hcreated := (hcreate _ (read_homeWith greatestTtlText)).1
  exact ⟨_, _, rfl, rfl, hshown, hreload (by decide) _ _ (read_homeWith _), hcurrent _ hcreated⟩

end CompositionFunction.CommandLine
