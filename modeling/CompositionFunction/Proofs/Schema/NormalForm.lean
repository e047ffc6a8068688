import CompositionFunction.Proofs.Json.Distinct
import CompositionFunction.Proofs.Json.NormalForm
import CompositionFunction.Proofs.Schema.RoundTrip

/-!
# Writing what was read

Reading a value and writing it again brings it to a normal form. Each kind of shape follows a rule
that is built from the rules of its parts.

* `Shape.Normalises` : what a shape writes for a value that it has read follows a rule.
* `Shape.record_normalises`, `Shape.recordWith_normalises` : the rules of records.
-/

set_option autoImplicit false

namespace CompositionFunction.Schema

open Json

/-! ## Shapes that follow a rule -/

/-- What the shape writes for a value that it has read follows the rule. -/
def Shape.Normalises {α : Type} (shape : Shape α) (rule : Rule) : Prop :=
  ∀ source v a, source.enter? = some source → shape.ofTree source (Json.tree v) = .ok a →
    shape.value a = rule v

/-- What the field writes for a member that it has read, or for none, follows the rule. -/
def Field.Normalises {α : Type} (field : Field α) (rule : FieldRule) : Prop :=
  ∀ source found a, source.enter? = some source → field.Gives source (found.map Json.tree) a →
    (field.document? a).map Document.value = rule found

/-- Each field follows the rule of its name. -/
inductive Fields.Normalise : {αs : List Type} → Fields αs → List (String × FieldRule) → Prop where
  | nil : Normalise .nil []
  | cons {α : Type} {αs : List Type} {field : Field α} {rest : Fields αs} {rule : FieldRule}
      {rules : List (String × FieldRule)} (head : field.Normalises rule)
      (tail : rest.Normalise rules) :
      Normalise (.cons field rest) ((field.name, rule) :: rules)

section Leaves

variable {α β : Type}

theorem eq_of_json?_tree {source : Source} {v w : Json} (h : v.tree.json? source = some w) :
    v = w := by
  have hfree : Source.value.enter? = some .value := rfl
  have hw := v.tree.json?_unbounded .value hfree h
  rw [json?_valueTree hfree, Option.some.injEq] at hw
  exact hw

theorem tree_injective {v w : Json} (h : v.tree = w.tree) : v = w := by
  have hfree : Source.value.enter? = some .value := rfl
  exact eq_of_json?_tree (h ▸ json?_valueTree hfree w)

theorem Shape.object_normalises : Shape.object.Normalises id := by
  intro source v entries _ h
  rw [eq_of_json?_tree (Shape.object_eq_ok.1 h)]
  exact Document.value_document (.object entries)

theorem Shape.text_normalises : Shape.text.Normalises id := by
  intro source v s _ h
  have hv : v.tree = (Json.text s).tree := Shape.text_eq_ok.1 h
  rw [tree_injective hv]
  rfl

end Leaves

/-! ## Refinements -/

section Refined

variable {α β : Type}

/-- A refinement writes what its base writes, brought into its own form. -/
theorem Shape.refined_normalises {base : Shape α} {decode : α → Except Misfit β} {encode : β → α}
    {rule next : Rule} (hbase : base.Normalises rule)
    (hnext : ∀ a b, decode a = .ok b → base.value (encode b) = next (base.value a)) :
    (Shape.refined base decode encode).Normalises (next ∘ rule) := by
  intro source v b hfree h
  obtain ⟨a, ha, hdecode⟩ := Shape.refined_eq_ok.1 h
  show base.value (encode b) = next (rule v)
  rw [hnext a b hdecode, hbase source v a hfree ha]

theorem Shape.via_normalises {base : Shape α} {make : α → β} {parts : β → α} {rule : Rule}
    (hbase : base.Normalises rule) (hparts : ∀ a, parts (make a) = a) :
    (base.via make parts).Normalises rule := by
  show (base.via make parts).Normalises (id ∘ rule)
  refine Shape.refined_normalises hbase fun a b h => ?_
  obtain rfl := Except.ok.inj h
  rw [hparts]
  rfl

end Refined

/-! ## Maps and lists -/

section Containers

variable {α : Type}

theorem Shape.value_map (value : Shape α) (m : StringMap α) :
    (Shape.map value).value m = .object (m.map value.value) := by
  have hnames : ((m.toList.map fun e => (e.1, value.document e.2)).map Prod.fst).Nodup := by
    rw [List.map_map]
    exact m.nodup_keys
  show Json.object (Document.memberValues .empty _) = _
  refine congrArg Json.object (StringMap.ext fun k => ?_)
  rw [find?_memberValues hnames, lookup_map_snd, Entries.lookup_toList, Entries.find?_map,
    Option.map_map]
  rfl

theorem Shape.map_normalises {value : Shape α} {rule : Rule} (hvalue : value.Normalises rule) :
    (Shape.map value).Normalises rule.eachMember := by
  intro source v m hfree h
  cases v with
  | object entries =>
    rw [tree_object, Shape.map_object (nodup_treeNames entries), hfree] at h
    obtain ⟨_, ⟨⟩, hread⟩ := h
    rw [Shape.value_map]
    refine congrArg Json.object (StringMap.ext fun k => ?_)
    have hk := hread k
    rw [lookup_tree] at hk
    rw [Entries.find?_map, Entries.find?_map]
    cases hv : entries.find? k with
    | none =>
      rw [hv] at hk
      rw [show m.find? k = none from hk]
      rfl
    | some w =>
      rw [hv] at hk
      obtain ⟨a, ha, hm⟩ := hk
      rw [hm]
      exact congrArg some (hvalue source w a hfree ha)
  | array vs => rw [tree_array] at h; cases h
  | _ => cases h

/-- A map of texts is left as it is. -/
theorem Shape.texts_normalise : (Shape.map .text).Normalises id := by
  have h := Shape.map_normalises Shape.text_normalises
  rw [Rule.eachMember_id] at h
  exact h

theorem Shape.value_list (item : Shape α) (as : List α) :
    (Shape.list item).value as = .array (as.map item.value) := by
  show Json.array (Document.itemValues (as.map fun a => item.document a)) = _
  rw [itemValues_eq, List.map_map]
  rfl

theorem readItems_normalises {item : Shape α} {rule : Rule} (hitem : item.Normalises rule)
    {source : Source} (hfree : source.enter? = some source) {vs : List Json} :
    ∀ {as : List α}, readItems (item.ofTree source) (vs.map Json.tree) = .ok as →
      as.map item.value = vs.map rule := by
  induction vs with
  | nil =>
    intro as h
    rw [readItems_nil.1 h]
    rfl
  | cons v vs ih =>
    intro as h
    rw [List.map_cons] at h
    obtain ⟨a, rest, ha, hrest, rfl⟩ := readItems_cons.1 h
    rw [List.map_cons, List.map_cons, hitem source v a hfree ha, ih hrest]

theorem Shape.list_normalises {item : Shape α} {rule : Rule} (hitem : item.Normalises rule) :
    (Shape.list item).Normalises rule.eachItem := by
  intro source v as hfree h
  cases v with
  | array vs =>
    rw [tree_array, Shape.list_array, hfree] at h
    obtain ⟨_, ⟨⟩, hread⟩ := h
    rw [Shape.value_list, readItems_normalises hitem hfree hread]
    rfl
  | object entries => rw [tree_object] at h; cases h
  | _ => cases h

end Containers

/-! ## Options -/

section Options

variable {α β : Type}

/-- An object with one member, as a value and as a tree. -/
theorem onlyMember?_of_tree {v : Json} {name : String} {t : Tree} {ending : Ending}
    (h : v.tree = .object [(some name, t)] ending) :
    ∃ w, Rule.onlyMember? v = some (name, w) ∧ t = w.tree := by
  cases v with
  | object entries =>
    rw [tree_object] at h
    injection h with hmembers
    unfold Rule.onlyMember?
    cases hlist : entries.toList with
    | nil => rw [hlist] at hmembers; cases hmembers
    | cons e rest =>
      cases rest with
      | nil =>
        rw [hlist] at hmembers
        cases hmembers
        refine ⟨e.2, ?_, rfl⟩
        simp only [hlist]
      | cons _ _ => rw [hlist] at hmembers; cases hmembers
  | array vs => rw [tree_array] at h; cases h
  | _ => cases h

theorem Shape.choice_normalises {options : List (String × α)} {label : α → String}
    (hlabel : ∀ name a, options.lookup name = some a → label a = name) :
    (Shape.choice options label).Normalises Rule.optionName := by
  intro source v a hfree h
  show Json.text (label a) = Rule.optionName v
  rcases readOption_eq_ok h with ⟨name, b, hv, hb, hbare⟩ |
    ⟨inner, name, t, ending, b, hv, _, hb, hvalued⟩
  · obtain rfl := Except.ok.inj hbare
    rw [tree_injective (show v.tree = (Json.text name).tree from hv), hlabel name b hb]
    rfl
  · obtain ⟨w, honly, rfl⟩ := onlyMember?_of_tree hv
    unfold Rule.optionName
    rw [honly]
    cases w with
    | null =>
      obtain rfl := Except.ok.inj hvalued
      rw [hlabel name b hb]
    | array vs => rw [tree_array] at hvalued; cases hvalued
    | object entries => rw [tree_object] at hvalued; cases hvalued
    | _ => cases hvalued

theorem Shape.either_normalises {left right : String} {leftValue : Shape α} {rightValue : Shape β}
    {leftRule rightRule : Rule} (hleft : leftValue.Normalises leftRule)
    (hright : rightValue.Normalises rightRule) :
    (Shape.either left leftValue right rightValue).Normalises
      (Rule.optionValue left leftRule rightRule) := by
  intro source v a hfree h
  rcases readOption_eq_ok h with ⟨_, _, _, _, hbare⟩ |
    ⟨inner, name, t, ending, isLeft, hv, henter, hname, hvalued⟩
  · cases hbare
  obtain rfl := Option.some.inj (hfree.symm.trans henter)
  obtain ⟨w, honly, rfl⟩ := onlyMember?_of_tree hv
  unfold Rule.optionValue
  rw [honly]
  rw [lookup_cons_if] at hname
  split at hname
  · rename_i heq
    cases hname
    obtain ⟨b, hb, rfl⟩ := map_eq_ok.1 hvalued
    dsimp only at heq ⊢
    rw [if_pos heq, heq, ← hleft source w b hfree hb]
    rfl
  · rename_i hne
    rw [lookup_cons_if] at hname
    split at hname
    · rename_i heq
      cases hname
      obtain ⟨b, hb, rfl⟩ := map_eq_ok.1 hvalued
      dsimp only at hne heq ⊢
      rw [if_neg hne, heq, ← hright source w b hfree hb]
      rfl
    · cases hname

end Options

/-! ## Fields -/

section Fields

variable {α : Type} {name : String} {shape : Shape α} {rule : Rule}

theorem Field.required_normalises (hshape : shape.Normalises rule) :
    (Field.required name shape).Normalises (FieldRule.kept rule) := by
  intro source found a hfree h
  cases found with
  | none => cases h
  | some v => exact congrArg some (hshape source v a hfree h)

theorem Field.defaulted_normalises (hshape : shape.Normalises rule) (default : α) :
    (Field.defaulted name shape default).Normalises
      (FieldRule.filled rule (shape.value default)) := by
  intro source found a hfree h
  cases found with
  | none =>
    obtain rfl := Option.some.inj h
    rfl
  | some v => exact congrArg some (hshape source v a hfree h)

theorem Field.trimmed_normalises (hshape : shape.Normalises rule) (hlawful : shape.Lawful)
    (default : α) (same : DecidableEq α) :
    (Field.trimmed name shape default same).Normalises
      (FieldRule.omitted rule (shape.value default)) := by
  intro source found a hfree h
  cases found with
  | none =>
    obtain rfl := Option.some.inj h
    rw [Field.document?_trimmed_self]
    rfl
  | some v =>
    have ha : shape.value a = rule v := hshape source v a hfree h
    unfold FieldRule.omitted
    cases same a default with
    | isTrue heq =>
      subst heq
      rw [Field.document?_trimmed_self]
      dsimp only
      rw [if_pos ha.symm]
      rfl
    | isFalse hne =>
      have hdefault : rule v ≠ shape.value default := fun e =>
        hne (Shape.value_injective hlawful (ha.trans e))
      rw [Field.document?_trimmed_ne hne]
      dsimp only
      rw [if_neg hdefault, ← ha]
      rfl

theorem Field.optional_normalises (hshape : shape.Normalises rule) :
    (Field.optional name shape).Normalises (FieldRule.unlessNull rule) := by
  intro source found a hfree h
  cases found with
  | none =>
    obtain rfl := Option.some.inj h
    rfl
  | some v =>
    unfold FieldRule.unlessNull
    dsimp only
    by_cases hnull : v = .null
    · subst hnull
      obtain rfl := Except.ok.inj h
      rfl
    · have htree : v.tree ≠ .null := fun e =>
        hnull (tree_injective (show v.tree = Json.null.tree from e))
      have hread : (Field.optional name shape).ofTree source v.tree = .ok a := h
      rw [Field.optional_ofTree htree] at hread
      obtain ⟨b, hb, rfl⟩ := map_eq_ok.1 hread
      rw [if_neg hnull, ← hshape source v b hfree hb]
      rfl

end Fields

/-! ## Records -/

section Records

variable {αs : List Type} {fields : Fields αs} {rules : List (String × FieldRule)}

theorem Fields.Normalise.names (h : fields.Normalise rules) :
    fields.names = rules.map Prod.fst := by
  induction h with
  | nil => rfl
  | cons head tail ih =>
    rw [Fields.names, ih]
    rfl

/-- The members that a record writes are those that remain by the rules. -/
theorem Fields.Normalise.members {source : Source} {find : String → Option Json}
    (h : fields.Normalise rules) (hfree : source.enter? = some source) :
    ∀ {row : Row αs}, fields.Gives source (fun k => (find k).map Json.tree) row →
      (fields.members row).map (fun m => (m.1, m.2.value)) = Rule.members rules find := by
  induction h with
  | nil =>
    intro row _
    rfl
  | @cons _ _ field rest _ _ head tail ih =>
    rintro ⟨a, row⟩ ⟨hfield, hrest⟩
    have hwritten := head source (find field.name) a hfree hfield
    rw [Rule.members_cons, ← hwritten, ← ih hrest, Fields.members_cons]
    cases field.document? a <;> rfl

theorem Shape.value_record (name : String) (row : Row αs) :
    (Shape.record name fields).value row =
      .object (StringMap.ofList ((fields.members row).map fun m => (m.1, m.2.value))) := by
  show Json.object (Document.memberValues .empty (fields.members row)) = _
  rw [Document.memberValues_eq]
  rfl

/-- Under the name of each field stands what the field writes. -/
def Fields.Written (find : String → Option Json) : {αs : List Type} → Fields αs → Row αs → Prop
  | _, .nil, _ => True
  | _, .cons field rest, (a, row) =>
    find field.name = (field.document? a).map Document.value ∧ rest.Written find row

theorem Fields.Written.congr {find find' : String → Option Json} : ∀ {αs : List Type}
    {fields : Fields αs} {row : Row αs}, fields.Written find row →
      (∀ name ∈ fields.names, find' name = find name) → fields.Written find' row
  | _, .nil, _, _, _ => trivial
  | _, .cons field _, (_, _), h, hsame =>
    ⟨(hsame field.name List.mem_cons_self).trans h.1,
      h.2.congr fun name hname => hsame name (List.mem_cons_of_mem _ hname)⟩

theorem Fields.written_members : ∀ {αs : List Type} (fields : Fields αs) (row : Row αs),
    fields.names.Nodup →
      fields.Written (fun k => ((fields.members row).lookup k).map Document.value) row
  | _, .nil, _, _ => trivial
  | _, .cons field rest, (a, row), hnames => by
    rw [Fields.names, List.nodup_cons] at hnames
    refine ⟨?_, (rest.written_members row hnames.2).congr fun k hk => ?_⟩
    · exact congrArg (Option.map Document.value) (Fields.lookup_members_head hnames.1 a row)
    · have hne : k ≠ field.name := fun e => hnames.1 (e ▸ hk)
      exact congrArg (Option.map Document.value) (Fields.lookup_members_rest hne a row)

/-- A record is written as an object of what its fields write. -/
theorem Shape.record_written {name : String} (fields : Fields αs) (hnames : fields.names.Nodup)
    (row : Row αs) : ∃ out : JsonObject, (Shape.record name fields).value row = .object out ∧
      fields.Written (out.find? ·) row := by
  refine ⟨Document.memberValues .empty (fields.members row), rfl,
    (fields.written_members row hnames).congr fun k _ => ?_⟩
  exact find?_memberValues (hnames.sublist (fields.members_names row)) k

theorem lookup_zip_tree (k : String) (names : List String) (vs : List Json) :
    (names.zip (vs.map Json.tree)).lookup k = ((names.zip vs).lookup k).map Json.tree := by
  rw [List.zip_map_right]
  exact lookup_map_snd Json.tree k (names.zip vs)

/-- The fields of a record are given by the members of the value that it is read from. -/
theorem Shape.record_gives {name : String} (hnames : fields.names.Nodup) {source : Source}
    {v : Json} {row : Row αs} (hfree : source.enter? = some source)
    (h : (Shape.record name fields).ofTree source (Json.tree v) = .ok row) :
    fields.Gives source (fun k => (Rule.memberAt? fields.names v k).map Json.tree) row := by
  cases v with
  | object entries =>
    have hread : ∀ n ∈ entries.toList.map fun e => (e.1, Json.tree e.2),
        n.2.isGrammatical = true := by
      intro n hn
      obtain ⟨e, _, rfl⟩ := List.mem_map.1 hn
      exact isGrammatical_valueTree e.2
    rw [tree_object, Shape.record_object name hnames (nodup_treeNames entries) hread, hfree] at h
    obtain ⟨_, ⟨⟩, hgives⟩ := h
    rw [funext (lookup_tree entries)] at hgives
    exact hgives
  | array vs =>
    rw [tree_array, Shape.record_array name hnames, hfree] at h
    obtain ⟨_, ⟨⟩, _, hgives⟩ := h
    rw [funext fun k => lookup_zip_tree k fields.names vs] at hgives
    exact hgives
  | _ => cases h

/-- **A record is written as an object of the members that remain.** -/
theorem Shape.record_normalises {name : String} (hnames : fields.names.Nodup)
    (hrules : fields.Normalise rules) :
    (Shape.record name fields).Normalises (Rule.record rules) := by
  intro source v row hfree h
  have hgives := Shape.record_gives hnames hfree h
  unfold Rule.record
  rw [Shape.value_record, ← hrules.names, hrules.members hfree hgives]

theorem value_append (ms : List (String × Document)) (key : String) (d : Document) :
    (Document.object (ms ++ [(key, d)])).value =
      .object (StringMap.ofList (ms.map (fun m => (m.1, m.2.value)) ++ [(key, d.value)])) := by
  show Json.object (Document.memberValues .empty (ms ++ [(key, d)])) = _
  rw [Document.memberValues_eq, List.map_append]
  rfl

/-- The first of two options in key order. -/
theorem firstNamed?_toList {left right : String} (hlt : right < left) {lo : Option String}
    (entries : Entries Json lo) :
    firstNamed? left right (entries.toList.map fun e => (e.1, Json.tree e.2)) =
      ((entries.find? right).map fun w => (right, w.tree)).or
        ((entries.find? left).map fun w => (left, w.tree)) := by
  induction entries with
  | nil => rfl
  | cons key above v rest ih =>
    rw [Entries.toList, List.map_cons, firstNamed?, ih, Entries.find?, Entries.find?]
    by_cases hr : right = key
    · rw [if_pos (Or.inr hr.symm), if_pos hr]
      simp only [hr, Option.map_some, Option.some_or]
    · rw [if_neg hr]
      by_cases hl : left = key
      · have hrest : rest.find? right = none := by
          cases hfind : rest.find? right with
          | none => rfl
          | some w =>
            have habove : key < right := Entries.above_of_find? hfind
            exact absurd habove (String.lt_asymm (hl ▸ hlt))
        rw [if_pos (Or.inl hl.symm), hrest, if_pos hl]
        simp only [hl, Option.map_none, Option.map_some, Option.none_or]
      · rw [if_neg (fun h => h.elim (fun e => hl e.symm) fun e => hr e.symm), if_neg hl]

/-- **A record with a member more is written with the option that was used.** -/
theorem Shape.recordWith_normalises {α β : Type} {name union left right : String}
    {leftValue : Shape α} {rightValue : Shape β} {leftRule rightRule : Rule}
    (hnames : (left :: right :: fields.names).Nodup) (hlt : right < left)
    (hrules : fields.Normalise rules) (hleft : leftValue.Normalises leftRule)
    (hright : rightValue.Normalises rightRule) :
    (Shape.recordWith name fields union left leftValue right rightValue).Normalises
      (Rule.recordWith rules right left rightRule leftRule) := by
  rintro source v ⟨row, selected⟩ hfree h
  cases v with
  | object entries =>
    have hread : ∀ n ∈ entries.toList.map fun e => (e.1, Json.tree e.2),
        ∃ w, n.2.json? source = some w := by
      intro n hn
      obtain ⟨e, _, rfl⟩ := List.mem_map.1 hn
      exact ⟨e.2, json?_valueTree hfree e.2⟩
    rw [tree_object, Shape.recordWith_object hnames (nodup_treeNames entries) hfree hread] at h
    obtain ⟨hgives, m, hfirst, hunion⟩ := h
    rw [funext (lookup_tree entries)] at hgives
    rw [firstNamed?_toList hlt] at hfirst
    have hmembers := hrules.members hfree hgives
    have hne : right ≠ left := fun e => String.lt_irrefl left (e ▸ hlt)
    show _ = Json.object (StringMap.ofList (Rule.members rules (entries.find? ·) ++
      Rule.firstOption right left rightRule leftRule (entries.find? ·)))
    cases hr : entries.find? right with
    | some w =>
      rw [hr] at hfirst
      cases hfirst
      rw [unionOfTree, if_neg hne] at hunion
      obtain ⟨b, hb, rfl⟩ := map_eq_ok.1 hunion
      have hwritten : rightValue.value b = rightRule w := hright .setAside w b rfl hb
      refine (value_append (fields.members row) right (rightValue.document b)).trans ?_
      rw [hmembers, Rule.firstOption_first hr, ← hwritten]
      rfl
    | none =>
      rw [hr] at hfirst
      obtain ⟨w, hl, rfl⟩ := Option.map_eq_some_iff.1 hfirst
      rw [unionOfTree, if_pos rfl] at hunion
      obtain ⟨a, ha, rfl⟩ := map_eq_ok.1 hunion
      have hwritten : leftValue.value a = leftRule w := hleft .setAside w a rfl ha
      refine (value_append (fields.members row) left (leftValue.document a)).trans ?_
      rw [hmembers, Rule.firstOption_second hr hl, ← hwritten]
      rfl
  | array vs => rw [tree_array] at h; cases h
  | _ => cases h

end Records

end CompositionFunction.Schema
