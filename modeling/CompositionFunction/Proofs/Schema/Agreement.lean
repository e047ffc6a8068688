import CompositionFunction.Proofs.Json.Distinct
import CompositionFunction.Proofs.Schema.RoundTrip

/-!
# The readers of texts and values agree

A text is read as it stands, with its members in the order of the text and containers to a limited
depth. The value that the text is read as has its members in key order. Unless an object repeats a
name, or holds both options of a union beside its fields, the order does not matter, so both are
read as the same value or as none.

* `Shape.isUnambiguous` : no record with a member more holds both options of its union.
* `Shape.agrees` : a tree and the value that it is read as are read alike by every shape.
-/

set_option autoImplicit false

namespace CompositionFunction.Schema

open Json

/-! ## Unambiguous trees -/

mutual

/-- No object that is read as a record with a member more holds both options of its union. -/
def Shape.isUnambiguous : {α : Type} → Shape α → Tree → Bool
  | _, .any, _ => true
  | _, .text, _ => true
  | _, .object, _ => true
  | _, .map value, t =>
    match t with
    | .object members _ => members.all fun m => value.isUnambiguous m.2
    | _ => true
  | _, .list item, t =>
    match t with
    | .array items => items.all fun t => item.isUnambiguous t
    | _ => true
  | _, .choice _ _, _ => true
  | _, .either left leftValue right rightValue, t =>
    match t with
    | .object members _ => members.all fun m =>
      (m.1 ≠ some left || leftValue.isUnambiguous m.2) &&
        (m.1 ≠ some right || rightValue.isUnambiguous m.2)
    | _ => true
  | _, .record _ fields, t =>
    match t with
    | .object members _ => fields.areUnambiguous members
    | .array items => fields.areUnambiguous (named (fields.names.zip items))
    | _ => true
  | _, .recordWith _ fields _ left leftValue right rightValue, t =>
    match t with
    | .object members _ =>
      !(members.any (·.1 = some left) && members.any (·.1 = some right)) &&
        fields.areUnambiguous members && members.all fun m =>
          (m.1 ≠ some left || leftValue.isUnambiguous m.2) &&
            (m.1 ≠ some right || rightValue.isUnambiguous m.2)
    | _ => true
  | _, .refined base _ _, t => base.isUnambiguous t
termination_by structural _ s => s

/-- The same for the member of a field. -/
def Field.isUnambiguous : {α : Type} → Field α → Tree → Bool
  | _, .required _ shape, t => shape.isUnambiguous t
  | _, .defaulted _ shape _, t => shape.isUnambiguous t
  | _, .trimmed _ shape _ _, t => shape.isUnambiguous t
  | _, .optional _ shape, t => shape.isUnambiguous t
termination_by structural _ f => f

/-- The same for the members of a record. -/
def Fields.areUnambiguous : {αs : List Type} → Fields αs → List (Option String × Tree) → Bool
  | _, .nil, _ => true
  | _, .cons field rest, members =>
    (members.all fun m => m.1 ≠ some field.name || field.isUnambiguous m.2) &&
      rest.areUnambiguous members
termination_by structural _ fs => fs

end

/-- What holds for all members of a name holds for the one that is found. -/
theorem all_named {p : Tree → Bool} {k : String} {t : Tree} {ms : List (String × Tree)}
    (h : (named ms).all (fun m => m.1 ≠ some k || p m.2) = true) (ht : ms.lookup k = some t) :
    p t = true := by
  have hmem : (some k, t) ∈ named ms := List.mem_map_of_mem (mem_of_lookup ht)
  simpa using List.all_eq_true.1 h _ hmem

theorem lookup_eq_none_of_any {left right : String} {ms : List (String × Tree)}
    (h : (!((named ms).any (·.1 = some left) && (named ms).any (·.1 = some right))) = true) :
    ms.lookup left = none ∨ ms.lookup right = none := by
  have hany : ∀ k t, ms.lookup k = some t → (named ms).any (·.1 = some k) = true := by
    intro k t ht
    exact List.any_eq_true.2 ⟨(some k, t), List.mem_map_of_mem (mem_of_lookup ht), by simp⟩
  cases hl : ms.lookup left with
  | none => exact Or.inl rfl
  | some t =>
    cases hr : ms.lookup right with
    | none => exact Or.inr rfl
    | some u =>
      rw [hany left t hl, hany right u hr] at h
      cases h

/-! ## Leaves and options -/

section Leaves

variable {α β : Type} {source free : Source} {t : Tree} {v : Json}

/-- An option is read alike from a text and from its value, if the part beside its name is. -/
theorem readOption_tree {known : List (String × β)} {bare : β → Except Refusal α}
    {valued : β → Source → Tree → Except Refusal α} {a : α} (h : Tree.Reads source t v)
    (hfree : free.enter? = some free) (hdistinct : t.hasDistinctNames = true)
    (hvalued : ∀ inner name part w b, source.enter? = some inner →
      t = .object [(some name, part)] .closed → known.lookup name = some b →
        part.json? inner = some w → part.hasDistinctNames = true →
          (valued b inner part = .ok a ↔ valued b free w.tree = .ok a)) :
    readOption source known bare valued t = .ok a ↔
      readOption free known bare valued v.tree = .ok a := by
  cases h with
  | text s => exact readOption_text.trans readOption_text.symm
  | @object inner ms entries henter hentries _ =>
    obtain ⟨hnames, hvalues⟩ := Tree.hasDistinctNames_object.1 hdistinct
    match ms with
    | [] =>
      cases hentries
      exact iff_of_false (readOption_ne_ok rfl) (readOption_ne_ok rfl)
    | [(name, part)] =>
      rw [named, List.map_cons, Tree.jsonMembers?] at hentries
      split at hentries
      · cases hentries
      rename_i w hw
      cases hentries
      have hpart := hvalues (name, part) List.mem_cons_self
      refine (readOption_single henter).trans (Iff.trans ?_ (readOption_single hfree).symm)
      refine exists_congr fun b => and_congr_right fun hb => ?_
      exact hvalued inner name part w b henter rfl hb hw hpart
    | x :: y :: rest =>
      have hx := rel_members hnames hvalues hentries x.1
      have hy := rel_members hnames hvalues hentries y.1
      have hne : y.1 ≠ x.1 := fun e => (List.nodup_cons.1 hnames).1 (e ▸ List.mem_cons_self)
      rw [lookup_cons_if, if_pos rfl] at hx
      rw [lookup_cons_if, if_neg hne, lookup_cons_if, if_pos rfl] at hy
      obtain ⟨_, hx, _⟩ := hx
      obtain ⟨_, hy, _⟩ := hy
      rw [tree_object]
      refine iff_of_false (readOption_ne_ok rfl) (readOption_ne_ok ?_)
      generalize (entries.toList.map fun e => (e.1, Json.tree e.2)) = ns at hx hy
      match ns with
      | [] => cases hx
      | [(name, part)] =>
        rw [lookup_cons_if] at hx hy
        split at hx
        · rename_i hname
          rw [if_neg (hname ▸ hne)] at hy
          cases hy
        · cases hx
      | _ :: _ :: _ => rfl
  | array _ _ =>
    rw [tree_array]
    exact iff_of_false (readOption_ne_ok rfl) (readOption_ne_ok rfl)
  | _ => exact iff_of_false (readOption_ne_ok rfl) (readOption_ne_ok rfl)

/-- Items that are read alike make up lists that are read alike. -/
theorem readItems_tree {inner : Source} {f g : Tree → Except Refusal α} {ts : List Tree} :
    ∀ {vs : List Json} {as : List α}, Tree.jsonItems? inner ts = some vs →
      (∀ t ∈ ts, ∀ v, t.json? inner = some v → ∀ a, f t = .ok a ↔ g v.tree = .ok a) →
        (readItems f ts = .ok as ↔ readItems g (vs.map Json.tree) = .ok as) := by
  induction ts with
  | nil =>
    intro vs as h _
    cases h
    rw [List.map_nil, readItems_nil, readItems_nil]
  | cons t ts ih =>
    intro vs as h hitem
    rw [Tree.jsonItems?] at h
    split at h
    · cases h
    rename_i v hv
    obtain ⟨us, hus, rfl⟩ := Option.map_eq_some_iff.1 h
    rw [List.map_cons, readItems_cons, readItems_cons]
    refine exists_congr fun a => exists_congr fun rest => ?_
    rw [hitem t List.mem_cons_self v hv a,
      ih hus fun t ht => hitem t (List.mem_cons_of_mem _ ht)]

/-- At most one of two names is there, so it is the first of both in either order. -/
theorem firstNamed?_tree {left right : String} {ms ns : List (String × Tree)}
    {p : String × Tree → Prop} (hrel : ∀ k, Corresponds source (ms.lookup k) (ns.lookup k))
    (hone : ms.lookup left = none ∨ ms.lookup right = none)
    (hp : ∀ k t v, k = left ∨ k = right → ms.lookup k = some t → t.json? source = some v →
      t.hasDistinctNames = true → (p (k, t) ↔ p (k, v.tree))) :
    (∃ m, firstNamed? left right ms = some m ∧ p m) ↔
      ∃ m, firstNamed? left right ns = some m ∧ p m := by
  have hother : ∀ k, ms.lookup k = none → ns.lookup k = none := by
    intro k hk
    have h := hrel k
    rw [hk] at h
    exact h
  have hfound : ∀ k, k = left ∨ k = right →
      ((∃ m, (ms.lookup k).map (fun t => (k, t)) = some m ∧ p m) ↔
        ∃ m, (ns.lookup k).map (fun t => (k, t)) = some m ∧ p m) := by
    intro k hk
    have h := hrel k
    cases ht : ms.lookup k with
    | none => rw [hother k ht]
    | some t =>
      rw [ht] at h
      obtain ⟨v, hv, hread, hdistinct⟩ := h
      rw [hv]
      simp only [Option.map_some, Option.some.injEq, exists_eq_left']
      exact hp k t v hk ht hread hdistinct
  rcases hone with h | h
  · rw [firstNamed?_swap left right ms, firstNamed?_swap left right ns, firstNamed?_eq_lookup h,
      firstNamed?_eq_lookup (hother left h)]
    exact hfound right (Or.inr rfl)
  · rw [firstNamed?_eq_lookup h, firstNamed?_eq_lookup (hother right h)]
    exact hfound left (Or.inl rfl)

end Leaves

/-! ## The agreement -/

/-- The shape reads a tree without repeated names like the value that the tree is read as. -/
def Shape.Agrees {α : Type} (shape : Shape α) : Prop :=
  ∀ (source free : Source) (t : Tree) (v : Json) (a : α), free.enter? = some free →
    t.json? source = some v → t.hasDistinctNames = true → shape.isUnambiguous t = true →
      (shape.ofTree source t = .ok a ↔ shape.ofTree free v.tree = .ok a)

/-- The same for a field and the corresponding parts that are found for it. -/
def Field.Agrees {α : Type} (field : Field α) : Prop :=
  ∀ (source free : Source) (found found' : Option Tree) (a : α), free.enter? = some free →
    Corresponds source found found' → (∀ t, found = some t → field.isUnambiguous t = true) →
      (field.Gives source found a ↔ field.Gives free found' a)

/-- The same for the fields of a record, whose members correspond by name. -/
def Fields.Agree {αs : List Type} (fields : Fields αs) : Prop :=
  ∀ (source free : Source) (ms ns : List (String × Tree)) (row : Row αs),
    free.enter? = some free → (∀ k, Corresponds source (ms.lookup k) (ns.lookup k)) →
      fields.areUnambiguous (named ms) = true →
        (fields.Gives source (ms.lookup ·) row ↔ fields.Gives free (ns.lookup ·) row)

section Agreement

variable {α β : Type} {αs : List Type} {fields : Fields αs}

/-! ### Values, maps and lists -/

theorem Shape.any_agrees : Shape.any.Agrees := by
  intro source free t v a hfree h _ _
  rw [Shape.any_eq_ok, Shape.any_eq_ok, h, json?_valueTree hfree]

theorem Shape.text_agrees : Shape.text.Agrees := by
  intro source free t v a hfree h _ _
  rw [Shape.text_eq_ok, Shape.text_eq_ok, (Tree.reads_of_json? h).eq_text]

theorem Shape.object_agrees : Shape.object.Agrees := by
  intro source free t v a hfree h _ _
  rw [Shape.object_eq_ok, Shape.object_eq_ok, h, json?_valueTree hfree]

theorem Shape.map_agrees {value : Shape α} (hvalue : value.Agrees) : (Shape.map value).Agrees := by
  intro source free t v m hfree h hdistinct hclear
  cases Tree.reads_of_json? h with
  | @object inner ms entries henter hentries _ =>
    obtain ⟨hnames, hvalues⟩ := Tree.hasDistinctNames_object.1 hdistinct
    rw [tree_object, Shape.map_object hnames, Shape.map_object (nodup_treeNames entries), henter,
      hfree]
    simp only [Option.some.injEq, exists_eq_left']
    apply forall_congr'
    intro k
    have hrel := rel_members hnames hvalues hentries k
    cases hk : ms.lookup k with
    | none =>
      rw [hk] at hrel
      rw [show List.lookup k _ = none from hrel]
    | some part =>
      rw [hk] at hrel
      obtain ⟨w, hw, hread, hpart⟩ := hrel
      have hpartClear := List.all_eq_true.1 hclear (some k, part)
        (List.mem_map_of_mem (mem_of_lookup hk))
      rw [hw]
      exact exists_congr fun a =>
        and_congr_left' (hvalue inner free part w a hfree hread hpart hpartClear)
  | array _ _ => rw [tree_array]; exact ⟨nofun, nofun⟩
  | _ => exact ⟨nofun, nofun⟩

theorem Shape.list_agrees {item : Shape α} (hitem : item.Agrees) : (Shape.list item).Agrees := by
  intro source free t v as hfree h hdistinct hclear
  cases Tree.reads_of_json? h with
  | @array inner ts vs henter hvs =>
    rw [tree_array, Shape.list_array, Shape.list_array, henter, hfree]
    simp only [Option.some.injEq, exists_eq_left']
    apply readItems_tree hvs
    intro t ht v hv a
    exact hitem inner free t v a hfree hv (Tree.haveDistinctNames_iff.1 hdistinct t ht)
      (List.all_eq_true.1 hclear t ht)
  | object _ _ _ => rw [tree_object]; exact ⟨nofun, nofun⟩
  | _ => exact ⟨nofun, nofun⟩

/-! ### Options -/

theorem Shape.choice_agrees {options : List (String × α)} {label : α → String} :
    (Shape.choice options label).Agrees := by
  intro source free t v a hfree h hdistinct _
  refine readOption_tree (Tree.reads_of_json? h) hfree hdistinct ?_
  intro inner name part w b _ _ _ hread _
  cases Tree.reads_of_json? hread with
  | null => exact Iff.rfl
  | array _ _ => rw [tree_array]; exact ⟨nofun, nofun⟩
  | object _ _ _ => rw [tree_object]; exact ⟨nofun, nofun⟩
  | _ => exact ⟨nofun, nofun⟩

/-- What is asked of the member of an option says that its value is unambiguous. -/
theorem unambiguous_option {left right name : String} {leftValue : Shape α} {rightValue : Shape β}
    {part : Tree} (h : ((some name ≠ some left || leftValue.isUnambiguous part) &&
      (some name ≠ some right || rightValue.isUnambiguous part)) = true) :
    (name = left → leftValue.isUnambiguous part = true) ∧
      (name = right → rightValue.isUnambiguous part = true) := by
  simp only [Bool.and_eq_true, Bool.or_eq_true, decide_eq_true_iff, ne_eq,
    Option.some.injEq] at h
  exact ⟨fun hname => h.1.resolve_left (· hname), fun hname => h.2.resolve_left (· hname)⟩

theorem Shape.either_agrees {left right : String} {leftValue : Shape α} {rightValue : Shape β}
    (hleft : leftValue.Agrees) (hright : rightValue.Agrees) :
    (Shape.either left leftValue right rightValue).Agrees := by
  intro source free t v a hfree h hdistinct hclear
  refine readOption_tree (Tree.reads_of_json? h) hfree hdistinct ?_
  rintro inner name part w isLeft _ rfl hname hread hpart
  have hclear := unambiguous_option (List.all_eq_true.1 hclear (some name, part)
    List.mem_cons_self)
  rw [lookup_cons_if] at hname
  split at hname
  · rename_i heq
    cases hname
    show (leftValue.ofTree inner part).map Sum.inl = .ok a ↔
      (leftValue.ofTree free w.tree).map Sum.inl = .ok a
    rw [map_eq_ok, map_eq_ok]
    apply exists_congr
    intro b
    exact and_congr_left' (hleft inner free part w b hfree hread hpart (hclear.1 heq))
  · rw [lookup_cons_if] at hname
    split at hname
    · rename_i heq
      cases hname
      show (rightValue.ofTree inner part).map Sum.inr = .ok a ↔
        (rightValue.ofTree free w.tree).map Sum.inr = .ok a
      rw [map_eq_ok, map_eq_ok]
      apply exists_congr
      intro b
      exact and_congr_left' (hright inner free part w b hfree hread hpart (hclear.2 heq))
    · cases hname

/-! ### Fields -/

/-- A field that reads its tree as its shape does agrees if the shape does. -/
theorem Field.agrees_of_shape {field : Field α} {shape : Shape α} (hshape : shape.Agrees)
    (hread : ∀ source t, field.ofTree source t = shape.ofTree source t)
    (hclear : ∀ t, field.isUnambiguous t = shape.isUnambiguous t) : field.Agrees := by
  intro source free found found' a hfree hrel hfound
  cases found with
  | none =>
    obtain rfl : found' = none := hrel
    exact Iff.rfl
  | some t =>
    obtain ⟨v, rfl, hvalue, hdistinct⟩ := hrel
    show field.ofTree source t = .ok a ↔ field.ofTree free v.tree = .ok a
    rw [hread, hread]
    exact hshape source free t v a hfree hvalue hdistinct (hclear t ▸ hfound t rfl)

theorem Field.optional_agrees {name : String} {shape : Shape α} (hshape : shape.Agrees) :
    (Field.optional name shape).Agrees := by
  intro source free found found' a hfree hrel hfound
  cases found with
  | none =>
    obtain rfl : found' = none := hrel
    exact Iff.rfl
  | some t =>
    obtain ⟨v, rfl, hread, hdistinct⟩ := hrel
    have hnulls := (Tree.reads_of_json? hread).eq_null
    by_cases hnull : t = .null
    · rw [hnull, hnulls.1 hnull]
      exact Iff.rfl
    · have hv : v.tree ≠ .null := fun e => hnull (hnulls.2 e)
      show (Field.optional name shape).ofTree source t = .ok a ↔
        (Field.optional name shape).ofTree free v.tree = .ok a
      rw [Field.optional_ofTree hnull, Field.optional_ofTree hv, map_eq_ok, map_eq_ok]
      apply exists_congr
      intro b
      exact and_congr_left' (hshape source free t v b hfree hread hdistinct (hfound t rfl))

theorem Fields.cons_agree {field : Field α} {rest : Fields αs} (hfield : field.Agrees)
    (hrest : rest.Agree) : (Fields.cons field rest).Agree := by
  rintro source free ms ns ⟨a, row⟩ hfree hrel hclear
  obtain ⟨hhead, htail⟩ := Bool.and_eq_true_iff.1 hclear
  refine and_congr ?_ (hrest source free ms ns row hfree hrel htail)
  apply hfield source free _ _ a hfree (hrel field.name)
  intro t ht
  exact all_named hhead ht

/-! ### Records -/

theorem Shape.record_agrees {name : String} (hnames : fields.names.Nodup)
    (hfields : fields.Agree) : (Shape.record name fields).Agrees := by
  intro source free t v row hfree h hdistinct hclear
  cases Tree.reads_of_json? h with
  | @object inner ms entries henter hentries hread =>
    obtain ⟨hdistinctNames, hvalues⟩ := Tree.hasDistinctNames_object.1 hdistinct
    have hms : ∀ m ∈ ms, m.2.isGrammatical = true := by
      intro m hm
      obtain ⟨w, hw⟩ := hread m hm
      exact Tree.isGrammatical_of_json? m.2 hw
    have hns : ∀ n ∈ entries.toList.map fun e => (e.1, Json.tree e.2),
        n.2.isGrammatical = true := by
      intro n hn
      obtain ⟨e, _, rfl⟩ := List.mem_map.1 hn
      exact isGrammatical_valueTree e.2
    rw [tree_object, Shape.record_object name hnames hdistinctNames hms,
      Shape.record_object name hnames (nodup_treeNames entries) hns, henter, hfree]
    simp only [Option.some.injEq, exists_eq_left']
    exact hfields inner free ms _ row hfree (rel_members hdistinctNames hvalues hentries) hclear
  | @array inner ts vs henter hvs =>
    rw [tree_array, Shape.record_array name hnames, Shape.record_array name hnames, henter, hfree,
      List.length_map, length_jsonItems? hvs]
    simp only [Option.some.injEq, exists_eq_left']
    apply and_congr_right
    intro _
    refine hfields inner free _ _ row hfree ?_ hclear
    intro k
    exact rel_items k (Tree.haveDistinctNames_iff.1 hdistinct) hvs
  | _ => exact ⟨nofun, nofun⟩

theorem Shape.recordWith_agrees {name union left right : String} {leftValue : Shape α}
    {rightValue : Shape β} (hnames : (left :: right :: fields.names).Nodup)
    (hfields : fields.Agree) (hleft : leftValue.Agrees) (hright : rightValue.Agrees) :
    (Shape.recordWith name fields union left leftValue right rightValue).Agrees := by
  rintro source free t v ⟨row, choice⟩ hfree h hdistinct hclear
  cases Tree.reads_of_json? h with
  | @object inner ms entries henter hentries hread =>
    obtain ⟨hdistinctNames, hvalues⟩ := Tree.hasDistinctNames_object.1 hdistinct
    have hns : ∀ n ∈ entries.toList.map fun e => (e.1, Json.tree e.2),
        ∃ w, n.2.json? free = some w := by
      intro n hn
      obtain ⟨e, _, rfl⟩ := List.mem_map.1 hn
      exact ⟨e.2, json?_valueTree hfree e.2⟩
    have hrel := rel_members hdistinctNames hvalues hentries
    rw [Shape.isUnambiguous, Bool.and_eq_true, Bool.and_eq_true] at hclear
    obtain ⟨⟨hone, hmembers⟩, hoptions⟩ := hclear
    rw [tree_object, Shape.recordWith_object hnames hdistinctNames henter hread,
      Shape.recordWith_object hnames (nodup_treeNames entries) hfree hns]
    refine and_congr (hfields inner free ms _ row hfree hrel hmembers) ?_
    refine firstNamed?_tree hrel (lookup_eq_none_of_any hone) ?_
    intro k part w hk hfound hpartRead hpart
    -- What was set aside is read as an ordinary value first, so its depth was checked there.
    have haside := part.json?_unbounded .setAside rfl hpartRead
    have hclear := unambiguous_option (List.all_eq_true.1 hoptions (some k, part)
      (List.mem_map_of_mem (mem_of_lookup hfound)))
    unfold unionOfTree
    by_cases hl : k = left
    · rw [if_pos hl, if_pos hl, map_eq_ok, map_eq_ok]
      apply exists_congr
      intro a
      exact and_congr_left' (hleft .setAside .setAside part w a rfl haside hpart (hclear.1 hl))
    · rw [if_neg hl, if_neg hl, map_eq_ok, map_eq_ok]
      apply exists_congr
      intro b
      exact and_congr_left' (hright .setAside .setAside part w b rfl haside hpart
        (hclear.2 (hk.resolve_left hl)))
  | array _ _ => rw [tree_array]; exact ⟨nofun, nofun⟩
  | _ => exact ⟨nofun, nofun⟩

/-! ### Refinements -/

theorem Shape.refined_agrees {base : Shape α} {decode : α → Except Misfit β} {encode : β → α}
    (hbase : base.Agrees) : (Shape.refined base decode encode).Agrees := by
  intro source free t v b hfree h hdistinct hclear
  rw [Shape.refined_eq_ok, Shape.refined_eq_ok]
  apply exists_congr
  intro a
  exact and_congr_left' (hbase source free t v a hfree h hdistinct hclear)

/-! ### Every shape -/

mutual

/-- **A tree without repeated names and the value that it is read as are read alike**: either both
are read as the same value of the shape, or none is. -/
theorem Shape.agrees : ∀ {α : Type} (shape : Shape α), shape.Lawful → shape.Agrees
  | _, .any, _ => Shape.any_agrees
  | _, .text, _ => Shape.text_agrees
  | _, .object, _ => Shape.object_agrees
  | _, .map value, h => Shape.map_agrees (value.agrees h)
  | _, .list item, h => Shape.list_agrees (item.agrees h)
  | _, .choice _ _, _ => Shape.choice_agrees
  | _, .either _ leftValue _ rightValue, h =>
    Shape.either_agrees (leftValue.agrees h.2.1) (rightValue.agrees h.2.2)
  | _, .record _ fields, h => Shape.record_agrees h.1 (fields.agree h.2)
  | _, .recordWith _ fields _ _ leftValue _ rightValue, h =>
    Shape.recordWith_agrees h.1 (fields.agree h.2.1) (leftValue.agrees h.2.2.1)
      (rightValue.agrees h.2.2.2)
  | _, .refined base _ _, h => Shape.refined_agrees (base.agrees h.1)
termination_by structural _ shape => shape

theorem Field.agrees : ∀ {α : Type} (field : Field α), field.Lawful → field.Agrees
  | _, .required _ shape, h =>
    Field.agrees_of_shape (shape.agrees h) (fun _ _ => rfl) fun _ => rfl
  | _, .defaulted _ shape _, h =>
    Field.agrees_of_shape (shape.agrees h) (fun _ _ => rfl) fun _ => rfl
  | _, .trimmed _ shape _ _, h =>
    Field.agrees_of_shape (shape.agrees h) (fun _ _ => rfl) fun _ => rfl
  | _, .optional _ shape, h => Field.optional_agrees (shape.agrees h.1)
termination_by structural _ field => field

theorem Fields.agree : ∀ {αs : List Type} (fields : Fields αs), fields.Lawful → fields.Agree
  | _, .nil, _ => fun _ _ _ _ _ _ _ _ => Iff.rfl
  | _, .cons field rest, h => Fields.cons_agree (field.agrees h.1) (rest.agree h.2)
termination_by structural _ fields => fields

end

end Agreement

/-- **A text and the value that it is read as give the same value of a shape, or none.** -/
theorem Shape.ofText_iff_ofValue {α : Type} {shape : Shape α} (hlawful : shape.Lawful) {s : String}
    {v : Json} (h : parse? s = some v) (hdistinct : (Outline.ofText s).root.hasDistinctNames = true)
    (hclear : shape.isUnambiguous (Outline.ofText s).root = true) (a : α) :
    shape.ofText s = .ok a ↔ shape.ofValue v = .ok a := by
  obtain ⟨hread, hwhole⟩ := parse?_eq_some.1 h
  rw [Shape.ofText_eq_ok, Shape.ofValue,
    ← shape.agrees hlawful .document .value _ v a rfl hread hdistinct hclear]
  exact and_iff_left hwhole

end CompositionFunction.Schema
