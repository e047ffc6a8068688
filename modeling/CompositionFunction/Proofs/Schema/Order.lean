import CompositionFunction.Proofs.Schema.Repeated

/-!
# Members in another order

What a record reads from an object does not depend on the order of the members, repeated names or
not. The member more of a record is the exception: the first of them counts, so the order does not
matter exactly if all of them stand for the same option.

* `Shape.record_perm` : an object is read as the same record in whatever order.
* `Shape.recordWith_perm_iff` : when that is so of a record with a member more.
* `Shape.recordWith_ofValue` : then the value of the object is read alike.
-/

set_option autoImplicit false

namespace CompositionFunction.Schema

open Json

/-! ## Records -/

section Record

variable {source : Source} {αs : List Type} {fields : Fields αs} {ms ns : List (String × Tree)}

/-- **An object is read as the same record in whatever order its members stand.** -/
theorem Shape.record_perm (name : String) (hnames : fields.names.Nodup) {row : Row αs}
    (h : ms.Perm ns)
    (hread : (Shape.record name fields).ofTree source (.object (named ms) .closed) = .ok row) :
    (Shape.record name fields).ofTree source (.object (named ns) .closed) = .ok row := by
  obtain ⟨inner, henter, hgiven, hothers⟩ := (Shape.record_members name hnames ms row).1 hread
  exact (Shape.record_members name hnames ns row).2 ⟨inner, henter, Fields.givenBy_perm h hgiven,
    fun m hm => hothers m (Fields.mem_others_perm h hm)⟩

end Record

/-! ## Records with a member more -/

/-- In another order there is a first item too, one of the same. -/
theorem exists_head?_of_perm {α : Type} {xs ys : List α} (h : xs.Perm ys) {x : α}
    (hx : xs.head? = some x) : ∃ y, ys.head? = some y ∧ y ∈ xs := by
  cases ys with
  | nil =>
    rw [h.eq_nil] at hx
    cases hx
  | cons y ys => exact ⟨y, rfl, h.mem_iff.2 List.mem_cons_self⟩

/-! ### Members of a value -/

section Value

variable {inner : Source} {ms : List (String × Tree)} {entries : JsonObject}

/-- Each member of a value is read from a member of that name. -/
theorem mem_of_valueTree (h : Tree.jsonMembers? inner .empty (named ms) = some entries)
    {n : String × Tree} (hn : n ∈ entries.toList.map fun e => (e.1, Json.tree e.2)) :
    ∃ t v, (n.1, t) ∈ ms ∧ t.json? inner = some v ∧ n.2 = v.tree := by
  obtain ⟨⟨k, v⟩, hv, rfl⟩ := List.mem_map.1 hn
  have hfind := Entries.mem_toList.1 hv
  obtain ⟨t, w, ht, hw, hread⟩ | ⟨_, hnone⟩ := Tree.mem_of_jsonMembers? k h
  · obtain rfl : w = v := Option.some.inj (hw.symm.trans hfind)
    exact ⟨t, w, ht, hread, rfl⟩
  · rw [hfind] at hnone
    cases hnone

/-- Each name is in the value. -/
theorem exists_valueTree (h : Tree.jsonMembers? inner .empty (named ms) = some entries)
    {m : String × Tree} (hm : m ∈ ms) :
    ∃ v, (m.1, Json.tree v) ∈ entries.toList.map fun e => (e.1, Json.tree e.2) := by
  obtain ⟨_, v, _, hv, _⟩ | ⟨habsent, _⟩ := Tree.mem_of_jsonMembers? m.1 h
  · exact ⟨v, List.mem_map.2 ⟨(m.1, v), Entries.mem_toList.2 hv, rfl⟩⟩
  · exact absurd (List.mem_map_of_mem hm) habsent

end Value

/-! ### Reading -/

section RecordWith

variable {source inner : Source} {α β : Type} {αs : List Type} {fields : Fields αs}
  {name union left right : String} {leftValue : Shape α} {rightValue : Shape β}
  {ms : List (String × Tree)} {row : Row αs} {choice : α ⊕ β}

/-- **The order of the members does not matter exactly if all options among them stand for the
same.** -/
theorem Shape.recordWith_perm_iff (hnames : (left :: right :: fields.names).Nodup)
    (h : (Shape.recordWith name fields union left leftValue right rightValue).ofTree source
      (.object (named ms) .closed) = .ok (row, choice)) :
    (∀ ns, ms.Perm ns →
      (Shape.recordWith name fields union left leftValue right rightValue).ofTree source
        (.object (named ns) .closed) = .ok (row, choice)) ↔
      ∀ m ∈ optionsAmong left right ms, unionOfTree left leftValue rightValue m = .ok choice := by
  constructor
  · -- each option stands first in some order
    intro hall m hm
    obtain ⟨hmem, hname⟩ := List.mem_filter.1 hm
    obtain ⟨before, after, rfl⟩ := List.append_of_mem hmem
    have hoptions : optionsAmong left right (m :: (before ++ after)) =
        m :: optionsAmong left right (before ++ after) := List.filter_cons_of_pos hname
    obtain ⟨_, _, _, _, m', hfirst, hunion⟩ :=
      (Shape.recordWith_members hnames).1 (hall _ List.perm_middle)
    rw [hoptions] at hfirst
    obtain rfl := Option.some.inj hfirst
    exact hunion
  · intro hall ns hperm
    obtain ⟨inner, henter, hgiven, hothers, m, hfirst, _⟩ := (Shape.recordWith_members hnames).1 h
    obtain ⟨n, hn, hmem⟩ := exists_head?_of_perm (hperm.filter _) hfirst
    exact (Shape.recordWith_members hnames).2 ⟨inner, henter, Fields.givenBy_perm hperm hgiven,
      fun m hm => hothers m (Fields.mem_others_perm hperm hm), n, hn, hall n hmem⟩

/-- An option is read from the value of its tree. -/
theorem unionOfTree_ofValue (hleft : leftValue.Follows) (hright : rightValue.Follows) {k : String}
    {t : Tree} {w : Json} (hw : t.json? inner = some w)
    (h : unionOfTree left leftValue rightValue (k, t) = .ok choice) :
    unionOfTree left leftValue rightValue (k, w.tree) = .ok choice := by
  have haside : t.json? .setAside = some w := t.json?_unbounded .setAside rfl hw
  unfold unionOfTree at h ⊢
  split at h
  · obtain ⟨a, ha, rfl⟩ := map_eq_ok.1 h
    rename_i hk
    rw [if_pos hk]
    exact map_eq_ok.2 ⟨a, hleft .setAside .setAside t w a rfl haside ha, rfl⟩
  · obtain ⟨b, hb, rfl⟩ := map_eq_ok.1 h
    rename_i hk
    rw [if_neg hk]
    exact map_eq_ok.2 ⟨b, hright .setAside .setAside t w b rfl haside hb, rfl⟩

/-- **Where all options among the members stand for the same, the value of the object is read as
the object is.** -/
theorem Shape.recordWith_ofValue (hnames : (left :: right :: fields.names).Nodup)
    (hfields : fields.Follow) (hleft : leftValue.Follows) (hright : rightValue.Follows)
    {free : Source} (hfree : free.enter? = some free) {v : Json}
    (hvalue : (Tree.object (named ms) .closed).json? source = some v)
    (h : (Shape.recordWith name fields union left leftValue right rightValue).ofTree source
      (.object (named ms) .closed) = .ok (row, choice))
    (hall : ∀ m ∈ optionsAmong left right ms,
      unionOfTree left leftValue rightValue m = .ok choice) :
    (Shape.recordWith name fields union left leftValue right rightValue).ofTree free v.tree =
      .ok (row, choice) := by
  obtain ⟨inner, henter, hgiven, _, m, hfirst, _⟩ := (Shape.recordWith_members hnames).1 h
  obtain ⟨inner', ms', entries, henter', hms, _, hentries, _, rfl⟩ := Tree.json?_object hvalue
  obtain rfl := named_injective hms
  obtain rfl : inner = inner' := Option.some.inj (henter.symm.trans henter')
  have hgives := hfields.gives hfree hentries hgiven
  have hread : ∀ n ∈ entries.toList.map fun e => (e.1, Json.tree e.2),
      ∃ v, n.2.json? free = some v := by
    intro n hn
    obtain ⟨e, _, rfl⟩ := List.mem_map.1 hn
    exact ⟨e.2, json?_valueTree hfree e.2⟩
  rw [tree_object, Shape.recordWith_object hnames (nodup_treeNames entries) hfree hread,
    firstNamed?_eq_head?]
  refine ⟨(fields.gives_congr row fun k _ => lookup_tree entries k).2 hgives, ?_⟩
  -- some option is among the members, so one is in the value, and each of these is a member's
  obtain ⟨hmem, hname⟩ := List.mem_filter.1 (List.mem_of_head? hfirst)
  obtain ⟨w, hw⟩ := exists_valueTree hentries hmem
  have hoption : (m.1, w.tree) ∈ optionsAmong left right
      (entries.toList.map fun e => (e.1, Json.tree e.2)) := List.mem_filter.2 ⟨hw, hname⟩
  obtain ⟨n, rest, hoptions⟩ := List.exists_cons_of_ne_nil (List.ne_nil_of_mem hoption)
  rw [hoptions]
  refine ⟨n, rfl, ?_⟩
  obtain ⟨hn, hnname⟩ := List.mem_filter.1 (hoptions ▸ List.mem_cons_self : n ∈ optionsAmong ..)
  obtain ⟨t, u, ht, hu, htree⟩ := mem_of_valueTree hentries hn
  have hunion := hall (n.1, t) (List.mem_filter.2 ⟨ht, hnname⟩)
  have hread' := unionOfTree_ofValue hleft hright hu hunion
  rw [← htree] at hread'
  exact hread'

end RecordWith

end CompositionFunction.Schema
