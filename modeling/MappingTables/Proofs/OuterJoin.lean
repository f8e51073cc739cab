import MappingTables.Proofs.Join
import MappingTables.Proofs.Switch

/-!
# Merging as an outer join

A merged table holds what one table or the other holds under each key in the shared namespace, and
each of its entries has the names that its two sides have.

* `OuterJoin`: a map with an entry for each key of one map or the other, in ascending order.
* `ClassMerged`, `FieldMerged`, `MethodMerged`, `ParameterMerged`: what is in these entries.
* `Table.merge_outerJoin`: a merged table is an outer join of the two tables.
-/

namespace MappingTables

/-- The namespaces of two tables that are rooted at a shared one, and those of the merged table. -/
structure MergedNamespaces where
  left : Namespaces
  right : Namespaces
  merged : Namespaces
  /-- The label of the shared namespace. -/
  shared : String

/-- Whether a map holds exactly one entry for each key of one map or the other, or both, in
ascending order of these keys. `rel` says what the entry is, by the key and what the two maps hold
under it. -/
def OuterJoin {κ α : Type} [DecidableEq κ] (le : κ → κ → Bool)
    (rel : κ → Option α → Option α → κ × α → Prop) (left right : Option (OrderedMap κ α))
    (merged : OrderedMap κ α) : Prop :=
  ∃ keys : List κ, keys.Nodup ∧ keys.Pairwise (le · ·) ∧
    (∀ k, k ∈ keys ↔ (∃ m ∈ left, k ∈ m.keys) ∨ ∃ m ∈ right, k ∈ m.keys) ∧
    List.Forall₂ (fun k e => rel k (entryOf left k) (entryOf right k) e) keys merged.entries

/-- Entries in the order of the `unionKeys` make an `OuterJoin`. -/
theorem OuterJoin.of_forall₂ {κ α : Type} [DecidableEq κ] {le : κ → κ → Bool}
    {rel : κ → Option α → Option α → κ × α → Prop} {left right : Option (OrderedMap κ α)}
    {merged : OrderedMap κ α} (hle : IsKeyOrder le)
    (h : List.Forall₂ (fun k e => rel k (entryOf left k) (entryOf right k) e)
      (unionKeys le left right) merged.entries) : OuterJoin le rel left right merged :=
  ⟨unionKeys le left right, nodup_unionKeys, pairwise_unionKeys hle, fun _ => mem_unionKeys, h⟩

namespace MergedNamespaces

variable (ns : MergedNamespaces)

/-- What an entry is called: in each namespace of one side what that side calls it, and nothing if
it is not on that side. In the shared namespace it is the name on the `left`, or else that on the
`right`. -/
structure NamesMerged (left right : Option Names) (names : Names) : Prop where
  size : names.size = ns.merged.size
  of_left : ∀ label ∈ ns.left.labels, label ≠ ns.shared →
    ns.merged.nameIn label names = left.bind (ns.left.nameIn label)
  of_right : ∀ label ∈ ns.right.labels, label ≠ ns.shared →
    ns.merged.nameIn label names = right.bind (ns.right.nameIn label)
  of_shared : ns.merged.nameIn ns.shared names =
    (left.bind (ns.left.nameIn ns.shared)).or (right.bind (ns.right.nameIn ns.shared))

/-- What an entry that is matched by its name is called. The name in the shared namespace is that on
the `left`, if it is there. -/
structure MatchedNamesMerged (left right : Option Names) (names : Names) : Prop
    extends ns.NamesMerged left right names where
  of_shared_left : ∀ l ∈ left, ns.merged.nameIn ns.shared names = ns.left.nameIn ns.shared l

/-- The parameter with an `index`, of one method or both. -/
structure ParameterMerged (index : UInt64) (left right : Option Parameter)
    (e : UInt64 × Parameter) :
    Prop where
  key : e.1 = index
  index : e.2.index = index
  names : ns.NamesMerged (left.map (·.names)) (right.map (·.names)) e.2.names
  comment : e.2.comment = (left.bind (·.comment)).or (right.bind (·.comment))

variable (r : Renaming)

/-- The field with a `key`, of one class or both. Its descriptor is that in the key, renamed. -/
structure FieldMerged (key : MemberKey) (left right : Option Field) (e : MemberKey × Field) :
    Prop where
  descriptor : r.descriptor key.descriptor = .ok e.2.descriptor
  key : e.1 = { name := newKey e.2.names key.name, descriptor := e.2.descriptor }
  names : ns.MatchedNamesMerged (left.map (·.names)) (right.map (·.names)) e.2.names
  comment : e.2.comment = (left.bind (·.comment)).or (right.bind (·.comment))

/-- The method with a `key`, of one class or both. Its descriptor is that in the key, renamed. -/
structure MethodMerged (key : MemberKey) (left right : Option Method) (e : MemberKey × Method) :
    Prop where
  descriptor : r.descriptor key.descriptor = .ok e.2.descriptor
  key : e.1 = { name := newKey e.2.names key.name, descriptor := e.2.descriptor }
  names : ns.MatchedNamesMerged (left.map (·.names)) (right.map (·.names)) e.2.names
  comment : e.2.comment = (left.bind (·.comment)).or (right.bind (·.comment))
  parameters : OuterJoin indexLe ns.ParameterMerged (left.map (·.parameters))
    (right.map (·.parameters)) e.2.parameters

/-- The class with a `key`, of one table or both. It is what its key is renamed to. -/
structure ClassMerged (key : String) (left right : Option ClassEntry) (e : String × ClassEntry) :
    Prop where
  renamed : r.className key = e.1
  key : e.1 = newKey e.2.names key
  names : ns.MatchedNamesMerged (left.map (·.names)) (right.map (·.names)) e.2.names
  comment : e.2.comment = (left.bind (·.comment)).or (right.bind (·.comment))
  fields : OuterJoin MemberKey.le (ns.FieldMerged r) (left.map (·.fields))
    (right.map (·.fields)) e.2.fields
  methods : OuterJoin MemberKey.le (ns.MethodMerged r) (left.map (·.methods))
    (right.map (·.methods)) e.2.methods

end MergedNamespaces

/-! ## Slots side by side -/

/-- Whether names, if there are any, have a slot for each of `size` namespaces. -/
def Sized (size : Nat) (names : Option Names) : Prop :=
  ∀ n ∈ names, n.size = size

/-- The names of an entry are `Sized` if the entry has a slot for each namespace. -/
theorem sized_map {α : Type} {names : α → Names} {size : Nat} {a : Option α}
    (h : ∀ l ∈ a, (names l).size = size) : Sized size (a.map names) := by
  intro n hn
  obtain ⟨l, hl, rfl⟩ := Option.map_eq_some_iff.1 hn
  exact h l hl

/-- The slots `besideShared` are one less than all. -/
theorem length_besideShared {names : Option Names} {size : Nat} (h : Sized size names) :
    (besideShared names (size - 1)).length = size - 1 := by
  cases names with
  | none => exact List.length_replicate
  | some n =>
    rw [besideShared, List.length_tail]
    exact congrArg (· - 1) (h n rfl)

/-- What is in a slot `besideShared`. -/
theorem join_getElem?_besideShared (names : Option Names) (size i : Nat) :
    (besideShared names size)[i]?.join = names.bind (·.get (i + 1)) := by
  cases names with
  | none =>
    rw [besideShared, List.getElem?_replicate]
    split <;> rfl
  | some n =>
    rw [besideShared, List.getElem?_tail]
    rfl

section Slots

variable {layout : Layout} {left right : Option Names} {names : Names} {i size : Nat}

/-- Of names that are `NamesJoined` the slot of the shared namespace comes first. -/
theorem Layout.NamesJoined.get_zero (h : layout.NamesJoined left right names) :
    names.get 0 = (left.bind Names.source).or (right.bind Names.source) := by
  rw [Names.get, h.slots]
  rfl

/-- Of names that are `NamesJoined` the slots of the left table follow. -/
theorem Layout.NamesJoined.get_left (h : layout.NamesJoined left right names)
    (hsize : layout.leftSlots = size - 1) (hleft : Sized size left) (hi : i + 1 < size) :
    names.get (i + 1) = left.bind (·.get (i + 1)) := by
  have hlt : i < (besideShared left layout.leftSlots).length := by
    rw [hsize, length_besideShared hleft]
    omega
  rw [Names.get, h.slots, Layout.slots, List.cons_append, List.getElem?_cons_succ,
    List.getElem?_append_left hlt, join_getElem?_besideShared]

/-- Of names that are `NamesJoined` the slots of the right table come last. -/
theorem Layout.NamesJoined.get_right (h : layout.NamesJoined left right names)
    (hsize : layout.leftSlots = size - 1) (hleft : Sized size left) (hpos : 0 < size) :
    names.get (size + i) = right.bind (·.get (i + 1)) := by
  have hlength : (besideShared left layout.leftSlots).length = size - 1 := by
    rw [hsize, length_besideShared hleft]
  have hindex : size + i = size - 1 + i + 1 := by omega
  rw [Names.get, h.slots, Layout.slots, List.cons_append, hindex, List.getElem?_cons_succ,
    List.getElem?_append_right (by omega), hlength, Nat.add_sub_cancel_left,
    join_getElem?_besideShared]

end Slots

/-- How two tables that are rooted at a shared namespace come together: their slots are put side by
side by a `layout`, and then picked in the order of the merged namespaces. -/
structure MergedNamespaces.IsLayout (ns : MergedNamespaces) (layout : Layout) (joined : Namespaces)
    (positions : List Nat) : Prop where
  left_head : ns.left.labels[0]? = some ns.shared
  right_head : ns.right.labels[0]? = some ns.shared
  left_slots : layout.leftSlots = ns.left.size - 1
  joined_labels : joined.labels = ns.left.labels ++ ns.right.labels.tail
  positions_eq : joined.positions ns.merged.labels = .ok positions
  mem_of_left : ∀ label ∈ ns.left.labels, label ∈ ns.merged.labels
  mem_of_right : ∀ label ∈ ns.right.labels, label ∈ ns.merged.labels

namespace MergedNamespaces.IsLayout

variable {ns : MergedNamespaces} {layout : Layout} {joined : Namespaces}
  {positions : List Nat} {left right : Option Names} {names : Names}

/-- Names that are `NamesJoined`, and of which `pick` takes some, are `NamesMerged`. -/
theorem namesMerged (h : ns.IsLayout layout joined positions)
    (hnames : layout.NamesJoined left right names) (hleft : Sized ns.left.size left) :
    ns.NamesMerged left right (names.pick positions) := by
  have hpick : ∀ label ∈ ns.merged.labels,
      ns.merged.nameIn label (names.pick positions) = joined.nameIn label names :=
    fun label hlabel => Namespaces.nameIn_pick h.positions_eq rfl hlabel names
  have hpos : 0 < ns.left.size := (List.getElem?_eq_some_iff.1 h.left_head).1
  have hshared : joined.labels[0]? = some ns.shared := by
    rw [h.joined_labels, List.getElem?_append_left hpos, h.left_head]
  -- by the number of names, those in namespaces on the left, those on the right, and the shared one
  refine ⟨?_, fun label hlabel hne => ?_, fun label hlabel hne => ?_, ?_⟩
  · rw [Names.size_pick, Namespaces.size]
    exact (Namespaces.positions_eq_ok_iff.1 h.positions_eq).length_eq.symm
  · obtain ⟨i, hi⟩ := List.mem_iff_getElem?.1 hlabel
    have hlt : i < ns.left.size := (List.getElem?_eq_some_iff.1 hi).1
    have hjoined : joined.labels[i]? = some label := by
      rw [h.joined_labels, List.getElem?_append_left hlt, hi]
    rw [hpick label (h.mem_of_left label hlabel), Namespaces.nameIn_eq_get hjoined]
    cases i with
    | zero => exact absurd (Option.some.inj (hi.symm.trans h.left_head)) hne
    | succ i =>
      rw [hnames.get_left h.left_slots hleft hlt]
      exact congrArg _ (funext fun n => (Namespaces.nameIn_eq_get hi n).symm)
  · obtain ⟨i, hi⟩ := List.mem_iff_getElem?.1 hlabel
    cases i with
    | zero => exact absurd (Option.some.inj (hi.symm.trans h.right_head)) hne
    | succ i =>
      have hjoined : joined.labels[ns.left.size + i]? = some label := by
        rw [h.joined_labels, Namespaces.size, List.getElem?_append_right (Nat.le_add_right _ _),
          Nat.add_sub_cancel_left, List.getElem?_tail, hi]
      rw [hpick label (h.mem_of_right label hlabel), Namespaces.nameIn_eq_get hjoined,
        hnames.get_right h.left_slots hleft hpos]
      exact congrArg _ (funext fun n => (Namespaces.nameIn_eq_get hi n).symm)
  · rw [hpick ns.shared (h.mem_of_left _ (List.mem_of_getElem? h.left_head)),
      Namespaces.nameIn_eq_get hshared, hnames.get_zero]
    have hl : ns.left.nameIn ns.shared = Names.source :=
      funext fun n => Namespaces.nameIn_eq_get h.left_head n
    have hr : ns.right.nameIn ns.shared = Names.source :=
      funext fun n => Namespaces.nameIn_eq_get h.right_head n
    rw [hl, hr]

/-- Names of entries that are `Joinable` are `MatchedNamesMerged` when they are put side by side and
`pick` takes some. -/
theorem matchedNamesMerged (h : ns.IsLayout layout joined positions)
    (hnames : layout.NamesJoined left right names) (hleft : Sized ns.left.size left)
    (hjoinable : Joinable left right) :
    ns.MatchedNamesMerged left right (names.pick positions) := by
  have hmerged := h.namesMerged hnames hleft
  refine ⟨hmerged, fun l hl => ?_⟩
  rw [hmerged.of_shared, Option.mem_def.1 hl, Option.bind_some]
  cases right with
  | none => exact Option.or_none
  | some r =>
    have hsource := (hjoinable l hl r rfl).1
    rw [Namespaces.nameIn_eq_get h.left_head]
    exact Option.or_of_isSome hsource

/-! ### Entries -/

section Entries

variable {r : Renaming} (h : ns.IsLayout layout joined positions)

include h

/-- A parameter that is `ParameterJoined` and then reordered is `ParameterMerged`. -/
theorem parameterMerged {index : UInt64} {left right : Option Parameter} {p : Parameter}
    (hp : layout.ParameterJoined index left right p)
    (hleft : ∀ l ∈ left, l.Obeys (alignedRules ns.left.size) index) :
    ns.ParameterMerged index left right (p.index, p.pick positions) := by
  have hsized : Sized ns.left.size (left.map (·.names)) := sized_map fun l hl => (hleft l hl).names
  exact ⟨hp.index, hp.index, h.namesMerged hp.names hsized, hp.comment⟩

/-- A field that is `FieldJoined` and then reordered is `FieldMerged`. -/
theorem fieldMerged {key : MemberKey} {left right : Option Field} {f : Field}
    {e : MemberKey × Field} (hf : layout.FieldJoined key left right f)
    (hreordered : f.Reordered r positions e.2)
    (hkey : e.1 = { name := newKey e.2.names key.name, descriptor := e.2.descriptor })
    (hleft : ∀ l ∈ left, l.Obeys (alignedRules ns.left.size) key) :
    ns.FieldMerged r key left right e := by
  have hsized : Sized ns.left.size (left.map (·.names)) :=
    sized_map fun l hl => (hleft l hl).names.1
  refine ⟨hf.descriptor ▸ hreordered.descriptor, hkey, ?_, hreordered.comment.trans hf.comment⟩
  rw [hreordered.names]
  exact h.matchedNamesMerged hf.names hsized hf.joinable

/-- A method that is `MethodJoined` and then reordered is `MethodMerged`. -/
theorem methodMerged {key : MemberKey} {left right : Option Method} {m : Method}
    {e : MemberKey × Method} (hm : layout.MethodJoined key left right m)
    (hreordered : m.Reordered r positions e.2)
    (hkey : e.1 = { name := newKey e.2.names key.name, descriptor := e.2.descriptor })
    (hleft : ∀ l ∈ left, l.Obeys (alignedRules ns.left.size) key) :
    ns.MethodMerged r key left right e := by
  have hsized : Sized ns.left.size (left.map (·.names)) :=
    sized_map fun l hl => (hleft l hl).names.1
  refine ⟨hm.descriptor ▸ hreordered.descriptor, hkey, ?_, hreordered.comment.trans hm.comment,
    ?_⟩
  · rw [hreordered.names]
    exact h.matchedNamesMerged hm.names hsized hm.joinable
  · refine .of_forall₂ isKeyOrder_indexLe ?_
    refine forall₂_comp hm.parameters hreordered.parameters fun index e e' hp he' => ?_
    rw [he']
    exact h.parameterMerged hp.2 (obeys_of_mem_parameters hleft)

/-- A class that is `ClassJoined` and then reordered is `ClassMerged`. -/
theorem classMerged {key : String} {left right : Option ClassEntry} {c : ClassEntry}
    {e : String × ClassEntry} (hc : layout.ClassJoined left right c)
    (hreordered : c.Reordered r positions e.2) (hkey : e.1 = newKey e.2.names key)
    (hrenamed : r.className key = e.1)
    (hleft : ∀ l ∈ left, l.Obeys (alignedRules ns.left.size) key) :
    ns.ClassMerged r key left right e := by
  have hsized : Sized ns.left.size (left.map (·.names)) :=
    sized_map fun l hl => (hleft l hl).names.1
  refine ⟨hrenamed, hkey, ?_, hreordered.comment.trans hc.comment, ?_, ?_⟩
  · rw [hreordered.names]
    exact h.matchedNamesMerged hc.names hsized hc.joinable
  · refine .of_forall₂ isKeyOrder_memberKey ?_
    refine forall₂_comp hc.fields hreordered.fields fun k e e' hf he' => ?_
    exact h.fieldMerged hf.2 he'.1 (hf.1 ▸ he'.2) (obeys_of_mem_fields hleft)
  · refine .of_forall₂ isKeyOrder_memberKey ?_
    refine forall₂_comp hc.methods hreordered.methods fun k e e' hm he' => ?_
    exact h.methodMerged hm.2 he'.1 (hm.1 ▸ he'.2) (obeys_of_mem_methods hleft)

end Entries

end MergedNamespaces.IsLayout

/-! ## The merged table -/

namespace Table

/-- What `merge` gives is the outer join of `a` and `b` on the one label that they share. With
`left` and `right` for the two tables rooted there, there is a class for each key of one or the
other, in ascending order of these keys. As `OuterJoin` and `ClassMerged` say, in each namespace of
one table it has the name that it has in that table, or none if it is not there; its comment is that
of `left`, or else that of `right`; and the same holds for its members and their parameters. The
renaming `r` is what descriptors are put through, so that classes are called in them what they are
in the merged table. Of the header properties those of `a` come first, and of those of `b` the ones
that `a` lacks. -/
theorem merge_outerJoin {a b merged : Table} {conflicts : List Conflict} {shared : String}
    (ha : a.IsAligned) (hshared : sharedLabels a b = [shared])
    (h : (a.merge b).outcome = .ok (merged, conflicts)) :
    ∃ (left right : Table) (r : Renaming),
      (a.switchSource shared).outcome = .ok left ∧ (b.switchSource shared).outcome = .ok right ∧
      left.namespaces.labels.Perm a.namespaces.labels ∧
      right.namespaces.labels.Perm b.namespaces.labels ∧
      merged.namespaces.labels =
        a.namespaces.labels ++ b.namespaces.labels.filter (· ≠ shared) ∧
      merged.properties.entries = a.properties.entries ++
        b.properties.entries.filter (fun e => e.1 ∉ a.properties.keys) ∧
      (∀ name, name ∉ left.classes.keys → name ∉ right.classes.keys → r.className name = name) ∧
      OuterJoin textLe (MergedNamespaces.ClassMerged {
        left := left.namespaces
        right := right.namespaces
        merged := merged.namespaces
        shared } r) (some left.classes) (some right.classes) merged.classes := by
  obtain ⟨left, right, joined, hleft, hright, hjoined, hmerged⟩ := outcome_merge_eq_ok hshared h
  obtain ⟨i, hi, hl⟩ := switched_of_outcome hleft
  obtain ⟨j, hj, hr⟩ := switched_of_outcome hright
  have hi' : i < a.namespaces.size := (List.getElem?_eq_some_iff.1 hi).1
  have hj' : j < b.namespaces.size := (List.getElem?_eq_some_iff.1 hj).1
  obtain ⟨-, source, rest, hpositions, hreordered⟩ := outcome_reorder_eq_ok_iff.1 hmerged
  have hlabels : merged.namespaces.labels = mergedLabels a b shared := by
    rw [hreordered.namespaces, Namespaces.map_label_of_positions hpositions]
  -- all that the entries need to know of the namespaces
  have hlayout : MergedNamespaces.IsLayout
      { left := left.namespaces, right := right.namespaces, merged := merged.namespaces, shared }
      (joinLayout left right) joined.namespaces (source :: rest) := by
    refine ⟨hl.getElem?_labels_zero hi, hr.getElem?_labels_zero hj, rfl, hjoined.namespaces,
      hlabels ▸ hpositions, fun label hlabel => ?_, fun label hlabel => ?_⟩
    · rw [hlabels, mergedLabels]
      exact List.mem_append_left _ ((hl.mem_labels_iff hi').1 hlabel)
    · have hb := (hr.mem_labels_iff hj').1 hlabel
      rw [hlabels, mergedLabels, List.mem_append, List.mem_filter]
      by_cases heq : label = shared
      · exact .inl (heq ▸ List.mem_of_getElem? hi)
      · exact .inr ⟨hb, decide_eq_true heq⟩
  refine ⟨left, right, joined.classRenaming 0 source, hleft, hright, hl.perm_labels hi',
    hr.perm_labels hj', hlabels, ?_, fun name hl' hr' => ?_, ?_⟩
  · -- switching and reordering keep the header properties
    rw [hreordered.properties, hjoined.properties, entries_joinProperties, hl.properties_eq,
      hr.properties_eq]
  · -- the joined table has no other keys than the two sides
    refine className_classRenaming_of_not_mem fun hname => ?_
    obtain ⟨c, hc⟩ := OrderedMap.mem_keys_iff.1 hname
    obtain ⟨key, hkey, hc'⟩ := exists_of_forall₂_of_mem hjoined.classes hc
    obtain rfl : name = key := hc'.1
    rcases mem_unionKeys.1 hkey with ⟨_, ⟨⟩, hmem⟩ | ⟨_, ⟨⟩, hmem⟩
    · exact hl' hmem
    · exact hr' hmem
  refine .of_forall₂ isKeyOrder_textLe ?_
  -- each class is joined and then reordered, one after the other
  have hrenamed := forall₂_of_mem hreordered.classes fun e he e' he' =>
    And.intro (className_eq_key he rfl he'.1 he'.2) he'
  refine forall₂_comp hjoined.classes hrenamed ?_
  rintro key e e' ⟨rfl, hc⟩ ⟨hrenamed, he', hkey⟩
  refine hlayout.classMerged hc he' hkey hrenamed fun l hl' => ?_
  exact (hl.isAligned ha) (e.1, l) (OrderedMap.get?_eq_some_iff.1 hl')

/-- A table with a class that has no name in the second namespace. -/
def leftSample : Table where
  namespaces := { labels := ["official", "intermediary"], valid := by decide }
  classes := .ofList [
    ("a", {
      names := { slots := [some "a", some "class_1"] }
      fields := .ofList [({ name := "b", descriptor := "La;" }, {
        descriptor := "La;"
        names := { slots := [some "b", some "field_1"] } })] }),
    ("b", { names := { slots := [some "b", none] } })]

/-- A table that shares a namespace with `leftSample`. -/
def rightSample : Table where
  namespaces := { labels := ["intermediary", "named"], valid := by decide }
  classes := .ofList [
    ("class_1", {
      names := { slots := [some "class_1", some "Main"] }
      fields := .ofList [({ name := "field_1", descriptor := "Lclass_1;" }, {
        descriptor := "Lclass_1;"
        names := { slots := [some "field_1", some "instance"] } })] }),
    ("class_2", { names := { slots := [some "class_2", some "Other"] } })]

/-- The `leftSample` and the `rightSample` can be merged, and the result is their `OuterJoin`. -/
theorem merge_outerJoin_sample :
    leftSample.IsAligned ∧ sharedLabels leftSample rightSample = ["intermediary"] ∧
      ∃ merged conflicts, (leftSample.merge rightSample).outcome = .ok (merged, conflicts) ∧
        merged.classes.keys = ["b", "a", "class_2"] ∧
        ∃ (left right : Table) (r : Renaming),
          (leftSample.switchSource "intermediary").outcome = .ok left ∧
          (rightSample.switchSource "intermediary").outcome = .ok right ∧
          OuterJoin textLe (MergedNamespaces.ClassMerged {
            left := left.namespaces
            right := right.namespaces
            merged := merged.namespaces
            shared := "intermediary" } r) (some left.classes) (some right.classes)
              merged.classes := by
  have haligned : leftSample.IsAligned := by decide
  have hshared : sharedLabels leftSample rightSample = ["intermediary"] := by decide
  have hmerged : (leftSample.merge rightSample).outcome.toOption.any
      (fun m => m.1.classes.keys = ["b", "a", "class_2"]) = true := by
    -- keys are put into order by a sort that can be evaluated
    simp only [merge, join, Layout.joinClass, Layout.joinMethod,
      unionKeys_eq_insertionSort isKeyOrder_textLe, unionKeys_eq_insertionSort isKeyOrder_memberKey,
      unionKeys_eq_insertionSort isKeyOrder_indexLe]
    decide +kernel
  obtain ⟨⟨merged, conflicts⟩, hm, hkeys⟩ := (Option.any_eq_true ..).1 hmerged
  have hm := toOption_eq_some_iff.1 hm
  obtain ⟨left, right, r, hleft, hright, -, -, -, -, -, hjoin⟩ :=
    merge_outerJoin haligned hshared hm
  exact ⟨haligned, hshared, merged, conflicts, hm, of_decide_eq_true hkeys, left, right, r, hleft,
    hright, hjoin⟩

end Table

end MappingTables
