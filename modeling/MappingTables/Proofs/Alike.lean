import MappingTables.Proofs.RootedMerge

/-!
# Tables that say the same

Two tables can say the same at each place and still differ in the order of their namespaces, and in
that of their properties. Once they are put into the same order of namespaces, they are equal.

* `Table.Alike`: tables that say the same at each place.
* `Table.Alike.classes`: the entries of such tables, one after the other.
* `Table.Alike.rel_reorder`: reordering makes them equal, or fails for both.
-/

namespace MappingTables

/-! ## Entries that say the same -/

section Alike

variable (same : Names → Names → Prop)

/-- Whether two parameters have the `same` names, where these may be laid out differently. -/
structure Parameter.Alike (p q : Parameter) : Prop where
  index : p.index = q.index
  names : same p.names q.names
  comment : p.comment = q.comment

/-- Whether two fields have the `same` names. -/
structure Field.Alike (f g : Field) : Prop where
  descriptor : f.descriptor = g.descriptor
  names : same f.names g.names
  comment : f.comment = g.comment

/-- Whether two methods have the `same` names, and so do their parameters. -/
structure Method.Alike (m n : Method) : Prop where
  descriptor : m.descriptor = n.descriptor
  names : same m.names n.names
  comment : m.comment = n.comment
  parameters : List.Forall₂ (fun e e' => e.1 = e'.1 ∧ e.2.Alike same e'.2) m.parameters.entries
    n.parameters.entries

/-- Whether two classes have the `same` names, and so do their members. -/
structure ClassEntry.Alike (c d : ClassEntry) : Prop where
  names : same c.names d.names
  comment : c.comment = d.comment
  fields : List.Forall₂ (fun e e' => e.1 = e'.1 ∧ e.2.Alike same e'.2) c.fields.entries
    d.fields.entries
  methods : List.Forall₂ (fun e e' => e.1 = e'.1 ∧ e.2.Alike same e'.2) c.methods.entries
    d.methods.entries

end Alike

/-! ## Reordering entries that say the same -/

section Reordered

variable {same : Names → Names → Prop} {r r' : Renaming} {positions positions' : List Nat}
  (hr : ∀ name, r.className name = r'.className name)
  (hsame : ∀ names names', same names names' → names.pick positions = names'.pick positions')

include hsame

theorem Parameter.Alike.pick_eq {p q : Parameter} (h : p.Alike same q) :
    p.pick positions = q.pick positions' :=
  Parameter.ext h.index (hsame _ _ h.names) h.comment

include hr

theorem Field.Alike.reordered {f g f' : Field} (h : f.Alike same g)
    (hf : f.Reordered r positions f') : g.Reordered r' positions' f' := by
  refine ⟨?_, ?_, hf.comment.trans h.comment⟩
  · rw [Renaming.descriptor, ← h.descriptor, ← funext hr]
    exact hf.descriptor
  · rw [hf.names, hsame _ _ h.names]

theorem Method.Alike.reordered {m n m' : Method} (h : m.Alike same n)
    (hm : m.Reordered r positions m') : n.Reordered r' positions' m' := by
  refine ⟨?_, ?_, hm.comment.trans h.comment, ?_⟩
  · rw [Renaming.descriptor, ← h.descriptor, ← funext hr]
    exact hm.descriptor
  · rw [hm.names, hsame _ _ h.names]
  · refine forall₂_comp h.parameters.flip hm.parameters fun e e' e'' he he' => ?_
    rw [he', he.2.index, he.2.pick_eq hsame]

theorem ClassEntry.Alike.reordered {c d c' : ClassEntry} (h : c.Alike same d)
    (hc : c.Reordered r positions c') : d.Reordered r' positions' c' := by
  refine ⟨?_, hc.comment.trans h.comment, ?_, ?_⟩
  · rw [hc.names, hsame _ _ h.names]
  · refine forall₂_comp h.fields.flip hc.fields fun e e' e'' he he' => ?_
    exact ⟨he.2.reordered hr hsame he'.1, he.1 ▸ he'.2⟩
  · refine forall₂_comp h.methods.flip hc.methods fun e e' e'' he he' => ?_
    exact ⟨he.2.reordered hr hsame he'.1, he.1 ▸ he'.2⟩

end Reordered

namespace Table

/-- Whether two tables, each of which `IsAligned`, have the same namespaces and properties, in
whatever order, and the same entries in ascending order, with the same names in each namespace. -/
structure Alike (s t : Table) : Prop where
  left_aligned : s.IsAligned
  right_aligned : t.IsAligned
  left_ascending : s.IsAscending
  right_ascending : t.IsAscending
  mem_labels : ∀ label, label ∈ s.namespaces.labels ↔ label ∈ t.namespaces.labels
  property : ∀ key, s.properties.get? key = t.properties.get? key
  isSome : ∀ p, (s.namesAt p).isSome = (t.namesAt p).isSome
  name : ∀ label p, s.nameAt label p = t.nameAt label p
  comment : ∀ p, s.commentAt p = t.commentAt p

/-- `Alike` goes both ways. -/
theorem Alike.symm {s t : Table} (h : s.Alike t) : t.Alike s where
  left_aligned := h.right_aligned
  right_aligned := h.left_aligned
  left_ascending := h.right_ascending
  right_ascending := h.left_ascending
  mem_labels label := (h.mem_labels label).symm
  property key := (h.property key).symm
  isSome p := (h.isSome p).symm
  name label p := (h.name label p).symm
  comment p := (h.comment p).symm

/-- Whether `names` in two tables are the same in each namespace. -/
def SameNames (s t : Table) (names names' : Names) : Prop :=
  ∀ label, s.namespaces.nameIn label names = t.namespaces.nameIn label names'

namespace Alike

variable {s t : Table} (h : s.Alike t)

include h

/-- What stands at the same place of tables that are `Alike` has the `SameNames`. -/
theorem sameNames {p : Place} {names names' : Names} (hs : s.namesAt p = some names)
    (ht : t.namesAt p = some names') : SameNames s t names names' := by
  intro label
  have hname := h.name label p
  rw [nameAt, nameAt, hs, ht] at hname
  exact hname

theorem isSome_class (name : String) :
    (s.classes.get? name).isSome = (t.classes.get? name).isSome := by
  have hsome := h.isSome (.classEntry name)
  rwa [namesAt, namesAt, Option.isSome_map, Option.isSome_map] at hsome

section Entries

variable {owner : String} {key : MemberKey} {index : UInt64}

theorem parameter {p q : Parameter} (hp : s.parameter? owner key index = some p)
    (hq : t.parameter? owner key index = some q) : p.Alike (SameNames s t) q := by
  have hcomment := h.comment (.parameter owner key index)
  rw [commentAt, commentAt, hp, hq] at hcomment
  refine ⟨?_, h.sameNames (p := .parameter owner key index) ?_ ?_, hcomment⟩
  · rw [(Obeys.parameter? h.left_aligned hp).index_eq,
      (Obeys.parameter? h.right_aligned hq).index_eq]
  · rw [namesAt, hp, Option.map_some]
  · rw [namesAt, hq, Option.map_some]

theorem field {f g : Field} (hf : s.field? owner key = some f) (hg : t.field? owner key = some g) :
    f.Alike (SameNames s t) g := by
  have hcomment := h.comment (.field owner key)
  rw [commentAt, commentAt, hf, hg] at hcomment
  refine ⟨?_, h.sameNames (p := .field owner key) ?_ ?_, hcomment⟩
  · rw [(Obeys.field? h.left_aligned hf).descriptor_eq,
      (Obeys.field? h.right_aligned hg).descriptor_eq]
  · rw [namesAt, hf, Option.map_some]
  · rw [namesAt, hg, Option.map_some]

theorem method {m n : Method} (hm : s.method? owner key = some m)
    (hn : t.method? owner key = some n) (hmAscending : m.parameters.keys.Pairwise (indexLe · ·))
    (hnAscending : n.parameters.keys.Pairwise (indexLe · ·)) : m.Alike (SameNames s t) n := by
  have hcomment := h.comment (.method owner key)
  rw [commentAt, commentAt, hm, hn] at hcomment
  have hparameters : ∀ index, s.parameter? owner key index = m.parameters.get? index ∧
      t.parameter? owner key index = n.parameters.get? index := by
    intro index
    rw [parameter?, parameter?, hm, hn]
    exact ⟨rfl, rfl⟩
  refine ⟨?_, h.sameNames (p := .method owner key) ?_ ?_, hcomment,
    OrderedMap.forall₂_of_get? isKeyOrder_indexLe hmAscending hnAscending (fun index => ?_)
      fun index p q hp hq => h.parameter ((hparameters index).1.trans hp)
        ((hparameters index).2.trans hq)⟩
  · rw [(Obeys.method? h.left_aligned hm).descriptor_eq,
      (Obeys.method? h.right_aligned hn).descriptor_eq]
  · rw [namesAt, hm, Option.map_some]
  · rw [namesAt, hn, Option.map_some]
  -- a parameter is there in both methods or in neither
  · have hsome := h.isSome (.parameter owner key index)
    rw [namesAt, namesAt, Option.isSome_map, Option.isSome_map] at hsome
    rw [← (hparameters index).1, ← (hparameters index).2, hsome]

theorem classEntry {c d : ClassEntry} (hc : s.classes.get? owner = some c)
    (hd : t.classes.get? owner = some d) : c.Alike (SameNames s t) d := by
  have hcomment := h.comment (.classEntry owner)
  rw [commentAt, commentAt, hc, hd] at hcomment
  have hcAscending := h.left_ascending.members _ (OrderedMap.get?_eq_some_iff.1 hc)
  have hdAscending := h.right_ascending.members _ (OrderedMap.get?_eq_some_iff.1 hd)
  -- the members of a class are those at the places below it
  have hfields : ∀ key, s.field? owner key = c.fields.get? key ∧
      t.field? owner key = d.fields.get? key := by
    intro key
    rw [field?, field?, hc, hd]
    exact ⟨rfl, rfl⟩
  have hmethods : ∀ key, s.method? owner key = c.methods.get? key ∧
      t.method? owner key = d.methods.get? key := by
    intro key
    rw [method?, method?, hc, hd]
    exact ⟨rfl, rfl⟩
  refine ⟨h.sameNames (p := .classEntry owner) ?_ ?_, hcomment,
    OrderedMap.forall₂_of_get? isKeyOrder_memberKey hcAscending.fields hdAscending.fields
      (fun key => ?_) fun key f g hf hg => h.field ((hfields key).1.trans hf)
        ((hfields key).2.trans hg),
    OrderedMap.forall₂_of_get? isKeyOrder_memberKey hcAscending.methods hdAscending.methods
      (fun key => ?_) fun key m n hm hn => h.method ((hmethods key).1.trans hm)
        ((hmethods key).2.trans hn) (hcAscending.parameters _ (OrderedMap.get?_eq_some_iff.1 hm))
        (hdAscending.parameters _ (OrderedMap.get?_eq_some_iff.1 hn))⟩
  · rw [namesAt, hc, Option.map_some]
  · rw [namesAt, hd, Option.map_some]
  -- a place that one table has the other has, too
  · have hsome := h.isSome (.field owner key)
    rw [namesAt, namesAt, Option.isSome_map, Option.isSome_map] at hsome
    rw [← (hfields key).1, ← (hfields key).2, hsome]
  · have hsome := h.isSome (.method owner key)
    rw [namesAt, namesAt, Option.isSome_map, Option.isSome_map] at hsome
    rw [← (hmethods key).1, ← (hmethods key).2, hsome]

end Entries

/-- The entries of two tables that are `Alike`, one after the other. -/
theorem classes : List.Forall₂ (fun e e' => e.1 = e'.1 ∧ e.2.Alike (SameNames s t) e'.2)
    s.classes.entries t.classes.entries := by
  exact OrderedMap.forall₂_of_get? isKeyOrder_textLe h.left_ascending.classes
    h.right_ascending.classes h.isSome_class fun key c d hc hd => h.classEntry hc hd

section Reorder

variable {labels : List String} {positions positions' : List Nat}
  (hs : s.namespaces.positions labels = .ok positions)
  (ht : t.namespaces.positions labels = .ok positions')

include hs ht

omit h in
/-- `SameNames` are equal when they are picked in the same order of namespaces. -/
theorem pick_eq {names names' : Names} (hsame : SameNames s t names names') :
    names.pick positions = names'.pick positions' := by
  refine Names.ext ?_
  rw [Names.slots_pick_of_positions hs, Names.slots_pick_of_positions ht]
  exact List.map_congr_left fun label _ => hsame label

/-- In tables that are `Alike`, classes are renamed alike by `classRenaming`. -/
theorem className_eq {source source' : Nat} (hsource : positions[0]? = some source)
    (hsource' : positions'[0]? = some source') (name : String) :
    (s.classRenaming 0 source).className name = (t.classRenaming 0 source').className name := by
  rw [Renaming.className, Renaming.className, get?_classRenaming, get?_classRenaming]
  have hsome := h.isSome_class name
  cases hc : s.classes.get? name with
  | none =>
    rw [hc, Option.isSome_none, eq_comm, Option.isSome_eq_false_iff, Option.isNone_iff_eq_none]
      at hsome
    rw [hsome]
    rfl
  | some c =>
    rw [hc, Option.isSome_some, eq_comm, Option.isSome_iff_exists] at hsome
    obtain ⟨d, hd⟩ := hsome
    have hpick := pick_eq hs ht (h.classEntry hc hd).names
    rw [hd, Option.bind_some, Option.bind_some, ← Names.get_pick hsource, ← Names.get_pick hsource',
      hpick]

end Reorder

/-- What one table is reordered to by `reorder`, a table that is `Alike` can be, but for the order
of properties. -/
theorem exists_reorder {s' : Table} {labels : List String}
    (hs' : (s.reorder labels).outcome = .ok s') :
    ∃ t', (t.reorder labels).outcome = .ok t' ∧ s'.equiv t' = true := by
  obtain ⟨hnodup, source, rest, hs, hreordered⟩ := outcome_reorder_eq_ok_iff.1 hs'
  -- the other table knows the labels, at other positions perhaps
  have hmem : ∀ label ∈ labels, label ∈ t.namespaces.labels := by
    intro label hlabel
    obtain ⟨i, -, hi⟩ := exists_of_forall₂_of_mem (Namespaces.positions_eq_ok_iff.1 hs).flip hlabel
    exact (h.mem_labels label).1 (List.mem_of_getElem? hi)
  obtain ⟨positions', ht⟩ := Namespaces.exists_positions hmem
  obtain ⟨source', rest', rfl⟩ : ∃ source' rest', positions' = source' :: rest' := by
    have hlength := (Namespaces.positions_eq_ok_iff.1 ht).length_eq.symm.trans
      (Namespaces.positions_eq_ok_iff.1 hs).length_eq
    exact List.exists_cons_of_length_eq_add_one hlength
  -- the two results can differ in the order of their properties only
  refine ⟨{ s' with properties := t.properties }, outcome_reorder_eq_ok_iff.2
    ⟨hnodup, source', rest', ht, ?_, rfl, ?_⟩, ?_⟩
  · rw [Namespaces.map_label_of_positions ht, hreordered.namespaces,
      Namespaces.map_label_of_positions hs]
  · refine forall₂_comp h.classes.flip hreordered.classes fun e e' e'' he he' => ?_
    refine ⟨he.2.reordered (h.className_eq hs ht rfl rfl) (fun _ _ => pick_eq hs ht) he'.1, ?_⟩
    exact he.1 ▸ he'.2
  · refine Table.equiv_iff.2 ⟨rfl, fun key => ?_, fun key => ?_⟩
    · rw [hreordered.properties]
      exact h.property key
    · cases s'.classes.get? key with
      | none => exact .none
      | some c => exact .some c.equiv_refl

/-- `reorder` to the same `labels` makes two tables that are `Alike` equal, but for the order, or
fails for both. -/
theorem rel_reorder (labels : List String) :
    Option.Rel (fun s' t' => Table.equiv s' t' = true) (s.reorder labels).outcome.toOption
      (t.reorder labels).outcome.toOption := by
  refine rel_toOption (fun s' hs => h.exists_reorder hs) fun t' ht => ?_
  obtain ⟨s', hs, -⟩ := h.symm.exists_reorder ht
  exact ⟨s', hs⟩

end Alike

end Table

end MappingTables
