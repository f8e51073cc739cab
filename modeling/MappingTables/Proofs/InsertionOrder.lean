import MappingTables.Proofs.Conflicts
import MappingTables.Proofs.MapNames
import MappingTables.Proofs.NameRules
import MappingTables.Proofs.Reorder
import MappingTables.Format.Plain
import MappingTables.Rename

/-!
# The order of insertion

Tables remember the order in which entries and properties were put into them. What is done with a
table goes through them in that order, but it does not depend on it: tables that are the same but
for the order are dealt with alike.

* `Table.Reordered.exists_of_equiv`, `Table.exists_join_of_equiv`: reordering and joining, as
  relations.
* `Table.ActsAlike`: both of two pairs of tables can be dealt with, with the same results but for
  the order, or neither can.
* `Table.actsAlike_of_equiv`: this holds of tables that are the same but for the order.
-/

namespace MappingTables

/-! ## Reordering -/

section Reordered

variable {r r' : Renaming} {positions : List Nat}

/-- Renamings whose `className` is the same have the same `descriptor`. -/
theorem Renaming.descriptor_congr (h : ∀ name, r.className name = r'.className name) :
    r.descriptor = r'.descriptor := by
  funext descriptor
  rw [Renaming.descriptor, Renaming.descriptor, funext h]

variable (hr : r.descriptor = r'.descriptor)

include hr

/-- Whether a field is `Reordered` depends only on the `descriptor` of the renaming. -/
theorem Field.Reordered.congr {f f' : Field} (h : f.Reordered r positions f') :
    f.Reordered r' positions f' :=
  ⟨hr ▸ h.descriptor, h.names, h.comment⟩

/-- A method that is `equiv` to another one, the same but for the order of its parameters, is
`Reordered` alike. -/
theorem Method.Reordered.exists_of_equiv {m n m' : Method} (hmn : m.equiv n = true)
    (h : m.Reordered r positions m') : ∃ n', n.Reordered r' positions n' ∧ m'.equiv n' = true := by
  obtain ⟨hdescriptor, hnames, hcomment, hparameters⟩ := Method.equiv_iff.1 hmn
  obtain ⟨parameters, hmade, hrel⟩ := OrderedMap.exists_forall₂_of_rel
    (fun index => OrderedMap.rel_eq_iff.2 (hparameters index)) h.parameters
    (S := fun e e' => e' = (e.2.index, e.2.pick positions)) (Q := (· = ·)) (by
      rintro k p _ k' q rfl hq
      exact ⟨q, hq, rfl⟩)
  refine ⟨{ m' with parameters }, ⟨?_, ?_, ?_, hmade⟩,
    Method.equiv_iff.2 ⟨rfl, rfl, rfl, fun index => ?_⟩⟩
  · rw [← hr, ← hdescriptor]
    exact h.descriptor
  · rw [← hnames]
    exact h.names
  · rw [← hcomment]
    exact h.comment
  · exact OrderedMap.rel_eq_iff.1 (hrel index)

/-- A class that is `equiv` to another one, the same but for the order of what is in it, is
`Reordered` alike. -/
theorem ClassEntry.Reordered.exists_of_equiv {c d c' : ClassEntry} (hcd : c.equiv d = true)
    (h : c.Reordered r positions c') :
    ∃ d', d.Reordered r' positions d' ∧ c'.equiv d' = true := by
  obtain ⟨hnames, hcomment, hfields, hmethods⟩ := ClassEntry.equiv_iff.1 hcd
  -- the members are reordered one by one, whatever order they stand in
  obtain ⟨fields, hmadeFields, hrelFields⟩ := OrderedMap.exists_forall₂_of_rel
    (fun key => OrderedMap.rel_eq_iff.2 (hfields key)) h.fields
    (S := fun e e' => e.2.Reordered r' positions e'.2 ∧
      e'.1 = { name := newKey e'.2.names e.1.name, descriptor := e'.2.descriptor })
    (Q := (· = ·)) (by
      rintro k f _ k' f' rfl hf
      exact ⟨f', ⟨hf.1.congr hr, hf.2⟩, rfl⟩)
  obtain ⟨methods, hmadeMethods, hrelMethods⟩ := OrderedMap.exists_forall₂_of_rel hmethods h.methods
    (S := fun e e' => e.2.Reordered r' positions e'.2 ∧
      e'.1 = { name := newKey e'.2.names e.1.name, descriptor := e'.2.descriptor })
    (Q := fun m n => m.equiv n = true) (by
      rintro k m n k' m' hmn ⟨hm, hkey⟩
      obtain ⟨n', hn, hequiv⟩ := hm.exists_of_equiv hr hmn
      obtain ⟨hdescriptor, hnames, -, -⟩ := Method.equiv_iff.1 hequiv
      exact ⟨n', ⟨hn, by rw [hkey, hnames, hdescriptor]⟩, hequiv⟩)
  refine ⟨{ c' with fields, methods }, ⟨?_, ?_, hmadeFields, hmadeMethods⟩,
    ClassEntry.equiv_iff.2 ⟨rfl, rfl, fun key => ?_, hrelMethods⟩⟩
  · rw [← hnames]
    exact h.names
  · rw [← hcomment]
    exact h.comment
  · exact OrderedMap.rel_eq_iff.1 (hrelFields key)

end Reordered

namespace Table

variable {a a' b b' : Table}

/-- In tables that are `equiv` the `classRenaming` gives each class the same `className`. -/
theorem className_classRenaming_of_equiv (h : a.equiv a' = true) (position : Nat) (name : String) :
    (a.classRenaming 0 position).className name = (a'.classRenaming 0 position).className name := by
  obtain ⟨-, -, hclasses⟩ := equiv_iff.1 h
  rw [Renaming.className, Renaming.className, get?_classRenaming, get?_classRenaming]
  have hname := hclasses name
  generalize a.classes.get? name = c, a'.classes.get? name = d at hname
  cases hname with
  | none => rfl
  | some hcd =>
    obtain ⟨hnames, -⟩ := ClassEntry.equiv_iff.1 hcd
    rw [Option.bind_some, Option.bind_some, hnames]

/-- A table that is `equiv` to another one, the same but for the order, is `Reordered` alike. -/
theorem Reordered.exists_of_equiv {s : Table} {source : Nat} {positions : List Nat}
    (heq : a.equiv a' = true) (h : a.Reordered source positions s) :
    ∃ s', a'.Reordered source positions s' ∧ s.equiv s' = true := by
  obtain ⟨hnamespaces, hproperties, hclasses⟩ := equiv_iff.1 heq
  have hr := Renaming.descriptor_congr (className_classRenaming_of_equiv heq source)
  obtain ⟨classes, hmade, hrel⟩ := OrderedMap.exists_forall₂_of_rel hclasses h.classes
    (S := fun e e' =>
      e.2.Reordered (a'.classRenaming 0 source) positions e'.2 ∧ e'.1 = newKey e'.2.names e.1)
    (Q := fun c d => c.equiv d = true) (by
      rintro k c d k' c' hcd ⟨hc, hkey⟩
      obtain ⟨d', hd, hequiv⟩ := hc.exists_of_equiv hr hcd
      obtain ⟨hnames, -⟩ := ClassEntry.equiv_iff.1 hequiv
      exact ⟨d', ⟨hd, by rw [hkey, hnames]⟩, hequiv⟩)
  refine ⟨{ s with properties := a'.properties, classes }, ⟨?_, rfl, hmade⟩,
    equiv_iff.2 ⟨rfl, fun key => ?_, hrel⟩⟩
  · rw [← hnamespaces]
    exact h.namespaces
  · rw [h.properties]
    exact hproperties key

/-- What `switchSource` gives for one of two tables that are `equiv`, it gives for the other one,
but for the order. -/
theorem exists_switchSource_of_equiv {s : Table} {label : String} (heq : a.equiv a' = true)
    (h : (a.switchSource label).outcome = .ok s) :
    ∃ s', (a'.switchSource label).outcome = .ok s' ∧ s.equiv s' = true := by
  obtain ⟨hnamespaces, -⟩ := equiv_iff.1 heq
  obtain ⟨position, hlabel, ⟨rfl, rfl⟩ | ⟨hne, hreordered⟩⟩ := outcome_switchSource_eq_ok_iff.1 h
  · exact ⟨a', outcome_switchSource_eq_ok_iff.2 ⟨0, hnamespaces ▸ hlabel, .inl ⟨rfl, rfl⟩⟩, heq⟩
  · obtain ⟨s', hs', hequiv⟩ := hreordered.exists_of_equiv heq
    rw [hnamespaces] at hlabel hs'
    exact ⟨s', outcome_switchSource_eq_ok_iff.2 ⟨position, hlabel, .inr ⟨hne, hs'⟩⟩, hequiv⟩

/-- What `reorder` gives for one of two tables that are `equiv`, it gives for the other one, but for
the order. -/
theorem exists_reorder_of_equiv {s : Table} {labels : List String} (heq : a.equiv a' = true)
    (h : (a.reorder labels).outcome = .ok s) :
    ∃ s', (a'.reorder labels).outcome = .ok s' ∧ s.equiv s' = true := by
  obtain ⟨hnamespaces, -⟩ := equiv_iff.1 heq
  obtain ⟨hnodup, source, rest, hpositions, hreordered⟩ := outcome_reorder_eq_ok_iff.1 h
  obtain ⟨s', hs', hequiv⟩ := hreordered.exists_of_equiv heq
  rw [hnamespaces] at hpositions
  exact ⟨s', outcome_reorder_eq_ok_iff.2 ⟨hnodup, source, rest, hpositions, hs'⟩, hequiv⟩

end Table

/-! ## Joining -/

/-- The `unionKeys` are the same if something is found under the same keys on each side. -/
theorem unionKeys_congr {κ α : Type} [DecidableEq κ] {le : κ → κ → Bool} (hle : IsKeyOrder le)
    {left left' right right' : Option (OrderedMap κ α)}
    (hleft : ∀ k, (entryOf left k).isSome = (entryOf left' k).isSome)
    (hright : ∀ k, (entryOf right k).isSome = (entryOf right' k).isSome) :
    unionKeys le left right = unionKeys le left' right' := by
  refine List.Perm.eq_of_pairwise (fun _ _ _ _ => hle.antisymm _ _) (pairwise_unionKeys hle)
    (pairwise_unionKeys hle)
    ((List.perm_ext_iff_of_nodup nodup_unionKeys nodup_unionKeys).2 fun k => ?_)
  rw [mem_unionKeys, mem_unionKeys, ← isSome_entryOf_iff, ← isSome_entryOf_iff,
    ← isSome_entryOf_iff, ← isSome_entryOf_iff, hleft, hright]

/-- What `joinMethod` sees of a method: it is the same for methods that are `equiv`. -/
theorem Method.seen_of_rel {m n : Option Method}
    (h : Option.Rel (fun m n => Method.equiv m n = true) m n) :
    m.map (·.names) = n.map (·.names) ∧ m.bind (·.comment) = n.bind (·.comment) ∧
      entryOf (m.map (·.parameters)) = entryOf (n.map (·.parameters)) := by
  cases h with
  | none => exact ⟨rfl, rfl, rfl⟩
  | some h =>
    obtain ⟨-, hnames, hcomment, hparameters⟩ := Method.equiv_iff.1 h
    exact ⟨congrArg some hnames, hcomment, funext hparameters⟩

/-- What `joinClass` sees of a class: it is the same for classes that are `equiv`. -/
theorem ClassEntry.seen_of_rel {c d : Option ClassEntry}
    (h : Option.Rel (fun c d => ClassEntry.equiv c d = true) c d) :
    c.map (·.names) = d.map (·.names) ∧ c.bind (·.comment) = d.bind (·.comment) ∧
      entryOf (c.map (·.fields)) = entryOf (d.map (·.fields)) ∧
      ∀ key, Option.Rel (fun m n => Method.equiv m n = true) (entryOf (c.map (·.methods)) key)
        (entryOf (d.map (·.methods)) key) := by
  cases h with
  | none => exact ⟨rfl, rfl, rfl, fun _ => .none⟩
  | some h =>
    obtain ⟨hnames, hcomment, hfields, hmethods⟩ := ClassEntry.equiv_iff.1 h
    exact ⟨congrArg some hnames, hcomment, funext hfields, hmethods⟩

namespace Layout

variable {layout : Layout}

/-- `joinMethod` joins methods alike that are `equiv`, the same but for the order of their
parameters. -/
theorem joinMethod_congr {owner : String} {key : MemberKey} {l l' r r' : Option Method}
    (hl : Option.Rel (fun m n => Method.equiv m n = true) l l')
    (hr : Option.Rel (fun m n => Method.equiv m n = true) r r') :
    layout.joinMethod owner key l r = layout.joinMethod owner key l' r' := by
  obtain ⟨hnames, hcomment, hparameters⟩ := Method.seen_of_rel hl
  obtain ⟨hnames', hcomment', hparameters'⟩ := Method.seen_of_rel hr
  have hindices : unionKeys indexLe (l.map (·.parameters)) (r.map (·.parameters)) =
      unionKeys indexLe (l'.map (·.parameters)) (r'.map (·.parameters)) :=
    unionKeys_congr isKeyOrder_indexLe (fun k => by rw [hparameters]) fun k => by rw [hparameters']
  rw [joinMethod, joinMethod, hnames, hnames', hcomment, hcomment']
  dsimp only
  rw [hindices, hparameters, hparameters']

/-- `joinClass` joins classes alike that are `equiv`, the same but for the order of what is in
them. -/
theorem joinClass_congr {key : String} {l l' r r' : Option ClassEntry}
    (hl : Option.Rel (fun c d => ClassEntry.equiv c d = true) l l')
    (hr : Option.Rel (fun c d => ClassEntry.equiv c d = true) r r') :
    layout.joinClass key l r = layout.joinClass key l' r' := by
  obtain ⟨hnames, hcomment, hfields, hmethods⟩ := ClassEntry.seen_of_rel hl
  obtain ⟨hnames', hcomment', hfields', hmethods'⟩ := ClassEntry.seen_of_rel hr
  -- of a class the join sees keys and entries, and neither depends on insertion order
  have hfieldKeys : unionKeys MemberKey.le (l.map (·.fields)) (r.map (·.fields)) =
      unionKeys MemberKey.le (l'.map (·.fields)) (r'.map (·.fields)) :=
    unionKeys_congr isKeyOrder_memberKey (fun k => by rw [hfields]) fun k => by rw [hfields']
  have hmethodKeys : unionKeys MemberKey.le (l.map (·.methods)) (r.map (·.methods)) =
      unionKeys MemberKey.le (l'.map (·.methods)) (r'.map (·.methods)) :=
    unionKeys_congr isKeyOrder_memberKey (fun k => OrderedMap.isSome_of_rel (hmethods k)) fun k =>
      OrderedMap.isSome_of_rel (hmethods' k)
  have hmethod : ∀ k, layout.joinMethod key k (entryOf (l.map (·.methods)) k)
      (entryOf (r.map (·.methods)) k) = layout.joinMethod key k (entryOf (l'.map (·.methods)) k)
        (entryOf (r'.map (·.methods)) k) := fun k => joinMethod_congr (hmethods k) (hmethods' k)
  rw [joinClass, joinClass, hnames, hnames', hcomment, hcomment']
  dsimp only
  simp only [hfieldKeys, hfields, hfields', hmethodKeys, hmethod]

end Layout

namespace Table

variable {a a' b b' : Table}

/-- What `join` gives for two tables, it gives for two that are `equiv` to them, with the same
conflicts. -/
theorem exists_join_of_equiv {t : Table} (ha : a.equiv a' = true) (hb : b.equiv b' = true)
    (h : (join a b).outcome = .ok t) : ∃ t', (join a' b').outcome = .ok t' ∧ t.equiv t' = true ∧
      (join a b).notes = (join a' b').notes := by
  obtain ⟨hnamespaces, hproperties, hclasses⟩ := equiv_iff.1 ha
  obtain ⟨hnamespaces', hproperties', hclasses'⟩ := equiv_iff.1 hb
  -- layout, keys and entries of the join do not see the insertion order
  have hlayout : joinLayout a b = joinLayout a' b' := by
    rw [joinLayout, joinLayout, hnamespaces, hnamespaces']
  have hkeys : unionKeys textLe (some a.classes) (some b.classes) =
      unionKeys textLe (some a'.classes) (some b'.classes) :=
    unionKeys_congr isKeyOrder_textLe (fun k => OrderedMap.isSome_of_rel (hclasses k)) fun k =>
      OrderedMap.isSome_of_rel (hclasses' k)
  have hclass : ∀ key,
      (joinLayout a b).joinClass key (a.classes.get? key) (b.classes.get? key) =
        (joinLayout a' b').joinClass key (a'.classes.get? key) (b'.classes.get? key) := fun key =>
    hlayout ▸ Layout.joinClass_congr (hclasses key) (hclasses' key)
  obtain ⟨hjoined, hsize⟩ := outcome_join_eq_ok_iff.1 h
  -- only the properties can come out in another order
  let t' : Table := { t with properties := joinProperties a' b' }
  have ht' : (join a' b').outcome = .ok t' := by
    refine outcome_join_eq_ok_iff.2 ⟨⟨?_, rfl, ?_⟩, hsize⟩
    · rw [← hnamespaces, ← hnamespaces']
      exact hjoined.namespaces
    · rw [← hkeys]
      refine hjoined.classes.imp fun key e he => ⟨he.1, ?_⟩
      have hok := hclass key ▸ Layout.outcome_joinClass_eq_ok_iff.2 he.2
      exact Layout.outcome_joinClass_eq_ok_iff.1 hok
  refine ⟨t', ht', equiv_iff.2 ⟨rfl, fun key => ?_, fun key => ?_⟩, ?_⟩
  · rw [hjoined.properties, get?_joinProperties, get?_joinProperties, hproperties, hproperties']
  · cases t.classes.get? key with
    | none => exact .none
    | some c => exact .some c.equiv_refl
  · rw [notes_join h, notes_join ht', hkeys]
    simp only [hclass]

/-- What `merge` gives for two tables, it gives for two that are `equiv` to them, with the same
conflicts. -/
theorem exists_merge_of_equiv {merged : Table} {conflicts : List Conflict}
    (ha : a.equiv a' = true) (hb : b.equiv b' = true)
    (h : (a.merge b).outcome = .ok (merged, conflicts)) :
    ∃ merged', (a'.merge b').outcome = .ok (merged', conflicts) ∧ merged.equiv merged' = true := by
  obtain ⟨hnamespaces, -⟩ := equiv_iff.1 ha
  obtain ⟨hnamespaces', -⟩ := equiv_iff.1 hb
  have hshared' : sharedLabels a' b' = sharedLabels a b := by
    rw [sharedLabels, sharedLabels, hnamespaces, hnamespaces']
  obtain ⟨shared, hshared⟩ : ∃ shared, sharedLabels a b = [shared] := by
    unfold merge at h
    split at h
    · next shared hshared => exact ⟨shared, hshared⟩
    · cases h
  have hlabels : mergedLabels a b shared = mergedLabels a' b' shared := by
    rw [mergedLabels, mergedLabels, hnamespaces, hnamespaces']
  obtain ⟨left, right, joined, hleft, hright, hjoined, hnotes, hmerged⟩ :=
    (outcome_merge_eq_ok_iff hshared).1 h
  -- each step of the merge is repeated on the equal tables
  obtain ⟨left', hleft', hleftEquiv⟩ := exists_switchSource_of_equiv ha hleft
  obtain ⟨right', hright', hrightEquiv⟩ := exists_switchSource_of_equiv hb hright
  obtain ⟨joined', hjoined', hjoinedEquiv, hnotes'⟩ :=
    exists_join_of_equiv hleftEquiv hrightEquiv hjoined
  obtain ⟨merged', hmerged', hequiv⟩ := exists_reorder_of_equiv hjoinedEquiv hmerged
  rw [hlabels] at hmerged'
  exact ⟨merged', (outcome_merge_eq_ok_iff (hshared'.trans hshared)).2 ⟨left', right', joined',
    hleft', hright', hjoined', hnotes'.symm.trans hnotes, hmerged'⟩, hequiv⟩

end Table

/-! ## Changing names -/

section MapNames

variable {f : Names → Names}

/-- Methods that are `equiv` still are when `mapNames` changed their names. -/
theorem Method.equiv_mapNames {m n : Method} (h : m.equiv n = true) :
    (m.mapNames f).equiv (n.mapNames f) = true := by
  obtain ⟨hdescriptor, hnames, hcomment, hparameters⟩ := Method.equiv_iff.1 h
  refine Method.equiv_iff.2 ⟨hdescriptor, congrArg f hnames, hcomment, fun index => ?_⟩
  rw [mapNames, mapNames, OrderedMap.get?_map, OrderedMap.get?_map, hparameters]

/-- Classes that are `equiv` still are when `mapNames` changed their names. -/
theorem ClassEntry.equiv_mapNames {c d : ClassEntry} (h : c.equiv d = true) :
    (c.mapNames f).equiv (d.mapNames f) = true := by
  obtain ⟨hnames, hcomment, hfields, hmethods⟩ := ClassEntry.equiv_iff.1 h
  refine ClassEntry.equiv_iff.2 ⟨congrArg f hnames, hcomment, fun key => ?_, fun key => ?_⟩
  · rw [mapNames, mapNames, OrderedMap.get?_map, OrderedMap.get?_map, hfields]
  · rw [mapNames, mapNames, OrderedMap.get?_map, OrderedMap.get?_map]
    exact OrderedMap.rel_map (hmethods key) fun _ _ hmn => Method.equiv_mapNames hmn

/-- Tables that are `equiv` still are when `mapNames` changed their names. -/
theorem Table.equiv_mapNames {s t : Table} (h : s.equiv t = true) :
    (s.mapNames f).equiv (t.mapNames f) = true := by
  obtain ⟨hnamespaces, hproperties, hclasses⟩ := Table.equiv_iff.1 h
  refine Table.equiv_iff.2 ⟨hnamespaces, hproperties, fun key => ?_⟩
  rw [mapNames, mapNames, OrderedMap.get?_map, OrderedMap.get?_map]
  exact OrderedMap.rel_map (hclasses key) fun _ _ hcd => ClassEntry.equiv_mapNames hcd

end MapNames

/-- In classes that are `equiv` there are the same names: `allNames` gives them in another order. -/
theorem ClassEntry.perm_allNames {c d : ClassEntry} (h : c.equiv d = true) :
    c.allNames.Perm d.allNames := by
  obtain ⟨hnames, -, hfields, hmethods⟩ := ClassEntry.equiv_iff.1 h
  have hlist : ∀ c : ClassEntry, c.allNames =
      c.names :: (c.fields.entries.flatMap fun e => [e.2.names]) ++
        c.methods.entries.flatMap fun e =>
          e.2.names :: e.2.parameters.entries.flatMap fun p => [p.2.names] := by
    intro c
    simp [allNames, OrderedMap.values, List.flatMap_map, ← List.map_eq_flatMap, Function.comp_def]
  rw [hlist, hlist, hnames]
  refine (List.Perm.cons _ ?_).append ?_
  · exact OrderedMap.perm_flatMap_of_rel (fun key => OrderedMap.rel_eq_iff.2 (hfields key))
      fun _ _ _ hfg => hfg ▸ .refl _
  · refine OrderedMap.perm_flatMap_of_rel hmethods fun _ m n hmn => ?_
    obtain ⟨-, hnames, -, hparameters⟩ := Method.equiv_iff.1 hmn
    rw [hnames]
    exact .cons _ (OrderedMap.perm_flatMap_of_rel
      (fun index => OrderedMap.rel_eq_iff.2 (hparameters index)) fun _ _ _ hpq => hpq ▸ .refl _)

namespace Table

variable {a a' b b' : Table}

/-- In tables that are `equiv` there are the same names: `allNames` gives them in another order. -/
theorem perm_allNames (h : a.equiv a' = true) : a.allNames.Perm a'.allNames := by
  obtain ⟨-, -, hclasses⟩ := equiv_iff.1 h
  rw [allNames, allNames, OrderedMap.values, OrderedMap.values, List.flatMap_map, List.flatMap_map]
  exact OrderedMap.perm_flatMap_of_rel hclasses fun _ _ _ hcd => ClassEntry.perm_allNames hcd

/-- What `complete` gives for one of two tables that are `equiv`, it gives for the other one, and
the `count` is the same. -/
theorem exists_complete_of_equiv {t : Table} {target fallback : String} {count : Nat}
    (heq : a.equiv a' = true) (h : (a.complete target fallback).outcome = .ok (t, count)) :
    ∃ t', (a'.complete target fallback).outcome = .ok (t', count) ∧ t.equiv t' = true := by
  obtain ⟨hnamespaces, -⟩ := equiv_iff.1 heq
  obtain ⟨i, j, hi, hj, hij, rfl, rfl⟩ := outcome_complete_eq_ok_iff.1 h
  rw [hnamespaces] at hi hj
  exact ⟨a'.mapNames (Names.fill i j), outcome_complete_eq_ok_iff.2
    ⟨i, j, hi, hj, hij, rfl, (perm_allNames heq).countP_eq _⟩, equiv_mapNames heq⟩

/-- What `rename` gives for one of two tables that are `equiv`, it gives for the other one, but for
the order. -/
theorem exists_rename_of_equiv {t : Table} {pairs : List (String × String)}
    (heq : a.equiv a' = true) (h : a.rename pairs = .ok t) :
    ∃ t', a'.rename pairs = .ok t' ∧ t.equiv t' = true := by
  obtain ⟨hnamespaces, hproperties, hclasses⟩ := equiv_iff.1 heq
  obtain ⟨namespaces, hrenamed, h⟩ := bind_eq_ok_iff.1 h
  cases h
  rw [hnamespaces] at hrenamed
  exact ⟨{ a' with namespaces }, bind_eq_ok_iff.2 ⟨namespaces, hrenamed, rfl⟩,
    equiv_iff.2 ⟨rfl, hproperties, hclasses⟩⟩

end Table

/-! ## Writing -/

namespace Format.Plain

/-- `write` gives the same text in the plain dialect for tables that are `equiv`. -/
theorem write_eq_of_equiv {s t : Table} (h : s.equiv t = true) : write s = write t := by
  obtain ⟨hnamespaces, -, hclasses⟩ := Table.equiv_iff.1 h
  -- rows are written by key, so equal collections are written alike
  have hclassRows := OrderedMap.map_sorted_eq_of_rel hclasses isKeyOrder_textLe
    (f := fun e => classRow e.2) fun _ _ _ hcd => by
      rw [classRow, classRow, (ClassEntry.equiv_iff.1 hcd).1]
  have hfieldRows := OrderedMap.map_sorted_eq_of_rel hclasses isKeyOrder_textLe
    (f := fun e => fieldRows e.1 e.2) fun key c d hcd => by
      obtain ⟨-, -, hfields, -⟩ := ClassEntry.equiv_iff.1 hcd
      exact OrderedMap.map_sorted_eq_of_rel (fun key => OrderedMap.rel_eq_iff.2 (hfields key))
        isKeyOrder_memberKey fun _ _ _ hfg => hfg ▸ rfl
  have hmethodRows := OrderedMap.map_sorted_eq_of_rel hclasses isKeyOrder_textLe
    (f := fun e => methodRows e.1 e.2) fun key c d hcd => by
      obtain ⟨-, -, -, hmethods⟩ := ClassEntry.equiv_iff.1 hcd
      refine OrderedMap.map_sorted_eq_of_rel hmethods isKeyOrder_memberKey fun _ m n hmn => ?_
      obtain ⟨hdescriptor, hnames, -⟩ := Method.equiv_iff.1 hmn
      dsimp only
      rw [hdescriptor, hnames]
  rw [write, write, tableRows, tableRows, hnamespaces]
  simp only [List.flatMap_def, hclassRows, hfieldRows, hmethodRows]

end Format.Plain

/-! ## All of it -/

namespace Table

variable {a a' b b' : Table}

/-- What the actions give for the tables `a` and `b` and for `a'` and `b'`. Each of them fails for
both, or gives the same for both but for the order; counts, conflicts and texts are equal. -/
structure ActsAlike (a b a' b' : Table) : Prop where
  switchSource : ∀ label, Option.Rel (fun s s' => Table.equiv s s' = true)
    (a.switchSource label).outcome.toOption (a'.switchSource label).outcome.toOption
  reorder : ∀ labels, Option.Rel (fun s s' => Table.equiv s s' = true)
    (a.reorder labels).outcome.toOption (a'.reorder labels).outcome.toOption
  rename : ∀ pairs, Option.Rel (fun s s' => Table.equiv s s' = true)
    (a.rename pairs).toOption (a'.rename pairs).toOption
  complete : ∀ target fallback, Option.Rel (fun s s' => Table.equiv s.1 s'.1 = true ∧ s.2 = s'.2)
    (a.complete target fallback).outcome.toOption (a'.complete target fallback).outcome.toOption
  merge : Option.Rel (fun m m' => Table.equiv m.1 m'.1 = true ∧ m.2 = m'.2)
    (a.merge b).outcome.toOption (a'.merge b').outcome.toOption
  write : Format.Plain.write a = Format.Plain.write a'

/-- What holds of everything that `f` makes of one table holds of the other one that is `equiv` to
it, and so `f` makes the same of both or nothing of either. -/
theorem rel_of_equiv {β : Type} {f : Table → Except Failure β} {rel : β → β → Prop}
    (h : ∀ {a a' : Table} {s : β}, a.equiv a' = true → f a = .ok s →
      ∃ s', f a' = .ok s' ∧ rel s s') (heq : a.equiv a' = true) :
    Option.Rel rel (f a).toOption (f a').toOption := by
  refine rel_toOption (fun s hs => h heq hs) fun s' hs' => ?_
  obtain ⟨s, hs, -⟩ := h (equiv_symm heq) hs'
  exact ⟨s, hs⟩

/-- The order in which the entries and properties were put into tables has no influence on what the
actions give: `ActsAlike` holds of any tables that are `equiv`, also of those whose keys do not
agree with their names. -/
theorem actsAlike_of_equiv (ha : a.equiv a' = true) (hb : b.equiv b' = true) :
    ActsAlike a b a' b' where
  switchSource _ := rel_of_equiv exists_switchSource_of_equiv ha
  reorder _ := rel_of_equiv exists_reorder_of_equiv ha
  rename _ := rel_of_equiv exists_rename_of_equiv ha
  complete target fallback := by
    refine rel_of_equiv (f := fun a => (a.complete target fallback).outcome)
      (fun {_ _ s} heq h => ?_) ha
    obtain ⟨t', ht', hequiv⟩ := exists_complete_of_equiv heq h
    exact ⟨(t', s.2), ht', hequiv, rfl⟩
  merge := by
    refine rel_toOption (fun m hm => ?_) fun m' hm' => ?_
    · obtain ⟨merged', hmerged', hequiv⟩ := exists_merge_of_equiv ha hb hm
      exact ⟨(merged', m.2), hmerged', hequiv, rfl⟩
    · obtain ⟨merged, hmerged, -⟩ := exists_merge_of_equiv (equiv_symm ha) (equiv_symm hb) hm'
      exact ⟨_, hmerged⟩
  write := Format.Plain.write_eq_of_equiv ha

/-- A table with `classes` in the given order. -/
def insertedSample (namespaces : Namespaces) (classes : List (String × String)) : Table where
  namespaces
  classes :=
    .ofList (classes.map fun (key, name) => (key, { names := { slots := [some key, some name] } }))

/-- Each `insertedSample` is a table into which the same classes were put in another order, and they
act alike. -/
theorem actsAlike_of_equiv_sample :
    let ns : Namespaces := { labels := ["official", "named"], valid := by decide }
    let ns' : Namespaces := { labels := ["official", "searge"], valid := by decide }
    let a := insertedSample ns [("a", "Main"), ("b", "Other")]
    let a' := insertedSample ns [("b", "Other"), ("a", "Main")]
    let b := insertedSample ns' [("c", "C_3"), ("a", "C_1")]
    let b' := insertedSample ns' [("a", "C_1"), ("c", "C_3")]
    a.equiv a' = true ∧ b.equiv b' = true ∧ a ≠ a' ∧ b ≠ b' ∧ ActsAlike a b a' b' := by
  intro ns ns' a a' b b'
  have ha : a.equiv a' = true := by decide
  have hb : b.equiv b' = true := by decide
  exact ⟨ha, hb, by decide, by decide, actsAlike_of_equiv ha hb⟩

end Table

end MappingTables
