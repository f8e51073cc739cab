import MappingTables.Proofs.Entries
import MappingTables.Proofs.Names
import MappingTables.Proofs.Namespaces
import MappingTables.Reorder

/-!
# Reordered tables

What a table looks like after reordering is said as a relation between the tables. It goes through
the entries in their order.

* `Table.Reordered`: the relation.
* `Table.reorderAt_eq_ok_iff`: reordering gives the tables for which it holds.
* `Table.outcome_switchSource_eq_ok_iff`, `Table.outcome_reorder_eq_ok_iff`: the operations that
  reorder.
-/

namespace MappingTables

variable {r : Renaming} {positions : List Nat}

/-- The field `f'` in place of another one `f`, with the slots at `positions`. -/
structure Field.Reordered (r : Renaming) (positions : List Nat) (f f' : Field) : Prop where
  descriptor : r.descriptor f.descriptor = .ok f'.descriptor
  names : f'.names = f.names.pick positions
  comment : f'.comment = f.comment

/-- The method `m'` in place of another one `m`, with the slots at `positions`. Its parameters are
keyed by their own indices. -/
structure Method.Reordered (r : Renaming) (positions : List Nat) (m m' : Method) : Prop where
  descriptor : r.descriptor m.descriptor = .ok m'.descriptor
  names : m'.names = m.names.pick positions
  comment : m'.comment = m.comment
  parameters : List.Forall₂ (fun e e' => e' = (e.2.index, e.2.pick positions)) m.parameters.entries
    m'.parameters.entries

/-- The class `c'` in place of another one `c`, with the slots at `positions`. Its members are keyed
by their new names and descriptors. -/
structure ClassEntry.Reordered (r : Renaming) (positions : List Nat)
    (c c' : ClassEntry) : Prop where
  names : c'.names = c.names.pick positions
  comment : c'.comment = c.comment
  fields : List.Forall₂ (fun e e' => e.2.Reordered r positions e'.2 ∧
    e'.1 = { name := newKey e'.2.names e.1.name, descriptor := e'.2.descriptor }) c.fields.entries
    c'.fields.entries
  methods : List.Forall₂ (fun e e' => e.2.Reordered r positions e'.2 ∧
    e'.1 = { name := newKey e'.2.names e.1.name, descriptor := e'.2.descriptor }) c.methods.entries
    c'.methods.entries

/-- The table `t'` in place of another one `t`, with the slots at `positions`. Its classes are keyed
by their new names, by `newKey`. -/
structure Table.Reordered (source : Nat) (positions : List Nat) (t t' : Table) : Prop where
  namespaces : t'.namespaces.labels = positions.map t.namespaces.label
  properties : t'.properties = t.properties
  classes : List.Forall₂ (fun e e' =>
    e.2.Reordered (t.classRenaming 0 source) positions e'.2 ∧ e'.1 = newKey e'.2.names e.1)
    t.classes.entries t'.classes.entries

/-- `reorder` succeeds for a field exactly if its descriptor can be renamed, and gives the one that
is `Reordered`. -/
theorem Field.reorder_eq_ok_iff {f f' : Field} :
    f.reorder r positions = .ok f' ↔ f.Reordered r positions f' := by
  rw [Field.reorder]
  simp only [bind_eq_ok_iff, pure_eq_ok_iff]
  constructor
  · rintro ⟨descriptor, hdescriptor, rfl⟩
    exact ⟨hdescriptor, rfl, rfl⟩
  · rintro ⟨hdescriptor, hnames, hcomment⟩
    exact ⟨f'.descriptor, hdescriptor, Field.ext rfl hnames.symm hcomment.symm⟩

/-- `reorderParameters` succeeds exactly if no two parameters have the same index. -/
theorem reorderParameters_eq_ok_iff {m m' : OrderedMap UInt64 Parameter} :
    reorderParameters positions m.values = .ok m' ↔
      List.Forall₂ (fun e e' => e' = (e.2.index, e.2.pick positions)) m.entries m'.entries := by
  have hfold :
      ∀ m', m.values.foldlM (fun m p => insertNew p.index (p.pick positions) m) ∅ = .ok m' ↔
      ∃ parameters : OrderedMap UInt64 Parameter,
        List.Forall₂ (fun p e => e = (p.index, p.pick positions)) m.values parameters.entries ∧
        parameters = m' :=
    fun m' => OrderedMap.foldlM_insertNew_eq_ok_iff (fun m => m) fun m p _ s => by simp
  rw [reorderParameters, hfold, OrderedMap.values]
  simp

/-- `reorder` succeeds for a method exactly if its descriptor can be renamed and its parameters
reordered, and gives the one that is `Reordered`. -/
theorem Method.reorder_eq_ok_iff {m m' : Method} :
    m.reorder r positions = .ok m' ↔ m.Reordered r positions m' := by
  rw [Method.reorder]
  simp only [bind_eq_ok_iff, pure_eq_ok_iff, reorderParameters_eq_ok_iff]
  constructor
  · rintro ⟨descriptor, hdescriptor, parameters, hparameters, rfl⟩
    exact ⟨hdescriptor, rfl, rfl, hparameters⟩
  · rintro ⟨hdescriptor, hnames, hcomment, hparameters⟩
    exact ⟨m'.descriptor, hdescriptor, m'.parameters, hparameters,
      Method.ext rfl hnames.symm hcomment.symm rfl⟩

namespace ClassEntry

variable {names : Names} {comment : Option String} {c c' : ClassEntry}

/-- `insertReordered` reorders fields one after the other. -/
theorem foldlM_insertReordered_eq_ok_iff {fields : OrderedMap MemberKey Field} :
    fields.entries.foldlM (insertReordered r positions) { names, comment } = .ok c ↔
      ∃ fields' : OrderedMap MemberKey Field,
        List.Forall₂ (fun e e' => e.2.Reordered r positions e'.2 ∧
          e'.1 = { name := newKey e'.2.names e.1.name, descriptor := e'.2.descriptor })
          fields.entries fields'.entries ∧
        ({ names, comment, fields := fields' } : ClassEntry) = c := by
  refine OrderedMap.foldlM_rekeyed_eq_ok_iff
    (fun (f : Field) (key : MemberKey) => ⟨newKey f.names key.name, f.descriptor⟩)
    (fun fields => ({ names, comment, fields } : ClassEntry)) fun fields e _ s => ?_
  simp only [insertReordered, insertField, bind_eq_ok_iff, within_eq_ok_iff, pure_eq_ok_iff,
    Field.reorder_eq_ok_iff]

/-- `insertReorderedMethod` reorders methods one after the other, behind the fields. -/
theorem foldlM_insertReorderedMethod_eq_ok_iff {fields : OrderedMap MemberKey Field}
    {methods : OrderedMap MemberKey Method} :
    methods.entries.foldlM (insertReorderedMethod r positions) { names, comment, fields } = .ok c ↔
      ∃ methods' : OrderedMap MemberKey Method,
        List.Forall₂ (fun e e' => e.2.Reordered r positions e'.2 ∧
          e'.1 = { name := newKey e'.2.names e.1.name, descriptor := e'.2.descriptor })
          methods.entries methods'.entries ∧
        ({ names, comment, fields, methods := methods' } : ClassEntry) = c := by
  refine OrderedMap.foldlM_rekeyed_eq_ok_iff
    (fun (m : Method) (key : MemberKey) => ⟨newKey m.names key.name, m.descriptor⟩)
    (fun methods => ({ names, comment, fields, methods } : ClassEntry)) fun methods e _ s => ?_
  simp only [insertReorderedMethod, insertMethod, bind_eq_ok_iff, within_eq_ok_iff, pure_eq_ok_iff,
    Method.reorder_eq_ok_iff]

/-- `reorder` succeeds for a class exactly if it does for all its members, and no two of them get
the same key. -/
theorem reorder_eq_ok_iff : c.reorder r positions = .ok c' ↔ c.Reordered r positions c' := by
  rw [reorder]
  simp only [bind_eq_ok_iff, foldlM_insertReordered_eq_ok_iff]
  constructor
  · rintro ⟨_, ⟨fields, hfields, rfl⟩, h⟩
    obtain ⟨methods, hmethods, rfl⟩ := foldlM_insertReorderedMethod_eq_ok_iff.1 h
    exact ⟨rfl, rfl, hfields, hmethods⟩
  · rintro ⟨hnames, hcomment, hfields, hmethods⟩
    refine ⟨_, ⟨c'.fields, hfields, rfl⟩,
      foldlM_insertReorderedMethod_eq_ok_iff.2 ⟨c'.methods, hmethods, ?_⟩⟩
    exact ClassEntry.ext hnames.symm hcomment.symm rfl rfl

end ClassEntry

namespace Table

/-- `insertReordered` reorders classes one after the other. They get a slot for each of the new
namespaces. -/
theorem foldlM_insertReordered_eq_ok_iff {namespaces : Namespaces}
    {properties : OrderedMap String (Option String)} {classes : OrderedMap String ClassEntry}
    {t : Table} (hsize : namespaces.size = positions.length) :
    classes.entries.foldlM (insertReordered r positions) { namespaces, properties } = .ok t ↔
      ∃ classes' : OrderedMap String ClassEntry,
        List.Forall₂ (fun e e' => e.2.Reordered r positions e'.2 ∧ e'.1 = newKey e'.2.names e.1)
          classes.entries classes'.entries ∧
        ({ namespaces, properties, classes := classes' } : Table) = t := by
  refine OrderedMap.foldlM_rekeyed_eq_ok_iff (fun (c : ClassEntry) => newKey c.names)
    (fun classes => ({ namespaces, properties, classes } : Table)) fun classes e _ s => ?_
  simp only [insertReordered, insertClass, bind_eq_ok_iff, within_eq_ok_iff, pure_eq_ok_iff,
    ClassEntry.reorder_eq_ok_iff, checkSlots_eq_ok_iff]
  refine exists_congr fun c => and_congr_right fun hc => ?_
  rw [hc.names, Names.size_pick, hsize]
  constructor
  · rintro ⟨-, -, h⟩
    exact h
  · exact fun h => ⟨(), rfl, h⟩

/-- `reorderAt` succeeds for a table exactly if its namespaces and classes can be reordered, and no
two of the classes get the same key. -/
theorem reorderAt_eq_ok_iff {t t' : Table} {source : Nat} :
    t.reorderAt source positions = .ok t' ↔ t.Reordered source positions t' := by
  have hsize : ∀ {namespaces : Namespaces},
      namespaces.labels = positions.map t.namespaces.label →
        namespaces.size = positions.length := by
    intro namespaces hns
    rw [Namespaces.size, hns, List.length_map]
  rw [reorderAt]
  simp only [bind_eq_ok_iff, Namespaces.pick, Namespaces.ofLabels_eq_ok_iff]
  constructor
  · rintro ⟨namespaces, hns, h⟩
    obtain ⟨classes, hclasses, rfl⟩ := (foldlM_insertReordered_eq_ok_iff (hsize hns)).1 h
    exact ⟨hns, rfl, hclasses⟩
  · rintro ⟨hns, hproperties, hclasses⟩
    refine ⟨t'.namespaces, hns,
      (foldlM_insertReordered_eq_ok_iff (hsize hns)).2 ⟨t'.classes, hclasses, ?_⟩⟩
    exact Table.ext rfl hproperties.symm rfl

/-- What `reorderNoted` gives does not depend on notes: it is what `reorderAt` gives. -/
theorem outcome_reorderNoted {t : Table} {source : Nat} :
    (t.reorderNoted source positions).outcome = t.reorderAt source positions := by
  rw [reorderNoted, Noted.outcome_bind]
  change (t.reorderAt source positions >>= _) = _
  cases t.reorderAt source positions with
  | error failure => rfl
  | ok t' => rfl

/-- `reorder` to labels reorders to their positions. There has to be a label, and none twice. -/
theorem outcome_reorder_eq_ok_iff {t t' : Table} {labels : List String} :
    (t.reorder labels).outcome = .ok t' ↔ labels.Nodup ∧ ∃ source rest,
      t.namespaces.positions labels = .ok (source :: rest) ∧
        t.Reordered source (source :: rest) t' := by
  have hnodup : firstRepeated? [] labels = none ↔ labels.Nodup := by
    rw [firstRepeated?_eq_none_iff]
    exact ⟨And.left, fun h => ⟨h, fun x _ => List.not_mem_nil⟩⟩
  rw [reorder]
  -- repeated labels are refused before anything else
  cases hrepeated : firstRepeated? [] labels with
  | some label =>
    refine ⟨nofun, fun h => ?_⟩
    rw [hnodup.2 h.1] at hrepeated
    cases hrepeated
  | none =>
    rw [Noted.outcome_bind]
    change (t.namespaces.positions labels >>= _) = _ ↔ _
    rw [bind_eq_ok_iff, ← hnodup]
    simp only [hrepeated, true_and]
    constructor
    · rintro ⟨positions, hpositions, h⟩
      -- without a label there would be no source namespace
      cases positions with
      | nil => cases h
      | cons source rest =>
        rw [Noted.outcome_bind, Noted.outcome_noteIf, ok_bind, outcome_reorderNoted,
          reorderAt_eq_ok_iff] at h
        exact ⟨source, rest, hpositions, h⟩
    · rintro ⟨source, rest, hpositions, h⟩
      refine ⟨source :: rest, hpositions, ?_⟩
      rw [Noted.outcome_bind, Noted.outcome_noteIf, ok_bind, outcome_reorderNoted,
        reorderAt_eq_ok_iff]
      exact h

/-- `switchSource` to the namespace that is the source changes nothing, and to another one gives the
table that is `Reordered` so that the two are `exchanged`. -/
theorem outcome_switchSource_eq_ok_iff {t t' : Table} {label : String} :
    (t.switchSource label).outcome = .ok t' ↔ ∃ position,
      t.namespaces.labels[position]? = some label ∧
      ((position = 0 ∧ t' = t) ∨
        (position ≠ 0 ∧ t.Reordered position (exchanged t.namespaces.size position) t')) := by
  rw [switchSource, Noted.outcome_bind]
  change (t.namespaces.position label >>= _) = _ ↔ _
  rw [bind_eq_ok_iff]
  refine exists_congr fun position => ?_
  rw [Namespaces.position_eq_ok_iff]
  refine and_congr_right fun _ => ?_
  by_cases h : position = 0
  · rw [if_pos h]
    simp [h, eq_comm]
  · rw [if_neg h, Noted.outcome_within, within_eq_ok_iff, outcome_reorderNoted, reorderAt_eq_ok_iff]
    simp [h]

end Table

/-! ## Descriptors of reordered tables -/

/-- The `descriptors` of a class that is `Reordered` are renamed, each one in its place. -/
theorem ClassEntry.Reordered.descriptors {c c' : ClassEntry} (h : c.Reordered r positions c') :
    List.Forall₂ (fun d d' => r.descriptor d = .ok d') c.descriptors c'.descriptors := by
  refine List.rel_append (List.rel_map ?_ h.fields) (List.rel_map ?_ h.methods)
  · exact fun e e' hf => hf.1.descriptor
  · exact fun e e' hm => hm.1.descriptor

theorem Table.Reordered.descriptors {t t' : Table} {source : Nat}
    (h : t.Reordered source positions t') :
    List.Forall₂ (fun d d' => (t.classRenaming 0 source).descriptor d = .ok d') t.descriptors
      t'.descriptors :=
  List.rel_flatMap h.classes fun _ _ hc => hc.1.descriptors

/-! ## What classes are renamed to -/

namespace Table

/-- `classRenaming` renames a class to its name in the `target` namespace, if it has one. -/
theorem get?_classRenaming (t : Table) (target : Nat) (key : String) :
    (t.classRenaming 0 target).get? key =
      (t.classes.get? key).bind (·.names.get target) := by
  have hfold := OrderedMap.get?_foldl_insert (fun c : ClassEntry => c.names.get target)
    t.classes.nodup_keys (∅ : Renaming) key
  rw [show (∅ : Renaming).get? key = none from rfl, Option.or_none] at hfold
  refine Eq.trans ?_ hfold
  refine congrArg (OrderedMap.get? · key) ?_
  refine congrArg (fun f => List.foldl f ∅ t.classes.entries) (funext fun r => funext fun e => ?_)
  obtain ⟨key', c⟩ := e
  dsimp only [nameOrKey]
  rw [if_pos rfl]
  cases c.names.get target <;> rfl

/-- `className` gives a class its name at the `position`, or its key if it has none. -/
theorem className_classRenaming {t : Table} {position : Nat} {key : String} {c : ClassEntry}
    (hc : (key, c) ∈ t.classes.entries) :
    (t.classRenaming 0 position).className key = (c.names.get position).getD key := by
  rw [Renaming.className, get?_classRenaming, OrderedMap.get?_eq_some_iff.2 hc, Option.bind_some]

/-- `className` leaves what is no key of a class as it is. -/
theorem className_classRenaming_of_not_mem {t : Table} {position : Nat} {name : String}
    (h : name ∉ t.classes.keys) : (t.classRenaming 0 position).className name = name := by
  rw [Renaming.className, get?_classRenaming, OrderedMap.get?_eq_none_iff.2 h]
  rfl

/-- The class that is `Reordered` from another one has the key that `className` gives the other
one. -/
theorem className_eq_key {t : Table} {r : Renaming} {source : Nat} {positions : List Nat}
    {e e' : String × ClassEntry} (hmem : e ∈ t.classes.entries)
    (hsource : positions[0]? = some source) (h : e.2.Reordered r positions e'.2)
    (hkey : e'.1 = newKey e'.2.names e.1) : (t.classRenaming 0 source).className e.1 = e'.1 := by
  have hname : e'.2.names.source = e.2.names.get source := by
    rw [h.names]
    exact Names.get_pick hsource
  rw [hkey, newKey, hname, className_classRenaming hmem]

section Reordered

variable {t t' : Table} {source : Nat} (h : t.Reordered source positions t')
  (hsource : positions[0]? = some source)

include h hsource

/-- `className` gives a class the key of the class in its place in the table that is `Reordered`. -/
theorem Reordered.exists_class {key : String} {c : ClassEntry} (hc : (key, c) ∈ t.classes.entries) :
    ∃ c' : ClassEntry, ((t.classRenaming 0 source).className key, c') ∈ t'.classes.entries ∧
      c'.names = c.names.pick positions := by
  obtain ⟨⟨key', c'⟩, hmem, hreordered, hkey⟩ := exists_of_forall₂_of_mem h.classes.flip hc
  have hname := className_eq_key hc hsource hreordered hkey
  exact ⟨c', hname ▸ hmem, hreordered.names⟩

/-- A class of a table that is `Reordered` has an old key or a name in the new source namespace as
its key. -/
theorem Reordered.not_mem_keys {name : String} (hkey : name ∉ t.classes.keys)
    (hfree : ∀ e ∈ t.classes.entries, e.2.names.get source ≠ some name) :
    name ∉ t'.classes.keys := by
  rw [OrderedMap.mem_keys_iff]
  rintro ⟨c', hc'⟩
  obtain ⟨⟨key, c⟩, hc, hreordered, hname⟩ := exists_of_forall₂_of_mem h.classes hc'
  have hname := className_eq_key hc hsource hreordered hname
  rw [className_classRenaming hc] at hname
  cases hnew : c.names.get source with
  | none =>
    have hname : key = name := by simpa [hnew] using hname
    exact hkey (hname ▸ OrderedMap.mem_keys_of_mem hc)
  | some new =>
    have hname : new = name := by simpa [hnew] using hname
    exact hfree _ hc (hname ▸ hnew)

end Reordered

/-- What avoids a character avoids it under the name that `className` gives it, if the names of
classes do. -/
theorem not_mem_className {t : Table} {source : Nat} {char : Char} {name : String}
    (hnames : ∀ e ∈ t.classes.entries, ∀ new ∈ e.2.names.get source, char ∉ new.toList)
    (hname : char ∉ name.toList) :
    char ∉ ((t.classRenaming 0 source).className name).toList := by
  by_cases hkey : name ∈ t.classes.keys
  · obtain ⟨c, hc⟩ := OrderedMap.mem_keys_iff.1 hkey
    rw [className_classRenaming hc]
    cases hnew : c.names.get source with
    | none => exact hname
    | some new => exact hnames _ hc new hnew
  · rw [className_classRenaming_of_not_mem hkey]
    exact hname

end Table

end MappingTables
