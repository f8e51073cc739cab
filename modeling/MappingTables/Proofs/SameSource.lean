import MappingTables.Proofs.Descriptor
import MappingTables.Proofs.MapNames
import MappingTables.Proofs.Places

/-!
# Reordering that keeps the source namespace

If the source namespace stays, a table is not re-rooted: keys and descriptors stay, and only the
names are put into other slots. All that can go wrong is a descriptor in which a class name does not
end.

* `closedRules`: what is asked of the entries of a table in which all class names in descriptors
  end.
* `Table.reordered_zero_iff`: what a table looks like after such a reordering.
* `Table.outcome_reorder_source_iff`: when it succeeds.
-/

namespace MappingTables

/-- The rules by which each descriptor `IsClosed`: all class names in it end. -/
def closedRules : EntryRules where
  descriptor := Descriptor.IsClosed

/-! ## Entries that keep their keys -/

/-- Two lists are related by `R` if the second one comes from the first one by `f`, where this is
what the relation says. -/
theorem forall₂_iff_map {α β : Type} {R : α → β → Prop} {P : α → Prop} {f : α → β} {l : List α}
    {m : List β} (h : ∀ a ∈ l, ∀ b, R a b ↔ P a ∧ b = f a) :
    List.Forall₂ R l m ↔ (∀ a ∈ l, P a) ∧ m = l.map f := by
  induction l generalizing m with
  | nil => simp
  | cons a l ih =>
    rw [List.forall₂_cons_left_iff, List.forall_mem_cons, List.map_cons]
    have hhead := h a List.mem_cons_self
    have ih := fun rest => ih (m := rest) fun a' ha' => h a' (List.mem_cons_of_mem _ ha')
    constructor
    · rintro ⟨b, rest, hb, hrest, rfl⟩
      obtain ⟨ha, rfl⟩ := (hhead b).1 hb
      obtain ⟨hl, rfl⟩ := (ih rest).1 hrest
      exact ⟨⟨ha, hl⟩, rfl⟩
    · rintro ⟨⟨ha, hl⟩, rfl⟩
      exact ⟨f a, l.map f, (hhead _).2 ⟨ha, rfl⟩, (ih _).2 ⟨hl, rfl⟩, rfl⟩

/-- Parameters that are keyed by their indices keep their keys, and `pick` takes their slots. -/
theorem Method.Obeys.forall₂_pick_iff {rules : EntryRules} {key : MemberKey} {m : Method}
    (hm : m.Obeys rules key) (positions : List Nat) {parameters : OrderedMap UInt64 Parameter} :
    List.Forall₂ (fun e e' => e' = (e.2.index, e.2.pick positions)) m.parameters.entries
      parameters.entries ↔
        parameters = m.parameters.map (Parameter.mapNames (·.pick positions)) := by
  have hpick : ∀ p ∈ m.parameters.entries, ∀ p' : UInt64 × Parameter,
      p' = (p.2.index, p.2.pick positions) ↔
        True ∧ p' = (p.1, p.2.mapNames (·.pick positions)) := by
    intro p hp p'
    rw [(hm.parameters p hp).index_eq, true_and]
    rfl
  rw [forall₂_iff_map hpick, OrderedMap.ext_iff]
  exact and_iff_right fun _ _ => trivial

/-- A renaming has a `descriptor` for one exactly if this `IsClosed`: all class names in it end. -/
theorem Renaming.exists_descriptor_iff {r : Renaming} {descriptor : String} :
    (∃ descriptor', r.descriptor descriptor = .ok descriptor') ↔ Descriptor.IsClosed descriptor :=
  Descriptor.exists_map_iff

section SameSource

variable {r : Renaming} {positions : List Nat} {size : Nat} (hr : ∀ name, r.className name = name)
  (hsource : positions[0]? = some 0)

include hsource in
/-- `newKey` of an entry whose key agrees with its source name is that key. -/
theorem newKey_pick {names : Names} {key : String} (h : (alignedRules size).keyed key names) :
    newKey (names.pick positions) key = key := by
  rw [newKey, Names.source, Names.get_pick hsource]
  cases hname : names.get 0 with
  | none => rfl
  | some name => exact h.2 name hname

include hr in
/-- A renaming that keeps all names keeps each `descriptor`. -/
theorem Renaming.descriptor_eq_ok_iff {descriptor descriptor' : String} :
    r.descriptor descriptor = .ok descriptor' ↔
      Descriptor.IsClosed descriptor ∧ descriptor' = descriptor := by
  rw [Renaming.descriptor, funext hr, ← Descriptor.map_id_eq_ok_iff]
  rfl

include hr hsource

/-- The field that is `Reordered` from another one under its key, if the source namespace stays. -/
theorem Field.reordered_iff (e e' : MemberKey × Field) (hf : e.2.Obeys (alignedRules size) e.1) :
    (e.2.Reordered r positions e'.2 ∧
        e'.1 = { name := newKey e'.2.names e.1.name, descriptor := e'.2.descriptor }) ↔
      e.2.Obeys closedRules e.1 ∧ e' = (e.1, e.2.mapNames (·.pick positions)) := by
  constructor
  · rintro ⟨⟨hdescriptor, hnames, hcomment⟩, hkey⟩
    obtain ⟨hclosed, hdescriptor⟩ := (Renaming.descriptor_eq_ok_iff hr).1 hdescriptor
    rw [hf.descriptor_eq] at hclosed
    refine ⟨⟨hf.descriptor_eq, trivial, hclosed⟩,
      Prod.ext ?_ (Field.ext hdescriptor hnames hcomment)⟩
    rw [hkey, hnames, newKey_pick hsource hf.names, hdescriptor, hf.descriptor_eq]
  · rintro ⟨hclosed, rfl⟩
    refine ⟨⟨?_, rfl, rfl⟩, ?_⟩
    · rw [Renaming.descriptor_eq_ok_iff hr, hf.descriptor_eq]
      exact ⟨hclosed.descriptor, hf.descriptor_eq⟩
    · rw [Field.mapNames, newKey_pick hsource hf.names, hf.descriptor_eq]

/-- The method that is `Reordered` from another one under its key, if the source namespace stays. -/
theorem Method.reordered_iff (e e' : MemberKey × Method) (hm : e.2.Obeys (alignedRules size) e.1) :
    (e.2.Reordered r positions e'.2 ∧
        e'.1 = { name := newKey e'.2.names e.1.name, descriptor := e'.2.descriptor }) ↔
      e.2.Obeys closedRules e.1 ∧ e' = (e.1, e.2.mapNames (·.pick positions)) := by
  constructor
  · rintro ⟨⟨hdescriptor, hnames, hcomment, hentries⟩, hkey⟩
    obtain ⟨hclosed, hdescriptor⟩ := (Renaming.descriptor_eq_ok_iff hr).1 hdescriptor
    rw [hm.descriptor_eq] at hclosed
    have hparameters := (hm.forall₂_pick_iff positions).1 hentries
    refine ⟨⟨hm.descriptor_eq, trivial, hclosed, ?_⟩,
      Prod.ext ?_ (Method.ext hdescriptor hnames hcomment hparameters)⟩
    · exact fun p hp => ⟨(hm.parameters p hp).index_eq, trivial⟩
    · rw [hkey, hnames, newKey_pick hsource hm.names, hdescriptor, hm.descriptor_eq]
  · rintro ⟨hclosed, rfl⟩
    refine ⟨⟨?_, rfl, rfl, (hm.forall₂_pick_iff positions).2 rfl⟩, ?_⟩
    · rw [Renaming.descriptor_eq_ok_iff hr, hm.descriptor_eq]
      exact ⟨hclosed.descriptor, hm.descriptor_eq⟩
    · rw [Method.mapNames, newKey_pick hsource hm.names, hm.descriptor_eq]

/-- The class that is `Reordered` from another one under its key, if the source namespace stays. -/
theorem ClassEntry.reordered_iff (e e' : String × ClassEntry)
    (hc : e.2.Obeys (alignedRules size) e.1) :
    (e.2.Reordered r positions e'.2 ∧ e'.1 = newKey e'.2.names e.1) ↔
      e.2.Obeys closedRules e.1 ∧ e' = (e.1, e.2.mapNames (·.pick positions)) := by
  -- with the source in place the keys stay, and the members are mapped one by one
  have hfields := fun fields : OrderedMap MemberKey Field =>
    forall₂_iff_map (m := fields.entries) fun f hf f' =>
      Field.reordered_iff hr hsource f f' (hc.fields f hf)
  have hmethods := fun methods : OrderedMap MemberKey Method =>
    forall₂_iff_map (m := methods.entries) fun m hm m' =>
      Method.reordered_iff hr hsource m m' (hc.methods m hm)
  constructor
  · rintro ⟨⟨hnames, hcomment, hfields', hmethods'⟩, hkey⟩
    obtain ⟨hclosed, hfields'⟩ := (hfields _).1 hfields'
    obtain ⟨hclosed', hmethods'⟩ := (hmethods _).1 hmethods'
    refine ⟨⟨trivial, hclosed, hclosed'⟩, Prod.ext ?_ (ClassEntry.ext hnames hcomment
      (OrderedMap.ext hfields') (OrderedMap.ext hmethods'))⟩
    rw [hkey, hnames, newKey_pick hsource hc.names]
  · rintro ⟨hclosed, rfl⟩
    refine ⟨⟨rfl, rfl, (hfields _).2 ⟨hclosed.fields, rfl⟩,
      (hmethods _).2 ⟨hclosed.methods, rfl⟩⟩, ?_⟩
    exact (newKey_pick hsource hc.names).symm

end SameSource

namespace Table

variable {t t' : Table}

/-- `classRenaming` from the source namespace to itself changes nothing. -/
theorem className_classRenaming_source (ht : t.KeysAgree) (name : String) :
    (t.classRenaming 0 0).className name = name := by
  by_cases hkey : name ∈ t.classes.keys
  · obtain ⟨c, hc⟩ := OrderedMap.mem_keys_iff.1 hkey
    rw [className_classRenaming hc]
    cases hname : c.names.get 0 with
    | none => rfl
    | some name' => exact (ht _ hc).names name' hname
  · exact className_classRenaming_of_not_mem hkey

/-- The table that is `Reordered` from another one, if the source namespace stays. -/
theorem reordered_zero_iff {positions : List Nat} (ht : t.IsAligned)
    (hsource : positions[0]? = some 0) :
    t.Reordered 0 positions t' ↔ t'.namespaces.labels = positions.map t.namespaces.label ∧
      t.Obeys closedRules ∧
      t' = { t.mapNames (·.pick positions) with namespaces := t'.namespaces } := by
  have hclasses := fun classes : OrderedMap String ClassEntry =>
    forall₂_iff_map (m := classes.entries) fun c hc c' =>
      ClassEntry.reordered_iff (className_classRenaming_source ht.keysAgree) hsource c c' (ht c hc)
  constructor
  · rintro ⟨hnamespaces, hproperties, hclasses'⟩
    obtain ⟨hclosed, hclasses'⟩ := (hclasses _).1 hclasses'
    exact ⟨hnamespaces, hclosed, Table.ext rfl hproperties (OrderedMap.ext hclasses')⟩
  · rintro ⟨hnamespaces, hclosed, ht'⟩
    refine ⟨hnamespaces, by rw [ht']; rfl, (hclasses _).2 ⟨hclosed, ?_⟩⟩
    rw [ht']
    rfl

/-- `reorder` to labels that start with that of the source namespace succeeds exactly if these are
labels of the table, the table follows the `closedRules`, as all class names in its descriptors end,
and no label is repeated. -/
theorem outcome_reorder_source_iff {labels : List String} (ht : t.IsAligned)
    (hhead : labels.head? = some t.namespaces.source) :
    (t.reorder labels).outcome = .ok t' ↔ ∃ positions,
      t.namespaces.positions labels = .ok positions ∧ t'.namespaces.labels = labels ∧
      t.Obeys closedRules ∧
      t' = { t.mapNames (·.pick positions) with namespaces := t'.namespaces } := by
  -- the first position is that of the source namespace
  have hzero : ∀ positions, t.namespaces.positions labels = .ok positions →
      positions[0]? = some 0 := by
    intro positions hpositions
    obtain ⟨rest, rfl⟩ := List.head?_eq_some_iff.1 hhead
    obtain ⟨source, positions, hsource, -, rfl⟩ :=
      List.forall₂_cons_left_iff.1 (Namespaces.positions_eq_ok_iff.1 hpositions)
    exact congrArg some (Namespaces.position_unique hsource t.namespaces.getElem?_zero)
  rw [outcome_reorder_eq_ok_iff]
  constructor
  · rintro ⟨-, source, rest, hpositions, hreordered⟩
    obtain rfl : source = 0 := Option.some.inj (hzero _ hpositions)
    obtain ⟨hlabels, hclosed, ht'⟩ := (reordered_zero_iff ht rfl).1 hreordered
    rw [Namespaces.map_label_of_positions hpositions] at hlabels
    exact ⟨_, hpositions, hlabels, hclosed, ht'⟩
  · rintro ⟨positions, hpositions, hlabels, hclosed, ht'⟩
    refine ⟨hlabels ▸ t'.namespaces.valid.2.2, ?_⟩
    have hfirst := hzero _ hpositions
    cases positions with
    | nil => cases hfirst
    | cons source rest =>
      obtain rfl : source = 0 := Option.some.inj hfirst
      refine ⟨0, rest, hpositions, (reordered_zero_iff ht rfl).2 ⟨?_, hclosed, ht'⟩⟩
      rw [Namespaces.map_label_of_positions hpositions, hlabels]

end Table

end MappingTables
