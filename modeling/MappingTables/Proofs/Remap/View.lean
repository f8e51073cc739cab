import MappingTables.Proofs.SameSource
import MappingTables.Remap.View

/-!
# Views and switching

A view from a namespace walks a table that is rooted at another one, and works out owners, keys and
descriptors on the way. The same entries are given by the view of the table that was rooted at that
namespace before. There they are what stands in the keys, so no two of them are about the same
thing.

* `View.IsClosed`, `View.exists_entries_iff`: when a view gives entries.
* `View.Rerooted.entries_eq`: a view of a table, and of the table that was re-rooted.
* `Entry.subject`, `View.nodup_subject`: what the entries are about, none of it twice.
* `View.entries_withoutParameters`: the entries that are not about parameters.
* `View.entries_switchSource`: the view of a table, and of the switched one.
-/

namespace MappingTables

/-- The method `m` without its parameters. -/
def Method.withoutParameters (m : Method) : Method :=
  { m with parameters := ∅ }

/-- The class `c` without the parameters of its methods. -/
def ClassEntry.withoutParameters (c : ClassEntry) : ClassEntry :=
  { c with methods := c.methods.map Method.withoutParameters }

/-- The table `t` without the parameters of its methods. Its keys agree with its entries if those of
the classes, fields and methods do. -/
def Table.withoutParameters (t : Table) : Table :=
  { t with classes := t.classes.map ClassEntry.withoutParameters }

namespace Remap

namespace View

/-! ## When there are entries -/

section Closed

variable {v : View} {owner : String}

/-- Whether all class names end in the descriptors that the view `v` gives: those of fields with
both names, and those of methods with a name in the namespace that is remapped from. -/
def IsClosed (v : View) : Prop :=
  ∀ e ∈ v.table.classes.entries,
    (∀ f ∈ e.2.fields.values, (f.names.get v.source).isSome → (f.names.get v.target).isSome →
      Descriptor.IsClosed f.descriptor) ∧
    ∀ m ∈ e.2.methods.values, (m.names.get v.source).isSome → Descriptor.IsClosed m.descriptor

instance (descriptor : String) : Decidable (Descriptor.IsClosed descriptor) :=
  inferInstanceAs (Decidable (_ = _))

instance (v : View) : Decidable v.IsClosed :=
  inferInstanceAs (Decidable (∀ _ ∈ _, _))

theorem exists_fieldEntries_iff {f : Field} : (∃ l, v.fieldEntries owner f = .ok l) ↔
    ((f.names.get v.source).isSome → (f.names.get v.target).isSome →
      Descriptor.IsClosed f.descriptor) := by
  rw [← Renaming.exists_descriptor_iff (r := v.classRenaming), fieldEntries]
  cases f.names.get v.source with
  | none => simp
  | some name =>
    cases f.names.get v.target with
    | none => simp
    | some target => simpa only [Option.isSome_some, true_imp_iff] using exists_bind_pure_eq_ok_iff

theorem exists_methodEntries_iff {m : Method} : (∃ l, v.methodEntries owner m = .ok l) ↔
    ((m.names.get v.source).isSome → Descriptor.IsClosed m.descriptor) := by
  rw [← Renaming.exists_descriptor_iff (r := v.classRenaming), methodEntries]
  cases m.names.get v.source with
  | none => simp
  | some name => simpa only [Option.isSome_some, true_imp_iff] using exists_bind_pure_eq_ok_iff

theorem exists_entriesOf_iff {key : String} {c : ClassEntry} :
    (∃ l, v.entriesOf key c = .ok l) ↔
      (∃ l, c.fields.values.mapM (v.fieldEntries (v.owner key c)) = .ok l) ∧
        ∃ l, c.methods.values.mapM (v.methodEntries (v.owner key c)) = .ok l := by
  rw [entriesOf]
  constructor
  · rintro ⟨l, h⟩
    obtain ⟨fields, hfields, h⟩ := bind_eq_ok_iff.1 h
    obtain ⟨methods, hmethods, -⟩ := bind_eq_ok_iff.1 h
    exact ⟨⟨fields, hfields⟩, methods, hmethods⟩
  · rintro ⟨⟨fields, hfields⟩, methods, hmethods⟩
    exact ⟨_, bind_eq_ok_iff.2 ⟨fields, hfields, bind_eq_ok_iff.2 ⟨methods, hmethods, rfl⟩⟩⟩

/-- A view gives `entries` exactly if it `IsClosed`: all class names end in the descriptors it
gives. -/
theorem exists_entries_iff : (∃ l, v.entries = .ok l) ↔ v.IsClosed := by
  rw [entries, exists_bind_pure_eq_ok_iff, exists_mapM_eq_ok_iff]
  simp only [exists_entriesOf_iff, exists_mapM_eq_ok_iff, exists_fieldEntries_iff,
    exists_methodEntries_iff]
  rfl

end Closed

/-! ## Views of re-rooted tables -/

/-- Whether the view `v'` is another one `v` after its table was `Reordered` so that the namespace
that is remapped from comes first. -/
structure Rerooted (positions : List Nat) (v v' : View) : Prop where
  table : v.table.Reordered v.source positions v'.table
  keysAgree : v'.table.KeysAgree
  source_eq_zero : v'.source = 0
  source : positions[v'.source]? = some v.source
  target : positions[v'.target]? = some v.target
  locals : v'.locals = v.locals

namespace Rerooted

variable {positions : List Nat} {v v' : View} (h : Rerooted positions v v')

include h

/-- What `classRenaming` renamed in a descriptor is in the namespace that is remapped from, and
stays. -/
theorem descriptor {descriptor descriptor' : String}
    (hdescriptor : v.classRenaming.descriptor descriptor = .ok descriptor') :
    v'.classRenaming.descriptor descriptor' = .ok descriptor' := by
  -- from the source namespace to itself, a renaming only looks whether class names end
  rw [classRenaming, h.source_eq_zero]
  refine (Renaming.descriptor_eq_ok_iff (Table.className_classRenaming_source h.keysAgree)).2
    ⟨Descriptor.isClosed_of_map hdescriptor, rfl⟩

/-- A field that is `Reordered` from another one has the same `fieldEntries`. -/
theorem fieldEntries_eq {owner : String} {f f' : Field}
    (hf : f.Reordered v.classRenaming positions f') :
    v'.fieldEntries owner f' = v.fieldEntries owner f := by
  rw [fieldEntries, fieldEntries, hf.names, Names.get_pick h.source, Names.get_pick h.target,
    hf.descriptor, h.descriptor hf.descriptor]

/-- A method that is `Reordered` from another one has the same `parameterEntries`. -/
theorem parameterEntries_eq {owner name descriptor : String} {m m' : Method}
    (hm : m.Reordered v.classRenaming positions m') :
    v'.parameterEntries owner name descriptor m' = v.parameterEntries owner name descriptor m := by
  have hvalues : m'.parameters.values = m.parameters.values.map (Parameter.pick positions) := by
    have hentries := (forall₂_iff_map (P := fun _ => True) fun _ _ _ => (true_and _).symm.to_iff).1
      hm.parameters
    rw [OrderedMap.values, OrderedMap.values, hentries.2, List.map_map, List.map_map]
    rfl
  have hparameter : ∀ p : Parameter, (p.pick positions).names.get v'.target =
      p.names.get v.target := fun p => Names.get_pick h.target
  rw [parameterEntries, parameterEntries, h.locals, hvalues, List.filterMap_map]
  simp only [Function.comp_def, hparameter]
  rfl

/-- A method that is `Reordered` from another one has the same `methodEntries`. -/
theorem methodEntries_eq {owner : String} {m m' : Method}
    (hm : m.Reordered v.classRenaming positions m') :
    v'.methodEntries owner m' = v.methodEntries owner m := by
  rw [methodEntries, methodEntries, hm.names, Names.get_pick h.source, Names.get_pick h.target,
    hm.descriptor, h.descriptor hm.descriptor]
  simp only [h.parameterEntries_eq hm]

/-- A class that is `Reordered` from another one goes by the same name as an `owner`: by its new
key. -/
theorem owner_eq {e e' : String × ClassEntry} (hc : e.2.Reordered v.classRenaming positions e'.2)
    (hkey : e'.1 = newKey e'.2.names e.1) : v'.owner e'.1 e'.2 = v.owner e.1 e.2 := by
  have hname : e'.2.names.get v'.source = e.2.names.get v.source := by
    rw [hc.names, Names.get_pick h.source]
  -- without a name there, both tables have the class under its old key
  rw [owner, owner, hkey, newKey, Names.source, ← h.source_eq_zero, hname]
  cases e.2.names.get v.source <;> rfl

/-- A class that is `Reordered` from another one has the same `entriesOf` it and its members. -/
theorem entriesOf_eq {e e' : String × ClassEntry}
    (hc : e.2.Reordered v.classRenaming positions e'.2) (hkey : e'.1 = newKey e'.2.names e.1) :
    v'.entriesOf e'.1 e'.2 = v.entriesOf e.1 e.2 := by
  have hfields : ∀ owner, e.2.fields.values.mapM (v.fieldEntries owner) =
      e'.2.fields.values.mapM (v'.fieldEntries owner) := by
    intro owner
    rw [OrderedMap.values, OrderedMap.values, List.mapM_map, List.mapM_map]
    exact mapM_congr (hc.fields.imp fun _ _ hf => (h.fieldEntries_eq hf.1).symm)
  have hmethods : ∀ owner, e.2.methods.values.mapM (v.methodEntries owner) =
      e'.2.methods.values.mapM (v'.methodEntries owner) := by
    intro owner
    rw [OrderedMap.values, OrderedMap.values, List.mapM_map, List.mapM_map]
    exact mapM_congr (hc.methods.imp fun _ _ hm => (h.methodEntries_eq hm.1).symm)
  have hclass : ∀ owner, v'.classEntries owner e'.2.names = v.classEntries owner e.2.names := by
    intro owner
    rw [classEntries, classEntries, hc.names, Names.get_pick h.target]
  rw [entriesOf, entriesOf, h.owner_eq hc hkey, hfields, hmethods, hclass]

/-- The view of a table that was re-rooted gives the same `entries` in the same order. -/
theorem entries_eq : v'.entries = v.entries := by
  rw [entries, entries]
  refine congrArg (· >>= _) (mapM_congr ?_).symm
  exact h.table.classes.imp fun _ _ hc => (h.entriesOf_eq hc.1 hc.2).symm

/-- A table can be re-rooted only if its view `IsClosed`: all class names in its descriptors end. -/
theorem isClosed : v.IsClosed := by
  intro e he
  obtain ⟨e', -, hc, -⟩ := exists_of_forall₂_of_mem h.table.classes.flip he
  refine ⟨fun f hf _ _ => ?_, fun m hm _ => ?_⟩
  · obtain ⟨k, hk, rfl⟩ := List.mem_map.1 hf
    obtain ⟨k', -, hf', -⟩ := exists_of_forall₂_of_mem hc.fields.flip hk
    exact Renaming.exists_descriptor_iff.1 ⟨_, hf'.descriptor⟩
  · obtain ⟨k, hk, rfl⟩ := List.mem_map.1 hm
    obtain ⟨k', -, hm', -⟩ := exists_of_forall₂_of_mem hc.methods.flip hk
    exact Renaming.exists_descriptor_iff.1 ⟨_, hm'.descriptor⟩

end Rerooted

end View

/-! ## What the entries are about -/

/-- The `Place` of what an entry renames, in a table that is rooted at the namespace that is
remapped from. -/
def Entry.subject : Entry → Place
  | ofClass source _ => .classEntry source
  | ofField owner name descriptor _ => .field owner { name, descriptor }
  | ofMethod owner name descriptor _ => .method owner { name, descriptor }
  | ofParameter owner method descriptor index _ =>
    .parameter owner { name := method, descriptor } index

/-- Whether an entry renames a parameter. -/
def Entry.isOfParameter : Entry → Bool
  | ofParameter .. => true
  | _ => false

section Sublist

variable {α β γ : Type} {g : β → γ} {l : List α}

/-- What `filterMap` keeps of some items, seen through `g`, is a part of what there is for all of
them. -/
theorem map_filterMap_sublist {f : α → Option β} {h : α → γ}
    (hg : ∀ a ∈ l, ∀ b ∈ f a, g b = h a) : ((l.filterMap f).map g).Sublist (l.map h) := by
  induction l with
  | nil => exact List.Sublist.slnil
  | cons a l ih =>
    have ih := ih fun a' ha' => hg a' (List.mem_cons_of_mem a ha')
    cases hb : f a with
    | none =>
      rw [List.filterMap_cons_none hb]
      exact ih.cons (h a)
    | some b =>
      rw [List.filterMap_cons_some hb, List.map_cons, hg a List.mem_cons_self b hb]
      exact ih.cons_cons (h a)

/-- Lists that `f` gives for some items, after each other and seen through `g`, are a part of what
there is for all of them, if that holds for each item. -/
theorem map_flatten_sublist {f : α → Except Failure (List β)} {h : α → List γ}
    {ls : List (List β)} (hls : l.mapM f = .ok ls)
    (hg : ∀ a ∈ l, ∀ bs, f a = .ok bs → (bs.map g).Sublist (h a)) :
    (ls.flatten.map g).Sublist (l.flatMap h) := by
  rw [mapM_eq_ok_iff] at hls
  induction hls with
  | nil => exact List.Sublist.slnil
  | cons hbs _ ih =>
    rw [List.flatten_cons, List.map_append, List.flatMap_cons]
    exact (hg _ List.mem_cons_self _ hbs).append
      (ih fun a ha => hg a (List.mem_cons_of_mem _ ha))

end Sublist

namespace View

section FromSource

variable {v : View} (hsource : v.source = 0) (ht : v.table.KeysAgree)

include hsource

/-- In a view from the source namespace, an entry with a name has the one in its key, if it follows
the `agreeingRules`. -/
theorem name_eq {names : Names} {key name : String} (hkey : agreeingRules.keyed key names)
    (hname : names.get v.source = some name) : name = key :=
  hkey name (Eq.trans (congrArg names.get hsource.symm) hname)

/-- In a view from the source namespace, classes go by their keys as `owner`. -/
theorem owner_eq {key : String} {c : ClassEntry} (hc : c.Obeys agreeingRules key) :
    v.owner key c = key := by
  rw [owner]
  cases hname : c.names.get v.source with
  | none => rfl
  | some name => exact name_eq hsource hc.names hname

include ht

/-- In a view from the source namespace, `classRenaming` leaves descriptors as they are. -/
theorem descriptor_eq {descriptor descriptor' : String}
    (h : v.classRenaming.descriptor descriptor = .ok descriptor') : descriptor' = descriptor := by
  rw [classRenaming, hsource] at h
  exact ((Renaming.descriptor_eq_ok_iff (Table.className_classRenaming_source ht)).1 h).2

theorem subject_fieldEntries {owner : String} {key : MemberKey} {f : Field} {l : List Entry}
    (hf : f.Obeys agreeingRules key) (h : v.fieldEntries owner f = .ok l) :
    (l.map Entry.subject).Sublist [.field owner key] := by
  unfold fieldEntries at h
  split at h
  · next name target hname htarget =>
    obtain ⟨descriptor, hdescriptor, h⟩ := bind_eq_ok_iff.1 h
    obtain rfl := pure_eq_ok_iff.1 h
    obtain rfl := descriptor_eq hsource ht hdescriptor
    obtain rfl := name_eq hsource hf.names hname
    rw [hf.descriptor_eq]
    exact List.Sublist.refl _
  · obtain rfl := Except.ok.inj h
    exact List.nil_sublist _

theorem subject_methodEntries {owner : String} {key : MemberKey} {m : Method} {l : List Entry}
    (hm : m.Obeys agreeingRules key) (h : v.methodEntries owner m = .ok l) :
    (l.map Entry.subject).Sublist (m.places owner key) := by
  unfold methodEntries at h
  split at h
  · obtain rfl := Except.ok.inj h
    exact List.nil_sublist _
  · next name hname =>
    obtain ⟨descriptor, hdescriptor, h⟩ := bind_eq_ok_iff.1 h
    obtain rfl := pure_eq_ok_iff.1 h
    obtain rfl := descriptor_eq hsource ht hdescriptor
    obtain rfl := name_eq hsource hm.names hname
    rw [hm.descriptor_eq, List.map_append]
    -- the method itself comes first, if it has a name, and then its parameters
    change List.Sublist _ ([Place.method owner key] ++ _)
    refine List.Sublist.append ?_ ?_
    · cases m.names.get v.target with
      | none => exact List.nil_sublist _
      | some target => exact List.Sublist.refl _
    · unfold parameterEntries
      split
      · rw [OrderedMap.values, OrderedMap.keys, List.filterMap_map, List.map_map]
        refine map_filterMap_sublist fun e he entry hentry => ?_
        obtain ⟨target, -, rfl⟩ := Option.map_eq_some_iff.1 hentry
        exact congrArg (Place.parameter owner key) (hm.parameters e he).index_eq
      · exact List.nil_sublist _

theorem subject_entriesOf {key : String} {c : ClassEntry} {l : List Entry}
    (hc : c.Obeys agreeingRules key) (h : v.entriesOf key c = .ok l) :
    (l.map Entry.subject).Sublist (c.places key) := by
  rw [entriesOf, owner_eq hsource hc] at h
  obtain ⟨fields, hfields, h⟩ := bind_eq_ok_iff.1 h
  obtain ⟨methods, hmethods, h⟩ := bind_eq_ok_iff.1 h
  obtain rfl := pure_eq_ok_iff.1 h
  rw [OrderedMap.values, List.mapM_map] at hfields hmethods
  have hfields := map_flatten_sublist (h := fun e => [Place.field key e.1]) hfields
    fun e he l hl => subject_fieldEntries hsource ht (hc.fields e he) hl
  have hmethods := map_flatten_sublist hmethods
    fun e he l hl => subject_methodEntries hsource ht (hc.methods e he) hl
  rw [List.append_assoc, List.map_append, List.map_append]
  -- the class itself comes first, then its fields, then its methods
  change List.Sublist _ ([Place.classEntry key] ++ _)
  refine List.Sublist.append ?_ (List.Sublist.append ?_ hmethods)
  · unfold classEntries
    cases c.names.get v.target with
    | none => exact List.nil_sublist _
    | some target => exact List.Sublist.refl _
  · rw [← List.map_eq_flatMap, ← Function.comp_def, ← List.map_map] at hfields
    exact hfields

/-- The `entries` of a view from the source namespace are about `places` of the table, in their
order. -/
theorem subject_entries {l : List Entry} (h : v.entries = .ok l) :
    (l.map Entry.subject).Sublist v.table.places := by
  obtain ⟨ls, hls, h⟩ := bind_eq_ok_iff.1 h
  obtain rfl := pure_eq_ok_iff.1 h
  exact map_flatten_sublist hls fun e he l hl => subject_entriesOf hsource ht (ht e he) hl

/-- No two `entries` of a view from the source namespace are about the same place. -/
theorem nodup_subject {l : List Entry} (h : v.entries = .ok l) : (l.map Entry.subject).Nodup :=
  (subject_entries hsource ht h).nodup v.table.nodup_places

end FromSource

/-! ## Views without parameters -/

/-- The view of the table without its parameters. -/
def withoutParameters (v : View) : View :=
  { v with table := v.table.withoutParameters, locals := false }

section WithoutParameters

variable {v : View} {owner : String} {l : List Entry}

/-- `withoutParameters` leaves `classRenaming` as it is. -/
theorem classRenaming_withoutParameters : v.withoutParameters.classRenaming = v.classRenaming := by
  rw [classRenaming, classRenaming, Table.classRenaming, Table.classRenaming]
  exact List.foldl_map

/-- None of the `classEntries` is about a parameter. -/
theorem filter_classEntries (names : Names) :
    (v.classEntries owner names).filter (!·.isOfParameter) = v.classEntries owner names := by
  unfold classEntries
  cases names.get v.target <;> rfl

/-- All `parameterEntries` of a method are about parameters. -/
theorem filter_parameterEntries {name descriptor : String} (m : Method) :
    (v.parameterEntries owner name descriptor m).filter (!·.isOfParameter) = [] := by
  rw [List.filter_eq_nil_iff]
  intro entry hentry
  unfold parameterEntries at hentry
  split at hentry
  · obtain ⟨p, -, hp⟩ := List.mem_filterMap.1 hentry
    obtain ⟨target, -, rfl⟩ := Option.map_eq_some_iff.1 hp
    exact Bool.false_ne_true
  · cases hentry

/-- None of the `fieldEntries` is about a parameter, so they are the same `withoutParameters`. -/
theorem fieldEntries_withoutParameters {f : Field} (h : v.fieldEntries owner f = .ok l) :
    v.withoutParameters.fieldEntries owner f = .ok (l.filter (!·.isOfParameter)) := by
  have hsame : v.withoutParameters.fieldEntries owner f = v.fieldEntries owner f := by
    rw [fieldEntries, fieldEntries, classRenaming_withoutParameters]
    rfl
  rw [hsame, h]
  unfold fieldEntries at h
  split at h
  · obtain ⟨descriptor, -, h⟩ := bind_eq_ok_iff.1 h
    obtain rfl := pure_eq_ok_iff.1 h
    rfl
  · obtain rfl := Except.ok.inj h
    rfl

/-- The only one of the `methodEntries` that is not about a parameter is that of the method
itself. -/
theorem methodEntries_withoutParameters {m : Method} (h : v.methodEntries owner m = .ok l) :
    v.withoutParameters.methodEntries owner m.withoutParameters =
      .ok (l.filter (!·.isOfParameter)) := by
  have hsource :
      m.withoutParameters.names.get v.withoutParameters.source = m.names.get v.source := rfl
  rw [methodEntries, classRenaming_withoutParameters, hsource]
  rw [methodEntries] at h
  cases hname : m.names.get v.source with
  | none =>
    rw [hname] at h
    obtain rfl := Except.ok.inj h
    rfl
  | some name =>
    rw [hname] at h
    obtain ⟨descriptor, hdescriptor, h⟩ := bind_eq_ok_iff.1 h
    obtain rfl := pure_eq_ok_iff.1 h
    refine bind_eq_ok_iff.2 ⟨descriptor, hdescriptor, pure_eq_ok_iff.2 ?_⟩
    rw [List.filter_append, filter_parameterEntries]
    change (m.names.get v.target).toList.map _ ++ [] = _
    cases m.names.get v.target <;> rfl

/-- The `entriesOf` a class and its members that are not about parameters are those
`withoutParameters`. -/
theorem entriesOf_withoutParameters {key : String} {c : ClassEntry}
    (h : v.entriesOf key c = .ok l) :
    v.withoutParameters.entriesOf key c.withoutParameters = .ok (l.filter (!·.isOfParameter)) := by
  obtain ⟨fields, hfields, h⟩ := bind_eq_ok_iff.1 h
  obtain ⟨methods, hmethods, h⟩ := bind_eq_ok_iff.1 h
  obtain rfl := pure_eq_ok_iff.1 h
  -- member by member, leaving out the parameters filters the entries
  have hfields' : c.fields.values.mapM (v.withoutParameters.fieldEntries (v.owner key c)) =
      .ok (fields.map (List.filter (!·.isOfParameter))) := by
    rw [mapM_eq_ok_iff, List.forall₂_map_right_iff]
    exact (mapM_eq_ok_iff.1 hfields).imp fun _ _ => fieldEntries_withoutParameters
  have hvalues : c.withoutParameters.methods.values =
      c.methods.values.map Method.withoutParameters := by
    rw [OrderedMap.values, OrderedMap.values, List.map_map]
    exact List.map_map
  have hmethods' : c.withoutParameters.methods.values.mapM
      (v.withoutParameters.methodEntries (v.owner key c)) =
      .ok (methods.map (List.filter (!·.isOfParameter))) := by
    rw [hvalues, mapM_eq_ok_iff, List.forall₂_map_left_iff, List.forall₂_map_right_iff]
    exact (mapM_eq_ok_iff.1 hmethods).imp fun _ _ => methodEntries_withoutParameters
  refine bind_eq_ok_iff.2 ⟨_, hfields', bind_eq_ok_iff.2 ⟨_, hmethods', pure_eq_ok_iff.2 ?_⟩⟩
  rw [List.filter_append, List.filter_append, List.filter_flatten, List.filter_flatten,
    filter_classEntries]
  rfl

/-- The `entries` that are not about parameters are those of the table `withoutParameters`. -/
theorem entries_withoutParameters (h : v.entries = .ok l) :
    v.withoutParameters.entries = .ok (l.filter (!·.isOfParameter)) := by
  obtain ⟨ls, hls, h⟩ := bind_eq_ok_iff.1 h
  obtain rfl := pure_eq_ok_iff.1 h
  refine bind_eq_ok_iff.2 ⟨ls.map (List.filter (!·.isOfParameter)), ?_, pure_eq_ok_iff.2
    List.filter_flatten.symm⟩
  change List.mapM _ (v.table.classes.entries.map _) = _
  rw [mapM_eq_ok_iff, List.forall₂_map_left_iff, List.forall₂_map_right_iff]
  exact (mapM_eq_ok_iff.1 hls).imp fun _ _ => entriesOf_withoutParameters

end WithoutParameters

/-! ## The view of a switched table -/

/-- `ofTable` gives the view of a table with the namespaces at given labels. -/
theorem ofTable_eq_ok_iff {t : Table} {source target : String} {locals : Bool} {v : View} :
    ofTable t source target locals = .ok v ↔ t.namespaces.labels[v.source]? = some source ∧
      t.namespaces.labels[v.target]? = some target ∧ v.table = t ∧ v.locals = locals := by
  simp only [ofTable, bind_eq_ok_iff, pure_eq_ok_iff, Namespaces.position_eq_ok_iff]
  constructor
  · rintro ⟨i, hi, j, hj, rfl⟩
    exact ⟨hi, hj, rfl, rfl⟩
  · obtain ⟨table, i, j, _⟩ := v
    rintro ⟨hi, hj, rfl, rfl⟩
    exact ⟨i, hi, j, hj, rfl⟩

/-- The view that `ofTable` gives of a table from a namespace has the same `entries` as that of the
table after `switchSource` to this namespace: the same ones in the same order, no two of which are
about the same class, field, method or parameter. Only if the table has this source namespace
already, so that switching does not look at descriptors, may a class name that does not end keep
both from giving entries. Only then, too, have the indices of parameters to be those that they stand
under for no two entries to be about the same one. -/
theorem entries_switchSource {t s : Table} {source target : String} (locals : Bool)
    (ht : t.withoutParameters.KeysAgree) (htarget : target ∈ t.namespaces.labels)
    (h : (t.switchSource source).outcome = .ok s) :
    ∃ v v' : View, ofTable t source target locals = .ok v ∧
      ofTable s source target locals = .ok v' ∧ v'.entries = v.entries ∧
      ((∃ l, v.entries = .ok l) ↔ (source = t.namespaces.source → v.IsClosed)) ∧
      ∀ l, v.entries = .ok l →
        ((l.filter (!·.isOfParameter)).map Entry.subject).Nodup ∧
        ((source = t.namespaces.source → t.KeysAgree) → (l.map Entry.subject).Nodup) := by
  obtain ⟨i, hsource, h⟩ := Table.outcome_switchSource_eq_ok_iff.1 h
  obtain ⟨j, hj⟩ := List.mem_iff_getElem?.1 htarget
  rcases h with ⟨rfl, rfl⟩ | ⟨hne, h⟩
  · -- the table is its own switched table
    have hsame : source = s.namespaces.source :=
      Option.some.inj (hsource.symm.trans s.namespaces.getElem?_zero)
    have hview : ofTable s source target locals =
        .ok { table := s, source := 0, target := j, locals } :=
      ofTable_eq_ok_iff.2 ⟨hsource, hj, rfl, rfl⟩
    refine ⟨_, _, hview, hview, rfl, ?_, fun l hl => ⟨?_, fun hagree => ?_⟩⟩
    · exact exists_entries_iff.trans ⟨fun hclosed _ => hclosed, fun hclosed => hclosed hsame⟩
    · -- without parameters, the keys of the table agree
      exact nodup_subject rfl ht (entries_withoutParameters hl)
    · exact nodup_subject rfl (hagree hsame) hl
  · -- the two views have their namespaces at exchanged positions
    have hi : i < t.namespaces.size := (List.getElem?_eq_some_iff.1 hsource).1
    have hj' := exchange_lt hi (List.getElem?_eq_some_iff.1 hj).1
    have hswitched := Table.Switched.reordered hne h
    have hlabel : s.namespaces.labels[exchange i j]? = some target := by
      rw [hswitched.getElem?_labels hi hj', exchange_exchange, hj]
    have hrerooted : Rerooted (Table.exchanged t.namespaces.size i)
        { table := t, source := i, target := j, locals }
        { table := s, source := 0, target := exchange i j, locals } :=
      { table := h
        keysAgree := h.isAligned.keysAgree
        source_eq_zero := rfl
        source := getElem?_exchanged_zero hi
        target := (getElem?_exchanged hj').trans (congrArg some (exchange_exchange i j))
        locals := rfl }
    refine ⟨{ table := t, source := i, target := j, locals },
      { table := s, source := 0, target := exchange i j, locals },
      ofTable_eq_ok_iff.2 ⟨hsource, hj, rfl, rfl⟩,
      ofTable_eq_ok_iff.2 ⟨hswitched.getElem?_labels_zero hsource, hlabel, rfl, rfl⟩,
      hrerooted.entries_eq, ?_, fun l hl => ?_⟩
    · exact exists_entries_iff.trans ⟨fun hclosed _ => hclosed, fun _ => hrerooted.isClosed⟩
    · -- the switched table is aligned, whatever the keys were before
      have hnodup := nodup_subject rfl hrerooted.keysAgree (hrerooted.entries_eq.trans hl)
      exact ⟨((List.filter_sublist).map Entry.subject).nodup hnodup, fun _ => hnodup⟩

/-- A table in which a class, a field and a parameter miss names, and descriptors mention
classes. -/
def viewSample : Table where
  namespaces := { labels := ["intermediary", "official", "named"], valid := by decide }
  classes := .ofList [
    ("class_1", {
      names := { slots := [some "class_1", some "a", some "Main"] }
      fields := .ofList [({ name := "field_1", descriptor := "Lclass_2;" }, {
        descriptor := "Lclass_2;"
        names := { slots := [some "field_1", some "a", some "helper"] } })]
      methods := .ofList [({ name := "method_1", descriptor := "(Lclass_3;)V" }, {
        descriptor := "(Lclass_3;)V"
        names := { slots := [some "method_1", some "b", none] }
        parameters := .ofList [(.ofNat 1, {
          index := .ofNat 1
          names := { slots := [none, none, some "main"] } })] })] }),
    ("class_2", { names := { slots := [some "class_2", some "b", none] } }),
    ("class_3", { names := { slots := [some "class_3", none, some "Other"] } })]

/-- The `viewSample` gives the same entries when it is switched before. -/
theorem entries_switchSource_sample : viewSample.withoutParameters.KeysAgree ∧
    ∃ s : Table, (viewSample.switchSource "official").outcome = .ok s ∧
      ∃ v v' : View, ofTable viewSample "official" "named" true = .ok v ∧
        ofTable s "official" "named" true = .ok v' ∧ v'.entries = v.entries ∧
        ∃ l, v.entries = .ok l ∧ (l.map Entry.subject).Nodup := by
  have hagree : viewSample.withoutParameters.KeysAgree := by decide
  have hswitched : (viewSample.switchSource "official").outcome.toOption.isSome = true := by
    decide +kernel
  obtain ⟨s, h⟩ := Option.isSome_iff_exists.1 hswitched
  have h := toOption_eq_some_iff.1 h
  have htarget : "named" ∈ viewSample.namespaces.labels := by decide
  obtain ⟨v, v', hv, hv', hentries, hclosed, hnodup⟩ :=
    entries_switchSource true hagree htarget h
  have hother : "official" ≠ viewSample.namespaces.source := by decide
  obtain ⟨l, hl⟩ := hclosed.2 fun hsame => absurd hsame hother
  exact ⟨hagree, s, h, v, v', hv, hv', hentries, l, hl,
    (hnodup l hl).2 fun hsame => absurd hsame hother⟩

example : (ofTable viewSample "official" "named" true >>= entries).toOption = some [
    .ofClass "a" "Main",
    .ofField "a" "a" "Lb;" "helper",
    .ofParameter "a" "b" "(Lclass_3;)V" (.ofNat 1) "main",
    .ofClass "class_3" "Other"] := by
  decide +kernel

/-- A table in which two parameters have the same index, though they stand under different ones. -/
def repeatedSample : Table where
  namespaces := { labels := ["official", "named"], valid := Namespaces.validLabels_official_named }
  classes := .ofList [
    ("a", {
      names := { slots := [some "a", none] }
      methods := .ofList [({ name := "b", descriptor := "(II)V" }, {
        descriptor := "(II)V"
        names := { slots := [some "b", none] }
        parameters := .ofList [
          (.ofNat 0, { index := .ofNat 0, names := { slots := [none, some "x"] } }),
          (.ofNat 1, { index := .ofNat 0, names := { slots := [none, some "y"] } })] })] })]

-- both stay where they are if the table is not re-rooted
example : repeatedSample.withoutParameters.KeysAgree ∧
    (ofTable repeatedSample "official" "named" true >>= entries).toOption = some [
      .ofParameter "a" "b" "(II)V" (.ofNat 0) "x",
      .ofParameter "a" "b" "(II)V" (.ofNat 0) "y"] := by
  decide +kernel

/-- A table in which the class name in a descriptor does not end. -/
def openSample : Table where
  namespaces := { labels := ["official", "named"], valid := Namespaces.validLabels_official_named }
  classes := .ofList [
    ("a", {
      names := { slots := [some "a", some "Main"] }
      fields := .ofList [({ name := "b", descriptor := "Lx" }, {
        descriptor := "Lx"
        names := { slots := [some "b", some "count"] } })] })]

/-- The `openSample` can be switched to the source namespace it has, though its view from there
gives no entries. -/
theorem entries_openSample :
    openSample.KeysAgree ∧ openSample.namespaces.labels = ["official", "named"] ∧
    (openSample.switchSource "official").outcome = .ok openSample ∧
    ∀ l, (ofTable openSample "official" "named" false >>= entries) ≠ .ok l := by
  refine ⟨by decide, rfl, by decide +kernel, fun l h => ?_⟩
  have hnone : (ofTable openSample "official" "named" false >>= entries).toOption = none := by
    decide +kernel
  rw [toOption_eq_some_iff.2 h] at hnone
  cases hnone

end View

end Remap

end MappingTables
