import MappingTables.Proofs.Descriptor
import MappingTables.Proofs.Switch

/-!
# Reordering twice

A table that is reordered, and then reordered to some of the namespaces that it still has, is what
it would be if it was reordered to these at once. The keys that were used in between are gone, if
every entry has a name in the last source namespace; and descriptors are renamed twice where they
would be renamed once.

* `Descriptor.map_map`: why that is the same for a descriptor.
* `Table.Reordered.again_iff`: the second reordering, seen from the first table.
* `Table.reorder_reorder`: reordering composes, with the same failures.
-/

namespace MappingTables

/-! ## Names that keys are made of -/

/-- The names of a class, its `fields` and its `methods`. -/
def ClassEntry.keyedNames (c : ClassEntry) : List Names :=
  c.names :: (c.fields.entries.map (fun e => e.2.names) ++ c.methods.entries.map fun e => e.2.names)

/-- The names of all classes, fields and methods of a table, by `ClassEntry.keyedNames`. -/
def Table.keyedNames (t : Table) : List Names :=
  t.classes.entries.flatMap fun e => e.2.keyedNames

/-- `newKey` does not look at the key that an entry had if the entry has a name in the new source
namespace. -/
theorem newKey_congr {names : Names} (h : names.source ≠ none) (old old' : String) :
    newKey names old = newKey names old' := by
  obtain ⟨name, hname⟩ := Option.ne_none_iff_exists'.1 h
  simp [newKey, hname]

/-- `pick` of some of the slots that `pick` took is `pick` of these at once. -/
theorem Names.pick_pick {positions chosen composed : List Nat}
    (h : List.Forall₂ (fun i j => positions[i]? = some j) chosen composed) (names : Names) :
    (names.pick positions).pick chosen = names.pick composed := by
  apply Names.ext
  change chosen.map (names.pick positions).get = composed.map names.get
  induction h with
  | nil => rfl
  | cons hij _ ih => rw [List.map_cons, List.map_cons, Names.get_pick hij, ih]

/-- Entries in place of others that were themselves in place of others. The keys in between do not
matter if those that `k` gives at last do not depend on them. -/
theorem forall₂_keyed_iff {κ α : Type} {l m n : List (κ × α)} {R S T : α → α → Prop}
    {k : κ → α → κ} (h : List.Forall₂ (fun e e' => R e.2 e'.2 ∧ e'.1 = k e.1 e'.2) l m)
    (hstep : ∀ e ∈ l, ∀ a a', R e.2 a → (S a a' ↔ T e.2 a'))
    (hkey : ∀ e ∈ l, ∀ a, T e.2 a → ∀ old old', k old a = k old' a) :
    List.Forall₂ (fun e e' => S e.2 e'.2 ∧ e'.1 = k e.1 e'.2) m n ↔
      List.Forall₂ (fun e e' => T e.2 e'.2 ∧ e'.1 = k e.1 e'.2) l n := by
  -- entry by entry, `e` is the first one and `e'` the one in between, whose key is to be forgotten
  refine forall₂_iff_of_forall₂ h fun e he e' e'' hrel => ?_
  rw [hstep e he _ _ hrel.1]
  refine and_congr_right fun hlast => ?_
  rw [hkey e he _ hlast e'.1 e.1]

/-! ## The second reordering -/

/-- Whether two renamings of a `descriptor` after each other amount to a third one. -/
def Renaming.Composes (r r' r'' : Renaming) (descriptor : String) : Prop :=
  ∀ descriptor', r.descriptor descriptor = .ok descriptor' →
    r'.descriptor descriptor' = r''.descriptor descriptor

section Again

variable {r r' r'' : Renaming} {positions chosen composed : List Nat} {target : Nat}
  (hchosen : List.Forall₂ (fun i j => positions[i]? = some j) chosen composed)

include hchosen

/-- The field in place of one that was `Reordered` before is the one in place of the first one. -/
theorem Field.Reordered.again_iff {f f' f'' : Field} (h : f.Reordered r positions f')
    (hdescriptor : r.Composes r' r'' f.descriptor) :
    f'.Reordered r' chosen f'' ↔ f.Reordered r'' composed f'' := by
  have hdescriptor := hdescriptor _ h.descriptor
  have hnames := Names.pick_pick hchosen f.names
  rw [← h.names] at hnames
  constructor
  · rintro ⟨hd, hn, hc⟩
    exact ⟨hdescriptor ▸ hd, hnames ▸ hn, h.comment ▸ hc⟩
  · rintro ⟨hd, hn, hc⟩
    exact ⟨hdescriptor ▸ hd, hnames ▸ hn, h.comment ▸ hc⟩

/-- The method in place of one that was `Reordered` before is the one in place of the first one. -/
theorem Method.Reordered.again_iff {m m' m'' : Method} (h : m.Reordered r positions m')
    (hdescriptor : r.Composes r' r'' m.descriptor) :
    m'.Reordered r' chosen m'' ↔ m.Reordered r'' composed m'' := by
  have hdescriptor := hdescriptor _ h.descriptor
  have hnames := Names.pick_pick hchosen m.names
  rw [← h.names] at hnames
  have hparameters : List.Forall₂ (fun e e' => e' = (e.2.index, e.2.pick chosen))
      m'.parameters.entries m''.parameters.entries ↔
        List.Forall₂ (fun e e' => e' = (e.2.index, e.2.pick composed))
          m.parameters.entries m''.parameters.entries := by
    -- picking twice is picking once at the composed positions
    refine forall₂_iff_of_forall₂ h.parameters ?_
    rintro e - _ e'' rfl
    have hpick : (e.2.pick positions).pick chosen = e.2.pick composed :=
      Parameter.ext rfl (Names.pick_pick hchosen e.2.names) rfl
    rw [hpick]
    rfl
  constructor
  · rintro ⟨hd, hn, hc, hp⟩
    exact ⟨hdescriptor ▸ hd, hnames ▸ hn, h.comment ▸ hc, hparameters.1 hp⟩
  · rintro ⟨hd, hn, hc, hp⟩
    exact ⟨hdescriptor ▸ hd, hnames ▸ hn, h.comment ▸ hc, hparameters.2 hp⟩

omit hchosen

variable (htarget : composed[0]? = some target)

include htarget

/-- `newKey` gives a new name that is there, whatever the key was before. -/
theorem newKey_pick_congr {names : Names} (h : names.get target ≠ none) (old old' : String) :
    newKey (names.pick composed) old = newKey (names.pick composed) old' := by
  apply newKey_congr
  rw [Names.source, Names.get_pick htarget]
  exact h

include hchosen

/-- The class in place of one that was `Reordered` before is the one in place of the first one. -/
theorem ClassEntry.Reordered.again_iff {c c' c'' : ClassEntry} (h : c.Reordered r positions c')
    (hnamed : ∀ names ∈ c.keyedNames, names.get target ≠ none)
    (hdescriptors : ∀ descriptor ∈ c.descriptors, r.Composes r' r'' descriptor) :
    c'.Reordered r' chosen c'' ↔ c.Reordered r'' composed c'' := by
  have hnames := Names.pick_pick hchosen c.names
  rw [← h.names] at hnames
  -- what holds of all names and descriptors of the class holds of those of each member
  obtain ⟨-, hnamed⟩ := List.forall_mem_cons.1 hnamed
  obtain ⟨hnamedFields, hnamedMethods⟩ := List.forall_mem_append.1 hnamed
  obtain ⟨hinFields, hinMethods⟩ := List.forall_mem_append.1 hdescriptors
  have hfields := forall₂_keyed_iff (n := c''.fields.entries) h.fields
    (k := fun old f => { name := newKey f.names old.name, descriptor := f.descriptor })
    (fun e he _ _ hf => hf.again_iff hchosen (hinFields _ (List.mem_map_of_mem he)))
    (fun e he f hf old old' => by
      rw [hf.names, newKey_pick_congr htarget (hnamedFields _ (List.mem_map_of_mem he))])
  have hmethods := forall₂_keyed_iff (n := c''.methods.entries) h.methods
    (k := fun old m => { name := newKey m.names old.name, descriptor := m.descriptor })
    (fun e he _ _ hm => hm.again_iff hchosen (hinMethods _ (List.mem_map_of_mem he)))
    (fun e he m hm old old' => by
      rw [hm.names, newKey_pick_congr htarget (hnamedMethods _ (List.mem_map_of_mem he))])
  constructor
  · rintro ⟨hn, hc, hf, hm⟩
    exact ⟨hnames ▸ hn, h.comment ▸ hc, hfields.1 hf, hmethods.1 hm⟩
  · rintro ⟨hn, hc, hf, hm⟩
    exact ⟨hnames ▸ hn, h.comment ▸ hc, hfields.2 hf, hmethods.2 hm⟩

end Again

namespace Table

variable {t t' t'' : Table} {positions chosen composed : List Nat} {source target i : Nat}

/-- The table in place of one that was `Reordered` before is the one in place of the first one. -/
theorem Reordered.again_iff (h : t.Reordered source positions t')
    (hchosen : List.Forall₂ (fun i j => positions[i]? = some j) chosen composed)
    (htarget : composed[0]? = some target)
    (hnamed : ∀ names ∈ t.keyedNames, names.get target ≠ none)
    (hdescriptors : ∀ descriptor ∈ t.descriptors,
      (t.classRenaming 0 source).Composes (t'.classRenaming 0 i) (t.classRenaming 0 target)
        descriptor) :
    t'.Reordered i chosen t'' ↔ t.Reordered target composed t'' := by
  -- a label at a chosen position is that at the position that was picked for it
  have hlabels : chosen.map t'.namespaces.label = composed.map t.namespaces.label := by
    clear htarget
    induction hchosen with
    | nil => rfl
    | cons hij _ ih =>
      rw [List.map_cons, List.map_cons, ih, Namespaces.label, h.namespaces]
      simp [hij]
  have hclasses := forall₂_keyed_iff (n := t''.classes.entries) h.classes
    (k := fun old c => newKey c.names old)
    (fun e he _ _ hc => hc.again_iff hchosen htarget
      (fun names hmem => hnamed names (List.mem_flatMap.2 ⟨e, he, hmem⟩))
      (fun descriptor hmem => hdescriptors descriptor (List.mem_flatMap.2 ⟨e, he, hmem⟩)))
    (fun e he c hc old old' => by
      have hmem : e.2.names ∈ t.keyedNames := List.mem_flatMap.2 ⟨e, he, List.mem_cons_self⟩
      rw [hc.names, newKey_pick_congr htarget (hnamed _ hmem)])
  constructor
  · rintro ⟨hn, hp, hc⟩
    exact ⟨hlabels ▸ hn, h.properties ▸ hp, hclasses.1 hc⟩
  · rintro ⟨hn, hp, hc⟩
    exact ⟨hlabels ▸ hn, h.properties ▸ hp, hclasses.2 hc⟩

/-- In a descriptor, the `classRenaming` and then that of the table that is `Reordered` amount to
one, as `Composes` says. All class names in it have to be keys, or no names in the namespace in
between. -/
theorem Reordered.composes {descriptor : String} (h : t.Reordered source positions t')
    (hsource : positions[0]? = some source) (htarget : positions[i]? = some target)
    (hnamed : ∀ e ∈ t.classes.entries, e.2.names.get target ≠ none)
    (hsemicolon : ∀ e ∈ t.classes.entries, ∀ name ∈ e.2.names.get source, ';' ∉ name.toList)
    (hmentions : ∀ name ∈ Descriptor.classNames descriptor, name ∈ t.classes.keys ∨
      ∀ e ∈ t.classes.entries, e.2.names.get source ≠ some name) :
    (t.classRenaming 0 source).Composes (t'.classRenaming 0 i) (t.classRenaming 0 target)
      descriptor := by
  intro descriptor' hdescriptor
  -- a name with a semicolon would end too early in the descriptor in between
  have hplain : ∀ name ∈ Descriptor.classNames descriptor,
      ';' ∉ ((t.classRenaming 0 source).className name).toList := fun name hname =>
    not_mem_className hsemicolon (Descriptor.not_mem_of_mem_classNames hname)
  rw [Renaming.descriptor, Descriptor.map_map hplain hdescriptor]
  -- each class name in the descriptor is renamed to the same, in one step or in two
  refine Descriptor.map_congr fun name hname => ?_
  by_cases hkey : name ∈ t.classes.keys
  · obtain ⟨c, hc⟩ := OrderedMap.mem_keys_iff.1 hkey
    obtain ⟨c', hc', hnames⟩ := h.exists_class hsource hc
    obtain ⟨new, hnew⟩ : ∃ new, c.names.get target = some new :=
      Option.ne_none_iff_exists'.1 (hnamed _ hc)
    rw [className_classRenaming hc', hnames, Names.get_pick htarget]
    simp only [className_classRenaming hc, hnew, Option.getD_some]
  · -- a name that is no key has to stay both times
    have hfree := h.not_mem_keys hsource hkey ((hmentions name hname).resolve_left hkey)
    rw [className_classRenaming_of_not_mem hkey, className_classRenaming_of_not_mem hkey,
      className_classRenaming_of_not_mem hfree]

/-- Reordering composes. A table on which `reorder` was used, and then again for some of the
namespaces that were `requested`, is the table that it gives for these at once, with all its entries
in their order; and the second `reorder` fails exactly if the one at once does. Every class, field
and method has to have a name in the last source namespace. Class names in the source namespace in
between have to be without semicolons, and a class name in a descriptor that is no key must not be a
name in it. -/
theorem reorder_reorder {requested requested' : List String}
    (h : (t.reorder requested).outcome = .ok t') (hsubset : requested' ⊆ requested)
    (hnamed : ∀ label ∈ requested'.head?, ∀ names ∈ t.keyedNames,
      t.namespaces.nameIn label names ≠ none)
    (hsemicolon : ∀ label ∈ requested.head?, ∀ e ∈ t.classes.entries,
      ∀ name ∈ t.namespaces.nameIn label e.2.names, ';' ∉ name.toList)
    (hmentions : ∀ label ∈ requested.head?, ∀ descriptor ∈ t.descriptors,
      ∀ name ∈ Descriptor.classNames descriptor, name ∈ t.classes.keys ∨
        ∀ e ∈ t.classes.entries, t.namespaces.nameIn label e.2.names ≠ some name) :
    (t'.reorder requested').outcome.toOption = (t.reorder requested').outcome.toOption := by
  obtain ⟨-, source, rest, hpositions, hreordered⟩ := outcome_reorder_eq_ok_iff.1 h
  have hlabels : t'.namespaces.labels = requested :=
    hreordered.namespaces.trans (Namespaces.map_label_of_positions hpositions)
  obtain ⟨first, _, hfirst, -, rfl⟩ :=
    List.forall₂_cons_right_iff.1 (Namespaces.positions_eq_ok_iff.1 hpositions)
  have hsourceName := Namespaces.nameIn_eq_get hfirst
  obtain ⟨chosen, composed, hchosen, hcomposed, hrel⟩ :=
    Namespaces.exists_positions_of_subset hpositions hlabels hsubset
  refine toOption_congr fun t'' => ?_
  rw [outcome_reorder_eq_ok_iff, outcome_reorder_eq_ok_iff, hchosen, hcomposed]
  refine and_congr_right fun _ => ?_
  cases hrel with
  | nil =>
    -- without a label both fail
    simp
  | @cons i target chosen composed hi hrest =>
    obtain ⟨last, _, hlast, -, rfl⟩ :=
      List.forall₂_cons_right_iff.1 (Namespaces.positions_eq_ok_iff.1 hcomposed)
    have htargetName := Namespaces.nameIn_eq_get hlast
    have hnamed : ∀ names ∈ t.keyedNames, names.get target ≠ none := fun names hmem =>
      htargetName names ▸ hnamed last rfl names hmem
    have hagain :
        t'.Reordered i (i :: chosen) t'' ↔ t.Reordered target (target :: composed) t'' := by
      refine hreordered.again_iff (.cons hi hrest) rfl hnamed fun descriptor hmem => ?_
      refine hreordered.composes rfl hi (fun e he => ?_) (fun e he => ?_) fun name hname => ?_
      · exact hnamed _ (List.mem_flatMap.2 ⟨e, he, List.mem_cons_self⟩)
      · exact hsourceName e.2.names ▸ hsemicolon first rfl e he
      · simpa only [hsourceName] using hmentions first rfl descriptor hmem name hname
    simpa using hagain

/-- A table in which a class and a field have no name in the second namespace. The descriptor of the
method mentions a class that is no key. -/
def threeNamespaces : Table where
  namespaces := { labels := ["official", "searge", "named"], valid := by decide }
  properties := .ofList [("escaped-names", none)]
  classes := .ofList [
    ("a", {
      names := { slots := [some "a", some "C_1", some "Main"] }
      fields := .ofList [({ name := "x", descriptor := "Lb;" }, {
        descriptor := "Lb;"
        names := { slots := [some "x", none, some "helper"] } })]
      methods := .ofList [({ name := "y", descriptor := "(La;)Ljava/lang/Object;" }, {
        descriptor := "(La;)Ljava/lang/Object;"
        names := { slots := [some "y", some "method_1", some "run"] }
        parameters := .ofList [(.ofNat 1, {
          index := .ofNat 1
          names := { slots := [none, some "param_1", none] } })] })] }),
    ("b", { names := { slots := [some "b", none, some "Helper"] } })]

/-- The table with `threeNamespaces` is the same by its names in the third one whether or not it was
reordered to the second one before, in which a class keeps the key that it has in the first one. -/
theorem reorder_reorder_sample :
    ∃ t' t'', (threeNamespaces.reorder ["searge", "official", "named"]).outcome = .ok t' ∧
      t'.classes.keys = ["C_1", "b"] ∧
      (t'.reorder ["named", "official"]).outcome = .ok t'' ∧
      (threeNamespaces.reorder ["named", "official"]).outcome = .ok t'' := by
  have hfirst : (threeNamespaces.reorder ["searge", "official", "named"]).outcome.toOption.any
      (fun t => t.classes.keys = ["C_1", "b"]) = true := by decide +kernel
  obtain ⟨t', h, hkeys⟩ := (Option.any_eq_true ..).1 hfirst
  obtain ⟨t'', hlast⟩ := Option.isSome_iff_exists.1
    (show (threeNamespaces.reorder ["named", "official"]).outcome.toOption.isSome = true by
      decide +kernel)
  have h := toOption_eq_some_iff.1 h
  have htwice : (t'.reorder ["named", "official"]).outcome.toOption =
      (threeNamespaces.reorder ["named", "official"]).outcome.toOption :=
    reorder_reorder h (by decide) (by decide +kernel) (by decide +kernel) (by decide +kernel)
  rw [hlast] at htwice
  exact ⟨t', t'', h, of_decide_eq_true hkeys, toOption_eq_some_iff.1 htwice,
    toOption_eq_some_iff.1 hlast⟩

end Table

end MappingTables
