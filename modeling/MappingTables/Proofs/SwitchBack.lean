import MappingTables.Proofs.Descriptor
import MappingTables.Proofs.Switch

/-!
# Switching there and back

* `Table.Reordered.back`: what takes a switched table back.
* `Table.switchSource_switchSource`: switching to another source namespace and back gives the table
  itself.
-/

namespace MappingTables

/-- What is asked of the entries of a table that knows all its source names: the one in the key, and
as many slots as `size` says. -/
def keyedRules (size : Nat) : EntryRules where
  keyed key names := names.source = some key ∧ names.size = size
  parameter names := names.size = size

/-- Whether a table follows the `keyedRules`: every class, field and method has the source name and
the descriptor in its key, every entry has a slot for each namespace, and parameters are keyed by
their indices. -/
def Table.IsKeyed (t : Table) : Prop :=
  t.Obeys (keyedRules t.namespaces.size)

instance (size : Nat) (key : String) (names : Names) :
    Decidable ((keyedRules size).keyed key names) :=
  inferInstanceAs (Decidable (_ ∧ _))

instance (size : Nat) (descriptor : String) : Decidable ((keyedRules size).descriptor descriptor) :=
  inferInstanceAs (Decidable True)

instance (size : Nat) (names : Names) : Decidable ((keyedRules size).parameter names) :=
  inferInstanceAs (Decidable (_ = _))

instance (t : Table) : Decidable t.IsKeyed :=
  inferInstanceAs (Decidable (t.Obeys _))

/-! ## Taking a switched table back -/

/-- Slots that are `exchanged` twice are as before. -/
theorem Names.pick_pick_exchanged {names : Names} {position : Nat}
    (hposition : position < names.size) :
    (names.pick (Table.exchanged names.size position)).pick
      (Table.exchanged names.size position) = names := by
  refine Names.ext (List.ext_getElem ?_ fun i hi hi' => ?_)
  · exact (Names.size_pick _ _).trans (length_exchanged _ _)
  · have hi' : i < names.size := hi'
    have hexchange := exchange_lt hposition hi'
    rw [← Option.some.injEq, ← List.getElem?_eq_getElem hi, Names.pick, List.getElem?_map,
      getElem?_exchanged hi', Option.map_some, Names.get_pick (getElem?_exchanged hexchange),
      exchange_exchange, Names.get, List.getElem?_eq_getElem hi', Option.join_some]
    rfl

/-- Whether a renaming `r` is undone by another one `r'` in the descriptors of members. -/
def Renaming.IsUndoneBy (r r' : Renaming) (descriptor : String) : Prop :=
  ∀ descriptor', r.descriptor descriptor = .ok descriptor' →
    r'.descriptor descriptor' = .ok descriptor

section Members

variable {r r' : Renaming} {size position : Nat}

/-- What is asked of the entries of a table that can be taken back: `IsUndoneBy` holds of their
descriptors. -/
def undoneRules (r r' : Renaming) (size : Nat) : EntryRules :=
  { keyedRules size with descriptor := r.IsUndoneBy r' }

/-- A field that was `Reordered` is taken back. -/
theorem Field.Reordered.back {f f' : Field} {key : MemberKey} (hposition : position < size)
    (hf : f.Obeys (undoneRules r r' size) key)
    (h : f.Reordered r (Table.exchanged size position) f') :
    f'.Reordered r' (Table.exchanged size position) f := by
  obtain ⟨-, rfl⟩ := hf.names
  have hdescriptor := hf.descriptor
  rw [← hf.descriptor_eq] at hdescriptor
  refine ⟨hdescriptor _ h.descriptor, ?_, h.comment.symm⟩
  rw [h.names, Names.pick_pick_exchanged hposition]

/-- A method that was `Reordered` is taken back. -/
theorem Method.Reordered.back {m m' : Method} {key : MemberKey} (hposition : position < size)
    (hm : m.Obeys (undoneRules r r' size) key)
    (h : m.Reordered r (Table.exchanged size position) m') :
    m'.Reordered r' (Table.exchanged size position) m := by
  have hdescriptor := hm.descriptor
  rw [← hm.descriptor_eq] at hdescriptor
  refine ⟨hdescriptor _ h.descriptor, ?_, h.comment.symm, ?_⟩
  · obtain ⟨-, rfl⟩ := hm.names
    rw [h.names, Names.pick_pick_exchanged hposition]
  · refine (forall₂_of_mem h.parameters ?_).flip
    rintro ⟨index, p⟩ hmem _ rfl
    have hp := hm.parameters _ hmem
    obtain rfl : p.index = index := hp.index_eq
    obtain rfl : p.names.size = size := hp.names
    refine Prod.ext rfl (Parameter.ext rfl ?_ rfl)
    exact (Names.pick_pick_exchanged hposition).symm

/-- The key of a member that was reordered is taken back by `newKey`. -/
theorem key_back {names : Names} {key : MemberKey} {descriptor old : String}
    (hnames : names.source = some key.name) (hdescriptor : descriptor = key.descriptor) :
    key = { name := newKey names old, descriptor } := by
  rw [newKey, hnames]
  exact MemberKey.ext rfl hdescriptor.symm

/-- A class that was `Reordered` is taken back. -/
theorem ClassEntry.Reordered.back {c c' : ClassEntry} {key : String} (hposition : position < size)
    (hc : c.Obeys (undoneRules r r' size) key)
    (h : c.Reordered r (Table.exchanged size position) c') :
    c'.Reordered r' (Table.exchanged size position) c := by
  refine ⟨?_, h.comment.symm, (forall₂_of_mem h.fields fun e he e' hrel => ⟨?_, ?_⟩).flip,
    (forall₂_of_mem h.methods fun e he e' hrel => ⟨?_, ?_⟩).flip⟩
  · obtain ⟨-, rfl⟩ := hc.names
    rw [h.names, Names.pick_pick_exchanged hposition]
  · exact hrel.1.back hposition (hc.fields e he)
  · exact key_back (hc.fields e he).names.1 (hc.fields e he).descriptor_eq
  · exact hrel.1.back hposition (hc.methods e he)
  · exact key_back (hc.methods e he).names.1 (hc.methods e he).descriptor_eq

end Members

namespace Table

/-- A table that was `Reordered` to another source namespace is taken back, if the descriptors
are. -/
theorem Reordered.back {t t' : Table} {position : Nat} (hposition : position < t.namespaces.size)
    (ht : t.Obeys (undoneRules (t.classRenaming 0 position) (t'.classRenaming 0 position)
      t.namespaces.size))
    (h : t.Reordered position (exchanged t.namespaces.size position) t') :
    t'.Reordered position (exchanged t.namespaces.size position) t := by
  have hsize : t'.namespaces.size = t.namespaces.size := by
    rw [Namespaces.size, h.namespaces, List.length_map, length_exchanged]
  refine ⟨?_, h.properties.symm, (forall₂_of_mem h.classes fun e he e' hrel => ⟨?_, ?_⟩).flip⟩
  · refine List.ext_getElem ?_ fun i hi hi' => ?_
    -- exchanging the same two positions again gives the labels from before
    · rw [List.length_map, length_exchanged]
      rfl
    · have hi : i < t.namespaces.size := hi
      have hexchange := exchange_lt hposition hi
      have hlabel : t'.namespaces.label (exchange position i) = t.namespaces.label i := by
        rw [Namespaces.label, h.namespaces, List.getD_eq_getElem?_getD, List.getElem?_map,
          getElem?_exchanged hexchange, exchange_exchange]
        rfl
      rw [← Option.some.injEq, ← List.getElem?_eq_getElem, ← List.getElem?_eq_getElem,
        List.getElem?_map, getElem?_exchanged hi, Namespaces.getElem?_labels hi,
        Option.map_some, hlabel]
  · exact hrel.1.back hposition (ht e he)
  · rw [newKey, (ht e he).names.1]
    rfl

section Undone

variable {t t' : Table} {position : Nat} (hposition : position < t.namespaces.size)
  (h : t.Reordered position (exchanged t.namespaces.size position) t')

include hposition h

/-- The `classRenaming` `IsUndoneBy` that of the switched table in a descriptor. All class names in
the descriptor have to be keys, or no names in the new namespace. -/
theorem Reordered.isUndoneBy {descriptor : String} (hkeyed : t.IsKeyed)
    (hsemicolon : ∀ e ∈ t.classes.entries, ∀ name ∈ e.2.names.get position, ';' ∉ name.toList)
    (hmentions : ∀ name ∈ Descriptor.classNames descriptor, name ∈ t.classes.keys ∨
      ∀ e ∈ t.classes.entries, e.2.names.get position ≠ some name) :
    (t.classRenaming 0 position).IsUndoneBy (t'.classRenaming 0 position) descriptor := by
  have hsource := getElem?_exchanged_zero hposition
  -- it is enough that each class name in the descriptor is taken back
  refine fun descriptor' => Descriptor.map_map_of_undone fun name hname =>
    ⟨not_mem_className hsemicolon (Descriptor.not_mem_of_mem_classNames hname), ?_⟩
  by_cases hkey : name ∈ t.classes.keys
  · -- the class in its place has its source name at the position
    obtain ⟨c, hc⟩ := OrderedMap.mem_keys_iff.1 hkey
    obtain ⟨c', hc', hnames⟩ := h.exists_class hsource hc
    have hback : c'.names.get position = c.names.source := by
      rw [hnames, Names.get_pick (getElem?_exchanged hposition), exchange]
      grind [Names.source]
    rw [className_classRenaming hc', hback, (hkeyed _ hc).names.1]
    rfl
  · rw [className_classRenaming_of_not_mem hkey]
    exact className_classRenaming_of_not_mem
      (h.not_mem_keys hsource hkey ((hmentions name hname).resolve_left hkey))

end Undone

/-- `switchSource` to another source namespace and back gives the table itself, with all its entries
in their order. Class names in the other namespace have to be without semicolons, and a class name
in a descriptor that is no key must not be a name in the other namespace. -/
theorem switchSource_switchSource {t t' : Table} {label : String} (hkeyed : t.IsKeyed)
    (hsemicolon : ∀ e ∈ t.classes.entries, ∀ name ∈ t.namespaces.nameIn label e.2.names,
      ';' ∉ name.toList)
    (hmentions : t.Obeys {
      descriptor := fun descriptor => ∀ name ∈ Descriptor.classNames descriptor,
        name ∈ t.classes.keys ∨
          ∀ e ∈ t.classes.entries, t.namespaces.nameIn label e.2.names ≠ some name })
    (h : (t.switchSource label).outcome = .ok t') :
    (t'.switchSource t.namespaces.source).outcome = .ok t := by
  obtain ⟨position, hlabel, h⟩ := outcome_switchSource_eq_ok_iff.1 h
  have hposition : position < t.namespaces.size := (List.getElem?_eq_some_iff.1 hlabel).1
  have hsource := t.namespaces.getElem?_zero
  rcases h with ⟨rfl, rfl⟩ | ⟨hne, h⟩
  · exact outcome_switchSource_eq_ok_iff.2 ⟨0, hsource, .inl ⟨rfl, rfl⟩⟩
  · -- exchanging the same two positions again, with the classes renamed the other way round
    have hname : ∀ names, t.namespaces.nameIn label names = names.get position :=
      Namespaces.nameIn_eq_get hlabel
    simp only [hname] at hsemicolon hmentions
    have hundone : t.Obeys (undoneRules (t.classRenaming 0 position) (t'.classRenaming 0 position)
        t.namespaces.size) := (hkeyed.and hmentions).mono {
      keyed := fun _ _ hnames => hnames.1
      descriptor := fun _ hdescriptor =>
        h.isUndoneBy hposition hkeyed hsemicolon hdescriptor.2
      parameter := fun _ hnames => hnames.1 }
    have hsize : t'.namespaces.size = t.namespaces.size := by
      rw [Namespaces.size, h.namespaces, List.length_map, length_exchanged]
    refine outcome_switchSource_eq_ok_iff.2 ⟨position, ?_, .inr ⟨hne, ?_⟩⟩
    · rw [(Switched.reordered hne h).getElem?_labels hposition hposition, exchange, if_neg hne,
        if_pos rfl, hsource]
    · rw [hsize]
      exact h.back hposition hundone

/-- A table in which a class has no name in the second namespace, and one class is a key of none. -/
def switchSample : Table where
  namespaces := { labels := ["official", "searge"], valid := by decide }
  classes := .ofList [
    ("a", {
      names := { slots := [some "a", some "C_1"] }
      fields := .ofList [({ name := "x", descriptor := "La;" }, {
        descriptor := "La;"
        names := { slots := [some "x", some "field_1"] } })]
      methods := .ofList [({ name := "y", descriptor := "(Lb;)Ljava/lang/Object;" }, {
        descriptor := "(Lb;)Ljava/lang/Object;"
        names := { slots := [some "y", none] }
        parameters := .ofList [(.ofNat 1, {
          index := .ofNat 1
          names := { slots := [none, some "param_1"] } })] })] }),
    ("b", { names := { slots := [some "b", none] } })]

/-- The `switchSample` can be switched to its second namespace and back. -/
theorem switchSource_switchSource_sample : switchSample.IsKeyed ∧
    ∃ switched : Table, (switchSample.switchSource "searge").outcome = .ok switched ∧
      switched.classes.keys = ["C_1", "b"] ∧
      (switched.switchSource "official").outcome = .ok switchSample := by
  have hkeyed : switchSample.IsKeyed := by decide
  have hswitched : (switchSample.switchSource "searge").outcome.toOption.any
      (fun t => t.classes.keys = ["C_1", "b"]) = true := by decide +kernel
  obtain ⟨switched, h, hkeys⟩ := (Option.any_eq_true ..).1 hswitched
  have h := toOption_eq_some_iff.1 h
  refine ⟨hkeyed, switched, h, of_decide_eq_true hkeys, ?_⟩
  exact switchSource_switchSource hkeyed (by decide +kernel) (by decide +kernel) h

end Table

end MappingTables
