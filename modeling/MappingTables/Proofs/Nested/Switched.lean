import MappingTables.Proofs.Descriptor
import MappingTables.Proofs.NameRules
import MappingTables.Proofs.Nested.Storable

/-!
# Storing switched tables

When a table is switched to another source namespace, the names of classes get into descriptors.
Names can be escaped in a file, but descriptors are written as they are.

* `Table.MentionedNames`: what the names are like that get into descriptors.
* `Table.Reordered.avoids_descriptors_iff`: the characters that get into descriptors.
* `exists_read_write_switchSource_iff`: whether a table that was read and switched survives being
  written and read.
* `read_write_switchSource_tab`: a table that does not.
-/

namespace MappingTables

open Format Text

/-! ## Names in descriptors -/

/-- Whether the names, in the namespace with a `label`, of all classes that descriptors mention have
a property `P`. -/
def Table.MentionedNames (t : Table) (label : String) (P : String → Prop) : Prop :=
  ∀ descriptor ∈ t.descriptors, ∀ name ∈ Descriptor.classNames descriptor,
    ∀ c ∈ t.classes.get? name, ∀ new ∈ t.namespaces.nameIn label c.names, P new

instance (t : Table) (label : String) (P : String → Prop) [DecidablePred P] :
    Decidable (t.MentionedNames label P) :=
  inferInstanceAs
    (Decidable (∀ descriptor ∈ t.descriptors, ∀ name ∈ Descriptor.classNames descriptor,
    ∀ c ∈ t.classes.get? name, ∀ new ∈ t.namespaces.nameIn label c.names, P new))

section Avoids

variable {chars : List Char} {t t' : Table} {position : Nat}

/-- One of the `classNames` in a descriptor avoids what the descriptor avoids. -/
theorem avoids_of_mem_classNames {descriptor name : String} (h : Avoids chars descriptor)
    (hname : name ∈ Descriptor.classNames descriptor) : Avoids chars name :=
  fun c hc hmem => h c hc (Descriptor.mem_of_mem_classNames hname hmem)

/-- `className` gives a class its name at the `position`, if there is a class with one. -/
theorem avoids_className_iff {name : String} (h : Avoids chars name) :
    Avoids chars ((t.classRenaming 0 position).className name) ↔
      ∀ c ∈ t.classes.get? name, ∀ new ∈ c.names.get position, Avoids chars new := by
  rw [Renaming.className, Table.get?_classRenaming]
  cases t.classes.get? name with
  | none => simpa using h
  | some c =>
    simp only [Option.bind_some, Option.mem_def, Option.some.injEq, forall_eq']
    cases c.names.get position with
    | none => simpa using h
    | some new => simp

/-- What `descriptor` makes of a descriptor with the new class names avoids characters that it
avoided before exactly if these names do. -/
theorem avoids_descriptor_iff {descriptor descriptor' : String} (h : Avoids chars descriptor)
    (hdescriptor : (t.classRenaming 0 position).descriptor descriptor = .ok descriptor') :
    Avoids chars descriptor' ↔ ∀ name ∈ Descriptor.classNames descriptor,
      ∀ c ∈ t.classes.get? name, ∀ new ∈ c.names.get position, Avoids chars new := by
  have hnames : Avoids chars descriptor' ↔ ∀ name ∈ Descriptor.classNames descriptor,
      Avoids chars ((t.classRenaming 0 position).className name) := by
    constructor
    · intro havoids name hname c hc hmem
      exact havoids c hc ((Descriptor.mem_map_iff (h c hc) hdescriptor).2 ⟨name, hname, hmem⟩)
    · intro havoids c hc hmem
      obtain ⟨name, hname, hmem⟩ := (Descriptor.mem_map_iff (h c hc) hdescriptor).1 hmem
      exact havoids name hname c hc hmem
  rw [hnames]
  exact forall₂_congr fun name hname => avoids_className_iff (avoids_of_mem_classNames h hname)

/-- The descriptors of a table that is `Reordered` avoid characters that those of the table avoid
exactly if the `MentionedNames` do, which get into them. -/
theorem Table.Reordered.avoids_descriptors_iff {label : String} {positions : List Nat}
    (h : t.Reordered position positions t')
    (hlabel : t.namespaces.labels[position]? = some label)
    (havoids : ∀ descriptor ∈ t.descriptors, Avoids chars descriptor) :
    (∀ descriptor ∈ t'.descriptors, Avoids chars descriptor) ↔
      t.MentionedNames label (Avoids chars) := by
  have hget : ∀ names, t.namespaces.nameIn label names = names.get position :=
    Namespaces.nameIn_eq_get hlabel
  simp only [MentionedNames, hget]
  constructor
  · intro hnew descriptor hmem
    obtain ⟨descriptor', hmem', hrenamed⟩ := exists_of_forall₂_of_mem h.descriptors.flip hmem
    exact (avoids_descriptor_iff (havoids descriptor hmem) hrenamed).1 (hnew descriptor' hmem')
  · intro hmentioned descriptor' hmem'
    obtain ⟨descriptor, hmem, hrenamed⟩ := exists_of_forall₂_of_mem h.descriptors hmem'
    exact (avoids_descriptor_iff (havoids descriptor hmem) hrenamed).2 (hmentioned descriptor hmem)

/-- The `MentionedNames` in the source namespace stand in the descriptors of a table that
`IsAligned`. -/
theorem Table.IsAligned.mentionedNames (h : t.IsAligned)
    (havoids : ∀ descriptor ∈ t.descriptors, Avoids chars descriptor) :
    t.MentionedNames t.namespaces.source (Avoids chars) := by
  intro descriptor hmem name hname c hc new hnew
  have hclass := (h (name, c) (OrderedMap.get?_eq_some_iff.1 hc)).names
  rw [Namespaces.nameIn_eq_get t.namespaces.getElem?_zero] at hnew
  rw [hclass.2 new hnew]
  exact avoids_of_mem_classNames (havoids descriptor hmem) hname

end Avoids

namespace Format.Nested

/-! ## Tables after switching -/

/-- What is asked of the entries of a table that can be written, but for their descriptors: what the
`entryRules` ask. -/
def bareRules (size : Nat) (escaped : Bool) : EntryRules where
  keyed := (entryRules ['\t', '\n', '\r'] size escaped).keyed
  parameter := (entryRules ['\t', '\n', '\r'] size escaped).parameter

theorem not_endsInReturn_of_avoids {s : String} (h : Avoids ['\t', '\n', '\r'] s) :
    ¬EndsInReturn s :=
  withoutReturn_eq_self_iff.1 (withoutReturn_of_avoids (h.mono (by decide)))

/-- A name that avoids carriage returns does not end with one: `EndsInReturn` is false of it. -/
theorem not_endsInReturn_of_fitNames {names : Names} {escaped : Bool}
    (h : FitNames ['\t', '\n', '\r'] escaped names) (hescaped : escaped = false) :
    ∀ name ∈ names.last?, ¬EndsInReturn name := by
  intro name hname
  have hmem : some name ∈ names.slots := List.mem_of_getLast? (Option.join_eq_some_iff.1 hname)
  exact not_endsInReturn_of_avoids ((h name hmem).2 hescaped)

section Reordered

variable {t t' : Table} {label : String} {position : Nat} (hfits : Fits ['\t', '\n', '\r'] t)
  (hnamed : t.IsNamed label) (hlabel : t.namespaces.labels[position]? = some label)
  (hne : position ≠ 0)
  (h : t.Reordered position (Table.exchanged t.namespaces.size position) t')

include hfits hnamed hlabel h

/-- All entries can be written after switching, but for their descriptors: they follow the
`bareRules`. -/
theorem obeys_of_reordered :
    t'.Obeys (bareRules t.namespaces.size (t.properties.contains escapedNames)) := by
  have hposition : position < t.namespaces.size := (List.getElem?_eq_some_iff.1 hlabel).1
  have hpicked : ∀ names : Names,
      FitNames ['\t', '\n', '\r'] (t.properties.contains escapedNames) names →
        (bareRules t.namespaces.size (t.properties.contains escapedNames)).parameter
          (names.pick (Table.exchanged t.namespaces.size position)) := fun names hfit =>
    ⟨(Names.size_pick names _).trans (length_exchanged _ _), Names.All.pick hfit _⟩
  refine h.obeys (fun key names hnames => ?_) (fun _ => trivial) (fun names hnames => ?_)
    (hfits.entries.and hnamed).namesObey
  · obtain ⟨⟨-, -, hfit⟩, hname⟩ := hnames
    -- the name in the namespace comes first, and gets into the key
    obtain ⟨new, hnew⟩ := Option.ne_none_iff_exists'.1 hname
    rw [Namespaces.nameIn_eq_get hlabel] at hnew
    have hsource : (names.pick (Table.exchanged t.namespaces.size position)).source = some new :=
      (Names.get_pick (getElem?_exchanged_zero hposition)).trans hnew
    refine ⟨?_, hpicked names hfit⟩
    rw [newKey, hsource]
    rfl
  · exact hpicked names hnames.1.2

include hne

/-- The names, labels and properties can stand in lines after switching: the table is `Legible`. -/
theorem legible_of_reordered : Legible t' := by
  have hposition : position < t.namespaces.size := (List.getElem?_eq_some_iff.1 hlabel).1
  have hswitched : t.Switched position t' := .reordered hne h
  -- less is asked of names here than holds of those that were read
  have hfit : ∀ names, FitNames ['\t', '\n', '\r'] (t.properties.contains escapedNames) names →
      FitNames ['\t', '\n'] (t.properties.contains escapedNames) names :=
    fun names hnames name hname => (hnames name hname).imp_right fun havoids hescaped =>
      (havoids hescaped).mono (by decide)
  refine ⟨?_, ?_, fun label' hlabel' => ?_, ?_, ?_⟩
  · rw [hswitched.size_eq, hswitched.properties_eq]
    exact (obeys_of_reordered hfits hnamed hlabel h).mono {
      keyed := by
        rintro key names ⟨hsource, hsize, hnames⟩
        refine ⟨hsize, fun name hname => ?_, hfit names hnames⟩
        exact Option.some.inj (hname.symm.trans hsource)
      descriptor := fun _ _ => trivial
      parameter := fun names hnames => ⟨hnames.1, hfit names hnames.2⟩ }
  · rw [hswitched.size_eq]
    omega
  · rw [hswitched.mem_labels_iff hposition] at hlabel'
    exact hfits.labels label' hlabel'
  · rw [hswitched.properties_eq]
    exact fun e he => (hfits.keys e he).mono (by decide)
  · rw [hswitched.properties_eq]
    exact fun e he value hvalue => (hfits.values e he value hvalue).imp_left (·.mono (by decide))

/-- Only the descriptors can keep a switched table from being `Storable`. -/
theorem storable_iff_of_reordered :
    Storable t' ↔ ∀ descriptor ∈ t'.descriptors, Avoids ['\t', '\n'] descriptor := by
  have hswitched : t.Switched position t' := .reordered hne h
  constructor
  · exact fun hstorable descriptor hmem => hstorable.entries.of_mem_descriptors hmem
  -- names are held already by what was read, so only the descriptors have to be looked at
  · intro havoids
    refine ⟨?_, ?_⟩
    · rw [hswitched.properties_eq]
      exact ((obeys_of_reordered hfits hnamed hlabel h).with_descriptors havoids).mono {
        keyed := by
          rintro key names ⟨hsource, -, hnames⟩
          refine ⟨?_, not_endsInReturn_of_fitNames hnames⟩
          rw [hsource]
          exact Option.some_ne_none key
        descriptor := fun _ => id
        parameter := fun names hnames => not_endsInReturn_of_fitNames hnames.2 }
    · rw [hswitched.properties_eq]
      rintro ⟨key, value⟩ he
      cases value with
      | none => exact not_endsInReturn_of_avoids (hfits.keys _ he)
      | some value => exact not_endsInReturn_of_avoids (hfits.values _ he value rfl).1

end Reordered

/-! ## Reading switched tables back -/

section Switched

variable {bytes : ByteArray} {t t' : Table} {label : String} (hbytes : 0x0d ∉ bytes.data)
  (hread : read bytes = .ok t) (hnamed : t.IsNamed label)
  (hswitch : (t.switchSource label).outcome = .ok t')

include hbytes hread hnamed hswitch

/-- A switched table is read back exactly if the `MentionedNames`, which get into descriptors, can
stand in lines. -/
theorem exists_read_write_iff_mentionedNames :
    (∃ back, read (write t').toUTF8 = .ok back ∧ back.equiv t' = true) ↔
      t.MentionedNames label (Avoids ['\t', '\n']) := by
  have hfits := fits_of_read hbytes hread
  have havoids : ∀ descriptor ∈ t.descriptors, Avoids ['\t', '\n'] descriptor :=
    fun descriptor hmem => (hfits.entries.of_mem_descriptors hmem).mono (by decide)
  obtain ⟨position, hlabel, ⟨rfl, rfl⟩ | ⟨hne, h⟩⟩ :=
    Table.outcome_switchSource_eq_ok_iff.1 hswitch
  · -- the table is as it was read
    have haligned : t'.IsAligned := hfits.entries.mono {
      keyed := fun _ _ hnames => ⟨hnames.2.1, fun name hname =>
        Option.some.inj (hname.symm.trans hnames.1)⟩
      descriptor := fun _ _ => trivial
      parameter := fun _ hnames => hnames.1 }
    have hsource := haligned.mentionedNames havoids
    rw [Namespaces.getElem?_zero, Option.some.injEq] at hlabel
    exact iff_of_true ⟨t'.sorted, read_write_eq_ok hfits, t'.equiv_sorted⟩ (hlabel ▸ hsource)
  · rw [exists_read_write_iff (legible_of_reordered hfits hnamed hlabel hne h),
      storable_iff_of_reordered hfits hnamed hlabel hne h,
      h.avoids_descriptors_iff hlabel havoids]

/-- `switchSource` of a table that was read makes one that can be stored, or not, by the class names
that get into descriptors. For every file without carriage returns that `read` can read, and every
namespace in which all classes, fields and methods have names: the table that is switched to it is
read back from what `write` wrote for it exactly if, of the `MentionedNames` of classes in
descriptors, none has a tab or a line feed there. Without escaped names no name has these. -/
theorem exists_read_write_switchSource_iff :
    ((∃ back, read (write t').toUTF8 = .ok back ∧ back.equiv t' = true) ↔
      t.MentionedNames label (Avoids ['\t', '\n'])) ∧
    (t.properties.contains escapedNames = false →
      ∃ back, read (write t').toUTF8 = .ok back ∧ back.equiv t' = true) := by
  have hiff := exists_read_write_iff_mentionedNames hbytes hread hnamed hswitch
  refine ⟨hiff, fun hescaped => hiff.2 ?_⟩
  -- a name in any namespace avoids them if it is not escaped
  intro descriptor hmem name hname c hc new hnew
  have hclass := ((fits_of_read hbytes hread).entries (name, c)
    (OrderedMap.get?_eq_some_iff.1 hc)).names
  obtain ⟨position, -, hget⟩ := Option.bind_eq_some_iff.1 hnew
  exact ((hclass.2.2 new (Names.mem_slots_of_get hget)).2 hescaped).mono (by decide)

end Switched

/-- Mappings with escaped names, in which a descriptor mentions the class `mentioned`. -/
def escapedFile (mentioned : String) : ByteArray :=
  ("tiny\t2\t0\tofficial\tnamed\n\tescaped-names\nc\ta\tMa\\tin\n\tf\tL" ++ mentioned ++
    ";\tx\tcou\\nnt\nc\tb\tOther\n").toUTF8

/-- The table in the `escapedFile`. -/
def escapedTable (mentioned : String) : Table where
  namespaces := sampleTable.namespaces
  properties := .ofList [(escapedNames, none)]
  classes := .ofList [
    ("a", {
      names := { slots := [some "a", some "Ma\tin"] }
      fields := .ofList [({ name := "x", descriptor := "L" ++ mentioned ++ ";" }, {
        descriptor := "L" ++ mentioned ++ ";"
        names := { slots := [some "x", some "cou\nnt"] } })] }),
    ("b", { names := { slots := [some "b", some "Other"] } })]

/-- Each `escapedTable` can be read and switched, whether it mentions the class with the tab in its
name or the other one. -/
theorem switch_samples {mentioned : String} (h : mentioned = "a" ∨ mentioned = "b") :
    0x0d ∉ (escapedFile mentioned).data ∧
      read (escapedFile mentioned) = .ok (escapedTable mentioned) ∧
      (escapedTable mentioned).IsNamed "named" ∧
      ∃ t, ((escapedTable mentioned).switchSource "named").outcome = .ok t := by
  have hswitch : ((escapedTable mentioned).switchSource "named").outcome.toOption.isSome := by
    rcases h with rfl | rfl
    · decide +kernel
    · decide +kernel
  obtain ⟨t, ht⟩ := Option.isSome_iff_exists.1 hswitch
  refine ⟨?_, ?_, ?_, t, toOption_eq_some_iff.1 ht⟩
  all_goals
    rcases h with rfl | rfl
    · decide +kernel
    · decide +kernel

/-- A tab in the name of a class that no descriptor mentions does no harm: the `escapedTable` is
read back after switching. -/
theorem exists_read_write_switchSource_iff_sample : ∃ t back,
    read (escapedFile "b") = .ok (escapedTable "b") ∧
      ((escapedTable "b").switchSource "named").outcome = .ok t ∧
      read (write t).toUTF8 = .ok back ∧ back.equiv t = true := by
  obtain ⟨hbytes, hread, hnamed, t, hswitch⟩ := switch_samples (.inr rfl)
  obtain ⟨back, hback, hequiv⟩ :=
    (exists_read_write_switchSource_iff hbytes hread hnamed hswitch).1.2 (by decide +kernel)
  exact ⟨t, back, hread, hswitch, hback, hequiv⟩

/-- A class that a descriptor mentions has a tab in its name. The `escapedTable` that is switched to
this name is not read back from what is written for it. -/
theorem read_write_switchSource_tab : ∃ t,
    0x0d ∉ (escapedFile "a").data ∧ read (escapedFile "a") = .ok (escapedTable "a") ∧
      (escapedTable "a").IsNamed "named" ∧
      ((escapedTable "a").switchSource "named").outcome = .ok t ∧
      ¬∃ back, read (write t).toUTF8 = .ok back ∧ back.equiv t = true := by
  obtain ⟨hbytes, hread, hnamed, t, hswitch⟩ := switch_samples (.inl rfl)
  refine ⟨t, hbytes, hread, hnamed, hswitch, fun hback => ?_⟩
  have hmentioned :=
    (exists_read_write_iff_mentionedNames hbytes hread hnamed hswitch).1 hback
  exact absurd hmentioned (by decide +kernel)

end Format.Nested

end MappingTables
