import MappingTables.Proofs.Plain.Reader
import MappingTables.Rename

/-!
# Tables and how they are obtained

A table starts as one that is read from a file, and goes on from there: it is switched to another
source namespace, reordered, merged with another one, its namespaces are renamed or completed, and
entries are added to it at any level. Whatever is done, and in whatever order, keys agree with
names.

* `Method.Edit`, `ClassEntry.Edit`, `Table.Edit`: adding or merging one entry.
* `Obtained`: the tables that can be obtained.
* `Obtained.keys_agree`: every one of them is aligned.
-/

namespace MappingTables

/-! ## Adding entries -/

/-- A parameter with `size` slots for its names is added to a method or merged into it. -/
inductive Method.Edit (size : Nat) : Method → Method → Prop where
  | addParameter {m m' : Method} {p : Parameter} (hp : p.names.size = size)
      (h : m.addParameter p = .ok m') : Edit size m m'
  | mergeParameter {m : Method} {p : Parameter} (hp : p.names.size = size) :
      Edit size m (m.mergeParameter p)

/-- Whether a method has `size` slots for its names, and its parameters were added to it. -/
inductive Method.Made (size : Nat) : Method → Prop where
  | bare {descriptor : String} {names : Names} {comment : Option String}
      (hnames : names.size = size) : Made size { descriptor, names, comment }
  | edit {m m' : Method} (hm : Made size m) (h : m.Edit size m') : Made size m'

/-- A member with `size` slots for its names is added to a class or merged into it, or a method of
the class is edited in its place. -/
inductive ClassEntry.Edit (size : Nat) : ClassEntry → ClassEntry → Prop where
  | addField {c c' : ClassEntry} {f : Field} (hf : f.names.size = size)
      (h : c.addField f = .ok c') : Edit size c c'
  | mergeField {c c' : ClassEntry} {f : Field} (hf : f.names.size = size)
      (h : c.mergeField f = .ok c') : Edit size c c'
  | addMethod {c c' : ClassEntry} {m : Method} (hm : m.Made size)
      (h : c.addMethod m = .ok c') : Edit size c c'
  | mergeMethod {c c' : ClassEntry} {m : Method} (hm : m.Made size)
      (h : c.mergeMethod m = .ok c') : Edit size c c'
  | inMethod {c : ClassEntry} {key : MemberKey} {m m' : Method}
      (hm : c.methods.get? key = some m) (h : m.Edit size m') :
      Edit size c { c with methods := c.methods.insert key m' }

/-- Whether a class has `size` slots for its names, and its members were added to it. -/
inductive ClassEntry.Made (size : Nat) : ClassEntry → Prop where
  | bare {names : Names} {comment : Option String} (hnames : names.size = size) :
      Made size { names, comment }
  | edit {c c' : ClassEntry} (hc : Made size c) (h : c.Edit size c') : Made size c'

/-- A class with a slot for each namespace is added to a table by `addClass` or merged into it by
`mergeClass`, or a class of the table is edited in its place. -/
inductive Table.Edit : Table → Table → Prop where
  | addClass {t t' : Table} {c : ClassEntry} (hc : c.Made t.namespaces.size)
      (h : t.addClass c = .ok t') : Edit t t'
  | mergeClass {t t' : Table} {c : ClassEntry} (hc : c.Made t.namespaces.size)
      (h : t.mergeClass c = .ok t') : Edit t t'
  | inClass {t : Table} {key : String} {c c' : ClassEntry} (hc : t.classes.get? key = some c)
      (h : c.Edit t.namespaces.size c') :
      Edit t { t with classes := t.classes.insert key c' }

/-- The tables that are read, and those that are made from them. A completed namespace is not the
source namespace, in which a name that is filled in would not be that of the key. -/
inductive Obtained : Table → Prop where
  | plain {input : Input} {t : Table} (h : Format.Plain.readInput input = .ok t) :
      Obtained t
  | nested {input : Input} {t : Table} (h : Format.Nested.readInput input = .ok t) :
      Obtained t
  | switchSource {t t' : Table} {label : String} (ht : Obtained t)
      (h : (t.switchSource label).outcome = .ok t') : Obtained t'
  | reorder {t t' : Table} {labels : List String} (ht : Obtained t)
      (h : (t.reorder labels).outcome = .ok t') : Obtained t'
  | rename {t t' : Table} {pairs : List (String × String)} (ht : Obtained t)
      (h : t.rename pairs = .ok t') : Obtained t'
  | merge {a b merged : Table} {conflicts : List Conflict} (ha : Obtained a) (hb : Obtained b)
      (h : (a.merge b).outcome = .ok (merged, conflicts)) : Obtained merged
  | complete {t t' : Table} {target fallback : String} {count : Nat} (ht : Obtained t)
      (htarget : target ≠ t.namespaces.source)
      (h : (t.complete target fallback).outcome = .ok (t', count)) : Obtained t'
  | edit {t t' : Table} (ht : Obtained t) (h : t.Edit t') : Obtained t'

/-! ## Every step keeps keys and names together -/

section Aligned

variable {size : Nat}

/-- Names under one key, overlaid with others under it, stay under that key: `Overlays` holds of the
`alignedRules`. -/
theorem overlays_alignedRules : (alignedRules size).Overlays where
  keyed key earlier later hearlier hlater := by
    refine ⟨(Names.size_overlay earlier later).trans hearlier.1, fun name hname => ?_⟩
    by_cases hnil : earlier.slots = []
    · -- without slots there is nothing to overlay
      rw [Names.overlay, hnil, Names.overlaySlots] at hname
      cases hname
    · rw [Names.source_overlay hnil, Option.mem_def, Option.or_eq_some_iff] at hname
      rcases hname with hname | ⟨-, hname⟩
      · exact hlater.2 name hname
      · exact hearlier.2 name hname
  parameter earlier later hearlier _ := (Names.size_overlay earlier later).trans hearlier

/-- Names under their own `source` name follow the `alignedRules`. -/
theorem keyed_of_source {names : Names} {key : String} (hsize : names.size = size)
    (hkey : names.source = some key) : (alignedRules size).keyed key names :=
  ⟨hsize, fun _ hname => Option.some.inj (hname.symm.trans hkey)⟩

namespace Method

variable {m m' : Method} {key : MemberKey}

/-- An `Edit` of a method keeps what is in it aligned. -/
theorem Edit.obeys (h : m.Edit size m') (hm : m.Obeys (alignedRules size) key) :
    m'.Obeys (alignedRules size) key := by
  cases h with
  | addParameter hp h => exact hm.addParameter ⟨rfl, hp⟩ h
  | mergeParameter hp => exact hm.mergeParameter overlays_alignedRules ⟨rfl, hp⟩

/-- An `Edit` of a method leaves alone what makes its `key`. -/
theorem Edit.key_eq (h : m.Edit size m') : m'.key = m.key := by
  cases h with
  | addParameter _ h =>
    obtain ⟨parameters, -, h⟩ := bind_eq_ok_iff.1 h
    cases h
    rfl
  | mergeParameter => rfl

/-- A method that was `Made` follows the `alignedRules` under its own `key`. -/
theorem Made.obeys (hm : m.Made size) (hkey : m.key = .ok key) :
    m.Obeys (alignedRules size) key := by
  induction hm with
  | bare hnames =>
    obtain ⟨hsource, hdescriptor⟩ := Method.key_eq_ok_iff.1 hkey
    exact ⟨hdescriptor, keyed_of_source hnames hsource, trivial, nofun⟩
  | edit _ h ih => exact h.obeys (ih (h.key_eq.symm.trans hkey))

end Method

/-- A field follows the `alignedRules` under its own `key`. -/
theorem Field.obeys_of_key {f : Field} {key : MemberKey} (hf : f.names.size = size)
    (hkey : f.key = .ok key) : f.Obeys (alignedRules size) key := by
  obtain ⟨hsource, hdescriptor⟩ := Field.key_eq_ok_iff.1 hkey
  exact ⟨hdescriptor, keyed_of_source hf hsource, trivial⟩

namespace ClassEntry

variable {c c' : ClassEntry} {key : String}

/-- An `Edit` of a class keeps what is in it aligned. -/
theorem Edit.obeys (h : c.Edit size c') (hc : c.Obeys (alignedRules size) key) :
    c'.Obeys (alignedRules size) key := by
  cases h with
  | addField hf h => exact hc.addField (fun _ hkey => Field.obeys_of_key hf hkey) h
  | mergeField hf h =>
    exact hc.mergeField overlays_alignedRules (fun _ hkey => Field.obeys_of_key hf hkey) h
  | addMethod hm h => exact hc.addMethod (fun _ hkey => hm.obeys hkey) h
  | mergeMethod hm h =>
    exact hc.mergeMethod overlays_alignedRules (fun _ hkey => hm.obeys hkey) h
  | inMethod hm h =>
    have hedited := h.obeys (hc.methods _ (OrderedMap.get?_eq_some_iff.1 hm))
    exact ⟨hc.names, hc.fields, OrderedMap.forall_mem_insert hc.methods hedited⟩

/-- An `Edit` of a class leaves its `names` alone. -/
theorem Edit.names_eq (h : c.Edit size c') : c'.names = c.names := by
  -- an edit adds a member or changes one, and the names of the class stay
  cases h with
  | addField _ h =>
    obtain ⟨_, -, h⟩ := bind_eq_ok_iff.1 h
    obtain ⟨_, -, h⟩ := bind_eq_ok_iff.1 h
    cases h
    rfl
  | mergeField _ h =>
    obtain ⟨_, -, h⟩ := bind_eq_ok_iff.1 h
    cases h
    rfl
  | addMethod _ h =>
    obtain ⟨_, -, h⟩ := bind_eq_ok_iff.1 h
    obtain ⟨_, -, h⟩ := bind_eq_ok_iff.1 h
    cases h
    rfl
  | mergeMethod _ h =>
    obtain ⟨_, -, h⟩ := bind_eq_ok_iff.1 h
    cases h
    rfl
  | inMethod => rfl

/-- A class that was `Made` follows the `alignedRules` under its source name. -/
theorem Made.obeys (hc : c.Made size) (hkey : c.names.source = some key) :
    c.Obeys (alignedRules size) key := by
  induction hc with
  | bare hnames => exact ⟨keyed_of_source hnames hkey, nofun, nofun⟩
  | edit _ h ih =>
    rw [h.names_eq] at hkey
    exact h.obeys (ih hkey)

end ClassEntry

end Aligned

namespace Table

variable {t t' : Table}

/-- An `Edit` of a table leaves it so that it `IsAligned`. -/
theorem Edit.isAligned (h : t.Edit t') (ht : t.IsAligned) : t'.IsAligned := by
  cases h with
  | addClass hc h =>
    have hadded := Obeys.addClass ht (fun _ hkey => hc.obeys hkey) h
    obtain ⟨_, -, h⟩ := bind_eq_ok_iff.1 h
    obtain ⟨-, -, h⟩ := bind_eq_ok_iff.1 h
    obtain ⟨_, -, h⟩ := bind_eq_ok_iff.1 h
    cases h
    exact hadded
  | mergeClass hc h =>
    have hmerged := Obeys.mergeClass overlays_alignedRules ht (fun _ hkey => hc.obeys hkey) h
    obtain ⟨-, -, h⟩ := bind_eq_ok_iff.1 h
    obtain ⟨_, -, h⟩ := bind_eq_ok_iff.1 h
    cases h
    exact hmerged
  | inClass hc h =>
    exact OrderedMap.forall_mem_insert ht (h.obeys (ht _ (OrderedMap.get?_eq_some_iff.1 hc)))

/-- `rename` leaves a table so that it `IsAligned`, since there are as many namespaces as before. -/
theorem isAligned_of_rename {pairs : List (String × String)} (ht : t.IsAligned)
    (h : t.rename pairs = .ok t') : t'.IsAligned := by
  obtain ⟨namespaces, hns, h⟩ := bind_eq_ok_iff.1 h
  cases h
  have hlabels := Namespaces.ofLabels_eq_ok_iff.1 (within_eq_ok_iff.1 (within_eq_ok_iff.1 hns))
  have hsize : namespaces.size = t.namespaces.size := by
    rw [Namespaces.size, hlabels, List.length_map, Namespaces.size]
  change t.Obeys (alignedRules namespaces.size)
  rw [hsize]
  exact ht

/-- `complete` of a namespace other than the source namespace leaves a table so that it
`IsAligned`. -/
theorem isAligned_of_complete {target fallback : String} {count : Nat} (ht : t.IsAligned)
    (htarget : target ≠ t.namespaces.source)
    (h : (t.complete target fallback).outcome = .ok (t', count)) : t'.IsAligned := by
  obtain ⟨i, j, hi, -, -, rfl⟩ := outcome_complete_eq_ok h
  have hne : i ≠ 0 := by
    rintro rfl
    rw [Namespaces.getElem?_zero] at hi
    exact htarget (Option.some.inj hi).symm
  -- the source name stays, so it is still that of the key
  have hkeyed : ∀ key names, (alignedRules t.namespaces.size).keyed key names →
      (alignedRules t.namespaces.size).keyed key (names.fill i j) := by
    rintro key names ⟨hsize, hsource⟩
    refine ⟨(Names.size_fill i j names).trans hsize, fun name hname => hsource name ?_⟩
    rwa [Names.source_fill hne] at hname
  exact Obeys.mapNames hkeyed (fun _ _ => trivial)
    (fun names hsize => (Names.size_fill i j names).trans hsize) ht

/-- What `merge` gives `IsAligned` if both tables are. -/
theorem isAligned_of_merge {a b merged : Table} {conflicts : List Conflict} (ha : a.IsAligned)
    (hb : b.IsAligned) (h : (a.merge b).outcome = .ok (merged, conflicts)) : merged.IsAligned := by
  have hnames : ∀ size, (alignedRules size).Implies (nameRules fun _ => True) := fun size =>
    { keyed := fun _ _ _ _ _ => trivial
      descriptor := fun _ => id
      parameter := fun _ _ _ _ => trivial }
  exact (obeys_of_merge h (Obeys.mono ha (hnames _)) (Obeys.mono hb (hnames _))).2.1

end Table

/-- In a table that `readInput` reads from a file of the nested dialect keys agree with names: it
`IsAligned`. -/
theorem Format.Nested.isAligned_of_readInput {input : Input} {t : Table}
    (h : Format.Nested.readInput input = .ok t) : t.IsAligned := by
  have hsound : SoundLines [] (readLines input.texts) :=
    soundLines_readLines fun _ _ => nofun
  exact Table.Obeys.mono (fits_of_readFile hsound h).entries
    { keyed := fun _ _ hnames => keyed_of_source hnames.2.1 hnames.1
      descriptor := fun _ _ => trivial
      parameter := fun _ hnames => hnames.1 }

namespace Obtained

/-- Whatever was done to a table that was `Obtained`, it has namespaces with `ValidLabels`, which
are distinct and not empty, and it `IsAligned`: every entry has a slot for each of them, and every
entry is keyed by its source name, if it has one, and its descriptor, or by its index. -/
theorem keys_agree {t : Table} (h : Obtained t) :
    ValidLabels t.namespaces.labels ∧ t.IsAligned := by
  refine ⟨t.namespaces.valid, ?_⟩
  induction h with
  | plain h => exact Format.Plain.isAligned_of_readFile h
  | nested h => exact Format.Nested.isAligned_of_readInput h
  | switchSource _ h ih =>
    obtain ⟨position, -, hswitched⟩ := Table.switched_of_outcome h
    exact hswitched.isAligned ih
  | reorder _ h ih =>
    obtain ⟨-, source, rest, -, hreordered⟩ := Table.outcome_reorder_eq_ok_iff.1 h
    exact hreordered.isAligned
  | rename _ h ih => exact Table.isAligned_of_rename ih h
  | merge _ _ h iha ihb => exact Table.isAligned_of_merge iha ihb h
  | complete _ htarget h ih => exact Table.isAligned_of_complete ih htarget h
  | edit _ h ih => exact h.isAligned ih

/-! ## A sample -/

/-- The table in a file in which a class has no `named` name. -/
def readSample : Table where
  namespaces := { labels := ["official", "named"], valid := Namespaces.validLabels_official_named }
  classes := .ofList [
    ("a", { names := { slots := [some "a", some "Main"] } }),
    ("b", { names := { slots := [some "b", none] } })]

/-- The same table rooted at `named`. The class without a name there is keyed as before. -/
def switchedSample : Table where
  namespaces := { labels := ["named", "official"], valid := by decide }
  classes := .ofList [
    ("Main", { names := { slots := [some "Main", some "a"] } }),
    ("b", { names := { slots := [none, some "b"] } })]

/-- The same table with a class that was added under the key of another one in the file. -/
def editedSample : Table :=
  { switchedSample with
    classes := switchedSample.classes.insert "a" { names := { slots := [some "a", none] } } }

/-- In the `editedSample`, which was read, switched and added to, keys agree with names. -/
theorem keys_agree_sample :
    Obtained editedSample ∧ ValidLabels editedSample.namespaces.labels ∧
      editedSample.IsAligned := by
  have hread : Format.Nested.readInput
      { bytes := "tiny\t2\t0\tofficial\tnamed\nc\ta\tMain\nc\tb\t\n".toUTF8 } =
        .ok readSample := by
    decide +kernel
  have hswitched : (readSample.switchSource "named").outcome = .ok switchedSample := by
    decide +kernel
  have hadded : switchedSample.addClass { names := { slots := [some "a", none] } } =
      .ok editedSample := by
    decide +kernel
  have hobtained : Obtained editedSample :=
    ((Obtained.nested hread).switchSource hswitched).edit (.addClass (.bare rfl) hadded)
  exact ⟨hobtained, hobtained.keys_agree⟩

end Obtained

end MappingTables
