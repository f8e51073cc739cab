import MappingTables.Proofs.Plain.RoundTrip

/-!
# Converting what is read from the plain dialect

A table that is read from a file of the plain dialect can be written in both dialects, and is read
back as it was, unless it has a class with an empty name. No class line makes such a class, but the
line of a member does, if its owner is empty.

* `Held`, `held_of_read`: what is known about every table that is read.
* `exists_read_write_iff_of_read`: which of them can be converted.
* `read_emptyOwner`: one that cannot.
-/

namespace MappingTables

/-- Whether a class has nothing in it that the plain dialect does not hold, so that its members are
as they are `bare`, and no member without a name. -/
structure ClassEntry.IsPlain (c : ClassEntry) : Prop where
  comment : c.comment = none
  fields : ∀ e ∈ c.fields.entries, e.1.name ≠ "" ∧ e.2.bare = e.2
  methods : ∀ e ∈ c.methods.entries, e.1.name ≠ "" ∧ e.2.bare = e.2

/-- A class of which only `names` are known `IsPlain`. -/
theorem ClassEntry.isPlain_of_names (names : Names) : ClassEntry.IsPlain { names } :=
  ⟨rfl, nofun, nofun⟩

/-- `bare` leaves a table alone of which each class `IsPlain`, without header properties: the
dialect holds all of it. -/
theorem Table.bare_eq_self {t : Table} (hproperties : t.properties = ∅)
    (h : ∀ e ∈ t.classes.entries, e.2.IsPlain) : t.bare = t := by
  refine Table.ext rfl hproperties.symm (OrderedMap.map_eq_self fun e he => ?_)
  obtain ⟨hcomment, hfields, hmethods⟩ := h e he
  exact ClassEntry.ext rfl hcomment.symm (OrderedMap.map_eq_self fun f hf => (hfields f hf).2)
    (OrderedMap.map_eq_self fun m hm => (hmethods m hm).2)

/-- `foldlM` does not succeed if it comes to an item with which no step of `f` does. -/
theorem foldlM_ne_ok_of_mem {α σ : Type} {f : σ → α → Except Failure σ} {l : List α} {a : α}
    (ha : a ∈ l) (hf : ∀ s s', f s a ≠ .ok s') (s s' : σ) : l.foldlM f s ≠ .ok s' := by
  induction l generalizing s with
  | nil => cases ha
  | cons b l ih =>
    intro h
    rw [List.foldlM_cons] at h
    obtain ⟨s₁, hs₁, h⟩ := bind_eq_ok_iff.1 h
    rcases List.mem_cons.1 ha with rfl | ha
    · exact hf s s₁ hs₁
    · exact ih ha s₁ h

namespace Format.Plain

open Text

/-! ## What is known about every table that is read -/

section Reading

variable {t t' : Table} {c c' : ClassEntry} {names : Names} {line : Line}

/-- No name that `names` reads from a line is empty. -/
theorem source_ne_empty {size : Nat} (h : line.names size false = .ok names) :
    names.source ≠ some "" := by
  intro hsource
  obtain ⟨-, texts, -, rfl⟩ := Line.names_eq_ok_iff.1 h
  exact (Names.mem_slots_ofTexts.1 (Names.mem_slots_of_get hsource)).2 rfl

/-- A class that `addClass` adds with its own line `IsPlain` if the others are. -/
theorem isPlain_of_addClass (ht : ∀ e ∈ t.classes.entries, e.2.IsPlain)
    (h : addClass t names = .ok t') : ∀ e ∈ t'.classes.entries, e.2.IsPlain := by
  obtain ⟨key, -, h⟩ := bind_eq_ok_iff.1 h
  split at h
  · next old hold =>
    have hold := ht _ (OrderedMap.get?_eq_some_iff.1 hold)
    split at h
    · -- the class was there because of a member, and only gets its names now
      cases h
      have hnew : ({ old with names } : ClassEntry).IsPlain :=
        ⟨hold.comment, hold.fields, hold.methods⟩
      exact OrderedMap.forall_mem_insert (P := fun _ => ClassEntry.IsPlain) ht hnew
    · split at h
      · cases h
        exact ht
      · cases h
  · obtain ⟨key, -, h⟩ := bind_eq_ok_iff.1 h
    obtain ⟨-, -, h⟩ := bind_eq_ok_iff.1 h
    obtain ⟨classes, hclasses, h⟩ := bind_eq_ok_iff.1 h
    cases h
    exact OrderedMap.forall_mem_insertNew (Q := fun _ => ClassEntry.IsPlain) ht
      (ClassEntry.isPlain_of_names names) hclasses

/-- The `owner` of a member `IsPlain` if all classes are. -/
theorem isPlain_owner (ht : ∀ e ∈ t.classes.entries, e.2.IsPlain) (key : String) :
    (owner t key).IsPlain := by
  unfold owner
  cases hget : t.classes.get? key with
  | none => exact ClassEntry.isPlain_of_names _
  | some c => exact ht _ (OrderedMap.get?_eq_some_iff.1 hget)

/-- A class that `IsPlain` stays so when it gets a field from `addField`. -/
theorem isPlain_of_addField {descriptor : String} (hc : c.IsPlain) (hnames : names.source ≠ some "")
    (h : addField c { descriptor, names } = .ok c') : c'.IsPlain := by
  refine kept_of_addMember ClassEntry.IsPlain h hc fun h => ?_
  obtain ⟨key, hkey, h⟩ := bind_eq_ok_iff.1 h
  obtain ⟨fields, hfields, h⟩ := bind_eq_ok_iff.1 h
  cases h
  have hne : key.name ≠ "" := fun hempty => hnames (hempty ▸ (Field.key_eq_ok_iff.1 hkey).1)
  exact ⟨hc.comment, OrderedMap.forall_mem_insertNew
    (Q := fun key f => key.name ≠ "" ∧ f.bare = f) hc.fields ⟨hne, rfl⟩ hfields, hc.methods⟩

/-- A class that `IsPlain` stays so when it gets a method from `addMethod`. -/
theorem isPlain_of_addMethod {descriptor : String} (hc : c.IsPlain)
    (hnames : names.source ≠ some "")
    (h : addMethod c { descriptor, names } = .ok c') : c'.IsPlain := by
  refine kept_of_addMember ClassEntry.IsPlain h hc fun h => ?_
  obtain ⟨key, hkey, h⟩ := bind_eq_ok_iff.1 h
  obtain ⟨methods, hmethods, h⟩ := bind_eq_ok_iff.1 h
  cases h
  have hne : key.name ≠ "" := fun hempty => hnames (hempty ▸ (Method.key_eq_ok_iff.1 hkey).1)
  exact ⟨hc.comment, hc.fields, OrderedMap.forall_mem_insertNew
    (Q := fun key m => key.name ≠ "" ∧ m.bare = m) hc.methods ⟨hne, rfl⟩ hmethods⟩

/-- All classes stay plain with the line of a member, if its owner does with `add`. -/
theorem isPlain_of_readMember {add : ClassEntry → String → Names → Except Failure ClassEntry}
    (ht : ∀ e ∈ t.classes.entries, e.2.IsPlain) (h : readMember add t line = .ok t')
    (hadd : ∀ {c descriptor names c'}, c.IsPlain → names.source ≠ some "" →
      add c descriptor names = .ok c' → c'.IsPlain) : ∀ e ∈ t'.classes.entries, e.2.IsPlain := by
  obtain ⟨key, _, _, _, names, c, -, -, hnames, hc, rfl⟩ := readMember_eq_ok h
  exact OrderedMap.forall_mem_insert (P := fun _ => ClassEntry.IsPlain) ht
    (hadd (isPlain_owner ht key) (source_ne_empty hnames) hc)

/-- Each class that `IsPlain` stays so, whatever `readLine` reads from a line. -/
theorem isPlain_of_readLine (ht : ∀ e ∈ t.classes.entries, e.2.IsPlain)
    (h : readLine t line = .ok t') : ∀ e ∈ t'.classes.entries, e.2.IsPlain := by
  unfold readLine at h
  split at h
  · obtain ⟨names, -, h⟩ := bind_eq_ok_iff.1 h
    exact isPlain_of_addClass ht (within_eq_ok_iff.1 h)
  · exact isPlain_of_readMember ht h isPlain_of_addField
  · exact isPlain_of_readMember ht h isPlain_of_addMethod
  · split at h
    · cases h
      exact ht
    · exact absurd (within_eq_ok_iff.1 h) fail_ne_ok

/-- Each class of a table that `readFile` reads `IsPlain`, and its labels are those in the
header. -/
theorem isPlain_of_readFile {header : Line} {lines : List ReadLine}
    (h : readFile (.ok header :: lines) = .ok t) :
    (∀ e ∈ t.classes.entries, e.2.IsPlain) ∧ t.namespaces.labels = header.fields := by
  obtain ⟨namespaces, hheader, h⟩ := bind_eq_ok_iff.1 h
  have hlabels : namespaces.labels = header.fields := by
    unfold readHeader at hheader
    split at hheader
    · exact Namespaces.ofLabels_eq_ok_iff.1 (within_eq_ok_iff.1 hheader)
    · cases hheader
  -- no line changes the header, so both are kept together
  refine foldlM_induction (fun t => (∀ e ∈ t.classes.entries, e.2.IsPlain) ∧
    t.namespaces.labels = header.fields) h ⟨nofun, hlabels⟩ ?_
  rintro (cause | line) - s s' ⟨hplain, hs⟩ hstep
  · cases hstep
  · refine ⟨isPlain_of_readLine hplain hstep, ?_⟩
    rw [(header_of_readLine hstep).1, hs]

/-- What a line that `IsSound` can say about entries follows the `heldRules` for tables that can be
written, but for an owner with an empty name. -/
theorem admits_heldRules {chars : List Char} {size : Nat} (hsize : 0 < size)
    (hline : line.IsSound chars) : Admits (heldRules ('\t' :: chars) size) size line where
  names rest hrest names hnames key hkey := by
    have hfields : ∀ field ∈ rest.fields, Avoids ('\t' :: chars) field :=
      fun field hfield => hline.fields field (hrest.subset hfield)
    obtain ⟨hlength, hfit⟩ := Nested.parameter_of_names hfields hnames
    exact ⟨hkey, hlength, fun name hname => (hfit name hname).2 rfl,
      fun _ hempty => (hfit "" hempty).1 rfl⟩
  descriptor descriptor hdescriptor := hline.fields descriptor hdescriptor
  owner key hkey := by
    refine ⟨Names.source_ofFirst key hsize, Names.size_ofFirst key size, fun name hname => ?_,
      fun hne hempty => ?_⟩
    · rw [Names.eq_of_mem_slots_ofFirst hname]
      exact hline.fields key hkey
    · -- the owner is the one text that gets to be a name without having to be there
      exact hne (Names.eq_of_mem_slots_ofFirst hempty).symm

/-- A table that follows the `heldRules` can be written, unless it has a class with an empty
name. -/
theorem obeys_of_heldRules {chars : List Char} {size : Nat} (ht : t.Obeys (heldRules chars size))
    (hplain : ∀ e ∈ t.classes.entries, e.2.IsPlain) (hkeys : "" ∉ t.classes.keys) :
    t.Obeys (Nested.entryRules chars size false) := by
  -- an entry with a key that is not empty has no empty names
  have hkeyed :
      ∀ {key : String} {names : Names}, (heldRules chars size).keyed key names → key ≠ "" →
      (Nested.entryRules chars size false).keyed key names := by
    rintro key names ⟨hsource, hsize, havoids, hempty⟩ hne
    refine ⟨hsource, hsize, fun name hname => ⟨?_, fun _ => havoids name hname⟩⟩
    rintro rfl
    exact hempty hne hname
  intro e he
  obtain ⟨hnames, hfields, hmethods⟩ := ht e he
  have hkey : e.1 ≠ "" := fun hempty => hkeys (hempty ▸ OrderedMap.mem_keys_of_mem he)
  refine ⟨hkeyed hnames hkey, fun f hf => ?_, fun m hm => ?_⟩
  · have hfield := hfields f hf
    exact ⟨hfield.descriptor_eq, hkeyed hfield.names ((hplain e he).fields f hf).1,
      hfield.descriptor⟩
  · have hmethod := hmethods m hm
    exact ⟨hmethod.descriptor_eq, hkeyed hmethod.names ((hplain e he).methods m hm).1,
      hmethod.descriptor, fun p hp => ⟨(hmethod.parameters p hp).index_eq,
        (hmethod.parameters p hp).names⟩⟩

end Reading

/-! ## Writing it -/

section Converting

variable {bytes : ByteArray} {t : Table}

/-- What is known about a table that is read from a file without carriage returns: it follows the
`heldRules`, and each class `IsPlain`. -/
structure Held (t : Table) : Prop where
  entries : t.Obeys (heldRules ['\t', '\n', '\r'] t.namespaces.size)
  plain : ∀ e ∈ t.classes.entries, e.2.IsPlain
  properties : t.properties = ∅
  labels : ∀ label ∈ t.namespaces.labels, Avoids ['\t', '\n', '\r'] label

/-- Every table that `read` reads from such a file is `Held`. -/
theorem held_of_read (hbytes : 0x0d ∉ bytes.data) (h : read bytes = .ok t) : Held t := by
  have hsound := soundLines_texts_of_not_mem hbytes
  obtain ⟨hentries, hproperties⟩ := obeys_of_readFile (heldRules ['\t', '\n', '\r'])
    (fun line hline size hsize => admits_heldRules hsize (hsound line hline)) h
  rw [read, readInput, readTexts] at h
  generalize readLines (Input.texts { bytes }) = lines at hsound h
  cases lines with
  | nil => cases h
  | cons line lines =>
    cases line with
    | error cause => cases h
    | ok header =>
      obtain ⟨hplain, hlabels⟩ := isPlain_of_readFile h
      exact ⟨hentries, hplain, hproperties, hlabels ▸ (hsound header List.mem_cons_self).fields⟩

/-- A table that is `Held` also `Fits` the nested dialect if no class has an empty name. -/
theorem Held.fits_nested (h : Held t) (hkeys : "" ∉ t.classes.keys) :
    Nested.Fits ['\t', '\n', '\r'] t where
  entries := by
    rw [h.properties]
    exact obeys_of_heldRules h.entries h.plain hkeys
  labels := h.labels
  keys := by
    rw [h.properties]
    exact nofun
  values := by
    rw [h.properties]
    exact nofun

/-- A table that is `Held` also `Fits` the plain dialect if no class has an empty name. -/
theorem Held.fits (h : Held t) (hkeys : "" ∉ t.classes.keys) : Fits ['\t', '\n', '\r'] t where
  entries := by
    rw [Table.bare_eq_self h.properties h.plain]
    exact obeys_of_heldRules h.entries h.plain hkeys
  labels := h.labels

/-- The `classLine` of a class with an empty name is refused by `readLine`, whatever was read
before. -/
theorem readLine_classLine_ne_ok {names : Names} (hsource : names.source = some "") (s s' : Table) :
    readLine s (classLine names) ≠ .ok s' := by
  obtain ⟨slots⟩ := names
  intro h
  obtain ⟨names', hnames', h⟩ := bind_eq_ok_iff.1 h
  obtain ⟨key, hkey, -⟩ := bind_eq_ok_iff.1 (within_eq_ok_iff.1 h)
  obtain ⟨-, texts, htexts, rfl⟩ := Line.names_eq_ok_iff.1 hnames'
  obtain rfl : nameFields ⟨slots⟩ = texts := Except.ok.inj htexts
  cases slots with
  | nil => cases hsource
  | cons slot slots =>
    -- the first field is empty, which stands for a name that is not there
    obtain rfl : slot = some "" := hsource
    cases hkey

/-- A table that is `Held`, with a class that has an empty name, is not read back from what `write`
wrote. -/
theorem Held.read_write_ne_ok (h : Held t) (hkeys : "" ∈ t.classes.keys) (t' : Table) :
    read (write t).toUTF8 ≠ .ok t' := by
  obtain ⟨c, hc⟩ := OrderedMap.mem_keys_iff.1 hkeys
  have hbare := Table.bare_eq_self h.properties h.plain
  -- the text is still cut into the rows that were written: an empty name does not break any
  have hentries := h.entries
  rw [← hbare] at hentries
  intro hread
  rw [← toOption_eq_some_iff, toOption_read_write hentries h.labels,
    toOption_eq_some_iff, tableLines, List.map_cons] at hread
  obtain ⟨namespaces, -, hread⟩ := bind_eq_ok_iff.1 hread
  -- its row is among those of the classes, which come first
  refine foldlM_ne_ok_of_mem (a := .ok (classLine c.names)) ?_
    (readLine_classLine_ne_ok (h.entries _ hc).names.1) _ t' hread
  refine List.mem_map_of_mem (List.mem_append_left _ (List.mem_append_left _ ?_))
  exact List.mem_map.2 ⟨("", c), OrderedMap.mem_sorted.2 hc, rfl⟩

/-- No table that `read` reads from the nested dialect has a class with an empty name. -/
theorem not_mem_keys_of_nested_read {bytes' : ByteArray} {t' : Table} (h : Held t)
    (hread : Nested.read bytes' = .ok t') (heq : t'.equiv t = true) : "" ∉ t.classes.keys := by
  intro hkeys
  obtain ⟨c, hc⟩ := OrderedMap.mem_keys_iff.1 hkeys
  -- the other table has the same names, none of which is empty
  have hentries := (Nested.fits_of_readFile (soundLines_texts bytes') hread).entries.of_equiv heq
  have hsource := (h.entries _ hc).names.1
  exact ((hentries _ hc).names.2.2 "" (Names.mem_slots_of_get hsource)).1 rfl

/-- A table that `read` reads from a file without carriage returns can be converted exactly if it
has no class with an empty name. In that case it is read back as it was, but for the order, from
what `Nested.write` writes for it as well as from what `write` does in the plain dialect; otherwise
it is from neither. -/
theorem exists_read_write_iff_of_read (hbytes : 0x0d ∉ bytes.data) (h : read bytes = .ok t) :
    ((∃ t', Nested.read (Nested.write t).toUTF8 = .ok t' ∧ t'.equiv t = true) ↔
        "" ∉ t.classes.keys) ∧
      ((∃ t', read (write t).toUTF8 = .ok t' ∧ t'.equiv t = true) ↔ "" ∉ t.classes.keys) := by
  have hheld := held_of_read hbytes h
  refine ⟨⟨?_, fun hkeys => ?_⟩, ⟨?_, fun hkeys => ?_⟩⟩
  · rintro ⟨t', hread, heq⟩
    exact not_mem_keys_of_nested_read hheld hread heq
  · exact ⟨t.sorted, Nested.read_write_eq_ok (hheld.fits_nested hkeys), t.equiv_sorted⟩
  · rintro ⟨t', hread, -⟩ hkeys
    exact hheld.read_write_ne_ok hkeys t' hread
  · refine ⟨t.bare.sorted, read_write_eq_ok (hheld.fits hkeys), ?_⟩
    rw [Table.bare_eq_self hheld.properties hheld.plain]
    exact t.equiv_sorted

/-- A file with members before their class, one without a class line, and a repeated row. -/
def sampleFile : ByteArray :=
  ("v1\tofficial\tnamed\nFIELD\ta\t\tc\t\nMETHOD\tb\t()V\td\trun\n# a remark\n" ++
    "CLASS\ta\tMain\nFIELD\ta\t\tc\t\n").toUTF8

/-- The table in the `sampleFile` can be converted. -/
theorem exists_read_write_iff_of_read_sample :
    ∃ t, 0x0d ∉ sampleFile.data ∧ read sampleFile = .ok t ∧
      (∃ t', Nested.read (Nested.write t).toUTF8 = .ok t' ∧ t'.equiv t = true) ∧
      ∃ t', read (write t).toUTF8 = .ok t' ∧ t'.equiv t = true := by
  have hbytes : 0x0d ∉ sampleFile.data := by decide +kernel
  have hkeys : (read sampleFile).toOption.all ("" ∉ ·.classes.keys) = true := by decide +kernel
  obtain ⟨t, ht⟩ := Option.isSome_iff_exists.1
    (show (read sampleFile).toOption.isSome = true by decide +kernel)
  rw [ht, Option.all_some, decide_eq_true_iff] at hkeys
  have hread := toOption_eq_some_iff.1 ht
  obtain ⟨hnested, hplain⟩ := exists_read_write_iff_of_read hbytes hread
  exact ⟨t, hbytes, hread, hnested.2 hkeys, hplain.2 hkeys⟩

/-- A file with a field that has no owner. -/
def emptyOwner : ByteArray :=
  "v1\tofficial\tnamed\nFIELD\t\tI\tb\tcount\n".toUTF8

/-- `emptyOwner`, a file with a field that has no owner, is read, but what is written for its table
is refused in both dialects. -/
theorem read_emptyOwner :
    ∃ t, 0x0d ∉ emptyOwner.data ∧ read emptyOwner = .ok t ∧
      (∀ t', Nested.read (Nested.write t).toUTF8 ≠ .ok t') ∧
      ∀ t', read (write t).toUTF8 ≠ .ok t' := by
  have hbytes : 0x0d ∉ emptyOwner.data := by decide +kernel
  obtain ⟨t, ht⟩ := Option.isSome_iff_exists.1
    (show (read emptyOwner).toOption.isSome = true by decide +kernel)
  have hnested : (read emptyOwner).toOption.all
      (fun t => (Nested.read (Nested.write t).toUTF8).toOption.isNone) = true := by
    decide +kernel
  have hplain : (read emptyOwner).toOption.all
      (fun t => (read (write t).toUTF8).toOption.isNone) = true := by
    decide +kernel
  rw [ht, Option.all_some, Option.isNone_iff_eq_none] at hnested hplain
  refine ⟨t, hbytes, toOption_eq_some_iff.1 ht, fun t' h => ?_, fun t' h => ?_⟩
  · rw [h] at hnested
    cases hnested
  · rw [h] at hplain
    cases hplain

end Converting

end Format.Plain

end MappingTables
