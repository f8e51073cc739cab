import MappingTables.Proofs.Nested.Numbers
import MappingTables.Proofs.Nested.Writer
import MappingTables.Proofs.Text.SafeText

/-!
# Writing and reading the nested dialect

* `toOption_read_write`: what is read from the text of a table.
* `read_write`: a table that fits the format is read back, and so is every table that was read from
  a file without carriage returns.
-/

namespace MappingTables.Format

open Text

/-- Lines joined by `unlines` are read as they are, but for the carriage return at the end of a
line, which `withoutReturn` takes away. -/
theorem map_unnumbered_readLines_unlines {lines : List Line}
    (h : ∀ line ∈ lines, line.IsSound ['\n']) :
    (readLines (Input.texts { bytes := (unlines (lines.map Line.text)).toUTF8 })).map unnumbered =
      (lines.map fun line => .ok line.withoutReturn).map unnumbered := by
  have hrows : ∀ row ∈ lines.map Line.text, Avoids ['\n'] row := by
    intro row hrow
    obtain ⟨line, hline, rfl⟩ := List.mem_map.1 hrow
    exact avoids_row (by decide) fun field hfield =>
      ((h line hline).avoids field hfield).mono (List.subset_cons_self _ _)
  rw [map_unnumbered_readLines, Input.texts_of_bytes, fileLines_toUTF8, lines_unlines hrows]
  simp only [List.map_map]
  refine List.map_congr_left fun line hline => ?_
  have hsound := (h line hline).withoutReturn
  refine congrArg Except.ok ?_
  change Line.ofText 0 (Text.withoutReturn line.text) = _
  rw [← Line.text_withoutReturn, Line.text, Line.ofText_row
    (fun field hfield => (hsound.avoids field hfield).mono (by simp)) hsound.head_ne]
  rfl

/-- Lines that contain no carriage return stay as they are `withoutReturn`. -/
theorem map_withoutReturn {lines : List Line} (h : ∀ line ∈ lines, line.IsSound ['\n', '\r']) :
    lines.map (fun line => (.ok line.withoutReturn : ReadLine)) = lines.map .ok := by
  refine List.map_congr_left fun line hline => congrArg Except.ok ?_
  refine Line.withoutReturn_eq_self fun last hlast => ?_
  exact withoutReturn_of_avoids
    (((h line hline).avoids last (List.mem_of_getLast? hlast)).mono (by decide))

namespace Nested

/-! ## What is written can stand in lines -/

section Sound

variable {chars : List Char} {escaped : Bool}

/-- `escape` gives a text without tabs and line ends. -/
theorem avoids_escape (text : String) : Avoids ['\t', '\n', '\r'] (escape text) :=
  Avoids.mono (isSafe_escape text) (by decide)

/-- The `nameFields` of names that can stand in lines contain nothing that they must not. -/
theorem avoids_nameFields {names : Names} (hchars : chars ⊆ ['\t', '\n', '\r'])
    (h : FitNames chars escaped names) :
    ∀ field ∈ nameFields escaped names, Avoids chars field := by
  intro field hfield
  obtain ⟨slot, hslot, rfl⟩ := List.mem_map.1 hfield
  cases slot with
  | none => exact fun _ _ => List.not_mem_nil
  | some name =>
    cases escaped with
    | true => exact (avoids_escape name).mono hchars
    | false => exact (h name hslot).2 rfl

/-- A line `IsSound` if it starts with a `word` and its other fields contain nothing that they must
not. -/
theorem isSound_of_word {number depth : Nat} {word : String} {fields : List String}
    (hword : Avoids ['\t', '\n', '\r'] word ∧ word ≠ "")
    (hchars : '\t' :: chars ⊆ ['\t', '\n', '\r'])
    (hfields : ∀ field ∈ fields, Avoids ('\t' :: chars) field) :
    Line.IsSound chars { number, depth, head := word, fields } := by
  refine ⟨fun field hfield => ?_, fun _ => hword.2⟩
  rcases List.mem_cons.1 hfield with rfl | hfield
  · exact hword.1.mono hchars
  · exact hfields field hfield

/-- The lines of sections are each `IsSound` if those of each section are. -/
theorem isSound_map {α : Type} {l : List α} {sec : α → Section}
    (h : ∀ a ∈ l, ∀ line ∈ (sec a).lines, line.IsSound chars) :
    ∀ line ∈ (l.map sec).flatMap Section.lines, line.IsSound chars := by
  intro line hline
  obtain ⟨_, hsec, hline⟩ := List.mem_flatMap.1 hline
  obtain ⟨a, ha, rfl⟩ := List.mem_map.1 hsec
  exact h a ha line hline

/-- The lines of `commentSections` are each `IsSound`. -/
theorem isSound_commentSections (hchars : '\t' :: chars ⊆ ['\t', '\n', '\r']) {depth : Nat}
    {comment : Option String} :
    ∀ line ∈ (commentSections depth comment).flatMap Section.lines, line.IsSound chars := by
  intro line hline
  cases comment with
  | none => cases hline
  | some text =>
    rw [commentSections, List.flatMap_singleton, Section.lines, List.mem_singleton] at hline
    subst hline
    refine isSound_of_word (by decide) hchars fun field hfield => ?_
    rw [List.mem_singleton.1 hfield]
    exact (avoids_escape text).mono hchars

/-- The lines of a `parameterSection` are each `IsSound`. -/
theorem isSound_parameterSection (hchars : '\t' :: chars ⊆ ['\t', '\n', '\r']) {p : Parameter}
    (hp : FitNames ('\t' :: chars) escaped p.names) :
    ∀ line ∈ (parameterSection escaped p).lines, line.IsSound chars := by
  refine List.forall_mem_cons.2 ⟨?_, isSound_commentSections hchars⟩
  refine isSound_of_word (by decide) hchars
    (List.forall_mem_cons.2 ⟨?_, avoids_nameFields hchars hp⟩)
  have hindex : Avoids ['\t', '\n', '\r'] (toString p.index.toNat) := avoids_toString (by decide) _
  exact hindex.mono hchars

/-- The lines of a `fieldSection` are each `IsSound`. -/
theorem isSound_fieldSection (hchars : '\t' :: chars ⊆ ['\t', '\n', '\r']) {f : Field}
    (hdescriptor : Avoids ('\t' :: chars) f.descriptor)
    (hf : FitNames ('\t' :: chars) escaped f.names) :
    ∀ line ∈ (fieldSection escaped f).lines, line.IsSound chars := by
  refine List.forall_mem_cons.2 ⟨?_, isSound_commentSections hchars⟩
  exact isSound_of_word (by decide) hchars
    (List.forall_mem_cons.2 ⟨hdescriptor, avoids_nameFields hchars hf⟩)

/-- The lines of a `methodSection` are each `IsSound`. -/
theorem isSound_methodSection {size : Nat} (hchars : '\t' :: chars ⊆ ['\t', '\n', '\r'])
    {key : MemberKey} {m : Method} (hm : m.Obeys (entryRules ('\t' :: chars) size escaped) key) :
    ∀ line ∈ (methodSection escaped m).lines, line.IsSound chars := by
  refine List.forall_mem_cons.2 ⟨?_, ?_⟩
  · exact isSound_of_word (by decide) hchars (List.forall_mem_cons.2
      ⟨hm.descriptor_eq ▸ hm.descriptor, avoids_nameFields hchars hm.names.2.2⟩)
  · rw [methodSection, List.flatMap_append, List.forall_mem_append]
    refine ⟨isSound_commentSections hchars, isSound_map fun e he => ?_⟩
    have hp := hm.parameters e (OrderedMap.mem_sorted.1 he)
    exact isSound_parameterSection hchars hp.names.2

/-- The lines of a `classSection` are each `IsSound`. -/
theorem isSound_classSection {size : Nat} (hchars : '\t' :: chars ⊆ ['\t', '\n', '\r'])
    {key : String} {c : ClassEntry} (hc : c.Obeys (entryRules ('\t' :: chars) size escaped) key) :
    ∀ line ∈ (classSection escaped c).lines, line.IsSound chars := by
  refine List.forall_mem_cons.2 ⟨?_, ?_⟩
  · exact isSound_of_word (by decide) hchars (avoids_nameFields hchars hc.names.2.2)
  · rw [classSection, List.flatMap_append, List.flatMap_append, List.forall_mem_append,
      List.forall_mem_append]
    refine ⟨⟨isSound_commentSections hchars, isSound_map fun e he => ?_⟩,
      isSound_map fun e he => ?_⟩
    · have hf := hc.fields e (OrderedMap.mem_sorted.1 he)
      exact isSound_fieldSection hchars (hf.descriptor_eq ▸ hf.descriptor) hf.names.2.2
    · exact isSound_methodSection hchars (hc.methods e (OrderedMap.mem_sorted.1 he))

/-- The `tableLines` of a table that `Fits` are each `IsSound`. -/
theorem isSound_tableLines (hchars : '\t' :: chars ⊆ ['\t', '\n', '\r']) {t : Table}
    (ht : Fits ('\t' :: chars) t) : ∀ line ∈ tableLines t, line.IsSound chars := by
  refine List.forall_mem_cons.2 ⟨?_, List.forall_mem_append.2
    ⟨isSound_map fun e he => ?_, isSound_map fun e he => ?_⟩⟩
  · refine isSound_of_word (by decide) hchars
      (List.forall_mem_cons.2 ⟨?_, List.forall_mem_cons.2 ⟨?_, ht.labels⟩⟩)
    · have htwo : Avoids ['\t', '\n', '\r'] "2" := by decide
      exact htwo.mono hchars
    · have hzero : Avoids ['\t', '\n', '\r'] "0" := by decide
      exact hzero.mono hchars
  · -- the first field of a property is its key, which is not a fixed word and may be empty
    rw [propertySection, Section.lines, List.forall_mem_singleton]
    refine ⟨List.forall_mem_cons.2 ⟨ht.keys e he, fun field hfield => ?_⟩, fun hne => ?_⟩
    · exact (ht.values e he field (Option.mem_toList.1 hfield)).1
    · obtain ⟨field, hfield⟩ := List.exists_mem_of_ne_nil _ hne
      exact (ht.values e he field (Option.mem_toList.1 hfield)).2
  · exact isSound_classSection hchars (ht.entries e (OrderedMap.mem_sorted.1 he))

end Sound

/-! ## What is written is read back -/

/-- What `read` reads from the text that `write` wrote is what `readFile` reads from the
`tableLines`, but for carriage returns at their ends. -/
theorem toOption_read_write {t : Table} (h : Fits ['\t', '\n'] t) :
    (read (write t).toUTF8).toOption =
      (readFile ((tableLines t).map fun line => .ok line.withoutReturn)).toOption := by
  rw [read, readInput, readTexts, ← toOption_readFile_map_unnumbered, write, tableRows_eq,
    map_unnumbered_readLines_unlines (isSound_tableLines (by decide) h),
    toOption_readFile_map_unnumbered]

/-- A table that `Fits` under more conditions does so under fewer. -/
theorem Fits.mono {chars chars' : List Char} {t : Table} (h : Fits chars t)
    (hsub : chars' ⊆ chars) : Fits chars' t where
  entries := h.entries.mono {
    keyed := fun _ _ hnames => ⟨hnames.1, hnames.2.1, fun name hname =>
      (hnames.2.2 name hname).imp id fun havoids hescaped => (havoids hescaped).mono hsub⟩
    descriptor := fun _ havoids => havoids.mono hsub
    parameter := fun _ hnames => ⟨hnames.1, fun name hname =>
      (hnames.2 name hname).imp id fun havoids hescaped => (havoids hescaped).mono hsub⟩ }
  labels := fun label hlabel => (h.labels label hlabel).mono hsub
  keys := fun e he => (h.keys e he).mono hsub
  values := fun e he value hvalue => (h.values e he value hvalue).imp (·.mono hsub) id

/-- A table that `Fits` a file without carriage returns is read back by `read`, with its entries
`sorted`. -/
theorem read_write_eq_ok {t : Table} (h : Fits ['\t', '\n', '\r'] t) :
    read (write t).toUTF8 = .ok t.sorted := by
  rw [← toOption_eq_some_iff, toOption_read_write (h.mono (by decide)),
    map_withoutReturn (isSound_tableLines (by decide) h), readFile_tableLines h.entries]
  rfl

/-- A table that `read` reads from a file without carriage returns can be written: it `Fits`. -/
theorem fits_of_read {bytes : ByteArray} {t : Table} (hbytes : 0x0d ∉ bytes.data)
    (h : read bytes = .ok t) : Fits ['\t', '\n', '\r'] t :=
  fits_of_readFile (soundLines_texts_of_not_mem hbytes) h

/-- Reading undoes writing. A table that `Fits` the format is read back by `read` from what `write`
wrote for it, `sorted` and so with its entries in ascending order of their keys and nothing else
changed; and every table that `read` reads from a file without carriage returns `Fits` the format,
so it is read back as well. -/
theorem read_write :
    (∀ t : Table, Fits ['\t', '\n', '\r'] t →
      read (write t).toUTF8 = .ok t.sorted ∧ t.sorted.IsAscending ∧
        t.sorted.properties = t.properties ∧ t.sorted.equiv t = true) ∧
    ∀ (bytes : ByteArray) (t : Table), 0x0d ∉ bytes.data → read bytes = .ok t →
      Fits ['\t', '\n', '\r'] t ∧
        ∃ t', read (write t).toUTF8 = .ok t' ∧ t'.equiv t = true := by
  refine ⟨fun t ht => ⟨read_write_eq_ok ht, t.isAscending_sorted, rfl, t.equiv_sorted⟩,
    fun bytes t hbytes h => ?_⟩
  have ht := fits_of_read hbytes h
  exact ⟨ht, t.sorted, read_write_eq_ok ht, t.equiv_sorted⟩

/-- A file with something of each kind in it. -/
def sampleFile : ByteArray :=
  ("tiny\t2\t0\tofficial\tnamed\n\tescaped-names\nc\ta\tMain\n\tc\tTwo\\nlines.\n" ++
    "\tf\tLa;\tb\t\n\tm\t(I)V\tc\trun\n\t\tp\t1\t\tcount\n").toUTF8

/-- The table in `sampleFile`. -/
def sampleTable : Table where
  namespaces := { labels := ["official", "named"], valid := by decide }
  properties := .ofList [(escapedNames, none)]
  classes := .ofList [("a", {
    names := { slots := [some "a", some "Main"] }
    comment := some "Two\nlines."
    fields := .ofList [({ name := "b", descriptor := "La;" }, {
      descriptor := "La;"
      names := { slots := [some "b", none] } })]
    methods := .ofList [({ name := "c", descriptor := "(I)V" }, {
      descriptor := "(I)V"
      names := { slots := [some "c", some "run"] }
      parameters :=
        .ofList [(1, { index := 1, names := { slots := [none, some "count"] } })] })] })]

/-- The `sampleTable` fits the format, and is read back from what is written for it. -/
theorem read_write_sample :
    0x0d ∉ sampleFile.data ∧ read sampleFile = .ok sampleTable ∧
      Fits ['\t', '\n', '\r'] sampleTable ∧
      read (write sampleTable).toUTF8 = .ok sampleTable.sorted := by
  have hbytes : 0x0d ∉ sampleFile.data := by decide +kernel
  have hread : read sampleFile = .ok sampleTable := by decide +kernel
  have hfits := (read_write.2 sampleFile sampleTable hbytes hread).1
  exact ⟨hbytes, hread, hfits, (read_write.1 sampleTable hfits).1⟩

end Nested

end MappingTables.Format
