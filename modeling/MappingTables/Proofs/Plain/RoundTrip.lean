import MappingTables.Proofs.Nested.RoundTrip
import MappingTables.Proofs.Plain.Reader
import MappingTables.Proofs.Plain.Writer

/-!
# Writing and reading the plain dialect

What the plain dialect holds of a table can be written and read back.

* `Fits`: the tables that can be written.
* `toOption_read_write`: what is read from the text of a table is what is read from its lines.
* `read_write_bare`: a table that can be written is read back, but for what the dialect does not
  hold.
-/

namespace MappingTables.Format.Plain

open Text

/-! ## The numbers of lines -/

/-- What `readMember` reads from the line of a member, apart from messages, does not depend on its
number. -/
theorem toOption_readMember_unnumbered
    (add : ClassEntry → String → Names → Except Failure ClassEntry) (t : Table) (line : Line) :
    (readMember add t line.unnumbered).toOption = (readMember add t line).toOption := by
  unfold readMember
  simp only [toOption_bind, toOption_within, Line.toOption_next_unnumbered, Option.bind_map,
    Function.comp_def, Prod.map, id, Line.toOption_names_unnumbered]

/-- What `readLine` reads from a line, apart from messages, does not depend on its number. -/
theorem toOption_readLine_unnumbered (t : Table) (line : Line) :
    (readLine t line.unnumbered).toOption = (readLine t line).toOption := by
  unfold readLine
  rw [show line.unnumbered.head = line.head from rfl]
  split
  · simp only [toOption_bind, toOption_within, Line.toOption_names_unnumbered]
  · exact toOption_readMember_unnumbered _ t line
  · exact toOption_readMember_unnumbered _ t line
  · split
    · rfl
    · rw [toOption_within, toOption_within]

/-- What `readFile` reads from lines, apart from messages, does not depend on their numbers. -/
theorem toOption_readFile_map_unnumbered (lines : List ReadLine) :
    (readFile (lines.map unnumbered)).toOption = (readFile lines).toOption := by
  cases lines with
  | nil => rfl
  | cons line lines =>
    cases line with
    | error cause => rfl
    | ok header =>
      change (readFile (.ok header.unnumbered :: lines.map unnumbered)).toOption = _
      have hheader : (readHeader header.unnumbered) = readHeader header := rfl
      rw [readFile, readFile, hheader, toOption_bind, toOption_bind]
      refine congrArg _ (funext fun namespaces => ?_)
      rw [List.foldlM_map]
      refine toOption_foldlM_congr (fun t line => ?_) _
      cases line with
      | error cause => rfl
      | ok line => exact toOption_readLine_unnumbered t line

/-! ## Tables that can be written -/

/-- What is asked of the entries of a table so that its lines are cut out of its text again: no text
in it contains any of `chars`. No name is asked not to be empty if it stands under an empty key. -/
def heldRules (chars : List Char) (size : Nat) : EntryRules where
  keyed key names := names.source = some key ∧ names.size = size ∧ names.All (Avoids chars) ∧
    (key ≠ "" → some "" ∉ names.slots)
  descriptor := Avoids chars
  parameter := (Nested.entryRules chars size false).parameter

/-- Whether what the dialect holds of a table, as it is `bare`, can be written: names are not empty,
one for each namespace and the first one that of the key, and all texts avoid `chars`. -/
structure Fits (chars : List Char) (t : Table) : Prop where
  entries : t.bare.Obeys (Nested.entryRules chars t.namespaces.size false)
  labels : ∀ label ∈ t.namespaces.labels, Avoids chars label

section Writing

variable {chars : List Char} {size : Nat} {t : Table}

/-- A table that can be written follows the weaker `heldRules`. -/
theorem implies_heldRules :
    (Nested.entryRules chars size false).Implies (heldRules chars size) where
  keyed _ _ hnames := ⟨hnames.1, hnames.2.1, fun name hname => (hnames.2.2 name hname).2 rfl,
    fun _ hempty => (hnames.2.2 "" hempty).1 rfl⟩
  descriptor _ := id
  parameter _ := id

/-- The `nameFields` contain nothing that the names do not. -/
theorem avoids_nameFields {names : Names} (h : names.All (Avoids chars)) :
    ∀ field ∈ nameFields names, Avoids chars field := by
  intro field hfield
  obtain ⟨slot, hslot, rfl⟩ := List.mem_map.1 hfield
  cases slot with
  | none => exact fun _ _ => List.not_mem_nil
  | some name => exact h name hslot

/-- The `memberLine` for a field or method `IsSound`. -/
theorem isSound_memberLine {kind owner descriptor : String} {names : Names}
    (hkind : Avoids ['\t', '\n', '\r'] kind ∧ kind ≠ "") (howner : Avoids ['\t', '\n', '\r'] owner)
    (hdescriptor : Avoids ['\t', '\n', '\r'] descriptor)
    (hnames : names.All (Avoids ['\t', '\n', '\r'])) :
    (memberLine kind owner descriptor names).IsSound ['\n', '\r'] :=
  Nested.isSound_of_word hkind (List.Subset.refl _)
    (List.forall_mem_cons.2
      ⟨howner, List.forall_mem_cons.2 ⟨hdescriptor, avoids_nameFields hnames⟩⟩)

/-- The `tableLines` of a table are each `IsSound` if all texts in it are. -/
theorem isSound_tableLines (ht : t.bare.Obeys (heldRules ['\t', '\n', '\r'] size))
    (hlabels : ∀ label ∈ t.namespaces.labels, Avoids ['\t', '\n', '\r'] label) :
    ∀ line ∈ tableLines t, line.IsSound ['\n', '\r'] := by
  have hclass : ∀ e ∈ t.classes.sorted textLe,
      e.2.bare.Obeys (heldRules ['\t', '\n', '\r'] size) e.1 := fun e he =>
    ht.bare_class e (OrderedMap.mem_sorted.1 he)
  have howner : ∀ e ∈ t.classes.sorted textLe, Avoids ['\t', '\n', '\r'] e.1 := fun e he =>
    (hclass e he).names.2.2.1.get (hclass e he).names.1
  -- the lines come in four parts: the header, the classes, the fields and the methods
  refine List.forall_mem_cons.2
    ⟨?_, List.forall_mem_append.2 ⟨List.forall_mem_append.2 ⟨?_, ?_⟩, ?_⟩⟩
  · exact Nested.isSound_of_word (by decide) (List.Subset.refl _) hlabels
  · intro line hline
    obtain ⟨e, he, rfl⟩ := List.mem_map.1 hline
    exact Nested.isSound_of_word (by decide) (List.Subset.refl _)
      (avoids_nameFields (hclass e he).names.2.2.1)
  · intro line hline
    obtain ⟨e, he, hline⟩ := List.mem_flatMap.1 hline
    obtain ⟨f, hf, rfl⟩ := List.mem_map.1 hline
    have hfield := (hclass e he).bare_field f (OrderedMap.mem_sorted.1 hf)
    exact isSound_memberLine (by decide) (howner e he) (hfield.descriptor_eq ▸ hfield.descriptor)
      hfield.names.2.2.1
  · intro line hline
    obtain ⟨e, he, hline⟩ := List.mem_flatMap.1 hline
    obtain ⟨m, hm, rfl⟩ := List.mem_map.1 hline
    have hmethod := (hclass e he).bare_method m (OrderedMap.mem_sorted.1 hm)
    exact isSound_memberLine (by decide) (howner e he) (hmethod.descriptor_eq ▸ hmethod.descriptor)
      hmethod.names.2.2.1

/-- What `read` reads from the text that `write` wrote is what `readFile` reads from the
`tableLines`. -/
theorem toOption_read_write (ht : t.bare.Obeys (heldRules ['\t', '\n', '\r'] size))
    (hlabels : ∀ label ∈ t.namespaces.labels, Avoids ['\t', '\n', '\r'] label) :
    (read (write t).toUTF8).toOption = (readFile ((tableLines t).map .ok)).toOption := by
  have hsound := isSound_tableLines ht hlabels
  have hlines : ∀ line ∈ tableLines t, line.IsSound ['\n'] := fun line hline =>
    { avoids := fun field hfield => ((hsound line hline).avoids field hfield).mono (by decide)
      head_ne := (hsound line hline).head_ne }
  rw [read, readInput, readTexts, ← toOption_readFile_map_unnumbered, write, tableRows_eq,
    map_unnumbered_readLines_unlines hlines, toOption_readFile_map_unnumbered,
    map_withoutReturn hsound]

/-- A table that `Fits` is read back by `read` as what the dialect holds of it, `bare` and
`sorted`. -/
theorem read_write_eq_ok (ht : Fits ['\t', '\n', '\r'] t) :
    read (write t).toUTF8 = .ok t.bare.sorted := by
  rw [← toOption_eq_some_iff, toOption_read_write (ht.entries.mono implies_heldRules) ht.labels,
    readFile_tableLines ht.entries]
  rfl

/-- Reading undoes writing, up to what the dialect does not hold. A table that `Fits` is read back
by `read` from what `write` wrote as it is `bare`, without its header properties, comments and
parameters, and `sorted`, with its entries in ascending order of their keys; nothing else
changes. -/
theorem read_write_bare (ht : Fits ['\t', '\n', '\r'] t) :
    read (write t).toUTF8 = .ok t.bare.sorted ∧ t.bare.sorted.IsAscending ∧
      t.bare.sorted.equiv t.bare = true :=
  ⟨read_write_eq_ok ht, t.bare.isAscending_sorted, t.bare.equiv_sorted⟩

end Writing

/-- A table with a comment, a parameter, overloaded methods, an absent name and an empty
descriptor. -/
def sampleTable : Table where
  namespaces := { labels := ["official", "named"], valid := Namespaces.validLabels_official_named }
  properties := .ofList [("escaped-names", none)]
  classes := .ofList [
    ("b", { names := { slots := [some "b", none] } }),
    ("a", {
      names := { slots := [some "a", some "Main"] }
      comment := some "Two\nlines."
      fields := .ofList [({ name := "c", descriptor := "" }, {
        descriptor := ""
        names := { slots := [some "c", some "count"] } })]
      methods := .ofList [
        ({ name := "d", descriptor := "(I)V" }, {
          descriptor := "(I)V"
          names := { slots := [some "d", some "run"] }
          parameters := .ofList [(1, { index := 2, names := { slots := [] } })] }),
        ({ name := "d", descriptor := "()V" }, {
          descriptor := "()V"
          names := { slots := [some "d", none] } })] })]

/-- The `sampleTable` is read back without what the dialect does not hold. -/
theorem read_write_bare_sample :
    Fits ['\t', '\n', '\r'] sampleTable ∧
      read (write sampleTable).toUTF8 = .ok sampleTable.bare.sorted ∧
      sampleTable.bare ≠ sampleTable := by
  have hfits : Fits ['\t', '\n', '\r'] sampleTable := ⟨by decide +kernel, by decide +kernel⟩
  exact ⟨hfits, (read_write_bare hfits).1, by decide +kernel⟩

end MappingTables.Format.Plain
