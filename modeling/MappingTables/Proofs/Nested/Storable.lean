import Mathlib.Algebra.Order.BigOperators.Group.List
import Mathlib.Algebra.Order.Group.Nat
import Mathlib.Data.List.ModifyLast
import MappingTables.Proofs.MapNames
import MappingTables.Proofs.Nested.RoundTrip

/-!
# Tables that survive being written and read

Not every table can be stored as a file. An entry without a source name makes the file unreadable, a
tab or a line feed in a descriptor breaks its line, and a carriage return at the end of a line gets
lost.

* `Storable`: none of this is the case.
* `exists_read_write_iff`: exactly the storable tables are read back, of those whose names and
  labels can stand in lines.
-/

namespace MappingTables.Names

open Format Text

/-- The name in the last one of the `slots`. -/
def last? (names : Names) : Option String :=
  names.slots.getLast?.join

/-- The `name` without the carriage return at its end, which is then none if nothing else is
left. -/
def nameWithoutReturn (name : String) : Option String :=
  if withoutReturn name = "" then none else some (withoutReturn name)

/-- The `names` without a carriage return at the end of the last one. -/
def withoutReturn (names : Names) : Names :=
  { slots := names.slots.modifyLast fun slot => slot.bind nameWithoutReturn }

/-- The `names` as they are read from a line that ends with them. Escaped names stay as they are. -/
def asRead (escaped : Bool) (names : Names) : Names :=
  if escaped then names else names.withoutReturn

theorem size_asRead (escaped : Bool) (names : Names) :
    (names.asRead escaped).size = names.size := by
  cases escaped with
  | true => rfl
  | false =>
    rcases List.eq_nil_or_concat' names.slots with h | ⟨slots, last, h⟩
    · rw [asRead, if_neg Bool.false_ne_true, withoutReturn, size, size, h]
      rfl
    · rw [asRead, if_neg Bool.false_ne_true, withoutReturn, size, size, h, List.modifyLast_concat]
      simp

/-- The `source` name does not stand at the end of a line if there are more namespaces, so it is the
same `asRead`. -/
theorem source_asRead (escaped : Bool) {names : Names} (h : 2 ≤ names.size) :
    (names.asRead escaped).source = names.source := by
  cases escaped with
  | true => rfl
  | false =>
    obtain ⟨slots⟩ := names
    match slots, h with
    | a :: b :: slots, _ =>
      have hlast := List.modifyLast_append_of_right_ne_nil
        (fun slot => slot.bind nameWithoutReturn) [a] (b :: slots) (List.cons_ne_nil b slots)
      rw [List.singleton_append] at hlast
      rw [asRead, if_neg Bool.false_ne_true, withoutReturn, hlast]
      rfl

/-- A name `asRead` is one from before, possibly `withoutReturn`. -/
theorem mem_slots_asRead {escaped : Bool} {names : Names} {name : String}
    (h : some name ∈ (names.asRead escaped).slots) :
    some name ∈ names.slots ∨
      ∃ old, some old ∈ names.slots ∧ name = Text.withoutReturn old ∧ name ≠ "" := by
  cases escaped with
  | true => exact .inl h
  | false =>
    rw [asRead, if_neg Bool.false_ne_true, withoutReturn] at h
    -- only the last name can end in a carriage return
    rcases List.eq_nil_or_concat' names.slots with hslots | ⟨slots, last, hslots⟩
    · rw [hslots] at h
      cases h
    · rw [hslots, List.modifyLast_concat, List.mem_append, List.mem_singleton] at h
      rw [hslots]
      rcases h with h | h
      · exact .inl (List.mem_append_left _ h)
      · cases last with
        | none => cases h
        | some old =>
          rw [Option.bind_some, nameWithoutReturn] at h
          split at h
          · cases h
          · next hne =>
            obtain rfl := Option.some.inj h
            exact .inr ⟨old, List.mem_append_right _ List.mem_cons_self, rfl, hne⟩

/-- Names are the same `asRead` if they are escaped, or if the last one does not end with a carriage
return. -/
theorem asRead_eq_self_iff {escaped : Bool} {names : Names} (hne : some "" ∉ names.slots) :
    names.asRead escaped = names ↔
      (escaped = false → ∀ name ∈ names.last?, ¬EndsInReturn name) := by
  cases escaped with
  | true => exact ⟨fun _ h => absurd h (Bool.noConfusion), fun _ => rfl⟩
  | false =>
    rw [asRead, if_neg Bool.false_ne_true, withoutReturn, last?, Names.ext_iff]
    -- only the last name stands at the end of its row
    rcases List.eq_nil_or_concat' names.slots with hslots | ⟨slots, last, hslots⟩
    · simp [hslots, List.modifyLast, List.modifyLast.go]
    · rw [hslots] at hne
      rw [hslots, List.modifyLast_concat, List.getLast?_concat, Option.join_some]
      cases last with
      | none => simp
      | some name =>
        have hname : name ≠ "" := fun h => hne (h ▸ by simp)
        rw [Option.bind_some, List.append_cancel_left_eq, List.cons.injEq, nameWithoutReturn]
        by_cases h : EndsInReturn name
        · have hchanged : Text.withoutReturn name ≠ name := fun heq =>
            withoutReturn_eq_self_iff.1 heq h
          simp [h, hchanged]
        · simp [withoutReturn_of_not_endsInReturn h, h, hname]

end MappingTables.Names

namespace MappingTables.Format.Nested

open Text

/-! ## Lines as they are read -/

section Lines

variable (escaped : Bool)

/-- The lines of `sections` without the carriage returns at their ends. -/
def linesAsRead (sections : List Section) : List Line :=
  (sections.flatMap Section.lines).map Line.withoutReturn

/-- A line that ends with `nameFields` is read as one that ends with the names `asRead`. -/
theorem withoutReturn_nameFields (number depth : Nat) (head : String) (fields : List String)
    {names : Names} (hne : names.slots ≠ []) :
    Line.withoutReturn { number, depth, head, fields := fields ++ nameFields escaped names } =
      { number, depth, head, fields := fields ++ nameFields escaped (names.asRead escaped) } := by
  obtain ⟨slots, last, hslots⟩ := (List.eq_nil_or_concat' names.slots).resolve_left hne
  cases escaped with
  | true =>
    -- escaped names contain no carriage return
    rw [Names.asRead, if_pos rfl]
    refine Line.withoutReturn_eq_self fun field hfield => ?_
    rw [nameFields, hslots, List.map_append, List.map_singleton, ← List.append_assoc,
      ← List.cons_append, List.getLast?_concat, Option.mem_some_iff] at hfield
    subst hfield
    cases last with
    | none => rfl
    | some name => exact withoutReturn_of_avoids ((avoids_escape name).mono (by simp))
  | false =>
    rw [Names.asRead, if_neg Bool.false_ne_true, Names.withoutReturn, nameFields, nameFields,
      hslots, List.modifyLast_concat, List.map_append, List.map_append, List.map_singleton,
      List.map_singleton, ← List.append_assoc, ← List.append_assoc, Line.withoutReturn_of_last]
    cases last with
    | none => rfl
    | some name =>
      rw [Option.bind_some, Names.nameWithoutReturn]
      by_cases h : withoutReturn name = "" <;> simp [h]

theorem linesAsRead_commentSections (depth : Nat) (comment : Option String) :
    linesAsRead (commentSections depth comment) =
      (commentSections depth comment).flatMap Section.lines := by
  cases comment with
  | none => rfl
  | some text =>
    have hescape : withoutReturn (escape text) = escape text :=
      withoutReturn_of_avoids ((avoids_escape text).mono (by simp))
    rw [commentSections, linesAsRead, List.flatMap_singleton, Section.lines, List.map_singleton,
      Line.withoutReturn_eq_self]
    intro field hfield
    obtain rfl := Option.mem_some_iff.1 hfield
    exact hescape

theorem withoutReturn_lines_parameterSection {p : Parameter} (hne : p.names.slots ≠ []) :
    (parameterSection escaped p).lines.map Line.withoutReturn =
      (parameterSection escaped (p.mapNames (Names.asRead escaped))).lines := by
  have hcomment := linesAsRead_commentSections 3 p.comment
  have hhead := withoutReturn_nameFields escaped 0 2 "p" [toString p.index.toNat] hne
  rw [Section.lines, List.map_cons]
  exact congrArg₂ List.cons hhead hcomment

theorem withoutReturn_lines_fieldSection {f : Field} (hne : f.names.slots ≠ []) :
    (fieldSection escaped f).lines.map Line.withoutReturn =
      (fieldSection escaped (f.mapNames (Names.asRead escaped))).lines := by
  have hcomment := linesAsRead_commentSections 2 f.comment
  have hhead := withoutReturn_nameFields escaped 0 1 "f" [f.descriptor] hne
  rw [Section.lines, List.map_cons]
  exact congrArg₂ List.cons hhead hcomment

/-- `linesAsRead` of sections are those of one section after the other. -/
theorem linesAsRead_map {α : Type} {l : List α} {sec sec' : α → Section}
    (h : ∀ a ∈ l, (sec a).lines.map Line.withoutReturn = (sec' a).lines) :
    linesAsRead (l.map sec) = (l.map sec').flatMap Section.lines := by
  rw [linesAsRead, List.flatMap_map, List.flatMap_map, List.map_flatMap]
  exact List.flatMap_congr h

theorem linesAsRead_append (sections sections' : List Section) :
    linesAsRead (sections ++ sections') = linesAsRead sections ++ linesAsRead sections' := by
  rw [linesAsRead, List.flatMap_append, List.map_append]
  rfl

variable {chars : List Char} {size : Nat} (hsize : 0 < size)

include hsize

theorem slots_ne_nil {names : Names} (h : names.size = size) : names.slots ≠ [] := by
  rintro hnil
  rw [Names.size, hnil, List.length_nil] at h
  omega

theorem withoutReturn_lines_methodSection {key : MemberKey} {m : Method}
    (hm : m.Obeys (entryRules chars size escaped) key) :
    (methodSection escaped m).lines.map Line.withoutReturn =
      (methodSection escaped (m.mapNames (Names.asRead escaped))).lines := by
  have hhead := withoutReturn_nameFields escaped 0 1 "m" [m.descriptor]
    (slots_ne_nil hsize hm.names.2.1)
  have hparameters : linesAsRead ((m.parameters.sorted indexLe).map fun e =>
      parameterSection escaped e.2) =
        ((m.parameters.sorted indexLe).map fun e =>
          parameterSection escaped (e.2.mapNames (Names.asRead escaped))).flatMap
            Section.lines := by
    refine linesAsRead_map fun e he => ?_
    have hp := hm.parameters e (OrderedMap.mem_sorted.1 he)
    exact withoutReturn_lines_parameterSection escaped (slots_ne_nil hsize hp.names.1)
  have hbelow : (methodSection escaped m).below.map Line.withoutReturn =
      (methodSection escaped (m.mapNames (Names.asRead escaped))).below := by
    -- what is below the method is its comment and its parameters
    change linesAsRead (_ ++ _) = List.flatMap _ (_ ++ _)
    rw [linesAsRead_append, List.flatMap_append, linesAsRead_commentSections, hparameters,
      Method.mapNames, OrderedMap.sorted_map, List.map_map]
    rfl
  rw [Section.lines, List.map_cons]
  exact congrArg₂ List.cons hhead hbelow

/-- The lines of a `classSection` are read as those of the class with its names `asRead`. -/
theorem withoutReturn_lines_classSection {key : String} {c : ClassEntry}
    (hc : c.Obeys (entryRules chars size escaped) key) :
    (classSection escaped c).lines.map Line.withoutReturn =
      (classSection escaped (c.mapNames (Names.asRead escaped))).lines := by
  have hhead := withoutReturn_nameFields escaped 0 0 "c" [] (slots_ne_nil hsize hc.names.2.1)
  -- each line loses a return of its own, so the members can be taken one by one
  have hfields : linesAsRead ((c.fields.sorted MemberKey.le).map fun e =>
      fieldSection escaped e.2) =
        ((c.fields.sorted MemberKey.le).map fun e =>
          fieldSection escaped (e.2.mapNames (Names.asRead escaped))).flatMap Section.lines := by
    refine linesAsRead_map fun e he => ?_
    have hf := hc.fields e (OrderedMap.mem_sorted.1 he)
    exact withoutReturn_lines_fieldSection escaped (slots_ne_nil hsize hf.names.2.1)
  have hmethods : linesAsRead ((c.methods.sorted MemberKey.le).map fun e =>
      methodSection escaped e.2) =
        ((c.methods.sorted MemberKey.le).map fun e =>
          methodSection escaped (e.2.mapNames (Names.asRead escaped))).flatMap Section.lines := by
    refine linesAsRead_map fun e he => ?_
    exact withoutReturn_lines_methodSection escaped hsize
      (hc.methods e (OrderedMap.mem_sorted.1 he))
  have hbelow : (classSection escaped c).below.map Line.withoutReturn =
      (classSection escaped (c.mapNames (Names.asRead escaped))).below := by
    change linesAsRead (_ ++ _ ++ _) = List.flatMap _ (_ ++ _ ++ _)
    rw [linesAsRead_append, linesAsRead_append, List.flatMap_append, List.flatMap_append,
      linesAsRead_commentSections, hfields, hmethods, ClassEntry.mapNames, OrderedMap.sorted_map,
      OrderedMap.sorted_map, List.map_map, List.map_map]
    rfl
  rw [Section.lines, List.map_cons]
  exact congrArg₂ List.cons hhead hbelow

end Lines

/-! ## Header properties as they are read -/

/-- A header `property` as it is read. Its line ends with the value, if it has one. -/
def propertyAsRead (property : String × Option String) : String × Option String :=
  match property with
  | (key, some value) => (key, some (withoutReturn value))
  | (key, none) => (withoutReturn key, none)

/-- How many characters stand in the line of a header `property`. -/
def propertyLength (property : String × Option String) : Nat :=
  property.1.length + (property.2.getD "").length

theorem linesAsRead_propertySections (properties : List (String × Option String)) :
    linesAsRead (properties.map propertySection) =
      ((properties.map propertyAsRead).map propertySection).flatMap Section.lines := by
  rw [List.map_map]
  refine linesAsRead_map fun e _ => ?_
  obtain ⟨key, value⟩ := e
  cases value with
  | none => rfl
  | some value =>
    rw [propertySection, Section.lines, List.map_cons]
    exact congrArg (· :: []) (Line.withoutReturn_of_last 0 1 key [] value)

theorem propertyAsRead_eq_self_iff {property : String × Option String} :
    propertyAsRead property = property ↔ ¬EndsInReturn (property.2.getD property.1) := by
  obtain ⟨key, value⟩ := property
  cases value <;> simp [propertyAsRead, withoutReturn_eq_self_iff]

theorem propertyLength_propertyAsRead_le (property : String × Option String) :
    propertyLength (propertyAsRead property) ≤ propertyLength property := by
  obtain ⟨key, value⟩ := property
  cases value with
  | none => exact Nat.add_le_add_right (length_withoutReturn_le key) _
  | some value => exact Nat.add_le_add_left (length_withoutReturn_le value) _

theorem propertyLength_propertyAsRead_lt {property : String × Option String}
    (h : EndsInReturn (property.2.getD property.1)) :
    propertyLength (propertyAsRead property) < propertyLength property := by
  obtain ⟨key, value⟩ := property
  cases value with
  | none => exact Nat.add_lt_add_right (length_withoutReturn_lt h) _
  | some value => exact Nat.add_lt_add_left (length_withoutReturn_lt h) _

/-- If the same properties are read, no line of them `EndsInReturn`. `propertyAsRead` may let two
keys fall together, so properties are counted, and then the characters of them all. -/
theorem not_endsInReturn_of_get?_eq {properties : OrderedMap String (Option String)}
    (h : ∀ key, (OrderedMap.ofList (properties.entries.map propertyAsRead)).get? key =
      properties.get? key) :
    ∀ e ∈ properties.entries, ¬EndsInReturn (e.2.getD e.1) := by
  -- every entry is one as it is read, and there are not more of these, so they are the same
  have hsubset : properties.entries ⊆ properties.entries.map propertyAsRead := by
    intro e he
    exact OrderedMap.mem_of_mem_ofList ((OrderedMap.mem_entries_iff_of_get?_eq h).2 he)
  have hnodup : properties.entries.Nodup := properties.nodup_keys.of_map
  have hperm : properties.entries.Perm (properties.entries.map propertyAsRead) :=
    (List.subperm_of_subset hnodup hsubset).perm_of_length_le (by simp)
  -- but a carriage return that got lost would make the lines shorter
  have hlength := (hperm.map propertyLength).sum_eq
  rw [List.map_map] at hlength
  intro e he hreturn
  have hlt := List.sum_lt_sum (propertyLength ∘ propertyAsRead) propertyLength
    (fun e' _ => propertyLength_propertyAsRead_le e')
    ⟨e, he, propertyLength_propertyAsRead_lt hreturn⟩
  exact absurd hlength (Nat.ne_of_gt hlt)

/-! ## Storable tables -/

/-- What is asked of the entries of a table so that they survive: a source name where the dialect
has no other key, descriptors in one field, and no carriage return at the end of a line of names
that are not `escaped`. -/
def storableRules (escaped : Bool) : EntryRules where
  keyed _ names :=
    names.source ≠ none ∧ (escaped = false → ∀ name ∈ names.last?, ¬EndsInReturn name)
  descriptor := Avoids ['\t', '\n']
  parameter names := escaped = false → ∀ name ∈ names.last?, ¬EndsInReturn name

/-- Whether a table survives being written and read: it follows the `storableRules`. -/
structure Storable (t : Table) : Prop where
  entries : t.Obeys (storableRules (t.properties.contains escapedNames))
  /-- The line of a header property ends with its value, or with its key if it has none. -/
  properties : ∀ e ∈ t.properties.entries, ¬EndsInReturn (e.2.getD e.1)

section Decidable

variable (escaped : Bool)

instance (key : String) (names : Names) : Decidable ((storableRules escaped).keyed key names) :=
  inferInstanceAs (Decidable (_ ∧ (escaped = false → ∀ name ∈ names.last?, ¬EndsInReturn name)))

instance (descriptor : String) : Decidable ((storableRules escaped).descriptor descriptor) :=
  inferInstanceAs (Decidable (Avoids _ descriptor))

instance (names : Names) : Decidable ((storableRules escaped).parameter names) :=
  inferInstanceAs (Decidable (escaped = false → ∀ name ∈ names.last?, ¬EndsInReturn name))

end Decidable

instance (t : Table) : Decidable (Storable t) :=
  decidable_of_iff
    (t.Obeys (storableRules (t.properties.contains escapedNames)) ∧
      ∀ e ∈ t.properties.entries, ¬EndsInReturn (e.2.getD e.1))
    ⟨fun h => ⟨h.1, h.2⟩, fun h => ⟨h.1, h.2⟩⟩

/-- What is asked of the entries of a table whose names can stand in lines, as `FitNames` says. They
need no source names, and nothing is asked of their descriptors. -/
def legibleRules (size : Nat) (escaped : Bool) : EntryRules where
  keyed key names := names.size = size ∧ (∀ name ∈ names.source, name = key) ∧
    FitNames ['\t', '\n'] escaped names
  parameter names := names.size = size ∧ FitNames ['\t', '\n'] escaped names

/-- Whether the names, labels and properties of a table can stand in lines, by the `legibleRules`.
There has to be a namespace beside that of the source. -/
structure Legible (t : Table) : Prop where
  entries : t.Obeys (legibleRules t.namespaces.size (t.properties.contains escapedNames))
  size : 2 ≤ t.namespaces.size
  labels : ∀ label ∈ t.namespaces.labels, Avoids ['\t', '\n', '\r'] label
  keys : ∀ e ∈ t.properties.entries, Avoids ['\t', '\n'] e.1
  values : ∀ e ∈ t.properties.entries, ∀ value ∈ e.2, Avoids ['\t', '\n'] value ∧ e.1 ≠ ""

/-- A table that `read` reads from any file `Fits`, but for its carriage returns. -/
theorem fits_of_read_of_any {bytes : ByteArray} {t : Table} (h : read bytes = .ok t) :
    Fits ['\t', '\n'] t :=
  fits_of_readFile (soundLines_texts bytes) h

section Storable

variable {t : Table}

theorem Legible.fits (h : Legible t) (hstorable : Storable t) : Fits ['\t', '\n'] t where
  entries := (h.entries.and hstorable.entries).mono {
    keyed := by
      rintro key names ⟨⟨hsize, hkey, hfit⟩, hsource, -⟩
      obtain ⟨name, hname⟩ := Option.ne_none_iff_exists'.1 hsource
      exact ⟨hname.trans (congrArg some (hkey name hname)), hsize, hfit⟩
    descriptor := fun _ hdescriptor => hdescriptor.2
    parameter := fun _ hnames => hnames.1 }
  labels := fun label hlabel => (h.labels label hlabel).mono (by decide)
  keys := h.keys
  values := h.values

/-- The table that can be read is what was written, so a table that is `Legible` and `equiv` to it
`Fits`. -/
theorem Legible.fits_of_equiv (h : Legible t) {t' : Table} (hfits : Fits ['\t', '\n'] t')
    (heq : t'.equiv t = true) : Fits ['\t', '\n'] t := by
  obtain ⟨hnamespaces, hproperties, -⟩ := Table.equiv_iff.1 heq
  have hescaped : t'.properties.contains escapedNames = t.properties.contains escapedNames := by
    rw [OrderedMap.contains, OrderedMap.contains, hproperties]
  have hentries := hfits.entries.of_equiv heq
  rw [hnamespaces, hescaped] at hentries
  exact ⟨hentries, fun label hlabel => (h.labels label hlabel).mono (by decide), h.keys, h.values⟩

/-- What a table becomes that `Fits` if its names are taken `asRead`. -/
theorem Fits.mapNames_asRead (h : Fits ['\t', '\n'] t) (hsize : 2 ≤ t.namespaces.size) :
    (t.mapNames (Names.asRead (t.properties.contains escapedNames))).Obeys
      (entryRules ['\t', '\n'] t.namespaces.size (t.properties.contains escapedNames)) := by
  -- a name that lost its carriage return is still free of the characters that it was free of
  have hparameter : ∀ names, (entryRules ['\t', '\n'] t.namespaces.size
      (t.properties.contains escapedNames)).parameter names →
        (entryRules ['\t', '\n'] t.namespaces.size (t.properties.contains escapedNames)).parameter
          (names.asRead (t.properties.contains escapedNames)) := by
    intro names hnames
    refine ⟨(names.size_asRead _).trans hnames.1, fun name hname => ?_⟩
    rcases Names.mem_slots_asRead hname with hname | ⟨old, hold, rfl, hne⟩
    · exact hnames.2 name hname
    · exact ⟨hne, fun hescaped => Avoids.withoutReturn ((hnames.2 old hold).2 hescaped)⟩
  refine Table.Obeys.mapNames ?_ (fun _ => id) hparameter h.entries
  intro key names hnames
  have htwo : 2 ≤ names.size := by
    rw [hnames.2.1]
    exact hsize
  exact ⟨(Names.source_asRead _ htwo).trans hnames.1, hparameter names hnames.2⟩

/-- The `tableLines` as they are read, `withoutReturn` and with names `asRead`. -/
theorem withoutReturn_tableLines (h : Fits ['\t', '\n'] t) (hsize : 2 ≤ t.namespaces.size)
    (hlabels : ∀ label ∈ t.namespaces.labels, Avoids ['\t', '\n', '\r'] label) :
    (tableLines t).map Line.withoutReturn =
      headerLine t :: (((t.properties.entries.map propertyAsRead).map propertySection).flatMap
        Section.lines ++ ((t.classes.sorted textLe).map fun e =>
          classSection (t.properties.contains escapedNames)
            (e.2.mapNames (Names.asRead (t.properties.contains escapedNames)))).flatMap
              Section.lines) := by
  have hheader : (headerLine t).withoutReturn = headerLine t := by
    -- no field of the header ends in a carriage return
    refine Line.withoutReturn_eq_self fun field hfield => withoutReturn_of_avoids ?_
    have hmem : field ∈ ["tiny", "2", "0"] ++ t.namespaces.labels := List.mem_of_getLast? hfield
    rcases List.mem_append.1 hmem with hfixed | hlabel
    · have hwords : ∀ word ∈ ["tiny", "2", "0"], Avoids ['\r'] word := by decide
      exact hwords field hfixed
    · exact (hlabels field hlabel).mono (by decide)
  have hclasses : linesAsRead (classSections t) =
      ((t.classes.sorted textLe).map fun e => classSection (t.properties.contains escapedNames)
        (e.2.mapNames (Names.asRead (t.properties.contains escapedNames)))).flatMap
          Section.lines := by
    refine linesAsRead_map fun e he => ?_
    have hc := h.entries e (OrderedMap.mem_sorted.1 he)
    exact withoutReturn_lines_classSection _ (Nat.lt_of_lt_of_le Nat.zero_lt_two hsize) hc
  have hproperties := linesAsRead_propertySections t.properties.entries
  rw [tableLines, List.map_cons, List.map_append, hheader]
  exact congrArg (headerLine t :: ·) (congrArg₂ (· ++ ·) hproperties hclasses)

/-- If no header property `EndsInReturn`, then what is read are the `tableLines` of the table with
its names `asRead`. -/
theorem withoutReturn_tableLines_eq (h : Fits ['\t', '\n'] t) (hsize : 2 ≤ t.namespaces.size)
    (hlabels : ∀ label ∈ t.namespaces.labels, Avoids ['\t', '\n', '\r'] label)
    (hproperties : ∀ e ∈ t.properties.entries, ¬EndsInReturn (e.2.getD e.1)) :
    (tableLines t).map Line.withoutReturn =
      tableLines (t.mapNames (Names.asRead (t.properties.contains escapedNames))) := by
  have hsame : t.properties.entries.map propertyAsRead = t.properties.entries := by
    rw [List.map_congr_left fun e he => propertyAsRead_eq_self_iff.2 (hproperties e he),
      List.map_id']
  rw [withoutReturn_tableLines h hsize hlabels, hsame, tableLines, classSections, Table.mapNames,
    OrderedMap.sorted_map, List.map_map]
  rfl

/-- If what `read` reads is `equiv` to the table that `write` wrote, then no header property lost a
carriage return, and what is read is the table with its names `asRead`. -/
theorem eq_of_read_write (h : Legible t) (hfits : Fits ['\t', '\n'] t) {t' : Table}
    (hread : read (write t).toUTF8 = .ok t') (heq : t'.equiv t = true) :
    (∀ e ∈ t.properties.entries, ¬EndsInReturn (e.2.getD e.1)) ∧
      t' = (t.mapNames (Names.asRead (t.properties.contains escapedNames))).sorted := by
  have hlines : readFile (((tableLines t).map Line.withoutReturn).map .ok) = .ok t' := by
    rw [← toOption_eq_some_iff, List.map_map]
    exact (toOption_read_write hfits).symm.trans (toOption_eq_some_iff.2 hread)
  -- the properties come first, and no class changes them
  have hkept : t'.properties = .ofList (t.properties.entries.map propertyAsRead) := by
    rw [withoutReturn_tableLines hfits h.size h.labels, readFile_sections, within_eq_ok_iff]
      at hlines
    · refine readLevel_induction
        (fun s => s.properties = .ofList (t.properties.entries.map propertyAsRead)) hlines rfl ?_
      intro s line body s' unread _ _ hs hstep
      exact (header_of_readTopLevel hstep).2.trans hs
    · intro sec hsec
      obtain ⟨e, -, rfl⟩ := List.mem_map.1 hsec
      exact isAt_classSection _ _
  have hproperties := (Table.equiv_iff.1 heq).2.1
  rw [hkept] at hproperties
  have hreturns := not_endsInReturn_of_get?_eq hproperties
  rw [withoutReturn_tableLines_eq hfits h.size h.labels hreturns,
    readFile_tableLines (hfits.mapNames_asRead h.size)] at hlines
  exact ⟨hreturns, (Except.ok.inj hlines).symm⟩

/-- Exactly the tables that are `Storable` survive being written and read, of those that are
`Legible`, whose names and labels can stand in lines. -/
theorem exists_read_write_iff (h : Legible t) :
    (∃ t', read (write t).toUTF8 = .ok t' ∧ t'.equiv t = true) ↔ Storable t := by
  have hempty : ∀ names, FitNames ['\t', '\n'] (t.properties.contains escapedNames) names →
      some "" ∉ names.slots := fun names hnames hmem => (hnames "" hmem).1 rfl
  constructor
  · rintro ⟨t', hread, heq⟩
    have hfits := h.fits_of_equiv (fits_of_read_of_any hread) heq
    obtain ⟨hreturns, rfl⟩ := eq_of_read_write h hfits hread heq
    -- the names are the same before and after reading, so nothing got lost at the ends of lines
    have hsame := Table.equiv_trans (Table.equiv_symm (Table.equiv_sorted _)) heq
    have hfixed := hfits.entries.of_equiv_mapNames hsame
    refine ⟨(hfits.entries.and hfixed).mono ?_, hreturns⟩
    exact {
      keyed := by
        rintro key names ⟨⟨hsource, -, hfit⟩, hfixed⟩
        refine ⟨?_, (Names.asRead_eq_self_iff (hempty names hfit)).1 hfixed⟩
        rw [hsource]
        exact Option.some_ne_none key
      descriptor := fun _ hdescriptor => hdescriptor.1
      parameter := by
        rintro names ⟨⟨-, hfit⟩, hfixed⟩
        exact (Names.asRead_eq_self_iff (hempty names hfit)).1 hfixed }
  · intro hstorable
    have hfits := h.fits hstorable
    have hfixed : t.Obeys (fixedRules (Names.asRead (t.properties.contains escapedNames))) :=
      (hfits.entries.and hstorable.entries).mono {
        keyed := fun key names hnames =>
          (Names.asRead_eq_self_iff (hempty names hnames.1.2.2)).2 hnames.2.2
        descriptor := fun _ _ => trivial
        parameter := fun names hnames =>
          (Names.asRead_eq_self_iff (hempty names hnames.1.2)).2 hnames.2 }
    have hlines := withoutReturn_tableLines_eq hfits h.size h.labels hstorable.properties
    rw [Table.mapNames_eq_self hfixed] at hlines
    refine ⟨t.sorted, ?_, t.equiv_sorted⟩
    rw [← toOption_eq_some_iff, toOption_read_write hfits]
    refine Eq.trans (congrArg (fun lines => (readFile lines).toOption) (List.map_map ..).symm) ?_
    rw [hlines, readFile_tableLines hfits.entries]
    rfl

end Storable

end MappingTables.Format.Nested
