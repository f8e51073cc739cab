import MappingTables.Proofs.Nested.Writer

/-!
# Tables with the same text

The rows for classes, members and parameters stand in ascending order of their keys, so the order in
which these were put into a table cannot be seen in its text. The rows for the header properties
stand in the order in which the properties are.

* `classRows_eq_of_equiv`: the rows of classes that are the same but for the order.
* `write_eq_write_iff`: when tables that are the same but for the order have the same text.
-/

namespace MappingTables.Format

open Text

/-- `unlines` of rows after each other are texts after each other. -/
theorem unlines_append (rows rows' : List String) :
    unlines (rows ++ rows') = unlines rows ++ unlines rows' := by
  apply String.toList_injective
  simp only [unlines, String.toList_append, String.toList_join, List.map_append,
    List.flatMap_append]

/-- What stands before the first `sep` can be told from what stands behind it. -/
theorem append_separator_inj {α : Type} {sep : α} {l l' rest rest' : List α} (hl : sep ∉ l)
    (hl' : sep ∉ l') (h : l ++ sep :: rest = l' ++ sep :: rest') : l = l' ∧ rest = rest' := by
  induction l generalizing l' with
  | nil =>
    cases l' with
    | nil => exact ⟨rfl, (List.cons.inj h).2⟩
    | cons a l' => exact absurd ((List.cons.inj h).1 ▸ List.mem_cons_self) hl'
  | cons a l ih =>
    cases l' with
    | nil => exact absurd ((List.cons.inj h).1 ▸ List.mem_cons_self) hl
    | cons a' l' =>
      obtain ⟨rfl, hrest⟩ := List.cons.inj h
      obtain ⟨rfl, rfl⟩ := ih (List.not_mem_of_not_mem_cons hl) (List.not_mem_of_not_mem_cons hl')
        hrest
      exact ⟨rfl, rfl⟩

/-- Rows without line feeds are told by the text to which `unlines` joins them. -/
theorem unlines_inj {rows rows' : List String} (h : ∀ row ∈ rows, Avoids ['\n'] row)
    (h' : ∀ row ∈ rows', Avoids ['\n'] row) : unlines rows = unlines rows' ↔ rows = rows' := by
  refine ⟨fun heq => ?_, congrArg unlines⟩
  have hchars := congrArg String.toList heq
  clear heq
  simp only [unlines, String.toList_join, List.flatMap_map, String.toList_append,
    show "\n".toList = ['\n'] from rfl] at hchars
  induction rows generalizing rows' with
  | nil =>
    cases rows' with
    | nil => rfl
    | cons row' rows' => simp at hchars
  | cons row rows ih =>
    cases rows' with
    | nil => simp at hchars
    | cons row' rows' =>
      rw [List.forall_mem_cons] at h h'
      rw [List.flatMap_cons, List.flatMap_cons, List.append_assoc, List.append_assoc] at hchars
      -- no row contains a line feed, so the first one ends the first row on both sides
      obtain ⟨hrow, hrows⟩ := append_separator_inj (h.1 '\n' List.mem_cons_self)
        (h'.1 '\n' List.mem_cons_self) hchars
      rw [String.toList_injective hrow, ih h.2 h'.2 hrows]

namespace Nested

/-! ## Entries -/

section Entries

variable {escaped : Bool}

/-- Methods that are `equiv`, the same but for the order of their parameters, have the same
`methodRows`. -/
theorem methodRows_eq_of_equiv {m n : Method} (h : m.equiv n = true) :
    methodRows escaped m = methodRows escaped n := by
  obtain ⟨hdescriptor, hnames, hcomment, hparameters⟩ := Method.equiv_iff.1 h
  have hrows := OrderedMap.map_sorted_eq_of_rel
    (fun index => OrderedMap.rel_eq_iff.2 (hparameters index)) isKeyOrder_indexLe
    (f := fun e => parameterRows escaped e.2) fun _ _ _ hpq => congrArg _ hpq
  rw [methodRows, methodRows, hdescriptor, hnames, hcomment, List.flatMap_def, List.flatMap_def,
    hrows]

/-- Classes that are `equiv`, the same but for the order of what is in them, have the same
`classRows`. -/
theorem classRows_eq_of_equiv {c d : ClassEntry} (h : c.equiv d = true) :
    classRows escaped c = classRows escaped d := by
  obtain ⟨hnames, hcomment, hfields, hmethods⟩ := ClassEntry.equiv_iff.1 h
  have hfieldRows := OrderedMap.map_sorted_eq_of_rel
    (fun key => OrderedMap.rel_eq_iff.2 (hfields key)) isKeyOrder_memberKey
    (f := fun e => fieldRows escaped e.2) fun _ _ _ hfg => congrArg _ hfg
  have hmethodRows := OrderedMap.map_sorted_eq_of_rel hmethods isKeyOrder_memberKey
    (f := fun e => methodRows escaped e.2) fun _ _ _ hmn => methodRows_eq_of_equiv hmn
  rw [classRows, classRows, hnames, hcomment]
  simp only [List.flatMap_def, hfieldRows, hmethodRows]

end Entries

/-! ## Header properties -/

/-- The text of the header properties, each in its `propertyRow`. -/
def propertyText (t : Table) : String :=
  unlines (t.properties.entries.map fun e => propertyRow e.1 e.2)

/-- Whether no property contains a tab or a line end: its key and its value are each a text that
`Avoids` them. -/
def HasPlainProperties (t : Table) : Prop :=
  ∀ e ∈ t.properties.entries, ∀ text ∈ e.1 :: e.2.toList, Avoids ['\t', '\n'] text

instance (t : Table) : Decidable (HasPlainProperties t) :=
  inferInstanceAs (Decidable (∀ e ∈ t.properties.entries, ∀ text ∈ e.1 :: e.2.toList,
    Avoids ['\t', '\n'] text))

/-- Properties without tabs and line feeds are told by their `propertyRow`. -/
theorem propertyRow_inj {key key' : String} {value value' : Option String}
    (h : ∀ text ∈ key :: value.toList, Avoids ['\t', '\n'] text)
    (h' : ∀ text ∈ key' :: value'.toList, Avoids ['\t', '\n'] text)
    (heq : propertyRow key value = propertyRow key' value') : key = key' ∧ value = value' := by
  have hchars := congrArg String.toList heq
  rw [propertyRow, propertyRow, row, row, String.toList_append, String.toList_append] at hchars
  have hjoined := String.toList_injective (List.append_cancel_left hchars)
  have htab : ∀ texts : List String, (∀ text ∈ texts, Avoids ['\t', '\n'] text) →
      ∀ text ∈ texts, Avoids ['\t'] text := fun texts h text htext => (h text htext).mono (by simp)
  have hfields := congrArg fields hjoined
  rw [fields_intercalate (List.cons_ne_nil _ _) (htab _ h),
    fields_intercalate (List.cons_ne_nil _ _) (htab _ h')] at hfields
  obtain ⟨hkey, hvalue⟩ := List.cons.inj hfields
  refine ⟨hkey, ?_⟩
  simpa using congrArg List.head? hvalue

/-- Properties without tabs and line feeds are told, in their order, by the `propertyText`. -/
theorem propertyText_eq_iff {s t : Table} (hs : HasPlainProperties s) (ht : HasPlainProperties t) :
    propertyText s = propertyText t ↔ s.properties = t.properties := by
  refine ⟨fun heq => OrderedMap.ext ?_, fun heq => by rw [propertyText, propertyText, heq]⟩
  have hrows : ∀ u : Table, HasPlainProperties u →
      ∀ row ∈ u.properties.entries.map fun e => propertyRow e.1 e.2, Avoids ['\n'] row := by
    intro u hu row hrow
    obtain ⟨e, he, rfl⟩ := List.mem_map.1 hrow
    exact avoids_row (by decide) fun text htext => (hu e he text htext).mono (by simp)
  rw [propertyText, propertyText, unlines_inj (hrows s hs) (hrows t ht), ← List.forall₂_eq_eq_eq,
    List.forall₂_map_left_iff, List.forall₂_map_right_iff] at heq
  rw [← List.forall₂_eq_eq_eq]
  have hmem := forall₂_of_mem heq fun e he e' hrow => And.intro he hrow
  refine (forall₂_of_mem hmem.flip fun e' he' e he => ?_).flip
  obtain ⟨hkey, hvalue⟩ := propertyRow_inj (hs e he.1) (ht e' he') he.2
  exact Prod.ext hkey hvalue

/-! ## Tables -/

/-- `write` writes a header, the `propertyText` and the `classRows`. -/
theorem write_eq_append (t : Table) : write t =
    unlines [row 0 ("tiny" :: "2" :: "0" :: t.namespaces.labels)] ++ (propertyText t ++
      unlines ((t.classes.sorted textLe).flatMap fun e =>
        classRows (t.properties.contains escapedNames) e.2)) := by
  rw [propertyText, ← unlines_append, ← unlines_append]
  rfl

/-- Tables that are `equiv`, the same but for the order, have the same text from `write` exactly if
they have the same `propertyText`. Where a table `HasPlainProperties`, without tabs and line feeds,
the text is the same exactly if the properties stand in the same order. -/
theorem write_eq_write_iff {s t : Table} (h : s.equiv t = true) :
    (write s = write t ↔ propertyText s = propertyText t) ∧
      (HasPlainProperties s → (write s = write t ↔ s.properties = t.properties)) := by
  obtain ⟨hnamespaces, hproperties, hclasses⟩ := Table.equiv_iff.1 h
  have hescaped : s.properties.contains escapedNames = t.properties.contains escapedNames := by
    rw [OrderedMap.contains, OrderedMap.contains, hproperties]
  have hrows := OrderedMap.map_sorted_eq_of_rel hclasses isKeyOrder_textLe
    (f := fun e => classRows (t.properties.contains escapedNames) e.2)
    fun _ _ _ hcd => classRows_eq_of_equiv hcd
  have htext : write s = write t ↔ propertyText s = propertyText t := by
    rw [write_eq_append, write_eq_append, hnamespaces, hescaped, List.flatMap_def,
      List.flatMap_def, hrows, String.append_right_inj, String.append_left_inj]
  refine ⟨htext, fun hs => htext.trans (propertyText_eq_iff hs fun e he => ?_)⟩
  exact hs e ((OrderedMap.mem_entries_iff_of_get?_eq hproperties).2 he)

/-- A table with the given `properties` and `classes`, in the given order. -/
def orderedSample (properties classes : List String) : Table where
  namespaces := { labels := ["official", "named"], valid := Namespaces.validLabels_official_named }
  properties := .ofList (properties.map fun key => (key, some "yes"))
  classes := .ofList (classes.map fun key => (key, { names := { slots := [some key, none] } }))

/-- The order of classes cannot be seen in the text of an `orderedSample`. -/
theorem write_eq_write_iff_sample :
    (orderedSample ["x", "y"] ["a", "b"]).equiv (orderedSample ["x", "y"] ["b", "a"]) = true ∧
      HasPlainProperties (orderedSample ["x", "y"] ["a", "b"]) ∧
      write (orderedSample ["x", "y"] ["a", "b"]) =
        write (orderedSample ["x", "y"] ["b", "a"]) := by
  have hequiv : (orderedSample ["x", "y"] ["a", "b"]).equiv (orderedSample ["x", "y"] ["b", "a"]) =
    true := by decide
  have hplain : HasPlainProperties (orderedSample ["x", "y"] ["a", "b"]) := by decide +kernel
  exact ⟨hequiv, hplain, ((write_eq_write_iff hequiv).2 hplain).2 rfl⟩

/-- The order of properties can be seen in the text of an `orderedSample`, although tables are
`equiv` but for it. -/
theorem write_swappedProperties :
    (orderedSample ["x", "y"] ["a"]).equiv (orderedSample ["y", "x"] ["a"]) = true ∧
      write (orderedSample ["x", "y"] ["a"]) ≠ write (orderedSample ["y", "x"] ["a"]) := by
  constructor
  · decide
  · decide +kernel

end Nested

end MappingTables.Format
