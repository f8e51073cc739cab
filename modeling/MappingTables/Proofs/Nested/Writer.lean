import MappingTables.Proofs.Nested.Reader
import MappingTables.Proofs.Text.Numeral

/-!
# What is written to a file of the nested dialect

The rows of a table are an outline, with a section for each entry. Read as such, they give the table
back, with its entries in ascending order.

* `tableRows_eq`: the rows of a table are its lines as texts.
* `readFile_tableLines`: the table that is read from the lines of a table.
-/

namespace MappingTables.Format

open Text

/-- All lines of a section that `IsAt` a depth are as deep as its head, or deeper. -/
theorem Section.IsAt.le_depth {depth : Nat} {sec : Section} (h : sec.IsAt depth) :
    ∀ line ∈ sec.lines, depth ≤ line.depth := by
  intro line hline
  rcases List.mem_cons.1 hline with rfl | hline
  · exact Nat.le_of_eq h.head.symm
  · exact Nat.le_of_lt (h.below line hline)

/-- A line with sections below it that are one level deeper makes a section that `IsAt` its
depth. -/
theorem Section.isAt_of_sections {depth : Nat} {head : Line} {sections : List Section}
    (hhead : head.depth = depth) (h : ∀ sec ∈ sections, sec.IsAt (depth + 1)) :
    Section.IsAt depth { head, below := sections.flatMap Section.lines } := by
  refine ⟨hhead, fun line hline => ?_⟩
  obtain ⟨sec, hsec, hline⟩ := List.mem_flatMap.1 hline
  exact (h sec hsec).le_depth line hline

namespace Nested

/-! ## The outline of a table -/

/-- The section for a `comment`, if there is one. -/
def commentSections (depth : Nat) (comment : Option String) : List Section :=
  match comment with
  | some text => [{
      head := { number := 0, depth, head := "c", fields := [escape text] }
      below := [] }]
  | none => []

section Outline

variable (escaped : Bool)

/-- The section for a parameter, with the `nameFields` of its names and below them its comment. -/
def parameterSection (p : Parameter) : Section where
  head := {
    number := 0
    depth := 2
    head := "p"
    fields := toString p.index.toNat :: nameFields escaped p.names }
  below := (commentSections 3 p.comment).flatMap Section.lines

/-- The section for a field, with its descriptor, the `nameFields` of its names and below them its
comment. -/
def fieldSection (f : Field) : Section where
  head := {
    number := 0
    depth := 1
    head := "f"
    fields := f.descriptor :: nameFields escaped f.names }
  below := (commentSections 2 f.comment).flatMap Section.lines

/-- The section for a method, with each `parameterSection` below it. -/
def methodSection (m : Method) : Section where
  head := {
    number := 0
    depth := 1
    head := "m"
    fields := m.descriptor :: nameFields escaped m.names }
  below := (commentSections 2 m.comment ++
    (m.parameters.sorted indexLe).map fun e => parameterSection escaped e.2).flatMap Section.lines

/-- The section for a class, with each `fieldSection` and `methodSection` below it. -/
def classSection (c : ClassEntry) : Section where
  head := {
    number := 0
    depth := 0
    head := "c"
    fields := nameFields escaped c.names }
  below := (commentSections 1 c.comment ++
    (c.fields.sorted MemberKey.le).map (fun e => fieldSection escaped e.2) ++
    (c.methods.sorted MemberKey.le).map fun e => methodSection escaped e.2).flatMap Section.lines

end Outline

/-- The section for a header `property`. -/
def propertySection (property : String × Option String) : Section where
  head := {
    number := 0
    depth := 1
    head := property.1
    fields := property.2.toList }
  below := []

/-- The header of a table. -/
def headerLine (t : Table) : Line where
  number := 0
  depth := 0
  head := "tiny"
  fields := "2" :: "0" :: t.namespaces.labels

/-- The section for each class of a table, its `classSection`. -/
def classSections (t : Table) : List Section :=
  (t.classes.sorted textLe).map fun e => classSection (t.properties.contains escapedNames) e.2

/-- The lines of a table: its `headerLine`, each `propertySection`, and the `classSections`. -/
def tableLines (t : Table) : List Line :=
  headerLine t :: ((t.properties.entries.map propertySection).flatMap Section.lines ++
    (classSections t).flatMap Section.lines)

/-- The `commentRows` are the lines of `commentSections` as texts. -/
theorem commentRows_eq (depth : Nat) (comment : Option String) :
    commentRows depth comment =
      ((commentSections depth comment).flatMap Section.lines).map Line.text := by
  cases comment <;> rfl

/-- The `parameterRows` are the lines of a `parameterSection` as texts. -/
theorem parameterRows_eq (escaped : Bool) (p : Parameter) :
    parameterRows escaped p = (parameterSection escaped p).lines.map Line.text := by
  rw [parameterRows, commentRows_eq]
  rfl

/-- The `fieldRows` are the lines of a `fieldSection` as texts. -/
theorem fieldRows_eq (escaped : Bool) (f : Field) :
    fieldRows escaped f = (fieldSection escaped f).lines.map Line.text := by
  rw [fieldRows, commentRows_eq]
  rfl

/-- The `methodRows` are the lines of a `methodSection` as texts. -/
theorem methodRows_eq (escaped : Bool) (m : Method) :
    methodRows escaped m = (methodSection escaped m).lines.map Line.text := by
  simp only [methodRows, commentRows_eq, parameterRows_eq, Section.lines, methodSection,
    List.map_cons, List.flatMap_append, List.map_append, List.flatMap_map, List.map_flatMap,
    List.cons_append]
  rfl

/-- The `classRows` are the lines of a `classSection` as texts. -/
theorem classRows_eq (escaped : Bool) (c : ClassEntry) :
    classRows escaped c = (classSection escaped c).lines.map Line.text := by
  simp only [classRows, commentRows_eq, fieldRows_eq, methodRows_eq, Section.lines, classSection,
    List.map_cons, List.flatMap_append, List.map_append, List.flatMap_map, List.map_flatMap,
    List.cons_append]
  rfl

/-- The `tableRows` are the `tableLines` as texts. -/
theorem tableRows_eq (t : Table) : tableRows t = (tableLines t).map Line.text := by
  simp only [tableRows, classRows_eq, tableLines, classSections, List.map_cons, List.map_append,
    List.flatMap_map, List.map_flatMap, List.cons_append]
  congr 2
  exact List.map_eq_flatMap

/-! ## The depths of its sections -/

/-- Each of the `commentSections` `IsAt` the given depth. -/
theorem isAt_commentSections {depth : Nat} {comment : Option String} :
    ∀ sec ∈ commentSections depth comment, sec.IsAt depth := by
  intro sec hsec
  cases comment with
  | none => cases hsec
  | some text =>
    rw [commentSections, List.mem_singleton] at hsec
    subst hsec
    exact ⟨rfl, nofun⟩

/-- A `parameterSection` `IsAt` the level below a method. -/
theorem isAt_parameterSection (escaped : Bool) (p : Parameter) :
    (parameterSection escaped p).IsAt 2 :=
  Section.isAt_of_sections rfl isAt_commentSections

/-- A `fieldSection` `IsAt` the level below a class. -/
theorem isAt_fieldSection (escaped : Bool) (f : Field) : (fieldSection escaped f).IsAt 1 :=
  Section.isAt_of_sections rfl isAt_commentSections

/-- What is below a method, `commentSections` and each `parameterSection`, `IsAt` the same level. -/
theorem isAt_below_method (escaped : Bool) (m : Method) :
    ∀ sec ∈ commentSections 2 m.comment ++
      (m.parameters.sorted indexLe).map (fun e => parameterSection escaped e.2), sec.IsAt 2 := by
  intro sec hsec
  rcases List.mem_append.1 hsec with hsec | hsec
  · exact isAt_commentSections sec hsec
  · obtain ⟨e, -, rfl⟩ := List.mem_map.1 hsec
    exact isAt_parameterSection escaped e.2

/-- A `methodSection` `IsAt` the level below a class. -/
theorem isAt_methodSection (escaped : Bool) (m : Method) : (methodSection escaped m).IsAt 1 :=
  Section.isAt_of_sections rfl (isAt_below_method escaped m)

/-- What is below a class, `commentSections`, each `fieldSection` and each `methodSection`, `IsAt`
the same level. -/
theorem isAt_below_class (escaped : Bool) (c : ClassEntry) :
    ∀ sec ∈ commentSections 1 c.comment ++
      (c.fields.sorted MemberKey.le).map (fun e => fieldSection escaped e.2) ++
      (c.methods.sorted MemberKey.le).map (fun e => methodSection escaped e.2), sec.IsAt 1 := by
  intro sec hsec
  rcases List.mem_append.1 hsec with hsec | hsec
  · rcases List.mem_append.1 hsec with hsec | hsec
    · exact isAt_commentSections sec hsec
    · obtain ⟨e, -, rfl⟩ := List.mem_map.1 hsec
      exact isAt_fieldSection escaped e.2
  · obtain ⟨e, -, rfl⟩ := List.mem_map.1 hsec
    exact isAt_methodSection escaped e.2

/-- A `classSection` `IsAt` the outermost level. -/
theorem isAt_classSection (escaped : Bool) (c : ClassEntry) : (classSection escaped c).IsAt 0 :=
  Section.isAt_of_sections rfl (isAt_below_class escaped c)

theorem isAt_classSections (t : Table) : ∀ sec ∈ classSections t, sec.IsAt 0 := by
  intro sec hsec
  obtain ⟨e, -, rfl⟩ := List.mem_map.1 hsec
  exact isAt_classSection _ e.2

/-- Each `propertySection` `IsAt` the level below the header. -/
theorem isAt_propertySections (properties : List (String × Option String)) :
    ∀ sec ∈ properties.map propertySection, sec.IsAt 1 := by
  intro sec hsec
  obtain ⟨e, -, rfl⟩ := List.mem_map.1 hsec
  exact ⟨rfl, nofun⟩

/-! ## Reading it back -/

section Reading

variable {chars : List Char} {size : Nat} {escaped : Bool}

/-- `names` reads names from the `nameFields` that were written for them. -/
theorem names_nameFields {line : Line} {names : Names} (hnames : FitNames chars escaped names)
    (hsize : names.size = size) (hfields : line.fields = nameFields escaped names) :
    line.names size escaped = .ok names := by
  have hne : some "" ∉ names.slots := fun h => (hnames "" h).1 rfl
  refine Line.names_eq_ok_iff.2 ⟨?_, names.slots.map (·.getD ""), ?_, Names.ofTexts_getD hne⟩
  · rw [hfields, nameFields, List.length_map]
    exact hsize
  · rw [hfields, nameFields]
    -- a missing name is written as an empty text, and an escaped one is read back
    cases escaped with
    | false =>
      refine congrArg Except.ok (List.map_congr_left fun slot _ => ?_)
      cases slot <;> rfl
    | true =>
      rw [if_pos rfl, mapM_eq_ok_iff, List.forall₂_map_left_iff, List.forall₂_map_right_iff,
        List.forall₂_same]
      intro slot _
      cases slot with
      | none => rfl
      | some name => exact unescapeText_escape name

/-- `readComment` reads the comment in a line from it. -/
theorem readComment_eq_ok {line : Line} {text : String} (h : line.fields = [escape text]) :
    readComment line = .ok text := by
  rw [readComment, Line.only_eq_ok_iff.2 h, ok_bind, unescapeText_escape]

/-- The `commentSections` are read into a state without a comment, if `readBlock` reads their line
in that way. -/
theorem foldlM_commentSections {σ : Type} {depth : Nat}
    {readBlock : σ → Line → List ReadLine → Except Failure (σ × List ReadLine)}
    (embed : Option String → σ) (comment : Option String)
    (h : ∀ text, readBlock (embed none) { number := 0, depth, head := "c", fields := [escape text] }
      [] = .ok (embed (some text), [])) :
    (commentSections depth comment).foldlM (readSection depth readBlock) (embed none) =
      .ok (embed comment) := by
  cases comment with
  | none => rfl
  | some text =>
    rw [commentSections, List.foldlM_cons, readSection_eq_ok (h text)]
    rfl

/-- A parameter is read by `readBelowMethod` from its `parameterSection`. -/
theorem readBelowMethod_parameterSection {m : Method} {p : Parameter}
    (hp : (entryRules chars size escaped).parameter p.names) (hnew : p.index ∉ m.parameters.keys) :
    readBelowMethod size escaped m (parameterSection escaped p).head
        ((parameterSection escaped p).below.map .ok) =
      .ok ({ m with parameters := m.parameters.insert p.index p }, []) := by
  have hread : readParameter size escaped (parameterSection escaped p).head =
      .ok { index := p.index, names := p.names } := by
    have hindex : readNumeral UInt64.size (toString p.index.toNat) = .ok p.index.toNat :=
      readNumeral_toString p.index.toNat_lt
    change (do
      let index ← within .parameterIndex
        ((readNumeral UInt64.size (toString p.index.toNat)).mapError
        fun fault => Failure.ofCause (.numeral fault))
      let names ← Line.names _ size escaped
      return ({ index := UInt64.ofNat index, names } : Parameter)) = _
    rw [hindex, names_nameFields hp.2 hp.1 rfl]
    change Except.ok ({ index := UInt64.ofNat p.index.toNat, names := p.names } : Parameter) = _
    rw [UInt64.ofNat_toNat]
  -- the index is new, so nothing is there to merge with
  have hmerged : m.mergedParameter { index := p.index, names := p.names } =
      { index := p.index, names := p.names } := by
    rw [Method.mergedParameter, OrderedMap.get?_eq_none_iff.2 hnew, Option.elim_none]
  have hcomment : readLevel 3 readBelowParameter { index := p.index, names := p.names }
      ((parameterSection escaped p).below.map .ok) = .ok p := by
    rw [parameterSection, readLevel_sections isAt_commentSections]
    refine foldlM_commentSections (fun comment => { p with comment }) p.comment fun text => ?_
    rw [readBelowParameter, readBelowLeaf]
    dsimp only
    rw [readComment_eq_ok rfl]
    rfl
  unfold readBelowMethod
  simp only [show (parameterSection escaped p).head.head = "p" from rfl]
  rw [hread, ok_bind, hmerged, hcomment]
  rfl

/-- A field is read by `readBelowClass` from its `fieldSection`. -/
theorem readBelowClass_fieldSection {c : ClassEntry} {key : MemberKey} {f : Field}
    (hf : f.Obeys (entryRules chars size escaped) key) (hnew : key ∉ c.fields.keys) :
    readBelowClass size escaped c (fieldSection escaped f).head
        ((fieldSection escaped f).below.map .ok) =
      .ok ({ c with fields := c.fields.insert key f }, []) := by
  have hnames :
      Line.names { (fieldSection escaped f).head with fields := nameFields escaped f.names }
      size escaped = .ok f.names :=
    names_nameFields hf.names.2.2 hf.names.2.1 rfl
  have hkey : Field.key { descriptor := f.descriptor, names := f.names } = .ok key := by
    rw [Field.key, Names.requireSource_eq_ok_iff.2 hf.names.1]
    exact congrArg Except.ok (MemberKey.ext rfl hf.descriptor_eq)
  -- the key is new, so nothing is there to merge with
  have hmerged : c.mergedField key { descriptor := f.descriptor, names := f.names } =
      { descriptor := f.descriptor, names := f.names } := by
    rw [ClassEntry.mergedField, OrderedMap.get?_eq_none_iff.2 hnew, Option.elim_none]
  have hcomment : readLevel 2 readBelowField { descriptor := f.descriptor, names := f.names }
      ((fieldSection escaped f).below.map .ok) = .ok f := by
    rw [fieldSection, readLevel_sections isAt_commentSections]
    refine foldlM_commentSections (fun comment => { f with comment }) f.comment fun text => ?_
    rw [readBelowField, readBelowLeaf]
    dsimp only
    rw [readComment_eq_ok rfl]
    rfl
  unfold readBelowClass
  simp only [show (fieldSection escaped f).head.head = "f" from rfl]
  rw [show (fieldSection escaped f).head.next = .ok (f.descriptor, _) from rfl, ok_bind]
  dsimp only
  rw [hnames, ok_bind, hkey, ok_bind, hmerged, hcomment]
  rfl

/-- What `readBelowMethod` reads from the sections below a method is the method `sorted`, with its
parameters in ascending order. -/
theorem readLevel_below_method {key : MemberKey} {m : Method}
    (hm : m.Obeys (entryRules chars size escaped) key) :
    readLevel 2 (readBelowMethod size escaped) { descriptor := m.descriptor, names := m.names }
      ((methodSection escaped m).below.map .ok) = .ok m.sorted := by
  -- the comment is read first, and then the parameters, each of them new
  rw [methodSection, readLevel_sections (isAt_below_method escaped m), List.foldlM_append,
    foldlM_commentSections
      (fun comment => ({ descriptor := m.descriptor, names := m.names, comment } : Method)),
    ok_bind, List.foldlM_map]
  · rw [OrderedMap.foldlM_insert_eq_ok id
      (fun parameters => ({ m with parameters } : Method)) (m := ∅)]
    · rw [List.map_id]
      change Except.ok { m with parameters := OrderedMap.ofList (m.parameters.sorted indexLe) } = _
      rw [OrderedMap.ofList_sorted]
      rfl
    · rw [List.map_id, OrderedMap.keys_empty, List.nil_append]
      exact OrderedMap.nodup_keys_sorted indexLe m.parameters
    · rintro ⟨index, p⟩ hmem parameters hnew
      have hp := hm.parameters _ (OrderedMap.mem_sorted.1 hmem)
      obtain rfl : p.index = index := hp.index_eq
      exact readSection_eq_ok (readBelowMethod_parameterSection hp.names hnew)
  · intro text
    unfold readBelowMethod
    dsimp only
    rw [readComment_eq_ok rfl]
    rfl

/-- A method is read by `readBelowClass` from its `methodSection`. -/
theorem readBelowClass_methodSection {c : ClassEntry} {key : MemberKey} {m : Method}
    (hm : m.Obeys (entryRules chars size escaped) key) (hnew : key ∉ c.methods.keys) :
    readBelowClass size escaped c (methodSection escaped m).head
        ((methodSection escaped m).below.map .ok) =
      .ok ({ c with methods := c.methods.insert key m.sorted }, []) := by
  have hnames : Line.names
      { (methodSection escaped m).head with fields := nameFields escaped m.names }
      size escaped = .ok m.names :=
    names_nameFields hm.names.2.2 hm.names.2.1 rfl
  have hkey : Method.key { descriptor := m.descriptor, names := m.names } = .ok key := by
    rw [Method.key, Names.requireSource_eq_ok_iff.2 hm.names.1]
    exact congrArg Except.ok (MemberKey.ext rfl hm.descriptor_eq)
  -- the key is new, so nothing is there to merge with
  have hmerged : c.mergedMethod key { descriptor := m.descriptor, names := m.names } =
      { descriptor := m.descriptor, names := m.names } := by
    rw [ClassEntry.mergedMethod, OrderedMap.get?_eq_none_iff.2 hnew, Option.elim_none]
  unfold readBelowClass
  simp only [show (methodSection escaped m).head.head = "m" from rfl]
  rw [show (methodSection escaped m).head.next = .ok (m.descriptor, _) from rfl, ok_bind]
  dsimp only
  rw [hnames, ok_bind, hkey, ok_bind, hmerged, readLevel_below_method hm]
  rfl

/-- What `readBelowClass` reads from the sections below a class is the class `sorted`, with its
members in ascending order. -/
theorem readLevel_below_class {key : String} {c : ClassEntry}
    (hc : c.Obeys (entryRules chars size escaped) key) :
    readLevel 1 (readBelowClass size escaped) { names := c.names }
      ((classSection escaped c).below.map .ok) = .ok c.sorted := by
  have hcomment : (commentSections 1 c.comment).foldlM
      (readSection 1 (readBelowClass size escaped)) { names := c.names } =
        .ok { names := c.names, comment := c.comment } := by
    refine foldlM_commentSections
      (fun comment => ({ names := c.names, comment } : ClassEntry)) c.comment fun text => ?_
    unfold readBelowClass
    dsimp only
    rw [readComment_eq_ok rfl]
    rfl
  have hfields : (c.fields.sorted MemberKey.le).foldlM
      (fun c e => readSection 1 (readBelowClass size escaped) c (fieldSection escaped e.2))
      { names := c.names, comment := c.comment } =
        .ok { c with fields := c.fields.sortedMap MemberKey.le, methods := ∅ } := by
    rw [OrderedMap.foldlM_insert_eq_ok id
      (fun fields => ({ names := c.names, comment := c.comment, fields } : ClassEntry)) (m := ∅)]
    · rw [List.map_id, ← OrderedMap.ofList_sorted]
      rfl
    · rw [List.map_id, OrderedMap.keys_empty, List.nil_append]
      exact OrderedMap.nodup_keys_sorted MemberKey.le c.fields
    · rintro ⟨key, f⟩ hmem fields hnew
      exact readSection_eq_ok
        (readBelowClass_fieldSection (hc.fields _ (OrderedMap.mem_sorted.1 hmem)) hnew)
  have hmethods : (c.methods.sorted MemberKey.le).foldlM
      (fun c e => readSection 1 (readBelowClass size escaped) c (methodSection escaped e.2))
      { c with fields := c.fields.sortedMap MemberKey.le, methods := ∅ } = .ok c.sorted := by
    have hsorted := OrderedMap.sorted_map MemberKey.le Method.sorted c.methods
    rw [OrderedMap.foldlM_insert_eq_ok (fun e => (e.1, e.2.sorted)) (fun methods =>
      ({ c with fields := c.fields.sortedMap MemberKey.le, methods } : ClassEntry)) (m := ∅)]
    · rw [← hsorted, ClassEntry.sorted, ← OrderedMap.ofList_sorted MemberKey.le (c.methods.map _)]
      rfl
    · rw [← hsorted, OrderedMap.keys_empty, List.nil_append]
      exact OrderedMap.nodup_keys_sorted MemberKey.le _
    · rintro ⟨key, m⟩ hmem methods hnew
      exact readSection_eq_ok
        (readBelowClass_methodSection (hc.methods _ (OrderedMap.mem_sorted.1 hmem)) hnew)
  -- comment, fields and methods are read in the order in which they were written
  rw [classSection, readLevel_sections (isAt_below_class escaped c), List.foldlM_append,
    List.foldlM_append, hcomment, ok_bind, List.foldlM_map, hfields, ok_bind, List.foldlM_map,
    hmethods]

/-- A class is read by `readTopLevel` from its `classSection`. -/
theorem readTopLevel_classSection {t : Table} {key : String} {c : ClassEntry}
    (hc : c.Obeys (entryRules chars t.namespaces.size escaped) key) (hnew : key ∉ t.classes.keys) :
    readTopLevel escaped t (classSection escaped c).head ((classSection escaped c).below.map .ok) =
      .ok ({ t with classes := t.classes.insert key c.sorted }, []) := by
  have hnames : (classSection escaped c).head.names t.namespaces.size escaped = .ok c.names :=
    names_nameFields hc.names.2.2 hc.names.2.1 rfl
  have hslots : t.checkSlots c.names = .ok () := if_pos hc.names.2.1
  have hmerged : t.mergedClass key { names := c.names } = { names := c.names } := by
    rw [Table.mergedClass, OrderedMap.get?_eq_none_iff.2 hnew, Option.elim_none]
  unfold readTopLevel
  simp only [show (classSection escaped c).head.head = "c" from rfl]
  rw [hnames, ok_bind, hslots, ok_bind, Names.requireSource_eq_ok_iff.2 hc.names.1,
    ok_bind, hmerged, readLevel_below_class hc]
  rfl

/-- Header properties are put in one after the other from each `propertySection`. -/
theorem readLevel_propertySections (properties : List (String × Option String)) :
    readLevel 1 readProperty ∅ (((properties.map propertySection).flatMap Section.lines).map .ok) =
      .ok (OrderedMap.ofList properties) := by
  have hfold : ∀ m : OrderedMap String (Option String),
      properties.foldlM (fun m e => readSection 1 readProperty m (propertySection e)) m =
        .ok (properties.foldl (fun m e => m.insert e.1 e.2) m) := by
    induction properties with
    | nil => exact fun m => rfl
    | cons e properties ih =>
      intro m
      obtain ⟨key, value⟩ := e
      have hstep : readSection 1 readProperty m (propertySection (key, value)) =
          .ok (m.insert key value) := by
        cases value <;> rfl
      rw [List.foldlM_cons, hstep, ok_bind, ih]
      rfl
  rw [readLevel_sections (isAt_propertySections properties), List.foldlM_map, hfold]
  rfl

/-- A file that consists of a header, header properties and sections is read by `readFile` from
these. -/
theorem readFile_sections (t : Table) (properties : List (String × Option String))
    {sections : List Section} (hsections : ∀ sec ∈ sections, sec.IsAt 0) :
    readFile ((headerLine t :: ((properties.map propertySection).flatMap Section.lines ++
        sections.flatMap Section.lines)).map .ok) =
      within (.inSection .table)
        (readLevel 0 (readTopLevel ((OrderedMap.ofList properties).contains escapedNames))
          { namespaces := t.namespaces, properties := OrderedMap.ofList properties }
          ((sections.flatMap Section.lines).map .ok)) := by
  have hheader : readHeader (headerLine t) = .ok t.namespaces :=
    within_eq_ok_iff.2 (Namespaces.ofLabels_eq_ok_iff.2 rfl)
  have hdeep : ∀ line ∈ ((properties.map propertySection).flatMap Section.lines).map Except.ok,
      isDeeper 0 line = true := by
    intro _ hmem
    obtain ⟨line, hline, rfl⟩ := List.mem_map.1 hmem
    obtain ⟨sec, hsec, hline⟩ := List.mem_flatMap.1 hline
    exact decide_eq_true ((isAt_propertySections properties sec hsec).le_depth line hline)
  -- the first section is not below the header
  have hrest : ((sections.flatMap Section.lines).map Except.ok).takeWhile (isDeeper 0) = [] ∧
      ((sections.flatMap Section.lines).map Except.ok).dropWhile (isDeeper 0) =
        (sections.flatMap Section.lines).map Except.ok := by
    cases sections with
    | nil => exact ⟨rfl, rfl⟩
    | cons sec sections =>
      have hdepth : sec.head.depth = 0 := (hsections sec List.mem_cons_self).head
      rw [List.flatMap_cons, Section.lines, List.cons_append, List.map_cons, List.takeWhile_cons,
        List.dropWhile_cons]
      simp [isDeeper, hdepth]
  rw [List.map_cons, readFile, hheader, ok_bind, List.map_append,
    List.takeWhile_append_of_pos hdeep, List.dropWhile_append_of_pos hdeep, hrest.1, hrest.2,
    List.append_nil, readLevel_propertySections, within_ok, ok_bind]

/-- The table that `readFile` reads from the `tableLines` of a table is that table `sorted`, with
its entries in ascending order. -/
theorem readFile_tableLines {t : Table}
    (ht : t.Obeys (entryRules chars t.namespaces.size (t.properties.contains escapedNames))) :
    readFile ((tableLines t).map .ok) = .ok t.sorted := by
  -- properties are not sorted, and none of their keys is there twice
  have hproperties : OrderedMap.ofList t.properties.entries = t.properties :=
    OrderedMap.ext (OrderedMap.entries_ofList t.properties.nodup_keys)
  have hclasses : readLevel 0 (readTopLevel (t.properties.contains escapedNames))
      { namespaces := t.namespaces, properties := t.properties }
      (((classSections t).flatMap Section.lines).map .ok) = .ok t.sorted := by
    have hsorted := OrderedMap.sorted_map textLe ClassEntry.sorted t.classes
    rw [readLevel_sections (isAt_classSections t), classSections, List.foldlM_map,
      OrderedMap.foldlM_insert_eq_ok (fun e => (e.1, e.2.sorted))
        (fun classes => ({ t with classes } : Table)) (m := ∅)]
    · rw [← hsorted, Table.sorted, ← OrderedMap.ofList_sorted textLe (t.classes.map _)]
      rfl
    · rw [← hsorted, OrderedMap.keys_empty, List.nil_append]
      exact OrderedMap.nodup_keys_sorted textLe _
    · rintro ⟨key, c⟩ hmem classes hnew
      exact readSection_eq_ok
        (readTopLevel_classSection (t := { t with classes })
          (ht _ (OrderedMap.mem_sorted.1 hmem)) hnew)
  rw [tableLines, readFile_sections t _ (isAt_classSections t), hproperties, hclasses, within_ok]

end Reading

end Nested

end MappingTables.Format
