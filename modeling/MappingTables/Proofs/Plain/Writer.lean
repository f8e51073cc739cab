import MappingTables.Format.Plain
import MappingTables.Proofs.Additions
import MappingTables.Proofs.Nested.Reader

/-!
# What is written to a file of the plain dialect

The plain dialect holds a table without its header properties, its comments and its parameters. The
rows of a table list its classes, then the fields of all classes, then their methods, and read one
after the other they give back what the dialect holds, with all entries in ascending order.

* `Table.bare`: what the dialect holds of a table.
* `tableRows_eq`: the rows of a table are its lines as texts.
* `readFile_tableLines`: the table that is read from the lines of a table.
-/

namespace MappingTables

/-! ## What the dialect holds -/

/-- A field `f` without its comment. -/
def Field.bare (f : Field) : Field :=
  { f with comment := none }

/-- A method `m` without its comment and its parameters. -/
def Method.bare (m : Method) : Method :=
  { m with comment := none, parameters := ∅ }

/-- A class without its comment, and its members without what the dialect does not hold, by
`Field.bare` and `Method.bare`. -/
def ClassEntry.bare (c : ClassEntry) : ClassEntry where
  names := c.names
  fields := c.fields.map Field.bare
  methods := c.methods.map Method.bare

/-- A table without header properties, comments and parameters: each class as by
`ClassEntry.bare`. -/
def Table.bare (t : Table) : Table where
  namespaces := t.namespaces
  classes := t.classes.map ClassEntry.bare

/-- In a method that is `bare` there are no parameters to be `sorted`. -/
theorem Method.sorted_bare (m : Method) : m.bare.sorted = m.bare :=
  Method.ext rfl rfl rfl (OrderedMap.ext List.mergeSort_nil)

/-- A field that is `bare` follows the rules that its class `Obeys` as it is `bare`. -/
theorem ClassEntry.Obeys.bare_field {rules : EntryRules} {key : String} {c : ClassEntry}
    (hc : c.bare.Obeys rules key) : ∀ e ∈ c.fields.entries, e.2.bare.Obeys rules e.1 :=
  fun e he => hc.fields (e.1, e.2.bare) (List.mem_map.2 ⟨e, he, rfl⟩)

/-- A method that is `bare` follows the rules that its class `Obeys` as it is `bare`. -/
theorem ClassEntry.Obeys.bare_method {rules : EntryRules} {key : String} {c : ClassEntry}
    (hc : c.bare.Obeys rules key) : ∀ e ∈ c.methods.entries, e.2.bare.Obeys rules e.1 :=
  fun e he => hc.methods (e.1, e.2.bare) (List.mem_map.2 ⟨e, he, rfl⟩)

/-- A class that is `bare` follows the rules that its table `Obeys` as it is `bare`. -/
theorem Table.Obeys.bare_class {rules : EntryRules} {t : Table} (ht : t.bare.Obeys rules) :
    ∀ e ∈ t.classes.entries, e.2.bare.Obeys rules e.1 :=
  fun e he => ht (e.1, e.2.bare) (List.mem_map.2 ⟨e, he, rfl⟩)

namespace Format.Plain

open Text

/-! ## The lines of a table -/

/-- The line for a class with the given `names`. -/
def classLine (names : Names) : Line where
  number := 0
  depth := 0
  head := "CLASS"
  fields := nameFields names

/-- The line for a field or method of an `owner`, by its `kind`. -/
def memberLine (kind owner descriptor : String) (names : Names) : Line where
  number := 0
  depth := 0
  head := kind
  fields := owner :: descriptor :: nameFields names

/-- The `memberLine` for each field of a class. -/
def fieldLines (owner : String) (c : ClassEntry) : List Line :=
  (c.fields.sorted MemberKey.le).map fun e => memberLine "FIELD" owner e.2.descriptor e.2.names

/-- The `memberLine` for each method of a class. -/
def methodLines (owner : String) (c : ClassEntry) : List Line :=
  (c.methods.sorted MemberKey.le).map fun e => memberLine "METHOD" owner e.2.descriptor e.2.names

/-- The header of a table. -/
def headerLine (t : Table) : Line where
  number := 0
  depth := 0
  head := "v1"
  fields := t.namespaces.labels

/-- The lines of a table: its `headerLine`, each `classLine`, and then all `fieldLines` and
`methodLines`. -/
def tableLines (t : Table) : List Line :=
  let classes := t.classes.sorted textLe
  headerLine t :: ((classes.map fun e => classLine e.2.names) ++
    (classes.flatMap fun e => fieldLines e.1 e.2) ++ classes.flatMap fun e => methodLines e.1 e.2)

/-- The `tableRows` are the `tableLines` as texts. -/
theorem tableRows_eq (t : Table) : tableRows t = (tableLines t).map Line.text := by
  simp only [tableRows, tableLines, List.map_cons, List.map_append, List.map_map, List.map_flatMap,
    List.cons_append, fieldLines, methodLines]
  rfl

/-! ## Reading it back -/

section Reading

variable {chars : List Char} {t : Table} {c : ClassEntry}

/-- `names` reads names from the `nameFields` that were written for them. -/
theorem names_nameFields {line : Line} {names : Names} {size : Nat}
    (hnames : (Nested.entryRules chars size false).parameter names)
    (hfields : line.fields = nameFields names) : line.names size false = .ok names := by
  have hne : some "" ∉ names.slots := fun h => (hnames.2 "" h).1 rfl
  refine Line.names_eq_ok_iff.2 ⟨?_, nameFields names, ?_, Names.ofTexts_getD hne⟩
  · rw [hfields, nameFields, List.length_map]
    exact hnames.1
  · rw [hfields]
    rfl

/-- A new class is read by `readLine` from its `classLine`. -/
theorem readLine_classLine {key : String} {names : Names}
    (hnames : (Nested.entryRules chars t.namespaces.size false).keyed key names)
    (hnew : key ∉ t.classes.keys) :
    readLine t (classLine names) = .ok { t with classes := t.classes.insert key { names } } := by
  have hkey : names.requireSource = .ok key := Names.requireSource_eq_ok_iff.2 hnames.1
  have hslots : t.checkSlots names = .ok () := Table.checkSlots_eq_ok_iff.2 hnames.2.1
  have hinsert : insertNew key ({ names } : ClassEntry) t.classes =
      .ok (t.classes.insert key { names }) :=
    OrderedMap.insertNew_eq_ok_iff.2 ⟨hnew, OrderedMap.entries_insert_of_not_mem _ hnew⟩
  have hadd : addClass t names = .ok { t with classes := t.classes.insert key { names } } := by
    rw [addClass, hkey, ok_bind, OrderedMap.get?_eq_none_iff.2 hnew]
    simp only [Table.addClass, Table.insertClass, hkey, hslots, hinsert, ok_bind]
    rfl
  rw [readLine]
  simp only [classLine]
  rw [names_nameFields hnames.2 rfl, ok_bind, hadd]
  rfl

/-- The `owner` of a member, if it is known, is that class. -/
theorem owner_of_get? {key : String} (h : t.classes.get? key = some c) : owner t key = c := by
  rw [owner, h]
  rfl

/-- A member is read from its line by `readMember`, as `add` puts it into its class. -/
theorem readMember_memberLine (add : ClassEntry → String → Names → Except Failure ClassEntry)
    {kind owner descriptor : String} {names : Names} {c' : ClassEntry}
    (hc : t.classes.get? owner = some c)
    (hnames : (Nested.entryRules chars t.namespaces.size false).parameter names)
    (hadd : add c descriptor names = .ok c') :
    readMember add t (memberLine kind owner descriptor names) =
      .ok { t with classes := t.classes.insert owner c' } := by
  rw [readMember]
  simp only [memberLine, Line.next, ok_bind]
  rw [names_nameFields hnames rfl, ok_bind, owner_of_get? hc, hadd]
  rfl

/-- Under a new key, a member is added by `add`. -/
theorem addMember_of_not_mem {α : Type} {kind : EntryKind} {key : α → Except Failure MemberKey}
    {row : α → String × Names} {members : OrderedMap MemberKey α}
    {add : ClassEntry → α → Except Failure ClassEntry} {a : α} {k : MemberKey}
    (hkey : key a = .ok k) (hnew : k ∉ members.keys) :
    addMember kind key row members add c a = add c a := by
  rw [addMember, hkey, ok_bind, OrderedMap.get?_eq_none_iff.2 hnew]

/-- A new field of a known class is read by `readLine` from its `memberLine`. -/
theorem readLine_fieldLine {owner : String} {key : MemberKey} {f : Field}
    (hc : t.classes.get? owner = some c)
    (hf : f.bare.Obeys (Nested.entryRules chars t.namespaces.size false) key)
    (hnew : key ∉ c.fields.keys) :
    readLine t (memberLine "FIELD" owner f.descriptor f.names) =
      .ok { t with classes :=
        t.classes.insert owner { c with fields := c.fields.insert key f.bare } } := by
  have hkey : f.bare.key = .ok key := Field.key_eq_ok_iff.2 ⟨hf.names.1, hf.descriptor_eq⟩
  have hadd : addField c f.bare = .ok { c with fields := c.fields.insert key f.bare } :=
    (addMember_of_not_mem hkey hnew).trans
      (ClassEntry.addField_of_new hkey (OrderedMap.get?_eq_none_iff.2 hnew))
  exact readMember_memberLine (fun c descriptor names => addField c { descriptor, names }) hc
    hf.names.2 hadd

/-- A new method of a known class is read by `readLine` from its `memberLine`. -/
theorem readLine_methodLine {owner : String} {key : MemberKey} {m : Method}
    (hc : t.classes.get? owner = some c)
    (hm : m.bare.Obeys (Nested.entryRules chars t.namespaces.size false) key)
    (hnew : key ∉ c.methods.keys) :
    readLine t (memberLine "METHOD" owner m.descriptor m.names) =
      .ok { t with classes :=
        t.classes.insert owner { c with methods := c.methods.insert key m.bare } } := by
  have hkey : m.bare.key = .ok key := Method.key_eq_ok_iff.2 ⟨hm.names.1, hm.descriptor_eq⟩
  have hadd : addMethod c m.bare = .ok { c with methods := c.methods.insert key m.bare } :=
    (addMember_of_not_mem hkey hnew).trans
      (ClassEntry.addMethod_of_new hkey (OrderedMap.get?_eq_none_iff.2 hnew))
  exact readMember_memberLine (fun c descriptor names => addMethod c { descriptor, names }) hc
    hm.names.2 hadd

/-- The members of a class are read from their lines, in ascending order. `embed` says how those of
their kind stand in the class, and `bare` what is read from the `line` of each. -/
theorem foldlM_memberLines {α : Type} {owner : String} (line : α → Line) (bare : α → α)
    (embed : OrderedMap MemberKey α → ClassEntry) (members : OrderedMap MemberKey α)
    (hc : t.classes.get? owner = some (embed ∅))
    (hread : ∀ e ∈ members.entries, ∀ (t' : Table) stored, t'.namespaces = t.namespaces →
      t'.classes.get? owner = some (embed stored) → e.1 ∉ stored.keys →
      readLine t' (line e.2) = .ok
        { t' with classes := t'.classes.insert owner (embed (stored.insert e.1 (bare e.2))) }) :
    ((members.sorted MemberKey.le).map fun e => line e.2).foldlM readLine t =
      .ok { t with classes :=
        t.classes.insert owner (embed ((members.map bare).sortedMap MemberKey.le)) } := by
  -- start from a class that is inserted where it already stands
  have hstart : t = { t with classes := t.classes.insert owner (embed ∅) } :=
    Table.ext rfl rfl (OrderedMap.insert_of_get? hc).symm
  conv_lhs => rw [hstart]
  refine OrderedMap.foldlM_sorted_eq_ok
    (fun stored => { t with classes := t.classes.insert owner (embed stored) }) members
    (fun e => line e.2) bare fun e he stored hnew => ?_
  refine (hread e he { t with classes := t.classes.insert owner (embed stored) } stored rfl ?_
    hnew).trans ?_
  · rw [OrderedMap.get?_insert, if_pos rfl]
  · simp only [OrderedMap.insert_insert]

/-- The classes of a table are read from each `classLine`, in ascending order and without
members. -/
theorem foldlM_classLines {namespaces : Namespaces} (classes : OrderedMap String ClassEntry)
    (h : ∀ e ∈ classes.entries,
      (Nested.entryRules chars namespaces.size false).keyed e.1 e.2.names) :
    ((classes.sorted textLe).map fun e => classLine e.2.names).foldlM readLine { namespaces } =
      .ok { namespaces, classes :=
        (classes.map fun c => { names := c.names }).sortedMap textLe } :=
  OrderedMap.foldlM_sorted_eq_ok (Table.mk namespaces ∅) classes (fun e => classLine e.2.names)
    (fun c => { names := c.names })
    fun e he _ hnew => readLine_classLine (h e he) hnew

/-- The `tableLines` of a table are read by `readFile` as what the dialect holds of it, `bare` and
`sorted`. -/
theorem readFile_tableLines
    (ht : t.bare.Obeys (Nested.entryRules chars t.namespaces.size false)) :
    readFile ((tableLines t).map .ok) = .ok t.bare.sorted := by
  have hheader : readHeader (headerLine t) = .ok t.namespaces := by
    have hlabels : Namespaces.ofLabels t.namespaces.labels = .ok t.namespaces :=
      Namespaces.ofLabels_eq_ok_iff.2 rfl
    simp only [readHeader, headerLine, hlabels, within_ok]
  have hclasses := foldlM_classLines t.classes fun e he => (ht.bare_class e he).names
  -- first the classes get their fields, and then their methods
  have hfields : ((t.classes.sorted textLe).flatMap fun e => fieldLines e.1 e.2).foldlM readLine
      { namespaces := t.namespaces, classes :=
        (t.classes.sortedMap textLe).map fun c => { names := c.names } } =
      .ok { namespaces := t.namespaces, classes := (t.classes.sortedMap textLe).map fun c =>
        { names := c.names, fields := c.bare.fields.sortedMap MemberKey.le } } := by
    refine OrderedMap.foldlM_flatMap_entries
      (Table.mk t.namespaces ∅) (t.classes.sortedMap textLe) ?_
    intro e he classes hget
    have hobeys := ht.bare_class e (OrderedMap.mem_sorted.1 he)
    refine foldlM_memberLines (t := { namespaces := t.namespaces, classes })
      (fun f => memberLine "FIELD" e.1 f.descriptor f.names) Field.bare
      (fun fields => { names := e.2.names, fields }) e.2.fields hget ?_
    exact fun f hf t' _ hns hc hnew => readLine_fieldLine hc (hns ▸ hobeys.bare_field f hf) hnew
  have hmethods : ((t.classes.sorted textLe).flatMap fun e => methodLines e.1 e.2).foldlM readLine
      { namespaces := t.namespaces, classes := (t.classes.sortedMap textLe).map fun c =>
        { names := c.names, fields := c.bare.fields.sortedMap MemberKey.le } } =
      .ok { namespaces := t.namespaces, classes := (t.classes.sortedMap textLe).map fun c =>
        { names := c.names, fields := c.bare.fields.sortedMap MemberKey.le,
          methods := c.bare.methods.sortedMap MemberKey.le } } := by
    refine OrderedMap.foldlM_flatMap_entries
      (Table.mk t.namespaces ∅) (t.classes.sortedMap textLe) ?_
    intro e he classes hget
    have hobeys := ht.bare_class e (OrderedMap.mem_sorted.1 he)
    refine foldlM_memberLines (t := { namespaces := t.namespaces, classes })
      (fun m => memberLine "METHOD" e.1 m.descriptor m.names) Method.bare
      (fun methods =>
        { names := e.2.names, fields := e.2.bare.fields.sortedMap MemberKey.le, methods })
      e.2.methods hget ?_
    exact fun m hm t' _ hns hc hnew => readLine_methodLine hc (hns ▸ hobeys.bare_method m hm) hnew
  have hsorted : ∀ c : ClassEntry, c.bare.sorted =
      { names := c.names, fields := c.bare.fields.sortedMap MemberKey.le,
        methods := c.bare.methods.sortedMap MemberKey.le } := by
    intro c
    have hmethods : c.bare.methods.map Method.sorted = c.bare.methods := by
      rw [ClassEntry.bare, OrderedMap.map_map]
      simp only [Method.sorted_bare]
    exact ClassEntry.ext rfl rfl rfl (congrArg (OrderedMap.sortedMap MemberKey.le) hmethods)
  rw [OrderedMap.sortedMap_map] at hclasses
  rw [tableLines, List.map_cons, readFile, hheader, ok_bind, List.foldlM_map, List.append_assoc,
    List.foldlM_append]
  change (List.foldlM readLine _ _ >>= _) = _
  rw [hclasses, ok_bind, List.foldlM_append]
  change (List.foldlM readLine _ _ >>= _) = _
  rw [hfields, ok_bind]
  refine hmethods.trans (congrArg Except.ok ?_)
  rw [Table.sorted, Table.bare, OrderedMap.map_map, OrderedMap.sortedMap_map]
  simp only [hsorted]

end Reading

end Format.Plain

end MappingTables
