import MappingTables.Proofs.Plain.Rows

/-!
# The order of rows

Rows of the plain dialect can stand in any order, with one exception: a row that gives no more than
the source name of a class is accepted before the row with its other names, and rejected behind it.

* `Holds`: what is in a table once rows were read; it does not depend on their order.
* `Holds.exists_readBody`: rows are read if each one tolerates those behind it.
* `rel_readInput_perm_iff`: when two orders of the same rows are read alike.
-/

namespace MappingTables

/-! ## Tables with the same names everywhere -/

section Plain

variable {t t' : Table}

/-- A field of a class that `IsPlain` says no more than its names, and is known by its key and
them. -/
theorem ClassEntry.IsPlain.eq_of_field {c : ClassEntry} {owner : String} (hc : c.IsPlain)
    {rules : EntryRules} (hrules : c.Obeys rules owner) {key : MemberKey} {f : Field}
    (hf : c.fields.get? key = some f) : f = { descriptor := key.descriptor, names := f.names } := by
  have hmem := OrderedMap.get?_eq_some_iff.1 hf
  obtain ⟨-, hbare⟩ := hc.fields _ hmem
  exact (hrules.fields _ hmem).descriptor_eq ▸ hbare.symm

/-- A method of a class that `IsPlain` says no more than its names, and is known by its key and
them. -/
theorem ClassEntry.IsPlain.eq_of_method {c : ClassEntry} {owner : String} (hc : c.IsPlain)
    {rules : EntryRules} (hrules : c.Obeys rules owner) {key : MemberKey} {m : Method}
    (hm : c.methods.get? key = some m) :
    m = { descriptor := key.descriptor, names := m.names } := by
  have hmem := OrderedMap.get?_eq_some_iff.1 hm
  obtain ⟨-, hbare⟩ := hc.methods _ hmem
  exact (hrules.methods _ hmem).descriptor_eq ▸ hbare.symm

/-- What `make` makes of its names is the same on both sides if the names are. -/
theorem eq_of_map_names_eq {α : Type} {names : α → Names} (make : Names → α) {a b : Option α}
    (ha : ∀ x ∈ a, x = make (names x)) (hb : ∀ x ∈ b, x = make (names x))
    (h : a.map names = b.map names) : a = b := by
  cases a with
  | none => simpa [eq_comm] using h
  | some x =>
    rw [Option.map_some, eq_comm, Option.map_eq_some_iff] at h
    obtain ⟨y, rfl, hnames⟩ := h
    rw [ha x rfl, hb y rfl, hnames]

/-- Tables that say no more than names are `equiv` if they have the same `namesAt` each place. -/
theorem Table.equiv_of_namesAt_eq (ht : t.IsAligned) (ht' : t'.IsAligned)
    (hplain : ∀ e ∈ t.classes.entries, e.2.IsPlain)
    (hplain' : ∀ e ∈ t'.classes.entries, e.2.IsPlain)
    (hnamespaces : t.namespaces = t'.namespaces) (hproperties : t.properties = t'.properties)
    (h : ∀ p, t.namesAt p = t'.namesAt p) : t.equiv t' = true := by
  refine Table.equiv_iff.2 ⟨hnamespaces, fun key => by rw [hproperties], fun key => ?_⟩
  have hclass := h (.classEntry key)
  have hfield := fun member => h (.field key member)
  have hmethod := fun member => h (.method key member)
  simp only [namesAt, field?, method?, entryOf] at hclass hfield hmethod
  cases hc : t.classes.get? key with
  | none =>
    rw [hc, Option.map_none, eq_comm, Option.map_eq_none_iff] at hclass
    rw [hclass]
    exact .none
  | some c =>
    rw [hc, Option.map_some, eq_comm, Option.map_eq_some_iff] at hclass
    obtain ⟨d, hd, hnames⟩ := hclass
    have hmem := OrderedMap.get?_eq_some_iff.1 hc
    have hmem' := OrderedMap.get?_eq_some_iff.1 hd
    have hcPlain := hplain _ hmem
    have hdPlain := hplain' _ hmem'
    simp only [hc, hd, Option.map_some, Option.bind_some] at hfield hmethod
    rw [hd]
    refine .some (ClassEntry.equiv_iff.2 ⟨hnames.symm, hcPlain.comment.trans hdPlain.comment.symm,
      fun member => ?_, fun member => ?_⟩)
    -- a member of a plain class is what its key and its names say
    · exact eq_of_map_names_eq (fun names => { descriptor := member.descriptor, names })
        (fun _ => hcPlain.eq_of_field (ht _ hmem))
        (fun _ => hdPlain.eq_of_field (ht' _ hmem')) (hfield member)
    · rw [eq_of_map_names_eq (fun names => { descriptor := member.descriptor, names })
        (fun _ => hcPlain.eq_of_method (ht _ hmem))
        (fun _ => hdPlain.eq_of_method (ht' _ hmem')) (hmethod member)]
      cases d.methods.get? member with
      | none => exact .none
      | some m => exact .some m.equiv_refl

end Plain

namespace Format.Plain

open Text

/-! ## What was read so far -/

namespace Row

/-- Whether a row can stand before another one: it gives the same names to the same place, or no
more than the source name of the class that is there. -/
def Tolerates : Row → Row → Prop
  | entry p names, entry p' names' =>
    p = p' → names = names' ∨ (p.isClassEntry = true ∧ names.isSourceOnly = true)
  | _, _ => True

end Row

/-- What is in a table once `rows` were read, in any order: names that these give, and owners that
none of them names. -/
structure Holds (ns : Namespaces) (rows : List Row) (t : Table) : Prop where
  namespaces : t.namespaces = ns
  properties : t.properties = ∅
  aligned : t.IsAligned
  plain : ∀ e ∈ t.classes.entries, e.2.IsPlain
  sound : ∀ row ∈ rows, row.IsSound ns.size
  isSome : ∀ q, (t.namesAt q).isSome ↔
    ∃ p names, .entry p names ∈ rows ∧ (q = p ∨ q = .classEntry p.owner)
  given : ∀ q, ∀ names ∈ t.namesAt q, .entry q names ∈ rows ∨
    (q.isClassEntry = true ∧ names = Names.ofFirst q.owner ns.size)
  kept : ∀ q names, .entry q names ∈ rows →
    t.namesAt q = some names ∨ (q.isClassEntry = true ∧ names.isSourceOnly = true)

namespace Holds

variable {ns : Namespaces} {rows rows' : List Row} {t t' : Table}

/-- A table without entries `Holds` what was read before all rows. -/
theorem nil (ns : Namespaces) : Holds ns [] { namespaces := ns } where
  namespaces := rfl
  properties := rfl
  aligned := nofun
  plain := nofun
  sound := nofun
  isSome q := by simp [Table.namesAt_eq_bind, OrderedMap.get?_emptyCollection]
  given q := by simp [Table.namesAt_eq_bind, OrderedMap.get?_emptyCollection]
  kept := nofun

/-- A table that `Holds` rows `Accepts` another one exactly if each of these tolerates it. -/
theorem accepts_iff (h : Holds ns rows t) (row : Row) :
    Accepts t row ↔ ∀ r ∈ rows, r.Tolerates row := by
  cases row with
  | blank => exact ⟨fun _ r _ => by cases r <;> trivial, fun _ => trivial⟩
  | entry p names =>
    constructor
    · intro haccepts r hr
      cases r with
      | blank => trivial
      | entry p' names' =>
        -- the names of an earlier row are still there, or they did not matter
        rintro rfl
        obtain hkept | hkept := h.kept _ _ hr
        · exact haccepts _ hkept
        · exact .inr hkept
    · intro htolerates old hold
      obtain hgiven | ⟨hclass, rfl⟩ := h.given _ _ hold
      · exact htolerates _ hgiven rfl
      · exact .inr ⟨hclass, Names.isSourceOnly_ofFirst _ _⟩

/-- After `put` a table `Holds` a row besides those before. -/
theorem put (h : Holds ns rows t) {row : Row} (hsound : row.IsSound ns.size)
    (haccepts : Accepts t row) (haligned : (Plain.put t row).IsAligned)
    (hplain : ∀ e ∈ (Plain.put t row).classes.entries, e.2.IsPlain) :
    Holds ns (rows ++ [row]) (Plain.put t row) := by
  have hsound' : ∀ r ∈ rows ++ [row], r.IsSound ns.size :=
    List.forall_mem_append.2 ⟨h.sound, List.forall_mem_singleton.2 hsound⟩
  cases row with
  | blank =>
    refine ⟨h.namespaces, h.properties, haligned, hplain, hsound', ?_, ?_, ?_⟩
    · simpa [Plain.put] using h.isSome
    · simpa [Plain.put] using h.given
    · simpa [Plain.put] using h.kept
  | entry p names =>
    obtain ⟨-, key, hkey, -⟩ := hsound
    have hp : p.keyName? ≠ none := by simp [Option.mem_def.1 hkey]
    have hmem : ∀ q old, .entry q old ∈ rows ++ [.entry p names] ↔
        .entry q old ∈ rows ∨ (q = p ∧ old = names) := by simp
    refine ⟨h.namespaces, h.properties, haligned, hplain, hsound', fun q => ?_,
      fun q old hold => ?_, fun q old hold => ?_⟩
    · -- what is there now was there before, or it is the new entry or its owner
      have hexists : (∃ p' names', .entry p' names' ∈ rows ++ [.entry p names] ∧
          (q = p' ∨ q = .classEntry p'.owner)) ↔
            (t.namesAt q).isSome ∨ q = p ∨ q = .classEntry p.owner := by
        simp only [hmem, or_and_right, exists_or, h.isSome]
        simp
      rw [hexists, Plain.put, namesAt_putAt hp]
      split_ifs with hq hclass
      · simp [hq]
      · simp [hclass]
      · simp [hq, hclass]
    · rw [Plain.put, namesAt_putAt hp] at hold
      rw [hmem]
      split_ifs at hold with hq hclass
      · cases hold
        exact .inl (.inr ⟨hq, rfl⟩)
      · -- an owner that was there keeps its names, and a new one is known by its source name
        cases hold
        subst hclass
        rw [names_owner, h.namespaces]
        cases hold : t.namesAt (.classEntry p.owner) with
        | none => exact .inr ⟨rfl, rfl⟩
        | some old => exact (h.given _ old hold).imp_left .inl
      · exact (h.given q old hold).imp_left .inl
    · rw [Plain.put, namesAt_putAt hp]
      obtain hbefore | ⟨rfl, rfl⟩ := (hmem q old).1 hold
      · by_cases hq : q = p
        · -- the new names stand in the place of old ones, so the earlier row tolerates them
          subst hq
          have htolerates : Row.Tolerates (.entry q old) (.entry q names) :=
            (h.accepts_iff _).1 haccepts _ hbefore
          rw [if_pos rfl]
          exact (htolerates rfl).imp_left fun heq => by rw [heq]
        · rw [if_neg hq]
          refine (h.kept q old hbefore).imp_left fun hkept => ?_
          by_cases hclass : q = .classEntry p.owner
          · subst hclass
            rw [if_pos rfl, names_owner, hkept, Option.getD_some]
          · rw [if_neg hclass, hkept]
      · simp

/-- `readLine` can read a line exactly if it holds a row that all rows before tolerate. -/
theorem exists_readLine_iff (h : Holds ns rows t) {line : Line} :
    (∃ t', readLine t line = .ok t') ↔
      ∃ row, Row.ofLine? ns.size line = some row ∧ ∀ r ∈ rows, r.Tolerates row := by
  simp only [readLine_eq_ok_iff h.aligned.keysAgree, h.namespaces, ← h.accepts_iff]
  constructor
  · rintro ⟨_, row, hrow, haccepts, -⟩
    exact ⟨row, hrow, haccepts⟩
  · rintro ⟨row, hrow, haccepts⟩
    exact ⟨_, row, hrow, haccepts, rfl⟩

/-- After `readLine` a table `Holds` the row on the line besides those before. -/
theorem of_readLine (h : Holds ns rows t) {line : Line} {row : Row}
    (hrow : Row.ofLine? ns.size line = some row) (hread : readLine t line = .ok t') :
    Holds ns (rows ++ [row]) t' := by
  have hsize : 0 < t.namespaces.size := List.length_pos_of_ne_nil t.namespaces.valid.1
  have haligned : t'.IsAligned := by
    rw [Table.IsAligned, (header_of_readLine hread).1]
    exact obeys_of_readLine (admits_alignedRules hsize line) h.aligned hread
  have hplain := isPlain_of_readLine h.plain hread
  obtain ⟨row', hrow', haccepts, rfl⟩ := (readLine_eq_ok_iff h.aligned.keysAgree).1 hread
  rw [h.namespaces, hrow] at hrow'
  obtain rfl := Option.some.inj hrow'
  exact h.put (Row.isSound_of_ofLine? hrow) haccepts haligned hplain

section Perm

variable (h : Holds ns rows t) (h' : Holds ns rows' t') (hperm : rows.Perm rows')

include h h' hperm

/-- Where `namesAt` finds something on one side, it does so on the other side. -/
theorem isSome_eq (q : Place) : (t.namesAt q).isSome = (t'.namesAt q).isSome := by
  rw [Bool.eq_iff_iff, h.isSome, h'.isSome]
  simp only [hperm.mem_iff]

/-- Names that `namesAt` finds, and that are not those of an owner, are the same on the other
side. -/
theorem namesAt_eq_or {q : Place} {names : Names} (hnames : t.namesAt q = some names) :
    t'.namesAt q = some names ∨
      (q.isClassEntry = true ∧ names = Names.ofFirst q.owner ns.size) := by
  obtain hgiven | howner := h.given q names hnames
  · have hmem := hperm.mem_iff.1 hgiven
    refine (h'.kept q names hmem).imp_right fun ⟨hclass, honly⟩ => ⟨hclass, ?_⟩
    -- a class that is known by its source name alone is known by its key
    obtain ⟨hsize, key, hkey, hsource⟩ := h'.sound _ hmem
    cases q with
    | classEntry key' =>
      cases hkey
      exact hsize ▸ Names.eq_ofFirst hsource honly
    | field => cases hclass
    | method => cases hclass
    | parameter => cases hclass
  · exact .inr howner

/-- The same rows make tables that are `equiv`, equal but for the order. -/
theorem equiv : t.equiv t' = true := by
  refine Table.equiv_of_namesAt_eq h.aligned h'.aligned h.plain h'.plain
    (h.namespaces.trans h'.namespaces.symm) (h.properties.trans h'.properties.symm) fun q => ?_
  have hsome := h.isSome_eq h' hperm q
  cases hnames : t.namesAt q with
  | none =>
    rw [hnames, Option.isSome_none, eq_comm, Option.isSome_eq_false_iff, Option.isNone_iff_eq_none]
      at hsome
    exact hsome.symm
  | some names =>
    rw [hnames, Option.isSome_some, eq_comm, Option.isSome_iff_exists] at hsome
    obtain ⟨names', hnames'⟩ := hsome
    obtain hsame | ⟨-, rfl⟩ := h.namesAt_eq_or h' hperm hnames
    · exact hsame.symm
    · -- an owner on this side; it is one on the other side, too, or has the names of a row there
      obtain hsame | ⟨-, rfl⟩ := h'.namesAt_eq_or h hperm.symm hnames'
      · exact (hnames ▸ hsame).trans hnames'.symm
      · exact hnames'.symm

end Perm

end Holds

/-! ## All rows of a file -/

/-- The row on a `line` that was read from a file, if there is one. -/
def rowOf? (size : Nat) (line : ReadLine) : Option Row :=
  line.toOption.bind (Row.ofLine? size)

/-- The table after the `lines` behind the header. -/
def readBody (t : Table) (lines : List ReadLine) : Except Failure Table :=
  lines.foldlM (fun t line =>
    match line with
    | .ok line => readLine t line
    | .error cause => fail cause) t

/-- `readBody` reads lines with `readLine`, one after the other. -/
theorem readBody_cons_eq_ok_iff {t t' : Table} {line : ReadLine} {lines : List ReadLine} :
    readBody t (line :: lines) = .ok t' ↔
      ∃ l t₁, line = .ok l ∧ readLine t l = .ok t₁ ∧ readBody t₁ lines = .ok t' := by
  rw [readBody, List.foldlM_cons, bind_eq_ok_iff]
  cases line with
  | error cause => simp
  | ok l => simp [readBody]

namespace Holds

variable {ns : Namespaces} {rows : List Row} {t t' : Table} {lines : List ReadLine}

/-- If `readBody` reads lines, each of them holds a row, which all rows before tolerate, and the
table `Holds` these rows then. -/
theorem of_readBody (h : Holds ns rows t) (hrows : rows.Pairwise Row.Tolerates)
    (hread : readBody t lines = .ok t') :
    (∀ line ∈ lines, (rowOf? ns.size line).isSome) ∧
      (rows ++ lines.filterMap (rowOf? ns.size)).Pairwise Row.Tolerates ∧
      Holds ns (rows ++ lines.filterMap (rowOf? ns.size)) t' := by
  induction lines generalizing rows t with
  | nil =>
    cases hread
    simpa using ⟨hrows, h⟩
  | cons line lines ih =>
    -- the first line is read into what is held so far, and the others into what is held then
    obtain ⟨line, t₁, rfl, hline, hread⟩ := readBody_cons_eq_ok_iff.1 hread
    obtain ⟨row, hrow, htolerates⟩ := h.exists_readLine_iff.1 ⟨t₁, hline⟩
    have hrow' : rowOf? ns.size (.ok line) = some row := hrow
    have hrows' : (rows ++ [row]).Pairwise Row.Tolerates :=
      List.pairwise_append.2 ⟨hrows, List.pairwise_singleton _ _, by simpa using htolerates⟩
    obtain ⟨hlines, hpairwise, hholds⟩ := ih (h.of_readLine hrow hline) hrows' hread
    rw [List.filterMap_cons_some hrow', List.append_cons]
    exact ⟨List.forall_mem_cons.2 ⟨by simp [hrow'], hlines⟩, hpairwise, hholds⟩

/-- `readBody` can read lines if each of them holds a row, and all rows tolerate those behind
them. -/
theorem exists_readBody (h : Holds ns rows t)
    (hlines : ∀ line ∈ lines, (rowOf? ns.size line).isSome)
    (hrows : (rows ++ lines.filterMap (rowOf? ns.size)).Pairwise Row.Tolerates) :
    ∃ t', readBody t lines = .ok t' := by
  induction lines generalizing rows t with
  | nil => exact ⟨t, rfl⟩
  | cons line lines ih =>
    obtain ⟨hline, hrest⟩ := List.forall_mem_cons.1 hlines
    obtain ⟨row, hrow⟩ := Option.isSome_iff_exists.1 hline
    obtain ⟨line, rfl, hrow⟩ : ∃ l, line = .ok l ∧ Row.ofLine? ns.size l = some row := by
      cases line with
      | error cause => cases hrow
      | ok line => exact ⟨line, rfl, hrow⟩
    have hrow' : rowOf? ns.size (.ok line) = some row := hrow
    rw [List.filterMap_cons_some hrow', List.append_cons] at hrows
    -- the row tolerates what was read before, so the line is read, too
    have htolerates := (List.pairwise_append.1 (List.pairwise_append.1 hrows).1).2.2
    obtain ⟨t₁, ht₁⟩ := h.exists_readLine_iff.2 ⟨row, hrow, by simpa using htolerates⟩
    obtain ⟨t', ht'⟩ := ih (h.of_readLine hrow ht₁) hrest hrows
    exact ⟨t', readBody_cons_eq_ok_iff.2 ⟨line, t₁, rfl, ht₁, ht'⟩⟩

end Holds

/-! ## Files with the same rows -/

/-- The row with a `text`, if it is one. -/
def textRow? (size : Nat) (text : Except Cause String) : Option Row :=
  rowOf? size (text.map (Line.ofText 0))

/-- The namespaces that are named by a `text`, if it is a header. -/
def headerOf? (text : Except Cause String) : Option Namespaces :=
  text.toOption.bind fun text => (readHeader (.ofText 0 text)).toOption

namespace Row

/-- Whether two rows do not contradict each other: they give the same names to the same place, or
one of them gives no more than the source name of a class. -/
def Agrees : Row → Row → Prop
  | entry p names, entry p' names' => p = p' → names = names' ∨
      (p.isClassEntry = true ∧ (names.isSourceOnly = true ∨ names'.isSourceOnly = true))
  | _, _ => True

/-- Whether a row gives other names to a class, of which another row gives only the source name. -/
def Outnames : Row → Row → Prop
  | entry p names, entry p' names' => p = p' ∧ p.isClassEntry = true ∧
      names.isSourceOnly = false ∧ names'.isSourceOnly = true
  | _, _ => False

/-- Whether one row `Agrees` with another one goes both ways. -/
theorem Agrees.symm {a b : Row} (h : a.Agrees b) : b.Agrees a := by
  cases a <;> cases b <;> simp only [Agrees] at *
  rintro rfl
  obtain rfl | ⟨hclass, honly⟩ := h rfl
  · exact .inl rfl
  · exact .inr ⟨hclass, honly.symm⟩

/-- A row `Tolerates` another one behind it exactly if it `Agrees` with it and does not outname
it. -/
theorem tolerates_iff {a b : Row} : a.Tolerates b ↔ a.Agrees b ∧ ¬a.Outnames b := by
  cases a with
  | blank => simp [Tolerates, Agrees, Outnames]
  | entry p names =>
    cases b with
    | blank => simp [Tolerates, Agrees, Outnames]
    | entry p' names' =>
      simp only [Tolerates, Agrees, Outnames]
      by_cases hp : p = p'
      · grind
      · simp [hp]

end Row

/-- Rows tolerate those behind them exactly if each `Agrees` with the others and none `Outnames` one
behind it. -/
theorem pairwise_tolerates_iff {rows : List Row} : rows.Pairwise Row.Tolerates ↔
    rows.Pairwise Row.Agrees ∧ rows.Pairwise fun a b => ¬a.Outnames b := by
  rw [← List.pairwise_and_iff]
  exact List.Pairwise.iff fun _ _ => Row.tolerates_iff

/-- Whether all `texts` are rows, no two of which contradict each other. -/
structure Consistent (size : Nat) (texts : List (Except Cause String)) : Prop where
  readable : ∀ text ∈ texts, (textRow? size text).isSome
  agree : (texts.filterMap (textRow? size)).Pairwise Row.Agrees

/-- Whether no row with other names of a class stands before one with only its source name: none
`Outnames` one behind it. -/
def BareRowsFirst (size : Nat) (texts : List (Except Cause String)) : Prop :=
  (texts.filterMap (textRow? size)).Pairwise fun a b => ¬a.Outnames b

section Texts

variable {ns : Namespaces} {header : Except Cause String}
    {texts texts' : List (Except Cause String)}
  {t t' : Table}

/-- Rows are `Consistent` in any order. -/
theorem Consistent.perm {size : Nat} (h : Consistent size texts) (hperm : texts.Perm texts') :
    Consistent size texts' where
  readable text htext := h.readable text (hperm.mem_iff.2 htext)
  agree := ((hperm.filterMap _).pairwise_iff Row.Agrees.symm).1 h.agree

/-- What `readTexts` reads from texts is what `readBody` reads from the rows behind the header. -/
theorem readTexts_eq_ok_iff :
    readTexts (header :: texts) = .ok t ↔ ∃ ns, headerOf? header = some ns ∧
    readBody { namespaces := ns } (texts.map fun text => text.map (Line.ofText 0)) = .ok t := by
  rw [readTexts, ← toOption_eq_some_iff, ← toOption_readFile_map_unnumbered,
    map_unnumbered_readLines, toOption_eq_some_iff]
  cases header with
  | error cause => simp [headerOf?, readFile, Except.map, Except.toOption]
  | ok header =>
    have htext : (Except.ok header : Except Cause String).toOption = some header := rfl
    change (readHeader _ >>= fun ns => readBody { namespaces := ns } _) = _ ↔ _
    simp only [bind_eq_ok_iff, headerOf?, htext, Option.bind_some, toOption_eq_some_iff]

/-- A table that `readTexts` reads `Holds` the rows behind the header. These are `Consistent`, with
`BareRowsFirst`. -/
theorem holds_of_readTexts (h : readTexts (header :: texts) = .ok t) :
    ∃ ns, headerOf? header = some ns ∧ Consistent ns.size texts ∧ BareRowsFirst ns.size texts ∧
      Holds ns (texts.filterMap (textRow? ns.size)) t := by
  obtain ⟨ns, hheader, h⟩ := readTexts_eq_ok_iff.1 h
  obtain ⟨hreadable, hpairwise, hholds⟩ := (Holds.nil ns).of_readBody .nil h
  rw [List.nil_append, List.filterMap_map] at hpairwise hholds
  obtain ⟨hagree, horder⟩ := pairwise_tolerates_iff.1 hpairwise
  exact ⟨ns, hheader, ⟨List.forall_mem_map.1 hreadable, hagree⟩, horder, hholds⟩

/-- Rows that are `Consistent`, with `BareRowsFirst`, can be read by `readTexts`. -/
theorem exists_readTexts (hheader : headerOf? header = some ns) (hrows : Consistent ns.size texts)
    (horder : BareRowsFirst ns.size texts) : ∃ t, readTexts (header :: texts) = .ok t := by
  have hlines : ∀ line ∈ texts.map fun text => text.map (Line.ofText 0),
      (rowOf? ns.size line).isSome := List.forall_mem_map.2 hrows.readable
  have htolerates := pairwise_tolerates_iff.2 ⟨hrows.agree, horder⟩
  obtain ⟨t, ht⟩ := (Holds.nil ns).exists_readBody hlines
    (by rwa [List.nil_append, List.filterMap_map])
  exact ⟨t, readTexts_eq_ok_iff.2 ⟨ns, hheader, ht⟩⟩

end Texts

/-- `readInput` reads a file of the plain dialect exactly if its rows are `Consistent`, and
`BareRowsFirst` holds: no row with the other names of a class stands before one with only its source
name. The same rows in another order are read as the same table, or rejected like these, except
where only one of the two orders keeps to `BareRowsFirst`. -/
theorem rel_readInput_perm_iff {input input' : Input} {header : Except Cause String}
    {texts texts' : List (Except Cause String)} (h : input.texts = header :: texts)
    (h' : input'.texts = header :: texts') (hperm : texts.Perm texts') :
    ((∃ t, readInput input = .ok t) ↔
      ∃ ns ∈ headerOf? header, Consistent ns.size texts ∧ BareRowsFirst ns.size texts) ∧
    (Option.Rel (fun t t' => Table.equiv t t' = true) (readInput input).toOption
        (readInput input').toOption ↔
      ∀ ns ∈ headerOf? header, Consistent ns.size texts →
        (BareRowsFirst ns.size texts ↔ BareRowsFirst ns.size texts')) := by
  have hread : ∀ {texts}, (∃ t, readTexts (header :: texts) = .ok t) ↔
      ∃ ns ∈ headerOf? header, Consistent ns.size texts ∧ BareRowsFirst ns.size texts := by
    intro texts
    constructor
    · rintro ⟨t, ht⟩
      obtain ⟨ns, hheader, hrows, horder, -⟩ := holds_of_readTexts ht
      exact ⟨ns, hheader, hrows, horder⟩
    · rintro ⟨ns, hheader, hrows, horder⟩
      exact exists_readTexts hheader hrows horder
  rw [readInput, readInput, h, h']
  -- consistency does not depend on the order, so only `BareRowsFirst` can tell two orders apart
  refine ⟨hread, fun hrel ns hns hrows => ?_, fun horder => ?_⟩
  · -- if both are read or none is, both keep to the order or none does
    have hiff : ∀ {texts}, Consistent ns.size texts →
        ((readTexts (header :: texts)).toOption.isSome ↔ BareRowsFirst ns.size texts) := by
      intro texts hrows
      simp only [Option.isSome_iff_exists, toOption_eq_some_iff, hread]
      constructor
      · rintro ⟨ns', hns', -, horder⟩
        obtain rfl : ns' = ns := Option.some.inj (hns'.symm.trans hns)
        exact horder
      · exact fun horder => ⟨ns, hns, hrows, horder⟩
    rw [← hiff hrows, ← hiff (hrows.perm hperm), OrderedMap.isSome_of_rel hrel]
  · refine rel_toOption (fun t ht => ?_) fun t' ht' => ?_
    · obtain ⟨ns, hns, hrows, hfirst, hholds⟩ := holds_of_readTexts ht
      obtain ⟨t', ht'⟩ := exists_readTexts hns (hrows.perm hperm) ((horder ns hns hrows).1 hfirst)
      obtain ⟨ns', hns', -, -, hholds'⟩ := holds_of_readTexts ht'
      obtain rfl : ns' = ns := Option.some.inj (hns'.symm.trans hns)
      exact ⟨t', ht', hholds.equiv hholds' (hperm.filterMap _)⟩
    · obtain ⟨ns, hns, hrows, hfirst, -⟩ := holds_of_readTexts ht'
      have hrows := hrows.perm hperm.symm
      exact exists_readTexts hns hrows ((horder ns hns hrows).2 hfirst)

/-- A file with the given `rows`. -/
def fileOf (rows : List String) : ByteArray :=
  (unlines ("v1\tofficial\tnamed" :: rows)).toUTF8

/-- The texts in a `fileOf` rows are those of the rows, if each of these fits on a line. -/
theorem texts_fileOf (rows : List String) (h : ∀ row ∈ rows, Avoids ['\n', '\r'] row) :
    Input.texts { bytes := fileOf rows } = .ok "v1\tofficial\tnamed" :: rows.map .ok := by
  have hrows : ∀ row ∈ "v1\tofficial\tnamed" :: rows, Avoids ['\n', '\r'] row :=
    List.forall_mem_cons.2 ⟨by decide, h⟩
  have hkept : ("v1\tofficial\tnamed" :: rows).map withoutReturn = "v1\tofficial\tnamed" :: rows :=
    (List.map_congr_left fun row hrow =>
      withoutReturn_of_avoids ((hrows row hrow).mono (by simp))).trans (List.map_id _)
  rw [Input.texts_of_bytes, fileOf, fileLines_toUTF8,
    lines_unlines fun row hrow => (hrows row hrow).mono (by simp), hkept, List.map_map]
  rfl

/-- Rows in which a class is there for its members, then with its source name alone, and then with
its other name, and a field is there twice. -/
def sampleRows : List String :=
  ["FIELD\ta\tI\tb\tcount", "METHOD\tz\t()V\tc\t", "CLASS\ta\t", "# a remark", "CLASS\ta\tMain",
    "FIELD\ta\tI\tb\tcount"]

/-- The `sampleRows` with the first one at the end. -/
def rotatedRows : List String :=
  sampleRows.drop 1 ++ sampleRows.take 1

/-- The `sampleRows` make the same table in both orders, with its classes in different orders. -/
theorem rel_readInput_perm_iff_sample :
    ∃ t t', read (fileOf sampleRows) = .ok t ∧ read (fileOf rotatedRows) = .ok t' ∧
      t.equiv t' = true ∧ t.classes.keys = ["a", "z"] ∧ t'.classes.keys = ["z", "a"] := by
  have htexts := texts_fileOf sampleRows (by decide)
  have htexts' := texts_fileOf rotatedRows (by decide)
  have hperm : sampleRows.Perm rotatedRows :=
    (List.Perm.of_eq (List.take_append_drop 1 sampleRows).symm).trans List.perm_append_comm
  have hperm := hperm.map (Except.ok : String → Except Cause String)
  have hkeys : (read (fileOf sampleRows)).toOption.any (·.classes.keys = ["a", "z"]) = true := by
    decide +kernel
  have hkeys' : (read (fileOf rotatedRows)).toOption.any (·.classes.keys = ["z", "a"]) = true := by
    decide +kernel
  obtain ⟨t, ht, hkeys⟩ := (Option.any_eq_true ..).1 hkeys
  obtain ⟨t', ht', hkeys'⟩ := (Option.any_eq_true ..).1 hkeys'
  have hread := toOption_eq_some_iff.1 ht
  have hread' := toOption_eq_some_iff.1 ht'
  -- both orders are accepted, so both keep to what the rows of a class have to
  obtain ⟨hfirst, hrel⟩ := rel_readInput_perm_iff htexts htexts' hperm
  obtain ⟨ns, hns, -, hfirst⟩ := hfirst.1 ⟨t, hread⟩
  obtain ⟨ns', hns', -, hfirst'⟩ :=
    (rel_readInput_perm_iff htexts' htexts hperm.symm).1.1 ⟨t', hread'⟩
  obtain rfl : ns' = ns := Option.some.inj (hns'.symm.trans hns)
  have hequiv := hrel.2 fun ns hns _ => by
    obtain rfl : ns' = ns := Option.some.inj (hns'.symm.trans hns)
    exact iff_of_true hfirst hfirst'
  change Option.Rel _ (read (fileOf sampleRows)).toOption (read (fileOf rotatedRows)).toOption
    at hequiv
  rw [ht, ht', Option.rel_some_some] at hequiv
  exact ⟨t, t', hread, hread', hequiv, of_decide_eq_true hkeys, of_decide_eq_true hkeys'⟩

/-- `read` accepts a row with only the source name of a class and one with its other name, too, in
this order and rejects them in the other one. -/
theorem read_bareRow :
    (["CLASS\ta\t", "CLASS\ta\tMain"].Perm ["CLASS\ta\tMain", "CLASS\ta\t"]) ∧
      (∃ t, read (fileOf ["CLASS\ta\t", "CLASS\ta\tMain"]) = .ok t) ∧
      ∀ t, read (fileOf ["CLASS\ta\tMain", "CLASS\ta\t"]) ≠ .ok t := by
  obtain ⟨t, ht⟩ := Option.isSome_iff_exists.1
    (show (read (fileOf ["CLASS\ta\t", "CLASS\ta\tMain"])).toOption.isSome = true by decide +kernel)
  have hnone : (read (fileOf ["CLASS\ta\tMain", "CLASS\ta\t"])).toOption = none := by decide +kernel
  refine ⟨.swap .., ⟨t, toOption_eq_some_iff.1 ht⟩, fun t' h => ?_⟩
  rw [h] at hnone
  cases hnone

end Format.Plain

end MappingTables
