import MappingTables.Format.Nested
import MappingTables.Proofs.Additions
import MappingTables.Proofs.Format.Outline
import MappingTables.Proofs.Format.Row
import MappingTables.Proofs.Namespaces

/-!
# What is read from a file of the nested dialect

* `Fits`: the tables that can be written.
* `fits_of_readFile`: every table that is read is one of them.
-/

namespace MappingTables.Format

open Text

/-! ## Tables that can be written -/

/-- Whether no name is empty, and each one, unless `names` are `escaped`, avoids some characters. -/
def FitNames (chars : List Char) (escaped : Bool) (names : Names) : Prop :=
  ∀ name, some name ∈ names.slots → name ≠ "" ∧ (escaped = false → Avoids chars name)

instance (chars : List Char) (escaped : Bool) (names : Names) :
    Decidable (FitNames chars escaped names) :=
  decidable_of_iff
    (∀ slot ∈ names.slots, ∀ name ∈ slot, name ≠ "" ∧ (escaped = false → Avoids chars name))
    ⟨fun h name hname => h _ hname name rfl, fun h _ hslot name hname =>
      h name (Option.mem_def.1 hname ▸ hslot)⟩

namespace Nested

/-- What is asked of the entries of a table that is written: their names are `FitNames`, and their
descriptors avoid `chars`. -/
def entryRules (chars : List Char) (size : Nat) (escaped : Bool) : EntryRules where
  keyed key names := names.source = some key ∧ names.size = size ∧ FitNames chars escaped names
  descriptor := Avoids chars
  parameter names := names.size = size ∧ FitNames chars escaped names

section Decidable

variable (chars : List Char) (size : Nat) (escaped : Bool)

instance (key : String) (names : Names) :
    Decidable ((entryRules chars size escaped).keyed key names) :=
  inferInstanceAs (Decidable (_ ∧ _ ∧ FitNames chars escaped names))

instance (descriptor : String) :
    Decidable ((entryRules chars size escaped).descriptor descriptor) :=
  inferInstanceAs (Decidable (Avoids chars descriptor))

instance (names : Names) : Decidable ((entryRules chars size escaped).parameter names) :=
  inferInstanceAs (Decidable (_ ∧ FitNames chars escaped names))

end Decidable

/-- Whether a table can be written: all texts in it that are not escaped avoid `chars`, names are
not empty, one for each namespace and the first one that of the key, and there is no value under an
empty key. -/
structure Fits (chars : List Char) (t : Table) : Prop where
  entries : t.Obeys (entryRules chars t.namespaces.size (t.properties.contains escapedNames))
  labels : ∀ label ∈ t.namespaces.labels, Avoids chars label
  keys : ∀ e ∈ t.properties.entries, Avoids chars e.1
  values : ∀ e ∈ t.properties.entries, ∀ value ∈ e.2, Avoids chars value ∧ e.1 ≠ ""

section Rules

variable {chars : List Char} {size : Nat} {escaped : Bool} {line : Line}
    {names earlier later : Names}

/-- The `names` in a line follow the `entryRules` for a parameter. -/
theorem parameter_of_names (hline : ∀ field ∈ line.fields, Avoids chars field)
    (h : line.names size escaped = .ok names) :
    (entryRules chars size escaped).parameter names := by
  obtain ⟨hsize, texts, htexts, rfl⟩ := Line.names_eq_ok_iff.1 h
  have hlength : texts.length = line.fields.length := by
    split at htexts
    · exact (mapM_eq_ok_iff.1 htexts).length_eq.symm
    · rw [Except.ok.inj htexts]
  refine ⟨by rw [Names.size_ofTexts, hlength, hsize], fun name hname => ?_⟩
  obtain ⟨hmem, hne⟩ := Names.mem_slots_ofTexts.1 hname
  refine ⟨hne, ?_⟩
  rintro rfl
  exact hline name (Except.ok.inj htexts ▸ hmem)

/-- The `names` in a line follow the `entryRules` under the first one of them. -/
theorem keyed_of_names {key : String} (hline : ∀ field ∈ line.fields, Avoids chars field)
    (h : line.names size escaped = .ok names) (hkey : names.requireSource = .ok key) :
    (entryRules chars size escaped).keyed key names :=
  ⟨Names.requireSource_eq_ok_iff.1 hkey, parameter_of_names hline h⟩

/-- The names of an `overlay` follow the `entryRules` for a parameter if both do. -/
theorem parameter_overlay (hearlier : (entryRules chars size escaped).parameter earlier)
    (hlater : (entryRules chars size escaped).parameter later) :
    (entryRules chars size escaped).parameter (earlier.overlay later) := by
  refine ⟨(Names.size_overlay earlier later).trans hearlier.1, fun name hname => ?_⟩
  rcases Names.mem_overlaySlots hname with hname | hname
  · exact hearlier.2 name hname
  · exact hlater.2 name hname

/-- The names of an `overlay` follow the `entryRules` under a key if both do. -/
theorem keyed_overlay {key : String} (hearlier : (entryRules chars size escaped).keyed key earlier)
    (hlater : (entryRules chars size escaped).keyed key later) :
    (entryRules chars size escaped).keyed key (earlier.overlay later) := by
  refine ⟨?_, parameter_overlay hearlier.2 hlater.2⟩
  have hne : earlier.slots ≠ [] := by
    intro hnil
    have hsource := hearlier.1
    rw [Names.source, Names.get, hnil] at hsource
    cases hsource
  rw [Names.source_overlay hne, hlater.1, Option.some_or]

/-- The names that follow the `entryRules` can be overlaid, as `Overlays` says. -/
theorem overlays_entryRules : (entryRules chars size escaped).Overlays where
  keyed _ _ _ := keyed_overlay
  parameter _ _ := parameter_overlay

end Rules

/-! ## Reading keeps the rules -/

section Reading

variable {chars : List Char} {size : Nat} {escaped : Bool}

/-- What holds of an entry without members is kept by `readBelowLeaf` if it is kept by
`addComment`. -/
theorem kept_of_readBelowLeaf {α : Type} {addComment : α → String → α} (P : α → Prop) {a a' : α}
    {line : Line} {body unread : List ReadLine}
    (h : readBelowLeaf addComment a line body = .ok (a', unread)) (ha : P a)
    (hadd : ∀ a text, P a → P (addComment a text)) : P a' := by
  unfold readBelowLeaf at h
  split at h
  · obtain ⟨text, -, h⟩ := bind_eq_ok_iff.1 h
    cases h
    exact hadd a text ha
  · obtain ⟨-, -, h⟩ := bind_eq_ok_iff.1 h
    cases h
    exact ha

/-- A parameter that `readParameter` reads from a line that `IsSound` follows the `entryRules`. -/
theorem obeys_of_readParameter {line : Line} {p : Parameter} (hline : line.IsSound chars)
    (h : readParameter size escaped line = .ok p) :
    p.Obeys (entryRules ('\t' :: chars) size escaped) p.index := by
  obtain ⟨⟨index, rest⟩, hnext, h⟩ := bind_eq_ok_iff.1 h
  obtain ⟨index, -, h⟩ := bind_eq_ok_iff.1 h
  obtain ⟨names, hnames, h⟩ := bind_eq_ok_iff.1 h
  cases h
  exact ⟨rfl, parameter_of_names (hline.next hnext).2 hnames⟩

/-- What `readBelowMethod` reads keeps the `entryRules`. -/
theorem obeys_of_readBelowMethod {key : MemberKey} {m m' : Method} {line : Line}
    {body unread : List ReadLine} (hline : line.IsSound chars)
    (hm : m.Obeys (entryRules ('\t' :: chars) size escaped) key)
    (h : readBelowMethod size escaped m line body = .ok (m', unread)) :
    m'.Obeys (entryRules ('\t' :: chars) size escaped) key := by
  unfold readBelowMethod at h
  split at h
  · obtain ⟨p, hp, h⟩ := bind_eq_ok_iff.1 h
    obtain ⟨p', hp', h⟩ := bind_eq_ok_iff.1 h
    cases h
    -- the lines below a parameter change its comment at most
    have hread : p'.Obeys (entryRules ('\t' :: chars) size escaped) p.index := by
      refine readLevel_induction
        (fun p' => p'.Obeys (entryRules ('\t' :: chars) size escaped) p.index)
        (within_eq_ok_iff.1 hp')
        (hm.mergedParameter overlays_entryRules (obeys_of_readParameter hline hp)) ?_
      intro s line body s' unread _ _ hs hstep
      exact kept_of_readBelowLeaf
        (Parameter.Obeys (entryRules ('\t' :: chars) size escaped) p.index)
        hstep hs fun _ _ h => ⟨h.index_eq, h.names⟩
    refine ⟨hm.descriptor_eq, hm.names, hm.descriptor, ?_⟩
    exact OrderedMap.forall_mem_insert hm.parameters ⟨rfl, hread.names⟩
  · obtain ⟨text, -, h⟩ := bind_eq_ok_iff.1 h
    cases h
    exact ⟨hm.descriptor_eq, hm.names, hm.descriptor, hm.parameters⟩
  · obtain ⟨-, -, h⟩ := bind_eq_ok_iff.1 h
    cases h
    exact hm

/-- What `readBelowClass` reads keeps the `entryRules`. -/
theorem obeys_of_readBelowClass {key : String} {c c' : ClassEntry} {line : Line}
    {body unread : List ReadLine} (hline : line.IsSound chars) (hbody : SoundLines chars body)
    (hc : c.Obeys (entryRules ('\t' :: chars) size escaped) key)
    (h : readBelowClass size escaped c line body = .ok (c', unread)) :
    c'.Obeys (entryRules ('\t' :: chars) size escaped) key := by
  unfold readBelowClass at h
  split at h
  · obtain ⟨⟨descriptor, rest⟩, hnext, h⟩ := bind_eq_ok_iff.1 h
    obtain ⟨names, hnames, h⟩ := bind_eq_ok_iff.1 h
    obtain ⟨key', hkey', h⟩ := bind_eq_ok_iff.1 h
    obtain ⟨f', hf', h⟩ := bind_eq_ok_iff.1 h
    cases h
    obtain ⟨hdescriptor, hfields⟩ := hline.next hnext
    obtain ⟨name, hname, hkey'⟩ := bind_eq_ok_iff.1 hkey'
    cases hkey'
    have hnew : Field.Obeys (entryRules ('\t' :: chars) size escaped) ⟨name, descriptor⟩
        { descriptor, names } :=
      ⟨rfl, keyed_of_names hfields hnames hname, hdescriptor⟩
    -- the lines below a field change its comment at most
    have hread : f'.Obeys (entryRules ('\t' :: chars) size escaped) ⟨name, descriptor⟩ := by
      refine readLevel_induction
        (fun f' => f'.Obeys (entryRules ('\t' :: chars) size escaped) ⟨name, descriptor⟩)
        (within_eq_ok_iff.1 hf') (hc.mergedField overlays_entryRules hnew) ?_
      intro s line body s' unread _ _ hs hstep
      exact kept_of_readBelowLeaf
        (Field.Obeys (entryRules ('\t' :: chars) size escaped) ⟨name, descriptor⟩) hstep hs
        fun _ _ h => ⟨h.descriptor_eq, h.names, h.descriptor⟩
    exact ⟨hc.names, OrderedMap.forall_mem_insert hc.fields hread, hc.methods⟩
  · obtain ⟨⟨descriptor, rest⟩, hnext, h⟩ := bind_eq_ok_iff.1 h
    obtain ⟨names, hnames, h⟩ := bind_eq_ok_iff.1 h
    obtain ⟨key', hkey', h⟩ := bind_eq_ok_iff.1 h
    obtain ⟨m', hm', h⟩ := bind_eq_ok_iff.1 h
    cases h
    obtain ⟨hdescriptor, hfields⟩ := hline.next hnext
    obtain ⟨name, hname, hkey'⟩ := bind_eq_ok_iff.1 hkey'
    cases hkey'
    have hnew : Method.Obeys (entryRules ('\t' :: chars) size escaped) ⟨name, descriptor⟩
        { descriptor, names } :=
      ⟨rfl, keyed_of_names hfields hnames hname, hdescriptor, nofun⟩
    have hread : m'.Obeys (entryRules ('\t' :: chars) size escaped) ⟨name, descriptor⟩ := by
      refine readLevel_induction
        (fun m' => m'.Obeys (entryRules ('\t' :: chars) size escaped) ⟨name, descriptor⟩)
        (within_eq_ok_iff.1 hm') (hc.mergedMethod overlays_entryRules hnew) ?_
      intro s line body s' unread hmem _ hs hstep
      exact obeys_of_readBelowMethod (hbody line hmem) hs hstep
    exact ⟨hc.names, hc.fields, OrderedMap.forall_mem_insert hc.methods hread⟩
  · obtain ⟨text, -, h⟩ := bind_eq_ok_iff.1 h
    cases h
    exact ⟨hc.names, hc.fields, hc.methods⟩
  · obtain ⟨-, -, h⟩ := bind_eq_ok_iff.1 h
    cases h
    exact hc

/-- What `readTopLevel` reads changes neither namespaces nor properties. -/
theorem header_of_readTopLevel {t t' : Table} {line : Line} {body unread : List ReadLine}
    (h : readTopLevel escaped t line body = .ok (t', unread)) :
    t'.namespaces = t.namespaces ∧ t'.properties = t.properties := by
  unfold readTopLevel at h
  split at h
  · obtain ⟨names, -, h⟩ := bind_eq_ok_iff.1 h
    obtain ⟨-, -, h⟩ := bind_eq_ok_iff.1 h
    obtain ⟨key, -, h⟩ := bind_eq_ok_iff.1 h
    obtain ⟨c, -, h⟩ := bind_eq_ok_iff.1 h
    cases h
    exact ⟨rfl, rfl⟩
  · obtain ⟨-, -, h⟩ := bind_eq_ok_iff.1 h
    cases h
    exact ⟨rfl, rfl⟩

/-- What `readTopLevel` reads keeps the `entryRules`. -/
theorem obeys_of_readTopLevel {t t' : Table} {line : Line} {body unread : List ReadLine}
    (hline : line.IsSound chars) (hbody : SoundLines chars body)
    (ht : t.Obeys (entryRules ('\t' :: chars) t.namespaces.size escaped))
    (h : readTopLevel escaped t line body = .ok (t', unread)) :
    t'.Obeys (entryRules ('\t' :: chars) t.namespaces.size escaped) := by
  unfold readTopLevel at h
  split at h
  · obtain ⟨names, hnames, h⟩ := bind_eq_ok_iff.1 h
    obtain ⟨-, -, h⟩ := bind_eq_ok_iff.1 h
    obtain ⟨key, hkey, h⟩ := bind_eq_ok_iff.1 h
    obtain ⟨c', hc', h⟩ := bind_eq_ok_iff.1 h
    cases h
    -- the sections below keep what holds of the class with its own row
    have hread : c'.Obeys (entryRules ('\t' :: chars) t.namespaces.size escaped) key := by
      refine readLevel_induction
        (fun c' => c'.Obeys (entryRules ('\t' :: chars) t.namespaces.size escaped) key)
        (within_eq_ok_iff.1 hc')
        (ht.mergedClass overlays_entryRules
          ⟨keyed_of_names hline.fields hnames hkey, nofun, nofun⟩) ?_
      intro s line body' s' unread hmem hsub hs hstep
      exact obeys_of_readBelowClass (hbody line hmem) (hbody.mono hsub) hs hstep
    exact OrderedMap.forall_mem_insert ht hread
  · obtain ⟨-, -, h⟩ := bind_eq_ok_iff.1 h
    cases h
    exact ht

/-- The header properties that `readProperty` reads can be written. -/
theorem properties_of_readLevel {properties : OrderedMap String (Option String)}
    {lines : List ReadLine} (hlines : SoundLines chars lines)
    (h : readLevel 1 readProperty ∅ lines = .ok properties) :
    ∀ e ∈ properties.entries, Avoids ('\t' :: chars) e.1 ∧
      ∀ value ∈ e.2, Avoids ('\t' :: chars) value ∧ e.1 ≠ "" := by
  refine readLevel_induction (fun m => ∀ e ∈ m.entries, Avoids ('\t' :: chars) e.1 ∧
    ∀ value ∈ e.2, Avoids ('\t' :: chars) value ∧ e.1 ≠ "") h nofun ?_
  intro s line body s' unread hmem _ hs hstep
  cases hstep
  have hline := hlines line hmem
  refine OrderedMap.forall_mem_insert (P := fun key value => Avoids ('\t' :: chars) key ∧
    ∀ v ∈ value, Avoids ('\t' :: chars) v ∧ key ≠ "") hs ⟨?_, fun value hvalue => ⟨?_, ?_⟩⟩
  · exact hline.avoids line.head List.mem_cons_self
  · exact hline.avoids value (List.mem_cons_of_mem _ (List.mem_of_head? hvalue))
  · exact hline.head_ne (List.ne_nil_of_mem (List.mem_of_head? hvalue))

/-- What `readTopLevel` reads has the namespaces and properties of the header, and follows the
`entryRules` for them. -/
theorem kept_of_readTopLevel {namespaces : Namespaces}
    {properties : OrderedMap String (Option String)} {lines : List ReadLine} {t : Table}
    (hlines : SoundLines chars lines)
    (h : readLevel 0 (readTopLevel escaped) { namespaces, properties } lines = .ok t) :
    t.namespaces = namespaces ∧ t.properties = properties ∧
      t.Obeys (entryRules ('\t' :: chars) namespaces.size escaped) := by
  refine readLevel_induction (fun t => t.namespaces = namespaces ∧ t.properties = properties ∧
    t.Obeys (entryRules ('\t' :: chars) namespaces.size escaped)) h ⟨rfl, rfl, nofun⟩ ?_
  intro s line body s' unread hmem hsub hs hstep
  obtain ⟨hsns, hsprops, hsobeys⟩ := hs
  rw [← hsns] at hsobeys ⊢
  have hheader := header_of_readTopLevel hstep
  have hobeys := obeys_of_readTopLevel (hlines line hmem) (hlines.mono hsub) hsobeys hstep
  exact ⟨hheader.1, hheader.2.trans hsprops, hobeys⟩

/-- Every table that `readFile` reads from `SoundLines` can be written: it `Fits`. -/
theorem fits_of_readFile {lines : List ReadLine} {t : Table} (hlines : SoundLines chars lines)
    (h : readFile lines = .ok t) : Fits ('\t' :: chars) t := by
  unfold readFile at h
  split at h
  · cases h
  · cases h
  · next header lines =>
    obtain ⟨namespaces, hns, h⟩ := bind_eq_ok_iff.1 h
    obtain ⟨properties, hproperties, h⟩ := bind_eq_ok_iff.1 h
    have hrest : SoundLines chars lines := fun line hline =>
      hlines line (List.mem_cons_of_mem _ hline)
    have hheader : header.IsSound chars := hlines header List.mem_cons_self
    have hlabels : ∀ label ∈ namespaces.labels, Avoids ('\t' :: chars) label := by
      unfold readHeader at hns
      split at hns
      · next labels hhead hfields =>
        rw [Namespaces.ofLabels_eq_ok_iff.1 (within_eq_ok_iff.1 hns)]
        intro label hlabel
        refine hheader.fields label ?_
        rw [hfields]
        exact List.mem_cons_of_mem _ (List.mem_cons_of_mem _ hlabel)
      · cases hns
    -- the properties are the lines that are indented, and the classes come after them
    have hprops := properties_of_readLevel
      (hrest.mono fun l hl => (List.takeWhile_sublist _).subset hl) (within_eq_ok_iff.1 hproperties)
    have hkept := kept_of_readTopLevel
      (hrest.mono fun l hl => (List.dropWhile_sublist _).subset hl) (within_eq_ok_iff.1 h)
    obtain ⟨rfl, rfl, hobeys⟩ := hkept
    exact ⟨hobeys, hlabels, fun e he => (hprops e he).1, fun e he => (hprops e he).2⟩

end Reading

end Nested

end MappingTables.Format
