import MappingTables.Format.Plain
import MappingTables.Proofs.NameRules
import MappingTables.Proofs.Nested.Reader

/-!
# What is read from a file of the plain dialect

* `Admits`: lines that say nothing about entries that is against some rules.
* `obeys_of_readLine`, `obeys_of_readFile`: such lines make tables that follow the rules.
* `obeys_of_read`: no name in a table that is read contains a tab or a line feed.
* `isAligned_of_readFile`: keys agree with names in every table that is read.
-/

namespace MappingTables.Format.Plain

open Text

/-- Whether what a `line` can say about entries follows `rules`: its names under the first one of
them, its descriptor, and its owner, which may be known by that name only. -/
structure Admits (rules : EntryRules) (size : Nat) (line : Line) : Prop where
  names : ∀ rest : Line, rest.fields <:+ line.fields → ∀ names, rest.names size false = .ok names →
    ∀ key, names.source = some key → rules.keyed key names
  descriptor : ∀ descriptor ∈ line.fields, rules.descriptor descriptor
  owner : ∀ key ∈ line.fields, rules.keyed key (Names.ofFirst key size)

section Reading

variable {rules : EntryRules} {t t' : Table} {c c' : ClassEntry} {names : Names} {line : Line}

/-- A class that `addClass` adds with its own line follows `rules` that its names follow. -/
theorem obeys_of_addClass (ht : t.Obeys rules)
    (hnames : ∀ key, names.source = some key → rules.keyed key names)
    (h : addClass t names = .ok t') : t'.Obeys rules := by
  obtain ⟨key, hkey, h⟩ := bind_eq_ok_iff.1 h
  split at h
  · next old hold =>
    have hold := ht _ (OrderedMap.get?_eq_some_iff.1 hold)
    -- a class of which nothing but its source name was known keeps its members
    split at h
    · cases h
      have hnew : ({ old with names } : ClassEntry).Obeys rules key :=
        ⟨hnames key (Names.requireSource_eq_ok_iff.1 hkey), hold.fields, hold.methods⟩
      exact OrderedMap.forall_mem_insert ht hnew
    · split at h
      · cases h
        exact ht
      · cases h
  · have hnew : ∀ key, names.source = some key → ClassEntry.Obeys rules key { names } :=
      fun key hkey => ⟨hnames key hkey, nofun, nofun⟩
    exact ht.addClass hnew h

/-- `addClass` changes nothing in the header. -/
theorem header_of_addClass (h : addClass t names = .ok t') :
    t'.namespaces = t.namespaces ∧ t'.properties = t.properties := by
  obtain ⟨key, -, h⟩ := bind_eq_ok_iff.1 h
  split at h
  · split at h
    · cases h
      exact ⟨rfl, rfl⟩
    · split at h
      · cases h
        exact ⟨rfl, rfl⟩
      · cases h
  · obtain ⟨_, -, h⟩ := bind_eq_ok_iff.1 h
    obtain ⟨-, -, h⟩ := bind_eq_ok_iff.1 h
    obtain ⟨_, -, h⟩ := bind_eq_ok_iff.1 h
    cases h
    exact ⟨rfl, rfl⟩

/-- What `readMember` does: it adds what a line says to the owner of a member. -/
theorem readMember_eq_ok {add : ClassEntry → String → Names → Except Failure ClassEntry}
    (h : readMember add t line = .ok t') :
    ∃ key rest descriptor rest' names c, line.next = .ok (key, rest) ∧
      rest.next = .ok (descriptor, rest') ∧ rest'.names t.namespaces.size false = .ok names ∧
      add (owner t key) descriptor names = .ok c ∧
      t' = { t with classes := t.classes.insert key c } := by
  obtain ⟨⟨key, rest⟩, hkey, h⟩ := bind_eq_ok_iff.1 h
  obtain ⟨⟨descriptor, rest'⟩, hdescriptor, h⟩ := bind_eq_ok_iff.1 h
  obtain ⟨names, hnames, h⟩ := bind_eq_ok_iff.1 h
  obtain ⟨c, hc, h⟩ := bind_eq_ok_iff.1 h
  exact ⟨key, rest, descriptor, rest', names, c, hkey, hdescriptor, hnames, within_eq_ok_iff.1 hc,
    (Except.ok.inj h).symm⟩

/-- What holds of a class is kept by `addMember` if it is kept by `add`: a member is new, or says
what is known. -/
theorem kept_of_addMember {α : Type} {kind : EntryKind} {key : α → Except Failure MemberKey}
    {row : α → String × Names} {members : OrderedMap MemberKey α}
    {add : ClassEntry → α → Except Failure ClassEntry} {a : α} (P : ClassEntry → Prop)
    (h : addMember kind key row members add c a = .ok c') (hc : P c)
    (hadd : add c a = .ok c' → P c') : P c' := by
  obtain ⟨k, -, h⟩ := bind_eq_ok_iff.1 h
  split at h
  · split at h
    · cases h
      exact hc
    · cases h
  · exact hadd h

/-- The `owner` of a member, if it was only known as an owner, has the name by which it was
known. -/
theorem obeys_owner {key : String} (ht : t.Obeys rules)
    (hkey : rules.keyed key (Names.ofFirst key t.namespaces.size)) :
    (owner t key).Obeys rules key := by
  unfold owner
  cases hget : t.classes.get? key with
  | some c => exact ht _ (OrderedMap.get?_eq_some_iff.1 hget)
  | none => exact ⟨hkey, nofun, nofun⟩

/-- Of the line of a member for which `Admits` holds, the owner, the descriptor and the names follow
the `rules`. -/
theorem Admits.member {size : Nat} {key descriptor : String} {rest rest' : Line}
    (hline : Admits rules size line) (hkey : line.next = .ok (key, rest))
    (hdescriptor : rest.next = .ok (descriptor, rest'))
    (hnames : rest'.names size false = .ok names) :
    rules.keyed key (Names.ofFirst key size) ∧ rules.descriptor descriptor ∧
      ∀ name, names.source = some name → rules.keyed name names := by
  have hfields : line.fields = key :: descriptor :: rest'.fields := by
    rw [(Line.next_eq_ok_iff.1 hkey).1, (Line.next_eq_ok_iff.1 hdescriptor).1]
  refine ⟨hline.owner key ?_, hline.descriptor descriptor ?_, hline.names rest' ?_ names hnames⟩
  · rw [hfields]
    exact List.mem_cons_self
  · rw [hfields]
    exact List.mem_cons_of_mem _ List.mem_cons_self
  · rw [hfields]
    exact ⟨[key, descriptor], rfl⟩

/-- `readLine` changes nothing in the header. -/
theorem header_of_readLine (h : readLine t line = .ok t') :
    t'.namespaces = t.namespaces ∧ t'.properties = t.properties := by
  unfold readLine at h
  split at h
  · obtain ⟨names, -, h⟩ := bind_eq_ok_iff.1 h
    exact header_of_addClass (within_eq_ok_iff.1 h)
  · obtain ⟨_, _, _, _, _, _, -, -, -, -, rfl⟩ := readMember_eq_ok h
    exact ⟨rfl, rfl⟩
  · obtain ⟨_, _, _, _, _, _, -, -, -, -, rfl⟩ := readMember_eq_ok h
    exact ⟨rfl, rfl⟩
  · split at h
    · cases h
      exact ⟨rfl, rfl⟩
    · exact absurd (within_eq_ok_iff.1 h) fail_ne_ok

/-- The line of a member keeps the rules that all it can say follows, if they are kept by `add`. -/
theorem obeys_of_readMember {add : ClassEntry → String → Names → Except Failure ClassEntry}
    (hline : Admits rules t.namespaces.size line) (ht : t.Obeys rules)
    (h : readMember add t line = .ok t')
    (hadd : ∀ {owner descriptor names c c'}, c.Obeys rules owner → rules.descriptor descriptor →
      (∀ name, names.source = some name → rules.keyed name names) →
      add c descriptor names = .ok c' → c'.Obeys rules owner) : t'.Obeys rules := by
  obtain ⟨key, rest, descriptor, rest', names, c, hkey, hdescriptor, hnames, hc, rfl⟩ :=
    readMember_eq_ok h
  obtain ⟨howner, hdescriptor, hkeyed⟩ := hline.member hkey hdescriptor hnames
  exact OrderedMap.forall_mem_insert ht (hadd (obeys_owner ht howner) hdescriptor hkeyed hc)

/-- `readLine` keeps the `rules` if `Admits` holds of the line, and so all that it can say follows
them. -/
theorem obeys_of_readLine (hline : Admits rules t.namespaces.size line) (ht : t.Obeys rules)
    (h : readLine t line = .ok t') : t'.Obeys rules := by
  unfold readLine at h
  split at h
  · obtain ⟨names, hnames, h⟩ := bind_eq_ok_iff.1 h
    have hsource := hline.names line (List.suffix_refl _) names hnames
    exact obeys_of_addClass ht hsource (within_eq_ok_iff.1 h)
  -- a member is added to a class that obeys the rules, and with names that were read
  · refine obeys_of_readMember hline ht h fun {owner _ _ _ _} hc hdescriptor hkeyed h => ?_
    refine kept_of_addMember (ClassEntry.Obeys rules owner) h hc (hc.addField fun key hkey => ?_)
    obtain ⟨hsource, rfl⟩ := Field.key_eq_ok_iff.1 hkey
    exact ⟨rfl, hkeyed _ hsource, hdescriptor⟩
  · refine obeys_of_readMember hline ht h fun {owner _ _ _ _} hc hdescriptor hkeyed h => ?_
    refine kept_of_addMember (ClassEntry.Obeys rules owner) h hc (hc.addMethod fun key hkey => ?_)
    obtain ⟨hsource, rfl⟩ := Method.key_eq_ok_iff.1 hkey
    exact ⟨rfl, hkeyed _ hsource, hdescriptor, nofun⟩
  · split at h
    · cases h
      exact ht
    · exact absurd (within_eq_ok_iff.1 h) fail_ne_ok

/-- `readFile` makes a table that follows the `rules`, for its number of namespaces, if `Admits`
holds of its lines. -/
theorem obeys_of_readFile (rules : Nat → EntryRules) {lines : List ReadLine}
    (hlines : ∀ line, .ok line ∈ lines → ∀ size, 0 < size → Admits (rules size) size line)
    (h : readFile lines = .ok t) : t.Obeys (rules t.namespaces.size) ∧ t.properties = ∅ := by
  unfold readFile at h
  split at h
  · cases h
  · cases h
  · next header lines =>
    obtain ⟨namespaces, -, h⟩ := bind_eq_ok_iff.1 h
    refine foldlM_induction (fun t => t.Obeys (rules t.namespaces.size) ∧ t.properties = ∅) h
      ⟨nofun, rfl⟩ ?_
    rintro (cause | line) hmem s s' ⟨hobeys, hproperties⟩ hstep
    · cases hstep
    · obtain ⟨hnamespaces, hkept⟩ := header_of_readLine hstep
      have hpos : 0 < s.namespaces.size := List.length_pos_of_ne_nil s.namespaces.valid.1
      have hline := hlines line (List.mem_cons_of_mem _ hmem) s.namespaces.size hpos
      rw [hnamespaces, hkept]
      exact ⟨obeys_of_readLine hline hobeys hstep, hproperties⟩

end Reading

/-! ## Names -/

/-- `Admits` holds of a line that `IsSound` and these `nameRules`: it has no names with characters
that it avoids. -/
theorem admits_nameRules {chars : List Char} {size : Nat} {line : Line}
    (hline : line.IsSound chars) : Admits (nameRules (Avoids ('\t' :: chars))) size line where
  names rest hrest names hnames key _ name hname := by
    have hfields : ∀ field ∈ rest.fields, Avoids ('\t' :: chars) field :=
      fun field hfield => hline.fields field (hrest.subset hfield)
    exact ((Nested.parameter_of_names hfields hnames).2 name hname).2 rfl
  descriptor _ _ := trivial
  owner key hkey name hname := by
    rcases List.mem_or_eq_of_mem_set hname with hname | hname
    · exact absurd (List.eq_of_mem_replicate hname) (Option.some_ne_none name)
    · exact Option.some.inj hname ▸ hline.fields key hkey

/-- A table that `read` reads has no header properties, and no tabs or line feeds in its names. -/
theorem obeys_of_read {bytes : ByteArray} {t : Table} (h : read bytes = .ok t) :
    t.Obeys (nameRules (Avoids ['\t', '\n'])) ∧ t.properties = ∅ :=
  obeys_of_readFile (fun _ => nameRules (Avoids ['\t', '\n']))
    (fun line hline _ _ => admits_nameRules (soundLines_texts bytes line hline)) h

/-! ## Keys -/

/-- An owner of which nothing but its source name is known, as `ofFirst` makes it, has that name, if
there are namespaces. -/
theorem keyed_ofFirst {size : Nat} (key : String) (hsize : 0 < size) :
    (alignedRules size).keyed key (Names.ofFirst key size) := by
  refine ⟨Names.size_ofFirst key size, fun name hname => ?_⟩
  rw [Names.source_ofFirst key hsize] at hname
  exact (Option.some.inj hname).symm

/-- `Admits` holds of every line and the `alignedRules`: its entries have a name for each namespace
and are keyed by the first one. -/
theorem admits_alignedRules {size : Nat} (hsize : 0 < size) (line : Line) :
    Admits (alignedRules size) size line where
  names rest _ names hnames key hkey := by
    obtain ⟨hlength, texts, htexts, rfl⟩ := Line.names_eq_ok_iff.1 hnames
    obtain rfl : rest.fields = texts := Except.ok.inj htexts
    refine ⟨(Names.size_ofTexts _).trans hlength, fun name hname => ?_⟩
    exact Option.some.inj (hname.symm.trans hkey)
  descriptor _ _ := trivial
  owner key _ := keyed_ofFirst key hsize

/-- In a table that `readFile` reads keys agree with names: it `IsAligned`. -/
theorem isAligned_of_readFile {lines : List ReadLine} {t : Table} (h : readFile lines = .ok t) :
    t.IsAligned :=
  (obeys_of_readFile alignedRules (fun line _ _ hsize => admits_alignedRules hsize line) h).1

end MappingTables.Format.Plain
