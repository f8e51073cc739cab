import MappingTables.Proofs.Files.Reading
import MappingTables.Proofs.Identity.TableKey

/-!
# Tables that are given out for sources

A source is made of a file and told apart by what the file held then. Its table is read from the
file when it is asked for, and is kept for all sources of the same content. By then the file may
hold something else.

* `Source.Answer`: what happens when the table of a source is asked for.
* `Serves`: the sources that were made and the tables that were given out, while files were written.
* `Serves.isFaithful_iff`: whether a table is that of the content for which it was given out.
* `isFaithful_rewritten`: a file that is written anew before its table is asked for.
-/

namespace MappingTables

open Step

/-- The table in `bytes`, switched to a source namespace. -/
def switchedTable (bytes : ByteArray) (label : String) : Except Failure Table := do
  let t ← Format.read bytes
  (t.switchSource label).outcome

/-! ## Requests -/

namespace Source

/-- What happens when the table of a source is asked for: the outcome, and the `tables`
afterwards. -/
inductive Answer (s : Source) (label : String) (files : FileStore) (tables : Service) :
    Except Failure SharedTable → Service → Prop where
  | kept {shared : SharedTable} (h : tables.get? (s.switchedKey label).text = some shared) :
    Answer s label files tables (.ok shared) tables
  | failed {failure : Failure} (hnew : tables.get? (s.switchedKey label).text = none) :
    Answer s label files tables (.error failure) (tables.reserve (s.switchedKey label).text)
  | built {content : FileContent} {table : Table}
    (hnew : tables.get? (s.switchedKey label).text = none) (hread : files.read s.path = .ok content)
    (htable : switchedTable content.toBytes label = .ok table) :
    Answer s label files tables
      (.ok ((tables.reserve (s.switchedKey label).text).store (s.switchedKey label).text table).1)
      ((tables.reserve (s.switchedKey label).text).store (s.switchedKey label).text table).2

variable {s : Source} {label : String} {host host' : Host}

/-- The table that is built for a source which is a file is the one that the file at its `path`
holds now, as `switchedTable` gives it. -/
theorem runFrom_build_eq_ok (hfile : s.member = none) {table : Table}
    (h : (s.read >>= fun t => Action.ofNoted (t.switchSource label)).runFrom host =
      (.ok table, host')) :
    ∃ content, host.files.read s.path = .ok content ∧
      switchedTable content.toBytes label = .ok table := by
  obtain ⟨t, host'', hread, hswitched⟩ := runFrom_bind_eq_ok_iff.1 h
  rw [Source.read, hfile] at hread
  obtain ⟨content, hcontent⟩ := MappingsFile.exists_read_of_runFrom_read hread
  obtain ⟨ht, rfl⟩ := (MappingsFile.runFrom_read_eq_ok_iff hcontent).1 hread
  obtain ⟨hswitched, -, -⟩ := Action.runFrom_ofNoted_eq_ok hswitched
  exact ⟨content, hcontent, bind_eq_ok_iff.2 ⟨t, ht, hswitched⟩⟩

/-- The tables are left alone while one is built: this leaves `SameTables`. -/
theorem sameTables_build (s : Source) (label : String) :
    Respects Action.SameTables (s.read >>= fun t => Action.ofNoted (t.switchSource label)) :=
  s.leavesState_read.respects.bind fun _ => Action.sameTables_ofNoted _

/-- What `getOrRead` does is one of the three things of `Answer`. -/
theorem answer_of_getOrRead (hfile : s.member = none) {outcome : Except Failure SharedTable}
    (h : (s.getOrRead label).runFrom host = (outcome, host')) :
    s.Answer label host.files host.tables outcome host'.tables := by
  cases hkept : host.tables.get? (s.switchedKey label).text with
  | some shared =>
    rw [getOrRead, Action.runFrom_getOrCreate_of_kept hkept] at h
    cases h
    exact .kept hkept
  | none =>
    cases outcome with
    | error failure =>
      obtain ⟨-, cause, hbuild⟩ := Action.runFrom_getOrCreate_eq_error h
      rw [(sameTables_build s label).of_eq hbuild]
      exact .failed hkept
    | ok shared =>
      obtain ⟨table, t, hbuild, rfl, rfl⟩ := (Action.runFrom_getOrCreate_of_new hkept).1 h
      obtain ⟨content, hread, htable⟩ := runFrom_build_eq_ok hfile hbuild
      -- the key is still the only thing that was reserved when the table is stored
      have htables := (sameTables_build s label).of_eq hbuild
      change t.tables = host.tables.reserve (s.switchedKey label).text at htables
      dsimp only
      rw [htables]
      exact .built hkept hread htable

/-- `getOrRead` gives out a table that is not there yet if the file holds it. -/
theorem exists_runFrom_getOrRead (hfile : s.member = none) {content : FileContent} {table : Table}
    (hnew : host.tables.get? (s.switchedKey label).text = none)
    (hread : host.files.read s.path = .ok content)
    (htable : switchedTable content.toBytes label = .ok table) :
    ∃ shared host', (s.getOrRead label).runFrom host = (.ok shared, host') ∧
      shared.table = table := by
  obtain ⟨t, ht, hswitched⟩ := bind_eq_ok_iff.1 htable
  -- making the table reads files only, so that the key is reserved does not matter
  have hbuild : ∀ reserved : Host, reserved.files = host.files → ∃ host',
      (s.read >>= fun t => Action.ofNoted (t.switchSource label)).runFrom reserved =
        (.ok table, host') := by
    intro reserved hfiles
    rw [← hfiles] at hread
    have hreadTable : s.read.runFrom reserved = (.ok t, reserved) := by
      rw [Source.read, hfile]
      exact (MappingsFile.runFrom_read_eq_ok_iff hread).2 ⟨ht, rfl⟩
    rw [runFrom_bind, hreadTable]
    exact ⟨_, Prod.ext hswitched rfl⟩
  obtain ⟨host', hbuild⟩ := hbuild
    { host with tables := host.tables.reserve (s.switchedKey label).text } rfl
  exact ⟨_, _, (Action.runFrom_getOrCreate_of_new hnew).2 ⟨table, _, hbuild, rfl, rfl⟩, rfl⟩

end Source

/-! ## Deliveries -/

/-- A table that was given out. -/
structure Delivery where
  /-- What the file held when the source was made of it. -/
  content : ByteArray
  source : Source
  /-- The label that the table was switched to. -/
  label : String
  /-- The files when the table was asked for. -/
  files : FileStore
  shared : SharedTable

namespace Delivery

/-- Whether a table was given out for a `hash` and a `label`. -/
def isFor (hash : List UInt8) (label : String) (d : Delivery) : Bool :=
  d.source.hash = hash ∧ d.label = label

theorem isFor_iff {hash : List UInt8} {label : String} {d : Delivery} :
    isFor hash label d = true ↔ d.source.hash = hash ∧ d.label = label :=
  decide_eq_true_iff

/-- Whether a `Delivery` is of a table that was given out for the same content and the same label as
another one. -/
def IsLike (d e : Delivery) : Prop :=
  d.content = e.content ∧ d.label = e.label

/-- Whether a table was `given` out before all others that are like a given one, by `IsLike`. -/
def IsFirst (given : List Delivery) (d first : Delivery) : Prop :=
  ∃ before after, given = before ++ first :: after ∧ first.IsLike d ∧ ∀ e ∈ before, ¬e.IsLike d

/-- Nothing is before `e`, which was given out at the start: `IsFirst` can hold of nothing else. -/
theorem IsFirst.eq_head {given : List Delivery} {d e first : Delivery}
    (h : IsFirst (e :: given) d first) (he : e.IsLike d) : first = e := by
  obtain ⟨before, after, hgiven, -, hbefore⟩ := h
  cases before with
  | nil => exact (List.cons.inj hgiven).1.symm
  | cons e' before => exact absurd ((List.cons.inj hgiven).1 ▸ he) (hbefore e' List.mem_cons_self)

/-- Whether a table is the `switchedTable` that the file of the source held when it was asked
for. -/
def IsBuilt (d : Delivery) : Prop :=
  ∃ content, d.files.read d.source.path = .ok content ∧
    switchedTable content.toBytes d.label = .ok d.shared.table

/-- Whether a table is the `switchedTable` of the content for which it was given out: what the file
of the source held when the source was made. -/
def IsFaithful (d : Delivery) : Prop :=
  ∃ t, switchedTable d.content d.label = .ok t ∧ d.shared.table.equiv t

end Delivery

/-- The sources that were made, each with what its file held, and each `Delivery` of a table that
was given out, in order, while files were written. Initially there are no tables. Each step may also
fail. -/
inductive Serves : List (ByteArray × Source) → List Delivery → Host → Prop where
  | start {host : Host} (h : ∀ key, host.tables.get? key = none) : Serves [] [] host
  | write {made : List (ByteArray × Source)} {given : List Delivery} {host host' : Host}
    {outcome : Except Failure Unit} (before : Serves made given host) (path : String)
    (content : FileContent) (h : (Action.write path content).runFrom host = (outcome, host')) :
    Serves made given host'
  | make {made : List (ByteArray × Source)} {given : List Delivery} {host host' : Host}
    {content : FileContent} {source : Source} (before : Serves made given host) (path : String)
    (hread : host.files.read path = .ok content)
    (h : (Source.ofFile path).runFrom host = (.ok source, host')) :
    Serves (made ++ [(content.toBytes, source)]) given host'
  | makeFailed {made : List (ByteArray × Source)} {given : List Delivery} {host host' : Host}
    {failure : Failure} (before : Serves made given host) (path : String)
    (h : (Source.ofFile path).runFrom host = (.error failure, host')) : Serves made given host'
  | give {made : List (ByteArray × Source)} {given : List Delivery} {host host' : Host}
    {content : ByteArray} {source : Source} {shared : SharedTable} (before : Serves made given host)
    (hmade : (content, source) ∈ made) (label : String)
    (h : (source.getOrRead label).runFrom host = (.ok shared, host')) :
    Serves made (given ++ [{ content, source, label, files := host.files, shared }]) host'
  | giveFailed {made : List (ByteArray × Source)} {given : List Delivery} {host host' : Host}
    {content : ByteArray} {source : Source} {failure : Failure} (before : Serves made given host)
    (hmade : (content, source) ∈ made) (label : String)
    (h : (source.getOrRead label).runFrom host = (.error failure, host')) : Serves made given host'

/-! ## Books -/

open Delivery

/-- The `tables` of a service are those that it gave out. -/
structure Booked (given : List Delivery) (tables : Service) : Prop where
  numbered : tables.Numbered
  /-- What is kept for a source is what was given out first for its hash. -/
  kept : ∀ (s : Source) (label : String), tables.get? (s.switchedKey label).text =
    (given.find? (isFor s.hash label)).map Delivery.shared
  /-- What was given out is still kept. -/
  shared : ∀ d ∈ given, tables.get? (d.source.switchedKey d.label).text = some d.shared
  /-- What was given out first for a hash was built then. -/
  built : ∀ hash label d, given.find? (isFor hash label) = some d → d.IsBuilt

namespace Booked

variable {given : List Delivery} {tables : Service} {d : Delivery} {s : Source} {label : String}

theorem nil (h : ∀ key, tables.get? key = none) : Booked [] tables where
  numbered := Service.numbered_of_none h
  kept s label := h _
  shared := nofun
  built hash label d hfind := by cases hfind

/-- A request that fails, which may `reserve` a key, leaves the books `Booked`. -/
theorem reserve (h : Booked given tables) (key : String) : Booked given (tables.reserve key) where
  numbered := h.numbered.reserve key
  kept s label := by rw [Service.get?_reserve, h.kept]
  shared d hd := by rw [Service.get?_reserve, h.shared d hd]
  built := h.built

/-- A table that is kept is given out again, and this leaves the books `Booked`. -/
theorem again (h : Booked given tables)
    (hd : tables.get? (d.source.switchedKey d.label).text = some d.shared) :
    Booked (given ++ [d]) tables := by
  -- one was given out before for the same hash and label
  have hfind : ∀ hash label, (given ++ [d]).find? (isFor hash label) =
      given.find? (isFor hash label) := by
    intro hash label
    rw [List.find?_append]
    by_cases hfor : isFor hash label d = true
    · obtain ⟨rfl, rfl⟩ := isFor_iff.1 hfor
      rw [h.kept] at hd
      obtain ⟨first, hfirst, -⟩ := Option.map_eq_some_iff.1 hd
      rw [hfirst, Option.some_or]
    · rw [List.find?_singleton, if_neg hfor, Option.or_none]
  constructor
  · exact h.numbered
  · intro s label
    rw [hfind, h.kept]
  · intro e he
    obtain he | he := List.mem_append.1 he
    · exact h.shared e he
    · rw [List.mem_singleton.1 he, hd]
  · intro hash label e he
    rw [hfind] at he
    exact h.built hash label e he

/-- A table that `IsBuilt` is given out for the first time, and `store` keeps it: this leaves the
books `Booked`. -/
theorem first (h : Booked given tables) {table : Table}
    (hnew : tables.get? (d.source.switchedKey d.label).text = none)
    (hshared : d.shared = (tables.store (d.source.switchedKey d.label).text table).1)
    (hbuilt : d.IsBuilt) :
    Booked (given ++ [d]) (tables.store (d.source.switchedKey d.label).text table).2 := by
  have hnone : given.find? (isFor d.source.hash d.label) = none := by
    rw [h.kept] at hnew
    exact Option.map_eq_none_iff.1 hnew
  -- the new delivery is found for its own hash and label only
  have hfind : ∀ hash label, (given ++ [d]).find? (isFor hash label) =
      if isFor hash label d = true then some d else given.find? (isFor hash label) := by
    intro hash label
    rw [List.find?_append, List.find?_singleton]
    split_ifs with hfor
    · obtain ⟨rfl, rfl⟩ := isFor_iff.1 hfor
      rw [hnone, Option.none_or]
    · rw [Option.or_none]
  constructor
  · exact h.numbered.store _ _
  · intro s label
    rw [hfind]
    split_ifs with hfor
    · obtain ⟨hhash, rfl⟩ := isFor_iff.1 hfor
      rw [← Source.switchedKey_congr hhash, Service.get?_store_self, ← hshared, Option.map_some]
    -- two keys with one text have the same hash and label
    · have hne : (s.switchedKey label).text ≠ (d.source.switchedKey d.label).text := by
        intro htext
        obtain ⟨hhash, hlabel⟩ := Source.text_switchedKey_inj htext
        exact hfor (isFor_iff.2 ⟨hhash.symm, hlabel.symm⟩)
      rw [Service.get?_store_of_ne hne, h.kept]
  · intro e he
    obtain he | he := List.mem_append.1 he
    · have hold := h.shared e he
      have hne : (e.source.switchedKey e.label).text ≠ (d.source.switchedKey d.label).text := by
        intro htext
        rw [htext, hnew] at hold
        cases hold
      rw [Service.get?_store_of_ne hne, hold]
    · rw [List.mem_singleton.1 he, Service.get?_store_self, hshared]
  · intro hash label e he
    rw [hfind] at he
    split_ifs at he with hfor
    · rwa [← Option.some.inj he]
    · exact h.built hash label e he

end Booked

/-! ## Runs -/

/-- Whether two contents stand for the same table, switched to a `label`. -/
def StandAlike (label : String) (bytes bytes' : ByteArray) : Prop :=
  ∃ t t', switchedTable bytes label = .ok t ∧ switchedTable bytes' label = .ok t' ∧ t.equiv t'

/-- Whether the contents of the sources that were `made` can be told apart by their hashes. -/
def Distinguished (made : List (ByteArray × Source)) : Prop :=
  ∀ m ∈ made, ∀ n ∈ made, Sha256.hash m.1.data.toList = Sha256.hash n.1.data.toList → m.1 = n.1

namespace Serves

variable {made : List (ByteArray × Source)} {given : List Delivery} {host : Host} {d e : Delivery}

/-- Each file can be made a source, and the service still `Serves`. -/
theorem make_of_read (h : Serves made given host) {path : String} {content : ByteArray}
    (hread : host.files.read path = .ok (.bytes content)) :
    Serves (made ++ [(content, .ofBytes path none content)]) given host := by
  have hmake := h.make path hread (Source.runFrom_ofFile hread)
  rwa [FileContent.toBytes] at hmake

/-- Whenever `ofFile` makes a source, the file holds something that it is made of. -/
theorem exists_make (h : Serves made given host) {path : String} {source : Source} {host' : Host}
    (hmake : (Source.ofFile path).runFrom host = (.ok source, host')) :
    ∃ content, Serves (made ++ [(content, source)]) given host' := by
  obtain ⟨content, hread⟩ := Source.exists_read_of_runFrom_ofFile hmake
  exact ⟨content.toBytes, h.make path hread hmake⟩

/-- A source that was `made` is a file, and has the hash of what the file held. -/
theorem source_eq (h : Serves made given host) {content : ByteArray} {source : Source}
    (hmade : (content, source) ∈ made) : ∃ path, source = .ofBytes path none content := by
  induction h with
  | start h => cases hmade
  | write before path content h ih => exact ih hmade
  | make before path hread h ih =>
    obtain hmade | hmade := List.mem_append.1 hmade
    · exact ih hmade
    · cases (Source.runFrom_ofFile hread).symm.trans h
      cases List.mem_singleton.1 hmade
      exact ⟨path, rfl⟩
  | makeFailed before path h ih => exact ih hmade
  | give before hmade' label h ih => exact ih hmade
  | giveFailed before hmade' label h ih => exact ih hmade

/-- Tables are `given` out for sources that were `made`. -/
theorem mem_made (h : Serves made given host) (hd : d ∈ given) : (d.content, d.source) ∈ made := by
  induction h with
  | start h => cases hd
  | write before path content h ih => exact ih hd
  | make before path hread h ih => exact List.mem_append_left _ (ih hd)
  | makeFailed before path h ih => exact ih hd
  | give before hmade label h ih =>
    obtain hd | hd := List.mem_append.1 hd
    · exact ih hd
    · rw [List.mem_singleton.1 hd]
      exact hmade
  | giveFailed before hmade label h ih => exact ih hd

/-- What a service keeps is what it gave out, whatever happens to the files: its tables are
`Booked`. -/
theorem booked (h : Serves made given host) : Booked given host.tables := by
  induction h with
  | start h => exact .nil h
  | write before path content h ih =>
    rw [(Action.sameTables_write path content).of_eq h]
    exact ih
  | make before path hread h ih =>
    rw [(Source.leavesState_ofFile path).eq_of_ok h]
    exact ih
  | makeFailed before path h ih =>
    have hsame : Respects Action.SameTables (Source.ofFile path) :=
      (Source.leavesState_ofFile path).respects
    rw [hsame.of_eq h]
    exact ih
  | @give made given host host' content source shared before hmade label h ih =>
    obtain ⟨path, hsource⟩ := before.source_eq hmade
    have hanswer := Source.answer_of_getOrRead (congrArg Source.member hsource) h
    -- a kept table comes with the delivery it was stored by, a built one is the first
    generalize host'.tables = tables at hanswer
    cases hanswer with
    | kept hkept => exact ih.again hkept
    | built hnew hread htable =>
      refine (ih.reserve _).first ?_ rfl ⟨_, hread, htable⟩
      rwa [Service.get?_reserve]
  | @giveFailed made given host host' content source failure before hmade label h ih =>
    obtain ⟨path, hsource⟩ := before.source_eq hmade
    have hanswer := Source.answer_of_getOrRead (congrArg Source.member hsource) h
    generalize host'.tables = tables at hanswer
    cases hanswer with
    | failed hnew => exact ih.reserve _

/-- What was given out for a hash is given out again by `getOrRead`, whatever the files hold now. -/
theorem runFrom_getOrRead (h : Serves made given host) (hd : d ∈ given) {source : Source}
    (hhash : source.hash = d.source.hash) :
    (source.getOrRead d.label).runFrom host = (.ok d.shared, host) := by
  have hkept := h.booked.shared d hd
  rw [← Source.switchedKey_congr hhash] at hkept
  exact Action.runFrom_getOrCreate_of_kept hkept

/-- As long as no table was given out, `getOrRead` gives one out if the file of the source holds it
now. -/
theorem give_first (h : Serves made [] host) {content : ByteArray} {source : Source}
    (hmade : (content, source) ∈ made) {now : FileContent} {label : String} {table : Table}
    (hread : host.files.read source.path = .ok now)
    (htable : switchedTable now.toBytes label = .ok table) :
    ∃ shared host', Serves made [{ content, source, label, files := host.files, shared }] host' ∧
      shared.table = table ∧ host'.files = host.files := by
  obtain ⟨path, hsource⟩ := h.source_eq hmade
  have hfile : source.member = none := congrArg Source.member hsource
  obtain ⟨shared, host', hgive, hshared⟩ :=
    Source.exists_runFrom_getOrRead hfile (h.booked.kept source label) hread htable
  exact ⟨shared, host', h.give hmade label hgive, hshared,
    (source.respects_getOrRead label).of_eq hgive⟩

/-- If the sources that were `made` are `Distinguished`, they have the same hash exactly if they
have the same content. -/
theorem hash_eq_iff (h : Serves made given host) (hmade : Distinguished made)
    {m n : ByteArray × Source} (hm : m ∈ made) (hn : n ∈ made) :
    m.2.hash = n.2.hash ↔ m.1 = n.1 := by
  obtain ⟨path, hsource⟩ := h.source_eq hm
  obtain ⟨path', hsource'⟩ := h.source_eq hn
  rw [hsource, hsource']
  refine ⟨hmade m hm n hn, fun heq => ?_⟩
  rw [Source.ofBytes, Source.ofBytes, heq]

/-- If the sources that were `made` are `Distinguished`, what was given out `first` for a hash was
so for its content. -/
theorem isFirst_of_find? (h : Serves made given host) (hmade : Distinguished made) (hd : d ∈ given)
    {first : Delivery} (hfirst : given.find? (isFor d.source.hash d.label) = some first) :
    IsFirst given d first := by
  have hlike : ∀ e ∈ given, isFor d.source.hash d.label e = true ↔ e.IsLike d := by
    intro e he
    rw [isFor_iff, IsLike, h.hash_eq_iff hmade (h.mem_made he) (h.mem_made hd)]
  obtain ⟨hfor, before, after, hgiven, hbefore⟩ := List.find?_eq_some_iff_append.1 hfirst
  refine ⟨before, after, hgiven, (hlike first (List.mem_of_find?_eq_some hfirst)).1 hfor, ?_⟩
  intro e he hmem
  have hnot := hbefore e he
  rw [(hlike e (hgiven ▸ List.mem_append_left _ he)).2 hmem] at hnot
  cases hnot

/-- A service gives out tables by content, in every run that it `Serves`, in which files are
written, sources are made of them and the tables of these are asked for, as long as the contents are
`Distinguished`: no two of them have the same hash. Two tables that were given out are the same one
exactly if they were for the same content and label, and who asks again for this with `getOrRead`
gets it again, whatever the files hold now. But each table is what the file held when it was `first`
asked for. So the delivery `IsFaithful`, and the table is that of the content for which it was given
out, exactly if what the file held then stands for the same table as what it held when the source
was made: the two `StandAlike`. -/
theorem isFaithful_iff (h : Serves made given host) (hmade : Distinguished made) :
    (∀ d ∈ given, ∀ e ∈ given, d.shared = e.shared ↔ d.IsLike e) ∧
    (∀ d ∈ given, ∀ m ∈ made, m.1 = d.content →
      (m.2.getOrRead d.label).runFrom host = (.ok d.shared, host)) ∧
    ∀ d ∈ given, ∃ first content, IsFirst given d first ∧
      first.files.read first.source.path = .ok content ∧
      switchedTable content.toBytes d.label = .ok d.shared.table ∧
      (d.IsFaithful ↔ StandAlike d.label content.toBytes d.content) := by
  have hbooked := h.booked
  refine ⟨fun d hd e he => ?_, fun d hd m hm hcontent => ?_, fun d hd => ?_⟩
  -- tables are the same one if their numbers are, so if the texts of their keys are
  · have hiff := h.hash_eq_iff hmade (h.mem_made hd) (h.mem_made he)
    have hkept := hbooked.shared d hd
    have hkept' := hbooked.shared e he
    constructor
    · intro hshared
      have htext := hbooked.numbered.serial_inj _ _ _ _ hkept hkept'
        (congrArg SharedTable.serial hshared)
      obtain ⟨hhash, hlabel⟩ := Source.text_switchedKey_inj htext
      exact ⟨hiff.1 hhash, hlabel⟩
    · rintro ⟨hcontent, hlabel⟩
      rw [Source.switchedKey_congr (hiff.2 hcontent), hlabel] at hkept
      exact Option.some.inj (hkept.symm.trans hkept')
  · exact h.runFrom_getOrRead hd ((h.hash_eq_iff hmade hm (h.mem_made hd)).2 hcontent)
  -- the table is the one that was given out first, which was built from the file
  · have hkept := hbooked.shared d hd
    rw [hbooked.kept] at hkept
    obtain ⟨first, hfirst, hshared⟩ := Option.map_eq_some_iff.1 hkept
    obtain ⟨content, hread, htable⟩ := hbooked.built _ _ _ hfirst
    rw [hshared, (isFor_iff.1 (List.find?_some hfirst)).2] at htable
    refine ⟨first, content, h.isFirst_of_find? hmade hd hfirst, hread, htable, ?_⟩
    constructor
    · rintro ⟨t, ht, hequiv⟩
      exact ⟨_, t, htable, ht, hequiv⟩
    · rintro ⟨t, t', ht, ht', hequiv⟩
      rw [← Except.ok.inj (htable.symm.trans ht)] at hequiv
      exact ⟨t', ht', hequiv⟩

/-! ## Samples -/

/-- Mappings of one class. -/
def oldContent : ByteArray :=
  "tiny\t2\t0\tobfuscated\tnamed\nc\ta\tOld\n".toUTF8

/-- The same mappings with another name for the class. -/
def newContent : ByteArray :=
  "tiny\t2\t0\tobfuscated\tnamed\nc\ta\tNew\n".toUTF8

/-- The table of one class with a `named` name, switched to that. -/
def tableOf (name : String) : Table where
  namespaces := { labels := ["named", "obfuscated"], valid := by decide }
  classes := .ofList [(name, { names := { slots := [some name, some "a"] } })]

theorem switchedTable_samples :
    switchedTable oldContent "named" = .ok (tableOf "Old") ∧
      switchedTable newContent "named" = .ok (tableOf "New") := by
  constructor
  · decide +kernel
  · decide +kernel

/-- Two files, the first one with some `content` and the second one with the `oldContent`. -/
def sampleFiles (content : ByteArray) : FileStore where
  workingDirectory := []
  nodes := .ofList [
    (["x.tiny"], .file (.bytes content) false), (["y.tiny"], .file (.bytes oldContent) false)]

theorem read_sample (content : ByteArray) :
    (sampleFiles content).read "x.tiny" = .ok (.bytes content) ∧
      (sampleFiles content).read "y.tiny" = .ok (.bytes oldContent) :=
  ⟨rfl, rfl⟩

/-- The first of the `sampleFiles` is written anew. -/
theorem runFrom_write_sample {host : Host} (h : host.files = sampleFiles oldContent) :
    (Action.write "x.tiny" (.bytes newContent)).runFrom host =
      (.ok (), { host with files := sampleFiles newContent }) := by
  refine Action.runFrom_write_eq_ok_iff.2 ⟨sampleFiles newContent, ?_, rfl⟩
  rw [h]
  rfl

/-- The sources of two files with the `oldContent`. -/
def sampleMade : List (ByteArray × Source) :=
  [(oldContent, .ofBytes "x.tiny" none oldContent), (oldContent, .ofBytes "y.tiny" none oldContent)]

theorem distinguished_sample : Distinguished sampleMade := by
  have hall : ∀ m ∈ sampleMade, m.1 = oldContent := by
    intro m hm
    obtain rfl | hm := List.mem_cons.1 hm
    · rfl
    · rw [List.mem_singleton.1 hm]
  intro m hm n hn _
  rw [hall m hm, hall n hn]

theorem serves_sample : Serves sampleMade [] { files := sampleFiles oldContent } := by
  have hstart : Serves [] [] { files := sampleFiles oldContent } := .start fun key => rfl
  exact (hstart.make_of_read (read_sample oldContent).1).make_of_read (read_sample oldContent).2

/-- The table of the first file is given out before the file is written anew, and is then also given
out for the second one. It is the table of what both files held: this delivery `IsFaithful`. -/
theorem isFaithful_iff_sample : ∃ d e host, Serves sampleMade [d, e] host ∧
    host.files = sampleFiles newContent ∧ e.source.path = "y.tiny" ∧ d.shared = e.shared ∧
    e.IsFaithful := by
  obtain ⟨shared, host, hfirst, hshared, hfiles⟩ := serves_sample.give_first List.mem_cons_self
    (read_sample oldContent).1 switchedTable_samples.1
  have hwritten := hfirst.write "x.tiny" _ (runFrom_write_sample hfiles)
  have hagain := hwritten.give (List.mem_cons_of_mem _ List.mem_cons_self) "named"
    (hwritten.runFrom_getOrRead List.mem_cons_self rfl)
  obtain ⟨hsame, -, hfaithful⟩ := isFaithful_iff hagain distinguished_sample
  refine ⟨_, _, _, hagain, rfl, rfl, ?_, ?_⟩
  · exact (hsame _ List.mem_cons_self _ (List.mem_cons_of_mem _ List.mem_cons_self)).2 ⟨rfl, rfl⟩
  · obtain ⟨first, content, hisFirst, hread, -, hiff⟩ :=
      hfaithful _ (List.mem_cons_of_mem _ List.mem_cons_self)
    -- the table was first given out for the first file, which held the old mappings then
    obtain rfl := hisFirst.eq_head ⟨rfl, rfl⟩
    obtain rfl := Except.ok.inj ((read_sample oldContent).1.symm.trans hread)
    exact hiff.2 ⟨_, _, switchedTable_samples.1, switchedTable_samples.1, by decide +kernel⟩

/-- A file is written anew after a source was made of it. Its new table is given out for the old
content, also for another file, which still holds the old content: neither delivery `IsFaithful`. -/
theorem isFaithful_rewritten : ∃ d e host, Serves sampleMade [d, e] host ∧
    Distinguished sampleMade ∧ e.source.path = "y.tiny" ∧
    e.files.read "y.tiny" = .ok (.bytes e.content) ∧ ¬d.IsFaithful ∧ ¬e.IsFaithful := by
  have hwritten := serves_sample.write "x.tiny" _ (runFrom_write_sample rfl)
  obtain ⟨shared, host, hfirst, hshared, hfiles⟩ := hwritten.give_first List.mem_cons_self
    (read_sample newContent).1 switchedTable_samples.2
  have hagain := hfirst.give (List.mem_cons_of_mem _ List.mem_cons_self) "named"
    (hfirst.runFrom_getOrRead List.mem_cons_self rfl)
  have hunfaithful : ¬∃ t, switchedTable oldContent "named" = .ok t ∧ shared.table.equiv t := by
    rintro ⟨t, ht, hequiv⟩
    rw [hshared, ← Except.ok.inj (switchedTable_samples.1.symm.trans ht)] at hequiv
    exact absurd hequiv (by decide +kernel)
  refine ⟨_, _, _, hagain, distinguished_sample, rfl, ?_, hunfaithful, hunfaithful⟩
  rw [hfiles]
  exact (read_sample newContent).2

end Serves

end MappingTables
