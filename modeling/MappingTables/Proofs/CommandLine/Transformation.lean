import MappingTables.CommandLine.Run
import MappingTables.Proofs.Files.Reading
import MappingTables.Proofs.Files.Repetition

/-!
# Commands that write a table

Three commands make a table of those that are in files, and write it to a file. All that can fail is
done before that file is opened, except for writing to it. So nothing changes as long as it was not
opened; if writing to it is interrupted, a beginning of what was to be written is in it. It may take
the place of one of the files from which the table was made.

* `Transformation`: what such a command does with the tables in files.
* `Transformation.Gives`: the table that it makes of them.
* `exists_runFrom_make_iff`, `runFrom_writeArgument`: the two halves of such a command.
* `EndsAtomically`, `endsAtomically_of_runFrom`: what has changed when the command ends.
* `AsksFor`: the arguments of the program for such a command.
* `execute_isAtomic`: what the program does when it is asked for such a command.
* `execute_unwritten`: an output that is cut short, and one that keeps nothing.
-/

namespace MappingTables

open Step

variable {host host' : Host} {path : String} {t : Table}

/-- Whether the file at a `path` holds a table, in whatever dialect, which `Format.read` reads. -/
def FileStore.Holds (fs : FileStore) (path : String) (t : Table) : Prop :=
  ∃ content, fs.read path = .ok content ∧ Format.read content.toBytes = .ok t

/-- `MappingsFile.read` gives a table exactly if the file `Holds` it, and nothing changes. -/
theorem MappingsFile.runFrom_read_eq_ok_iff_holds :
    (MappingsFile.read path).runFrom host = (.ok t, host') ↔
      host.files.Holds path t ∧ host' = host := by
  constructor
  · intro h
    obtain ⟨content, hcontent⟩ := exists_read_of_runFrom_read h
    obtain ⟨ht, hhost⟩ := (runFrom_read_eq_ok_iff hcontent).1 h
    exact ⟨⟨content, hcontent, ht⟩, hhost⟩
  · rintro ⟨⟨content, hcontent, ht⟩, hhost⟩
    exact (runFrom_read_eq_ok_iff hcontent).2 ⟨ht, hhost⟩

/-- What the file of a table holds in a `dialect`. -/
def Format.Dialect.content (dialect : Format.Dialect) (t : Table) : FileContent :=
  .bytes (dialect.write t).toUTF8

/-- A file starts with its header, whatever is in the table, so its `content` is not empty. -/
theorem Format.Dialect.toBytes_content_ne_empty (dialect : Format.Dialect) (t : Table) :
    (dialect.content t).toBytes ≠ .empty := by
  have hne : (dialect.write t).toList ≠ [] := by
    cases dialect <;>
      simp [write, Plain.write, Plain.tableRows, Nested.write, Nested.tableRows, unlines,
        String.toList_join]
  intro h
  have hempty := String.toByteArray_eq_empty_iff.1 (String.toUTF8_eq_toByteArray.symm.trans h)
  rw [hempty] at hne
  exact hne rfl

namespace CommandLine

open Format

/-! ## What a command makes -/

/-- What a command does with tables in files, whatever it does with the result. -/
inductive Transformation where
  | merge (left right : String)
  | reorder (input : String) (labels : List String)
  | switch (input label : String)
deriving DecidableEq, Repr

namespace Transformation

/-- The `Command` that writes the result to a file. -/
def command (output : String) (dialect : Dialect) : Transformation → Command
  | merge left right => .merge left right output dialect
  | reorder input labels => .reorder input labels output dialect
  | switch input label => .switch input label output dialect

/-- Whether a table is what the operation gives for the tables that the files hold, as
`FileStore.Holds` says. -/
def Gives (fs : FileStore) : Transformation → Table → Prop
  | merge left right, t => ∃ l r conflicts,
    fs.Holds left l ∧ fs.Holds right r ∧ (l.merge r).outcome = .ok (t, conflicts)
  | reorder input labels, t => ∃ s, fs.Holds input s ∧ (s.reorder labels).outcome = .ok t
  | switch input label, t => ∃ s, fs.Holds input s ∧ (s.switchSource label).outcome = .ok t

/-- The name by which a `Transformation` is asked for. -/
def name : Transformation → String
  | merge .. => "merge"
  | reorder .. => "reorder"
  | switch .. => "switch"

/-- What the command of a `Transformation` takes: its `Grammar`. -/
def grammar : Transformation → Grammar
  | merge .. => mergeGrammar
  | reorder .. => reorderGrammar
  | switch .. => switchGrammar

/-- Whether the arguments `a` of the command are the inputs and what is to be done with them. -/
def IsGivenBy (a : Arguments) : Transformation → Prop
  | merge left right => a.operands = [left, right]
  | reorder input labels => a.operands = [input] ∧ a.values "namespaces" = labels
  | switch input label => a.operands = [input, label]

/-- The part of the command before anything is written: it reads tables by `readArgument` and
changes them. -/
def make : Transformation → Action Table
  | merge left right => do
    let l ← readArgument left
    let r ← readArgument right
    let (merged, conflicts) ← Action.ofNoted (l.merge r)
    Action.notice (.merged conflicts.length)
    return merged
  | reorder input labels => do
    let t ← readArgument input
    Action.ofNoted (t.reorder labels)
  | switch input label => do
    let t ← readArgument input
    Action.ofNoted (t.switchSource label)

/-- The `command` of a `Transformation` makes a table and then writes it. -/
theorem run_command (x : Transformation) (output : String) (dialect : Dialect)
    (java : Java.Launcher) :
    (x.command output dialect).run java = do
      let t ← x.make
      writeArgument dialect t output
      return "" := by
  cases x with
  | merge left right => simp [command, Command.run, make]
  | reorder input labels => simp [command, Command.run, make]
  | switch input label => simp [command, Command.run, make]

end Transformation

/-! ## Making and writing -/

theorem leavesState_readArgument (path : String) : LeavesState (readArgument path) :=
  (MappingsFile.leavesState_read path).within

theorem runFrom_readArgument_eq_ok_iff :
    (readArgument path).runFrom host = (.ok t, host') ↔ host.files.Holds path t ∧ host' = host := by
  rw [readArgument, runFrom_within_eq_ok_iff]
  exact MappingsFile.runFrom_read_eq_ok_iff_holds

namespace Transformation

variable {x : Transformation}

/-- No file is touched while `make` makes a table. -/
theorem sameFiles_make (x : Transformation) : Respects Action.SameFiles x.make := by
  cases x with
  | merge left right =>
    refine (leavesState_readArgument left).respects.bind fun l => ?_
    refine (leavesState_readArgument right).respects.bind fun r => ?_
    refine (Action.respects_ofNoted _).bind fun merged => ?_
    exact (Action.respects_notice _).bind fun _ => .pure _
  | reorder input labels =>
    exact (leavesState_readArgument input).respects.bind fun _ => Action.respects_ofNoted _
  | switch input label =>
    exact (leavesState_readArgument input).respects.bind fun _ => Action.respects_ofNoted _

/-- `make` gives a table exactly if it is the one that the operation `Gives` for the tables in the
files. -/
theorem exists_runFrom_make_iff :
    (∃ host', x.make.runFrom host = (.ok t, host')) ↔ x.Gives host.files t := by
  cases x with
  | merge left right =>
    simp only [make, Gives, runFrom_bind_eq_ok_iff, runFrom_readArgument_eq_ok_iff,
      Action.runFrom_ofNoted_eq_ok_iff]
    -- reading changes nothing, so both tables are those of the files from before
    constructor
    · rintro ⟨host', l, _, ⟨hl, rfl⟩, r, _, ⟨hr, rfl⟩, ⟨merged, conflicts⟩, host'', ⟨hmerged, -⟩,
        _, _, -, hpure⟩
      cases hpure
      exact ⟨l, r, conflicts, hl, hr, hmerged⟩
    · rintro ⟨l, r, conflicts, hl, hr, hmerged⟩
      exact ⟨_, l, _, ⟨hl, rfl⟩, r, _, ⟨hr, rfl⟩, (t, conflicts), _, ⟨hmerged, rfl⟩, (), _, rfl,
        rfl⟩
  | reorder input labels =>
    simp only [make, Gives, runFrom_bind_eq_ok_iff, runFrom_readArgument_eq_ok_iff,
      Action.runFrom_ofNoted_eq_ok_iff]
    constructor
    · rintro ⟨host', s, _, ⟨hs, rfl⟩, hreordered, -⟩
      exact ⟨s, hs, hreordered⟩
    · rintro ⟨s, hs, hreordered⟩
      exact ⟨_, s, _, ⟨hs, rfl⟩, hreordered, rfl⟩
  | switch input label =>
    simp only [make, Gives, runFrom_bind_eq_ok_iff, runFrom_readArgument_eq_ok_iff,
      Action.runFrom_ofNoted_eq_ok_iff]
    constructor
    · rintro ⟨host', s, _, ⟨hs, rfl⟩, hswitched, -⟩
      exact ⟨s, hs, hswitched⟩
    · rintro ⟨s, hs, hswitched⟩
      exact ⟨_, s, _, ⟨hs, rfl⟩, hswitched, rfl⟩

end Transformation

/-- `writeArgument` writes the `content` of a table. -/
theorem runFrom_writeArgument (dialect : Dialect) (t : Table) (output : String) (host : Host) :
    ∃ outcome host', (writeArgument dialect t output).runFrom host = (outcome, host') ∧
      outcome.isOk = (host.files.write output (dialect.content t)).1.isOk ∧
      host'.files = (host.files.write output (dialect.content t)).2 := by
  rw [writeArgument, runFrom_within, MappingsFile.write, runFrom_bind, Action.runFrom_writeIn,
    FileStore.write]
  cases host.files.create output with
  | error e => exact ⟨_, _, rfl, rfl, rfl⟩
  | ok opened =>
    obtain ⟨place, files⟩ := opened
    dsimp only [Dialect.content]
    cases (files.fill place (.bytes (dialect.write t).toUTF8)).1 with
    | error e => exact ⟨_, _, rfl, rfl, rfl⟩
    | ok u =>
      dsimp only
      rw [Action.runFrom_forM_notice]
      exact ⟨_, _, rfl, rfl, rfl⟩

/-! ## The whole command -/

/-- What has changed in the files from `before` when a command ends that writes a table to `output`,
by whether it `succeeds`. -/
structure EndsAtomically (x : Transformation) (output : String) (dialect : Dialect)
    (before : FileStore) (succeeds : Prop) (after : FileStore) : Prop where
  /-- It succeeds exactly if there is a table, and nothing is in the way of writing it. -/
  succeeds_iff : succeeds ↔ ∃ t, x.Gives before t ∧ before.Opens output ∧
    before.interrupts (before.target output) (dialect.content t) = none
  /-- If it succeeds, the output holds the table, unless it is a device that keeps nothing. -/
  written : succeeds → ∃ t, x.Gives before t ∧
    (¬before.IsSink (before.target output) → after.read output = .ok (dialect.content t))
  /-- If it fails, nothing changes, unless writing the table was interrupted. Then the output holds
  a beginning of it. -/
  failed : ¬succeeds → after = before ∨ ∃ t interruption, x.Gives before t ∧ before.Opens output ∧
    before.interrupts (before.target output) (dialect.content t) = some interruption ∧
    ∃ count, ¬before.IsSink (before.target output) →
      after.read output = .ok (.bytes ((dialect.write t).toUTF8.extract 0 count))
  /-- Nothing else changes in any case. -/
  working : after.workingDirectory = before.workingDirectory
  elsewhere : ∀ place, place ≠ before.target output → after.node? place = before.node? place

/-- What an operation `Gives` for the tables in files is one table. -/
theorem Transformation.Gives.unique {x : Transformation} {fs : FileStore} {t' : Table}
    (h : x.Gives fs t) (h' : x.Gives fs t') : t = t' := by
  have hruns : ∀ {t}, x.Gives fs t → ∃ made, x.make.runFrom { files := fs } = (.ok t, made) :=
    fun h => exists_runFrom_make_iff.2 h
  obtain ⟨made, hmake⟩ := hruns h
  obtain ⟨made', hmake'⟩ := hruns h'
  rw [hmake, Prod.mk.injEq, Except.ok.injEq] at hmake'
  exact hmake'.1

section Run

variable {x : Transformation} {output : String} {dialect : Dialect} {java : Java.Launcher}

/-- A table that was made is written, and nothing is done after that: the command
`EndsAtomically`. -/
theorem endsAtomically_of_gives {before : FileStore} (ht : x.Gives before t) :
    EndsAtomically x output dialect before
      ((before.write output (dialect.content t)).1.isOk = true)
      (before.write output (dialect.content t)).2 := by
  -- the table is unique, so the existential on the right speaks of `t` only
  have hiff : (before.write output (dialect.content t)).1.isOk = true ↔ ∃ t, x.Gives before t ∧
      before.Opens output ∧
      before.interrupts (before.target output) (dialect.content t) = none := by
    have hone : (∃ t, x.Gives before t ∧ before.Opens output ∧
        before.interrupts (before.target output) (dialect.content t) = none) ↔
          before.Opens output ∧
            before.interrupts (before.target output) (dialect.content t) = none := by
      constructor
      · rintro ⟨t', ht', hwritable⟩
        exact ht.unique ht' ▸ hwritable
      · exact fun hwritable => ⟨t, ht, hwritable⟩
    rw [hone, ← FileStore.exists_write_eq_ok_iff]
    rcases before.write output (dialect.content t) with ⟨outcome, after⟩
    cases outcome <;> simp [Except.isOk, Except.toBool]
  have hconfined := before.confined_write output (dialect.content t)
  refine ⟨hiff, fun hok => ⟨t, ht, fun hsink => ?_⟩, fun hfails => ?_, hconfined.working,
    fun place hplace => hconfined.node?_eq hplace List.not_mem_nil⟩
  · rcases hwrite : before.write output (dialect.content t) with ⟨outcome, after⟩
    rw [hwrite] at hok
    cases outcome with
    | error e => cases hok
    | ok u => rw [FileStore.read_of_write hwrite, FileStore.received_of_not_isSink hsink]
  -- a write that fails leaves the file as it was or with a beginning of the content
  · rcases hwrite : before.write output (dialect.content t) with ⟨outcome, after⟩
    rw [hwrite] at hfails
    cases outcome with
    | ok u => exact absurd rfl hfails
    | error e =>
      obtain ⟨-, hsame⟩ | ⟨interruption, hopens, hsome, isExecutable, rfl⟩ :=
        FileStore.write_eq_error hwrite
      · exact .inl hsame
      · obtain ⟨count, hcount⟩ := interruption.isBeginning
        refine .inr ⟨t, interruption, ht, hopens, hsome, count, fun hsink => ?_⟩
        rw [hopens.read_set, FileStore.received_of_not_isSink hsink, hcount]

/-- A command `EndsAtomically`: it first makes a table, for which no file is touched, and then
writes it. -/
theorem endsAtomically_of_runFrom {outcome : Except Failure String}
    (h : ((x.command output dialect).run java).runFrom host = (outcome, host')) :
    EndsAtomically x output dialect host.files (outcome.isOk = true) host'.files := by
  rw [x.run_command, runFrom_bind] at h
  rcases hmake : x.make.runFrom host with ⟨made | t, s⟩
  · -- there is no table
    rw [hmake] at h
    cases h
    have hnone : ∀ t, ¬x.Gives host.files t := by
      intro t ht
      obtain ⟨s', hmake'⟩ := Transformation.exists_runFrom_make_iff.2 ht
      cases hmake.symm.trans hmake'
    rw [x.sameFiles_make.of_eq hmake]
    exact ⟨iff_of_false nofun fun ⟨t, ht, _⟩ => hnone t ht, nofun, fun _ => .inl rfl, rfl,
      fun _ _ => rfl⟩
  · -- the output is opened only now, when all inputs were read to their ends
    have hsame : s.files = host.files := x.sameFiles_make.of_eq hmake
    have hends : EndsAtomically x output dialect host.files _ _ :=
      endsAtomically_of_gives (Transformation.exists_runFrom_make_iff.1 ⟨s, hmake⟩)
    obtain ⟨written, host'', hwrite, hok, hfiles⟩ := runFrom_writeArgument dialect t output s
    rw [hsame] at hok hfiles
    rw [← hok, ← hfiles] at hends
    rw [hmake] at h
    dsimp only at h
    rw [runFrom_bind, hwrite] at h
    cases written with
    | error failure =>
      cases h
      exact hends
    | ok u =>
      cases h
      exact hends

end Run

/-! ## What is asked for -/

section Arguments

variable {x : Transformation} {a : Arguments} {args : List String} {output : String}
  {dialect : Dialect} {verbose : Bool}

theorem Arguments.required_eq_ok_iff {name value : String} :
    a.required name = .ok value ↔ a.value? name = some value := by
  rw [required]
  cases a.value? name with
  | none => simp
  | some other => simp

theorem Arguments.operand_eq_ok_iff {position : Nat} {value : String} :
    a.operand position = .ok value ↔ a.operands[position]? = some value := by
  rw [operand]
  cases a.operands[position]? with
  | none => simp
  | some other => simp

/-- `Grammar.read` gives all operands. -/
theorem Grammar.length_operands {g : Grammar} (h : g.read args = .ok a) :
    a.operands.length = g.operands.length := by
  obtain ⟨a', -, h⟩ := bind_eq_ok_iff.1 h
  split at h
  · next hlength =>
    cases h
    exact hlength
  · cases h

/-- Whether the arguments of the program ask for a command that writes to a file. It is written in
the plain dialect if `v1` is given as the format, and otherwise in the nested one. -/
def AsksFor (args : List String) (x : Transformation) (output : String) (dialect : Dialect) :
    Prop :=
  ∃ global rest a, globalGrammar.readGlobal {} args = .ok (global, x.name, rest) ∧
    x.grammar.read rest = .ok a ∧ x.IsGivenBy a ∧ a.value? "output" = some output ∧
    dialect = if a.value? "format" = some "v1" then .plain else .nested

section Operands

variable {command : Command}

theorem ofMerge_eq_ok (hread : mergeGrammar.read args = .ok a)
    (h : Command.ofMerge a = .ok command) :
    ∃ left right output, a.operands = [left, right] ∧ a.value? "output" = some output ∧
      command = .merge left right output a.dialect := by
  simp only [Command.ofMerge, bind_eq_ok_iff, Arguments.operand_eq_ok_iff,
    Arguments.required_eq_ok_iff] at h
  obtain ⟨left, hleft, right, hright, output, houtput, h⟩ := h
  obtain ⟨first, second, hoperands⟩ := List.length_eq_two.1 (Grammar.length_operands hread)
  rw [hoperands] at hleft hright
  cases hleft
  cases hright
  exact ⟨left, right, output, hoperands, houtput, (Except.ok.inj h).symm⟩

theorem ofReorder_eq_ok (hread : reorderGrammar.read args = .ok a)
    (h : Command.ofReorder a = .ok command) :
    ∃ input output, a.operands = [input] ∧ a.value? "output" = some output ∧
      command = .reorder input (a.values "namespaces") output a.dialect := by
  rw [Command.ofReorder] at h
  split at h
  · cases h
  · simp only [bind_eq_ok_iff, Arguments.operand_eq_ok_iff, Arguments.required_eq_ok_iff] at h
    obtain ⟨input, hinput, output, houtput, h⟩ := h
    obtain ⟨first, hoperands⟩ := List.length_eq_one_iff.1 (Grammar.length_operands hread)
    rw [hoperands] at hinput
    cases hinput
    exact ⟨input, output, hoperands, houtput, (Except.ok.inj h).symm⟩

theorem ofSwitch_eq_ok (hread : switchGrammar.read args = .ok a)
    (h : Command.ofSwitch a = .ok command) :
    ∃ input label output, a.operands = [input, label] ∧ a.value? "output" = some output ∧
      command = .switch input label output a.dialect := by
  simp only [Command.ofSwitch, bind_eq_ok_iff, Arguments.operand_eq_ok_iff,
    Arguments.required_eq_ok_iff] at h
  obtain ⟨input, hinput, label, hlabel, output, houtput, h⟩ := h
  obtain ⟨first, second, hoperands⟩ := List.length_eq_two.1 (Grammar.length_operands hread)
  rw [hoperands] at hinput hlabel
  cases hinput
  cases hlabel
  exact ⟨input, label, output, hoperands, houtput, (Except.ok.inj h).symm⟩

end Operands

/-- A command that `Command.ofArguments` gives, and that writes to a file, is the one that its name
and its arguments stand for. -/
theorem exists_read_of_ofArguments {name : String}
    (h : Command.ofArguments name args = .ok (x.command output dialect)) :
    name = x.name ∧ ∃ a, x.grammar.read args = .ok a ∧ x.IsGivenBy a ∧
      a.value? "output" = some output ∧ dialect = a.dialect := by
  unfold Command.ofArguments at h
  split at h
  · -- `setup` is another command
    obtain ⟨a, hread, h⟩ := bind_eq_ok_iff.1 h
    simp only [Command.ofSetUp, bind_eq_ok_iff] at h
    obtain ⟨_, -, _, -, _, -, _, -, _, -, h⟩ := h
    cases x <;> cases h
  · obtain ⟨a, hread, h⟩ := bind_eq_ok_iff.1 h
    obtain ⟨left, right, output', hoperands, houtput, h⟩ := ofMerge_eq_ok hread h
    cases x <;> cases h
    exact ⟨rfl, a, hread, hoperands, houtput, rfl⟩
  · obtain ⟨a, hread, h⟩ := bind_eq_ok_iff.1 h
    obtain ⟨input, output', hoperands, houtput, h⟩ := ofReorder_eq_ok hread h
    cases x <;> cases h
    exact ⟨rfl, a, hread, ⟨hoperands, rfl⟩, houtput, rfl⟩
  · obtain ⟨a, hread, h⟩ := bind_eq_ok_iff.1 h
    obtain ⟨input, label, output', hoperands, houtput, h⟩ := ofSwitch_eq_ok hread h
    cases x <;> cases h
    exact ⟨rfl, a, hread, hoperands, houtput, rfl⟩
  · -- `detect` writes no file
    obtain ⟨a, hread, h⟩ := bind_eq_ok_iff.1 h
    simp only [Command.ofDetect, bind_eq_ok_iff] at h
    obtain ⟨_, -, h⟩ := h
    cases x <;> cases h
  · -- `help` is no command, whatever it is asked about
    split at h
    · cases h
    · split at h <;> cases h
    · cases h
  · cases h

/-- What `Invocation.ofArguments` gives is what the program is asked for. -/
theorem asksFor_of_ofArguments
    (h : Invocation.ofArguments args = .ok { verbose, command := x.command output dialect }) :
    AsksFor args x output dialect := by
  obtain ⟨⟨global, name, rest⟩, hglobal, h⟩ := bind_eq_ok_iff.1 h
  obtain ⟨command, hcommand, h⟩ := bind_eq_ok_iff.1 h
  obtain rfl : command = x.command output dialect :=
    congrArg Invocation.command (Except.ok.inj h)
  obtain ⟨rfl, a, hread, hgiven, houtput, hdialect⟩ := exists_read_of_ofArguments hcommand
  exact ⟨global, rest, a, hglobal, hread, hgiven, houtput, hdialect⟩

end Arguments

/-! ## The program -/

section Execute

variable {javaHome : Option String} {args : List String} {verbose : Bool}

/-- `execute` ends as the command does. -/
theorem execute_eq {command : Command}
    (hargs : Invocation.ofArguments args = .ok { verbose, command }) (host : Host) :
    ∃ outcome host', (command.run (Java.Launcher.locate javaHome)).runFrom host = (outcome, host') ∧
      ((execute javaHome args host).1.exit = 0 ↔ outcome.isOk = true) ∧
      (execute javaHome args host).2 = host' := by
  rw [execute, hargs]
  dsimp only
  rcases (command.run (Java.Launcher.locate javaHome)).runFrom host with ⟨outcome, host'⟩
  cases outcome with
  | ok text => exact ⟨_, _, rfl, iff_of_true rfl rfl, rfl⟩
  | error failure => exact ⟨_, _, rfl, iff_of_false nofun nofun, rfl⟩

/-- A program that was not asked for a command as `Command` has them changes nothing. One that was
asked for a command that writes a table `EndsAtomically`: it exits with 0 exactly if what the
operation `Gives` for the tables in the files as they were `before` can be written to the `output`,
which may be one of these files. Nothing has changed then but the output, and nothing at all if the
output could not be opened or there is no table. An output that was opened is cut short if writing
to it is interrupted. -/
theorem execute_isAtomic (javaHome : Option String) (args : List String) (host : Host) :
    (∀ stop, Invocation.ofArguments args = .error stop → (execute javaHome args host).2 = host) ∧
    ∀ verbose x output dialect,
      Invocation.ofArguments args = .ok { verbose, command := x.command output dialect } →
      AsksFor args x output dialect ∧
      EndsAtomically x output dialect host.files ((execute javaHome args host).1.exit = 0)
        (execute javaHome args host).2.files := by
  constructor
  · intro stop hstop
    rw [execute, hstop]
    cases stop <;> rfl
  · intro verbose x output dialect hargs
    refine ⟨asksFor_of_ofArguments hargs, ?_⟩
    obtain ⟨outcome, host', hrun, hexit, hhost⟩ := execute_eq hargs host
    rw [hexit, hhost]
    exact endsAtomically_of_runFrom hrun

/-- Two files that can be merged, and a device, where `interrupts` says whether writing is
interrupted. -/
def sampleFiles (interrupts : Location → (content : FileContent) → Option (Interruption content)) :
    FileStore where
  workingDirectory := []
  nodes := .ofList [
    (["a.tiny"], .file (.bytes "tiny\t2\t0\tofficial\tnamed\nc\ta\tMain\n".toUTF8) false),
    (["b.tiny"], .file (.bytes "v1\tofficial\tintermediary\nCLASS\ta\tclass_1\n".toUTF8) false),
    (["null"], .file .sink false)]
  interrupts

/-- A host with the `sampleFiles` on which everything can be written. -/
def sampleHost : Host where
  files := sampleFiles fun _ _ => none

/-- A host with the `sampleFiles` on which nothing can be written, for its disk is full. -/
def fullHost : Host where
  files := sampleFiles fun _ content => some (.atOnce .noSpace content)

/-- The arguments that ask for the two files to be merged in the plain dialect, and for the result
to be written to `output`. -/
def sampleArguments (output : String) : List String :=
  ["merge", "a.tiny", "b.tiny", "-o", output, "--format", "v1"]

theorem ofArguments_sample : ∀ output ∈ ["a.tiny", "b.tiny/c.tiny"],
    Invocation.ofArguments (sampleArguments output) = .ok
      { command := (Transformation.merge "a.tiny" "b.tiny").command output .plain } := by
  decide +kernel

/-- The merged table can take the place of one of the two. Where it cannot be opened nothing
changes. -/
theorem execute_isAtomic_sample :
    (∃ t, (Transformation.merge "a.tiny" "b.tiny").Gives sampleHost.files t ∧
      (execute none (sampleArguments "a.tiny") sampleHost).2.files.read "a.tiny" =
        .ok (.bytes (Plain.write t).toUTF8)) ∧
    (execute none (sampleArguments "b.tiny/c.tiny") sampleHost).2.files = sampleHost.files := by
  have hwritten : (execute none (sampleArguments "a.tiny") sampleHost).1.exit = 0 := by
    decide +kernel
  have hfailed : (execute none (sampleArguments "b.tiny/c.tiny") sampleHost).1.exit ≠ 0 := by
    decide +kernel
  constructor
  · obtain ⟨-, hends⟩ := (execute_isAtomic none (sampleArguments "a.tiny") sampleHost).2 _ _ _ _
      (ofArguments_sample _ (by simp))
    obtain ⟨t, ht, hread⟩ := hends.written hwritten
    refine ⟨t, ht, hread ?_⟩
    rintro ⟨isExecutable, hsink⟩
    cases hsink
  · obtain ⟨-, hends⟩ := (execute_isAtomic none (sampleArguments "b.tiny/c.tiny") sampleHost).2
      _ _ _ _ (ofArguments_sample _ (by simp))
    obtain hsame | ⟨t, interruption, -, -, hsome, -⟩ := hends.failed hfailed
    · exact hsame
    · cases hsome

/-- On the disk of `fullHost` the program fails after its output was emptied. To a device it
succeeds in writing, but whatever the table is, it is not there to be read afterwards. -/
theorem execute_unwritten :
    ((execute none (sampleArguments "a.tiny") fullHost).1.exit = 1 ∧
      ((execute none (sampleArguments "a.tiny") fullHost).2.files.read "a.tiny").toOption.map
        FileContent.toBytes = some .empty ∧
      (fullHost.files.read "a.tiny").toOption.map FileContent.toBytes ≠ some .empty) ∧
    (execute none (sampleArguments "null") sampleHost).1.exit = 0 ∧
      ∀ t, (execute none (sampleArguments "null") sampleHost).2.files.read "null" ≠
        .ok (Dialect.plain.content t) := by
  refine ⟨⟨by decide +kernel, by decide +kernel, by decide +kernel⟩, by decide +kernel,
    fun t ht => ?_⟩
  have hempty :
      ((execute none (sampleArguments "null") sampleHost).2.files.read "null").toOption.map
      FileContent.toBytes = some .empty := by
    decide +kernel
  rw [ht] at hempty
  exact Dialect.plain.toBytes_content_ne_empty t (Option.some.inj hempty)

end Execute

end CommandLine

end MappingTables
