import MappingTables.Proofs.Nested.Concatenation

/-!
# Sections of unknown kinds

A file can hold sections that the reader knows nothing of, such as those for local variables. They
are passed over with all that is below them, wherever they stand.

* `Parent`: what sections can stand in, and the kinds of sections that are known there.
* `parentAfter`: what a line of some depth stands in, by the outline of the lines before it.
* `Scan.Follows.step`, `Scan.Follows.run`: the entries that a scan has in hand are those of the
  outline.
* `exists_run_unknown`: a section of an unknown kind is passed over.
* `readInput_unknownSection`: a file with such a section is read as the file without it.
-/

namespace MappingTables.Format.Nested

open Text

/-! ## What sections stand in -/

/-- What sections can stand in directly. -/
inductive Parent where
  | file
  | classEntry
  | field
  | method
  | parameter
deriving DecidableEq, Repr

namespace Parent

/-- The depth of the sections in a `Parent`. -/
def depth : Parent → Nat
  | file => 0
  | classEntry => 1
  | field | method => 2
  | parameter => 3

/-- The kinds of sections that are known in a `Parent`. -/
def kinds : Parent → List String
  | file => ["c"]
  | classEntry => ["f", "m", "c"]
  | method => ["p", "c"]
  | field | parameter => ["c"]

/-- What a section of some kind in a `Parent` is, if others can stand in that. Comments are sections
in which nothing stands. -/
def child? : Parent → String → Option Parent
  | file, "c" => some classEntry
  | classEntry, "f" => some field
  | classEntry, "m" => some method
  | method, "p" => some parameter
  | _, _ => none

/-- `child?` gives the entries that others can stand in. -/
theorem child?_eq_some_iff {parent child : Parent} {kind : String} :
    parent.child? kind = some child ↔
      (parent = file ∧ kind = "c" ∧ child = classEntry) ∨
      (parent = classEntry ∧ kind = "f" ∧ child = field) ∨
      (parent = classEntry ∧ kind = "m" ∧ child = method) ∨
      (parent = method ∧ kind = "p" ∧ child = parameter) := by
  unfold child?
  split <;> simp_all [eq_comm]

/-- What `child?` finds for an entry is one step deeper. -/
theorem depth_of_child? {parent child : Parent} {kind : String}
    (h : parent.child? kind = some child) :
    child.depth = parent.depth + 1 := by
  rcases child?_eq_some_iff.1 h with
    ⟨rfl, -, rfl⟩ | ⟨rfl, -, rfl⟩ | ⟨rfl, -, rfl⟩ | ⟨rfl, -, rfl⟩ <;> rfl

/-- Whether lines are those of one section in it that is of an unknown kind, none of its `kinds`.
What is below the first line does not matter. -/
def IsUnknown (parent : Parent) : List Line → Prop
  | [] => False
  | first :: below =>
    first.depth = parent.depth ∧ first.head ∉ parent.kinds ∧
      ∀ line ∈ below, parent.depth < line.depth

instance (parent : Parent) (lines : List Line) : Decidable (parent.IsUnknown lines) :=
  match lines with
  | [] => inferInstanceAs (Decidable False)
  | _ :: below => inferInstanceAs (Decidable (_ = _ ∧ _ ∧ ∀ line ∈ below, _ < _))

end Parent

/-- What `Parent` a line of the given depth stands in if it comes after the given lines, of which
the latest one is the first. That is decided by the latest line that is less deep, and by what that
one stands in. -/
def parentAfter : List Line → Nat → Option Parent
  | _, 0 => some .file
  | [], _ + 1 => none
  | line :: earlier, depth + 1 =>
    if depth < line.depth then parentAfter earlier (depth + 1)
    else if line.depth = depth then (parentAfter earlier depth).bind (·.child? line.head)
    else none

/-- What `parentAfter` finds for a line has its sections at the depth of that line. -/
theorem depth_of_parentAfter {earlier : List Line} {depth : Nat} {parent : Parent}
    (h : parentAfter earlier depth = some parent) : parent.depth = depth := by
  induction earlier generalizing depth parent with
  | nil => cases depth <;> cases h; rfl
  | cons line earlier ih =>
    cases depth with
    | zero => cases h; rfl
    | succ depth =>
      rw [parentAfter] at h
      split_ifs at h
      · exact ih h
      · obtain ⟨outer, houter, hchild⟩ := Option.bind_eq_some_iff.1 h
        rw [Parent.depth_of_child? hchild, ih houter]

/-- `skip` passes over lines if all of them can be read. -/
theorem skip_map_ok (lines : List Line) : skip (lines.map .ok) = .ok () := by
  induction lines with
  | nil => rfl
  | cons line lines ih => exact ih

/-! ## What a scan has in hand -/

/-- Whether entries, the outermost one first, are those that a line in a `Parent` belongs to. -/
inductive Parent.IsLive : Parent → List EntryKey → Prop where
  | file : IsLive file []
  | classEntry (owner : String) : IsLive classEntry [.ofClass owner]
  | field (owner : String) (key : MemberKey) : IsLive field [.ofClass owner, .ofField key]
  | method (owner : String) (key : MemberKey) : IsLive method [.ofClass owner, .ofMethod key]
  | parameter (owner : String) (key : MemberKey) (index : UInt64) :
    IsLive parameter [.ofClass owner, .ofMethod key, .ofParameter index]

/-- Whether a `Row` can stand in the body of a file at some depth and below some entries. -/
inductive Row.StandsAt : Row → Nat → List EntryKey → Prop where
  | classRow {live : List EntryKey} : StandsAt .classRow 0 live
  | fieldRow {owner : String} : StandsAt (.fieldRow owner) 1 [.ofClass owner]
  | methodRow {owner : String} : StandsAt (.methodRow owner) 1 [.ofClass owner]
  | parameterRow {owner : String} {key : MemberKey} :
    StandsAt (.parameterRow owner key) 2 [.ofClass owner, .ofMethod key]
  | comment {depth : Nat} {live : List EntryKey} : StandsAt .comment depth live
  | other {depth : Nat} {live : List EntryKey} : StandsAt .other depth live

/-- The row that `rowOf` finds for a line of the body `StandsAt` its depth. -/
theorem standsAt_rowOf (live : List EntryKey) (line : Line) :
    (rowOf true live line).StandsAt line.depth live := by
  obtain ⟨number, depth, head, fields⟩ := line
  change (rowOf true live ⟨number, depth, head, fields⟩).StandsAt depth live
  unfold rowOf
  split
  case h_1 => contradiction
  all_goals
    next heq =>
      try subst heq
      split_ifs <;> constructor

section Parents

variable {t : Table} {s s' : Scan} {live : List EntryKey} {line : Line} {parent child : Parent}

/-- A line of an unknown kind is about nothing: its `rowOf` is `other`. -/
theorem rowOf_of_unknown (hlive : parent.IsLive live) (hdepth : line.depth = parent.depth)
    (hunknown : line.head ∉ parent.kinds) : rowOf true live line = .other := by
  obtain ⟨number, depth, head, fields⟩ := line
  cases hlive <;> subst hdepth <;> simp_all [rowOf, Parent.kinds, Parent.depth]

/-- After `act` for a line of the body a scan is still `AtLevel` the level of that line. -/
theorem Scan.atLevel_of_act (hact : act t true live line = some s')
    (hlive : live.length ≤ line.depth) : s'.AtLevel true live line.depth := by
  have hsame : live.take line.depth = live := List.take_of_length_le hlive
  have hstands := standsAt_rowOf live line
  unfold act at hact
  -- whatever the row is, the machine ends within the section of the line
  generalize rowOf true live line = row at hact hstands
  generalize line.depth = depth at *
  cases hstands with
  | classRow =>
    obtain ⟨e, -, hact⟩ := Option.bind_eq_some_iff.1 hact
    cases hact
    exact ⟨rfl, Nat.zero_le _, nofun, hsame⟩
  | fieldRow | methodRow =>
    obtain ⟨e, -, hact⟩ := Option.bind_eq_some_iff.1 hact
    cases hact
    exact ⟨rfl, Nat.le_succ 1, nofun, rfl⟩
  | parameterRow =>
    obtain ⟨p, -, hact⟩ := Option.bind_eq_some_iff.1 hact
    cases hact
    exact ⟨rfl, Nat.le_succ 2, nofun, rfl⟩
  | comment =>
    obtain ⟨text, -, hact⟩ := Option.bind_eq_some_iff.1 hact
    cases hact
    exact ⟨rfl, Nat.le_refl _, nofun, hsame⟩
  | other =>
    cases hact
    refine ⟨rfl, Nat.le_refl _, ?_, hsame⟩
    rintro skipped ⟨⟩
    exact Nat.le_refl _

/-- After `act` for the line of an entry a scan has that entry in hand, and is `AtLevel` the level
below. -/
theorem Scan.exists_atLevel_of_child (hlive : parent.IsLive live)
    (hdepth : line.depth = parent.depth)
    (hchild : parent.child? line.head = some child) (hact : act t true live line = some s') :
    ∃ live', child.IsLive live' ∧ s'.AtLevel true live' child.depth := by
  obtain ⟨number, depth, head, fields⟩ := line
  obtain rfl : depth = parent.depth := hdepth
  rcases Parent.child?_eq_some_iff.1 hchild with
    ⟨rfl, rfl, rfl⟩ | ⟨rfl, rfl, rfl⟩ | ⟨rfl, rfl, rfl⟩ | ⟨rfl, rfl, rfl⟩ <;> cases hlive
  all_goals
    simp only [act, rowOf, Parent.depth, String.reduceEq, ↓reduceIte] at hact
    obtain ⟨e, -, hact⟩ := Option.bind_eq_some_iff.1 hact
    cases hact
    refine ⟨_, by constructor, rfl, Nat.le_refl _, ?_, rfl⟩
    intro skipped hskipped
    cases hskipped

end Parents

namespace Scan

variable {s s' : Scan} {parent : Parent}

/-- Every scan is `AtLevel` the outermost level. -/
theorem atLevel_zero (s : Scan) : s.AtLevel true [] 0 where
  inBody := Bool.or_true s.inBody
  limit := Nat.zero_le _
  skip _ _ := Nat.zero_le _
  live := rfl

/-- Whether the entries that a scan has in hand are those that the `earlier` lines, of which the
latest one is the first, tell by their outline. -/
def Follows (s : Scan) (earlier : List Line) : Prop :=
  ∀ depth parent, parentAfter earlier depth = some parent →
    ∃ live, parent.IsLive live ∧ s.AtLevel true live depth

theorem follows_nil (s : Scan) : s.Follows [] := by
  intro depth parent hparent
  cases depth with
  | zero =>
    cases hparent
    exact ⟨[], .file, s.atLevel_zero⟩
  | succ depth => cases hparent

/-- `step` follows a line as `Follows` says: it ends all that is not less deep, and what stands in
it comes next. -/
theorem Follows.step {earlier : List Line} {line : Line} (h : s.Follows earlier)
    (hstep : s.step line = some s') : s'.Follows (line :: earlier) := by
  intro depth parent hparent
  cases depth with
  | zero =>
    cases hparent
    exact ⟨[], .file, s'.atLevel_zero⟩
  | succ depth =>
    rw [parentAfter] at hparent
    split_ifs at hparent with hdeeper hdepth
    · -- the line is no less deep than the one that comes next
      obtain ⟨live, hlive, hs⟩ := h (depth + 1) parent hparent
      refine ⟨live, hlive, ?_⟩
      have hbody : s.inBody = true := by simpa using hs.inBody
      unfold Scan.step at hstep
      split_ifs at hstep
      · cases hstep
        exact hs
      · rw [hbody, Bool.true_or] at hstep
        refine (atLevel_of_act hstep (List.length_take_le _ _)).outer hdeeper ?_
        rw [List.take_take, Nat.min_eq_left hdeeper, hs.live]
    · -- the line is the one that the next one stands in
      obtain ⟨outer, houter, hchild⟩ := Option.bind_eq_some_iff.1 hparent
      obtain ⟨live, hlive, hs⟩ := h depth outer houter
      rw [hs.step_eq hdepth] at hstep
      have hat :=
        exists_atLevel_of_child hlive (hdepth.trans (depth_of_parentAfter houter).symm) hchild
        hstep
      rwa [Parent.depth_of_child? hchild, depth_of_parentAfter houter] at hat

/-- `run` follows lines as `Follows` says. -/
theorem Follows.run {earlier lines : List Line} (h : s.Follows earlier)
    (hrun : s.run (lines.map .ok) = some s') : s'.Follows (lines.reverse ++ earlier) := by
  induction lines generalizing s earlier with
  | nil =>
    cases hrun
    exact h
  | cons line lines ih =>
    rw [List.map_cons, run_cons] at hrun
    obtain ⟨s₁, hstep, hrun⟩ := Option.bind_eq_some_iff.1 hrun
    rw [List.reverse_cons, List.append_assoc]
    exact ih (h.step hstep) hrun

/-! ## Sections that are passed over -/

/-- What `run` makes of the lines that come next does not depend on what a scan passed over before,
if the first one of these is not below that. -/
theorem map_table_run_of_atLevel {live : List EntryKey} {depth : Nat} {lines : List ReadLine}
    (hs : s.AtLevel true live depth) (hs' : s'.AtLevel true live depth)
    (htable : s'.table = s.table)
    (hlines : ∀ line, lines.head? = some (.ok line) → line.depth ≤ depth) :
    (s'.run lines).map Scan.table = (s.run lines).map Scan.table := by
  cases lines with
  | nil => exact congrArg some htable
  | cons line lines =>
    cases line with
    | error cause => rfl
    | ok line =>
      have hle := hlines line rfl
      rw [run_cons, run_cons, (hs.outer hle rfl).step_eq rfl,
        (hs'.outer hle rfl).step_eq rfl, htable]

/-- `run` passes over a section of an unknown kind. -/
theorem exists_run_unknown {live : List EntryKey} {lines : List Line} (hlive : parent.IsLive live)
    (hs : s.AtLevel true live parent.depth) (hlines : parent.IsUnknown lines) :
    ∃ s', s.run (lines.map .ok) = some s' ∧ s'.AtLevel true live parent.depth ∧
      s'.table = s.table := by
  cases lines with
  | nil => exact absurd hlines id
  | cons first below =>
    obtain ⟨hdepth, hunknown, hbelow⟩ := hlines
    -- the first line is skipped with everything below it
    have hact : act s.table true live first = some {
        table := s.table, inBody := true, limit := parent.depth,
        skip := some parent.depth, live } := by
      rw [act, rowOf_of_unknown hlive hdepth hunknown, hdepth]
    have hdeeper : ∀ line ∈ below.map .ok, isDeeper parent.depth line = true := by
      intro line hline
      obtain ⟨read, hread, rfl⟩ := List.mem_map.1 hline
      exact decide_eq_true (hbelow read hread)
    have hlive' : live.length ≤ first.depth := by
      rw [hdepth, ← hs.live]
      exact List.length_take_le _ _
    have hafter := atLevel_of_act hact hlive'
    rw [hdepth] at hafter
    refine ⟨_, ?_, hafter, rfl⟩
    rw [List.map_cons, run_cons, hs.step_eq hdepth, hact, Option.bind_some, run_of_skip rfl hdeeper,
      skip_map_ok]
    rfl

end Scan

/-- A section of an unknown kind can be put between the lines of a file where a section can stand,
and `readFile` reads the same as before. -/
theorem toOption_readFile_unknown {header : Line} {before block : List Line} {after : List ReadLine}
    {parent : Parent} (hparent : parentAfter before.reverse parent.depth = some parent)
    (hblock : parent.IsUnknown block)
    (hafter : ∀ line, after.head? = some (.ok line) → line.depth ≤ parent.depth) :
    (readFile (.ok header :: (before.map .ok ++ (block.map .ok ++ after)))).toOption =
      (readFile (.ok header :: (before.map .ok ++ after))).toOption := by
  cases hheader : readHeader header with
  | error failure => simp only [readFile, hheader]; rfl
  | ok namespaces =>
    rw [readFile_eq_run hheader, readFile_eq_run hheader, Scan.run_append, Scan.run_append]
    cases hrun : (Scan.start namespaces).run (before.map .ok) with
    | none => rfl
    | some s =>
      -- after the lines before the block, the machine is within the parent
      have hfollows := (Scan.follows_nil _).run hrun
      rw [List.append_nil] at hfollows
      obtain ⟨live, hlive, hs⟩ := hfollows parent.depth parent hparent
      obtain ⟨s', hrun', hs', htable⟩ := Scan.exists_run_unknown hlive hs hblock
      rw [Option.bind_some, Option.bind_some, Scan.run_append, hrun', Option.bind_some]
      exact Scan.map_table_run_of_atLevel hs hs' htable hafter

/-- A file can hold a section of an unknown kind, with whatever is below that, on the outermost
level or directly in the section of a class, field, method or parameter, which is what `parentAfter`
finds. `readInput` reads it as the file without that section, and cannot read one exactly if it
cannot read the other one. -/
theorem readInput_unknownSection {input input' : Input} {header : Except Cause String}
    {before block : List String} {after : List (Except Cause String)} {parent : Parent}
    (hinput : input.texts = header :: (before.map .ok ++ after))
    (hinput' : input'.texts = header :: (before.map .ok ++ (block.map .ok ++ after)))
    (hparent : parentAfter (before.map (Line.ofText 0)).reverse parent.depth = some parent)
    (hblock : parent.IsUnknown (block.map (Line.ofText 0)))
    (hafter : ∀ text, after.head? = some (.ok text) → (Line.ofText 0 text).depth ≤ parent.depth) :
    (readInput input').toOption = (readInput input).toOption := by
  -- line numbers occur in errors only, so both inputs can be read without them
  have hread : ∀ texts, (readTexts texts).toOption = (readFile (unnumberedLines texts)).toOption :=
    fun texts => toOption_congr fun t => readTexts_eq_ok_iff
  have hlines : ∀ texts : List String,
      unnumberedLines (texts.map .ok) = (texts.map (Line.ofText 0)).map .ok := by
    intro texts
    rw [unnumberedLines, List.map_map, List.map_map]
    rfl
  have happend : ∀ texts texts', unnumberedLines (texts ++ texts') =
      unnumberedLines texts ++ unnumberedLines texts' := fun texts texts' => List.map_append
  rw [readInput, readInput, hinput, hinput', hread, hread]
  cases header with
  | error cause => rfl
  | ok header =>
    change (readFile (.ok (Line.ofText 0 header) :: unnumberedLines _)).toOption =
      (readFile (.ok (Line.ofText 0 header) :: unnumberedLines _)).toOption
    rw [happend, happend, happend, hlines, hlines]
    refine toOption_readFile_unknown hparent hblock fun line hline => ?_
    cases after with
    | nil => cases hline
    | cons text after =>
      cases text with
      | error cause => cases hline
      | ok text =>
        cases hline
        exact hafter text rfl

/-- Lines of a file up to a method with a parameter. -/
def textsBefore : List String :=
  ["c\ta\tMain", "\tm\t()V\tb\trun", "\t\tp\t1\t\tcount", "\t\t\tc\tA comment."]

/-- A section for a local variable, with something below it that would be too deep elsewhere. -/
def unknownTexts : List String :=
  ["\t\tv\t1\t0\t0\t\tindex", "\t\t\t\t\tp\twhatever it is", "\t\t\tc\tnot \\escaped"]

/-- The lines after the parameter. -/
def textsAfter : List String :=
  ["\t\tc\tOf the method.", "\tf\tI\tc\tsize"]

/-- The section for the local variable can be put into the method between `textsBefore` and
`textsAfter`. -/
theorem readInput_unknownSection_sample :
    parentAfter (("\tescaped-names" :: textsBefore).map (Line.ofText 0)).reverse 2 = some .method ∧
      Parent.method.IsUnknown (unknownTexts.map (Line.ofText 0)) ∧
      (readInput (sampleInput (textsBefore ++ unknownTexts ++ textsAfter))).toOption =
        (readInput (sampleInput (textsBefore ++ textsAfter))).toOption ∧
      (readInput (sampleInput (textsBefore ++ textsAfter))).toOption.isSome = true := by
  have hparent : parentAfter (("\tescaped-names" :: textsBefore).map (Line.ofText 0)).reverse
      Parent.method.depth = some .method := by
    decide +kernel
  have hblock : Parent.method.IsUnknown (unknownTexts.map (Line.ofText 0)) := by decide +kernel
  have hinput : (sampleInput (textsBefore ++ textsAfter)).texts =
      .ok "tiny\t2\t0\tofficial\tnamed" ::
        (("\tescaped-names" :: textsBefore).map .ok ++ textsAfter.map .ok) := by
    decide +kernel
  have hinput' : (sampleInput (textsBefore ++ unknownTexts ++ textsAfter)).texts =
      .ok "tiny\t2\t0\tofficial\tnamed" ::
        (("\tescaped-names" :: textsBefore).map .ok ++
          (unknownTexts.map .ok ++ textsAfter.map .ok)) := by
    decide +kernel
  have hafter : ∀ text, (textsAfter.map Except.ok : List (Except Cause String)).head? =
      some (.ok text) → (Line.ofText 0 text).depth ≤ Parent.method.depth := by
    rintro text ⟨⟩
    decide
  exact ⟨hparent, hblock, readInput_unknownSection hinput hinput' hparent hblock hafter,
    by decide +kernel⟩

end MappingTables.Format.Nested
