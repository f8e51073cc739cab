import Mathlib.Data.List.TakeWhile
import MappingTables.Proofs.Additions
import MappingTables.Proofs.Format.Outline
import MappingTables.Proofs.Format.Row
import MappingTables.Proofs.Nested.Scan
import MappingTables.Proofs.OrderedMap

/-!
# Reading level by level and in one pass

The reader of the nested dialect and the scan accept the same files and make the same tables of
them.

* `Scan.AtLevel`: where a scan has to be so that a line of a level belongs to the entries that the
  reader of that level has in hand.
* `Simulates`: a scan does what a reader does at a level.
* `simulates_readLevel`: if that holds for the blocks of a level, it holds for the level.
* `readInput_eq_run`: it holds for whole files.
-/

namespace MappingTables

/-- A value that `insert` put in can be changed with `modify` before it is put in. -/
@[simp]
theorem OrderedMap.modify_insert {κ α : Type} [DecidableEq κ] (m : OrderedMap κ α) (k : κ) (a : α)
    (f : α → α) : (m.insert k a).modify k f = m.insert k (f a) := by
  rw [modify, get?_insert, if_pos rfl]
  exact insert_insert m k a (f a)

/-- `bind` keeps options related by `R` related by `S`, if the functions after it make this of
that. -/
theorem rel_bind {α α' β β' : Type} {R : α → β → Prop} {S : α' → β' → Prop} {a : Option α}
    {b : Option β} {f : α → Option α'} {g : β → Option β'} (h : Option.Rel R a b)
    (hfg : ∀ a b, R a b → Option.Rel S (f a) (g b)) : Option.Rel S (a.bind f) (b.bind g) := by
  cases h with
  | none => exact .none
  | some h => exact hfg _ _ h

namespace Format

/-- Lines are the deeper ones at the start and those of the `blocks`, of which the first one is not
deeper and all others are. -/
theorem blocks_spec (depth : Nat) (lines : List ReadLine) :
    lines = (blocks depth lines).1 ++
        (blocks depth lines).2.flatMap (fun block => .ok block.head :: block.body) ∧
      (∀ line ∈ (blocks depth lines).1, isDeeper depth line = true) ∧
      ∀ block ∈ (blocks depth lines).2, block.head.depth ≤ depth ∧
        ∀ line ∈ block.body, isDeeper depth line = true := by
  induction lines with
  | nil => exact ⟨rfl, List.forall_mem_nil _, List.forall_mem_nil _⟩
  | cons line lines ih =>
    obtain ⟨heq, hdeeper, hblocks⟩ := ih
    cases line with
    | error cause =>
      exact ⟨congrArg _ heq, List.forall_mem_cons.2 ⟨rfl, hdeeper⟩, hblocks⟩
    | ok line =>
      rw [blocks]
      -- a deeper line belongs to the block before it, any other one begins a block
      split
      · next h =>
        exact ⟨congrArg _ heq, List.forall_mem_cons.2 ⟨decide_eq_true h, hdeeper⟩, hblocks⟩
      · next h =>
        refine ⟨congrArg _ heq, List.forall_mem_nil _,
          List.forall_mem_cons.2 ⟨⟨?_, hdeeper⟩, hblocks⟩⟩
        exact Nat.le_of_not_lt h

namespace Nested

open Text

/-! ## What a scan does with lines of which it uses none -/

namespace Scan

/-- `run` over lines after each other goes over the first ones and then over the others. -/
theorem run_append (s : Scan) (lines lines' : List ReadLine) :
    s.run (lines ++ lines') = (s.run lines).bind (·.run lines') :=
  List.foldlM_append ..

/-- `run` over a line and those after it does a `step` first. -/
theorem run_cons (s : Scan) (line : Line) (lines : List ReadLine) :
    s.run (.ok line :: lines) = (s.step line).bind (·.run lines) :=
  List.foldlM_cons ..

/-- Lines that are too deep are refused by `run`, as `expectDepth` does, if there are any. -/
theorem run_of_limit {s : Scan} {depth : Nat} (hlimit : s.limit = depth) (hskip : s.skip = none)
    {lines : List ReadLine} (h : ∀ line ∈ lines, isDeeper depth line = true) :
    s.run lines = (expectDepth depth lines).toOption.map fun _ => s := by
  cases lines with
  | nil => rfl
  | cons line lines =>
    cases line with
    | error cause => rfl
    | ok line =>
      have hdeeper : s.limit < line.depth :=
        hlimit ▸ of_decide_eq_true (h (.ok line) List.mem_cons_self)
      have hstep : s.step line = none := by
        rw [step, ignores, hskip, Option.any_none, if_neg Bool.false_ne_true, if_pos hdeeper]
      rw [run_cons, hstep]
      rfl

/-- Lines that are passed over have to be read all the same by `run`, as `skip` does. -/
theorem run_of_skip {s : Scan} {depth : Nat} (hskip : s.skip = some depth)
    {lines : List ReadLine} (h : ∀ line ∈ lines, isDeeper depth line = true) :
    s.run lines = (Format.skip lines).toOption.map fun _ => s := by
  induction lines with
  | nil => rfl
  | cons line lines ih =>
    cases line with
    | error cause => rfl
    | ok line =>
      have hdeeper : depth < line.depth := of_decide_eq_true (h (.ok line) List.mem_cons_self)
      have hstep : s.step line = some s := by
        rw [step, ignores, hskip, Option.any_some, if_pos (decide_eq_true hdeeper)]
      rw [run_cons, hstep]
      exact ih fun line' hline' => h line' (List.mem_cons_of_mem _ hline')

/-! ## Levels -/

/-- Whether a scan is where a line of the given `depth` belongs to the given entries. How deep the
last line was does not matter, as long as it was not less deep. -/
structure AtLevel (inBody : Bool) (live : List EntryKey) (depth : Nat) (s : Scan) : Prop where
  inBody : (s.inBody || depth == 0) = inBody
  limit : depth ≤ s.limit
  skip : ∀ skipped ∈ s.skip, depth ≤ skipped
  live : s.live.take depth = live

/-- A line of the level that a scan is `AtLevel` does what `act` has it do to the entries there. -/
theorem AtLevel.step_eq {inBody : Bool} {live : List EntryKey} {depth : Nat} {s : Scan}
    {line : Line} (h : s.AtLevel inBody live depth) (hdepth : line.depth = depth) :
    s.step line = act s.table inBody live line := by
  have hignores : s.ignores depth = false := by
    unfold ignores
    cases hskip : s.skip with
    | none => rfl
    | some skipped => exact decide_eq_false (Nat.not_lt.2 (h.skip skipped hskip))
  rw [step, hdepth, hignores, if_neg Bool.false_ne_true, if_neg (Nat.not_lt.2 h.limit), h.inBody,
    h.live]

/-- A scan that is `AtLevel` a level of the body is so at the levels around it. -/
theorem AtLevel.outer {live live' : List EntryKey} {depth depth' : Nat} {s : Scan}
    (h : s.AtLevel true live depth) (hle : depth' ≤ depth) (hlive : live.take depth' = live') :
    s.AtLevel true live' depth' := by
  refine ⟨?_, Nat.le_trans hle h.limit,
    fun skipped hskipped => Nat.le_trans hle (h.skip skipped hskipped), ?_⟩
  · -- only on the outermost level it does not matter whether the body was seen
    by_cases hzero : depth' = 0
    · simp [hzero]
    · have hne : (depth == 0) = false := beq_eq_false_iff_ne.2 (by omega)
      rw [← h.inBody, hne, beq_eq_false_iff_ne.2 hzero]
  · rw [← hlive, ← h.live, List.take_take, Nat.min_eq_left hle]

end Scan

/-- Whether a scan does what a reader does at a level: both fail, or what the reader has in hand
`holds` in the table of the scan, which is ready for the next line of the level. -/
def Simulates {σ : Type} (inBody : Bool) (live : List EntryKey) (depth : Nat)
    (holds : σ → Table → Prop) : Option σ → Option Scan → Prop :=
  Option.Rel fun a s => holds a s.table ∧ s.AtLevel inBody live depth

/-- What a block gives, if `expectDepth` finds nothing that it leaves unread. -/
def blockResult {σ : Type} (depth : Nat) (x : Except Failure (σ × List ReadLine)) : Option σ :=
  x.toOption.bind fun (a, unread) => (expectDepth depth unread).toOption.map fun _ => a

section Levels

variable {σ : Type} {inBody : Bool} {live : List EntryKey} {depth : Nat} {holds : σ → Table → Prop}
  {readBlock : σ → Line → List ReadLine → Except Failure (σ × List ReadLine)}

/-- What a level takes from one of its blocks, apart from messages, is its `blockResult`. -/
theorem toOption_block {number : Nat} (x : Except Failure (σ × List ReadLine)) :
    (do
      let (a, unread) ← within (.inLine number) x
      expectDepth depth unread
      return a : Except Failure σ).toOption = blockResult depth x := by
  rw [toOption_bind, toOption_within]
  refine congrArg _ (funext fun (a, unread) => ?_)
  change (expectDepth depth unread >>= fun _ => pure a).toOption =
    (expectDepth depth unread).toOption.map fun _ => a
  cases expectDepth depth unread <;> rfl

/-- A scan `Simulates` `readLevel` if it does so for each block. -/
theorem simulates_readLevel
    (hblock : ∀ a (s : Scan) line body, holds a s.table → s.AtLevel inBody live depth →
      line.depth = depth → (∀ l ∈ body, isDeeper depth l = true) →
      Simulates inBody live depth holds (blockResult depth (readBlock a line body))
        ((Scan.act s.table inBody live line).bind (·.run body)))
    {a : σ} {s : Scan} {lines : List ReadLine} (ha : holds a s.table)
    (hs : s.AtLevel inBody live depth) (hlines : ∀ line, .ok line ∈ lines → depth ≤ line.depth)
    (hready : (blocks depth lines).1 = [] ∨ (s.limit = depth ∧ s.skip = none)) :
    Simulates inBody live depth holds (readLevel depth readBlock a lines).toOption
      (s.run lines) := by
  obtain ⟨heq, hdeeper, hblocks⟩ := blocks_spec depth lines
  rw [readLevel, toOption_bind]
  by_cases hnil : (blocks depth lines).1 = []
  · rw [hnil, List.nil_append] at heq
    rw [hnil, show (expectDepth depth []).toOption = some () from rfl, Option.bind_some]
    have hmem : ∀ block ∈ (blocks depth lines).2, .ok block.head ∈ lines :=
      fun block hblock => (mem_of_mem_blocks.2 block hblock).1
    conv =>
      arg 6
      rw [heq]
    clear heq hnil hready hdeeper
    generalize (blocks depth lines).2 = bs at hblocks hmem ⊢
    -- on the blocks that are left, for whatever was read so far
    induction bs generalizing a s with
    | nil => exact .some ⟨ha, hs⟩
    | cons block bs ih =>
      obtain ⟨hle, hbody⟩ := hblocks block List.mem_cons_self
      have hdepth : block.head.depth = depth :=
        Nat.le_antisymm hle (hlines _ (hmem block List.mem_cons_self))
      rw [List.foldlM_cons, toOption_bind, List.flatMap_cons, Scan.run_append, Scan.run_cons,
        hs.step_eq hdepth]
      rw [toOption_block]
      refine rel_bind (hblock a s block.head block.body ha hs hdepth hbody) fun a' s' h => ?_
      exact ih h.1 h.2 (fun b hb => hblocks b (List.mem_cons_of_mem _ hb))
        fun b hb => hmem b (List.mem_cons_of_mem _ hb)
  · -- a deeper line at the start is refused by both
    obtain ⟨hlimit, hskip⟩ := hready.resolve_left hnil
    have hfail : (expectDepth depth (blocks depth lines).1).toOption = none := by
      cases hfirst : (blocks depth lines).1 with
      | nil => exact absurd hfirst hnil
      | cons line rest => cases line <;> rfl
    rw [hfail, heq, Scan.run_append, Scan.run_of_limit hlimit hskip hdeeper, hfail]
    exact .none

end Levels

/-! ## The fields of rows -/

/-- `unescapeText` reads a text as the scan does with `unescape`. -/
theorem toOption_unescapeText (text : String) :
    (unescapeText text).toOption = (unescape text).toOption := by
  unfold unescapeText
  cases unescape text with
  | ok s => rfl
  | error fault => cases fault <;> rfl

/-- `readComment` reads a comment as the scan does with `commentOf`. -/
theorem toOption_readComment (line : Line) :
    (readComment line).toOption = commentOf line.fields := by
  obtain ⟨number, depth, head, fields⟩ := line
  rw [readComment, toOption_bind]
  rcases fields with _ | ⟨field, _ | ⟨field', fields⟩⟩
  · rfl
  · exact toOption_unescapeText field
  · rfl

/-- `mapM` of an operation that, seen without its failures, is `g`. -/
theorem toOption_mapM {α β : Type} {f : α → Except Failure β} {g : α → Option β}
    (h : ∀ a, (f a).toOption = g a) (l : List α) : (l.mapM f).toOption = l.mapM g := by
  induction l with
  | nil => rfl
  | cons a l ih =>
    rw [List.mapM_cons, List.mapM_cons, toOption_bind, h]
    refine congrArg _ (funext fun b => ?_)
    rw [toOption_bind, ih]
    rfl

/-- `names` reads names as the scan does with `namesOf`. -/
theorem toOption_names (t : Table) (line : Line) :
    (line.names t.namespaces.size (t.properties.contains escapedNames)).toOption =
      namesOf t line.fields := by
  unfold Line.names namesOf
  by_cases hlength : line.fields.length = t.namespaces.size
  · rw [if_neg (not_not.2 hlength), if_pos hlength, toOption_bind, toOption_within]
    by_cases hescaped : t.properties.contains escapedNames = true
    · rw [if_pos hescaped, if_pos hescaped, toOption_mapM toOption_unescapeText]
      cases line.fields.mapM fun field => (unescape field).toOption <;> rfl
    · rw [if_neg hescaped, if_neg hescaped]
      rfl
  · rw [if_pos hlength, if_neg hlength]
    rfl

/-- `requireSource` asks for a source name as the scan does. -/
theorem toOption_requireSource (names : Names) : names.requireSource.toOption = names.source :=
  Option.ext fun name => by rw [toOption_eq_some_iff, Names.requireSource_eq_ok_iff]

/-- The key and the names in the row of a field or method, the name in the key by
`requireSource`. -/
def readMember (size : Nat) (escaped : Bool) (line : Line) :
    Except Failure (MemberKey × Names) := do
  let (descriptor, line) ← line.next
  let names ← line.names size escaped
  return ({ name := ← names.requireSource, descriptor }, names)

/-- `readMember` reads the row of a member as the scan does with `memberOf`. -/
theorem toOption_readMember (t : Table) (line : Line) :
    (readMember t.namespaces.size (t.properties.contains escapedNames) line).toOption =
      memberOf t line.fields := by
  obtain ⟨number, depth, head, fields⟩ := line
  rw [readMember, toOption_bind]
  cases fields with
  | nil => rfl
  | cons descriptor fields =>
    change Option.bind (some (descriptor, _)) _ = _
    rw [Option.bind_some, toOption_bind, toOption_names, memberOf, keyedNamesOf]
    cases namesOf t fields with
    | none => rfl
    | some names =>
      change (names.requireSource >>= _).toOption = _
      rw [toOption_bind, toOption_requireSource]
      cases hsource : names.source with
      | none => simp [hsource]
      | some name =>
        simp [hsource]
        rfl

/-- The key and the names in the row of a class, the key by `requireSource`. -/
def readClass (escaped : Bool) (t : Table) (line : Line) : Except Failure (String × Names) := do
  let names ← line.names t.namespaces.size escaped
  t.checkSlots names
  return (← names.requireSource, names)

/-- `readClass` reads the row of a class as the scan does with `keyedNamesOf`. -/
theorem toOption_readClass (t : Table) (line : Line) :
    (readClass (t.properties.contains escapedNames) t line).toOption =
      keyedNamesOf t line.fields := by
  rw [readClass, toOption_bind, keyedNamesOf, ← toOption_names]
  cases hnames : line.names t.namespaces.size (t.properties.contains escapedNames) with
  | error failure => rfl
  | ok names =>
    -- the number of names was checked when the line was read
    have hsize : names.size = t.namespaces.size := by
      obtain ⟨hlength, texts, htexts, rfl⟩ := Line.names_eq_ok_iff.1 hnames
      rw [Names.size_ofTexts, ← hlength]
      split at htexts
      · exact (mapM_eq_ok_iff.1 htexts).length_eq.symm
      · rw [Except.ok.inj htexts]
    have hslots : t.checkSlots names = .ok () := Table.checkSlots_eq_ok_iff.2 hsize
    change (t.checkSlots names >>= _).toOption = _
    rw [hslots, ok_bind, toOption_bind, toOption_requireSource]
    cases hsource : names.source <;> (simp [hsource, Except.toOption]; try rfl)

/-- `readParameter` reads a parameter as the scan does with `parameterOf`. -/
theorem toOption_readParameter (t : Table) (line : Line) :
    (readParameter t.namespaces.size (t.properties.contains escapedNames) line).toOption =
      parameterOf t line.fields := by
  obtain ⟨number, depth, head, fields⟩ := line
  rw [readParameter, toOption_bind]
  cases fields with
  | nil => rfl
  | cons index fields =>
    change Option.bind (some (index, _)) _ = _
    rw [Option.bind_some, toOption_bind, toOption_within]
    have hindex : ((readNumeral UInt64.size index).mapError fun fault =>
        Failure.ofCause (.numeral fault)).toOption = (readNumeral UInt64.size index).toOption := by
      cases readNumeral UInt64.size index <;> rfl
    rw [hindex, parameterOf]
    refine congrArg _ (funext fun index => ?_)
    rw [toOption_bind, toOption_names]
    rfl

/-! ## The levels of a file -/

section Blocks

variable {σ : Type} {live : List EntryKey} {depth : Nat} {holds : σ → Table → Prop} {t : Table}
  {line : Line} {body : List ReadLine} {a : σ}

/-- A `comment` leaves no place for deeper lines, and so the scan `Simulates` it. -/
theorem simulates_comment (comment : String → σ) (hrow : rowOf true live line = .comment)
    (hdepth : line.depth = depth) (hlive : live.take depth = live)
    (hbody : ∀ l ∈ body, isDeeper depth l = true)
    (hholds : ∀ text, holds (comment text) (commentOn t text live)) :
    Simulates true live depth holds
      (blockResult depth (do return (comment (← readComment line), body)))
      ((Scan.act t true live line).bind (·.run body)) := by
  rw [blockResult, toOption_bind, toOption_readComment, Scan.act, hrow]
  cases commentOf line.fields with
  | none => exact .none
  | some text =>
    change Simulates true live depth holds
      ((expectDepth depth body).toOption.map fun _ => comment text) (Scan.run _ body)
    rw [Scan.run_of_limit hdepth rfl hbody]
    cases (expectDepth depth body).toOption with
    | none => exact .none
    | some _ =>
      exact .some ⟨hholds text, rfl, Nat.le_of_eq hdepth.symm, nofun, hlive⟩

/-- A row that says nothing is passed over with all below it, and so the scan `Simulates` it. -/
theorem simulates_other (hrow : rowOf true live line = .other) (hdepth : line.depth = depth)
    (hlive : live.take depth = live) (hbody : ∀ l ∈ body, isDeeper depth l = true)
    (hholds : holds a t) :
    Simulates true live depth holds
      (blockResult depth (do
        skip body
        return (a, [])))
      ((Scan.act t true live line).bind (·.run body)) := by
  subst hdepth
  rw [blockResult, toOption_bind, Scan.act, hrow, Option.bind_some, Scan.run_of_skip rfl hbody]
  cases (skip body).toOption with
  | none => exact .none
  | some _ =>
    refine .some ⟨hholds, rfl, Nat.le_refl _, fun skipped hskipped => ?_, hlive⟩
    exact Nat.le_of_eq (Option.some.inj hskipped)

/-- Below an entry without members the scan does what `readBelowLeaf` does. -/
theorem simulates_readBelowLeaf {addComment : σ → String → σ}
    (hrow : rowOf true live line = if line.head = "c" then .comment else .other)
    (hdepth : line.depth = depth) (hlive : live.take depth = live)
    (hbody : ∀ l ∈ body, isDeeper depth l = true)
    (hcomment : ∀ text, holds (addComment a text) (commentOn t text live)) (hholds : holds a t) :
    Simulates true live depth holds (blockResult depth (readBelowLeaf addComment a line body))
      ((Scan.act t true live line).bind (·.run body)) := by
  unfold readBelowLeaf
  split
  · next hhead =>
    rw [if_pos hhead] at hrow
    exact simulates_comment (addComment a) hrow hdepth hlive hbody hcomment
  · next hhead =>
    rw [if_neg hhead] at hrow
    exact simulates_other hrow hdepth hlive hbody hholds

/-- The scan `Simulates` the reading of a row and what is done `next` if it does so with what `act`
makes of the row. -/
theorem simulates_row {inBody : Bool} {ε : Type} {x : Except Failure ε} {y : Option ε}
    {next : ε → Except Failure (σ × List ReadLine)} {act : ε → Option Scan} (h : x.toOption = y)
    (hnext : ∀ e, Simulates inBody live depth holds (blockResult depth (next e))
      ((act e).bind (·.run body))) :
    Simulates inBody live depth holds (blockResult depth (x >>= next))
      ((y >>= act).bind (·.run body)) := by
  subst h
  cases x with
  | error failure => exact .none
  | ok e => exact hnext e

/-- The scan `Simulates` an entry if it does so for the level below, after which the entry is `put`
into its place. -/
theorem simulates_entry {ρ : Type} {readBlock : ρ → Line → List ReadLine →
      Except Failure (ρ × List ReadLine)} {context : Context} {entry : ρ} {put : ρ → σ} {s : Scan}
    (key : EntryKey) (below : ρ → Table → Prop) {deeper : Nat} (hlive : live.length = depth)
    (hdeeper : deeper = depth + 1)
    (hs : s.inBody = true ∧ s.limit = deeper ∧ s.skip = none ∧ s.live = live ++ [key])
    (hentry : below entry s.table) (hbody : ∀ l ∈ body, isDeeper depth l = true)
    (hput : ∀ a t, below a t → holds (put a) t)
    (hblock : ∀ a (s : Scan) line body, below a s.table → line.depth = deeper →
      (∀ l ∈ body, isDeeper deeper l = true) →
      Simulates true (live ++ [key]) deeper below (blockResult deeper (readBlock a line body))
        ((Scan.act s.table true (live ++ [key]) line).bind (·.run body))) :
    Simulates true live depth holds
      (blockResult depth (do
        let entry ← within context (readLevel deeper readBlock entry body)
        return (put entry, [])))
      ((some s).bind (·.run body)) := by
  subst hdeeper
  obtain ⟨hseen, hlimit, hskip, hkeys⟩ := hs
  -- the machine stands below the entry that was just put into the table
  have hlevel : s.AtLevel true (live ++ [key]) (depth + 1) := by
    refine ⟨by rw [hseen, Bool.true_or], Nat.le_of_eq hlimit.symm, by rw [hskip]; nofun, ?_⟩
    rw [hkeys, List.take_of_length_le (by simp [hlive])]
  have hread := simulates_readLevel
    (fun a s line body ha _ hdepth hbody => hblock a s line body ha hdepth hbody) hentry hlevel
    (fun line hline => of_decide_eq_true (hbody (.ok line) hline)) (.inr ⟨hlimit, hskip⟩)
  rw [blockResult, toOption_bind, toOption_within, Option.bind_some]
  generalize (readLevel (depth + 1) readBlock entry body).toOption = x at hread ⊢
  generalize s.run body = y at hread ⊢
  -- both fail here, or the entry is put back and the machine is one level up again
  cases hread with
  | none => exact .none
  | some h =>
    refine .some ⟨hput _ _ h.1, h.2.outer (Nat.le_succ depth) ?_⟩
    rw [← hlive, List.take_left]

end Blocks

section Readers

variable {t : Table} {owner : String} {key : MemberKey} {index : UInt64}

/-- The table with a class put under the key `owner`. -/
def putClass (t : Table) (owner : String) (c : ClassEntry) : Table :=
  { t with classes := t.classes.insert owner c }

/-- The table with a class that has a field under a `key`. -/
def putField (t : Table) (owner : String) (c : ClassEntry) (key : MemberKey) (f : Field) : Table :=
  putClass t owner { c with fields := c.fields.insert key f }

/-- The table with a class that has a method under a `key`. -/
def putMethod (t : Table) (owner : String) (c : ClassEntry) (key : MemberKey)
    (m : Method) : Table :=
  putClass t owner { c with methods := c.methods.insert key m }

/-- The table with a class that has a method with a parameter of an `index`. -/
def putParameter (t : Table) (owner : String) (c : ClassEntry) (key : MemberKey) (m : Method)
    (index : UInt64) (p : Parameter) : Table :=
  putMethod t owner c key { m with parameters := m.parameters.insert index p }

/-- A class that `putClass` put in can be changed with `modifyClass` before it is put in. -/
@[simp]
theorem modifyClass_putClass (c : ClassEntry) (f : ClassEntry → ClassEntry) :
    (putClass t owner c).modifyClass owner f = putClass t owner (f c) := by
  simp [putClass, Table.modifyClass]

/-- Whether entries have the descriptors and indices of their keys, and nothing else is asked. -/
def keyRules : EntryRules := {}

/-- Nothing is asked of names by `keyRules`, so `Overlays` holds of them. -/
theorem overlays_keyRules : keyRules.Overlays where
  keyed _ _ _ _ _ := trivial
  parameter _ _ _ _ := trivial

/-- Below a parameter the scan `Simulates` `readBelowParameter`. -/
theorem simulates_readBelowParameter {c : ClassEntry} {m : Method} (p : Parameter) (s : Scan)
    (line : Line) (body : List ReadLine)
    (hs : p.Obeys keyRules index ∧ s.table = putParameter t owner c key m index p)
    (hdepth : line.depth = 3) (hbody : ∀ l ∈ body, isDeeper 3 l = true) :
    Simulates true [.ofClass owner, .ofMethod key, .ofParameter index] 3
      (fun p t' => p.Obeys keyRules index ∧ t' = putParameter t owner c key m index p)
      (blockResult 3 (readBelowParameter p line body))
      ((Scan.act s.table true [.ofClass owner, .ofMethod key, .ofParameter index] line).bind
        (·.run body)) := by
  obtain ⟨hp, hs⟩ := hs
  rw [hs]
  refine simulates_readBelowLeaf (by simp [rowOf, hdepth]) hdepth rfl hbody
    (fun text => ?_) ⟨hp, rfl⟩
  refine ⟨⟨hp.index_eq, trivial⟩, ?_⟩
  simp [commentOn, putParameter, putMethod, ClassEntry.modifyMethod, Method.modifyParameter]

/-- Below a field the scan `Simulates` `readBelowField`. -/
theorem simulates_readBelowField {c : ClassEntry} (f : Field) (s : Scan) (line : Line)
    (body : List ReadLine) (hs : f.Obeys keyRules key ∧ s.table = putField t owner c key f)
    (hdepth : line.depth = 2) (hbody : ∀ l ∈ body, isDeeper 2 l = true) :
    Simulates true [.ofClass owner, .ofField key] 2
      (fun f t' => f.Obeys keyRules key ∧ t' = putField t owner c key f)
      (blockResult 2 (readBelowField f line body))
      ((Scan.act s.table true [.ofClass owner, .ofField key] line).bind (·.run body)) := by
  obtain ⟨hf, hs⟩ := hs
  rw [hs]
  refine simulates_readBelowLeaf (by simp [rowOf, hdepth]) hdepth rfl hbody
    (fun text => ?_) ⟨hf, rfl⟩
  refine ⟨⟨hf.descriptor_eq, trivial, trivial⟩, ?_⟩
  simp [commentOn, putField, ClassEntry.modifyField]

/-- Below a method the scan `Simulates` `readBelowMethod`. -/
theorem simulates_readBelowMethod {c : ClassEntry} (m : Method) (s : Scan) (line : Line)
    (body : List ReadLine) (hs : m.Obeys keyRules key ∧ s.table = putMethod t owner c key m)
    (hdepth : line.depth = 2) (hbody : ∀ l ∈ body, isDeeper 2 l = true) :
    Simulates true [.ofClass owner, .ofMethod key] 2
      (fun m t' => m.Obeys keyRules key ∧ t' = putMethod t owner c key m)
      (blockResult 2
        (readBelowMethod t.namespaces.size (t.properties.contains escapedNames) m line body))
      ((Scan.act s.table true [.ofClass owner, .ofMethod key] line).bind (·.run body)) := by
  -- depth and first word say what kind of row this is
  have hrow : rowOf true [.ofClass owner, .ofMethod key] line =
      if line.head = "p" then .parameterRow owner key
      else if line.head = "c" then .comment else .other := by
    simp [rowOf, hdepth]
  obtain ⟨hm, hs⟩ := hs
  rw [hs]
  unfold readBelowMethod
  split
  · next hhead =>
    rw [if_pos hhead] at hrow
    rw [Scan.act, hrow]
    refine simulates_row (toOption_readParameter _ line) fun p => ?_
    have hp := hm.mergedParameter overlays_keyRules (p := p) ⟨rfl, trivial⟩
    refine simulates_entry (.ofParameter p.index) (fun p' t' => p'.Obeys keyRules p.index ∧
        t' = putParameter t owner c key m p.index p') rfl rfl ⟨rfl, rfl, rfl, rfl⟩ ⟨hp, ?_⟩ hbody
      ?_ simulates_readBelowParameter
    · simp [putParameter, putMethod, ClassEntry.modifyMethod, Method.mergeParameter]
    · rintro p' _ ⟨hp', rfl⟩
      refine ⟨⟨hm.descriptor_eq, trivial, trivial, ?_⟩, ?_⟩
      · exact OrderedMap.forall_mem_insert hm.parameters ⟨rfl, trivial⟩
      · rw [hp'.index_eq]
        rfl
  · next hhead =>
    rw [hhead, if_neg (by decide), if_pos rfl] at hrow
    refine simulates_comment (fun text => { m with comment := appendComment m.comment text })
      hrow hdepth rfl hbody fun text => ?_
    refine ⟨⟨hm.descriptor_eq, trivial, trivial, hm.parameters⟩, ?_⟩
    simp [commentOn, putMethod, ClassEntry.modifyMethod]
  · next hp hc =>
    rw [if_neg hp, if_neg hc] at hrow
    exact simulates_other hrow hdepth rfl hbody ⟨hm, rfl⟩

/-- `readBelowClass` reads the row of a field first, then what is below it with `readBelowField`. -/
theorem readBelowClass_field {size : Nat} {escaped : Bool} {c : ClassEntry} {line : Line}
    {body : List ReadLine} (hhead : line.head = "f") :
    readBelowClass size escaped c line body =
      readMember size escaped line >>= fun e => do
        let f : Field := { descriptor := e.1.descriptor, names := e.2 }
        let f ← within (.inSection .belowField)
          (readLevel 2 readBelowField (c.mergedField e.1 f) body)
        return ({ c with fields := c.fields.insert e.1 f }, []) := by
  unfold readBelowClass
  rw [hhead]
  simp [readMember, Field.key]

/-- `readBelowClass` reads the row of a method first, then what is below it with
`readBelowMethod`. -/
theorem readBelowClass_method {size : Nat} {escaped : Bool} {c : ClassEntry} {line : Line}
    {body : List ReadLine} (hhead : line.head = "m") :
    readBelowClass size escaped c line body =
      readMember size escaped line >>= fun e => do
        let m : Method := { descriptor := e.1.descriptor, names := e.2 }
        let m ← within (.inSection .belowMethod)
          (readLevel 2 (readBelowMethod size escaped) (c.mergedMethod e.1 m) body)
        return ({ c with methods := c.methods.insert e.1 m }, []) := by
  unfold readBelowClass
  rw [hhead]
  simp [readMember, Method.key]

/-- Below a class the scan `Simulates` `readBelowClass`. -/
theorem simulates_readBelowClass (c : ClassEntry) (s : Scan) (line : Line) (body : List ReadLine)
    (hs : c.Obeys keyRules owner ∧ s.table = putClass t owner c)
    (hdepth : line.depth = 1) (hbody : ∀ l ∈ body, isDeeper 1 l = true) :
    Simulates true [.ofClass owner] 1 (fun c t' => c.Obeys keyRules owner ∧ t' = putClass t owner c)
      (blockResult 1
        (readBelowClass t.namespaces.size (t.properties.contains escapedNames) c line body))
      ((Scan.act s.table true [.ofClass owner] line).bind (·.run body)) := by
  have hrow : rowOf true [.ofClass owner] line =
      if line.head = "f" then .fieldRow owner
      else if line.head = "m" then .methodRow owner
      else if line.head = "c" then .comment else .other := by
    simp [rowOf, hdepth]
  obtain ⟨hc, hs⟩ := hs
  rw [hs]
  -- the reader and the machine branch on the same word
  by_cases hfield : line.head = "f"
  · rw [if_pos hfield] at hrow
    rw [readBelowClass_field hfield, Scan.act, hrow]
    refine simulates_row (toOption_readMember _ line) fun (key, names) => ?_
    have hnew : Field.Obeys keyRules key { descriptor := key.descriptor, names } :=
      ⟨rfl, trivial, trivial⟩
    have hmerged := hc.mergedField overlays_keyRules hnew
    refine simulates_entry (.ofField key)
      (fun f t' => f.Obeys keyRules key ∧ t' = putField t owner c key f) rfl rfl
      ⟨rfl, rfl, rfl, rfl⟩ ⟨hmerged, ?_⟩ hbody ?_ simulates_readBelowField
    · exact modifyClass_putClass c _
    · rintro f _ ⟨hf, rfl⟩
      exact ⟨⟨trivial, OrderedMap.forall_mem_insert hc.fields hf, hc.methods⟩, rfl⟩
  by_cases hmethod : line.head = "m"
  · rw [if_neg hfield, if_pos hmethod] at hrow
    rw [readBelowClass_method hmethod, Scan.act, hrow]
    refine simulates_row (toOption_readMember _ line) fun (key, names) => ?_
    have hnew : Method.Obeys keyRules key { descriptor := key.descriptor, names } :=
      ⟨rfl, trivial, trivial, nofun⟩
    have hmerged := hc.mergedMethod overlays_keyRules hnew
    refine simulates_entry (.ofMethod key)
      (fun m t' => m.Obeys keyRules key ∧ t' = putMethod t owner c key m) rfl rfl
      ⟨rfl, rfl, rfl, rfl⟩ ⟨hmerged, ?_⟩ hbody ?_ simulates_readBelowMethod
    · exact modifyClass_putClass c _
    · rintro m _ ⟨hm, rfl⟩
      exact ⟨⟨trivial, hc.fields, OrderedMap.forall_mem_insert hc.methods hm⟩, rfl⟩
  rw [if_neg hfield, if_neg hmethod] at hrow
  unfold readBelowClass
  split
  · next hhead => exact absurd hhead hfield
  · next hhead => exact absurd hhead hmethod
  · next hhead =>
    rw [if_pos hhead] at hrow
    refine simulates_comment (fun text => { c with comment := appendComment c.comment text })
      hrow hdepth rfl hbody fun text => ?_
    exact ⟨⟨trivial, hc.fields, hc.methods⟩, modifyClass_putClass c _⟩
  · next hhead =>
    rw [if_neg hhead] at hrow
    exact simulates_other hrow hdepth rfl hbody ⟨hc, rfl⟩

/-- `readTopLevel` reads the row of a class first, then what is below it with `readBelowClass`. -/
theorem readTopLevel_class {escaped : Bool} {line : Line} {body : List ReadLine}
    (hhead : line.head = "c") :
    readTopLevel escaped t line body =
      readClass escaped t line >>= fun e => do
        let c ← within (.inSection .belowClass)
          (readLevel 1 (readBelowClass t.namespaces.size escaped)
            (t.mergedClass e.1 { names := e.2 }) body)
        return ({ t with classes := t.classes.insert e.1 c }, []) := by
  unfold readTopLevel
  rw [hhead]
  simp [readClass]

/-- On the outermost level the scan `Simulates` `readTopLevel`. -/
theorem simulates_readTopLevel {properties : OrderedMap String (Option String)} (s : Scan)
    (line : Line) (body : List ReadLine)
    (hs : t.Obeys keyRules ∧ t.properties = properties ∧ s.table = t)
    (hdepth : line.depth = 0) (hbody : ∀ l ∈ body, isDeeper 0 l = true) :
    Simulates true [] 0
      (fun t t' => t.Obeys keyRules ∧ t.properties = properties ∧ t' = t)
      (blockResult 0 (readTopLevel (properties.contains escapedNames) t line body))
      ((Scan.act s.table true [] line).bind (·.run body)) := by
  have hrow : rowOf true [] line = if line.head = "c" then .classRow else .other := by
    simp [rowOf, hdepth]
  obtain ⟨ht, rfl, hs⟩ := hs
  rw [hs]
  -- only a class row opens an entry, anything else is skipped with what is below it
  by_cases hhead : line.head = "c"
  · rw [if_pos hhead] at hrow
    rw [readTopLevel_class hhead, Scan.act, hrow]
    refine simulates_row (toOption_readClass t line) fun (key, names) => ?_
    have hclass : ClassEntry.Obeys keyRules key { names } := ⟨trivial, nofun, nofun⟩
    have hmerged := ht.mergedClass overlays_keyRules hclass
    refine simulates_entry (.ofClass key)
      (fun c t' => c.Obeys keyRules key ∧ t' = putClass t key c) rfl rfl
      ⟨rfl, rfl, rfl, rfl⟩ ⟨hmerged, rfl⟩ hbody ?_ simulates_readBelowClass
    rintro c _ ⟨hc, rfl⟩
    exact ⟨OrderedMap.forall_mem_insert ht hc, rfl, rfl⟩
  · rw [if_neg hhead] at hrow
    unfold readTopLevel
    split
    · next h => exact absurd h hhead
    · exact simulates_other hrow hdepth rfl hbody ⟨ht, rfl, rfl⟩

/-- Among the header properties the scan `Simulates` `readProperty`. -/
theorem simulates_readProperty {namespaces : Namespaces}
    (properties : OrderedMap String (Option String)) (s : Scan) (line : Line)
    (body : List ReadLine) (hs : s.table = { namespaces, properties })
    (hbody : ∀ l ∈ body, isDeeper 1 l = true) :
    Simulates false [] 1 (fun properties t' => t' = { namespaces, properties })
      (blockResult 1 (readProperty properties line body))
      ((Scan.act s.table false [] line).bind (·.run body)) := by
  rw [hs, Scan.act, rowOf, Option.bind_some, Scan.run_of_limit rfl rfl hbody]
  change Simulates false [] 1 _ ((expectDepth 1 body).toOption.map _) _
  cases (expectDepth 1 body).toOption with
  | none => exact .none
  | some _ => exact .some ⟨rfl, rfl, Nat.le_refl 1, nofun, rfl⟩

end Readers

/-! ## Whole files -/

/-- The `blocks` of the outermost level start with a line that is not deeper. -/
theorem blocks_dropWhile (lines : List ReadLine) :
    (blocks 0 (lines.dropWhile (isDeeper 0))).1 = [] := by
  induction lines with
  | nil => rfl
  | cons line lines ih =>
    rw [List.dropWhile_cons]
    split
    · exact ih
    · next h =>
      cases line with
      | error cause => exact absurd rfl h
      | ok line =>
        rw [blocks, if_neg fun hdeeper => h (decide_eq_true hdeeper)]

/-- `readFile` reads the lines after a header as `run` does in one pass. -/
theorem readFile_eq_run {header : Line} {lines : List ReadLine} {namespaces : Namespaces}
    (hheader : readHeader header = .ok namespaces) :
    (readFile (.ok header :: lines)).toOption =
      ((Scan.start namespaces).run lines).map Scan.table := by
  have hdeeper : ∀ line, .ok line ∈ lines.takeWhile (isDeeper 0) → 1 ≤ line.depth := by
    intro line hline
    have hdepth : isDeeper 0 (.ok line) = true := List.mem_takeWhile_imp hline
    exact of_decide_eq_true hdepth
  have hproperties : Simulates false [] 1 (fun properties t => t = { namespaces, properties })
      (readLevel 1 readProperty ∅ (lines.takeWhile (isDeeper 0))).toOption
      ((Scan.start namespaces).run (lines.takeWhile (isDeeper 0))) :=
    simulates_readLevel
      (fun properties s line body hs _ _ hbody =>
        simulates_readProperty properties s line body hs hbody)
      rfl ⟨rfl, Nat.le_refl 1, nofun, rfl⟩ hdeeper (.inr ⟨rfl, rfl⟩)
  have hlines : (Scan.start namespaces).run lines =
      ((Scan.start namespaces).run (lines.takeWhile (isDeeper 0))).bind
        (·.run (lines.dropWhile (isDeeper 0))) := by
    rw [← Scan.run_append, List.takeWhile_append_dropWhile]
  rw [hlines, readFile, hheader, ok_bind, toOption_bind, toOption_within]
  generalize (readLevel 1 readProperty ∅ _).toOption = x at hproperties ⊢
  generalize (Scan.start namespaces).run (lines.takeWhile (isDeeper 0)) = y at hproperties ⊢
  cases hproperties with
  | none => rfl
  | @some properties s h =>
    -- an unindented line ends the properties, wherever the scan was
    have hbody : Simulates true [] 0
        (fun t t' => t.Obeys keyRules ∧ t.properties = properties ∧ t' = t)
        (readLevel 0 (readTopLevel (properties.contains escapedNames)) { namespaces, properties }
          (lines.dropWhile (isDeeper 0))).toOption
        (s.run (lines.dropWhile (isDeeper 0))) :=
      simulates_readLevel
        (fun t s line body hs _ hdepth hbody => simulates_readTopLevel s line body hs hdepth hbody)
        ⟨nofun, rfl, h.1⟩ ⟨Bool.or_true _, Nat.zero_le _, fun _ _ => Nat.zero_le _, rfl⟩
        (fun _ _ => Nat.zero_le _) (.inl (blocks_dropWhile lines))
    rw [Option.bind_some, Option.bind_some, toOption_within]
    generalize (readLevel 0 _ _ _).toOption = x at hbody ⊢
    generalize s.run _ = y at hbody ⊢
    cases hbody with
    | none => rfl
    | some h => exact congrArg some h.1.2.2.symm

/-- What `readInput` reads after a valid header is what one pass makes of the lines, which is `run`.
A line is refused by `step` exactly if it is not passed over and is too deep, or its row `Fails`: it
has the wrong number of fields, a bad index or a bad escape, or lacks a first name. -/
theorem readInput_eq_run {input : Input} {header : Line} {lines : List ReadLine}
    {namespaces : Namespaces} (hlines : readLines input.texts = .ok header :: lines)
    (hheader : readHeader header = .ok namespaces) :
    (readInput input).toOption = ((Scan.start namespaces).run lines).map Scan.table ∧
      ∀ (s : Scan) (line : Line), s.step line = none ↔
        s.ignores line.depth = false ∧ (s.limit < line.depth ∨
          (rowOf (s.inBody || line.depth == 0) (s.live.take line.depth) line).Fails s.table
            line.fields) := by
  refine ⟨?_, fun s line => Scan.step_eq_none_iff⟩
  rw [readInput, readTexts, hlines]
  exact readFile_eq_run hheader

/-- The header of a file. -/
def sampleHeader : Line := .ofText 1 "tiny\t2\t0\tofficial\tnamed"

/-- The lines after it, with a section that is passed over and a parameter with a comment. -/
def sampleLines : List ReadLine :=
  ["\tescaped-names", "c\ta\tMain", "\tv\tpassed over", "\t\t\twhatever it is", "\tm\t()V\tb\t",
    "\t\tp\t1\t\tcount", "\t\t\tc\tA comment.", "\tc\tAnother comment."].zipIdx.map
      fun (text, number) => .ok (.ofText (number + 2) text)

/-- The bytes of the file. -/
def sampleBytes : ByteArray :=
  ("tiny\t2\t0\tofficial\tnamed\n\tescaped-names\nc\ta\tMain\n\tv\tpassed over\n" ++
    "\t\t\twhatever it is\n\tm\t()V\tb\t\n\t\tp\t1\t\tcount\n\t\t\tc\tA comment.\n" ++
    "\tc\tAnother comment.\n").toUTF8

/-- The `sampleLines` are read in one pass after the `sampleHeader`. -/
theorem readInput_eq_run_sample :
    readLines (Input.texts { bytes := sampleBytes }) = .ok sampleHeader :: sampleLines ∧
      ∃ namespaces, readHeader sampleHeader = .ok namespaces ∧
        ∃ s, (Scan.start namespaces).run sampleLines = some s ∧
          (readInput { bytes := sampleBytes }).toOption = some s.table := by
  have hlines : readLines (Input.texts { bytes := sampleBytes }) =
      .ok sampleHeader :: sampleLines := by
    decide +kernel
  have hheader : readHeader sampleHeader =
      .ok { labels := ["official", "named"], valid := by decide } := by
    decide +kernel
  obtain ⟨s, hs⟩ := Option.isSome_iff_exists.1
    (show ((Scan.start { labels := ["official", "named"], valid := by decide }).run
      sampleLines).isSome = true by decide +kernel)
  have hread := (readInput_eq_run hlines hheader).1
  rw [hs] at hread
  exact ⟨hlines, _, hheader, s, hs, hread⟩

end Nested

end Format

end MappingTables
