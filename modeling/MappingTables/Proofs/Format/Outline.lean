import Mathlib.Data.List.Basic
import MappingTables.Format.Outline
import MappingTables.Proofs.Sequencing

/-!
# Reading outlines

* `readLevel_sections`: a level that consists of sections is read section by section.
* `readLevel_induction`: what every block keeps is kept by reading a level.
* `IgnoresNumbers`: the numbers of lines are there for messages only.
-/

namespace MappingTables.Format

/-! ## Levels made of sections -/

/-- A line with the deeper lines below it. -/
structure Section where
  head : Line
  below : List Line

namespace Section

/-- All lines of a section: its `head` and what is `below` that. -/
def lines (sec : Section) : List Line :=
  sec.head :: sec.below

/-- Whether a section stands at a `depth`. -/
structure IsAt (depth : Nat) (sec : Section) : Prop where
  head : sec.head.depth = depth
  below : ∀ line ∈ sec.below, depth < line.depth

/-- The `Block` that a section is. -/
def block (sec : Section) : Block where
  head := sec.head
  body := sec.below.map .ok

end Section

/-- Lines deeper than `depth` belong to the block before them. -/
theorem blocks_append {depth : Nat} {deeper : List Line} (h : ∀ line ∈ deeper, depth < line.depth)
    (rest : List ReadLine) :
    blocks depth (deeper.map .ok ++ rest) =
      (deeper.map .ok ++ (blocks depth rest).1, (blocks depth rest).2) := by
  induction deeper with
  | nil => rfl
  | cons line deeper ih =>
    rw [List.map_cons, List.cons_append, blocks, if_pos (h line List.mem_cons_self),
      ih fun line' hline' => h line' (List.mem_cons_of_mem line hline')]
    rfl

/-- The `blocks` of a level that consists of sections are those sections. -/
theorem blocks_sections {depth : Nat} {sections : List Section}
    (h : ∀ sec ∈ sections, sec.IsAt depth) :
    blocks depth ((sections.flatMap Section.lines).map .ok) =
      ([], sections.map Section.block) := by
  induction sections with
  | nil => rfl
  | cons sec sections ih =>
    have hsec := h sec List.mem_cons_self
    rw [List.flatMap_cons, List.map_append, Section.lines, List.map_cons, List.cons_append, blocks,
      if_neg (Nat.not_lt.2 (Nat.le_of_eq hsec.head)), blocks_append hsec.below,
      ih fun sec' hsec' => h sec' (List.mem_cons_of_mem sec hsec')]
    simp [Section.block]

section Levels

variable {σ : Type} {depth : Nat} {s s' : σ}
  {readBlock : σ → Line → List ReadLine → Except Failure (σ × List ReadLine)}

/-- Reads one section of a level by `readBlock`. -/
def readSection (depth : Nat)
    (readBlock : σ → Line → List ReadLine → Except Failure (σ × List ReadLine))
    (s : σ) (sec : Section) : Except Failure σ := do
  let (s, unread) ← within (.inLine sec.head.number) (readBlock s sec.head (sec.below.map .ok))
  expectDepth depth unread
  return s

/-- `readSection` of a section that is read as a whole gives what `readBlock` gives for its
block. -/
theorem readSection_eq_ok {sec : Section}
    (h : readBlock s sec.head (sec.below.map .ok) = .ok (s', [])) :
    readSection depth readBlock s sec = .ok s' := by
  rw [readSection, h]
  rfl

/-- A level that consists of sections is read by `readSection`, one after the other. -/
theorem readLevel_sections {sections : List Section} (h : ∀ sec ∈ sections, sec.IsAt depth) :
    readLevel depth readBlock s ((sections.flatMap Section.lines).map .ok) =
      sections.foldlM (readSection depth readBlock) s := by
  rw [readLevel, blocks_sections h, List.foldlM_map]
  rfl

/-- The lines of `blocks` are lines of the level. -/
theorem mem_of_mem_blocks {lines : List ReadLine} :
    (∀ line ∈ (blocks depth lines).1, line ∈ lines) ∧
      ∀ block ∈ (blocks depth lines).2, .ok block.head ∈ lines ∧
        ∀ line ∈ block.body, line ∈ lines := by
  induction lines with
  | nil => exact ⟨nofun, nofun⟩
  | cons line lines ih =>
    have ih₁ : ∀ l ∈ (blocks depth lines).1, l ∈ line :: lines := fun l hl =>
      List.mem_cons_of_mem line (ih.1 l hl)
    have ih₂ : ∀ block ∈ (blocks depth lines).2,
        .ok block.head ∈ line :: lines ∧ ∀ l ∈ block.body, l ∈ line :: lines := fun block hblock =>
      ⟨List.mem_cons_of_mem line (ih.2 block hblock).1, fun l hl =>
        List.mem_cons_of_mem line ((ih.2 block hblock).2 l hl)⟩
    -- a line stands before the blocks or is the head of the first one
    cases line with
    | error cause =>
      refine ⟨fun l hl => ?_, ih₂⟩
      rcases List.mem_cons.1 hl with rfl | hl
      · exact List.mem_cons_self
      · exact ih₁ l hl
    | ok line =>
      rw [blocks]
      split
      · refine ⟨fun l hl => ?_, ih₂⟩
        rcases List.mem_cons.1 hl with rfl | hl
        · exact List.mem_cons_self
        · exact ih₁ l hl
      · refine ⟨nofun, fun block hblock => ?_⟩
        rcases List.mem_cons.1 hblock with rfl | hblock
        · exact ⟨List.mem_cons_self, ih₁⟩
        · exact ih₂ block hblock

/-- What holds at the start of a level and is kept by `readBlock`, for each block of it, holds when
`readLevel` comes to its end. -/
theorem readLevel_induction {lines : List ReadLine} (P : σ → Prop)
    (h : readLevel depth readBlock s lines = .ok s') (hstart : P s)
    (hblock : ∀ s line body s' unread, .ok line ∈ lines → (∀ l ∈ body, l ∈ lines) → P s →
      readBlock s line body = .ok (s', unread) → P s') : P s' := by
  obtain ⟨-, -, h⟩ := bind_eq_ok_iff.1 h
  refine foldlM_induction P h hstart fun block hmem s s' hs hstep => ?_
  obtain ⟨⟨s'', unread⟩, hread, hstep⟩ := bind_eq_ok_iff.1 hstep
  obtain ⟨-, -, hstep⟩ := bind_eq_ok_iff.1 hstep
  rw [pure_eq_ok_iff] at hstep
  subst hstep
  have hlines := mem_of_mem_blocks.2 block hmem
  exact hblock s block.head block.body s'' unread hlines.1 hlines.2 hs (within_eq_ok_iff.1 hread)

end Levels

/-! ## The numbers of lines -/

/-- The `line` with nothing known about its number. -/
def Line.unnumbered (line : Line) : Line :=
  { line with number := 0 }

/-- What was read in place of a `line`, with nothing known about its number. -/
def unnumbered (line : ReadLine) : ReadLine :=
  line.map Line.unnumbered

section Numbers

variable {σ α β : Type}

/-- Whether what `readBlock` reads from a block, apart from messages, does not depend on the numbers
of its lines. -/
def IgnoresNumbers (readBlock : σ → Line → List ReadLine → Except Failure (σ × List ReadLine)) :
    Prop :=
  ∀ s line body, (readBlock s line.unnumbered (body.map unnumbered)).toOption =
    (readBlock s line body).toOption.map (Prod.map id (List.map unnumbered))

/-- `isDeeper` does not look at numbers. -/
@[simp]
theorem isDeeper_unnumbered (depth : Nat) (line : ReadLine) :
    isDeeper depth (unnumbered line) = isDeeper depth line := by
  cases line <;> rfl

/-- The `blocks` of lines that are `unnumbered` are the same, unnumbered. -/
theorem blocks_map_unnumbered (depth : Nat) (lines : List ReadLine) :
    blocks depth (lines.map unnumbered) =
      ((blocks depth lines).1.map unnumbered, (blocks depth lines).2.map fun block =>
        { head := block.head.unnumbered, body := block.body.map unnumbered }) := by
  induction lines with
  | nil => rfl
  | cons line lines ih =>
    cases line with
    | error cause =>
      rw [List.map_cons, blocks, ← List.map_cons]
      change blocks depth (.error cause :: lines.map unnumbered) = _
      rw [blocks, ih]
      rfl
    | ok line =>
      change blocks depth (.ok line.unnumbered :: lines.map unnumbered) = _
      rw [blocks, blocks, ih]
      by_cases h : depth < line.depth
      · rw [if_pos h, if_pos (show depth < line.unnumbered.depth from h)]
        rfl
      · rw [if_neg h, if_neg (show ¬depth < line.unnumbered.depth from h)]
        rfl

/-- Whether `expectDepth` finds lines of the right depth does not depend on numbers. -/
@[simp]
theorem toOption_expectDepth_map_unnumbered (depth : Nat) (lines : List ReadLine) :
    (expectDepth depth (lines.map unnumbered)).toOption = (expectDepth depth lines).toOption := by
  cases lines with
  | nil => rfl
  | cons line lines => cases line <;> rfl

/-- Whether `skip` can pass over lines does not depend on numbers. -/
@[simp]
theorem toOption_skip_map_unnumbered (lines : List ReadLine) :
    (skip (lines.map unnumbered)).toOption = (skip lines).toOption := by
  induction lines with
  | nil => rfl
  | cons line lines ih =>
    cases line with
    | error cause => rfl
    | ok line => exact ih

/-- What `readLevel` reads does not depend on numbers if `readBlock` `IgnoresNumbers`. -/
theorem IgnoresNumbers.readLevel
    {readBlock : σ → Line → List ReadLine → Except Failure (σ × List ReadLine)}
    (h : IgnoresNumbers readBlock) (depth : Nat) (s : σ) (lines : List ReadLine) :
    (readLevel depth readBlock s (lines.map unnumbered)).toOption =
      (readLevel depth readBlock s lines).toOption := by
  rw [Format.readLevel, Format.readLevel, toOption_bind, toOption_bind, blocks_map_unnumbered,
    toOption_expectDepth_map_unnumbered, List.foldlM_map]
  refine congrArg _ (funext fun _ => toOption_foldlM_congr (fun s block => ?_) s)
  rw [toOption_bind, toOption_bind, toOption_within, toOption_within, h, Option.bind_map]
  refine congrArg _ (funext fun (s, unread) => ?_)
  simp only [Function.comp, Prod.map, id, toOption_bind, toOption_expectDepth_map_unnumbered]

end Numbers

end MappingTables.Format
