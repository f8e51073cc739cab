import MappingTables.Format.Line

/-!
# Outlines

The nested dialect is an outline: a line belongs to the last line before it that is less deep. A
level of the outline is cut into blocks, each a line of that level with all deeper lines after it.

* `blocks`: the cut of a level.
* `readLevel`: reads the blocks of a level one after the other.

A line that could not be read is deeper than every other one, so it is found by whoever reads the
block in which it stands.
-/

namespace MappingTables.Format

/-- A line of a level with the deeper lines after it. -/
structure Block where
  head : Line
  body : List ReadLine

/-- Whether a line is deeper than the given `depth`. -/
def isDeeper (depth : Nat) : ReadLine → Bool
  | .ok line => depth < line.depth
  | .error _ => true

/-- The deeper lines than `depth` before the first block of a level, and its blocks. -/
def blocks (depth : Nat) : List ReadLine → List ReadLine × List Block
  | [] => ([], [])
  | .error cause :: rest => (.error cause :: (blocks depth rest).1, (blocks depth rest).2)
  | .ok line :: rest =>
    if depth < line.depth then (.ok line :: (blocks depth rest).1, (blocks depth rest).2)
    else ([], { head := line, body := (blocks depth rest).1 } :: (blocks depth rest).2)

/-- Checks that no deeper lines are left where one of the given `depth` has to follow. -/
def expectDepth (depth : Nat) : List ReadLine → Except Failure Unit
  | [] => .ok ()
  | .error cause :: _ => fail cause
  | .ok line :: _ => fail (.overIndented depth line.number)

/-- Passes over lines that nobody needs. They have to be read all the same. -/
def skip : List ReadLine → Except Failure Unit
  | [] => .ok ()
  | .error cause :: _ => fail cause
  | .ok _ :: rest => skip rest

/-- Reads a level block by block. What `readBlock` does with a line and the deeper lines after it is
done in the context of that line; it gives back the lines that it leaves unread. -/
def readLevel {σ : Type} (depth : Nat)
    (readBlock : σ → Line → List ReadLine → Except Failure (σ × List ReadLine))
    (start : σ) (lines : List ReadLine) : Except Failure σ := do
  expectDepth depth (blocks depth lines).1
  (blocks depth lines).2.foldlM (fun s block => do
    let (s, unread) ← within (.inLine block.head.number) (readBlock s block.head block.body)
    expectDepth depth unread
    return s) start

end MappingTables.Format
