import MappingTables.Format.Nested
import MappingTables.Proofs.Format.Outline
import MappingTables.Proofs.Format.Row

/-!
# The numbers of lines

Lines know their numbers, for messages. What is read from them otherwise does not depend on numbers,
so a file can be compared with lines that nobody has numbered.

* `Nested.toOption_readFile_map_unnumbered`: the numbers of lines do not matter to a file.
* `map_unnumbered_readLines`: the lines of a file without their numbers.
-/

namespace MappingTables.Format

open Text

namespace Line

/-- `next` gives a field that does not depend on the number of the line. -/
@[simp]
theorem toOption_next_unnumbered (line : Line) :
    line.unnumbered.next.toOption = line.next.toOption.map (Prod.map id unnumbered) := by
  obtain ⟨number, depth, head, fields⟩ := line
  cases fields <;> rfl

/-- `only` gives a field that does not depend on the number of the line. -/
@[simp]
theorem toOption_only_unnumbered (line : Line) :
    line.unnumbered.only.toOption = line.only.toOption := by
  obtain ⟨number, depth, head, fields⟩ := line
  rcases fields with _ | ⟨field, _ | ⟨field', fields⟩⟩ <;> rfl

/-- `names` gives names that do not depend on the number of the line. -/
@[simp]
theorem toOption_names_unnumbered (line : Line) (size : Nat) (escaped : Bool) :
    (line.unnumbered.names size escaped).toOption = (line.names size escaped).toOption :=
  toOption_congr fun names => by rw [names_eq_ok_iff, names_eq_ok_iff, unnumbered]

/-- `ofText` does not read the number from the text. -/
theorem unnumbered_ofText (number : Nat) (text : String) :
    (ofText number text).unnumbered = ofText 0 text := by
  unfold ofText
  dsimp only
  split <;> rfl

end Line

/-- `readLines` gives lines that, `unnumbered`, are what is read from their texts. -/
theorem map_unnumbered_readLines (texts : List (Except Cause String)) :
    (readLines texts).map unnumbered = texts.map fun text => text.map (Line.ofText 0) := by
  rw [readLines, List.map_map]
  calc (texts.zipIdx 1).map _
      = (texts.zipIdx 1).map ((fun text => text.map (Line.ofText 0)) ∘ Prod.fst) := by
        refine List.map_congr_left fun e _ => ?_
        obtain ⟨text, number⟩ := e
        cases text with
        | error cause => rfl
        | ok text => exact congrArg Except.ok (Line.unnumbered_ofText number text)
    _ = texts.map fun text => text.map (Line.ofText 0) := by
        rw [← List.map_map, List.zipIdx_map_fst]

namespace Nested

/-- `readComment` reads a comment that does not depend on the number of the line. -/
@[simp]
theorem toOption_readComment_unnumbered (line : Line) :
    (readComment line.unnumbered).toOption = (readComment line).toOption := by
  simp only [readComment, toOption_bind, Line.toOption_only_unnumbered]

/-- `readBelowLeaf`, below an entry without members, `IgnoresNumbers`. -/
theorem ignoresNumbers_readBelowLeaf {α : Type} (addComment : α → String → α) :
    IgnoresNumbers (readBelowLeaf addComment) := by
  intro a line body
  unfold readBelowLeaf
  rw [show line.unnumbered.head = line.head from rfl]
  split
  · simp only [toOption_bind, toOption_readComment_unnumbered]
    cases (readComment line).toOption <;> rfl
  · simp only [toOption_bind, toOption_skip_map_unnumbered]
    cases (skip body).toOption <;> rfl

/-- `readParameter` reads a parameter that does not depend on the number of the line. -/
@[simp]
theorem toOption_readParameter_unnumbered (size : Nat) (escaped : Bool) (line : Line) :
    (readParameter size escaped line.unnumbered).toOption =
      (readParameter size escaped line).toOption := by
  simp only [readParameter, toOption_bind, toOption_within, Line.toOption_next_unnumbered,
    Option.bind_map, Function.comp_def, Prod.map, id, Line.toOption_names_unnumbered]

/-- `readBelowMethod` `IgnoresNumbers`. -/
theorem ignoresNumbers_readBelowMethod (size : Nat) (escaped : Bool) :
    IgnoresNumbers (readBelowMethod size escaped) := by
  intro m line body
  unfold readBelowMethod
  rw [show line.unnumbered.head = line.head from rfl]
  split
  · simp only [toOption_bind, toOption_readParameter_unnumbered, toOption_within,
      readBelowParameter,
      (ignoresNumbers_readBelowLeaf _).readLevel, Option.map_bind, Function.comp_def]
    rfl
  · simp only [toOption_bind, toOption_readComment_unnumbered]
    cases (readComment line).toOption <;> rfl
  · simp only [toOption_bind, toOption_skip_map_unnumbered]
    cases (skip body).toOption <;> rfl

/-- `readBelowClass` `IgnoresNumbers`. -/
theorem ignoresNumbers_readBelowClass (size : Nat) (escaped : Bool) :
    IgnoresNumbers (readBelowClass size escaped) := by
  intro c line body
  unfold readBelowClass
  rw [show line.unnumbered.head = line.head from rfl]
  split
  · simp only [toOption_bind, Line.toOption_next_unnumbered, Option.bind_map, Function.comp_def,
      Prod.map, id, Line.toOption_names_unnumbered, toOption_within,
      readBelowField,
      (ignoresNumbers_readBelowLeaf _).readLevel, Option.map_bind]
    rfl
  · simp only [toOption_bind, Line.toOption_next_unnumbered, Option.bind_map, Function.comp_def,
      Prod.map, id, Line.toOption_names_unnumbered, toOption_within,
      (ignoresNumbers_readBelowMethod size escaped).readLevel, Option.map_bind]
    rfl
  · simp only [toOption_bind, toOption_readComment_unnumbered]
    cases (readComment line).toOption <;> rfl
  · simp only [toOption_bind, toOption_skip_map_unnumbered]
    cases (skip body).toOption <;> rfl

/-- `readTopLevel` `IgnoresNumbers`. -/
theorem ignoresNumbers_readTopLevel (escaped : Bool) :
    IgnoresNumbers (readTopLevel escaped) := by
  intro t line body
  unfold readTopLevel
  rw [show line.unnumbered.head = line.head from rfl]
  split
  · simp only [toOption_bind, Line.toOption_names_unnumbered, toOption_within,
      (ignoresNumbers_readBelowClass t.namespaces.size escaped).readLevel, Option.map_bind,
      Function.comp_def]
    rfl
  · simp only [toOption_bind, toOption_skip_map_unnumbered]
    cases (skip body).toOption <;> rfl

/-- `readProperty` `IgnoresNumbers`. -/
theorem ignoresNumbers_readProperty : IgnoresNumbers readProperty :=
  fun _ _ _ => rfl

/-- `readHeader` reads namespaces that do not depend on the number of the line. -/
theorem toOption_readHeader_unnumbered (line : Line) :
    (readHeader line.unnumbered).toOption = (readHeader line).toOption := by
  unfold readHeader
  rw [show line.unnumbered.head = line.head from rfl,
    show line.unnumbered.fields = line.fields from rfl]
  split
  · rw [toOption_within, toOption_within]
  · rfl

/-- What `readFile` reads from lines, apart from messages, does not depend on their numbers. -/
theorem toOption_readFile_map_unnumbered (lines : List ReadLine) :
    (readFile (lines.map unnumbered)).toOption = (readFile lines).toOption := by
  cases lines with
  | nil => rfl
  | cons line lines =>
    cases line with
    | error cause => rfl
    | ok header =>
      -- depths are the same without numbers, so the properties end at the same line
      change (readFile (.ok header.unnumbered :: lines.map unnumbered)).toOption = _
      have hdeep : isDeeper 0 ∘ unnumbered = isDeeper 0 := funext (isDeeper_unnumbered 0)
      simp only [readFile, toOption_bind, toOption_within, toOption_readHeader_unnumbered,
        List.takeWhile_map, List.dropWhile_map, hdeep, ignoresNumbers_readProperty.readLevel,
        (ignoresNumbers_readTopLevel _).readLevel]

end Nested

end MappingTables.Format
