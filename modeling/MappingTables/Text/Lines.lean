/-!
# Lines

A line ends at a line feed, and a carriage return directly before that line feed belongs to the line
end. The text after the last line feed is a line if it is not empty. The same rule cuts the bytes of
a file and the characters of a text.
-/

namespace MappingTables.Text

variable {α : Type} [DecidableEq α]

/-- Cuts at each `feed`, leaving out a `ret` directly before it. -/
def cutLines (feed ret : α) : List α → List (List α)
  | [] => []
  | x :: xs =>
    if x = feed then [] :: cutLines feed ret xs
    else if x = ret ∧ xs.head? = some feed then cutLines feed ret xs
    else
      match cutLines feed ret xs with
      | [] => [[x]]
      | line :: lines => (x :: line) :: lines

/-- The lines of a text, by `cutLines`. -/
def lines (s : String) : List String :=
  (cutLines '\n' '\r' s.toList).map String.ofList

/-- The `bytes` as a text, if they are well-formed UTF-8. -/
def decode? (bytes : List UInt8) : Option String :=
  String.fromUTF8? ⟨bytes.toArray⟩

/-- The lines of a file's bytes. A line whose bytes are no text is `none`. -/
def fileLines (bytes : ByteArray) : List (Option String) :=
  (cutLines 0x0a 0x0d bytes.data.toList).map decode?

/-- The fields of a `line`, which are separated by tabs. There is always at least one. -/
def fields (line : String) : List String :=
  (line.toList.splitOn '\t').map String.ofList

/-- The text `s` without the line feeds and carriage returns at its end. -/
def dropLineEnd (s : String) : String :=
  String.ofList (s.toList.reverse.dropWhile fun c => c == '\n' || c == '\r').reverse

/-- The first line of a file's `bytes` without its line end, if it is a text. All carriage returns
at its end are left out, not only the last one. -/
def headerLine? (bytes : ByteArray) : Option String :=
  (decode? (bytes.data.toList.takeWhile (· != 0x0a))).map dropLineEnd

example : lines "a\r\n\nb\r" = ["a", "", "b\r"] := by decide +kernel

end MappingTables.Text
