/-!
# Escaped text

Comments, and names where the table asks for it, are written on one line and between tabs, so line
ends, tabs and null characters in them are written as a backslash and a letter.

* `escape` writes a text, `unescape` reads it back.
* `unescape` refuses a backslash that ends the text and one before any other character. A text
  without backslashes is not looked through any further.
-/

namespace MappingTables.Text

/-- Why an escaped text cannot be read. -/
inductive EscapeFault where
  /-- The text ends after a backslash that starts an escape. -/
  | unfinished
  /-- A backslash stands before a character that names no escape. -/
  | unknown (c : Char)
deriving DecidableEq, Repr

/-- The letter that stands for a character after a backslash. -/
def escapeLetter? : Char → Option Char
  | '\\' => some '\\'
  | '\n' => some 'n'
  | '\r' => some 'r'
  | '\t' => some 't'
  | '\x00' => some '0'
  | _ => none

/-- The character that a letter after a backslash stands for. -/
def escapedChar? : Char → Option Char
  | '\\' => some '\\'
  | 'n' => some '\n'
  | 'r' => some '\r'
  | 't' => some '\t'
  | '0' => some '\x00'
  | _ => none

/-- A character `c` as it is written in escaped text, after a backslash if `escapeLetter?` finds a
letter for it. -/
def escapeChar (c : Char) : List Char :=
  match escapeLetter? c with
  | some letter => ['\\', letter]
  | none => [c]

/-- The characters of a text in escaped form, each by `escapeChar`. -/
def escapeChars (s : List Char) : List Char :=
  s.flatMap escapeChar

/-- The text that escaped characters stand for. -/
def unescapeChars : List Char → Except EscapeFault (List Char)
  | [] => .ok []
  | '\\' :: rest =>
    match rest with
    | [] => .error .unfinished
    | letter :: rest =>
      match escapedChar? letter with
      | some c => (c :: ·) <$> unescapeChars rest
      | none => .error (.unknown letter)
  | c :: rest => (c :: ·) <$> unescapeChars rest

/-- A text in escaped form, by `escapeChars`. -/
def escape (s : String) : String :=
  String.ofList (escapeChars s.toList)

/-- The text that an escaped text stands for, by `unescapeChars` if there is a backslash in it. -/
def unescape (s : String) : Except EscapeFault String :=
  if '\\' ∈ s.toList then String.ofList <$> unescapeChars s.toList else .ok s

/-- Every letter that `escapeLetter?` finds names the character it is written for. -/
theorem escapedChar?_of_escapeLetter? {c letter : Char} (h : escapeLetter? c = some letter) :
    escapedChar? letter = some c := by
  unfold escapeLetter? at h
  split at h <;> simp_all [escapedChar?] <;> subst h <;> rfl

end MappingTables.Text
