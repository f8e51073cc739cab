import MappingTables.Text.Invisible

/-!
# Quoted text in messages

Messages show names, labels, paths and lists of them between quotes, so that a reader can see where
a text ends and what it consists of.

* `quote`: one text between double quotes.
* `quoteArgument`: a part of a command between double quotes.
* `quoteList`, `quotePairs`, `numberList`: lists in square brackets.
-/

namespace MappingTables.Text

/-- How a character is written between quotes: quotes, backslashes and the common controls with a
backslash, a character without a mark of its own by its number, and all others as they are. -/
def quotedChar (c : Char) : List Char :=
  match c with
  | '"' => ['\\', '"']
  | '\\' => ['\\', '\\']
  | '\n' => ['\\', 'n']
  | '\r' => ['\\', 'r']
  | '\t' => ['\\', 't']
  | '\x00' => ['\\', '0']
  | c =>
    if isInvisible c then ['\\', 'u', '\x7b'] ++ Nat.toDigits 16 c.toNat ++ ['\x7d'] else [c]

/-- How a character is written in a part of a command: as in other texts, but a single quote has a
backslash as well, and an ASCII control is given by two digits. -/
def quotedArgumentChar (c : Char) : List Char :=
  if c = '\'' then ['\\', '\'']
  else if c.toNat < 0x10 ∧ c ∉ ['\n', '\r', '\t'] then ['\\', 'x', '0'] ++ Nat.toDigits 16 c.toNat
  else if c.toNat < 0x20 ∧ c ∉ ['\n', '\r', '\t'] ∨ c.toNat = 0x7f then
    ['\\', 'x'] ++ Nat.toDigits 16 c.toNat
  else quotedChar c

/-- The text `s` between double quotes, each character by `quotedChar`. -/
def quote (s : String) : String :=
  String.ofList ('"' :: s.toList.flatMap quotedChar ++ ['"'])

/-- What stands for a part of a command that no program can be given. -/
def unusableArgument : String :=
  "<string-with-nul>"

/-- A part of a command as it is given to a program: one with a NUL is an `unusableArgument`. -/
def givenArgument (s : String) : String :=
  if '\x00' ∈ s.toList then unusableArgument else s

/-- A part of a command between double quotes, each character of the `givenArgument` by
`quotedArgumentChar`. -/
def quoteArgument (s : String) : String :=
  String.ofList ('"' :: (givenArgument s).toList.flatMap quotedArgumentChar ++ ['"'])

/-- The `items` in square brackets, separated by commas. -/
def bracketed (items : List String) : String :=
  "[" ++ ", ".intercalate items ++ "]"

/-- A list of quoted `texts`. -/
def quoteList (texts : List String) : String :=
  bracketed (texts.map quote)

/-- A list of `pairs` of quoted texts. -/
def quotePairs (pairs : List (String × String)) : String :=
  bracketed (pairs.map fun (a, b) => "(" ++ quote a ++ ", " ++ quote b ++ ")")

/-- A list of `numbers`. -/
def numberList (numbers : List Nat) : String :=
  bracketed (numbers.map toString)

example : quoteArgument "it's\x07" = "\"it\\'s\\x07\"" := by decide +kernel

end MappingTables.Text
