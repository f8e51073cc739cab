import MappingTables.Text.Lines

/-!
# JSON

The metadata of artifacts is JSON. A `Json` value keeps what the metadata can ask for: of a number
only the natural number that it writes, if it writes one, and of a string its text, if it is one. A
string whose bytes or escapes stand for no text is still well-formed, and fine where nobody asks for
its text.

* `Json.ofBytes?`: the value that a document consists of.
-/

namespace MappingTables

/-- A JSON value. -/
inductive Json where
  | null
  | bool (value : Bool)
  | number (natural : Option Nat)
  | string (text : Option String)
  | array (items : List Json)
  | object (members : List (Option String × Json))

namespace Json

/-- Spaces, tabs and line ends. -/
def isBlank (b : UInt8) : Bool :=
  b == 0x20 || b == 0x0a || b == 0x0d || b == 0x09

/-- What follows the blanks in `bytes`: everything from the first byte that is not `isBlank`. -/
def skipBlanks (bytes : List UInt8) : List UInt8 :=
  bytes.dropWhile isBlank

/-- Whether a byte is a decimal digit. -/
def isDigit (b : UInt8) : Bool :=
  0x30 ≤ b && b ≤ 0x39

/-- The value of a hexadecimal digit. -/
def hexDigit? (b : UInt8) : Option Nat :=
  if isDigit b then some (b.toNat - 0x30)
  else if 0x61 ≤ b && b ≤ 0x66 then some (b.toNat - 0x57)
  else if 0x41 ≤ b && b ≤ 0x46 then some (b.toNat - 0x37)
  else none

/-- The number that four hexadecimal digits write. -/
def hexUnit? (b₀ b₁ b₂ b₃ : UInt8) : Option Nat := do
  return 4096 * (← hexDigit? b₀) + 256 * (← hexDigit? b₁) + 16 * (← hexDigit? b₂) + (← hexDigit? b₃)

/-- What a letter after a backslash stands for. -/
def escapedByte? (b : UInt8) : Option UInt8 :=
  if b = 0x22 ∨ b = 0x5c ∨ b = 0x2f then some b
  else if b = 0x62 then some 0x08
  else if b = 0x66 then some 0x0c
  else if b = 0x6e then some 0x0a
  else if b = 0x72 then some 0x0d
  else if b = 0x74 then some 0x09
  else none

/-- The bytes of the character with the code point `n`. -/
def codePointBytes (n : Nat) : List UInt8 :=
  String.utf8EncodeChar (Char.ofNat n)

/-- A part of a string. -/
inductive Piece where
  /-- A byte that stands for itself. -/
  | byte (b : UInt8)
  /-- A 16-bit unit that is given by its number. -/
  | unit (n : Nat)

/-- The pieces up to the quote that ends a string, and what follows it. -/
def readPieces : List UInt8 → Option (List Piece × List UInt8)
  | [] => none
  | b :: rest =>
    if b = 0x22 then some ([], rest)
    else if b < 0x20 then none
    else if b = 0x5c then
      match rest with
      | 0x75 :: b₀ :: b₁ :: b₂ :: b₃ :: rest =>
        match hexUnit? b₀ b₁ b₂ b₃ with
        | some n => (readPieces rest).map fun (pieces, rest) => (.unit n :: pieces, rest)
        | none => none
      | letter :: rest =>
        match escapedByte? letter with
        | some b => (readPieces rest).map fun (pieces, rest) => (.byte b :: pieces, rest)
        | none => none
      | [] => none
    else (readPieces rest).map fun (pieces, rest) => (.byte b :: pieces, rest)

/-- The bytes that pieces stand for. A unit of the upper surrogates has to be followed by one of the
lower surrogates, and no other one may be a surrogate. -/
def pieceBytes : List Piece → Option (List UInt8)
  | [] => some []
  | .byte b :: rest => (b :: ·) <$> pieceBytes rest
  | .unit n :: rest =>
    if 0xd800 ≤ n ∧ n < 0xdc00 then
      match rest with
      | .unit m :: rest =>
        if 0xdc00 ≤ m ∧ m < 0xe000 then
          (codePointBytes (0x10000 + 0x400 * (n - 0xd800) + (m - 0xdc00)) ++ ·) <$> pieceBytes rest
        else none
      | _ => none
    else if 0xdc00 ≤ n ∧ n < 0xe000 then none
    else (codePointBytes n ++ ·) <$> pieceBytes rest

/-- The rest of a string after its first quote: its text, if the pieces that `readPieces` finds
stand for one, and what follows. -/
def readString (bytes : List UInt8) : Option (Option String × List UInt8) :=
  (readPieces bytes).map fun (pieces, rest) => ((pieceBytes pieces).bind Text.decode?, rest)

/-- What follows the digits, of which there has to be one. -/
def skipDigits (bytes : List UInt8) : Option (List UInt8) :=
  match bytes with
  | b :: rest => if isDigit b then some (rest.dropWhile isDigit) else none
  | [] => none

/-- What follows a fraction, if there is one. -/
def skipFraction (bytes : List UInt8) : Option (List UInt8) :=
  match bytes with
  | 0x2e :: rest => skipDigits rest
  | _ => some bytes

/-- What follows an exponent, if there is one. -/
def skipExponent (bytes : List UInt8) : Option (List UInt8) :=
  match bytes with
  | b :: rest =>
    if b = 0x65 ∨ b = 0x45 then
      match rest with
      | 0x2b :: rest => skipDigits rest
      | 0x2d :: rest => skipDigits rest
      | rest => skipDigits rest
    else some bytes
  | [] => some []

/-- A number without its sign: the natural number that it writes, if it has neither a fraction nor
an exponent, and what follows. No digit may follow a leading zero. -/
def readUnsigned (bytes : List UInt8) : Option (Option Nat × List UInt8) := do
  let digits := bytes.takeWhile isDigit
  let afterDigits := bytes.dropWhile isDigit
  if digits = [] ∨ (digits.head? = some 0x30 ∧ digits.length ≠ 1) then none
  let rest ← skipExponent (← skipFraction afterDigits)
  let value := digits.foldl (fun n b => 10 * n + (b.toNat - 0x30)) 0
  return (if rest.length = afterDigits.length then some value else none, rest)

/-- A number, and what follows. A negative one writes no natural number. -/
def readNumber (bytes : List UInt8) : Option (Json × List UInt8) :=
  match bytes with
  | 0x2d :: rest => (readUnsigned rest).map fun (_, rest) => (.number none, rest)
  | _ => (readUnsigned bytes).map fun (n, rest) => (.number n, rest)

mutual

/-- A value, and what follows. The first argument bounds the number of steps. -/
def readValue : Nat → List UInt8 → Option (Json × List UInt8)
  | 0, _ => none
  | steps + 1, bytes =>
    match skipBlanks bytes with
    | 0x6e :: 0x75 :: 0x6c :: 0x6c :: rest => some (.null, rest)
    | 0x74 :: 0x72 :: 0x75 :: 0x65 :: rest => some (.bool true, rest)
    | 0x66 :: 0x61 :: 0x6c :: 0x73 :: 0x65 :: rest => some (.bool false, rest)
    | 0x22 :: rest => (readString rest).map fun (text, rest) => (.string text, rest)
    | 0x5b :: rest =>
      match skipBlanks rest with
      | 0x5d :: rest => some (.array [], rest)
      | rest => (readItems steps rest).map fun (items, rest) => (.array items, rest)
    | 0x7b :: rest =>
      match skipBlanks rest with
      | 0x7d :: rest => some (.object [], rest)
      | rest => (readMembers steps rest).map fun (members, rest) => (.object members, rest)
    | bytes => readNumber bytes

/-- The items up to the end of an array, at least one, and what follows. -/
def readItems : Nat → List UInt8 → Option (List Json × List UInt8)
  | 0, _ => none
  | steps + 1, bytes =>
    match readValue steps bytes with
    | none => none
    | some (item, rest) =>
      match skipBlanks rest with
      | 0x5d :: rest => some ([item], rest)
      | 0x2c :: rest => (readItems steps rest).map fun (items, rest) => (item :: items, rest)
      | _ => none

/-- The members up to the end of an object, at least one, and what follows. -/
def readMembers : Nat → List UInt8 → Option (List (Option String × Json) × List UInt8)
  | 0, _ => none
  | steps + 1, bytes =>
    match skipBlanks bytes with
    | 0x22 :: rest =>
      match readString rest with
      | none => none
      | some (key, rest) =>
        match skipBlanks rest with
        | 0x3a :: rest =>
          match readValue steps rest with
          | none => none
          | some (value, rest) =>
            match skipBlanks rest with
            | 0x7d :: rest => some ([(key, value)], rest)
            | 0x2c :: rest =>
              (readMembers steps rest).map fun (members, rest) => ((key, value) :: members, rest)
            | _ => none
        | _ => none
    | _ => none

end

/-- The value that a document consists of. Every second step consumes a byte, so there are enough
of them. -/
def ofBytes? (bytes : ByteArray) : Option Json :=
  match readValue (2 * bytes.size + 2) bytes.data.toList with
  | some (value, rest) => if skipBlanks rest = [] then some value else none
  | none => none

end Json

end MappingTables
