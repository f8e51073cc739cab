import MappingTables.Text.Lossy

/-!
# Names in archives

The names and comments in an archive are either UTF-8 or in a code page of 256 characters, of which
the first half are the ASCII characters.

* `Zip.decodeName`: the text of a name.
-/

namespace MappingTables.Zip

/-- The second half of the code page. -/
def highCharacters : Array Char := #[
    'Ç', 'ü', 'é', 'â', 'ä', 'à', 'å', 'ç', 'ê', 'ë', 'è', 'ï', 'î', 'ì', 'Ä', 'Å',
    'É', 'æ', 'Æ', 'ô', 'ö', 'ò', 'û', 'ù', 'ÿ', 'Ö', 'Ü', '¢', '£', '¥', '₧', 'ƒ',
    'á', 'í', 'ó', 'ú', 'ñ', 'Ñ', 'ª', 'º', '¿', '⌐', '¬', '½', '¼', '¡', '«', '»',
    '░', '▒', '▓', '│', '┤', '╡', '╢', '╖', '╕', '╣', '║', '╗', '╝', '╜', '╛', '┐',
    '└', '┴', '┬', '├', '─', '┼', '╞', '╟', '╚', '╔', '╩', '╦', '╠', '═', '╬', '╧',
    '╨', '╤', '╥', '╙', '╘', '╒', '╓', '╫', '╪', '┘', '┌', '█', '▄', '▌', '▐', '▀',
    'α', 'ß', 'Γ', 'π', 'Σ', 'σ', 'µ', 'τ', 'Φ', 'Θ', 'Ω', 'δ', '∞', 'φ', 'ε', '∩',
    '≡', '±', '≥', '≤', '⌠', '⌡', '÷', '≈', '°', '∙', '·', '√', 'ⁿ', '²', '■', '\u00a0']

example : highCharacters.size = 128 := by rfl

/-- A character of the code page. -/
def pageCharacter (byte : UInt8) : Char :=
  if byte < 0x80 then Char.ofNat byte.toNat else highCharacters.getD (byte.toNat - 0x80) ' '

/-- The text of a name. -/
def decodeName (isUnicode : Bool) (bytes : List UInt8) : String :=
  if isUnicode then Text.decodeLossy bytes else String.ofList (bytes.map pageCharacter)

end MappingTables.Zip
