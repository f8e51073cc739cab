import MappingTables.Failure
import MappingTables.Text.Lines

/-!
# Versions of Java

A Java program that is asked for its version answers with some lines; the third word of the first
one is the version between quotes, as in `openjdk version "17.0.11" 2024-04-16`. Up to version 8 the
major version stands after a leading `1.`.
-/

namespace MappingTables.Java

open Text

/-- The text between a quote at the start of a `field` and one at the end. -/
def unquoted? (field : String) : Option String :=
  match field.toList with
  | '"' :: rest =>
    if rest.getLast? = some '"' then some (String.ofList rest.dropLast) else none
  | _ => none

/-- The part of a `version` that gives the major version. -/
def majorPart (version : String) : String :=
  let major (chars : List Char) : String := String.ofList (chars.takeWhile (· ≠ '.'))
  match version.toList with
  | '1' :: '.' :: rest => major rest
  | chars => major chars

/-- The major version in the `output` of a Java program, by `majorPart`. -/
def majorVersion (output : String) : Except Failure Nat := do
  match lines output with
  | [] => fail (.noVersionLine output)
  | line :: _ =>
    match ((line.toList.splitOn ' ').map String.ofList)[2]? with
    | none => fail (.noVersionField line)
    | some field =>
      match unquoted? field with
      | none => fail (.unquotedVersion field)
      | some version =>
        within (.versionNumber (majorPart version) version)
          ((readNumeral UInt16.size (majorPart version)).mapError fun fault =>
            .ofCause (.numeral fault))

end MappingTables.Java
