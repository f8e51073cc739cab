/-!
# Identifiers of artifacts

An artifact is identified by its name, the version of the game, its own version and a classifier.
The identifier names its working directory.
-/

namespace MappingTables

/-- The `classifier` part of an identifier: the artifact's own classifier if it has one, and a mark
for mappings in the nested dialect. -/
def classifierPart (classifier : Option String) (nested : Bool) : String :=
  (match classifier with
    | some classifier => "-" ++ classifier
    | none => "") ++ if nested then "-v2" else ""

/-- A text without an `ending`, if it has that ending. -/
def withoutEnding (ending s : String) : String :=
  if ending.toList.isSuffixOf s.toList then
    String.ofList (s.toList.take (s.toList.length - ending.toList.length))
  else s

/-- A game `version` as it appears in an identifier. -/
def gameVersionPart (version : String) : String :=
  String.ofList (version.toList.map fun c => if c = ' ' ∨ c = '.' ∨ c = '-' then '_' else c)

/-- The identifier of an artifact, which names its working directory, from its `name`, the version
of the game, its `version` and its `classifier`. An ending that marks the artifact as unmerged does
not count. -/
def identifier (name gameVersion version classifier : String) : String :=
  withoutEnding "-unmerged" name ++ "." ++ gameVersionPart gameVersion ++ "." ++
    version ++ classifier

end MappingTables
