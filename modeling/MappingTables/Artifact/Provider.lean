import MappingTables.Artifact.Inspection
import MappingTables.Artifact.Metadata
import MappingTables.Artifact.Proposer
import MappingTables.Complete
import MappingTables.Files.Jar
import MappingTables.Files.MappingsFile
import MappingTables.Identity.Identifier
import MappingTables.Merge
import MappingTables.Text.UpperCase

/-!
# Providing the mappings of an artifact

An artifact is a jar with mappings. It is set up in a working directory of its own, named by its
identifier, which then holds

* `mappings-base.tiny`: the mappings as they are in the jar,
* `mappings.tiny`: the mappings that are used, with the namespaces `intermediary`, `official` and
  `named`,
* `mappings.jar`: a jar with nothing but `mappings/mappings.tiny`,
* `mappings.unpick` and `unpick.json`: unpick definitions and their metadata, if the jar has both.

A `mappings.tiny` that is there already is trusted, unless everything is to be made anew. If
anything fails, the working directory is cleaned, so that the next attempt starts over.

* `Provider.setUp`: sets up the working directory.
* `Provider.mappings`: the table, shared by all who ask for it.
-/

namespace MappingTables.Artifact

/-- How the game is distributed. -/
inductive Game where
  /-- Client and server are merged into one jar. -/
  | merged (jar : String)
  /-- Client and server are separate jars. -/
  | split
deriving DecidableEq, Repr

/-- What is to be set up, and with what. -/
structure Config where
  /-- The jar with the mappings. -/
  jar : String
  /-- The name of the artifact. -/
  name : String
  version : String
  classifier : Option String := none
  gameVersion : String
  game : Game
  /-- The file with the mappings from `official` to `intermediary`. -/
  intermediary : String
  /-- The directory in which the working directories are. -/
  cacheRoot : String
  /-- Whether everything is made anew. -/
  refresh : Bool := false
deriving DecidableEq, Repr

/-- The mappings of an artifact, set up in a working directory. -/
structure Provider where
  identifier : String
  gameVersion : String
  workingDirectory : String
  /-- The metadata of the unpick definitions, if the artifact has some. -/
  unpick : Option UnpickMetadata := none
  /-- The corrected signatures of record classes, if the artifact has some. -/
  signatures : Option Signatures := none
deriving DecidableEq

/-- The member of a jar that holds the mappings. -/
def mappingsMember : String :=
  "mappings/mappings.tiny"

/-- The member of a jar that holds the unpick definitions. -/
def definitionsMember : String :=
  "extras/definitions.unpick"

/-- The member of a jar that holds the metadata of the unpick definitions. -/
def unpickMember : String :=
  "extras/unpick.json"

/-- The member of a jar that holds the signatures of record classes. -/
def signaturesMember : String :=
  "extras/record_signatures.json"

namespace Provider

/-- A file of the given `name` in the working directory. -/
def file (p : Provider) (name : String) : String :=
  Path.join p.workingDirectory name

/-- The mappings as they are in the jar: a `file` in the working directory. -/
def base (p : Provider) : String :=
  p.file "mappings-base.tiny"

/-- The mappings that are used: a `file` in the working directory. -/
def mappingsPath (p : Provider) : String :=
  p.file "mappings.tiny"

/-- The jar with nothing but the mappings: a `file` in the working directory. -/
def mappingsJar (p : Provider) : String :=
  p.file "mappings.jar"

/-- The unpick definitions: a `file` in the working directory. -/
def definitionsPath (p : Provider) : String :=
  p.file "mappings.unpick"

/-- The metadata of the unpick definitions: a `file` in the working directory. -/
def unpickPath (p : Provider) : String :=
  p.file "unpick.json"

/-- The unpick definitions at `definitionsPath`, if the artifact has some. -/
def definitions? (p : Provider) : Option String :=
  p.unpick.map fun _ => p.definitionsPath

/-- The provider for an artifact that a `config` asks for with mappings in a `dialect`, before
anything is set up. -/
def ofConfig (config : Config) (dialect : Format.Dialect) : Provider :=
  let identifier := MappingTables.identifier config.name config.gameVersion config.version
    (classifierPart config.classifier (dialect = .nested))
  { identifier
    gameVersion := config.gameVersion
    workingDirectory := Path.join config.cacheRoot identifier }

/-- Removes everything in a working `directory`. That this fails is only noticed. -/
def clean (directory : String) : Action Unit := do
  if ← Action.isPresent directory then
    if let .error e ← Action.attempt (·.removeDirectory directory) then
      Action.notice (.cleanFailed directory e.message)
  if let .error e ← Action.attempt (·.createDirectories directory) then
    Action.notice (.createFailed directory e.message)

/-- Writes the unpick `definitions` and their `metadata` to the working directory. -/
def storeUnpick (p : Provider) (config : Config) (definitions metadata : ByteArray) :
    Action UnpickMetadata := do
  within (.writeFile p.definitionsPath) (Action.write p.definitionsPath (.bytes definitions))
  within (.writeFile p.unpickPath) (Action.write p.unpickPath (.bytes metadata))
  Step.ofExcept (within (.inMember unpickMember config.jar) (UnpickMetadata.ofBytes metadata))

/-- Takes the unpick definitions out of the `jar`, if it has them and their metadata. -/
def takeUnpick (p : Provider) (config : Config) (jar : OpenArchive) :
    Action (Option UnpickMetadata) := do
  let definitions ← Jar.read? jar definitionsMember
  let metadata ← Jar.read? jar unpickMember
  match definitions, metadata with
  | some definitions, some metadata => some <$> p.storeUnpick config definitions metadata
  | _, _ => return none

/-- The signatures of record classes in the `jar`, if it has some. -/
def takeSignatures (config : Config) (jar : OpenArchive) : Action (Option Signatures) := do
  match ← Jar.read? jar signaturesMember with
  | some bytes =>
    some <$> Step.ofExcept
      (within (.parseMember signaturesMember config.jar) (readSignatures bytes))
  | none => return none

/-- The provider with what the `jar` has beside the mappings. -/
def withExtras (p : Provider) (config : Config) (jar : OpenArchive) : Action Provider := do
  let unpick ← p.takeUnpick config jar
  let signatures ← takeSignatures config jar
  return { p with unpick, signatures }

/-- The mappings of the jar merged with those from `official` to `intermediary`, in the namespaces
`intermediary`, `official` and `named`. Missing `named` names are taken from `intermediary`. -/
def mergeWithIntermediary (base intermediary : String) : Action Table := do
  let baseTable ← MappingsFile.read base
  let source ← Source.ofFile intermediary
  let shared ← within (.readIntermediary intermediary) (source.getOrRead "intermediary")
  let (merged, _) ← within (.mergeIntermediary base intermediary)
    (Action.ofNoted (shared.table.merge baseTable))
  Step.ofExcept (within .mergedNamespaces
    (merged.namespaces.expect ["intermediary", "official", "named"]))
  let (completed, _) ← Action.ofNoted (merged.complete "named" "intermediary")
  return completed

/-- Removes the mappings that are used, at `mappingsPath`, if they are there. -/
def removeMappings (p : Provider) : Action Unit := do
  if ← Action.isPresent p.mappingsPath then
    within (.removeFile p.mappingsPath) (Action.change (·.removeFile p.mappingsPath))

/-- Makes the mappings that are used from those of the jar. In the nested dialect these lack the
`official` names; in the plain dialect they lack names of fields, for which the game has to be in
one jar. -/
def makeMappings (p : Provider) (config : Config) (propose : FieldNameProposer) : Action Unit := do
  match ← MappingsFile.detect p.base with
  | .nested =>
    let merged ← mergeWithIntermediary p.base config.intermediary
    MappingsFile.write .nested merged p.mappingsPath
  | .plain =>
    match config.game with
    | .merged jar =>
      p.removeMappings
      propose jar p.base p.mappingsPath
    | .split => fail .needsMergedJar

/-- Takes everything out of the jar of a `config`, and makes the mappings that are used, in which
`propose` may have a part. -/
def storeMappings (p : Provider) (config : Config) (propose : FieldNameProposer) :
    Action Provider := do
  Action.notice (.extracting ((Path.fileName? config.jar).getD config.jar))
  let jar ← Jar.load config.jar
  if !(← Jar.extract jar mappingsMember p.base) then
    fail (.noMappings mappingsMember config.jar)
  let p ← p.withExtras config jar
  p.makeMappings config propose
  return p

/-- Writes the jar with nothing but the mappings, at `mappingsJar`. -/
def storeJar (p : Provider) : Action Unit := do
  if ← Action.isPresent p.mappingsJar then
    within (.removeFile p.mappingsJar) (Action.change (·.removeFile p.mappingsJar))
  let content ← within (.readFile p.mappingsPath) (Action.query (·.read p.mappingsPath))
  Jar.writeSingle p.mappingsJar mappingsMember content.toBytes

/-- Takes everything out of the jar by `storeMappings`, but leaves mappings alone that are there
already. -/
def takeMappings (p : Provider) (config : Config) (propose : FieldNameProposer) :
    Action Provider := do
  if !(← Action.isPresent p.mappingsPath) || config.refresh then p.storeMappings config propose
  else p.withExtras config (← Jar.load config.jar)

/-- Makes the working directory, which is cleaned by `clean` if everything is made anew. -/
def makeDirectory (p : Provider) (config : Config) : Action Unit := do
  if config.refresh then clean p.workingDirectory
  within (.createWorkingDirectory p.workingDirectory)
    (Action.createDirectories p.workingDirectory)

/-- Fills the working directory, by `makeDirectory`, `takeMappings` and `storeJar`. -/
def fillDirectory (p : Provider) (config : Config) (propose : FieldNameProposer) :
    Action Provider := do
  p.makeDirectory config
  let p ← p.takeMappings config propose
  if !(← Action.isPresent p.mappingsJar) || config.refresh then p.storeJar
  return p

/-- What the first lines of the mappings in a `jar` say. -/
def inspectJar (jar : String) : Action Inspection := do
  match ← Jar.read? (← Jar.load jar) mappingsMember with
  | none => fail (.noMappings mappingsMember jar)
  | some bytes => Step.ofExcept (within (.inspect jar) (Inspection.ofBytes bytes))

/-- Leaves a notice if the mappings were made for another version of the game, as the `inspection`
found. -/
def checkGameVersion (config : Config) (inspection : Inspection) : Action Unit := do
  if let some found := inspection.gameVersion then
    if found ≠ config.gameVersion then
      Action.notice (.otherGameVersion config.name config.version config.gameVersion found)

/-- Sets up an artifact in its working directory by `fillDirectory`; the directory is cleaned by
`clean` if that fails. -/
def setUp (config : Config) (propose : FieldNameProposer) : Action Provider := do
  let inspection ← inspectJar config.jar
  checkGameVersion config inspection
  let p := ofConfig config inspection.dialect
  tryCatch (p.fillDirectory config propose) fun failure => do
    clean p.workingDirectory
    throw (failure.within (.setUp config.name config.version))

/-- The key of the table of a `source` for the provider's version of the game. -/
def keyOf (p : Provider) (source : Source) : TableKey :=
  (TableKey.ofSource source).forGame p.gameVersion

/-- The table of the artifact under its `keyOf`, shared by all who ask for it. -/
def mappings (p : Provider) : Action SharedTable := do
  let source ← Source.ofFile p.mappingsPath
  Action.getOrCreate (p.keyOf source).text source.read

/-- The `name` of a service that remaps with the mappings of the artifact. -/
def serviceName (p : Provider) (name source target : String) : String :=
  name ++ ":" ++ p.identifier ++ ":" ++ source ++ ">" ++ Text.upperCase target

end Provider

end MappingTables.Artifact
