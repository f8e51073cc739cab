import MappingTables.Packing.Fault
import MappingTables.Text.Numeral
import MappingTables.Text.Quoted

/-!
# Failures

Every operation that can fail does so with a `Failure`: a `Cause`, which says what went wrong, and
the contexts in which it went wrong, the outermost first. Causes and contexts are data, so a caller
can react to them; their wording is given here and nowhere else.
-/

namespace MappingTables

open Text

/-- Why the operating system refuses a file operation or to start a program. -/
inductive SystemError where
  | notFound
  | permissionDenied
  | alreadyExists
  | notADirectory
  | isADirectory
  | nameTooLong
  /-- What is to be removed is the directory itself, seen from inside. -/
  | invalidArgument
  /-- A file that can be started is no program. -/
  | notAProgram
  /-- A path contains a NUL. -/
  | nulInPath
  /-- A part of a command contains a NUL. -/
  | nulInCommand
  /-- A command has more or longer arguments than are taken. -/
  | argumentsTooLong
  /-- There is no room for what is written. -/
  | noSpace
deriving DecidableEq, Repr

/-- The wording of a `SystemError`. -/
def SystemError.message : SystemError → String
  | notFound => "No such file or directory (os error 2)"
  | permissionDenied => "Permission denied (os error 13)"
  | alreadyExists => "File exists (os error 17)"
  | notADirectory => "Not a directory (os error 20)"
  | isADirectory => "Is a directory (os error 21)"
  | nameTooLong => "File name too long (os error 36)"
  | invalidArgument => "Invalid argument (os error 22)"
  | notAProgram => "Exec format error (os error 8)"
  | nulInPath => "file name contained an unexpected NUL byte"
  | nulInCommand => "nul byte found in provided data"
  | argumentsTooLong => "Argument list too long (os error 7)"
  | noSpace => "No space left on device (os error 28)"

/-- The kinds of entries that are keyed by a name. -/
inductive EntryKind where
  | classEntry
  | field
  | method
deriving DecidableEq, Repr

/-- The word for an `EntryKind`. -/
def EntryKind.word : EntryKind → String
  | classEntry => "class"
  | field => "field"
  | method => "method"

/-- What a session was asked to do when it was found closed. -/
inductive SessionAction where
  | createTags
  | readInputs
  | readClasspath
  | remap
  | close
deriving DecidableEq, Repr

/-- The words for a `SessionAction`, what a session was asked to do. -/
def SessionAction.words : SessionAction → String
  | createTags => "create input tags"
  | readInputs => "read inputs"
  | readClasspath => "read the classpath"
  | remap => "remap"
  | close => "close"

/-- What went wrong. -/
inductive Cause where
  -- namespaces and names
  | noNamespaces
  | emptyNamespace (labels : List String)
  | repeatedNamespace (label : String) (labels : List String)
  | namespaceNotFound (label : String) (available : List String)
  | unexpectedNamespaces (expected actual : List String)
  | noSlots
  | noFirstName
  | emptyName
  | slotCount (found : Nat) (labels : List String)
  -- entries of a table
  | duplicateKey
  | noClass (name : String)
  | noClassName (position : Nat) (name : String)
  -- dialects and their lines
  | unsupportedFormat (header : String)
  | undecodable
  | noHeader
  | overIndented (depth line : Nat)
  | missingField (line : Nat)
  | surplusFields (line : Nat)
  | fieldCount (line expected : Nat) (found : List String)
  | unfinishedEscape (text : String)
  | unknownEscape (char : Char) (text : String)
  | numeral (fault : NumeralFault)
  | unknownEntryKind (word : String)
  | conflictingRows (kind : EntryKind)
  -- actions on tables
  | openDescriptor (descriptor : String)
  | noRequest (labels : List String)
  | repeatedRequest (requested : List String) (label : String)
  | incompatibleTables (left right shared : List String)
  | unjoinable (location : String)
  | completedFromItself (label : String)
  -- files and archives
  | system (error : SystemError)
  | emptyPath
  | notAnArchive
  | unpacking (fault : Packing.Fault)
  | repeatedMember
  | memberNotFound
  | notUtf8
  | malformedJson
  -- artifacts
  | noMappings (member jar : String)
  | unsupportedUnpickVersion (version : Option Nat)
  | noUnpickGroup
  | noUnpickVersion
  | needsMergedJar
  -- remapping sessions
  | sessionClosed (action : SessionAction)
  | remappingStarted
  | viewCount (found : Nat)
  | inputCount (inputs : List String) (tag : Nat)
  | nothingLoaded
  -- Java programs
  | noVersionLine (output : String)
  | noVersionField (line : String)
  | unquotedVersion (field : String)
  | javaTooOld (command : String) (version required : Nat)
  | programFailed
  | nothingProposed (base out : String)
  -- reported by the caller's own code
  | reported (message : String)
deriving DecidableEq, Repr

/-- The wording of a `Cause`. -/
def Cause.message : Cause → String
  | noNamespaces => "there must be at least one namespace"
  | emptyNamespace labels =>
    "found empty namespace name in " ++ quoteList labels ++
      ", every namespace name must be non-empty"
  | repeatedNamespace label labels =>
    "namespace " ++ quote label ++ " appears more than once in " ++ quoteList labels
  | namespaceNotFound label available =>
    "cannot find namespace " ++ quote label ++ ", only got " ++ quoteList available
  | unexpectedNamespaces expected actual =>
    "expected namespaces " ++ quoteList expected ++ ", got " ++ quoteList actual
  | noSlots => "no namespaces, therefore no name in the first namespace"
  | noFirstName => "no name for the first namespace"
  | emptyName => "cannot create names where an existing name is an empty string"
  | slotCount found labels =>
    "got " ++ toString found ++ " names, but the mappings have " ++ toString labels.length ++
      " namespaces: " ++ quoteList labels
  | duplicateKey => "cannot add child"
  | noClass name => "no entry for class " ++ quote name
  | noClassName position name =>
    "no name for namespace Namespace(" ++ toString position ++ ") for class " ++ quote name
  | unsupportedFormat header =>
    "unsupported mapping format: header " ++ quote header ++ " matches no known dialect"
  | undecodable => "stream did not contain valid UTF-8"
  | noHeader => "no header line"
  | overIndented depth line =>
    "expected an indentation of " ++ toString depth ++ " for line " ++ toString line
  | missingField line => "expected another field in line " ++ toString line
  | surplusFields line => "line " ++ toString line ++ " contained more fields than expected"
  | fieldCount line expected found =>
    "line " ++ toString line ++ " contained more or less fields (" ++ toString found.length ++
      ") than the expected " ++ toString expected ++ ": " ++ quoteList found
  | unfinishedEscape text => "unterminated escape sequence at the end of " ++ quote text
  | unknownEscape char text =>
    "unknown escape sequence \\" ++ String.singleton char ++ " in " ++ quote text
  | numeral fault => fault.message
  | unknownEntryKind word => "unknown entry kind " ++ quote word
  | conflictingRows kind => "conflicting entries for " ++ kind.word
  | openDescriptor descriptor =>
    "descriptor " ++ quote descriptor ++ " has a missing semicolon somewhere"
  | noRequest labels => "cannot reorder " ++ quoteList labels ++ " to no namespaces at all"
  | repeatedRequest requested label =>
    "cannot reorder to " ++ quoteList requested ++ ": namespace " ++ quote label ++
      " is requested more than once"
  | incompatibleTables left right shared =>
    "cannot merge mappings with namespaces " ++ quoteList left ++ " and " ++ quoteList right ++
      ": expected exactly one shared namespace, got " ++ quoteList shared
  | unjoinable location =>
    "cannot merge " ++ location ++
      ": it has no name in the shared namespace, but its key is used on both sides"
  | completedFromItself label => "cannot complete namespace " ++ quote label ++ " from itself"
  | system error => error.message
  | emptyPath => "cannot make an empty path absolute"
  | notAnArchive => "zip error"
  | unpacking fault => fault.message
  | repeatedMember => "zip error"
  | memberNotFound => "specified file not found in archive"
  | notUtf8 => "utf8 error"
  | malformedJson => "json error"
  | noMappings member jar => "no mappings at " ++ quote member ++ " in " ++ quote jar
  | unsupportedUnpickVersion none =>
    "unsupported operation: unsupported unpick version None"
  | unsupportedUnpickVersion (some version) =>
    "unsupported operation: unsupported unpick version Some(" ++ toString version ++ ")"
  | noUnpickGroup => "unpick metadata is missing the unpick group"
  | noUnpickVersion => "unpick metadata is missing the unpick version"
  | needsMergedJar => "unsupported operation: tiny v1 mappings only support a merged game jar"
  | sessionClosed action =>
    "illegal state: cannot " ++ action.words ++ ", the remap session is closed"
  | remappingStarted => "illegal state: cannot read inputs as remapping has already started"
  | viewCount found =>
    "a tiny-remapper process takes exactly one mappings provider, got " ++ toString found
  | inputCount inputs tag =>
    "a tiny-remapper process remaps exactly one input per output, got " ++ quoteList inputs ++
      " for InputTag(" ++ toString tag ++ ")"
  | nothingLoaded => "no mappings were loaded"
  | noVersionLine output => "expected a line on stderr, got " ++ quote output
  | noVersionField line =>
    "expected third item (space separated) of " ++ quote line ++ " to exist"
  | unquotedVersion field =>
    "expected version string to start with \" and end with \", got " ++ quote field
  | javaTooOld command version required =>
    "java found as " ++ quote command ++ " is of major version " ++ toString version ++
      ", expected at least major version " ++ toString required
  | programFailed => "java program"
  | nothingProposed base out =>
    "proposing field names for " ++ quote base ++ " didn't write " ++ quote out
  | reported message => message

/-- Where in a file of the nested dialect a section stands. -/
inductive NestedSection where
  | headerProperties
  | table
  | belowClass
  | belowField
  | belowMethod
  | belowParameter
deriving DecidableEq, Repr

/-- In what an operation was engaged when something went wrong. -/
inductive Context where
  -- reading and writing files of mappings
  | onLine (line : Nat)
  | inLine (line : Nat)
  | inSection (s : NestedSection)
  | namesOnLine (line : Nat)
  | parameterIndex
  | notPlain
  | notNested
  | headerLine
  | headerNamespaces (header : String)
  | openMappings (path : String)
  | readMappings (path : String)
  | readPlain (path : String)
  | readNested (path : String)
  | detectFormat (path : String)
  | createMappings (path : String)
  | writeMappings (path : String)
  -- archives
  | openArchive (path : String)
  | readArchive (path : String)
  | archiveMember (member path : String)
  | readArchiveMember (member path : String)
  | readMappingsMember (member path : String)
  | openJar (path : String)
  | readJar (path : String)
  | openMember (member jar : String)
  | readMember (member jar : String)
  | createJar (path : String)
  | finishJar (path : String)
  | writeFile (path : String)
  -- actions on tables
  | renameNamespaces
  | renameTable (labels : List String) (pairs : List (String × String))
  | reorderEntry (kind : EntryKind)
  | switchSource (labels : List String) (label : String)
  | switchLeft
  | switchRight
  | reorderMerged
  -- identity and the service
  | readSource (path : String)
  | buildTable (key : String)
  -- artifacts
  | setUp (name version : String)
  | inspect (jar : String)
  | mappingsText
  | createWorkingDirectory (path : String)
  | removeFile (path : String)
  | readFile (path : String)
  | unpickMetadata
  | inMember (member jar : String)
  | parseMember (member jar : String)
  | readIntermediary (path : String)
  | mergeIntermediary (base intermediary : String)
  | mergedNamespaces
  -- remapping sessions
  | loadViews
  | makeAbsolute (path : String)
  | remapTo (output : String)
  | createDirectory (path : String)
  -- Java programs
  | runProgram (command : List String)
  | versionOutput (bytes : List Nat)
  | javaVersion
  | versionNumber (number version : String)
  | startProgram (command : String)
  | proposeNames (base : String)
  -- the command line
  | readArgument (path : String)
  | writeArgument (path : String)
deriving DecidableEq, Repr

/-- The wording of a `NestedSection`. -/
def NestedSection.message : NestedSection → String
  | headerProperties => "reading header properties"
  | table => "reading lines"
  | belowClass => "reading class sub-sections"
  | belowField => "reading field sub-sections"
  | belowMethod => "reading method sub-sections"
  | belowParameter => "reading parameter sub-sections"

/-- The wording of a `Context`. -/
def Context.message : Context → String
  | onLine line => "on line " ++ toString line
  | inLine line => "in line " ++ toString line
  | inSection s => s.message
  | namesOnLine line => "failed to read names on line " ++ toString line
  | parameterIndex => "parameter index must be a number"
  | notPlain => "header version isn't tiny v1"
  | notNested => "header version isn't tiny v2.0"
  | headerLine => "failed to read the header line"
  | headerNamespaces header => "invalid namespaces in header " ++ quote header
  | openMappings path => "failed to open mappings file " ++ quote path
  | readMappings path => "failed to read mappings file " ++ quote path
  | readPlain path => "failed to read mappings file " ++ quote path ++ " as tiny v1 file"
  | readNested path => "failed to read mappings file " ++ quote path ++ " as tiny v2 file"
  | detectFormat path => "failed to detect the format of mappings file " ++ quote path
  | createMappings path => "failed to create mappings file " ++ quote path
  | writeMappings path => "failed to write mappings file " ++ quote path
  | openArchive path => "failed to open archive " ++ quote path
  | readArchive path => "failed to read archive " ++ quote path
  | archiveMember member path => "no entry " ++ quote member ++ " in archive " ++ quote path
  | readArchiveMember member path =>
    "failed to read entry " ++ quote member ++ " of archive " ++ quote path
  | readMappingsMember member path =>
    "failed to read mappings from entry " ++ quote member ++ " of archive " ++ quote path
  | openJar path => "failed to open jar " ++ quote path
  | readJar path => "failed to read jar " ++ quote path
  | openMember member jar =>
    "failed to open entry " ++ quote member ++ " of jar " ++ quote jar
  | readMember member jar =>
    "failed to read entry " ++ quote member ++ " of jar " ++ quote jar
  | createJar path => "failed to create jar " ++ quote path
  | finishJar path => "failed to finish writing jar " ++ quote path
  | writeFile path => "failed to write " ++ quote path
  | renameNamespaces => "failed to rename namespaces"
  | renameTable labels pairs =>
    "cannot rename namespaces " ++ quoteList labels ++ " with " ++ quotePairs pairs
  | reorderEntry kind => "failed to reorder " ++ kind.word
  | switchSource labels label =>
    "failed to switch source namespace of " ++ quoteList labels ++ " to " ++ quote label
  | switchLeft => "failed to switch the left mappings to the shared namespace"
  | switchRight => "failed to switch the right mappings to the shared namespace"
  | reorderMerged => "failed to reorder the merged mappings"
  | readSource path => "failed to read mapping source " ++ quote path
  | buildTable key => "failed to build mappings for " ++ quote key
  | setUp name version => "failed to setup mappings " ++ name ++ ":" ++ version
  | inspect jar => "failed to inspect mappings in " ++ quote jar
  | mappingsText => "mappings are not UTF-8"
  | createWorkingDirectory path => "failed to create working directory " ++ quote path
  | removeFile path => "failed to remove " ++ quote path
  | readFile path => "failed to read " ++ quote path
  | unpickMetadata => "failed to parse unpick metadata"
  | inMember member jar => "in " ++ quote member ++ " of " ++ quote jar
  | parseMember member jar => "failed to parse " ++ quote member ++ " of " ++ quote jar
  | readIntermediary path => "failed to read intermediary mappings " ++ quote path
  | mergeIntermediary base intermediary =>
    "failed to merge " ++ quote base ++ " with intermediary mappings " ++ quote intermediary
  | mergedNamespaces => "unexpected namespaces after merging with intermediary"
  | loadViews => "failed to give the mappings to the remapper"
  | makeAbsolute path => "failed to make " ++ quote path ++ " absolute"
  | remapTo output => "failed to remap to " ++ quote output
  | createDirectory path => "failed to create " ++ quote path
  | runProgram command => "failed to run " ++ " ".intercalate (command.map quoteArgument)
  | versionOutput bytes => "stderr of is not UTF-8: " ++ numberList bytes
  | javaVersion => "failed to get java version"
  | versionNumber number version =>
    "failed to parse " ++ quote number ++ " of java version " ++ quote version
  | startProgram command => "failed to start " ++ quote (givenArgument command)
  | proposeNames base => "failed to propose field names for " ++ quote base
  | readArgument path => "failed to read mappings from " ++ quote path
  | writeArgument path => "failed to write mappings to " ++ quote path

/-- What went wrong, and in which contexts. -/
structure Failure where
  /-- The contexts, the outermost first. -/
  contexts : List Context
  /-- What went wrong in the innermost context. -/
  cause : Cause
deriving DecidableEq, Repr

namespace Failure

/-- A `cause` that no context is known for yet. -/
def ofCause (cause : Cause) : Failure :=
  { contexts := [], cause }

/-- The `failure` seen from one more `context`. -/
def within (context : Context) (failure : Failure) : Failure :=
  { failure with contexts := context :: failure.contexts }

/-- The wordings of the contexts of a `failure` and of its cause, one after the other. -/
def parts (failure : Failure) : List String :=
  failure.contexts.map Context.message ++ [failure.cause.message]

/-- The whole message of a `failure`: its `parts`. -/
def message (failure : Failure) : String :=
  ": ".intercalate failure.parts

end Failure

section Monad

variable {m : Type → Type} {α : Type}

/-- Fail for a `cause`. -/
def fail [MonadExceptOf Failure m] (cause : Cause) : m α :=
  throw (Failure.ofCause cause)

/-- Carry out an `operation` in a `context`: if it fails, the failure is seen from that context. -/
def within [MonadExceptOf Failure m] (context : Context) (operation : m α) : m α :=
  tryCatch operation fun failure => throw (failure.within context)

end Monad

/-- A success is the same `within` every context. -/
@[simp]
theorem within_ok {α : Type} (context : Context) (a : α) :
    within context (Except.ok a : Except Failure α) = .ok a :=
  rfl

/-- A failure that is met `within` a context is seen from it. -/
@[simp]
theorem within_error {α : Type} (context : Context) (failure : Failure) :
    within context (Except.error failure : Except Failure α) = .error (failure.within context) :=
  rfl

/-- `within` changes neither whether an operation succeeds nor what it gives. -/
theorem within_eq_ok_iff {α : Type} {context : Context} {x : Except Failure α} {a : α} :
    within context x = .ok a ↔ x = .ok a := by
  cases x <;> simp

end MappingTables
