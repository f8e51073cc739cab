import MappingTables.CommandLine.Command
import MappingTables.Java.Launcher

/-!
# Running commands

What the commands do and print, how notices are shown, and how the program exits.

* `Command.run`: carries out a command and gives what it prints.
* `execute`: runs the program with its arguments.
-/

namespace MappingTables

open Text

/-- The part of the program that a `Notice` comes from, by which it is shown. -/
def Notice.origin : Notice → String
  | dropped .. | unnamed .. => "tinymap::action::reorder"
  | completed .. => "tinymap::action::complete"
  | droppedParameters .. => "tinymap::tiny_v1"
  | conflict .. => "tinymap::action::merge"
  | merged .. => "loom_mappings"
  | otherGameVersion .. | extracting .. | cleanFailed .. | createFailed .. =>
    "loom_mappings::provider"
  | populating => "loom_mappings::field_names"
  | javaFailed => "loom_mappings::java"

/-- The word for a `Level` at the start of a line. -/
def Level.capitals : Level → String
  | debug => "DEBUG"
  | info => "INFO"
  | warn => "WARN"
  | error => "ERROR"

/-- How a `Notice` is shown. -/
def Notice.line (n : Notice) : String :=
  "[" ++ n.level.capitals ++ " " ++ n.origin ++ "] " ++ n.message

/-- Whether a `Notice` is shown: all of them are if `verbose` says so. -/
def Notice.isShown (verbose : Bool) (n : Notice) : Bool :=
  verbose || n.level != .debug

/-- How a `failure` is shown: what failed, and below it why. -/
def Failure.report (failure : Failure) : String :=
  match failure.parts with
  | [] => ""
  | [cause] => "Error: " ++ cause ++ "\n"
  | [outermost, cause] => "Error: " ++ outermost ++ "\n\nCaused by:\n    " ++ cause ++ "\n"
  | outermost :: causes =>
    "Error: " ++ outermost ++ "\n\nCaused by:\n" ++
      String.join (causes.zipIdx.map fun (cause, i) =>
        "    " ++ toString i ++ ": " ++ cause ++ "\n")

/-- The name by which a `Dialect` is shown. -/
def Format.Dialect.name : Format.Dialect → String
  | plain => "TinyV1"
  | nested => "TinyV2"

/-- How the numbers of entries in a `Count` are shown. -/
def Count.summary (c : Count) : String :=
  toString c.classes ++ " classes, " ++ toString c.fields ++ " fields, " ++
    toString c.methods ++ " methods, " ++ toString c.parameters ++ " parameters"

namespace CommandLine

/-- The table in a file at a `path` that was given as an argument, by `MappingsFile.read`. -/
def readArgument (path : String) : Action Table :=
  within (.readArgument path) (MappingsFile.read path)

/-- Writes a table to a file at a `path` that was given as an argument, by `MappingsFile.write`. -/
def writeArgument (dialect : Format.Dialect) (t : Table) (path : String) : Action Unit :=
  within (.writeArgument path) (MappingsFile.write dialect t path)

/-- The `lines` that are printed. -/
def printed (lines : List String) : String :=
  String.join (lines.map (· ++ "\n"))

/-- Carries out a `Command` with the Java of a launcher, and gives what it prints. -/
def Command.run (java : Java.Launcher) : Command → Action String
  | .setUp config classpath => do
    let p ← Artifact.Provider.setUp config (Artifact.stitchProposer java classpath)
    return printed ([p.mappingsPath, p.mappingsJar] ++ p.definitions?.toList)
  | .merge left right output dialect => do
    let l ← readArgument left
    let r ← readArgument right
    let (merged, conflicts) ← Action.ofNoted (l.merge r)
    Action.notice (.merged conflicts.length)
    writeArgument dialect merged output
    return ""
  | .reorder input labels output dialect => do
    let t ← readArgument input
    let reordered ← Action.ofNoted (t.reorder labels)
    writeArgument dialect reordered output
    return ""
  | .switch input label output dialect => do
    let t ← readArgument input
    let switched ← Action.ofNoted (t.switchSource label)
    writeArgument dialect switched output
    return ""
  | .detect input => do
    let dialect ← MappingsFile.detect input
    let t ← readArgument input
    return printed [dialect.name ++ " " ++ quoteList t.namespaces.labels, t.count.summary]

/-- How the program ends. -/
structure Outcome where
  /-- The code with which it exits. -/
  exit : Nat
  /-- What it prints, other than explanations of its usage. -/
  output : String := ""
  /-- The lines in which notices are shown. -/
  log : List String := []
  /-- How it failed, if it did. -/
  failure : Option Failure := none
deriving DecidableEq, Repr

/-- What the program prints when it is asked for its version. -/
def versionText : String :=
  "loom-mappings 0.1.0\n"

/-- Runs the program with its arguments on a `host` that has neither tables nor notices yet. -/
def execute (javaHome : Option String) (args : List String) (host : Host) : Outcome × Host :=
  match Invocation.ofArguments args with
  | .error .usage => ({ exit := 2 }, host)
  | .error .help => ({ exit := 0 }, host)
  | .error .version => ({ exit := 0, output := versionText }, host)
  | .ok invocation =>
    let (result, host) := (invocation.command.run (Java.Launcher.locate javaHome)).runFrom host
    let log := (host.notices.filter (Notice.isShown invocation.verbose)).map Notice.line
    match result with
    | .ok output => ({ exit := 0, output, log }, host)
    | .error failure => ({ exit := 1, log, failure := some failure }, host)

end CommandLine

end MappingTables
