import MappingTables.Host
import MappingTables.Java.Version

/-!
# Launching Java programs

A launcher runs programs with one Java installation, after a check of its version where a program
asks for one.

* `Launcher.checkVersion`: whether the installation is new enough.
* `Launcher.launch`: runs a program, which has to succeed.
-/

namespace MappingTables.Java

/-- What is run: a class on a classpath, or a jar. -/
inductive Entry where
  | mainClass (name : String) (classpath : List String)
  | jar (path : String)
deriving DecidableEq, Repr

/-- How a Java program is run. -/
structure Program where
  entry : Entry
  /-- The arguments of Java itself. -/
  javaArguments : List String := []
  /-- The arguments of the program. -/
  arguments : List String := []
  /-- The lowest major version of Java that the program can be run with. -/
  minVersion : Option Nat := none
deriving DecidableEq, Repr

/-- The arguments of Java that say what `Entry` to run. -/
def Entry.arguments : Entry → List String
  | mainClass name classpath => ["-classpath", ":".intercalate classpath, name]
  | jar path => ["-jar", path]

/-- All arguments of Java for a `program`. -/
def Program.allArguments (program : Program) : List String :=
  program.javaArguments ++ program.entry.arguments ++ program.arguments

/-- A Java installation, by the command that starts it. -/
structure Launcher where
  command : String := "java"
deriving DecidableEq, Repr

namespace Launcher

/-- The Java installation below the directory `javaHome`. -/
def ofHome (javaHome : String) : Launcher :=
  { command := Path.join javaHome "bin/java" }

/-- The Java installation that the environment names as `javaHome`, or else the one of the
system. -/
def locate (javaHome : Option String) : Launcher :=
  (javaHome.map ofHome).getD {}

/-- Checks that the major version of Java is at least `required`. -/
def checkVersion (launcher : Launcher) (required : Nat) : Action Unit := do
  let response ← within (.runProgram [launcher.command, "-version"])
    (Action.run launcher.command ["-version"])
  match Text.decode? response.stderr.data.toList with
  | none =>
    within (.versionOutput (response.stderr.data.toList.map UInt8.toNat)) (fail .notUtf8)
  | some output =>
    let version ← Step.ofExcept (within .javaVersion (majorVersion output))
    if version < required then fail (.javaTooOld launcher.command version required)

/-- Runs a `program`, which has to exit successfully. -/
def launch (launcher : Launcher) (program : Program) : Action Unit := do
  if let some required := program.minVersion then
    launcher.checkVersion required
  let response ← within (.startProgram launcher.command)
    (Action.run launcher.command program.allArguments)
  if response.exit ≠ 0 then
    Action.notice .javaFailed
    fail .programFailed

end Launcher

end MappingTables.Java
