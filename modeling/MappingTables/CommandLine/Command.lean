import MappingTables.Artifact.Provider
import MappingTables.CommandLine.Arguments

/-!
# Commands

What the program can be asked to do, and how it is asked.

* `Invocation.ofArguments`: the invocation that the arguments of the program stand for.
-/

namespace MappingTables.CommandLine

open Format

/-- What the program can be asked to do. -/
inductive Command where
  /-- Set up the working directory of an artifact. The paths are the classpath of the program that
  proposes names. -/
  | setUp (config : Artifact.Config) (classpath : List String)
  | merge (left right output : String) (dialect : Dialect)
  | reorder (input : String) (labels : List String) (output : String) (dialect : Dialect)
  | switch (input label output : String) (dialect : Dialect)
  | detect (input : String)
deriving DecidableEq, Repr

/-- One invocation of the program. -/
structure Invocation where
  /-- Whether notices of all levels are shown. -/
  verbose : Bool := false
  command : Command
deriving DecidableEq, Repr

/-- The option that asks for an explanation. -/
def helpForm : OptionForm where
  name := "help"
  letter := some 'h'
  kind := .help

/-- What can stand before the name of a command. -/
def globalGrammar : Grammar where
  options := [
    { name := "verbose", letter := some 'v', kind := .flag },
    { name := "version", letter := some 'V', kind := .version },
    helpForm]

/-- The options of a command that writes a file. -/
def outputForms : List OptionForm := [
  { name := "output", letter := some 'o', kind := .single .path },
  { name := "format", kind := .single (.oneOf ["v1", "v2"]) },
  helpForm]

/-- What `setup` takes. -/
def setUpGrammar : Grammar where
  options := [
    { name := "mappings-jar", kind := .single .path },
    { name := "name", kind := .single .text },
    { name := "mappings-version", kind := .single .text },
    { name := "classifier", kind := .single .text },
    { name := "game-version", kind := .single .text },
    { name := "merged-jar", kind := .single .path },
    { name := "intermediary", kind := .single .path },
    { name := "cache-root", kind := .single .path },
    { name := "stitch", kind := .many .path },
    { name := "refresh", kind := .flag },
    helpForm]

/-- What `merge` takes. -/
def mergeGrammar : Grammar where
  options := outputForms
  operands := [.path, .path]

/-- What `reorder` takes. -/
def reorderGrammar : Grammar where
  options := { name := "namespaces", kind := .many .text } :: outputForms
  operands := [.path]

/-- What `switch` takes. -/
def switchGrammar : Grammar where
  options := outputForms
  operands := [.path, .text]

/-- What `detect` takes. -/
def detectGrammar : Grammar where
  options := [helpForm]
  operands := [.path]

/-- The value of the option with a `name`, which has to be given. -/
def Arguments.required (a : Arguments) (name : String) : Except Stop String :=
  match a.value? name with
  | some value => .ok value
  | none => .error .usage

/-- The dialect in which a file is written by the arguments `a`: the nested one, if no other is
asked for. -/
def Arguments.dialect (a : Arguments) : Dialect :=
  if a.value? "format" = some "v1" then .plain else .nested

/-- The operand at a `position`. -/
def Arguments.operand (a : Arguments) (position : Nat) : Except Stop String :=
  match a.operands[position]? with
  | some value => .ok value
  | none => .error .usage

namespace Command

/-- The command that the arguments of `setup` stand for. -/
def ofSetUp (a : Arguments) : Except Stop Command := do
  return .setUp
    { jar := ← a.required "mappings-jar"
      name := ← a.required "name"
      version := ← a.required "mappings-version"
      classifier := a.value? "classifier"
      gameVersion := ← a.required "game-version"
      game :=
        match a.value? "merged-jar" with
        | some jar => .merged jar
        | none => .split
      intermediary := ← a.required "intermediary"
      cacheRoot := (a.value? "cache-root").getD ".cache/mappings"
      refresh := a.has "refresh" }
    (a.values "stitch")

/-- The command that the arguments of `merge` stand for. -/
def ofMerge (a : Arguments) : Except Stop Command := do
  return .merge (← a.operand 0) (← a.operand 1) (← a.required "output") a.dialect

/-- The command that the arguments of `reorder` stand for. -/
def ofReorder (a : Arguments) : Except Stop Command := do
  if !a.has "namespaces" then throw .usage
  return .reorder (← a.operand 0) (a.values "namespaces") (← a.required "output") a.dialect

/-- The command that the arguments of `switch` stand for. -/
def ofSwitch (a : Arguments) : Except Stop Command := do
  return .switch (← a.operand 0) (← a.operand 1) (← a.required "output") a.dialect

/-- The command that the arguments of `detect` stand for. -/
def ofDetect (a : Arguments) : Except Stop Command := do
  return .detect (← a.operand 0)

/-- The names of the commands. -/
def names : List String :=
  ["setup", "merge", "reorder", "switch", "detect", "help"]

/-- The command of a `name` that its arguments stand for. -/
def ofArguments (name : String) (args : List String) : Except Stop Command :=
  match name with
  | "setup" => setUpGrammar.read args >>= ofSetUp
  | "merge" => mergeGrammar.read args >>= ofMerge
  | "reorder" => reorderGrammar.read args >>= ofReorder
  | "switch" => switchGrammar.read args >>= ofSwitch
  | "detect" => detectGrammar.read args >>= ofDetect
  | "help" =>
    match args with
    | [] => .error .help
    | [topic] => if topic ∈ names then .error .help else .error .usage
    | _ => .error .usage
  | _ => .error .usage

end Command

/-- The invocation that the arguments `args` of the program stand for, by `readGlobal` and
`Command.ofArguments`. -/
def Invocation.ofArguments (args : List String) : Except Stop Invocation := do
  let (global, name, rest) ← globalGrammar.readGlobal {} args
  return { verbose := global.has "verbose", command := ← Command.ofArguments name rest }

end MappingTables.CommandLine
