/-!
# Arguments

A `Grammar` says which options and operands a command takes, and reads a list of arguments by the
usual rules: `--name value` and `--name=value`, `-n value`, `-nvalue` and `-n=value`, several short
flags after one dash, and nothing but operands after `--`. An argument that starts with a dash is
never a value unless it is attached to its option; a dash alone is an ordinary argument.

* `Grammar.read`: reads all arguments.
* `Grammar.readGlobal`: reads the arguments before the name of a command.
-/

namespace MappingTables.CommandLine

/-- What a value has to be. -/
inductive Expected where
  /-- A path, which is not empty. -/
  | path
  /-- Any text. -/
  | text
  /-- One of certain words. -/
  | oneOf (words : List String)
deriving DecidableEq, Repr

/-- Whether a value is as `Expected`. -/
def Expected.admits : Expected → String → Bool
  | path, value => value != ""
  | text, _ => true
  | oneOf words, value => words.contains value

/-- What an option is for. -/
inductive OptionKind where
  /-- It is there or not. -/
  | flag
  /-- It has one value. -/
  | single (expected : Expected)
  /-- It has values, separated by commas, and can be given several times. -/
  | many (expected : Expected)
  /-- It asks for an explanation. -/
  | help
  /-- It asks for the version of the program. -/
  | version
deriving DecidableEq, Repr

/-- An option that a command takes. -/
structure OptionForm where
  /-- The name after two dashes. -/
  name : String
  /-- The letter after one dash. -/
  letter : Option Char := none
  kind : OptionKind
deriving DecidableEq, Repr

/-- The options and operands that a command takes. -/
structure Grammar where
  options : List OptionForm
  /-- What the operands have to be, in order. All have to be there. -/
  operands : List Expected := []
deriving DecidableEq, Repr

/-- Why the arguments give nothing to be done. -/
inductive Stop where
  /-- They are not as they have to be. -/
  | usage
  /-- They ask for an explanation. -/
  | help
  /-- They ask for the version of the program. -/
  | version
deriving DecidableEq, Repr

/-- The arguments as far as they were read. -/
structure Arguments where
  /-- The names of the options, with their values. -/
  options : List (String × String) := []
  operands : List String := []
deriving DecidableEq, Repr

namespace Arguments

/-- Whether an option with a `name` was given. -/
def has (a : Arguments) (name : String) : Bool :=
  a.options.any (·.1 == name)

/-- The value of the option with a `name`, if it was given. -/
def value? (a : Arguments) (name : String) : Option String :=
  a.options.lookup name

/-- All values of the option with a `name`. -/
def values (a : Arguments) (name : String) : List String :=
  (a.options.filter (·.1 == name)).map Prod.snd

/-- Adds an option of a `form` without a value, which must not be given twice. -/
def addFlag (a : Arguments) (form : OptionForm) : Except Stop Arguments :=
  match form.kind with
  | .help => .error .help
  | .version => .error .version
  | .flag =>
    if a.has form.name then .error .usage
    else .ok { a with options := a.options ++ [(form.name, "")] }
  | .single _ | .many _ => .error .usage

/-- Adds an option with a `value`. Only one that can have many values can be given twice. -/
def addValue (a : Arguments) (form : OptionForm) (value : String) : Except Stop Arguments :=
  match form.kind with
  | .single expected =>
    if a.has form.name || !expected.admits value then .error .usage
    else .ok { a with options := a.options ++ [(form.name, value)] }
  | .many expected =>
    let values := (value.toList.splitOn ',').map String.ofList
    if values.all expected.admits then
      .ok { a with options := a.options ++ values.map (form.name, ·) }
    else .error .usage
  | .flag | .help | .version => .error .usage

/-- Adds `value` as an operand, if one is expected. -/
def addOperand (a : Arguments) (g : Grammar) (value : String) : Except Stop Arguments :=
  match g.operands[a.operands.length]? with
  | some expected =>
    if expected.admits value then .ok { a with operands := a.operands ++ [value] }
    else .error .usage
  | none => .error .usage

end Arguments

/-- What an argument leads to. -/
inductive Progress where
  /-- It is read. -/
  | done (a : Arguments)
  /-- The next argument is the value of the option. -/
  | awaits (form : OptionForm) (a : Arguments)
  /-- It is no option. -/
  | ordinary

/-- Whether an option of a `form` has a value. -/
def OptionForm.takesValue (form : OptionForm) : Bool :=
  match form.kind with
  | .single _ | .many _ => true
  | .flag | .help | .version => false

/-- Whether `arg` starts like an option. -/
def looksLikeOption (arg : String) : Bool :=
  match arg.toList with
  | '-' :: _ :: _ => true
  | _ => false

/-- What is attached to an option, without an equals sign before it. -/
def attachedValue : List Char → List Char
  | '=' :: value => value
  | value => value

namespace Grammar

/-- Reads the letters after one dash, for a command with the grammar `g`. -/
def readLetters (g : Grammar) (a : Arguments) : List Char → Except Stop Progress
  | [] => .ok (.done a)
  | c :: rest =>
    match g.options.find? (·.letter == some c) with
    | none => .error .usage
    | some form =>
      if form.takesValue then
        if rest = [] then .ok (.awaits form a)
        else (a.addValue form (String.ofList (attachedValue rest))).map .done
      else
        match a.addFlag form with
        | .ok a => g.readLetters a rest
        | .error stop => .error stop

/-- Reads what stands after two dashes, for a command with the grammar `g`. -/
def readLong (g : Grammar) (a : Arguments) (chars : List Char) : Except Stop Progress :=
  let name := String.ofList (chars.takeWhile (· ≠ '='))
  match g.options.find? (·.name == name) with
  | none => .error .usage
  | some form =>
    match chars.dropWhile (· ≠ '=') with
    | [] => if form.takesValue then .ok (.awaits form a) else (a.addFlag form).map .done
    | _ :: value =>
      if form.takesValue then (a.addValue form (String.ofList value)).map .done
      else .error .usage

/-- Reads one argument other than `--`. -/
def readOne (g : Grammar) (a : Arguments) (arg : String) : Except Stop Progress :=
  match arg.toList with
  | '-' :: '-' :: chars => g.readLong a chars
  | '-' :: c :: chars => g.readLetters a (c :: chars)
  | _ => .ok .ordinary

/-- Reads all arguments, for a command with the grammar `g`. -/
def readAll (g : Grammar) (a : Arguments) : List String → Except Stop Arguments
  | [] => .ok a
  | arg :: rest =>
    if arg = "--" then rest.foldlM (fun a operand => a.addOperand g operand) a
    else
      match g.readOne a arg with
      | .error stop => .error stop
      | .ok (.done a) => g.readAll a rest
      | .ok .ordinary =>
        match a.addOperand g arg with
        | .ok a => g.readAll a rest
        | .error stop => .error stop
      | .ok (.awaits form a) =>
        match rest with
        | [] => .error .usage
        | value :: rest =>
          if looksLikeOption value then .error .usage
          else
            match a.addValue form value with
            | .ok a => g.readAll a rest
            | .error stop => .error stop

/-- Reads all arguments by `readAll`; none of the operands may be missing. -/
def read (g : Grammar) (args : List String) : Except Stop Arguments := do
  let a ← g.readAll {} args
  if a.operands.length = g.operands.length then return a else throw .usage

/-- Reads the arguments up to the first one that is no option, of which there has to be one, with
the grammar `g`. -/
def readGlobal (g : Grammar) (a : Arguments) :
    List String → Except Stop (Arguments × String × List String)
  | [] => .error .usage
  | arg :: rest =>
    if arg = "--" then .error .usage
    else
      match g.readOne a arg with
      | .error stop => .error stop
      | .ok (.done a) => g.readGlobal a rest
      | .ok .ordinary => .ok (a, arg, rest)
      | .ok (.awaits ..) => .error .usage

end Grammar

end MappingTables.CommandLine
