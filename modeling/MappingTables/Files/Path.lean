/-!
# Paths

Paths are texts whose parts are separated by slashes. Empty parts and those that are a single dot
say nothing, but for a dot at the start of a relative path.

* `Path.form`: what a path consists of; two paths with the same form are the same.
* `Path.join`, `Path.fileName?`, `Path.absolute`: paths made of others.
-/

namespace MappingTables.Path

/-- What a path consists of. -/
structure Form where
  /-- Whether it starts at the root. -/
  fromRoot : Bool
  /-- Whether it starts with a single dot. -/
  fromHere : Bool
  /-- Its parts that are neither empty nor a single dot. -/
  parts : List String
deriving DecidableEq, Repr

/-- Whether a `path` starts at the root. -/
def isAbsolute (path : String) : Bool :=
  path.toList.head? == some '/'

/-- Whether a `path` ends with a slash. -/
def endsWithSlash (path : String) : Bool :=
  path.toList.getLast? == some '/'

/-- All that stands between the slashes of a `path`. -/
def pieces (path : String) : List String :=
  (path.toList.splitOn '/').map String.ofList

/-- What stands last in a `path`, slashes apart. -/
def lastPiece? (path : String) : Option String :=
  ((pieces path).filter (· ≠ "")).getLast?

/-- The parts of a `path` that are neither empty nor a single dot. -/
def parts (path : String) : List String :=
  (pieces path).filter fun p => p ≠ "" ∧ p ≠ "."

/-- What a `path` consists of. -/
def form (path : String) : Form where
  fromRoot := isAbsolute path
  fromHere := (pieces path).head? == some "."
  parts := parts path

/-- Whether a `path` can only be that of a directory. -/
def namesDirectory (path : String) : Bool :=
  endsWithSlash path || lastPiece? path == some "."

/-- A `path` below another one. An absolute path stands for itself. -/
def join (base path : String) : String :=
  if isAbsolute path then path
  else if base = "" ∨ endsWithSlash base then base ++ path
  else base ++ "/" ++ path

/-- The last part of a `path`, if it is a name. -/
def fileName? (path : String) : Option String :=
  (parts path).getLast?.filter (· ≠ "..")

/-- The paths of the directories that a `path` leads through, the last one first. They are spelled
as in the path. -/
def ancestors (path : String) : List String :=
  let pieces := pieces path
  let ends := (List.range pieces.length).filter fun i =>
    (pieces[i]?.filter fun p => p ≠ "" ∧ p ≠ ".").isSome
  ends.dropLast.reverse.map fun i => "/".intercalate (pieces.take (i + 1))

/-- The `path` of the directory in which a path leads to something. It is empty if there is none but
the one at which paths start. -/
def parent (path : String) : String :=
  (ancestors path).headD ""

/-- An absolute path for a path, without a look at the files. `..` stays as it is, and so does a
slash at the end, and two slashes at the start of an absolute path. The empty path has none. -/
def absolute? (workingDirectory path : String) : Option String :=
  if path = "" then none
  else
    let root :=
      match path.toList with
      | '/' :: '/' :: '/' :: _ => "/"
      | '/' :: '/' :: _ => "//"
      | '/' :: _ => "/"
      | _ => workingDirectory
    let full := (parts path).foldl join root
    some (if endsWithSlash path then join full "" else full)

example : ancestors "a//./b/../c/." = ["a//./b/..", "a//./b", "a"] := by decide +kernel

example : absolute? "/w" "./a//b/../c/" = some "/w/a/b/../c/" := by decide +kernel

end MappingTables.Path
