import MappingTables.Files.OpenArchive

/-!
# Jars

A jar is an archive of which some members are read or written to files.

* `Jar.load`, `Jar.read?`, `Jar.extract`: reading from a jar.
* `Jar.writeSingle`: writing a jar.
-/

namespace MappingTables.Jar

/-- Opens the jar at a `path`. -/
def load (path : String) : Action OpenArchive :=
  Action.openArchive (.openJar path) (.readJar path) path

/-- The bytes of a `member` of a `jar`, if there is one of the name. -/
def read? (jar : OpenArchive) (member : String) : Action (Option ByteArray) := do
  if !jar.listing.contains member then return none
  let input ← within (.openMember member jar.path) (jar.member member)
  some <$> Step.ofExcept (within (.readMember member jar.path) input.all)

/-- Writes a `member` of a `jar` to a file. It is not an error if there is no such member. -/
def extract (jar : OpenArchive) (member target : String) : Action Bool := do
  match ← read? jar member with
  | none => return false
  | some bytes =>
    within (.writeFile target) (Action.write target (.bytes bytes))
    return true

/-- Writes a jar with one `member`, in the place of the file that is there. -/
def writeSingle (path member : String) (bytes : ByteArray) : Action Unit :=
  Action.writeIn (.createJar path) (.finishJar path) path
    (.archive ((∅ : Archive).insert member bytes))

end MappingTables.Jar
