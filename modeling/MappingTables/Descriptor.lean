import MappingTables.Failure

/-!
# Descriptors

A descriptor is the type of a field or the signature of a method, such as `(I[La;)Lb;`. The class
names in it stand between an `L` and the semicolon after it; everything else is left alone when the
class names are changed.
-/

namespace MappingTables.Descriptor

/-- Changes the class names in the rest of a descriptor. `reading` is the part read so far, in
reverse, of the class name that the scan is in, if it is in one. There is no result if a class name
does not end. -/
def mapChars (f : List Char → List Char) : (reading : Option (List Char)) → List Char →
    Option (List Char)
  | none, [] => some []
  | none, c :: rest =>
    (c :: ·) <$> mapChars f (if c = 'L' then some [] else none) rest
  | some _, [] => none
  | some name, c :: rest =>
    if c = ';' then (f name.reverse ++ ';' :: ·) <$> mapChars f none rest
    else mapChars f (some (c :: name)) rest

/-- Changes the class names in a `descriptor`. -/
def map (f : String → String) (descriptor : String) : Except Failure String :=
  match mapChars (fun name => (f (String.ofList name)).toList) none descriptor.toList with
  | some chars => .ok (String.ofList chars)
  | none => fail (.openDescriptor descriptor)

example :
    mapChars (fun name => if name = ['a'] then ['B', 'c'] else name) none "(ILa;J)Lb;".toList =
      some "(ILBc;J)Lb;".toList := by
  decide +kernel

end MappingTables.Descriptor
