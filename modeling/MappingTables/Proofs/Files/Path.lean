import Mathlib.Data.List.Basic
import MappingTables.Files.Path

/-!
# Parts of paths

* `IsName`: what can be the name of a file in a directory.
* `parts_join`: a file in a directory is one part further.
-/

namespace MappingTables.Path

/-- Whether `name` is a part of a path that leads one step down. -/
def IsName (name : String) : Prop :=
  name ≠ "" ∧ name ≠ "." ∧ name ≠ ".." ∧ '/' ∉ name.toList

instance (name : String) : Decidable (IsName name) :=
  inferInstanceAs (Decidable (_ ∧ _))

/-- The `pieces` of a path on both sides of a slash. -/
theorem pieces_of_toList {path : String} {before after : List Char}
    (h : path.toList = before ++ '/' :: after) :
    pieces path = pieces (String.ofList before) ++ pieces (String.ofList after) := by
  rw [pieces, h, List.splitOn_append_cons_self, List.map_append]
  simp [pieces]

namespace IsName

variable {name : String}

theorem pieces_eq (h : IsName name) : pieces name = [name] := by
  rw [pieces, List.splitOn_eq_singleton h.2.2.2]
  simp

theorem parts_eq (h : IsName name) : parts name = [name] := by
  rw [parts, h.pieces_eq]
  simp [h.1, h.2.1]

theorem not_isAbsolute (h : IsName name) : isAbsolute name = false := by
  rw [isAbsolute, beq_eq_false_iff_ne]
  intro hhead
  exact h.2.2.2 (List.mem_of_head? hhead)

end IsName

section Join

variable {base name : String}

theorem join_ne_empty (h : name ≠ "") : join base name ≠ "" := by
  rw [join]
  split
  · exact h
  · split
    · simp [h]
    · simp

/-- The characters of `join`, the path of a file in a directory: a slash stands before the name,
unless the path of the directory is empty. -/
theorem toList_join (h : IsName name) (hbase : base ≠ "") :
    ∃ before, (join base name).toList = before ++ '/' :: name.toList ∧
      parts (String.ofList before) = parts base := by
  rw [join, if_neg (by simp [h.not_isAbsolute])]
  by_cases hslash : endsWithSlash base = true
  · rw [if_pos (.inr hslash)]
    -- the slash at the end of the directory serves, and nothing stands between it and the end
    rw [endsWithSlash, beq_iff_eq, List.getLast?_eq_some_iff] at hslash
    obtain ⟨before, hbefore⟩ := hslash
    refine ⟨before, by rw [String.toList_append, hbefore]; simp, ?_⟩
    rw [parts, parts, pieces_of_toList hbefore, List.filter_append]
    simp [pieces]
  · rw [if_neg (by simp [hbase, hslash])]
    refine ⟨base.toList, ?_, by rw [String.ofList_toList]⟩
    rw [String.toList_append, String.toList_append, List.append_assoc]
    rfl

/-- `join` leads one part further. -/
theorem parts_join (h : IsName name) : parts (join base name) = parts base ++ [name] := by
  by_cases hbase : base = ""
  · subst hbase
    have hjoin : join "" name = name := by
      rw [join, if_neg (by simp [h.not_isAbsolute]), if_pos (.inl rfl), String.empty_append]
    rw [hjoin, h.parts_eq]
    rfl
  · obtain ⟨before, htoList, hparts⟩ := toList_join h hbase
    rw [parts, pieces_of_toList htoList, List.filter_append, String.ofList_toList]
    change parts (String.ofList before) ++ parts name = parts base ++ [name]
    rw [hparts, h.parts_eq]

theorem isAbsolute_join (h : IsName name) : isAbsolute (join base name) = isAbsolute base := by
  rw [join, if_neg (by simp [h.not_isAbsolute])]
  by_cases hbase : base = ""
  · subst hbase
    rw [if_pos (.inl rfl), String.empty_append, h.not_isAbsolute]
    rfl
  · have hhead : ∀ rest : String, isAbsolute (base ++ rest) = isAbsolute base := by
      intro rest
      rw [isAbsolute, isAbsolute, String.toList_append,
        List.head?_append_of_ne_nil _ (by simpa using hbase)]
    split
    · exact hhead name
    · rw [String.append_assoc]
      exact hhead _

end Join

end MappingTables.Path
