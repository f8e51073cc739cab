import MappingTables.Format.Dialect
import MappingTables.Proofs.Format.Row
import MappingTables.Proofs.Text.LineEnds

/-!
# The dialect of what was written

* `detect_write_nested`: a table that is written in the nested dialect is read as such.
-/

namespace MappingTables

namespace Format

open Text

/-- What `Nested.write` wrote `detect` finds to be in the nested dialect. -/
theorem detect_write_nested {t : Table}
    (h : ∀ label ∈ t.namespaces.labels, Avoids ['\t', '\n', '\r'] label) :
    detect (Nested.write t).toUTF8 = .ok .nested := by
  have hheader : ∀ field ∈ "tiny" :: "2" :: "0" :: t.namespaces.labels,
      Avoids ['\t', '\n', '\r'] field := by
    have hwords : ∀ word ∈ ["tiny", "2", "0"], Avoids ['\t', '\n', '\r'] word := by decide
    exact List.forall_mem_append.2 ⟨hwords, h⟩
  have hrow : Avoids ['\n', '\r'] (row 0 ("tiny" :: "2" :: "0" :: t.namespaces.labels)) :=
    avoids_row (by decide) fun field hfield => (hheader field hfield).mono (by simp)
  -- only the first line counts, so what follows it can be any text
  obtain ⟨rest, hrest⟩ : ∃ rest, Nested.write t =
      row 0 ("tiny" :: "2" :: "0" :: t.namespaces.labels) ++ "\n" ++ rest := by
    exact ⟨_, String.join_cons ..⟩
  have hfields : fields (row 0 ("tiny" :: "2" :: "0" :: t.namespaces.labels)) =
      "tiny" :: "2" :: "0" :: t.namespaces.labels := by
    rw [row, List.replicate_zero, String.ofList_nil, String.empty_append]
    exact fields_intercalate (List.cons_ne_nil _ _) fun field hfield =>
      (hheader field hfield).mono (by simp)
  have hline : readHeaderLine { bytes := (Nested.write t).toUTF8 } =
      .ok (row 0 ("tiny" :: "2" :: "0" :: t.namespaces.labels)) := by
    rw [readHeaderLine, Input.header, hrest, headerLine?_toUTF8,
      firstLine_append (hrow.mono (by simp)), dropLineEnd_of_avoids hrow]
    rfl
  rw [detect, detectInput, hline, ok_bind, Dialect.detect, dropLineEnd_of_avoids hrow, hfields]
  rfl

/-- `read` reads a file in the dialect that `detect` finds. -/
theorem read_eq_ok_iff {bytes : ByteArray} {t : Table} :
    read bytes = .ok t ↔ ∃ dialect, detect bytes = .ok dialect ∧ dialect.read bytes = .ok t :=
  bind_eq_ok_iff

end Format

end MappingTables
