import MappingTables.Table

/-!
# Renaming namespaces

The namespaces of a table can be given other labels. All are relabelled at once, so labels can be
exchanged; the entries of the table are not touched.
-/

namespace MappingTables.Table

/-- The table with its namespaces renamed by `pairs` of old and new labels. -/
def rename (t : Table) (pairs : List (String × String)) : Except Failure Table := do
  return { t with namespaces := ← within .renameNamespaces (t.namespaces.rename pairs) }

end MappingTables.Table
