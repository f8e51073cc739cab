import Mathlib.Data.List.Infix
import MappingTables.Proofs.Files.Path
import MappingTables.Proofs.Format.Row

/-!
# The way that a path leads

A path leads through the directories above what it names. Their paths are spelled as in the path.

* `Path.IsWay`: paths each of which leads one part further than the next one.
* `Path.isWay_ancestors`: the paths of the directories that a path leads through are such paths.
* `Path.IsNamed`: whether a path ends with the name of what is there.
-/

namespace MappingTables

namespace Path

/-! ## Paths of directories on the way -/

/-- Whether a `piece` of a path says something. -/
def IsPart (piece : String) : Prop :=
  piece ≠ "" ∧ piece ≠ "."

instance (piece : String) : Decidable (IsPart piece) :=
  inferInstanceAs (Decidable (_ ∧ _))

theorem parts_eq_filter (path : String) : parts path = (pieces path).filter (IsPart ·) :=
  rfl

/-- The `pieces` of a path as far as one that says something, the longest first. -/
def waysTo (pieces : List String) : List (List String) :=
  ((List.range pieces.length).filter fun i => (pieces[i]?.filter (IsPart ·)).isSome).reverse.map
    fun i => pieces.take (i + 1)

theorem ancestors_eq_map (path : String) :
    ancestors path = (waysTo (pieces path)).tail.map "/".intercalate := by
  rw [waysTo, ← List.map_tail, List.tail_reverse, List.map_map]
  rfl

/-- One more piece leads one way further in `waysTo`, if it says something. -/
theorem waysTo_concat (pieces : List String) (piece : String) :
    waysTo (pieces ++ [piece]) =
      if IsPart piece then (pieces ++ [piece]) :: waysTo pieces else waysTo pieces := by
  -- all ways but the longest are those of the pieces before
  have hbefore : ∀ i ∈ List.range pieces.length, (pieces ++ [piece])[i]? = pieces[i]? ∧
      (pieces ++ [piece]).take (i + 1) = pieces.take (i + 1) := by
    intro i hi
    have hlt := List.mem_range.1 hi
    exact ⟨List.getElem?_append_left hlt, List.take_append_of_le_length hlt⟩
  have hfilter : (List.range pieces.length).filter
      (fun i => ((pieces ++ [piece])[i]?.filter (IsPart ·)).isSome) =
        (List.range pieces.length).filter fun i => (pieces[i]?.filter (IsPart ·)).isSome :=
    List.filter_congr fun i hi => by rw [(hbefore i hi).1]
  have hmap : ((List.range pieces.length).filter
      fun i => (pieces[i]?.filter (IsPart ·)).isSome).reverse.map
        (fun i => (pieces ++ [piece]).take (i + 1)) = waysTo pieces := by
    refine List.map_congr_left fun i hi => (hbefore i ?_).2
    exact List.mem_of_mem_filter (List.mem_reverse.1 hi)
  rw [waysTo, List.length_append, List.length_singleton, List.range_succ, List.filter_append,
    List.reverse_append, List.map_append, hfilter, hmap]
  by_cases h : IsPart piece
  · simp [h]
  · simp [h]

/-- A way of `waysTo` is the first part of all pieces, and something in it says something. -/
theorem of_mem_waysTo {pieces way : List String} (h : way ∈ waysTo pieces) :
    way <+: pieces ∧ ∃ piece ∈ way, piece ≠ "" := by
  obtain ⟨i, hi, rfl⟩ := List.mem_map.1 h
  refine ⟨List.take_prefix _ _, ?_⟩
  obtain ⟨piece, hpiece⟩ := Option.isSome_iff_exists.1
    (List.mem_filter.1 (List.mem_reverse.1 hi)).2
  obtain ⟨hget, hpart⟩ := Option.filter_eq_some_iff.1 hpiece
  have htake : (pieces.take (i + 1))[i]? = some piece :=
    (List.getElem?_take_of_lt i.lt_succ_self).trans hget
  exact ⟨piece, List.mem_of_getElem? htake, (of_decide_eq_true hpart).1⟩

section Spelled

variable {ps : List String}

/-- `pieces` without slashes are those of the path that is made of them. -/
theorem pieces_intercalate (hne : ps ≠ []) (h : ∀ p ∈ ps, '/' ∉ p.toList) :
    pieces ("/".intercalate ps) = ps := by
  rw [pieces, String.toList_intercalate, show "/".toList = ['/'] from rfl,
    List.splitOn_intercalate, List.map_map]
  · simp [Function.comp_def]
  · intro l hl
    obtain ⟨p, hp, rfl⟩ := List.mem_map.1 hl
    exact h p hp
  · simpa using hne

theorem intercalate_pieces (path : String) : "/".intercalate (pieces path) = path := by
  apply String.toList_injective
  rw [String.toList_intercalate, show "/".toList = ['/'] from rfl, pieces, List.map_map]
  simp [Function.comp_def, List.intercalate_splitOn]

theorem not_mem_of_mem_pieces {path piece : String} (h : piece ∈ pieces path) :
    '/' ∉ piece.toList := by
  obtain ⟨chars, hchars, rfl⟩ := List.mem_map.1 h
  intro hmem
  rw [String.toList_ofList] at hmem
  exact (Text.mem_of_mem_splitOn hchars '/' hmem).2 rfl

/-- A path `isAbsolute` exactly if its first piece is empty, and not the only thing in it. -/
theorem isAbsolute_intercalate (h : ∀ p ∈ ps, '/' ∉ p.toList) (hne : ∃ p ∈ ps, p ≠ "") :
    isAbsolute ("/".intercalate ps) = (ps.head? == some "") := by
  rw [isAbsolute, String.toList_intercalate, show "/".toList = ['/'] from rfl]
  cases ps with
  | nil => simp at hne
  | cons p rest =>
    -- an empty first piece is what stands before a leading slash
    by_cases hp : p = ""
    · subst hp
      cases rest with
      | nil => simp at hne
      | cons q rest => simp [List.intercalate_cons_cons]
    · have hchars : p.toList ≠ [] := by simpa using hp
      have hhead : (['/'].intercalate ((p :: rest).map String.toList)).head? = p.toList.head? := by
        cases rest with
        | nil => simp
        | cons q rest =>
          rw [List.map_cons, List.map_cons, List.intercalate_cons_cons, List.append_assoc,
            List.head?_append_of_ne_nil _ hchars]
      have hslash : p.toList.head? ≠ some '/' := fun hfirst =>
        h p List.mem_cons_self (List.mem_of_head? hfirst)
      rw [hhead, List.head?_cons]
      simp [hp, hslash]

end Spelled

/-- Paths of directories, the longest one first, each of which leads one part further than the next
one; they are absolute if `fromRoot` says so. -/
inductive IsWay (fromRoot : Bool) : (parts paths : List String) → Prop
  | nil : IsWay fromRoot [] []
  | cons {before above : List String} {part path : String} (way : IsWay fromRoot before above)
      (parts : Path.parts path = before ++ [part]) (root : isAbsolute path = fromRoot)
      (name : lastPiece? path ≠ some ".") : IsWay fromRoot (before ++ [part]) (path :: above)

namespace IsWay

variable {fromRoot : Bool} {parts paths : List String}

/-- Each of the paths of an `IsWay` leads a part of the way. -/
theorem of_mem (h : IsWay fromRoot parts paths) {path : String} (hmem : path ∈ paths) :
    Path.parts path <+: parts ∧ Path.parts path ≠ [] ∧ isAbsolute path = fromRoot := by
  induction h with
  | nil => cases hmem
  | cons way hparts hroot hname ih =>
    rcases List.mem_cons.1 hmem with rfl | hmem
    · rw [hparts]
      exact ⟨List.prefix_rfl, by simp, hroot⟩
    · obtain ⟨hbegins, hrest⟩ := ih hmem
      exact ⟨hbegins.trans (List.prefix_append _ _), hrest⟩

/-- Each part of an `IsWay` has its path. -/
theorem exists_mem (h : IsWay fromRoot parts paths) {before : List String}
    (hbegins : before <+: parts) (hne : before ≠ []) :
    ∃ path ∈ paths, Path.parts path = before ∧ isAbsolute path = fromRoot := by
  induction h with
  | nil => exact absurd (List.prefix_nil.1 hbegins) hne
  | cons way hparts hroot hname ih =>
    rcases List.prefix_concat_iff.1 hbegins with rfl | hbegins
    · exact ⟨_, List.mem_cons_self, hparts, hroot⟩
    · obtain ⟨path, hmem, hpath⟩ := ih hbegins
      exact ⟨path, List.mem_cons_of_mem _ hmem, hpath⟩

end IsWay

/-- The paths that are made of `waysTo` some pieces lead from one to the next one, as `IsWay`
says. -/
theorem isWay_waysTo {ps : List String} (h : ∀ p ∈ ps, '/' ∉ p.toList) :
    IsWay (ps.head? == some "") (ps.filter (IsPart ·)) ((waysTo ps).map "/".intercalate) := by
  induction ps using List.reverseRecOn with
  | nil => exact .nil
  | append_singleton ps p ih =>
    have ih := ih fun q hq => h q (List.mem_append_left _ hq)
    -- before the first piece there are no ways, wherever they start
    have hway : IsWay ((ps ++ [p]).head? == some "") (ps.filter (IsPart ·))
        ((waysTo ps).map "/".intercalate) := by
      cases ps with
      | nil => exact .nil
      | cons q ps => exact ih
    rw [waysTo_concat, List.filter_append]
    by_cases hp : IsPart p
    · have hpieces : pieces ("/".intercalate (ps ++ [p])) = ps ++ [p] :=
        pieces_intercalate (by simp) h
      rw [if_pos hp, List.filter_singleton, decide_eq_true hp, List.map_cons]
      refine .cons hway ?_ (isAbsolute_intercalate h ⟨p, by simp, hp.1⟩) ?_
      · rw [parts_eq_filter, hpieces, List.filter_append]
        simp [hp]
      · rw [lastPiece?, hpieces, List.filter_append]
        simp [hp.1, hp.2]
    · simpa [hp] using hway

/-- The `ancestors` of a path lead from one to the next one, as `IsWay` says. -/
theorem isWay_ancestors (path : String) :
    IsWay (isAbsolute path) (parts path).dropLast (ancestors path) := by
  have hslash : ∀ p ∈ pieces path, '/' ∉ p.toList := fun p => not_mem_of_mem_pieces
  have hway := isWay_waysTo hslash
  rw [ancestors_eq_map]
  by_cases hparts : parts path = []
  · rw [← parts_eq_filter, hparts] at hway
    rw [hparts]
    generalize waysTo (pieces path) = ways at hway
    cases ways with
    | nil => exact .nil
    | cons way ways =>
      -- a path without parts has no ways
      obtain ⟨hbegins, hne, -⟩ := hway.of_mem List.mem_cons_self
      exact absurd (List.prefix_nil.1 hbegins) hne
  · have hroot : isAbsolute path = ((pieces path).head? == some "") := by
      obtain ⟨p, hp⟩ := List.exists_mem_of_ne_nil _ hparts
      obtain ⟨hmem, hpart⟩ := List.mem_filter.1 hp
      rw [← isAbsolute_intercalate hslash ⟨p, hmem, (of_decide_eq_true hpart).1⟩,
        intercalate_pieces]
    rw [← hroot, ← parts_eq_filter] at hway
    generalize waysTo (pieces path) = ways at hway
    generalize parts path = all at hway hparts
    cases ways with
    | nil =>
      cases hway
      exact absurd rfl hparts
    | cons way ways =>
      cases hway with
      | cons above hlast root name =>
        rw [List.dropLast_concat]
        exact above

/-- Whether a `path` ends with the name of what is there. -/
def IsNamed (path : String) : Prop :=
  parts path ≠ [] ∧ lastPiece? path ≠ some "."

theorem IsNamed.isWay {path : String} (h : IsNamed path) :
    IsWay (isAbsolute path) (parts path) (path :: ancestors path) := by
  have hway := isWay_ancestors path
  have hparts := List.dropLast_concat_getLast h.1
  generalize (parts path).dropLast = before at hway hparts
  rw [← hparts]
  exact .cons hway hparts.symm rfl h.2

section Join

variable {name : String} (h : IsName name) (base : String)

include h

/-- The path of a file, made by `join`, ends with the name of the file. -/
theorem IsName.exists_toList_join : ∃ before, (join base name).toList = before ++ name.toList ∧
    pieces (join base name) = (pieces (join base name)).dropLast ++ [name] := by
  by_cases hbase : base = ""
  · subst hbase
    have hjoin : join "" name = name := by
      rw [join, if_neg (by simp [h.not_isAbsolute]), if_pos (.inl rfl), String.empty_append]
    exact ⟨[], by rw [hjoin]; rfl, by rw [hjoin, h.pieces_eq]; rfl⟩
  · obtain ⟨before, htoList, -⟩ := toList_join h hbase
    refine ⟨before ++ ['/'], by rw [htoList, List.append_assoc]; rfl, ?_⟩
    rw [pieces_of_toList htoList, String.ofList_toList, h.pieces_eq, List.dropLast_concat]

theorem IsName.isNamed_join : IsNamed (join base name) := by
  obtain ⟨-, -, hpieces⟩ := h.exists_toList_join base
  refine ⟨by rw [parts_join h]; simp, ?_⟩
  rw [lastPiece?, hpieces, List.filter_append]
  simp [h.1, h.2.1]

/-- What `join` makes can be the path of a file. -/
theorem IsName.namesDirectory_join : namesDirectory (join base name) = false := by
  obtain ⟨before, htoList, -⟩ := h.exists_toList_join base
  have hlast : (join base name).toList.getLast? = name.toList.getLast? := by
    rw [htoList, List.getLast?_append_of_ne_nil _ (by simpa using h.1)]
  have hslash : name.toList.getLast? ≠ some '/' := fun hlast =>
    h.2.2.2 (List.mem_of_getLast? hlast)
  simp [namesDirectory, endsWithSlash, hlast, hslash, (h.isNamed_join base).2]

end Join

/-- The path that is made of fewer pieces, a `way`, is the first part of the other one. -/
theorem toList_intercalate_of_way {way ps : List String} (h : way <+: ps) :
    ("/".intercalate way).toList <+: ("/".intercalate ps).toList := by
  simp only [String.toList_intercalate, show "/".toList = ['/'] from rfl]
  induction way generalizing ps with
  | nil => exact List.nil_prefix
  | cons p way ih =>
    obtain ⟨rest, rfl⟩ := h
    have ih := ih (List.prefix_append way rest)
    cases way with
    | nil =>
      cases rest with
      | nil => exact List.prefix_rfl
      | cons q rest =>
        simp only [List.nil_append, List.cons_append, List.map_cons, List.map_nil,
          List.intercalate_singleton, List.intercalate_cons_cons, List.append_assoc]
        exact List.prefix_append _ _
    | cons q way =>
      simp only [List.cons_append, List.map_cons, List.intercalate_cons_cons] at ih ⊢
      exact (List.prefix_append_right_inj _).2 ih

end Path

end MappingTables
