import Mathlib.Data.List.ModifyLast
import MappingTables.Proofs.Sequencing
import MappingTables.Proofs.Text.Escape
import MappingTables.Proofs.Text.Lines

/-!
# Rows and lines

A row is written from a depth and fields, and a line is read as a depth and fields.

* `Line.ofText_row`: a row is read as the line that it was written for.
* `Line.isSound_ofText`: what can be in the fields of a line.
* `Line.names_eq_ok_iff`: which names are read from the fields of a line.
* `SoundLines`: the lines that can be read from a file.
-/

namespace MappingTables

open Text

namespace Text

/-- What is in one of the pieces that `splitOn` gives is in the text, and is no separator. -/
theorem mem_of_mem_splitOn {sep : Char} {s piece : List Char} (h : piece ∈ s.splitOn sep) :
    ∀ c ∈ piece, c ∈ s ∧ c ≠ sep := by
  induction s generalizing piece with
  | nil =>
    rw [List.splitOn_nil, List.mem_singleton] at h
    simp [h]
  | cons x s ih =>
    have tail : ∀ {piece}, piece ∈ s.splitOn sep → ∀ c ∈ piece, c ∈ x :: s ∧ c ≠ sep :=
      fun h c hc => ⟨List.mem_cons_of_mem x (ih h c hc).1, (ih h c hc).2⟩
    -- the separator ends a piece, any other character goes to the first one
    rw [List.splitOn_cons_eq_if_modifyHead] at h
    split at h
    · rcases List.mem_cons.1 h with rfl | h
      · simp
      · exact tail h
    · next hx =>
      cases hs : s.splitOn sep with
      | nil => exact absurd hs (List.splitOn_ne_nil sep s)
      | cons first rest =>
        rw [hs] at h tail
        rcases List.mem_cons.1 h with rfl | h
        · intro c hc
          rcases List.mem_cons.1 hc with rfl | hc
          · exact ⟨List.mem_cons_self, by simpa using hx⟩
          · exact tail List.mem_cons_self c hc
        · exact tail (List.mem_cons_of_mem _ h)

/-- The `fields` of a line contain no tab, and nothing that is not in the line. -/
theorem avoids_of_mem_fields {chars : List Char} {line field : String} (hline : Avoids chars line)
    (h : field ∈ fields line) : Avoids ('\t' :: chars) field := by
  obtain ⟨piece, hpiece, rfl⟩ := List.mem_map.1 h
  intro c hc hmem
  rw [String.toList_ofList] at hmem
  have hc' := mem_of_mem_splitOn hpiece c hmem
  rcases List.mem_cons.1 hc with rfl | hc
  · exact hc'.2 rfl
  · exact hline c hc hc'.1

/-- `fields` reads texts without tabs from the text that they were joined to. -/
theorem fields_intercalate {texts : List String} (hne : texts ≠ [])
    (h : ∀ text ∈ texts, Avoids ['\t'] text) : fields ("\t".intercalate texts) = texts := by
  rw [fields, String.toList_intercalate, show "\t".toList = ['\t'] from rfl,
    List.splitOn_intercalate, List.map_map]
  · simp [Function.comp_def]
  · intro l hl
    obtain ⟨text, htext, rfl⟩ := List.mem_map.1 hl
    exact h text htext '\t' List.mem_cons_self
  · simpa using hne

/-- There is at least one of the `fields`. -/
theorem fields_ne_nil (s : String) : fields s ≠ [] := by
  simp [fields, List.splitOn_ne_nil]

/-- A text without tabs is the only one of its `fields`. -/
theorem fields_of_avoids {s : String} (h : Avoids ['\t'] s) : fields s = [s] := by
  rw [fields, List.splitOn_eq_singleton (h '\t' List.mem_cons_self), List.map_singleton,
    String.ofList_toList]

/-- What stands before a tab is the first of the `fields`, if it contains none itself. -/
theorem fields_append_tab {first rest : String} (h : Avoids ['\t'] first) :
    fields (first ++ "\t" ++ rest) = first :: fields rest := by
  have hchars : (first ++ "\t" ++ rest).toList = first.toList ++ '\t' :: rest.toList := by
    simp [String.toList_append]
  rw [fields, hchars, List.splitOn_append_cons_self,
    List.splitOn_eq_singleton (h '\t' List.mem_cons_self)]
  simp [fields]

/-- A text `Avoids` tabs, or starts with a field that does and a tab. -/
theorem avoids_or_eq_append_tab (s : String) :
    Avoids ['\t'] s ∨ ∃ first rest, Avoids ['\t'] first ∧ s = first ++ "\t" ++ rest := by
  by_cases htab : '\t' ∈ s.toList
  · obtain ⟨first, rest, hs, hfirst⟩ := List.eq_append_cons_of_mem htab
    refine .inr ⟨String.ofList first, String.ofList rest, ?_, ?_⟩
    · simpa [Avoids] using hfirst
    · rw [← String.toList_inj, hs]
      simp [String.toList_append]
  · exact .inl (by simpa [Avoids] using htab)

/-- A text with more than one of the `fields` starts with the first one and a tab. -/
theorem eq_append_tab_of_fields {s first : String} {others : List String}
    (h : fields s = first :: others) (hne : others ≠ []) :
    Avoids ['\t'] first ∧ ∃ rest, s = first ++ "\t" ++ rest ∧ fields rest = others := by
  rcases avoids_or_eq_append_tab s with hs | ⟨first', rest, hfirst, rfl⟩
  · rw [fields_of_avoids hs] at h
    exact absurd (List.cons.inj h).2.symm hne
  · rw [fields_append_tab hfirst] at h
    obtain ⟨rfl, rfl⟩ := List.cons.inj h
    exact ⟨hfirst, rest, rfl, rfl⟩

/-- What is in texts joined by `intercalate` is in one of them or separates them. -/
theorem mem_intercalate {sep c : Char} {texts : List (List Char)}
    (h : c ∈ [sep].intercalate texts) : c = sep ∨ ∃ text ∈ texts, c ∈ text := by
  induction texts with
  | nil => cases h
  | cons text texts ih =>
    cases texts with
    | nil =>
      rw [List.intercalate_singleton] at h
      exact .inr ⟨text, List.mem_cons_self, h⟩
    | cons text' texts =>
      rw [List.intercalate_cons_cons, List.mem_append, List.mem_append, List.mem_singleton] at h
      rcases h with (h | h) | h
      · exact .inr ⟨text, List.mem_cons_self, h⟩
      · exact .inl h
      · rcases ih h with h | ⟨text'', htext, hc⟩
        · exact .inl h
        · exact .inr ⟨text'', List.mem_cons_of_mem text htext, hc⟩

end Text

namespace Format

/-- The characters of a `row`: its tabs, and the fields joined by tabs. -/
theorem toList_row (depth : Nat) (fields : List String) :
    (row depth fields).toList =
      List.replicate depth '\t' ++ ['\t'].intercalate (fields.map String.toList) := by
  rw [row, String.toList_append, String.toList_ofList, String.toList_intercalate]
  rfl

/-- A `row` contains nothing but tabs that is not in its fields. -/
theorem avoids_row {chars : List Char} {depth : Nat} {fields : List String} (htab : '\t' ∉ chars)
    (h : ∀ field ∈ fields, Avoids chars field) : Avoids chars (row depth fields) := by
  intro c hc hmem
  rw [toList_row, List.mem_append] at hmem
  rcases hmem with hmem | hmem
  · exact htab (List.eq_of_mem_replicate hmem ▸ hc)
  · rcases mem_intercalate hmem with rfl | ⟨text, htext, hmem⟩
    · exact htab hc
    · obtain ⟨field, hfield, rfl⟩ := List.mem_map.1 htext
      exact h field hfield c hc hmem

/-- Fields joined by `intercalate` do not start with a tab, if the first one has no tabs, and is not
empty if there are others. -/
theorem head?_intercalate_ne_tab {head : String} {fields : List String} (htab : Avoids ['\t'] head)
    (hhead : fields ≠ [] → head ≠ "") :
    (['\t'].intercalate ((head :: fields).map String.toList)).head? ≠ some '\t' := by
  intro hfirst
  have hmem : '\t' ∈ head.toList := by
    by_cases hfields : fields = []
    · subst hfields
      rw [List.map_singleton, List.intercalate_singleton] at hfirst
      exact List.mem_of_head? hfirst
    · have hne : head.toList ≠ [] := by simpa using hhead hfields
      rw [List.map_cons, List.intercalate_cons_of_ne_nil (by simpa using hfields),
        List.append_assoc, List.head?_append_of_ne_nil _ hne] at hfirst
      exact List.mem_of_head? hfirst
  exact htab '\t' List.mem_cons_self hmem

section Tabs

variable {fields : List String} (depth : Nat)
  (hfirst : (['\t'].intercalate (fields.map String.toList)).head? ≠ some '\t')

include hfirst

/-- The tabs at the start of a `row` make up its `depth`. -/
theorem takeWhile_row :
    (row depth fields).toList.takeWhile (· == '\t') = List.replicate depth '\t' := by
  rw [toList_row, List.takeWhile_append_of_pos fun c hc => by simp [List.eq_of_mem_replicate hc]]
  cases hrest : ['\t'].intercalate (fields.map String.toList) with
  | nil => simp
  | cons c rest =>
    have hc : c ≠ '\t' := fun hc => hfirst (by rw [hrest, hc, List.head?_cons])
    simp [hc]

/-- What follows the tabs at the start of a `row` are its fields. -/
theorem dropWhile_row :
    (row depth fields).toList.dropWhile (· == '\t') =
      ['\t'].intercalate (fields.map String.toList) := by
  rw [toList_row, List.dropWhile_append_of_pos fun c hc => by simp [List.eq_of_mem_replicate hc]]
  cases hrest : ['\t'].intercalate (fields.map String.toList) with
  | nil => rfl
  | cons c rest =>
    have hc : c ≠ '\t' := fun hc => hfirst (by rw [hrest, hc, List.head?_cons])
    simp [hc]

end Tabs

/-- Only the `last` field decides how a `row` ends: before it stands nothing or a tab. -/
theorem toList_row_append_singleton (depth : Nat) (fields : List String) :
    ∃ before : List Char, (∀ c ∈ before.getLast?, c = '\t') ∧
      ∀ last, (row depth (fields ++ [last])).toList = before ++ last.toList := by
  by_cases hfields : fields = []
  · subst hfields
    refine ⟨List.replicate depth '\t', fun c hc => ?_, fun last => ?_⟩
    · exact List.eq_of_mem_replicate (List.mem_of_getLast? hc)
    · simp [toList_row]
  · refine ⟨(row depth fields).toList ++ ['\t'], fun c hc => ?_, fun last => ?_⟩
    · simpa [eq_comm] using hc
    · rw [row, row, String.intercalate_append_of_ne_nil hfields (List.cons_ne_nil last []),
        String.intercalate_singleton]
      simp only [String.toList_append, List.append_assoc]
      rfl

/-- The carriage return that `withoutReturn` takes from the end of a `row` is that of its `last`
field. -/
theorem withoutReturn_row (depth : Nat) (fields : List String) (last : String) :
    withoutReturn (row depth (fields ++ [last])) = row depth (fields ++ [withoutReturn last]) := by
  obtain ⟨before, hbefore, hrow⟩ := toList_row_append_singleton depth fields
  have hret : ∀ c ∈ before.getLast?, c ≠ '\r' := by
    rintro c hc rfl
    exact absurd (hbefore _ hc) (by decide)
  rw [withoutReturn, hrow, dropReturn_append (.inr hret), ← String.toList_inj,
    String.toList_ofList, hrow, withoutReturn, String.toList_ofList]

/-- A `line` as it is written. -/
def Line.text (line : Line) : String :=
  row line.depth (line.head :: line.fields)

/-- `unescapeText` reads what `escape` wrote as it was. -/
theorem unescapeText_escape (text : String) : unescapeText (escape text) = .ok text := by
  rw [unescapeText, unescape_escape]

namespace Line

/-- What a `line` that was read holds: its fields have no tabs and none of some other characters,
and the first one is not empty, unless it is the only one. -/
structure IsSound (chars : List Char) (line : Line) : Prop where
  avoids : ∀ field ∈ line.head :: line.fields, Avoids ('\t' :: chars) field
  head_ne : line.fields ≠ [] → line.head ≠ ""

/-- The fields of a line that `ofText` makes are those of its text without the tabs at the start. -/
theorem fields_ofText (number : Nat) (text : String) :
    (ofText number text).head :: (ofText number text).fields =
      Text.fields (String.ofList (text.toList.dropWhile (· == '\t'))) := by
  unfold ofText
  dsimp only
  cases h : Text.fields (String.ofList (text.toList.dropWhile (· == '\t'))) with
  | nil => simp [Text.fields, List.splitOn_ne_nil] at h
  | cons head fields => rfl

/-- The `depth` of a line that `ofText` makes is the number of tabs at its start. -/
theorem depth_ofText (number : Nat) (text : String) :
    (ofText number text).depth = (text.toList.takeWhile (· == '\t')).length := by
  unfold ofText
  dsimp only
  split <;> rfl

/-- What stands first after the tabs at the start of a text is no tab. -/
theorem head?_dropWhile_tab (s : List Char) : (s.dropWhile (· == '\t')).head? ≠ some '\t' := by
  induction s with
  | nil => simp
  | cons c s ih =>
    by_cases hc : c = '\t'
    · simpa [hc] using ih
    · simp [hc]

/-- Every line that `ofText` makes `IsSound`. -/
theorem isSound_ofText {chars : List Char} {text : String} (h : Avoids chars text) (number : Nat) :
    (ofText number text).IsSound chars where
  avoids := by
    rw [fields_ofText]
    refine fun field hfield => avoids_of_mem_fields ?_ hfield
    intro c hc hmem
    rw [String.toList_ofList] at hmem
    exact h c hc ((List.dropWhile_sublist _).subset hmem)
  head_ne := by
    have hfields := fields_ofText number text
    rw [Text.fields, String.toList_ofList] at hfields
    -- all tabs at the start count as depth, so the first field begins with something else
    cases hrest : text.toList.dropWhile (· == '\t') with
    | nil =>
      rw [hrest, List.splitOn_nil] at hfields
      exact fun hne => absurd (List.cons.inj hfields).2 hne
    | cons c rest =>
      have hc : c ≠ '\t' := fun hc =>
        head?_dropWhile_tab text.toList (by rw [hrest, hc, List.head?_cons])
      rw [hrest, List.splitOn_cons_eq_if_modifyHead, if_neg (by simpa using hc)] at hfields
      intro _ hhead
      cases hsplit : rest.splitOn '\t' with
      | nil => exact List.splitOn_ne_nil _ _ hsplit
      | cons first others =>
        rw [hsplit, hhead] at hfields
        have := congrArg String.toList (List.cons.inj hfields).1
        simp at this

/-- `ofText` reads a `row` as the line that it was written for. -/
theorem ofText_row {depth : Nat} {head : String} {fields : List String}
    (htabs : ∀ field ∈ head :: fields, Avoids ['\t'] field) (hhead : fields ≠ [] → head ≠ "")
    (number : Nat) :
    ofText number (row depth (head :: fields)) = { number, depth, head, fields } := by
  have hfirst := head?_intercalate_ne_tab (htabs head List.mem_cons_self) hhead
  have hfields := fields_ofText number (row depth (head :: fields))
  have hjoin : String.ofList (['\t'].intercalate ((head :: fields).map String.toList)) =
      "\t".intercalate (head :: fields) := by
    rw [← String.toList_inj, String.toList_ofList, String.toList_intercalate]
    rfl
  rw [dropWhile_row depth hfirst, hjoin, fields_intercalate (List.cons_ne_nil head fields) htabs]
    at hfields
  have hdepth := depth_ofText number (row depth (head :: fields))
  rw [takeWhile_row depth hfirst, List.length_replicate] at hdepth
  have hnumber : (ofText number (row depth (head :: fields))).number = number := by
    unfold ofText
    dsimp only
    split <;> rfl
  -- the line is known by its parts
  obtain ⟨hhead', hfields'⟩ := List.cons.inj hfields
  generalize ofText number (row depth (head :: fields)) = line at hnumber hdepth hhead' hfields' ⊢
  obtain ⟨number', depth', head', fields'⟩ := line
  dsimp only at hnumber hdepth hhead' hfields'
  subst hnumber hdepth hhead' hfields'
  rfl

/-- A `line` without the carriage return at its end, if there is one. -/
def withoutReturn (line : Line) : Line :=
  match line.fields with
  | [] => { line with head := Text.withoutReturn line.head }
  | fields => { line with fields := fields.modifyLast Text.withoutReturn }

/-- A line with one field ends with that field, which is where `withoutReturn` takes the carriage
return from. -/
theorem withoutReturn_of_head (number depth : Nat) (head : String) :
    withoutReturn { number, depth, head, fields := [] } =
      { number, depth, head := Text.withoutReturn head, fields := [] } :=
  rfl

/-- A line with more fields ends with the `last` one of them, which is where `withoutReturn` takes
the carriage return from. -/
theorem withoutReturn_of_last (number depth : Nat) (head : String) (fields : List String)
    (last : String) :
    withoutReturn { number, depth, head, fields := fields ++ [last] } =
      { number, depth, head, fields := fields ++ [Text.withoutReturn last] } := by
  unfold withoutReturn
  split
  · next h => exact absurd h (by simp)
  · rw [List.modifyLast_concat]

/-- `withoutReturn` takes from a line what it takes from its `text`. -/
theorem text_withoutReturn (line : Line) :
    line.withoutReturn.text = Text.withoutReturn line.text := by
  obtain ⟨number, depth, head, fields⟩ := line
  rcases List.eq_nil_or_concat' fields with rfl | ⟨fields, last, rfl⟩
  · exact (withoutReturn_row depth [] head).symm
  · rw [withoutReturn_of_last]
    exact (withoutReturn_row depth (head :: fields) last).symm

/-- A line whose last field does not end with a carriage return stays as it is `withoutReturn`. -/
theorem withoutReturn_eq_self {line : Line}
    (h : ∀ last ∈ (line.head :: line.fields).getLast?, Text.withoutReturn last = last) :
    line.withoutReturn = line := by
  obtain ⟨number, depth, head, fields⟩ := line
  rcases List.eq_nil_or_concat' fields with rfl | ⟨fields, last, rfl⟩
  · rw [withoutReturn_of_head, h head rfl]
  · rw [withoutReturn_of_last, h last (by rw [← List.cons_append, List.getLast?_concat]; rfl)]

/-- A line that `IsSound` still is so `withoutReturn`. -/
theorem IsSound.withoutReturn {chars : List Char} {line : Line} (h : line.IsSound chars) :
    line.withoutReturn.IsSound chars := by
  obtain ⟨number, depth, head, fields⟩ := line
  obtain ⟨havoids, hne⟩ := h
  rcases List.eq_nil_or_concat' fields with rfl | ⟨fields, last, rfl⟩
  · refine ⟨fun field hfield => ?_, fun hne => absurd rfl hne⟩
    rw [List.mem_singleton.1 hfield]
    exact (havoids head List.mem_cons_self).withoutReturn
  · rw [withoutReturn_of_last]
    rw [← List.cons_append, List.forall_mem_append] at havoids
    refine ⟨?_, fun _ => hne (by simp)⟩
    rw [← List.cons_append, List.forall_mem_append]
    refine ⟨havoids.1, fun field hfield => ?_⟩
    rw [List.mem_singleton.1 hfield]
    exact (havoids.2 last (List.mem_singleton_self last)).withoutReturn

/-- `next` gives the first of the fields that are left. -/
theorem next_eq_ok_iff {line rest : Line} {field : String} :
    line.next = .ok (field, rest) ↔
      line.fields = field :: rest.fields ∧ rest = { line with fields := rest.fields } := by
  obtain ⟨number, depth, head, fields⟩ := line
  cases fields with
  | nil => exact ⟨nofun, nofun⟩
  | cons first fields =>
    rw [next, Except.ok.injEq, Prod.mk.injEq, List.cons.injEq]
    constructor
    · rintro ⟨rfl, rfl⟩
      exact ⟨⟨rfl, rfl⟩, rfl⟩
    · rintro ⟨⟨rfl, hfields⟩, hrest⟩
      exact ⟨rfl, by rw [hrest, hfields]⟩

/-- `only` gives the field that is left if there is no other one. -/
theorem only_eq_ok_iff {line : Line} {field : String} :
    line.only = .ok field ↔ line.fields = [field] := by
  obtain ⟨number, depth, head, fields⟩ := line
  rcases fields with _ | ⟨first, _ | ⟨second, fields⟩⟩
  · exact ⟨nofun, nofun⟩
  · simp [only]
  · exact ⟨nofun, nofun⟩

/-- `names` gives the names in the fields of a line, if these are as many as the namespaces. -/
theorem names_eq_ok_iff {line : Line} {size : Nat} {escaped : Bool} {names : Names} :
    line.names size escaped = .ok names ↔ line.fields.length = size ∧
      ∃ texts, (if escaped then line.fields.mapM unescapeText else .ok line.fields) = .ok texts ∧
        Names.ofTexts texts = names := by
  unfold Line.names
  by_cases h : line.fields.length = size
  · rw [if_neg (not_not.2 h)]
    simp only [bind_eq_ok_iff, within_eq_ok_iff, pure_eq_ok_iff, h, true_and]
  · rw [if_pos h]
    exact ⟨fun hnames => absurd hnames fail_ne_ok, fun hlength => absurd hlength.1 h⟩

/-- The other fields of a line that `IsSound` contain no tab either. -/
theorem IsSound.fields {chars : List Char} {line : Line} (h : line.IsSound chars) :
    ∀ field ∈ line.fields, Avoids ('\t' :: chars) field :=
  fun field hfield => h.avoids field (List.mem_cons_of_mem line.head hfield)

/-- The field that `next` gives of a line that `IsSound` contains no tab, nor do those that are
left. -/
theorem IsSound.next {chars : List Char} {line rest : Line} {field : String}
    (h : line.IsSound chars) (hnext : line.next = .ok (field, rest)) :
    Avoids ('\t' :: chars) field ∧ ∀ field ∈ rest.fields, Avoids ('\t' :: chars) field := by
  have hfields := h.fields
  rw [(next_eq_ok_iff.1 hnext).1] at hfields
  exact List.forall_mem_cons.1 hfields

end Line

/-! ## Sound lines -/

/-- What was read in place of `lines`, if these are sound. -/
def SoundLines (chars : List Char) (lines : List ReadLine) : Prop :=
  ∀ line : Line, .ok line ∈ lines → line.IsSound chars

/-- Some of lines that are `SoundLines` are so, too. -/
theorem SoundLines.mono {chars : List Char} {lines body : List ReadLine}
    (h : SoundLines chars lines) (hsub : ∀ l ∈ body, l ∈ lines) : SoundLines chars body :=
  fun line hline => h line (hsub _ hline)

/-- The lines of a file are `SoundLines`, if nothing but its own characters is in them. -/
theorem soundLines_readLines {chars : List Char} {texts : List (Except Cause String)}
    (h : ∀ text : String, .ok text ∈ texts → Avoids chars text) :
    SoundLines chars (readLines texts) := by
  intro line hline
  obtain ⟨⟨text, number⟩, hmem, hline⟩ := List.mem_map.1 hline
  cases text with
  | error cause => cases hline
  | ok text =>
    obtain rfl : Line.ofText number text = line := Except.ok.inj hline
    exact Line.isSound_ofText (h text (List.fst_mem_of_mem_zipIdx hmem)) number

/-- The lines of any file are `SoundLines`: they contain no line feed. -/
theorem soundLines_texts (bytes : ByteArray) :
    SoundLines ['\n'] (readLines (Input.texts { bytes })) := by
  refine soundLines_readLines fun text htext => ?_
  obtain ⟨line, hline, htext⟩ := List.mem_map.1 htext
  cases line with
  | none => cases htext
  | some line =>
    cases htext
    exact (avoids_of_mem_fileLines hline).1

/-- The lines of a file without carriage returns are `SoundLines` without carriage returns. -/
theorem soundLines_texts_of_not_mem {bytes : ByteArray} (hbytes : 0x0d ∉ bytes.data) :
    SoundLines ['\n', '\r'] (readLines (Input.texts { bytes })) := by
  refine soundLines_readLines fun text htext => ?_
  obtain ⟨line, hline, htext⟩ := List.mem_map.1 htext
  cases line with
  | none => cases htext
  | some line =>
    cases htext
    exact (avoids_of_mem_fileLines hline).2 hbytes

end Format

end MappingTables
