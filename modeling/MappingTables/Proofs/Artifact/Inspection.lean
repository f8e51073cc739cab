import MappingTables.Artifact.Inspection
import MappingTables.Proofs.Format.Headers
import MappingTables.Proofs.Nested.Concatenation

/-!
# Inspections and tables

The version of the game that mappings were made for is a header property. An inspection of the first
lines looks for it on its own: it takes the first line with a value, and all that stands behind the
key in it, where a reader takes the last line and the first field behind the key.

* `readLevel_readProperty_eq_ok`, `get?_propertiesOf`: what a reader finds under a key.
* `lookup_leadingProperties`: what an inspection finds.
* `Inspection.ofBytes_eq_ok_iff_of_read`: when they find the same.
-/

namespace MappingTables

open Format Text

/-! ## Properties that are read -/

namespace Format.Nested

/-- The properties that `lines` name. -/
def propertiesOf (lines : List Line) : OrderedMap String (Option String) :=
  lines.foldl (fun m line => m.insert line.head line.fields.head?) ∅

/-- Lines for `readProperty` stand on a level of their own, with nothing below them. -/
theorem readLevel_readProperty_eq_ok {m m' : OrderedMap String (Option String)} {lines : List Line}
    (h : readLevel 1 readProperty m (lines.map .ok) = .ok m') :
    (∀ line ∈ lines, line.depth ≤ 1) ∧
      m' = lines.foldl (fun m line => m.insert line.head line.fields.head?) m := by
  induction lines generalizing m with
  | nil => exact ⟨nofun, (Except.ok.inj h).symm⟩
  | cons line lines ih =>
    obtain ⟨_, hstart, hlevel⟩ := bind_eq_ok_iff.1 h
    rw [List.map_cons, blocks] at hstart hlevel
    split at hstart
    · cases hstart
    · next hdepth =>
      rw [if_neg hdepth] at hlevel
      obtain ⟨_, hline, hrest⟩ := bind_eq_ok_iff.1 hlevel
      obtain ⟨_, hread, hbody⟩ := bind_eq_ok_iff.1 hline
      cases within_eq_ok_iff.1 hread
      obtain ⟨_, hbelow, hm⟩ := bind_eq_ok_iff.1 hbody
      rw [pure_eq_ok_iff] at hm
      subst hm
      -- the lines below are left unread, so there are none
      have hrest : readLevel 1 readProperty (m.insert line.head line.fields.head?) (lines.map .ok) =
          .ok m' := by
        rw [readLevel, hbelow]
        exact hrest
      obtain ⟨hdepths, hm'⟩ := ih hrest
      exact ⟨List.forall_mem_cons.2 ⟨Nat.not_lt.1 hdepth, hdepths⟩, hm'⟩

/-- Under a key of `propertiesOf` stands the first value in the last line for it. -/
theorem get?_propertiesOf (lines : List Line) (key : String) :
    (propertiesOf lines).get? key =
      ((lines.filter (·.head == key)).getLast?).map fun line => line.fields.head? := by
  induction lines using List.reverseRecOn with
  | nil => rfl
  | append_singleton lines line ih =>
    rw [propertiesOf, List.foldl_append, List.foldl_cons, List.foldl_nil, ← propertiesOf,
      OrderedMap.get?_insert, ih, List.filter_append]
    by_cases hkey : line.head = key
    · simp [hkey]
    · simp [hkey, Ne.symm hkey]

end Format.Nested

/-! ## Properties that an inspection finds -/

namespace Artifact

/-- The `lines` of the header properties among the lines after a header. -/
def propertyLines (lines : List String) : List Line :=
  (lines.takeWhile isIndented).map (Line.ofText 0)

/-- The values in each of the `propertyLines` for a property with the given `key`. -/
def propertyValues (key : String) (lines : List String) : List (List String) :=
  ((propertyLines lines).filter (·.head == key)).map Line.fields

/-- Whether the first line for a property in which there are values holds just one, which is the
first value in the last line for it, too, as the `propertyValues` show. -/
def IsUnambiguous (key : String) (lines : List String) : Prop :=
  ∀ values ∈ (propertyValues key lines).find? (· ≠ []), values.length = 1 ∧
    (propertyValues key lines).getLast?.bind List.head? = values.head?

instance (key : String) (lines : List String) : Decidable (IsUnambiguous key lines) :=
  inferInstanceAs (Decidable (∀ values ∈ _, _ ∧ _))

/-- `propertyLine?` gives the key and the values of a line at depth one. -/
theorem propertyLine?_of_depth {text : String} (hindented : isIndented text = true)
    (hdepth : (Line.ofText 0 text).depth ≤ 1) :
    (propertyLine? text = none ∧ (Line.ofText 0 text).fields = []) ∨
      ∃ value, propertyLine? text = some ((Line.ofText 0 text).head, value) ∧
        (Line.ofText 0 text).fields = fields value := by
  rw [isIndented, beq_iff_eq, List.head?_eq_some_iff] at hindented
  obtain ⟨chars, hchars⟩ := hindented
  -- a second tab would make the line deeper
  have hkept : chars.dropWhile (· == '\t') = chars := by
    rw [Line.depth_ofText, hchars] at hdepth
    cases chars with
    | nil => rfl
    | cons c chars =>
      by_cases hc : c = '\t'
      · simp [hc] at hdepth
      · simp [hc]
  have hfields := Line.fields_ofText 0 text
  rw [hchars, List.dropWhile_cons, if_pos (beq_self_eq_true _), hkept] at hfields
  rcases avoids_or_eq_append_tab (String.ofList chars) with hkey | ⟨key, value, hkey, heq⟩
  · refine .inl ⟨?_, ?_⟩
    · have hrest : chars.dropWhile (· ≠ '\t') = [] := by
        refine List.dropWhile_eq_nil_iff.2 fun c hc => decide_eq_true ?_
        rintro rfl
        exact hkey '\t' List.mem_cons_self (by rwa [String.toList_ofList])
      simp only [propertyLine?, hchars, hrest]
    · rw [fields_of_avoids hkey] at hfields
      exact (List.cons.inj hfields).2
  · rw [heq, fields_append_tab hkey] at hfields
    obtain ⟨hhead, hvalues⟩ := List.cons.inj hfields
    have hsplit : chars = key.toList ++ '\t' :: value.toList := by
      rw [← String.toList_ofList (l := chars), heq]
      simp [String.toList_append]
    obtain ⟨hbefore, hafter⟩ := span_append_cons (hkey '\t' List.mem_cons_self) value.toList
    refine .inr ⟨value, ?_, hvalues⟩
    simp only [propertyLine?, hchars, hsplit, hbefore, hafter, hhead, String.ofList_toList]

/-- What `leadingProperties` has under a key is all that stands behind it in the first line with a
value. -/
theorem lookup_leadingProperties {lines : List String} (key : String)
    (hdepth : ∀ line ∈ propertyLines lines, line.depth ≤ 1) :
    ((leadingProperties lines).lookup key).map fields =
      (propertyValues key lines).find? (· ≠ []) := by
  unfold leadingProperties propertyValues
  unfold propertyLines at hdepth ⊢
  have hindented : ∀ text ∈ lines.takeWhile isIndented, isIndented text = true :=
    fun text htext => List.mem_takeWhile_imp htext
  -- the induction is on the indented texts, which both sides go through
  generalize lines.takeWhile isIndented = texts at hdepth hindented ⊢
  induction texts with
  | nil => rfl
  | cons text texts ih =>
    rw [List.map_cons, List.forall_mem_cons] at hdepth
    rw [List.forall_mem_cons] at hindented
    have ih := ih hdepth.2 hindented.2
    -- a line that the inspection skips has no values, and `find?` passes it by
    rcases propertyLine?_of_depth hindented.1 hdepth.1 with
      ⟨hnone, hfields⟩ | ⟨value, hsome, hfields⟩
    · rw [List.filterMap_cons_none hnone, ih, List.map_cons, List.filter_cons]
      split
      · rw [List.map_cons, hfields, List.find?_cons_of_neg (by simp)]
      · rfl
    · rw [List.filterMap_cons_some hsome, List.map_cons, List.filter_cons,
        OrderedMap.lookup_cons_ite]
      by_cases hkey : (Line.ofText 0 text).head = key
      · rw [if_pos hkey.symm, if_pos (beq_iff_eq.2 hkey), List.map_cons, hfields,
          List.find?_cons_of_pos (by simpa using fields_ne_nil value)]
        rfl
      · rw [if_neg (Ne.symm hkey), if_neg (by simpa using hkey), ih]

/-- The `propertyValues` are fields. -/
theorem avoids_of_mem_propertyValues {key : String} {lines : List String} {values : List String}
    (hvalues : values ∈ propertyValues key lines) : ∀ value ∈ values, Avoids ['\t'] value := by
  obtain ⟨line, hline, rfl⟩ := List.mem_map.1 hvalues
  obtain ⟨text, -, rfl⟩ := List.mem_map.1 (List.mem_filter.1 hline).1
  have hnothing : Avoids [] text := nofun
  exact (Line.isSound_ofText hnothing 0).fields

/-- An inspection finds what is read exactly if the lines for a property are such that the property
`IsUnambiguous`. -/
theorem lookup_eq_join_get?_iff {lines : List String} (key : String)
    (hdepth : ∀ line ∈ propertyLines lines, line.depth ≤ 1) :
    (leadingProperties lines).lookup key =
        ((Nested.propertiesOf (propertyLines lines)).get? key).join ↔ IsUnambiguous key lines := by
  -- the reader keeps the last line of the key, and the first of its values
  have hread : ((Nested.propertiesOf (propertyLines lines)).get? key).join =
      (propertyValues key lines).getLast?.bind List.head? := by
    rw [Nested.get?_propertiesOf, propertyValues, List.getLast?_map]
    cases ((propertyLines lines).filter (·.head == key)).getLast? <;> rfl
  have hfound := lookup_leadingProperties key hdepth
  rw [hread, IsUnambiguous]
  cases hlookup : (leadingProperties lines).lookup key with
  | none =>
    -- nothing is found, so every line of the key is without values
    rw [hlookup, Option.map_none, eq_comm, List.find?_eq_none] at hfound
    refine iff_of_true (Eq.symm ?_) ?_
    · refine Option.bind_eq_none_iff.2 fun values hvalues => ?_
      have hnil := hfound values (List.mem_of_getLast? hvalues)
      rw [decide_eq_true_iff, not_not] at hnil
      rw [hnil, List.head?_nil]
    · intro values hvalues
      have hmem := List.mem_of_find?_eq_some hvalues
      exact absurd (List.find?_some hvalues) (hfound values hmem)
  | some value =>
    rw [hlookup, Option.map_some] at hfound
    rw [← hfound]
    constructor
    · rintro hlast _ ⟨⟩
      obtain ⟨values, hvalues, hvalue⟩ := Option.bind_eq_some_iff.1 hlast.symm
      have havoids := avoids_of_mem_propertyValues (List.mem_of_getLast? hvalues) value
        (List.mem_of_head? hvalue)
      rw [← hlast, fields_of_avoids havoids]
      exact ⟨rfl, rfl⟩
    · intro hunambiguous
      obtain ⟨hlength, hlast⟩ := hunambiguous (fields value) rfl
      rw [hlast]
      -- the inspection takes a value with its tabs, the reader cuts it there
      rcases avoids_or_eq_append_tab value with havoids | ⟨first, rest, hfirst, rfl⟩
      · rw [fields_of_avoids havoids, List.head?_cons]
      · rw [fields_append_tab hfirst, List.length_cons, Nat.add_eq_right, List.length_eq_zero_iff]
          at hlength
        exact absurd hlength (fields_ne_nil rest)

/-! ## Both -/

section Both

variable {bytes : ByteArray} {t : Table}

/-- A line `isIndented` if it is read as one below the outermost level. -/
theorem isDeeper_ofText (text : String) :
    isDeeper 0 (.ok (Line.ofText 0 text)) = isIndented text := by
  rw [Bool.eq_iff_iff, Nested.isDeeper_zero_iff, isIndented, beq_iff_eq, Nested.IsIndented]

/-- The `propertyLines` are those of the level below the outermost one. -/
theorem takeWhile_isDeeper (texts : List String) :
    (texts.map fun text => (.ok (Line.ofText 0 text) : ReadLine)).takeWhile (isDeeper 0) =
      (propertyLines texts).map .ok := by
  have hdeeper : (isDeeper 0 ∘ fun text => (.ok (Line.ofText 0 text) : ReadLine)) = isIndented := by
    funext text
    rw [Function.comp_apply, isDeeper_ofText]
  rw [List.takeWhile_map, hdeeper, propertyLines, List.map_map]
  rfl

theorem unnumberedLines_toUTF8 (text : String) :
    Nested.unnumberedLines (Input.texts { bytes := text.toUTF8 }) =
      (lines text).map fun line => .ok (Line.ofText 0 line) := by
  rw [Input.texts_of_bytes, fileLines_toUTF8, Nested.unnumberedLines, List.map_map, List.map_map]
  rfl

/-- Mappings that `Nested.read` can read are a text. -/
theorem exists_toUTF8_of_read (h : Nested.read bytes = .ok t) :
    ∃ text : String, bytes = text.toUTF8 := by
  refine exists_toUTF8_of_fileLines fun line hline => ?_
  cases line with
  | some s => exact ⟨s, rfl⟩
  | none =>
    obtain ⟨_, herror⟩ := Nested.forall_ok_of_readFile (Nested.readTexts_eq_ok_iff.1 h)
      (.error .undecodable)
      (List.mem_map.2 ⟨.error .undecodable, List.mem_map.2 ⟨none, hline, rfl⟩, rfl⟩)
    cases herror

/-- Mappings that `Nested.read` can read have a header, and what properties there are stands in the
`propertyLines` after it. -/
theorem exists_text_of_read (h : Nested.read bytes = .ok t) :
    ∃ text header rest, bytes = text.toUTF8 ∧ lines text = header :: rest ∧
      Nested.readHeader (Line.ofText 0 header) = .ok t.namespaces ∧
      (∀ line ∈ propertyLines rest, line.depth ≤ 1) ∧
      t.properties = Nested.propertiesOf (propertyLines rest) := by
  obtain ⟨text, rfl⟩ := exists_toUTF8_of_read h
  have hread := Nested.readTexts_eq_ok_iff.1 h
  rw [unnumberedLines_toUTF8] at hread
  obtain ⟨headerLine, restLines, heq, hheader, hproperties⟩ := Nested.header_of_readFile hread
  cases htext : lines text with
  | nil =>
    rw [htext] at heq
    cases heq
  | cons header rest =>
    rw [htext, List.map_cons] at heq
    obtain ⟨hfirst, rfl⟩ := List.cons.inj heq
    obtain rfl := Except.ok.inj hfirst
    -- the properties are the indented lines below the header
    rw [takeWhile_isDeeper] at hproperties
    obtain ⟨hdepth, hproperties⟩ := Nested.readLevel_readProperty_eq_ok hproperties
    exact ⟨text, header, rest, rfl, htext, hheader, hdepth, hproperties⟩

/-- A line that `isIndented` starts with an empty field, so it is the header of no dialect. -/
theorem detect_ne_ok_of_isIndented {header : String} (h : isIndented header = true)
    (dialect : Dialect) : Dialect.detect header ≠ .ok dialect := by
  rw [isIndented, beq_iff_eq, List.head?_eq_some_iff] at h
  obtain ⟨chars, hchars⟩ := h
  obtain rfl : header = "" ++ "\t" ++ String.ofList chars := by
    rw [← String.toList_inj, hchars]
    simp [String.toList_append]
  rw [ne_eq, Dialect.detect_eq_ok_iff, dropLineEnd_append_tab, fields_append_tab (by decide)]
  intro hdialect
  cases hdialect

/-- With labels in it, `Dialect.detect` knows a header with and without its line end: only the last
label can lose something with that. -/
theorem detect_of_fields {header : String} {labels : List String}
    (h : fields header = "tiny" :: "2" :: "0" :: labels) (hlabels : labels ≠ []) :
    Dialect.detect header = .ok .nested := by
  obtain ⟨htiny, _, rfl, hafterTiny⟩ := eq_append_tab_of_fields h nofun
  obtain ⟨htwo, _, rfl, hafterTwo⟩ := eq_append_tab_of_fields hafterTiny nofun
  obtain ⟨hzero, _, rfl, -⟩ := eq_append_tab_of_fields hafterTwo hlabels
  rw [Dialect.detect_eq_ok_iff, dropLineEnd_append_tab, dropLineEnd_append_tab,
    dropLineEnd_append_tab,
    fields_append_tab htiny, fields_append_tab htwo, fields_append_tab hzero]
  rfl

/-- The header of mappings that are read is one for an inspection if not `isIndented`. -/
theorem detect_eq_ok_iff_of_readHeader {header : String} {ns : Namespaces}
    (h : Nested.readHeader (Line.ofText 0 header) = .ok ns) :
    Dialect.detect header = .ok .nested ↔ isIndented header = false := by
  cases hindented : isIndented header with
  | true => exact iff_of_false (detect_ne_ok_of_isIndented hindented _) (by decide)
  | false =>
    refine iff_of_true ?_ rfl
    rw [isIndented, beq_eq_false_iff_ne] at hindented
    have hfields := Line.fields_ofText_of_head? 0 hindented
    unfold Nested.readHeader at h
    split at h
    · next labels hhead hothers =>
      rw [hhead, hothers] at hfields
      refine detect_of_fields hfields.symm ?_
      rintro rfl
      cases within_eq_ok_iff.1 h
    · cases h

/-- `Inspection.ofBytes` finds in mappings that are read as a table `t` the version of the game that
`t` has exactly if the header is not indented, and `gameVersionProperty` is unambiguous: the first
line of the header properties that gives a version has no more than that, and the last line for it
gives the same one. -/
theorem Inspection.ofBytes_eq_ok_iff_of_read (h : Nested.read bytes = .ok t) :
    ∃ header rest, fileLines bytes = (header :: rest).map some ∧
      (Inspection.ofBytes bytes = .ok {
          dialect := .nested
          gameVersion := (t.properties.get? gameVersionProperty).join } ↔
        isIndented header = false ∧ IsUnambiguous gameVersionProperty rest) := by
  obtain ⟨text, header, rest, rfl, hlines, hheader, hdepth, hproperties⟩ := exists_text_of_read h
  refine ⟨header, rest, by rw [fileLines_toUTF8, hlines], ?_⟩
  -- the inspection is a function of the lines of the text
  have hbytes : Inspection.ofBytes text.toUTF8 = (do
      let dialect ← Dialect.detect header
      return { dialect, gameVersion := (leadingProperties rest).lookup gameVersionProperty }) := by
    rw [Inspection.ofBytes, toList_data_toUTF8, decode?_flatMap_utf8EncodeChar,
      String.ofList_toList]
    dsimp only
    rw [hlines]
    rfl
  rw [hbytes, bind_eq_ok_iff, ← detect_eq_ok_iff_of_readHeader hheader,
    ← lookup_eq_join_get?_iff _ hdepth, ← hproperties]
  constructor
  · rintro ⟨dialect, hdialect, hfound⟩
    obtain ⟨rfl, hversion⟩ := Inspection.mk.inj (pure_eq_ok_iff.1 hfound)
    exact ⟨hdialect, hversion⟩
  · rintro ⟨hdialect, hversion⟩
    exact ⟨.nested, hdialect, pure_eq_ok_iff.2 (congrArg _ hversion)⟩

end Both

/-- The header of mappings. -/
def versionHeader : String :=
  "tiny\t2\t0\tofficial\tnamed"

/-- The lines after it, of which one names the version without a value, and one has more than
that. -/
def versionLines : List String :=
  ["\tminecraft_version", "\tminecraft_version\t1.20.1", "\tescaped-names",
    "\tminecraft_version\t1.20.1\tstable", "c\ta\tMain"]

/-- `Inspection.ofBytes` finds the version in `versionLines`. -/
theorem Inspection.ofBytes_eq_ok_iff_of_read_sample :
    ∃ t, Nested.read (unlines (versionHeader :: versionLines)).toUTF8 = .ok t ∧
      Inspection.ofBytes (unlines (versionHeader :: versionLines)).toUTF8 = .ok {
        dialect := .nested
        gameVersion := (t.properties.get? gameVersionProperty).join } := by
  have hlines : fileLines (unlines (versionHeader :: versionLines)).toUTF8 =
      (versionHeader :: versionLines).map some := by
    rw [fileLines_toUTF8, lines_unlines (by decide +kernel)]
    decide +kernel
  obtain ⟨t, ht⟩ := Option.isSome_iff_exists.1
    (show (Nested.read (unlines (versionHeader :: versionLines)).toUTF8).toOption.isSome = true by
      decide +kernel)
  have hread := toOption_eq_some_iff.1 ht
  obtain ⟨header, rest, hlines', hiff⟩ := Inspection.ofBytes_eq_ok_iff_of_read hread
  rw [hlines] at hlines'
  obtain ⟨rfl, rfl⟩ := List.cons.inj (List.map_injective_iff.2 (Option.some_injective _) hlines')
  have hvalues : propertyValues gameVersionProperty versionLines =
      [[], ["1.20.1"], ["1.20.1", "stable"]] := by
    decide +kernel
  refine ⟨t, hread, hiff.2 ⟨by decide +kernel, ?_⟩⟩
  rw [IsUnambiguous, hvalues]
  decide

/-- Mappings with two lines for the version of the game. -/
def repeatedText : String :=
  "tiny\t2\t0\tintermediary\tnamed\n\tminecraft_version\t1.19\n\tminecraft_version\t1.20\n" ++
    "c\tclass_1\tMain\n"

/-- In `repeatedText`, the first of two lines for the version counts for an inspection, and the last
one for a reader. -/
theorem Inspection.ofBytes_repeated : ∃ t, Nested.read repeatedText.toUTF8 = .ok t ∧
    t.properties.get? gameVersionProperty = some (some "1.20") ∧
    Inspection.ofBytes repeatedText.toUTF8 =
      .ok { dialect := .nested, gameVersion := some "1.19" } := by
  have hversion : (Nested.read repeatedText.toUTF8).toOption.any
      (·.properties.get? gameVersionProperty = some (some "1.20")) = true := by
    decide +kernel
  have hfound : (Inspection.ofBytes repeatedText.toUTF8).toOption =
      some { dialect := .nested, gameVersion := some "1.19" } := by
    decide +kernel
  obtain ⟨t, ht, hversion⟩ := (Option.any_eq_true ..).1 hversion
  exact ⟨t, toOption_eq_some_iff.1 ht, of_decide_eq_true hversion, toOption_eq_some_iff.1 hfound⟩

end Artifact

end MappingTables
