import MappingTables.Proofs.Format.Dialect
import MappingTables.Proofs.Plain.Reader

/-!
# Headers

The first line of a file is looked at in three ways: to find the dialect of the file, to read the
namespaces alone, and as the first one of the lines that the reader of a dialect reads. Each of them
finds the end of the line on its own.

* `Nested.header_of_readFile`, `Plain.header_of_readFile`: where the namespaces of a table come
  from.
* `Dialect.detect_eq_ok_iff`, `readNamespaces_toUTF8_eq_ok_iff`: what is found without reading on.
* `readNamespaces_of_read`: a table that is read has the namespaces that are read alone.
* `read_agrees`: the readers agree, and line ends do not matter to them.
-/

namespace MappingTables.Format

open Text

/-! ## The header of a table that was read -/

/-- The namespaces and the properties of a table that `readFile` gives are those of the lines that
come first: `readHeader` and `readProperty` read them. -/
theorem Nested.header_of_readFile {lines : List ReadLine} {t : Table}
    (h : Nested.readFile lines = .ok t) :
    ∃ header rest, lines = .ok header :: rest ∧ Nested.readHeader header = .ok t.namespaces ∧
      readLevel 1 readProperty ∅ (rest.takeWhile (isDeeper 0)) = .ok t.properties := by
  unfold Nested.readFile at h
  split at h
  · cases h
  · cases h
  · next header rest =>
    obtain ⟨namespaces, hheader, h⟩ := bind_eq_ok_iff.1 h
    obtain ⟨properties, hproperties, h⟩ := bind_eq_ok_iff.1 h
    obtain ⟨rfl, rfl⟩ : t.namespaces = namespaces ∧ t.properties = properties := by
      refine readLevel_induction (fun t => t.namespaces = namespaces ∧ t.properties = properties)
        (within_eq_ok_iff.1 h) ⟨rfl, rfl⟩ ?_
      rintro s line body s' unread - - ⟨rfl, rfl⟩ hstep
      exact header_of_readTopLevel hstep
    exact ⟨header, rest, rfl, hheader, within_eq_ok_iff.1 hproperties⟩

/-- The namespaces of a table that `readFile` gives are those that `readHeader` reads from the first
line. -/
theorem Plain.header_of_readFile {lines : List ReadLine} {t : Table}
    (h : Plain.readFile lines = .ok t) :
    ∃ header rest, lines = .ok header :: rest ∧ Plain.readHeader header = .ok t.namespaces := by
  unfold Plain.readFile at h
  split at h
  · cases h
  · cases h
  · next header rest =>
    obtain ⟨namespaces, hheader, h⟩ := bind_eq_ok_iff.1 h
    obtain rfl : t.namespaces = namespaces := by
      refine foldlM_induction (fun t => t.namespaces = namespaces) h rfl ?_
      rintro (cause | line) - s s' rfl hstep
      · cases hstep
      · exact (header_of_readLine hstep).1
    exact ⟨header, rest, rfl, hheader⟩

/-- A text that does not start with a tab is read by `ofText` from its start: its `fields` are those
of the line. -/
theorem Line.fields_ofText_of_head? {text : String} (number : Nat)
    (h : text.toList.head? ≠ some '\t') :
    (ofText number text).head :: (ofText number text).fields = Text.fields text := by
  have hkept : text.toList.dropWhile (· == '\t') = text.toList := by
    cases hchars : text.toList with
    | nil => rfl
    | cons c rest =>
      rw [hchars, List.head?_cons, ne_eq, Option.some.injEq] at h
      rw [List.dropWhile_cons, if_neg (by simpa using h)]
  rw [fields_ofText, hkept, String.ofList_toList]

/-- A text that starts with a tab has an empty field first among its `fields`. -/
theorem head?_ne_of_head?_fields {text : String} (h : (fields text).head? ≠ some "") :
    text.toList.head? ≠ some '\t' := by
  intro htab
  obtain ⟨rest, hchars⟩ := List.head?_eq_some_iff.1 htab
  refine h ?_
  rw [fields, hchars, List.splitOn_cons_eq_if_modifyHead, if_pos (beq_self_eq_true _)]
  rfl

namespace Dialect

variable {dialect : Dialect} {line : String} {fields : List String} {ns : Namespaces}

/-- The namespaces that the header of a file of a `Dialect` names. -/
def readHeader : Dialect → Line → Except Failure Namespaces
  | plain => Plain.readHeader
  | nested => Nested.readHeader

theorem detect_eq_ok_iff :
    detect line = .ok dialect ↔ ofFields? (Text.fields (dropLineEnd line)) = some dialect := by
  unfold detect
  cases ofFields? (Text.fields (dropLineEnd line)) with
  | none => exact ⟨nofun, nofun⟩
  | some found => rw [Except.ok.injEq, Option.some.injEq]

/-- `detect` does not look at what `dropLineEnd` drops. -/
theorem detect_congr {line' : String} (h : dropLineEnd line = dropLineEnd line') :
    detect line = detect line' := by
  rw [detect, detect, h]

/-- The first field of a header, for which `ofFields?` finds a dialect, is not empty. -/
theorem head?_ne_of_ofFields? (h : ofFields? fields = some dialect) : fields.head? ≠ some "" := by
  unfold ofFields? at h
  split at h
  · simp
  · simp
  · cases h

/-- The labels that `readHeader` reads are those after the words that name the dialect, as many as
its `headerSize`. -/
theorem ofLabels_of_readHeader {line : Line}
    (hdialect : ofFields? (line.head :: line.fields) = some dialect)
    (h : dialect.readHeader line = .ok ns) :
    Namespaces.ofLabels ((line.head :: line.fields).drop dialect.headerSize) = .ok ns := by
  obtain ⟨number, depth, head, fields⟩ := line
  unfold ofFields? at hdialect
  split at hdialect
  · next hfields =>
    cases hdialect
    cases hfields
    exact within_eq_ok_iff.1 h
  · next hfields =>
    cases hdialect
    cases hfields
    exact within_eq_ok_iff.1 h
  · cases hdialect

/-- The namespaces of a table that `read` gives are those that `readHeader` reads from the first of
the `lines`. -/
theorem readHeader_of_read {text : String} {t : Table} (h : dialect.read text.toUTF8 = .ok t) :
    ∃ first rest, lines text = first :: rest ∧
      dialect.readHeader (Line.ofText 1 first) = .ok t.namespaces := by
  have htexts : Input.texts { bytes := text.toUTF8 } = (lines text).map .ok := by
    rw [Input.texts_of_bytes, fileLines_toUTF8, List.map_map]
    rfl
  obtain ⟨header, others, hlines, hheader⟩ : ∃ header others,
      readLines ((lines text).map .ok) = .ok header :: others ∧
        dialect.readHeader header = .ok t.namespaces := by
    -- both readers read the header of the first line before anything else
    rw [← htexts]
    cases dialect with
    | plain => exact Plain.header_of_readFile h
    | nested =>
      obtain ⟨header, others, hlines, hheader, -⟩ := Nested.header_of_readFile h
      exact ⟨header, others, hlines, hheader⟩
  cases hfirst : lines text with
  | nil =>
    rw [hfirst] at hlines
    cases hlines
  | cons first rest =>
    rw [hfirst] at hlines
    cases hlines
    exact ⟨first, rest, rfl, hheader⟩

end Dialect

section Texts

variable {text : String} {t : Table} {ns : Namespaces}

/-- `readHeaderLine` gives the `firstLine` of a text without its line end. This line is looked at
before the others. -/
theorem readHeaderLine_toUTF8 (text : String) :
    readHeaderLine { bytes := text.toUTF8 } = .ok (dropLineEnd (firstLine text)) := by
  rw [readHeaderLine, Input.header, headerLine?_toUTF8]
  rfl

/-- A text is read in the dialect that `detect` finds in its `firstLine`. -/
theorem read_toUTF8_eq_ok_iff : read text.toUTF8 = .ok t ↔
    ∃ dialect, Dialect.detect (firstLine text) = .ok dialect ∧
      dialect.read text.toUTF8 = .ok t := by
  rw [read_eq_ok_iff]
  unfold detect detectInput
  rw [readHeaderLine_toUTF8, ok_bind, Dialect.detect_congr (dropLineEnd_dropLineEnd _)]

/-- `readNamespaces` reads the labels of the `firstLine` after the words that name the dialect. -/
theorem readNamespaces_toUTF8_eq_ok_iff : readNamespaces text.toUTF8 = .ok ns ↔
    ∃ dialect, Dialect.detect (firstLine text) = .ok dialect ∧
      Namespaces.ofLabels ((fields (dropLineEnd (firstLine text))).drop dialect.headerSize) =
        .ok ns := by
  rw [readNamespaces, readHeaderLine_toUTF8, ok_bind, bind_eq_ok_iff,
    Dialect.detect_congr (dropLineEnd_dropLineEnd _)]
  simp only [within_eq_ok_iff]

/-- A table that `read` gives has the namespaces that `readNamespaces` reads. -/
theorem readNamespaces_of_read (htext : PairsReturns text.toList) (h : read text.toUTF8 = .ok t) :
    readNamespaces text.toUTF8 = .ok t.namespaces := by
  obtain ⟨dialect, hdetect, h⟩ := read_toUTF8_eq_ok_iff.1 h
  obtain ⟨first, rest, hlines, hheader⟩ := Dialect.readHeader_of_read h
  refine readNamespaces_toUTF8_eq_ok_iff.2 ⟨dialect, hdetect, ?_⟩
  rw [Dialect.detect_eq_ok_iff] at hdetect
  -- the line that the reader cuts out is the one that was looked at before
  have hfirst : dropLineEnd (firstLine text) = first := by
    have hmem : first ∈ lines text := hlines ▸ List.mem_cons_self
    rw [← dropLineEnd_headD_lines, hlines, List.headD_cons,
      dropLineEnd_of_avoids (avoids_of_mem_lines htext hmem)]
  rw [hfirst] at hdetect ⊢
  have hfields := Line.fields_ofText_of_head? 1
    (head?_ne_of_head?_fields (Dialect.head?_ne_of_ofFields? hdetect))
  rw [← hfields] at hdetect ⊢
  exact Dialect.ofLabels_of_readHeader hdetect hheader

/-- The texts of the lines do not depend on the line ends: `withFeedsOnly` leaves them alone. -/
theorem texts_withFeedsOnly (htext : PairsReturns text.toList) :
    Input.texts { bytes := (withFeedsOnly text).toUTF8 } =
      Input.texts { bytes := text.toUTF8 } := by
  rw [Input.texts_of_bytes, Input.texts_of_bytes, fileLines_toUTF8, fileLines_toUTF8,
    lines_withFeedsOnly htext]

/-- `withFeedsOnly` leaves the `firstLine` alone, but for its own line end. -/
theorem dropLineEnd_firstLine_withFeedsOnly (htext : PairsReturns text.toList) :
    dropLineEnd (firstLine (withFeedsOnly text)) = dropLineEnd (firstLine text) := by
  rw [← dropLineEnd_headD_lines, ← dropLineEnd_headD_lines, lines_withFeedsOnly htext]

/-- The readers agree on every text that `PairsReturns`, in which carriage returns belong to line
ends. It is read by `read` exactly if its `firstLine` is the header of a dialect in which it is
read, and as that table; the namespaces of this table are those that `readNamespaces` reads from the
first line alone; and if there are none to be read from it, the text is not read. None of the
readers tells a text from the same text `withFeedsOnly`, in which each carriage return and line feed
is a line feed. -/
theorem read_agrees (htext : PairsReturns text.toList) :
    (∀ t, read text.toUTF8 = .ok t ↔ ∃ dialect, Dialect.detect (firstLine text) = .ok dialect ∧
      dialect.read text.toUTF8 = .ok t) ∧
    (∀ t, read text.toUTF8 = .ok t → readNamespaces text.toUTF8 = .ok t.namespaces) ∧
    (∀ failure, readNamespaces text.toUTF8 = .error failure →
      ∃ failure', read text.toUTF8 = .error failure') ∧
    Dialect.detect (firstLine (withFeedsOnly text)) = Dialect.detect (firstLine text) ∧
    readNamespaces (withFeedsOnly text).toUTF8 = readNamespaces text.toUTF8 ∧
    read (withFeedsOnly text).toUTF8 = read text.toUTF8 ∧
    Plain.read (withFeedsOnly text).toUTF8 = Plain.read text.toUTF8 ∧
    Nested.read (withFeedsOnly text).toUTF8 = Nested.read text.toUTF8 := by
  -- header and readers see the text through its lines, where the returns are dropped
  have htexts := texts_withFeedsOnly htext
  have hfirst := dropLineEnd_firstLine_withFeedsOnly htext
  have hheader : readHeaderLine { bytes := (withFeedsOnly text).toUTF8 } =
      readHeaderLine { bytes := text.toUTF8 } := by
    rw [readHeaderLine_toUTF8, readHeaderLine_toUTF8, hfirst]
  have hplain : Plain.readInput { bytes := (withFeedsOnly text).toUTF8 } =
      Plain.readInput { bytes := text.toUTF8 } := by
    rw [Plain.readInput, Plain.readInput, htexts]
  have hnested : Nested.readInput { bytes := (withFeedsOnly text).toUTF8 } =
      Nested.readInput { bytes := text.toUTF8 } := by
    rw [Nested.readInput, Nested.readInput, htexts]
  refine ⟨fun t => read_toUTF8_eq_ok_iff, fun t => readNamespaces_of_read htext, ?_,
    Dialect.detect_congr hfirst, ?_, ?_, hplain, hnested⟩
  · intro failure hfailure
    cases hread : read text.toUTF8 with
    | error failure' => exact ⟨failure', rfl⟩
    | ok t =>
      rw [readNamespaces_of_read htext hread] at hfailure
      cases hfailure
  · rw [readNamespaces, readNamespaces, hheader]
  · unfold read readInput detectInput
    rw [hheader]
    refine congrArg _ (funext fun dialect => ?_)
    cases dialect with
    | plain => exact hplain
    | nested => exact hnested

end Texts

/-- A text with both line ends. -/
def mixedText : String :=
  "tiny\t2\t0\tofficial\tnamed\r\n\tescaped-names\nc\ta\tMain\r\n\tc\tOne.\r\n"

/-- The `mixedText` is read in both ways as the same table, with the namespaces of its first
line. -/
theorem read_agrees_sample : PairsReturns mixedText.toList ∧
    withFeedsOnly mixedText ≠ mixedText ∧
    ∃ t, read mixedText.toUTF8 = .ok t ∧ read (withFeedsOnly mixedText).toUTF8 = .ok t ∧
      readNamespaces mixedText.toUTF8 = .ok t.namespaces := by
  have htext : PairsReturns mixedText.toList := by decide +kernel
  obtain ⟨t, ht⟩ := Option.isSome_iff_exists.1
    (show (read mixedText.toUTF8).toOption.isSome = true by decide +kernel)
  have ht := toOption_eq_some_iff.1 ht
  obtain ⟨-, hnamespaces, -, -, -, hread, -⟩ := read_agrees htext
  exact ⟨htext, by decide +kernel, t, ht, hread.trans ht, hnamespaces t ht⟩

end MappingTables.Format
