import Mathlib.Data.List.DropRight
import Mathlib.Data.List.TakeWhile
import MappingTables.Proofs.Text.Lines

/-!
# Line ends

A line can end with a line feed alone or with a carriage return before it, and the first line can be
found without cutting a text into lines.

* `PairsReturns`: the texts in which carriage returns belong to line ends.
* `lines_withFeedsOnly`: the lines of such a text are the same with line feeds alone.
* `dropLineEnd_headD_lines`: the first line is what stands before the first line feed, but for
  carriage returns at its end.
* `headerLine?_toUTF8`: the same in bytes.
-/

namespace MappingTables.Text

/-! ## Carriage returns -/

/-- Whether each carriage return in `s` stands directly before a line feed and not behind another
one. -/
def PairsReturns (s : List Char) : Prop :=
  ∀ i < s.length, s[i]? = some '\r' →
    s[i + 1]? = some '\n' ∧ (0 < i → s[i - 1]? ≠ some '\r')

instance (s : List Char) : Decidable (PairsReturns s) :=
  inferInstanceAs (Decidable (∀ i < s.length, _ → _ ∧ _))

/-- Characters with a line feed in the place of each carriage return and line feed. -/
def feedsOnly : List Char → List Char
  | '\r' :: '\n' :: rest => '\n' :: feedsOnly rest
  | c :: rest => c :: feedsOnly rest
  | [] => []

/-- A text with a line feed in the place of each carriage return and line feed, by `feedsOnly`. -/
def withFeedsOnly (s : String) : String :=
  String.ofList (feedsOnly s.toList)

namespace PairsReturns

variable {c : Char} {s : List Char}

theorem tail (h : PairsReturns (c :: s)) : PairsReturns s := by
  intro i hi hret
  obtain ⟨hnext, hbefore⟩ := h (i + 1) (Nat.succ_lt_succ hi) hret
  refine ⟨hnext, fun hpos => ?_⟩
  obtain ⟨j, rfl⟩ : ∃ j, i = j + 1 := ⟨i - 1, by omega⟩
  exact hbefore (Nat.succ_pos _)

/-- In a text that `PairsReturns` a carriage return comes before a line feed. -/
theorem eq_cons_of_return (h : PairsReturns ('\r' :: s)) : ∃ rest, s = '\n' :: rest := by
  obtain ⟨hnext, -⟩ := h 0 (Nat.succ_pos _) rfl
  cases s with
  | nil => cases hnext
  | cons d rest => exact ⟨rest, by rw [Option.some.inj hnext]⟩

/-- `feedsOnly` leaves no carriage returns in a text that `PairsReturns`, and `cutLines` gives the
same lines. -/
theorem cutLines_feedsOnly (h : PairsReturns s) :
    '\r' ∉ feedsOnly s ∧ cutLines '\n' '\r' (feedsOnly s) = cutLines '\n' '\r' s := by
  fun_induction feedsOnly s with
  | case1 rest ih =>
    obtain ⟨hnone, hcut⟩ := ih h.tail.tail
    exact ⟨by simpa using hnone, by simp [cutLines, hcut]⟩
  | case2 c rest hpair ih =>
    obtain ⟨hnone, hcut⟩ := ih h.tail
    have hc : c ≠ '\r' := by
      rintro rfl
      obtain ⟨rest, rfl⟩ := h.eq_cons_of_return
      exact hpair rest rfl rfl
    refine ⟨by simp [hnone, hc.symm], ?_⟩
    by_cases hfeed : c = '\n'
    · simp [cutLines, hfeed, hcut]
    · rw [cutLines_cons hfeed fun hret => hc hret.1,
        cutLines_cons hfeed fun hret => hc hret.1, hcut]
  | case3 => exact ⟨List.not_mem_nil, rfl⟩

end PairsReturns

variable {s : String}

/-- The `lines` of a text that `PairsReturns` are the same `withFeedsOnly`. -/
theorem lines_withFeedsOnly (h : PairsReturns s.toList) : lines (withFeedsOnly s) = lines s := by
  rw [lines, lines, withFeedsOnly, String.toList_ofList, h.cutLines_feedsOnly.2]

/-- None of the `lines` of a text that `PairsReturns` contains a line end. -/
theorem avoids_of_mem_lines {line : String} (h : PairsReturns s.toList) (hline : line ∈ lines s) :
    Avoids ['\n', '\r'] line := by
  obtain ⟨chars, hchars, rfl⟩ := List.mem_map.1 hline
  rw [← h.cutLines_feedsOnly.2] at hchars
  have hmem := mem_of_mem_cutLines hchars
  simp only [Avoids, String.toList_ofList, List.forall_mem_cons, List.not_mem_nil, false_imp_iff,
    implies_true, and_true]
  exact ⟨fun hfeed => (hmem _ hfeed).2 rfl, fun hret => h.cutLines_feedsOnly.1 (hmem _ hret).1⟩

/-! ## The first line -/

/-- What stands before the first line feed of the text `s`. -/
def firstLine (s : String) : String :=
  String.ofList (s.toList.takeWhile (· ≠ '\n'))

/-- `dropLineEnd` leaves a text without line ends as it is. -/
theorem dropLineEnd_of_avoids (h : Avoids ['\n', '\r'] s) : dropLineEnd s = s := by
  have hkept : s.toList.reverse.dropWhile (fun c => c == '\n' || c == '\r') = s.toList.reverse := by
    rw [List.dropWhile_eq_self_iff]
    intro hpos hend
    have hmem : s.toList.reverse[0] ∈ s.toList := List.mem_reverse.1 (List.getElem_mem hpos)
    rw [Bool.or_eq_true, beq_iff_eq, beq_iff_eq] at hend
    rcases hend with hend | hend
    · exact h '\n' (by simp) (hend ▸ hmem)
    · exact h '\r' (by simp) (hend ▸ hmem)
  rw [dropLineEnd, hkept, List.reverse_reverse, String.ofList_toList]

/-- `dropLineEnd` leaves out all line ends at once. -/
@[simp]
theorem dropLineEnd_dropLineEnd (s : String) : dropLineEnd (dropLineEnd s) = dropLineEnd s := by
  rw [dropLineEnd, dropLineEnd, String.toList_ofList, List.reverse_reverse,
    List.dropWhile_idempotent]

/-- `dropLineEnd` leaves out a carriage return at the end in any case. -/
theorem dropLineEnd_dropReturn (l : List Char) :
    dropLineEnd (String.ofList (dropReturn '\r' l)) = dropLineEnd (String.ofList l) := by
  unfold dropReturn
  split
  · next hlast =>
    obtain ⟨before, rfl⟩ := List.getLast?_eq_some_iff.1 hlast
    simp [dropLineEnd]
  · rfl

/-- `cutLines` makes one line of characters without a line feed, if there are any. -/
theorem cutLines_of_not_mem {α : Type} [DecidableEq α] {feed ret : α} {l : List α}
    (hfeed : feed ∉ l) :
    cutLines feed ret l = if l = [] then [] else [l] := by
  induction l with
  | nil => rfl
  | cons x l ih =>
    rw [List.mem_cons, not_or] at hfeed
    have hnext : ¬(x = ret ∧ l.head? = some feed) := fun h => hfeed.2 (List.mem_of_head? h.2)
    rw [cutLines_cons (Ne.symm hfeed.1) hnext, ih hfeed.2, if_neg (List.cons_ne_nil x l)]
    by_cases hl : l = [] <;> simp [hl]

/-- What stands before the first `sep`, and the rest. -/
theorem span_append_cons {sep : Char} {first : List Char} (h : sep ∉ first) (rest : List Char) :
    (first ++ sep :: rest).takeWhile (· ≠ sep) = first ∧
      (first ++ sep :: rest).dropWhile (· ≠ sep) = sep :: rest := by
  have hother : ∀ c ∈ first, decide (c ≠ sep) = true := by
    rintro c hc
    exact decide_eq_true fun hsep => h (hsep ▸ hc)
  rw [List.takeWhile_append_of_pos hother, List.dropWhile_append_of_pos hother]
  simp

/-- What stands before a separator can be told from what stands behind it, if it contains none. -/
theorem append_cons_inj {sep : Char} {first first' rest rest' : List Char} (hfirst : sep ∉ first)
    (hfirst' : sep ∉ first') (h : first ++ sep :: rest = first' ++ sep :: rest') :
    first = first' ∧ rest = rest' := by
  obtain ⟨htake, hdrop⟩ := span_append_cons hfirst rest
  obtain ⟨htake', hdrop'⟩ := span_append_cons hfirst' rest'
  rw [h] at htake hdrop
  exact ⟨htake.symm.trans htake', (List.cons.inj (hdrop.symm.trans hdrop')).2⟩

/-- What stands before a line feed is the `firstLine`, if it contains none itself. -/
theorem firstLine_append {first rest : String} (h : Avoids ['\n'] first) :
    firstLine (first ++ "\n" ++ rest) = first := by
  have hchars : (first ++ "\n" ++ rest).toList = first.toList ++ '\n' :: rest.toList := by
    simp [String.toList_append]
  rw [firstLine, hchars, (span_append_cons (h '\n' List.mem_cons_self) _).1, String.ofList_toList]

/-- The first of the `lines` of a text is the `firstLine`, but for carriage returns at its end. -/
theorem dropLineEnd_headD_lines (s : String) :
    dropLineEnd ((lines s).headD "") = dropLineEnd (firstLine s) := by
  rw [lines, firstLine]
  by_cases hfeed : '\n' ∈ s.toList
  · obtain ⟨first, rest, hs, hfirst⟩ := List.eq_append_cons_of_mem hfeed
    rw [hs, cutLines_append_feed hfirst, (span_append_cons hfirst _).1]
    exact dropLineEnd_dropReturn first
  · have hall : s.toList.takeWhile (· ≠ '\n') = s.toList :=
      List.takeWhile_eq_self_iff.2 fun c hc => decide_eq_true fun heq => hfeed (heq ▸ hc)
    rw [cutLines_of_not_mem hfeed, hall]
    split
    · next hnil => rw [hnil]; rfl
    · rfl

/-- `dropLineEnd` leaves alone what stands before a tab. -/
theorem dropLineEnd_append_tab (first rest : String) :
    dropLineEnd (first ++ "\t" ++ rest) = first ++ "\t" ++ dropLineEnd rest := by
  rw [← String.toList_inj]
  simp [dropLineEnd, String.toList_append, List.dropWhile_append]

/-- Bytes that `cutLines` cuts into lines of encoded characters are encoded characters
themselves. -/
theorem exists_eq_flatMap_of_cutLines {bytes : List UInt8}
    (h :
      ∀ line ∈ cutLines 0x0a 0x0d bytes, ∃ s : List Char, line = s.flatMap String.utf8EncodeChar) :
    ∃ s : List Char, bytes = s.flatMap String.utf8EncodeChar := by
  induction hlength : bytes.length using Nat.strong_induction_on generalizing bytes with
  | _ length ih =>
    subst hlength
    by_cases hfeed : 0x0a ∈ bytes
    · obtain ⟨first, rest, rfl, hfirst⟩ := List.eq_append_cons_of_mem hfeed
      rw [cutLines_append_feed hfirst, List.forall_mem_cons] at h
      obtain ⟨⟨s, hs⟩, h⟩ := h
      obtain ⟨s', rfl⟩ := ih rest.length (by simp; omega) h rfl
      -- the line end is a line feed, with a carriage return before it or without
      unfold dropReturn at hs
      split at hs
      · next hlast =>
        obtain ⟨before, rfl⟩ := List.getLast?_eq_some_iff.1 hlast
        rw [List.dropLast_concat] at hs
        refine ⟨s ++ '\r' :: '\n' :: s', ?_⟩
        rw [hs, List.append_assoc, List.flatMap_append]
        rfl
      · refine ⟨s ++ '\n' :: s', ?_⟩
        rw [hs, List.flatMap_append]
        rfl
    · rw [cutLines_of_not_mem hfeed] at h
      split at h
      · next hnil => exact ⟨[], hnil⟩
      · exact h bytes List.mem_cons_self

/-- A file holds a text if all its `fileLines` are texts. -/
theorem exists_toUTF8_of_fileLines {bytes : ByteArray}
    (h : ∀ line ∈ fileLines bytes, ∃ s, line = some s) : ∃ s : String, bytes = s.toUTF8 := by
  have hlines : ∀ line ∈ cutLines 0x0a 0x0d bytes.data.toList,
      ∃ s : List Char, line = s.flatMap String.utf8EncodeChar := by
    intro line hline
    obtain ⟨s, hs⟩ := h _ (List.mem_map_of_mem hline)
    exact ⟨s.toList, by rw [← toList_data_toUTF8, toList_data_toUTF8_of_decode? hs]⟩
  obtain ⟨s, hs⟩ := exists_eq_flatMap_of_cutLines hlines
  refine ⟨String.ofList s, ByteArray.ext (Array.toList_inj.1 ?_)⟩
  rw [hs, toList_data_toUTF8, String.toList_ofList]

/-- The bytes before the first line feed are those of the characters before it, as `utf8EncodeChar`
encodes them. -/
theorem takeWhile_flatMap_utf8EncodeChar (s : List Char) :
    (s.flatMap String.utf8EncodeChar).takeWhile (· != 0x0a) =
      (s.takeWhile (· ≠ '\n')).flatMap String.utf8EncodeChar := by
  induction s with
  | nil => rfl
  | cons c s ih =>
    rw [List.flatMap_cons]
    by_cases hfeed : c = '\n'
    · subst hfeed
      rfl
    · -- a line feed is encoded as itself, and as nothing else
      have hbytes : ∀ b ∈ String.utf8EncodeChar c, (b != 0x0a) = true := by
        intro b hb
        rw [bne_iff_ne]
        rintro rfl
        exact ne_of_mem_utf8EncodeChar (by rfl) (by decide) hfeed hb
      rw [List.takeWhile_append_of_pos hbytes, ih, List.takeWhile_cons,
        if_pos (decide_eq_true hfeed), List.flatMap_cons]

/-- `headerLine?` finds in a text's bytes the `firstLine` of the text. -/
theorem headerLine?_toUTF8 (s : String) :
    headerLine? s.toUTF8 = some (dropLineEnd (firstLine s)) := by
  rw [headerLine?, toList_data_toUTF8, takeWhile_flatMap_utf8EncodeChar,
    decode?_flatMap_utf8EncodeChar]
  rfl

end MappingTables.Text
