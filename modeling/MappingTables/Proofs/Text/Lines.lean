import MappingTables.Format.Line
import Mathlib.Data.List.Basic

/-!
# Cutting texts into lines

The bytes of a text are cut where its characters are, because UTF-8 uses the bytes of the ASCII
characters for nothing else.

* `fileLines_toUTF8`: the lines of a text's bytes are the lines of the text.
* `lines_unlines`: rows that were joined to a text are cut out of it again.
* `avoids_of_mem_fileLines`: what a line of a file cannot contain.
-/

namespace MappingTables.Text

section Cut

variable {α : Type} [DecidableEq α]

/-- A line without the `ret` at its end, if there is one. -/
def dropReturn (ret : α) (l : List α) : List α :=
  if l.getLast? = some ret then l.dropLast else l

/-- A line that does not end with a `ret` stays as it is. -/
theorem dropReturn_of_getLast? {ret : α} {l : List α} (h : l.getLast? ≠ some ret) :
    dropReturn ret l = l :=
  if_neg h

/-- Nothing is in a line without its `ret` that was not there before. -/
theorem mem_of_mem_dropReturn {ret x : α} {l : List α} (h : x ∈ dropReturn ret l) : x ∈ l := by
  unfold dropReturn at h
  split at h
  · exact List.dropLast_subset l h
  · exact h

/-- `dropReturn` looks only at the end of a line. -/
theorem dropReturn_append {ret : α} {p l : List α} (h : l ≠ [] ∨ ∀ x ∈ p.getLast?, x ≠ ret) :
    dropReturn ret (p ++ l) = p ++ dropReturn ret l := by
  cases hl : l.getLast? with
  | none =>
    rw [List.getLast?_eq_none_iff] at hl
    subst hl
    rw [List.append_nil, dropReturn_of_getLast?]
    · exact (List.append_nil p).symm
    · exact fun hlast => h.resolve_left (absurd rfl) ret hlast rfl
  | some x =>
    have hne : l ≠ [] := by
      rintro rfl
      cases hl
    rw [dropReturn, dropReturn, List.getLast?_append, hl, List.dropLast_append_of_ne_nil hne]
    split <;> simp_all

/-- `cutLines` puts a character that is no line end at the front of the first line. -/
theorem cutLines_cons {feed ret x : α} {l : List α} (hfeed : x ≠ feed)
    (hret : ¬(x = ret ∧ l.head? = some feed)) :
    cutLines feed ret (x :: l) =
      match cutLines feed ret l with
      | [] => [[x]]
      | line :: lines => (x :: line) :: lines :=
  (if_neg hfeed).trans (if_neg hret)

/-- `cutLines` makes the part up to the first line feed the first line. -/
theorem cutLines_append_feed {feed ret : α} {l rest : List α} (hfeed : feed ∉ l) :
    cutLines feed ret (l ++ feed :: rest) = dropReturn ret l :: cutLines feed ret rest := by
  induction l with
  | nil =>
    rw [List.nil_append, cutLines, if_pos rfl]
    rfl
  | cons x l ih =>
    rw [List.mem_cons, not_or] at hfeed
    have ih := ih hfeed.2
    -- a `ret` right before the line feed belongs to the line end
    by_cases hlast : x = ret ∧ l = []
    · obtain ⟨rfl, rfl⟩ := hlast
      rw [List.cons_append, cutLines, if_neg (Ne.symm hfeed.1), if_pos ⟨rfl, rfl⟩, ih]
      simp [dropReturn]
    · have hdrop : dropReturn ret (x :: l) = x :: dropReturn ret l := by
        refine dropReturn_append (p := [x]) ?_
        by_contra! h
        obtain ⟨hl, y, hy, rfl⟩ := h
        exact hlast ⟨Option.some.inj hy, hl⟩
      rw [List.cons_append, cutLines_cons (Ne.symm hfeed.1), ih, hdrop]
      rintro ⟨hret, hhead⟩
      cases l with
      | nil => exact hlast ⟨hret, rfl⟩
      | cons y l => exact hfeed.2 (List.mem_cons.2 (.inl (Option.some.inj hhead).symm))

/-- `cutLines` puts characters that have nothing to do with line ends at the front of the first
line. -/
theorem cutLines_append {feed ret : α} {p l : List α} (hp : p ≠ [])
    (hother : ∀ x ∈ p, x ≠ feed ∧ x ≠ ret) :
    cutLines feed ret (p ++ l) =
      match cutLines feed ret l with
      | [] => [p]
      | line :: lines => (p ++ line) :: lines := by
  induction p with
  | nil => exact absurd rfl hp
  | cons x p ih =>
    have hx := hother x List.mem_cons_self
    rw [List.cons_append, cutLines_cons hx.1 fun h => hx.2 h.1]
    cases p with
    | nil =>
      rw [List.nil_append]
      cases cutLines feed ret l <;> rfl
    | cons y p =>
      rw [ih (List.cons_ne_nil y p) fun z hz => hother z (List.mem_cons_of_mem x hz)]
      cases cutLines feed ret l <;> rfl

/-- No line that `cutLines` gives contains a line feed, and all that is in a line was there
before. -/
theorem mem_of_mem_cutLines {feed ret : α} {l line : List α} (h : line ∈ cutLines feed ret l) :
    ∀ x ∈ line, x ∈ l ∧ x ≠ feed := by
  induction l generalizing line with
  | nil => cases h
  | cons y l ih =>
    have tail : ∀ {line}, line ∈ cutLines feed ret l → ∀ x ∈ line, x ∈ y :: l ∧ x ≠ feed :=
      fun h x hx => ⟨List.mem_cons_of_mem y (ih h x hx).1, (ih h x hx).2⟩
    -- a feed ends a line, a return right before it is dropped, and all else goes to the first line
    rw [cutLines] at h
    split at h
    · rcases List.mem_cons.1 h with rfl | h
      · simp
      · exact tail h
    · next hy =>
      split at h
      · exact tail h
      · split at h
        · rw [List.mem_singleton] at h
          subst h
          simp [hy]
        · next hcut =>
          rw [hcut] at tail
          rcases List.mem_cons.1 h with rfl | h
          · intro x hx
            rcases List.mem_cons.1 hx with rfl | hx
            · exact ⟨List.mem_cons_self, hy⟩
            · exact tail List.mem_cons_self x hx
          · exact tail (List.mem_cons_of_mem _ h)

end Cut

/-! ## The bytes of a text -/

/-- A byte that `utf8EncodeChar` gives for an ASCII character stands for that character alone. -/
theorem utf8EncodeChar_of_mem_of_lt {c : Char} {b : UInt8} (h : b ∈ String.utf8EncodeChar c)
    (hb : b.toNat < 128) : String.utf8EncodeChar c = [b] ∧ c.toNat = b.toNat := by
  unfold String.utf8EncodeChar at h ⊢
  dsimp only at h ⊢
  have hv : c.val.toNat = c.toNat := rfl
  split at h
  · next hsmall =>
    rw [List.mem_singleton] at h
    subst h
    refine ⟨if_pos hsmall, ?_⟩
    rw [UInt8.toNat_ofNat']
    omega
  · -- in an encoding of more than one byte none of them is that of an ASCII character
    exfalso
    split at h
    · simp only [List.mem_cons, List.not_mem_nil, or_false] at h
      rcases h with rfl | rfl <;> rw [UInt8.toNat_ofNat'] at hb <;> omega
    · split at h
      · simp only [List.mem_cons, List.not_mem_nil, or_false] at h
        rcases h with rfl | rfl | rfl <;> rw [UInt8.toNat_ofNat'] at hb <;> omega
      · simp only [List.mem_cons, List.not_mem_nil, or_false] at h
        rcases h with rfl | rfl | rfl | rfl <;> rw [UInt8.toNat_ofNat'] at hb <;> omega

/-- The bytes that `utf8EncodeChar` gives for a character other than a line end are none of a line
end. -/
theorem ne_of_mem_utf8EncodeChar {c d : Char} {b : UInt8} (hd : d.toNat = b.toNat)
    (hb : b.toNat < 128) (hc : c ≠ d) : b ∉ String.utf8EncodeChar c := fun h =>
  hc (Char.toNat_inj.1 ((utf8EncodeChar_of_mem_of_lt h hb).2.trans hd.symm))

/-- The bytes of a text are those that `utf8EncodeChar` gives for its characters. -/
theorem toList_data_toUTF8 (s : String) :
    s.toUTF8.data.toList = s.toList.flatMap String.utf8EncodeChar := by
  rw [String.toUTF8_eq_toByteArray, ← String.utf8Encode_toList, List.utf8Encode,
    List.data_toByteArray]

/-- `decode?` reads the bytes of a text as that text. -/
theorem decode?_flatMap_utf8EncodeChar (s : List Char) :
    decode? (s.flatMap String.utf8EncodeChar) = some (String.ofList s) := by
  have hbytes : (⟨(s.flatMap String.utf8EncodeChar).toArray⟩ : ByteArray) =
      (String.ofList s).toByteArray := by
    rw [String.toByteArray_ofList, List.utf8Encode]
    exact ByteArray.ext List.data_toByteArray.symm
  rw [decode?, hbytes, String.fromUTF8?, dif_pos (String.ofList s).isValidUTF8]
  rfl

/-- `decode?` reads only a text's own bytes as it. -/
theorem toList_data_toUTF8_of_decode? {bytes : List UInt8} {s : String}
    (h : decode? bytes = some s) : s.toUTF8.data.toList = bytes := by
  rw [decode?, String.fromUTF8?] at h
  split at h
  · rw [← Option.some.inj h]
    rfl
  · cases h

/-- `cutLines` cuts the bytes of characters into lines where it cuts the characters. -/
theorem cutLines_flatMap_utf8EncodeChar (s : List Char) :
    cutLines 0x0a 0x0d (s.flatMap String.utf8EncodeChar) =
      (cutLines '\n' '\r' s).map (·.flatMap String.utf8EncodeChar) := by
  induction s with
  | nil => rfl
  | cons c s ih =>
    rw [List.flatMap_cons]
    by_cases hfeed : c = '\n'
    · subst hfeed
      rw [show String.utf8EncodeChar '\n' = [0x0a] from rfl, List.singleton_append, cutLines,
        if_pos rfl, ih, cutLines, if_pos rfl]
      rfl
    · -- a carriage return counts before a line feed only, so the next byte matters too
      have hhead : (s.flatMap String.utf8EncodeChar).head? = some 0x0a ↔ s.head? = some '\n' := by
        cases s with
        | nil => simp
        | cons d s =>
          rw [List.flatMap_cons, List.head?_append_of_ne_nil _ String.utf8EncodeChar_ne_nil,
            List.head?_cons, Option.some.injEq]
          constructor
          · intro h
            by_contra hd
            exact ne_of_mem_utf8EncodeChar (by rfl) (by decide) hd (List.mem_of_head? h)
          · rintro rfl
            rfl
      by_cases hret : c = '\r'
      · subst hret
        rw [show String.utf8EncodeChar '\r' = [0x0d] from rfl, List.singleton_append]
        by_cases hs : s.head? = some '\n'
        · rw [cutLines, if_neg (by decide), if_pos ⟨rfl, hhead.2 hs⟩, ih, cutLines,
            if_neg hfeed, if_pos ⟨rfl, hs⟩]
        · rw [cutLines_cons (by decide) (fun h => hs (hhead.1 h.2)), ih,
            cutLines_cons hfeed (fun h => hs h.2)]
          cases cutLines '\n' '\r' s <;> rfl
      · rw [cutLines_append String.utf8EncodeChar_ne_nil, ih, cutLines_cons hfeed fun h => hret h.1]
        · cases cutLines '\n' '\r' s <;> simp
        · intro b hb
          constructor
          · rintro rfl
            exact ne_of_mem_utf8EncodeChar (by rfl) (by decide) hfeed hb
          · rintro rfl
            exact ne_of_mem_utf8EncodeChar (by rfl) (by decide) hret hb

/-- The `fileLines` of a text's bytes are the `lines` of the text. -/
theorem fileLines_toUTF8 (s : String) : fileLines s.toUTF8 = (lines s).map some := by
  rw [fileLines, toList_data_toUTF8, cutLines_flatMap_utf8EncodeChar, lines, List.map_map,
    List.map_map]
  exact List.map_congr_left fun line _ => decode?_flatMap_utf8EncodeChar line

/-! ## What lines contain -/

/-- Whether the text `s` contains none of `chars`. -/
def Avoids (chars : List Char) (s : String) : Prop :=
  ∀ c ∈ chars, c ∉ s.toList

instance (chars : List Char) (s : String) : Decidable (Avoids chars s) :=
  List.decidableBAll (fun c => c ∉ s.toList) chars

/-- A text that `Avoids` characters avoids some of them. -/
theorem Avoids.mono {chars chars' : List Char} {s : String} (h : Avoids chars s)
    (hsub : chars' ⊆ chars) : Avoids chars' s :=
  fun c hc => h c (hsub hc)

/-- None of the `fileLines` contains a line feed, or a character whose byte is not in the file. -/
theorem avoids_of_mem_fileLines {bytes : ByteArray} {s : String}
    (h : some s ∈ fileLines bytes) :
    Avoids ['\n'] s ∧ (0x0d ∉ bytes.data → Avoids ['\n', '\r'] s) := by
  obtain ⟨line, hline, hs⟩ := List.mem_map.1 h
  have hbyte : ∀ {c : Char} {b : UInt8}, String.utf8EncodeChar c = [b] → c ∈ s.toList →
      b ∈ bytes.data.toList ∧ b ≠ 0x0a := by
    intro c b hb hc
    refine mem_of_mem_cutLines hline b ?_
    rw [← toList_data_toUTF8_of_decode? hs, toList_data_toUTF8]
    exact List.mem_flatMap.2 ⟨c, hc, hb ▸ List.mem_singleton_self b⟩
  have hfeed : '\n' ∉ s.toList := fun hc => (hbyte (b := 0x0a) rfl hc).2 rfl
  refine ⟨?_, fun hret => ?_⟩
  · simpa [Avoids] using hfeed
  · have hr : '\r' ∉ s.toList := fun hc =>
      hret (Array.mem_def.2 (hbyte (b := 0x0d) rfl hc).1)
    simpa [Avoids] using And.intro hfeed hr

/-- A text without the carriage return at its end, if there is one, by `dropReturn`. -/
def withoutReturn (s : String) : String :=
  String.ofList (dropReturn '\r' s.toList)

/-- Whether the text `s` ends with a carriage return. -/
def EndsInReturn (s : String) : Prop :=
  s.toList.getLast? = some '\r'

instance (s : String) : Decidable (EndsInReturn s) :=
  inferInstanceAs (Decidable (_ = _))

theorem withoutReturn_of_not_endsInReturn {s : String} (h : ¬EndsInReturn s) :
    withoutReturn s = s := by
  rw [withoutReturn, dropReturn_of_getLast? h, String.ofList_toList]

/-- A carriage return at the end of a text gets lost, so the text is shorter `withoutReturn`. -/
theorem length_withoutReturn_lt {s : String} (h : EndsInReturn s) :
    (withoutReturn s).length < s.length := by
  have hne : s.toList ≠ [] := by
    intro hnil
    rw [EndsInReturn, hnil] at h
    cases h
  have hpos : 0 < s.toList.length := List.length_pos_of_ne_nil hne
  have hdrop : dropReturn '\r' s.toList = s.toList.dropLast := if_pos h
  rw [← String.length_toList, ← String.length_toList, withoutReturn, String.toList_ofList, hdrop,
    List.length_dropLast]
  omega

theorem withoutReturn_eq_self_iff {s : String} : withoutReturn s = s ↔ ¬EndsInReturn s := by
  constructor
  · intro heq h
    have hlt := length_withoutReturn_lt h
    rw [heq] at hlt
    exact absurd hlt (Nat.lt_irrefl _)
  · exact withoutReturn_of_not_endsInReturn

theorem length_withoutReturn_le (s : String) : (withoutReturn s).length ≤ s.length := by
  by_cases h : EndsInReturn s
  · exact Nat.le_of_lt (length_withoutReturn_lt h)
  · exact Nat.le_of_eq (congrArg String.length (withoutReturn_of_not_endsInReturn h))

theorem Avoids.withoutReturn {chars : List Char} {s : String} (h : Avoids chars s) :
    Avoids chars (withoutReturn s) := by
  intro c hc hmem
  rw [Text.withoutReturn, String.toList_ofList] at hmem
  exact h c hc (mem_of_mem_dropReturn hmem)

/-- A text without a carriage return stays as it is `withoutReturn`. -/
theorem withoutReturn_of_avoids {s : String} (h : Avoids ['\r'] s) : withoutReturn s = s :=
  withoutReturn_of_not_endsInReturn fun hlast =>
    h '\r' List.mem_cons_self (List.mem_of_getLast? hlast)

/-- Rows that contain no line feed are cut by `lines` out of the text to which `unlines` joins them,
but for a carriage return at the end of a row. -/
theorem lines_unlines {rows : List String} (h : ∀ row ∈ rows, Avoids ['\n'] row) :
    lines (Format.unlines rows) = rows.map withoutReturn := by
  have hchars : (Format.unlines rows).toList = rows.flatMap fun row => row.toList ++ ['\n'] := by
    rw [Format.unlines, String.toList_join, List.flatMap_map]
    exact List.flatMap_congr fun row _ => String.toList_append
  have hcut : cutLines '\n' '\r' (rows.flatMap fun row => row.toList ++ ['\n']) =
      rows.map fun row => dropReturn '\r' row.toList := by
    clear hchars
    induction rows with
    | nil => rfl
    | cons row rows ih =>
      rw [List.flatMap_cons, List.append_assoc, List.singleton_append,
        cutLines_append_feed (h row List.mem_cons_self '\n' List.mem_cons_self),
        ih fun row' hrow' => h row' (List.mem_cons_of_mem row hrow'), List.map_cons]
  rw [lines, hchars, hcut, List.map_map]
  rfl

end MappingTables.Text
