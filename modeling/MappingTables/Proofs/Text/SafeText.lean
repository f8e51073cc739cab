import MappingTables.Proofs.Text.Escape
import MappingTables.Proofs.Text.Lines
import Mathlib.Data.Set.Function

/-!
# Safe text

Text in which there are no line ends, tabs and null characters can stand between tabs on one line.

* `isSafe_escape`: escaped text is safe.
* `escape_of_unescape`: safe text that can be read is the escaped form of what it stands for.
* `escape_isBijection`: escaping is a bijection onto the safe texts that can be read.
-/

namespace MappingTables.Text

/-- Whether a text can stand between tabs on one line: it `Avoids` the `rawChars`. -/
def IsSafe (t : String) : Prop :=
  Avoids rawChars t

instance (t : String) : Decidable (IsSafe t) :=
  inferInstanceAs (Decidable (Avoids _ t))

/-- None of the `rawChars` is in what `escapeChar` writes. -/
theorem not_mem_escapeChar {raw : Char} (hraw : raw ∈ rawChars) (c : Char) :
    raw ∉ escapeChar c := by
  unfold escapeChar
  cases h : escapeLetter? c with
  | none =>
    rw [List.mem_singleton]
    rintro rfl
    exact escapeLetter?_eq_none_iff.1 h (List.mem_cons_of_mem _ hraw)
  | some letter =>
    -- a backslash and a letter are left of an escaped character
    have hapart : ∀ raw ∈ rawChars, raw ≠ '\\' ∧ raw ∉ escapeLetters := by
      simp [rawChars, escapeLetters]
    rintro (_ | ⟨_, _ | ⟨_, ⟨⟩⟩⟩)
    · exact (hapart _ hraw).1 rfl
    · exact (hapart _ hraw).2 (mem_escapeLetters (escapedChar?_eq_some_iff.2 h))

/-- Text that `escape` writes `IsSafe`. -/
theorem isSafe_escape (s : String) : IsSafe (escape s) := by
  intro raw hraw
  rw [escape, String.toList_ofList, escapeChars, List.mem_flatMap]
  rintro ⟨c, -, hc⟩
  exact not_mem_escapeChar hraw c hc

/-- A symbol that has a `value`, and is safe, has the characters that `escapeChar` writes for its
value. -/
theorem Symbol.chars_eq_escapeChar {symbol : Symbol} {c : Char} (h : symbol.value = .ok c)
    (hsafe : ∀ c ∈ rawChars, c ∉ symbol.chars) : symbol.chars = escapeChar c := by
  cases symbol with
  | plain c' hc' =>
    obtain rfl := Except.ok.inj h
    -- a backslash alone would be escaped as well, but it is no plain symbol
    have hplain : escapeLetter? c' = none := escapeLetter?_eq_none_iff.2 fun hmem =>
      (List.mem_cons.1 hmem).elim hc' fun hmem => hsafe c' hmem List.mem_cons_self
    rw [escapeChar, hplain]
    rfl
  | pair letter =>
    rw [value] at h
    cases hletter : escapedChar? letter with
    | none =>
      rw [hletter] at h
      cases h
    | some c' =>
      rw [hletter] at h
      obtain rfl := Except.ok.inj h
      rw [escapeChar, escapedChar?_eq_some_iff.1 hletter]
      rfl
  | unfinished => cases h

/-- Safe characters that `unescapeChars` reads are what `escapeChars` writes for what they stand
for. -/
theorem escapeChars_of_unescapeChars {t s : List Char} (h : unescapeChars t = .ok s)
    (hsafe : ∀ c ∈ rawChars, c ∉ t) : escapeChars s = t := by
  rw [unescapeChars_eq_mapM, mapM_eq_ok_iff] at h
  -- symbol by symbol, the text is what escaping writes for the values
  have hchars : List.Forall₂ (fun symbol c => symbol.chars = escapeChar c) (symbols t) s :=
    forall₂_of_mem h fun symbol hsymbol c hc => symbol.chars_eq_escapeChar hc fun raw hraw hmem =>
      hsafe raw hraw (flatMap_chars_symbols t ▸ List.mem_flatMap_of_mem hsymbol hmem)
  have hmap : (symbols t).map Symbol.chars = s.map escapeChar := by
    rwa [← List.forall₂_eq_eq_eq, List.forall₂_map_left_iff, List.forall₂_map_right_iff]
  calc escapeChars s
      = (s.map escapeChar).flatten := List.flatMap_def
    _ = ((symbols t).map Symbol.chars).flatten := by rw [hmap]
    _ = t := by rw [← List.flatMap_def, flatMap_chars_symbols]

/-- Text that `IsSafe` and that `unescape` reads is what `escape` writes for what it stands for. -/
theorem escape_of_unescape {t s : String} (hsafe : IsSafe t) (h : unescape t = .ok s) :
    escape s = t := by
  rw [unescape_eq] at h
  cases hchars : unescapeChars t.toList with
  | error fault =>
    rw [hchars] at h
    cases h
  | ok chars =>
    rw [hchars] at h
    obtain rfl := Except.ok.inj h
    rw [escape, String.toList_ofList, escapeChars_of_unescapeChars hchars hsafe,
      String.ofList_toList]

/-- Every text has one form that `escape` writes, and these are the texts that `unescape` reads of
which each `IsSafe`. -/
theorem bijOn_escape : Set.BijOn escape Set.univ {t | IsSafe t ∧ ∃ s, unescape t = .ok s} := by
  refine ⟨fun s _ => ⟨isSafe_escape s, s, unescape_escape s⟩, fun s _ s' _ h => ?_, ?_⟩
  · -- what is read back tells the texts apart
    have hread := unescape_escape s
    rw [h, unescape_escape] at hread
    exact (Except.ok.inj hread).symm
  · rintro t ⟨hsafe, s, hs⟩
    exact ⟨s, trivial, escape_of_unescape hsafe hs⟩

/-- `escape` is a bijection from the texts onto those that `unescape` reads of which each `IsSafe`.
An escaped text is safe and stands for the text that was escaped; a safe text that can be read is
the escaped form of what it stands for; and `unescape` cannot read a text exactly if, among its
`symbols`, from left to right and with each backslash taking the next character along, there is a
backslash at its end or one before a character that names no escape. -/
theorem escape_isBijection :
    Set.BijOn escape Set.univ {t | IsSafe t ∧ ∃ s, unescape t = .ok s} ∧
    (∀ s, IsSafe (escape s) ∧ unescape (escape s) = .ok s) ∧
    (∀ t s, IsSafe t → unescape t = .ok s → escape s = t) ∧
    ∀ t, (∃ fault, unescape t = .error fault) ↔
      .unfinished ∈ symbols t.toList ∨
        ∃ letter, .pair letter ∈ symbols t.toList ∧ letter ∉ ['\\', 'n', 'r', 't', '0'] :=
  ⟨bijOn_escape, fun s => ⟨isSafe_escape s, unescape_escape s⟩,
    fun _ _ hsafe h => escape_of_unescape hsafe h, fun _ => exists_unescape_eq_error_iff⟩

/-- Three backslashes are a backslash and the start of an escape: with a letter after them
`unescape` reads a backslash and a line end, and at the end of a text they are refused. -/
theorem escape_isBijection_sample :
    IsSafe "\\\\\\n" ∧ unescape "\\\\\\n" = .ok "\\\n" ∧ escape "\\\n" = "\\\\\\n" ∧
      ∃ fault, unescape "\\\\\\" = .error fault := by
  obtain ⟨-, -, hback, hrefused⟩ := escape_isBijection
  have hsafe : IsSafe "\\\\\\n" := by decide
  have hread : unescape "\\\\\\n" = .ok "\\\n" := rfl
  exact ⟨hsafe, hread, hback _ _ hsafe hread, (hrefused _).2 (.inl (by decide))⟩

end MappingTables.Text
