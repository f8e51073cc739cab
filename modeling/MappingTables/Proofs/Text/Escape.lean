import MappingTables.Proofs.Sequencing
import MappingTables.Text.Escape
import Mathlib.Algebra.Ring.Parity
import Mathlib.Data.List.DropRight

/-!
# Reading escaped text back

* `unescape_escape`: what was escaped is read back as it was.
* `symbols`: escaped text as it is read from left to right, a backslash together with the character
  after it; `unescapeChars_eq_mapM`: it is read symbol by symbol.
* `exists_unescape_eq_error_iff`: which symbols are refused; `exists_unescape_eq_error_iff_odd` says
  it by the runs of backslashes in the text.
* `pair_mem_symbols_iff`: a character is taken along by a backslash exactly if an odd number of
  backslashes stands right before it.
* `unescape_eq_ok_empty_iff`: nothing but the empty text stands for the empty text.
-/

namespace MappingTables.Text

/-! ## The two tables -/

/-- The characters that do not stand in escaped text. -/
def rawChars : List Char :=
  ['\n', '\r', '\t', '\x00']

/-- The letters that stand after a backslash in escaped text. -/
def escapeLetters : List Char :=
  ['\\', 'n', 'r', 't', '0']

/-- `escapeLetter?` finds no letter for the characters that are not escaped. -/
theorem escapeLetter?_eq_none_iff {c : Char} : escapeLetter? c = none ↔ c ∉ '\\' :: rawChars := by
  constructor
  · intro h hc
    have hall : ∀ c ∈ '\\' :: rawChars, escapeLetter? c ≠ none := by simp [rawChars, escapeLetter?]
    exact hall c hc h
  · intro h
    unfold escapeLetter?
    split <;> simp_all [rawChars]

/-- `escapedChar?` finds no character for the letters that name none. -/
theorem escapedChar?_eq_none_iff {letter : Char} :
    escapedChar? letter = none ↔ letter ∉ escapeLetters := by
  constructor
  · intro h hletter
    have hall : ∀ c ∈ escapeLetters, escapedChar? c ≠ none := by simp [escapeLetters, escapedChar?]
    exact hall letter hletter h
  · intro h
    unfold escapedChar?
    split <;> simp_all [escapeLetters]

/-- A letter for which `escapedChar?` finds a character is one of the `escapeLetters`. -/
theorem mem_escapeLetters {c letter : Char} (h : escapedChar? letter = some c) :
    letter ∈ escapeLetters := by
  by_contra hletter
  rw [escapedChar?_eq_none_iff.2 hletter] at h
  cases h

/-- `escapedChar?` finds for a letter the character that it is written for, and no other one. -/
theorem escapedChar?_eq_some_iff {c letter : Char} :
    escapedChar? letter = some c ↔ escapeLetter? c = some letter := by
  constructor
  · intro h
    have hback : ∀ letter ∈ escapeLetters,
        (escapedChar? letter).bind escapeLetter? = some letter := by
      simp [escapeLetters, escapedChar?, escapeLetter?]
    simpa [h] using hback letter (mem_escapeLetters h)
  · exact escapedChar?_of_escapeLetter?

/-! ## Reading back -/

/-- A character for which `escapeLetter?` finds no letter is not a backslash. -/
theorem ne_backslash_of_escapeLetter?_eq_none {c : Char} (h : escapeLetter? c = none) :
    c ≠ '\\' := by
  rintro rfl
  cases h

/-- `unescapeChars` reads a backslash and a `letter` as the character that the letter names. -/
theorem unescapeChars_backslash {c letter : Char} (h : escapedChar? letter = some c)
    (rest : List Char) :
    unescapeChars ('\\' :: letter :: rest) = (c :: ·) <$> unescapeChars rest := by
  rw [unescapeChars, h]

/-- `unescapeChars` reads characters other than a backslash as themselves. -/
theorem unescapeChars_cons {c : Char} (h : c ≠ '\\') (rest : List Char) :
    unescapeChars (c :: rest) = (c :: ·) <$> unescapeChars rest := by
  rw [unescapeChars]
  exact h

/-- `unescapeChars` reads characters without a backslash as themselves. -/
theorem unescapeChars_of_not_mem {s : List Char} (h : '\\' ∉ s) : unescapeChars s = .ok s := by
  induction s with
  | nil => rfl
  | cons c s ih =>
    rw [List.mem_cons, not_or] at h
    rw [unescapeChars_cons (Ne.symm h.1), ih h.2]
    rfl

/-- `unescape`, which does not look at a text without backslashes, gives the same as
`unescapeChars`. -/
theorem unescape_eq (s : String) : unescape s = String.ofList <$> unescapeChars s.toList := by
  unfold unescape
  split
  · rfl
  · next h =>
    rw [unescapeChars_of_not_mem h]
    exact congrArg Except.ok String.ofList_toList.symm

/-- `unescapeChars` reads back what `escapeChar` wrote, whatever follows it. -/
theorem unescapeChars_escapeChar_append (c : Char) (rest : List Char) :
    unescapeChars (escapeChar c ++ rest) = (c :: ·) <$> unescapeChars rest := by
  unfold escapeChar
  cases h : escapeLetter? c with
  | some letter => exact unescapeChars_backslash (escapedChar?_of_escapeLetter? h) rest
  | none => exact unescapeChars_cons (ne_backslash_of_escapeLetter?_eq_none h) rest

/-- `unescapeChars` reads back what `escapeChars` wrote. -/
theorem unescapeChars_escapeChars (s : List Char) : unescapeChars (escapeChars s) = .ok s := by
  induction s with
  | nil => rfl
  | cons c s ih =>
    rw [escapeChars, List.flatMap_cons, unescapeChars_escapeChar_append]
    change _ <$> unescapeChars (escapeChars s) = _
    rw [ih]
    rfl

/-- `unescape` reads back what `escape` wrote. -/
theorem unescape_escape (s : String) : unescape (escape s) = .ok s := by
  rw [unescape_eq, escape, String.toList_ofList, unescapeChars_escapeChars]
  exact congrArg _ (String.ofList_toList)

/-! ## Symbols -/

/-- A symbol of escaped text. -/
inductive Symbol where
  /-- A character that stands for itself. -/
  | plain (c : Char) (ne_backslash : c ≠ '\\')
  /-- A backslash and the character after it. -/
  | pair (letter : Char)
  /-- A backslash at the end of the text. -/
  | unfinished
deriving DecidableEq, Repr

namespace Symbol

/-- The characters of a `Symbol`. -/
def chars : Symbol → List Char
  | plain c _ => [c]
  | pair letter => ['\\', letter]
  | unfinished => ['\\']

/-- The character that a `Symbol` stands for, which `escapedChar?` finds after a backslash. -/
def value : Symbol → Except EscapeFault Char
  | plain c _ => .ok c
  | pair letter =>
    match escapedChar? letter with
    | some c => .ok c
    | none => .error (.unknown letter)
  | unfinished => .error .unfinished

end Symbol

/-- The symbols of a text, from left to right. A backslash takes the next character along in a
`pair`, whatever it is. -/
def symbols : List Char → List Symbol
  | [] => []
  | c :: rest =>
    if h : c = '\\' then
      match rest with
      | [] => [.unfinished]
      | letter :: rest => .pair letter :: symbols rest
    else .plain c h :: symbols rest

example : symbols "\\\\n\\".toList = [.pair '\\', .plain 'n' (by decide), .unfinished] := rfl

/-- A backslash takes the next character along among the `symbols`. -/
theorem symbols_backslash (letter : Char) (rest : List Char) :
    symbols ('\\' :: letter :: rest) = .pair letter :: symbols rest :=
  rfl

/-- Other characters are read alone among the `symbols`. -/
theorem symbols_cons {c : Char} (h : c ≠ '\\') (rest : List Char) :
    symbols (c :: rest) = .plain c h :: symbols rest := by
  cases rest with
  | nil => exact dif_neg h
  | cons letter rest => exact dif_neg h

/-- Nothing of a text gets lost in its `symbols`. -/
theorem flatMap_chars_symbols (t : List Char) : (symbols t).flatMap Symbol.chars = t := by
  induction t using symbols.induct with
  | case1 => rfl
  | case2 => rfl
  | case3 letter rest ih =>
    rw [symbols_backslash, List.flatMap_cons, ih]
    rfl
  | case4 c rest hc ih =>
    rw [symbols_cons hc, List.flatMap_cons, ih]
    rfl

/-- `unescapeChars` reads a text symbol by symbol, up to the first one that has no `value`. -/
theorem unescapeChars_eq_mapM (t : List Char) :
    unescapeChars t = (symbols t).mapM Symbol.value := by
  induction t using symbols.induct with
  | case1 => rfl
  | case2 => rfl
  | case3 letter rest ih =>
    rw [symbols_backslash]
    cases h : escapedChar? letter with
    | some c =>
      have hvalue : (Symbol.pair letter).value = .ok c := by rw [Symbol.value, h]
      rw [unescapeChars_backslash h, ih, mapM_cons_of_ok hvalue]
    | none =>
      -- nothing after the backslash is looked at on either side
      rw [unescapeChars, h, List.mapM_cons, Symbol.value, h]
      rfl
  | case4 c rest hc ih =>
    have hvalue : (Symbol.plain c hc).value = .ok c := rfl
    rw [symbols_cons hc, unescapeChars_cons hc, ih, mapM_cons_of_ok hvalue]

/-- `unescapeChars` reads nothing only as nothing: every symbol stands for a character. -/
theorem unescapeChars_eq_ok_nil_iff {s : List Char} : unescapeChars s = .ok [] ↔ s = [] := by
  rw [unescapeChars_eq_mapM, mapM_eq_ok_iff, List.forall₂_nil_right_iff]
  constructor
  · intro h
    rw [← flatMap_chars_symbols s, h]
    rfl
  · rintro rfl
    rfl

/-- `unescape` reads a text as the empty one only if it is empty. -/
theorem unescape_eq_ok_empty_iff {s : String} : unescape s = .ok "" ↔ s = "" := by
  rw [unescape_eq]
  constructor
  · intro h
    cases hchars : unescapeChars s.toList with
    | error fault =>
      rw [hchars] at h
      cases h
    | ok chars =>
      rw [hchars] at h
      have hnil : chars = [] := String.ofList_eq_empty_iff.1 (Except.ok.inj h)
      rw [hnil, unescapeChars_eq_ok_nil_iff] at hchars
      exact String.toList_eq_nil_iff.1 hchars
  · rintro rfl
    rfl

/-! ## Faulty symbols -/

/-- Whether a `Symbol` cannot be read: a backslash that ends the text, or one before a character
that names no escape. -/
def Symbol.IsFaulty : Symbol → Prop
  | plain _ _ => False
  | pair letter => letter ∉ escapeLetters
  | unfinished => True

/-- A symbol has no `value` exactly if it `IsFaulty`. -/
theorem Symbol.exists_value_eq_ok_iff {symbol : Symbol} :
    (∃ c, symbol.value = .ok c) ↔ ¬symbol.IsFaulty := by
  cases symbol with
  | plain c hc => exact ⟨fun _ => not_false, fun _ => ⟨c, rfl⟩⟩
  | pair letter =>
    rw [IsFaulty, ← escapedChar?_eq_none_iff, value]
    cases escapedChar? letter with
    | none => exact ⟨nofun, fun h => absurd rfl h⟩
    | some c => exact ⟨fun _ => Option.some_ne_none c, fun _ => ⟨c, rfl⟩⟩
  | unfinished => exact ⟨nofun, fun h => absurd trivial h⟩

/-- `unescape` refuses a text exactly if a backslash that is read in it stands at its end or before
a character that is none of the `escapeLetters`. -/
theorem exists_unescape_eq_error_iff {t : String} :
    (∃ fault, unescape t = .error fault) ↔
      .unfinished ∈ symbols t.toList ∨
        ∃ letter, .pair letter ∈ symbols t.toList ∧ letter ∉ escapeLetters := by
  have hfails : (∃ fault, unescape t = .error fault) ↔ ¬∃ s, unescapeChars t.toList = .ok s := by
    rw [unescape_eq]
    cases unescapeChars t.toList with
    | error fault => exact ⟨fun _ => nofun, fun _ => ⟨fault, rfl⟩⟩
    | ok s => exact ⟨nofun, fun h => absurd ⟨s, rfl⟩ h⟩
  rw [hfails, unescapeChars_eq_mapM, exists_mapM_eq_ok_iff]
  simp only [Symbol.exists_value_eq_ok_iff, not_forall, not_not, exists_prop]
  -- the two kinds of faulty symbols, one by one
  constructor
  · rintro ⟨symbol, hsymbol, hfaulty⟩
    cases symbol with
    | plain c hc => exact hfaulty.elim
    | pair letter => exact .inr ⟨letter, hsymbol, hfaulty⟩
    | unfinished => exact .inl hsymbol
  · rintro (hsymbol | ⟨letter, hsymbol, hletter⟩)
    · exact ⟨.unfinished, hsymbol, trivial⟩
    · exact ⟨.pair letter, hsymbol, hletter⟩

/-! ## Runs of backslashes -/

/-- How many backslashes stand at the end of the text `t`. -/
def backslashesAtEnd (t : List Char) : Nat :=
  (t.rtakeWhile (· = '\\')).length

/-- `backslashesAtEnd` get more by a backslash and are ended by any other character. -/
theorem backslashesAtEnd_concat (t : List Char) (c : Char) :
    backslashesAtEnd (t ++ [c]) = if c = '\\' then backslashesAtEnd t + 1 else 0 := by
  unfold backslashesAtEnd
  split
  · next h =>
    rw [List.rtakeWhile_concat_pos _ _ _ (by simpa using h), List.length_append]
    rfl
  · next h =>
    rw [List.rtakeWhile_concat_neg _ _ _ (by simpa using h)]
    rfl

/-- A backslash at the end is `unfinished` unless the one before it takes it along. -/
theorem unfinished_mem_symbols_concat {t : List Char} {c : Char} :
    .unfinished ∈ symbols (t ++ [c]) ↔ c = '\\' ∧ .unfinished ∉ symbols t := by
  -- along the symbols of `t`: finished ones are on both sides, so that only the last one counts
  induction t using symbols.induct with
  | case1 =>
    by_cases hc : c = '\\'
    · subst hc
      decide
    · simp [symbols_cons hc, symbols, hc]
  | case2 => simp [symbols_backslash, symbols]
  | case3 letter rest ih =>
    rw [List.cons_append, List.cons_append, symbols_backslash, symbols_backslash]
    simp [ih]
  | case4 c' rest hc' ih =>
    rw [List.cons_append, symbols_cons hc', symbols_cons hc']
    simp [ih]

/-- A text ends `unfinished` exactly if its `backslashesAtEnd` are odd in number. -/
theorem unfinished_mem_symbols_iff {t : List Char} :
    .unfinished ∈ symbols t ↔ Odd (backslashesAtEnd t) := by
  induction t using List.reverseRecOn with
  | nil => decide
  | append_singleton t c ih =>
    rw [unfinished_mem_symbols_concat, ih, backslashesAtEnd_concat]
    split
    · next hc => rw [Nat.odd_add_one, and_iff_right hc]
    · next hc => simp [hc]

/-- A character is taken along by a backslash, in a `pair`, exactly if the `backslashesAtEnd` of
what comes before it are odd in number. -/
theorem pair_mem_symbols_iff {letter : Char} {t : List Char} :
    .pair letter ∈ symbols t ↔
      ∃ before after, t = before ++ letter :: after ∧ Odd (backslashesAtEnd before) := by
  simp only [← unfinished_mem_symbols_iff]
  constructor
  · intro h
    -- along the symbols of the text: those before the letter's own backslash go into `before`
    induction t using symbols.induct with
    | case1 => cases h
    | case2 => exact nomatch List.mem_singleton.1 h
    | case3 letter' rest ih =>
      rw [symbols_backslash, List.mem_cons] at h
      rcases h with ⟨⟨⟩⟩ | h
      · exact ⟨['\\'], rest, rfl, by decide⟩
      · obtain ⟨before, after, rfl, hbefore⟩ := ih h
        refine ⟨'\\' :: letter' :: before, after, rfl, ?_⟩
        rw [symbols_backslash]
        exact List.mem_cons_of_mem _ hbefore
    | case4 c rest hc ih =>
      rw [symbols_cons hc, List.mem_cons] at h
      have h := h.resolve_left nofun
      obtain ⟨before, after, rfl, hbefore⟩ := ih h
      refine ⟨c :: before, after, rfl, ?_⟩
      rw [symbols_cons hc]
      exact List.mem_cons_of_mem _ hbefore
  · rintro ⟨before, after, rfl, hbefore⟩
    -- along the symbols of `before`, of which only the last one is changed by what follows
    induction before using symbols.induct with
    | case1 => cases hbefore
    | case2 => exact List.mem_cons_self
    | case3 letter' rest ih =>
      rw [symbols_backslash, List.mem_cons] at hbefore
      rw [List.cons_append, List.cons_append, symbols_backslash]
      exact List.mem_cons_of_mem _ (ih (hbefore.resolve_left nofun))
    | case4 c rest hc ih =>
      rw [symbols_cons hc, List.mem_cons] at hbefore
      rw [List.cons_append, symbols_cons hc]
      exact List.mem_cons_of_mem _ (ih (hbefore.resolve_left nofun))

/-- `unescape` refuses a text exactly if its `backslashesAtEnd` are odd in number, or those before a
character are that is none of the `escapeLetters`. -/
theorem exists_unescape_eq_error_iff_odd {t : String} :
    (∃ fault, unescape t = .error fault) ↔
      Odd (backslashesAtEnd t.toList) ∨
        ∃ before letter after, t.toList = before ++ letter :: after ∧
          Odd (backslashesAtEnd before) ∧ letter ∉ escapeLetters := by
  rw [exists_unescape_eq_error_iff, unfinished_mem_symbols_iff]
  refine or_congr_right ⟨?_, ?_⟩
  · rintro ⟨letter, hmem, hletter⟩
    obtain ⟨before, after, ht, hodd⟩ := pair_mem_symbols_iff.1 hmem
    exact ⟨before, letter, after, ht, hodd, hletter⟩
  · rintro ⟨before, letter, after, ht, hodd, hletter⟩
    exact ⟨letter, pair_mem_symbols_iff.2 ⟨before, after, ht, hodd⟩, hletter⟩

end MappingTables.Text
