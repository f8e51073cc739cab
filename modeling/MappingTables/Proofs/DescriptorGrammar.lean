import MappingTables.Proofs.Descriptor

/-!
# The grammar of descriptors

A descriptor is the printed form of a `Signature`: the type of a field, or the types of the
parameters and of the result of a method. Descriptors are changed as texts, without a look at this
grammar, and a class name may itself contain an `L` or a parenthesis.

* `Signature.text`: the printed form.
* `map_text`: changing the class names in the text is changing them in the signature.
* `map_eq_error_iff`: only a class name that does not end is a reason to fail.
* `map_bind_map`: changes after each other are one change.
* `map_isFunctorial`: all of this together.
-/

namespace MappingTables.Descriptor

/-- The types that are neither classes nor arrays. -/
inductive Primitive where
  | byte
  | char
  | double
  | float
  | int
  | long
  | short
  | boolean
deriving DecidableEq, Repr

/-- The letter for a `Primitive` type. -/
def Primitive.letter : Primitive → Char
  | byte => 'B'
  | char => 'C'
  | double => 'D'
  | float => 'F'
  | int => 'I'
  | long => 'J'
  | short => 'S'
  | boolean => 'Z'

/-- The type of a field or of a parameter. -/
inductive FieldType where
  | primitive (p : Primitive)
  | classType (name : String)
  | array (item : FieldType)
deriving DecidableEq, Repr

namespace FieldType

/-- The printed form of a `FieldType`. -/
def chars : FieldType → List Char
  | primitive p => [p.letter]
  | classType name => 'L' :: (name.toList ++ [';'])
  | array item => '[' :: item.chars

/-- The class names in a `FieldType`. -/
def names : FieldType → List String
  | primitive _ => []
  | classType name => [name]
  | array item => item.names

/-- The type with its class names changed by `f`. -/
def mapNames (f : String → String) : FieldType → FieldType
  | primitive p => primitive p
  | classType name => classType (f name)
  | array item => array (item.mapNames f)

end FieldType

/-- What a descriptor stands for. -/
inductive Signature where
  /-- The type of a field. -/
  | field (type : FieldType)
  /-- The types of the parameters of a method and of its result, if it has one. -/
  | method (parameters : List FieldType) (result : Option FieldType)
deriving DecidableEq, Repr

namespace Signature

/-- The printed form of a `Signature`: the descriptor. -/
def text : Signature → String
  | field type => String.ofList type.chars
  | method parameters result =>
    String.ofList ('(' :: (parameters.flatMap FieldType.chars ++
      ')' :: (result.map FieldType.chars).getD ['V']))

/-- The class names in a `Signature`. -/
def names : Signature → List String
  | field type => type.names
  | method parameters result =>
    parameters.flatMap FieldType.names ++ (result.map FieldType.names).getD []

/-- The signature with its class names changed by `f`. -/
def mapNames (f : String → String) : Signature → Signature
  | field type => field (type.mapNames f)
  | method parameters result =>
    method (parameters.map (FieldType.mapNames f)) (result.map (FieldType.mapNames f))

/-- Whether the printed form tells where the class names in a signature end: none of its `names`
contains a semicolon. -/
def HasPlainNames (s : Signature) : Prop :=
  ∀ name ∈ s.names, ';' ∉ name.toList

instance (s : Signature) : Decidable s.HasPlainNames :=
  inferInstanceAs (Decidable (∀ name ∈ s.names, ';' ∉ name.toList))

example : (method [.primitive .int, .array (.classType "La")] none).text = "(I[LLa;)V" := by
  decide +kernel

end Signature

/-! ## Changing the class names in a text -/

section Chars

variable {f : String → String} {rest : List Char}

/-- A change `f` of class names, on their characters. -/
def onChars (f : String → String) (name : List Char) : List Char :=
  (f (String.ofList name)).toList

/-- Outside of a class name, all but an `L` is left alone. -/
theorem mapChars_cons_of_ne {c : Char} (h : c ≠ 'L') :
    mapChars (onChars f) none (c :: rest) = (c :: ·) <$> mapChars (onChars f) none rest := by
  rw [mapChars, if_neg h]

theorem Primitive.letter_ne (p : Primitive) : p.letter ≠ 'L' := by
  cases p <;> decide

/-- The scan of `mapChars` reads the printed form of a type as a whole, and is outside of a class
name again. -/
theorem mapChars_chars {t : FieldType} (h : ∀ name ∈ t.names, ';' ∉ name.toList) :
    mapChars (onChars f) none (t.chars ++ rest) =
      ((t.mapNames f).chars ++ ·) <$> mapChars (onChars f) none rest := by
  -- by induction on the type, of which only the innermost part can be a class
  induction t with
  | primitive p => exact mapChars_cons_of_ne p.letter_ne
  | classType name =>
    have hname : ';' ∉ name.toList := h name (List.mem_singleton_self name)
    -- any `L` in the name is read as a part of it, up to the semicolon that the grammar puts there
    have hscan : mapChars (onChars f) (some []) (name.toList ++ ';' :: rest) =
        ((f name).toList ++ ';' :: ·) <$> mapChars (onChars f) none rest := by
      rw [mapChars_append hname, List.reverse_nil, List.nil_append, onChars, String.ofList_toList]
    simp only [FieldType.chars, FieldType.mapNames, List.cons_append, List.append_assoc,
      List.nil_append]
    rw [mapChars, if_pos rfl, hscan, Option.map_eq_map, Option.map_eq_map, Option.map_eq_map,
      Option.map_map]
    rfl
  | array item ih =>
    rw [FieldType.chars, List.cons_append, mapChars_cons_of_ne (by decide), ih h, Option.map_eq_map,
      Option.map_eq_map, Option.map_eq_map, Option.map_map]
    rfl

/-- Nothing is left to be read by `mapChars` behind a type that stands alone. -/
theorem mapChars_chars_alone {t : FieldType} (h : ∀ name ∈ t.names, ';' ∉ name.toList) :
    mapChars (onChars f) none t.chars = some (t.mapNames f).chars := by
  have hscan : mapChars (onChars f) none (t.chars ++ []) =
      ((t.mapNames f).chars ++ ·) <$> mapChars (onChars f) none [] := mapChars_chars h
  rw [List.append_nil] at hscan
  rw [hscan]
  simp [mapChars]

/-- `mapChars` reads types after each other one by one, though nothing separates them. -/
theorem mapChars_flatMap_chars {types : List FieldType}
    (h : ∀ name ∈ types.flatMap FieldType.names, ';' ∉ name.toList) :
    mapChars (onChars f) none (types.flatMap FieldType.chars ++ rest) =
      ((types.map (FieldType.mapNames f)).flatMap FieldType.chars ++ ·) <$>
        mapChars (onChars f) none rest := by
  induction types with
  | nil => simp
  | cons t types ih =>
    rw [List.flatMap_cons, List.forall_mem_append] at h
    rw [List.flatMap_cons, List.append_assoc, mapChars_chars h.1, ih h.2, Option.map_eq_map,
      Option.map_eq_map, Option.map_eq_map, Option.map_map]
    simp [Function.comp_def]

end Chars

/-! ## Changing the class names in a descriptor -/

variable {f g : String → String} {descriptor : String}

theorem map_ofList {chars chars' : List Char}
    (h : mapChars (onChars f) none chars = some chars') :
    map f (String.ofList chars) = .ok (String.ofList chars') := by
  have h : mapChars (fun name => (f (String.ofList name)).toList) none chars = some chars' := h
  rw [map, String.toList_ofList, h]

/-- `map` changes the class names in the `text` of a signature, and nothing else. -/
theorem map_text {s : Signature} (h : s.HasPlainNames) :
    map f s.text = .ok (s.mapNames f).text := by
  cases s with
  | field type => exact map_ofList (mapChars_chars_alone h)
  | method parameters result =>
    obtain ⟨hparameters, hresult⟩ := List.forall_mem_append.1 h
    -- a method without a result ends with a letter that the scan leaves alone
    have hlast : mapChars (onChars f) none ((result.map FieldType.chars).getD ['V']) =
        some (((result.map (FieldType.mapNames f)).map FieldType.chars).getD ['V']) := by
      cases result with
      | none => rfl
      | some type => exact mapChars_chars_alone hresult
    refine map_ofList ?_
    rw [mapChars_cons_of_ne (by decide), mapChars_flatMap_chars hparameters,
      mapChars_cons_of_ne (by decide), hlast]
    rfl

/-- A descriptor cannot be changed exactly if there is an `L` in it without a semicolon behind, and
that is what the failure says. -/
theorem map_eq_error_iff {failure : Failure} : map f descriptor = .error failure ↔
    failure = .ofCause (.openDescriptor descriptor) ∧
      ∃ after, 'L' :: after <:+ descriptor.toList ∧ ';' ∉ after := by
  have hok : (∃ descriptor', map f descriptor = .ok descriptor') ↔
      ¬∃ after, 'L' :: after <:+ descriptor.toList ∧ ';' ∉ after := by
    rw [exists_map_iff, isClosed_iff]
    simp only [not_exists, not_and, not_not]
  -- there is one way to fail
  have hcases : (∃ descriptor', map f descriptor = .ok descriptor') ∨
      map f descriptor = .error (.ofCause (.openDescriptor descriptor)) := by
    unfold map
    split
    · exact .inl ⟨_, rfl⟩
    · exact .inr rfl
  constructor
  · intro h
    obtain ⟨descriptor', hmap⟩ | hfail := hcases
    · rw [h] at hmap
      cases hmap
    · refine ⟨Except.error.inj (h.symm.trans hfail), ?_⟩
      by_contra hclosed
      obtain ⟨descriptor', hmap⟩ := hok.2 hclosed
      rw [h] at hmap
      cases hmap
  · rintro ⟨rfl, hopen⟩
    exact hcases.resolve_left fun hmap => hok.1 hmap hopen

/-- `map f` and then `map g` is one change, unless `f` puts semicolons into class names. They fail
alike, since the text to be changed first is the one that is at fault. -/
theorem map_bind_map (hplain : ∀ name, ';' ∉ name.toList → ';' ∉ (f name).toList) :
    (map f descriptor >>= map g) = map (fun name => g (f name)) descriptor := by
  cases hmap : map f descriptor with
  | ok descriptor' =>
    rw [ok_bind]
    exact map_map (fun name hname => hplain name (not_mem_of_mem_classNames hname)) hmap
  | error failure => exact (map_eq_error_iff.2 (map_eq_error_iff.1 hmap)).symm

/-- Changing class names in descriptors is what it is in signatures. In the printed form of a
signature they are changed, and nothing else; a text is refused exactly if there is an `L` in it
without a semicolon behind; with the names as they are, a text that is not refused stays; and
changes after each other are one change, if the first one puts no semicolon into a name that has
none. -/
theorem map_isFunctorial (f : String → String) :
    (∀ s : Signature, s.HasPlainNames → map f s.text = .ok (s.mapNames f).text) ∧
    (∀ descriptor, (∃ failure, map f descriptor = .error failure) ↔
      ∃ after, 'L' :: after <:+ descriptor.toList ∧ ';' ∉ after) ∧
    (∀ descriptor descriptor', map id descriptor = .ok descriptor' → descriptor' = descriptor) ∧
    ((∀ name, ';' ∉ name.toList → ';' ∉ (f name).toList) → ∀ g descriptor,
      (map f descriptor >>= map g) = map (fun name => g (f name)) descriptor) := by
  refine ⟨fun s hs => map_text hs, fun descriptor => ?_, fun descriptor descriptor' h => ?_,
    fun hplain g descriptor => map_bind_map hplain⟩
  · simp only [map_eq_error_iff, exists_eq_left]
  · exact (map_id_eq_ok_iff.1 h).2

/-- A signature whose class names look like parts of a descriptor. -/
def strangeSignature : Signature :=
  .method [.primitive .int, .array (.array (.classType "L(I)L")), .classType ""]
    (some (.classType "a"))

/-- A change of a class `name` into one that is itself to be changed. -/
def sampleRename (name : String) : String :=
  if name = "a" then "L(I)L" else if name = "L(I)L" then "pkg/Main" else name

/-- `map sampleRename` changes class names where the grammar has them, once and twice. -/
theorem map_isFunctorial_sample :
    map sampleRename "(I[[LL(I)L;L;)La;" = .ok "(I[[Lpkg/Main;L;)LL(I)L;" ∧
    (map sampleRename "(I[[LL(I)L;L;)La;" >>= map sampleRename) =
      .ok "(I[[Lpkg/Main;L;)Lpkg/Main;" := by
  have hplain : ∀ name : String, ';' ∉ name.toList → ';' ∉ (sampleRename name).toList := by
    intro name hname
    unfold sampleRename
    split
    · decide
    · split
      · decide
      · exact hname
  obtain ⟨htext, -, -, hcomp⟩ := map_isFunctorial sampleRename
  have hsample : strangeSignature.HasPlainNames := by decide
  have hbefore : strangeSignature.text = "(I[[LL(I)L;L;)La;" := by decide +kernel
  have hafter : (strangeSignature.mapNames sampleRename).text = "(I[[Lpkg/Main;L;)LL(I)L;" := by
    decide +kernel
  refine ⟨?_, ?_⟩
  · rw [← hbefore, htext _ hsample, hafter]
  · have htwice := (map_isFunctorial fun name => sampleRename (sampleRename name)).1 _ hsample
    rw [hcomp hplain, ← hbefore, htwice]
    exact congrArg Except.ok (by decide +kernel)

end MappingTables.Descriptor
