import MappingTables.Descriptor
import MappingTables.Proofs.Sequencing

/-!
# Renaming descriptors

* `classNames`: the class names that a descriptor mentions.
* `mem_map_iff`: the characters that get into a descriptor with the new class names.
* `IsClosed`: a descriptor in which all class names end; `isClosed_iff` says it by the text.
* `exists_map_iff`, `isClosed_of_map`: these are the descriptors that can be changed, and those that
  are the result of it.
* `map_map`: changing a descriptor twice is changing it once by both functions.
* `map_map_of_undone`: a renaming of a descriptor is undone by one that undoes it for these names.
-/

namespace MappingTables.Descriptor

/-- The class names in the rest of a descriptor. `reading` is the part read so far, in reverse, of
the class name that the scan is in, if it is in one. -/
def classNameChars : (reading : Option (List Char)) → List Char → List (List Char)
  | none, [] => []
  | none, c :: rest => classNameChars (if c = 'L' then some [] else none) rest
  | some _, [] => []
  | some name, c :: rest =>
    if c = ';' then name.reverse :: classNameChars none rest
    else classNameChars (some (c :: name)) rest

/-- The class names that a descriptor mentions, between an `L` and the next semicolon. -/
def classNames (descriptor : String) : List String :=
  (classNameChars none descriptor.toList).map String.ofList

example : classNames "(ILa;J)Lb;" = ["a", "b"] := by decide +kernel

/-- The part of a descriptor that was read of the class name that the scan is in, as far as
`reading` says. -/
def readPart (reading : Option (List Char)) : List Char :=
  (reading.getD []).reverse

/-- A class name that was read, one of the `classNameChars`, contains no semicolon. -/
theorem not_mem_of_mem_classNameChars {reading : Option (List Char)} {chars name : List Char}
    (hreading : ';' ∉ reading.getD []) (h : name ∈ classNameChars reading chars) : ';' ∉ name := by
  induction reading, chars using classNameChars.induct with
  | case1 => cases h
  -- a character outside of a name leaves nothing of a name read
  | case2 c rest ih =>
    rw [classNameChars] at h
    refine ih ?_ h
    split <;> exact List.not_mem_nil
  | case3 name => cases h
  | case4 name' rest ih =>
    rw [classNameChars, if_pos rfl] at h
    rcases List.mem_cons.1 h with rfl | h
    · exact fun hmem => hreading (List.mem_reverse.1 hmem)
    · exact ih List.not_mem_nil h
  | case5 name' c rest hc ih =>
    rw [classNameChars, if_neg hc] at h
    refine ih (fun hmem => ?_) h
    rcases List.mem_cons.1 hmem with rfl | hmem
    · exact hc rfl
    · exact hreading hmem

/-- The `classNames` in a descriptor contain no semicolon. -/
theorem not_mem_of_mem_classNames {descriptor name : String} (h : name ∈ classNames descriptor) :
    ';' ∉ name.toList := by
  obtain ⟨chars, hchars, rfl⟩ := List.mem_map.1 h
  rw [String.toList_ofList]
  exact not_mem_of_mem_classNameChars List.not_mem_nil hchars

/-- A class name that was read, one of the `classNameChars`, consists of characters of the
descriptor. -/
theorem mem_of_mem_classNameChars {c : Char} {reading : Option (List Char)} {chars name : List Char}
    (h : name ∈ classNameChars reading chars) (hc : c ∈ name) :
    c ∈ reading.getD [] ∨ c ∈ chars := by
  induction reading, chars using classNameChars.induct with
  | case1 => cases h
  | case2 c' rest ih =>
    rw [classNameChars] at h
    refine .inr (List.mem_cons_of_mem _ ((ih h).resolve_left ?_))
    split <;> exact List.not_mem_nil
  | case3 name' => cases h
  | case4 name' rest ih =>
    rw [classNameChars, if_pos rfl] at h
    obtain rfl | h := List.mem_cons.1 h
    · exact .inl (List.mem_reverse.1 hc)
    · exact .inr (List.mem_cons_of_mem _ ((ih h).resolve_left List.not_mem_nil))
  | case5 name' c' rest hne ih =>
    rw [classNameChars, if_neg hne] at h
    obtain hread | hrest := ih h
    · obtain rfl | hread := List.mem_cons.1 hread
      · exact .inr List.mem_cons_self
      · exact .inl hread
    · exact .inr (List.mem_cons_of_mem _ hrest)

/-- The `classNames` in a descriptor consist of its characters. -/
theorem mem_of_mem_classNames {c : Char} {descriptor name : String}
    (h : name ∈ classNames descriptor) (hc : c ∈ name.toList) : c ∈ descriptor.toList := by
  obtain ⟨chars, hchars, rfl⟩ := List.mem_map.1 h
  rw [String.toList_ofList] at hc
  exact (mem_of_mem_classNameChars hchars hc).resolve_left List.not_mem_nil

/-- A character of what `mapChars` gives that was not there before comes from a changed class
name. -/
theorem mem_mapChars_iff {c : Char} {f : List Char → List Char} {reading : Option (List Char)}
    {chars chars' : List Char} (hc : c ∉ chars) (h : mapChars f reading chars = some chars') :
    c ∈ chars' ↔ ∃ name ∈ classNameChars reading chars, c ∈ f name := by
  -- the cases are those of `mapChars`: outside of a name, at its end and within it
  induction reading, chars using mapChars.induct generalizing chars' with
  | case1 =>
    obtain rfl := Option.some.inj h
    simp [classNameChars]
  | case2 c' rest ih =>
    rw [mapChars] at h
    obtain ⟨rest', hrest, rfl⟩ := Option.map_eq_some_iff.1 h
    rw [List.mem_cons, not_or] at hc
    rw [classNameChars, List.mem_cons, ih hc.2 hrest]
    exact or_iff_right hc.1
  | case3 name => cases h
  | case4 name rest ih =>
    rw [mapChars, if_pos rfl] at h
    obtain ⟨rest', hrest, rfl⟩ := Option.map_eq_some_iff.1 h
    rw [List.mem_cons, not_or] at hc
    rw [classNameChars, if_pos rfl, List.mem_append, List.mem_cons, ih hc.2 hrest,
      List.exists_mem_cons_iff]
    exact or_congr_right (or_iff_right hc.1)
  | case5 name c' rest hne ih =>
    rw [mapChars, if_neg hne] at h
    rw [List.mem_cons, not_or] at hc
    rw [classNameChars, if_neg hne, ih hc.2 h]

/-- Characters that are not in a `descriptor` are not in what `map` gives either, exactly if they
are in none of the new names. -/
theorem mem_map_iff {c : Char} {f : String → String} {descriptor descriptor' : String}
    (hc : c ∉ descriptor.toList) (h : map f descriptor = .ok descriptor') :
    c ∈ descriptor'.toList ↔ ∃ name ∈ classNames descriptor, c ∈ (f name).toList := by
  unfold map at h
  split at h
  · next chars hchars =>
    obtain rfl := Except.ok.inj h
    rw [String.toList_ofList, mem_mapChars_iff hc hchars, classNames]
    simp only [List.mem_map, exists_exists_and_eq_and]
  · cases h

/-- `mapChars` reads a class name without a semicolon up to the semicolon after it. -/
theorem mapChars_append {f : List Char → List Char} {name rest : List Char} (h : ';' ∉ name)
    (before : List Char) :
    mapChars f (some before) (name ++ ';' :: rest) =
      (f (before.reverse ++ name) ++ ';' :: ·) <$> mapChars f none rest := by
  induction name generalizing before with
  | nil => rw [List.nil_append, mapChars, if_pos rfl, List.append_nil]
  | cons c name ih =>
    rw [List.mem_cons, not_or] at h
    rw [List.cons_append, mapChars, if_neg (Ne.symm h.1), ih h.2, List.reverse_cons,
      List.append_assoc, List.singleton_append]

/-- Whether all class names in a `descriptor` end. -/
def IsClosed (descriptor : String) : Prop :=
  map id descriptor = .ok descriptor

/-- `mapChars` leaves a descriptor as it is if all class names in it stay. -/
theorem mapChars_of_id {f : List Char → List Char} (hf : ∀ name, f name = name)
    {reading : Option (List Char)} {chars chars' : List Char}
    (h : mapChars f reading chars = some chars') : chars' = readPart reading ++ chars := by
  induction reading, chars using mapChars.induct generalizing chars' with
  | case1 => exact (Option.some.inj h).symm
  | case2 c rest ih =>
    rw [mapChars] at h
    obtain ⟨rest', hrest, rfl⟩ := Option.map_eq_some_iff.1 h
    -- the character is kept, whether or not it begins a name
    have ih := ih hrest
    split at ih <;> exact congrArg (c :: ·) ih
  | case3 name => cases h
  | case4 name rest ih =>
    rw [mapChars, if_pos rfl] at h
    obtain ⟨rest', hrest, rfl⟩ := Option.map_eq_some_iff.1 h
    rw [hf, ih hrest]
    rfl
  | case5 name c rest hc ih =>
    rw [mapChars, if_neg hc] at h
    rw [ih h, readPart, readPart]
    simp

/-- `map id` leaves a descriptor as it is, and succeeds if it `IsClosed`. -/
theorem map_id_eq_ok_iff {descriptor descriptor' : String} :
    map id descriptor = .ok descriptor' ↔ IsClosed descriptor ∧ descriptor' = descriptor := by
  have hsame : ∀ {descriptor'}, map id descriptor = .ok descriptor' → descriptor' = descriptor := by
    intro descriptor' h
    unfold map at h
    split at h
    · next chars hchars =>
      rw [← Except.ok.inj h, mapChars_of_id (fun name => String.toList_ofList) hchars]
      exact String.ofList_toList
    · cases h
  constructor
  · intro h
    obtain rfl := hsame h
    exact ⟨h, rfl⟩
  · rintro ⟨h, rfl⟩
    exact h

/-- A scan gets to the end outside of a class name exactly if there is a semicolon behind each `L`,
and behind the place where it is if that is in a class name. -/
theorem isSome_mapChars_iff {f : List Char → List Char} {reading : Option (List Char)}
    {chars : List Char} :
    (mapChars f reading chars).isSome ↔
      (reading.isSome → ';' ∈ chars) ∧ ∀ after, 'L' :: after <:+ chars → ';' ∈ after := by
  induction reading, chars using mapChars.induct with
  | case1 => simp [mapChars]
  | case2 c rest ih =>
    rw [mapChars]
    simp only [Option.map_eq_map, Option.isSome_map, ih, List.suffix_cons_iff]
    -- outside of a name only an `L` asks for a semicolon
    by_cases hc : c = 'L'
    · subst hc
      simp [or_imp, forall_and]
    · simp [hc, Ne.symm hc]
  | case3 name => simp [mapChars]
  | case4 name rest ih =>
    rw [mapChars, if_pos rfl]
    simp [ih, List.suffix_cons_iff]
  | case5 name c rest hc ih =>
    rw [mapChars, if_neg hc, ih]
    simp only [Option.isSome_some, forall_const, List.suffix_cons_iff, List.mem_cons, Ne.symm hc,
      false_or]
    refine and_congr_right fun hmem => forall_congr' fun after => ?_
    constructor
    · rintro h (hafter | hafter)
      · rwa [(List.cons.inj hafter).2]
      · exact h hafter
    · exact fun h hafter => h (.inr hafter)

/-- `map` succeeds exactly if the scan of `mapChars` gets to the end outside of a class name. -/
theorem exists_map_iff_isSome {f : String → String} {descriptor : String} :
    (∃ descriptor', map f descriptor = .ok descriptor') ↔
      (mapChars (fun name => (f (String.ofList name)).toList) none descriptor.toList).isSome := by
  unfold map
  split
  · next h => simp [h]
  · next h => simp [h]

/-- `map` succeeds exactly if the descriptor `IsClosed`: if all class names in it end. -/
theorem exists_map_iff {f : String → String} {descriptor : String} :
    (∃ descriptor', map f descriptor = .ok descriptor') ↔ IsClosed descriptor := by
  rw [exists_map_iff_isSome, isSome_mapChars_iff,
    ← isSome_mapChars_iff (f := fun name => (id (String.ofList name)).toList),
    ← exists_map_iff_isSome]
  constructor
  · rintro ⟨_, h⟩
    exact (map_id_eq_ok_iff.1 h).1
  · exact fun h => ⟨descriptor, h⟩

/-- All class names in a descriptor end exactly if there is a semicolon behind each `L`. -/
theorem isClosed_iff {descriptor : String} :
    IsClosed descriptor ↔ ∀ after, 'L' :: after <:+ descriptor.toList → ';' ∈ after := by
  rw [← exists_map_iff (f := id), exists_map_iff_isSome, isSome_mapChars_iff]
  exact and_iff_right nofun

/-- A semicolon ends a class name for `mapChars`, whatever was read before it. -/
theorem isSome_mapChars_append {f : List Char → List Char} {rest : List Char}
    (h : (mapChars f none rest).isSome) (reading : Option (List Char)) (before : List Char) :
    (mapChars f reading (before ++ ';' :: rest)).isSome := by
  induction before generalizing reading with
  | nil =>
    rw [List.nil_append]
    cases reading with
    | none => simpa [mapChars] using h
    | some name => simpa [mapChars] using h
  | cons c before ih =>
    rw [List.cons_append]
    cases reading with
    | none => simpa [mapChars] using ih _
    | some name =>
      rw [mapChars]
      split
      · simpa using ih none
      · exact ih _

/-- A scan of a changed descriptor gets to the end outside of a class name. It may find other class
names than those that `f` put in, but there is a semicolon behind each of these. -/
theorem isSome_mapChars_of_mapChars {f : List Char → List Char} (g : List Char → List Char)
    {reading reading' : Option (List Char)} {chars chars' : List Char}
    (hreading : reading = none → reading' = none) (h : mapChars f reading chars = some chars') :
    (mapChars g reading' chars').isSome := by
  induction reading, chars using mapChars.induct generalizing reading' chars' with
  | case1 =>
    obtain rfl := hreading rfl
    exact Option.some.inj h ▸ rfl
  | case2 c rest ih =>
    obtain rfl := hreading rfl
    rw [mapChars] at h
    obtain ⟨rest', hrest, rfl⟩ := Option.map_eq_some_iff.1 h
    rw [mapChars]
    simp only [Option.map_eq_map, Option.isSome_map]
    -- an `L` stays an `L`, so both readers enter a name here or neither does
    refine ih ?_ hrest
    split <;> exact fun h => h
  | case3 name => cases h
  | case4 name rest ih =>
    rw [mapChars, if_pos rfl] at h
    obtain ⟨rest', hrest, rfl⟩ := Option.map_eq_some_iff.1 h
    -- whatever the name became, the semicolon after it closes it
    exact isSome_mapChars_append (ih (fun _ => rfl) hrest) reading' _
  | case5 name c rest hc ih =>
    rw [mapChars, if_neg hc] at h
    exact ih (fun hnone => absurd hnone (Option.some_ne_none _)) h

/-- What `map` gives `IsClosed`. -/
theorem isClosed_of_map {f : String → String} {descriptor descriptor' : String}
    (h : map f descriptor = .ok descriptor') : IsClosed descriptor' := by
  unfold map at h
  split at h
  · next chars hchars =>
    obtain rfl := Except.ok.inj h
    rw [← exists_map_iff (f := id), exists_map_iff_isSome, String.toList_ofList]
    exact isSome_mapChars_of_mapChars _ id hchars
  · cases h

/-! ## Changing a descriptor twice -/

/-- Functions that do the same with the `classNameChars` of a descriptor change it alike. -/
theorem mapChars_congr {f g : List Char → List Char} {reading : Option (List Char)}
    {chars : List Char} (h : ∀ name ∈ classNameChars reading chars, f name = g name) :
    mapChars f reading chars = mapChars g reading chars := by
  induction reading, chars using mapChars.induct with
  | case1 => rfl
  | case2 c rest ih =>
    rw [classNameChars] at h
    rw [mapChars, mapChars, ih h]
  | case3 name => rfl
  | case4 name rest ih =>
    rw [classNameChars, if_pos rfl, List.forall_mem_cons] at h
    rw [mapChars, mapChars, if_pos rfl, if_pos rfl, h.1, ih h.2]
  | case5 name c rest hc ih =>
    rw [classNameChars, if_neg hc] at h
    rw [mapChars, mapChars, if_neg hc, if_neg hc, ih h]

/-- Functions that do the same with the `classNames` in a descriptor change it alike. -/
theorem map_congr {f g : String → String} {descriptor : String}
    (h : ∀ name ∈ classNames descriptor, f name = g name) :
    map f descriptor = map g descriptor := by
  rw [map, map]
  rw [mapChars_congr fun name hname => congrArg String.toList (h _ (List.mem_map_of_mem hname))]

/-- `mapChars` twice changes class names by both functions, if no semicolon gets in between. -/
theorem mapChars_mapChars {f g : List Char → List Char} {reading : Option (List Char)}
    {chars chars' : List Char} (hplain : ∀ name ∈ classNameChars reading chars, ';' ∉ f name)
    (h : mapChars f reading chars = some chars') :
    mapChars g (reading.map fun _ => []) chars' =
      mapChars (fun name => g (f name)) reading chars := by
  -- along the scan of the old descriptor; the scan of the new one starts at the same class name
  induction reading, chars using mapChars.induct generalizing chars' with
  | case1 => exact Option.some.inj h ▸ rfl
  | case2 c rest ih =>
    rw [mapChars] at h
    obtain ⟨rest', hrest, rfl⟩ := Option.map_eq_some_iff.1 h
    rw [classNameChars] at hplain
    have ih := ih hplain hrest
    rw [Option.map_none, mapChars, mapChars]
    by_cases hc : c = 'L'
    · rw [if_pos hc] at ih ⊢
      exact congrArg _ ih
    · rw [if_neg hc] at ih ⊢
      exact congrArg _ ih
  | case3 name => cases h
  | case4 name rest ih =>
    rw [mapChars, if_pos rfl] at h
    obtain ⟨rest', hrest, rfl⟩ := Option.map_eq_some_iff.1 h
    rw [classNameChars, if_pos rfl, List.forall_mem_cons] at hplain
    -- the changed name has no semicolon, so the second scan takes the same part for a name
    rw [Option.map_some, mapChars_append hplain.1, List.reverse_nil, List.nil_append, mapChars,
      if_pos rfl]
    exact congrArg _ (ih hplain.2 hrest)
  | case5 name c rest hc ih =>
    rw [mapChars, if_neg hc] at h
    rw [classNameChars, if_neg hc] at hplain
    rw [mapChars, if_neg hc]
    exact ih hplain h

/-- `map` twice changes a descriptor by both functions, if no semicolon gets into its class names in
between. -/
theorem map_map {f g : String → String} {descriptor descriptor' : String}
    (hplain : ∀ name ∈ classNames descriptor, ';' ∉ (f name).toList)
    (h : map f descriptor = .ok descriptor') :
    map g descriptor' = map (fun name => g (f name)) descriptor := by
  obtain ⟨chars, hchars⟩ := Option.isSome_iff_exists.1 (exists_map_iff_isSome.1
    (exists_map_iff (f := fun name => g (f name)).2 (exists_map_iff.1 ⟨_, h⟩)))
  unfold map at h
  split at h
  · next chars' hchars' =>
    obtain rfl := Except.ok.inj h
    have htwice := mapChars_mapChars (g := fun name => (g (String.ofList name)).toList)
      (fun name hname => hplain _ (List.mem_map_of_mem hname)) hchars'
    simp only [String.ofList_toList, Option.map_none, hchars] at htwice
    -- neither of the two fails, so that their messages do not matter
    rw [map, map, String.toList_ofList, hchars, htwice]
  · cases h

/-- `map g` undoes `map f` if `g` undoes `f` for each of the `classNames`. -/
theorem map_map_of_undone {f g : String → String} {descriptor descriptor' : String}
    (hback : ∀ name ∈ classNames descriptor, ';' ∉ (f name).toList ∧ g (f name) = name)
    (h : map f descriptor = .ok descriptor') : map g descriptor' = .ok descriptor := by
  rw [map_map (fun name hname => (hback name hname).1) h,
    map_congr (g := id) fun name hname => (hback name hname).2]
  exact exists_map_iff.1 ⟨_, h⟩

end MappingTables.Descriptor
