import MappingTables.Artifact.Provider
import MappingTables.Proofs.Format.Row
import MappingTables.Proofs.Identity.TableKey
import MappingTables.Proofs.Text.LineEnds

/-!
# Keys tell derivations apart

The text of a key is flat: two separators stand between the hash, the joined steps and the version
of the game, and neither of them is escaped. It can be read back all the same, since a hash contains
no separator, and the version comes last.

* `Derived`: the keys that are made from a source.
* `IsLegible`: what is asked of the steps and the version, so that they can be told from the text.
* `IsLegible.text_inj`: the text of such a key tells all of its parts.
* `text_tellsDerivation`: this, and what holds of the keys that are in use, whatever is in their
  labels.
-/

namespace MappingTables

namespace TableKey

/-- The keys that are made from a source, step by step: each `TableKey` that `ofSource`, `step` and
`forGame` lead to. -/
inductive Derived (s : Source) : TableKey → Prop where
  | ofSource : Derived s (.ofSource s)
  | step {key : TableKey} (h : Derived s key) (step : String) : Derived s (key.step step)
  | forGame {key : TableKey} (h : Derived s key) (version : String) :
    Derived s (key.forGame version)

/-- A key that was `Derived` from a source names it by its `hashText`. -/
theorem Derived.source_eq {s : Source} {key : TableKey} (h : Derived s key) :
    key.source = s.hashText := by
  induction h with
  | ofSource => rfl
  | step _ _ ih => exact ih
  | forGame _ _ ih => exact ih

/-- Whether the text of a `key` tells its steps and its version: the steps are there to be seen and
contain no separators, and so is the version, in which anything may stand. -/
structure IsLegible (key : TableKey) : Prop where
  step_ne : ∀ step ∈ key.steps, step ≠ ""
  plain : ∀ step ∈ key.steps, ';' ∉ step.toList ∧ '|' ∉ step.toList
  version_ne : ∀ version ∈ key.gameVersion, version ≠ ""

/-- Steps that are not empty can be told from the text that `intercalate` joins them to. -/
theorem intercalate_inj {steps steps' : List String} (hne : ∀ step ∈ steps, step ≠ "")
    (hne' : ∀ step ∈ steps', step ≠ "") (hplain : ∀ step ∈ steps, ';' ∉ step.toList)
    (hplain' : ∀ step ∈ steps', ';' ∉ step.toList)
    (h : [';'].intercalate (steps.map String.toList) =
      [';'].intercalate (steps'.map String.toList)) :
    steps = steps' := by
  -- no steps at all are told from some by the first one, which is not empty
  have hempty : ∀ {steps : List String}, (∀ step ∈ steps, step ≠ "") →
      [';'].intercalate (steps.map String.toList) = [] → steps = [] := by
    intro steps hne h
    match steps with
    | [] => rfl
    | [step] => exact absurd (by simpa using h) (hne step (List.mem_singleton_self step))
    | step :: next :: rest => simp [List.intercalate_cons_cons] at h
  by_cases hsteps : steps = []
  · subst hsteps
    exact (hempty hne' h.symm).symm
  by_cases hsteps' : steps' = []
  · subst hsteps'
    exact hempty hne h
  -- the pieces between the separators are the steps
  have hsplit : ∀ {steps : List String}, steps ≠ [] → (∀ step ∈ steps, ';' ∉ step.toList) →
      ([';'].intercalate (steps.map String.toList)).splitOn ';' = steps.map String.toList := by
    intro steps hsteps hplain
    refine List.splitOn_intercalate ';' ?_ (by simpa using hsteps)
    simpa using hplain
  have hpieces := congrArg (List.splitOn ';') h
  rw [hsplit hsteps hplain, hsplit hsteps' hplain'] at hpieces
  exact List.map_injective_iff.2 (fun _ _ => String.toList_inj.1) hpieces

namespace IsLegible

variable {key key' : TableKey}

/-- The steps of a key that `IsLegible` contain no separator when they are joined, so they end where
the next one stands. -/
theorem not_mem_intercalate (h : key.IsLegible) :
    '|' ∉ [';'].intercalate (key.steps.map String.toList) := by
  intro hmem
  obtain heq | ⟨chars, hchars, hmem⟩ := Text.mem_intercalate hmem
  · cases heq
  · obtain ⟨step, hstep, rfl⟩ := List.mem_map.1 hchars
    exact (h.plain step hstep).2 hmem

/-- A version of a key that `IsLegible` is told from none. -/
theorem version_inj (h : key.IsLegible) (h' : key'.IsLegible)
    (heq : key.gameVersion.getD "" = key'.gameVersion.getD "") :
    key.gameVersion = key'.gameVersion := by
  cases hversion : key.gameVersion with
  | none =>
    cases hversion' : key'.gameVersion with
    | none => rfl
    | some version' =>
      rw [hversion, hversion'] at heq
      exact absurd heq.symm (h'.version_ne version' hversion')
  | some version =>
    cases hversion' : key'.gameVersion with
    | none =>
      rw [hversion, hversion'] at heq
      exact absurd heq (h.version_ne version hversion)
    | some version' =>
      rw [hversion, hversion'] at heq
      exact congrArg some heq

end IsLegible

/-- The `text` of a key that `IsLegible` tells the hash of its source, its steps and its version. -/
theorem IsLegible.text_inj {s t : Source} {key key' : TableKey} (h : key.IsLegible)
    (h' : key'.IsLegible) (hsource : key.source = s.hashText) (hsource' : key'.source = t.hashText)
    (htext : key.text = key'.text) :
    s.hash = t.hash ∧ key.steps = key'.steps ∧ key.gameVersion = key'.gameVersion := by
  have hchars := congrArg String.toList htext
  rw [Source.toList_text_of_source hsource, Source.toList_text_of_source hsource'] at hchars
  obtain ⟨hhash, hrest⟩ := Source.flatMap_hexByte_separator_inj hchars
  -- the first separator in the rest is the one behind the steps, whatever the version contains
  obtain ⟨hsteps, hversion⟩ :=
    Text.append_cons_inj h.not_mem_intercalate h'.not_mem_intercalate hrest
  refine ⟨hhash, ?_, h.version_inj h' (String.toList_inj.1 hversion)⟩
  exact intercalate_inj h.step_ne h'.step_ne (fun step hstep => (h.plain step hstep).1)
    (fun step hstep => (h'.plain step hstep).1) hsteps

end TableKey

/-- Keys are the same exactly for the same derivation, whatever they were `Derived` from. The `text`
of a key that `IsLegible` tells the hash of its source, its steps and its version: there is
something in each of them and the steps contain no separator. The `switchedKey` of a table tells the
hash and the label, whatever that contains, and is never the `keyOf` a table of an artifact. -/
theorem TableKey.text_tellsDerivation :
    (∀ (s t : Source) (key key' : TableKey), key.Derived s → key'.Derived t → key.IsLegible →
      key'.IsLegible → (key.text = key'.text ↔
        s.hash = t.hash ∧ key.steps = key'.steps ∧ key.gameVersion = key'.gameVersion)) ∧
    (∀ (s t : Source) (label label' : String),
      (s.switchedKey label).text = (t.switchedKey label').text ↔ s.hash = t.hash ∧ label = label') ∧
    ∀ (s t : Source) (label : String) (p : Artifact.Provider),
      (s.switchedKey label).text ≠ (p.keyOf t).text := by
  refine ⟨fun s t key key' hs ht h h' => ⟨?_, ?_⟩, fun s t label label' => ⟨?_, ?_⟩,
    fun s t label p => ?_⟩
  · exact h.text_inj h' hs.source_eq ht.source_eq
  · rintro ⟨hhash, hsteps, hversion⟩
    rw [text, text, hs.source_eq, ht.source_eq, Source.hashText, Source.hashText, hhash, hsteps,
      hversion]
  · exact Source.text_switchedKey_inj
  · rintro ⟨hhash, rfl⟩
    rw [Source.switchedKey_congr hhash]
  · exact (Source.text_forGame_ne t s p.gameVersion label).symm

/-- Two keys that `text_tellsDerivation` tells apart. The texts differ, though the version of one of
them looks like what stands behind the hash in the other one. -/
theorem TableKey.text_tellsDerivation_sample :
    ((ofSource ⟨"a.tiny", none, [0, 255]⟩).forGame "switch to named|1.20").text ≠
      (((ofSource ⟨"b.tiny", none, [0, 255]⟩).step "switch to named").forGame "1.20").text := by
  intro htext
  have hsame := (text_tellsDerivation.1 _ _ _ _ (.forGame .ofSource _)
    (.forGame (.step .ofSource _) _) ⟨by decide, by decide, by decide⟩
    ⟨by decide, by decide, by decide⟩).1 htext
  exact absurd hsame.2.1 (by decide)

end MappingTables
