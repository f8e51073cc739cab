import MappingTables.Proofs.Remap.Session

/-!
# The classpath of a session

A session hands no path of the classpath to its engine twice, also if it is asked to many times. It
does not hand over a path again either that the engine failed to read.

* `Event.reads`: whether a call is to read a path.
* `Session.IsHandedOver`: what a session knows of its classpath is what its engine was given.
* `Session.readOnce_iff`: when the paths that a session was asked to read are read, and each of them
  once.
* `Session.readClasspath_retried`: a path that is not read although the session says so.
-/

namespace MappingTables.Remap

variable {σ : Type} {views : List View} {trace : List Event} {paths : List String}

/-! ## Fresh paths -/

/-- The `freshPaths` are those given that were not seen. -/
theorem mem_form_freshPaths {seen : List Path.Form} {form : Path.Form} :
    form ∈ (freshPaths seen paths).map Path.form ↔ form ∈ paths.map Path.form ∧ form ∉ seen := by
  induction paths generalizing seen with
  | nil => simp [freshPaths]
  | cons p rest ih =>
    rw [freshPaths]
    -- a path that was seen before is passed by, any other is seen from now on
    split_ifs with hp
    · rw [ih, List.map_cons, List.mem_cons]
      constructor
      · exact fun h => ⟨.inr h.1, h.2⟩
      · rintro ⟨rfl | h, hseen⟩
        · exact absurd hp hseen
        · exact ⟨h, hseen⟩
    · rw [List.map_cons, List.mem_cons, ih, List.map_cons, List.mem_cons, List.mem_cons, not_or]
      constructor
      · rintro (rfl | ⟨h, hne, hseen⟩)
        · exact ⟨.inl rfl, hp⟩
        · exact ⟨.inr h, hseen⟩
      · rintro ⟨rfl | h, hseen⟩
        · exact .inl rfl
        · by_cases hform : form = Path.form p
          · exact .inl hform
          · exact .inr ⟨h, hform, hseen⟩

/-- No two of the `freshPaths` have the same `form`. -/
theorem nodup_form_freshPaths {seen : List Path.Form} :
    ((freshPaths seen paths).map Path.form).Nodup := by
  induction paths generalizing seen with
  | nil => exact List.nodup_nil
  | cons p rest ih =>
    rw [freshPaths]
    split_ifs with hp
    · exact ih
    · refine List.nodup_cons.2 ⟨fun hmem => ?_, ih⟩
      exact (mem_form_freshPaths.1 hmem).2 List.mem_cons_self

/-! ## Calls that read the classpath -/

/-- The paths of the classpath that the call of an `Event` is about. -/
def Event.classpath (e : Event) : List Path.Form :=
  match e.call with
  | .readClasspath paths => paths.map Path.form
  | _ => []

/-- Whether a call is to read a `path` of the classpath. -/
def Event.reads (path : String) (e : Event) : Bool :=
  Path.form path ∈ e.classpath

/-- What is in a list of lists without repetitions is in one of these lists only, as `countP` counts
them. -/
theorem countP_mem_of_nodup_flatMap {α β : Type} [DecidableEq β] {f : α → List β} {l : List α}
    (h : (l.flatMap f).Nodup) (b : β) :
    l.countP (fun a => decide (b ∈ f a)) = if b ∈ l.flatMap f then 1 else 0 := by
  induction l with
  | nil => rfl
  | cons a l ih =>
    rw [List.flatMap_cons, List.nodup_append] at h
    obtain ⟨-, hl, hdisjoint⟩ := h
    rw [List.countP_cons, ih hl]
    by_cases ha : b ∈ f a
    · have hnot : b ∉ l.flatMap f := fun hb => hdisjoint b ha b hb rfl
      simp [ha, hnot]
    · simp [ha]

/-- If one item of a list is of the kind `p`, all that are of this kind have the property `q`
exactly if there is one that is of the kind and has it. -/
theorem countP_and_eq_one_iff {α : Type} {p q : α → Bool} {l : List α} (h : l.countP p = 1) :
    l.countP (fun a => q a && p a) = 1 ↔ ∀ a ∈ l, p a → q a := by
  rw [List.countP_eq_length_filter, List.length_eq_one_iff] at h
  obtain ⟨a, ha⟩ := h
  have hall : (∀ b ∈ l, p b → q b) ↔ ∀ b ∈ l.filter p, q b := by
    simp only [List.mem_filter, and_imp]
  rw [← List.countP_filter, hall, ha, List.forall_mem_singleton]
  cases hq : q a <;> simp [hq]

namespace Session

/-- Whether a session knows what its engine was given of the classpath by the `trace`, which is
nothing twice, and everything that it was asked to read and said that it did. -/
structure IsHandedOver (done : List (Operation × Bool)) (s : Session)
    (trace : List Event) : Prop where
  known : s.classpath = trace.flatMap Event.classpath
  nodup : s.classpath.Nodup
  asked : ∀ paths, (Operation.readClasspath paths, true) ∈ done →
    ∀ p ∈ paths, Path.form p ∈ s.classpath

namespace IsHandedOver

variable {done : List (Operation × Bool)} {s s' : Session} {op : Operation} {succeeded : Bool}
  {event : Option Event}

/-- An operation that is about something else hands nothing over, so what `IsHandedOver` stays the
same. -/
theorem of_other (h : IsHandedOver done s trace)
    (hop : ∀ paths, (op, succeeded) ≠ (.readClasspath paths, true))
    (hsame : s'.classpath = s.classpath) (hevent : ∀ e ∈ event, e.classpath = []) :
    IsHandedOver (done ++ [(op, succeeded)]) s' (trace ++ event.toList) where
  known := by
    have hnothing : event.toList.flatMap Event.classpath = [] := by
      rw [List.flatMap_eq_nil_iff]
      exact fun e he => hevent e (Option.mem_toList.1 he)
    rw [hsame, h.known, List.flatMap_append, hnothing, List.append_nil]
  nodup := hsame ▸ h.nodup
  asked := by
    intro paths hmem p hp
    rcases List.mem_append.1 hmem with hmem | hmem
    · exact hsame ▸ h.asked paths hmem p hp
    · exact absurd (List.mem_singleton.1 hmem).symm (hop paths)

/-- Each operation, with its `Transition`, hands over what it has to, and nothing that was handed
over before. -/
theorem transition (h : IsHandedOver done s trace)
    (htransition : s.Transition op succeeded event s') :
    IsHandedOver (done ++ [(op, succeeded)]) s' (trace ++ event.toList) := by
  cases htransition with
  | refused hrefusal => exact h.of_other (fun _ => nofun) rfl nofun
  | tagged hopen => exact h.of_other (fun _ => nofun) rfl nofun
  | readInputs hopen hphase =>
    refine h.of_other (fun _ => nofun) ?_ ?_
    · cases succeeded <;> rfl
    · rintro e ⟨⟩
      rfl
  | remapped hopen =>
    refine h.of_other (fun _ => nofun) rfl ?_
    rintro e ⟨⟩
    rfl
  | closed hopen =>
    refine h.of_other (fun _ => nofun) ?_ ?_
    · cases succeeded <;> rfl
    · rintro e ⟨⟩
      rfl
  | @classpathKnown paths hopen hknown =>
    refine ⟨?_, h.nodup, fun paths' hmem p hp => ?_⟩
    · rw [Option.toList_none, List.append_nil, h.known]
    · rcases List.mem_append.1 hmem with hmem | hmem
      · exact h.asked paths' hmem p hp
      · cases List.mem_singleton.1 hmem
        -- a path that is not fresh was seen
        by_contra hseen
        have hmem := mem_form_freshPaths.2 ⟨List.mem_map_of_mem hp, hseen⟩
        rw [hknown] at hmem
        cases hmem
  | @readClasspath paths fresh succeeded hopen hfresh hne =>
    have hclasspath : (s.withClasspath fresh).classpath = s.classpath ++ fresh.map Path.form := rfl
    refine ⟨?_, ?_, fun paths' hmem p hp => ?_⟩
    · rw [hclasspath, h.known, List.flatMap_append]
      exact congrArg _ (List.append_nil _).symm
    · rw [hclasspath, List.nodup_append]
      refine ⟨h.nodup, hfresh ▸ nodup_form_freshPaths, ?_⟩
      rintro form hform _ hnew rfl
      rw [← hfresh] at hnew
      exact (mem_form_freshPaths.1 hnew).2 hform
    · rw [hclasspath, List.mem_append]
      rcases List.mem_append.1 hmem with hmem | hmem
      · exact .inl (h.asked paths' hmem p hp)
      · cases List.mem_singleton.1 hmem
        by_contra hnot
        rw [not_or] at hnot
        exact hnot.2 (hfresh ▸ mem_form_freshPaths.2 ⟨List.mem_map_of_mem hp, hnot.1⟩)

end IsHandedOver

/-- What a session knows of its classpath `IsHandedOver` to its engine, in every run that it
`Reaches`. -/
theorem Reaches.isHandedOver {engine : Engine σ} {done : List (Operation × Bool)}
    {run : Run (σ × List Event)} (h : Reaches engine views done run) :
    IsHandedOver done run.session run.trace := by
  refine h.induction IsHandedOver ⟨rfl, List.nodup_nil, nofun⟩ ?_
  exact fun _ _ _ _ _ _ _ hs htransition => hs.transition htransition

/-- How often a path was handed over, as `countP` counts the calls: once or not at all. -/
theorem Reaches.countP_reads {engine : Engine σ} {done : List (Operation × Bool)}
    {run : Run (σ × List Event)} (h : Reaches engine views done run) (p : String) :
    run.trace.countP (Event.reads p) = if Path.form p ∈ run.session.classpath then 1 else 0 := by
  have hhanded := h.isHandedOver
  have hnodup := hhanded.nodup
  rw [hhanded.known] at hnodup ⊢
  exact countP_mem_of_nodup_flatMap hnodup (Path.form p)

/-- Whether every path that a session was asked to read, and said that it did, was read by the
engine in exactly one call of the `trace`. -/
def ReadOnce (done : List (Operation × Bool)) (trace : List Event) : Prop :=
  ∀ paths, (Operation.readClasspath paths, true) ∈ done → ∀ p ∈ paths,
    trace.countP (fun e => e.succeeded && e.reads p) = 1

/-- In every run that a session `Reaches`, no path of the classpath is handed to the engine in more
than one call, and every path that the session was asked to read and said that it did is handed over
in exactly one. So `ReadOnce` holds, and these paths are all read, exactly if the engine did not
fail at any of them: a session that is asked again for a path that the engine failed to read says
that it did, and the engine does not get to know of it. -/
theorem readOnce_iff {engine : Engine σ} {done : List (Operation × Bool)}
    {run : Run (σ × List Event)} (h : Reaches engine views done run) :
    (∀ p, run.trace.countP (Event.reads p) ≤ 1) ∧
    (∀ paths, (Operation.readClasspath paths, true) ∈ done → ∀ p ∈ paths,
      run.trace.countP (Event.reads p) = 1) ∧
    (ReadOnce done run.trace ↔
      ∀ paths, (Operation.readClasspath paths, true) ∈ done → ∀ p ∈ paths,
        ∀ e ∈ run.trace, e.reads p → e.succeeded) := by
  have hasked : ∀ paths, (Operation.readClasspath paths, true) ∈ done → ∀ p ∈ paths,
      run.trace.countP (Event.reads p) = 1 := by
    intro paths hmem p hp
    rw [h.countP_reads, if_pos (h.isHandedOver.asked paths hmem p hp)]
  refine ⟨fun p => ?_, hasked, ?_⟩
  · rw [h.countP_reads]
    split_ifs <;> decide
  · refine forall_congr' fun paths => forall₂_congr fun hmem p => forall_congr' fun hp => ?_
    exact countP_and_eq_one_iff (hasked paths hmem p hp)

/-- An engine that cannot read `c.jar`. -/
def pickyEngine : Engine Unit
  | .readClasspath paths => if "c.jar" ∈ paths then fail (.reported "cannot read c.jar") else return
  | _ => return

/-- What the `pickyEngine` can read is read once, also if it is asked for again and if something
else cannot be read. -/
theorem readOnce_iff_sample :
    let done : List (Operation × Bool) := [(.readClasspath ["lib/a.jar", "lib//a.jar"], true),
      (.readClasspath ["b.jar", "c.jar"], false), (.readClasspath ["lib/a.jar"], true)]
    ∃ run, Reaches pickyEngine [] done run ∧ ReadOnce done run.trace := by
  intro done
  obtain ⟨run, hreaches, htrace⟩ : ∃ run, Reaches pickyEngine [] done run ∧
      run.trace = [{ call := .loadViews [], succeeded := true },
        { call := .readClasspath ["lib/a.jar"], succeeded := true },
        { call := .readClasspath ["b.jar", "c.jar"], succeeded := false }] := by
    have hreaches : Reaches pickyEngine [] _ _ :=
      (((Reaches.opened () rfl).next (.readClasspath ["lib/a.jar", "lib//a.jar"]) rfl).next
        (.readClasspath ["b.jar", "c.jar"]) rfl).next (.readClasspath ["lib/a.jar"]) rfl
    exact ⟨_, hreaches, rfl⟩
  refine ⟨run, hreaches, (readOnce_iff hreaches).2.2.2 fun paths hmem p hp => ?_⟩
  have hform : Path.form p = Path.form "lib/a.jar" := by
    simp only [done, List.mem_cons, Prod.mk.injEq, Operation.readClasspath.injEq, and_true,
      Bool.true_eq_false, and_false, List.not_mem_nil, or_false, false_or] at hmem
    obtain rfl | rfl := hmem
    · simp only [List.mem_cons, List.not_mem_nil, or_false] at hp
      obtain rfl | rfl := hp
      · rfl
      · decide
    · rw [List.mem_singleton.1 hp]
  simp only [Event.reads, hform, htrace]
  decide

/-- A path that the `pickyEngine` could not read is asked for again. The session says that it read
the path, and the engine was not even called. -/
theorem readClasspath_retried : ∃ run, Reaches pickyEngine []
      [(.readClasspath ["c.jar"], false), (.readClasspath ["c.jar"], true)] run ∧
    run.trace = [{ call := .loadViews [], succeeded := true },
      { call := .readClasspath ["c.jar"], succeeded := false }] ∧
    ¬ReadOnce [(.readClasspath ["c.jar"], false), (.readClasspath ["c.jar"], true)] run.trace := by
  have hreaches : Reaches pickyEngine [] _ _ :=
    ((Reaches.opened () rfl).next (.readClasspath ["c.jar"]) rfl).next
      (.readClasspath ["c.jar"]) rfl
  refine ⟨_, hreaches, rfl, fun hread => ?_⟩
  have hcount := hread ["c.jar"] (by simp) "c.jar" (by simp)
  revert hcount
  decide

end Session

end MappingTables.Remap
