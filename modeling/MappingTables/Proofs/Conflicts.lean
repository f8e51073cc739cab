import MappingTables.Proofs.JoinedPlaces

/-!
# Conflicts of joined tables

* `Noted.notes_foldlM`: the notes of a fold over items that do not depend on each other.
* `Table.joinConflicts`: the conflicts over what stands at a place of two tables.
* `Table.notes_join_eq`: joining finds these conflicts, place by place in the order of the joined
  table.
* `Table.AgreeAt`: two tables say nothing different about a place.
* `Table.notes_join_eq_nil_iff`: joining finds no conflict exactly if the tables agree at all
  places.
-/

namespace MappingTables

/-! ## The notes of several operations -/

namespace Noted

variable {ν α β σ : Type}

/-- Two operations after each other take the `notes` of both. -/
theorem notes_bind_of_ok {x : Noted ν α} {f : α → Noted ν β} {a : α} (h : x.outcome = .ok a) :
    (x >>= f).notes = x.notes ++ (f a).notes := by
  change (Noted.bind x f).notes = _
  rw [Noted.bind, h]

/-- An operation that takes no notes adds none to the `notes`. -/
theorem notes_bind_liftM (x : Noted ν α) (f : α → Except Failure β) :
    (x >>= fun a => (liftM (f a) : Noted ν β)).notes = x.notes := by
  change (Noted.bind x _).notes = _
  unfold Noted.bind
  cases x.outcome with
  | error failure => rfl
  | ok a => exact List.append_nil _

/-- A fold that succeeds takes the `notes` of all its items. -/
theorem notes_foldlM {item : β → Noted ν α} {insert : σ → β → α → Except Failure σ} {l : List β}
    {s t : σ}
    (h : (l.foldlM (fun s b => do
      let a ← item b
      liftM (insert s b a)) s).outcome = .ok t) :
    (l.foldlM (fun s b => do
      let a ← item b
      liftM (insert s b a)) s).notes = l.flatMap fun b => (item b).notes := by
  induction l generalizing s with
  | nil => rfl
  | cons b l ih =>
    rw [List.foldlM_cons, outcome_bind] at h
    obtain ⟨s₁, hs₁, h⟩ := bind_eq_ok_iff.1 h
    rw [List.foldlM_cons, notes_bind_of_ok hs₁, notes_bind_liftM, ih h, List.flatMap_cons]

end Noted

/-! ## Values that agree -/

/-- Whether the values `a` and `b` are the same, if both are there. -/
def Agree {α : Type} (a b : Option α) : Prop :=
  ∀ x ∈ a, ∀ y ∈ b, x = y

/-- Nothing can `Agree` with everything. -/
theorem Agree.of_none {α : Type} {a b : Option α} (h : a = none ∨ b = none) : Agree a b := by
  rcases h with rfl | rfl
  · nofun
  · exact fun _ _ => nofun

/-- The `Conflict` over two values, if both are there and they differ. -/
def disagreement (location subject : String) (left right : Option String) : List Conflict :=
  match left, right with
  | some kept, some discarded =>
    if kept = discarded then [] else [{ location, subject, kept, discarded }]
  | _, _ => []

/-- `disagreement` is empty exactly if the two values `Agree`. -/
theorem disagreement_eq_nil_iff {location subject : String} {left right : Option String} :
    disagreement location subject left right = [] ↔ Agree left right := by
  cases left with
  | none => exact iff_of_true rfl (.of_none (.inl rfl))
  | some l =>
    cases right with
    | none => exact iff_of_true rfl (.of_none (.inr rfl))
    | some r => simp [disagreement, Agree]

/-- What is noted by `joinValue`: the `disagreement`. -/
theorem notes_joinValue (location subject : String) (left right : Option String) :
    (joinValue location subject left right).notes = disagreement location subject left right := by
  cases left with
  | none => rfl
  | some l =>
    cases right with
    | none => rfl
    | some r =>
      rw [joinValue, Noted.notes_bind_of_ok (a := ()) rfl, disagreement, Noted.noteIf]
      by_cases h : l = r
      · rw [if_pos h, if_neg (not_not_intro h)]
        rfl
      · rw [if_neg h, if_pos h]
        rfl

/-- The conflicts over two entries: over their names in the `shared` namespace, and over their
comments. -/
def entryConflicts (location shared : String) (left right : Option Names)
    (leftComment rightComment : Option String) : List Conflict :=
  disagreement location shared (left.bind Names.source) (right.bind Names.source) ++
    disagreement location "comment" leftComment rightComment

/-- Whether the names in the shared namespace and the comments of two entries `Agree`. -/
structure EntriesAgree (left right : Option Names) (leftComment rightComment : Option String) :
    Prop where
  source : Agree (left.bind Names.source) (right.bind Names.source)
  comment : Agree leftComment rightComment

/-- `entryConflicts` is empty exactly if `EntriesAgree`. -/
theorem entryConflicts_eq_nil_iff {location shared : String} {left right : Option Names}
    {leftComment rightComment : Option String} :
    entryConflicts location shared left right leftComment rightComment = [] ↔
      EntriesAgree left right leftComment rightComment := by
  rw [entryConflicts, List.append_eq_nil_iff, disagreement_eq_nil_iff, disagreement_eq_nil_iff]
  exact ⟨fun h => ⟨h.1, h.2⟩, fun h => ⟨h.source, h.comment⟩⟩

/-- How a `Place` is called in conflicts. -/
def Place.location : Place → String
  | classEntry key => classLocation key
  | field owner key => memberLocation "field" owner key
  | method owner key => memberLocation "method" owner key
  | parameter owner key index => parameterLocation (memberLocation "method" owner key) index

/-- The `entryConflicts` over what stands at a place of two tables. -/
def Table.joinConflicts (shared : String) (left right : Table) (p : Place) : List Conflict :=
  entryConflicts p.location shared (left.namesAt p) (right.namesAt p) (left.commentAt p)
    (right.commentAt p)

/-- What is gathered along some `keys` is gathered along the `entries` that were made for them. -/
theorem flatMap_keys_eq {κ α γ : Type} {R : κ → α → Prop} {keys : List κ} {entries : List (κ × α)}
    (h : List.Forall₂ (fun k e => e.1 = k ∧ R k e.2) keys entries) {f : κ → List γ}
    {g : κ × α → List γ} (hfg : ∀ k a, R k a → f k = g (k, a)) :
    keys.flatMap f = entries.flatMap g := by
  induction h with
  | nil => rfl
  | cons hrel _ ih =>
    obtain ⟨rfl, hrel⟩ := hrel
    rw [List.flatMap_cons, List.flatMap_cons, ih, hfg _ _ hrel]

namespace Layout

variable {layout : Layout}

/-- What is noted when `joinNames` and `joinComments` join two entries. -/
theorem notes_joinNames_bind {α : Type} {location : String} {left right : Option Names}
    {leftComment rightComment : Option String} {names : Names}
    (h : layout.NamesJoined left right names) (rest : Names → Option String → Noted Conflict α) :
    (do
      let names ← layout.joinNames location left right
      let comment ← joinComments location leftComment rightComment
      rest names comment).notes =
      entryConflicts location layout.shared left right leftComment rightComment ++
        (rest names (leftComment.or rightComment)).notes := by
  rw [Noted.notes_bind_of_ok (outcome_joinNames_eq_ok_iff.2 h),
    Noted.notes_bind_of_ok (outcome_joinComments ..), joinNames, Noted.notes_bind_liftM,
    joinComments, notes_joinValue, notes_joinValue, entryConflicts, List.append_assoc]

/-- `checkJoinable` notes nothing on entries that are `Joinable`. -/
theorem notes_checkJoinable_bind {α : Type} {location : String} {left right : Option Names}
    (h : Joinable left right) (rest : Noted Conflict α) :
    (do
      liftM (checkJoinable location left right)
      rest).notes = rest.notes :=
  Noted.notes_bind_of_ok (x := liftM (checkJoinable location left right)) (a := ())
    (checkJoinable_eq_ok_iff.2 h)

section Notes

variable {left right : Table} {owner : String} {key : MemberKey}

/-- What is noted by `joinParameter`: the `joinConflicts` at its place. -/
theorem notes_joinParameter {index : UInt64} {p : Parameter} (h : layout.ParameterJoined index
    (left.parameter? owner key index) (right.parameter? owner key index) p) :
    (layout.joinParameter (memberLocation "method" owner key) index
      (left.parameter? owner key index) (right.parameter? owner key index)).notes =
      left.joinConflicts layout.shared right (.parameter owner key index) :=
  (notes_joinNames_bind h.names _).trans (List.append_nil _)

/-- What is noted by `joinField`: the `joinConflicts` at its place. -/
theorem notes_joinField {f : Field}
    (h : layout.FieldJoined key (left.field? owner key) (right.field? owner key) f) :
    (layout.joinField owner key (left.field? owner key) (right.field? owner key)).notes =
      left.joinConflicts layout.shared right (.field owner key) := by
  rw [joinField, notes_checkJoinable_bind h.joinable]
  exact (notes_joinNames_bind h.names _).trans (List.append_nil _)

/-- What is noted by `joinMethod`: the `joinConflicts` of the method, and then of its parameters. -/
theorem notes_joinMethod {m : Method}
    (h : layout.MethodJoined key (left.method? owner key) (right.method? owner key) m) :
    (layout.joinMethod owner key (left.method? owner key) (right.method? owner key)).notes =
      (m.places owner key).flatMap (left.joinConflicts layout.shared right) := by
  rw [joinMethod, notes_checkJoinable_bind h.joinable, Method.places, List.flatMap_cons]
  refine (notes_joinNames_bind h.names _).trans (congrArg _ ?_)
  dsimp only
  rw [Noted.notes_foldlM (t := m), OrderedMap.keys, List.map_map, List.flatMap_map]
  · exact flatMap_keys_eq h.parameters fun index p hp => notes_joinParameter hp
  · exact outcome_foldlM_joinParameter_eq_ok_iff.2
      ⟨m.parameters, h.parameters, Method.ext h.descriptor.symm rfl h.comment.symm rfl⟩

/-- What is noted by `joinClass`: the `joinConflicts` of the class, then of its fields, and then of
its methods. -/
theorem notes_joinClass {c : ClassEntry}
    (h : layout.ClassJoined (left.classes.get? owner) (right.classes.get? owner) c) :
    (layout.joinClass owner (left.classes.get? owner) (right.classes.get? owner)).notes =
      (c.places owner).flatMap (left.joinConflicts layout.shared right) := by
  rw [joinClass, notes_checkJoinable_bind h.joinable, ClassEntry.places, List.flatMap_cons]
  refine (notes_joinNames_bind h.names _).trans (congrArg _ ?_)
  dsimp only
  rw [← h.comment]
  -- the fields come first, and then the methods behind them
  let withFields : ClassEntry := { names := c.names, comment := c.comment, fields := c.fields }
  rw [Noted.notes_bind_of_ok (a := withFields), Noted.notes_foldlM (t := withFields),
    Noted.notes_foldlM (t := c), List.flatMap_append, OrderedMap.keys, List.map_map,
    List.flatMap_map, List.flatMap_assoc]
  · refine congrArg₂ (· ++ ·) ?_ ?_
    · exact flatMap_keys_eq h.fields fun key f hf => notes_joinField hf
    · exact flatMap_keys_eq h.methods fun key m hm => notes_joinMethod hm
  · exact (outcome_foldlM_join_eq_ok_iff (ClassEntry.mk c.names c.comment c.fields)
      outcome_joinMethod_eq_ok_iff fun _ _ => rfl).2 ⟨c.methods, h.methods, rfl⟩
  all_goals
    exact (outcome_foldlM_join_eq_ok_iff (ClassEntry.mk c.names c.comment · ∅)
      outcome_joinField_eq_ok_iff fun _ _ => rfl).2 ⟨c.fields, h.fields, rfl⟩

end Notes

end Layout

namespace Table

/-- Whether two tables say nothing different about what stands at a place: `EntriesAgree` there. -/
def AgreeAt (left right : Table) (p : Place) : Prop :=
  EntriesAgree (left.namesAt p) (right.namesAt p) (left.commentAt p) (right.commentAt p)

/-- What is noted by `join` is what is noted by `joinClass` for each class, one after the other. -/
theorem notes_join {left right t : Table} (h : (join left right).outcome = .ok t) :
    (join left right).notes =
      (unionKeys textLe (some left.classes) (some right.classes)).flatMap fun key =>
        ((joinLayout left right).joinClass key (left.classes.get? key)
          (right.classes.get? key)).notes := by
  obtain ⟨hjoined, -⟩ := outcome_join_eq_ok_iff.1 h
  have hnamespaces : (liftM (Namespaces.ofLabels (left.namespaces.labels ++
      right.namespaces.labels.tail)) : Noted Conflict Namespaces).outcome = .ok t.namespaces :=
    Namespaces.ofLabels_eq_ok_iff.2 hjoined.namespaces
  rw [join, Noted.outcome_bind, hnamespaces, ok_bind] at h
  rw [join, Noted.notes_bind_of_ok hnamespaces, Noted.notes_foldlM h,
    Namespaces.source_eq_of_append hjoined.namespaces]
  rfl

/-- What is noted by `join`: the `joinConflicts` of the entries, in the order of the joined
table. -/
theorem notes_join_eq {left right t : Table} (h : (join left right).outcome = .ok t) :
    (join left right).notes = t.places.flatMap
      (joinConflicts left.namespaces.source left right) := by
  rw [notes_join h, places, List.flatMap_assoc]
  exact flatMap_keys_eq (joined_of_outcome h).classes fun key c hc => Layout.notes_joinClass hc

/-- `join` notes nothing exactly if the two tables agree at all places, as `AgreeAt` says. -/
theorem notes_join_eq_nil_iff {left right t : Table} (h : (join left right).outcome = .ok t) :
    (join left right).notes = [] ↔ ∀ p, AgreeAt left right p := by
  rw [notes_join_eq h, List.flatMap_eq_nil_iff]
  refine forall_congr' fun p => ?_
  rw [joinConflicts, entryConflicts_eq_nil_iff, mem_places_iff, ((joined_of_outcome h).at p).isSome]
  refine ⟨fun hagree => ?_, fun hagree _ => hagree⟩
  -- where only one table has an entry there is nothing to disagree on
  by_cases hsome : ((left.namesAt p).isSome || (right.namesAt p).isSome) = true
  · exact hagree hsome
  · rw [Bool.or_eq_true, not_or, Option.not_isSome_iff_eq_none, Option.not_isSome_iff_eq_none]
      at hsome
    have hcomment := commentAt_of_namesAt_eq_none hsome.1
    rw [AgreeAt, hsome.1, hcomment]
    exact ⟨.of_none (.inl rfl), .of_none (.inl rfl)⟩

end Table

end MappingTables
