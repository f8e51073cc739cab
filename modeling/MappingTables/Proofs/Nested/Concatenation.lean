import MappingTables.Proofs.Nested.Numbers
import MappingTables.Proofs.Nested.OnePass
import MappingTables.Proofs.Nested.Reader
import MappingTables.Proofs.Overlay

/-!
# Files after each other

The lines of one file can follow those of another one with the same header, and what is read from
both together is what is read from the first, overlaid with what is read from the second.

* `readLevel_map`: a level is read onto a state as onto another one that stands for it.
* `readBelowMethod_overlay`, `readBelowClass_overlay`, `readTopLevel_overlay`: a block is read onto
  overlaid entries as onto the later ones.
* `readInput_append`: it holds for whole files.
-/

namespace MappingTables

/-- `within` a `context` only failures are changed, so `f` can change a value inside it. -/
theorem within_map {α β : Type} (context : Context) (f : α → β) (x : Except Failure α) :
    within context (f <$> x) = f <$> within context x := by
  cases x <;> rfl

/-- A fold over states that `f` makes of other ones is the fold over these, if that holds for each
`step` and whatever `P` says is needed for it is kept by the steps. -/
theorem foldlM_map_state {α σ τ : Type} {P : σ → Prop} {f : σ → τ}
    {step : σ → α → Except Failure σ} {step' : τ → α → Except Failure τ} {l : List α}
    (hstep : ∀ a ∈ l, ∀ s, P s → step' (f s) a = f <$> step s a)
    (hkept : ∀ a ∈ l, ∀ s s', P s → step s a = .ok s' → P s') {s : σ} (hs : P s) :
    l.foldlM step' (f s) = f <$> l.foldlM step s := by
  induction l generalizing s with
  | nil => rfl
  | cons a l ih =>
    rw [List.foldlM_cons, List.foldlM_cons, hstep a List.mem_cons_self s hs]
    cases hread : step s a with
    | error failure => rfl
    | ok s' =>
      exact ih (fun b hb => hstep b (List.mem_cons_of_mem a hb))
        (fun b hb => hkept b (List.mem_cons_of_mem a hb))
        (hkept a List.mem_cons_self s s' hs hread)

namespace Format

/-! ## Levels -/

section Levels

variable {σ τ : Type} {depth : Nat}
  {readBlock : σ → Line → List ReadLine → Except Failure (σ × List ReadLine)}
  {readBlock' : τ → Line → List ReadLine → Except Failure (τ × List ReadLine)}

/-- `readLevel` reads onto states that `f` makes of other ones as onto these, if that holds for its
blocks and whatever `P` says is needed for it is kept by them. -/
theorem readLevel_map {P : σ → Prop} {f : σ → τ} {lines : List ReadLine}
    (hblock : ∀ s line body, .ok line ∈ lines → (∀ l ∈ body, l ∈ lines) → P s →
      readBlock' (f s) line body = Prod.map f id <$> readBlock s line body)
    (hkept : ∀ s line body s' unread, .ok line ∈ lines → (∀ l ∈ body, l ∈ lines) → P s →
      readBlock s line body = .ok (s', unread) → P s') {s : σ} (hs : P s) :
    readLevel depth readBlock' (f s) lines = f <$> readLevel depth readBlock s lines := by
  rw [readLevel, readLevel, map_bind]
  congr 1
  funext _
  -- a level is read block by block, so it is enough to follow one of them
  refine foldlM_map_state (P := P) (fun block hmem s hs => ?_)
    (fun block hmem s s' hs hstep => ?_) hs
  · obtain ⟨hhead, hbody⟩ := mem_of_mem_blocks.2 block hmem
    rw [hblock s block.head block.body hhead hbody hs, within_map, bind_map_left, map_bind]
    simp only [map_bind, map_pure, Prod.map, id]
  · obtain ⟨⟨s'', unread⟩, hread, hstep⟩ := bind_eq_ok_iff.1 hstep
    obtain ⟨-, -, hstep⟩ := bind_eq_ok_iff.1 hstep
    rw [pure_eq_ok_iff] at hstep
    subst hstep
    obtain ⟨hhead, hbody⟩ := mem_of_mem_blocks.2 block hmem
    exact hkept s block.head block.body s'' unread hhead hbody hs (within_eq_ok_iff.1 hread)

/-- `blocks` cuts lines before others that start a level into blocks on their own. -/
theorem blocks_append_of_fst {lines' : List ReadLine} (h : (blocks depth lines').1 = [])
    (lines : List ReadLine) :
    blocks depth (lines ++ lines') =
      ((blocks depth lines).1, (blocks depth lines).2 ++ (blocks depth lines').2) := by
  induction lines with
  | nil => exact Prod.ext h rfl
  | cons line lines ih =>
    cases line with
    | error cause => rw [List.cons_append, blocks, blocks, ih]
    | ok line =>
      rw [List.cons_append, blocks, blocks, ih]
      split <;> rfl

/-- `readLevel` reads a level with others that start it again in two parts. -/
theorem readLevel_append {s : σ} {lines' : List ReadLine} (h : (blocks depth lines').1 = [])
    (lines : List ReadLine) :
    readLevel depth readBlock s (lines ++ lines') =
      readLevel depth readBlock s lines >>= fun s' => readLevel depth readBlock s' lines' := by
  simp only [readLevel]
  rw [blocks_append_of_fst h, h, bind_assoc]
  congr 1
  funext _
  rw [List.foldlM_append]
  rfl

end Levels

namespace Nested

/-! ## What is read onto overlaid entries -/

/-- A `text` that `appendComment` adds to the `later` comment comes to both. -/
theorem appendComment_overlayComment (earlier later : Option String) (text : String) :
    appendComment (overlayComment earlier later) text =
      overlayComment earlier (appendComment later text) := by
  cases earlier <;> cases later <;> simp [appendComment, overlayComment, String.append_assoc]

/-- Below an entry without members `readBelowLeaf` reads a line onto one that was `lay` over another
one as onto the later one. -/
theorem readBelowLeaf_lay {α : Type} {addComment : α → String → α} {lay : α → α → α}
    (hadd : ∀ a b text, addComment (lay a b) text = lay a (addComment b text)) (a b : α)
    (line : Line) (body : List ReadLine) :
    readBelowLeaf addComment (lay a b) line body =
      Prod.map (lay a) id <$> readBelowLeaf addComment b line body := by
  unfold readBelowLeaf
  split
  · simp only [map_bind, map_pure, Prod.map, id, hadd]
  · simp only [map_bind, map_pure, Prod.map, id]

section Overlaid

variable {α : Type} {lay : α → α → α} {depth : Nat} {P : α → Prop}
  {readBlock : α → Line → List ReadLine → Except Failure (α × List ReadLine)}

/-- `readLevel` reads what stands below an entry onto what was there `earlier` if `readBlock` does
so. -/
theorem readLevel_overlaid {earlier : Option α} {lines : List ReadLine}
    (hblock : ∀ a ∈ earlier, ∀ b line body, .ok line ∈ lines → (∀ l ∈ body, l ∈ lines) → P b →
      readBlock (lay a b) line body = Prod.map (lay a) id <$> readBlock b line body)
    (hkept : ∀ b line body b' unread, .ok line ∈ lines → (∀ l ∈ body, l ∈ lines) → P b →
      readBlock b line body = .ok (b', unread) → P b') {b : α} (hb : P b) :
    readLevel depth readBlock (OrderedMap.overlaid lay earlier b) lines =
      OrderedMap.overlaid lay earlier <$> readLevel depth readBlock b lines := by
  cases earlier with
  | none => exact (id_map' _).symm
  | some a => exact readLevel_map (hblock a rfl) hkept hb

/-- An entry that is read onto what was there earlier, which `f` does, and then `put` where it
belongs. -/
theorem put_overlaid {σ : Type} {context : Context} {x x' : Except Failure α} {f : α → α}
    {put put' : α → σ} {g : σ → σ} (hread : x' = f <$> x)
    (hput : ∀ a, x = .ok a → put' (f a) = g (put a)) :
    (within context x' >>= fun a => pure (put' a, [])) =
      (Prod.map g id <$> (within context x >>= fun a => pure (put a, [])) :
        Except Failure (σ × List ReadLine)) := by
  subst hread
  cases x with
  | error failure => rfl
  | ok a => exact congrArg (fun s => Except.ok (s, [])) (hput a rfl)

end Overlaid

section Readers

variable {size : Nat} {escaped : Bool} {line : Line} {body : List ReadLine}

/-- Below a method `readBelowMethod` reads a line onto what an `overlay` gave as onto the later
method. -/
theorem readBelowMethod_overlay {key : MemberKey} {m n : Method} (hline : line.IsSound [])
    (hm : m.Obeys (entryRules ['\t'] size escaped) key)
    (hn : n.Obeys (entryRules ['\t'] size escaped) key) :
    readBelowMethod size escaped (m.overlay n) line body =
      Prod.map m.overlay id <$> readBelowMethod size escaped n line body := by
  unfold readBelowMethod
  split
  · rw [map_bind]
    cases hp : readParameter size escaped line with
    | error failure => rfl
    | ok p =>
      have hnew := obeys_of_readParameter hline hp
      have hcomment : p.comment = none := by
        obtain ⟨_, -, hp⟩ := bind_eq_ok_iff.1 hp
        obtain ⟨_, -, hp⟩ := bind_eq_ok_iff.1 hp
        obtain ⟨_, -, hp⟩ := bind_eq_ok_iff.1 hp
        cases hp
        rfl
      have hsize : ∀ e ∈ n.parameters.entries, e.2.names.size = p.names.size := fun e he =>
        (hn.parameters e he).names.1.trans hnew.names.1.symm
      -- what stands below its line is read onto the parameter from before, if there was one
      have hread : readLevel 3 readBelowParameter ((m.overlay n).mergedParameter p) body =
          OrderedMap.overlaid Parameter.overlay (m.parameters.get? p.index) <$>
            readLevel 3 readBelowParameter (n.mergedParameter p) body := by
        rw [m.mergedParameter_overlay hcomment hsize]
        refine readLevel_overlaid (P := fun _ => True) ?_ (fun _ _ _ _ _ _ _ _ _ => trivial) trivial
        intro a _ b line body _ _ _
        refine readBelowLeaf_lay (fun a b text => ?_) a b line body
        simp only [Parameter.overlay, appendComment_overlayComment]
      refine put_overlaid hread fun q hq => ?_
      -- the index that the parameter goes under is that of its line, before and after
      have hindex : q.index = p.index := by
        refine readLevel_induction (fun q => q.index = p.index) hq
          (hn.mergedParameter overlays_entryRules hnew).index_eq ?_
        intro s line body s' unread _ _ hs hstep
        exact kept_of_readBelowLeaf (fun q : Parameter => q.index = p.index) hstep hs fun _ _ h => h
      have hindex' :
          (OrderedMap.overlaid Parameter.overlay (m.parameters.get? p.index) q).index =
            p.index := by
        cases hold : m.parameters.get? p.index with
        | none => exact hindex
        | some old => exact (hm.parameters _ (OrderedMap.get?_eq_some_iff.1 hold)).index_eq
      rw [hindex, hindex']
      simp only [Method.overlay, OrderedMap.overlay_insert]
  · simp only [map_bind, map_pure, Prod.map, id, Method.overlay, appendComment_overlayComment]
  · simp only [map_bind, map_pure, Prod.map, id]

/-- The row of a member that `readMember` reads follows the `entryRules`. -/
theorem obeys_of_readMember {key : MemberKey} {names : Names} (hline : line.IsSound [])
    (h : readMember size escaped line = .ok (key, names)) :
    (entryRules ['\t'] size escaped).keyed key.name names ∧
      (entryRules ['\t'] size escaped).descriptor key.descriptor := by
  obtain ⟨⟨descriptor, rest⟩, hnext, h⟩ := bind_eq_ok_iff.1 h
  obtain ⟨names, hnames, h⟩ := bind_eq_ok_iff.1 h
  obtain ⟨name, hname, h⟩ := bind_eq_ok_iff.1 h
  cases h
  obtain ⟨hdescriptor, hfields⟩ := hline.next hnext
  exact ⟨keyed_of_names hfields hnames hname, hdescriptor⟩

/-- Below a class `readBelowClass` reads a line onto what an `overlay` gave as onto the later
class. -/
theorem readBelowClass_overlay {key : String} {c d : ClassEntry} (hline : line.IsSound [])
    (hbody : SoundLines [] body) (hc : c.Obeys (entryRules ['\t'] size escaped) key)
    (hd : d.Obeys (entryRules ['\t'] size escaped) key) :
    readBelowClass size escaped (c.overlay d) line body =
      Prod.map c.overlay id <$> readBelowClass size escaped d line body := by
  by_cases hfield : line.head = "f"
  · rw [readBelowClass_field hfield, readBelowClass_field hfield, map_bind]
    cases he : readMember size escaped line with
    | error failure => rfl
    | ok e =>
      obtain ⟨member, names⟩ := e
      obtain ⟨hnames, hdescriptor⟩ := obeys_of_readMember hline he
      have hsize : ∀ e ∈ d.fields.entries, e.2.names.size = names.size := fun e he =>
        (hd.fields e he).names.2.1.trans hnames.2.1.symm
      have hread : readLevel 2 readBelowField
            ((c.overlay d).mergedField member { descriptor := member.descriptor, names }) body =
          OrderedMap.overlaid Field.overlay (c.fields.get? member) <$>
            readLevel 2 readBelowField
              (d.mergedField member { descriptor := member.descriptor, names }) body := by
        rw [c.mergedField_overlay rfl hsize]
        refine readLevel_overlaid (P := fun _ => True) ?_ (fun _ _ _ _ _ _ _ _ _ => trivial) trivial
        intro a _ b line body _ _ _
        refine readBelowLeaf_lay (fun a b text => ?_) a b line body
        simp only [Field.overlay, appendComment_overlayComment]
      refine put_overlaid hread fun f _ => ?_
      simp only [ClassEntry.overlay, OrderedMap.overlay_insert]
  by_cases hmethod : line.head = "m"
  · rw [readBelowClass_method hmethod, readBelowClass_method hmethod, map_bind]
    cases he : readMember size escaped line with
    | error failure => rfl
    | ok e =>
      obtain ⟨member, names⟩ := e
      obtain ⟨hnames, hdescriptor⟩ := obeys_of_readMember hline he
      have hnew : Method.Obeys (entryRules ['\t'] size escaped) member
          { descriptor := member.descriptor, names } :=
        ⟨rfl, hnames, hdescriptor, OrderedMap.forall_mem_empty⟩
      have hsize : ∀ e ∈ d.methods.entries, e.2.names.size = names.size := fun e he =>
        (hd.methods e he).names.2.1.trans hnames.2.1.symm
      have hread : readLevel 2 (readBelowMethod size escaped)
            ((c.overlay d).mergedMethod member { descriptor := member.descriptor, names }) body =
          OrderedMap.overlaid Method.overlay (c.methods.get? member) <$>
            readLevel 2 (readBelowMethod size escaped)
              (d.mergedMethod member { descriptor := member.descriptor, names }) body := by
        have hearlier : ∀ a ∈ c.methods.get? member,
            a.Obeys (entryRules ['\t'] size escaped) member := fun a ha =>
          hc.methods _ (OrderedMap.get?_eq_some_iff.1 ha)
        rw [c.mergedMethod_overlay rfl rfl hsize]
        -- the later method has to follow the rules all along, since its parameters get merged
        refine readLevel_overlaid (P := Method.Obeys (entryRules ['\t'] size escaped) member) ?_ ?_
          (hd.mergedMethod overlays_entryRules hnew)
        · intro a ha b line _ hmem _ hb
          exact readBelowMethod_overlay (hbody line hmem) (hearlier a ha) hb
        · intro b line _ b' _ hmem _ hb hstep
          exact obeys_of_readBelowMethod (hbody line hmem) hb hstep
      refine put_overlaid hread fun m _ => ?_
      simp only [ClassEntry.overlay, OrderedMap.overlay_insert]
  unfold readBelowClass
  split
  · next hhead => exact absurd hhead hfield
  · next hhead => exact absurd hhead hmethod
  · simp only [map_bind, map_pure, Prod.map, id, ClassEntry.overlay, appendComment_overlayComment]
  · simp only [map_bind, map_pure, Prod.map, id]

/-- On the outermost level `readTopLevel` reads a line onto what an `overlay` gave as onto the later
table. -/
theorem readTopLevel_overlay {t u : Table} (hline : line.IsSound []) (hbody : SoundLines [] body)
    (hnamespaces : t.namespaces = u.namespaces)
    (ht : t.Obeys (entryRules ['\t'] u.namespaces.size escaped))
    (hu : u.Obeys (entryRules ['\t'] u.namespaces.size escaped)) :
    readTopLevel escaped (t.overlay u) line body =
      Prod.map t.overlay id <$> readTopLevel escaped u line body := by
  by_cases hclass : line.head = "c"
  · have hrow : readClass escaped (t.overlay u) line = readClass escaped u line := by
      simp only [readClass, Table.overlay, Table.checkSlots, hnamespaces]
    rw [readTopLevel_class hclass, readTopLevel_class hclass, map_bind, hrow]
    cases he : readClass escaped u line with
    | error failure => rfl
    | ok e =>
      obtain ⟨key, names⟩ := e
      have hnames : (entryRules ['\t'] u.namespaces.size escaped).keyed key names := by
        obtain ⟨names, hnames, he⟩ := bind_eq_ok_iff.1 he
        obtain ⟨-, -, he⟩ := bind_eq_ok_iff.1 he
        obtain ⟨key, hkey, he⟩ := bind_eq_ok_iff.1 he
        cases he
        exact keyed_of_names hline.fields hnames hkey
      have hnew : ClassEntry.Obeys (entryRules ['\t'] u.namespaces.size escaped) key { names } :=
        ⟨hnames, OrderedMap.forall_mem_empty, OrderedMap.forall_mem_empty⟩
      have hsize : ∀ e ∈ u.classes.entries, e.2.names.size = names.size := fun e he =>
        (hu e he).names.2.1.trans hnames.2.1.symm
      have hread : readLevel 1 (readBelowClass (t.overlay u).namespaces.size escaped)
            ((t.overlay u).mergedClass key { names }) body =
          OrderedMap.overlaid ClassEntry.overlay (t.classes.get? key) <$>
            readLevel 1 (readBelowClass u.namespaces.size escaped)
              (u.mergedClass key { names }) body := by
        have hearlier : ∀ a ∈ t.classes.get? key,
            a.Obeys (entryRules ['\t'] u.namespaces.size escaped) key := fun a ha =>
          ht _ (OrderedMap.get?_eq_some_iff.1 ha)
        -- as for a method, the later class has to follow the rules all along
        rw [t.mergedClass_overlay hsize,
          show (t.overlay u).namespaces = u.namespaces from hnamespaces]
        refine readLevel_overlaid
          (P := ClassEntry.Obeys (entryRules ['\t'] u.namespaces.size escaped) key) ?_ ?_
          (hu.mergedClass overlays_entryRules hnew)
        · intro a ha b line _ hmem hsub hb
          exact readBelowClass_overlay (hbody line hmem) (hbody.mono hsub) (hearlier a ha) hb
        · intro b line _ b' _ hmem hsub hb hstep
          exact obeys_of_readBelowClass (hbody line hmem) (hbody.mono hsub) hb hstep
      refine put_overlaid hread fun c _ => ?_
      simp only [Table.overlay, OrderedMap.overlay_insert]
  · unfold readTopLevel
    split
    · next hhead => exact absurd hhead hclass
    · simp only [map_bind, map_pure, Prod.map, id]

end Readers

/-! ## Whole files -/

/-- Whether `lines` do not start with one that is deeper than the given `depth`. -/
def StartsLevel (depth : Nat) (lines : List ReadLine) : Prop :=
  ∀ line ∈ lines.head?, isDeeper depth line = false

section StartsLevel

variable {depth : Nat} {lines lines' : List ReadLine}

/-- No line stands before the first of the `blocks` of lines for which `StartsLevel` holds. -/
theorem StartsLevel.fst_blocks (h : StartsLevel depth lines) : (blocks depth lines).1 = [] := by
  cases lines with
  | nil => rfl
  | cons line lines =>
    have hline := h line rfl
    cases line with
    | error cause => exact absurd hline Bool.noConfusion
    | ok line => rw [blocks, if_neg (of_decide_eq_false hline)]

/-- `StartsLevel` holds of lines after each other if it holds of both. -/
theorem StartsLevel.append (h : StartsLevel depth lines) (h' : StartsLevel depth lines') :
    StartsLevel depth (lines ++ lines') := by
  cases lines with
  | nil => exact h'
  | cons line lines => exact h

/-- Deeper lines end where lines come for which `StartsLevel` holds. -/
theorem StartsLevel.span {deeper : List ReadLine} (h : StartsLevel depth lines)
    (hdeeper : ∀ line ∈ deeper, isDeeper depth line = true) :
    (deeper ++ lines).takeWhile (isDeeper depth) = deeper ∧
      (deeper ++ lines).dropWhile (isDeeper depth) = lines := by
  have htake : lines.takeWhile (isDeeper depth) = [] := by
    cases lines with
    | nil => rfl
    | cons line lines => simp [h line rfl]
  have hdrop : lines.dropWhile (isDeeper depth) = lines := by
    cases lines with
    | nil => rfl
    | cons line lines => simp [h line rfl]
  constructor
  · rw [List.takeWhile_append_of_pos hdeeper, htake, List.append_nil]
  · rw [List.dropWhile_append_of_pos hdeeper, hdrop]

end StartsLevel

/-- `readTopLevel` reads lines of the outermost level onto a table as onto one without classes, with
the result laid over the table by `overlay`. -/
theorem readLevel_readTopLevel_overlay {escaped : Bool} {t : Table} {lines : List ReadLine}
    {properties : OrderedMap String (Option String)} (hlines : SoundLines [] lines)
    (ht : t.Obeys (entryRules ['\t'] t.namespaces.size escaped)) :
    readLevel 0 (readTopLevel escaped) t lines =
      t.overlay <$>
        readLevel 0 (readTopLevel escaped) { namespaces := t.namespaces, properties } lines := by
  -- at first nothing is laid over the table
  have hstart : t = t.overlay { namespaces := t.namespaces, properties } := by
    simp [Table.overlay]
  conv_lhs => rw [hstart]
  refine readLevel_map (P := fun u => t.namespaces = u.namespaces ∧
    u.Obeys (entryRules ['\t'] t.namespaces.size escaped)) ?_ ?_ ⟨rfl, OrderedMap.forall_mem_empty⟩
  · rintro u line body hmem hsub ⟨hnamespaces, hu⟩
    rw [hnamespaces] at ht hu
    exact readTopLevel_overlay (hlines line hmem) (hlines.mono hsub) hnamespaces ht hu
  · rintro u line body u' unread hmem hsub ⟨hnamespaces, hu⟩ hstep
    rw [hnamespaces] at hu ⊢
    exact ⟨(header_of_readTopLevel hstep).1.symm,
      obeys_of_readTopLevel (hlines line hmem) (hlines.mono hsub) hu hstep⟩

section Files

variable {header : Line} {properties lines lines' : List ReadLine}

/-- `readFile` reads the lines after the header as properties and the outermost level. -/
theorem readFile_append (hproperties : ∀ line ∈ properties, isDeeper 0 line = true)
    (h : StartsLevel 0 lines) :
    readFile (.ok header :: (properties ++ lines)) = (do
      let namespaces ← readHeader header
      let properties ← within (.inSection .headerProperties) (readLevel 1 readProperty ∅ properties)
      within (.inSection .table)
        (readLevel 0 (readTopLevel (properties.contains escapedNames)) { namespaces, properties }
          lines)) := by
  obtain ⟨htake, hdrop⟩ := h.span hproperties
  rw [readFile, htake, hdrop]

/-- What `readFile` reads from lines that start the outermost level, and others that start it again,
is what it reads from the first ones, with what it reads from the others laid over it by
`overlay`. -/
theorem readFile_append_append (hproperties : ∀ line ∈ properties, isDeeper 0 line = true)
    (h : StartsLevel 0 lines) (h' : StartsLevel 0 lines') (hlines : SoundLines [] lines)
    (hlines' : SoundLines [] lines') {t : Table} :
    readFile (.ok header :: (properties ++ (lines ++ lines'))) = .ok t ↔
      ∃ t₁ t₂, readFile (.ok header :: (properties ++ lines)) = .ok t₁ ∧
        readFile (.ok header :: (properties ++ lines')) = .ok t₂ ∧ t = t₁.overlay t₂ := by
  rw [readFile_append hproperties (h.append h'), readFile_append hproperties h,
    readFile_append hproperties h']
  simp only [bind_eq_ok_iff, within_eq_ok_iff, readLevel_append h'.fst_blocks]
  -- the second part goes on from the first one, which the header properties tell how to read
  have hsecond : ∀ {namespaces : Namespaces} {properties : OrderedMap String (Option String)}
      {t₁ : Table}, readLevel 0 (readTopLevel (properties.contains escapedNames))
        { namespaces, properties } lines = .ok t₁ →
      readLevel 0 (readTopLevel (properties.contains escapedNames)) t₁ lines' =
        t₁.overlay <$> readLevel 0 (readTopLevel (properties.contains escapedNames))
          { namespaces, properties } lines' := by
    intro namespaces properties t₁ ht₁
    obtain ⟨rfl, -, hobeys⟩ := kept_of_readTopLevel hlines ht₁
    exact readLevel_readTopLevel_overlay hlines' hobeys
  constructor
  · rintro ⟨namespaces, hheader, properties, hprops, t₁, ht₁, ht⟩
    rw [hsecond ht₁] at ht
    cases ht₂ : readLevel 0 (readTopLevel (properties.contains escapedNames))
        { namespaces, properties } lines' with
    | error failure =>
      rw [ht₂] at ht
      cases ht
    | ok t₂ =>
      rw [ht₂] at ht
      exact ⟨t₁, t₂, ⟨namespaces, hheader, properties, hprops, ht₁⟩,
        ⟨namespaces, hheader, properties, hprops, ht₂⟩, (Except.ok.inj ht).symm⟩
  · rintro ⟨t₁, t₂, ⟨namespaces, hheader, properties, hprops, ht₁⟩,
      ⟨namespaces', hheader', properties', hprops', ht₂⟩, rfl⟩
    obtain rfl := Except.ok.inj (hheader.symm.trans hheader')
    obtain rfl := Except.ok.inj (hprops.symm.trans hprops')
    refine ⟨namespaces, hheader, properties, hprops, t₁, ht₁, ?_⟩
    rw [hsecond ht₁, ht₂]
    rfl

end Files

/-- `run` of a scan does not go on from a line that cannot be read. -/
theorem Scan.forall_ok_of_run {s s' : Scan} {lines : List ReadLine} (h : s.run lines = some s') :
    ∀ line ∈ lines, ∃ read, line = .ok read := by
  induction lines generalizing s with
  | nil => exact nofun
  | cons line lines ih =>
    obtain ⟨s₁, hs₁, h⟩ := Option.bind_eq_some_iff.1 h
    refine List.forall_mem_cons.2 ⟨?_, ih h⟩
    cases line with
    | error cause => cases hs₁
    | ok read => exact ⟨read, rfl⟩

/-- All lines of a file that `readFile` reads can be read. -/
theorem forall_ok_of_readFile {lines : List ReadLine} {t : Table} (h : readFile lines = .ok t) :
    ∀ line ∈ lines, ∃ read, line = .ok read := by
  cases lines with
  | nil => exact nofun
  | cons line lines =>
    cases line with
    | error cause => cases h
    | ok header =>
      obtain ⟨namespaces, hheader, -⟩ := bind_eq_ok_iff.1 h
      have hrun : (readFile (.ok header :: lines)).toOption =
          ((Scan.start namespaces).run lines).map Scan.table := readFile_eq_run hheader
      rw [h] at hrun
      obtain ⟨s, hs, -⟩ := Option.map_eq_some_iff.1 hrun.symm
      exact List.forall_mem_cons.2 ⟨⟨header, rfl⟩, Scan.forall_ok_of_run hs⟩

/-- Whether a `text` starts with a tab. -/
def IsIndented (text : String) : Prop :=
  text.toList.head? = some '\t'

instance : DecidablePred IsIndented := fun text =>
  inferInstanceAs (Decidable (text.toList.head? = some '\t'))

/-- The lines with the given `texts`, which nobody has numbered. -/
def unnumberedLines (texts : List (Except Cause String)) : List ReadLine :=
  texts.map fun text => text.map (Line.ofText 0)

section Texts

variable {texts : List (Except Cause String)}

/-- What `readTexts` reads from texts can be read from `unnumberedLines`. -/
theorem readTexts_eq_ok_iff {t : Table} :
    readTexts texts = .ok t ↔ readFile (unnumberedLines texts) = .ok t := by
  rw [← toOption_eq_some_iff, ← toOption_eq_some_iff, unnumberedLines, ← map_unnumbered_readLines,
    toOption_readFile_map_unnumbered]
  rfl

/-- A line is below the outermost level if its text `IsIndented`. -/
theorem isDeeper_zero_iff {text : String} :
    isDeeper 0 (.ok (Line.ofText 0 text)) = true ↔ IsIndented text := by
  rw [isDeeper, decide_eq_true_iff, Line.depth_ofText, IsIndented]
  cases text.toList with
  | nil => simp
  | cons c s => by_cases hc : c = '\t' <;> simp [hc]

/-- Lines whose texts are `IsIndented` are below the outermost level. -/
theorem isDeeper_of_mem_unnumberedLines (h : ∀ text, .ok text ∈ texts → IsIndented text) :
    ∀ line ∈ unnumberedLines texts, isDeeper 0 line = true := by
  intro line hline
  obtain ⟨text, htext, rfl⟩ := List.mem_map.1 hline
  cases text with
  | error cause => rfl
  | ok text => exact isDeeper_zero_iff.2 (h text htext)

/-- `StartsLevel` holds of lines of which the first one is not `IsIndented`, unless that line cannot
be read. -/
theorem startsLevel_unnumberedLines (h : ∀ text, texts.head? = some (.ok text) → ¬IsIndented text) :
    StartsLevel 0 (unnumberedLines texts) ∨ ∃ cause, .error cause ∈ unnumberedLines texts := by
  cases texts with
  | nil => exact .inl nofun
  | cons text texts =>
    cases text with
    | error cause => exact .inr ⟨cause, List.mem_cons_self⟩
    | ok text =>
      refine .inl fun line hline => ?_
      obtain rfl := Option.some.inj hline
      exact Bool.eq_false_iff.2 fun hdeeper => h text rfl (isDeeper_zero_iff.1 hdeeper)

/-- `unnumberedLines` that are made from texts are `SoundLines`. -/
theorem soundLines_unnumberedLines : SoundLines [] (unnumberedLines texts) := by
  intro line hline
  obtain ⟨text, -, hline⟩ := List.mem_map.1 hline
  cases text with
  | error cause => cases hline
  | ok text =>
    cases hline
    exact Line.isSound_ofText (fun _ hc => absurd hc List.not_mem_nil) 0

end Texts

/-- Let the lines of a file be a `header`, header properties, and two parts that are each empty or
start with a line that is not `IsIndented`. `readInput` can read it exactly if it can read both
parts below the same header and properties, and then its table is that of the first part, with that
of the second one laid over it by `overlay`. -/
theorem readInput_append {input input₁ input₂ : Input} {header : Except Cause String}
    {properties part₁ part₂ : List (Except Cause String)}
    (hinput : input.texts = header :: (properties ++ (part₁ ++ part₂)))
    (hinput₁ : input₁.texts = header :: (properties ++ part₁))
    (hinput₂ : input₂.texts = header :: (properties ++ part₂))
    (hproperties : ∀ text, .ok text ∈ properties → IsIndented text)
    (hpart₁ : ∀ text, part₁.head? = some (.ok text) → ¬IsIndented text)
    (hpart₂ : ∀ text, part₂.head? = some (.ok text) → ¬IsIndented text) (t : Table) :
    readInput input = .ok t ↔
      ∃ t₁ t₂, readInput input₁ = .ok t₁ ∧ readInput input₂ = .ok t₂ ∧ t = t₁.overlay t₂ := by
  rw [readInput, hinput]
  simp only [readInput, hinput₁, hinput₂, readTexts_eq_ok_iff]
  cases header with
  | error cause =>
    constructor
    · intro h
      cases h
    · rintro ⟨_, _, h, -, -⟩
      cases h
  | ok header =>
    have hlines : ∀ part, unnumberedLines (.ok header :: (properties ++ part)) =
        .ok (Line.ofText 0 header) :: (unnumberedLines properties ++ unnumberedLines part) :=
      fun part => congrArg _ List.map_append
    have happend :
        unnumberedLines (part₁ ++ part₂) = unnumberedLines part₁ ++ unnumberedLines part₂ :=
      List.map_append
    rw [hlines, hlines, hlines, happend]
    -- a file with a line that cannot be read cannot be read either, in whichever part that line is
    have hunread : ∀ {lines : List ReadLine} {t : Table},
        (∃ cause, .error cause ∈ lines) → readFile lines ≠ .ok t := by
      rintro lines t ⟨cause, hcause⟩ h
      obtain ⟨read, hread⟩ := forall_ok_of_readFile h _ hcause
      cases hread
    rcases startsLevel_unnumberedLines hpart₁ with h₁ | ⟨cause, hcause⟩
    · rcases startsLevel_unnumberedLines hpart₂ with h₂ | ⟨cause, hcause⟩
      · exact readFile_append_append (isDeeper_of_mem_unnumberedLines hproperties) h₁ h₂
          soundLines_unnumberedLines soundLines_unnumberedLines
      · constructor
        · intro h
          exact absurd h (hunread ⟨cause, by simp [hcause]⟩)
        · rintro ⟨_, _, -, h, -⟩
          exact absurd h (hunread ⟨cause, by simp [hcause]⟩)
    · constructor
      · intro h
        exact absurd h (hunread ⟨cause, by simp [hcause]⟩)
      · rintro ⟨_, _, h, -, -⟩
        exact absurd h (hunread ⟨cause, by simp [hcause]⟩)

/-- Lines that name a class, one of its methods and a parameter. -/
def earlierTexts : List String :=
  ["c\ta\tMain", "\tc\tOne.", "\tm\t()V\tb\t", "\t\tp\t1\t\tcount"]

/-- Lines that name another class, and then more of the first one. -/
def laterTexts : List String :=
  ["c\tz\t", "c\ta\t", "\tc\tTwo.", "\tm\t()V\tb\trun", "\t\tp\t2\t\tsize", "\t\tp\t1\t\t"]

/-- A file with the given lines after a header and a property. -/
def sampleInput (texts : List String) : Input where
  bytes := (unlines ("tiny\t2\t0\tofficial\tnamed" :: "\tescaped-names" :: texts)).toUTF8

/-- The `earlierTexts` and the `laterTexts` are read together as they are read each. -/
theorem readInput_append_sample :
    ∃ t₁ t₂, readInput (sampleInput earlierTexts) = .ok t₁ ∧
      readInput (sampleInput laterTexts) = .ok t₂ ∧
      readInput (sampleInput (earlierTexts ++ laterTexts)) = .ok (t₁.overlay t₂) := by
  obtain ⟨t, ht⟩ := Option.isSome_iff_exists.1
    (show (readInput (sampleInput (earlierTexts ++ laterTexts))).toOption.isSome = true by
      decide +kernel)
  have hproperties : ∀ text, .ok text ∈ [(.ok "\tescaped-names" : Except Cause String)] →
      IsIndented text := by
    intro text htext
    cases List.mem_singleton.1 htext
    decide
  have hpart₁ : ∀ text, (earlierTexts.map Except.ok : List (Except Cause String)).head? =
      some (.ok text) → ¬IsIndented text := by
    intro text htext
    cases htext
    decide
  have hpart₂ : ∀ text, (laterTexts.map Except.ok : List (Except Cause String)).head? =
      some (.ok text) → ¬IsIndented text := by
    intro text htext
    cases htext
    decide
  have hinput : (sampleInput (earlierTexts ++ laterTexts)).texts =
      .ok "tiny\t2\t0\tofficial\tnamed" ::
        ([.ok "\tescaped-names"] ++ (earlierTexts.map .ok ++ laterTexts.map .ok)) := by
    decide +kernel
  have hinput₁ : (sampleInput earlierTexts).texts =
      .ok "tiny\t2\t0\tofficial\tnamed" :: ([.ok "\tescaped-names"] ++ earlierTexts.map .ok) := by
    decide +kernel
  have hinput₂ : (sampleInput laterTexts).texts =
      .ok "tiny\t2\t0\tofficial\tnamed" :: ([.ok "\tescaped-names"] ++ laterTexts.map .ok) := by
    decide +kernel
  obtain ⟨t₁, t₂, ht₁, ht₂, rfl⟩ :=
    (readInput_append hinput hinput₁ hinput₂ hproperties hpart₁ hpart₂
    t).1 (toOption_eq_some_iff.1 ht)
  exact ⟨t₁, t₂, ht₁, ht₂, toOption_eq_some_iff.1 ht⟩

end Nested

end Format

end MappingTables
