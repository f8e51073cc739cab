import Mathlib.Data.List.Forall2
import MappingTables.Noted

/-!
# Sequences of operations that can fail

What it takes for a sequence to succeed, and what the success of a sequence says about its parts.

* `bind_eq_ok_iff`, `mapM_eq_ok_iff`: a sequence succeeds exactly if all its parts do.
* `foldlM_induction`: what every step of a fold keeps is kept by the fold.
* `outcome_foldlM`: a fold with notes, seen without its notes.
* `toOption_bind`, `toOption_congr`: operations seen without their failures.
-/

namespace MappingTables

variable {α β σ ε : Type}

/-- `x` and then `f` succeed exactly if both do. -/
theorem bind_eq_ok_iff {x : Except ε α} {f : α → Except ε β} {b : β} :
    (x >>= f) = .ok b ↔ ∃ a, x = .ok a ∧ f a = .ok b := by
  cases x with
  | error failure => exact ⟨nofun, fun ⟨_, h, _⟩ => nomatch h⟩
  | ok a => exact ⟨fun h => ⟨a, rfl, h⟩, fun ⟨_, ha, h⟩ => Except.ok.inj ha ▸ h⟩

/-- What `f` makes of a value does not change whether there is one. -/
theorem exists_bind_pure_eq_ok_iff {x : Except Failure α} {f : α → β} :
    (∃ b, (x >>= fun a => pure (f a)) = .ok b) ↔ ∃ a, x = .ok a := by
  cases x with
  | error failure => constructor <;> (rintro ⟨_, h⟩; cases h)
  | ok a => exact ⟨fun _ => ⟨a, rfl⟩, fun _ => ⟨f a, rfl⟩⟩

/-- `pure` succeeds with its value. -/
@[simp]
theorem pure_eq_ok_iff {a b : α} : (pure a : Except ε α) = .ok b ↔ a = b :=
  ⟨fun h => Except.ok.inj h, fun h => h ▸ rfl⟩

/-- `fail` is no success. -/
@[simp]
theorem fail_ne_ok {cause : Cause} {a : α} : (fail cause : Except Failure α) ≠ .ok a :=
  fun h => nomatch h

/-- A value goes on to `f`. -/
@[simp]
theorem ok_bind (a : α) (f : α → Except Failure β) : (Except.ok a >>= f) = f a :=
  rfl

/-- `mapM` goes on behind an item on which `f` succeeds. -/
theorem mapM_cons_of_ok {f : α → Except ε β} {a : α} {b : β} (h : f a = .ok b) (l : List α) :
    (a :: l).mapM f = (b :: ·) <$> l.mapM f := by
  rw [List.mapM_cons, h]
  rfl

/-- `mapM` succeeds exactly if `f` does on each item of the list. -/
theorem mapM_eq_ok_iff {f : α → Except ε β} {l : List α} {l' : List β} :
    l.mapM f = .ok l' ↔ List.Forall₂ (fun a b => f a = .ok b) l l' := by
  induction l generalizing l' with
  | nil =>
    rw [List.mapM_nil, pure_eq_ok_iff, List.forall₂_nil_left_iff]
    exact eq_comm
  | cons a l ih =>
    rw [List.mapM_cons, bind_eq_ok_iff, List.forall₂_cons_left_iff]
    constructor
    · rintro ⟨b, hb, h⟩
      obtain ⟨bs, hbs, h⟩ := bind_eq_ok_iff.1 h
      exact ⟨b, bs, hb, ih.1 hbs, (pure_eq_ok_iff.1 h).symm⟩
    · rintro ⟨b, bs, hb, hbs, rfl⟩
      exact ⟨b, hb, bind_eq_ok_iff.2 ⟨bs, ih.2 hbs, rfl⟩⟩

/-- `mapM` gives something exactly if `f` does on each item of the list. -/
theorem exists_mapM_eq_ok_iff {f : α → Except ε β} {l : List α} :
    (∃ l', l.mapM f = .ok l') ↔ ∀ a ∈ l, ∃ b, f a = .ok b := by
  induction l with
  | nil => exact ⟨fun _ a ha => absurd ha List.not_mem_nil, fun _ => ⟨[], rfl⟩⟩
  | cons a l ih =>
    rw [List.forall_mem_cons, ← ih]
    simp only [mapM_eq_ok_iff, List.forall₂_cons_left_iff]
    constructor
    · rintro ⟨_, b, bs, hb, hbs, -⟩
      exact ⟨⟨b, hb⟩, bs, hbs⟩
    · rintro ⟨⟨b, hb⟩, bs, hbs⟩
      exact ⟨b :: bs, b, bs, hb, hbs, rfl⟩

/-- `mapM` with `f` and with `g` is the same on two lists if these are the same for each pair of
items. -/
theorem mapM_congr {γ : Type} {f : α → Except Failure γ} {g : β → Except Failure γ} {l : List α}
    {l' : List β} (h : List.Forall₂ (fun a b => f a = g b) l l') : l.mapM f = l'.mapM g := by
  induction h with
  | nil => rfl
  | cons hab _ ih => rw [List.mapM_cons, List.mapM_cons, hab, ih]

/-- `R` and `S` of lists after each other relate the outer lists by `T`. -/
theorem forall₂_comp {γ : Type} {R : α → β → Prop} {S : β → γ → Prop}
    {T : α → γ → Prop} {l : List α} {l' : List β} {l'' : List γ} (h : List.Forall₂ R l l')
    (h' : List.Forall₂ S l' l'') (hcomp : ∀ a b c, R a b → S b c → T a c) :
    List.Forall₂ T l l'' := by
  induction h generalizing l'' with
  | nil => exact List.forall₂_nil_left_iff.1 h' ▸ .nil
  | cons hab _ ih =>
    obtain ⟨c, rest, hbc, hrest, rfl⟩ := List.forall₂_cons_left_iff.1 h'
    exact .cons (hcomp _ _ _ hab hbc) (ih hrest)

/-- `S` and `T` are the same on lists if they are for each pair of items, where the first list
stands in place of another one by `R`. -/
theorem forall₂_iff_of_forall₂ {α β γ : Type} {R : α → β → Prop} {S : β → γ → Prop}
    {T : α → γ → Prop} {l : List α} {l' : List β} {l'' : List γ} (h : List.Forall₂ R l l')
    (hstep : ∀ a ∈ l, ∀ b c, R a b → (S b c ↔ T a c)) :
    List.Forall₂ S l' l'' ↔ List.Forall₂ T l l'' := by
  induction h generalizing l'' with
  | nil => simp
  | cons hab _ ih =>
    rw [List.forall₂_cons_left_iff, List.forall₂_cons_left_iff]
    simp only [hstep _ List.mem_cons_self _ _ hab,
      ih fun a ha => hstep a (List.mem_cons_of_mem _ ha)]

/-- Two lists that are related to a third one, item by item, are both related to a fourth one by `T`
and `U`, if each two items of theirs are related to a fourth item. -/
theorem exists_forall₂_square {γ δ : Type} {R : α → β → Prop} {S : α → γ → Prop}
    {T : β → δ → Prop} {U : γ → δ → Prop} {l : List α} {l₁ : List β} {l₂ : List γ}
    (h₁ : List.Forall₂ R l l₁) (h₂ : List.Forall₂ S l l₂)
    (hstep : ∀ a b c, R a b → S a c → ∃ d, T b d ∧ U c d) :
    ∃ l₃, List.Forall₂ T l₁ l₃ ∧ List.Forall₂ U l₂ l₃ := by
  induction h₁ generalizing l₂ with
  | nil => exact ⟨[], .nil, List.forall₂_nil_left_iff.1 h₂ ▸ .nil⟩
  | cons hab _ ih =>
    obtain ⟨c, rest, hac, hrest, rfl⟩ := List.forall₂_cons_left_iff.1 h₂
    obtain ⟨d, hbd, hcd⟩ := hstep _ _ _ hab hac
    obtain ⟨l₃, ht, hu⟩ := ih hrest
    exact ⟨d :: l₃, .cons hbd ht, .cons hcd hu⟩

/-- What is on the right of a relation `R` of two lists is related to something on the left. -/
theorem exists_of_forall₂_of_mem {R : α → β → Prop} {l : List α} {l' : List β}
    (h : List.Forall₂ R l l') {b : β} (hb : b ∈ l') : ∃ a ∈ l, R a b := by
  induction h with
  | nil => cases hb
  | cons hab _ ih =>
    rcases List.mem_cons.1 hb with rfl | hb
    · exact ⟨_, List.mem_cons_self, hab⟩
    · obtain ⟨a, ha, hrel⟩ := ih hb
      exact ⟨a, List.mem_cons_of_mem _ ha, hrel⟩

/-- Two lists that `R` relates are related by `S` if this follows for each pair. -/
theorem forall₂_of_mem {R S : α → β → Prop} {l : List α} {l' : List β} (h : List.Forall₂ R l l')
    (hS : ∀ a ∈ l, ∀ b, R a b → S a b) : List.Forall₂ S l l' := by
  induction h with
  | nil => exact .nil
  | cons hab _ ih =>
    exact .cons (hS _ List.mem_cons_self _ hab) (ih fun a ha => hS a (List.mem_cons_of_mem _ ha))

/-- What `P` says at the start of a fold and `f` keeps at each step holds at its end. -/
theorem foldlM_induction {f : σ → α → Except Failure σ} {l : List α} {s s' : σ} (P : σ → Prop)
    (h : l.foldlM f s = .ok s') (hstart : P s)
    (hstep : ∀ a ∈ l, ∀ s s', P s → f s a = .ok s' → P s') : P s' := by
  induction l generalizing s with
  | nil =>
    rw [List.foldlM_nil, pure_eq_ok_iff] at h
    exact h ▸ hstart
  | cons a l ih =>
    rw [List.foldlM_cons] at h
    obtain ⟨s₁, hs₁, h⟩ := bind_eq_ok_iff.1 h
    exact ih h (hstep a List.mem_cons_self s s₁ hstart hs₁) fun b hb =>
      hstep b (List.mem_cons_of_mem a hb)

/-- The `outcome` of a fold with notes is that of the fold of the outcomes. -/
theorem outcome_foldlM {ν : Type} (f : σ → α → Noted ν σ) (l : List α) (s : σ) :
    (l.foldlM f s).outcome = l.foldlM (fun s a => (f s a).outcome) s := by
  induction l generalizing s with
  | nil => rfl
  | cons a l ih =>
    rw [List.foldlM_cons, List.foldlM_cons, Noted.outcome_bind]
    exact congrArg _ (funext ih)

/-! ## Without failures -/

/-- `x` and then `f`, seen without their failures. -/
theorem toOption_bind (x : Except Failure α) (f : α → Except Failure β) :
    (x >>= f).toOption = x.toOption.bind fun a => (f a).toOption := by
  cases x <;> rfl

/-- `within` a `context` only failures are changed. -/
@[simp]
theorem toOption_within (context : Context) (x : Except Failure α) :
    (within context x).toOption = x.toOption := by
  cases x <;> rfl

/-- `within` a `context` no failure becomes a success. -/
@[simp]
theorem isOk_within (context : Context) (x : Except Failure α) :
    (within context x).isOk = x.isOk := by
  cases x <;> rfl

/-- `fail` gives nothing. -/
@[simp]
theorem toOption_fail (cause : Cause) : (fail cause : Except Failure α).toOption = none :=
  rfl

/-- Only a success gives something by `toOption`. -/
theorem toOption_eq_some_iff {x : Except Failure α} {a : α} :
    x.toOption = some a ↔ x = .ok a := by
  cases x with
  | error failure => exact ⟨nofun, nofun⟩
  | ok b => exact ⟨fun h => congrArg _ (Option.some.inj h), fun h => congrArg _ (Except.ok.inj h)⟩

/-- `x` and `y` succeed alike if what either gives has a counterpart by `rel`. -/
theorem rel_toOption {rel : α → β → Prop} {x : Except Failure α} {y : Except Failure β}
    (h : ∀ a, x = .ok a → ∃ b, y = .ok b ∧ rel a b) (h' : ∀ b, y = .ok b → ∃ a, x = .ok a) :
    Option.Rel rel x.toOption y.toOption := by
  cases x with
  | ok a =>
    obtain ⟨b, rfl, hrel⟩ := h a rfl
    exact .some hrel
  | error failure =>
    cases y with
    | ok b =>
      obtain ⟨a, ha⟩ := h' b rfl
      cases ha
    | error failure' => exact .none

/-- `x` and `y` that succeed alike give the same. -/
theorem toOption_congr {x y : Except Failure α} (h : ∀ a, x = .ok a ↔ y = .ok a) :
    x.toOption = y.toOption :=
  Option.ext fun a => by rw [toOption_eq_some_iff, toOption_eq_some_iff, h]

/-- Folds whose steps `f` and `g` agree apart from messages agree apart from messages. -/
theorem toOption_foldlM_congr {f g : σ → α → Except Failure σ} {l : List α}
    (h : ∀ s a, (f s a).toOption = (g s a).toOption) (s : σ) :
    (l.foldlM f s).toOption = (l.foldlM g s).toOption := by
  induction l generalizing s with
  | nil => rfl
  | cons a l ih =>
    rw [List.foldlM_cons, List.foldlM_cons, toOption_bind, toOption_bind, h s a]
    exact congrArg _ (funext ih)

end MappingTables
