import Mathlib

/-!
# Computations that may fail

`Within` bounds how a computation may fail and what it may return. `Agree`
compares two computations: they fail alike, or both return and the results are
related. Both pass through sequencing and through loops.
-/

namespace General

universe u

/-- The computation fails only in an allowed way, and its result satisfies `P`. -/
def Within {ε α : Type u} (allowed : ε → Prop) (x : Except ε α) (P : α → Prop) : Prop :=
  match x with
  | .ok a => P a
  | .error e => allowed e

section Within

variable {ε α β : Type u} {allowed : ε → Prop}

@[simp] theorem within_ok {a : α} {P : α → Prop} :
    Within allowed (.ok a : Except ε α) P ↔ P a := Iff.rfl

@[simp] theorem within_error {e : ε} {P : α → Prop} :
    Within allowed (.error e : Except ε α) P ↔ allowed e := Iff.rfl

theorem Within.mono {x : Except ε α} {P Q : α → Prop} (h : Within allowed x P)
    (hPQ : ∀ a, P a → Q a) : Within allowed x Q := by
  cases x with
  | ok a => exact hPQ a h
  | error e => exact h

theorem Within.bind {x : Except ε α} {f : α → Except ε β} {P : α → Prop} {Q : β → Prop}
    (h : Within allowed x P) (hf : ∀ a, P a → Within allowed (f a) Q) :
    Within allowed (x >>= f) Q := by
  cases x with
  | ok a => exact hf a h
  | error e => exact h

theorem within_map {x : Except ε α} {f : α → β} {Q : β → Prop} :
    Within allowed (x.map f) Q ↔ Within allowed x fun a => Q (f a) := by
  cases x with
  | ok a => exact Iff.rfl
  | error e => exact Iff.rfl

end Within

/-- The computations fail in the same way or return related results. -/
def Agree {ε α β : Type u} (R : α → β → Prop) (x : Except ε α) (y : Except ε β) : Prop :=
  match x, y with
  | .ok a, .ok b => R a b
  | .error e, .error e' => e = e'
  | _, _ => False

section Agree

variable {ε α β γ δ : Type u}

@[simp] theorem agree_ok {R : α → β → Prop} {a : α} {b : β} :
    Agree R (.ok a : Except ε α) (.ok b) ↔ R a b := Iff.rfl

@[simp] theorem agree_error {R : α → β → Prop} {e e' : ε} :
    Agree R (.error e : Except ε α) (.error e' : Except ε β) ↔ e = e' := Iff.rfl

theorem Agree.mono {R S : α → β → Prop} {x : Except ε α} {y : Except ε β} (h : Agree R x y)
    (hRS : ∀ a b, R a b → S a b) : Agree S x y := by
  cases x with
  | ok a =>
    cases y with
    | ok b => exact hRS a b h
    | error e' => exact h
  | error e =>
    cases y with
    | ok b => exact h
    | error e' => exact h

theorem Agree.bind {R : α → β → Prop} {S : γ → δ → Prop} {x : Except ε α} {y : Except ε β}
    {f : α → Except ε γ} {g : β → Except ε δ} (h : Agree R x y)
    (hfg : ∀ a b, R a b → Agree S (f a) (g b)) : Agree S (x >>= f) (y >>= g) := by
  cases x with
  | ok a =>
    cases y with
    | ok b => exact hfg a b h
    | error e' => exact h.elim
  | error e =>
    cases y with
    | ok b => exact h.elim
    | error e' => exact h

theorem agree_map {R : γ → δ → Prop} {x : Except ε α} {y : Except ε β} {f : α → γ} {g : β → δ} :
    Agree R (x.map f) (y.map g) ↔ Agree (fun a b => R (f a) (g b)) x y := by
  cases x with
  | ok a =>
    cases y with
    | ok b => exact Iff.rfl
    | error e' => exact Iff.rfl
  | error e =>
    cases y with
    | ok b => exact Iff.rfl
    | error e' => exact Iff.rfl

theorem map_eq_ok {x : Except ε α} {f : α → β} {b : β} :
    x.map f = .ok b ↔ ∃ a, x = .ok a ∧ f a = b := by
  cases x with
  | ok a => simp [Except.map]
  | error e => simp [Except.map]

/-- Continuations that are equal on related results. -/
theorem Agree.bind_eq {R : α → β → Prop} {x : Except ε α} {y : Except ε β} {f : α → Except ε γ}
    {g : β → Except ε γ} (h : Agree R x y) (hfg : ∀ a b, R a b → f a = g b) :
    x >>= f = y >>= g := by
  cases x with
  | ok a =>
    cases y with
    | ok b => exact hfg a b h
    | error e' => exact h.elim
  | error e =>
    cases y with
    | ok b => exact h.elim
    | error e' => exact congrArg Except.error h

theorem Agree.and_within {R : α → β → Prop} {x : Except ε α} {y : Except ε β}
    {allowed : ε → Prop} {P : α → Prop} {Q : β → Prop} (h : Agree R x y) (hx : Within allowed x P)
    (hy : Within allowed y Q) : Agree (fun a b => R a b ∧ P a ∧ Q b) x y := by
  cases x with
  | ok a =>
    cases y with
    | ok b => exact ⟨h, hx, hy⟩
    | error e' => exact h
  | error e =>
    cases y with
    | ok b => exact h
    | error e' => exact h

end Agree

/-! ### Loops -/

/-- A loop whose body goes on with a state or leaves with a result. -/
def iterate {σ ρ ε : Type} (body : σ → Except ε (σ ⊕ ρ)) (exhausted : ε) : ℕ → σ → Except ε ρ
  | 0, _ => .error exhausted
  | n + 1, s =>
    match body s with
    | .ok (.inl next) => iterate body exhausted n next
    | .ok (.inr r) => .ok r
    | .error e => .error e

/-- The loop rule: an invariant, and a measure that every turn makes smaller. -/
theorem Within.iterate {σ ρ ε : Type} {allowed : ε → Prop} {body : σ → Except ε (σ ⊕ ρ)}
    {exhausted : ε} (I : σ → Prop) (measure : σ → ℕ) {post : ρ → Prop}
    (hbody : ∀ s, I s → Within allowed (body s)
      (Sum.elim (fun next => I next ∧ measure next < measure s) post))
    {n : ℕ} {s : σ} (hI : I s) (hn : measure s < n) :
    Within allowed (General.iterate body exhausted n s) post := by
  induction n generalizing s with
  | zero => exact absurd hn (Nat.not_lt_zero _)
  | succ n ih =>
    have hone := hbody s hI
    unfold General.iterate
    cases hs : body s with
    | error e =>
      rw [hs] at hone
      exact hone
    | ok r =>
      rw [hs] at hone
      cases r with
      | inl next => exact ih hone.1 (by have := hone.2; omega)
      | inr r => exact hone

/-- Bodies that are equal in every state the loop can be in give equal loops. -/
theorem iterate_congr {σ ρ ε : Type} {body body' : σ → Except ε (σ ⊕ ρ)} {exhausted : ε}
    (I : σ → Prop) (hbody : ∀ s, I s → body s = body' s)
    (hkeep : ∀ s next, I s → body s = .ok (.inl next) → I next) (n : ℕ) {s : σ} (hI : I s) :
    General.iterate body exhausted n s = General.iterate body' exhausted n s := by
  induction n generalizing s with
  | zero => rfl
  | succ n ih =>
    unfold General.iterate
    rw [← hbody s hI]
    cases hs : body s with
    | error e => rfl
    | ok r =>
      cases r with
      | inl next => exact ih (hkeep s next hI hs)
      | inr r => rfl

theorem Agree.iterate {σ τ ρ π ε : Type} {body : σ → Except ε (σ ⊕ ρ)}
    {body' : τ → Except ε (τ ⊕ π)} {exhausted : ε} {R : σ → τ → Prop} {S : ρ → π → Prop}
    (hbody : ∀ s t, R s t → Agree (Sum.LiftRel R S) (body s) (body' t)) (n : ℕ) {s : σ} {t : τ}
    (hR : R s t) :
    Agree S (General.iterate body exhausted n s) (General.iterate body' exhausted n t) := by
  induction n generalizing s t with
  | zero => rfl
  | succ n ih =>
    have hone := hbody s t hR
    unfold General.iterate
    cases hs : body s with
    | error e =>
      cases ht : body' t with
      | error e' =>
        rw [hs, ht] at hone
        exact hone
      | ok y =>
        rw [hs, ht] at hone
        exact hone.elim
    | ok x =>
      cases ht : body' t with
      | error e' =>
        rw [hs, ht] at hone
        exact hone.elim
      | ok y =>
        rw [hs, ht] at hone
        cases hone with
        | inl hnext => exact ih hnext
        | inr hdone => exact hdone

section Measure

variable {σ τ ρ π γ ε : Type} {body : σ → Except ε (σ ⊕ ρ)} {body' : τ → Except ε (τ ⊕ π)}
  {exhausted : ε} {I : σ → Prop}

/-- With a measure that every turn lowers, any two numbers of turns above it do the same. -/
theorem iterate_enough (measure : σ → ℕ) (hbody : ∀ s next, I s → body s = .ok (.inl next) →
      I next ∧ measure next < measure s) {m n : ℕ} {s : σ} (hI : I s) (hm : measure s < m)
    (hn : measure s < n) :
    General.iterate body exhausted m s = General.iterate body exhausted n s := by
  induction m generalizing n s with
  | zero => exact absurd hm (Nat.not_lt_zero _)
  | succ m ih =>
    obtain ⟨n, rfl⟩ := Nat.exists_eq_succ_of_ne_zero (Nat.ne_zero_of_lt hn)
    unfold General.iterate
    cases hs : body s with
    | error e => rfl
    | ok r =>
      cases r with
      | inl next =>
        obtain ⟨hnext, hless⟩ := hbody s next hI hs
        exact ih hnext (by omega) (by omega)
      | inr r => rfl

/-- A loop that follows another turn by turn as long as that one goes on: what is
done after the first one leaves is the rest of the second. -/
theorem iterate_bind_eq (measure : σ → ℕ) (measure' : τ → ℕ) (R : σ → τ → Prop)
    {finish : ρ → Except ε γ} {close : π → Except ε γ}
    (hnext : ∀ s t next, R s t → body s = .ok (.inl next) →
      measure next < measure s ∧ ∃ next', body' t = .ok (.inl next') ∧ R next next' ∧
        measure' next' < measure' t)
    (herror : ∀ s t e, R s t → body s = .error e → body' t = .error e)
    (hleave : ∀ s t r, R s t → body s = .ok (.inr r) → ∀ n, measure' t < n →
      finish r = General.iterate body' exhausted n t >>= close)
    {m n : ℕ} {s : σ} {t : τ} (hR : R s t) (hm : measure s < m) (hn : measure' t < n) :
    General.iterate body exhausted m s >>= finish =
      General.iterate body' exhausted n t >>= close := by
  induction m generalizing n s t with
  | zero => exact absurd hm (Nat.not_lt_zero _)
  | succ m ih =>
    rw [General.iterate]
    cases hs : body s with
    | error e =>
      obtain ⟨n, rfl⟩ := Nat.exists_eq_succ_of_ne_zero (Nat.ne_zero_of_lt hn)
      rw [General.iterate, herror s t e hR hs]
      rfl
    | ok r =>
      cases r with
      | inl next =>
        obtain ⟨hless, next', hs', hR', hless'⟩ := hnext s t next hR hs
        obtain ⟨n, rfl⟩ := Nat.exists_eq_succ_of_ne_zero (Nat.ne_zero_of_lt hn)
        rw [General.iterate, hs']
        exact ih hR' (by omega) (by omega)
      | inr r => exact hleave s t r hR hs n hn

end Measure

end General
