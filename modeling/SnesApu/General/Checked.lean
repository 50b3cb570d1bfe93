import Mathlib

/-!
# Arrays whose accesses are checked

A computation that may step outside an array or fail an assertion says which of
the two happened. `Meets` is its total-correctness judgement: the computation
finishes and its result has the property. A ring of `n` slots may be kept twice
in a row, so that a window that starts in the first copy never has to wrap around.
-/

namespace General

universe u

inductive Failure where
  | outside
  | assertion
  deriving DecidableEq

abbrev Checked (α : Type u) := Except Failure α

variable {α β : Type u}

section

variable {ε : Type*}

@[simp] theorem ok_bind {a : α} {f : α → Except ε β} : (.ok a : Except ε α) >>= f = f a := rfl

@[simp] theorem error_bind {e : ε} {f : α → Except ε β} :
    (.error e : Except ε α) >>= f = .error e := rfl

theorem bind_eq_ok {x : Except ε α} {f : α → Except ε β} {b : β} :
    x >>= f = .ok b ↔ ∃ a, x = .ok a ∧ f a = .ok b := by
  cases x with
  | ok a => simp [bind, Except.bind]
  | error e => simp [bind, Except.bind]

theorem pure_eq_ok {a b : α} : (pure a : Except ε α) = .ok b ↔ a = b := by
  simp [pure, Except.pure]

end

/-- The computation finishes with a result that satisfies `P`. -/
def Meets (x : Checked α) (P : α → Prop) : Prop := ∃ a, x = .ok a ∧ P a

@[simp] theorem meets_ok {a : α} {P : α → Prop} : Meets (.ok a) P ↔ P a := by
  simp [Meets]

@[simp] theorem meets_error {e : Failure} {P : α → Prop} : ¬ Meets (.error e : Checked α) P := by
  simp [Meets]

theorem Meets.pure {a : α} {P : α → Prop} (h : P a) : Meets (pure a) P := ⟨a, rfl, h⟩

theorem Meets.mono {x : Checked α} {P Q : α → Prop} (h : Meets x P) (hPQ : ∀ a, P a → Q a) :
    Meets x Q := by
  obtain ⟨a, ha, hP⟩ := h
  exact ⟨a, ha, hPQ a hP⟩

theorem Meets.bind {x : Checked α} {f : α → Checked β} {P : α → Prop} {Q : β → Prop}
    (h : Meets x P) (hf : ∀ a, P a → Meets (f a) Q) : Meets (x >>= f) Q := by
  obtain ⟨a, rfl, hP⟩ := h
  exact hf a hP

def load (size : ℕ) (a : ℕ → α) (i : ℤ) : Checked α :=
  if 0 ≤ i ∧ i < size then .ok (a i.toNat) else .error .outside

def store (size : ℕ) (a : ℕ → α) (i : ℤ) (v : α) : Checked (ℕ → α) :=
  if 0 ≤ i ∧ i < size then .ok (Function.update a i.toNat v) else .error .outside

theorem load_of_mem {size : ℕ} {a : ℕ → α} {i : ℤ} (h : 0 ≤ i ∧ i < size) :
    load size a i = .ok (a i.toNat) := if_pos h

theorem load_of_not_mem {size : ℕ} {a : ℕ → α} {i : ℤ} (h : ¬ (0 ≤ i ∧ i < size)) :
    load size a i = .error .outside := if_neg h

theorem store_of_mem {size : ℕ} {a : ℕ → α} {i : ℤ} {v : α} (h : 0 ≤ i ∧ i < size) :
    store size a i v = .ok (Function.update a i.toNat v) := if_pos h

theorem Meets.load_bind {size : ℕ} {a : ℕ → α} {i : ℤ} {f : α → Checked β} {Q : β → Prop}
    (h : 0 ≤ i ∧ i < size) (hf : Meets (f (a i.toNat)) Q) : Meets (load size a i >>= f) Q := by
  rw [load_of_mem h]
  exact hf

theorem Meets.store_bind {size : ℕ} {a : ℕ → α} {i : ℤ} {v : α} {f : (ℕ → α) → Checked β}
    {Q : β → Prop} (h : 0 ≤ i ∧ i < size) (hf : Meets (f (Function.update a i.toNat v)) Q) :
    Meets (store size a i v >>= f) Q := by
  rw [store_of_mem h]
  exact hf

/-- The second half of the array repeats the first. -/
def Mirrored (n : ℕ) (a : ℕ → α) : Prop := ∀ i < n, a (i + n) = a i

theorem Mirrored.update {n : ℕ} {a : ℕ → α} (h : Mirrored n a) {i : ℕ} (hi : i < n) (v : α) :
    Mirrored n (Function.update (Function.update a i v) (i + n) v) := by
  intro j hj
  by_cases hij : j = i
  · subst hij
    have hne : j ≠ j + n := by omega
    rw [Function.update_self, Function.update_of_ne hne, Function.update_self]
  · have h₁ : j + n ≠ i + n := by omega
    have h₂ : j + n ≠ i := by omega
    have h₃ : j ≠ i + n := by omega
    rw [Function.update_of_ne h₁, Function.update_of_ne h₂, Function.update_of_ne h₃,
      Function.update_of_ne hij, h j hj]

end General
