import SnesApu.General.Machine

/-!
# Components that are brought up to date only when they are used

An eager component moves at every clock. A lazy one stores a state that may be
many clocks old and a function `catchUp t` that brings it up to clock `t`. An
access at clock `t` may act before the component moves at `t` or after it. When
each access of the lazy component means what the eager one does at that clock,
the two answer every sequence of accesses alike.
-/

namespace General

variable {σ ι ω : Type*}

/-- The states of a component over the clocks `a + 1, …, a + n`. -/
def clocks (tick : ℤ → σ → σ) : ℤ → ℕ → σ → σ
  | _, 0, s => s
  | a, n + 1, s => clocks tick (a + 1) n (tick (a + 1) s)

structure CatchUp (tick catchUp : ℤ → σ → σ) (I : σ → Prop) : Prop where
  keeps : ∀ t s, I s → I (catchUp t s)
  idem : ∀ t s, I s → catchUp t (catchUp t s) = catchUp t s
  step : ∀ t s, I s → catchUp (t + 1) s = tick (t + 1) (catchUp t s)

/-- What an access does before and after the component moves at its clock. -/
structure Port (σ ι ω : Type*) where
  before : ι → σ → σ
  after : ι → σ → σ × ω

namespace CatchUp

variable {tick catchUp : ℤ → σ → σ} {I : σ → Prop} (h : CatchUp tick catchUp I)

include h

theorem clocks_eq {a : ℤ} (n : ℕ) {s : σ} (hs : I s) :
    clocks tick a n (catchUp a s) = catchUp (a + n) s := by
  induction n generalizing a with
  | zero => rw [clocks, Nat.cast_zero, add_zero]
  | succ n ih =>
    have hstep := ih (a := a + 1)
    rw [clocks, ← h.step a s hs, hstep]
    congr 1
    push_cast
    ring

end CatchUp

section Accesses

variable (tick catchUp : ℤ → σ → σ) (port : Port σ ι ω) (act : ℤ → ι → σ → σ × ω)

/-- An access comes `gap` whole clocks after the clock of the one before. -/
def eagerMachine : Machine (ℤ × σ) (ℕ × ι) ω where
  step s i :=
    let now := s.1 + i.1 + 1
    let result := port.after i.2 (tick now (port.before i.2 (clocks tick s.1 i.1 s.2)))
    ((now, result.1), result.2)

def lazyMachine : Machine (ℤ × σ) (ℕ × ι) ω where
  step s i :=
    let now := s.1 + i.1 + 1
    let result := act now i.2 s.2
    ((now, result.1), result.2)

/-- Each lazy access answers as the eager component at its clock, and leaves a
state that catches up to the eager one. -/
structure Serves (I : σ → Prop) : Prop where
  keeps : ∀ t i s, I s → I (act t i s).1
  answer : ∀ t i s, I s →
    (act t i s).2 = (port.after i (tick t (port.before i (catchUp (t - 1) s)))).2
  leaves : ∀ t i s, I s →
    catchUp t (act t i s).1 = (port.after i (tick t (port.before i (catchUp (t - 1) s)))).1

variable {tick catchUp port act}

theorem Serves.simulates {I : σ → Prop} (hc : CatchUp tick catchUp I)
    (hs : Serves tick catchUp port act I) :
    Machine.Simulates (lazyMachine act) (eagerMachine tick port) (fun _ => True)
      (fun l e => l.1 = e.1 ∧ I l.2 ∧ catchUp l.1 l.2 = e.2) := by
  rintro ⟨now, l⟩ ⟨_, e⟩ ⟨gap, i⟩ ⟨rfl, hl, he⟩ -
  change catchUp now l = e at he
  subst he
  have hclocks : clocks tick now gap (catchUp now l) = catchUp (now + gap + 1 - 1) l := by
    rw [hc.clocks_eq gap hl, add_sub_cancel_right]
  refine ⟨?_, rfl, hs.keeps _ i l hl, ?_⟩
  · simp only [lazyMachine, eagerMachine, hclocks]
    exact hs.answer _ i l hl
  · simp only [lazyMachine, eagerMachine, hclocks]
    exact hs.leaves _ i l hl

theorem Serves.outputs_eq {I : σ → Prop} (hc : CatchUp tick catchUp I)
    (hs : Serves tick catchUp port act I) (now : ℤ) {l : σ} (hl : I l) (is : List (ℕ × ι)) :
    (lazyMachine act).outputs (now, l) is =
      (eagerMachine tick port).outputs (now, catchUp now l) is :=
  ((hs.simulates hc).run (s := (now, l)) (t := (now, catchUp now l)) ⟨rfl, hl, rfl⟩
    fun _ _ => trivial).1

end Accesses

end General
