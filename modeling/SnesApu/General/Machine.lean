import Mathlib

/-!
# Deterministic machines with outputs

A machine reads one input at a time, moves to a new state and emits one output.
The rules below lift a fact about one step to every run over admissible inputs:
an invariant, a ledger kept in step with the outputs, and a simulation by a
second machine that emits the same outputs.
-/

namespace General

structure Machine (σ ι ω : Type*) where
  step : σ → ι → σ × ω

namespace Machine

variable {σ τ ι ω : Type*} (M : Machine σ ι ω) (N : Machine τ ι ω)

def run : σ → List ι → σ × List ω
  | s, [] => (s, [])
  | s, i :: is =>
    let next := M.step s i
    let rest := run next.1 is
    (rest.1, next.2 :: rest.2)

def state (s : σ) (is : List ι) : σ := (M.run s is).1

def outputs (s : σ) (is : List ι) : List ω := (M.run s is).2

@[simp] theorem state_nil (s : σ) : M.state s [] = s := rfl

@[simp] theorem outputs_nil (s : σ) : M.outputs s [] = [] := rfl

@[simp] theorem state_cons (s : σ) (i : ι) (is : List ι) :
    M.state s (i :: is) = M.state (M.step s i).1 is := rfl

@[simp] theorem outputs_cons (s : σ) (i : ι) (is : List ι) :
    M.outputs s (i :: is) = (M.step s i).2 :: M.outputs (M.step s i).1 is := rfl

def Preserves (ok : ι → Prop) (I : σ → Prop) : Prop :=
  ∀ s i, I s → ok i → I (M.step s i).1

variable {M N}

theorem Preserves.state {ok : ι → Prop} {I : σ → Prop} (hp : M.Preserves ok I) {s : σ}
    (hs : I s) {is : List ι} (his : ∀ i ∈ is, ok i) : I (M.state s is) := by
  induction is generalizing s with
  | nil => exact hs
  | cons i is ih =>
    have hi : ok i := his i List.mem_cons_self
    exact ih (hp s i hs hi) (fun j hj => his j (List.mem_cons_of_mem i hj))

theorem Preserves.state_ledger {ok : ι → Prop} {I : σ → Prop} (hp : M.Preserves ok I) (f : σ → ℤ)
    (entry : ω → ℤ) (hstep : ∀ s i, I s → ok i → f (M.step s i).1 = f s + entry (M.step s i).2)
    {s : σ} (hs : I s) {is : List ι} (his : ∀ i ∈ is, ok i) :
    f (M.state s is) = f s + ((M.outputs s is).map entry).sum := by
  induction is generalizing s with
  | nil => simp
  | cons i is ih =>
    have hi : ok i := his i List.mem_cons_self
    have hrest := ih (hp s i hs hi) (fun j hj => his j (List.mem_cons_of_mem i hj))
    rw [state_cons, hrest, hstep s i hs hi, outputs_cons, List.map_cons, List.sum_cons, add_assoc]

/-- `R` relates the states of two machines that answer every admissible input
with the same output. -/
def Simulates (M : Machine σ ι ω) (N : Machine τ ι ω) (ok : ι → Prop) (R : σ → τ → Prop) : Prop :=
  ∀ s t i, R s t → ok i → (M.step s i).2 = (N.step t i).2 ∧ R (M.step s i).1 (N.step t i).1

theorem Simulates.run {ok : ι → Prop} {R : σ → τ → Prop} (hR : Simulates M N ok R) {s : σ} {t : τ}
    (hst : R s t) {is : List ι} (his : ∀ i ∈ is, ok i) :
    M.outputs s is = N.outputs t is ∧ R (M.state s is) (N.state t is) := by
  induction is generalizing s t with
  | nil => exact ⟨rfl, hst⟩
  | cons i is ih =>
    obtain ⟨hout, hnext⟩ := hR s t i hst (his i List.mem_cons_self)
    obtain ⟨houts, hfinal⟩ := ih hnext (fun j hj => his j (List.mem_cons_of_mem i hj))
    refine ⟨?_, hfinal⟩
    rw [outputs_cons, outputs_cons, hout, houts]

end Machine

end General
