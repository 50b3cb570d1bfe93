import SnesApu.General.Outcome

/-!
# Programs over the operations of a device

A program is a tree: at each node it asks the device for one operation and goes
on with the answer. `Obeys` is a protocol that the tree follows whatever the
answers are: a ghost state advances with every operation, each operation must be
allowed in it, and the result must fit the last one. A handler whose operations
keep an invariant indexed by the ghost state keeps it over every program that
obeys the protocol, and a relation between two states that one operation keeps
is kept by every program.
-/

namespace General

universe u

inductive Program (Op : Type) (Ans : Op → Type) (α : Type) : Type where
  | ret (a : α)
  | op (o : Op) (k : Ans o → Program Op Ans α)

namespace Program

variable {Op : Type} {Ans : Op → Type} {α β : Type}

def bind : Program Op Ans α → (α → Program Op Ans β) → Program Op Ans β
  | .ret a, f => f a
  | .op o k, f => .op o fun r => (k r).bind f

instance instMonad : Monad (Program Op Ans) where
  pure := .ret
  bind := bind

@[simp] theorem pure_eq (a : α) : (pure a : Program Op Ans α) = .ret a := rfl

@[simp] theorem ret_bind (a : α) (f : α → Program Op Ans β) :
    (.ret a : Program Op Ans α) >>= f = f a := rfl

@[simp] theorem op_bind (o : Op) (k : Ans o → Program Op Ans α) (f : α → Program Op Ans β) :
    (.op o k : Program Op Ans α) >>= f = .op o fun r => k r >>= f := rfl

instance instLawfulMonad : LawfulMonad (Program Op Ans) := by
  refine LawfulMonad.mk' _ (fun p => ?_) (fun a f => rfl) (fun p f g => ?_)
  · induction p with
    | ret a => rfl
    | op o k ih => exact congrArg _ (funext ih)
  · induction p with
    | ret a => rfl
    | op o k ih => exact congrArg _ (funext ih)

def run {σ ε : Type} (handle : σ → (o : Op) → Except ε (σ × Ans o)) :
    σ → Program Op Ans α → Except ε (σ × α)
  | s, .ret a => .ok (s, a)
  | s, .op o k =>
    match handle s o with
    | .ok r => run handle r.1 (k r.2)
    | .error e => .error e

/-- The program follows the protocol from the ghost state `g`. -/
def Obeys {γ : Type} (ok : γ → Op → Prop) (next : γ → Op → γ) (post : γ → α → Prop) :
    γ → Program Op Ans α → Prop
  | g, .ret a => post g a
  | g, .op o k => ok g o ∧ ∀ r, Obeys ok next post (next g o) (k r)

end Program

/-- A handler that keeps an invariant along the protocol keeps it over a program. -/
theorem Program.Obeys.run {Op : Type} {Ans : Op → Type} {α γ σ ε : Type} {allowed : ε → Prop}
    {handle : σ → (o : Op) → Except ε (σ × Ans o)} {ok : γ → Op → Prop} {next : γ → Op → γ}
    {post : γ → α → Prop} (I : γ → σ → Prop)
    (hstep : ∀ g s o, I g s → ok g o → Within allowed (handle s o) fun r => I (next g o) r.1)
    {g : γ} {s : σ} {p : Program Op Ans α} (h : Obeys ok next post g p) (hI : I g s) :
    Within allowed (p.run handle s) fun r => ∃ g', I g' r.1 ∧ post g' r.2 := by
  induction p generalizing g s with
  | ret a => exact ⟨g, hI, h⟩
  | op o k ih =>
    have hone := hstep g s o hI h.1
    unfold Program.run
    cases hhandle : handle s o with
    | ok r =>
      rw [hhandle] at hone
      exact ih r.2 (h.2 r.2) hone
    | error e =>
      rw [hhandle] at hone
      exact hone

/-- Whatever the handler does, a result fits the protocol. -/
theorem Program.Obeys.post_of_run {Op : Type} {Ans : Op → Type} {α γ σ ε : Type}
    {handle : σ → (o : Op) → Except ε (σ × Ans o)} {ok : γ → Op → Prop} {next : γ → Op → γ}
    {post : γ → α → Prop} {g : γ} {s : σ} {p : Program Op Ans α} (h : Obeys ok next post g p)
    {result : σ × α} (hrun : p.run handle s = .ok result) : ∃ g', post g' result.2 := by
  induction p generalizing g s with
  | ret a =>
    obtain rfl := Except.ok.inj hrun
    exact ⟨g, h⟩
  | op o k ih =>
    unfold Program.run at hrun
    cases hs : handle s o with
    | error e =>
      rw [hs] at hrun
      exact absurd hrun (by simp)
    | ok r =>
      rw [hs] at hrun
      exact ih r.2 (h.2 r.2) hrun

/-- Handlers that are equal on the operations of the protocol run its programs alike. -/
theorem Program.Obeys.run_eq {Op : Type} {Ans : Op → Type} {α γ σ ε : Type}
    {handle handle' : σ → (o : Op) → Except ε (σ × Ans o)} {ok : γ → Op → Prop}
    {next : γ → Op → γ} {post : γ → α → Prop} {g : γ} {p : Program Op Ans α}
    (h : Obeys ok next post g p) (hhandle : ∀ g s o, ok g o → handle s o = handle' s o) (s : σ) :
    p.run handle s = p.run handle' s := by
  induction p generalizing g s with
  | ret a => rfl
  | op o k ih =>
    unfold Program.run
    rw [← hhandle g s o h.1]
    cases handle s o with
    | error e => rfl
    | ok r => exact ih r.2 (h.2 r.2) r.1

/-- Two handlers that agree on every operation agree on every program. -/
theorem Agree.program {Op : Type} {Ans : Op → Type} {α σ τ ε : Type}
    {handle : σ → (o : Op) → Except ε (σ × Ans o)} {handle' : τ → (o : Op) → Except ε (τ × Ans o)}
    (R : σ → τ → Prop) (hstep : ∀ s t o, R s t →
      Agree (fun x y => R x.1 y.1 ∧ x.2 = y.2) (handle s o) (handle' t o))
    {s : σ} {t : τ} (hR : R s t) (p : Program Op Ans α) :
    Agree (fun x y => R x.1 y.1 ∧ x.2 = y.2) (p.run handle s) (p.run handle' t) := by
  induction p generalizing s t with
  | ret a => exact ⟨hR, rfl⟩
  | op o k ih =>
    have hone := hstep s t o hR
    unfold Program.run
    cases hs : handle s o with
    | error e =>
      cases ht : handle' t o with
      | error e' =>
        rw [hs, ht] at hone
        exact hone
      | ok y =>
        rw [hs, ht] at hone
        exact hone.elim
    | ok x =>
      cases ht : handle' t o with
      | error e' =>
        rw [hs, ht] at hone
        exact hone.elim
      | ok y =>
        rw [hs, ht] at hone
        dsimp only
        rw [← hone.2]
        exact ih x.2 hone.1

/-- A change of the state that every operation commutes with. -/
theorem Program.run_map {Op : Type} {Ans : Op → Type} {α σ τ ε : Type}
    {handle : σ → (o : Op) → Except ε (σ × Ans o)} {handle' : τ → (o : Op) → Except ε (τ × Ans o)}
    (f : σ → τ) (hstep : ∀ s o, handle' (f s) o = (handle s o).map fun r => (f r.1, r.2)) (s : σ)
    (p : Program Op Ans α) :
    p.run handle' (f s) = (p.run handle s).map fun r => (f r.1, r.2) := by
  induction p generalizing s with
  | ret a => rfl
  | op o k ih =>
    unfold Program.run
    rw [hstep]
    cases handle s o with
    | error e => rfl
    | ok r => exact ih r.2 r.1

/-- The two programs ask for the same operations and end in related results. -/
inductive Program.Match {Op : Type} {Ans : Op → Type} {α β : Type} (S : α → β → Prop) :
    Program Op Ans α → Program Op Ans β → Prop
  | ret {a : α} {b : β} (h : S a b) : Match S (.ret a) (.ret b)
  | op {o : Op} {k : Ans o → Program Op Ans α} {k' : Ans o → Program Op Ans β}
      (h : ∀ r, Match S (k r) (k' r)) : Match S (.op o k) (.op o k')

section Match

variable {Op : Type} {Ans : Op → Type} {α β δ η : Type}

theorem Program.Match.bind {S : α → β → Prop} {T : δ → η → Prop} {p : Program Op Ans α}
    {q : Program Op Ans β} {f : α → Program Op Ans δ} {g : β → Program Op Ans η} (h : Match S p q)
    (hfg : ∀ a b, S a b → Match T (f a) (g b)) : Match T (p >>= f) (q >>= g) := by
  induction h with
  | ret hab => exact hfg _ _ hab
  | op _ ih => exact .op ih

/-- One program before two related continuations. -/
theorem Program.Match.bind_left {T : δ → η → Prop} (p : Program Op Ans α)
    {f : α → Program Op Ans δ} {g : α → Program Op Ans η} (hfg : ∀ a, Match T (f a) (g a)) :
    Match T (p >>= f) (p >>= g) := by
  induction p with
  | ret a => exact hfg a
  | op o k ih => exact .op ih

theorem Program.Match.run {σ ε : Type} {S : α → β → Prop} {p : Program Op Ans α}
    {q : Program Op Ans β} (h : Match S p q) (handle : σ → (o : Op) → Except ε (σ × Ans o)) (s : σ) :
    Agree (fun x y => x.1 = y.1 ∧ S x.2 y.2) (p.run handle s) (q.run handle s) := by
  induction h generalizing s with
  | ret hab => exact ⟨rfl, hab⟩
  | @op o k k' _ ih =>
    unfold Program.run
    cases handle s o with
    | error e => rfl
    | ok r => exact ih r.2 r.1

end Match

end General
