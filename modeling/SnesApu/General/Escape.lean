import Mathlib

/-!
# Escape codes

Letters that have to be told apart from a mark are written as the mark followed
by two digits; all others stand for themselves. A reader does not know which
letters a writer escapes: it takes every mark with two digits after it as one
letter, and may give the letters that stand alone a meaning of its own.
-/

namespace General.Escape

variable {α : Type*}

structure Reader (α : Type*) where
  mark : α
  isDigit : α → Bool
  value : α → α → α
  plain : α → α
  isDigit_mark : isDigit mark = false

/-- A writer that the reader understands. -/
structure Writer (R : Reader α) where
  keep : α → Bool
  high : α → α
  low : α → α
  keep_mark : keep R.mark = false
  plain_of_keep : ∀ c, keep c → R.plain c = c
  isDigit_high : ∀ c, R.isDigit (high c)
  isDigit_low : ∀ c, R.isDigit (low c)
  value_digits : ∀ c, R.value (high c) (low c) = c

def Reader.unescape [DecidableEq α] (R : Reader α) : List α → List α
  | c :: a :: b :: s =>
    if c = R.mark ∧ R.isDigit a ∧ R.isDigit b then R.value a b :: R.unescape s
    else R.plain c :: R.unescape (a :: b :: s)
  | [c, a] => [R.plain c, R.plain a]
  | [c] => [R.plain c]
  | [] => []

/-- Every mark has two digits after it. -/
def Reader.MarksComplete (R : Reader α) (w : List α) : Prop :=
  ∀ post, R.mark :: post <:+ w → ∃ a b rest, post = a :: b :: rest ∧ R.isDigit a ∧ R.isDigit b

namespace Reader

variable [DecidableEq α] (R : Reader α)

theorem unescape_cons_of_ne {c : α} (h : c ≠ R.mark) (s : List α) :
    R.unescape (c :: s) = R.plain c :: R.unescape s := by
  match s with
  | [] => simp [unescape]
  | [a] => simp [unescape]
  | a :: b :: s =>
    rw [unescape, if_neg]
    exact fun hc => h hc.1

theorem unescape_triple {a b : α} (ha : R.isDigit a) (hb : R.isDigit b) (s : List α) :
    R.unescape (R.mark :: a :: b :: s) = R.value a b :: R.unescape s := by
  rw [unescape, if_pos ⟨rfl, ha, hb⟩]

end Reader

namespace Writer

variable {R : Reader α} (W : Writer R)

def letter (c : α) : List α := if W.keep c then [c] else [R.mark, W.high c, W.low c]

def escape (s : List α) : List α := s.flatMap W.letter

theorem escape_cons (c : α) (s : List α) : W.escape (c :: s) = W.letter c ++ W.escape s :=
  List.flatMap_cons

theorem ne_mark_of_keep {c : α} (h : W.keep c) : c ≠ R.mark := by
  intro hc
  rw [hc, W.keep_mark] at h
  exact Bool.noConfusion h

theorem unescape_letter [DecidableEq α] (c : α) (w : List α) :
    R.unescape (W.letter c ++ w) = c :: R.unescape w := by
  unfold letter
  split_ifs with h
  · rw [List.singleton_append, R.unescape_cons_of_ne (W.ne_mark_of_keep h), W.plain_of_keep c h]
  · change R.unescape (R.mark :: W.high c :: W.low c :: w) = _
    rw [R.unescape_triple (W.isDigit_high c) (W.isDigit_low c), W.value_digits]

theorem unescape_escape [DecidableEq α] (s : List α) : R.unescape (W.escape s) = s := by
  induction s with
  | nil => rfl
  | cons c s ih => rw [escape_cons, unescape_letter, ih]

theorem marksComplete_letter {c : α} {w : List α} (h : R.MarksComplete w) :
    R.MarksComplete (W.letter c ++ w) := by
  have hdigit : ∀ a, R.isDigit a → R.mark ≠ a := by
    intro a ha hmark
    rw [← hmark, R.isDigit_mark] at ha
    exact Bool.noConfusion ha
  intro post hpost
  unfold letter at hpost
  split_ifs at hpost with hc
  · rcases List.suffix_cons_iff.mp hpost with heq | hpost
    · exact absurd (List.cons.inj heq).1.symm (W.ne_mark_of_keep hc)
    · exact h post hpost
  · -- a suffix of the triple starts with its mark, with a digit, or in what follows
    rcases List.suffix_cons_iff.mp hpost with heq | hpost
    · exact ⟨W.high c, W.low c, w, (List.cons.inj heq).2, W.isDigit_high c, W.isDigit_low c⟩
    · rcases List.suffix_cons_iff.mp hpost with heq | hpost
      · exact absurd (List.cons.inj heq).1 (hdigit _ (W.isDigit_high c))
      · rcases List.suffix_cons_iff.mp hpost with heq | hpost
        · exact absurd (List.cons.inj heq).1 (hdigit _ (W.isDigit_low c))
        · exact h post hpost

theorem marksComplete_escape (s : List α) : R.MarksComplete (W.escape s) := by
  induction s with
  | nil =>
    intro post hpost
    exact absurd (List.suffix_nil.mp hpost) (List.cons_ne_nil _ _)
  | cons c s ih =>
    rw [escape_cons]
    exact W.marksComplete_letter ih

theorem mem_letter {c d : α} (h : c ∈ W.letter d) :
    W.keep c ∨ c = R.mark ∨ R.isDigit c := by
  unfold letter at h
  split_ifs at h with hkeep
  · rw [List.mem_singleton.mp h]
    exact .inl hkeep
  · rcases List.mem_cons.mp h with hmark | h
    · exact .inr (.inl hmark)
    · rcases List.mem_cons.mp h with hhigh | hlow
      · rw [hhigh]
        exact .inr (.inr (W.isDigit_high d))
      · rw [List.mem_singleton.mp hlow]
        exact .inr (.inr (W.isDigit_low d))

/-- The letters that no escaped text contains. -/
def Excludes (c : α) : Prop := W.keep c = false ∧ c ≠ R.mark ∧ R.isDigit c = false

variable {W}

theorem Excludes.notMem_escape {c : α} (h : W.Excludes c) (s : List α) : c ∉ W.escape s := by
  intro hc
  obtain ⟨hkeep, hmark, hdigit⟩ := h
  obtain ⟨d, -, hd⟩ := List.mem_flatMap.mp hc
  rcases W.mem_letter hd with h | h | h
  · rw [hkeep] at h
    exact Bool.noConfusion h
  · exact hmark h
  · rw [hdigit] at h
    exact Bool.noConfusion h

theorem Excludes.takeWhile_escape [DecidableEq α] {sep : α} (h : W.Excludes sep) (s rest : List α) :
    (W.escape s ++ sep :: rest).takeWhile (· ≠ sep) = W.escape s := by
  have hne : ∀ c ∈ W.escape s, decide (c ≠ sep) = true := by
    intro c hc
    refine decide_eq_true fun heq => ?_
    rw [heq] at hc
    exact h.notMem_escape s hc
  rw [List.takeWhile_append_of_pos hne, List.takeWhile_cons_of_neg (by simp), List.append_nil]

end Writer

end General.Escape
