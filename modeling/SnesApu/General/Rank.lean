import Mathlib

/-!
# Ranks in a finite linear order

The rank of an element in a finite set counts the members below it, from one.
It is the position of the element in any strictly increasing enumeration of the
set, and it separates the members of the set.
-/

namespace General

variable {α : Type*} [LinearOrder α]

def rank (S : Finset α) (a : α) : ℕ := (S.filter (· < a)).card + 1

theorem one_le_rank (S : Finset α) (a : α) : 1 ≤ rank S a := Nat.le_add_left 1 _

theorem rank_le_card {S : Finset α} {a : α} (ha : a ∈ S) : rank S a ≤ S.card := by
  have hsub : S.filter (· < a) ⊂ S :=
    Finset.filter_ssubset.mpr ⟨a, ha, lt_irrefl a⟩
  exact Finset.card_lt_card hsub

theorem rank_lt_rank {S : Finset α} {a b : α} (ha : a ∈ S) (hab : a < b) :
    rank S a < rank S b := by
  have hsub : S.filter (· < a) ⊂ S.filter (· < b) := by
    refine Finset.ssubset_iff_subset_ne.mpr ⟨?_, ?_⟩
    · intro c hc
      rw [Finset.mem_filter] at hc ⊢
      exact ⟨hc.1, hc.2.trans hab⟩
    · intro he
      have hmem : a ∈ S.filter (· < b) := Finset.mem_filter.mpr ⟨ha, hab⟩
      rw [← he, Finset.mem_filter] at hmem
      exact lt_irrefl a hmem.2
  have hcard := Finset.card_lt_card hsub
  unfold rank
  omega

theorem rank_injOn (S : Finset α) : Set.InjOn (rank S) S := by
  intro a ha b hb hab
  rcases lt_trichotomy a b with h | h | h
  · exact absurd hab (rank_lt_rank ha h).ne
  · exact h
  · exact absurd hab (rank_lt_rank hb h).ne'

theorem idxOf_add_one_eq_rank {l : List α} (hl : l.Pairwise (· < ·)) {a : α} (ha : a ∈ l) :
    l.idxOf a + 1 = rank l.toFinset a := by
  induction l with
  | nil => exact absurd ha List.not_mem_nil
  | cons b l ih =>
    obtain ⟨hb, hl⟩ := List.pairwise_cons.mp hl
    rcases List.mem_cons.mp ha with rfl | ha
    · have hnone : (a :: l).toFinset.filter (· < a) = ∅ := by
        rw [Finset.filter_eq_empty_iff]
        intro c hc
        rcases List.mem_cons.mp (List.mem_toFinset.mp hc) with rfl | hc
        · exact lt_irrefl c
        · exact (hb c hc).not_gt
      rw [rank, hnone, List.idxOf_cons_self, Finset.card_empty]
    · have hba : b < a := hb a ha
      have hnotin : b ∉ l.toFinset.filter (· < a) := by
        intro hmem
        have hbl := List.mem_toFinset.mp (Finset.mem_filter.mp hmem).1
        exact lt_irrefl b (hb b hbl)
      rw [List.idxOf_cons_ne l hba.ne, Nat.succ_eq_add_one, ih hl ha, rank, rank,
        List.toFinset_cons, Finset.filter_insert, if_pos hba, Finset.card_insert_of_notMem hnotin]

end General
