import Mathlib

/-!
# Signed machine words

`Fits w x` says that the integer `x` is representable in a signed word of `w`
bits. Fixed-width arithmetic reduces its exact result to the balanced residue
modulo `2 ^ w`, so it is exact precisely on the results that fit.
-/

namespace General.Width

def Fits (w : ℕ) (x : ℤ) : Prop := -2 ^ (w - 1) ≤ x ∧ x < 2 ^ (w - 1)

instance (w : ℕ) (x : ℤ) : Decidable (Fits w x) := inferInstanceAs (Decidable (_ ∧ _))

theorem fits_32 {x : ℤ} : Fits 32 x ↔ -2147483648 ≤ x ∧ x < 2147483648 := by
  norm_num [Fits]

theorem fits_64 {x : ℤ} :
    Fits 64 x ↔ -9223372036854775808 ≤ x ∧ x < 9223372036854775808 := by
  norm_num [Fits]

theorem fits_toInt32 (a : Int32) : Fits 32 a.toInt := ⟨a.le_toInt, a.toInt_lt⟩

theorem fits_toInt64 (a : Int64) : Fits 64 a.toInt := ⟨a.le_toInt, a.toInt_lt⟩

theorem bmod_eq_self_iff {w : ℕ} (hw : 0 < w) {x : ℤ} : x.bmod (2 ^ w) = x ↔ Fits w x := by
  obtain ⟨v, rfl⟩ : ∃ v, w = v + 1 := ⟨w - 1, by omega⟩
  have hp : (0 : ℤ) < 2 ^ v := by positivity
  constructor
  · intro h
    have hl := Int.le_bmod (x := x) (m := 2 ^ (v + 1)) (by positivity)
    have hu := Int.bmod_lt (x := x) (m := 2 ^ (v + 1)) (by positivity)
    rw [h] at hl hu
    push_cast at hl hu
    rw [pow_succ] at hl hu
    simp only [Fits, Nat.add_sub_cancel]
    omega
  · rintro ⟨hl, hu⟩
    simp only [Nat.add_sub_cancel] at hl hu
    apply Int.bmod_eq_of_le <;> push_cast <;> rw [pow_succ] <;> omega

theorem bmod_of_fits_32 {x : ℤ} (h : Fits 32 x) : x.bmod (2 ^ 32) = x :=
  (bmod_eq_self_iff (by norm_num)).mpr h

theorem bmod_of_fits_64 {x : ℤ} (h : Fits 64 x) : x.bmod (2 ^ 64) = x :=
  (bmod_eq_self_iff (by norm_num)).mpr h

theorem mul_32_of_fits {a b : Int32} (h : Fits 32 (a.toInt * b.toInt)) :
    (a * b).toInt = a.toInt * b.toInt := by
  rw [Int32.toInt_mul, bmod_of_fits_32 h]

theorem mul_64_of_fits {a b : Int64} (h : Fits 64 (a.toInt * b.toInt)) :
    (a * b).toInt = a.toInt * b.toInt := by
  rw [Int64.toInt_mul, bmod_of_fits_64 h]

theorem add_64_of_fits {a b : Int64} (h : Fits 64 (a.toInt + b.toInt)) :
    (a + b).toInt = a.toInt + b.toInt := by
  rw [Int64.toInt_add, bmod_of_fits_64 h]

theorem sub_64_of_fits {a b : Int64} (h : Fits 64 (a.toInt - b.toInt)) :
    (a - b).toInt = a.toInt - b.toInt := by
  rw [Int64.toInt_sub, bmod_of_fits_64 h]

theorem toInt32_eq_iff {a : Int64} : a.toInt32.toInt = a.toInt ↔ Fits 32 a.toInt := by
  rw [Int64.toInt_toInt32, bmod_eq_self_iff (by norm_num)]

theorem toInt_toInt32_of_lt {a : UInt32} (h : a.toNat < 2 ^ 31) : a.toInt32.toInt = a.toNat := by
  rw [← Int32.toInt_toBitVec, UInt32.toBitVec_toInt32, BitVec.toInt_eq_toNat_of_lt]
  · rfl
  · change 2 * a.toNat < 2 ^ 32
    omega

theorem toInt_toInt64_of_lt {a : UInt64} (h : a.toNat < 2 ^ 63) : a.toInt64.toInt = a.toNat := by
  rw [← Int64.toInt_toBitVec, UInt64.toBitVec_toInt64, BitVec.toInt_eq_toNat_of_lt]
  · rfl
  · change 2 * a.toNat < 2 ^ 64
    omega

theorem Fits.tdiv {w : ℕ} {a b : ℤ} (ha : Fits w a) (hb : 0 < b) : Fits w (a.tdiv b) := by
  have hp : (0 : ℤ) < 2 ^ (w - 1) := by positivity
  have hd := Int.natAbs_tdiv_le_natAbs a b
  obtain ⟨hl, hu⟩ := ha
  unfold Fits
  rcases lt_or_ge a 0 with h | h
  · have hneg : 0 ≤ (-a).tdiv b := Int.tdiv_nonneg (by omega) hb.le
    rw [Int.neg_tdiv] at hneg
    omega
  · have hge : 0 ≤ a.tdiv b := Int.tdiv_nonneg h hb.le
    omega

theorem div_32_of_pos {a b : Int32} (hb : 0 < b.toInt) :
    (a / b).toInt = a.toInt.tdiv b.toInt := by
  rw [Int32.toInt_div, bmod_of_fits_32 ((fits_toInt32 a).tdiv hb)]

theorem div_64_of_pos {a b : Int64} (hb : 0 < b.toInt) :
    (a / b).toInt = a.toInt.tdiv b.toInt := by
  rw [Int64.toInt_div, bmod_of_fits_64 ((fits_toInt64 a).tdiv hb)]

end General.Width
