import SnesApu.Apu.DspBounds

/-!
# Bounds of the echo

The steps that the processor makes once a sample keep its bounds. Storing the
echo is the only one that writes to the memory.
-/

namespace SnesApu.Apu

open General

section Echo

variable {m : Dsp} {f : DspFrame} {pitch echo : ℤ}

theorem misc27_ok (h : m.OkAt f pitch echo) : (misc27 m).OkAt f pitch echo := { h with }

theorem misc28_ok (h : m.OkAt f pitch echo) : (misc28 m).OkAt f pitch echo := by
  have hdir : (m.regs rDir).toNat ≤ f.dirMax := by
    rw [h.regs rDir (by norm_num [ProgramReg, rDir, rEndx, vEnvx, vOutx])]
    exact f.dir_le
  exact { h with dir := hdir }

theorem misc29_ok (h : m.OkAt f pitch echo) : (misc29 m).OkAt f pitch echo := by
  unfold misc29
  dsimp only
  split_ifs
  · exact { h with }
  · exact { h with }

theorem runCounters_ok (h : m.OkAt f pitch echo) : (runCounters m).OkAt f pitch echo := by
  obtain ⟨hlow, hhigh⟩ := h.counter
  refine { h with counter := ?_ }
  unfold simpleCounterRange at hhigh
  simp only [runCounters, simpleCounterRange]
  split_ifs <;> omega

/-- The noise generator never gets stuck at zero. -/
theorem runNoise_mem {noise : ℕ} (h : 0 < noise ∧ noise < 0x8000) :
    0 < runNoise noise ∧ runNoise noise < 0x8000 := by
  have hhalf : noise >>> 1 < 2 ^ 14 := by
    rw [Nat.shiftRight_eq_div_pow]
    omega
  have hbit : (noise <<< 13 ^^^ noise <<< 14) &&& 0x4000 ≤ 0x4000 := Nat.and_le_right
  constructor
  · rw [Nat.pos_iff_ne_zero]
    intro hzero
    have heq : (noise <<< 13 ^^^ noise <<< 14) &&& 0x4000 = noise >>> 1 :=
      Nat.xor_eq_zero_iff.mp hzero
    have hmul : (noise <<< 13 ^^^ noise <<< 14) &&& 2 ^ 14 =
        ((noise <<< 13 ^^^ noise <<< 14).testBit 14).toNat * 2 ^ 14 := Nat.and_two_pow _ 14
    have hsmall : noise >>> 1 = 0 := by
      rw [← heq] at hhalf ⊢
      change (noise <<< 13 ^^^ noise <<< 14) &&& 2 ^ 14 < 2 ^ 14 at hhalf
      change (noise <<< 13 ^^^ noise <<< 14) &&& 2 ^ 14 = 0
      rw [hmul] at hhalf ⊢
      omega
    rw [Nat.shiftRight_eq_div_pow] at hsmall
    have hone : noise = 1 := by omega
    subst hone
    exact absurd heq (by decide)
  · have hfirst : (noise <<< 13 ^^^ noise <<< 14) &&& 0x4000 < 2 ^ 15 := by omega
    have hsecond : noise >>> 1 < 2 ^ 15 := by omega
    exact Nat.xor_lt_two_pow hfirst hsecond

theorem latchKeys_ok (h : m.OkAt f pitch echo) : (latchKeys m).OkAt f pitch echo := by
  unfold latchKeys
  split_ifs
  · exact { h with }
  · exact h

theorem stepNoise_ok (h : m.OkAt f pitch echo) : (stepNoise m).OkAt f pitch echo := by
  refine { h with noise := ?_ }
  simp only [stepNoise]
  split_ifs
  · exact runNoise_mem h.noise
  · exact h.noise

theorem misc30_ok (h : m.OkAt f pitch echo) : (misc30 m).OkAt f pitch echo :=
  stepNoise_ok (runCounters_ok (latchKeys_ok h))

theorem setEchoFir_meets (h : m.OkAt f pitch echo) {i : ℕ} (hi : i ≤ 8) (ch : ℕ) {s : ℤ}
    (hs : -0x4000 ≤ s ∧ s ≤ 0x3FFF) : Meets (setEchoFir m i ch s) (Dsp.OkAt f pitch echo) := by
  obtain ⟨hlow, hhigh⟩ := h.echoHistPos
  have hmem : 0 ≤ m.echoHistPos + i ∧ m.echoHistPos + i < ((2 * echoHistSize : ℕ) : ℤ) := by
    norm_num [echoHistSize]
    omega
  refine Meets.load_bind hmem (Meets.store_bind hmem (Meets.pure ?_))
  have hhist : ∀ k c,
      -0x4000 ≤ Function.update m.echoHist (m.echoHistPos + i).toNat
        (Function.update (m.echoHist (m.echoHistPos + i).toNat) ch s) k c ∧
      Function.update m.echoHist (m.echoHistPos + i).toNat
        (Function.update (m.echoHist (m.echoHistPos + i).toNat) ch s) k c ≤ 0x3FFF := by
    intro k c
    rw [Function.update_apply]
    split_ifs
    · rw [Function.update_apply]
      split_ifs
      · exact hs
      · exact h.echoHist _ c
    · exact h.echoHist k c
  exact { h with echoHist := hhist }

theorem echoRead_meets (h : m.OkAt f pitch echo) {ch : ℕ} (hch : ch < 2) :
    Meets (echoRead ch m) (Dsp.OkAt f pitch echo) := by
  obtain ⟨hlow, hhigh⟩ := h.echoPtr
  have haddr : 0 ≤ echoPtr m ch ∧ echoPtr m ch + 1 < 0x10100 := by
    unfold echoPtr
    omega
  refine (getLe16_meets haddr).bind fun s _ => ?_
  have hs := int16_mem s
  have hhalf : -0x4000 ≤ int16 s / 2 ∧ int16 s / 2 ≤ 0x3FFF := by omega
  exact (setEchoFir_meets h (by norm_num) ch hhalf).bind fun m' h' =>
    setEchoFir_meets h' (by norm_num [echoHistSize]) ch hhalf

theorem calcFir_meets (h : m.OkAt f pitch echo) {i : ℕ} (hi : i ≤ 7) (ch : ℕ) :
    Meets (calcFir m i ch) fun x => -0x8000 ≤ x ∧ x ≤ 0x8000 := by
  obtain ⟨hlow, hhigh⟩ := h.echoHistPos
  have hmem : 0 ≤ m.echoHistPos + (i + 1 : ℕ) ∧
      m.echoHistPos + (i + 1 : ℕ) < ((2 * echoHistSize : ℕ) : ℤ) := by
    norm_num [echoHistSize]
    omega
  refine Meets.load_bind hmem (Meets.pure ?_)
  obtain ⟨hsl, hsh⟩ := h.echoHist (m.echoHistPos + (i + 1 : ℕ)).toNat ch
  obtain ⟨hcl, hch⟩ := int8_mem (m.regs (rFir + i * 0x10))
  generalize m.echoHist (m.echoHistPos + (i + 1 : ℕ)).toNat ch = s at hsl hsh
  generalize int8 (m.regs (rFir + i * 0x10)) = c at hcl hch
  have hmin : -(0x4000 * 0x80) ≤ s * c := by nlinarith
  have hmax : s * c ≤ 0x4000 * 0x80 := by nlinarith
  constructor <;> omega

theorem stereo_mem {P : ℤ → Prop} {l r : ℤ} (hl : P l) (hr : P r) (ch : ℕ) : P (stereo l r ch) := by
  unfold stereo
  split_ifs
  · exact hl
  · exact hr

theorem echoIn_ok (h : m.OkAt f pitch echo) {bound l r : ℤ} (hl : -bound ≤ l ∧ l ≤ bound)
    (hr : -bound ≤ r ∧ r ≤ bound) :
    Dsp.OkAt f pitch bound { m with tEchoIn := stereo l r } :=
  { h with echoIn := stereo_mem (P := fun x => -bound ≤ x ∧ x ≤ bound) hl hr }

theorem echo22_meets (h : m.OkAt f pitch echo) : Meets (echo22 m) (Dsp.OkAt f pitch 0x8000) := by
  obtain ⟨hlow, hhigh⟩ := h.echoHistPos
  obtain ⟨holow, hohigh, hofour⟩ := h.echoOffset
  have hm : Dsp.OkAt f pitch echo { m with
      echoHistPos := if (echoHistSize : ℤ) ≤ m.echoHistPos + 1 then 0 else m.echoHistPos + 1
      tEchoPtr := (m.tEsa.toNat * 0x100 + m.echoOffset) % 0x10000 } := by
    refine { h with
      echoHistPos := ?_
      echoPtr := ?_ }
    · norm_num [echoHistSize]
      split_ifs <;> omega
    · dsimp only
      omega
  refine (echoRead_meets hm (by norm_num)).bind fun m' h' => ?_
  refine (calcFir_meets h' (by norm_num) 0).bind fun l hl => ?_
  refine (calcFir_meets h' (by norm_num) 1).bind fun r hr => Meets.pure ?_
  exact echoIn_ok h' hl hr

theorem echo23_meets (h : m.OkAt f pitch 0x8000) : Meets (echo23 m) (Dsp.OkAt f pitch 0x18000) := by
  have hl := h.echoIn 0
  have hr := h.echoIn 1
  refine (calcFir_meets h (by norm_num) 0).bind fun l1 hl1 => ?_
  refine (calcFir_meets h (by norm_num) 0).bind fun l2 hl2 => ?_
  refine (calcFir_meets h (by norm_num) 1).bind fun r1 hr1 => ?_
  refine (calcFir_meets h (by norm_num) 1).bind fun r2 hr2 => ?_
  exact echoRead_meets (echoIn_ok h (by omega) (by omega)) (by norm_num)

theorem echo24_meets (h : m.OkAt f pitch 0x18000) : Meets (echo24 m) (Dsp.OkAt f pitch 0x30000) := by
  have hl := h.echoIn 0
  have hr := h.echoIn 1
  refine (calcFir_meets h (by norm_num) 0).bind fun l3 hl3 => ?_
  refine (calcFir_meets h (by norm_num) 0).bind fun l4 hl4 => ?_
  refine (calcFir_meets h (by norm_num) 0).bind fun l5 hl5 => ?_
  refine (calcFir_meets h (by norm_num) 1).bind fun r3 hr3 => ?_
  refine (calcFir_meets h (by norm_num) 1).bind fun r4 hr4 => ?_
  refine (calcFir_meets h (by norm_num) 1).bind fun r5 hr5 => ?_
  exact Meets.pure (echoIn_ok h (by omega) (by omega))

theorem echo25_meets (h : m.OkAt f pitch echo) : Meets (echo25 m) (Dsp.OkAt f pitch 0x8000) := by
  refine (calcFir_meets h (by norm_num) 0).bind fun l6 _ => ?_
  refine (calcFir_meets h (by norm_num) 1).bind fun r6 _ => ?_
  refine (calcFir_meets h (by norm_num) 0).bind fun l7 _ => ?_
  refine (calcFir_meets h (by norm_num) 1).bind fun r7 _ => ?_
  have hmask : ∀ x, -0x8000 ≤ maskBit0 (clamp16 x) ∧ maskBit0 (clamp16 x) ≤ 0x8000 := by
    intro x
    have hx := maskBit0_mem (clamp16_mem x)
    omega
  exact Meets.pure (echoIn_ok h (hmask _) (hmask _))

theorem echo26_ok (h : m.OkAt f pitch echo) : (echo26 m).OkAt f pitch echo := by
  refine { h with
    mainOut := fun ch => ?_
    echoOut := stereo_mem (maskBit0_mem (clamp16_mem _)) (maskBit0_mem (clamp16_mem _)) }
  simp only [echo26, Function.update_apply]
  split_ifs
  · exact clamp16_mem _
  · exact h.mainOut ch

theorem echo27_ok (h : m.OkAt f pitch echo) : (echo27 m).OkAt f pitch echo :=
  { h with mainOut := stereo_mem sample_zero sample_zero }

theorem echo28_ok (h : m.OkAt f pitch echo) : (echo28 m).OkAt f pitch echo := { h with }

/-- The memory after `echo_write` of a channel. -/
def echoRam (m : Dsp) (ch : ℕ) : ℕ → UInt8 :=
  if m.tEchoEnabled &&& 0x20 = 0 then
    Function.update
      (Function.update m.ram (echoPtr m ch).toNat (UInt8.ofInt (m.tEchoOut ch)))
      (echoPtr m ch + 1).toNat (UInt8.ofInt (m.tEchoOut ch / 256))
  else m.ram

theorem writeRam_eq {addr : ℤ} (haddr : 0 ≤ addr ∧ addr < 0x10000) (data : UInt8) :
    m.writeRam addr data = .ok { m with ram := Function.update m.ram addr.toNat data } := by
  have hmem : 0 ≤ addr ∧ addr < (ramSize : ℤ) := by
    norm_num [ramSize]
    omega
  rw [Dsp.writeRam, store_of_mem hmem]
  rfl

theorem echoWrite_eq (h : m.OkAt f pitch echo) {ch : ℕ} (hch : ch < 2) :
    echoWrite ch m =
      .ok { m with
        ram := echoRam m ch
        tEchoOut := Function.update m.tEchoOut ch 0 } := by
  obtain ⟨hlow, hhigh⟩ := h.echoPtr
  have haddr : 0 ≤ echoPtr m ch ∧ echoPtr m ch < 0xFFFF := by
    unfold echoPtr
    omega
  unfold echoWrite echoStore echoRam Dsp.setLe16
  split_ifs
  · rw [writeRam_eq (by omega), ok_bind, writeRam_eq (by omega)]
    rfl
  · rfl

theorem echoWrite_meets (h : m.OkAt f pitch echo) {ch : ℕ} (hch : ch < 2) :
    Meets (echoWrite ch m) fun m' =>
      m'.OkAt (f.setRam (echoRam m ch)) pitch echo ∧ m'.ram = echoRam m ch := by
  have hcleared : ∀ c, Sample (Function.update m.tEchoOut ch 0 c) := by
    intro c
    rw [Function.update_apply]
    split_ifs
    · exact sample_zero
    · exact h.echoOut c
  refine ⟨_, echoWrite_eq h hch, ?_, rfl⟩
  exact { h with
    ram := rfl
    echoOut := hcleared }

theorem echo29_meets (h : m.OkAt f pitch echo) :
    Meets (echo29 m) fun m' =>
      m'.OkAt (f.setRam (echoRam m 0)) pitch echo ∧ m'.ram = echoRam m 0 := by
  obtain ⟨holow, hohigh, hofour⟩ := h.echoOffset
  obtain ⟨hllow, hlhigh⟩ := h.echoLength
  have hand : (m.regs rEdl).toNat &&& 0x0F ≤ 0x0F := Nat.and_le_right
  have hlength : 0 ≤ (if m.echoOffset = 0 then (((m.regs rEdl).toNat &&& 0x0F : ℕ) : ℤ) * 0x800
        else m.echoLength) ∧
      (if m.echoOffset = 0 then (((m.regs rEdl).toNat &&& 0x0F : ℕ) : ℤ) * 0x800
        else m.echoLength) ≤ 0x7800 := by
    split_ifs <;> omega
  unfold echo29
  dsimp only
  generalize (if m.echoOffset = 0 then (((m.regs rEdl).toNat &&& 0x0F : ℕ) : ℤ) * 0x800
    else m.echoLength) = length at hlength
  have hm : Dsp.OkAt f pitch echo { m with
      tEsa := m.regs rEsa
      echoLength := length
      echoOffset := if length ≤ m.echoOffset + 4 then 0 else m.echoOffset + 4 } := by
    refine { h with
      echoLength := hlength
      echoOffset := ?_ }
    dsimp only
    split_ifs <;> omega
  exact (echoWrite_meets hm (by norm_num)).bind fun m' h' => Meets.pure ⟨{ h'.1 with }, h'.2⟩

theorem echo30_meets (h : m.OkAt f pitch echo) :
    Meets (echo30 m) fun m' =>
      m'.OkAt (f.setRam (echoRam m 1)) pitch echo ∧ m'.ram = echoRam m 1 :=
  echoWrite_meets h (by norm_num)

end Echo

end SnesApu.Apu
