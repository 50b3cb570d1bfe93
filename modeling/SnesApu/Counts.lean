import SnesApu.Codec
import SnesApu.General.Width

/-!
# Positions and sample counts

The integers behind the counts handed to the library, where the conversions on
the way to them lose nothing.
-/

namespace SnesApu

open General.Width

theorem toInt_div_two (size : UInt64) : (size / 2).toInt64.toInt = size.toNat / 2 := by
  have hsize : size.toNat < 2 ^ 64 := size.toNat_lt
  have hhalf : (size / 2).toNat = size.toNat / 2 := by
    rw [UInt64.toNat_div]
    rfl
  rw [toInt_toInt64_of_lt (by omega), hhalf]
  omega

theorem playCount_toInt {size : UInt64} (h : size.toNat < 4294967296) :
    (playCount size).toInt = size.toNat / 2 := by
  have hhalf : (size / 2).toUInt32.toNat = size.toNat / 2 := by
    rw [UInt64.toNat_toUInt32, UInt64.toNat_div]
    change size.toNat / 2 % 2 ^ 32 = _
    omega
  rw [playCount, toInt_toInt32_of_lt (by omega), hhalf]
  omega

/-- Without overflow `Seek` goes to 64 ticks for each millisecond. -/
theorem seekTarget_toInt {time : Int64} (h : Fits 64 (time.toInt * 64000)) :
    (seekTarget time).toInt = time.toInt * 64 := by
  have hbounds := fits_64.mp h
  have hrate : (time * spcSamplerate.toInt64).toInt = time.toInt * 32000 :=
    mul_64_of_fits (show Fits 64 (time.toInt * 32000) from fits_64.mpr (by omega))
  have hchannels : (time * spcSamplerate.toInt64 * spcChannels.toInt64).toInt =
      time.toInt * 32000 * 2 := by
    rw [← hrate]
    refine mul_64_of_fits (fits_64.mpr ?_)
    rw [hrate]
    change _ ≤ time.toInt * 32000 * 2 ∧ time.toInt * 32000 * 2 < _
    omega
  rw [seekTarget, div_64_of_pos (by decide), hchannels]
  change (time.toInt * 32000 * 2).tdiv 1000 = _
  rw [show time.toInt * 32000 * 2 = time.toInt * 64 * 1000 by ring]
  exact Int.mul_tdiv_cancel _ (by norm_num)

section Context

variable {σ : Type} (core : SpcCore σ) (ctx : SPCContext σ) (time : Int64) (size : UInt64)

theorem atEnd_iff : AtEnd ctx ↔ ctx.tag.playLen.toInt ≤ ctx.pos.toInt := by
  rw [AtEnd, Int64.le_iff_toInt_le, Int32.toInt_toInt64]

@[simp] theorem seek_pos : (seek core ctx time).1.pos = seekTarget time := rfl

@[simp] theorem readPCM_tag : (readPCM core ctx size).1.tag = ctx.tag := by
  unfold readPCM
  split_ifs <;> rfl

@[simp] theorem readPCM_data : (readPCM core ctx size).1.data = ctx.data := by
  unfold readPCM
  split_ifs <;> rfl

variable {ctx size}

theorem readPCM_of_atEnd (h : AtEnd ctx) : readPCM core ctx size = (ctx, ⟨.eof, none, []⟩) :=
  if_pos h

theorem readPCM_pos (h : ¬ AtEnd ctx) : (readPCM core ctx size).1.pos = ctx.pos + (size / 2).toInt64 := by
  rw [readPCM, if_neg h]
  exact (UInt64.toInt64_add _ _).trans (by rw [Int64.toInt64_toUInt64])

theorem readPCM_pos_toInt (h : ¬ AtEnd ctx)
    (hfit : ctx.pos.toInt + size.toNat / 2 < 9223372036854775808) :
    (readPCM core ctx size).1.pos.toInt = ctx.pos.toInt + size.toNat / 2 := by
  have hlow := (fits_64.mp (fits_toInt64 ctx.pos)).1
  rw [readPCM_pos core h, add_64_of_fits, toInt_div_two]
  rw [toInt_div_two, fits_64]
  omega

end Context

end SnesApu
