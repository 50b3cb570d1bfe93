import SnesApu.Opening
import SnesApu.Counts

/-!
# The range of a seek

A seek skips from the position it starts at, zero after a reload. The clock
count is 16 for each sample, in `int`, so a skip of 2^27 samples overflows it.
-/

namespace SnesApu

open General General.Width

def InTrack (playLen : ℤ) (time : Int64) : Prop := 0 ≤ time.toInt ∧ 64 * time.toInt ≤ playLen

/-- The samples between where a seek to `time` starts and its target. -/
def skipDistance {σ : Type} (ctx : SPCContext σ) (time : Int64) : ℤ :=
  64 * time.toInt - if 64 * time.toInt < ctx.pos.toInt then 0 else ctx.pos.toInt

structure SeekExact {σ : Type} (ctx : SPCContext σ) (time : Int64) : Prop where
  passed : (skipCount ctx time).toInt = skipDistance ctx time
  noOverflow : Fits 32 (skipDistance ctx time * 16)
  clock : (clockCount (skipCount ctx time)).toInt = 16 * skipDistance ctx time

section Step

variable {σ : Type} {core : SpcCore σ} {ctx : SPCContext σ} {time : Int64}

theorem skipDistance_nonneg (h : 0 ≤ time.toInt) : 0 ≤ skipDistance ctx time := by
  unfold skipDistance
  split_ifs <;> omega

theorem seekBase_toInt (h : Fits 64 (time.toInt * 64000)) :
    (seekBase ctx time).toInt = if 64 * time.toInt < ctx.pos.toInt then 0 else ctx.pos.toInt := by
  simp only [seekBase, Int64.lt_iff_toInt_lt, seekTarget_toInt h, mul_comm time.toInt 64]
  split_ifs <;> rfl

theorem seekExact_of_lt (hnn : 0 ≤ time.toInt) (hin : 64 * time.toInt < 2147483648)
    (h : skipDistance ctx time < 134217728) : SeekExact ctx time := by
  have hfit : Fits 64 (time.toInt * 64000) := fits_64.mpr (by omega)
  have hdist : 0 ≤ skipDistance ctx time := skipDistance_nonneg hnn
  have hsub : (seekTarget time - seekBase ctx time).toInt = skipDistance ctx time := by
    have hexact : (seekTarget time).toInt - (seekBase ctx time).toInt = skipDistance ctx time := by
      rw [seekTarget_toInt hfit, seekBase_toInt hfit, mul_comm time.toInt 64]
      rfl
    rw [sub_64_of_fits] <;> rw [hexact]
    rw [fits_64]
    omega
  have hpassed : (skipCount ctx time).toInt = skipDistance ctx time := by
    rw [skipCount, toInt32_eq_iff.mpr, hsub]
    rw [hsub, fits_32]
    omega
  have hover : Fits 32 (skipDistance ctx time * 16) := fits_32.mpr (by omega)
  refine ⟨hpassed, hover, ?_⟩
  rw [← hpassed] at hover ⊢
  rw [clockCount_toInt hover, mul_comm]

theorem seekExact_iff (hnn : 0 ≤ time.toInt) (hin : 64 * time.toInt < 2147483648) :
    SeekExact ctx time ↔ skipDistance ctx time < 134217728 := by
  constructor
  · intro h
    have hclock := h.clock
    have hmax := (clockCount (skipCount ctx time)).toInt_lt
    omega
  · exact seekExact_of_lt hnn hin

end Step

section Run

variable {σ : Type} {core : SpcCore σ}

def FrameCall : Op → Prop
  | .readPCM size => 0 < size.toNat ∧ size.toNat % 4 = 0
  | .seek _ => True

/-- A read into a buffer that can exist, or a seek within the track. -/
def InTrackCall (playLen : ℤ) : Op → Prop
  | .readPCM size => FrameCall (.readPCM size) ∧ size.toNat < 9223372036854775808
  | .seek time => InTrack playLen time

theorem pos_nonneg_preserved (core : SpcCore σ) (playLen : Int32) :
    (codec core).Preserves (InTrackCall playLen.toInt) (fun ctx => 0 ≤ ctx.pos.toInt) := by
  intro ctx op hpos hop
  have hlen := playLen.toInt_lt
  cases op with
  | readPCM size =>
    obtain ⟨-, hsize⟩ := hop
    by_cases hend : AtEnd ctx
    · simpa only [codec, readPCM_of_atEnd core hend] using hpos
    · have hbefore := mt (atEnd_iff ctx).mpr hend
      have htag := ctx.tag.playLen.toInt_lt
      have hafter : (readPCM core ctx size).1.pos.toInt = ctx.pos.toInt + size.toNat / 2 :=
        readPCM_pos_toInt core hend (by omega)
      change 0 ≤ (readPCM core ctx size).1.pos.toInt
      omega
  | seek time =>
    obtain ⟨hnn, hin⟩ := hop
    change 0 ≤ (seekTarget time).toInt
    rw [seekTarget_toInt (fits_64.mpr (by omega))]
    omega

/-- In every state that reads and seeks lead to, a seek within the track is exact
just when it has less than 2^27 samples to skip; all seeks of all runs within the
track are exact just when the track is shorter than that. -/
theorem seekExact_iff_of_run {env : Environment} {tag : Id666} {filename : Bytes}
    {r : InitResult σ} (h : init core env tag filename = .ok (some r)) :
    (∀ ops, (∀ op ∈ ops, FrameCall op) → ∀ time, InTrack r.ctx.tag.playLen.toInt time →
      (SeekExact ((codec core).state r.ctx ops) time ↔
        skipDistance ((codec core).state r.ctx ops) time < 134217728)) ∧
    ((∀ ops, (∀ op ∈ ops, InTrackCall r.ctx.tag.playLen.toInt op) →
      ∀ time, InTrack r.ctx.tag.playLen.toInt time →
        SeekExact ((codec core).state r.ctx ops) time) ↔ r.ctx.tag.playLen.toInt < 134217728) := by
  have hmax := r.ctx.tag.playLen.toInt_lt
  have hzero : r.ctx.pos.toInt = 0 := by
    rw [(init_fresh h).1]
    rfl
  refine ⟨?_, ?_, ?_⟩
  · intro ops _ time htime
    exact seekExact_iff htime.1 (by have hin := htime.2; omega)
  · intro hall
    by_contra hlong
    -- the last millisecond of the track, from its start
    let time : Int64 := Int64.ofInt (r.ctx.tag.playLen.toInt / 64)
    have htime : time.toInt = r.ctx.tag.playLen.toInt / 64 :=
      Int64.toInt_ofInt_of_le (by omega) (by omega)
    have hin : InTrack r.ctx.tag.playLen.toInt time := by
      refine ⟨?_, ?_⟩ <;> rw [htime] <;> omega
    have hexact := hall [] (fun op hop => absurd hop List.not_mem_nil) time hin
    have hshort := (seekExact_iff hin.1 (by have hle := hin.2; omega)).mp hexact
    rw [Machine.state_nil, skipDistance, hzero, htime] at hshort
    split_ifs at hshort <;> omega
  · intro hlen ops hops time htime
    have hpos := (pos_nonneg_preserved core r.ctx.tag.playLen).state hzero.ge hops
    obtain ⟨hnn, hin⟩ := htime
    apply seekExact_of_lt hnn (by omega)
    unfold skipDistance
    split_ifs <;> omega

end Run

theorem seekExact_song :
    ∃ r, init (tapeCore fun _ _ => 0) (songEnv (tagHeader 26 (ascii "033"))) {}
        (ascii "song.spc") = .ok (some r) ∧
      ∀ ops, (∀ op ∈ ops, InTrackCall 2112000 op) → ∀ time, InTrack 2112000 time →
        SeekExact ((codec (tapeCore fun _ _ => 0)).state r.ctx ops) time := by
  obtain ⟨spcTag, r, -, hplay, hr, htag, -⟩ := exists_songInit (n := 2112000)
    (tapeCore fun _ _ => 0) 26 (ascii "033") (by decide) (by decide +kernel)
  have hint : r.ctx.tag.playLen.toInt = 2112000 := by rw [htag, hplay]; decide
  have hall := (seekExact_iff_of_run hr).2.mpr (by rw [hint]; norm_num)
  rw [hint] at hall
  exact ⟨r, hr, hall⟩

/-- A binary tag of 2098 seconds: seeking to millisecond 2097152 from the start
skips 2^27 samples, and the clock count comes out negative. -/
theorem seekExact_2098s_fails :
    ∃ r, init (tapeCore fun _ _ => 0) (songEnv (tagHeader 26 [0x32, 0x08, 0])) {}
        (ascii "song.spc") = .ok (some r) ∧
      InTrack r.ctx.tag.playLen.toInt 2097152 ∧
      clockCount (skipCount r.ctx 2097152) = -2147483648 ∧ ¬ SeekExact r.ctx 2097152 := by
  obtain ⟨spcTag, r, -, hplay, hr, htag, -⟩ := exists_songInit (n := 134272000)
    (tapeCore fun _ _ => 0) 26 [0x32, 0x08, 0] (by decide) (by decide +kernel)
  have hpos := (init_fresh hr).1
  have hclock : clockCount (skipCount r.ctx 2097152) = -2147483648 := by
    simp only [skipCount, seekBase, hpos]
    decide
  refine ⟨r, hr, ?_, hclock, fun h => ?_⟩
  · rw [htag, hplay]
    exact ⟨by decide, by decide⟩
  · have hnn : 0 ≤ skipDistance r.ctx 2097152 := skipDistance_nonneg (by decide)
    have hbad := h.clock
    rw [hclock] at hbad
    change (-2147483648 : ℤ) = _ at hbad
    omega

end SnesApu
