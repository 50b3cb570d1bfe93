import SnesApu.Apu.DspRun

/-!
# Bounds of the sound processor

`Dsp.Ok` bounds every field that an index or a sample is computed from. The
pitch and the echo sum are built up over several clocks, so `Dsp.OkAt` takes
their bounds from the phase, and a frame of what no clock may change. Each step
of a voice keeps them.
-/

namespace SnesApu.Apu

open General

def Sample (x : ℤ) : Prop := -0x8000 ≤ x ∧ x ≤ 0x7FFF

structure Voice.Ok (i : ℕ) (v : Voice) : Prop where
  regs : v.regs = i * 0x10
  bufPos : v.bufPos = 0 ∨ v.bufPos = 4 ∨ v.bufPos = 8
  interpPos : 0 ≤ v.interpPos ∧ v.interpPos ≤ 0x7FFF
  brrAddr : 0 ≤ v.brrAddr ∧ v.brrAddr ≤ 0xFFFF
  brrOffset : v.brrOffset = 1 ∨ v.brrOffset = 3 ∨ v.brrOffset = 5 ∨ v.brrOffset = 7
  konDelay : v.konDelay ≤ 5
  env : 0 ≤ v.env ∧ v.env ≤ 0x7FF
  hiddenEnv : -0x20 ≤ v.hiddenEnv ∧ v.hiddenEnv ≤ 0xBFF
  samples : ∀ k, Sample (v.buf k)
  mirrored : Mirrored brrBufSize v.buf

structure Dsp.Ok (m : Dsp) : Prop where
  voices : ∀ i < 8, (m.voices i).Ok i
  noise : 0 < m.noise ∧ m.noise < 0x8000
  counter : 0 ≤ m.counter ∧ m.counter < simpleCounterRange
  echoHistPos : 0 ≤ m.echoHistPos ∧ m.echoHistPos < 8
  echoHist : ∀ k ch, -0x4000 ≤ m.echoHist k ch ∧ m.echoHist k ch ≤ 0x3FFF
  echoOffset : 0 ≤ m.echoOffset ∧ m.echoOffset < 0x7800 ∧ m.echoOffset % 4 = 0
  echoLength : 0 ≤ m.echoLength ∧ m.echoLength ≤ 0x7800
  dirAddr : 0 ≤ m.tDirAddr ∧ m.tDirAddr % 4 = 0
  nextAddr : 0 ≤ m.tBrrNextAddr ∧ m.tBrrNextAddr ≤ 0xFFFF
  adsr0 : m.tAdsr0 < 0x100
  brrHeader : m.tBrrHeader < 0x100
  brrByte : 0 ≤ m.tBrrByte ∧ m.tBrrByte < 0x100
  output : Sample m.tOutput
  echoPtr : 0 ≤ m.tEchoPtr ∧ m.tEchoPtr ≤ 0xFFFC
  mainOut : ∀ ch, Sample (m.tMainOut ch)
  echoOut : ∀ ch, Sample (m.tEchoOut ch)

/-- What no clock changes: the registers that the processor does not write, and
the memory except where the echo is stored. `dirMax` bounds the directory. -/
structure DspFrame where
  regs : ℕ → UInt8
  ram : ℕ → UInt8
  muteMask : UInt8
  dirMax : ℕ
  dir_le : (regs rDir).toNat ≤ dirMax
  dirMax_le : dirMax ≤ 0xFF

def DspFrame.setRam (f : DspFrame) (ram : ℕ → UInt8) : DspFrame := { f with ram := ram }

/-- The registers that only the program writes, not ENVX, OUTX and ENDX. -/
def ProgramReg (r : ℕ) : Prop := r ≠ rEndx ∧ r % 16 ≠ vEnvx ∧ r % 16 ≠ vOutx

/-- `Dsp.Ok` in a frame, with bounds for the pitch and the echo sum. -/
structure Dsp.OkAt (f : DspFrame) (pitch echo : ℤ) (m : Dsp) : Prop extends Dsp.Ok m where
  pitch : 0 ≤ m.tPitch ∧ m.tPitch ≤ pitch
  echoIn : ∀ ch, -echo ≤ m.tEchoIn ch ∧ m.tEchoIn ch ≤ echo
  regs : ∀ r, ProgramReg r → m.regs r = f.regs r
  ram : m.ram = f.ram
  muteMask : m.muteMask = f.muteMask
  dir : m.tDir.toNat ≤ f.dirMax
  dirEntry : m.tDirAddr ≤ f.dirMax * 0x100 + 0x3FC

theorem sample_zero : Sample 0 := by
  norm_num [Sample]

theorem toNat_le_255 (b : UInt8) : b.toNat ≤ 255 := by
  have := b.toNat_lt
  omega

section Memory

variable {m : Dsp} {f : DspFrame} {pitch echo : ℤ}

theorem readRam_meets {addr : ℤ} (h : 0 ≤ addr ∧ addr ≤ 0xFFFF) :
    m.readRam addr = .ok (m.ram addr.toNat) :=
  load_of_mem ⟨h.1, by norm_num [ramSize]; omega⟩

theorem getLe16_eq {addr : ℤ} (h : 0 ≤ addr ∧ addr + 1 < 0x10100) :
    m.getLe16 addr =
      .ok (((m.ram (addr + 1).toNat).toNat : ℤ) * 256 + ((m.ram addr.toNat).toNat : ℤ)) := by
  have hlo : m.readRam addr = .ok (m.ram addr.toNat) :=
    load_of_mem ⟨h.1, by norm_num [ramSize]; omega⟩
  have hhi : m.readRam (addr + 1) = .ok (m.ram (addr + 1).toNat) :=
    load_of_mem ⟨by omega, by norm_num [ramSize]; omega⟩
  rw [Dsp.getLe16, hlo, hhi]
  rfl

theorem getLe16_meets {addr : ℤ} (h : 0 ≤ addr ∧ addr + 1 < 0x10100) :
    Meets (m.getLe16 addr) fun x => 0 ≤ x ∧ x ≤ 0xFFFF := by
  have hlo := toNat_le_255 (m.ram addr.toNat)
  have hhi := toNat_le_255 (m.ram (addr + 1).toNat)
  rw [getLe16_eq h, meets_ok]
  omega

theorem getLe16_outside {addr : ℤ} (h : 0x10100 ≤ addr) : m.getLe16 addr = .error .outside := by
  have hlo : m.readRam addr = .error .outside :=
    load_of_not_mem fun hmem => by
      have := hmem.2
      norm_num [ramSize] at this
      omega
  rw [Dsp.getLe16, hlo]
  rfl

end Memory

/-! ### Decoder, interpolation and envelope -/

theorem brrSample_sample (header : ℕ) (nybbles p1 p2 : ℤ) :
    Sample (brrSample header nybbles p1 p2) := int16_mem _

theorem decodeSamples_meets (header n : ℕ) {pos : ℤ} (nybbles : ℤ) {buf : ℕ → ℤ}
    (hpos : 0 ≤ pos ∧ pos + n ≤ brrBufSize) (hs : ∀ k, Sample (buf k))
    (hm : Mirrored brrBufSize buf) :
    Meets (decodeSamples header n pos nybbles buf) fun buf' =>
      (∀ k, Sample (buf' k)) ∧ Mirrored brrBufSize buf' := by
  induction n generalizing pos nybbles buf with
  | zero => exact ⟨buf, rfl, hs, hm⟩
  | succ n ih =>
    obtain ⟨hlow, hhigh⟩ := hpos
    have hb : brrBufSize = 12 := rfl
    rw [hb] at hhigh
    push_cast at hhigh
    have hslot : pos.toNat < 12 := by omega
    have hsecond : (pos + ↑brrBufSize).toNat = pos.toNat + 12 := by
      rw [hb]
      omega
    unfold decodeSamples
    refine Meets.load_bind ⟨by rw [hb]; omega, by rw [hb]; push_cast; omega⟩ ?_
    refine Meets.load_bind ⟨by rw [hb]; omega, by rw [hb]; push_cast; omega⟩ ?_
    refine Meets.store_bind ⟨hlow, by rw [hb]; push_cast; omega⟩ ?_
    refine Meets.store_bind ⟨by rw [hb]; omega, by rw [hb]; push_cast; omega⟩ ?_
    rw [hsecond]
    refine ih _ ⟨by omega, by rw [hb]; omega⟩ (fun k => ?_) (hm.update hslot _)
    rw [Function.update_apply, Function.update_apply]
    split_ifs
    · exact brrSample_sample _ _ _ _
    · exact brrSample_sample _ _ _ _
    · exact hs k

section Voice

variable {m : Dsp} {v : Voice} {i : ℕ}

theorem decodeBrr_meets (hv : v.Ok i) :
    Meets (decodeBrr m v) fun v' => v'.Ok i := by
  have haddr : 0 ≤ (v.brrAddr + v.brrOffset + 1) % 0x10000 ∧
      (v.brrAddr + v.brrOffset + 1) % 0x10000 ≤ 0xFFFF := by omega
  have hpos := hv.bufPos
  unfold decodeBrr
  rw [readRam_meets haddr]
  refine (decodeSamples_meets _ 4 _ ?_ hv.samples hv.mirrored).bind fun buf hbuf => ?_
  · norm_num [brrBufSize]
    omega
  · refine ⟨_, rfl, { hv with
      bufPos := ?_
      samples := hbuf.1
      mirrored := hbuf.2 }⟩
    norm_num [brrBufSize]
    split_ifs <;> omega

theorem interpolate_meets (hv : v.Ok i) : Meets (interpolate v) Sample := by
  have hpos := hv.bufPos
  have hinterp := hv.interpPos
  have hb : ((2 * brrBufSize : ℕ) : ℤ) = 24 := rfl
  unfold interpolate
  refine Meets.load_bind ⟨by omega, by push_cast; omega⟩ ?_
  refine Meets.load_bind ⟨by omega, by push_cast; omega⟩ ?_
  refine Meets.load_bind ⟨by omega, by push_cast; omega⟩ ?_
  refine Meets.load_bind ⟨by omega, by push_cast; omega⟩ ?_
  refine Meets.load_bind ⟨by omega, by rw [hb]; omega⟩ ?_
  refine Meets.load_bind ⟨by omega, by rw [hb]; omega⟩ ?_
  refine Meets.load_bind ⟨by omega, by rw [hb]; omega⟩ ?_
  refine Meets.load_bind ⟨by omega, by rw [hb]; omega⟩ ?_
  exact ⟨_, rfl, maskBit0_mem (clamp16_mem _)⟩

theorem scaled_sample {x env : ℤ} (hx : Sample x) (henv : 0 ≤ env ∧ env ≤ 0x7FF) :
    Sample (maskBit0 (x * env / 2 ^ 11)) := by
  obtain ⟨hlow, hhigh⟩ := hx
  have hmin : -0x8000 * 0x800 ≤ x * env := by nlinarith
  have hmax : x * env ≤ 0x7FFF * 0x7FF := by nlinarith
  refine maskBit0_mem ⟨?_, ?_⟩ <;> omega

theorem voiceSample_meets (hv : v.Ok i) : Meets (voiceSample m v) Sample := by
  unfold voiceSample
  refine (interpolate_meets hv).bind fun output hout => ⟨_, rfl, ?_⟩
  refine scaled_sample ?_ hv.env
  split_ifs
  · exact int16_mem _
  · exact hout

theorem adsrEnvelope_mem (henv : 0 ≤ v.env ∧ v.env ≤ 0x7FF) :
    -0x20 ≤ (adsrEnvelope m v).1 ∧ (adsrEnvelope m v).1 ≤ 0xBFF := by
  unfold adsrEnvelope
  dsimp only
  split_ifs <;> dsimp only <;> omega

theorem gainEnvelope_mem (henv : 0 ≤ v.env ∧ v.env ≤ 0x7FF) :
    -0x20 ≤ (gainEnvelope m v).1 ∧ (gainEnvelope m v).1 ≤ 0xBFF := by
  have hdata := toNat_le_255 (m.vreg v vGain)
  unfold gainEnvelope
  dsimp only
  split_ifs with hmode <;> dsimp only
  · rw [Nat.shiftRight_eq_div_pow] at hmode
    omega
  all_goals omega

theorem storeEnvelope_ok (hv : v.Ok i) {env : ℤ} (hmem : -0x20 ≤ env ∧ env ≤ 0xBFF)
    (rate envData : ℕ) : (storeEnvelope m v env rate envData).Ok i := by
  refine { hv with
    env := ?_
    hiddenEnv := hmem }
  have henv := hv.env
  simp only [storeEnvelope]
  split_ifs <;> omega

theorem runEnvelope_ok (hv : v.Ok i) : (runEnvelope m v).Ok i := by
  have henv := hv.env
  unfold runEnvelope
  by_cases hrelease : v.envMode = .release
  · rw [if_pos hrelease]
    have hdown : 0 ≤ (if v.env - 0x8 < 0 then 0 else v.env - 0x8) ∧
        (if v.env - 0x8 < 0 then 0 else v.env - 0x8) ≤ 0x7FF := by
      split_ifs <;> omega
    exact { hv with env := hdown }
  · rw [if_neg hrelease]
    refine storeEnvelope_ok hv ?_ _ _
    split_ifs
    · exact adsrEnvelope_mem henv
    · exact gainEnvelope_mem henv

end Voice

/-! ### The steps of a voice -/

section Steps

variable {m : Dsp} {f : DspFrame} {i : ℕ} {pitch echo : ℤ}

theorem setVoice_ok (h : m.OkAt f pitch echo) {v : Voice} (hv : v.Ok i) :
    (m.setVoice i v).OkAt f pitch echo := by
  have hvoices : ∀ j < 8, (Function.update m.voices i v j).Ok j := by
    intro j hj
    by_cases hji : j = i
    · subst hji
      rw [Function.update_self]
      exact hv
    · rw [Function.update_of_ne hji]
      exact h.voices j hj
  exact { h with voices := hvoices }

theorem setReg_ok (h : m.OkAt f pitch echo) {r : ℕ} (hr : ¬ ProgramReg r) (data : UInt8) :
    (m.setReg r data).OkAt f pitch echo := by
  have hregs : ∀ q, ProgramReg q → Function.update m.regs r data q = f.regs q := by
    intro q hq
    have hne : q ≠ r := by
      rintro rfl
      exact hr hq
    rw [Function.update_of_ne hne]
    exact h.regs q hq
  exact { h with regs := hregs }

theorem voiceV1_ok (h : m.OkAt f pitch echo) : (voiceV1 i m).OkAt f pitch echo := by
  have hdir := h.dir
  have hsrcn := toNat_le_255 m.tSrcn
  refine { h with
    dirAddr := ⟨?_, ?_⟩
    dirEntry := ?_ } <;> dsimp only [voiceV1]
  · positivity
  · omega
  · omega

theorem voiceV2_meets (h : m.OkAt f pitch echo) (hdir : m.tDirAddr < 0x10100) :
    Meets (voiceV2 i m) (Dsp.OkAt f 0xFF echo) := by
  obtain ⟨hnonneg, hfour⟩ := h.dirAddr
  have hpitch := toNat_le_255 (m.vreg (m.voices i) vPitchl)
  have hentry : 0 ≤ (if (m.voices i).konDelay = 0 then m.tDirAddr + 2 else m.tDirAddr) ∧
      (if (m.voices i).konDelay = 0 then m.tDirAddr + 2 else m.tDirAddr) + 1 < 0x10100 := by
    split_ifs <;> omega
  refine (getLe16_meets hentry).bind fun next hnext => Meets.pure ?_
  exact { h with
    nextAddr := hnext
    adsr0 := (m.vreg (m.voices i) vAdsr0).toNat_lt
    pitch := ⟨by positivity, by dsimp only; omega⟩ }

theorem voiceV2_outside (h : 0x10100 ≤ m.tDirAddr) : voiceV2 i m = .error .outside := by
  have hentry : 0x10100 ≤ if (m.voices i).konDelay = 0 then m.tDirAddr + 2 else m.tDirAddr := by
    split_ifs <;> omega
  rw [voiceV2, getLe16_outside hentry]
  rfl

theorem voiceV3a_ok (h : m.OkAt f 0xFF echo) : (voiceV3a i m).OkAt f 0x3FFF echo := by
  obtain ⟨hlow, hhigh⟩ := h.pitch
  have hand : (m.vreg (m.voices i) vPitchh).toNat &&& 0x3F ≤ 0x3F := Nat.and_le_right
  exact { h with pitch := ⟨by dsimp only [voiceV3a]; omega, by dsimp only [voiceV3a]; omega⟩ }

theorem voiceV3b_meets (h : m.OkAt f pitch echo) (hi : i < 8) :
    Meets (voiceV3b i m) (Dsp.OkAt f pitch echo) := by
  have hmod : 0 ≤ ((m.voices i).brrAddr + (m.voices i).brrOffset) % 0x10000 ∧
      ((m.voices i).brrAddr + (m.voices i).brrOffset) % 0x10000 ≤ 0xFFFF := by omega
  have hbyte := toNat_le_255 (m.ram (((m.voices i).brrAddr + (m.voices i).brrOffset) % 0x10000).toNat)
  unfold voiceV3b
  simp only [readRam_meets hmod, readRam_meets (h.voices i hi).brrAddr]
  refine ⟨_, rfl, { h with
    brrByte := ⟨by positivity, by dsimp only; omega⟩
    brrHeader := UInt8.toNat_lt _ }⟩

theorem modulatedPitch_mem (h : m.OkAt f pitch echo) (v : Voice) :
    0 ≤ modulatedPitch m v ∧ modulatedPitch m v ≤ 2 * pitch := by
  obtain ⟨hlow, hhigh⟩ := h.pitch
  obtain ⟨hmin, hmax⟩ := h.output
  have hk : -0x400 ≤ m.tOutput / 2 ^ 5 ∧ m.tOutput / 2 ^ 5 ≤ 0x3FF := by omega
  unfold modulatedPitch
  generalize m.tOutput / 2 ^ 5 = k at hk ⊢
  have hdown : -m.tPitch * 0x400 ≤ k * m.tPitch := by nlinarith
  have hup : k * m.tPitch ≤ m.tPitch * 0x3FF := by nlinarith
  split_ifs <;> omega

theorem konDelayDsp_ok (h : m.OkAt f pitch echo) (v : Voice) :
    (konDelayDsp m v).OkAt f (2 * pitch) echo := by
  have hmod := modulatedPitch_mem h v
  have hheader := h.brrHeader
  refine { h with
    brrHeader := ?_
    pitch := ?_ }
  · simp only [konDelayDsp]
    split_ifs <;> omega
  · simp only [konDelayDsp]
    split_ifs <;> omega

theorem konDelayVoice_ok (h : m.OkAt f pitch echo) {v : Voice} (hv : v.Ok i) :
    (konDelayVoice m v).Ok i := by
  have hnext := h.nextAddr
  unfold konDelayVoice
  by_cases hkon : v.konDelay = 0
  · rw [if_pos hkon]
    exact hv
  · rw [if_neg hkon]
    refine { hv with
      bufPos := ?_
      interpPos := ?_
      brrAddr := ?_
      brrOffset := ?_
      konDelay := (Nat.sub_le _ _).trans hv.konDelay
      env := by norm_num
      hiddenEnv := by norm_num } <;> dsimp only <;> split_ifs
    · exact .inl rfl
    · exact hv.bufPos
    · norm_num
    · norm_num
    · exact hnext
    · exact hv.brrAddr
    · exact .inl rfl
    · exact hv.brrOffset

theorem voiceKeys_ok {v : Voice} (hv : v.Ok i) : (voiceKeys m v).Ok i := by
  have henv := hv.env
  have hkon := hv.konDelay
  refine { hv with
    konDelay := ?_
    env := ?_ }
  · simp only [voiceKeys]
    split_ifs <;> omega
  · simp only [voiceKeys]
    split_ifs <;> omega

theorem voiceEnvelope_ok {v : Voice} (hv : v.Ok i) : (voiceEnvelope m v).Ok i := by
  have hout : Voice.Ok i { v with tEnvxOut := UInt8.ofInt (v.env / 2 ^ 4) } := { hv with }
  have hkeys := voiceKeys_ok (m := m) hout
  simp only [voiceEnvelope]
  split_ifs
  · exact runEnvelope_ok hkeys
  · exact hkeys

theorem voiceV3c_meets (h : m.OkAt f pitch echo) (hi : i < 8) :
    Meets (voiceV3c i m) (Dsp.OkAt f (2 * pitch) echo) := by
  have hv := konDelayVoice_ok h (h.voices i hi)
  have hm := konDelayDsp_ok h (m.voices i)
  refine (voiceSample_meets hv).bind fun output hout => Meets.pure ?_
  have hm' : Dsp.OkAt f (2 * pitch) echo { konDelayDsp m (m.voices i) with tOutput := output } :=
    { hm with output := hout }
  exact setVoice_ok hm' (voiceEnvelope_ok hv)

theorem voiceOutput_ok (h : m.OkAt f pitch echo) (v : Voice) (ch : ℕ) :
    (voiceOutput v ch m).OkAt f pitch echo := by
  refine { h with
    mainOut := fun c => ?_
    echoOut := fun c => ?_ }
  · simp only [voiceOutput, Function.update_apply]
    split_ifs
    · exact clamp16_mem _
    · exact h.mainOut c
  · simp only [voiceOutput]
    split_ifs
    · rw [Function.update_apply]
      split_ifs
      · exact clamp16_mem _
      · exact h.echoOut c
    · exact h.echoOut c

/-- A block ends where its offset is nine, so the assertion of V4 holds. -/
theorem nextBrr_meets (h : m.OkAt f pitch echo) {v : Voice} (hv : v.Ok i) :
    Meets (nextBrr m v) fun next => next.1.Ok i := by
  have hoffset := hv.brrOffset
  unfold nextBrr
  dsimp only
  split_ifs with hend hnine hloop
  · exact Meets.pure { hv with
      brrAddr := h.nextAddr
      brrOffset := .inl rfl }
  · exact Meets.pure { hv with
      brrAddr := by dsimp only; omega
      brrOffset := .inl rfl }
  · unfold brrBlockSize at hend hnine
    omega
  · refine Meets.pure { hv with brrOffset := ?_ }
    unfold brrBlockSize at hend
    dsimp only
    omega

theorem decodeStep_meets (h : m.OkAt f pitch echo) {v : Voice} (hv : v.Ok i) :
    Meets (decodeStep m v) fun next => next.1.Ok i := by
  unfold decodeStep
  split_ifs
  · exact (decodeBrr_meets hv).bind fun v' hv' => nextBrr_meets h hv'
  · exact Meets.pure hv

theorem applyPitch_ok (h : m.OkAt f pitch echo) {v : Voice} (hv : v.Ok i) :
    (applyPitch m v).Ok i := by
  obtain ⟨hlow, -⟩ := h.pitch
  refine { hv with interpPos := ?_ }
  simp only [applyPitch]
  split_ifs <;> omega

theorem voiceV4_meets (h : m.OkAt f pitch echo) (hi : i < 8) :
    Meets (voiceV4 i m) (Dsp.OkAt f pitch echo) := by
  refine (decodeStep_meets h (h.voices i hi)).bind fun next hnext => Meets.pure ?_
  have hm : Dsp.OkAt f pitch echo { m with tLooped := next.2 } := { h with }
  exact voiceOutput_ok (setVoice_ok hm (applyPitch_ok h hnext)) _ _

theorem voiceV5_ok (h : m.OkAt f pitch echo) : (voiceV5 i m).OkAt f pitch echo :=
  { voiceOutput_ok h (m.voices i) 1 with }

theorem voiceV6_ok (h : m.OkAt f pitch echo) : (voiceV6 i m).OkAt f pitch echo := { h with }

theorem voiceV7_ok (h : m.OkAt f pitch echo) : (voiceV7 i m).OkAt f pitch echo :=
  { setReg_ok h (fun hr => hr.1 rfl) m.endxBuf with }

theorem voiceV8_ok (h : m.OkAt f pitch echo) (hi : i < 8) : (voiceV8 i m).OkAt f pitch echo := by
  have hregs := (h.voices i hi).regs
  refine setReg_ok h (fun hr => hr.2.2 ?_) _
  rw [hregs]
  norm_num [vOutx, Nat.add_mod]

theorem voiceV9_ok (h : m.OkAt f pitch echo) (hi : i < 8) : (voiceV9 i m).OkAt f pitch echo := by
  have hregs := (h.voices i hi).regs
  refine setReg_ok h (fun hr => hr.2.1 ?_) _
  rw [hregs]
  norm_num [vEnvx, Nat.add_mod]

theorem voiceV3_meets (h : m.OkAt f 0xFF echo) (hi : i < 8) :
    Meets (voiceV3 i m) (Dsp.OkAt f 0x7FFE echo) :=
  (voiceV3b_meets (voiceV3a_ok h) hi).bind fun _ hm => voiceV3c_meets hm hi

end Steps

end SnesApu.Apu
