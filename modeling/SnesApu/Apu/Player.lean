import SnesApu.Apu.Output

/-!
# The player

Every history of calls keeps the player settled, and the samples that it hands
out are those the sound processor wrote, in their order and with none missing,
behind a few samples that were pending.
-/

namespace SnesApu.Apu

open General General.Width

/-- Between two calls four sample pairs are pending, or one pair more or less. -/
structure Settled (s : Spc) : Prop extends Rested s where
  extraClocks : 0 ≤ s.extraClocks ∧ s.extraClocks % clocksPerSample = 0
  pending : (s.extraBuf.length : ℤ) - 2 * ((s.spcTime + 4) / 32) = 8 ∨
    (s.extraBuf.length : ℤ) - 2 * ((s.spcTime + 4) / 32) = 10

section Play

variable {s : Spc} {count : ℕ} {n : Int32}

theorem Settled.lagPairs (h : Settled s) : (s.spcTime + 4) / 32 = 0 ∨ (s.spcTime + 4) / 32 = -1 := by
  have hlag := h.lag
  unfold cpuLagMax at hlag
  omega

theorem Settled.length_extraBuf (h : Settled s) :
    6 ≤ s.extraBuf.length ∧ s.extraBuf.length ≤ 10 ∧ s.extraBuf.length % 2 = 0 := by
  have hpending := h.pending
  have hpairs := h.lagPairs
  omega

/-- `set_output` for a buffer of `count` samples. -/
def started (s : Spc) (count : ℕ) : Spc :=
  { s.setDac (buffered s.extraBuf count) with
    extraClocks := s.extraClocks % clocksPerSample
    bufBegin := true }

theorem started_rested (h : Rested s) : Rested (started s count) := { h with }

theorem setOutput_started (h : Settled s) (hn : n.toInt.toNat = count) (heven : n.toInt % 2 = 0) :
    setOutput s true n = .ok (started s count) := by
  obtain ⟨hlow, hhigh, hbuf⟩ := h.length_extraBuf
  exact setOutput_buffered hn heven hbuf (by unfold extraSize; omega)

theorem frameClocks_mod (hcount : count % 2 = 0) : (count * (clocksPerSample / 2) : ℤ) % 32 = 0 := by
  norm_num [clocksPerSample]
  omega

theorem spcTime_lt_frame (h : Rested s) (hpos : count ≠ 0) :
    s.spcTime < count * (clocksPerSample / 2) := by
  have hlag := h.lag
  norm_num [clocksPerSample]
  omega

/-- The state after `save_extra`. -/
def saved (s : Spc) (all : List ℤ) (count : ℕ) : Spc := { s with extraBuf := all.drop count }

/-- Saving the extra samples of a frame that wrote the pairs `ps`. -/
theorem saveExtra_frame (h : Settled s) (hcount : count % 2 = 0) {r : Spc}
    (hr : Framed (started s count) (count * (clocksPerSample / 2)) r) {ps : List (ℤ × ℤ)}
    (hdac : r.dsp.dac = ps.foldl Dac.writeSamples (buffered s.extraBuf count))
    (hlength : (ps.length : ℤ) = (r.spcTime + 4) / 32 -
      (s.spcTime - count * (clocksPerSample / 2) + 4) / 32) :
    r.dsp.dac = buffered (s.extraBuf ++ flatten ps) count ∧
      count ≤ (s.extraBuf ++ flatten ps).length ∧
      saveExtra r = .ok (saved r (s.extraBuf ++ flatten ps) count) ∧
      Settled (saved r (s.extraBuf ++ flatten ps) count) := by
  have hpending := h.pending
  have hstart := h.lagPairs
  have hclocks := h.extraClocks
  have hend : (r.spcTime + 4) / 32 = 0 ∨ (r.spcTime + 4) / 32 = -1 := by
    have hlag := hr.lag
    unfold cpuLagMax at hlag
    omega
  have hframe : (s.spcTime - count * (clocksPerSample / 2) + 4) / 32 =
      (s.spcTime + 4) / 32 - count / 2 := by
    norm_num [clocksPerSample]
    omega
  obtain ⟨-, -, heven⟩ := h.length_extraBuf
  have hall : (s.extraBuf ++ flatten ps).length = s.extraBuf.length + 2 * ps.length := by
    rw [List.length_append, length_flatten]
  have hwritten := foldl_writeSamples_buffered ps heven hcount (by unfold extraSize; omega)
  have hrclocks : r.extraClocks = count * 16 := by
    rw [hr.extraClocks]
    dsimp only [started]
    rw [hclocks.2]
    norm_num [clocksPerSample]
  have hsamples : sampleCount r = count := by
    unfold sampleCount
    rw [hrclocks]
    omega
  have hfull : count ≤ (s.extraBuf ++ flatten ps).length := by omega
  refine ⟨hdac.trans hwritten, hfull,
    saveExtra_buffered (hdac.trans hwritten) hsamples hfull (by unfold extraSize; omega),
    { hr with extraClocks := ?_, pending := ?_ }⟩
  · dsimp only [saved]
    rw [hrclocks]
    norm_num [clocksPerSample]
    omega
  · dsimp only [saved]
    rw [List.length_drop]
    omega

theorem played_settled {r : Spc} (h : Settled r) (samples : List ℤ) :
    Settled (played r samples).spc := { h with }

theorem started_framed (h : Settled s) (hcount : count % 2 = 0) (hpos : count ≠ 0) :
    Within OnlyMemory (catchUpTo (started s count) (count * (clocksPerSample / 2)))
      (Framed (started s count) (count * (clocksPerSample / 2))) :=
  catchUpTo_framed (started_rested h.toRested)
    (spcTime_lt_frame (started_rested h.toRested) hpos) (frameClocks_mod hcount)

/-- A count that `play` can handle, as a number. -/
theorem frameCount_toNat (h : FrameCount n) :
    n.toInt = n.toInt.toNat ∧ n.toInt.toNat % 2 = 0 ∧
      Fits 32 (n.toInt.toNat * (clocksPerSample / 2)) := by
  obtain ⟨⟨hnonneg, heven⟩, hlt⟩ := h
  have hclocks : (clocksPerSample / 2 : ℤ) = 16 := rfl
  have hnat : (n.toInt.toNat : ℤ) = n.toInt := Int.toNat_of_nonneg hnonneg
  rw [hclocks, hnat]
  exact ⟨rfl, by omega, (fits_clocks_iff hnonneg).mpr hlt⟩

theorem frameCount_eq_zero (h : FrameCount n) (hzero : n.toInt.toNat = 0) : n = 0 := by
  apply Int32.toInt_inj.mp
  rw [(frameCount_toNat h).1, hzero]
  rfl

/-- `play` past its checks. -/
theorem play_of_fits (hn : n.toInt = count) (hcount : count % 2 = 0) (hpos : count ≠ 0)
    (hfits : Fits 32 (count * (clocksPerSample / 2))) (out : Bool) :
    play s n out = setOutput s out n >>= fun r =>
      endFrame r (count * (clocksPerSample / 2)) >>= fun r =>
        pure (played r r.dsp.dac.main) := by
  have hne : n ≠ 0 := by
    rintro rfl
    exact hpos (by simpa using hn.symm)
  unfold play
  rw [hn, if_neg (by omega), if_neg hne]
  simp only [if_pos hfits]

theorem play_eq (h : Settled s) (hn : n.toInt = count) (hcount : count % 2 = 0) (hpos : count ≠ 0)
    (hfits : Fits 32 (count * (clocksPerSample / 2))) :
    play s n true =
      catchUpTo (started s count) (count * (clocksPerSample / 2)) >>= fun r =>
        (if r.bufBegin then saveExtra r else pure r) >>= fun r =>
          pure (played r r.dsp.dac.main) := by
  have hout : setOutput s true n = .ok (started s count) :=
    setOutput_started h (by omega) (by omega)
  rw [play_of_fits hn hcount hpos hfits, hout]
  exact bind_assoc (catchUpTo (started s count) _) _ _

/-- A call with a buffer fills it. -/
theorem play_settled (h : Settled s) (hn : FrameCount n) :
    Within OnlyMemory (play s n true) fun r =>
      Settled r.spc ∧ r.samples.length = n.toInt.toNat := by
  obtain ⟨hnat, hcount, hfits⟩ := frameCount_toNat hn
  by_cases hpos : n.toInt.toNat = 0
  · obtain rfl := frameCount_eq_zero hn hpos
    exact ⟨{ h with }, rfl⟩
  · rw [play_eq h hnat hcount hpos hfits]
    refine (started_framed h hcount hpos).bind fun r hr => ?_
    obtain ⟨ps, hdac, hlength⟩ := hr.output
    obtain ⟨hbuffered, hfull, hsaved, hsettled⟩ := saveExtra_frame h hcount hr hdac hlength
    have hbegin : r.bufBegin = true := hr.bufBegin
    rw [if_pos hbegin, hsaved]
    refine ⟨played_settled hsettled _, ?_⟩
    dsimp only [played, saved]
    rw [hbuffered, buffered, if_pos hfull, List.length_take, min_eq_left hfull]

/-- `set_output` without a buffer. -/
def silenced (s : Spc) : Spc := resetBuf { s with extraClocks := s.extraClocks % clocksPerSample }

theorem silenced_rested (h : Rested s) : Rested (silenced s) := { h with }

theorem setOutput_silenced (heven : n.toInt % 2 = 0) : setOutput s false n = .ok (silenced s) := by
  unfold setOutput
  rw [if_neg (by omega)]
  rfl

theorem skip_eq (hn : n.toInt = count) (hcount : count % 2 = 0) (hpos : count ≠ 0)
    (hfits : Fits 32 (count * (clocksPerSample / 2))) :
    skip s n =
      catchUpTo (silenced s) (count * (clocksPerSample / 2)) >>= fun r =>
        (if r.bufBegin then saveExtra r else pure r) >>= fun r =>
          pure (played r r.dsp.dac.main) := by
  rw [skip, play_of_fits hn hcount hpos hfits, setOutput_silenced (by omega)]
  exact bind_assoc (catchUpTo (silenced s) _) _ _

/-- A call without one throws the frame away and leaves four pairs of silence. -/
theorem skip_settled (h : Settled s) (hn : FrameCount n) :
    Within OnlyMemory (skip s n) fun r => Settled r.spc ∧
      (n ≠ 0 → r.spc.extraBuf = List.replicate 8 0) := by
  obtain ⟨hnat, hcount, hfits⟩ := frameCount_toNat hn
  generalize n.toInt.toNat = count at hnat hcount hfits
  by_cases hpos : count = 0
  · obtain rfl : n = 0 := Int32.toInt_inj.mp (by rw [hnat, hpos]; rfl)
    exact ⟨{ h with }, fun hne => absurd rfl hne⟩
  · rw [skip_eq hnat hcount hpos hfits]
    refine (catchUpTo_framed (silenced_rested h.toRested)
      (spcTime_lt_frame (silenced_rested h.toRested) hpos) (frameClocks_mod hcount)).bind
      fun r hr => ?_
    have hbegin : r.bufBegin = false := hr.bufBegin
    have hbuf : r.extraBuf = List.replicate 8 0 := hr.extraBuf
    have hclocks : r.extraClocks = s.extraClocks % 32 + count * (clocksPerSample / 2) :=
      hr.extraClocks
    have hmod := frameClocks_mod hcount
    have hlag := hr.lag
    unfold cpuLagMax at hlag
    rw [hbegin, if_neg Bool.false_ne_true]
    refine ⟨{ hr with extraClocks := ?_, pending := ?_ }, fun _ => hbuf⟩
    · have hold := h.extraClocks
      dsimp only [played]
      norm_num [clocksPerSample] at hold hclocks ⊢
      omega
    · dsimp only [played]
      rw [hbuf, List.length_replicate]
      omega

end Play

/-! ### Other calls -/

section Calls

variable {s : Spc}

theorem enableRom_eq (s : Spc) (enable : Bool) : ∃ ram hiRam, enableRom s enable =
    { s.setRam ram with
      romEnabled := enable
      hiRam := hiRam } := by
  unfold enableRom
  split
  · exact ⟨_, _, rfl⟩
  · rename_i hsame
    obtain rfl : s.romEnabled = enable := not_not.mp hsame
    exact ⟨s.ram, s.hiRam, rfl⟩

theorem setTempo_prescaler (s : Spc) (t : ℤ) (i : Fin 3) : 0 < ((setTempo s t).timers i).prescaler := by
  unfold setTempo
  dsimp only
  generalize (16 * tempoUnit + (if t = 0 then 1 else t) / 2).tdiv (if t = 0 then 1 else t) = rate
  split_ifs
  all_goals omega

theorem setTempo_settled (h : Settled s) (t : ℤ) : Settled (setTempo s t) := by
  refine { h with timers := fun i => ?_ }
  exact { h.timers i with prescaler_pos := setTempo_prescaler s t i }

theorem timersLoaded_valid (h : ∀ i, (s.timers i).divider = 0) (i : Fin 3) :
    ((timersLoaded s).timers i).Valid := by
  obtain ⟨hlow, hhigh⟩ := ifZeroThen256_mem (s.regs (rT0target + i)).toNat
  have hdivider : ((timersLoaded s).timers i).divider = 0 := h i
  exact {
    prescaler_pos := setTempo_prescaler _ _ i
    period_pos := hlow
    period_le := hhigh
    divider_nonneg := hdivider.ge
    divider_lt := by
      rw [hdivider]
      norm_num
    counter_nonneg := Int.natCast_nonneg _
    counter_lt := by
      have : ((timersLoaded s).timers i).counter =
          (((s.regsIn (rT0out + i)).toNat % 16 : ℕ) : ℤ) := rfl
      omega }

/-- The times and the output as `reset_time_regs` leaves them. -/
structure Fresh (s : Spc) : Prop where
  timers : ∀ i, (s.timers i).Valid
  dspTime : s.dspTime = 0
  spcTime : s.spcTime = 0
  extraClocks : s.extraClocks = 0
  extraBuf : s.extraBuf = List.replicate 8 0

/-- All that `reset_time_regs` does, but for what `enable_rom` makes of the memory. -/
theorem resetTimeRegs_eq (s : Spc) : ∃ ram hiRam,
    resetTimeRegs s = resetBuf { timersLoaded { s.setRam ram with
      cpuError := false
      spcTime := 0
      dspTime := 0
      timers := fun i => { s.timers i with nextTime := 1, divider := 0 }
      romEnabled := bit (s.regs rControl).toNat 7
      hiRam := hiRam } with extraClocks := 0 } := by
  unfold resetTimeRegs regsLoaded
  dsimp only
  generalize bit _ 7 = enable
  obtain ⟨ram, hiRam, hrom⟩ := enableRom_eq
    { s with
      cpuError := false
      spcTime := 0
      dspTime := 0
      timers := fun i => { s.timers i with nextTime := 1, divider := 0 } } enable
  rw [hrom]
  exact ⟨ram, hiRam, rfl⟩

/-- What `reset_time_regs` leaves alone. -/
theorem resetTimeRegs_keeps (s : Spc) : (resetTimeRegs s).cpuRegs = s.cpuRegs ∧
    (resetTimeRegs s).regs = s.regs ∧ (resetTimeRegs s).regsIn = s.regsIn ∧
    (resetTimeRegs s).dsp.state.regs = s.dsp.state.regs ∧ (resetTimeRegs s).tempo = s.tempo := by
  obtain ⟨ram, hiRam, heq⟩ := resetTimeRegs_eq s
  rw [heq]
  exact ⟨rfl, rfl, rfl, rfl, rfl⟩

theorem resetTimeRegs_fresh (s : Spc) : Fresh (resetTimeRegs s) ∧
    ∃ ram, (resetTimeRegs s).dsp = ⟨{ s.dsp.state with ram := ram }, s.dsp.phase, nullDac⟩ := by
  obtain ⟨ram, hiRam, heq⟩ := resetTimeRegs_eq s
  rw [heq]
  exact ⟨⟨timersLoaded_valid fun i => rfl, rfl, rfl, rfl, rfl⟩, ram, rfl⟩

theorem Fresh.settled (h : Fresh s) (hdsp : ∃ f : DspFrame, s.dsp.Safe f) (hphase : s.dsp.phase = 0) :
    Settled s := by
  have htime := h.spcTime
  exact {
    timers := h.timers
    dsp := hdsp
    dspTime := h.dspTime
    lag := by
      unfold cpuLagMax
      omega
    phase := by omega
    extraClocks := by
      rw [h.extraClocks]
      exact ⟨le_rfl, rfl⟩
    pending := by
      rw [h.extraBuf, htime]
      exact .inl rfl }

/-- The machine before `reset_time_regs`. -/
def filled (s : Spc) (data : Bytes) : Spc :=
  let regs : CpuRegs := {
    pc := (byteAt data 0x26).toUInt16 * 0x100 + (byteAt data 0x25).toUInt16
    a := byteAt data 0x27
    x := byteAt data 0x28
    y := byteAt data 0x29
    psw := byteAt data 0x2A
    sp := byteAt data 0x2B }
  let ram := fun addr => if addr < 0x10000 then byteAt data (0x100 + addr) else s.ram addr
  (ramLoaded ({ s with cpuRegs := regs }.setRam ram)).loadDsp fun r => byteAt data (0x10100 + r)

theorem loadState_filled (s : Spc) (data : Bytes) : loadState s data = resetTimeRegs (filled s data) := rfl

theorem load_dsp_safe (d : SpcDsp) (regs : ℕ → UInt8) : ∃ f : DspFrame, (d.load regs).Safe f :=
  ⟨_, loaded_safe d.state regs d.dac 0xFF (toNat_le_255 _) le_rfl⟩

theorem loadDsp_settled (s : Spc) (regs : ℕ → UInt8) :
    Settled (resetTimeRegs (s.loadDsp regs)) := by
  obtain ⟨hfresh, ram, hdsp⟩ := resetTimeRegs_fresh (s.loadDsp regs)
  obtain ⟨f, hlt, hf⟩ := load_dsp_safe s.dsp regs
  refine hfresh.settled ?_ (congrArg SpcDsp.phase hdsp)
  rw [hdsp]
  exact ⟨f.setRam ram, hlt, setRam_safe hf ram⟩

theorem loadState_settled (s : Spc) (data : Bytes) : Settled (loadState s data) :=
  loadDsp_settled _ _

theorem loadSpc_accepted (s : Spc) {data : Bytes} (h : Accepted data) :
    loadSpc s data = (loadState s data, none) := by
  have herror : loadError data = none := h
  unfold loadSpc
  rw [herror]

theorem loadSpc_settled (h : Settled s) (data : Bytes) : Settled (loadSpc s data).1 := by
  unfold loadSpc
  split
  · exact h
  · exact loadState_settled s data

theorem reset_settled (s : Spc) : Settled (reset s) := by
  have hcommon : ∀ t : Spc, Fresh (resetCommon t 0x0F) := fun t => (resetTimeRegs_fresh _).1
  have h := hcommon (ramLoaded (s.setRam fun addr => if addr < 0x10000 then 0xFF else s.ram addr))
  exact Fresh.settled ⟨h.timers, h.dspTime, h.spcTime, h.extraClocks, h.extraBuf⟩
    (load_dsp_safe _ _) rfl

theorem clearEcho_settled (h : Settled s) : Settled (clearEcho s) := by
  unfold clearEcho
  dsimp only
  split_ifs
  · obtain ⟨f, hlt, hf⟩ := h.dsp
    exact { h with dsp := ⟨f.setRam _, hlt, setRam_safe hf _⟩ }
  · exact h

theorem muteVoices_settled (h : Settled s) (mask : UInt8) : Settled (muteVoices s mask) := by
  obtain ⟨f, hlt, hf⟩ := h.dsp
  exact { h with dsp := ⟨{ f with muteMask := mask }, hlt, { hf with muteMask := rfl }⟩ }

end Calls

end SnesApu.Apu
