import SnesApu.Apu.Player

/-!
# A stopped CPU

Once the CPU stands at an instruction that stops it, with a directory inside the
memory and no echo written, the sound processor goes on by itself: every call of
the player succeeds and leaves the machine so.
-/

namespace SnesApu.Apu

open General

/-- The CPU is at a stop, and the sound processor can neither fail nor store. -/
structure Halted (s : Spc) : Prop where
  stopped : Stopped (runFunc s 0)
  dsp : ∃ f : DspFrame, f.dirMax ≤ 0xFD ∧ s.dsp.Safe f
  echoOff : EchoOff s.dsp.phase s.dsp.state

section Frames

variable {s r : Spc} {endTime : ℤ}

theorem runDsp_halted (h : Halted s) {time : ℤ} (hlt : s.dspTime < time) :
    ∃ r, runDsp s time = .ok r ∧ Halted r ∧
      s.dsp.run (time - s.dspTime).toNat = .ok r.dsp := by
  obtain ⟨f, hdir, hphase, hf⟩ := h.dsp
  obtain ⟨result, hresult⟩ := runFrom_meets (n := (time - s.dspTime).toNat) hphase hf hdir
  have hrun : s.dsp.run (time - s.dspTime).toNat = .ok
      ⟨result.1, (s.dsp.phase + (time - s.dspTime).toNat) % 32,
        result.2.foldl Dac.writeSamples s.dsp.dac⟩ := by
    rw [SpcDsp.run, hresult]
    rfl
  obtain ⟨hoff, hram⟩ := echoOff_run hphase hf h.echoOff hresult
  refine ⟨_, by rw [runDsp, if_pos (by omega), hrun], ?_, hrun⟩
  exact {
    stopped := by
      have hstopped := h.stopped
      unfold Stopped Running.opcode runFunc Spc.shift Spc.ram at hstopped ⊢
      dsimp only at hstopped ⊢
      rw [hram]
      exact hstopped
    dsp := ⟨f.setRam result.1.ram, hdir, run_safe ⟨hphase, hf⟩ hrun⟩
    echoOff := hoff }

/-- The first turn of the loop leaves it. -/
theorem runUntil_halted (h : Halted s) (hle : s.spcTime ≤ endTime) :
    ∃ r, runUntil_ s endTime = .ok r ∧ r.dsp = s.dsp ∧
      r.dspTime = s.dspTime + (s.spcTime - endTime) ∧ Halted r := by
  have hturn : turn (runFunc s endTime) = .ok (.inr (runFunc s endTime).halt) :=
    turn_stopped h.stopped (by dsimp only [runFunc]; omega)
  have hloop : iterate turn Fault.fuel (turns (s.spcTime - endTime)) (runFunc s endTime) =
      .ok (runFunc s endTime).halt := by
    rw [turns, iterate, hturn]
  unfold runUntil_
  dsimp only
  rw [if_neg (by omega), hloop]
  refine ⟨_, if_pos (by dsimp only [Running.halt, runFunc]; omega), rfl, ?_, { h with }⟩
  change s.dspTime + (s.spcTime - endTime) + -0 = _
  ring

/-- The frame of a stopped CPU is a run of the sound processor. -/
theorem catchUpTo_halted (h : Halted s) (hs : Rested s) (hlt : s.spcTime < endTime)
    (hend : endTime % 32 = 0) : ∃ r, catchUpTo s endTime = .ok r ∧ Halted r ∧
      s.dsp.run (endTime - s.spcTime).toNat = .ok r.dsp := by
  obtain ⟨q, hq, hdsp, htime, hhalted⟩ := runUntil_halted h hlt.le
  have hready := runUntil_ready hs hlt.le hend
  rw [hq] at hready
  obtain ⟨-, hlow, hhigh⟩ := hready
  unfold catchUpTo catchUpCpu
  rw [if_pos hlt, hq]
  unfold catchUpRest
  dsimp only [bind, Except.bind]
  rw [if_pos ⟨hlow, by omega⟩]
  have hlate : q.dspTime < 0 := by
    rw [htime, hs.dspTime]
    omega
  have hclocks : 0 - q.dspTime = endTime - s.spcTime := by
    rw [htime, hs.dspTime]
    ring
  rw [if_pos hlate, ← hdsp, ← hclocks]
  refine runDsp_halted ?_ hlate
  exact { hhalted with }

end Frames

section Calls

variable {s : Spc} {n : Int32}

theorem play_halted (hs : Settled s) (h : Halted s) (hn : FrameCount n) :
    ∃ r, play s n true = .ok r ∧ Settled r.spc ∧ Halted r.spc := by
  obtain ⟨hnat, hcount, hfits⟩ := frameCount_toNat hn
  by_cases hpos : n.toInt.toNat = 0
  · obtain rfl := frameCount_eq_zero hn hpos
    exact ⟨_, rfl, { hs with }, { h with }⟩
  · obtain ⟨q, hq, hhalted, -⟩ := catchUpTo_halted (s := started s n.toInt.toNat) { h with }
      (started_rested hs.toRested) (spcTime_lt_frame (started_rested hs.toRested) hpos)
      (frameClocks_mod hcount)
    have hframed := started_framed hs hcount hpos
    rw [hq, within_ok] at hframed
    obtain ⟨ps, hdac, hlength⟩ := hframed.output
    obtain ⟨-, -, hsaved, hsettled⟩ := saveExtra_frame hs hcount hframed hdac hlength
    have hbegin : q.bufBegin = true := hframed.bufBegin
    rw [play_eq hs hnat hcount hpos hfits, hq]
    dsimp only [bind, Except.bind]
    rw [if_pos hbegin, hsaved]
    exact ⟨_, rfl, played_settled hsettled _, { hhalted with }⟩

theorem skip_halted (hs : Settled s) (h : Halted s) (hn : FrameCount n) :
    ∃ r, skip s n = .ok r ∧ Settled r.spc ∧ Halted r.spc := by
  have hskip := skip_settled hs hn
  obtain ⟨hnat, hcount, hfits⟩ := frameCount_toNat hn
  by_cases hpos : n.toInt.toNat = 0
  · obtain rfl := frameCount_eq_zero hn hpos
    exact ⟨_, rfl, { hs with }, { h with }⟩
  · obtain ⟨q, hq, hhalted, -⟩ := catchUpTo_halted (s := silenced s) { h with }
      (silenced_rested hs.toRested) (spcTime_lt_frame (silenced_rested hs.toRested) hpos)
      (frameClocks_mod hcount)
    have hbegin : q.bufBegin = false := by
      have hframed := catchUpTo_framed (silenced_rested hs.toRested)
        (spcTime_lt_frame (silenced_rested hs.toRested) hpos) (frameClocks_mod hcount)
      rw [hq, within_ok] at hframed
      exact hframed.bufBegin
    have hrun : skip s n = .ok (played q q.dsp.dac.main) := by
      rw [skip_eq hnat hcount hpos hfits, hq]
      dsimp only [bind, Except.bind]
      rw [hbegin, if_neg Bool.false_ne_true]
      rfl
    rw [hrun, within_ok] at hskip
    exact ⟨_, hrun, hskip.1, { hhalted with }⟩

theorem clearEcho_halted (h : Halted s) : clearEcho s = s := by
  unfold clearEcho
  exact if_neg h.echoOff.1

theorem muteVoices_halted (h : Halted s) (mask : UInt8) : Halted (muteVoices s mask) := by
  obtain ⟨f, hdir, hlt, hf⟩ := h.dsp
  exact { h with dsp := ⟨{ f with muteMask := mask }, hdir, hlt, { hf with muteMask := rfl }⟩ }

end Calls

/-! ### Songs -/

/-- The program counter that a file loads. -/
def filePc (data : Bytes) : UInt16 :=
  (byteAt data 0x26).toUInt16 * 0x100 + (byteAt data 0x25).toUInt16

/-- A file whose CPU stands at SLEEP or STOP, below the ROM. -/
structure StoppedSong (data : Bytes) : Prop where
  accepted : Accepted data
  low : (filePc data).toNat < romAddr
  stop : decode (byteAt data (0x100 + (filePc data).toNat)) = .sleep ∨
    decode (byteAt data (0x100 + (filePc data).toNat)) = .stop
  dir : (byteAt data (0x10100 + rDir)).toNat ≤ 0xFD
  echoOff : byteAt data (0x10100 + rFlg) &&& 0x20 ≠ 0

section Songs

theorem enableRom_low (s : Spc) (enable : Bool) {addr : ℕ} (h : addr < romAddr) :
    (enableRom s enable).ram addr = s.ram addr := by
  unfold enableRom
  split
  · exact if_neg (by omega)
  · rfl

theorem loadState_low (s : Spc) (data : Bytes) {addr : ℕ} (h : addr < romAddr) :
    (loadState s data).ram addr = byteAt data (0x100 + addr) := by
  have hlt : addr < 0x10000 := by
    unfold romAddr at h
    omega
  refine (enableRom_low _ _ h).trans ?_
  exact (if_pos hlt).trans (if_pos hlt)

theorem loadState_halted (s : Spc) {data : Bytes} (h : StoppedSong data) :
    Halted (loadState s data) := by
  have hpc : (loadState s data).cpuRegs.pc = filePc data :=
    congrArg CpuRegs.pc (resetTimeRegs_keeps _).1
  have hopcode : (runFunc (loadState s data) 0).opcode =
      byteAt data (0x100 + (filePc data).toNat) := by
    rw [← loadState_low s data h.low, ← hpc]
    rfl
  obtain ⟨-, ram, hdsp⟩ := resetTimeRegs_fresh (filled s data)
  rw [← loadState_filled] at hdsp
  obtain ⟨hlt, hf⟩ := loaded_safe (filled s data).dsp.state (fun r => byteAt data (0x10100 + r))
    (filled s data).dsp.dac 0xFD h.dir (by norm_num)
  exact {
    stopped := by
      unfold Stopped
      rw [hopcode]
      refine h.stop.imp id fun hstop => ⟨hstop, fun hnext => ?_⟩
      have hlow := h.low
      have hzero : ((filePc data) + 1).toNat = 0 := by
        rw [← hpc]
        exact congrArg UInt16.toNat hnext
      rw [UInt16.toNat_add] at hzero
      unfold romAddr at hlow
      change ((filePc data).toNat + 1) % 65536 = 0 at hzero
      omega
    dsp := by
      rw [hdsp]
      exact ⟨_, le_rfl, hlt, setRam_safe hf ram⟩
    echoOff := by
      rw [hdsp]
      refine ⟨h.echoOff, fun hphase => ?_⟩
      exact absurd hphase (by simp [filled, Spc.loadDsp, SpcDsp.load]) }

end Songs

/-! ### A song that only echoes -/

def echoSongHeader : Bytes :=
  signature ++ [27, 30, 0x00, 0x02, 0x11, 0x22, 0x33, 0x02, 0xEF] ++ List.replicate 212 0

/-- The memory below the program counter, with the registers at `$F0`. -/
def echoSongLow : Bytes :=
  List.replicate 0xF0 0 ++
    [0x0A, 0xB1, 0x6C, 0, 1, 2, 3, 4, 5, 6, 0x10, 0, 0x20, 0xFA, 0xFB, 0xFC] ++
    List.replicate 0x100 0

/-- From there on it is all STOP. -/
def echoSongRam : Bytes := echoSongLow ++ List.replicate 0xFE00 0xFF

/-- The echo is read at `$200`, filtered and played, but not stored. -/
def echoSongReg (r : ℕ) : UInt8 :=
  if r = rFlg then 0x20
  else if r = rEsa then 0x02
  else if r = rEvoll ∨ r = rEvoll + 0x10 ∨ r % 16 = rFir then 0x7F
  else 0

def echoSong : Bytes := echoSongHeader ++ echoSongRam ++ (List.range 0x80).map echoSongReg

theorem length_echoSongHeader : echoSongHeader.length = 0x100 := by
  have hsignature : signature.length = 35 := by decide
  simp only [echoSongHeader, List.length_append, List.length_replicate, hsignature,
    List.length_cons, List.length_nil]

theorem length_echoSongLow : echoSongLow.length = 0x200 := by
  simp only [echoSongLow, List.length_append, List.length_replicate, List.length_cons,
    List.length_nil]

theorem length_echoSongRam : echoSongRam.length = 0x10000 := by
  rw [echoSongRam, List.length_append, length_echoSongLow, List.length_replicate]

theorem echoSong_dsp {r : ℕ} (h : r < 0x80) :
    byteAt echoSong (0x10100 + r) = echoSongReg r := by
  have hlength : (echoSongHeader ++ echoSongRam).length = 0x10100 := by
    rw [List.length_append, length_echoSongHeader, length_echoSongRam]
  rw [byteAt, echoSong, List.getD_append_right _ _ _ _ (by omega), hlength,
    Nat.add_sub_cancel_left]
  simp [List.getD_eq_getElem?_getD, h]

theorem echoSong_ram {addr : ℕ} (h : addr < 0x10000) :
    byteAt echoSong (0x100 + addr) =
      if addr < 0x200 then echoSongLow.getD addr 0 else 0xFF := by
  have hfront : (echoSongHeader ++ echoSongRam).length = 0x10100 := by
    rw [List.length_append, length_echoSongHeader, length_echoSongRam]
  rw [byteAt, echoSong, List.getD_append _ _ _ _ (by omega),
    List.getD_append_right _ _ _ _ (by rw [length_echoSongHeader]; omega), length_echoSongHeader,
    Nat.add_sub_cancel_left, echoSongRam]
  split_ifs with hlow
  · rw [List.getD_append _ _ _ _ (by rw [length_echoSongLow]; exact hlow)]
  · rw [List.getD_append_right _ _ _ _ (by rw [length_echoSongLow]; omega), length_echoSongLow,
      List.getD_replicate _ (by omega)]

theorem echoSong_stopped : StoppedSong echoSong where
  accepted := by
    have hhead : 27 ≤ signature.length := by decide
    refine accepted_iff.mpr ⟨?_, ?_⟩
    · rw [slice, List.drop_zero, echoSong, echoSongHeader]
      simp only [List.append_assoc, List.take_append_of_le_length hhead]
    · rw [echoSong, List.length_append, List.length_append, length_echoSongHeader,
        length_echoSongRam]
      simp [spcMinFileSize]
  low := by decide +kernel
  stop := by
    have hpc : (filePc echoSong).toNat = 0x200 := by decide +kernel
    rw [hpc, echoSong_ram (by norm_num), if_neg (by norm_num)]
    exact .inr rfl
  dir := by
    rw [echoSong_dsp (by decide)]
    decide
  echoOff := by
    rw [echoSong_dsp (by decide)]
    decide

end SnesApu.Apu
