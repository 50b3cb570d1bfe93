import SnesApu.Apu.RunSafety

/-!
# Frames and the output buffers

`Settled` is the state between two frames. A frame never fails an assertion: the
CPU stops within one instruction of its end, the timers and the sound processor
are caught up, and the samples that no longer fit the client's buffer are kept
for the next one. `buffered` is what the two output areas hold together.
-/

namespace SnesApu.Apu

open General

/-- Timers and sound processor between frames, whatever becomes of the output. -/
structure Rested (s : Spc) : Prop where
  timers : ∀ i, (s.timers i).Valid
  dsp : ∃ f : DspFrame, s.dsp.Safe f
  dspTime : s.dspTime = 0
  lag : -cpuLagMax ≤ s.spcTime ∧ s.spcTime ≤ 0
  phase : (s.spcTime - s.dsp.phase) % 32 = 0

/-- A frame of `endTime` clocks leads from `s` to `r`. -/
structure Framed (s : Spc) (endTime : ℤ) (r : Spc) : Prop extends Rested r where
  output : ∃ ps : List (ℤ × ℤ), r.dsp.dac = ps.foldl Dac.writeSamples s.dsp.dac ∧
    (ps.length : ℤ) = (r.spcTime + 4) / 32 - (s.spcTime - endTime + 4) / 32
  extraClocks : r.extraClocks = s.extraClocks + endTime
  bufBegin : r.bufBegin = s.bufBegin
  extraBuf : r.extraBuf = s.extraBuf

section Frames

variable {s : Spc} {endTime : ℤ}

theorem shift_valid {t : Timer} (h : t.Valid) (time : ℤ) : (t.setNextTime time).Valid := { h with }

theorem start_ready (h : Rested s) (hle : s.spcTime ≤ endTime) (hend : endTime % 32 = 0) :
    ReadyRun (runFunc s endTime).spc 0 ((s.spcTime - endTime + 4) / 32) (runFunc s endTime) := by
  have hphase := h.phase
  have hzero := h.dspTime
  refine ⟨?_, by dsimp only [runFunc]; omega⟩
  exact {
    timers := fun i => shift_valid (h.timers i) _
    dsp := h.dsp
    phase := by
      dsimp only [runFunc, Spc.shift]
      omega
    time := by
      dsimp only [runFunc, Spc.shift]
      omega
    output := ⟨[], rfl, by
      dsimp only [runFunc, Spc.shift]
      rw [hzero]
      simp⟩
    spcTime := rfl
    extraClocks := rfl
    bufBegin := rfl
    extraBuf := rfl }

/-- The CPU stops less than one instruction before the time it is run until. -/
theorem runUntil_ready (h : Rested s) (hle : s.spcTime ≤ endTime) (hend : endTime % 32 = 0) :
    Within OnlyMemory (runUntil_ s endTime) fun r =>
      Ready { s with spcTime := r.spcTime } (r.spcTime - endTime)
        ((s.spcTime - endTime + 4) / 32) 0 r ∧
      -cpuLagMax ≤ r.spcTime - endTime ∧ r.spcTime ≤ endTime := by
  have hstart := start_ready h hle hend
  unfold runUntil_
  dsimp only
  rw [if_neg (by omega)]
  refine (iterate_turn_ready hstart).bind fun r hr => ?_
  obtain ⟨hready, hlow, hhigh⟩ := hr
  have htime := hready.spcTime
  have hdsp := hready.time
  unfold runFuncEnd
  dsimp only [runFunc, Spc.shift] at htime ⊢
  rw [if_pos (by omega), within_ok]
  refine ⟨?_, by dsimp only; omega, by dsimp only; omega⟩
  obtain ⟨ps, hdac, hlength⟩ := hready.output
  have hphase := hready.phase
  exact {
    timers := fun i => shift_valid (hready.timers i) _
    dsp := hready.dsp
    phase := by
      dsimp only
      omega
    time := by
      dsimp only
      omega
    output := ⟨ps, hdac, by
      rw [hlength]
      dsimp only
      congr 2
      omega⟩
    spcTime := rfl
    extraClocks := hready.extraClocks
    bufBegin := hready.bufBegin
    extraBuf := hready.extraBuf }

/-- What is left to do once the CPU has run. -/
theorem settle_framed {r : Spc} (hready : Ready { s with spcTime := r.spcTime }
      (r.spcTime - endTime) ((s.spcTime - endTime + 4) / 32) 0 r)
    (hlow : -cpuLagMax ≤ r.spcTime - endTime) (hhigh : r.spcTime ≤ endTime)
    (timers : Fin 3 → Timer) (htimers : ∀ i, (timers i).Valid) :
    Within OnlyMemory
      (if r.dspTime < 0 then
        runDsp { r with
          spcTime := r.spcTime - endTime
          extraClocks := r.extraClocks + endTime
          timers := timers } 0
      else .ok { r with
        spcTime := r.spcTime - endTime
        extraClocks := r.extraClocks + endTime
        timers := timers })
      (Framed s endTime) := by
  have hlag : -cpuLagMax ≤ r.spcTime - endTime ∧ r.spcTime - endTime ≤ 0 := ⟨hlow, by omega⟩
  have hclocks := hready.extraClocks
  split_ifs with hlate
  · have htight : Ready
        { s with spcTime := r.spcTime - endTime, extraClocks := s.extraClocks + endTime }
        (r.spcTime - endTime) ((s.spcTime - endTime + 4) / 32) r.dspTime
        { r with
          spcTime := r.spcTime - endTime
          extraClocks := r.extraClocks + endTime
          timers := timers } :=
      { hready.mono le_rfl with
        timers := htimers
        spcTime := rfl
        extraClocks := by
          dsimp only at hclocks ⊢
          rw [hclocks] }
    refine (runDsp_ready htight hlate).mono fun q hq => ?_
    obtain ⟨hzero, hq⟩ := hq
    obtain ⟨ps, hdac, hlength⟩ := hq.output
    have hphase := hq.phase
    have htime := hq.spcTime
    rw [hzero] at hphase hlength
    dsimp only at htime
    exact {
      timers := hq.timers
      dsp := hq.dsp
      dspTime := hzero
      lag := by rw [htime]; exact hlag
      phase := by
        rw [htime]
        simpa using hphase
      output := ⟨ps, hdac, by
        rw [htime]
        simpa using hlength⟩
      extraClocks := hq.extraClocks
      bufBegin := hq.bufBegin
      extraBuf := hq.extraBuf }
  · have htime := hready.time
    have hzero : r.dspTime = 0 := by omega
    obtain ⟨ps, hdac, hlength⟩ := hready.output
    have hphase := hready.phase
    rw [hzero] at hphase hlength
    exact {
      timers := htimers
      dsp := hready.dsp
      dspTime := hzero
      lag := hlag
      phase := by simpa using hphase
      output := ⟨ps, hdac, by simpa using hlength⟩
      extraClocks := by
        dsimp only at hclocks ⊢
        rw [hclocks]
      bufBegin := hready.bufBegin
      extraBuf := hready.extraBuf }

theorem catchUpTo_framed (h : Rested s) (hlt : s.spcTime < endTime) (hend : endTime % 32 = 0) :
    Within OnlyMemory (catchUpTo s endTime) (Framed s endTime) := by
  unfold catchUpTo catchUpCpu
  rw [if_pos hlt]
  refine (runUntil_ready h hlt.le hend).bind fun r hr => ?_
  obtain ⟨hready, hlow, hhigh⟩ := hr
  unfold catchUpRest
  dsimp only
  rw [if_pos ⟨hlow, by omega⟩]
  exact settle_framed hready hlow hhigh _ fun i => runTimer_valid (hready.timers i) 0

end Frames

/-! ### The two output areas -/

section Buffers

variable {all : List ℤ} {size : ℕ}

/-- The first `size` samples stand in the client's buffer, the rest in `extra`. -/
def buffered (all : List ℤ) (size : ℕ) : Dac :=
  if size ≤ all.length then ⟨all.take size, size, true, all.drop size⟩ else ⟨all, size, false, []⟩

def flatten (ps : List (ℤ × ℤ)) : List ℤ := ps.flatMap fun p => [p.1, p.2]

@[simp] theorem flatten_cons (p : ℤ × ℤ) (ps : List (ℤ × ℤ)) :
    flatten (p :: ps) = [p.1, p.2] ++ flatten ps := rfl

theorem length_flatten (ps : List (ℤ × ℤ)) : (flatten ps).length = 2 * ps.length := by
  induction ps with
  | nil => rfl
  | cons p ps ih =>
    rw [flatten_cons, List.length_append, ih, List.length_cons, List.length_cons,
      List.length_cons, List.length_nil]
    ring

theorem writeSamples_buffered (p : ℤ × ℤ) (hall : all.length % 2 = 0) (hsize : size % 2 = 0)
    (hroom : all.length + 2 < size + extraSize) :
    (buffered all size).writeSamples p = buffered (all ++ [p.1, p.2]) size := by
  have hlength : (all ++ [p.1, p.2]).length = all.length + 2 := by simp
  unfold buffered
  by_cases hfull : size ≤ all.length
  · have hnowrap : ¬ extraSize ≤ (all.drop size ++ [p.1, p.2]).length := by
      rw [List.length_append, List.length_drop, List.length_cons, List.length_singleton]
      omega
    rw [if_pos hfull, if_pos (by omega)]
    unfold Dac.writeSamples
    dsimp only
    rw [if_pos rfl, if_neg hnowrap, List.take_append_of_le_length hfull,
      List.drop_append_of_le_length hfull]
  · rw [if_neg hfull]
    unfold Dac.writeSamples
    dsimp only
    rw [if_neg Bool.false_ne_true, hlength]
    split_ifs
    · have heq : size = (all ++ [p.1, p.2]).length := by omega
      rw [heq, List.take_length, List.drop_length]
    · rfl

/-- Pairs written one by one, as long as `extra` does not wrap around. -/
theorem foldl_writeSamples_buffered (ps : List (ℤ × ℤ)) (hall : all.length % 2 = 0)
    (hsize : size % 2 = 0) (hroom : all.length + 2 * ps.length < size + extraSize) :
    ps.foldl Dac.writeSamples (buffered all size) = buffered (all ++ flatten ps) size := by
  induction ps generalizing all with
  | nil => simp [flatten]
  | cons p ps ih =>
    rw [List.length_cons] at hroom
    rw [List.foldl_cons, writeSamples_buffered p hall hsize (by omega),
      ih (by simp; omega) (by simp; omega), flatten_cons, List.append_assoc]

theorem setOutput_buffered {s : Spc} {count : Int32} (hcount : count.toInt.toNat = size)
    (heven : count.toInt % 2 = 0) (hbuf : s.extraBuf.length % 2 = 0)
    (hroom : s.extraBuf.length ≤ size + extraSize) :
    setOutput s true count =
      .ok { s.setDac (buffered s.extraBuf size) with
        extraClocks := s.extraClocks % clocksPerSample
        bufBegin := true } := by
  unfold setOutput buffered
  rw [hcount, if_neg (by omega)]
  simp only [if_true, List.length_take, List.length_drop]
  by_cases hfull : size ≤ s.extraBuf.length
  · rw [if_pos (by omega), if_pos (by omega), if_pos hfull]
    rfl
  · rw [if_neg (by omega), if_pos (by omega), if_neg hfull, List.take_of_length_le (by omega)]
    rfl

theorem saveExtra_buffered {s : Spc} (hdac : s.dsp.dac = buffered all size)
    (hcount : sampleCount s = size) (hfull : size ≤ all.length)
    (hroom : all.length ≤ size + extraSize) :
    saveExtra s = .ok { s with extraBuf := all.drop size } := by
  unfold saveExtra
  rw [hdac, hcount, buffered, if_pos hfull]
  dsimp only
  rw [List.drop_eq_nil_of_le (by simp), List.nil_append, if_pos rfl, if_pos]
  rw [List.length_drop]
  omega

end Buffers

end SnesApu.Apu
