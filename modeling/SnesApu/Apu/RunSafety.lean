import SnesApu.Apu.DspReachable
import SnesApu.Apu.Turn

/-!
# A run of the CPU

`Ready` is what every access finds: valid timers, a sound processor in its
bounds that has not run past the last access, and an output that holds exactly
the samples of the clocks it has run. It is kept by every access that comes
later than the last one, hence by every instruction and by the loop.
-/

namespace SnesApu.Apu

open General

/-- `now` is the time on the clock of the sound processor that a relative time
of zero stands for, and `pairs` what it had written by `start`. -/
structure Ready (start : Spc) (now pairs last : ℤ) (s : Spc) : Prop where
  timers : ∀ i, (s.timers i).Valid
  dsp : ∃ f : DspFrame, s.dsp.Safe f
  phase : (now + s.dspTime - s.dsp.phase) % 32 = 0
  time : s.dspTime ≤ last
  output : ∃ ps : List (ℤ × ℤ), s.dsp.dac = ps.foldl Dac.writeSamples start.dsp.dac ∧
    (ps.length : ℤ) = (now + s.dspTime + 4) / 32 - pairs
  spcTime : s.spcTime = start.spcTime
  extraClocks : s.extraClocks = start.extraClocks
  bufBegin : s.bufBegin = start.bufBegin
  extraBuf : s.extraBuf = start.extraBuf

def OnlyMemory (e : Fault) : Prop := e = .memory

section Accesses

variable {start s : Spc} {now pairs last time : ℤ}

theorem Ready.mono (h : Ready start now pairs last s) (hle : s.dspTime ≤ time) :
    Ready start now pairs time s := { h with time := hle }

theorem Ready.later (h : Ready start now pairs last s) (hlt : last < time) :
    Ready start now pairs time s := h.mono (h.time.trans hlt.le)

theorem setRam_ready (h : Ready start now pairs last s) (ram : ℕ → UInt8) :
    Ready start now pairs last (s.setRam ram) := by
  obtain ⟨f, hphase, hf⟩ := h.dsp
  exact { h with dsp := ⟨f.setRam ram, hphase, setRam_safe hf ram⟩ }

theorem poke_ready (h : Ready start now pairs last s) (addr : ℕ) (data : UInt8) :
    Ready start now pairs last (s.poke addr data) := setRam_ready h _

theorem setTimer_ready (h : Ready start now pairs last s) (i : Fin 3) {t : Timer} (ht : t.Valid) :
    Ready start now pairs last (s.setTimer i t) := by
  refine { h with timers := fun j => ?_ }
  rcases eq_or_ne j i with rfl | hne
  · simpa [Spc.setTimer] using ht
  · simpa [Spc.setTimer, hne] using h.timers j

theorem setReg_ready (h : Ready start now pairs last s) (reg : ℕ) (data : ℤ) :
    Ready start now pairs last (setReg s reg data) := { h with }

theorem enableRom_ready (h : Ready start now pairs last s) (enable : Bool) :
    Ready start now pairs last (enableRom s enable) := by
  unfold enableRom
  split
  · exact { setRam_ready h _ with }
  · exact h

theorem foldl_append_pairs (ps qs : List (ℤ × ℤ)) (dac : Dac) :
    qs.foldl Dac.writeSamples (ps.foldl Dac.writeSamples dac) =
      (ps ++ qs).foldl Dac.writeSamples dac := List.foldl_append.symm

/-- Catching the processor up to a later time. -/
theorem runDsp_ready (h : Ready start now pairs last s) (ht : last < time) :
    Within OnlyMemory (runDsp s time) fun r => r.dspTime = time ∧ Ready start now pairs time r := by
  have hle := h.time
  have hcount : 0 < time - s.dspTime := by omega
  unfold runDsp
  rw [if_pos hcount]
  obtain ⟨f, hsafe⟩ := h.dsp
  cases hrun : s.dsp.run (time - s.dspTime).toNat with
  | error e =>
    obtain rfl := run_error hsafe hrun
    rfl
  | ok d =>
    obtain ⟨ps, hdac, hlength⟩ := h.output
    have hnext := run_safe hsafe hrun
    have hphase := h.phase
    simp only [SpcDsp.run, bind_eq_ok, pure_eq_ok] at hrun
    obtain ⟨result, hfrom, rfl⟩ := hrun
    have hpairs := runFrom_pairs hsafe.1 hfrom
    refine ⟨rfl, { h with dsp := ⟨_, hnext⟩, phase := ?_, time := le_rfl, output := ?_ }⟩
    · dsimp only
      omega
    · refine ⟨ps ++ result.2, ?_, ?_⟩
      · rw [← foldl_append_pairs, ← hdac]
      · rw [List.length_append, hpairs]
        unfold pairCount
        push_cast
        omega

theorem dspRead_ready (h : Ready start now pairs last s) (ht : last < time) :
    Within OnlyMemory (dspRead s time) fun r => Ready start now pairs time r.1 :=
  (runDsp_ready h ht).bind fun _ hr => hr.2

theorem dspWrite_ready (h : Ready start now pairs last s) (data : ℤ) (ht : last < time) :
    Within OnlyMemory (dspWrite s data time) (Ready start now pairs time) := by
  refine (runDsp_ready h ht).bind fun r hr => ?_
  dsimp only
  split_ifs
  · obtain ⟨f, hphase, hf⟩ := hr.2.dsp
    -- any value of DIR lies in the largest frame
    have hlarge : r.dsp.state.Safe { f with dirMax := 0xFF, dir_le := toNat_le_255 _, dirMax_le := le_rfl }
        r.dsp.phase :=
      { hf with
        dir := toNat_le_255 _
        dirEntry := by
          have hentry := hf.dirEntry
          have hmax := f.dirMax_le
          dsimp only
          omega }
    exact { hr.2 with dsp := ⟨_, hphase, write_safe hlarge fun _ => toNat_le_255 _⟩ }
  · exact hr.2

theorem writeControl_ready (h : Ready start now pairs last s) (data time : ℤ) :
    Ready start now pairs last (writeControl s data time) := by
  refine enableRom_ready ?_ _
  exact { h with timers := fun i => writeEnabled_valid (h.timers i) (bit data i) time }

theorem writeSmpReg_ready (h : Ready start now pairs last s) (data time : ℤ) (addr : ℕ) :
    Ready start now pairs last (cpuWriteSmpReg_ s data time addr) := by
  unfold cpuWriteSmpReg_
  dsimp only
  split_ifs
  · exact setTimer_ready h _ (writeTarget_valid (h.timers _) data time)
  · exact setTimer_ready h _ (writeOut_valid (h.timers _) time)
  · exact h
  · exact { h with }
  · exact writeControl_ready h data time
  · exact h

theorem cpuWriteSmpReg_ready (h : Ready start now pairs last s) (data : ℤ) (ht : last < time)
    (addr : ℕ) :
    Within OnlyMemory (cpuWriteSmpReg s data time addr) (Ready start now pairs time) := by
  unfold cpuWriteSmpReg
  split_ifs
  · exact dspWrite_ready h data ht
  · exact writeSmpReg_ready (h.later ht) data time addr

theorem cpuWriteHigh_ready (h : Ready start now pairs last s) (data : ℤ) (i : ℕ) :
    Ready start now pairs last (cpuWriteHigh s data i) := by
  have hset : Ready start now pairs last
      { s with hiRam := Function.update s.hiRam i (byteOf data) } := { h with }
  unfold cpuWriteHigh
  dsimp only
  split_ifs
  · exact poke_ready hset _ _
  · exact hset

theorem cpuWrite_ready (h : Ready start now pairs last s) (data : ℤ) (addr : UInt16)
    (ht : last < time) :
    Within OnlyMemory (cpuWrite s data addr time) (Ready start now pairs time) := by
  have hpoke := poke_ready h addr.toNat (byteOf data)
  have hreg := setReg_ready hpoke (addr.toNat - 0xF0) data
  unfold cpuWrite
  dsimp only
  generalize addr.toNat - 0xF0 = reg at hreg ⊢
  generalize addr.toNat - romAddr = i
  split_ifs
  · exact cpuWriteSmpReg_ready hreg data ht _
  · exact hreg.later ht
  · exact cpuWriteHigh_ready (hpoke.later ht) data _
  · exact hpoke.later ht
  · exact hpoke.later ht

theorem cpuReadSmpReg_ready (h : Ready start now pairs last s) (reg : ℕ) (ht : last < time) :
    Within OnlyMemory (cpuReadSmpReg s reg time) fun r => Ready start now pairs time r.1 := by
  unfold cpuReadSmpReg
  split_ifs
  · exact dspRead_ready h ht
  · exact h.later ht
  · exact h.later ht

theorem readTimer_ready (h : Ready start now pairs last s) (i : Fin 3) (ht : last < time) :
    Ready start now pairs time (readTimer s i time).1 :=
  setTimer_ready (h.later ht) i (readOut_valid (h.timers i) time)

theorem cpuRead_ready (h : Ready start now pairs last s) (addr : UInt16) (ht : last < time) :
    Within OnlyMemory (cpuRead s addr time) fun r => Ready start now pairs time r.1 := by
  unfold cpuRead
  dsimp only
  generalize addr.toNat - 0xF0 = reg
  split_ifs
  · exact readTimer_ready h _ ht
  · exact cpuReadSmpReg_ready h _ ht
  · exact h.later ht

theorem cpuReadTimer_ready (h : Ready start now pairs last s) (addr : ℕ) (ht : last < time) :
    Within OnlyMemory (cpuReadTimer s addr time) fun r => Ready start now pairs time r.1 := by
  unfold cpuReadTimer
  generalize addr - 0xF0 = reg
  split_ifs
  · exact readTimer_ready h _ ht
  · exact cpuReadSmpReg_ready h _ ht
  · exact h.later ht

theorem movDpImm_ready (h : Ready start now pairs last s) (data : ℤ) (addr : ℕ) (ht : last < time) :
    Within OnlyMemory (movDpImm s data addr time) (Ready start now pairs time) := by
  have hpoke := poke_ready h addr (byteOf data)
  have hreg := setReg_ready hpoke (addr - 0xF0) data
  unfold movDpImm
  dsimp only
  generalize addr - 0xF0 = reg at hreg ⊢
  split_ifs
  · exact cpuWriteSmpReg_ready hreg data ht _
  · exact hreg.later ht
  · exact hpoke.later ht

theorem movDpA_ready (h : Ready start now pairs last s) (a : ℤ) (addr : ℕ) (ht : last < time) :
    Within OnlyMemory (movDpA s a addr time) (Ready start now pairs time) := by
  have hpoke := poke_ready h addr (byteOf a)
  have hreg := setReg_ready hpoke (addr - 0xF0) a
  unfold movDpA
  dsimp only
  generalize addr - 0xF0 = reg at hreg ⊢
  split_ifs
  · exact dspWrite_ready hreg a ht
  · exact writeSmpReg_ready (hreg.later ht) a time _
  · exact hreg.later ht
  · exact hpoke.later ht

theorem handle_ready {rel : ℤ} {o : BusOp} (h : Ready start now pairs (rel + last) s)
    (ho : Allowed last o) :
    Within OnlyMemory (handle rel s o) fun r => Ready start now pairs (rel + advance last o) r.1 := by
  have hlt : ∀ offset, o.offset = some offset → rel + last < rel + offset := by
    intro offset hoffset
    have := (allowed_some hoffset).mp ho
    omega
  cases o with
  | peek addr => exact h
  | poke addr data => exact poke_ready h addr data
  | read offset addr => exact cpuRead_ready h addr (hlt offset rfl)
  | readTimer offset addr => exact cpuReadTimer_ready h addr (hlt offset rfl)
  | write offset addr data => exact (cpuWrite_ready h data addr (hlt offset rfl)).bind fun _ hr => hr
  | movDpImm addr data =>
    refine Within.bind (movDpImm_ready h data addr ?_) fun r hr => (add_zero rel).symm ▸ hr
    simpa using hlt 0 rfl
  | movDpA addr data =>
    refine Within.bind (movDpA_ready h data addr ?_) fun r hr => (add_zero rel).symm ▸ hr
    simpa using hlt 0 rfl

end Accesses

/-! ### The loop -/

section Loop

variable {start : Spc} {now pairs : ℤ} {r : Running}

def ReadyRun (start : Spc) (now pairs : ℤ) (r : Running) : Prop :=
  Ready start now pairs r.relTime r.spc ∧ r.relTime ≤ 0

/-- Where the loop may leave: less than one instruction before the end. -/
def LeftRun (start : Spc) (now pairs : ℤ) (r : Running) : Prop :=
  Ready start now pairs r.relTime r.spc ∧ -cpuLagMax ≤ r.relTime ∧ r.relTime ≤ 0

theorem instruction_ready (h : ReadyRun start now pairs r) :
    Within OnlyMemory
      (r.instruction.run (handle (r.relTime + cycles r.opcode)) r.spc) fun result =>
        ∃ last, Ready start now pairs (r.relTime + cycles r.opcode + last) result.1 ∧
          Settles (decode r.opcode) last result.2 := by
  refine Program.Obeys.run
    (fun last s => Ready start now pairs (r.relTime + cycles r.opcode + last) s) ?_
    (opcode_timed r.opcode _ _) ?_
  · intro last s o hs ho
    exact handle_ready hs ho
  · simpa using h.1

theorem turn_ready (h : ReadyRun start now pairs r) :
    Within OnlyMemory (turn r) (Sum.elim (fun next => ReadyRun start now pairs next ∧
      turnMeasure next < turnMeasure r) (LeftRun start now pairs)) := by
  have hmax := cycles_le r.opcode
  have hexec := instruction_ready h
  by_cases hout : 0 < r.relTime + cycles r.opcode
  · unfold turn
    dsimp only
    rw [if_pos hout]
    refine ⟨h.1, ?_, h.2⟩
    unfold cpuLagMax
    omega
  · have hturn : turn r =
        (r.instruction.run (handle (r.relTime + cycles r.opcode)) r.spc).map
          (arrive (r.relTime + cycles r.opcode)) := if_neg hout
    cases hrun : r.instruction.run (handle (r.relTime + cycles r.opcode)) r.spc with
    | error e =>
      rw [hrun] at hexec hturn
      rw [hturn]
      exact hexec
    | ok result =>
      obtain ⟨spc, flow⟩ := result
      rw [hrun] at hexec hturn
      obtain ⟨last, hspc, hsettles⟩ := hexec
      have htime := hspc.time
      dsimp only at hspc hsettles htime
      cases flow with
      | next cpu refund =>
        rw [settles_next] at hsettles
        have hnext := turn_goes_on hturn
        rw [hturn]
        exact ⟨⟨hspc.mono (by dsimp only; omega), hnext.1⟩, hnext.2⟩
      | stop cpu =>
        rw [settles_stop] at hsettles
        have hend : Ready start now pairs 0 spc := hspc.mono (by omega)
        rw [hturn]
        exact ⟨{ hend with }, by norm_num [cpuLagMax], le_rfl⟩

/-- The loop comes to an end with the turns it is given. -/
theorem iterate_turn_ready (h : ReadyRun start now pairs r) :
    Within OnlyMemory (iterate turn Fault.fuel (turns r.relTime) r) (LeftRun start now pairs) := by
  apply Within.iterate (ReadyRun start now pairs) turnMeasure
  · intro s hs
    exact turn_ready hs
  · exact h
  · exact turnMeasure_lt_turns r

end Loop

end SnesApu.Apu
