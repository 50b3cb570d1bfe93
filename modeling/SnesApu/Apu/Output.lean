import SnesApu.Apu.Frames

/-!
# The output does not feed back

Where the samples go changes nothing else: the same frame played into two
outputs writes the same pairs to both and leaves the rest of the machine alike.
-/

namespace SnesApu.Apu

open General

/-- What only `play` and the functions it calls look at. -/
structure Outlet where
  extraBuf : List ℤ
  bufBegin : Bool
  extraClocks : ℤ

def Spc.through (s : Spc) (o : Outlet) (dac : Dac) : Spc :=
  { s.setDac dac with
    extraBuf := o.extraBuf
    bufBegin := o.bufBegin
    extraClocks := o.extraClocks }

/-- The two machines differ in their outputs only, and since these were `d` and
`e` the same pairs went to both. -/
def Alike (d e : Dac) (o : Outlet) (s t : Spc) : Prop :=
  ∃ ps : List (ℤ × ℤ), s.dsp.dac = ps.foldl Dac.writeSamples d ∧
    t = s.through o (ps.foldl Dac.writeSamples e)

/-- A step that neither writes samples nor looks at the output. -/
def Deaf (g : Spc → Spc) : Prop := ∀ s o dac, g (s.through o dac) = (g s).through o dac

section Deaf

theorem Deaf.dac {g : Spc → Spc} (hg : Deaf g) (s : Spc) : (g s).dsp.dac = s.dsp.dac := by
  have h := hg s ⟨s.extraBuf, s.bufBegin, s.extraClocks⟩ s.dsp.dac
  have hsame : s.through ⟨s.extraBuf, s.bufBegin, s.extraClocks⟩ s.dsp.dac = s := rfl
  rw [hsame] at h
  rw [h]
  rfl

theorem Deaf.alike {g : Spc → Spc} (hg : Deaf g) {d e : Dac} {o : Outlet} {s t : Spc}
    (h : Alike d e o s t) : Alike d e o (g s) (g t) := by
  obtain ⟨ps, hdac, rfl⟩ := h
  exact ⟨ps, (hg.dac s).trans hdac, hg s o _⟩

theorem poke_deaf (addr : ℕ) (data : UInt8) : Deaf fun s => s.poke addr data :=
  fun _ _ _ => rfl

theorem setReg_deaf (reg : ℕ) (data : ℤ) : Deaf fun s => setReg s reg data :=
  fun _ _ _ => rfl

theorem enableRom_deaf (enable : Bool) : Deaf fun s => enableRom s enable := by
  intro s o dac
  have hrom : (s.through o dac).romEnabled = s.romEnabled := rfl
  dsimp only
  unfold enableRom
  rw [hrom]
  split
  · rfl
  · rfl

theorem writeControl_deaf (data time : ℤ) : Deaf fun s => writeControl s data time := by
  intro s o dac
  exact enableRom_deaf (bit data 7) { s with
    regsIn := fun r =>
      if (bit data 4 ∧ (r = 4 ∨ r = 5)) ∨ (bit data 5 ∧ (r = 6 ∨ r = 7)) then 0 else s.regsIn r
    timers := fun i => writeEnabled (s.timers i) (bit data i) time } o dac

theorem writeSmpReg_deaf (data time : ℤ) (addr : ℕ) :
    Deaf fun s => cpuWriteSmpReg_ s data time addr := by
  intro s o dac
  dsimp only
  unfold cpuWriteSmpReg_
  dsimp only
  split_ifs
  · rfl
  · rfl
  · rfl
  · rfl
  · exact writeControl_deaf data time s o dac
  · rfl

theorem cpuWriteHigh_deaf (data : ℤ) (i : ℕ) : Deaf fun s => cpuWriteHigh s data i := by
  intro s o dac
  have hrom : (s.through o dac).romEnabled = s.romEnabled := rfl
  dsimp only
  unfold cpuWriteHigh
  dsimp only
  rw [hrom]
  split_ifs
  · rfl
  · rfl

theorem readTimer_deaf (i : Fin 3) (time : ℤ) : Deaf fun s => (readTimer s i time).1 :=
  fun _ _ _ => rfl

end Deaf

section Accesses

variable {d e : Dac} {o : Outlet} {s t : Spc} {time : ℤ}

/-- A result that both machines have alike, with one answer. -/
abbrev AlikeAnswer {α : Type} (d e : Dac) (o : Outlet) (x y : Spc × α) : Prop :=
  Alike d e o x.1 y.1 ∧ x.2 = y.2

theorem runDsp_alike (h : Alike d e o s t) (time : ℤ) :
    Agree (Alike d e o) (runDsp s time) (runDsp t time) := by
  obtain ⟨ps, hdac, rfl⟩ := h
  have htime : (s.through o (ps.foldl Dac.writeSamples e)).dspTime = s.dspTime := rfl
  have hstate : (s.through o (ps.foldl Dac.writeSamples e)).dsp.state = s.dsp.state := rfl
  have hphase : (s.through o (ps.foldl Dac.writeSamples e)).dsp.phase = s.dsp.phase := rfl
  unfold runDsp SpcDsp.run
  dsimp only
  rw [htime, hstate, hphase]
  split_ifs
  · cases runFrom (time - s.dspTime).toNat s.dsp.phase s.dsp.state with
    | error e => cases e <;> rfl
    | ok result =>
      refine ⟨ps ++ result.2, ?_, ?_⟩
      · dsimp only
        rw [hdac, foldl_append_pairs]
      · dsimp only [Spc.through, Spc.setDac]
        rw [foldl_append_pairs]
  · rfl

theorem dspRead_alike (h : Alike d e o s t) (time : ℤ) :
    Agree (AlikeAnswer d e o) (dspRead s time) (dspRead t time) := by
  refine (runDsp_alike h time).bind fun x y hxy => ⟨hxy, ?_⟩
  obtain ⟨ps, -, rfl⟩ := hxy
  rfl

theorem dspWrite_alike (h : Alike d e o s t) (data time : ℤ) :
    Agree (Alike d e o) (dspWrite s data time) (dspWrite t data time) := by
  refine (runDsp_alike h time).bind fun x y hxy => ?_
  obtain ⟨ps, hdac, rfl⟩ := hxy
  have hregs : (x.through o (ps.foldl Dac.writeSamples e)).regs = x.regs := rfl
  rw [hregs]
  split_ifs
  · exact ⟨ps, hdac, rfl⟩
  · exact ⟨ps, hdac, rfl⟩

theorem cpuWriteSmpReg_alike (h : Alike d e o s t) (data time : ℤ) (addr : ℕ) :
    Agree (Alike d e o) (cpuWriteSmpReg s data time addr) (cpuWriteSmpReg t data time addr) := by
  unfold cpuWriteSmpReg
  split_ifs
  · exact dspWrite_alike h data time
  · exact (writeSmpReg_deaf data time addr).alike h

theorem cpuWrite_alike (h : Alike d e o s t) (data : ℤ) (addr : UInt16) (time : ℤ) :
    Agree (Alike d e o) (cpuWrite s data addr time) (cpuWrite t data addr time) := by
  have hpoke := (poke_deaf addr.toNat (byteOf data)).alike h
  unfold cpuWrite
  dsimp only
  generalize addr.toNat - 0xF0 = reg
  generalize addr.toNat - romAddr = i
  have hreg := (setReg_deaf reg data).alike hpoke
  split_ifs
  · exact cpuWriteSmpReg_alike hreg data time reg
  · exact hreg
  · exact (cpuWriteHigh_deaf data i).alike hpoke
  · exact hpoke
  · exact hpoke

theorem Alike.regs (h : Alike d e o s t) : t.regs = s.regs := by
  obtain ⟨ps, -, rfl⟩ := h
  rfl

theorem Alike.ram (h : Alike d e o s t) : t.ram = s.ram := by
  obtain ⟨ps, -, rfl⟩ := h
  rfl

theorem cpuReadSmpReg_alike (h : Alike d e o s t) (reg : ℕ) (time : ℤ) :
    Agree (AlikeAnswer d e o) (cpuReadSmpReg s reg time) (cpuReadSmpReg t reg time) := by
  unfold cpuReadSmpReg
  split_ifs
  · exact dspRead_alike h time
  · exact ⟨h, congrFun h.regs.symm _⟩
  · refine ⟨h, ?_⟩
    obtain ⟨ps, -, rfl⟩ := h
    rfl

theorem readTimer_alike (h : Alike d e o s t) (i : Fin 3) (time : ℤ) :
    AlikeAnswer d e o (readTimer s i time) (readTimer t i time) := by
  refine ⟨(readTimer_deaf i time).alike h, ?_⟩
  obtain ⟨ps, -, rfl⟩ := h
  rfl

theorem cpuRead_alike (h : Alike d e o s t) (addr : UInt16) (time : ℤ) :
    Agree (AlikeAnswer d e o) (cpuRead s addr time) (cpuRead t addr time) := by
  unfold cpuRead
  dsimp only
  generalize addr.toNat - 0xF0 = reg
  split_ifs
  · exact readTimer_alike h _ time
  · exact cpuReadSmpReg_alike h reg time
  · exact ⟨h, congrFun h.ram.symm _⟩

theorem cpuReadTimer_alike (h : Alike d e o s t) (addr : ℕ) (time : ℤ) :
    Agree (AlikeAnswer d e o) (cpuReadTimer s addr time) (cpuReadTimer t addr time) := by
  unfold cpuReadTimer
  generalize addr - 0xF0 = reg
  split_ifs
  · exact readTimer_alike h _ time
  · exact cpuReadSmpReg_alike h reg time
  · exact ⟨h, congrFun h.ram.symm _⟩

theorem movDpImm_alike (h : Alike d e o s t) (data : ℤ) (addr : ℕ) (time : ℤ) :
    Agree (Alike d e o) (movDpImm s data addr time) (movDpImm t data addr time) := by
  have hpoke := (poke_deaf addr (byteOf data)).alike h
  unfold movDpImm
  dsimp only
  generalize addr - 0xF0 = reg
  have hreg := (setReg_deaf reg data).alike hpoke
  split_ifs
  · exact cpuWriteSmpReg_alike hreg data time reg
  · exact hreg
  · exact hpoke

theorem movDpA_alike (h : Alike d e o s t) (a : ℤ) (addr : ℕ) (time : ℤ) :
    Agree (Alike d e o) (movDpA s a addr time) (movDpA t a addr time) := by
  have hpoke := (poke_deaf addr (byteOf a)).alike h
  unfold movDpA
  dsimp only
  generalize addr - 0xF0 = reg
  have hreg := (setReg_deaf reg a).alike hpoke
  split_ifs
  · exact dspWrite_alike hreg a time
  · exact (writeSmpReg_deaf a time reg).alike hreg
  · exact hreg
  · exact hpoke

theorem handle_alike (rel : ℤ) (h : Alike d e o s t) (op : BusOp) :
    Agree (AlikeAnswer d e o) (handle rel s op) (handle rel t op) := by
  cases op with
  | peek addr => exact ⟨h, congrFun h.ram.symm addr⟩
  | poke addr data => exact ⟨(poke_deaf addr data).alike h, rfl⟩
  | read offset addr => exact cpuRead_alike h addr _
  | readTimer offset addr => exact cpuReadTimer_alike h addr _
  | write offset addr data => exact (cpuWrite_alike h data addr _).bind fun _ _ hxy => ⟨hxy, rfl⟩
  | movDpImm addr data => exact (movDpImm_alike h data addr _).bind fun _ _ hxy => ⟨hxy, rfl⟩
  | movDpA addr data => exact (movDpA_alike h data addr _).bind fun _ _ hxy => ⟨hxy, rfl⟩

end Accesses

section Frames

variable {d e : Dac} {o : Outlet} {s t : Spc}

def AlikeRun (d e : Dac) (o : Outlet) (r q : Running) : Prop :=
  q.relTime = r.relTime ∧ q.cpu = r.cpu ∧ Alike d e o r.spc q.spc

theorem turn_alike {r q : Running} (h : AlikeRun d e o r q) :
    Agree (Sum.LiftRel (AlikeRun d e o) (AlikeRun d e o)) (turn r) (turn q) := by
  obtain ⟨rel, cpu, s⟩ := r
  obtain ⟨rel', cpu', t⟩ := q
  obtain ⟨htime, hcpu, hspc⟩ := h
  dsimp only at htime hcpu hspc
  subst htime hcpu
  unfold turn Running.opcode
  dsimp only
  rw [hspc.ram]
  split_ifs
  · exact .inr ⟨rfl, rfl, hspc⟩
  · have hinstr : Running.instruction ⟨rel', cpu', t⟩ = Running.instruction ⟨rel', cpu', s⟩ := by
      unfold Running.instruction Running.opcode
      dsimp only
      rw [hspc.ram]
    rw [hinstr, agree_map]
    refine (Agree.program (Alike d e o) (fun s t op h => handle_alike _ h op) hspc _).mono ?_
    rintro ⟨s', flow⟩ ⟨t', flow'⟩ ⟨hspc', hflow⟩
    dsimp only at hspc' hflow
    subst hflow
    cases flow with
    | next cpu refund => exact .inl ⟨rfl, rfl, hspc'⟩
    | stop cpu =>
      obtain ⟨ps, hdac, rfl⟩ := hspc'
      exact .inr ⟨rfl, rfl, ps, hdac, rfl⟩

theorem runFuncEnd_alike {r q : Running} (h : AlikeRun d e o r q) (endTime : ℤ) :
    Agree (Alike d e o) (runFuncEnd endTime r) (runFuncEnd endTime q) := by
  obtain ⟨rel, cpu, s⟩ := r
  obtain ⟨rel', cpu', t⟩ := q
  obtain ⟨htime, hcpu, ps, hdac, ht⟩ := h
  dsimp only at htime hcpu hdac ht
  subst htime hcpu ht
  have hspc : (s.through o (ps.foldl Dac.writeSamples e)).spcTime = s.spcTime := rfl
  unfold runFuncEnd
  dsimp only
  rw [hspc]
  split_ifs
  · exact ⟨ps, hdac, rfl⟩
  · rfl

theorem runUntil_alike (h : Alike d e o s t) (endTime : ℤ) :
    Agree (Alike d e o) (runUntil_ s endTime) (runUntil_ t endTime) := by
  obtain ⟨ps, hdac, rfl⟩ := h
  have htime : (s.through o (ps.foldl Dac.writeSamples e)).spcTime = s.spcTime := rfl
  have hstart : AlikeRun d e o (runFunc s endTime)
      (runFunc (s.through o (ps.foldl Dac.writeSamples e)) endTime) := ⟨rfl, rfl, ps, hdac, rfl⟩
  unfold runUntil_
  dsimp only
  rw [htime]
  split_ifs
  · rfl
  · exact (Agree.iterate (fun r q h => turn_alike h) _ hstart).bind
      fun r q hrq => runFuncEnd_alike hrq endTime

theorem catchUpCpu_alike (h : Alike d e o s t) (endTime : ℤ) :
    Agree (Alike d e o) (catchUpCpu s endTime) (catchUpCpu t endTime) := by
  have htime : t.spcTime = s.spcTime := by
    obtain ⟨ps, -, rfl⟩ := h
    rfl
  unfold catchUpCpu
  rw [htime]
  split_ifs
  · exact runUntil_alike h endTime
  · exact h

theorem catchUpTo_alike (h : Alike d e o s t) (endTime : ℤ) :
    Agree (Alike d e { o with extraClocks := o.extraClocks + endTime }) (catchUpTo s endTime)
      (catchUpTo t endTime) := by
  refine (catchUpCpu_alike h endTime).bind fun x y hxy => ?_
  obtain ⟨ps, hdac, rfl⟩ := hxy
  have htime : (x.through o (ps.foldl Dac.writeSamples e)).spcTime = x.spcTime := rfl
  have hdsp : (x.through o (ps.foldl Dac.writeSamples e)).dspTime = x.dspTime := rfl
  unfold catchUpRest
  dsimp only
  rw [htime, hdsp]
  split_ifs
  · refine runDsp_alike ?_ 0
    exact ⟨ps, hdac, rfl⟩
  · exact ⟨ps, hdac, rfl⟩
  · rfl

end Frames

end SnesApu.Apu
