import SnesApu.Apu.Flags

/-!
# Stopping on the way

`Spc.delay` is the machine on a later clock, with what only `run_until_` looks at
replaced. Every access commutes with it, so a run up to a later time does at
first what a run up to an earlier one does, and a run that stops on the way and
goes on from there is the run that does not stop.
-/

namespace SnesApu.Apu

open General

/-! ### The same machine on a later clock -/

def Timer.delay (d : ℤ) (t : Timer) : Timer := t.setNextTime (t.nextTime + -d)

/-- The machine on a clock that is `d` ahead, with what only `run_until_` looks at replaced. -/
def Spc.delay (d now : ℤ) (regs : CpuRegs) (s : Spc) : Spc :=
  { s.shift (-d) with
    spcTime := now
    cpuRegs := regs }

section Delay

variable {d now time : ℤ} {regs : CpuRegs}

theorem delay_runTimer (t : Timer) : runTimer (t.delay d) (time - d) = (runTimer t time).delay d := by
  have hnext : (t.delay d).nextTime = t.nextTime - d := (sub_eq_add_neg _ _).symm
  unfold runTimer
  rw [hnext]
  by_cases hle : t.nextTime ≤ time
  · have helapsed : time - d - (t.nextTime - d) = time - t.nextTime := by ring
    rw [if_pos hle, if_pos (by omega)]
    unfold runTimer_
    rw [hnext, helapsed, count_setNextTime, count_setNextTime]
    unfold Timer.delay
    rw [count_setNextTime, setNextTime_setNextTime, setNextTime_setNextTime, nextTime_setNextTime]
    congr 1
    rw [prescaler_setNextTime]
    ring
  · rw [if_neg hle, if_neg (by omega)]

theorem delay_readOut (t : Timer) :
    readOut (t.delay d) (time - d) = ((readOut t time).1.delay d, (readOut t time).2) := by
  unfold readOut
  rw [delay_runTimer]
  rfl

theorem delay_writeTarget (t : Timer) (data : ℤ) :
    writeTarget (t.delay d) data (time - d) = (writeTarget t data time).delay d := by
  have hperiod : (t.delay d).period = t.period := rfl
  unfold writeTarget
  rw [delay_runTimer, hperiod]
  dsimp only
  split_ifs
  · rfl
  · rfl

theorem delay_writeOut (t : Timer) : writeOut (t.delay d) (time - d) = (writeOut t time).delay d := by
  have hsub : time - d - 1 = time - 1 - d := by ring
  unfold writeOut
  rw [hsub, delay_runTimer]
  rfl

theorem delay_writeEnabled (t : Timer) (enabled : Bool) :
    writeEnabled (t.delay d) enabled (time - d) = (writeEnabled t enabled time).delay d := by
  have henabled : (t.delay d).enabled = t.enabled := rfl
  unfold writeEnabled
  rw [delay_runTimer, henabled]
  split_ifs
  · rfl
  · rfl
  · rfl

theorem delay_enableRom (s : Spc) (enable : Bool) :
    enableRom (s.delay d now regs) enable = (enableRom s enable).delay d now regs := by
  have hrom : (s.delay d now regs).romEnabled = s.romEnabled := rfl
  unfold enableRom
  rw [hrom]
  split
  · rfl
  · rfl

theorem delay_writeControl (s : Spc) (data : ℤ) :
    writeControl (s.delay d now regs) data (time - d) = (writeControl s data time).delay d now regs := by
  have htimers : ∀ i, writeEnabled ((s.delay d now regs).timers i) (bit data i) (time - d) =
      (writeEnabled (s.timers i) (bit data i) time).delay d := fun i =>
    delay_writeEnabled (s.timers i) (bit data i)
  unfold writeControl
  rw [← delay_enableRom]
  simp only [htimers]
  rfl

theorem delay_setTimer (s : Spc) (i : Fin 3) (t : Timer) :
    (s.delay d now regs).setTimer i (t.delay d) = (s.setTimer i t).delay d now regs := by
  have htimers : Function.update (s.delay d now regs).timers i (t.delay d) =
      fun j => (Function.update s.timers i t j).delay d := by
    funext j
    rcases eq_or_ne j i with rfl | hne
    · simp
    · simp [hne, Spc.delay, Spc.shift, Timer.delay]
  unfold Spc.setTimer
  rw [htimers]
  rfl

theorem delay_writeSmpReg (s : Spc) (data : ℤ) (addr : ℕ) :
    cpuWriteSmpReg_ (s.delay d now regs) data (time - d) addr =
      (cpuWriteSmpReg_ s data time addr).delay d now regs := by
  have htimer : ∀ i, (s.delay d now regs).timers i = (s.timers i).delay d := fun i => rfl
  unfold cpuWriteSmpReg_
  simp only [htimer, delay_writeTarget, delay_writeOut, delay_setTimer, delay_writeControl]
  split_ifs
  · rfl
  · rfl
  · rfl
  · rfl
  · rfl
  · rfl

theorem delay_runDsp (s : Spc) :
    runDsp (s.delay d now regs) (time - d) = (runDsp s time).map (Spc.delay d now regs) := by
  have htime : (s.delay d now regs).dspTime = s.dspTime + -d := rfl
  have hdsp : (s.delay d now regs).dsp = s.dsp := rfl
  have hcount : time - d - (s.dspTime + -d) = time - s.dspTime := by ring
  unfold runDsp
  rw [htime, hdsp, hcount]
  dsimp only
  split_ifs
  · cases s.dsp.run (time - s.dspTime).toNat with
    | error e => cases e <;> rfl
    | ok dsp =>
      rw [sub_eq_add_neg]
      rfl
  · rfl

theorem delay_dspRead (s : Spc) : dspRead (s.delay d now regs) (time - d) =
    (dspRead s time).map fun r => (r.1.delay d now regs, r.2) := by
  unfold dspRead
  rw [delay_runDsp]
  cases runDsp s time with
  | error e => rfl
  | ok r => rfl

theorem delay_dspWrite (s : Spc) (data : ℤ) :
    dspWrite (s.delay d now regs) data (time - d) = (dspWrite s data time).map (Spc.delay d now regs) := by
  unfold dspWrite
  rw [delay_runDsp]
  cases runDsp s time with
  | error e => rfl
  | ok r =>
    have haddr : (r.delay d now regs).regs = r.regs := rfl
    dsimp only [Except.map, Bind.bind, Except.bind]
    rw [haddr]
    split_ifs
    · rfl
    · rfl

theorem delay_cpuWriteSmpReg (s : Spc) (data : ℤ) (addr : ℕ) :
    cpuWriteSmpReg (s.delay d now regs) data (time - d) addr =
      (cpuWriteSmpReg s data time addr).map (Spc.delay d now regs) := by
  unfold cpuWriteSmpReg
  split_ifs
  · exact delay_dspWrite s data
  · exact congrArg Except.ok (delay_writeSmpReg s data addr)

theorem delay_cpuWriteHigh (s : Spc) (data : ℤ) (i : ℕ) :
    cpuWriteHigh (s.delay d now regs) data i = (cpuWriteHigh s data i).delay d now regs := by
  have hrom : (s.delay d now regs).romEnabled = s.romEnabled := rfl
  unfold cpuWriteHigh
  dsimp only
  rw [hrom]
  split_ifs
  · rfl
  · rfl

theorem delay_cpuWrite (s : Spc) (data : ℤ) (addr : UInt16) :
    cpuWrite (s.delay d now regs) data addr (time - d) =
      (cpuWrite s data addr time).map (Spc.delay d now regs) := by
  unfold cpuWrite
  dsimp only
  generalize addr.toNat - 0xF0 = reg
  generalize addr.toNat - romAddr = i
  split_ifs
  · exact delay_cpuWriteSmpReg (setReg (s.poke addr.toNat (byteOf data)) reg data) data reg
  · rfl
  · exact congrArg Except.ok (delay_cpuWriteHigh (s.poke addr.toNat (byteOf data)) data i)
  · rfl
  · rfl

theorem delay_cpuReadSmpReg (s : Spc) (reg : ℕ) :
    cpuReadSmpReg (s.delay d now regs) reg (time - d) =
      (cpuReadSmpReg s reg time).map fun r => (r.1.delay d now regs, r.2) := by
  unfold cpuReadSmpReg
  split_ifs
  · exact delay_dspRead s
  · rfl
  · rfl

theorem delay_readTimer (s : Spc) (i : Fin 3) :
    readTimer (s.delay d now regs) i (time - d) =
      ((readTimer s i time).1.delay d now regs, (readTimer s i time).2) := by
  have htimer : (s.delay d now regs).timers i = (s.timers i).delay d := rfl
  unfold readTimer
  rw [htimer, delay_readOut]
  dsimp only
  rw [delay_setTimer]

theorem delay_cpuRead (s : Spc) (addr : UInt16) : cpuRead (s.delay d now regs) addr (time - d) =
    (cpuRead s addr time).map fun r => (r.1.delay d now regs, r.2) := by
  unfold cpuRead
  dsimp only
  generalize addr.toNat - 0xF0 = reg
  split_ifs
  · exact congrArg Except.ok (delay_readTimer s _)
  · exact delay_cpuReadSmpReg s reg
  · rfl

theorem delay_cpuReadTimer (s : Spc) (addr : ℕ) : cpuReadTimer (s.delay d now regs) addr (time - d) =
    (cpuReadTimer s addr time).map fun r => (r.1.delay d now regs, r.2) := by
  unfold cpuReadTimer
  generalize addr - 0xF0 = reg
  split_ifs
  · exact congrArg Except.ok (delay_readTimer s _)
  · exact delay_cpuReadSmpReg s reg
  · rfl

theorem delay_movDpImm (s : Spc) (data : ℤ) (addr : ℕ) :
    movDpImm (s.delay d now regs) data addr (time - d) =
      (movDpImm s data addr time).map (Spc.delay d now regs) := by
  unfold movDpImm
  dsimp only
  generalize addr - 0xF0 = reg
  split_ifs
  · exact delay_cpuWriteSmpReg (setReg (s.poke addr (byteOf data)) reg data) data reg
  · rfl
  · rfl

theorem delay_movDpA (s : Spc) (a : ℤ) (addr : ℕ) :
    movDpA (s.delay d now regs) a addr (time - d) =
      (movDpA s a addr time).map (Spc.delay d now regs) := by
  unfold movDpA
  dsimp only
  generalize addr - 0xF0 = reg
  split_ifs
  · exact delay_dspWrite (setReg (s.poke addr (byteOf a)) reg a) a
  · exact congrArg Except.ok (delay_writeSmpReg (setReg (s.poke addr (byteOf a)) reg a) a reg)
  · rfl
  · rfl

theorem delay_handle (s : Spc) (o : BusOp) : handle (time - d) (s.delay d now regs) o =
    (handle time s o).map fun r => (r.1.delay d now regs, r.2) := by
  have hoffset : ∀ offset, time - d + offset = time + offset - d := fun offset => by ring
  cases o with
  | peek addr => rfl
  | poke addr data => rfl
  | read offset addr =>
    simp only [handle, hoffset]
    exact delay_cpuRead s addr
  | readTimer offset addr =>
    simp only [handle, hoffset]
    exact delay_cpuReadTimer s addr
  | write offset addr data =>
    simp only [handle, hoffset, delay_cpuWrite]
    cases cpuWrite s data addr (time + offset) with
    | error e => rfl
    | ok r => rfl
  | movDpImm addr data =>
    simp only [handle, delay_movDpImm]
    cases movDpImm s data addr time with
    | error e => rfl
    | ok r => rfl
  | movDpA addr data =>
    simp only [handle, delay_movDpA]
    cases movDpA s data addr time with
    | error e => rfl
    | ok r => rfl

end Delay

/-! ### Stopping on the way -/

section Resume

variable {d now : ℤ} {regs : CpuRegs} {r q next : Running}

/-- The state of the loop in a run that ends `d` clocks later. -/
def Running.delay (d now : ℤ) (regs : CpuRegs) (r : Running) : Running :=
  ⟨r.relTime - d, r.cpu, r.spc.delay d now regs⟩

theorem instruction_delay (d now : ℤ) (regs : CpuRegs) (r : Running) (time : ℤ) :
    (r.delay d now regs).instruction.run (handle (time - d)) (r.delay d now regs).spc =
      (r.instruction.run (handle time) r.spc).map fun x => (x.1.delay d now regs, x.2) :=
  Program.run_map (Spc.delay d now regs) (fun s o => delay_handle s o) r.spc r.instruction

/-- The clock of the machine and the stored registers stay as they were. -/
theorem instruction_keeps {time : ℤ} {x : Spc × Flow}
    (h : r.instruction.run (handle time) r.spc = .ok x) :
    x.1.spcTime = r.spc.spcTime ∧ x.1.cpuRegs = r.spc.cpuRegs := by
  have hsame : r.delay 0 r.spc.spcTime r.spc.cpuRegs = r := by
    simp [Running.delay, Spc.delay, Spc.shift, Timer.setNextTime]
  have hkept := instruction_delay 0 r.spc.spcTime r.spc.cpuRegs r time
  rw [hsame, sub_zero, h] at hkept
  have hx := congrArg Prod.fst (Except.ok.inj hkept)
  exact ⟨(congrArg Spc.spcTime hx).trans rfl, (congrArg Spc.cpuRegs hx).trans rfl⟩

/-- A turn that fits before the earlier end is the same turn before the later one. -/
theorem turn_delay (hd : 0 ≤ d) (hin : r.relTime + cycles r.opcode ≤ 0) :
    turn (r.delay d now regs) =
      (r.instruction.run (handle (r.relTime + cycles r.opcode)) r.spc).map fun x =>
        arrive (r.relTime + cycles r.opcode - d) (x.1.delay d now regs, x.2) := by
  have htime : (r.delay d now regs).relTime + cycles (r.delay d now regs).opcode =
      r.relTime + cycles r.opcode - d := by
    change r.relTime - d + cycles r.opcode = _
    ring
  unfold turn
  rw [htime]
  dsimp only
  rw [if_neg (by omega), instruction_delay]
  cases r.instruction.run (handle (r.relTime + cycles r.opcode)) r.spc with
  | error e => rfl
  | ok x => rfl

/-- The same turns are to come, whatever registers are stored meanwhile. -/
def Restored (now : ℤ) (regs : CpuRegs) (r q : Running) : Prop :=
  r.spc.spcTime = now ∧ q = r.delay 0 now regs

theorem turn_restored (h : Restored now regs r q) :
    Agree (Sum.LiftRel (Restored now regs) (Restored now regs)) (turn r) (turn q) := by
  obtain ⟨hnow, rfl⟩ := h
  have hopcode : (r.delay 0 now regs).opcode = r.opcode := rfl
  by_cases hout : 0 < r.relTime + cycles r.opcode
  · have hlate : 0 < (r.delay 0 now regs).relTime + cycles (r.delay 0 now regs).opcode := by
      change 0 < r.relTime - 0 + cycles r.opcode
      omega
    unfold turn
    dsimp only
    rw [if_pos hout, if_pos hlate]
    exact .inr ⟨hnow, rfl⟩
  · rw [turn_delay le_rfl (by omega)]
    unfold turn
    dsimp only
    rw [if_neg hout]
    cases hrun : r.instruction.run (handle (r.relTime + cycles r.opcode)) r.spc with
    | error e => rfl
    | ok x =>
      have hkept := (instruction_keeps hrun).1
      obtain ⟨spc, flow⟩ := x
      cases flow with
      | next cpu refund =>
        refine .inl ⟨hkept.trans hnow, ?_⟩
        simp [Running.delay]
      | stop cpu =>
        refine .inr ⟨hkept.trans hnow, ?_⟩
        simp [Running.delay, Spc.delay, Spc.shift]

theorem runFuncEnd_restored (h : Restored now regs r q) (endTime : ℤ) :
    runFuncEnd endTime r = runFuncEnd endTime q := by
  obtain ⟨rfl, rfl⟩ := h
  unfold runFuncEnd
  simp [Running.delay, Spc.delay, Spc.shift, Timer.setNextTime]

theorem runFuncEnd_same (h : SameRunning r q) (endTime : ℤ) :
    runFuncEnd endTime r = runFuncEnd endTime q := by
  obtain ⟨htime, hspc, hview⟩ := h
  unfold runFuncEnd
  rw [htime, hspc, saveCpu_view hview]

theorem turn_keeps (h : turn r = .ok (.inl next)) : next.spc.spcTime = r.spc.spcTime := by
  obtain ⟨refund, -, -, hrun⟩ := turn_inl h
  exact (instruction_keeps hrun).1

/-- The first run goes on, the second one with it. -/
def Follows (d now : ℤ) (regs : CpuRegs) (r q : Running) : Prop :=
  DirectPage r.cpu ∧ r.relTime ≤ 0 ∧ r.spc.spcTime = now - d ∧ q = r.delay d now regs

theorem follows_next (hd : 0 ≤ d) (h : Follows d now regs r q) (hturn : turn r = .ok (.inl next)) :
    turnMeasure next < turnMeasure r ∧ ∃ next', turn q = .ok (.inl next') ∧
      Follows d now regs next next' ∧ turnMeasure next' < turnMeasure q := by
  obtain ⟨hpage, hrel, hnow, rfl⟩ := h
  obtain ⟨hleft, hless⟩ := turn_goes_on hturn
  obtain ⟨refund, hin, htime, hrun⟩ := turn_inl hturn
  have hlater : turn (r.delay d now regs) = .ok (.inl (next.delay d now regs)) := by
    rw [turn_delay hd hin, hrun]
    have hrest : next.relTime - d = r.relTime + cycles r.opcode - d - refund := by rw [htime]; ring
    simp [Except.map, arrive, Running.delay, hrest]
  exact ⟨hless, next.delay d now regs, hlater,
    ⟨turn_directPage hpage hturn, hleft, (turn_keeps hturn).trans hnow, rfl⟩, (turn_goes_on hlater).2⟩

theorem follows_error (hd : 0 ≤ d) (h : Follows d now regs r q) {e : Fault}
    (hturn : turn r = .error e) : turn q = .error e := by
  obtain ⟨-, -, -, rfl⟩ := h
  unfold turn at hturn
  dsimp only at hturn
  split_ifs at hturn with hout
  rw [turn_delay hd (by omega)]
  cases hrun : r.instruction.run (handle (r.relTime + cycles r.opcode)) r.spc with
  | error e' =>
    rw [hrun] at hturn
    exact hturn
  | ok x =>
    rw [hrun] at hturn
    cases hturn

theorem iterate_turn_enough {m n : ℕ} (hm : turnMeasure r < m) (hn : turnMeasure r < n) :
    iterate turn Fault.fuel m r = iterate turn Fault.fuel n r :=
  iterate_enough (I := fun _ => True) turnMeasure (fun _ _ _ h => ⟨trivial, (turn_goes_on h).2⟩) trivial hm hn

theorem runUntil_of_le {s : Spc} {endTime : ℤ} (h : s.spcTime ≤ endTime) : runUntil_ s endTime =
    iterate turn Fault.fuel (turns (s.spcTime - endTime)) (runFunc s endTime) >>=
      runFuncEnd endTime := if_neg (by omega)

/-- The machine as it is left at `endTime`. -/
def Running.left (r : Running) (endTime : ℤ) : Spc :=
  r.spc.delay r.relTime (endTime + r.relTime) (saveCpu r.cpu)

theorem runFuncEnd_eq {endTime : ℤ} (hnow : r.spc.spcTime = endTime) (hrel : r.relTime ≤ 0) :
    runFuncEnd endTime r = .ok (r.left endTime) := by
  unfold runFuncEnd
  dsimp only [Spc.shift]
  rw [if_pos (by omega), hnow]
  rfl

theorem runFunc_left {endTime : ℤ} : runFunc (r.left (endTime - d)) endTime =
    { r.delay d endTime (saveCpu r.cpu) with cpu := loadCpu (saveCpu r.cpu) } := by
  have htime : ∀ t : ℤ, t + -r.relTime + (r.relTime - d) = t + -d := fun t => by ring
  have hrel : endTime - d + r.relTime - endTime = r.relTime - d := by ring
  unfold runFunc Running.left
  dsimp only [Spc.delay, Spc.shift, Timer.setNextTime, Running.delay]
  rw [hrel]
  simp only [htime]

theorem resume_eq {endTime : ℤ} (hd : 0 ≤ d) (h : Follows d endTime regs r q) (n : ℕ)
    (hn : turnMeasure q < n) :
    runUntil_ (r.left (endTime - d)) endTime =
      iterate turn Fault.fuel n q >>= runFuncEnd endTime := by
  obtain ⟨hpage, hrel, hnow, rfl⟩ := h
  -- the registers are stored and fetched again, and then those stored before are put back
  have hsame : SameRunning (runFunc (r.left (endTime - d)) endTime)
      (r.delay d endTime (saveCpu r.cpu)) := by
    rw [runFunc_left]
    exact ⟨rfl, rfl, view_reload hpage⟩
  have hrestored : Restored endTime regs (r.delay d endTime (saveCpu r.cpu))
      (r.delay d endTime regs) := by
    refine ⟨rfl, ?_⟩
    simp [Running.delay, Spc.delay, Spc.shift, Timer.setNextTime]
  have htime : (r.left (endTime - d)).spcTime - endTime = r.relTime - d := by
    change endTime - d + r.relTime - endTime = _
    ring
  have hturns := turnMeasure_lt_turns (r.delay d endTime regs)
  rw [runUntil_of_le (by omega), htime,
    (Agree.iterate (fun _ _ h => turn_same h) _ hsame).bind_eq
      (fun _ _ h => runFuncEnd_same h endTime),
    (Agree.iterate (fun _ _ h => turn_restored h) _ hrestored).bind_eq
      (fun _ _ h => runFuncEnd_restored h endTime),
    iterate_turn_enough hn hturns]
  rfl

theorem iterate_stopped (h : Stopped r) (hrel : r.relTime ≤ 0) {n : ℕ} (hn : 0 < n) :
    iterate turn Fault.fuel n r = .ok r.halt := by
  obtain ⟨n, rfl⟩ := Nat.exists_eq_succ_of_ne_zero hn.ne'
  rw [iterate, turn_stopped h hrel]

/-- A stopped CPU stops again at once. -/
theorem resume_stopped {endTime : ℤ} (hd : 0 ≤ d) (h : Follows d endTime regs r q)
    (hstop : Stopped r) (n : ℕ) (hn : turnMeasure q < n) :
    runUntil_ (r.halt.left (endTime - d)) endTime =
      iterate turn Fault.fuel n q >>= runFuncEnd endTime := by
  obtain ⟨hpage, hrel, hnow, rfl⟩ := h
  have htime : (r.halt.left (endTime - d)).spcTime - endTime = 0 - d := by
    change endTime - d + 0 - endTime = _
    ring
  have hagain : Stopped (runFunc (r.halt.left (endTime - d)) endTime) := hstop
  have hlater : Stopped (r.delay d endTime regs) := hstop
  have hsame : SameRunning (runFunc (r.halt.left (endTime - d)) endTime).halt
      (r.delay d endTime (saveCpu r.cpu)).halt := by
    rw [runFunc_left]
    exact ⟨rfl, rfl, view_reload hpage⟩
  have hrestored : Restored endTime regs (r.delay d endTime (saveCpu r.cpu)).halt
      (r.delay d endTime regs).halt := by
    refine ⟨rfl, ?_⟩
    simp [Running.halt, Running.delay, Spc.delay, Spc.shift, Timer.setNextTime]
  rw [runUntil_of_le (by omega), htime, iterate_stopped hagain _ (by unfold turns; omega),
    iterate_stopped hlater _ (by omega)]
  · exact (runFuncEnd_same hsame endTime).trans (runFuncEnd_restored hrestored endTime)
  · change r.relTime - d ≤ 0
    omega
  · change (r.halt.left (endTime - d)).spcTime - endTime ≤ 0
    omega

/-- A run that stops on the way and goes on from there is the run that does not. -/
theorem runUntil_split (s : Spc) {middle endTime : ℤ} (hmiddle : s.spcTime ≤ middle)
    (hend : middle ≤ endTime) :
    (runUntil_ s middle >>= fun s => runUntil_ s endTime) = runUntil_ s endTime := by
  have hd : 0 ≤ endTime - middle := by omega
  have hnow : endTime - (endTime - middle) = middle := by ring
  have hstart : Follows (endTime - middle) endTime s.cpuRegs (runFunc s middle)
      (runFunc s endTime) := by
    refine ⟨setPsw_directPage _ _, by dsimp only [runFunc]; omega, hnow.symm, ?_⟩
    have htime : ∀ t : ℤ, t + (s.spcTime - middle) + -(endTime - middle) =
        t + (s.spcTime - endTime) := fun t => by ring
    have hrel : s.spcTime - middle - (endTime - middle) = s.spcTime - endTime := by ring
    simp only [runFunc, Running.delay, Spc.delay, Spc.shift, Timer.setNextTime, htime, hrel]
  rw [runUntil_of_le hmiddle, runUntil_of_le (hmiddle.trans hend), bind_assoc]
  apply iterate_bind_eq turnMeasure turnMeasure (Follows (endTime - middle) endTime s.cpuRegs)
  · intro r q next h hturn
    exact follows_next hd h hturn
  · intro r q e h hturn
    exact follows_error hd h hturn
  · intro r q p h hturn n hn
    obtain ⟨-, hrel, hspc, -⟩ := id h
    rw [hnow] at hspc
    rcases turn_inr hturn with ⟨rfl, hout⟩ | hstop
    · rw [runFuncEnd_eq hspc hrel, ← hnow]
      exact resume_eq hd h n hn
    · rw [turn_stopped hstop hrel] at hturn
      obtain rfl := Sum.inr.inj (Except.ok.inj hturn)
      have hhalt : r.halt.spc.spcTime = middle := hspc
      rw [runFuncEnd_eq hhalt le_rfl]
      have hresume := resume_stopped hd h hstop n hn
      rw [hnow] at hresume
      exact hresume
  · exact hstart
  · exact turnMeasure_lt_turns (runFunc s middle)
  · exact turnMeasure_lt_turns (runFunc s endTime)

end Resume

end SnesApu.Apu
