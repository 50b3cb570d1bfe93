import SnesApu.Apu.Turn

/-!
# The fast memory paths

The accesses that SPC_CPU.h writes out in place, for timers in the direct page
and for stores of `MOV dp`, do what `cpu_read` and `cpu_write` do. So a run with
every access through those two functions is the same run.
-/

namespace SnesApu.Apu

open General

section Accesses

variable {s : Spc} {addr : ℕ}

theorem toNat_ofNat16 (h : addr < 0x10000) : (UInt16.ofNat addr).toNat = addr :=
  UInt16.toNat_ofNat_of_lt' h

theorem cpuReadTimer_eq (h : addr < 0x10000) (time : ℤ) :
    cpuReadTimer s addr time = cpuRead s (UInt16.ofNat addr) time := by
  unfold cpuReadTimer cpuRead
  dsimp only
  simp only [toNat_ofNat16 h]
  generalize addr - 0xF0 = reg
  by_cases htimer : 0xFD ≤ addr ∧ addr < 0xFD + 3
  · rw [dif_pos htimer, if_pos (by omega), dif_pos htimer]
  · rw [dif_neg htimer]
    split_ifs
    · rfl
    · rfl

theorem movDpImm_eq (h : addr < romAddr) (data time : ℤ) :
    movDpImm s data addr time = cpuWrite s data (UInt16.ofNat addr) time := by
  have hwide : addr < 0x10000 := by
    unfold romAddr at h
    omega
  unfold movDpImm cpuWrite
  dsimp only
  simp only [toNat_ofNat16 hwide, if_neg (Nat.not_le.mpr h)]
  generalize hreg : addr - 0xF0 = reg
  by_cases hlow : 0xF0 ≤ addr
  · by_cases hhigh : addr < 0x100
    · have hpage : reg < 0x10 := by omega
      rw [if_pos ⟨hlow, hhigh⟩, if_pos hlow, if_pos hpage]
    · have hpage : ¬ reg < 0x10 := by omega
      rw [if_neg (by omega), if_pos hlow, if_neg hpage]
  · rw [if_neg (by omega), if_neg hlow]

/-- The ports are the registers that the dispatch of `MOV dp,a` lets through and
`cpu_write` does not. -/
theorem cpuWriteSmpReg_port {reg : ℕ} (h : 4 ≤ reg ∧ reg ≤ 7) (data time : ℤ) :
    cpuWriteSmpReg_ s data time reg = s := by
  unfold cpuWriteSmpReg_ rT0target rT0out rControl
  rw [dif_neg (by omega), dif_neg (by omega), if_neg (by omega), if_neg (by omega)]

theorem dispatch_eq (a time : ℤ) (reg : ℕ) :
    (if reg = 3 then dspWrite s a time
      else if reg ≠ 2 then .ok (cpuWriteSmpReg_ s a time reg) else .ok s) =
      if reg ≠ 2 ∧ (reg < 4 ∨ 7 < reg) then cpuWriteSmpReg s a time reg else .ok s := by
  unfold cpuWriteSmpReg rDspdata
  by_cases hdata : reg = 3
  · rw [if_pos hdata, if_pos (by omega), if_pos hdata]
  · rw [if_neg hdata, if_neg hdata]
    by_cases hport : 4 ≤ reg ∧ reg ≤ 7
    · rw [if_pos (by omega), if_neg (by omega), cpuWriteSmpReg_port hport]
    · by_cases haddr : reg = 2
      · rw [if_neg (by omega), if_neg (by omega)]
      · rw [if_pos haddr, if_pos (by omega)]

theorem movDpA_eq (h : addr < romAddr) (a time : ℤ) :
    movDpA s a addr time = cpuWrite s a (UInt16.ofNat addr) time := by
  rw [← movDpImm_eq h]
  unfold movDpA movDpImm
  dsimp only
  rw [dispatch_eq]

end Accesses

/-- Every access through `cpu_read` and `cpu_write`. -/
def plainHandle (rel : ℤ) (s : Spc) : (o : BusOp) → Except Fault (Spc × o.Ans)
  | .readTimer offset addr => cpuRead s (UInt16.ofNat addr) (rel + offset)
  | .movDpImm addr data => do
    let s ← cpuWrite s data (UInt16.ofNat addr) rel
    pure (s, ())
  | .movDpA addr data => do
    let s ← cpuWrite s data (UInt16.ofNat addr) rel
    pure (s, ())
  | .peek addr => handle rel s (.peek addr)
  | .poke addr data => handle rel s (.poke addr data)
  | .read offset addr => handle rel s (.read offset addr)
  | .write offset addr data => handle rel s (.write offset addr data)

def plainTurn (r : Running) : Except Fault (Running ⊕ Running) :=
  let relTime := r.relTime + cycles r.opcode
  if 0 < relTime then .ok (.inr r)
  else (r.instruction.run (plainHandle relTime) r.spc).map (arrive relTime)

/-! ### The addresses of an instruction -/

def InRange : BusOp → Prop
  | .readTimer _ addr => addr < 0x10000
  | .movDpImm addr _ => addr < romAddr
  | .movDpA addr _ => addr < romAddr
  | _ => True

theorem handle_plain {rel : ℤ} (s : Spc) {o : BusOp} (h : InRange o) :
    handle rel s o = plainHandle rel s o := by
  cases o with
  | readTimer offset addr => exact cpuReadTimer_eq h _
  | movDpImm addr data => exact congrArg (· >>= _) (movDpImm_eq h data rel)
  | movDpA addr data => exact congrArg (· >>= _) (movDpA_eq h data rel)
  | peek addr => rfl
  | poke addr data => rfl
  | read offset addr => rfl
  | write offset addr data => rfl

def DirectPage (cpu : Cpu) : Prop := cpu.dp = 0 ∨ cpu.dp = 0x100

def Flow.cpu : Flow → Cpu
  | .next cpu _ => cpu
  | .stop cpu => cpu

/-- The program stays in range and leaves the direct page at one of its two places. -/
def Ranged (p : Bus Flow) : Prop :=
  Program.Obeys (fun _ o => InRange o) (fun _ _ => ()) (fun _ flow => DirectPage flow.cpu) () p

section Ranged

variable {offset : ℤ} {cpu : Cpu}

@[simp] theorem ranged_ret {flow : Flow} : Ranged (.ret flow) ↔ DirectPage flow.cpu := Iff.rfl

@[simp] theorem next_cpu {refund : ℤ} : (Flow.next cpu refund).cpu = cpu := rfl

@[simp] theorem stop_cpu : (Flow.stop cpu).cpu = cpu := rfl

@[simp] theorem ranged_peek {addr : ℕ} {f : UInt8 → Bus Flow} :
    Ranged (Bus.peek addr >>= f) ↔ ∀ data, Ranged (f data) :=
  ⟨fun h => h.2, fun h => ⟨trivial, h⟩⟩

@[simp] theorem ranged_poke {addr : ℕ} {data : UInt8} {f : Unit → Bus Flow} :
    Ranged (Bus.poke addr data >>= f) ↔ Ranged (f ()) :=
  ⟨fun h => h.2 (), fun h => ⟨trivial, fun _ => h⟩⟩

@[simp] theorem ranged_read {addr : UInt16} {f : UInt8 → Bus Flow} :
    Ranged (Bus.read offset addr >>= f) ↔ ∀ data, Ranged (f data) :=
  ⟨fun h => h.2, fun h => ⟨trivial, h⟩⟩

@[simp] theorem ranged_readTimer {addr : ℕ} {f : UInt8 → Bus Flow} :
    Ranged (Bus.readTimer offset addr >>= f) ↔ addr < 0x10000 ∧ ∀ data, Ranged (f data) := Iff.rfl

@[simp] theorem ranged_write {addr : UInt16} {data : ℤ} {f : Unit → Bus Flow} :
    Ranged (Bus.write offset addr data >>= f) ↔ Ranged (f ()) :=
  ⟨fun h => h.2 (), fun h => ⟨trivial, fun _ => h⟩⟩

@[simp] theorem ranged_movDpImm {addr : ℕ} {data : ℤ} {f : Unit → Bus Flow} :
    Ranged (Bus.movDpImm addr data >>= f) ↔ addr < romAddr ∧ Ranged (f ()) :=
  and_congr Iff.rfl ⟨fun h => h (), fun h _ => h⟩

@[simp] theorem ranged_movDpA {addr : ℕ} {data : ℤ} {f : Unit → Bus Flow} :
    Ranged (Bus.movDpA addr data >>= f) ↔ addr < romAddr ∧ Ranged (f ()) :=
  and_congr Iff.rfl ⟨fun h => h (), fun h _ => h⟩

theorem ranged_address {mode : Mode} {data : UInt32} {f : Cpu × UInt32 → Bus Flow}
    (h : ∀ r : Cpu × UInt32, r.1.dp = cpu.dp → Ranged (f r)) :
    Ranged (address mode cpu data >>= f) := by
  cases mode <;> simp [address, readProg16, h]

theorem ranged_addressMem {mode : Mode} {data : UInt32} {f : Cpu × UInt32 → Bus Flow}
    (h : ∀ r : Cpu × UInt32, r.1.dp = cpu.dp → Ranged (f r)) :
    Ranged (addressMem mode cpu data >>= f) := by
  cases mode <;> simp [addressMem, absolute16, readPc16, readProg16, h]

theorem ranged_branch {data : UInt32} {cond : Bool} (h : DirectPage cpu) :
    Ranged (branch cpu data cond) := by
  unfold branch
  dsimp only
  split_ifs
  · exact h
  · exact h

theorem ranged_cbranch {cond : Bool} (h : DirectPage cpu) : Ranged (cbranch cpu cond) := by
  unfold cbranch
  dsimp only
  split_ifs
  · simp only [ranged_peek]
    exact fun _ => h
  · exact h

theorem dpAddr_lt (h : DirectPage cpu) (b : UInt8) : (dpAddr cpu b.toUInt32).toNat < 0x200 := by
  have hb := b.toNat_lt
  unfold dpAddr
  rw [UInt32.toNat_add, UInt8.toNat_toUInt32]
  rcases h with h | h
  · rw [h, show ((0 : Int32).toUInt32).toNat = 0 from rfl]
    omega
  · rw [h, show ((0x100 : Int32).toUInt32).toNat = 0x100 from rfl]
    omega

theorem word_lt (lo hi : UInt8) : (lo.toUInt32 ||| hi.toUInt32 <<< 8).toNat < 0x10000 := by
  have hlo := lo.toNat_lt
  have hhi := hi.toNat_lt
  have hshift : (hi.toUInt32 <<< 8).toNat < 2 ^ 16 := by
    rw [UInt32.toNat_shiftLeft, UInt8.toNat_toUInt32]
    refine lt_of_le_of_lt (Nat.mod_le _ _) ?_
    rw [show (8 : UInt32).toNat % 32 = 8 from rfl, Nat.shiftLeft_eq]
    omega
  rw [UInt32.toNat_or]
  refine Nat.or_lt_two_pow ?_ hshift
  rw [UInt8.toNat_toUInt32]
  omega

theorem setPsw_dp : ∀ b : UInt8, toInt b <<< 3 &&& 0x100 = 0 ∨ toInt b <<< 3 &&& 0x100 = 0x100 := by
  decide +kernel

theorem setPsw_directPage (cpu : Cpu) (b : UInt8) : DirectPage (setPsw cpu (toInt b)) :=
  setPsw_dp b

end Ranged

section DirectPage

variable (cpu : Cpu) (data left right lo hi : UInt8) (flag : Bool)

@[simp] theorem setReg_dp (reg : Reg) : (cpu.setReg reg data).dp = cpu.dp := by
  cases reg <;> rfl

@[simp] theorem load_dp (reg : Reg) : (cpu.load reg data).dp = cpu.dp := setReg_dp cpu data reg

@[simp] theorem compare_dp : (compare cpu left right).dp = cpu.dp := rfl

@[simp] theorem addCarry_dp : (addCarry cpu flag left right).dp = cpu.dp := rfl

@[simp] theorem rol_dp : (rol cpu data).dp = cpu.dp := rfl

@[simp] theorem ror_dp : (ror cpu data).dp = cpu.dp := rfl

@[simp] theorem clearC_dp : (clearC cpu flag).dp = cpu.dp := by
  cases flag <;> rfl

@[simp] theorem addWord_dp : (addWord cpu flag lo hi).dp = cpu.dp := rfl

@[simp] theorem compareWord_dp : (compareWord cpu lo hi).dp = cpu.dp := rfl

@[simp] theorem multiply_dp : (multiply cpu).dp = cpu.dp := rfl

@[simp] theorem divide_dp : (divide cpu).dp = cpu.dp := rfl

@[simp] theorem decimalAdd_dp : (decimalAdd cpu).dp = cpu.dp := rfl

@[simp] theorem decimalSub_dp : (decimalSub cpu).dp = cpu.dp := rfl

@[simp] theorem skip2_dp : (skip2 cpu).dp = cpu.dp := rfl

end DirectPage

theorem exec_ranged (instr : Instr) {cpu : Cpu} (data : UInt8) (h : DirectPage cpu) :
    Ranged (exec instr cpu data) := by
  -- the direct page reaches to `$1FF`, far below the ROM
  have hdp : ∀ (q : Cpu) (b : UInt8), q.dp = cpu.dp → (dpAddr q b.toUInt32).toNat < romAddr :=
    fun q b hq => (dpAddr_lt (by rwa [DirectPage, hq]) b).trans (by norm_num [romAddr])
  have hwide : ∀ (q : Cpu) (b : UInt8), q.dp = cpu.dp → (dpAddr q b.toUInt32).toNat < 0x10000 :=
    fun q b hq => (hdp q b hq).trans (by norm_num [romAddr])
  have hindex : ∀ (q : Cpu) (d : UInt32) (r : UInt8), q.dp = cpu.dp →
      (dpAddr q (index d r)).toNat < 0x10000 := fun q d r hq => hwide q _ hq
  cases instr with
  | branch cond | dbnzY => exact ranged_branch h
  | bitBranch set bit | dbnzDp => simp [exec, readDp, writeDp, ranged_cbranch h]
  | cbne indexed =>
    cases indexed <;> simp [exec, readDpTimer, ranged_cbranch h, hwide, hindex]
  | logicalDp op fromDp | cmpDp fromDp | adcDp sub fromDp =>
    cases fromDp <;> simp [exec, readDp, loop, incPcLoop, DirectPage] <;> exact h
  | logical op mode | cmp mode | adc sub mode | movA mode | movTo mode =>
    refine ranged_address fun r hr => ?_
    simp only [incPcLoop, ranged_read, ranged_write, Program.pure_eq, ranged_ret, next_cpu,
      DirectPage, load_dp, compare_dp, addCarry_dp, hr]
    first | exact h | exact fun _ => h
  | incMem up mode | rolMem clear mode | rorMem clear mode =>
    refine ranged_addressMem fun r hr => ?_
    have hr' : r.1.dp = cpu.dp := by simpa using hr
    simp only [incPcLoop, ranged_read, ranged_write, Program.pure_eq, ranged_ret, next_cpu,
      DirectPage, rol_dp, ror_dp, hr']
    exact fun _ => h
  | stop =>
    simp only [exec, loop]
    split_ifs
    · exact h
    · exact h
  | movXDp indexed | movYDp indexed =>
    cases indexed <;>
      simp [exec, readDpTimer, loop, incPcLoop, DirectPage, hwide, hindex] <;> exact h
  | ret1 | popPsw => simp [exec, pop, loop, setPsw_directPage]
  | clrp => exact .inl rfl
  | setp => exact .inr rfl
  | movYAbs =>
    simp only [exec, readPc16, readProg16, bind_assoc, ranged_peek, Program.pure_eq,
      Program.ret_bind, ranged_readTimer]
    exact fun lo hi => ⟨word_lt lo hi, fun _ => h⟩
  | movADpTimer | movDpImm | movDpDp | movDpA =>
    simp [exec, readDpTimer, loop, DirectPage, hwide, hdp]
    exact h
  | _ =>
    simp [exec, readDp, writeDp, readPc16, readProg16, push16, push, pop, absolute16, memBit, loop,
      incPcLoop, DirectPage]
    exact h

/-! ### Whole runs -/

section Runs

variable {r : Running}

theorem exec_plain (instr : Instr) {cpu : Cpu} (data : UInt8) (h : DirectPage cpu) (rel : ℤ)
    (s : Spc) : (exec instr cpu data).run (handle rel) s =
      (exec instr cpu data).run (plainHandle rel) s :=
  Program.Obeys.run_eq (exec_ranged instr data h) (fun _ s _ ho => handle_plain s ho) s

theorem turn_plain (h : DirectPage r.cpu) : turn r = plainTurn r := by
  have hnext : DirectPage { r.cpu with pc := r.cpu.pc + 1 } := h
  unfold turn plainTurn Running.instruction
  dsimp only
  rw [exec_plain _ _ hnext]

theorem turn_directPage (h : DirectPage r.cpu) {next : Running} (hturn : turn r = .ok (.inl next)) :
    DirectPage next.cpu := by
  have hnext : DirectPage { r.cpu with pc := r.cpu.pc + 1 } := h
  obtain ⟨refund, -, -, hrun⟩ := turn_inl hturn
  obtain ⟨-, hpage⟩ := Program.Obeys.post_of_run (exec_ranged _ _ hnext) hrun
  exact hpage

/-- `run_until_` with every access through `cpu_read` and `cpu_write`. -/
def plainRunUntil_ (s : Spc) (endTime : ℤ) : Except Fault Spc := do
  let rel := s.spcTime - endTime
  if 0 < rel then .error .assertion
  else
    let r ← iterate plainTurn Fault.fuel (turns rel) (runFunc s endTime)
    runFuncEnd endTime r

theorem runUntil_plain (s : Spc) (endTime : ℤ) : runUntil_ s endTime = plainRunUntil_ s endTime := by
  have hstart : DirectPage (runFunc s endTime).cpu := setPsw_directPage _ _
  unfold runUntil_ plainRunUntil_
  dsimp only
  split_ifs
  · rfl
  · rw [iterate_congr (fun r : Running => DirectPage r.cpu) (fun r hr => turn_plain hr)
      (fun r next hr hturn => turn_directPage hr hturn) _ hstart]

end Runs

end SnesApu.Apu
