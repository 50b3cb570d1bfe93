import SnesApu.Apu.FastPaths

/-!
# The flags of the SMP

The emulator keeps the flags in pieces of wider values. `Arch` is the CPU as a
programmer sees it, with one bit for each flag. An instruction does the same to
two states that look the same, so that storing the registers and fetching them
again, as every frame does, changes nothing.
-/

namespace SnesApu.Apu

open General

/-! ### Bits -/

/-- Bit `i` of an `int`. -/
def bitOf (n : Int32) (i : ℕ) : Bool := n.toBitVec.getLsbD i

section Bits

variable (m n : Int32) (i : ℕ)

@[simp] theorem bitOf_and : bitOf (m &&& n) i = (bitOf m i && bitOf n i) := by simp [bitOf]

@[simp] theorem bitOf_or : bitOf (m ||| n) i = (bitOf m i || bitOf n i) := by simp [bitOf]

@[simp] theorem bitOf_xor : bitOf (m ^^^ n) i = (bitOf m i ^^ bitOf n i) := by simp [bitOf]

@[simp] theorem bitOf_not : bitOf (~~~m) i = (decide (i < 32) && !bitOf m i) := by simp [bitOf]

theorem int32_ext {m n : Int32} (h : ∀ i < 32, bitOf m i = bitOf n i) : m = n :=
  Int32.toBitVec_inj.mp (BitVec.eq_of_getLsbD_eq h)

theorem carry_low (c : Int32) : c >>> 8 &&& 1 = if bitOf c 8 then 1 else 0 := by
  refine int32_ext fun i hi => ?_
  unfold bitOf
  interval_cases i <;> split <;> simp_all [BitVec.getElem_sshiftRight]

theorem carry_high (c : Int32) : c >>> 1 &&& 0x80 = if bitOf c 8 then 0x80 else 0 := by
  refine int32_ext fun i hi => ?_
  unfold bitOf
  interval_cases i <;> split <;> simp_all [BitVec.getElem_sshiftRight]

theorem carry_mask (c : Int32) : c &&& 0x100 = if bitOf c 8 then 0x100 else 0 := by
  refine int32_ext fun i hi => ?_
  unfold bitOf
  interval_cases i <;> split <;> simp_all

theorem overflow_mask (psw : Int32) : psw &&& v40 = if bitOf psw 6 then v40 else 0 := by
  refine int32_ext fun i hi => ?_
  unfold bitOf v40
  interval_cases i <;> split <;> simp_all

theorem half_mask (psw : Int32) : psw &&& h08 = if bitOf psw 3 then h08 else 0 := by
  refine int32_ext fun i hi => ?_
  unfold bitOf h08
  interval_cases i <;> split <;> simp_all

theorem negative_bit (nz : Int32) :
    (nz >>> 4 ||| nz) &&& n80 = if bitOf nz 11 || bitOf nz 7 then n80 else 0 := by
  refine int32_ext fun i hi => ?_
  unfold bitOf n80
  interval_cases i <;> split <;> simp_all [BitVec.getElem_sshiftRight]

theorem negative_mask (nz : Int32) : nz &&& nzNegMask = 0 ↔ (bitOf nz 11 || bitOf nz 7) = false := by
  constructor
  · intro h
    have h7 := congrArg (bitOf · 7) h
    have h11 := congrArg (bitOf · 11) h
    simp only [bitOf_and] at h7 h11
    rw [show bitOf nzNegMask 7 = true from rfl, Bool.and_true] at h7
    rw [show bitOf nzNegMask 11 = true from rfl, Bool.and_true] at h11
    rw [h7, h11]
    rfl
  · intro h
    refine int32_ext fun i hi => ?_
    unfold bitOf nzNegMask at *
    interval_cases i <;> simp_all

end Bits

/-! ### The architecture -/

structure Arch where
  a : UInt8
  x : UInt8
  y : UInt8
  pc : UInt16
  sp : UInt8
  dp : Int32
  n : Bool
  v : Bool
  b : Bool
  h : Bool
  i : Bool
  z : Bool
  c : Bool
  deriving DecidableEq

def view (cpu : Cpu) : Arch where
  a := cpu.a
  x := cpu.x
  y := cpu.y
  pc := cpu.pc
  sp := cpu.sp
  dp := cpu.dp
  n := bitOf cpu.nz 11 || bitOf cpu.nz 7
  v := bitOf cpu.psw 6
  b := bitOf cpu.psw 4
  h := bitOf cpu.psw 3
  i := bitOf cpu.psw 2
  z := toByte cpu.nz = 0
  c := bitOf cpu.c 8

def SameFlow : Flow → Flow → Prop
  | .next p refund, .next q refund' => view p = view q ∧ refund = refund'
  | .stop p, .stop q => view p = view q
  | _, _ => False

abbrev SameRun (p q : Bus Flow) : Prop := Program.Match SameFlow p q

section View

variable {p q : Cpu}

theorem holds_view (h : view p = view q) (cond : Cond) : cond.holds p = cond.holds q := by
  simp only [view, Arch.mk.injEq] at h
  obtain ⟨-, -, -, -, -, -, hn, hv, -, -, -, hz, hc⟩ := h
  cases cond <;> simp only [Cond.holds, ne_eq, negative_mask, overflow_mask, carry_mask, hn, hv, hc] <;>
    simpa using hz

theorem toByte_bit (n : Int32) {i : ℕ} (hi : i < 8) :
    (toByte n).toBitVec.getLsbD i = bitOf n i := by
  unfold toByte bitOf
  simp [hi]

theorem page_bit (dp : Int32) : dp >>> 3 &&& p20 = if bitOf dp 8 then p20 else 0 := by
  refine int32_ext fun i hi => ?_
  unfold bitOf p20
  interval_cases i <;> split <;> simp_all [BitVec.getElem_sshiftRight]

/-- The bits of the program status word, from the carry up. -/
theorem getPsw_bits (cpu : Cpu) {i : ℕ} (hi : i < 8) : bitOf (getPsw cpu) i =
    [(view cpu).c, (view cpu).z, (view cpu).i, (view cpu).h, (view cpu).b, bitOf cpu.dp 8,
      (view cpu).v, (view cpu).n].getD i false := by
  unfold getPsw
  dsimp only
  rw [negative_bit, page_bit, show c01 = 1 from rfl, carry_low]
  interval_cases i <;> simp [view] <;> split_ifs <;> simp_all [bitOf, n80, p20, z02]

theorem psw_view (h : view p = view q) : toByte (getPsw p) = toByte (getPsw q) := by
  refine UInt8.toBitVec_inj.mp (BitVec.eq_of_getLsbD_eq fun i hi => ?_)
  have hdp : p.dp = q.dp := congrArg Arch.dp h
  rw [toByte_bit _ hi, toByte_bit _ hi, getPsw_bits p hi, getPsw_bits q hi, h, hdp]

theorem view_iff : view p = view q ↔ p.a = q.a ∧ p.x = q.x ∧ p.y = q.y ∧ p.pc = q.pc ∧ p.sp = q.sp ∧
    p.dp = q.dp ∧ (bitOf p.nz 11 || bitOf p.nz 7) = (bitOf q.nz 11 || bitOf q.nz 7) ∧
    bitOf p.psw 6 = bitOf q.psw 6 ∧ bitOf p.psw 4 = bitOf q.psw 4 ∧ bitOf p.psw 3 = bitOf q.psw 3 ∧
    bitOf p.psw 2 = bitOf q.psw 2 ∧ (toByte p.nz = 0 ↔ toByte q.nz = 0) ∧ bitOf p.c 8 = bitOf q.c 8 := by
  simp [view]

theorem reg_view (h : view p = view q) (reg : Reg) : p.reg reg = q.reg reg := by
  rw [view_iff] at h
  cases reg <;> simp [Cpu.reg, h]

theorem load_view (h : view p = view q) (reg : Reg) (data : UInt8) :
    view (p.load reg data) = view (q.load reg data) := by
  rw [view_iff] at h ⊢
  cases reg <;> simp [Cpu.load, Cpu.setReg, h]

theorem clearC_view (h : view p = view q) (clear : Bool) : view (clearC p clear) = view (clearC q clear) := by
  cases clear
  · exact h
  · rw [view_iff] at h ⊢
    simp [clearC, h]

theorem multiply_view (h : view p = view q) : view (multiply p) = view (multiply q) := by
  rw [view_iff] at h ⊢
  simp [multiply, h]

theorem divide_view (h : view p = view q) : view (divide p) = view (divide q) := by
  rw [view_iff] at h ⊢
  simp only [divide, h]
  split_ifs <;> simp [h]

theorem decimalAdd_view (h : view p = view q) : view (decimalAdd p) = view (decimalAdd q) := by
  rw [view_iff] at h ⊢
  simp only [decimalAdd, carry_mask, half_mask, h]
  split_ifs <;> simp_all

theorem decimalSub_view (h : view p = view q) : view (decimalSub p) = view (decimalSub q) := by
  rw [view_iff] at h ⊢
  simp only [decimalSub, carry_mask, half_mask, h]
  split_ifs <;> simp_all

end View

section Same

variable {offset : ℤ}

@[simp] theorem same_ret {s t : Flow} : SameRun (.ret s) (.ret t) ↔ SameFlow s t :=
  ⟨fun h => by cases h; assumption, .ret⟩

@[simp] theorem sameFlow_next {p q : Cpu} {r r' : ℤ} :
    SameFlow (.next p r) (.next q r') ↔ view p = view q ∧ r = r' := Iff.rfl

@[simp] theorem sameFlow_stop {p q : Cpu} : SameFlow (.stop p) (.stop q) ↔ view p = view q := Iff.rfl

theorem same_op {o : BusOp} {k k' : o.Ans → Bus Flow} :
    SameRun (.op o k) (.op o k') ↔ ∀ r, SameRun (k r) (k' r) :=
  ⟨fun h => by cases h; assumption, .op⟩

@[simp] theorem same_peek {addr : ℕ} {f g : UInt8 → Bus Flow} :
    SameRun (Bus.peek addr >>= f) (Bus.peek addr >>= g) ↔ ∀ data, SameRun (f data) (g data) := same_op

@[simp] theorem same_poke {addr : ℕ} {data : UInt8} {f g : Unit → Bus Flow} :
    SameRun (Bus.poke addr data >>= f) (Bus.poke addr data >>= g) ↔ SameRun (f ()) (g ()) :=
  same_op.trans ⟨fun h => h (), fun h _ => h⟩

@[simp] theorem same_read {addr : UInt16} {f g : UInt8 → Bus Flow} :
    SameRun (Bus.read offset addr >>= f) (Bus.read offset addr >>= g) ↔ ∀ data, SameRun (f data) (g data) := same_op

@[simp] theorem same_readTimer {addr : ℕ} {f g : UInt8 → Bus Flow} :
    SameRun (Bus.readTimer offset addr >>= f) (Bus.readTimer offset addr >>= g) ↔ ∀ data, SameRun (f data) (g data) := same_op

@[simp] theorem same_write {addr : UInt16} {data : ℤ} {f g : Unit → Bus Flow} :
    SameRun (Bus.write offset addr data >>= f) (Bus.write offset addr data >>= g) ↔ SameRun (f ()) (g ()) :=
  same_op.trans ⟨fun h => h (), fun h _ => h⟩

@[simp] theorem same_movDpImm {addr : ℕ} {data : ℤ} {f g : Unit → Bus Flow} :
    SameRun (Bus.movDpImm addr data >>= f) (Bus.movDpImm addr data >>= g) ↔ SameRun (f ()) (g ()) :=
  same_op.trans ⟨fun h => h (), fun h _ => h⟩

@[simp] theorem same_movDpA {addr : ℕ} {data : ℤ} {f g : Unit → Bus Flow} :
    SameRun (Bus.movDpA addr data >>= f) (Bus.movDpA addr data >>= g) ↔ SameRun (f ()) (g ()) :=
  same_op.trans ⟨fun h => h (), fun h _ => h⟩

end Same

/-! ### Instructions -/

section Exec

variable {p q : Cpu}

def SameAddress (r s : Cpu × UInt32) : Prop := view r.1 = view s.1 ∧ r.2 = s.2

theorem address_same (mode : Mode) (h : view p = view q) (data : UInt32) :
    Program.Match SameAddress (address mode p data) (address mode q data) := by
  have hp := view_iff.mp h
  cases mode <;> simp only [address, hp, dpAddr]
  all_goals first | exact .ret ⟨by rw [view_iff] at h ⊢; simp [h], rfl⟩ | skip
  all_goals refine .bind_left _ fun r => .ret ⟨by rw [view_iff] at h ⊢; simp [h], rfl⟩

theorem addressMem_same (mode : Mode) (h : view p = view q) (data : UInt32) :
    Program.Match SameAddress (addressMem mode p data) (addressMem mode q data) := by
  have hp := view_iff.mp h
  cases mode <;> simp only [addressMem, absolute16, readPc16, hp, dpAddr]
  all_goals first | exact .ret ⟨by rw [view_iff] at h ⊢; simp [h], rfl⟩ | skip
  all_goals refine .bind_left _ fun r => .ret ⟨by rw [view_iff] at h ⊢; simp [h], rfl⟩

theorem branch_same (h : view p = view q) (data : UInt32) (cond : Bool) :
    SameRun (branch p data cond) (branch q data cond) := by
  rw [view_iff] at h
  unfold branch
  dsimp only
  split_ifs <;> simp [view_iff, h]

theorem cbranch_same (h : view p = view q) (cond : Bool) :
    SameRun (cbranch p cond) (cbranch q cond) := by
  rw [view_iff] at h
  unfold cbranch
  dsimp only
  rw [h.2.2.2.1]
  split_ifs <;> simp [view_iff, h]

theorem exec_same (instr : Instr) (data : UInt8) (h : view p = view q) :
    SameRun (exec instr p data) (exec instr q data) := by
  have hp := view_iff.mp h
  cases instr with
  | branch cond =>
    simp only [exec, holds_view h]
    exact branch_same h _ _
  | dbnzY =>
    simp only [exec, hp]
    exact branch_same (by rw [view_iff] at h ⊢; simp [h]) _ _
  | bitBranch set bit | dbnzDp =>
    simp [exec, readDp, writeDp, dpAddr, hp, cbranch_same h]
  | cbne indexed =>
    simp [exec, readDpTimer, dpAddr, hp, cbranch_same h]
  | logicalDp op fromDp =>
    cases fromDp <;> simp [exec, readDp, dpAddr, loop, skip2, view_iff, hp]
  | cmpDp fromDp =>
    cases fromDp <;> simp [exec, readDp, dpAddr, incPcLoop, compare, view_iff, hp]
  | adcDp sub fromDp =>
    cases fromDp <;> simp [exec, readDp, dpAddr, incPcLoop, addCarry, carry_low, view_iff, hp]
  | adcXY sub =>
    simp [exec, readDp, dpAddr, loop, addCarry, carry_low, view_iff, hp]
  | adcImm sub =>
    simp [exec, incPcLoop, addCarry, carry_low, view_iff, hp]
  | logical op mode | cmp mode | adc sub mode | movA mode | movTo mode =>
    refine (address_same mode h _).bind fun r s hrs => ?_
    obtain ⟨hview, haddr⟩ := hrs
    have hr := view_iff.mp hview
    simp [incPcLoop, Cpu.load, Cpu.setReg, compare, addCarry, carry_low, view_iff, hr, haddr]
  | incMem up mode =>
    refine (addressMem_same mode h _).bind fun r s hrs => ?_
    obtain ⟨hview, haddr⟩ := hrs
    have hr := view_iff.mp hview
    simp [incPcLoop, view_iff, hr, haddr]
  | rolMem clear mode | rorMem clear mode =>
    refine (addressMem_same mode (clearC_view h clear) _).bind fun r s hrs => ?_
    obtain ⟨hview, haddr⟩ := hrs
    have hr := view_iff.mp hview
    simp [incPcLoop, rol, ror, carry_low, carry_high, view_iff, hr, haddr]
  | rolA clear | rorA clear =>
    have hc := view_iff.mp (clearC_view h clear)
    simp [exec, loop, rol, ror, carry_low, carry_high, view_iff, hc, hp]
  | stop =>
    simp only [exec, loop, hp]
    split_ifs <;> simp [view_iff, hp]
  | addw sub =>
    simp [exec, readDp, dpAddr, incPcLoop, addWord, view_iff, hp]
  | cmpw =>
    simp [exec, readDp, dpAddr, incPcLoop, compareWord, view_iff, hp]
  | mul => simpa [exec, loop] using multiply_view h
  | div => simpa [exec, loop] using divide_view h
  | daa => simpa [exec, loop] using decimalAdd_view h
  | das => simpa [exec, loop] using decimalSub_view h
  | transfer dst src =>
    simpa [exec, loop, reg_view h] using load_view h _ _
  | movXDp indexed | movYDp indexed =>
    simp [exec, readDpTimer, dpAddr, loop, incPcLoop, Cpu.load, Cpu.setReg, view_iff, hp]
  | movAbsReg reg =>
    simp [exec, readPc16, readProg16, reg_view h, loop, skip2, view_iff, hp]
  | cmpImm reg | cmpRegDp reg | cmpRegAbs reg =>
    cases reg <;>
      simp [exec, readDp, dpAddr, absolute16, readPc16, readProg16, Cpu.reg, incPcLoop, compare,
        view_iff, hp]
  | incReg reg | decReg reg =>
    cases reg <;> simp [exec, loop, Cpu.reg, Cpu.setReg, view_iff, hp]
  | push reg =>
    simp [exec, push, loop, reg_view h, view_iff, hp]
  | pop reg => cases reg <;> simp [exec, pop, loop, Cpu.setReg, view_iff, hp]
  | ret1 | popPsw =>
    simp [exec, pop, loop, setPsw, hp]
  | pushPsw =>
    simp [exec, push, loop, psw_view h, view_iff, hp]
  | brk =>
    have hpush : ∀ pc sp, toByte (getPsw { p with pc := pc, sp := sp }) =
        toByte (getPsw { q with pc := pc, sp := sp }) := fun pc sp =>
      psw_view (by rw [view_iff] at h ⊢; simp [h])
    simp only [hp] at hpush
    simp [exec, readProg16, push16, push, loop, hpush, view_iff, hp]
  | mov1Mem =>
    simp [exec, readPc16, readProg16, loop, skip2, carry_low, view_iff, hp]
  | _ =>
    simp [exec, readDp, writeDp, readDpTimer, readPc16, readProg16, push16, push, pop, absolute16, memBit, loop,
      incPcLoop, skip2, dpAddr, Cpu.load, Cpu.setReg, compare, view_iff, hp]

end Exec

/-! ### Storing and fetching the registers -/

section Reload

variable {cpu : Cpu} {r : Running}

theorem fetched_bits : ∀ b : UInt8, ∀ k < 8, bitOf (toInt b) k = b.toBitVec.getLsbD k := by
  decide +kernel

theorem fetched_c : ∀ b : UInt8, bitOf (toInt b <<< 8) 8 = b.toBitVec.getLsbD 0 := by
  decide +kernel

theorem fetched_dp : ∀ b : UInt8, toInt b <<< 3 &&& 0x100 = if b.toBitVec.getLsbD 5 then 0x100 else 0 := by
  decide +kernel

theorem fetched_n : ∀ b : UInt8, (bitOf ((toInt b <<< 4 &&& 0x800) ||| (~~~toInt b &&& z02)) 11 ||
    bitOf ((toInt b <<< 4 &&& 0x800) ||| (~~~toInt b &&& z02)) 7) = b.toBitVec.getLsbD 7 := by
  decide +kernel

theorem fetched_z : ∀ b : UInt8,
    decide (toByte ((toInt b <<< 4 &&& 0x800) ||| (~~~toInt b &&& z02)) = 0) =
      b.toBitVec.getLsbD 1 := by
  decide +kernel

/-- What `run_until_` fetches looks like what it stored. -/
theorem view_reload (h : DirectPage cpu) : view (loadCpu (saveCpu cpu)) = view cpu := by
  have hbit : ∀ k < 8, (toByte (getPsw cpu)).toBitVec.getLsbD k =
      [(view cpu).c, (view cpu).z, (view cpu).i, (view cpu).h, (view cpu).b, bitOf cpu.dp 8,
        (view cpu).v, (view cpu).n].getD k false := fun k hk => by
    rw [toByte_bit _ hk, getPsw_bits cpu hk]
  have hdp : (if bitOf cpu.dp 8 then 0x100 else 0) = cpu.dp := by
    rcases h with h | h
    · rw [h]
      rfl
    · rw [h]
      rfl
  have hkept : ∀ k < 8, bitOf (toInt (toByte (getPsw cpu))) k = _ := fun k hk =>
    (fetched_bits (toByte (getPsw cpu)) k hk).trans (hbit k hk)
  simp only [view, loadCpu, saveCpu, setPsw, Arch.mk.injEq, true_and]
  refine ⟨?_, ?_, hkept 6 (by norm_num), hkept 4 (by norm_num), hkept 3 (by norm_num),
    hkept 2 (by norm_num), ?_, ?_⟩
  · rw [fetched_dp, hbit 5 (by norm_num)]
    exact hdp
  · rw [fetched_n, hbit 7 (by norm_num)]
    rfl
  · exact (fetched_z _).trans (hbit 1 (by norm_num))
  · rw [fetched_c, hbit 0 (by norm_num)]
    rfl

/-- The states that differ at most in how the flags are kept. -/
def SameRunning (r q : Running) : Prop :=
  r.relTime = q.relTime ∧ r.spc = q.spc ∧ view r.cpu = view q.cpu

theorem turn_same {r q : Running} (h : SameRunning r q) :
    Agree (Sum.LiftRel SameRunning SameRunning) (turn r) (turn q) := by
  obtain ⟨rel, p, s⟩ := r
  obtain ⟨rel', q, s'⟩ := q
  obtain ⟨htime, hspc, hview⟩ := h
  dsimp only at htime hspc hview
  subst htime hspc
  have hpc : p.pc = q.pc := congrArg Arch.pc hview
  have hopcode : Running.opcode ⟨rel, p, s⟩ = Running.opcode ⟨rel, q, s⟩ := by
    unfold Running.opcode
    rw [hpc]
  unfold turn
  rw [hopcode]
  dsimp only
  split_ifs
  · exact .inr ⟨rfl, rfl, hview⟩
  · have hnext : view { p with pc := p.pc + 1 } = view { q with pc := q.pc + 1 } := by
      rw [view_iff] at hview ⊢
      simp [hview]
    rw [agree_map]
    unfold Running.instruction
    rw [hopcode]
    dsimp only
    rw [hpc] at hnext ⊢
    refine ((exec_same _ _ hnext).run _ s).mono ?_
    rintro ⟨t, flow⟩ ⟨t', flow'⟩ ⟨hstate, hflow⟩
    dsimp only at hstate hflow
    subst hstate
    cases flow with
    | next p' refund =>
      cases flow' with
      | next q' refund' =>
        obtain ⟨hview', rfl⟩ := hflow
        exact .inl ⟨rfl, rfl, hview'⟩
      | stop q' => exact hflow.elim
    | stop p' =>
      cases flow' with
      | next q' refund' => exact hflow.elim
      | stop q' => exact .inr ⟨rfl, rfl, hflow⟩

theorem saveCpu_view {p q : Cpu} (h : view p = view q) : saveCpu p = saveCpu q := by
  have hpsw := psw_view h
  rw [view_iff] at h
  simp [saveCpu, h, hpsw]

end Reload

end SnesApu.Apu
