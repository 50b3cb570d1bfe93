import SnesApu.Apu.Cpu

/-!
# When an instruction touches the bus

The accesses of an instruction happen at offsets from its end. They come one
after the other, none before the first cycle and none after the end, and the
cycles that an instruction gives back come after its last access. This is what
the sound processor is caught up against.
-/

namespace SnesApu.Apu

open General

/-- The offset of an operation that reaches the timers or the sound processor. -/
def BusOp.offset : BusOp → Option ℤ
  | .peek _ => none
  | .poke _ _ => none
  | .read offset _ => some offset
  | .readTimer offset _ => some offset
  | .write offset _ _ => some offset
  | .movDpImm _ _ => some 0
  | .movDpA _ _ => some 0

/-- The operation comes after the one at `last` and not after the end. -/
def Allowed (last : ℤ) (o : BusOp) : Prop := ∀ offset ∈ o.offset, last < offset ∧ offset ≤ 0

def advance (last : ℤ) (o : BusOp) : ℤ := o.offset.getD last

/-- The most cycles that the instruction gives back. -/
def Instr.refund : Instr → ℤ
  | .branch _ | .dbnzY | .bitBranch _ _ | .cbne _ | .dbnzDp => 2
  | _ => 0

def Instr.stops : Instr → Bool
  | .stop | .sleep => true
  | _ => false

/-- No cycle is given back before `last`, and only two instructions stop. -/
def Settles (instr : Instr) (last : ℤ) : Flow → Prop
  | .next _ refund => 0 ≤ refund ∧ refund ≤ instr.refund ∧ last + refund ≤ 0
  | .stop _ => instr.stops ∧ last ≤ 0

def Timed (instr : Instr) (last : ℤ) (p : Bus Flow) : Prop :=
  Program.Obeys Allowed advance (Settles instr) last p

section Timed

variable {instr : Instr} {last offset : ℤ} {cpu : Cpu}

@[simp] theorem timed_ret {flow : Flow} : Timed instr last (.ret flow) ↔ Settles instr last flow :=
  Iff.rfl

@[simp] theorem settles_next {refund : ℤ} :
    Settles instr last (.next cpu refund) ↔ 0 ≤ refund ∧ refund ≤ instr.refund ∧ last + refund ≤ 0 := Iff.rfl

@[simp] theorem settles_stop : Settles instr last (.stop cpu) ↔ instr.stops ∧ last ≤ 0 := Iff.rfl

theorem allowed_some {o : BusOp} (h : o.offset = some offset) :
    Allowed last o ↔ last < offset ∧ offset ≤ 0 := by
  simp [Allowed, h]

@[simp] theorem timed_peek {addr : ℕ} {f : UInt8 → Bus Flow} :
    Timed instr last (Bus.peek addr >>= f) ↔ ∀ data, Timed instr last (f data) :=
  ⟨fun h => h.2, fun h => ⟨nofun, h⟩⟩

@[simp] theorem timed_poke {addr : ℕ} {data : UInt8} {f : Unit → Bus Flow} :
    Timed instr last (Bus.poke addr data >>= f) ↔ Timed instr last (f ()) :=
  ⟨fun h => h.2 (), fun h => ⟨nofun, fun _ => h⟩⟩

@[simp] theorem timed_read {addr : UInt16} {f : UInt8 → Bus Flow} :
    Timed instr last (Bus.read offset addr >>= f) ↔
      (last < offset ∧ offset ≤ 0) ∧ ∀ data, Timed instr offset (f data) :=
  and_congr (allowed_some rfl) Iff.rfl

@[simp] theorem timed_readTimer {addr : ℕ} {f : UInt8 → Bus Flow} :
    Timed instr last (Bus.readTimer offset addr >>= f) ↔
      (last < offset ∧ offset ≤ 0) ∧ ∀ data, Timed instr offset (f data) :=
  and_congr (allowed_some rfl) Iff.rfl

@[simp] theorem timed_write {addr : UInt16} {data : ℤ} {f : Unit → Bus Flow} :
    Timed instr last (Bus.write offset addr data >>= f) ↔
      (last < offset ∧ offset ≤ 0) ∧ Timed instr offset (f ()) :=
  and_congr (allowed_some rfl) ⟨fun h => h (), fun h _ => h⟩

@[simp] theorem timed_movDpImm {addr : ℕ} {data : ℤ} {f : Unit → Bus Flow} :
    Timed instr last (Bus.movDpImm addr data >>= f) ↔
      (last < 0 ∧ (0 : ℤ) ≤ 0) ∧ Timed instr 0 (f ()) :=
  and_congr (allowed_some rfl) ⟨fun h => h (), fun h _ => h⟩

@[simp] theorem timed_movDpA {addr : ℕ} {data : ℤ} {f : Unit → Bus Flow} :
    Timed instr last (Bus.movDpA addr data >>= f) ↔
      (last < 0 ∧ (0 : ℤ) ≤ 0) ∧ Timed instr 0 (f ()) :=
  and_congr (allowed_some rfl) ⟨fun h => h (), fun h _ => h⟩

theorem timed_address {mode : Mode} {data : UInt32} {f : Cpu × UInt32 → Bus Flow}
    (h : ∀ r, Timed instr last (f r)) : Timed instr last (address mode cpu data >>= f) := by
  cases mode <;> simp [address, readProg16, h]

theorem timed_addressMem {mode : Mode} {data : UInt32} {f : Cpu × UInt32 → Bus Flow}
    (h : ∀ r, Timed instr last (f r)) : Timed instr last (addressMem mode cpu data >>= f) := by
  cases mode <;> simp [addressMem, absolute16, readPc16, readProg16, h]

theorem timed_branch {data : UInt32} {cond : Bool} (hmost : 2 ≤ instr.refund) (hlast : last ≤ -2) :
    Timed instr last (branch cpu data cond) := by
  unfold branch
  dsimp only
  split_ifs
  · simp only [Program.pure_eq, timed_ret, settles_next]
    omega
  · simp only [Program.pure_eq, timed_ret, settles_next]
    omega

theorem timed_cbranch {cond : Bool} (hmost : 2 ≤ instr.refund) (hlast : last ≤ -2) :
    Timed instr last (cbranch cpu cond) := by
  unfold cbranch
  dsimp only
  split_ifs
  · simp only [timed_peek, Program.pure_eq, timed_ret, settles_next]
    omega
  · simp only [Program.pure_eq, timed_ret, settles_next]
    omega

end Timed

/-- The offset of the first access, and 1 where there is none. A branch that
is not taken gives its last two cycles back. -/
def Instr.first : Instr → ℤ
  | .branch _ | .dbnzY => -1
  | .movADpTimer | .movDpImm | .movDpA | .movA _ | .movXDp _ | .movXAbs | .movYDp _ | .movYAbs
  | .movTo _ | .movAbsReg _ | .movDpX _ | .movDpY _ | .movIndA | .logical _ _ | .cmp _
  | .cmpRegDp _ | .cmpRegAbs _ | .adc _ _ | .and1 _ | .mov1C => 0
  | .movAInd | .logicalDp _ false | .cmpDp false | .adcDp _ false | .incMem _ _ | .rolMem _ _
  | .rorMem _ _ | .movwDpYa | .cmpw | .setBit _ _ | .or1 _ | .eor1 | .not1 => -1
  | .movDpDp | .logicalXY _ | .cmpXY | .adcXY _ | .movwYaDp | .addw _ | .tset1 _ | .mov1Mem => -2
  | .logicalDp _ true | .cmpDp true | .adcDp _ true | .incw _ => -3
  | .bitBranch _ _ | .cbne _ | .dbnzDp => -4
  | _ => 1

section Table

theorem neg_cycles_lt_first : ∀ opcode, -cycles opcode < (decode opcode).first := by
  decide +kernel

theorem cycles_nonneg : ∀ opcode, 0 ≤ cycles opcode := by
  decide +kernel

theorem cycles_le : ∀ opcode, cycles opcode ≤ 12 := by
  decide +kernel

/-- Only the two instructions that stop take no time. -/
theorem refund_lt_cycles : ∀ opcode, decode opcode = .stop ∨ decode opcode = .sleep ∨
    (decode opcode).refund + 2 ≤ cycles opcode := by
  decide +kernel

end Table

theorem exec_timed (instr : Instr) (cpu : Cpu) (data : UInt8) {last : ℤ}
    (h : last < instr.first) : Timed instr last (exec instr cpu data) := by
  cases instr with
  | branch cond | dbnzY =>
    simp only [Instr.first] at h
    exact timed_branch le_rfl (by omega)
  | bitBranch set bit | cbne indexed | dbnzDp =>
    simp only [Instr.first] at h
    simp [exec, readDp, writeDp, readDpTimer, h]
    exact fun data => timed_cbranch le_rfl (by norm_num)
  | logicalDp op fromDp | cmpDp fromDp | adcDp sub fromDp =>
    cases fromDp <;> simp only [Instr.first] at h <;>
      simp [exec, readDp, loop, incPcLoop, Instr.refund, h]
  | logical op mode | cmp mode | adc sub mode | movA mode | movTo mode =>
    simp only [Instr.first] at h
    refine timed_address fun r => ?_
    simp [incPcLoop, Instr.refund, h]
  | incMem up mode | rolMem clear mode | rorMem clear mode =>
    simp only [Instr.first] at h
    refine timed_addressMem fun r => ?_
    simp [incPcLoop, Instr.refund, h]
  | stop =>
    simp only [Instr.first] at h
    simp only [exec, loop]
    split_ifs
    · simp only [Program.pure_eq, timed_ret, settles_next, Instr.refund]
      omega
    · exact ⟨rfl, by omega⟩
  | sleep =>
    simp only [Instr.first] at h
    exact ⟨rfl, by omega⟩
  | _ =>
    simp only [Instr.first] at h
    simp [exec, readDp, writeDp, readDpTimer, readPc16, readProg16, push16, push, pop, absolute16,
      memBit, loop, incPcLoop, Instr.refund]
    omega

/-- From the start of an instruction its accesses go forward in time and end by its end. -/
theorem opcode_timed (opcode : UInt8) (cpu : Cpu) (data : UInt8) :
    Timed (decode opcode) (-cycles opcode) (exec (decode opcode) cpu data) :=
  exec_timed _ cpu data (neg_cycles_lt_first opcode)

end SnesApu.Apu
