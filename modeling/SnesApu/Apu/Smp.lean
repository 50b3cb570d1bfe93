import SnesApu.General.Program
import SnesApu.Apu.DspRun
import SnesApu.Apu.Timer

/-!
# Memory and registers of the SMP

`Spc` is the `state_t` of SNES_SPC.h. The 64K of memory is the one the sound
processor shares. Times are relative to the end of the frame while the CPU runs
and to the CPU otherwise. A failed assertion, an overflow of an `int` that the
client can cause and an access of the sound processor outside the memory are
errors of the model. Assertions on what a mask or a type bounds are left out.
-/

namespace SnesApu.Apu

open General

inductive Fault where
  | memory
  | assertion
  | overflow
  | fuel
  deriving DecidableEq

structure CpuRegs where
  pc : UInt16
  a : UInt8
  x : UInt8
  y : UInt8
  psw : UInt8
  sp : UInt8
  deriving DecidableEq

structure Spc where
  timers : Fin 3 → Timer
  regs : ℕ → UInt8
  regsIn : ℕ → UInt8
  cpuRegs : CpuRegs
  dspTime : ℤ
  spcTime : ℤ
  tempo : ℤ
  cpuError : Bool
  extraClocks : ℤ
  bufBegin : Bool
  extraBuf : List ℤ
  romEnabled : Bool
  rom : ℕ → UInt8
  hiRam : ℕ → UInt8
  dsp : SpcDsp

def romAddr : ℕ := 0xFFC0
def romSize : ℕ := 0x40

def rTest : ℕ := 0x0
def rControl : ℕ := 0x1
def rDspaddr : ℕ := 0x2
def rDspdata : ℕ := 0x3
def rCpuio0 : ℕ := 0x4
def rT0target : ℕ := 0xA
def rT0out : ℕ := 0xD

/-- If a write isn't preceded by a read, data has this added to it. -/
def noReadBeforeWrite : ℤ := 0x2000

def Spc.ram (s : Spc) : ℕ → UInt8 := s.dsp.state.ram

def Spc.setRam (s : Spc) (ram : ℕ → UInt8) : Spc :=
  { s with dsp := { s.dsp with state := { s.dsp.state with ram := ram } } }

def Spc.poke (s : Spc) (addr : ℕ) (data : UInt8) : Spc :=
  s.setRam (Function.update s.ram addr data)

@[simp] theorem ram_setRam (s : Spc) (ram : ℕ → UInt8) : (s.setRam ram).ram = ram := rfl

@[simp] theorem ram_poke (s : Spc) (addr : ℕ) (data : UInt8) :
    (s.poke addr data).ram = Function.update s.ram addr data := rfl

def Spc.setTimer (s : Spc) (i : Fin 3) (t : Timer) : Spc :=
  { s with timers := Function.update s.timers i t }

def byteOf (data : ℤ) : UInt8 := UInt8.ofInt data

/-! ### ROM -/

/-- `memcpy( &RAM [rom_addr], src, rom_size )`. -/
def copyHigh (ram src : ℕ → UInt8) (addr : ℕ) : UInt8 :=
  if romAddr ≤ addr ∧ addr < romAddr + romSize then src (addr - romAddr) else ram addr

def enableRom (s : Spc) (enable : Bool) : Spc :=
  if s.romEnabled ≠ enable then
    let hiRam := if enable then fun i => s.ram (romAddr + i) else s.hiRam
    { s.setRam (copyHigh s.ram (if enable then s.rom else hiRam)) with
      romEnabled := enable
      hiRam := hiRam }
  else s

/-! ### The sound processor -/

def runDsp (s : Spc) (time : ℤ) : Except Fault Spc :=
  let count := time - s.dspTime
  if 0 < count then
    match s.dsp.run count.toNat with
    | .ok dsp => .ok { s with dspTime := time, dsp := dsp }
    | .error .outside => .error .memory
    | .error .assertion => .error .assertion
  else .error .assertion

def dspRead (s : Spc) (time : ℤ) : Except Fault (Spc × UInt8) := do
  let s ← runDsp s time
  pure (s, s.dsp.state.read ((s.regs rDspaddr).toNat % 0x80))

def dspWrite (s : Spc) (data time : ℤ) : Except Fault Spc := do
  let s ← runDsp s time
  if (s.regs rDspaddr).toNat ≤ 0x7F then
    pure { s with
      dsp := { s.dsp with state := s.dsp.state.write (s.regs rDspaddr).toNat (byteOf data) } }
  else pure s

/-! ### CPU write -/

def bit (data : ℤ) (i : ℕ) : Bool := data / 2 ^ i % 2 = 1

def writeControl (s : Spc) (data time : ℤ) : Spc :=
  let regsIn := fun r =>
    if (bit data 4 ∧ (r = 4 ∨ r = 5)) ∨ (bit data 5 ∧ (r = 6 ∨ r = 7)) then 0 else s.regsIn r
  enableRom
    { s with
      regsIn := regsIn
      timers := fun i => writeEnabled (s.timers i) (bit data i) time }
    (bit data 7)

/-- `cpu_write_smp_reg_`; the registers it names are `addr` below 16. -/
def cpuWriteSmpReg_ (s : Spc) (data time : ℤ) (addr : ℕ) : Spc :=
  if h : rT0target ≤ addr ∧ addr < rT0target + 3 then
    let i : Fin 3 := ⟨addr - rT0target, by omega⟩
    s.setTimer i (writeTarget (s.timers i) data time)
  else if h : rT0out ≤ addr ∧ addr < rT0out + 3 then
    let i : Fin 3 := ⟨addr - rT0out, by omega⟩
    if data < noReadBeforeWrite / 2 then s.setTimer i (writeOut (s.timers i) time) else s
  else if addr = 0x8 ∨ addr = 0x9 then
    { s with regsIn := Function.update s.regsIn addr (byteOf data) }
  else if addr = rControl then writeControl s data time
  else s

def cpuWriteSmpReg (s : Spc) (data time : ℤ) (addr : ℕ) : Except Fault Spc :=
  if addr = rDspdata then dspWrite s data time else .ok (cpuWriteSmpReg_ s data time addr)

def cpuWriteHigh (s : Spc) (data : ℤ) (i : ℕ) : Spc :=
  let s := { s with hiRam := Function.update s.hiRam i (byteOf data) }
  if s.romEnabled then s.poke (romAddr + i) (s.rom i) else s

def setReg (s : Spc) (reg : ℕ) (data : ℤ) : Spc :=
  { s with regs := Function.update s.regs reg (byteOf data) }

def cpuWrite (s : Spc) (data : ℤ) (addr : UInt16) (time : ℤ) : Except Fault Spc :=
  let addr := addr.toNat
  let s := s.poke addr (byteOf data)
  if 0xF0 ≤ addr then
    let reg := addr - 0xF0
    if reg < 0x10 then
      let s := setReg s reg data
      if reg ≠ 2 ∧ (reg < 4 ∨ 7 < reg) then cpuWriteSmpReg s data time reg else .ok s
    else if romAddr ≤ addr then .ok (cpuWriteHigh s data (addr - romAddr))
    else .ok s
  else .ok s

/-! ### CPU read -/

def cpuReadSmpReg (s : Spc) (reg : ℕ) (time : ℤ) : Except Fault (Spc × UInt8) :=
  if reg = rDspdata then dspRead s time
  else if reg = rDspaddr then .ok (s, s.regs rDspaddr)
  else .ok (s, s.regsIn reg)

def readTimer (s : Spc) (i : Fin 3) (time : ℤ) : Spc × UInt8 :=
  let r := readOut (s.timers i) time
  (s.setTimer i r.1, byteOf r.2)

/-- `cpu_read`. Its last branch is for addresses past 16 bits, of which there are none. -/
def cpuRead (s : Spc) (addr : UInt16) (time : ℤ) : Except Fault (Spc × UInt8) :=
  let addr := addr.toNat
  if 0xF0 ≤ addr ∧ addr < 0x100 then
    if h : 0xFD ≤ addr ∧ addr < 0xFD + 3 then
      .ok (readTimer s ⟨addr - 0xFD, by omega⟩ time)
    else cpuReadSmpReg s (addr - 0xF0) time
  else .ok (s, s.ram addr)

/-! ### Inlined accesses -/

def cpuReadTimer (s : Spc) (addr : ℕ) (time : ℤ) : Except Fault (Spc × UInt8) :=
  if h : 0xFD ≤ addr ∧ addr < 0xFD + 3 then .ok (readTimer s ⟨addr - 0xFD, by omega⟩ time)
  else if 0xF0 ≤ addr ∧ addr < 0x100 then cpuReadSmpReg s (addr - 0xF0) time
  else .ok (s, s.ram addr)

/-- The store of `MOV dp,#imm` and `MOV dp,dp`. -/
def movDpImm (s : Spc) (data : ℤ) (addr : ℕ) (time : ℤ) : Except Fault Spc :=
  let s := s.poke addr (byteOf data)
  if 0xF0 ≤ addr ∧ addr < 0x100 then
    let i := addr - 0xF0
    let s := setReg s i data
    if i ≠ 2 ∧ (i < 4 ∨ 7 < i) then cpuWriteSmpReg s data time i else .ok s
  else .ok s

def movDpA (s : Spc) (a : ℤ) (addr : ℕ) (time : ℤ) : Except Fault Spc :=
  let s := s.poke addr (byteOf a)
  if 0xF0 ≤ addr ∧ addr < 0x100 then
    let i := addr - 0xF0
    let s := setReg s i a
    if i = 3 then dspWrite s a time
    else if i ≠ 2 then .ok (cpuWriteSmpReg_ s a time i)
    else .ok s
  else .ok s

/-! ### The bus -/

inductive BusOp where
  | peek (addr : ℕ)
  | poke (addr : ℕ) (data : UInt8)
  | read (offset : ℤ) (addr : UInt16)
  | readTimer (offset : ℤ) (addr : ℕ)
  | write (offset : ℤ) (addr : UInt16) (data : ℤ)
  | movDpImm (addr : ℕ) (data : ℤ)
  | movDpA (addr : ℕ) (data : ℤ)

def BusOp.Ans : BusOp → Type
  | .peek _ => UInt8
  | .read _ _ => UInt8
  | .readTimer _ _ => UInt8
  | _ => Unit

abbrev Bus := Program BusOp BusOp.Ans

def handle (rel : ℤ) (s : Spc) : (o : BusOp) → Except Fault (Spc × o.Ans)
  | .peek addr => .ok (s, s.ram addr)
  | .poke addr data => .ok (s.poke addr data, ())
  | .read offset addr => cpuRead s addr (rel + offset)
  | .readTimer offset addr => cpuReadTimer s addr (rel + offset)
  | .write offset addr data => do
    let s ← cpuWrite s data addr (rel + offset)
    pure (s, ())
  | .movDpImm addr data => do
    let s ← movDpImm s data addr rel
    pure (s, ())
  | .movDpA addr data => do
    let s ← movDpA s data addr rel
    pure (s, ())

namespace Bus

def peek (addr : ℕ) : Bus UInt8 := .op (.peek addr) .ret

def poke (addr : ℕ) (data : UInt8) : Bus Unit := .op (.poke addr data) .ret

def read (offset : ℤ) (addr : UInt16) : Bus UInt8 := .op (.read offset addr) .ret

def readTimer (offset : ℤ) (addr : ℕ) : Bus UInt8 := .op (.readTimer offset addr) .ret

def write (offset : ℤ) (addr : UInt16) (data : ℤ) : Bus Unit := .op (.write offset addr data) .ret

def movDpImm (addr : ℕ) (data : ℤ) : Bus Unit := .op (.movDpImm addr data) .ret

def movDpA (addr : ℕ) (data : ℤ) : Bus Unit := .op (.movDpA addr data) .ret

end Bus

end SnesApu.Apu
