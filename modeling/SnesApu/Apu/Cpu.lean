import SnesApu.Apu.Smp

/-!
# The instructions of the SMP

An instruction is a program over the bus that starts with the operand byte
already fetched. The flags are kept as SPC_CPU.h keeps them: `c` and `nz` hold
values that the carry, negative and zero flags are read off, `dp` holds the
direct page, and the other flags stay in `psw`. An `int` is an `Int32` and an
`unsigned` a `UInt32`.
-/

namespace SnesApu.Apu

open General

def toInt (b : UInt8) : Int32 := b.toUInt32.toInt32

/-- `(uint8_t) n`. -/
def toByte (n : Int32) : UInt8 := n.toUInt32.toUInt8

structure Cpu where
  a : UInt8
  x : UInt8
  y : UInt8
  pc : UInt16
  sp : UInt8
  psw : Int32
  c : Int32
  nz : Int32
  dp : Int32
  deriving DecidableEq

/-! ### Flags -/

def n80 : Int32 := 0x80
def v40 : Int32 := 0x40
def p20 : Int32 := 0x20
def b10 : Int32 := 0x10
def h08 : Int32 := 0x08
def i04 : Int32 := 0x04
def z02 : Int32 := 0x02
def c01 : Int32 := 0x01

def nzNegMask : Int32 := 0x880

def getPsw (cpu : Cpu) : Int32 :=
  let out := cpu.psw &&& ~~~(n80 ||| p20 ||| z02 ||| c01)
  let out := out ||| (cpu.c >>> 8 &&& c01)
  let out := out ||| (cpu.dp >>> 3 &&& p20)
  let out := out ||| ((cpu.nz >>> 4 ||| cpu.nz) &&& n80)
  if toByte cpu.nz = 0 then out ||| z02 else out

def setPsw (cpu : Cpu) (data : Int32) : Cpu :=
  { cpu with
    psw := data
    c := data <<< 8
    dp := data <<< 3 &&& 0x100
    nz := (data <<< 4 &&& 0x800) ||| (~~~data &&& z02) }

inductive Cond where
  | eq
  | ne
  | mi
  | pl
  | cs
  | cc
  | vs
  | vc
  deriving DecidableEq

def Cond.holds (cpu : Cpu) : Cond → Bool
  | .eq => toByte cpu.nz = 0
  | .ne => toByte cpu.nz ≠ 0
  | .mi => cpu.nz &&& nzNegMask ≠ 0
  | .pl => cpu.nz &&& nzNegMask = 0
  | .cs => cpu.c &&& 0x100 ≠ 0
  | .cc => cpu.c &&& 0x100 = 0
  | .vs => cpu.psw &&& v40 ≠ 0
  | .vc => cpu.psw &&& v40 = 0

/-! ### Instructions -/

inductive Mode where
  | ind
  | dpIndY
  | dpXInd
  | absY
  | absX
  | abs
  | dpX
  | dp
  deriving DecidableEq

inductive Reg where
  | a
  | x
  | y
  deriving DecidableEq

inductive Logic where
  | and
  | or
  | eor
  deriving DecidableEq

inductive Instr where
  | branch (cond : Cond)
  | call
  | ret
  | movADpTimer
  | movDpDp
  | movDpImm
  | movDpA
  | movA (mode : Mode)
  | movAInd
  | movAImm
  | movXDp (indexed : Bool)
  | movXAbs
  | movXImm
  | movYDp (indexed : Bool)
  | movYAbs
  | movYImm
  | movTo (mode : Mode)
  | movAbsReg (reg : Reg)
  | movDpX (indexed : Bool)
  | movDpY (indexed : Bool)
  | transfer (dst src : Reg)
  | movXSp
  | movSpX
  | movIndA
  | logical (op : Logic) (mode : Mode)
  | logicalImm (op : Logic)
  | logicalXY (op : Logic)
  | logicalDp (op : Logic) (fromDp : Bool)
  | cmp (mode : Mode)
  | cmpImm (reg : Reg)
  | cmpXY
  | cmpDp (fromDp : Bool)
  | cmpRegDp (reg : Reg)
  | cmpRegAbs (reg : Reg)
  | adc (sub : Bool) (mode : Mode)
  | adcImm (sub : Bool)
  | adcXY (sub : Bool)
  | adcDp (sub : Bool) (fromDp : Bool)
  | incReg (reg : Reg)
  | decReg (reg : Reg)
  | incMem (up : Bool) (mode : Mode)
  | rorA (clear : Bool)
  | rolA (clear : Bool)
  | rolMem (clear : Bool) (mode : Mode)
  | rorMem (clear : Bool) (mode : Mode)
  | xcn
  | movwYaDp
  | movwDpYa
  | incw (up : Bool)
  | addw (sub : Bool)
  | cmpw
  | mul
  | div
  | daa
  | das
  | bra
  | bitBranch (set : Bool) (bit : ℕ)
  | cbne (indexed : Bool)
  | dbnzDp
  | dbnzY
  | jmpInd
  | jmp
  | brk
  | pcall
  | tcall (slot : UInt32)
  | ret1
  | popPsw
  | pushPsw
  | push (reg : Reg)
  | pop (reg : Reg)
  | setBit (set : Bool) (bit : ℕ)
  | tset1 (set : Bool)
  | and1 (invert : Bool)
  | or1 (invert : Bool)
  | eor1
  | not1
  | mov1Mem
  | mov1C
  | clrc
  | setc
  | notc
  | clrv
  | clrp
  | setp
  | ei
  | di
  | nop
  | stop
  | sleep
  deriving DecidableEq

def decodeTable : List Instr := [
  -- 00
  .nop, .tcall 0, .setBit true 0, .bitBranch true 0, .logical .or .dp, .logical .or .abs,
  .logical .or .ind, .logical .or .dpXInd, .logicalImm .or, .logicalDp .or true, .or1 false,
  .rolMem true .dp, .rolMem true .abs, .pushPsw, .tset1 true, .brk,
  -- 10
  .branch .pl, .tcall 2, .setBit false 0, .bitBranch false 0, .logical .or .dpX,
  .logical .or .absX, .logical .or .absY, .logical .or .dpIndY, .logicalDp .or false,
  .logicalXY .or, .incw false, .rolMem true .dpX, .rolA true, .decReg .x, .cmpRegAbs .x, .jmpInd,
  -- 20
  .clrp, .tcall 4, .setBit true 1, .bitBranch true 1, .logical .and .dp, .logical .and .abs,
  .logical .and .ind, .logical .and .dpXInd, .logicalImm .and, .logicalDp .and true, .or1 true,
  .rolMem false .dp, .rolMem false .abs, .push .a, .cbne false, .bra,
  -- 30
  .branch .mi, .tcall 6, .setBit false 1, .bitBranch false 1, .logical .and .dpX,
  .logical .and .absX, .logical .and .absY, .logical .and .dpIndY, .logicalDp .and false,
  .logicalXY .and, .incw true, .rolMem false .dpX, .rolA false, .incReg .x, .cmpRegDp .x, .call,
  -- 40
  .setp, .tcall 8, .setBit true 2, .bitBranch true 2, .logical .eor .dp, .logical .eor .abs,
  .logical .eor .ind, .logical .eor .dpXInd, .logicalImm .eor, .logicalDp .eor true, .and1 false,
  .rorMem true .dp, .rorMem true .abs, .push .x, .tset1 false, .pcall,
  -- 50
  .branch .vc, .tcall 10, .setBit false 2, .bitBranch false 2, .logical .eor .dpX,
  .logical .eor .absX, .logical .eor .absY, .logical .eor .dpIndY, .logicalDp .eor false,
  .logicalXY .eor, .cmpw, .rorMem true .dpX, .rorA true, .transfer .x .a, .cmpRegAbs .y, .jmp,
  -- 60
  .clrc, .tcall 12, .setBit true 3, .bitBranch true 3, .cmp .dp, .cmp .abs, .cmp .ind,
  .cmp .dpXInd, .cmpImm .a, .cmpDp true, .and1 true, .rorMem false .dp, .rorMem false .abs,
  .push .y, .dbnzDp, .ret,
  -- 70
  .branch .vs, .tcall 14, .setBit false 3, .bitBranch false 3, .cmp .dpX, .cmp .absX, .cmp .absY,
  .cmp .dpIndY, .cmpDp false, .cmpXY, .addw false, .rorMem false .dpX, .rorA false,
  .transfer .a .x, .cmpRegDp .y, .ret1,
  -- 80
  .setc, .tcall 16, .setBit true 4, .bitBranch true 4, .adc false .dp, .adc false .abs,
  .adc false .ind, .adc false .dpXInd, .adcImm false, .adcDp false true, .eor1,
  .incMem false .dp, .incMem false .abs, .movYImm, .popPsw, .movDpImm,
  -- 90
  .branch .cc, .tcall 18, .setBit false 4, .bitBranch false 4, .adc false .dpX, .adc false .absX,
  .adc false .absY, .adc false .dpIndY, .adcDp false false, .adcXY false, .addw true,
  .incMem false .dpX, .decReg .a, .movXSp, .div, .xcn,
  -- A0
  .ei, .tcall 20, .setBit true 5, .bitBranch true 5, .adc true .dp, .adc true .abs,
  .adc true .ind, .adc true .dpXInd, .adcImm true, .adcDp true true, .mov1C, .incMem true .dp,
  .incMem true .abs, .cmpImm .y, .pop .a, .movIndA,
  -- B0
  .branch .cs, .tcall 22, .setBit false 5, .bitBranch false 5, .adc true .dpX, .adc true .absX,
  .adc true .absY, .adc true .dpIndY, .adcDp true false, .adcXY true, .movwYaDp,
  .incMem true .dpX, .incReg .a, .movSpX, .das, .movAInd,
  -- C0
  .di, .tcall 24, .setBit true 6, .bitBranch true 6, .movDpA, .movTo .abs, .movTo .ind,
  .movTo .dpXInd, .cmpImm .x, .movAbsReg .x, .mov1Mem, .movDpY false, .movAbsReg .y, .movXImm,
  .pop .x, .mul,
  -- D0
  .branch .ne, .tcall 26, .setBit false 6, .bitBranch false 6, .movTo .dpX, .movTo .absX,
  .movTo .absY, .movTo .dpIndY, .movDpX false, .movDpX true, .movwDpYa, .movDpY true, .decReg .y,
  .transfer .a .y, .cbne true, .daa,
  -- E0
  .clrv, .tcall 28, .setBit true 7, .bitBranch true 7, .movADpTimer, .movA .abs, .movA .ind,
  .movA .dpXInd, .movAImm, .movXAbs, .not1, .movYDp false, .movYAbs, .notc, .pop .y, .sleep,
  -- F0
  .branch .eq, .tcall 30, .setBit false 7, .bitBranch false 7, .movA .dpX, .movA .absX,
  .movA .absY, .movA .dpIndY, .movXDp false, .movXDp true, .movDpDp, .movYDp true, .incReg .y,
  .transfer .y .a, .dbnzY, .stop]

def decode (opcode : UInt8) : Instr := decodeTable.getD opcode.toNat .nop

/-- The high nybbles and then the low ones are the cycles of two opcodes. -/
def packedCycles : List ℕ := [
  0x28, 0x47, 0x34, 0x36, 0x26, 0x54, 0x54, 0x68, 0x48, 0x47, 0x45, 0x56, 0x55, 0x65, 0x22, 0x46,
  0x28, 0x47, 0x34, 0x36, 0x26, 0x54, 0x54, 0x74, 0x48, 0x47, 0x45, 0x56, 0x55, 0x65, 0x22, 0x38,
  0x28, 0x47, 0x34, 0x36, 0x26, 0x44, 0x54, 0x66, 0x48, 0x47, 0x45, 0x56, 0x55, 0x45, 0x22, 0x43,
  0x28, 0x47, 0x34, 0x36, 0x26, 0x44, 0x54, 0x75, 0x48, 0x47, 0x45, 0x56, 0x55, 0x55, 0x22, 0x36,
  0x28, 0x47, 0x34, 0x36, 0x26, 0x54, 0x52, 0x45, 0x48, 0x47, 0x45, 0x56, 0x55, 0x55, 0x22, 0xC5,
  0x38, 0x47, 0x34, 0x36, 0x26, 0x44, 0x52, 0x44, 0x48, 0x47, 0x45, 0x56, 0x55, 0x55, 0x22, 0x34,
  0x38, 0x47, 0x45, 0x47, 0x25, 0x64, 0x52, 0x49, 0x48, 0x47, 0x56, 0x67, 0x45, 0x55, 0x22, 0x83,
  0x28, 0x47, 0x34, 0x36, 0x24, 0x53, 0x43, 0x40, 0x48, 0x47, 0x45, 0x56, 0x34, 0x54, 0x22, 0x60]

def cycles (opcode : UInt8) : ℤ :=
  let n := packedCycles.getD (opcode.toNat / 2) 0
  if opcode.toNat % 2 = 0 then (n >>> 4 : ℕ) else (n &&& 0x0F : ℕ)

/-! ### Operands -/

/-- Where an instruction goes: on, with `refund` cycles given back, or to a stop. -/
inductive Flow where
  | next (cpu : Cpu) (refund : ℤ)
  | stop (cpu : Cpu)

def loop (cpu : Cpu) : Bus Flow := pure (.next cpu 0)

def incPcLoop (cpu : Cpu) : Bus Flow := pure (.next { cpu with pc := cpu.pc + 1 } 0)

def readProg16 (addr : UInt32) : Bus UInt32 := do
  let lo ← Bus.peek (addr &&& 0xFFFF).toNat
  let hi ← Bus.peek ((addr + 1) &&& 0xFFFF).toNat
  pure (lo.toUInt32 ||| hi.toUInt32 <<< 8)

def readPc16 (cpu : Cpu) : Bus UInt32 := readProg16 cpu.pc.toUInt32

def dpAddr (cpu : Cpu) (addr : UInt32) : UInt32 := cpu.dp.toUInt32 + addr

def readDp (offset : ℤ) (cpu : Cpu) (addr : UInt32) : Bus UInt8 :=
  Bus.read offset (dpAddr cpu addr).toUInt16

def readDpTimer (offset : ℤ) (cpu : Cpu) (addr : UInt32) : Bus UInt8 :=
  Bus.readTimer offset (dpAddr cpu addr).toNat

def writeDp (offset : ℤ) (cpu : Cpu) (addr : UInt32) (data : ℤ) : Bus Unit :=
  Bus.write offset (dpAddr cpu addr).toUInt16 data

def push (cpu : Cpu) (data : UInt8) : Bus Cpu := do
  Bus.poke (0x100 + cpu.sp.toNat) data
  pure { cpu with sp := cpu.sp - 1 }

def push16 (cpu : Cpu) (data : UInt32) : Bus Cpu := do
  let cpu ← push cpu ((data &&& 0xFF00) >>> 8).toUInt8
  push cpu (data &&& 0xFF).toUInt8

def pop (cpu : Cpu) : Bus (Cpu × UInt8) := do
  let cpu := { cpu with sp := cpu.sp + 1 }
  let data ← Bus.peek (0x100 + cpu.sp.toNat)
  pure (cpu, data)

/-- The low byte of an index sum. -/
def index (data : UInt32) (reg : UInt8) : UInt32 := (data + reg.toUInt32).toUInt8.toUInt32

/-- `ADDR_MODES`: the CPU after its operand and the address of the data. -/
def address (mode : Mode) (cpu : Cpu) (data : UInt32) : Bus (Cpu × UInt32) :=
  let absolute (data : UInt32) : Bus (Cpu × UInt32) := do
    let cpu := { cpu with pc := cpu.pc + 1 }
    let high ← Bus.peek cpu.pc.toNat
    pure (cpu, data + 0x100 * high.toUInt32)
  match mode with
  | .ind => pure ({ cpu with pc := cpu.pc - 1 }, dpAddr cpu cpu.x.toUInt32)
  | .dpIndY => do
    let base ← readProg16 (dpAddr cpu data)
    pure (cpu, base + cpu.y.toUInt32)
  | .dpXInd => do
    let base ← readProg16 (dpAddr cpu (index data cpu.x))
    pure (cpu, base)
  | .absY => absolute (data + cpu.y.toUInt32)
  | .absX => absolute (data + cpu.x.toUInt32)
  | .abs => absolute data
  | .dpX => pure (cpu, dpAddr cpu (index data cpu.x))
  | .dp => pure (cpu, dpAddr cpu data)

/-- An absolute operand that `READ_PC16` fetches, with one step of the PC. -/
def absolute16 (cpu : Cpu) : Bus (Cpu × UInt32) := do
  let addr ← readPc16 cpu
  pure ({ cpu with pc := cpu.pc + 1 }, addr)

/-- The operand of the read-modify-write instructions. -/
def addressMem (mode : Mode) (cpu : Cpu) (data : UInt32) : Bus (Cpu × UInt32) :=
  match mode with
  | .dpX => pure (cpu, dpAddr cpu (index data cpu.x))
  | .abs => absolute16 cpu
  | _ => pure (cpu, dpAddr cpu data)

def Cpu.reg (cpu : Cpu) : Reg → UInt8
  | .a => cpu.a
  | .x => cpu.x
  | .y => cpu.y

def Cpu.setReg (cpu : Cpu) (reg : Reg) (data : UInt8) : Cpu :=
  match reg with
  | .a => { cpu with a := data }
  | .x => { cpu with x := data }
  | .y => { cpu with y := data }

/-- Loading a register, which sets N and Z. -/
def Cpu.load (cpu : Cpu) (reg : Reg) (data : UInt8) : Cpu :=
  { cpu.setReg reg data with nz := toInt data }

def signed (data : UInt32) : UInt16 := data.toUInt8.toInt8.toInt16.toUInt16

def branch (cpu : Cpu) (data : UInt32) (cond : Bool) : Bus Flow :=
  let pc := cpu.pc + 1
  if cond then pure (.next { cpu with pc := pc + signed data } 0)
  else pure (.next { cpu with pc := pc } 2)

/-- `CBRANCH`: its operand is the byte after the first one. -/
def cbranch (cpu : Cpu) (cond : Bool) : Bus Flow := do
  let cpu := { cpu with pc := cpu.pc + 1 }
  if cond then
    let data ← Bus.peek cpu.pc.toNat
    pure (.next { cpu with pc := cpu.pc + signed data.toUInt32 + 1 } 0)
  else pure (.next { cpu with pc := cpu.pc + 1 } 2)

/-! ### Arithmetic -/

def Logic.apply (op : Logic) (a b : UInt8) : UInt8 :=
  match op with
  | .and => a &&& b
  | .or => a ||| b
  | .eor => a ^^^ b

def compare (cpu : Cpu) (left right : UInt8) : Cpu :=
  let nz := toInt left - toInt right
  { cpu with c := ~~~nz, nz := nz &&& 0xFF }

/-- The sum of ADC and SBC with the flags it sets. -/
def addCarry (cpu : Cpu) (sub : Bool) (left right : UInt8) : Cpu :=
  let data := if sub then toInt right ^^^ 0xFF else toInt right
  let flags := data ^^^ toInt left
  let nz := toInt left + data + (cpu.c >>> 8 &&& 1)
  let flags := flags ^^^ nz
  { cpu with
    nz := nz
    psw := (cpu.psw &&& ~~~(v40 ||| h08)) ||| (flags >>> 1 &&& h08) ||| ((flags + 0x80) >>> 2 &&& v40)
    c := nz }

def rol (cpu : Cpu) (data : UInt8) : Cpu :=
  let c := toInt data <<< 1
  { cpu with c := c, nz := c ||| (cpu.c >>> 8 &&& 1) }

def ror (cpu : Cpu) (data : UInt8) : Cpu :=
  { cpu with
    c := toInt data <<< 8
    nz := (cpu.c >>> 1 &&& (0x80 : Int32)) ||| (toInt data >>> 1 : Int32) }

def clearC (cpu : Cpu) (clear : Bool) : Cpu := if clear then { cpu with c := 0 } else cpu

def addWord (cpu : Cpu) (sub : Bool) (lo hi : UInt8) : Cpu :=
  let low := if sub then (toInt lo ^^^ 0xFF) + 1 else toInt lo
  let high := if sub then toInt hi ^^^ 0xFF else toInt hi
  let low := low + toInt cpu.a
  let result := toInt cpu.y + high + (low >>> 8)
  let flags := high ^^^ toInt cpu.y ^^^ result
  let byte := toInt (toByte result)
  { cpu with
    psw := (cpu.psw &&& ~~~(v40 ||| h08)) ||| (flags >>> 1 &&& h08) ||| ((flags + 0x80) >>> 2 &&& v40)
    c := result
    a := toByte low
    y := toByte result
    nz := ((low >>> 1 ||| low) &&& 0x7F) ||| byte }

def compareWord (cpu : Cpu) (lo hi : UInt8) : Cpu :=
  let low := toInt cpu.a - toInt lo
  let temp := toInt cpu.y + (low >>> 8) - toInt hi
  { cpu with
    c := ~~~temp
    nz := (((low >>> 1 ||| low) &&& 0x7F) ||| temp) &&& 0xFF }

def multiply (cpu : Cpu) : Cpu :=
  let temp := cpu.y.toUInt32 * cpu.a.toUInt32
  { cpu with
    a := temp.toUInt8
    y := (temp >>> 8).toUInt8
    nz := (((temp >>> 1 ||| temp) &&& (0x7F : UInt32)) ||| (temp >>> 8 : UInt32).toUInt8.toUInt32).toInt32 }

def divide (cpu : Cpu) : Cpu :=
  let y := cpu.y.toUInt32
  let x := cpu.x.toUInt32
  let ya := y * 0x100 + cpu.a.toUInt32
  let psw := cpu.psw &&& ~~~(h08 ||| v40)
  let psw := if x ≤ y then psw ||| v40 else psw
  let psw := if x &&& 15 ≤ y &&& 15 then psw ||| h08 else psw
  let a := if y < x * 2 then (ya / x).toUInt8 else (255 - (ya - x * 0x200) / (256 - x)).toUInt8
  let y := if y < x * 2 then (ya - a.toUInt32 * x).toUInt8
    else (x + (ya - x * 0x200) % (256 - x)).toUInt8
  { cpu with psw := psw, a := a, y := y, nz := toInt a }

def decimalAdd (cpu : Cpu) : Cpu :=
  let high := 0x99 < cpu.a ∨ cpu.c &&& 0x100 ≠ 0
  let a := if high then cpu.a + 0x60 else cpu.a
  let a := if 9 < a &&& 0x0F ∨ cpu.psw &&& h08 ≠ 0 then a + 0x06 else a
  { cpu with a := a, c := if high then 0x100 else cpu.c, nz := toInt a }

def decimalSub (cpu : Cpu) : Cpu :=
  let high := 0x99 < cpu.a ∨ cpu.c &&& 0x100 = 0
  let a := if high then cpu.a - 0x60 else cpu.a
  let a := if 9 < a &&& 0x0F ∨ cpu.psw &&& h08 = 0 then a - 0x06 else a
  { cpu with a := a, c := if high then 0 else cpu.c, nz := toInt a }

/-! ### Single bits -/

/-- `MEM_BIT`. -/
def memBit (offset : ℤ) (cpu : Cpu) : Bus Int32 := do
  let addr ← readPc16 cpu
  let data ← Bus.read offset (addr &&& 0x1FFF).toUInt16
  pure ((data.toUInt32 >>> (addr >>> 13)) <<< 8 &&& 0x100).toInt32

def skip2 (cpu : Cpu) : Cpu := { cpu with pc := cpu.pc + 2 }

/-! ### Execution -/

/-- The case of the switch for an instruction; `cpu.pc` is at the operand byte `data`. -/
def exec (instr : Instr) (cpu : Cpu) (data : UInt8) : Bus Flow :=
  let operand := data.toUInt32
  match instr with
  | .branch cond => branch cpu operand (cond.holds cpu)
  | .call => do
    let target ← readPc16 cpu
    let cpu ← push16 cpu (cpu.pc.toUInt32 + 2)
    loop { cpu with pc := target.toUInt16 }
  | .ret => do
    let (cpu, l) ← pop cpu
    let (cpu, h) ← pop cpu
    loop { cpu with pc := l.toUInt16 ||| h.toUInt16 <<< 8 }
  | .movADpTimer => do
    let cpu := { cpu with pc := cpu.pc + 1 }
    let value ← readDpTimer 0 cpu operand
    loop (cpu.load .a value)
  | .movDpDp => do
    let value ← readDpTimer (-2) cpu operand
    let temp ← Bus.peek (cpu.pc.toNat + 1)
    Bus.movDpImm (dpAddr cpu temp.toUInt32).toNat (value.toNat + noReadBeforeWrite)
    loop (skip2 cpu)
  | .movDpImm => do
    let temp ← Bus.peek (cpu.pc.toNat + 1)
    Bus.movDpImm (dpAddr cpu temp.toUInt32).toNat data.toNat
    loop (skip2 cpu)
  | .movDpA => do
    let cpu := { cpu with pc := cpu.pc + 1 }
    Bus.movDpA (dpAddr cpu operand).toNat cpu.a.toNat
    loop cpu
  | .movA mode => do
    let (cpu, addr) ← address mode cpu operand
    let value ← Bus.read 0 addr.toUInt16
    incPcLoop (cpu.load .a value)
  | .movAInd => do
    let value ← readDp (-1) cpu cpu.x.toUInt32
    loop ({ cpu with x := cpu.x + 1 }.load .a value)
  | .movAImm => incPcLoop (cpu.load .a data)
  | .movXDp indexed => do
    let value ← readDpTimer 0 cpu (if indexed then index operand cpu.y else operand)
    incPcLoop (cpu.load .x value)
  | .movXAbs => do
    let (cpu, addr) ← absolute16 cpu
    let value ← Bus.read 0 addr.toUInt16
    incPcLoop (cpu.load .x value)
  | .movXImm => incPcLoop (cpu.load .x data)
  | .movYDp indexed => do
    let cpu := { cpu with pc := cpu.pc + 1 }
    let value ← readDpTimer 0 cpu (if indexed then index operand cpu.x else operand)
    loop (cpu.load .y value)
  | .movYAbs => do
    let addr ← readPc16 cpu
    let value ← Bus.readTimer 0 addr.toNat
    loop ((skip2 cpu).load .y value)
  | .movYImm => incPcLoop (cpu.load .y data)
  | .movTo mode => do
    let (cpu, addr) ← address mode cpu operand
    Bus.write 0 addr.toUInt16 cpu.a.toNat
    incPcLoop cpu
  | .movAbsReg reg => do
    let addr ← readPc16 cpu
    Bus.write 0 addr.toUInt16 (cpu.reg reg).toNat
    loop (skip2 cpu)
  | .movDpX indexed => do
    writeDp 0 cpu (if indexed then index operand cpu.y else operand) cpu.x.toNat
    incPcLoop cpu
  | .movDpY indexed => do
    writeDp 0 cpu (if indexed then index operand cpu.x else operand) cpu.y.toNat
    incPcLoop cpu
  | .transfer dst src => loop (cpu.load dst (cpu.reg src))
  | .movXSp => loop (cpu.load .x cpu.sp)
  | .movSpX => loop { cpu with sp := cpu.x }
  | .movIndA => do
    writeDp 0 cpu cpu.x.toUInt32 (cpu.a.toNat + noReadBeforeWrite)
    loop { cpu with x := cpu.x + 1 }
  | .logical op mode => do
    let (cpu, addr) ← address mode cpu operand
    let value ← Bus.read 0 addr.toUInt16
    incPcLoop (cpu.load .a (op.apply cpu.a value))
  | .logicalImm op => incPcLoop (cpu.load .a (op.apply cpu.a data))
  | .logicalXY op => do
    let right ← readDp (-2) cpu cpu.y.toUInt32
    let addr := dpAddr cpu cpu.x.toUInt32
    let left ← Bus.read (-1) addr.toUInt16
    let value := op.apply right left
    Bus.write 0 addr.toUInt16 value.toNat
    loop { cpu with nz := toInt value }
  | .logicalDp op fromDp => do
    let right ← if fromDp then readDp (-3) cpu operand else pure data
    let temp ← Bus.peek (cpu.pc + 1).toNat
    let addr := dpAddr cpu temp.toUInt32
    let left ← Bus.read (-1) addr.toUInt16
    let value := op.apply right left
    Bus.write 0 addr.toUInt16 value.toNat
    loop { skip2 cpu with nz := toInt value }
  | .cmp mode => do
    let (cpu, addr) ← address mode cpu operand
    let value ← Bus.read 0 addr.toUInt16
    incPcLoop (compare cpu cpu.a value)
  | .cmpImm reg => incPcLoop (compare cpu (cpu.reg reg) data)
  | .cmpXY => do
    let right ← readDp (-2) cpu cpu.y.toUInt32
    let left ← readDp (-1) cpu cpu.x.toUInt32
    loop (compare cpu left right)
  | .cmpDp fromDp => do
    let right ← if fromDp then readDp (-3) cpu operand else pure data
    let cpu := { cpu with pc := cpu.pc + 1 }
    let temp ← Bus.peek cpu.pc.toNat
    let left ← readDp (-1) cpu temp.toUInt32
    incPcLoop (compare cpu left right)
  | .cmpRegDp reg => do
    let value ← readDp 0 cpu operand
    incPcLoop (compare cpu (cpu.reg reg) value)
  | .cmpRegAbs reg => do
    let (cpu, addr) ← absolute16 cpu
    let value ← Bus.read 0 addr.toUInt16
    incPcLoop (compare cpu (cpu.reg reg) value)
  | .adc sub mode => do
    let (cpu, addr) ← address mode cpu operand
    let right ← Bus.read 0 addr.toUInt16
    let cpu := addCarry cpu sub cpu.a right
    incPcLoop { cpu with a := toByte cpu.nz }
  | .adcImm sub =>
    let cpu := addCarry cpu sub cpu.a data
    incPcLoop { cpu with a := toByte cpu.nz }
  | .adcXY sub => do
    let right ← readDp (-2) cpu cpu.y.toUInt32
    let addr := dpAddr cpu cpu.x.toUInt32
    let left ← Bus.read (-1) addr.toUInt16
    let cpu := addCarry cpu sub left right
    Bus.write 0 addr.toUInt16 cpu.nz.toInt
    loop cpu
  | .adcDp sub fromDp => do
    let right ← if fromDp then readDp (-3) cpu operand else pure data
    let cpu := { cpu with pc := cpu.pc + 1 }
    let temp ← Bus.peek cpu.pc.toNat
    let addr := dpAddr cpu temp.toUInt32
    let left ← Bus.read (-1) addr.toUInt16
    let cpu := addCarry cpu sub left right
    Bus.write 0 addr.toUInt16 cpu.nz.toInt
    incPcLoop cpu
  | .incReg reg =>
    let nz := toInt (cpu.reg reg) + 1
    loop { cpu.setReg reg (toByte nz) with nz := nz }
  | .decReg reg =>
    let nz := toInt (cpu.reg reg) - 1
    loop { cpu.setReg reg (toByte nz) with nz := nz }
  | .incMem up mode => do
    let (cpu, addr) ← addressMem mode cpu operand
    let value ← Bus.read (-1) addr.toUInt16
    let nz := (if up then 1 else -1) + toInt value
    Bus.write 0 addr.toUInt16 nz.toInt
    incPcLoop { cpu with nz := nz }
  | .rorA clear =>
    let cpu := ror (clearC cpu clear) cpu.a
    loop { cpu with a := toByte cpu.nz }
  | .rolA clear =>
    let cpu := rol (clearC cpu clear) cpu.a
    loop { cpu with a := toByte cpu.nz }
  | .rolMem clear mode => do
    let (cpu, addr) ← addressMem mode (clearC cpu clear) operand
    let value ← Bus.read (-1) addr.toUInt16
    let cpu := rol cpu value
    Bus.write 0 addr.toUInt16 cpu.nz.toInt
    incPcLoop cpu
  | .rorMem clear mode => do
    let (cpu, addr) ← addressMem mode (clearC cpu clear) operand
    let value ← Bus.read (-1) addr.toUInt16
    let cpu := ror cpu value
    Bus.write 0 addr.toUInt16 cpu.nz.toInt
    incPcLoop cpu
  | .xcn => loop (cpu.load .a (cpu.a >>> 4 ||| cpu.a <<< 4))
  | .movwYaDp => do
    let lo ← readDp (-2) cpu operand
    let hi ← readDp 0 cpu (index operand 1)
    incPcLoop { cpu with
      a := lo
      y := hi
      nz := (toInt lo &&& (0x7F : Int32)) ||| (toInt lo >>> 1 : Int32) ||| toInt hi }
  | .movwDpYa => do
    writeDp (-1) cpu operand cpu.a.toNat
    writeDp 0 cpu (index operand 1) (cpu.y.toNat + noReadBeforeWrite)
    incPcLoop cpu
  | .incw up => do
    let lo ← readDp (-3) cpu operand
    let temp := toInt lo + if up then 1 else -1
    writeDp (-2) cpu operand temp.toInt
    -- the index drops the direct page, which `dpAddr` adds again
    let addr := index (dpAddr cpu operand) 1
    let hi ← readDp (-1) cpu addr
    let high := toInt (toByte (temp >>> 8 + toInt hi))
    writeDp 0 cpu addr high.toInt
    incPcLoop { cpu with nz := ((temp >>> 1 ||| temp) &&& 0x7F) ||| high }
  | .addw sub => do
    let lo ← readDp (-2) cpu operand
    let hi ← readDp 0 cpu (index operand 1)
    incPcLoop (addWord cpu sub lo hi)
  | .cmpw => do
    let lo ← readDp (-1) cpu operand
    let hi ← readDp 0 cpu (index operand 1)
    incPcLoop (compareWord cpu lo hi)
  | .mul => loop (multiply cpu)
  | .div => loop (divide cpu)
  | .daa => loop (decimalAdd cpu)
  | .das => loop (decimalSub cpu)
  | .bra => incPcLoop { cpu with pc := cpu.pc + signed operand }
  | .bitBranch set bit => do
    let value ← readDp (-4) cpu operand
    cbranch cpu ((value >>> UInt8.ofNat bit &&& 1 = 1) = set)
  | .cbne indexed => do
    let value ← readDpTimer (-4) cpu (if indexed then index operand cpu.x else operand)
    cbranch cpu (value ≠ cpu.a)
  | .dbnzDp => do
    let value ← readDp (-4) cpu operand
    let temp := toInt value - 1
    writeDp (-3) cpu operand (temp.toInt + noReadBeforeWrite)
    cbranch cpu (temp ≠ 0)
  | .dbnzY =>
    let cpu := { cpu with y := cpu.y - 1 }
    branch cpu operand (cpu.y ≠ 0)
  | .jmpInd => do
    let base ← readPc16 cpu
    let target ← readPc16 { cpu with pc := (base + cpu.x.toUInt32).toUInt16 }
    loop { cpu with pc := target.toUInt16 }
  | .jmp => do
    let target ← readPc16 cpu
    loop { cpu with pc := target.toUInt16 }
  | .brk => do
    let target ← readProg16 0xFFDE
    let cpu ← push16 { cpu with pc := target.toUInt16 } cpu.pc.toUInt32
    let cpu ← push { cpu with psw := (cpu.psw ||| b10) &&& ~~~i04 } (toByte (getPsw cpu))
    loop cpu
  | .pcall => do
    let cpu ← push16 { cpu with pc := 0xFF00 ||| data.toUInt16 } (cpu.pc.toUInt32 + 1)
    loop cpu
  | .tcall slot => do
    let target ← readProg16 (0xFFDE - slot)
    let cpu ← push16 { cpu with pc := target.toUInt16 } cpu.pc.toUInt32
    loop cpu
  | .ret1 => do
    let (cpu, temp) ← pop cpu
    let (cpu, l) ← pop cpu
    let (cpu, h) ← pop cpu
    loop (setPsw { cpu with pc := l.toUInt16 ||| h.toUInt16 <<< 8 } (toInt temp))
  | .popPsw => do
    let (cpu, temp) ← pop cpu
    loop (setPsw cpu (toInt temp))
  | .pushPsw => do
    let cpu ← push cpu (toByte (getPsw cpu))
    loop cpu
  | .push reg => do
    let cpu ← push cpu (cpu.reg reg)
    loop cpu
  | .pop reg => do
    let (cpu, data) ← pop cpu
    loop (cpu.setReg reg data)
  | .setBit set bit => do
    let value ← readDp (-1) cpu operand
    let mask := (1 : UInt8) <<< UInt8.ofNat bit
    writeDp 0 cpu operand ((value &&& ~~~mask) ||| if set then mask else 0).toNat
    incPcLoop cpu
  | .tset1 set => do
    let addr ← readPc16 cpu
    let value ← Bus.read (-2) addr.toUInt16
    Bus.write 0 addr.toUInt16 ((value &&& ~~~cpu.a) ||| if set then cpu.a else 0).toNat
    loop { skip2 cpu with nz := toInt (cpu.a - value) }
  | .and1 invert => do
    let m ← memBit 0 cpu
    loop { skip2 cpu with c := cpu.c &&& if invert then ~~~m else m }
  | .or1 invert => do
    let m ← memBit (-1) cpu
    loop { skip2 cpu with c := cpu.c ||| if invert then ~~~m else m }
  | .eor1 => do
    let m ← memBit (-1) cpu
    loop { skip2 cpu with c := cpu.c ^^^ m }
  | .not1 => do
    let addr ← readPc16 cpu
    let value ← Bus.read (-1) (addr &&& 0x1FFF).toUInt16
    let temp := value.toUInt32 ^^^ (1 : UInt32) <<< (addr >>> 13)
    Bus.write 0 (addr &&& 0x1FFF).toUInt16 temp.toNat
    loop (skip2 cpu)
  | .mov1Mem => do
    let addr ← readPc16 cpu
    let value ← Bus.read (-2) (addr &&& 0x1FFF).toUInt16
    let bit := addr >>> 13
    let temp := (value.toUInt32 &&& ~~~((1 : UInt32) <<< bit)) |||
      ((cpu.c >>> 8 &&& 1).toUInt32 <<< bit)
    Bus.write 0 (addr &&& 0x1FFF).toUInt16 (temp.toNat + noReadBeforeWrite)
    loop (skip2 cpu)
  | .mov1C => do
    let m ← memBit 0 cpu
    loop { skip2 cpu with c := m }
  | .clrc => loop { cpu with c := 0 }
  | .setc => loop { cpu with c := ~~~0 }
  | .notc => loop { cpu with c := cpu.c ^^^ 0x100 }
  | .clrv => loop { cpu with psw := cpu.psw &&& ~~~(v40 ||| h08) }
  | .clrp => loop { cpu with dp := 0 }
  | .setp => loop { cpu with dp := 0x100 }
  | .ei => loop { cpu with psw := cpu.psw ||| i04 }
  | .di => loop { cpu with psw := cpu.psw &&& ~~~i04 }
  | .nop => loop cpu
  | .stop =>
    if cpu.pc = 0 then loop cpu else pure (.stop { cpu with pc := cpu.pc - 1 })
  | .sleep => pure (.stop { cpu with pc := cpu.pc - 1 })

end SnesApu.Apu
