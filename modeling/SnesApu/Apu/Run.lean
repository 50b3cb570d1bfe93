import SnesApu.Emulator
import SnesApu.Apu.Cpu

/-!
# Running the SMP

The CPU loop of SPC_CPU.h, frames, the output buffers of the player, loading and
saving. The client's buffer and `extra_buf` are lists of samples. The loop is
given the turns it needs at most; running out of them is an error of the model.
-/

namespace SnesApu.Apu

open General General.Width

/-! ### The CPU -/

def loadCpu (regs : CpuRegs) : Cpu :=
  setPsw
    { a := regs.a
      x := regs.x
      y := regs.y
      pc := regs.pc
      sp := regs.sp
      psw := 0
      c := 0
      nz := 0
      dp := 0 }
    (toInt regs.psw)

def saveCpu (cpu : Cpu) : CpuRegs where
  pc := cpu.pc
  a := cpu.a
  x := cpu.x
  y := cpu.y
  psw := toByte (getPsw cpu)
  sp := cpu.sp

structure Running where
  relTime : ℤ
  cpu : Cpu
  spc : Spc

def Running.opcode (r : Running) : UInt8 := r.spc.ram r.cpu.pc.toNat

def Running.instruction (r : Running) : Bus Flow :=
  let cpu := { r.cpu with pc := r.cpu.pc + 1 }
  exec (decode r.opcode) cpu (r.spc.ram cpu.pc.toNat)

def arrive (relTime : ℤ) : Spc × Flow → Running ⊕ Running
  | (spc, .next cpu refund) => .inl ⟨relTime - refund, cpu, spc⟩
  | (spc, .stop cpu) => .inr ⟨0, cpu, { spc with cpuError := true }⟩

/-- One turn of the loop, which leaves it out of time or at a stop. -/
def turn (r : Running) : Except Fault (Running ⊕ Running) :=
  let relTime := r.relTime + cycles r.opcode
  if 0 < relTime then .ok (.inr r)
  else (r.instruction.run (handle relTime) r.spc).map (arrive relTime)

def Spc.shift (s : Spc) (rel : ℤ) : Spc :=
  { s with
    dspTime := s.dspTime + rel
    timers := fun i => (s.timers i).setNextTime ((s.timers i).nextTime + rel) }

/-- `SPC_CPU_RUN_FUNC`, and the registers. -/
def runFunc (s : Spc) (endTime : ℤ) : Running :=
  let rel := s.spcTime - endTime
  ⟨rel, loadCpu s.cpuRegs, { s.shift rel with spcTime := endTime }⟩

/-- The registers, and `SPC_CPU_RUN_FUNC_END`. -/
def runFuncEnd (endTime : ℤ) (r : Running) : Except Fault Spc :=
  let s := { r.spc with cpuRegs := saveCpu r.cpu }
  let s := { s.shift (-r.relTime) with spcTime := s.spcTime + r.relTime }
  if s.spcTime ≤ endTime then .ok s else .error .assertion

/-- The turns that `rel` cycles leave time for, and two that take none. -/
def turns (rel : ℤ) : ℕ := (-rel).toNat + 2

def runUntil_ (s : Spc) (endTime : ℤ) : Except Fault Spc := do
  let rel := s.spcTime - endTime
  if 0 < rel then .error .assertion
  else
    let r ← iterate turn Fault.fuel (turns rel) (runFunc s endTime)
    runFuncEnd endTime r

/-! ### Output -/

def clocksPerSample : ℤ := 32

def sampleCount (s : Spc) : ℕ := (s.extraClocks / 32 * 2).toNat

def Spc.setDac (s : Spc) (dac : Dac) : Spc := { s with dsp := { s.dsp with dac := dac } }

/-- The output of the processor after `dsp.set_output( 0, 0 )`. -/
def nullDac : Dac where
  main := []
  size := 0
  inExtra := true
  extra := []

def resetBuf (s : Spc) : Spc :=
  { s.setDac nullDac with
    extraBuf := List.replicate (extraSize / 2) 0
    bufBegin := false }

/-- `set_output`, where `out` tells whether there is a buffer. One that ends
before it begins is full. -/
def setOutput (s : Spc) (out : Bool) (size : Int32) : Except Fault Spc :=
  if size.toInt % 2 ≠ 0 then .error .assertion
  else
    let s := { s with extraClocks := s.extraClocks % clocksPerSample }
    if out then
      let size := size.toInt.toNat
      let main := s.extraBuf.take size
      let extra := s.extraBuf.drop size
      if size ≤ main.length then
        if extra.length ≤ extraSize ∧ extra.length % 2 = 0 then
          .ok { s.setDac ⟨main, size, true, extra⟩ with bufBegin := true }
        else .error .assertion
      else if (size - main.length) % 2 = 0 then
        .ok { s.setDac ⟨main, size, false, []⟩ with bufBegin := true }
      else .error .assertion
    else .ok (resetBuf s)

def saveExtra (s : Spc) : Except Fault Spc :=
  let dac := s.dsp.dac
  let extraBuf := dac.main.drop (sampleCount s) ++ if dac.inExtra then dac.extra else []
  if extraBuf.length ≤ extraSize then .ok { s with extraBuf := extraBuf } else .error .assertion

/-! ### Frames -/

def cpuLagMax : ℤ := 12 - 1

/-- `end_frame` brings the CPU as close to the end as it can, -/
def catchUpCpu (s : Spc) (endTime : ℤ) : Except Fault Spc :=
  if s.spcTime < endTime then runUntil_ s endTime else .ok s

/-- and then the timers and the sound processor up to the CPU. -/
def catchUpRest (s : Spc) (endTime : ℤ) : Except Fault Spc :=
  let s := { s with spcTime := s.spcTime - endTime, extraClocks := s.extraClocks + endTime }
  if -cpuLagMax ≤ s.spcTime ∧ s.spcTime ≤ 0 then
    let s := { s with timers := fun i => runTimer (s.timers i) 0 }
    if s.dspTime < 0 then runDsp s 0 else .ok s
  else .error .assertion

def catchUpTo (s : Spc) (endTime : ℤ) : Except Fault Spc := do
  let s ← catchUpCpu s endTime
  catchUpRest s endTime

def endFrame (s : Spc) (endTime : ℤ) : Except Fault Spc := do
  let s ← catchUpTo s endTime
  if s.bufBegin then saveExtra s else pure s

/-- What `play` returns: whether the CPU stopped with an error, and what it stored. -/
structure Played where
  spc : Spc
  cpuError : Bool
  samples : List ℤ

def played (s : Spc) (samples : List ℤ) : Played where
  spc := { s with cpuError := false }
  cpuError := s.cpuError
  samples := samples

def play (s : Spc) (count : Int32) (out : Bool) : Except Fault Played :=
  if count.toInt % 2 ≠ 0 then .error .assertion
  else if count = 0 then .ok (played s [])
  else do
    let s ← setOutput s out count
    let clocks := count.toInt * (clocksPerSample / 2)
    if Fits 32 clocks then
      let s ← endFrame s clocks
      pure (played s s.dsp.dac.main)
    else .error .overflow

def skip (s : Spc) (count : Int32) : Except Fault Played := play s count false

/-! ### Reset and load -/

def tempoUnit : ℤ := 0x100

def setTempo (s : Spc) (t : ℤ) : Spc :=
  let divisor := if t = 0 then 1 else t
  let rate := (16 * tempoUnit + divisor / 2).tdiv divisor
  let rate := if rate < 16 / 4 then 16 / 4 else rate
  { s with
    tempo := t
    timers := fun i => { s.timers i with prescaler := if i = 2 then rate else rate * 8 } }

def timersLoaded (s : Spc) : Spc :=
  let timers := fun i : Fin 3 =>
    { s.timers i with
      period := ifZeroThen256 (s.regs (rT0target + i)).toNat
      enabled := bit (s.regs rControl).toNat i
      counter := ((s.regsIn (rT0out + i)).toNat % 16 : ℕ) }
  setTempo { s with timers := timers } s.tempo

def loadRegs (s : Spc) (input : ℕ → UInt8) : Spc :=
  { s with
    regs := input
    regsIn := fun r =>
      if r = rTest ∨ r = rControl ∨ (rT0target ≤ r ∧ r < rT0target + 3) then 0 else input r }

def cpuPadFill : UInt8 := 0xFF

def ramLoaded (s : Spc) : Spc :=
  let s := loadRegs { s with romEnabled := false } fun r => s.ram (0xF0 + r)
  s.setRam fun addr => if addr < 0x10000 then s.ram addr else cpuPadFill

def regsLoaded (s : Spc) : Spc := timersLoaded (enableRom s (bit (s.regs rControl).toNat 7))

def resetTimeRegs (s : Spc) : Spc :=
  let timers := fun i => { s.timers i with nextTime := 1, divider := 0 }
  let s := { s with cpuError := false, spcTime := 0, dspTime := 0, timers := timers }
  resetBuf { regsLoaded s with extraClocks := 0 }

def resetCommon (s : Spc) (timerCounterInit : UInt8) : Spc :=
  let regsIn := fun r =>
    if rT0out ≤ r ∧ r < rT0out + 3 then timerCounterInit
    else if rCpuio0 ≤ r ∧ r < rCpuio0 + 4 then 0
    else s.regsIn r
  resetTimeRegs { s with
    regsIn := regsIn
    cpuRegs := ⟨0xFFC0, 0, 0, 0, 0, 0⟩
    regs := Function.update (Function.update s.regs rTest 0x0A) rControl 0xB0 }

def SpcDsp.load (d : SpcDsp) (regs : ℕ → UInt8) : SpcDsp :=
  { d with
    state := d.state.load regs
    phase := 0 }

def Spc.loadDsp (s : Spc) (regs : ℕ → UInt8) : Spc := { s with dsp := s.dsp.load regs }

def reset (s : Spc) : Spc :=
  let s := ramLoaded (s.setRam fun addr => if addr < 0x10000 then 0xFF else s.ram addr)
  (resetCommon s 0x0F).loadDsp fun i => initialRegs.getD i 0

def initRom (s : Spc) (input : ℕ → UInt8) : Spc := { s with rom := input }

def muteVoices (s : Spc) (mask : UInt8) : Spc :=
  { s with dsp := { s.dsp with state := { s.dsp.state with muteMask := mask } } }

/-- The state before `init` resets it. -/
def Spc.zero : Spc where
  timers _ := ⟨0, 0, 0, 0, false, 0⟩
  regs _ := 0
  regsIn _ := 0
  cpuRegs := ⟨0, 0, 0, 0, 0, 0⟩
  dspTime := 0
  spcTime := 0
  tempo := tempoUnit
  cpuError := false
  extraClocks := 0
  bufBegin := false
  extraBuf := []
  romEnabled := false
  rom i := if i = 0x3E then 0xFF else if i = 0x3F then 0xC0 else 0
  hiRam _ := 0
  dsp := ⟨Dsp.init fun _ => 0, 0, nullDac⟩

def Spc.init : Spc := reset Spc.zero

/-! ### Files -/

/-- `load_spc` past its checks of the signature and the size. -/
def loadState (s : Spc) (data : Bytes) : Spc :=
  let s := { s with
    cpuRegs := {
      pc := (byteAt data 0x26).toUInt16 * 0x100 + (byteAt data 0x25).toUInt16
      a := byteAt data 0x27
      x := byteAt data 0x28
      y := byteAt data 0x29
      psw := byteAt data 0x2A
      sp := byteAt data 0x2B } }
  let ram := fun addr => if addr < 0x10000 then byteAt data (0x100 + addr) else s.ram addr
  let s := ramLoaded (s.setRam ram)
  resetTimeRegs (s.loadDsp fun r => byteAt data (0x10100 + r))

def loadSpc (s : Spc) (data : Bytes) : Spc × Option Bytes :=
  match loadError data with
  | some e => (s, some e)
  | none => (loadState s data, none)

def clearEcho (s : Spc) : Spc :=
  if s.dsp.state.read rFlg &&& 0x20 = 0 then
    let first := 0x100 * (s.dsp.state.read rEsa).toNat
    let last := min (first + 0x800 * ((s.dsp.state.read rEdl).toNat % 16)) 0x10000
    s.setRam fun addr => if first ≤ addr ∧ addr < last then 0xFF else s.ram addr
  else s

end SnesApu.Apu
