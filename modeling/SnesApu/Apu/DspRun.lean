import SnesApu.Apu.DspVoice

/-!
# Echo, timing and registers of the sound processor

A clock of the sound processor is one of 32 phases. Phase 27 gives one pair of
samples to the converter; `emit` is that pair.
-/

namespace SnesApu.Apu

open General

/-! ### Once a sample -/

def misc27 (m : Dsp) : Dsp := { m with tPmon := m.regs rPmon &&& 0xFE }

def misc28 (m : Dsp) : Dsp :=
  { m with tNon := m.regs rNon, tEon := m.regs rEon, tDir := m.regs rDir }

def misc29 (m : Dsp) : Dsp :=
  let m := { m with everyOtherSample := !m.everyOtherSample }
  if m.everyOtherSample then { m with newKon := m.newKon &&& ~~~m.kon } else m

def runNoise (noise : ℕ) : ℕ :=
  let feedback := noise <<< 13 ^^^ noise <<< 14
  (feedback &&& 0x4000) ^^^ (noise >>> 1)

def latchKeys (m : Dsp) : Dsp :=
  if m.everyOtherSample then { m with kon := m.newKon, tKoff := m.regs rKoff ||| m.muteMask } else m

def stepNoise (m : Dsp) : Dsp :=
  { m with
    noise :=
      if readCounter m ((m.regs rFlg).toNat &&& 0x1F) = 0 then runNoise m.noise else m.noise }

def misc30 (m : Dsp) : Dsp := stepNoise (runCounters (latchKeys m))

/-! ### Echo -/

def echoPtr (m : Dsp) (ch : ℕ) : ℤ := m.tEchoPtr + ch * 2

/-- `ECHO_FIR( i )`, both channels. -/
def echoFir (m : Dsp) (i : ℕ) : Checked (ℕ → ℤ) :=
  load (2 * echoHistSize) m.echoHist (m.echoHistPos + i)

def calcFir (m : Dsp) (i ch : ℕ) : Checked ℤ := do
  let s ← echoFir m (i + 1)
  pure (s ch * int8 (m.regs (rFir + i * 0x10)) / 2 ^ 6)

def setEchoFir (m : Dsp) (i ch : ℕ) (s : ℤ) : Checked Dsp := do
  let row ← echoFir m i
  let hist ← store (2 * echoHistSize) m.echoHist (m.echoHistPos + i) (Function.update row ch s)
  pure { m with echoHist := hist }

def echoRead (ch : ℕ) (m : Dsp) : Checked Dsp := do
  let s ← m.getLe16 (echoPtr m ch)
  let m ← setEchoFir m 0 ch (int16 s / 2)
  setEchoFir m echoHistSize ch (int16 s / 2)

def stereo (l r : ℤ) (ch : ℕ) : ℤ := if ch = 0 then l else r

def echo22 (m : Dsp) : Checked Dsp := do
  let pos := if (echoHistSize : ℤ) ≤ m.echoHistPos + 1 then 0 else m.echoHistPos + 1
  let m := { m with
    echoHistPos := pos
    tEchoPtr := (m.tEsa.toNat * 0x100 + m.echoOffset) % 0x10000 }
  let m ← echoRead 0 m
  let l ← calcFir m 0 0
  let r ← calcFir m 0 1
  pure { m with tEchoIn := stereo l r }

def echo23 (m : Dsp) : Checked Dsp := do
  let l1 ← calcFir m 1 0
  let l2 ← calcFir m 2 0
  let r1 ← calcFir m 1 1
  let r2 ← calcFir m 2 1
  echoRead 1 { m with tEchoIn := stereo (m.tEchoIn 0 + (l1 + l2)) (m.tEchoIn 1 + (r1 + r2)) }

def echo24 (m : Dsp) : Checked Dsp := do
  let l3 ← calcFir m 3 0
  let l4 ← calcFir m 4 0
  let l5 ← calcFir m 5 0
  let r3 ← calcFir m 3 1
  let r4 ← calcFir m 4 1
  let r5 ← calcFir m 5 1
  pure { m with
    tEchoIn := stereo (m.tEchoIn 0 + (l3 + l4 + l5)) (m.tEchoIn 1 + (r3 + r4 + r5)) }

def echo25 (m : Dsp) : Checked Dsp := do
  let l6 ← calcFir m 6 0
  let r6 ← calcFir m 6 1
  let l7 ← calcFir m 7 0
  let r7 ← calcFir m 7 1
  let l := int16 (m.tEchoIn 0 + l6) + int16 l7
  let r := int16 (m.tEchoIn 1 + r6) + int16 r7
  pure { m with tEchoIn := stereo (maskBit0 (clamp16 l)) (maskBit0 (clamp16 r)) }

def echoOutput (m : Dsp) (ch : ℕ) : ℤ :=
  clamp16 (int16 (m.tMainOut ch * int8 (m.regs (rMvoll + ch * 0x10)) / 2 ^ 7) +
    int16 (m.tEchoIn ch * int8 (m.regs (rEvoll + ch * 0x10)) / 2 ^ 7))

def echo26 (m : Dsp) : Dsp :=
  let m := { m with tMainOut := Function.update m.tMainOut 0 (echoOutput m 0) }
  let l := m.tEchoOut 0 + int16 (m.tEchoIn 0 * int8 (m.regs rEfb) / 2 ^ 7)
  let r := m.tEchoOut 1 + int16 (m.tEchoIn 1 * int8 (m.regs rEfb) / 2 ^ 7)
  { m with tEchoOut := stereo (maskBit0 (clamp16 l)) (maskBit0 (clamp16 r)) }

/-- The pair that phase 27 writes to the output. -/
def outputPair (m : Dsp) : ℤ × ℤ :=
  if m.regs rFlg &&& 0x40 ≠ 0 then (0, 0) else (m.tMainOut 0, echoOutput m 1)

def echo27 (m : Dsp) : Dsp := { m with tMainOut := stereo 0 0 }

def echo28 (m : Dsp) : Dsp := { m with tEchoEnabled := m.regs rFlg }

/-- The store of `echo_write`, unless FLG forbids it. -/
def echoStore (ch : ℕ) (m : Dsp) : Checked Dsp :=
  if m.tEchoEnabled &&& 0x20 = 0 then m.setLe16 (echoPtr m ch) (m.tEchoOut ch) else .ok m

def echoWrite (ch : ℕ) (m : Dsp) : Checked Dsp := do
  let m ← echoStore ch m
  pure { m with tEchoOut := Function.update m.tEchoOut ch 0 }

def echo29 (m : Dsp) : Checked Dsp := do
  let length : ℤ :=
    if m.echoOffset = 0 then ((m.regs rEdl).toNat &&& 0x0F : ℕ) * 0x800 else m.echoLength
  let offset := if length ≤ m.echoOffset + 4 then 0 else m.echoOffset + 4
  let m ← echoWrite 0 { m with
    tEsa := m.regs rEsa
    echoLength := length
    echoOffset := offset }
  pure { m with tEchoEnabled := m.regs rFlg }

def echo30 (m : Dsp) : Checked Dsp := echoWrite 1 m

/-! ### Timing -/

/-- `GEN_DSP_TIMING`. -/
def clock (phase : ℕ) (m : Dsp) : Checked Dsp :=
  match phase with
  | 0 => voiceV2 1 (voiceV5 0 m)
  | 1 => voiceV3 1 (voiceV6 0 m)
  | 2 => voiceV7V4V1 0 m
  | 3 => voiceV8V5V2 0 m
  | 4 => voiceV9V6V3 0 m
  | 5 => voiceV7V4V1 1 m
  | 6 => voiceV8V5V2 1 m
  | 7 => voiceV9V6V3 1 m
  | 8 => voiceV7V4V1 2 m
  | 9 => voiceV8V5V2 2 m
  | 10 => voiceV9V6V3 2 m
  | 11 => voiceV7V4V1 3 m
  | 12 => voiceV8V5V2 3 m
  | 13 => voiceV9V6V3 3 m
  | 14 => voiceV7V4V1 4 m
  | 15 => voiceV8V5V2 4 m
  | 16 => voiceV9V6V3 4 m
  | 17 => voiceV4 6 (voiceV7 5 (voiceV1 0 m))
  | 18 => voiceV8V5V2 5 m
  | 19 => voiceV9V6V3 5 m
  | 20 => voiceV4 7 (voiceV7 6 (voiceV1 1 m))
  | 21 => voiceV2 0 (voiceV5 7 (voiceV8 6 m))
  | 22 => echo22 (voiceV6 7 (voiceV9 6 (voiceV3a 0 m)))
  | 23 => echo23 (voiceV7 7 m)
  | 24 => echo24 (voiceV8 7 m)
  | 25 => do
    let m ← voiceV3b 0 m
    echo25 (voiceV9 7 m)
  | 26 => .ok (echo26 m)
  | 27 => .ok (echo27 (misc27 m))
  | 28 => .ok (echo28 (misc28 m))
  | 29 => echo29 (misc29 m)
  | 30 => do
    let m ← voiceV3c 0 (misc30 m)
    echo30 m
  | _ => do
    let m ← voiceV4 0 m
    pure (voiceV1 2 m)

def emit (phase : ℕ) (m : Dsp) : List (ℤ × ℤ) := if phase = 27 then [outputPair (misc27 m)] else []

/-- The loop of `run` over the clocks that remain, with the pairs it writes. -/
def runFrom : ℕ → ℕ → Dsp → Checked (Dsp × List (ℤ × ℤ))
  | 0, _, m => .ok (m, [])
  | n + 1, phase, m => do
    let next ← clock phase m
    let rest ← runFrom n ((phase + 1) % 32) next
    pure (rest.1, emit phase m ++ rest.2)

/-- The output pointers and what was written through them. A buffer is the list
of the samples that stand before the pointer; the client's holds `size` samples
and `extra` sixteen. -/
structure Dac where
  main : List ℤ
  size : ℕ
  inExtra : Bool
  extra : List ℤ

def extraSize : ℕ := 16

/-- `WRITE_SAMPLES`. -/
def Dac.writeSamples (d : Dac) (pair : ℤ × ℤ) : Dac :=
  if d.inExtra then
    let extra := d.extra ++ [pair.1, pair.2]
    { d with extra := if extraSize ≤ extra.length then [] else extra }
  else
    let main := d.main ++ [pair.1, pair.2]
    if d.size ≤ main.length then { d with main := main, inExtra := true, extra := [] }
    else { d with main := main }

structure SpcDsp where
  state : Dsp
  phase : ℕ
  dac : Dac

def SpcDsp.run (d : SpcDsp) (clocksRemain : ℕ) : Checked SpcDsp := do
  let result ← runFrom clocksRemain d.phase d.state
  pure {
    state := result.1
    phase := (d.phase + clocksRemain) % 32
    dac := result.2.foldl Dac.writeSamples d.dac }

/-! ### Registers -/

def Dsp.read (m : Dsp) (addr : ℕ) : UInt8 := m.regs addr

/-- ENDX is cleared by a write, whatever the data. -/
def Dsp.write (m : Dsp) (addr : ℕ) (data : UInt8) : Dsp :=
  { m with
    regs := Function.update m.regs addr (if addr = rEndx then 0 else data)
    envxBuf := if addr % 16 = vEnvx then data else m.envxBuf
    outxBuf := if addr % 16 = vOutx then data else m.outxBuf
    newKon := if addr = rKon then data else m.newKon
    endxBuf := if addr = rEndx then 0 else m.endxBuf }

def Dsp.softResetCommon (m : Dsp) : Dsp :=
  { m with
    noise := 0x4000
    echoHistPos := 0
    everyOtherSample := true
    echoOffset := 0
    counter := 0 }

def loadedVoice (i : ℕ) : Voice where
  buf _ := 0
  bufPos := 0
  interpPos := 0
  brrAddr := 0
  brrOffset := 1
  regs := i * 0x10
  vbit := 1 <<< UInt8.ofNat i
  konDelay := 0
  envMode := .release
  env := 0
  hiddenEnv := 0
  tEnvxOut := 0

/-- The state that `load` clears to zero and then fills from the registers. -/
def clearedDsp (regs ram : ℕ → UInt8) (muteMask : UInt8) : Dsp where
  regs := regs
  echoHist := fun _ _ => 0
  echoHistPos := 0
  everyOtherSample := false
  kon := 0
  noise := 0
  counter := 0
  echoOffset := 0
  echoLength := 0
  konCheck := false
  newKon := regs rKon
  endxBuf := 0
  envxBuf := 0
  outxBuf := 0
  tPmon := 0
  tNon := 0
  tEon := 0
  tDir := regs rDir
  tKoff := 0
  tBrrNextAddr := 0
  tAdsr0 := 0
  tBrrHeader := 0
  tBrrByte := 0
  tSrcn := 0
  tEsa := regs rEsa
  tEchoEnabled := 0
  tDirAddr := 0
  tPitch := 0
  tOutput := 0
  tLooped := 0
  tEchoPtr := 0
  tMainOut := fun _ => 0
  tEchoOut := fun _ => 0
  tEchoIn := fun _ => 0
  voices := loadedVoice
  ram := ram
  muteMask := muteMask

def Dsp.load (m : Dsp) (regs : ℕ → UInt8) : Dsp := (clearedDsp regs m.ram m.muteMask).softResetCommon

def initialRegs : List UInt8 := [
  0x45, 0x8B, 0x5A, 0x9A, 0xE4, 0x82, 0x1B, 0x78, 0x00, 0x00, 0xAA, 0x96, 0x89, 0x0E, 0xE0, 0x80,
  0x2A, 0x49, 0x3D, 0xBA, 0x14, 0xA0, 0xAC, 0xC5, 0x00, 0x00, 0x51, 0xBB, 0x9C, 0x4E, 0x7B, 0xFF,
  0xF4, 0xFD, 0x57, 0x32, 0x37, 0xD9, 0x42, 0x22, 0x00, 0x00, 0x5B, 0x3C, 0x9F, 0x1B, 0x87, 0x9A,
  0x6F, 0x27, 0xAF, 0x7B, 0xE5, 0x68, 0x0A, 0xD9, 0x00, 0x00, 0x9A, 0xC5, 0x9C, 0x4E, 0x7B, 0xFF,
  0xEA, 0x21, 0x78, 0x4F, 0xDD, 0xED, 0x24, 0x14, 0x00, 0x00, 0x77, 0xB1, 0xD1, 0x36, 0xC1, 0x67,
  0x52, 0x57, 0x46, 0x3D, 0x59, 0xF4, 0x87, 0xA4, 0x00, 0x00, 0x7E, 0x44, 0x9C, 0x4E, 0x7B, 0xFF,
  0x75, 0xF5, 0x06, 0x97, 0x10, 0xC3, 0x24, 0xBB, 0x00, 0x00, 0x7B, 0x7A, 0xE0, 0x60, 0x12, 0x0F,
  0xF7, 0x74, 0x1C, 0xE5, 0x39, 0x3D, 0x73, 0xC1, 0x00, 0x00, 0x7A, 0xB3, 0xFF, 0x4E, 0x7B, 0xFF]

def Dsp.reset (m : Dsp) : Dsp := m.load fun i => initialRegs.getD i 0

/-- The state after `init` with the given memory. -/
def Dsp.init (ram : ℕ → UInt8) : Dsp := (clearedDsp (fun _ => 0) ram 0).reset

end SnesApu.Apu
