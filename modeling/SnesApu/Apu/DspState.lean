import SnesApu.General.Checked

/-!
# The state of the sound processor

`Dsp` is the `state_t` of SPC_DSP.h without the phase and the output pointers,
which no step of a voice or of the echo touches. The 64K of memory that `m.ram`
points into lies in an array of `0x10100` bytes, and a read or write past it is
an error of the model.
-/

namespace SnesApu.Apu

open General

/-! ### C integers -/

def int16 (x : ℤ) : ℤ := x.bmod 65536

def int8 (x : UInt8) : ℤ := x.toInt8.toInt

def clamp16 (io : ℤ) : ℤ :=
  if int16 io ≠ io then if io < 0 then -0x8000 else 0x7FFF else io

/-- `x & ~1`. -/
def maskBit0 (x : ℤ) : ℤ := x / 2 * 2

theorem int16_mem (x : ℤ) : -0x8000 ≤ int16 x ∧ int16 x ≤ 0x7FFF := by
  have hlow := Int.le_bmod (x := x) (m := 65536) (by norm_num)
  have hhigh := Int.bmod_lt (x := x) (m := 65536) (by norm_num)
  unfold int16
  omega

theorem int8_mem (x : UInt8) : -0x80 ≤ int8 x ∧ int8 x ≤ 0x7F := by
  have hlow := x.toInt8.le_toInt
  have hhigh := x.toInt8.toInt_lt
  unfold int8
  omega

theorem clamp16_mem (io : ℤ) : -0x8000 ≤ clamp16 io ∧ clamp16 io ≤ 0x7FFF := by
  have h := int16_mem io
  unfold clamp16
  split_ifs with hne hneg
  · norm_num
  · norm_num
  · rw [← not_not.mp hne]
    exact h

theorem maskBit0_mem {x : ℤ} (h : -0x8000 ≤ x ∧ x ≤ 0x7FFF) :
    -0x8000 ≤ maskBit0 x ∧ maskBit0 x ≤ 0x7FFF := by
  unfold maskBit0
  omega

/-! ### Registers -/

def rMvoll : ℕ := 0x0C
def rEvoll : ℕ := 0x2C
def rKon : ℕ := 0x4C
def rKoff : ℕ := 0x5C
def rFlg : ℕ := 0x6C
def rEndx : ℕ := 0x7C
def rEfb : ℕ := 0x0D
def rPmon : ℕ := 0x2D
def rNon : ℕ := 0x3D
def rEon : ℕ := 0x4D
def rDir : ℕ := 0x5D
def rEsa : ℕ := 0x6D
def rEdl : ℕ := 0x7D
def rFir : ℕ := 0x0F

def vVoll : ℕ := 0x00
def vPitchl : ℕ := 0x02
def vPitchh : ℕ := 0x03
def vSrcn : ℕ := 0x04
def vAdsr0 : ℕ := 0x05
def vAdsr1 : ℕ := 0x06
def vGain : ℕ := 0x07
def vEnvx : ℕ := 0x08
def vOutx : ℕ := 0x09

/-! ### State -/

def brrBufSize : ℕ := 12
def brrBlockSize : ℤ := 9
def echoHistSize : ℕ := 8

/-- The bytes of `m.ram.ram`, 64K and the padding after them. -/
def ramSize : ℕ := 0x10100

inductive EnvMode where
  | release
  | attack
  | decay
  | sustain
  deriving DecidableEq

structure Voice where
  buf : ℕ → ℤ
  bufPos : ℤ
  interpPos : ℤ
  brrAddr : ℤ
  brrOffset : ℤ
  regs : ℕ
  vbit : UInt8
  konDelay : ℕ
  envMode : EnvMode
  env : ℤ
  hiddenEnv : ℤ
  tEnvxOut : UInt8

structure Dsp where
  regs : ℕ → UInt8
  echoHist : ℕ → ℕ → ℤ
  echoHistPos : ℤ
  everyOtherSample : Bool
  kon : UInt8
  noise : ℕ
  counter : ℤ
  echoOffset : ℤ
  echoLength : ℤ
  konCheck : Bool
  newKon : UInt8
  endxBuf : UInt8
  envxBuf : UInt8
  outxBuf : UInt8
  tPmon : UInt8
  tNon : UInt8
  tEon : UInt8
  tDir : UInt8
  tKoff : UInt8
  tBrrNextAddr : ℤ
  tAdsr0 : ℕ
  tBrrHeader : ℕ
  tBrrByte : ℤ
  tSrcn : UInt8
  tEsa : UInt8
  tEchoEnabled : UInt8
  tDirAddr : ℤ
  tPitch : ℤ
  tOutput : ℤ
  tLooped : UInt8
  tEchoPtr : ℤ
  tMainOut : ℕ → ℤ
  tEchoOut : ℕ → ℤ
  tEchoIn : ℕ → ℤ
  voices : ℕ → Voice
  ram : ℕ → UInt8
  muteMask : UInt8

namespace Dsp

def setVoice (m : Dsp) (i : ℕ) (v : Voice) : Dsp :=
  { m with voices := Function.update m.voices i v }

def vreg (m : Dsp) (v : Voice) (r : ℕ) : UInt8 := m.regs (v.regs + r)

def setReg (m : Dsp) (r : ℕ) (data : UInt8) : Dsp :=
  { m with regs := Function.update m.regs r data }

def readRam (m : Dsp) (addr : ℤ) : Checked UInt8 := load ramSize m.ram addr

def writeRam (m : Dsp) (addr : ℤ) (data : UInt8) : Checked Dsp := do
  let ram ← store ramSize m.ram addr data
  pure { m with ram := ram }

/-- `GET_LE16A`. -/
def getLe16 (m : Dsp) (addr : ℤ) : Checked ℤ := do
  let lo ← m.readRam addr
  let hi ← m.readRam (addr + 1)
  pure (hi.toNat * 256 + lo.toNat : ℤ)

/-- `SET_LE16A`, which stores the low 16 bits of `data`. -/
def setLe16 (m : Dsp) (addr : ℤ) (data : ℤ) : Checked Dsp := do
  let m ← m.writeRam addr (UInt8.ofInt data)
  m.writeRam (addr + 1) (UInt8.ofInt (data / 256))

end Dsp

end SnesApu.Apu
