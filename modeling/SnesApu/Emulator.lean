import SnesApu.Storage

/-!
# The SPC emulator behind spc.h

`SNES_SPC::load_spc`, `play` and `skip` are modelled over the operations they
call, which stay abstract: `loadState` fills the machine from an accepted file,
`setOutput` is `set_output` with a null or non-null buffer, and `endFrame` runs
to a clock and yields the samples it wrote to the buffer. `SpcContract` states
what spc.h documents about the three library calls the codec makes, and
`PlayContract` the little of it that playing a song from its start rests on.
-/

namespace SnesApu

open General.Width

structure SpcCore (σ : Type) where
  spcNew : σ
  loadState : σ → Bytes → σ
  setOutput : σ → Bool → Int32 → σ
  endFrame : σ → Int32 → σ × List Int16

def signature : Bytes := ascii "SNES-SPC700 Sound File Data v0.30" ++ [0x1A, 0x1A]

def spcMinFileSize : ℕ := 0x10180

def clocksPerSample : Int32 := 32

/-- The error string `load_spc` returns, none when it loads the file. -/
def loadError (data : Bytes) : Option Bytes :=
  if data.length < signature.length ∨ slice data 0 27 ≠ signature.take 27 then
    some (ascii "Not an SPC file")
  else if data.length < spcMinFileSize then some (ascii "Corrupt SPC file")
  else none

def Accepted (data : Bytes) : Prop := loadError data = none

instance (data : Bytes) : Decidable (Accepted data) := inferInstanceAs (Decidable (_ = _))

theorem accepted_iff {data : Bytes} :
    Accepted data ↔ slice data 0 27 = signature.take 27 ∧ spcMinFileSize ≤ data.length := by
  have hs : signature.length = 35 := by decide
  simp only [Accepted, loadError, hs]
  by_cases hsig : data.length < 35 ∨ slice data 0 27 ≠ signature.take 27
  · rw [if_pos hsig]
    refine iff_of_false (by simp) fun h => ?_
    rcases hsig with hlen | hsig
    · have hmin := h.2
      unfold spcMinFileSize at hmin
      omega
    · exact hsig h.1
  · rw [if_neg hsig]
    obtain ⟨-, hsig⟩ := not_or.mp hsig
    by_cases hmin : data.length < spcMinFileSize
    · rw [if_pos hmin]
      exact iff_of_false (by simp) fun h => by omega
    · rw [if_neg hmin]
      exact iff_of_true rfl ⟨not_not.mp hsig, by omega⟩

def clockCount (count : Int32) : Int32 := count * (clocksPerSample / 2)

section Library

variable {σ : Type} (core : SpcCore σ)

def spcLoadSpc (s : σ) (data : Bytes) : σ :=
  match loadError data with
  | some _ => s
  | none => core.loadState s data

/-- `SNES_SPC::play`; `out` tells whether there is a buffer. -/
def play (s : σ) (count : Int32) (out : Bool) : σ × List Int16 :=
  if count ≠ 0 then core.endFrame (core.setOutput s out count) (clockCount count)
  else (s, [])

def spcPlay (s : σ) (count : Int32) : σ × List Int16 := play core s count true

/-- `SNES_SPC::skip` in the accurate build, where it only plays to no buffer. -/
def spcSkip (s : σ) (count : Int32) : σ := (play core s count false).1

end Library

def samplesFrom (stream : ℕ → Int16) (p n : ℕ) : List Int16 :=
  (List.range n).map fun i => stream (p + i)

@[simp] theorem length_samplesFrom (stream : ℕ → Int16) (p n : ℕ) :
    (samplesFrom stream p n).length = n := by
  simp [samplesFrom]

/-- An even, non-negative sample count, as spc.h asks for. -/
def StereoCount (n : Int32) : Prop := 0 ≤ n.toInt ∧ n.toInt % 2 = 0

/-- A count whose clocks `play` computes without overflow. -/
def FrameCount (n : Int32) : Prop := StereoCount n ∧ n.toInt < 134217728

instance : DecidablePred FrameCount := fun _ => inferInstanceAs (Decidable ((_ ∧ _) ∧ _))

theorem fits_clocks_iff {n : Int32} (h : 0 ≤ n.toInt) :
    Fits 32 (n.toInt * 16) ↔ n.toInt < 134217728 := by
  rw [fits_32]
  omega

theorem clockCount_toInt {n : Int32} (h : Fits 32 (n.toInt * 16)) :
    (clockCount n).toInt = n.toInt * 16 := by
  rw [clockCount, mul_32_of_fits]
  · rfl
  · exact h

structure SpcContract {σ : Type} (core : SpcCore σ) where
  stream : Bytes → ℕ → Int16
  loaded : σ → Option Bytes
  position : σ → ℕ
  loaded_load : ∀ s data, Accepted data → loaded (spcLoadSpc core s data) = some data
  position_load : ∀ s data, Accepted data → position (spcLoadSpc core s data) = 0
  samples_play : ∀ s data n, loaded s = some data → StereoCount n →
    (spcPlay core s n).2 = samplesFrom (stream data) (position s) n.toInt.toNat
  loaded_play : ∀ s data n, loaded s = some data → StereoCount n →
    loaded (spcPlay core s n).1 = some data
  position_play : ∀ s data n, loaded s = some data → StereoCount n →
    position (spcPlay core s n).1 = position s + n.toInt.toNat
  loaded_skip : ∀ s data n, loaded s = some data → StereoCount n →
    loaded (spcSkip core s n) = some data
  position_skip : ∀ s data n, loaded s = some data → StereoCount n →
    position (spcSkip core s n) = position s + n.toInt.toNat

/-- From where the file was loaded every call fills the buffer it is given. -/
structure PlayContract {σ : Type} (core : SpcCore σ) (data : Bytes) where
  Loaded : σ → Prop
  loaded_new : Loaded (spcLoadSpc core core.spcNew data)
  length_play : ∀ s n, Loaded s → FrameCount n → (spcPlay core s n).2.length = n.toInt.toNat
  loaded_play : ∀ s n, Loaded s → FrameCount n → Loaded (spcPlay core s n).1

def SpcContract.playContract {σ : Type} {core : SpcCore σ} (K : SpcContract core) {data : Bytes}
    (h : Accepted data) : PlayContract core data where
  Loaded s := K.loaded s = some data
  loaded_new := K.loaded_load _ data h
  length_play s n hs hn := by
    rw [K.samples_play s data n hs hn.1, length_samplesFrom]
  loaded_play s n hs hn := K.loaded_play s data n hs hn.1

/-- A machine that only keeps the loaded file, the position in its stream and
the size of the pending output. -/
structure TapeState where
  file : Option Bytes
  position : ℕ
  pending : ℕ
  deriving DecidableEq

def tapeCore (stream : Bytes → ℕ → Int16) : SpcCore TapeState where
  spcNew := ⟨none, 0, 0⟩
  loadState _ data := ⟨some data, 0, 0⟩
  setOutput s _ count := { s with pending := count.toInt.toNat }
  endFrame s _ :=
    ({ s with position := s.position + s.pending },
      samplesFrom (stream (s.file.getD [])) s.position s.pending)

theorem tapeCore_load (stream : Bytes → ℕ → Int16) (s : TapeState) {data : Bytes}
    (h : Accepted data) : spcLoadSpc (tapeCore stream) s data = ⟨some data, 0, 0⟩ := by
  simp only [spcLoadSpc, show loadError data = none from h, tapeCore]

theorem tapeCore_play (stream : Bytes → ℕ → Int16) (s : TapeState) (n : Int32) (out : Bool) :
    (play (tapeCore stream) s n out).1.file = s.file ∧
    (play (tapeCore stream) s n out).1.position = s.position + n.toInt.toNat ∧
    (play (tapeCore stream) s n out).2 =
      samplesFrom (stream (s.file.getD [])) s.position n.toInt.toNat := by
  by_cases h : n = 0
  · subst h
    simp [play, samplesFrom]
  · simp [play, h, tapeCore]

def tapeContract (stream : Bytes → ℕ → Int16) : SpcContract (tapeCore stream) where
  stream := stream
  loaded := TapeState.file
  position := TapeState.position
  loaded_load s data h := by rw [tapeCore_load stream s h]
  position_load s data h := by rw [tapeCore_load stream s h]
  samples_play s data n hs _ := by
    rw [spcPlay, (tapeCore_play stream s n true).2.2, hs, Option.getD_some]
  loaded_play s data n hs _ := (tapeCore_play stream s n true).1.trans hs
  position_play s data n _ _ := (tapeCore_play stream s n true).2.1
  loaded_skip s data n hs _ := (tapeCore_play stream s n false).1.trans hs
  position_skip s data n _ _ := (tapeCore_play stream s n false).2.1

end SnesApu
