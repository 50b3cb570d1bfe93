import SnesApu.Id666Parse
import SnesApu.Emulator
import SnesApu.TrackPath
import SnesApu.General.Machine

/-!
# Opening, reading and seeking

`SPCContext` is the state of an opened codec. `init` takes the tag an earlier
`Init` left in the object (all zero in a new one), since a parse does not write
every field; the other members are overwritten before they are read. Sample
positions count 16-bit samples, two for each stereo frame, which is also the
tick of the tag's times.
-/

namespace SnesApu

open General

structure SPCContext (σ : Type) where
  tag : Id666
  song : σ
  pos : Int64
  len : Int64
  data : Bytes

inductive DataFormat
  | s16ne
  deriving DecidableEq

inductive Channel
  | fl
  | fr
  deriving DecidableEq

/-- The out-parameters of `Init`, and the warning it logs. -/
structure StreamInfo where
  channels : Int32
  samplerate : Int32
  bitspersample : Int32
  totaltime : Int64
  bitrate : Int32
  format : DataFormat
  channellist : List Channel
  warning : Option Bytes

structure InitResult (σ : Type) where
  ctx : SPCContext σ
  info : StreamInfo

def spcChannels : Int32 := 2
def spcSamplerate : Int32 := 32000
def spcBitspersample : Int32 := 16

def noTagWarning (toLoad : Bytes) : Bytes :=
  ascii "Failed to parse tag information to get play length on '" ++ toLoad ++
    ascii "', using 4 minutes"

inductive ReadReturn
  | success
  | eof
  | error
  deriving DecidableEq

/-- What one `ReadPCM` returns; `actualsize` is none where it is not assigned. -/
structure PcmResult where
  ret : ReadReturn
  actualsize : Option UInt64
  samples : List Int16
  deriving DecidableEq

section Operations

variable {σ : Type} (core : SpcCore σ)

/-- `totaltime`, computed in `int` before it is stored in an `int64_t`. -/
def totaltimeOf (playLen : Int32) : Int64 :=
  (playLen * 1000 / spcSamplerate / spcChannels).toInt64

def initFile (env : Environment) (tag : Id666) (toLoad : Bytes) (file : VfsFile) :
    Except Fault (InitResult σ) := do
  let data ← readBuffer env file file.getLength
  let song := spcLoadSpc core core.spcNew data
  let parsed ← id666Parse tag data
  let (tag, warning) :=
    match parsed with
    | some tag => (tag, none)
    | none => ({ tag with playLen := 4 * 60 }, some (noTagWarning toLoad))
  return {
    ctx := { tag := tag, song := song, pos := 0, len := file.getLength, data := data }
    info := {
      channels := spcChannels
      samplerate := spcSamplerate
      bitspersample := spcBitspersample
      totaltime := totaltimeOf tag.playLen
      bitrate := 0
      format := .s16ne
      channellist := [.fl, .fr]
      warning := warning } }

def init (env : Environment) (tag : Id666) (filename : Bytes) :
    Except Fault (Option (InitResult σ)) := do
  match ← initTarget env filename with
  | none => return none
  | some toLoad =>
    match env.openFile toLoad with
    | none => return none
    | some file => return some (← initFile core env tag toLoad file)

def AtEnd (ctx : SPCContext σ) : Prop := ctx.tag.playLen.toInt64 ≤ ctx.pos

instance (ctx : SPCContext σ) : Decidable (AtEnd ctx) := inferInstanceAs (Decidable (_ ≤ _))

def playCount (size : UInt64) : Int32 := (size / 2).toUInt32.toInt32

def readPCM (ctx : SPCContext σ) (size : UInt64) : SPCContext σ × PcmResult :=
  if AtEnd ctx then (ctx, ⟨.eof, none, []⟩)
  else
    let played := spcPlay core ctx.song (playCount size)
    let actualsize := size
    ({ ctx with song := played.1, pos := (ctx.pos.toUInt64 + actualsize / 2).toInt64 },
      ⟨if actualsize ≠ 0 then .success else .error, some actualsize, played.2⟩)

def seekTarget (time : Int64) : Int64 :=
  time * spcSamplerate.toInt64 * spcChannels.toInt64 / 1000

/-- The position the skip starts from: zero after a reload. -/
def seekBase (ctx : SPCContext σ) (time : Int64) : Int64 :=
  if seekTarget time < ctx.pos then 0 else ctx.pos

def skipCount (ctx : SPCContext σ) (time : Int64) : Int32 :=
  (seekTarget time - seekBase ctx time).toInt32

def seek (ctx : SPCContext σ) (time : Int64) : SPCContext σ × Int64 :=
  let song := if seekTarget time < ctx.pos then spcLoadSpc core ctx.song ctx.data else ctx.song
  ({ ctx with song := spcSkip core song (skipCount ctx time), pos := seekTarget time }, time)

end Operations

inductive Op
  | readPCM (size : UInt64)
  | seek (time : Int64)
  deriving DecidableEq

inductive Answer
  | pcm (result : PcmResult)
  | time (time : Int64)
  deriving DecidableEq

def codec {σ : Type} (core : SpcCore σ) : Machine (SPCContext σ) Op Answer where
  step ctx op :=
    match op with
    | .readPCM size => let r := readPCM core ctx size; (r.1, .pcm r.2)
    | .seek time => let r := seek core ctx time; (r.1, .time r.2)

/-- The counts that an operation hands to the library. -/
def handedCounts {σ : Type} (ctx : SPCContext σ) : Op → List Int32
  | .readPCM size => if AtEnd ctx then [] else [playCount size]
  | .seek time => [skipCount ctx time]

section Calls

variable {σ : Type} (core : SpcCore σ) (ctx : SPCContext σ)

/-- The call it makes with such a count, -/
def libraryCall : Op → σ → Int32 → σ
  | .readPCM _ => fun s n => (spcPlay core s n).1
  | .seek _ => spcSkip core

/-- and the state it makes it in. -/
def callState : Op → σ
  | .readPCM _ => ctx.song
  | .seek time =>
    if seekTarget time < ctx.pos then spcLoadSpc core ctx.song ctx.data else ctx.song

theorem codec_song (op : Op) : ((codec core).step ctx op).1.song =
    (handedCounts ctx op).foldl (libraryCall core op) (callState core ctx op) := by
  cases op with
  | readPCM size =>
    simp only [codec, readPCM, handedCounts]
    split_ifs <;> rfl
  | seek time => rfl

end Calls

end SnesApu
