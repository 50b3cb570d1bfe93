import SnesApu.Id666Parse
import SnesApu.TrackPath
import SnesApu.DirectoryScan

/-!
# Reading the tag of a file

`readTag` returns the tag with everything set so far, whichever way the call
ends. A field that no setter was called for is none.
-/

namespace SnesApu

structure InfoTag where
  artist : Option Bytes := none
  title : Option Bytes := none
  duration : Option ℤ := none
  disc : Option ℤ := none
  track : Option ℤ := none
  discTotal : Option ℤ := none
  comment : Option Bytes := none
  samplerate : Option ℤ := none
  channels : Option ℤ := none
  genre : Option Bytes := none
  albumArtist : Option Bytes := none
  album : Option Bytes := none
  releaseDate : Option Bytes := none
  deriving DecidableEq

def getGenre (env : Environment) (idChar : Int8) : Bytes :=
  if idChar = 118 then env.getLocalizedString 30100 else []

def setFileFields (tag : InfoTag) (spcTag : Id666) : InfoTag :=
  { tag with
    artist := some spcTag.artist
    title := some spcTag.song
    duration := some (spcTag.playLen / 32000 / 2).toInt
    disc := some spcTag.ostDisc.toNat
    track := some spcTag.ostTrack.toNat
    comment := some spcTag.comment
    samplerate := some 32000
    channels := some 2 }

def setAlbumFields (tag : InfoTag) (spcTag : Id666) : InfoTag :=
  { tag with
    albumArtist := some spcTag.publisher
    album := some spcTag.game
    releaseDate := some (if 0 < spcTag.year then ascii (toString spcTag.year.toInt) else []) }

def setGenreOf (env : Environment) (own : OwnNumber) (tag : InfoTag) : InfoTag :=
  match own.mark with
  | some mark => { tag with genre := some (getGenre env mark) }
  | none => tag

def setNumbers (numbers : Option Numbers) (tag : InfoTag) : InfoTag :=
  match numbers with
  | some n => { tag with track := some n.track, disc := some n.disc, discTotal := some n.discTotal }
  | none => tag

def numberFromName (env : Environment) (toLoad : Bytes) (tag : InfoTag) :
    InfoTag × Except Fault Unit :=
  match ownNumber (env.getFileName toLoad) with
  | .error f => (tag, .error f)
  | .ok own =>
    let tag := setGenreOf env own tag
    match inferNumbers own (env.getDirectory (env.getDirectoryName toLoad) (ascii ".spc")) with
    | .error f => (tag, .error f)
    | .ok numbers => (setNumbers numbers tag, .ok ())

def setFileTags (env : Environment) (toLoad : Bytes) (spcTag : Id666) (tag : InfoTag) :
    InfoTag × Except Fault Unit :=
  let tag := setFileFields tag spcTag
  if 0 < spcTag.ostTrack then ({ tag with track := some spcTag.ostTrack.toNat }, .ok ())
  else numberFromName env toLoad tag

def readTagFields (env : Environment) (filename toLoad : Bytes) (spcTag : Id666) (tag : InfoTag) :
    InfoTag × Except Fault Bool :=
  let r := if isRSNBaseRead filename then (tag, .ok ()) else setFileTags env toLoad spcTag tag
  match r.2 with
  | .error f => (r.1, .error f)
  | .ok () => (setAlbumFields r.1 spcTag, .ok true)

def readTag (env : Environment) (filename : Bytes) (tag : InfoTag) :
    InfoTag × Except Fault Bool :=
  match readTagTarget env filename with
  | .error f => (tag, .error f)
  | .ok toLoad =>
    match env.openFile toLoad with
    | none => (tag, .ok false)
    | some file =>
      -- `int len = file.GetLength()`
      match readBuffer env file file.getLength.toInt32.toInt64 with
      | .error f => (tag, .error f)
      | .ok data =>
        match id666Parse {} data with
        | .error f => (tag, .error f)
        | .ok none => (tag, .ok false)
        | .ok (some spcTag) => readTagFields env filename toLoad spcTag tag

structure TagRun (env : Environment) (filename : Bytes) where
  toLoad : Bytes
  file : VfsFile
  data : Bytes
  spcTag : Id666
  target : readTagTarget env filename = .ok toLoad
  opened : env.openFile toLoad = some file
  read : readBuffer env file file.getLength.toInt32.toInt64 = .ok data
  parsed : id666Parse {} data = .ok (some spcTag)

/-- A call that has to number the file from its name. -/
structure UntrackedRun (env : Environment) (filename : Bytes) extends TagRun env filename where
  notBase : isRSNBaseRead filename = false
  untracked : spcTag.ostTrack = 0

theorem TagRun.readTag_eq {env : Environment} {filename : Bytes} (run : TagRun env filename)
    (tag : InfoTag) :
    readTag env filename tag = readTagFields env filename run.toLoad run.spcTag tag := by
  simp only [readTag, run.target, run.opened, run.read, run.parsed]

namespace UntrackedRun

variable {env : Environment} {filename : Bytes} (run : UntrackedRun env filename)

def fileName : Bytes := env.getFileName run.toLoad

def listing : Option (List DirEntry) :=
  env.getDirectory (env.getDirectoryName run.toLoad) (ascii ".spc")

theorem readTag_eq (tag : InfoTag) :
    readTag env filename tag =
      match numberFromName env run.toLoad (setFileFields tag run.spcTag) with
      | (tag, .error f) => (tag, .error f)
      | (tag, .ok ()) => (setAlbumFields tag run.spcTag, .ok true) := by
  have hzero : ¬ (0 : UInt8) < run.spcTag.ostTrack := by simp [run.untracked]
  rw [run.toTagRun.readTag_eq]
  simp only [readTagFields, run.notBase, setFileTags, hzero, if_false, Bool.false_eq_true]
  rcases numberFromName env run.toLoad (setFileFields tag run.spcTag) with ⟨tag', f | ⟨⟩⟩ <;> rfl

theorem readTag_of_ownNumber_error {f : Fault} (h : ownNumber run.fileName = .error f)
    (tag : InfoTag) :
    readTag env filename tag = (setFileFields tag run.spcTag, .error f) := by
  simp only [run.readTag_eq, numberFromName, show ownNumber (env.getFileName run.toLoad) = _ from h]

theorem readTag_of_ownNumber {own : OwnNumber} (h : ownNumber run.fileName = .ok own)
    (tag : InfoTag) :
    readTag env filename tag =
      match inferNumbers own run.listing with
      | .error f => (setGenreOf env own (setFileFields tag run.spcTag), .error f)
      | .ok numbers =>
        (setAlbumFields (setNumbers numbers (setGenreOf env own (setFileFields tag run.spcTag)))
          run.spcTag, .ok true) := by
  simp only [run.readTag_eq, numberFromName, show ownNumber (env.getFileName run.toLoad) = _ from h,
    listing]
  cases inferNumbers own (env.getDirectory (env.getDirectoryName run.toLoad) (ascii ".spc")) <;> rfl

end UntrackedRun

section Fields

variable (env : Environment) (own : OwnNumber) (numbers : Option Numbers) (tag : InfoTag)
  (spcTag : Id666)

@[simp] theorem setGenreOf_track : (setGenreOf env own tag).track = tag.track := by
  cases h : own.mark <;> simp [setGenreOf, h]

@[simp] theorem setGenreOf_disc : (setGenreOf env own tag).disc = tag.disc := by
  cases h : own.mark <;> simp [setGenreOf, h]

@[simp] theorem setGenreOf_discTotal : (setGenreOf env own tag).discTotal = tag.discTotal := by
  cases h : own.mark <;> simp [setGenreOf, h]

@[simp] theorem setGenreOf_duration : (setGenreOf env own tag).duration = tag.duration := by
  cases h : own.mark <;> simp [setGenreOf, h]

@[simp] theorem setNumbers_duration : (setNumbers numbers tag).duration = tag.duration := by
  cases numbers <;> rfl

end Fields

namespace UntrackedRun

variable {env : Environment} {filename : Bytes} (run : UntrackedRun env filename)

theorem readTag_numbers {own : OwnNumber} (hown : ownNumber run.fileName = .ok own)
    {numbers : Option Numbers} (hinfer : inferNumbers own run.listing = .ok numbers)
    (tag : InfoTag) :
    (readTag env filename tag).2 = .ok true ∧
      (readTag env filename tag).1.track = some ((numbers.map Numbers.track).getD 0) ∧
      (readTag env filename tag).1.disc =
        some ((numbers.map Numbers.disc).getD run.spcTag.ostDisc.toNat) ∧
      (readTag env filename tag).1.discTotal =
        (numbers.map Numbers.discTotal).or tag.discTotal := by
  rw [run.readTag_of_ownNumber hown, hinfer]
  cases numbers with
  | none => simp [setAlbumFields, setNumbers, setFileFields, run.untracked]
  | some n => simp [setAlbumFields, setNumbers]

end UntrackedRun

end SnesApu
