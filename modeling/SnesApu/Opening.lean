import SnesApu.Codec
import SnesApu.ReadTag

/-!
# The two readers of a file

`Init` reads all of a file to play it; `ReadTag` reads the prefix of its length
narrowed to `int`. The lemmas below say what either leaves behind.
-/

namespace SnesApu

open General.Width

/-- The tag an opened codec keeps; 240 is what `Init` stores for a refused one. -/
def tagOf (tag : Id666) : Option Id666 → Id666
  | some parsed => parsed
  | none => { tag with playLen := 4 * 60 }

/-- What `ReadTag` reads of a file of the content `data`. -/
def tagContent (data : Bytes) : Option Bytes :=
  let len := Int32.ofInt data.length
  if len.toInt < 0 then none else some (data.take len.toInt.toNat)

theorem tagContent_of_lt {data : Bytes} (h : data.length < 2147483648) :
    tagContent data = some data := by
  have hlen : (Int32.ofInt data.length).toInt = data.length :=
    Int32.toInt_ofInt_of_le (by omega) (by omega)
  have hnn : ¬ (data.length : ℤ) < 0 := by omega
  unfold tagContent
  simp only [hlen, if_neg hnn, Int.toNat_natCast, List.take_length]

theorem toNat_narrowed_le (n : ℕ) : (Int32.ofInt n).toInt.toNat ≤ n := by
  have hn : (0 : ℤ) ≤ n := Int.natCast_nonneg n
  rw [Int32.toInt_ofInt, Int.bmod_def, Int32.size]
  split_ifs <;> omega

theorem readBuffer_narrowed {env : Environment} {file : VfsFile} {data : Bytes}
    (h : file.Delivers data) :
    readBuffer env file file.getLength.toInt32.toInt64 =
      match tagContent data with
      | some content => .ok content
      | none => .error .badArrayNewLength := by
  have hlen : file.getLength.toInt32.toInt64.toInt = (Int32.ofInt data.length).toInt := by
    rw [Int32.toInt_toInt64, ← Int32.ofInt_int64ToInt, h.length]
  unfold tagContent
  by_cases hneg : (Int32.ofInt data.length).toInt < 0
  · rw [readBuffer_of_neg env file (by rw [hlen]; exact hneg)]
    simp only [if_pos hneg]
  · have hfull : (data.take (Int32.ofInt data.length).toInt.toNat).length =
        (Int32.ofInt data.length).toInt.toNat := by
      rw [List.length_take, min_eq_left (toNat_narrowed_le data.length)]
    rw [readBuffer_of_full (by rw [hlen]; exact not_lt.mp hneg)
      (by rw [hlen, h.read]; exact hfull), hlen, h.read]
    simp only [if_neg hneg]

section Init

variable {σ : Type} {core : SpcCore σ} {env : Environment} {tag : Id666} {toLoad data : Bytes}
  {filename : Bytes} {file : VfsFile} {parsed : Option Id666} {r : InitResult σ}

variable (core toLoad) in
theorem initFile_of_parsed (hread : readBuffer env file file.getLength = .ok data)
    (hparse : id666Parse tag data = .ok parsed) :
    ∃ r, initFile core env tag toLoad file = .ok r ∧
      r.ctx = ⟨tagOf tag parsed, spcLoadSpc core core.spcNew data, 0, file.getLength, data⟩ ∧
      r.info.totaltime = totaltimeOf (tagOf tag parsed).playLen := by
  unfold initFile
  rw [hread]
  change ∃ r, (id666Parse tag data >>= _) = _ ∧ _
  rw [hparse]
  cases parsed <;> exact ⟨_, rfl, rfl, rfl⟩

theorem initFile_cases (h : initFile core env tag toLoad file = .ok r) :
    ∃ data parsed, readBuffer env file file.getLength = .ok data ∧
      id666Parse tag data = .ok parsed ∧
      r.ctx = ⟨tagOf tag parsed, spcLoadSpc core core.spcNew data, 0, file.getLength, data⟩ := by
  cases hread : readBuffer env file file.getLength with
  | error f =>
    rw [initFile, hread] at h
    exact absurd h (by simp [bind, Except.bind])
  | ok data =>
    cases hparse : id666Parse tag data with
    | error f =>
      rw [initFile, hread] at h
      change (id666Parse tag data >>= _) = _ at h
      rw [hparse] at h
      exact absurd h (by simp [bind, Except.bind])
    | ok parsed =>
      obtain ⟨r', hr', hctx, -⟩ := initFile_of_parsed core toLoad hread hparse
      rw [h] at hr'
      exact ⟨data, parsed, rfl, hparse, by rw [Except.ok.inj hr', hctx]⟩

theorem init_of_target (htarget : initTarget env filename = .ok (some toLoad))
    (hopen : env.openFile toLoad = some file) :
    init core env tag filename = (initFile core env tag toLoad file).map some := by
  simp only [init, htarget, bind, Except.bind, hopen]
  cases initFile core env tag toLoad file <;> rfl

theorem init_cases (h : init core env tag filename = .ok (some r)) :
    ∃ toLoad file, initTarget env filename = .ok (some toLoad) ∧
      env.openFile toLoad = some file ∧ initFile core env tag toLoad file = .ok r := by
  unfold init at h
  rcases htarget : initTarget env filename with f | _ | toLoad
  · simp [htarget, bind, Except.bind] at h
  · simp [htarget, bind, Except.bind, pure, Except.pure] at h
  · cases hopen : env.openFile toLoad with
    | none => simp [htarget, hopen, bind, Except.bind, pure, Except.pure] at h
    | some file =>
      refine ⟨toLoad, file, rfl, hopen, ?_⟩
      cases hfile : initFile core env tag toLoad file with
      | error f => simp [htarget, hopen, hfile, bind, Except.bind] at h
      | ok r' => simpa [htarget, hopen, hfile, bind, Except.bind, pure, Except.pure] using h

theorem init_fresh (h : init core env tag filename = .ok (some r)) :
    r.ctx.pos = 0 ∧ r.ctx.song = spcLoadSpc core core.spcNew r.ctx.data := by
  obtain ⟨toLoad, file, -, -, hfile⟩ := init_cases h
  obtain ⟨data, parsed, -, -, hctx⟩ := initFile_cases hfile
  rw [hctx]
  exact ⟨rfl, rfl⟩

theorem init_parsed (h : init core env tag filename = .ok (some r)) :
    ∃ parsed, id666Parse tag r.ctx.data = .ok parsed ∧ r.ctx.tag = tagOf tag parsed := by
  obtain ⟨toLoad, file, -, -, hfile⟩ := init_cases h
  obtain ⟨data, parsed, -, hparse, hctx⟩ := initFile_cases hfile
  rw [hctx]
  exact ⟨parsed, hparse, rfl⟩

end Init

/-- A name that both readers take to one file, which delivers `data`. -/
structure OpenedFile (env : Environment) (filename data : Bytes) where
  toLoad : Bytes
  file : VfsFile
  initTarget_eq : initTarget env filename = .ok (some toLoad)
  readTagTarget_eq : readTagTarget env filename = .ok toLoad
  opened : env.openFile toLoad = some file
  delivers : file.Delivers data

namespace OpenedFile

variable {σ : Type} {env : Environment} {filename data : Bytes} (src : OpenedFile env filename data)

include src in
theorem init_eq (core : SpcCore σ) {tag : Id666} {parsed : Option Id666}
    (h : id666Parse tag data = .ok parsed) :
    ∃ r, init core env tag filename = .ok (some r) ∧
      r.ctx = ⟨tagOf tag parsed, spcLoadSpc core core.spcNew data, 0, src.file.getLength, data⟩ ∧
      r.info.totaltime = totaltimeOf (tagOf tag parsed).playLen := by
  have hread : readBuffer env src.file src.file.getLength = .ok data := src.delivers.readBuffer
  obtain ⟨r, hr, hctx, htime⟩ := initFile_of_parsed core src.toLoad hread h
  refine ⟨r, ?_, hctx, htime⟩
  rw [init_of_target src.initTarget_eq src.opened, hr]
  rfl

theorem readTag_eq (tag : InfoTag) :
    readTag env filename tag =
      match tagContent data with
      | none => (tag, .error .badArrayNewLength)
      | some content =>
        match id666Parse {} content with
        | .error f => (tag, .error f)
        | .ok none => (tag, .ok false)
        | .ok (some spcTag) => readTagFields env filename src.toLoad spcTag tag := by
  simp only [readTag, src.readTagTarget_eq, src.opened, readBuffer_narrowed src.delivers]
  cases tagContent data <;> rfl

def ofBytes (items : List DirEntry) {filename data : Bytes} (hlen : data.length < 2 ^ 63)
    (hname : endsWith filename (ascii ".spc" ++ ascii "stream") = false)
    (hbase : isRSNBaseRead filename = false) :
    OpenedFile (Environment.ofFile (.ofBytes data) items) filename data where
  toLoad := filename
  file := .ofBytes data
  initTarget_eq := by
    have hvirtual : isVirtualTrack (Environment.ofFile (.ofBytes data) items) filename = false :=
      hname
    rw [initTarget, hvirtual]
    rfl
  readTagTarget_eq := by
    have hvirtual : isVirtualTrack (Environment.ofFile (.ofBytes data) items) filename = false :=
      hname
    rw [readTagTarget, hvirtual, hbase]
    rfl
  opened := rfl
  delivers := VfsFile.ofBytes_delivers hlen

end OpenedFile

def tagHeader (flag : UInt8) (len : Bytes) : Bytes :=
  headerStr ++ [26, 26, flag] ++ List.replicate 133 0 ++ len ++ List.replicate 84 0

theorem length_tagHeader (flag : UInt8) (len : Bytes) (h : len.length = 3) :
    (tagHeader flag len).length = 0x100 := by
  have hhead : headerStr.length = 33 := by decide
  simp only [tagHeader, List.length_append, List.length_replicate, hhead, h, List.length_cons,
    List.length_nil]

/-- A header and an all zero machine state, of the smallest size that loads. -/
def songFile (header : Bytes) : Bytes := header ++ List.replicate (spcMinFileSize - 0x100) 0

theorem length_songFile {header : Bytes} (h : header.length = 0x100) :
    (songFile header).length = spcMinFileSize := by
  rw [songFile, List.length_append, List.length_replicate, h]
  rfl

theorem songFile_accepted (flag : UInt8) {len : Bytes} (h : len.length = 3) :
    Accepted (songFile (tagHeader flag len)) := by
  have hsig : headerStr.take 27 = signature.take 27 := by decide
  have hhead : 27 ≤ headerStr.length := by decide
  refine accepted_iff.mpr ⟨?_, (length_songFile (length_tagHeader flag len h)).ge⟩
  rw [← hsig, songFile, tagHeader, slice, List.drop_zero]
  simp only [List.append_assoc, List.take_append_of_le_length hhead]

theorem id666Parse_songFile (id6 : Id666) {header : Bytes} (h : header.length = 0x100) :
    id666Parse id6 (songFile header) = id666Parse id6 header := by
  have hlen := length_songFile h
  unfold spcMinFileSize at hlen
  rw [id666Parse_of_short (by omega) (by omega), songFile, List.take_left' h]

def taggedEnv (items : List DirEntry) : Environment :=
  Environment.ofFile (.ofBytes (tagHeader 26 (ascii "033"))) items

def twoFiles (first second : String) : List DirEntry :=
  [⟨ascii first, [], false⟩, ⟨ascii second, [], false⟩]

theorem exists_untrackedRun (items : List DirEntry) (name : Bytes)
    (hname : endsWith name (ascii ".spc" ++ ascii "stream") = false)
    (hbase : isRSNBaseRead name = false) :
    ∃ run : UntrackedRun (taggedEnv items) name,
      run.fileName = name ∧ run.listing = some items ∧
        run.data = tagHeader 26 (ascii "033") := by
  have hlen : (tagHeader 26 (ascii "033")).length = 0x100 := length_tagHeader 26 _ (by decide)
  let src : OpenedFile (taggedEnv items) name (tagHeader 26 (ascii "033")) :=
    OpenedFile.ofBytes items (by rw [hlen]; norm_num) hname hbase
  have hread : readBuffer (taggedEnv items) src.file src.file.getLength.toInt32.toInt64 =
      .ok (tagHeader 26 (ascii "033")) := by
    rw [readBuffer_narrowed src.delivers, tagContent_of_lt (by rw [hlen]; norm_num)]
  have htrack : (id666Parse {} (tagHeader 26 (ascii "033"))).toOption.join.map Id666.ostTrack =
      some 0 := by decide +kernel
  rcases hparse : id666Parse {} (tagHeader 26 (ascii "033")) with f | _ | spcTag
  · simp [hparse, Except.toOption] at htrack
  · simp [hparse, Except.toOption] at htrack
  · have hzero : spcTag.ostTrack = 0 := by simpa [hparse, Except.toOption] using htrack
    let run : UntrackedRun (taggedEnv items) name := {
      toLoad := name
      file := src.file
      data := tagHeader 26 (ascii "033")
      spcTag := spcTag
      target := src.readTagTarget_eq
      opened := src.opened
      read := hread
      parsed := hparse
      notBase := hbase
      untracked := hzero }
    exact ⟨run, rfl, rfl, rfl⟩

def songEnv (header : Bytes) : Environment := Environment.ofFile (.ofBytes (songFile header)) []

def OpenedFile.song {header : Bytes} (h : header.length = 0x100) :
    OpenedFile (songEnv header) (ascii "song.spc") (songFile header) :=
  OpenedFile.ofBytes [] (by rw [length_songFile h, spcMinFileSize]; norm_num) (by decide) (by decide)

theorem exists_songInit {σ : Type} (core : SpcCore σ) (flag : UInt8) (len : Bytes)
    {n : Int32} (h : len.length = 3)
    (hlen : (id666Parse {} (tagHeader flag len)).toOption.join.map Id666.playLen = some n) :
    ∃ spcTag r, id666Parse {} (songFile (tagHeader flag len)) = .ok (some spcTag) ∧
      spcTag.playLen = n ∧
      init core (songEnv (tagHeader flag len)) {} (ascii "song.spc") = .ok (some r) ∧
      r.ctx.tag = spcTag ∧ r.ctx.data = songFile (tagHeader flag len) ∧
      Accepted r.ctx.data ∧ r.info.totaltime = totaltimeOf n := by
  have hheader := length_tagHeader flag len h
  have hparse : ∃ spcTag, id666Parse {} (tagHeader flag len) = .ok (some spcTag) ∧ spcTag.playLen = n := by
    rcases hresult : id666Parse {} (tagHeader flag len) with f | _ | spcTag
    · simp [hresult, Except.toOption] at hlen
    · simp [hresult, Except.toOption] at hlen
    · refine ⟨spcTag, rfl, ?_⟩
      simpa [hresult, Except.toOption] using hlen
  obtain ⟨spcTag, hparse, hplay⟩ := hparse
  rw [← id666Parse_songFile {} hheader] at hparse
  obtain ⟨r, hr, hctx, htime⟩ := (OpenedFile.song hheader).init_eq core hparse
  refine ⟨spcTag, r, hparse, hplay, hr, ?_, ?_, ?_, ?_⟩
  · rw [hctx]
    rfl
  · rw [hctx]
  · rw [hctx]
    exact songFile_accepted flag h
  · rw [htime, ← hplay]
    rfl

end SnesApu
