import SnesApu.Environment

/-!
# Virtual track names and archive listings

A track of an archive is opened through a virtual name, from which Kodi splits
the archive path and a number. The codec lists the archive and takes the entry
at that number less one; `items[track]` is the unchecked `operator[]` of the
source.
-/

namespace SnesApu

def hexDigit (n : UInt8) : UInt8 := if n < 10 then 48 + n else 55 + n

def isUnreserved (env : Environment) (kar : UInt8) : Bool :=
  env.isalnum kar || kar = 45 || kar = 46 || kar = 95 || kar = 33 || kar = 40 || kar = 41

def urlEncode (env : Environment) (strURLData : Bytes) : Bytes :=
  strURLData.flatMap fun kar =>
    if isUnreserved env kar then [kar] else [37, hexDigit (kar / 16), hexDigit (kar % 16)]

def getTrackNumber (env : Environment) (toLoad : Bytes) : Bytes × Int32 :=
  let r := env.getTrack (ascii "spc") toLoad
  (r.1, if 0 < r.2 then r.2 - 1 else r.2)

def entryPath : Option DirEntry → Except Fault Bytes
  | some entry => .ok entry.path
  | none => .error .undefinedBehaviour

def pickEntry (items : List DirEntry) (track : Int32) : Except Fault Bytes :=
  entryPath items[track.toInt64.toUInt64.toNat]?

def rarUrl (env : Environment) (archive : Bytes) : Bytes := ascii "rar://" ++ urlEncode env archive

def isVirtualTrack (env : Environment) (filename : Bytes) : Bool :=
  endsWith filename (ascii ".spc" ++ env.trackExt)

def isRSNBaseRead (filename : Bytes) : Bool := endsWith filename (ascii ".rsn")

def initTarget (env : Environment) (filename : Bytes) : Except Fault (Option Bytes) :=
  let r := getTrackNumber env filename
  if isVirtualTrack env filename then
    match env.getDirectory (rarUrl env r.1 ++ ascii "/") (ascii ".spc") with
    | some items => (pickEntry items r.2).map some
    | none => .ok none
  else .ok (some r.1)

/-- The path `ReadTag` opens; a failed listing leaves the archive's own path. -/
def readTagTarget (env : Environment) (filename : Bytes) : Except Fault Bytes :=
  let r := getTrackNumber env filename
  if isVirtualTrack env filename || isRSNBaseRead filename then
    match env.getDirectory (rarUrl env r.1 ++ ascii "/") (ascii ".spc") with
    | some items => pickEntry items r.2
    | none => .ok r.1
  else .ok r.1

def trackCount (env : Environment) (filename : Bytes) : Int32 :=
  if isRSNBaseRead filename then
    match env.getDirectory (rarUrl env filename) (ascii ".spc") with
    | some items => Int32.ofNat items.length
    | none => 1
  else 1

theorem index_of_nonneg {track : Int32} (h : 0 ≤ track.toInt) :
    track.toInt64.toUInt64.toNat = track.toInt.toNat := by
  have h64 : track.toInt64.toInt = track.toInt := Int32.toInt_toInt64 track
  rw [← h64] at h ⊢
  exact (Int64.toNat_toUInt64_of_le (Int64.le_iff_toInt_le.mpr (by simpa using h)))

theorem pickEntry_of_nonneg (items : List DirEntry) {track : Int32} (h : 0 ≤ track.toInt) :
    pickEntry items track = entryPath items[track.toInt.toNat]? := by
  rw [pickEntry, index_of_nonneg h]

end SnesApu
