import SnesApu.Id666Extended

/-!
# Parsing an ID666 tag

`id666Parse` is `id666_parse` on a buffer of exactly `len` bytes, as both of its
callers pass one: `none` is its return value 1, before anything was written, and
`some` the updated record at its return value 0. The scratch array `t_tmp` is
threaded through as in the source, since later fields read what earlier ones
left in it.
-/

namespace SnesApu

def resetFields (id6 : Id666) : Id666 :=
  { id6 with
    song := [], game := [], dumper := [], comment := [], artist := [], ost := []
    ripYear := -1, ripMonth := -1, ripDay := -1, year := -1
    len := -1, intro := -1, loop := -1, end_ := 0, fade := -1
    mute := 0, loops := 0, ostDisc := 0, ostTrack := 0, emulator := 0, amp := 65536 }

def loadTitles (id6 : Id666) (data : Bytes) : Id666 × Bytes :=
  let t := slice data 0x2E 32 ++ [0]
  let song := trimWhitespace (cString t)
  let t := memCpy t 0 (slice data 0x4E 32)
  let game := trimWhitespace (cString t)
  let t := memCpy t 0 (slice data 0x7E 32)
  let comment := trimWhitespace (cString t)
  let t := memCpy (t.set 16 0) 0 (slice data 0x6E 16)
  let dumper := trimWhitespace (cString t)
  ({ id6 with song := song, game := game, comment := comment, dumper := dumper }, t)

def isBinary (data : Bytes) : Bool :=
  let tDate := isText (slice data 0x9E 11)
  let tLen := isText (slice data 0xA9 3)
  let tFade := isText (slice data 0xAC 5)
  if !tDate then true
  else
    let binary := !tLen && !tFade
    if tLen && tFade then
      if byteAt data 0xB0 = 0 || (47 < byteAt data 0xB0 && byteAt data 0xB0 < 58) then false
      else binary
    else if isZero (slice data 0xA2 7) then true
    else binary

/-- The length is unpacked from four scratch characters of which only three were
copied; the fourth is the last byte of the date. -/
def loadBinary (id6 : Id666) (data t : Bytes) : Id666 × Bytes :=
  let id6 := { id6 with emulator := byteAt data 0xD1 }
  let t := memCpy (t.set 5 0) 0 (slice data 0x9E 4)
  let id6 := id666LoadDate id6 (unpackUint32le t)
  let t := memCpy (t.set 4 0) 0 (slice data 0xA9 3)
  let id6 := { id6 with len := (unpackUint32le t * 64000).toInt32 }
  let t := memCpy (t.set 5 0) 0 (slice data 0xAC 4)
  let id6 := { id6 with fade := (unpackUint32le t * 64).toInt32 }
  (id6, memCpy t 0 (slice data 0xB0 32))

def loadTextDate (id6 : Id666) (t : Bytes) : Id666 :=
  let month := scanUint t
  if month.1 = 0 then id6
  else
    let id6 := { id6 with ripMonth := month.2.toInt32 }
    let offset := month.1 + 1
    let day := scanUint (t.drop offset)
    if day.1 = 0 then id6
    else
      let id6 := { id6 with ripDay := day.2.toInt32 }
      let offset := offset + day.1 + 1
      let year := scanUint (t.drop offset)
      if year.1 = 0 then id6 else { id6 with ripYear := year.2.toInt32 }

def loadText (id6 : Id666) (data t : Bytes) : Id666 × Bytes :=
  let id6 := { id6 with emulator := byteAt data 0xD2 }
  let t := memCpy (t.set 11 0) 0 (slice data 0x9E 11)
  let id6 := loadTextDate id6 t
  let t := memCpy (t.set 3 0) 0 (slice data 0xA9 3)
  let date := scanUint t
  let id6 := if date.1 = 0 then id6 else { id6 with len := date.2.toInt32 * 64000 }
  let t := memCpy (t.set 5 0) 0 (slice data 0xAC 5)
  let date := scanUint t
  let id6 := if date.1 = 0 then id6 else { id6 with fade := date.2.toInt32 * 64 }
  (id6, memCpy t 0 (slice data 0xB1 32))

def loadHeader (id6 : Id666) (data : Bytes) : Id666 :=
  let titles := loadTitles (resetFields id6) data
  let binary := isBinary data
  let body := if binary then loadBinary titles.1 data titles.2 else loadText titles.1 data titles.2
  { body.1 with
    artist := trimWhitespace (cString (body.2.set 32 0))
    binary := if binary then 1 else 0 }

def loadExtended (id6 : Id666) (data : Bytes) : Except Fault Id666 :=
  if 0x10200 < data.length then
    if 0x10208 ≤ data.length then
      let head := slice data 0x10200 8
      if head.take 4 = ascii "xid6" then
        id666LoadXid6 (data.drop 0x10208) id6 scratch 0 (unpackUint32le (head.drop 4)).toUInt64
      else .ok id6
    else .error .undefinedBehaviour
  else .ok id6

def computeLengths (id6 : Id666) : Id666 :=
  let total :=
    if id6.intro = -1 ∧ id6.loop = -1 ∧ id6.end_ = 0 then id6.len
    else
      let total := if id6.intro ≠ -1 then id6.intro else 0
      let total := if id6.loop ≠ -1 then total + id6.loop * id6.loops.toUInt32.toInt32 else total
      total + id6.end_
  { id6 with playLen := total, totalLen := total + id6.fade }

def id666Parse (id6 : Id666) (data : Bytes) : Except Fault (Option Id666) :=
  if data.length < 0x100 then .ok none
  else if slice data 0 headerStr.length ≠ headerStr then .ok none
  else if byteAt data 0x23 = 27 then .ok none
  else (loadExtended (loadHeader id6 data) data).map fun id6 => some (computeLengths id6)

/-- The checks on which `id666Parse` returns 1. -/
def Refused (data : Bytes) : Prop :=
  data.length < 0x100 ∨ slice data 0 headerStr.length ≠ headerStr ∨ byteAt data 0x23 = 27

instance (data : Bytes) : Decidable (Refused data) := inferInstanceAs (Decidable (_ ∨ _))

theorem id666Parse_eq (id6 : Id666) (data : Bytes) :
    id666Parse id6 data =
      if Refused data then .ok none
      else (loadExtended (loadHeader id6 data) data).map fun id6 => some (computeLengths id6) := by
  unfold id666Parse
  by_cases hlen : data.length < 0x100
  · rw [if_pos hlen, if_pos (.inl hlen)]
  · by_cases hhead : slice data 0 headerStr.length ≠ headerStr
    · rw [if_neg hlen, if_pos hhead, if_pos (.inr (.inl hhead))]
    · by_cases hflag : byteAt data 0x23 = 27
      · rw [if_neg hlen, if_neg hhead, if_pos hflag, if_pos (.inr (.inr hflag))]
      · have hok : ¬ Refused data := fun h => h.elim hlen fun h => h.elim hhead hflag
        rw [if_neg hlen, if_neg hhead, if_neg hflag, if_neg hok]

theorem id666Parse_eq_none_iff {id6 : Id666} {data : Bytes} :
    id666Parse id6 data = .ok none ↔ Refused data := by
  rw [id666Parse_eq]
  by_cases h : Refused data
  · simp [h]
  · rw [if_neg h]
    cases loadExtended (loadHeader id6 data) data <;> simp [h, Except.map]

theorem Refused.parse {data : Bytes} (h : Refused data) (id6 : Id666) :
    id666Parse id6 data = .ok none :=
  id666Parse_eq_none_iff.mpr h

theorem loadTitles_take (id6 : Id666) (data : Bytes) :
    loadTitles id6 (data.take 0x100) = loadTitles id6 data := by
  simp [loadTitles, slice_take]

theorem isBinary_take (data : Bytes) : isBinary (data.take 0x100) = isBinary data := by
  simp [isBinary, slice_take, byteAt_take]

theorem loadBinary_take (id6 : Id666) (data t : Bytes) :
    loadBinary id6 (data.take 0x100) t = loadBinary id6 data t := by
  simp [loadBinary, slice_take, byteAt_take]

theorem loadText_take (id6 : Id666) (data t : Bytes) :
    loadText id6 (data.take 0x100) t = loadText id6 data t := by
  simp [loadText, slice_take, byteAt_take]

theorem loadHeader_take (id6 : Id666) (data : Bytes) :
    loadHeader id6 (data.take 0x100) = loadHeader id6 data := by
  simp only [loadHeader, loadTitles_take, isBinary_take, loadBinary_take, loadText_take]

/-- A file that ends before the extended chunk is parsed from its first 256
bytes. -/
theorem id666Parse_of_short {id6 : Id666} {data : Bytes} (hl : 0x100 ≤ data.length)
    (hu : data.length ≤ 0x10200) :
    id666Parse id6 data = id666Parse id6 (data.take 0x100) := by
  have hlen : (data.take 0x100).length = 0x100 := by
    rw [List.length_take]
    omega
  have hhead : headerStr.length = 33 := by decide
  have hrefused : Refused (data.take 0x100) ↔ Refused data := by
    unfold Refused
    rw [hlen, hhead, slice_take (by omega), byteAt_take (by omega)]
    exact or_congr (iff_of_false (by omega) (by omega)) Iff.rfl
  have hshort : ∀ d : Bytes, d.length ≤ 0x10200 → ∀ t, loadExtended t d = .ok t := by
    intro d hd t
    rw [loadExtended, if_neg (by omega)]
  rw [id666Parse_eq, id666Parse_eq, hshort data hu, hshort (data.take 0x100) (by omega),
    loadHeader_take]
  simp only [hrefused]

end SnesApu
