import SnesApu.Storage

/-!
# The ID666 tag record and its field readers

`Id666` follows `struct id666_s`; its character arrays hold the string before
the terminating NUL, and all times are in ticks of 1/64000 s. The readers are
those of `id666.c`: decimal scanning, little-endian unpacking, the text test and
the removal of trailing white space.
-/

namespace SnesApu

structure Id666 where
  song : Bytes := []
  game : Bytes := []
  dumper : Bytes := []
  comment : Bytes := []
  artist : Bytes := []
  publisher : Bytes := []
  ost : Bytes := []
  ripYear : Int32 := 0
  ripMonth : Int32 := 0
  ripDay : Int32 := 0
  year : Int32 := 0
  playLen : Int32 := 0
  totalLen : Int32 := 0
  len : Int32 := 0
  fade : Int32 := 0
  intro : Int32 := 0
  loop : Int32 := 0
  end_ : Int32 := 0
  mute : UInt8 := 0
  loops : UInt8 := 0
  ostDisc : UInt8 := 0
  ostTrack : UInt8 := 0
  emulator : UInt8 := 0
  amp : UInt32 := 0
  binary : UInt8 := 0
  deriving DecidableEq

def headerStr : Bytes := ascii "SNES-SPC700 Sound File Data v0.30"

def isDigit (c : UInt8) : Bool := 48 ≤ c && c ≤ 57

def scanUint64 (num : UInt64) : Bytes → ℕ × UInt64
  | [] => (0, num)
  | c :: s =>
    if isDigit c then
      let r := scanUint64 (num * 10 + (c - 48).toUInt64) s
      (r.1 + 1, r.2)
    else (0, num)

def scanUint (str : Bytes) : ℕ × UInt32 :=
  let r := scanUint64 0 str
  (r.1, if r.2 > 0xFFFFFFFF then 0xFFFFFFFF else r.2.toUInt32)

def unpackUint32le (b : Bytes) : UInt32 :=
  ((byteAt b 3).toUInt32 <<< 24) ||| ((byteAt b 2).toUInt32 <<< 16) |||
    ((byteAt b 1).toUInt32 <<< 8) ||| (byteAt b 0).toUInt32

def unpackInt32le (b : Bytes) : Int32 := (unpackUint32le b).toInt32

def unpackUint16le (b : Bytes) : UInt16 :=
  ((byteAt b 1).toUInt16 <<< 8) ||| (byteAt b 0).toUInt16

def trimWhitespace (str : Bytes) : Bytes := str.rdropWhile (· < 0x21)

def isText (data : Bytes) : Bool := data.all fun b => !(0 < b && (b < 45 || 57 < b))

def isZero (data : Bytes) : Bool := data.all fun b => !(0 < b)

def id666LoadDate (id6 : Id666) (date : UInt32) : Id666 :=
  if 0 < date then
    { id6 with
      ripDay := (date % 100).toInt32
      ripMonth := (date / 100 % 100).toInt32
      ripYear := (date / 100 / 100).toInt32 }
  else id6

end SnesApu
