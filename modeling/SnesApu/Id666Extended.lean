import SnesApu.Id666Tag

/-!
# Extended ID666 items

`id666_load_xid6` walks the items of an `xid6` chunk. Its scratch array has 261
characters and starts uninitialised, apart from the last one; the chunk length
is taken from the file, so the walk may leave the file or the scratch array.
Both, and a read of a scratch character nothing was stored in, are reported as
undefined behaviour.
-/

namespace SnesApu

abbrev Scratch := List (Option UInt8)

def scratch : Scratch := List.replicate 260 none ++ [some 0]

def copyIn (t : Scratch) (i : ℕ) (data : Bytes) (offset n : ℕ) : Except Fault Scratch :=
  if offset + n ≤ data.length ∧ i + n ≤ t.length then
    .ok (memCpy t i ((slice data offset n).map some))
  else .error .undefinedBehaviour

def storeAt (t : Scratch) (i : ℕ) (b : UInt8) : Except Fault Scratch :=
  if i < t.length then .ok (t.set i (some b)) else .error .undefinedBehaviour

def loadAt (t : Scratch) (i : ℕ) : Except Fault UInt8 :=
  match t[i]? with
  | some (some b) => .ok b
  | _ => .error .undefinedBehaviour

def loadWord (t : Scratch) (i : ℕ) : Except Fault Bytes := do
  let b0 ← loadAt t i
  let b1 ← loadAt t (i + 1)
  let b2 ← loadAt t (i + 2)
  let b3 ← loadAt t (i + 3)
  return [b0, b1, b2, b3]

def loadString : Scratch → Except Fault Bytes
  | some c :: t => if c = 0 then .ok [] else (loadString t).map (c :: ·)
  | _ => .error .undefinedBehaviour

def copyString (t : Scratch) : Except Fault Bytes := do
  let str ← loadString (t.drop 4)
  if str.length < 256 then return trimWhitespace str else .error .undefinedBehaviour

/-- Items whose two data bytes stand in the item header. -/
def storeImmediate (id6 : Id666) (kind lo hi : UInt8) : Id666 :=
  match kind.toNat with
  | 0x06 => { id6 with emulator := lo }
  | 0x11 => { id6 with ostDisc := lo }
  | 0x12 => { id6 with ostTrack := hi }
  | 0x14 => { id6 with year := (unpackUint16le [lo, hi]).toUInt32.toInt32 }
  | 0x34 => { id6 with mute := lo }
  | 0x35 => { id6 with loops := lo }
  | _ => id6

/-- Items whose data follow the item header and are in the scratch array. -/
def storeItem (id6 : Id666) (kind : UInt8) (t : Scratch) : Except Fault Id666 :=
  match kind.toNat with
  | 0x01 => do return { id6 with song := ← copyString t }
  | 0x02 => do return { id6 with game := ← copyString t }
  | 0x03 => do return { id6 with artist := ← copyString t }
  | 0x04 => do return { id6 with dumper := ← copyString t }
  | 0x05 => do return id666LoadDate id6 (unpackUint32le (← loadWord t 4))
  | 0x07 => do return { id6 with comment := ← copyString t }
  | 0x10 => do return { id6 with ost := ← copyString t }
  | 0x13 => do return { id6 with publisher := ← copyString t }
  | 0x30 => do return { id6 with intro := (unpackUint32le (← loadWord t 4)).toInt32 }
  | 0x31 => do return { id6 with loop := (unpackUint32le (← loadWord t 4)).toInt32 }
  | 0x32 => do return { id6 with end_ := unpackInt32le (← loadWord t 4) }
  | 0x33 => do return { id6 with fade := (unpackUint32le (← loadWord t 4)).toInt32 }
  | 0x36 => do return { id6 with amp := unpackUint32le (← loadWord t 4) }
  | _ => return id6

/-- `len` wraps as `size_t` does, so a chunk that is not a whole number of items
is walked until a read leaves the file. -/
def id666LoadXid6 (data : Bytes) (id6 : Id666) (t : Scratch) (offset : ℕ) (len : UInt64) :
    Except Fault Id666 :=
  if len = 0 then .ok id6
  else if _ : offset + 4 ≤ data.length then do
    let t ← copyIn (← storeAt t 4 0) 0 data offset 4
    let head := slice data offset 4
    let size := (unpackUint16le (head.drop 2)).toUInt32
    let len := len - 4
    if byteAt head 1 = 0 then
      id666LoadXid6 data (storeImmediate id6 (byteAt head 0) (byteAt head 2) (byteAt head 3)) t
        (offset + 4) len
    else if len ≠ 0 ∧ size.toUInt64 ≤ len then
      let t ← copyIn t 4 data (offset + 4) size.toNat
      let t ← storeAt t (4 + size.toNat) 0
      let id6 ← storeItem id6 (byteAt head 0) t
      let padded := (size + 3) &&& ~~~3
      id666LoadXid6 data id6 t (offset + 4 + padded.toNat) (len - padded.toUInt64)
    else .ok id6
  else .error .undefinedBehaviour
  termination_by data.length - offset

end SnesApu
