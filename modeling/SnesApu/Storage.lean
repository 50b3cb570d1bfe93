import SnesApu.General.Width

/-!
# Byte storage

Files, C arrays and strings are lists of bytes. Code that leaves normal control
flow reports how: a C++ exception, or behaviour the language does not define (an
access outside an array, a read of memory nothing was stored in).
-/

namespace SnesApu

inductive Fault
  | outOfRange
  | lengthError
  | badArrayNewLength
  | undefinedBehaviour
  deriving DecidableEq, Repr

abbrev Bytes := List UInt8

def ascii (s : String) : Bytes := s.toList.map fun c => UInt8.ofNat c.toNat

def byteAt (data : Bytes) (i : ℕ) : UInt8 := data.getD i 0

def slice (data : Bytes) (offset n : ℕ) : Bytes := (data.drop offset).take n

/-- `mem_cpy` of all of `src` to the elements of `dst` from index `i`. -/
def memCpy {α : Type*} (dst : List α) (i : ℕ) (src : List α) : List α :=
  dst.take i ++ src ++ dst.drop (i + src.length)

def cString (t : Bytes) : Bytes := t.takeWhile (· ≠ 0)

theorem byteAt_take {data : Bytes} {i n : ℕ} (h : i < n) : byteAt (data.take n) i = byteAt data i := by
  simp only [byteAt, List.getD_eq_getElem?_getD, List.getElem?_take, if_pos h]

theorem slice_take {data : Bytes} {offset len n : ℕ} (h : offset + len ≤ n) :
    slice (data.take n) offset len = slice data offset len := by
  unfold slice
  rw [List.drop_take, List.take_take, min_eq_left (by omega)]

end SnesApu
