import SnesApu.Codec

/-!
# An ideal random-access player

A player that has all samples of a track at hand and only keeps a position. It
takes the calls of the codec and gives the answers a listener would expect.
-/

namespace SnesApu

open General

def player (stream : ℕ → Int16) (playLen : ℤ) : Machine ℕ Op Answer where
  step p op :=
    match op with
    | .readPCM size =>
      if playLen ≤ p then (p, .pcm ⟨.eof, none, []⟩)
      else (p + size.toNat / 2,
        .pcm ⟨.success, some size, samplesFrom stream p (size.toNat / 2)⟩)
    | .seek time => ((64 * time.toInt).toNat, .time time)

def Answer.delivered : Answer → ℤ
  | .pcm result => result.samples.length
  | .time _ => 0

def Answer.IsEof : Answer → Prop
  | .pcm result => result.ret = .eof
  | .time _ => False

namespace Player

variable {stream : ℕ → Int16} {playLen : ℤ} {p : ℕ}

theorem step_read_of_le {size : UInt64} (h : playLen ≤ p) :
    (player stream playLen).step p (.readPCM size) = (p, .pcm ⟨.eof, none, []⟩) :=
  if_pos h

theorem step_read_of_lt {size : UInt64} (h : p < playLen) :
    (player stream playLen).step p (.readPCM size) =
      (p + size.toNat / 2, .pcm ⟨.success, some size, samplesFrom stream p (size.toNat / 2)⟩) :=
  if_neg (not_le.mpr h)

end Player

end SnesApu
