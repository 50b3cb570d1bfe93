import SnesApu.SeekRange
import SnesApu.IdealPlayer

/-!
# The codec refines the ideal player

`Tracks` ties the emulator's hidden position to `ctx.pos`: reads and forward
seeks advance both, a backward seek reloads the file and replays from zero.
-/

namespace SnesApu

open General General.Width

/-- Reads of whole stereo frames whose count is an `int`, and seeks whose clock
count is one. -/
def Admissible : Op → Prop
  | .readPCM size => 0 < size.toNat ∧ size.toNat % 4 = 0 ∧ size.toNat < 4294967296
  | .seek time => 0 ≤ time.toInt ∧ 64 * time.toInt < 134217728

instance : DecidablePred Admissible := fun op => by
  cases op <;> unfold Admissible <;> infer_instance

section Refinement

variable {σ : Type} {core : SpcCore σ} (K : SpcContract core)

structure Tracks (data : Bytes) (playLen : Int32) (ctx : SPCContext σ) (p : ℕ) : Prop where
  accepted : Accepted data
  length : ctx.tag.playLen = playLen
  content : ctx.data = data
  loaded : K.loaded ctx.song = some data
  position : K.position ctx.song = p
  pos : ctx.pos.toInt = p
  even : p % 2 = 0
  bound : p < 4294967296

variable {K} {data : Bytes} {playLen : Int32} {ctx : SPCContext σ} {p : ℕ}

theorem stereo_playCount {size : UInt64} (h : Admissible (.readPCM size)) :
    (playCount size).toInt.toNat = size.toNat / 2 ∧ StereoCount (playCount size) := by
  obtain ⟨-, hframe, hsize⟩ := h
  have hcount := playCount_toInt hsize
  refine ⟨by omega, ?_, ?_⟩ <;> omega

namespace Tracks

theorem atEnd_iff (h : Tracks K data playLen ctx p) : AtEnd ctx ↔ playLen.toInt ≤ p := by
  rw [SnesApu.atEnd_iff, h.length, h.pos]

theorem readPCM (h : Tracks K data playLen ctx p) (hread : ¬ AtEnd ctx) {size : UInt64}
    (hsize : Admissible (.readPCM size)) :
    Tracks K data playLen (readPCM core ctx size).1 (p + size.toNat / 2) := by
  obtain ⟨hcount, hstereo⟩ := stereo_playCount hsize
  obtain ⟨hpos, hframe, hlt⟩ := hsize
  have hlen := playLen.toInt_lt
  have hbefore := mt h.atEnd_iff.mpr hread
  have hfit : ctx.pos.toInt + size.toNat / 2 < 9223372036854775808 := by
    have hp := h.pos
    omega
  have hsong : (SnesApu.readPCM core ctx size).1.song =
      (spcPlay core ctx.song (playCount size)).1 := by
    have hcalls := codec_song core ctx (.readPCM size)
    rwa [SnesApu.handedCounts, if_neg hread] at hcalls
  exact {
    accepted := h.accepted
    length := by rw [readPCM_tag, h.length]
    content := by rw [readPCM_data, h.content]
    loaded := by rw [hsong, K.loaded_play _ data _ h.loaded hstereo]
    position := by rw [hsong, K.position_play _ data _ h.loaded hstereo, h.position, hcount]
    pos := by
      rw [readPCM_pos_toInt core hread hfit, h.pos]
      push_cast
      rfl
    even := by
      have heven := h.even
      omega
    bound := by omega }

theorem seekTarget {time : Int64} (h : Admissible (.seek time)) :
    (seekTarget time).toInt = 64 * time.toInt := by
  obtain ⟨hnn, hlt⟩ := h
  rw [seekTarget_toInt (fits_64.mpr (by omega))]
  ring

theorem skipCount (h : Tracks K data playLen ctx p) {time : Int64}
    (htime : Admissible (.seek time)) :
    (skipCount ctx time).toInt =
      if 64 * time.toInt < p then 64 * time.toInt else 64 * time.toInt - p := by
  have hdist : skipDistance ctx time =
      if 64 * time.toInt < p then 64 * time.toInt else 64 * time.toInt - p := by
    rw [skipDistance, h.pos]
    split_ifs <;> ring
  obtain ⟨hnn, hlt⟩ := htime
  rw [(seekExact_of_lt hnn (by omega) _).passed, hdist]
  rw [hdist]
  split_ifs <;> omega

theorem stereo_skipCount (h : Tracks K data playLen ctx p) {time : Int64}
    (htime : Admissible (.seek time)) : StereoCount (SnesApu.skipCount ctx time) := by
  have hcount := h.skipCount htime
  have heven := h.even
  obtain ⟨hnn, hlt⟩ := htime
  unfold StereoCount
  rw [hcount]
  split_ifs <;> omega

theorem seek (h : Tracks K data playLen ctx p) {time : Int64} (htime : Admissible (.seek time)) :
    Tracks K data playLen (seek core ctx time).1 (64 * time.toInt).toNat := by
  have hcount := h.skipCount htime
  have hstereo := h.stereo_skipCount htime
  have htarget := seekTarget htime
  have hback : SnesApu.seekTarget time < ctx.pos ↔ 64 * time.toInt < p := by
    rw [Int64.lt_iff_toInt_lt, htarget, h.pos]
  have hsong : K.loaded (SnesApu.seek core ctx time).1.song = some data ∧
      K.position (SnesApu.seek core ctx time).1.song = (64 * time.toInt).toNat := by
    by_cases hlt : 64 * time.toInt < p
    · -- `Seek` loads the file again, so the skip starts at position 0
      have hload := K.loaded_load ctx.song data h.accepted
      have hzero := K.position_load ctx.song data h.accepted
      rw [show (SnesApu.seek core ctx time).1.song = _ from codec_song core ctx (.seek time)]
      simp only [SnesApu.handedCounts, libraryCall, callState, List.foldl_cons, List.foldl_nil,
        if_pos (hback.mpr hlt), h.content]
      refine ⟨K.loaded_skip _ data _ hload hstereo, ?_⟩
      rw [K.position_skip _ data _ hload hstereo, hzero, hcount, if_pos hlt, zero_add]
    · rw [show (SnesApu.seek core ctx time).1.song = _ from codec_song core ctx (.seek time)]
      simp only [SnesApu.handedCounts, libraryCall, callState, List.foldl_cons, List.foldl_nil,
        if_neg (mt hback.mp hlt)]
      refine ⟨K.loaded_skip _ data _ h.loaded hstereo, ?_⟩
      rw [K.position_skip _ data _ h.loaded hstereo, h.position, hcount, if_neg hlt]
      omega
  obtain ⟨hnn, hlt⟩ := htime
  exact {
    accepted := h.accepted
    length := h.length
    content := h.content
    loaded := hsong.1
    position := hsong.2
    pos := by
      rw [seek_pos, htarget]
      omega
    even := by omega
    bound := by omega }

end Tracks

theorem codec_simulates_player (K : SpcContract core) (data : Bytes) (playLen : Int32) :
    Machine.Simulates (codec core) (player (K.stream data) playLen.toInt) Admissible
      (Tracks K data playLen) := by
  intro ctx p op h hop
  cases op with
  | readPCM size =>
    by_cases hend : AtEnd ctx
    · rw [Player.step_read_of_le (h.atEnd_iff.mp hend)]
      simp only [codec, readPCM_of_atEnd core hend]
      exact ⟨trivial, h⟩
    · rw [Player.step_read_of_lt (not_le.mp (mt h.atEnd_iff.mpr hend))]
      refine ⟨?_, h.readPCM hend hop⟩
      obtain ⟨hcount, hstereo⟩ := stereo_playCount hop
      have hsamples := K.samples_play _ data _ h.loaded hstereo
      rw [h.position, hcount] at hsamples
      have hne : size ≠ 0 := by
        intro hzero
        have hpos := hop.1
        rw [hzero] at hpos
        exact absurd hpos (by decide)
      simp only [codec, SnesApu.readPCM, if_neg hend, hsamples, if_pos hne]
  | seek time => exact ⟨rfl, h.seek hop⟩

theorem tracks_of_init {env : Environment} {tag : Id666} {filename : Bytes} {r : InitResult σ}
    (K : SpcContract core) (h : init core env tag filename = .ok (some r))
    (hacc : Accepted r.ctx.data) : Tracks K r.ctx.data r.ctx.tag.playLen r.ctx 0 := by
  obtain ⟨hpos, hsong⟩ := init_fresh h
  exact {
    accepted := hacc
    length := rfl
    content := rfl
    loaded := by rw [hsong, K.loaded_load _ _ hacc]
    position := by rw [hsong, K.position_load _ _ hacc]
    pos := by
      rw [hpos]
      rfl
    even := rfl
    bound := by norm_num }

theorem tracks_of_run {env : Environment} {tag : Id666} {filename : Bytes} {r : InitResult σ}
    (K : SpcContract core) (h : init core env tag filename = .ok (some r))
    (hacc : Accepted r.ctx.data) {ops : List Op} (hops : ∀ op ∈ ops, Admissible op) :
    (codec core).outputs r.ctx ops =
      (player (K.stream r.ctx.data) r.ctx.tag.playLen.toInt).outputs 0 ops ∧
    Tracks K r.ctx.data r.ctx.tag.playLen ((codec core).state r.ctx ops)
      ((player (K.stream r.ctx.data) r.ctx.tag.playLen.toInt).state 0 ops) := by
  have hsim := codec_simulates_player K r.ctx.data r.ctx.tag.playLen
  exact hsim.run (tracks_of_init K h hacc) hops

theorem Tracks.handedCounts (h : Tracks K data playLen ctx p) {op : Op} (hop : Admissible op) :
    ∀ n ∈ handedCounts ctx op, StereoCount n := by
  intro n hn
  cases op with
  | readPCM size =>
    simp only [SnesApu.handedCounts] at hn
    split_ifs at hn with hend
    · exact absurd hn List.not_mem_nil
    · rw [List.mem_singleton.mp hn]
      exact (stereo_playCount hop).2
  | seek time =>
    rw [List.mem_singleton.mp hn]
    exact h.stereo_skipCount hop

/-- After `Init` of a loadable file, every admissible sequence of calls is
answered as by the ideal player, the emulator stands at `ctx.pos` after it, and
any further admissible call hands the library even, non-negative counts. -/
theorem codec_refines_player {env : Environment} {tag : Id666} {filename : Bytes}
    {r : InitResult σ} (K : SpcContract core) (h : init core env tag filename = .ok (some r))
    (hacc : Accepted r.ctx.data) {ops : List Op} (hops : ∀ op ∈ ops, Admissible op) :
    (codec core).outputs r.ctx ops =
      (player (K.stream r.ctx.data) r.ctx.tag.playLen.toInt).outputs 0 ops ∧
    (K.position ((codec core).state r.ctx ops).song : ℤ) =
      ((codec core).state r.ctx ops).pos.toInt ∧
    ∀ op, Admissible op → ∀ n ∈ handedCounts ((codec core).state r.ctx ops) op, StereoCount n := by
  obtain ⟨houtputs, htracks⟩ := tracks_of_run K h hacc hops
  refine ⟨houtputs, ?_, fun op hop => htracks.handedCounts hop⟩
  rw [htracks.position, htracks.pos]

end Refinement

/-- A song whose samples count up, played, sought forwards and backwards. -/
theorem codec_refines_player_song :
    ∃ r, init (tapeCore fun _ i => Int16.ofNat i) (songEnv (tagHeader 26 (ascii "033"))) {}
        (ascii "song.spc") = .ok (some r) ∧
      (codec (tapeCore fun _ i => Int16.ofNat i)).outputs r.ctx
          [.readPCM 4096, .seek 100, .readPCM 4096, .seek 1, .readPCM 8] =
        (player (fun i => Int16.ofNat i) r.ctx.tag.playLen.toInt).outputs 0
          [.readPCM 4096, .seek 100, .readPCM 4096, .seek 1, .readPCM 8] := by
  obtain ⟨-, r, -, -, hr, -, -, hacc, -⟩ :=
    exists_songInit (n := 2112000) (tapeCore fun _ i => Int16.ofNat i) 26 (ascii "033") (by decide)
      (by decide +kernel)
  exact ⟨r, hr, (codec_refines_player (tapeContract fun _ i => Int16.ofNat i) hr hacc (by decide)).1⟩

end SnesApu
