import SnesApu.Apu.Halted

/-!
# What a listener hears

`frameSamples` is the frame of a call played into a buffer that is never full,
so it tells what the sound processor wrote. The calls of a client deliver these
samples one after the other, whatever the sizes it asks for.
-/

namespace SnesApu.Apu

open General

/-! ### Histories -/

inductive Request where
  | load (data : Bytes)
  | play (count : Int32)
  | skip (count : Int32)
  | clearEcho
  | setTempo (t : ℤ)
  | muteVoices (mask : UInt8)
  | initRom (input : ℕ → UInt8)
  | reset

/-- A client asks for whole pairs, and for no more than a frame can have. -/
def Request.Playable : Request → Prop
  | .play count => FrameCount count
  | .skip count => FrameCount count
  | _ => True

def serve (s : Spc) : Request → Except Fault Spc
  | .load data => .ok (loadSpc s data).1
  | .play count => Played.spc <$> play s count true
  | .skip count => Played.spc <$> skip s count
  | .clearEcho => .ok (clearEcho s)
  | .setTempo t => .ok (setTempo s t)
  | .muteVoices mask => .ok (muteVoices s mask)
  | .initRom input => .ok (initRom s input)
  | .reset => .ok (reset s)

def serveAll (s : Spc) : List Request → Except Fault Spc
  | [] => .ok s
  | r :: rs => do
    let s ← serve s r
    serveAll s rs

@[simp] theorem serveAll_nil (s : Spc) : serveAll s [] = .ok s := rfl

theorem serveAll_cons (s : Spc) (r : Request) (rs : List Request) :
    serveAll s (r :: rs) = serve s r >>= fun s => serveAll s rs := rfl

-- a run is only ever reasoned about, never unfolded
attribute [irreducible] serveAll

section Histories

variable {s : Spc}

theorem serve_settled (h : Settled s) {r : Request} (hr : r.Playable) :
    Within OnlyMemory (serve s r) Settled := by
  cases r with
  | load data => exact loadSpc_settled h data
  | play count => exact within_map.mpr ((play_settled h hr).mono fun _ hs => hs.1)
  | skip count => exact within_map.mpr ((skip_settled h hr).mono fun _ hs => hs.1)
  | clearEcho => exact clearEcho_settled h
  | setTempo t => exact setTempo_settled h t
  | muteVoices mask => exact muteVoices_settled h mask
  | initRom input => exact { h with }
  | reset => exact reset_settled s

theorem serveAll_settled (h : Settled s) {rs : List Request} (hrs : ∀ r ∈ rs, r.Playable) :
    Within OnlyMemory (serveAll s rs) Settled := by
  induction rs generalizing s with
  | nil =>
    rw [serveAll_nil]
    exact h
  | cons r rs ih =>
    rw [serveAll_cons]
    refine (serve_settled h (hrs r List.mem_cons_self)).bind fun next hnext => ?_
    exact ih hnext fun q hq => hrs q (List.mem_cons_of_mem r hq)

/-- The song goes on under such a request. -/
def Request.KeepsSong : Request → Prop
  | .load _ => False
  | .reset => False
  | _ => True

theorem serve_halted (hs : Settled s) (h : Halted s) {r : Request} (hr : r.Playable)
    (hkeep : r.KeepsSong) : ∃ t, serve s r = .ok t ∧ Settled t ∧ Halted t := by
  cases r with
  | load data => exact hkeep.elim
  | play count =>
    obtain ⟨p, hp, hnext⟩ := play_halted hs h hr
    exact ⟨p.spc, by rw [serve, hp]; rfl, hnext⟩
  | skip count =>
    obtain ⟨p, hp, hnext⟩ := skip_halted hs h hr
    exact ⟨p.spc, by rw [serve, hp]; rfl, hnext⟩
  | clearEcho => exact ⟨s, by rw [serve, clearEcho_halted h], hs, h⟩
  | setTempo t => exact ⟨_, rfl, setTempo_settled hs t, { h with }⟩
  | muteVoices mask => exact ⟨_, rfl, muteVoices_settled hs mask, muteVoices_halted h mask⟩
  | initRom input => exact ⟨_, rfl, { hs with }, { h with }⟩
  | reset => exact hkeep.elim

theorem serveAll_halted (hs : Settled s) (h : Halted s) {rs : List Request}
    (hrs : ∀ r ∈ rs, r.Playable ∧ r.KeepsSong) :
    ∃ t, serveAll s rs = .ok t ∧ Settled t ∧ Halted t := by
  induction rs generalizing s with
  | nil => exact ⟨s, serveAll_nil s, hs, h⟩
  | cons r rs ih =>
    obtain ⟨hr, hkeep⟩ := hrs r List.mem_cons_self
    obtain ⟨next, hnext, hsettled, hhalted⟩ := serve_halted hs h hr hkeep
    rw [serveAll_cons, hnext]
    exact ih hsettled hhalted fun q hq => hrs q (List.mem_cons_of_mem r hq)

end Histories

/-! ### The samples of a frame -/

/-- The frame of a call for `count` samples, and what the processor wrote in it. -/
def frameSamples (s : Spc) (count : ℕ) : Except Fault (Spc × List ℤ) :=
  if count = 0 then .ok ({ s with cpuError := false }, [])
  else do
    let s ← catchUpTo (s.through ⟨[], false, 0⟩ (buffered [] (count + 4)))
      (count * (clocksPerSample / 2))
    pure ({ s with cpuError := false }, s.dsp.dac.main)

/-- What the processor writes over the frames of several calls. -/
def stream : Spc → List ℕ → Except Fault (List ℤ)
  | _, [] => .ok []
  | s, count :: counts => do
    let frame ← frameSamples s count
    let rest ← stream frame.1 counts
    pure (frame.2 ++ rest)

/-- The frames that the client gets from these calls. -/
def playAll : Spc → List Int32 → Except Fault (List (List ℤ))
  | _, [] => .ok []
  | s, count :: counts => do
    let r ← play s count true
    let rest ← playAll r.spc counts
    pure (r.samples :: rest)

theorem playAll_nil (s : Spc) : playAll s [] = .ok [] := rfl

theorem playAll_cons (s : Spc) (count : Int32) (counts : List Int32) :
    playAll s (count :: counts) = play s count true >>= fun r =>
      playAll r.spc counts >>= fun rest => pure (r.samples :: rest) := rfl

theorem playAll_halted {s : Spc} (hs : Settled s) (h : Halted s) {counts : List Int32}
    (hcounts : ∀ n ∈ counts, FrameCount n) : ∃ frames, playAll s counts = .ok frames := by
  induction counts generalizing s with
  | nil => exact ⟨[], playAll_nil s⟩
  | cons n ns ih =>
    obtain ⟨p, hp, hsettled, hhalted⟩ := play_halted hs h (hcounts n List.mem_cons_self)
    obtain ⟨frames, hframes⟩ := ih hsettled hhalted fun m hm =>
      hcounts m (List.mem_cons_of_mem n hm)
    refine ⟨p.samples :: frames, ?_⟩
    rw [playAll_cons, hp, ok_bind, hframes]
    rfl

/-- The sizes that these calls ask for. -/
def asked (counts : List Int32) : List ℕ := counts.map fun n => n.toInt.toNat

/-- The frames have the sizes asked for and are cut, one after the other, from
what was pending and what was written. -/
def CutFrom (pending written : List ℤ) (sizes : List ℕ) (frames : List (List ℤ)) : Prop :=
  frames.map List.length = sizes ∧ frames.flatten = (pending ++ written).take sizes.sum

attribute [irreducible] playAll

section Frames

variable {s : Spc} {count : ℕ} {n : Int32}

theorem writeSamples_inExtra {d : Dac} (h : d.inExtra = true) (p : ℤ × ℤ) :
    (d.writeSamples p).inExtra = true := by
  unfold Dac.writeSamples
  rw [if_pos h]
  exact h

theorem foldl_inExtra {d : Dac} (h : d.inExtra = true) (ps : List (ℤ × ℤ)) :
    (ps.foldl Dac.writeSamples d).inExtra = true := by
  induction ps generalizing d with
  | nil => exact h
  | cons p ps ih => exact ih (writeSamples_inExtra h p)

/-- A client's buffer that never filled up holds everything that was written. -/
theorem main_of_not_inExtra {d : Dac} {ps : List (ℤ × ℤ)}
    (h : (ps.foldl Dac.writeSamples d).inExtra = false) :
    (ps.foldl Dac.writeSamples d).main = d.main ++ flatten ps := by
  induction ps generalizing d with
  | nil => simp [flatten]
  | cons p ps ih =>
    have hnext : (d.writeSamples p).inExtra = false := by
      by_contra htrue
      rw [List.foldl_cons, foldl_inExtra (by simpa using htrue)] at h
      exact absurd h (by simp)
    have hnow : d.inExtra = false := by
      by_contra htrue
      rw [writeSamples_inExtra (by simpa using htrue)] at hnext
      exact absurd hnext (by simp)
    have hmain : (d.writeSamples p).main = d.main ++ [p.1, p.2] := by
      unfold Dac.writeSamples
      rw [hnow, if_neg Bool.false_ne_true]
      dsimp only
      split_ifs <;> rfl
    rw [List.foldl_cons, ih h, hmain, flatten_cons, List.append_assoc]

/-- The tape of a frame never fills up. -/
theorem tape_frame {o : Outlet} {r : Spc} (hs : Settled s) (hcount : count % 2 = 0)
    (hr : Framed (s.through o (buffered [] (count + 4))) (count * (clocksPerSample / 2)) r) :
    r.dsp.dac.inExtra = false ∧
      (r.dsp.dac.main.length : ℤ) = 2 * ((r.spcTime + 4) / 32 -
        (s.spcTime - count * (clocksPerSample / 2) + 4) / 32) := by
  obtain ⟨ps, hdac, hlength⟩ := hr.output
  have hstart := hs.lagPairs
  have hlag := hr.lag
  have hframe : (s.spcTime - count * (clocksPerSample / 2) + 4) / 32 =
      (s.spcTime + 4) / 32 - count / 2 := by
    norm_num [clocksPerSample]
    omega
  change (ps.length : ℤ) = (r.spcTime + 4) / 32 -
    (s.spcTime - count * (clocksPerSample / 2) + 4) / 32 at hlength
  have hfit : 2 * ps.length < count + 4 := by omega
  have hwritten : r.dsp.dac = buffered ([] ++ flatten ps) (count + 4) := by
    rw [← foldl_writeSamples_buffered ps (by simp) (by omega) (by simp [extraSize]; omega)]
    exact hdac
  rw [hwritten, List.nil_append, buffered, if_neg (by rw [length_flatten]; omega)]
  refine ⟨rfl, ?_⟩
  rw [← hlength, length_flatten]
  push_cast
  ring

/-- One call hands out the pending samples and then those of its frame, and
keeps what is left. -/
theorem play_frame (hs : Settled s) (hn : FrameCount n) {t : Spc}
    (ht : ∃ o dac, t = s.through o dac) :
    Agree (fun r frame => Settled r.spc ∧ r.samples.length = n.toInt.toNat ∧
        r.samples ++ r.spc.extraBuf = s.extraBuf ++ frame.2 ∧
        ∃ o dac, frame.1 = r.spc.through o dac)
      (play s n true) (frameSamples t n.toInt.toNat) := by
  obtain ⟨o, dac, rfl⟩ := ht
  obtain ⟨hnat, hcount, hfits⟩ := frameCount_toNat hn
  generalize n.toInt.toNat = count at hnat hcount hfits ⊢
  by_cases hpos : count = 0
  · subst hpos
    obtain rfl : n = 0 := Int32.toInt_inj.mp hnat
    exact ⟨{ hs with }, rfl, (List.append_nil _).symm, o, dac, rfl⟩
  · have halike : Alike (buffered s.extraBuf count) (buffered [] (count + 4)) ⟨[], false, 0⟩
        (started s count) (s.through ⟨[], false, 0⟩ (buffered [] (count + 4))) := ⟨[], rfl, rfl⟩
    have htape : Rested (s.through ⟨[], false, 0⟩ (buffered [] (count + 4))) :=
      { hs.toRested with }
    have hframes := (catchUpTo_alike halike (count * (clocksPerSample / 2))).and_within
      (started_framed hs hcount hpos)
      (catchUpTo_framed htape (spcTime_lt_frame htape hpos) (frameClocks_mod hcount))
    rw [play_eq hs hnat hcount hpos hfits]
    unfold frameSamples
    rw [if_neg hpos]
    refine hframes.bind fun x y hxy => ?_
    obtain ⟨⟨ps, hdac, rfl⟩, hx, hy⟩ := hxy
    obtain ⟨hopen, htotal⟩ := tape_frame hs hcount hy
    -- both outputs took the same pairs, and the tape shows how many
    have hmain : (ps.foldl Dac.writeSamples (buffered [] (count + 4))).main = flatten ps := by
      rw [main_of_not_inExtra hopen]
      simp [buffered]
    have hlength : (ps.length : ℤ) = (x.spcTime + 4) / 32 -
        (s.spcTime - count * (clocksPerSample / 2) + 4) / 32 := by
      change ((ps.foldl Dac.writeSamples (buffered [] (count + 4))).main.length : ℤ) =
        2 * ((x.spcTime + 4) / 32 -
          (s.spcTime - count * (clocksPerSample / 2) + 4) / 32) at htotal
      rw [hmain, length_flatten] at htotal
      push_cast at htotal
      linarith
    obtain ⟨hbuffered, hfull, hsaved, hsettled⟩ := saveExtra_frame hs hcount hx hdac hlength
    have hbegin : x.bufBegin = true := hx.bufBegin
    rw [if_pos hbegin, hsaved]
    refine ⟨played_settled hsettled _, ?_, ?_, ⟨[], false, 0 + count * (clocksPerSample / 2)⟩,
      ps.foldl Dac.writeSamples (buffered [] (count + 4)), rfl⟩
    · dsimp only [played, saved]
      rw [hbuffered, buffered, if_pos hfull, List.length_take, min_eq_left hfull]
    · dsimp only [played, saved]
      rw [hbuffered, buffered, if_pos hfull, List.take_append_drop]
      exact congrArg _ hmain.symm

/-- Whatever sizes a client asks for, it gets the pending samples and then those
the processor writes, in order and in frames of these sizes. -/
theorem playAll_stream (hs : Settled s) {counts : List Int32} (hcounts : ∀ n ∈ counts, FrameCount n)
    {t : Spc} (ht : ∃ o dac, t = s.through o dac) :
    Agree (fun frames written => CutFrom s.extraBuf written (asked counts) frames)
      (playAll s counts) (stream t (asked counts)) := by
  induction counts generalizing s t with
  | nil =>
    rw [playAll_nil]
    exact ⟨rfl, by simp [asked]⟩
  | cons n ns ih =>
    rw [playAll_cons]
    refine (play_frame hs (hcounts n List.mem_cons_self) ht).bind fun r frame hframe => ?_
    obtain ⟨hr, hlength, hsplit, hnext⟩ := hframe
    refine (ih hr (fun m hm => hcounts m (List.mem_cons_of_mem n hm)) hnext).bind
      fun frames written hrest => ?_
    obtain ⟨hsizes, hrest⟩ := hrest
    refine ⟨?_, ?_⟩
    · rw [List.map_cons, hsizes, hlength]
      rfl
    · change r.samples ++ frames.flatten =
        (s.extraBuf ++ (frame.2 ++ written)).take (n.toInt.toNat + (asked ns).sum)
      rw [← List.append_assoc, ← hsplit, List.append_assoc, List.take_append, hlength,
        Nat.add_sub_cancel_left, List.take_of_length_le (by omega), hrest]

end Frames

section Results

theorem init_settled : Settled Spc.init := reset_settled Spc.zero

theorem player_delivers (rs : List Request) (hrs : ∀ r ∈ rs, r.Playable) (s : Spc)
    (hs : serveAll Spc.init rs = .ok s) (counts : List Int32)
    (hcounts : ∀ n ∈ counts, FrameCount n) :
    6 ≤ s.extraBuf.length ∧ s.extraBuf.length ≤ 10 ∧
      Agree (fun frames written => CutFrom s.extraBuf written (asked counts) frames)
        (playAll s counts) (stream s (asked counts)) := by
  have hsettled : Settled s := by
    have h := serveAll_settled init_settled hrs
    rwa [hs, within_ok] at h
  obtain ⟨hlow, hhigh, -⟩ := hsettled.length_extraBuf
  exact ⟨hlow, hhigh, playAll_stream hsettled hcounts
    ⟨⟨s.extraBuf, s.bufBegin, s.extraClocks⟩, s.dsp.dac, rfl⟩⟩

/-- A loaded song played in frames of 12 and 480 samples, of which eight were pending. -/
theorem player_delivers_echoSong : ∃ s frames written,
    serveAll Spc.init [.load echoSong] = .ok s ∧ playAll s [12, 480] = .ok frames ∧
      stream s [12, 480] = .ok written ∧ s.extraBuf.length ≤ 10 ∧
      CutFrom s.extraBuf written [12, 480] frames := by
  have hload : serveAll Spc.init [.load echoSong] = .ok (loadState Spc.init echoSong) := by
    rw [serveAll_cons, serve, loadSpc_accepted _ echoSong_stopped.accepted, ok_bind, serveAll_nil]
  have hcounts : ∀ n ∈ [(12 : Int32), 480], FrameCount n :=
    List.forall_mem_cons.mpr ⟨by decide, List.forall_mem_singleton.mpr (by decide)⟩
  obtain ⟨frames, hframes⟩ := playAll_halted (loadState_settled Spc.init echoSong)
    (loadState_halted Spc.init echoSong_stopped) hcounts
  have hrs : ∀ r ∈ [Request.load echoSong], r.Playable := by
    intro r hr
    rw [List.mem_singleton.mp hr]
    trivial
  obtain ⟨-, hpending, hagree⟩ := player_delivers _ hrs _ hload _ hcounts
  rw [hframes] at hagree
  cases hwritten : stream (loadState Spc.init echoSong) (asked [12, 480]) with
  | error e =>
    rw [hwritten] at hagree
    exact hagree.elim
  | ok written =>
    rw [hwritten] at hagree
    exact ⟨_, frames, written, hload, hframes, hwritten, hpending, hagree⟩

end Results

end SnesApu.Apu
