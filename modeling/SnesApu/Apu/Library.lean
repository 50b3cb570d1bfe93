import SnesApu.Apu.Stream

/-!
# The machine behind spc.h

`apuCore` serves the library calls of the codec with the modelled machine. Of a
song that plays without a failure it meets what `PlayContract` asks for. It
cannot meet what spc.h says about skips: the eight samples after a skip are
silence, whatever the song goes on with.
-/

namespace SnesApu.Apu

open General General.Width

/-- What a client of the library sees of a call. -/
def answer : Except Fault Played → Except Fault Spc × List Int16
  | .ok r => (.ok r.spc, r.samples.map Int16.ofInt)
  | .error e => (.error e, [])

/-- The machine with its failures; one that has failed stays so. -/
def apuCore : SpcCore (Except Fault Spc) where
  spcNew := .ok Spc.init
  loadState s data := s.map fun s => loadState s data
  setOutput s out count := s >>= fun s => setOutput s out count
  endFrame s endTime := answer (s >>= fun s => endFrame s endTime.toInt >>= fun s =>
    pure (played s s.dsp.dac.main))

/-- The documented clauses about skips, for one song and counts that can be handled. -/
structure SkipContract {σ : Type} (core : SpcCore σ) (data : Bytes) extends
    PlayContract core data where
  stream : ℕ → Int16
  position : σ → ℕ
  position_new : position (spcLoadSpc core core.spcNew data) = 0
  samples_play : ∀ s n, Loaded s → FrameCount n →
    (spcPlay core s n).2 = samplesFrom stream (position s) n.toInt.toNat
  loaded_skip : ∀ s n, Loaded s → FrameCount n → Loaded (spcSkip core s n)
  position_skip : ∀ s n, Loaded s → FrameCount n →
    position (spcSkip core s n) = position s + n.toInt.toNat

section Calls

variable {s : Spc} {n : Int32}

/-- The two models of `play` are one wherever the clocks fit. -/
theorem play_apuCore (s : Spc) (hne : n ≠ 0) (hfits : Fits 32 (n.toInt * 16)) (out : Bool) :
    SnesApu.play apuCore (.ok s) n out = answer (play s n out) := by
  have hclocks := clockCount_toInt hfits
  rw [SnesApu.play, if_pos hne]
  change answer (setOutput s out n >>= fun s => endFrame s (clockCount n).toInt >>= fun s =>
    pure (played s s.dsp.dac.main)) = _
  rw [hclocks, play, if_neg hne]
  split_ifs with hodd
  · rw [setOutput, if_pos hodd]
    rfl
  · have hfits' : Fits 32 (n.toInt * (clocksPerSample / 2)) := hfits
    simp only [if_pos hfits']
    rfl

theorem load_apuCore {data : Bytes} (h : Accepted data) :
    spcLoadSpc apuCore apuCore.spcNew data = .ok (loadState Spc.init data) := by
  have herror : loadError data = none := h
  rw [spcLoadSpc, herror]
  rfl

theorem play_apuCore_of_ok (hn : FrameCount n) (hne : n ≠ 0) {out : Bool} {p : Played}
    (hplay : play s n out = .ok p) :
    SnesApu.play apuCore (.ok s) n out = (.ok p.spc, p.samples.map Int16.ofInt) := by
  rw [play_apuCore s hne ((fits_clocks_iff hn.1.1).mpr hn.2), hplay]
  rfl

theorem skip_apuCore {r : Spc} (h : Settled s) (hn : FrameCount n) (hne : n ≠ 0)
    (hserve : serve s (.skip n) = .ok r) : spcSkip apuCore (.ok s) n = .ok r ∧
      r.extraBuf = List.replicate 8 0 := by
  obtain ⟨p, hskip, rfl⟩ := map_eq_ok.mp hserve
  have hsettled := skip_settled h hn
  rw [hskip, within_ok] at hsettled
  exact ⟨congrArg Prod.fst (play_apuCore_of_ok hn hne hskip), hsettled.2 hne⟩

end Calls

/-! ### Songs that never fail -/

/-- A client of the library gets to this state of the song. -/
def Reached (data : Bytes) (s : Spc) : Prop :=
  ∃ rs, (∀ r ∈ rs, r.Playable ∧ r.KeepsSong) ∧ serveAll (loadState Spc.init data) rs = .ok s

/-- The sound processor never leaves the memory while the song goes on. -/
def Unfailing (data : Bytes) : Prop :=
  ∀ rs, (∀ r ∈ rs, r.Playable ∧ r.KeepsSong) → ∃ s, serveAll (loadState Spc.init data) rs = .ok s

section Songs

variable {data : Bytes} {s : Spc} {n : Int32}

theorem StoppedSong.unfailing (h : StoppedSong data) : Unfailing data := by
  intro rs hrs
  obtain ⟨s, hs, -⟩ := serveAll_halted (loadState_settled Spc.init data)
    (loadState_halted Spc.init h) hrs
  exact ⟨s, hs⟩

theorem Reached.settled (h : Reached data s) : Settled s := by
  obtain ⟨rs, hrs, hrun⟩ := h
  have hsettled := serveAll_settled (loadState_settled Spc.init data) fun r hr => (hrs r hr).1
  rwa [hrun, within_ok] at hsettled

theorem serveAll_append (s : Spc) (rs later : List Request) :
    serveAll s (rs ++ later) = serveAll s rs >>= fun s => serveAll s later := by
  induction rs generalizing s with
  | nil => rw [List.nil_append, serveAll_nil, ok_bind]
  | cons r rs ih =>
    rw [List.cons_append, serveAll_cons, serveAll_cons]
    cases serve s r with
    | error e => rfl
    | ok next =>
      rw [ok_bind, ok_bind]
      exact ih next

theorem reached_load : Reached data (loadState Spc.init data) := ⟨[], by simp, serveAll_nil _⟩

theorem Reached.serve (h : Reached data s) (hsafe : Unfailing data) {r : Request}
    (hr : r.Playable ∧ r.KeepsSong) : ∃ next, serve s r = .ok next ∧ Reached data next := by
  obtain ⟨rs, hrs, hrun⟩ := h
  have hall : ∀ q ∈ rs ++ [r], q.Playable ∧ q.KeepsSong := by
    intro q hq
    rcases List.mem_append.mp hq with hold | hnew
    · exact hrs q hold
    · rw [List.mem_singleton.mp hnew]
      exact hr
  obtain ⟨next, hnext⟩ := hsafe _ hall
  refine ⟨next, ?_, _, hall, hnext⟩
  rw [serveAll_append, hrun, ok_bind, serveAll_cons] at hnext
  obtain ⟨t, hserve, hnil⟩ := bind_eq_ok.mp hnext
  rw [serveAll_nil] at hnil
  rw [hserve, hnil]

/-- One call of the library fills its buffer, from the pending samples first. -/
theorem Reached.play (h : Reached data s) (hsafe : Unfailing data) (hn : FrameCount n) :
    ∃ next xs frame, spcPlay apuCore (.ok s) n = (.ok next, xs.map Int16.ofInt) ∧
      Reached data next ∧ xs.length = n.toInt.toNat ∧
      frameSamples s n.toInt.toNat = .ok frame ∧ xs ++ next.extraBuf = s.extraBuf ++ frame.2 := by
  by_cases hne : n = 0
  · subst hne
    exact ⟨s, [], _, rfl, h, rfl, rfl, (List.append_nil _).symm⟩
  · obtain ⟨next, hserve, hnext⟩ := h.serve hsafe (r := .play n) ⟨hn, trivial⟩
    obtain ⟨p, hplay, rfl⟩ := map_eq_ok.mp hserve
    have hcall : spcPlay apuCore (.ok s) n = (.ok p.spc, p.samples.map Int16.ofInt) :=
      play_apuCore_of_ok hn hne hplay
    have hself : ∃ o dac, s = s.through o dac :=
      ⟨⟨s.extraBuf, s.bufBegin, s.extraClocks⟩, s.dsp.dac, rfl⟩
    have hagree := play_frame h.settled hn hself
    rw [hplay] at hagree
    cases hframe : frameSamples s n.toInt.toNat with
    | error e =>
      rw [hframe] at hagree
      exact hagree.elim
    | ok frame =>
      rw [hframe] at hagree
      obtain ⟨-, hlength, hsplit, -⟩ := hagree
      exact ⟨p.spc, p.samples, frame, hcall, hnext, hlength, rfl, hsplit⟩

/-- A song that never fails is played as the codec expects. -/
def apuContract (h : Accepted data) (hsafe : Unfailing data) : PlayContract apuCore data where
  Loaded s := ∃ t, s = .ok t ∧ Reached data t
  loaded_new := ⟨_, load_apuCore h, reached_load⟩
  length_play := by
    rintro _ n ⟨t, rfl, ht⟩ hn
    obtain ⟨next, xs, frame, hcall, -, hlength, -⟩ := ht.play hsafe hn
    rw [hcall, List.length_map, hlength]
  loaded_play := by
    rintro _ n ⟨t, rfl, ht⟩ hn
    obtain ⟨next, xs, frame, hcall, hnext, -⟩ := ht.play hsafe hn
    exact ⟨next, congrArg Prod.fst hcall, hnext⟩

/-! ### Skips -/

def SpcContract.skipContract {σ : Type} {core : SpcCore σ} (K : SpcContract core)
    (h : Accepted data) : SkipContract core data where
  toPlayContract := K.playContract h
  stream := K.stream data
  position := K.position
  position_new := K.position_load _ data h
  samples_play s n hs hn := K.samples_play s data n hs hn.1
  loaded_skip s n hs hn := K.loaded_skip s data n hs hn.1
  position_skip s n hs hn := K.position_skip s data n hs hn.1

/-- After a skip the next frame begins with the silence of `reset_buf`. -/
theorem play_after_skip (hsafe : Unfailing data) (h : Reached data s) (hn : FrameCount n)
    (hne : n ≠ 0) : (spcPlay apuCore (spcSkip apuCore (.ok s) n) 8).2 = List.replicate 8 0 := by
  obtain ⟨next, hserve, hnext⟩ := h.serve hsafe (r := .skip n) ⟨hn, trivial⟩
  obtain ⟨hskip, hsilent⟩ := skip_apuCore h.settled hn hne hserve
  obtain ⟨later, xs, frame, hcall, -, hlength, -, hsplit⟩ := hnext.play hsafe (n := 8) (by decide)
  have hxs : xs = List.replicate 8 0 := by
    rw [hsilent] at hsplit
    exact (List.append_inj hsplit (by rw [hlength]; rfl)).1
  rw [hskip, hcall, hxs]
  rfl

/-- Where a skip can lead, a stream that the clauses hold of is silent. -/
theorem SkipContract.silent (K : SkipContract apuCore data) (h : Accepted data)
    (hsafe : Unfailing data) {i : ℕ} (hlow : 2 ≤ i) (hhigh : i < 134217728) : K.stream i = 0 := by
  obtain ⟨p, hp⟩ : ∃ p, p = i - i % 2 := ⟨_, rfl⟩
  have hcount : (Int32.ofNat p).toInt = p := Int32.toInt_ofNat_of_lt (by omega)
  have hn : FrameCount (Int32.ofNat p) := by
    unfold FrameCount StereoCount
    omega
  have hne : Int32.ofNat p ≠ 0 := by
    intro hzero
    rw [hzero, Int32.toInt_zero] at hcount
    omega
  have hskipped := K.loaded_skip _ _ K.loaded_new hn
  have hposition := K.position_skip _ _ K.loaded_new hn
  have hplay := K.samples_play _ 8 hskipped (by decide)
  rw [hposition, K.position_new, hcount, load_apuCore h,
    play_after_skip hsafe reached_load hn hne] at hplay
  have hsample := congrArg (fun xs => xs.getD (i - p) 0) hplay
  have hindex : 0 + (p : ℤ).toNat + (i - p) = i := by omega
  have height : i - p < (8 : Int32).toInt.toNat := by
    change i - p < 8
    omega
  simp only [samplesFrom, List.getD_eq_getElem?_getD, List.getElem?_map, List.getElem?_range height,
    Option.map_some, Option.getD_some, hindex] at hsample
  rw [← hsample, List.getElem?_replicate]
  split_ifs <;> rfl

/-- A song that sounds past its first pair cannot be skipped as documented. -/
theorem isEmpty_skipContract (h : Accepted data) (hsafe : Unfailing data) (hn : FrameCount n) {i : ℕ}
    (hlow : 2 ≤ i) {x : Int16} (hx : x ≠ 0)
    (hsample : (spcPlay apuCore (spcLoadSpc apuCore apuCore.spcNew data) n).2[i]? = some x) :
    IsEmpty (SkipContract apuCore data) := by
  refine ⟨fun K => hx ?_⟩
  rw [K.samples_play _ n K.loaded_new hn, K.position_new] at hsample
  obtain ⟨hlt, hvalue⟩ := List.getElem?_eq_some_iff.mp hsample
  rw [length_samplesFrom] at hlt
  have hfits := hn.2
  rw [← hvalue, ← K.silent h hsafe hlow (by omega)]
  simp [samplesFrom]

end Songs

/-! ### A song that sounds -/

section Sound

theorem runFrom_prefix {n k phase : ℕ} {m : Dsp} {first : Dsp × List (ℤ × ℤ)}
    {result : Dsp × List (ℤ × ℤ)} (hfirst : runFrom n phase m = .ok first)
    (hrun : runFrom (n + k) phase m = .ok result) : first.2 <+: result.2 := by
  induction n generalizing phase m first result with
  | zero =>
    obtain rfl := Except.ok.inj hfirst
    exact List.nil_prefix
  | succ n ih =>
    rw [Nat.succ_add, runFrom] at hrun
    rw [runFrom] at hfirst
    cases hclock : clock phase m with
    | error e =>
      rw [hclock] at hrun
      exact absurd hrun (by simp)
    | ok next =>
      rw [hclock, ok_bind] at hrun hfirst
      obtain ⟨begun, hbegun, hfirst⟩ := bind_eq_ok.mp hfirst
      obtain ⟨rest, hrest, hrun⟩ := bind_eq_ok.mp hrun
      obtain rfl := pure_eq_ok.mp hfirst
      obtain rfl := pure_eq_ok.mp hrun
      exact (List.prefix_append_right_inj _).mpr (ih hbegun hrest)

theorem main_prefix (ps : List (ℤ × ℤ)) (d : Dac) : d.main <+: (ps.foldl Dac.writeSamples d).main := by
  induction ps generalizing d with
  | nil => exact List.prefix_rfl
  | cons p ps ih =>
    refine List.IsPrefix.trans ?_ (ih _)
    unfold Dac.writeSamples
    dsimp only
    split_ifs
    · exact List.prefix_rfl
    · exact List.prefix_rfl
    · exact List.prefix_append _ _
    · exact List.prefix_append _ _

/-- A stopped song's frame is written by the sound processor alone. -/
theorem frameSamples_halted {s : Spc} (hs : Settled s) (h : Halted s) {count : ℕ}
    (hcount : count % 2 = 0) (hpos : count ≠ 0) : ∃ frame result,
      frameSamples s count = .ok frame ∧
      runFrom (count * (clocksPerSample / 2) - s.spcTime).toNat s.dsp.phase s.dsp.state =
        .ok result ∧
      frame.2 = (result.2.foldl Dac.writeSamples (buffered [] (count + 4))).main := by
  have htape : Rested (s.through ⟨[], false, 0⟩ (buffered [] (count + 4))) := { hs.toRested with }
  have hhalted : Halted (s.through ⟨[], false, 0⟩ (buffered [] (count + 4))) := { h with }
  obtain ⟨q, hq, -, hrun⟩ := catchUpTo_halted hhalted htape (spcTime_lt_frame htape hpos)
    (frameClocks_mod hcount)
  obtain ⟨result, hresult, hpairs⟩ := bind_eq_ok.mp hrun
  refine ⟨({ q with cpuError := false }, q.dsp.dac.main), result, ?_, hresult, ?_⟩
  · rw [frameSamples, if_neg hpos, hq]
    rfl
  · rw [← pure_eq_ok.mp hpairs]
    rfl

def echoSongDsp : Dsp :=
  (clearedDsp (fun r => if r < 0x80 then echoSongReg r else 0)
    (fun addr =>
      if addr < romAddr then if addr < 0x200 then echoSongLow.getD addr 0 else 0xFF
      else (loadState Spc.init echoSong).ram addr) 0).softResetCommon

theorem echoSong_loaded : (loadState Spc.init echoSong).dsp = ⟨echoSongDsp, 0, nullDac⟩ := by
  have hregs : (fun r => byteAt echoSong (0x10100 + r)) =
      fun r => if r < 0x80 then echoSongReg r else 0 := by
    funext r
    split_ifs with hr
    · exact echoSong_dsp hr
    · refine List.getD_eq_default _ _ ?_
      rw [echoSong, List.length_append, List.length_append, length_echoSongHeader,
        length_echoSongRam, List.length_map, List.length_range]
      omega
  have hram : (loadState Spc.init echoSong).ram = fun addr =>
      if addr < romAddr then if addr < 0x200 then echoSongLow.getD addr 0 else 0xFF
      else (loadState Spc.init echoSong).ram addr := by
    funext addr
    split_ifs with hrom hlow
    · rw [loadState_low _ _ hrom, echoSong_ram (by unfold romAddr at hrom; omega), if_pos hlow]
    · rw [loadState_low _ _ hrom, echoSong_ram (by unfold romAddr at hrom; omega), if_neg hlow]
    · rfl
  obtain ⟨-, ram, hdsp⟩ := resetTimeRegs_fresh (filled Spc.init echoSong)
  rw [← loadState_filled] at hdsp
  have hsame : (loadState Spc.init echoSong).ram = ram := by
    rw [Spc.ram, hdsp]
  have hstate : (filled Spc.init echoSong).dsp.state =
      (clearedDsp (fun r => byteAt echoSong (0x10100 + r)) (filled Spc.init echoSong).ram
        0).softResetCommon := rfl
  rw [hdsp, hstate, hregs, echoSongDsp, ← hram, hsame]
  rfl

/-- The first pair is the echo of the first word at `$200`. -/
theorem echoSong_first :
    (runFrom 28 0 echoSongDsp).toOption.map Prod.snd = some [(-2, -2)] := by
  decide +kernel

theorem echoSong_written : ∃ written more,
    frameSamples (loadState Spc.init echoSong) 12 = .ok written ∧ written.2 = [-2, -2] ++ more := by
  obtain ⟨written, result, hwritten, hrun, hmain⟩ :=
    frameSamples_halted (loadState_settled Spc.init echoSong)
      (loadState_halted Spc.init echoSong_stopped) (by norm_num : 12 % 2 = 0) (by norm_num)
  obtain ⟨first, hfirst, hpair⟩ : ∃ first, runFrom 28 0 echoSongDsp = .ok first ∧
      first.2 = [(-2, -2)] := by
    have hpairs := echoSong_first
    cases hfirst : runFrom 28 0 echoSongDsp with
    | error e =>
      rw [hfirst] at hpairs
      exact absurd hpairs (by simp [Except.toOption])
    | ok first =>
      rw [hfirst] at hpairs
      exact ⟨first, rfl, Option.some.inj hpairs⟩
  have hclocks : ((12 : ℕ) * (clocksPerSample / 2) - (loadState Spc.init echoSong).spcTime).toNat =
      28 + 164 := by
    rw [loadState_filled, (resetTimeRegs_fresh _).1.spcTime]
    rfl
  rw [hclocks, echoSong_loaded] at hrun
  obtain ⟨rest, hrest⟩ := runFrom_prefix hfirst hrun
  obtain ⟨more, hmore⟩ := main_prefix rest ((buffered [] 16).writeSamples (-2, -2))
  refine ⟨written, more, hwritten, ?_⟩
  rw [hmain, ← hrest, hpair]
  exact hmore.symm

theorem echoSong_sounds : ∃ x : Int16, x ≠ 0 ∧
    (spcPlay apuCore (spcLoadSpc apuCore apuCore.spcNew echoSong) 12).2[8]? = some x := by
  obtain ⟨next, xs, frame, hcall, -, hlength, hframe, hsplit⟩ :=
    reached_load.play echoSong_stopped.unfailing (n := 12) (by decide)
  obtain ⟨written, more, hwritten, hhead⟩ := echoSong_written
  obtain rfl : written = frame := Except.ok.inj (hwritten.symm.trans hframe)
  have hpending : (loadState Spc.init echoSong).extraBuf = List.replicate 8 0 :=
    (resetTimeRegs_fresh _).1.extraBuf
  have hninth : xs[8]? = some (-2) := by
    have hlt : 8 < xs.length := by
      rw [hlength]
      decide
    rw [← List.getElem?_append_left hlt, hsplit, hpending, hhead]
    rfl
  refine ⟨Int16.ofInt (-2), by decide, ?_⟩
  rw [load_apuCore echoSong_stopped.accepted, hcall, List.getElem?_map, hninth]
  rfl

/-- Every song that never fails is played as the codec expects, but where it
sounds it cannot be skipped as spc.h documents. -/
theorem library_clauses (data : Bytes) (h : Accepted data) (hsafe : Unfailing data) :
    Nonempty (PlayContract apuCore data) ∧ ∀ n i x, FrameCount n → 2 ≤ i → x ≠ 0 →
      (spcPlay apuCore (spcLoadSpc apuCore apuCore.spcNew data) n).2[i]? = some x →
      IsEmpty (SkipContract apuCore data) :=
  ⟨⟨apuContract h hsafe⟩, fun _ _ _ hn hlow hx hsample =>
    isEmpty_skipContract h hsafe hn hlow hx hsample⟩

theorem library_clauses_echoSong : Nonempty (PlayContract apuCore echoSong) ∧
    IsEmpty (SkipContract apuCore echoSong) := by
  obtain ⟨hplay, hskip⟩ := library_clauses echoSong echoSong_stopped.accepted
    echoSong_stopped.unfailing
  obtain ⟨x, hx, hsample⟩ := echoSong_sounds
  exact ⟨hplay, hskip 12 8 x (by decide) (by norm_num) hx hsample⟩

/-- The contract of spc.h is an idealisation of this machine. -/
theorem isEmpty_spcContract : IsEmpty (SpcContract apuCore) := by
  obtain ⟨x, hx, hsample⟩ := echoSong_sounds
  refine ⟨fun K => ?_⟩
  have hempty := isEmpty_skipContract echoSong_stopped.accepted echoSong_stopped.unfailing (n := 12)
    (by decide) (by norm_num) hx hsample
  exact hempty.false (SpcContract.skipContract K echoSong_stopped.accepted)

end Sound

end SnesApu.Apu
