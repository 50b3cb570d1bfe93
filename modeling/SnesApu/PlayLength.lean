import SnesApu.PlayerRefinement

/-!
# How long a song plays

`Init` keeps the parsed play length whatever its sign, and stores 240 for a
refused tag, which `ReadPCM` compares with a position in ticks.
-/

namespace SnesApu

open General

/-- The length a song should play: four minutes unless its tag says otherwise. -/
def announcedLength (tag : Id666) (data : Bytes) : ℤ :=
  match id666Parse tag data with
  | .ok (some spcTag) => if 0 < spcTag.playLen.toInt then spcTag.playLen.toInt else 240 * 64000
  | _ => 240 * 64000

def FrameSize (limit : ℕ) (size : UInt64) : Prop :=
  0 < size.toNat ∧ size.toNat % 4 = 0 ∧ size.toNat < limit

instance (limit : ℕ) : DecidablePred (FrameSize limit) := fun _ =>
  inferInstanceAs (Decidable (_ ∧ _ ∧ _))

def delivered {σ : Type} (core : SpcCore σ) (ctx : SPCContext σ) (sizes : List UInt64) : ℤ :=
  (((codec core).outputs ctx (sizes.map .readPCM)).map Answer.delivered).sum

/-- Reads below `limit` bytes have all their clocks run, 16 for each sample, and
they end exactly when `L` samples have been delivered. -/
structure PlaysExactly {σ : Type} (core : SpcCore σ) (ctx : SPCContext σ) (limit : ℕ) (L : ℤ) :
    Prop where
  clocks : ∀ (sizes : List UInt64) (size : UInt64), (∀ s ∈ sizes, FrameSize limit s) →
    FrameSize limit size →
    ∀ n ∈ handedCounts ((codec core).state ctx (sizes.map .readPCM)) (.readPCM size),
      (clockCount n).toInt = 16 * (size.toNat / 2)
  ends : ∀ (sizes : List UInt64) (size : UInt64), (∀ s ∈ sizes, FrameSize limit s) →
    FrameSize limit size →
    (((codec core).step ((codec core).state ctx (sizes.map .readPCM)) (.readPCM size)).2.IsEof ↔
      L ≤ delivered core ctx sizes)

theorem FrameSize.mono {limit limit' : ℕ} (hle : limit ≤ limit') {size : UInt64}
    (h : FrameSize limit size) : FrameSize limit' size :=
  ⟨h.1, h.2.1, h.2.2.trans_le hle⟩

theorem playCount_frameCount {size : UInt64} (h : FrameSize 268435456 size) :
    (playCount size).toInt = size.toNat / 2 ∧ FrameCount (playCount size) := by
  obtain ⟨-, hframe, hlt⟩ := h
  have hcount : (playCount size).toInt = size.toNat / 2 := playCount_toInt (by omega)
  refine ⟨hcount, ⟨?_, ?_⟩, ?_⟩ <;> omega

section Reads

variable {σ : Type} {core : SpcCore σ} {data : Bytes} {K : PlayContract core data}
  {ctx : SPCContext σ} {playLen : Int32}

/-- What reads keep: a song is loaded, and no position is negative. -/
structure Reading (K : PlayContract core data) (playLen : Int32) (ctx : SPCContext σ) : Prop where
  loaded : K.Loaded ctx.song
  length : ctx.tag.playLen = playLen
  nonneg : 0 ≤ ctx.pos.toInt

def ShortRead (op : Op) : Prop := ∃ size, FrameSize 268435456 size ∧ op = .readPCM size

theorem codec_read_isEof_iff (ctx : SPCContext σ) (size : UInt64) :
    ((codec core).step ctx (.readPCM size)).2.IsEof ↔ AtEnd ctx := by
  by_cases hend : AtEnd ctx
  · simp only [codec, readPCM_of_atEnd core hend]
    exact iff_of_true rfl hend
  · simp only [codec, readPCM, if_neg hend, Answer.IsEof]
    refine iff_of_false ?_ hend
    split_ifs <;> simp

theorem readPCM_samples (h : Reading K playLen ctx) (hread : ¬ AtEnd ctx) {size : UInt64}
    (hsize : FrameSize 268435456 size) :
    ((readPCM core ctx size).2.samples.length : ℤ) = size.toNat / 2 := by
  obtain ⟨hcount, hframe⟩ := playCount_frameCount hsize
  have hlength := K.length_play _ _ h.loaded hframe
  simp only [readPCM, if_neg hread, hlength]
  omega

theorem pos_lt_of_not_atEnd (hread : ¬ AtEnd ctx) : ctx.pos.toInt < 2147483648 := by
  have hbefore := mt (atEnd_iff ctx).mpr hread
  have hmax := ctx.tag.playLen.toInt_lt
  omega

theorem read_pos (h : Reading K playLen ctx) {op : Op} (hop : ShortRead op) :
    ((codec core).step ctx op).1.pos.toInt =
      ctx.pos.toInt + ((codec core).step ctx op).2.delivered := by
  obtain ⟨size, hsize, rfl⟩ := hop
  by_cases hend : AtEnd ctx
  · simp [codec, readPCM_of_atEnd core hend, Answer.delivered]
  · have hpos := pos_lt_of_not_atEnd hend
    have hlt := hsize.2.2
    change (readPCM core ctx size).1.pos.toInt = _ + ((readPCM core ctx size).2.samples.length : ℤ)
    rw [readPCM_pos_toInt core hend (by omega), readPCM_samples h hend hsize]

theorem reading_preserved (K : PlayContract core data) (playLen : Int32) :
    (codec core).Preserves ShortRead (Reading K playLen) := by
  intro ctx op h hop
  have hpos := read_pos h hop
  obtain ⟨size, hsize, rfl⟩ := hop
  by_cases hend : AtEnd ctx
  · simp only [codec, readPCM_of_atEnd core hend]
    exact h
  · obtain ⟨-, hframe⟩ := playCount_frameCount hsize
    have hsong := codec_song core ctx (.readPCM size)
    rw [handedCounts, if_neg hend] at hsong
    exact {
      loaded := by
        rw [hsong]
        exact K.loaded_play _ _ h.loaded hframe
      length := by
        change (readPCM core ctx size).1.tag.playLen = playLen
        rw [readPCM_tag, h.length]
      nonneg := by
        have hnonneg := h.nonneg
        rw [hpos]
        have : 0 ≤ ((codec core).step ctx (.readPCM size)).2.delivered := Int.natCast_nonneg _
        omega }

theorem shortReads {sizes : List UInt64} (h : ∀ s ∈ sizes, FrameSize 268435456 s) :
    ∀ op ∈ sizes.map Op.readPCM, ShortRead op := by
  intro op hop
  obtain ⟨size, hsize, rfl⟩ := List.mem_map.mp hop
  exact ⟨size, h size hsize, rfl⟩

theorem frameReads (k : ℕ) : ∀ op ∈ List.replicate k (Op.readPCM 4), ShortRead op := by
  intro op hop
  rw [List.eq_of_mem_replicate hop]
  exact ⟨4, by decide, rfl⟩

/-- After reads from the start of the song the position is what they delivered. -/
theorem pos_of_reads (h : Reading K playLen ctx) (hzero : ctx.pos.toInt = 0) {sizes : List UInt64}
    (hsizes : ∀ s ∈ sizes, FrameSize 268435456 s) :
    ((codec core).state ctx (sizes.map .readPCM)).pos.toInt = delivered core ctx sizes := by
  have hledger := (reading_preserved K playLen).state_ledger (fun c => c.pos.toInt) Answer.delivered
    (fun _ _ hctx hop => read_pos hctx hop) h (shortReads hsizes)
  rw [hledger, hzero, zero_add]
  rfl

theorem isEof_iff_delivered (h : Reading K playLen ctx) (hzero : ctx.pos.toInt = 0)
    {sizes : List UInt64} (hsizes : ∀ s ∈ sizes, FrameSize 268435456 s) (size : UInt64) :
    ((codec core).step ((codec core).state ctx (sizes.map .readPCM)) (.readPCM size)).2.IsEof ↔
      playLen.toInt ≤ delivered core ctx sizes := by
  have hlength := ((reading_preserved K playLen).state h (shortReads hsizes)).length
  rw [codec_read_isEof_iff, atEnd_iff, hlength, pos_of_reads h hzero hsizes]

/-- Reads of one frame each end, or all of them deliver it. -/
theorem frames_read (h : Reading K playLen ctx) (k : ℕ) :
    ((codec core).state ctx (List.replicate k (.readPCM 4))).pos.toInt ≤ ctx.pos.toInt + 2 * k ∧
    (AtEnd ((codec core).state ctx (List.replicate k (.readPCM 4))) ∨
      ctx.pos.toInt + 2 * k ≤
        ((codec core).state ctx (List.replicate k (.readPCM 4))).pos.toInt) := by
  have hfour : FrameSize 268435456 4 := by decide
  induction k generalizing ctx with
  | zero => simp
  | succ k ih =>
    rw [List.replicate_succ, Machine.state_cons]
    obtain ⟨hle, hend⟩ := ih (reading_preserved K playLen ctx _ h ⟨4, hfour, rfl⟩)
    have hstep := read_pos h ⟨4, hfour, rfl⟩
    by_cases hstop : AtEnd ctx
    · have hsame : ((codec core).step ctx (.readPCM 4)).1 = ctx := by
        simp only [codec, readPCM_of_atEnd core hstop]
      rw [hsame] at hle hend ⊢
      refine ⟨by push_cast; omega, .inl ?_⟩
      rcases hend with hend | hfar
      · exact hend
      · have hlength := ((reading_preserved K playLen).state h (frameReads k)).length
        have hnow := (atEnd_iff ctx).mp hstop
        rw [h.length] at hnow
        rw [atEnd_iff, hlength]
        omega
    · have htwo : ((codec core).step ctx (.readPCM 4)).2.delivered = 2 := by
        have hsamples := readPCM_samples h hstop hfour
        exact hsamples
      rw [htwo] at hstep
      refine ⟨by push_cast; omega, hend.imp id fun hfar => by push_cast; omega⟩

end Reads

section Lengths

variable {σ : Type} {core : SpcCore σ} {env : Environment} {tag : Id666} {filename : Bytes}
  {r : InitResult σ}

theorem reading_of_init (K : PlayContract core r.ctx.data)
    (h : init core env tag filename = .ok (some r)) : Reading K r.ctx.tag.playLen r.ctx := by
  obtain ⟨hpos, hsong⟩ := init_fresh h
  exact {
    loaded := by
      rw [hsong]
      exact K.loaded_new
    length := rfl
    nonneg := by
      rw [hpos]
      decide }

theorem init_pos (h : init core env tag filename = .ok (some r)) : r.ctx.pos.toInt = 0 := by
  rw [(init_fresh h).1]
  rfl

theorem playsExactly_of_eq (K : PlayContract core r.ctx.data)
    (h : init core env tag filename = .ok (some r)) {limit : ℕ} (hlimit : limit ≤ 268435456) {L : ℤ}
    (hL : r.ctx.tag.playLen.toInt = L) : PlaysExactly core r.ctx limit L where
  clocks sizes size _ hsize n hn := by
    obtain ⟨hcount, ⟨hnonneg, -⟩, hlt⟩ := playCount_frameCount (hsize.mono hlimit)
    rw [handedCounts] at hn
    split_ifs at hn
    · exact absurd hn List.not_mem_nil
    · rw [List.mem_singleton.mp hn, clockCount_toInt ((fits_clocks_iff hnonneg).mpr hlt), hcount]
      ring
  ends sizes size hsizes _ := by
    rw [isEof_iff_delivered (reading_of_init K h) (init_pos h)
      (fun s hs => (hsizes s hs).mono hlimit), hL]

/-- A read of 2^28 bytes asks for 2^31 clocks. -/
theorem not_playsExactly_long (h : init core env tag filename = .ok (some r))
    (hplay : 0 < r.ctx.tag.playLen.toInt) {limit : ℕ} (hlimit : 268435456 < limit) {L : ℤ} :
    ¬ PlaysExactly core r.ctx limit L := by
  intro hall
  have hsize : FrameSize limit 268435456 := ⟨by decide, by decide, hlimit⟩
  have hread : ¬ AtEnd r.ctx := by
    rw [atEnd_iff, init_pos h]
    omega
  have hclocks := hall.clocks [] 268435456 (by simp) hsize (playCount 268435456)
    (by simp [handedCounts, hread])
  exact absurd hclocks (by decide)

theorem not_playsExactly_untimed (K : PlayContract core r.ctx.data)
    (h : init core env tag filename = .ok (some r)) {limit : ℕ} (hlimit : 4 < limit) {L : ℤ}
    (hplay : r.ctx.tag.playLen.toInt ≤ 240) (hL : 240 < L) :
    ¬ PlaysExactly core r.ctx limit L := by
  intro hall
  have hreading := reading_of_init K h
  have hfour : FrameSize limit 4 := ⟨by decide, by decide, hlimit⟩
  -- 120 reads of one frame deliver at most 240 samples, after which the next one ends
  obtain ⟨hle, hend⟩ := frames_read hreading 120
  have hsizes : ∀ s ∈ List.replicate 120 (4 : UInt64), FrameSize 268435456 s := by
    intro s hs
    rw [List.eq_of_mem_replicate hs]
    decide
  have hpos := pos_of_reads hreading (init_pos h) hsizes
  have heof := hall.ends (List.replicate 120 4) 4
    (fun s hs => by rw [List.eq_of_mem_replicate hs]; exact hfour) hfour
  rw [isEof_iff_delivered hreading (init_pos h) hsizes] at heof
  rw [List.map_replicate] at hpos
  rw [init_pos h] at hle hend
  have hlength := ((reading_preserved K _).state hreading (frameReads 120)).length
  rw [atEnd_iff, hlength] at hend
  omega

theorem length_of_timed (h : init core env tag filename = .ok (some r)) {spcTag : Id666}
    (hparse : id666Parse tag r.ctx.data = .ok (some spcTag)) (hpos : 0 < spcTag.playLen.toInt) :
    r.ctx.tag.playLen.toInt = announcedLength tag r.ctx.data := by
  obtain ⟨parsed, hparsed, htag⟩ := init_parsed h
  rw [hparse] at hparsed
  rw [htag, ← Except.ok.inj hparsed]
  simp only [tagOf, announcedLength, hparse, if_pos hpos]

theorem length_of_untimed (h : init core env tag filename = .ok (some r))
    (hnone : ¬ ∃ spcTag, id666Parse tag r.ctx.data = .ok (some spcTag) ∧
      0 < spcTag.playLen.toInt) :
    r.ctx.tag.playLen.toInt ≤ 240 ∧ announcedLength tag r.ctx.data = 15360000 := by
  obtain ⟨parsed, hparse, htag⟩ := init_parsed h
  cases parsed with
  | none =>
    rw [htag]
    refine ⟨le_rfl, ?_⟩
    simp only [announcedLength, hparse]
    rfl
  | some spcTag =>
    have hpos : ¬ 0 < spcTag.playLen.toInt := fun hpos => hnone ⟨spcTag, hparse, hpos⟩
    rw [htag]
    refine ⟨(not_lt.mp hpos).trans (by norm_num), ?_⟩
    simp only [announcedLength, hparse, if_neg hpos]
    rfl

/-- Reads below `limit` bytes play a song for exactly its announced length just
when its tag is parsed with a positive length and the clocks of such reads fit an
`int`. -/
theorem playsExactly_iff (h : init core env tag filename = .ok (some r))
    (K : PlayContract core r.ctx.data) {limit : ℕ} (hlimit : 4 < limit) :
    PlaysExactly core r.ctx limit (announcedLength tag r.ctx.data) ↔
      limit ≤ 268435456 ∧
        ∃ spcTag, id666Parse tag r.ctx.data = .ok (some spcTag) ∧ 0 < spcTag.playLen.toInt := by
  by_cases htimed : ∃ spcTag, id666Parse tag r.ctx.data = .ok (some spcTag) ∧
      0 < spcTag.playLen.toInt
  · obtain ⟨spcTag, hparse, hpos⟩ := htimed
    have hlength := length_of_timed h hparse hpos
    refine ⟨fun hall => ⟨?_, spcTag, hparse, hpos⟩, fun hshort =>
      playsExactly_of_eq K h hshort.1 hlength⟩
    by_contra hlong
    refine not_playsExactly_long h ?_ (not_le.mp hlong) hall
    rw [hlength, announcedLength, hparse]
    simp only [if_pos hpos]
    exact hpos
  · obtain ⟨hplay, hlength⟩ := length_of_untimed h htimed
    rw [hlength]
    exact iff_of_false (not_playsExactly_untimed K h hlimit hplay (by norm_num))
      fun hshort => htimed hshort.2

end Lengths

theorem playsExactly_33s :
    ∃ r, init (tapeCore fun _ _ => 0) (songEnv (tagHeader 26 (ascii "033"))) {}
        (ascii "song.spc") = .ok (some r) ∧
      PlaysExactly (tapeCore fun _ _ => 0) r.ctx 268435456
        (announcedLength {} r.ctx.data) := by
  obtain ⟨spcTag, r, hparse, hplay, hr, -, hdata, hacc, -⟩ :=
    exists_songInit (n := 2112000) (tapeCore fun _ _ => 0) 26 (ascii "033") (by decide)
      (by decide +kernel)
  refine ⟨r, hr, (playsExactly_iff hr ((tapeContract fun _ _ => 0).playContract hacc)
    (by norm_num)).mpr ⟨le_rfl, spcTag, ?_, ?_⟩⟩
  · rw [hdata, hparse]
  · rw [hplay]
    decide

theorem playsExactly_untagged_fails :
    ∃ r, init (tapeCore fun _ _ => 0) (songEnv (tagHeader 27 (ascii "033"))) {}
        (ascii "song.spc") = .ok (some r) ∧
      Accepted r.ctx.data ∧ announcedLength {} r.ctx.data = 15360000 ∧
      (codec (tapeCore fun _ _ => 0)).outputs r.ctx [.readPCM 480, .readPCM 480] =
        [.pcm ⟨.success, some 480, List.replicate 240 0⟩, .pcm ⟨.eof, none, []⟩] ∧
      ¬ PlaysExactly (tapeCore fun _ _ => 0) r.ctx 268435456
        (announcedLength {} r.ctx.data) := by
  have hlen : (tagHeader 27 (ascii "033")).length = 0x100 := length_tagHeader 27 _ (by decide)
  have hrefused : Refused (tagHeader 27 (ascii "033")) := by decide +kernel
  have hparse : id666Parse {} (songFile (tagHeader 27 (ascii "033"))) = .ok none := by
    rw [id666Parse_songFile {} hlen, id666Parse_eq_none_iff]
    exact hrefused
  obtain ⟨r, hr, hctx, -⟩ := (OpenedFile.song hlen).init_eq (tapeCore fun _ _ => 0) hparse
  have hdata : r.ctx.data = songFile (tagHeader 27 (ascii "033")) := by rw [hctx]
  have hplay : r.ctx.tag.playLen.toInt = 240 := by
    rw [hctx]
    rfl
  have hacc : Accepted r.ctx.data := by
    rw [hdata]
    exact songFile_accepted 27 (by decide)
  have hlong : announcedLength {} r.ctx.data = 15360000 := by
    simp only [announcedLength, hdata, hparse]
    rfl
  refine ⟨r, hr, hacc, hlong, ?_, ?_⟩
  · have hadm : ∀ op ∈ [Op.readPCM 480, Op.readPCM 480], Admissible op := by decide
    rw [(tracks_of_run (tapeContract fun _ _ => 0) hr hacc hadm).1, hplay]
    change (player (fun _ => 0) 240).outputs 0 _ = _
    decide +kernel
  · rw [hlong]
    exact not_playsExactly_untimed ((tapeContract fun _ _ => 0).playContract hacc) hr
      (by norm_num) (by omega) (by norm_num)

end SnesApu
