import SnesApu.Opening
import SnesApu.Counts

/-!
# The length of a track in its three units

`Init` reports milliseconds, `ReadTag` seconds, and `Seek` turns milliseconds
back into ticks of 1/64000 s. The conversions agree as long as the product
`play_len * 1000` fits an `int`.
-/

namespace SnesApu

open General.Width

theorem ediv_ediv_64000 {x : ℤ} (h : 0 ≤ x) : (x.tdiv 32000).tdiv 2 = x / 64000 := by
  rw [Int.tdiv_eq_ediv_of_nonneg h, Int.tdiv_eq_ediv_of_nonneg (by omega)]
  omega

theorem toInt_div_32000_div_2 (x : Int32) : (x / 32000 / 2).toInt = (x.toInt.tdiv 32000).tdiv 2 := by
  rw [div_32_of_pos (by decide), div_32_of_pos (by decide)]
  rfl

theorem totaltime_toInt (playLen : Int32) :
    (totaltimeOf playLen).toInt = (((playLen * 1000).toInt).tdiv 32000).tdiv 2 := by
  rw [totaltimeOf, Int32.toInt_toInt64]
  exact toInt_div_32000_div_2 (playLen * 1000)

theorem totaltime_of_fits {playLen : Int32} (hnn : 0 ≤ playLen.toInt)
    (h : Fits 32 (playLen.toInt * 1000)) : (totaltimeOf playLen).toInt = playLen.toInt / 64 := by
  rw [totaltime_toInt, mul_32_of_fits h, ediv_ediv_64000]
  · change playLen.toInt * 1000 / 64000 = _
    omega
  · change 0 ≤ playLen.toInt * 1000
    omega

/-- Past 2147483 ticks the reported milliseconds are wrong, not only computed
through an overflow: the product wraps to a negative number, or its quotient is
beyond what a 32-bit product can reach. -/
theorem totaltime_eq_iff {playLen : Int32} (hnn : 0 ≤ playLen.toInt) :
    (totaltimeOf playLen).toInt = playLen.toInt / 64 ↔ playLen.toInt ≤ 2147483 := by
  constructor
  · intro h
    by_contra hlarge
    have hup := playLen.toInt_lt
    have hprod : (playLen * 1000).toInt = (playLen.toInt * 1000).bmod 4294967296 :=
      Int32.toInt_mul playLen 1000
    rw [totaltime_toInt, hprod] at h
    have hlow := Int.le_bmod (x := playLen.toInt * 1000) (m := 4294967296) (by norm_num)
    have hhigh := Int.bmod_lt (x := playLen.toInt * 1000) (m := 4294967296) (by norm_num)
    have hmod : (playLen.toInt * 1000).bmod 4294967296 =
        playLen.toInt * 1000 - 4294967296 * (playLen.toInt * 1000).bdiv 4294967296 := by
      have hdiv := Int.bmod_add_bdiv (playLen.toInt * 1000) 4294967296
      push_cast at hdiv
      omega
    generalize (playLen.toInt * 1000).bmod 4294967296 = b at *
    push_cast at hlow hhigh
    -- the quotient is not negative, so the wrapped product `b` is not either
    rcases lt_or_ge b 0 with hb | hb
    · have hneg : 0 ≤ ((-b).tdiv 32000).tdiv 2 :=
        Int.tdiv_nonneg (Int.tdiv_nonneg (by omega) (by norm_num)) (by norm_num)
      rw [Int.neg_tdiv, Int.neg_tdiv] at hneg
      omega
    · rw [ediv_ediv_64000 hb] at h
      omega
  · intro h
    exact totaltime_of_fits hnn (fits_32.mpr (by omega))

theorem numberFromName_duration (env : Environment) (toLoad : Bytes) (tag : InfoTag) :
    (numberFromName env toLoad tag).1.duration = tag.duration := by
  unfold numberFromName
  cases ownNumber (env.getFileName toLoad) with
  | error f => rfl
  | ok own =>
    dsimp only
    cases inferNumbers own (env.getDirectory (env.getDirectoryName toLoad) (ascii ".spc")) with
    | error f => simp
    | ok numbers => simp

theorem readTagFields_duration {env : Environment} {filename toLoad : Bytes} {spcTag : Id666}
    {tag : InfoTag} (h : isRSNBaseRead filename = false) :
    (readTagFields env filename toLoad spcTag tag).1.duration =
      some (spcTag.playLen / 32000 / 2).toInt := by
  have hset : (setFileTags env toLoad spcTag tag).1.duration =
      some (spcTag.playLen / 32000 / 2).toInt := by
    unfold setFileTags
    split_ifs with htrack
    · rfl
    · exact numberFromName_duration env toLoad (setFileFields tag spcTag)
  simp only [readTagFields, h, Bool.false_eq_true, if_false]
  cases hresult : (setFileTags env toLoad spcTag tag).2 with
  | error f => exact hset
  | ok u => exact hset

theorem readTagFields_base {env : Environment} {filename toLoad : Bytes} {spcTag : Id666}
    {tag : InfoTag} (h : isRSNBaseRead filename = true) :
    (readTagFields env filename toLoad spcTag tag).1.duration = tag.duration := by
  simp only [readTagFields, h, if_true, setAlbumFields]

/-- `ReadTag` finds a tag of the same whole seconds in what it reads of `data`. -/
def SameSeconds (data : Bytes) (spcTag : Id666) : Prop :=
  ∃ content read, tagContent data = some content ∧ id666Parse {} content = .ok (some read) ∧
    (read.playLen / 32000 / 2).toInt = spcTag.playLen.toInt / 64000

theorem sameSeconds_of_lt {data : Bytes} {spcTag : Id666} (hlen : data.length < 2147483648)
    (hparse : id666Parse {} data = .ok (some spcTag)) (hnn : 0 ≤ spcTag.playLen.toInt) :
    SameSeconds data spcTag := by
  refine ⟨data, spcTag, tagContent_of_lt hlen, hparse, ?_⟩
  rw [toInt_div_32000_div_2, ediv_ediv_64000 hnn]

/-- The three readers of a file's length agree: on milliseconds reported without
overflow, on seconds, and on where a seek to the reported end goes. -/
structure DurationsAgree {σ : Type} (core : SpcCore σ) (env : Environment) (filename : Bytes)
    (playLen : ℤ) (r : InitResult σ) : Prop where
  opened : init core env {} filename = .ok (some r)
  exact : Fits 32 (playLen * 1000)
  totaltime : r.info.totaltime.toInt = playLen / 64
  duration : (readTag env filename {}).1.duration = some (r.info.totaltime.toInt / 1000)
  seekEnd : ∀ ctx : SPCContext σ, (seek core ctx r.info.totaltime).1.pos.toInt ≤ playLen ∧
    playLen < (seek core ctx r.info.totaltime).1.pos.toInt + 64

section Agreement

variable {σ : Type} (core : SpcCore σ) {env : Environment} {filename data : Bytes} {spcTag : Id666}
  (src : OpenedFile env filename data)

include src

theorem readTag_duration_iff {seconds : ℤ} :
    (readTag env filename {}).1.duration = some seconds ↔
      isRSNBaseRead filename = false ∧ ∃ content read, tagContent data = some content ∧
        id666Parse {} content = .ok (some read) ∧ (read.playLen / 32000 / 2).toInt = seconds := by
  rw [src.readTag_eq]
  cases hcontent : tagContent data with
  | none => simp
  | some content =>
    rcases hparse : id666Parse {} content with f | _ | read
    · simp [hparse]
    · simp [hparse]
    · cases hbase : isRSNBaseRead filename with
      | true => simp [hparse, readTagFields_base hbase]
      | false => simp [hparse, readTagFields_duration hbase]

theorem exists_durationsAgree_iff (hparse : id666Parse {} data = .ok (some spcTag))
    (hnn : 0 ≤ spcTag.playLen.toInt) :
    (∃ r, DurationsAgree core env filename spcTag.playLen.toInt r) ↔
      spcTag.playLen.toInt ≤ 2147483 ∧ isRSNBaseRead filename = false ∧ SameSeconds data spcTag := by
  obtain ⟨r, hr, -, htime⟩ := src.init_eq core hparse
  have hseconds : spcTag.playLen.toInt / 64 / 1000 = spcTag.playLen.toInt / 64000 := by omega
  constructor
  · intro h
    obtain ⟨r', hagree⟩ := h
    have hsame : r' = r := by
      have heq := hagree.opened
      rw [hr] at heq
      exact (Option.some.inj (Except.ok.inj heq)).symm
    have htotal := hagree.totaltime
    have hduration := hagree.duration
    rw [htotal, hseconds] at hduration
    rw [hsame, htime] at htotal
    exact ⟨(totaltime_eq_iff hnn).mp htotal, (readTag_duration_iff src).mp hduration⟩
  · intro h
    obtain ⟨hle, hsame⟩ := h
    have htotal : r.info.totaltime.toInt = spcTag.playLen.toInt / 64 := by
      rw [htime]
      exact (totaltime_eq_iff hnn).mpr hle
    have htarget : (seekTarget r.info.totaltime).toInt = spcTag.playLen.toInt / 64 * 64 := by
      rw [seekTarget_toInt (fits_64.mpr (by omega)), htotal]
    refine ⟨r, hr, fits_32.mpr (by omega), htotal, ?_, fun ctx => ?_⟩
    · rw [htotal, hseconds]
      exact (readTag_duration_iff src).mpr hsame
    · rw [seek_pos, htarget]
      omega

/-- The conversions agree on a track exactly when its length in ticks times 1000
fits, and `ReadTag` reads a tag of the same length. -/
theorem durationsAgree_iff (hparse : id666Parse {} data = .ok (some spcTag))
    (hnn : 0 ≤ spcTag.playLen.toInt) :
    ((∃ r, DurationsAgree core env filename spcTag.playLen.toInt r) ↔
      spcTag.playLen.toInt ≤ 2147483 ∧ isRSNBaseRead filename = false ∧ SameSeconds data spcTag) ∧
    (data.length < 2147483648 →
      ((∃ r, DurationsAgree core env filename spcTag.playLen.toInt r) ↔
        spcTag.playLen.toInt ≤ 2147483 ∧ isRSNBaseRead filename = false)) := by
  have hiff := exists_durationsAgree_iff core src hparse hnn
  refine ⟨hiff, fun hlen => ?_⟩
  have hsame := sameSeconds_of_lt hlen hparse hnn
  rw [hiff]
  exact ⟨fun h => ⟨h.1, h.2.1⟩, fun h => ⟨h.1, h.2, hsame⟩⟩

end Agreement

theorem durationsAgree_33s :
    ∃ r, DurationsAgree (tapeCore fun _ _ => 0) (songEnv (tagHeader 26 (ascii "033")))
      (ascii "song.spc") 2112000 r := by
  have hlen : (tagHeader 26 (ascii "033")).length = 0x100 := length_tagHeader 26 _ (by decide)
  obtain ⟨spcTag, -, hparse, hplay, -⟩ :=
    exists_songInit (n := 2112000) (tapeCore fun _ _ => 0) 26 (ascii "033") (by decide)
      (by decide +kernel)
  have hint : spcTag.playLen.toInt = 2112000 := by rw [hplay]; decide
  have hshort : (songFile (tagHeader 26 (ascii "033"))).length < 2147483648 := by
    rw [length_songFile hlen, spcMinFileSize]
    norm_num
  rw [← hint]
  refine ((durationsAgree_iff (tapeCore fun _ _ => 0) (OpenedFile.song hlen) hparse ?_).2
    hshort).mpr ⟨?_, by decide⟩
  · omega
  · omega

/-- A text tag of 34 seconds: the milliseconds reported are negative. -/
theorem durationsAgree_34s_fails :
    ∃ spcTag r, id666Parse {} (songFile (tagHeader 26 (ascii "034"))) = .ok (some spcTag) ∧
      spcTag.playLen = 2176000 ∧
      init (tapeCore fun _ _ => 0) (songEnv (tagHeader 26 (ascii "034"))) {} (ascii "song.spc") =
        .ok (some r) ∧
      r.info.totaltime = -33108 ∧
      ¬ ∃ r, DurationsAgree (tapeCore fun _ _ => 0) (songEnv (tagHeader 26 (ascii "034")))
        (ascii "song.spc") spcTag.playLen.toInt r := by
  obtain ⟨spcTag, r, hparse, hplay, hr, -, -, -, htime⟩ := exists_songInit (n := 2176000)
    (tapeCore fun _ _ => 0) 26 (ascii "034") (by decide) (by decide +kernel)
  refine ⟨spcTag, r, hparse, hplay, hr, ?_, fun h => ?_⟩
  · rw [htime]
    decide
  · obtain ⟨r', hagree⟩ := h
    have hexact := hagree.exact
    rw [hplay] at hexact
    exact absurd hexact (by decide)

end SnesApu
