import SnesApu.Opening

/-!
# What a successful Init says about the emulator

`Init` ignores how much was read and whether the emulator took it; once a file is
open it never returns false.
-/

namespace SnesApu

def Loadable (env : Environment) (filename content : Bytes) : Prop :=
  ∃ toLoad file, initTarget env filename = .ok (some toLoad) ∧ env.openFile toLoad = some file ∧
    file.AllRead ∧ file.read file.getLength.toInt.toNat = content ∧ Accepted content

def NothingOpened (env : Environment) (filename : Bytes) : Prop :=
  initTarget env filename = .ok none ∨
    ∃ toLoad, initTarget env filename = .ok (some toLoad) ∧ env.openFile toLoad = none

/-- `Init` returns true only with the whole file loaded, and false otherwise. -/
structure InitGuarded {σ : Type} (core : SpcCore σ) (env : Environment) (tag : Id666)
    (filename : Bytes) : Prop where
  loaded : ∀ r, init core env tag filename = .ok (some r) →
    ∃ content, Loadable env filename content ∧ r.ctx.data = content ∧
      r.ctx.song = core.loadState core.spcNew content
  refused : (¬ ∃ content, Loadable env filename content) → init core env tag filename = .ok none

section Guard

variable {σ : Type} {core : SpcCore σ} {env : Environment} {tag : Id666} {filename : Bytes}

theorem spcLoadSpc_of_accepted {data : Bytes} (h : Accepted data) (s : σ) :
    spcLoadSpc core s data = core.loadState s data := by
  simp only [spcLoadSpc, show loadError data = none from h]

theorem spcLoadSpc_of_not_accepted {data : Bytes} (h : ¬ Accepted data) (s : σ) :
    spcLoadSpc core s data = s := by
  unfold spcLoadSpc
  cases herr : loadError data with
  | none => exact absurd herr h
  | some text => rfl

theorem init_eq_false_iff : init core env tag filename = .ok none ↔ NothingOpened env filename := by
  rcases htarget : initTarget env filename with f | _ | toLoad
  · simp [init, NothingOpened, htarget, bind, Except.bind]
  · simp [init, NothingOpened, htarget, bind, Except.bind, pure, Except.pure]
  · cases hopen : env.openFile toLoad with
    | none => simp [init, NothingOpened, htarget, hopen, bind, Except.bind, pure, Except.pure]
    | some file =>
      refine iff_of_false ?_ ?_
      · rw [init_of_target htarget hopen]
        cases initFile core env tag toLoad file <;> simp [Except.map]
      · simp [NothingOpened, htarget, hopen]

theorem loaded_of_loadable {content : Bytes} (h : Loadable env filename content)
    {r : InitResult σ} (hr : init core env tag filename = .ok (some r)) :
    r.ctx.data = content ∧ r.ctx.song = core.loadState core.spcNew content := by
  obtain ⟨toLoad, file, htarget, hopen, hread, hcontent, hacc⟩ := h
  rw [init_of_target htarget hopen] at hr
  cases hfile : initFile core env tag toLoad file with
  | error f => simp [hfile, Except.map] at hr
  | ok r' =>
    have hsame : r' = r := by simpa [hfile, Except.map] using hr
    obtain ⟨data, parsed, hdata, -, hctx⟩ := initFile_cases hfile
    rw [readBuffer_of_full hread.1 hread.2, hcontent] at hdata
    have hbytes : data = content := (Except.ok.inj hdata).symm
    rw [← hsame, hctx, hbytes]
    exact ⟨rfl, spcLoadSpc_of_accepted hacc core.spcNew⟩

theorem exists_parsed_of_short (tag : Id666) {data : Bytes} (h : data.length ≤ 0x10200) :
    ∃ parsed, id666Parse tag data = .ok parsed := by
  have hext : loadExtended (loadHeader tag data) data = .ok (loadHeader tag data) := by
    rw [loadExtended, if_neg (by omega)]
  rw [id666Parse_eq, hext]
  by_cases hrefused : Refused data
  · rw [if_pos hrefused]
    exact ⟨none, rfl⟩
  · rw [if_neg hrefused]
    exact ⟨_, rfl⟩

variable (core tag) in
theorem init_of_short {data : Bytes} (src : OpenedFile env filename data)
    (h : data.length < spcMinFileSize) :
    ∃ r, init core env tag filename = .ok (some r) ∧ r.ctx.data = data ∧
      r.ctx.song = core.spcNew := by
  have hreject : ¬ Accepted data := fun hacc => absurd (accepted_iff.mp hacc).2 (not_le.mpr h)
  unfold spcMinFileSize at h
  obtain ⟨parsed, hparse⟩ := exists_parsed_of_short tag (show data.length ≤ 0x10200 by omega)
  obtain ⟨r, hr, hctx, -⟩ := src.init_eq core hparse
  refine ⟨r, hr, ?_⟩
  rw [hctx]
  exact ⟨rfl, spcLoadSpc_of_not_accepted hreject core.spcNew⟩

variable (core env tag filename) in
/-- The guard holds exactly where no file is opened, or one that loads whole; and
`Init` does not refuse a short file that `ReadTag` accepts. -/
theorem initGuarded_iff :
    (InitGuarded core env tag filename ↔
      NothingOpened env filename ∨ ∃ content, Loadable env filename content) ∧
    ∀ data, Nonempty (OpenedFile env filename data) → data.length < spcMinFileSize →
      (readTag env filename {}).2 = .ok true → init core env tag filename ≠ .ok none := by
  refine ⟨⟨fun h => ?_, fun h => ?_⟩, fun data hsrc hlen _ => ?_⟩
  · by_cases hload : ∃ content, Loadable env filename content
    · exact .inr hload
    · exact .inl (init_eq_false_iff.mp (h.refused hload))
  · rcases h with hnone | hload
    · have hfalse : init core env tag filename = .ok none := init_eq_false_iff.mpr hnone
      refine ⟨fun r hr => ?_, fun _ => hfalse⟩
      rw [hfalse] at hr
      exact absurd hr (by simp)
    · obtain ⟨content, hcontent⟩ := hload
      refine ⟨fun r hr => ⟨content, hcontent, loaded_of_loadable hcontent hr⟩, fun hnot => ?_⟩
      exact absurd ⟨content, hcontent⟩ hnot
  · obtain ⟨src⟩ := hsrc
    obtain ⟨r, hr, -, -⟩ := init_of_short core tag src hlen
    rw [hr]
    simp

end Guard

theorem initGuarded_song :
    InitGuarded (tapeCore fun _ _ => 0) (songEnv (tagHeader 26 (ascii "033"))) {}
      (ascii "song.spc") := by
  have hlen : (tagHeader 26 (ascii "033")).length = 0x100 := length_tagHeader 26 _ (by decide)
  have src := OpenedFile.song hlen
  refine (initGuarded_iff _ _ _ _).1.mpr (.inr ⟨_, src.toLoad, src.file, src.initTarget_eq,
    src.opened, src.delivers.allRead, rfl, ?_⟩)
  rw [src.delivers.read, src.delivers.length, Int.toNat_natCast, List.take_length]
  exact songFile_accepted 26 (by decide)

/-- A header on its own: `ReadTag` accepts it, and `Init` returns true with the
emulator as it was created. -/
theorem initGuarded_short_fails :
    ∃ r, init (tapeCore fun _ _ => 0) (Environment.ofFile (.ofBytes (tagHeader 26 (ascii "033"))) [])
        {} (ascii "song.spc") = .ok (some r) ∧
      r.ctx.song = (tapeCore fun _ _ => 0).spcNew ∧ ¬ Accepted r.ctx.data ∧
      (readTag (Environment.ofFile (.ofBytes (tagHeader 26 (ascii "033"))) [])
        (ascii "song.spc") {}).2 = .ok true ∧
      ¬ InitGuarded (tapeCore fun _ _ => 0)
        (Environment.ofFile (.ofBytes (tagHeader 26 (ascii "033"))) []) {} (ascii "song.spc") := by
  have hlen : (tagHeader 26 (ascii "033")).length = 0x100 := length_tagHeader 26 _ (by decide)
  have hshort : (tagHeader 26 (ascii "033")).length < spcMinFileSize := by
    rw [hlen, spcMinFileSize]
    norm_num
  have src : OpenedFile (Environment.ofFile (.ofBytes (tagHeader 26 (ascii "033"))) [])
      (ascii "song.spc") (tagHeader 26 (ascii "033")) :=
    OpenedFile.ofBytes [] (by rw [hlen]; norm_num) (by decide) (by decide)
  obtain ⟨r, hr, hdata, hsong⟩ := init_of_short (tapeCore fun _ _ => 0) {} src hshort
  have hreject : ¬ Accepted r.ctx.data := by
    rw [hdata]
    exact fun hacc => absurd (accepted_iff.mp hacc).2 (not_le.mpr hshort)
  refine ⟨r, hr, hsong, hreject, by decide +kernel, fun hguard => ?_⟩
  obtain ⟨content, hload, hcontent, -⟩ := hguard.loaded r hr
  obtain ⟨-, -, -, -, -, -, hacc⟩ := hload
  rw [hcontent] at hreject
  exact hreject hacc

end SnesApu
