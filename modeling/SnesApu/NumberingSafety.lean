import SnesApu.Opening

/-!
# Where the numbering leaves a name

A name that is read from its end has to have a character before its last
non-digit. `last_index - 1` wraps where it has none, and the `substr` throws.
-/

namespace SnesApu

open General.KeyedScan

def SpcName (name : Bytes) : Prop := endsWith name (ascii ".spc") = true

theorem SpcName.length {name : Bytes} (h : SpcName name) : 4 ≤ name.length := by
  have hsuffix : ascii ".spc" <:+ name := List.isSuffixOf_iff_suffix.mp h
  exact hsuffix.length_le

/-- `ReadTag` returns true, and every field it always sets is set. -/
def Completes (env : Environment) (filename : Bytes) (spcTag : Id666) : Prop :=
  ∃ disc track discTotal genre, readTag env filename {} =
    ({ setAlbumFields (setFileFields {} spcTag) spcTag with
        disc := some disc, track := some track, discTotal := discTotal, genre := genre }, .ok true)

/-- The scan gets to a label that it reads from its end and that has nothing before
its last non-digit. -/
def MeetsLoneMark (own : OwnNumber) (listing : Option (List DirEntry)) : Prop :=
  own.checkAtEnd = true ∧ 0 < own.track ∧ ∃ items, listing = some items ∧ 1 < items.length ∧
    ∃ pre entry post, files items = pre ++ entry :: post ∧ LoneMark entry.label ∧
      Clean (entryKey true) pre

section Names

variable {name : Bytes} {f : Fault}

theorem ownNumber_eq_error_iff (h : 4 ≤ name.length) :
    ownNumber name = .error f ↔ ¬ isDigit (name.headD 0) ∧ LoneMark name ∧ f = .outOfRange := by
  rw [← tailNumber_eq_error_iff h]
  cases hd : isDigit (name.headD 0) with
  | true => simp [ownNumber_start hd]
  | false =>
    rw [ownNumber_end hd]
    cases tailNumber name <;> simp [Except.map]

theorem scanLabel_eq_error_iff {checkAtEnd : Bool} (h : 4 ≤ name.length) :
    scanLabel checkAtEnd name = .error f ↔
      checkAtEnd = true ∧ LoneMark name ∧ f = .outOfRange := by
  rw [← tailNumber_eq_error_iff h]
  cases checkAtEnd with
  | false =>
    simp only [scanLabel, Bool.not_false, if_true, Bool.false_eq_true, false_and, iff_false]
    split_ifs <;> simp
  | true =>
    simp only [scanLabel, Bool.not_true, Bool.false_eq_true, if_false, true_and, bind]
    rcases tailNumber name with g | ⟨s, _ | t⟩
    · simp [Except.bind]
    · simp only [Except.bind, pure, Except.pure]
      split_ifs <;> simp
    · simp only [Except.bind, pure, Except.pure]
      split_ifs <;> simp

end Names

theorem inferNumbers_throws_iff {own : OwnNumber} {listing : Option (List DirEntry)}
    (hlabels : ∀ items, listing = some items → ∀ entry ∈ files items, SpcName entry.label) :
    (∃ f, inferNumbers own listing = .error f) ↔ MeetsLoneMark own listing := by
  cases listing with
  | none =>
    refine iff_of_false ?_ ?_
    · intro h
      obtain ⟨f, hf⟩ := h
      simp only [inferNumbers] at hf
      split_ifs at hf
    · intro h
      obtain ⟨-, -, items, hitems, -⟩ := h
      exact absurd hitems (by simp)
  | some items =>
    have hnames := hlabels items rfl
    constructor
    · intro h
      obtain ⟨f, hf⟩ := h
      obtain ⟨htrack, hlen, pre, entry, post, hsplit, hkey, hclean⟩ := inferNumbers_eq_error_iff.mp hf
      have hentry : entry ∈ files items := by simp [hsplit]
      obtain ⟨hend, hlone, -⟩ := (scanLabel_eq_error_iff (hnames entry hentry).length).mp hkey
      rw [hend] at hclean
      exact ⟨hend, htrack, items, rfl, hlen, pre, entry, post, hsplit, hlone, hclean⟩
    · intro h
      obtain ⟨hend, htrack, items', hitems, hlen, pre, entry, post, hsplit, hlone, hclean⟩ := h
      obtain rfl : items = items' := Option.some.inj hitems
      have hentry : entry ∈ files items := by simp [hsplit]
      refine ⟨.outOfRange, inferNumbers_eq_error_iff.mpr
        ⟨htrack, hlen, pre, entry, post, hsplit, ?_, ?_⟩⟩
      · exact (scanLabel_eq_error_iff (hnames entry hentry).length).mpr ⟨hend, hlone, rfl⟩
      · rw [hend]
        exact hclean

theorem setFields_complete (env : Environment) (own : OwnNumber) (numbers : Option Numbers)
    (spcTag : Id666) :
    ∃ disc track discTotal genre,
      setAlbumFields (setNumbers numbers (setGenreOf env own (setFileFields {} spcTag))) spcTag =
        { setAlbumFields (setFileFields {} spcTag) spcTag with
          disc := some disc, track := some track, discTotal := discTotal, genre := genre } := by
  rcases hmark : own.mark with _ | mark <;> rcases numbers with _ | n <;>
    simp only [setGenreOf, hmark, setNumbers]
  · exact ⟨_, _, _, _, rfl⟩
  · exact ⟨_, _, _, _, rfl⟩
  · exact ⟨_, _, _, _, rfl⟩
  · exact ⟨_, _, _, _, rfl⟩

/-- `ReadTag` completes exactly when neither the name of the file nor a label that
the scan gets to is read from its end with nothing before its last non-digit. -/
theorem readTag_completes_iff {env : Environment} {filename : Bytes}
    (run : UntrackedRun env filename) (hname : SpcName run.fileName)
    (hlabels : ∀ items, run.listing = some items → ∀ entry ∈ items, SpcName entry.label) :
    Completes env filename run.spcTag ↔
      ¬ (¬ isDigit (run.fileName.headD 0) ∧ LoneMark run.fileName) ∧
        ∀ own, ownNumber run.fileName = .ok own → ¬ MeetsLoneMark own run.listing := by
  have hfiles : ∀ items, run.listing = some items → ∀ entry ∈ files items, SpcName entry.label :=
    fun items hitems entry hentry => hlabels items hitems entry (List.mem_filter.mp hentry).1
  cases hown : ownNumber run.fileName with
  | error f =>
    obtain ⟨hd, hlone, -⟩ := (ownNumber_eq_error_iff hname.length).mp hown
    refine iff_of_false ?_ (fun h => h.1 ⟨hd, hlone⟩)
    intro h
    obtain ⟨disc, track, discTotal, genre, hcall⟩ := h
    rw [run.readTag_of_ownNumber_error hown] at hcall
    exact absurd (congrArg Prod.snd hcall) (by simp)
  | ok own =>
    have hsafe : ¬ (¬ isDigit (run.fileName.headD 0) ∧ LoneMark run.fileName) := by
      intro h
      rw [(ownNumber_eq_error_iff hname.length).mpr ⟨h.1, h.2, rfl⟩] at hown
      exact absurd hown (by simp)
    have hthrows : (∃ f, inferNumbers own run.listing = .error f) ↔
        MeetsLoneMark own run.listing := inferNumbers_throws_iff hfiles
    simp only [Except.ok.injEq, forall_eq', hsafe, not_false_eq_true, true_and, ← hthrows]
    unfold Completes
    rw [run.readTag_of_ownNumber hown]
    cases hinfer : inferNumbers own run.listing with
    | error f => simp
    | ok numbers =>
      refine iff_of_true ?_ (by simp)
      obtain ⟨disc, track, discTotal, genre, hfields⟩ :=
        setFields_complete env own numbers run.spcTag
      exact ⟨disc, track, discTotal, genre, Prod.ext hfields rfl⟩

/-- Both names are read from their ends. -/
theorem readTag_completes_numbered :
    ∃ run : UntrackedRun (taggedEnv (twoFiles "smw01.spc" "smw02.spc")) (ascii "smw01.spc"),
      Completes (taggedEnv (twoFiles "smw01.spc" "smw02.spc")) (ascii "smw01.spc") run.spcTag := by
  obtain ⟨run, hname, hlisting, -⟩ := exists_untrackedRun
    (twoFiles "smw01.spc" "smw02.spc") (ascii "smw01.spc") (by decide) (by decide)
  have hspc : SpcName run.fileName := by
    rw [hname]
    exact (by decide : endsWith (ascii "smw01.spc") (ascii ".spc") = true)
  have hlabels : ∀ items, run.listing = some items → ∀ entry ∈ items, SpcName entry.label := by
    intro items hitems
    rw [hlisting] at hitems
    rw [← Option.some.inj hitems]
    unfold SpcName
    decide
  have hmarks : ∀ entry ∈ files (twoFiles "smw01.spc" "smw02.spc"), ¬ LoneMark entry.label := by
    decide
  refine ⟨run, (readTag_completes_iff run hspc hlabels).mpr ⟨?_, ?_⟩⟩
  · rw [hname]
    decide
  · rintro own - ⟨-, -, items, hitems, -, pre, entry, post, hsplit, hlone, -⟩
    rw [hlisting] at hitems
    obtain rfl := Option.some.inj hitems
    exact hmarks entry (by rw [hsplit]; simp) hlone

theorem readTag_completes_lone_fails :
    ∃ run : UntrackedRun (taggedEnv []) (ascii "a.spc"),
      SpcName run.fileName ∧ run.listing = some [] ∧
      (readTag (taggedEnv []) (ascii "a.spc") {}).2 = .error .outOfRange ∧
      ¬ Completes (taggedEnv []) (ascii "a.spc") run.spcTag := by
  obtain ⟨run, hname, hlisting, -⟩ := exists_untrackedRun [] (ascii "a.spc") (by decide) (by decide)
  have hown : ownNumber run.fileName = .error .outOfRange := by
    rw [hname]
    decide
  have hcall := run.readTag_of_ownNumber_error hown {}
  refine ⟨run, ?_, hlisting, by rw [hcall], fun h => ?_⟩
  · rw [hname]
    exact (by decide : endsWith (ascii "a.spc") (ascii ".spc") = true)
  · obtain ⟨disc, track, discTotal, genre, hdone⟩ := h
    rw [hcall] at hdone
    exact absurd (congrArg Prod.snd hdone) (by simp)

end SnesApu
