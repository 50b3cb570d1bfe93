import SnesApu.Opening

/-!
# Two runs on one directory

Each run reads its own name and everyone else's, in the mode its own name gives.
A file whose run sets numbers is read as a sibling the way it reads itself, so the
distinct keys of the scan separate the numbers of all runs.
-/

namespace SnesApu

open General General.KeyedScan

/-- `ReadTag` returns true having set the numbers: a disc total is set from names only. -/
structure SetsNumbers (env : Environment) (filename : Bytes) (numbers : Numbers) : Prop where
  returns : (readTag env filename {}).2 = .ok true
  track : (readTag env filename {}).1.track = some numbers.track
  disc : (readTag env filename {}).1.disc = some numbers.disc
  discTotal : (readTag env filename {}).1.discTotal = some numbers.discTotal

section Pair

variable {env env' : Environment} {filename filename' : Bytes}
  {run : UntrackedRun env filename} {run' : UntrackedRun env' filename'}
  {items items' : List DirEntry} {numbers numbers' : Numbers}

theorem SetsNumbers.inferred (run : UntrackedRun env filename)
    (h : SetsNumbers env filename numbers) :
    ∃ own, ownNumber run.fileName = .ok own ∧
      inferNumbers own run.listing = .ok (some numbers) := by
  have hret := h.returns
  cases hown : ownNumber run.fileName with
  | error f =>
    rw [run.readTag_of_ownNumber_error hown] at hret
    exact absurd hret (by simp)
  | ok own =>
    refine ⟨own, rfl, ?_⟩
    cases hinfer : inferNumbers own run.listing with
    | error f =>
      rw [run.readTag_of_ownNumber hown, hinfer] at hret
      exact absurd hret (by simp)
    | ok o =>
      obtain ⟨-, htrack, hdisc, htotal⟩ := run.readTag_numbers hown hinfer {}
      rw [h.track] at htrack
      rw [h.disc] at hdisc
      rw [h.discTotal] at htotal
      cases o with
      | none => exact absurd htotal (by simp)
      | some n =>
        have heq : numbers = n := by
          cases numbers
          cases n
          simp_all
        rw [heq]

theorem SetsNumbers.own_key (h : SetsNumbers env filename numbers)
    (hlisting : run.listing = some items) {entry : DirEntry} (hentry : entry ∈ files items)
    (hlabel : entry.label = run.fileName) :
    ∃ own, ownNumber entry.label = .ok own ∧ Clean (entryKey own.checkAtEnd) (files items) ∧
      entryKey own.checkAtEnd entry = .ok (some (own.section_, own.track)) ∧
      numbers = ⟨own.track.toInt,
        rank (sectionsOf (keys (entryKey own.checkAtEnd) (files items))) own.section_,
        (sectionsOf (keys (entryKey own.checkAtEnd) (files items))).card⟩ ∧
      own.section_ ∈ sectionsOf (keys (entryKey own.checkAtEnd) (files items)) := by
  obtain ⟨own, hown, hinfer⟩ := h.inferred run
  rw [hlisting] at hinfer
  obtain ⟨htrack, hclean, hnumbers⟩ := inferNumbers_eq_some hinfer
  obtain ⟨k, hk⟩ := Option.isSome_iff_exists.mp (hclean.1 entry hentry)
  have hkey : entryKey own.checkAtEnd entry = .ok (some (own.section_, own.track)) := by
    have hscan := keyOf_eq_some.mp hk
    rw [entryKey, hlabel] at hscan ⊢
    rw [hscan, scanLabel_own hown htrack hscan]
  have hmem : own.section_ ∈ sectionsOf (keys (entryKey own.checkAtEnd) (files items)) := by
    rw [sectionsOf, List.mem_toFinset, List.mem_map]
    exact ⟨(own.section_, own.track), mem_keys.mpr ⟨entry, hentry, hkey⟩, rfl⟩
  rw [hlabel]
  refine ⟨own, hown, hclean, hkey, ?_, hmem⟩
  rw [hnumbers, numbersAmong, discAmong, if_pos hmem]

theorem isDigit_of_clean (h : Clean (entryKey false) (files items)) {entry : DirEntry}
    (hentry : entry ∈ files items) : isDigit (entry.label.headD 0) := by
  obtain ⟨k, hk⟩ := Option.isSome_iff_exists.mp (h.1 entry hentry)
  have hscan := keyOf_eq_some.mp hk
  simp only [entryKey, scanLabel, Bool.not_false, if_true] at hscan
  split_ifs at hscan with hd
  · exact absurd (Except.ok.inj hscan) (by simp)
  · simpa using hd

theorem mode_eq {own own' : OwnNumber} {f g : DirEntry}
    (hown : ownNumber f.label = .ok own) (hown' : ownNumber g.label = .ok own')
    (hf : f ∈ files items) (hg : g ∈ files items)
    (hclean : Clean (entryKey own.checkAtEnd) (files items))
    (hclean' : Clean (entryKey own'.checkAtEnd) (files items)) :
    own.checkAtEnd = own'.checkAtEnd := by
  have hmode := checkAtEnd_eq hown
  have hmode' := checkAtEnd_eq hown'
  cases hend : own.checkAtEnd with
  | false =>
    rw [hend] at hclean
    rw [hmode', isDigit_of_clean hclean hg]
    rfl
  | true =>
    cases hend' : own'.checkAtEnd with
    | false =>
      rw [hend'] at hclean'
      rw [hend, isDigit_of_clean hclean' hf] at hmode
      exact absurd hmode (by decide)
    | true => rfl

/-- Two files of a listing that both get their numbers from it get the same total,
discs within it, and different pairs of disc and track. -/
theorem numbers_collision_free (h : SetsNumbers env filename numbers)
    (h' : SetsNumbers env' filename' numbers') (hlisting : run.listing = some items)
    (hlisting' : run'.listing = some items) {f g : DirEntry} (hf : f ∈ files items)
    (hg : g ∈ files items) (hne : f ≠ g) (hfl : f.label = run.fileName)
    (hgl : g.label = run'.fileName) :
    numbers.discTotal = numbers'.discTotal ∧
      (1 ≤ numbers.disc ∧ numbers.disc ≤ numbers.discTotal) ∧
      (1 ≤ numbers'.disc ∧ numbers'.disc ≤ numbers'.discTotal) ∧
      (numbers.disc, numbers.track) ≠ (numbers'.disc, numbers'.track) := by
  obtain ⟨own, hown, hclean, hkey, hnum, hmem⟩ := h.own_key hlisting hf hfl
  obtain ⟨own', hown', hclean', hkey', hnum', hmem'⟩ := h'.own_key hlisting' hg hgl
  have hmode := mode_eq hown hown' hf hg hclean hclean'
  rw [← hmode] at hkey' hnum' hmem'
  subst hnum hnum'
  refine ⟨rfl, ⟨?_, ?_⟩, ⟨?_, ?_⟩, fun heq => ?_⟩
  · exact Nat.one_le_cast.mpr (one_le_rank _ _)
  · exact Nat.cast_le.mpr (rank_le_card hmem)
  · exact Nat.one_le_cast.mpr (one_le_rank _ _)
  · exact Nat.cast_le.mpr (rank_le_card hmem')
  · simp only [Prod.mk.injEq, Nat.cast_inj] at heq
    have hsection : own.section_ = own'.section_ := rank_injOn _ hmem hmem' heq.1
    have htrack : own.track = own'.track := Int8.toInt_inj.mp heq.2
    rw [← hsection, ← htrack] at hkey'
    exact hne (hclean.key_inj hf hg hkey hkey')

theorem files_perm (hp : items.Perm items') : (files items).Perm (files items') := hp.filter _

theorem Readable.perm {checkAtEnd : Bool} (h : Readable checkAtEnd items)
    (hp : items.Perm items') : Readable checkAtEnd items' :=
  fun entry hentry => h entry ((files_perm hp).mem_iff.mpr hentry)

theorem sectionsOf_perm {seen seen' : List (Int8 × Int8)} (hp : seen.Perm seen') :
    sectionsOf seen = sectionsOf seen' :=
  List.toFinset_eq_of_perm _ _ (hp.map Prod.fst)

theorem numbersOf_perm (own : OwnNumber) (hp : items.Perm items') :
    numbersOf own items = numbersOf own items' := by
  have hfiles := files_perm hp
  have hsections : sectionsOf (keys (entryKey own.checkAtEnd) (files items)) =
      sectionsOf (keys (entryKey own.checkAtEnd) (files items')) :=
    sectionsOf_perm (keys_perm hfiles)
  simp only [numbersOf, hsections, clean_perm_iff hfiles, hp.length_eq]

/-- Two runs on one file whose listings are permutations of each other decide and
set the same. -/
theorem readTag_listing_perm (hname : run.fileName = run'.fileName)
    (htag : run.spcTag = run'.spcTag) (hlisting : run.listing = some items)
    (hlisting' : run'.listing = some items') (hp : items.Perm items')
    (hread : Readable (!isDigit (run.fileName.headD 0)) items) (tag : InfoTag) :
    (∀ own, ownNumber run.fileName = .ok own →
        inferNumbers own run.listing = inferNumbers own run'.listing) ∧
      (readTag env filename tag).2 = (readTag env' filename' tag).2 ∧
      (readTag env filename tag).1.track = (readTag env' filename' tag).1.track ∧
      (readTag env filename tag).1.disc = (readTag env' filename' tag).1.disc ∧
      (readTag env filename tag).1.discTotal = (readTag env' filename' tag).1.discTotal := by
  have hinfer : ∀ own, ownNumber run.fileName = .ok own →
      inferNumbers own run.listing = .ok (numbersOf own items) ∧
        inferNumbers own run'.listing = .ok (numbersOf own items) := by
    intro own hown
    rw [← checkAtEnd_eq hown] at hread
    rw [hlisting, hlisting', inferNumbers_eq hread, inferNumbers_eq (hread.perm hp),
      numbersOf_perm own hp]
    exact ⟨rfl, rfl⟩
  refine ⟨fun own hown => ?_, ?_⟩
  · rw [(hinfer own hown).1, (hinfer own hown).2]
  · cases hown : ownNumber run.fileName with
    | error f =>
      rw [run.readTag_of_ownNumber_error hown, run'.readTag_of_ownNumber_error (hname ▸ hown), htag]
      exact ⟨rfl, rfl, rfl, rfl⟩
    | ok own =>
      obtain ⟨hleft, hright⟩ := hinfer own hown
      obtain ⟨hret, htrack, hdisc, htotal⟩ := run.readTag_numbers hown hleft tag
      obtain ⟨hret', htrack', hdisc', htotal'⟩ := run'.readTag_numbers (hname ▸ hown) hright tag
      rw [hret, htrack, hdisc, htotal, hret', htrack', hdisc', htotal', htag]
      exact ⟨rfl, rfl, rfl, rfl⟩

end Pair

theorem numbers_collision_free_two :
    ∃ numbers numbers',
      SetsNumbers (taggedEnv (twoFiles "01.spc" "02.spc")) (ascii "01.spc") numbers ∧
      SetsNumbers (taggedEnv (twoFiles "01.spc" "02.spc")) (ascii "02.spc") numbers' ∧
      (numbers.disc, numbers.track) ≠ (numbers'.disc, numbers'.track) := by
  obtain ⟨run, hname, hlisting, -⟩ := exists_untrackedRun (twoFiles "01.spc" "02.spc")
    (ascii "01.spc") (by decide) (by decide)
  obtain ⟨run', hname', hlisting', -⟩ := exists_untrackedRun (twoFiles "01.spc" "02.spc")
    (ascii "02.spc") (by decide) (by decide)
  have h : SetsNumbers (taggedEnv (twoFiles "01.spc" "02.spc")) (ascii "01.spc") ⟨1, 1, 1⟩ :=
    ⟨by decide +kernel, by decide +kernel, by decide +kernel, by decide +kernel⟩
  have h' : SetsNumbers (taggedEnv (twoFiles "01.spc" "02.spc")) (ascii "02.spc") ⟨2, 1, 1⟩ :=
    ⟨by decide +kernel, by decide +kernel, by decide +kernel, by decide +kernel⟩
  have hfree := numbers_collision_free (f := ⟨ascii "01.spc", [], false⟩)
    (g := ⟨ascii "02.spc", [], false⟩) h h' hlisting hlisting' (by decide) (by decide) (by decide)
    hname.symm hname'.symm
  exact ⟨_, _, h, h', hfree.2.2.2⟩

theorem readTag_listing_perm_two :
    (readTag (taggedEnv (twoFiles "01.spc" "02.spc")) (ascii "01.spc") {}).1.track =
      (readTag (taggedEnv (twoFiles "02.spc" "01.spc")) (ascii "01.spc") {}).1.track := by
  obtain ⟨run, hname, hlisting, hdata⟩ := exists_untrackedRun (twoFiles "01.spc" "02.spc")
    (ascii "01.spc") (by decide) (by decide)
  obtain ⟨run', hname', hlisting', hdata'⟩ := exists_untrackedRun (twoFiles "02.spc" "01.spc")
    (ascii "01.spc") (by decide) (by decide)
  have htag : run.spcTag = run'.spcTag := by
    have hparsed := run.parsed
    rw [hdata, ← hdata', run'.parsed] at hparsed
    exact (Option.some.inj (Except.ok.inj hparsed)).symm
  have hread : Readable (!isDigit (run.fileName.headD 0)) (twoFiles "01.spc" "02.spc") := by
    rw [hname]
    exact readable_start (twoFiles "01.spc" "02.spc")
  exact (readTag_listing_perm (hname.trans hname'.symm) htag hlisting hlisting'
    (List.Perm.swap _ _ _) hread {}).2.2.1

end SnesApu
