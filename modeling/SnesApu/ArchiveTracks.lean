import SnesApu.Opening

/-!
# Selecting a track of an archive

`Init` and `ReadTag` take the entry at the number of a virtual name less one,
without comparing it with the size of the listing. A failed listing makes `Init`
return false, while `ReadTag` goes on with the archive itself.
-/

namespace SnesApu

/-- Kodi's part for an archive: the number of a virtual name, and one listing for
both spellings of its URL. -/
structure ArchiveNames (env : Environment) (archive filename : Bytes) (k : Int32)
    (listing : Option (List DirEntry)) : Prop where
  isArchive : isRSNBaseRead archive = true
  archiveTrack : env.getTrack (ascii "spc") archive = (archive, 0)
  isVirtual : isVirtualTrack env filename = true
  virtualTrack : env.getTrack (ascii "spc") filename = (archive, k)
  one_le : 1 ≤ k.toInt
  listed : env.getDirectory (rarUrl env archive ++ ascii "/") (ascii ".spc") = listing
  counted : env.getDirectory (rarUrl env archive) (ascii ".spc") = listing

def selected (k : Int32) (listing : Option (List DirEntry)) : Option DirEntry :=
  listing.bind fun items => items[k.toInt.toNat - 1]?

def InitSelects {σ : Type} (core : SpcCore σ) (env : Environment) (tag : Id666)
    (filename : Bytes) : Option DirEntry → Prop
  | some entry => initTarget env filename = .ok (some entry.path)
  | none => init core env tag filename = .ok none

def TagSelects (env : Environment) (filename : Bytes) : Option DirEntry → Prop
  | some entry => readTagTarget env filename = .ok entry.path
  | none => (readTag env filename {}).2 = .ok false

def Counted (env : Environment) (archive : Bytes) (listing : Option (List DirEntry)) : Prop :=
  ∀ items, listing = some items → (trackCount env archive).toInt = items.length

def Covers (k : Int32) (listing : Option (List DirEntry)) : Prop :=
  ∀ items, listing = some items → k.toInt ≤ items.length

/-- `ReadTag` does not get past the parse of the file at `path`. -/
def TagRefused (env : Environment) (path : Bytes) : Prop :=
  ∀ file, env.openFile path = some file →
    ∃ data, readBuffer env file file.getLength.toInt32.toInt64 = .ok data ∧ Refused data

theorem readTagFields_ne_false {env : Environment} {filename toLoad : Bytes} {spcTag : Id666}
    {tag : InfoTag} : (readTagFields env filename toLoad spcTag tag).2 ≠ .ok false := by
  simp only [readTagFields]
  generalize (if isRSNBaseRead filename then (tag, Except.ok ())
    else setFileTags env toLoad spcTag tag) = fields
  rcases fields with ⟨tag', f | u⟩ <;> simp

theorem readTag_eq_false_iff {env : Environment} {filename toLoad : Bytes} {tag : InfoTag}
    (h : readTagTarget env filename = .ok toLoad) :
    (readTag env filename tag).2 = .ok false ↔ TagRefused env toLoad := by
  simp only [readTag, h, TagRefused]
  cases hopen : env.openFile toLoad with
  | none => simp
  | some file =>
    cases hread : readBuffer env file file.getLength.toInt32.toInt64 with
    | error f => simp [hread]
    | ok data =>
      rcases hparse : id666Parse {} data with f | _ | spcTag
      · have hnot : ¬ Refused data := fun hr => by simp [hr.parse {}] at hparse
        simp [hread, hparse, hnot]
      · have hrefused : Refused data := id666Parse_eq_none_iff.mp hparse
        simp [hread, hparse, hrefused]
      · have hnot : ¬ Refused data := fun hr => by simp [hr.parse {}] at hparse
        simp [hread, hparse, hnot, readTagFields_ne_false]

namespace ArchiveNames

variable {σ : Type} {core : SpcCore σ} {env : Environment} {tag : Id666}
  {archive filename : Bytes} {k : Int32} {items : List DirEntry}

theorem getTrackNumber_eq {listing : Option (List DirEntry)}
    (h : ArchiveNames env archive filename k listing) :
    getTrackNumber env filename = (archive, k - 1) := by
  have hpos : 0 < k := Int32.lt_iff_toInt_lt.mpr (by
    have hk := h.one_le
    rw [Int32.toInt_zero]
    omega)
  simp only [getTrackNumber, h.virtualTrack, if_pos hpos]

theorem index_toInt {listing : Option (List DirEntry)}
    (h : ArchiveNames env archive filename k listing) : (k - 1).toInt = k.toInt - 1 := by
  have hk := h.one_le
  have hmax := k.toInt_lt
  rw [Int32.toInt_sub, show (1 : Int32).toInt = 1 from rfl]
  exact Int.bmod_eq_of_le (by omega) (by omega)

theorem pickEntry_cases (h : ArchiveNames env archive filename k (some items)) :
    (∃ entry, selected k (some items) = some entry ∧ pickEntry items (k - 1) = .ok entry.path ∧
        Covers k (some items)) ∨
      (selected k (some items) = none ∧
        pickEntry items (k - 1) = .error .undefinedBehaviour ∧ ¬ Covers k (some items)) := by
  have hk := h.one_le
  have hindex := h.index_toInt
  have hnat : (k - 1).toInt.toNat = k.toInt.toNat - 1 := by omega
  have hpick : pickEntry items (k - 1) = entryPath items[k.toInt.toNat - 1]? := by
    rw [pickEntry_of_nonneg items (by omega), hnat]
  simp only [selected, Option.bind_some, hpick, Covers, Option.some.injEq, forall_eq']
  cases hentry : items[k.toInt.toNat - 1]? with
  | some entry =>
    have hin := (List.getElem?_eq_some_iff.mp hentry).1
    exact .inl ⟨entry, rfl, rfl, by omega⟩
  | none =>
    have hout := List.getElem?_eq_none_iff.mp hentry
    exact .inr ⟨rfl, rfl, by omega⟩

theorem initTarget_eq (h : ArchiveNames env archive filename k (some items)) :
    initTarget env filename = (pickEntry items (k - 1)).map some := by
  simp only [initTarget, h.getTrackNumber_eq, h.isVirtual, if_true, h.listed]

theorem readTagTarget_eq (h : ArchiveNames env archive filename k (some items)) :
    readTagTarget env filename = pickEntry items (k - 1) := by
  simp only [readTagTarget, h.getTrackNumber_eq, h.isVirtual, Bool.true_or, if_true, h.listed]

theorem initTarget_of_failed (h : ArchiveNames env archive filename k none) :
    initTarget env filename = .ok none := by
  simp only [initTarget, h.getTrackNumber_eq, h.isVirtual, if_true, h.listed]

theorem readTagTarget_of_failed (h : ArchiveNames env archive filename k none) :
    readTagTarget env filename = .ok archive := by
  simp only [readTagTarget, h.getTrackNumber_eq, h.isVirtual, Bool.true_or, if_true, h.listed]

theorem trackCount_iff (h : ArchiveNames env archive filename k (some items)) :
    (trackCount env archive).toInt = items.length ↔ items.length < 2147483648 := by
  have hcount : trackCount env archive = Int32.ofNat items.length := by
    simp only [trackCount, h.isArchive, if_true, h.counted]
  rw [hcount]
  constructor
  · intro heq
    have hmax := (Int32.ofNat items.length).toInt_lt
    omega
  · intro hlt
    exact Int32.toInt_ofNat_of_lt (by omega)

theorem baseTarget (h : ArchiveNames env archive filename k (some items)) :
    readTagTarget env archive = pickEntry items 0 := by
  have htrack : getTrackNumber env archive = (archive, 0) := by
    simp only [getTrackNumber, h.archiveTrack]
    rfl
  simp only [readTagTarget, htrack, h.isArchive, Bool.or_true, if_true, h.listed]

theorem baseSelected_iff (h : ArchiveNames env archive filename k (some items)) :
    TagSelects env archive items[0]? ↔ items ≠ [] := by
  have htarget := h.baseTarget
  rw [pickEntry_of_nonneg items (by decide)] at htarget
  cases items with
  | nil =>
    refine iff_of_false ?_ (by simp)
    simp [TagSelects, readTag, htarget, entryPath]
  | cons entry rest => exact iff_of_true htarget (by simp)

theorem initSelects_iff {listing : Option (List DirEntry)}
    (h : ArchiveNames env archive filename k listing) :
    InitSelects core env tag filename (selected k listing) ↔ Covers k listing := by
  cases listing with
  | none =>
    refine iff_of_true ?_ (fun items hitems => absurd hitems (by simp))
    simp [selected, InitSelects, init, h.initTarget_of_failed, bind, Except.bind, pure, Except.pure]
  | some items =>
    have htarget := h.initTarget_eq
    rcases h.pickEntry_cases with ⟨entry, hsel, hpick, hcovers⟩ | ⟨hsel, hpick, hcovers⟩
    · rw [hpick] at htarget
      rw [hsel]
      exact iff_of_true htarget hcovers
    · rw [hpick] at htarget
      rw [hsel]
      refine iff_of_false ?_ hcovers
      simp [InitSelects, init, htarget, Except.map, bind, Except.bind]

theorem tagSelects_iff {listing : Option (List DirEntry)}
    (h : ArchiveNames env archive filename k listing) :
    TagSelects env filename (selected k listing) ↔
      Covers k listing ∧ (listing = none → TagRefused env archive) := by
  cases listing with
  | none =>
    simp only [selected, Option.bind_none, TagSelects,
      readTag_eq_false_iff h.readTagTarget_of_failed]
    simp [Covers]
  | some items =>
    have htarget := h.readTagTarget_eq
    simp only [reduceCtorEq, false_imp_iff, and_true]
    rcases h.pickEntry_cases with ⟨entry, hsel, hpick, hcovers⟩ | ⟨hsel, hpick, hcovers⟩
    · rw [hpick] at htarget
      rw [hsel]
      exact iff_of_true htarget hcovers
    · rw [hpick] at htarget
      rw [hsel]
      refine iff_of_false ?_ hcovers
      simp [TagSelects, readTag, htarget]

theorem counted_iff {listing : Option (List DirEntry)}
    (h : ArchiveNames env archive filename k listing) :
    Counted env archive listing ↔ ∀ items, listing = some items → items.length < 2147483648 := by
  cases listing with
  | none => simp [Counted]
  | some items => simp only [Counted, Option.some.injEq, forall_eq', h.trackCount_iff]

end ArchiveNames

/-- Three calls about one archive, each with the listing it gets. They select in
range and alike exactly when every listing that succeeds has the track, and
`ReadTag`'s, where it fails, leaves an archive that is refused as a song. The
archive's own name selects entry 0 exactly where there is one. -/
theorem archiveSelected_iff {σ : Type} (core : SpcCore σ) (tag : Id666)
    {initEnv tagEnv countEnv : Environment} {archive filename : Bytes} {k : Int32}
    {initListing tagListing countListing : Option (List DirEntry)}
    (hinit : ArchiveNames initEnv archive filename k initListing)
    (htag : ArchiveNames tagEnv archive filename k tagListing)
    (hcount : ArchiveNames countEnv archive filename k countListing) :
    (InitSelects core initEnv tag filename (selected k initListing) ∧
        TagSelects tagEnv filename (selected k tagListing) ∧
        Counted countEnv archive countListing ↔
      Covers k initListing ∧
        (Covers k tagListing ∧ (tagListing = none → TagRefused tagEnv archive)) ∧
        ∀ items, countListing = some items → items.length < 2147483648) ∧
    ∀ items, tagListing = some items →
      (TagSelects tagEnv archive items[0]? ↔ items ≠ []) := by
  refine ⟨?_, fun items hitems => ?_⟩
  · rw [hinit.initSelects_iff, htag.tagSelects_iff, hcount.counted_iff]
  · subst hitems
    exact htag.baseSelected_iff

def archiveEnv (k : Int32) (listing : Option (List DirEntry)) : Environment :=
  { Environment.ofFile (.ofBytes []) [] with
    getTrack := fun _ filename =>
      if filename = ascii "track.spcstream" then (ascii "set.rsn", k) else (filename, 0)
    getDirectory := fun _ _ => listing }

theorem archiveEnv_names {k : Int32} (hk : 1 ≤ k.toInt) (listing : Option (List DirEntry)) :
    ArchiveNames (archiveEnv k listing) (ascii "set.rsn") (ascii "track.spcstream") k listing where
  isArchive := by decide
  archiveTrack := rfl
  isVirtual := by
    change endsWith (ascii "track.spcstream") (ascii ".spc" ++ ascii "stream") = true
    decide
  virtualTrack := rfl
  one_le := hk
  listed := rfl
  counted := rfl

def setEntries : List DirEntry := [⟨ascii "a.spc", ascii "a", false⟩, ⟨ascii "b.spc", ascii "b", false⟩]

/-- Track 2, with an entry more in the listing of `ReadTag`. -/
theorem archiveSelected_track :
    InitSelects (tapeCore fun _ _ => 0) (archiveEnv 2 (some setEntries)) {}
        (ascii "track.spcstream") (some ⟨ascii "b.spc", ascii "b", false⟩) ∧
      TagSelects (archiveEnv 2 (some (setEntries ++ [⟨ascii "c.spc", ascii "c", false⟩])))
        (ascii "track.spcstream") (some ⟨ascii "b.spc", ascii "b", false⟩) ∧
      (trackCount (archiveEnv 2 (some setEntries)) (ascii "set.rsn")).toInt = 2 ∧
      TagSelects (archiveEnv 2 (some (setEntries ++ [⟨ascii "c.spc", ascii "c", false⟩])))
        (ascii "set.rsn") (some ⟨ascii "a.spc", ascii "a", false⟩) := by
  have hk : 1 ≤ (2 : Int32).toInt := by decide
  obtain ⟨hiff, hbase⟩ := archiveSelected_iff (tapeCore fun _ _ => 0) {}
    (archiveEnv_names hk (some setEntries))
    (archiveEnv_names hk (some (setEntries ++ [⟨ascii "c.spc", ascii "c", false⟩])))
    (archiveEnv_names hk (some setEntries))
  have hcovers : Covers 2 (some setEntries) := by
    intro items hitems
    rw [← Option.some.inj hitems]
    decide
  have hlonger : Covers 2 (some (setEntries ++ [⟨ascii "c.spc", ascii "c", false⟩])) := by
    intro items hitems
    rw [← Option.some.inj hitems]
    decide
  have hfew : ∀ items, some setEntries = some items → items.length < 2147483648 := by
    intro items hitems
    rw [← Option.some.inj hitems]
    decide
  obtain ⟨hinit, htag, hcount⟩ := hiff.mpr ⟨hcovers, ⟨hlonger, fun h => absurd h (by simp)⟩, hfew⟩
  exact ⟨hinit, htag, hcount setEntries rfl, (hbase _ rfl).mpr (by simp)⟩

/-- Track 2 of a set that now has one entry: both calls index past the listing. -/
theorem archiveSelected_stale_fails :
    init (tapeCore fun _ _ => 0) (archiveEnv 2 (some [⟨ascii "a.spc", ascii "b", false⟩])) {}
        (ascii "track.spcstream") = .error .undefinedBehaviour ∧
      (readTag (archiveEnv 2 (some [⟨ascii "a.spc", ascii "b", false⟩]))
        (ascii "track.spcstream") {}).2 = .error .undefinedBehaviour ∧
      (readTag (archiveEnv 2 (some [])) (ascii "set.rsn") {}).2 = .error .undefinedBehaviour ∧
      ¬ InitSelects (tapeCore fun _ _ => 0)
        (archiveEnv 2 (some [⟨ascii "a.spc", ascii "b", false⟩])) {} (ascii "track.spcstream")
        (selected 2 (some [⟨ascii "a.spc", ascii "b", false⟩])) := by
  have hinit : init (tapeCore fun _ _ => 0)
      (archiveEnv 2 (some [⟨ascii "a.spc", ascii "b", false⟩])) {} (ascii "track.spcstream") =
        .error .undefinedBehaviour := rfl
  refine ⟨hinit, rfl, rfl, fun h => ?_⟩
  have hnone : init (tapeCore fun _ _ => 0)
      (archiveEnv 2 (some [⟨ascii "a.spc", ascii "b", false⟩])) {} (ascii "track.spcstream") =
        .ok none := h
  rw [hinit] at hnone
  exact absurd hnone (by simp)

end SnesApu
