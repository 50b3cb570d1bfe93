import SnesApu.NameNumber
import SnesApu.Environment
import SnesApu.General.KeyedScan
import SnesApu.General.Rank

/-!
# Scanning a directory for numbered names

The loop of `ReadTag` over the listing keeps, for each section, the set of track
numbers found; `Found` is its ordered map. It stops at the first label without a
number and at the first number found twice in a section. The loop is shown to be
the scan for distinct keys over the labels that are not folders, so its outcome
is a statement about the listing that no longer mentions the order of reading.
-/

namespace SnesApu

open General General.KeyedScan

abbrev Found := Std.TreeMap Int8 (Finset ℤ)

def scanEntries (checkAtEnd : Bool) : Found → List DirEntry → Except Fault (Option Found)
  | found, [] => .ok (some found)
  | found, entry :: items =>
    if entry.isFolder then scanEntries checkAtEnd found items
    else
      match scanLabel checkAtEnd entry.label with
      | .error f => .error f
      | .ok none => .ok none
      | .ok (some (scanSection, scanTrack)) =>
        let tracks := found.getD scanSection ∅
        if scanTrack.toInt ∉ tracks then
          scanEntries checkAtEnd (found.insert scanSection (insert scanTrack.toInt tracks)) items
        else .ok none

def discOf (section_ : Int8) : List Int8 → ℤ → ℤ
  | [], disc => disc
  | first :: found, disc => if first = section_ then disc else discOf section_ found (disc + 1)

structure Numbers where
  track : ℤ
  disc : ℤ
  discTotal : ℤ
  deriving DecidableEq

def inferNumbers (own : OwnNumber) (listing : Option (List DirEntry)) :
    Except Fault (Option Numbers) :=
  if 0 < own.track then
    match listing with
    | none => .ok none
    | some items =>
      if 1 < items.length then
        match scanEntries own.checkAtEnd ∅ items with
        | .error f => .error f
        | .ok none => .ok none
        | .ok (some found) =>
          .ok (some ⟨own.track.toInt, discOf own.section_ found.keys 1, found.size⟩)
      else .ok none
  else .ok none

instance charLinearOrder : LinearOrder Int8 where
  le_refl := Int8.le_refl
  le_trans _ _ _ := Int8.le_trans
  lt_iff_le_not_ge _ _ := by
    rw [Int8.not_le]
    exact ⟨fun h => ⟨Int8.le_of_lt h, h⟩, fun h => h.2⟩
  le_antisymm _ _ := Int8.le_antisymm
  le_total := Int8.le_total
  toDecidableLE := inferInstance
  toDecidableEq := inferInstance
  toDecidableLT := inferInstance

section Scan

variable (checkAtEnd : Bool)

def files (items : List DirEntry) : List DirEntry := items.filter fun entry => !entry.isFolder

def entryKey (entry : DirEntry) : Except Fault (Option (Int8 × Int8)) :=
  scanLabel checkAtEnd entry.label

/-- The map holds exactly the collected pairs, and no section without one. -/
structure Represents (found : Found) (seen : List (Int8 × Int8)) : Prop where
  mem_tracks : ∀ s t, t ∈ found.getD s ∅ ↔ ∃ k ∈ seen, k.1 = s ∧ k.2.toInt = t
  mem_found : ∀ s, s ∈ found ↔ ∃ k ∈ seen, k.1 = s

theorem represents_empty : Represents ∅ [] where
  mem_tracks s t := by simp
  mem_found s := by simp

theorem Represents.insert {found : Found} {seen : List (Int8 × Int8)} (h : Represents found seen)
    (k : Int8 × Int8) :
    Represents (found.insert k.1 (insert k.2.toInt (found.getD k.1 ∅))) (k :: seen) where
  mem_tracks s t := by
    rw [Std.TreeMap.getD_insert, List.exists_mem_cons_iff]
    by_cases hs : k.1 = s
    · subst hs
      simp [h.mem_tracks, eq_comm]
    · simp [hs, h.mem_tracks]
  mem_found s := by
    rw [Std.TreeMap.mem_insert, List.exists_mem_cons_iff, h.mem_found]
    simp

theorem Represents.mem_iff {found : Found} {seen : List (Int8 × Int8)} (h : Represents found seen)
    (k : Int8 × Int8) : k.2.toInt ∈ found.getD k.1 ∅ ↔ k ∈ seen := by
  rw [h.mem_tracks]
  constructor
  · intro hk
    obtain ⟨j, hj, h1, h2⟩ := hk
    have he : j = k := Prod.ext h1 (Int8.toInt_inj.mp h2)
    exact he ▸ hj
  · intro hk
    exact ⟨k, hk, rfl, rfl⟩

/-- The outcomes of the loop and of the scan for distinct keys, side by side. -/
def SameOutcome :
    Except Fault (Option Found) → Except Fault (Option (List (Int8 × Int8))) → Prop
  | .error f, .error g => f = g
  | .ok none, .ok none => True
  | .ok (some found), .ok (some seen) => Represents found seen
  | _, _ => False

theorem scanEntries_sameOutcome {found : Found} {seen : List (Int8 × Int8)}
    (h : Represents found seen) (items : List DirEntry) :
    SameOutcome (scanEntries checkAtEnd found items)
      (scan (entryKey checkAtEnd) seen (files items)) := by
  induction items generalizing found seen with
  | nil => exact h
  | cons entry items ih =>
    by_cases hf : entry.isFolder
    · have hfiles : files (entry :: items) = files items := by simp [files, hf]
      rw [scanEntries, if_pos hf, hfiles]
      exact ih h
    · have hfiles : files (entry :: items) = entry :: files items := by simp [files, hf]
      rw [scanEntries, if_neg hf, hfiles, scan, entryKey]
      cases hk : scanLabel checkAtEnd entry.label with
      | error f => exact rfl
      | ok o =>
        cases o with
        | none => exact trivial
        | some k =>
          -- the set kept for the section tells the same as the list of pairs read
          by_cases hmem : k ∈ seen
          · have hset : k.2.toInt ∈ found.getD k.1 ∅ := (h.mem_iff k).mpr hmem
            simp only [if_pos hmem, hset, not_true, if_false]
            exact trivial
          · have hset : k.2.toInt ∉ found.getD k.1 ∅ := fun hin => hmem ((h.mem_iff k).mp hin)
            simp only [if_neg hmem, hset, not_false_eq_true, if_true]
            exact ih (h.insert k)

end Scan

theorem discOf_eq (section_ : Int8) (l : List Int8) (disc : ℤ) :
    discOf section_ l disc = disc + l.idxOf section_ := by
  induction l generalizing disc with
  | nil => simp [discOf]
  | cons first l ih =>
    by_cases h : first = section_
    · simp [discOf, h]
    · rw [discOf, if_neg h, ih, List.idxOf_cons_ne l h]
      push_cast
      ring

/-- The disc of a section among the sections found; a section that was not found
comes after all of them. -/
def discAmong (sections : Finset Int8) (section_ : Int8) : ℕ :=
  if section_ ∈ sections then rank sections section_ else sections.card + 1

def sectionsOf (seen : List (Int8 × Int8)) : Finset Int8 := (seen.map Prod.fst).toFinset

theorem Represents.keys_toFinset {found : Found} {seen : List (Int8 × Int8)}
    (h : Represents found seen) : found.keys.toFinset = sectionsOf seen := by
  ext s
  rw [List.mem_toFinset, Std.TreeMap.mem_keys, h.mem_found, sectionsOf, List.mem_toFinset,
    List.mem_map]

theorem keys_pairwise_lt (found : Found) : found.keys.Pairwise (· < ·) :=
  Std.TreeMap.ordered_keys.imp fun h => Std.compare_eq_lt.mp h

theorem Represents.size_eq {found : Found} {seen : List (Int8 × Int8)}
    (h : Represents found seen) : found.size = (sectionsOf seen).card := by
  have hnodup : found.keys.Nodup := (keys_pairwise_lt found).imp ne_of_lt
  rw [← h.keys_toFinset, List.toFinset_card_of_nodup hnodup, Std.TreeMap.length_keys]

theorem Represents.discOf_eq {found : Found} {seen : List (Int8 × Int8)}
    (h : Represents found seen) (section_ : Int8) :
    discOf section_ found.keys 1 = discAmong (sectionsOf seen) section_ := by
  rw [SnesApu.discOf_eq, discAmong]
  have hmem : section_ ∈ found.keys ↔ section_ ∈ sectionsOf seen := by
    rw [← h.keys_toFinset, List.mem_toFinset]
  by_cases hs : section_ ∈ sectionsOf seen
  · have hrank := idxOf_add_one_eq_rank (keys_pairwise_lt found) (hmem.mpr hs)
    rw [if_pos hs, ← h.keys_toFinset, ← hrank]
    push_cast
    ring
  · have hidx : found.keys.idxOf section_ = found.keys.length :=
      List.idxOf_eq_length (fun hin => hs (hmem.mp hin))
    rw [if_neg hs, hidx, Std.TreeMap.length_keys, h.size_eq]
    push_cast
    ring

def numbersOf (own : OwnNumber) (items : List DirEntry) : Option Numbers :=
  let sections := sectionsOf (keys (entryKey own.checkAtEnd) (files items))
  if 0 < own.track ∧ 1 < items.length ∧ Clean (entryKey own.checkAtEnd) (files items) then
    some ⟨own.track.toInt, discAmong sections own.section_, sections.card⟩
  else none

theorem sectionsOf_reverse (seen : List (Int8 × Int8)) :
    sectionsOf seen.reverse = sectionsOf seen := by
  ext s
  simp [sectionsOf]

def numbersAmong (own : OwnNumber) (seen : List (Int8 × Int8)) : Numbers :=
  ⟨own.track.toInt, discAmong (sectionsOf seen) own.section_, (sectionsOf seen).card⟩

theorem inferNumbers_eq_scan (own : OwnNumber) (items : List DirEntry) :
    inferNumbers own (some items) =
      if 0 < own.track ∧ 1 < items.length then
        (scan (entryKey own.checkAtEnd) [] (files items)).map (Option.map (numbersAmong own))
      else .ok none := by
  have hsame := scanEntries_sameOutcome own.checkAtEnd represents_empty items
  by_cases htrack : 0 < own.track
  · by_cases hlen : 1 < items.length
    · rw [if_pos ⟨htrack, hlen⟩]
      simp only [inferNumbers, if_pos htrack, if_pos hlen]
      generalize scanEntries own.checkAtEnd ∅ items = a at hsame ⊢
      generalize scan (entryKey own.checkAtEnd) [] (files items) = b at hsame ⊢
      rcases a with f | _ | found
      · rcases b with g | _ | seen
        · have heq : f = g := hsame
          rw [heq]
          rfl
        · exact hsame.elim
        · exact hsame.elim
      · rcases b with g | _ | seen
        · exact hsame.elim
        · rfl
        · exact hsame.elim
      · rcases b with g | _ | seen
        · exact hsame.elim
        · exact hsame.elim
        · have hrep : Represents found seen := hsame
          simp only [hrep.discOf_eq, hrep.size_eq]
          rfl
    · rw [if_neg fun h => hlen h.2]
      simp only [inferNumbers, if_pos htrack, if_neg hlen]
  · rw [if_neg fun h => htrack h.1]
    simp only [inferNumbers, if_neg htrack]

def Readable (checkAtEnd : Bool) (items : List DirEntry) : Prop :=
  ∀ entry ∈ files items, ∀ f, entryKey checkAtEnd entry ≠ .error f

theorem readable_start (items : List DirEntry) : Readable false items := by
  intro entry _ f h
  simp only [entryKey, scanLabel, Bool.not_false, if_true] at h
  split_ifs at h

/-- The inference throws exactly where it gets to a label whose reading throws,
all labels before it being numbered and distinct. -/
theorem inferNumbers_eq_error_iff {own : OwnNumber} {items : List DirEntry} {f : Fault} :
    inferNumbers own (some items) = .error f ↔
      0 < own.track ∧ 1 < items.length ∧
        ∃ pre entry post, files items = pre ++ entry :: post ∧
          entryKey own.checkAtEnd entry = .error f ∧ Clean (entryKey own.checkAtEnd) pre := by
  rw [← scan_eq_error_iff, inferNumbers_eq_scan]
  split_ifs with h
  · cases scan (entryKey own.checkAtEnd) [] (files items) <;> simp [Except.map, h]
  · refine iff_of_false (by simp) fun hall => ?_
    exact h ⟨hall.1, hall.2.1⟩

theorem inferNumbers_eq {own : OwnNumber} {items : List DirEntry}
    (h : Readable own.checkAtEnd items) :
    inferNumbers own (some items) = .ok (numbersOf own items) := by
  rw [inferNumbers_eq_scan, scan_of_total h, numbersOf]
  by_cases hmeets : 0 < own.track ∧ 1 < items.length
  · by_cases hclean : Clean (entryKey own.checkAtEnd) (files items)
    · rw [if_pos hmeets, if_pos hclean, if_pos ⟨hmeets.1, hmeets.2, hclean⟩, ← sectionsOf_reverse]
      rfl
    · rw [if_pos hmeets, if_neg hclean, if_neg fun hall => hclean hall.2.2]
      rfl
  · rw [if_neg hmeets, if_neg fun hall => hmeets ⟨hall.1, hall.2.1⟩]

theorem inferNumbers_eq_some {own : OwnNumber} {items : List DirEntry} {numbers : Numbers}
    (h : inferNumbers own (some items) = .ok (some numbers)) :
    0 < own.track ∧ Clean (entryKey own.checkAtEnd) (files items) ∧
      numbers = numbersAmong own (keys (entryKey own.checkAtEnd) (files items)) := by
  rw [inferNumbers_eq_scan] at h
  split_ifs at h with hmeets
  · rcases hscan : scan (entryKey own.checkAtEnd) [] (files items) with f | _ | seen
    · simp [hscan, Except.map] at h
    · simp [hscan, Except.map] at h
    · obtain ⟨hclean, -, rfl⟩ := scan_eq_some_iff.mp hscan
      rw [hscan] at h
      refine ⟨hmeets.1, hclean, ?_⟩
      rw [← Option.some.inj (Except.ok.inj h), List.append_nil, numbersAmong, numbersAmong,
        sectionsOf_reverse]
  · exact absurd (Except.ok.inj h) (by simp)

end SnesApu
