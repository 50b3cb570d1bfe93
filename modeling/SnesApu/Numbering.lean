import SnesApu.Opening

/-!
# The numbers that names stand for

`numberOf` says which section and number a name has, whatever its size. The code
keeps a number in a `char`, and keeps 0 for a label that is all digits when it
reads labels from their ends; its inference is faithful as far as that loses
nothing.
-/

namespace SnesApu

open General General.KeyedScan

instance (s : Bytes) : Decidable (AllDigits s) := inferInstanceAs (Decidable (∀ c ∈ s, _))

/-- The character before the digits at the end, where it follows a `-`. -/
def sectionMark (s : Bytes) : Option UInt8 :=
  match s.reverse.dropWhile isDigit with
  | c :: 45 :: _ => some c
  | _ => none

def digitsOf (atEnd : Bool) (name : Bytes) : Bytes :=
  if atEnd then ((stem name).reverse.takeWhile isDigit).reverse else name.takeWhile isDigit

def sectionChar (atEnd : Bool) (name : Bytes) : Int8 :=
  if atEnd then ((sectionMark (stem name)).map UInt8.toInt8).getD 0 else 0

def numberOf (atEnd : Bool) (name : Bytes) : Option (Int8 × ℕ) :=
  if digitsOf atEnd name = [] then none
  else some (sectionChar atEnd name, decimal (digitsOf atEnd name))

/-- A number in a `char`, as `atoi` and the assignment leave it. -/
def storedChar (n : ℕ) : Int8 := Int8.ofInt (min (2 ^ 63 - 1) n)

/-- The section and number that the scan keeps of a label. -/
def storedKey (atEnd : Bool) (name : Bytes) : Int8 × Int8 :=
  (sectionChar atEnd name,
    if atEnd ∧ AllDigits (stem name) then 0 else storedChar (decimal (digitsOf atEnd name)))

section Digits

theorem isDigit_not_space {c : UInt8} (h : isDigit c) : ¬ isSpace c := by
  have hc : 48 ≤ c ∧ c ≤ 57 := by simpa [isDigit] using h
  simp only [isSpace, Bool.or_eq_true, Bool.and_eq_true, decide_eq_true_eq]
  intro hs
  have hl := UInt8.le_iff_toNat_le.mp hc.1
  rcases hs with hs | hs
  · rw [hs] at hl
    exact absurd hl (by decide)
  · have hu := UInt8.le_iff_toNat_le.mp hs.2
    change 48 ≤ c.toNat at hl
    change c.toNat ≤ 13 at hu
    omega

theorem strtol_of_digit {s : Bytes} (h : isDigit (s.headD 0)) :
    strtol s = min (2 ^ 63 - 1) (decimal (s.takeWhile isDigit) : ℤ) := by
  cases s with
  | nil => exact absurd h (by decide)
  | cons c r =>
    have hc : isDigit c := h
    have hdrop : (c :: r).dropWhile isSpace = c :: r :=
      List.dropWhile_cons_of_neg (isDigit_not_space hc)
    unfold strtol
    rw [hdrop]
    dsimp only
    split
    · rename_i heq
      rw [(List.cons.inj heq).1] at hc
      exact absurd hc (by decide)
    · rename_i heq
      rw [(List.cons.inj heq).1] at hc
      exact absurd hc (by decide)
    · simp

theorem atoi_toInt8 {s : Bytes} (h : isDigit (s.headD 0)) :
    (atoi s).toInt8 = storedChar (decimal (s.takeWhile isDigit)) := by
  rw [atoi, strtol_of_digit h, Int32.toInt8_ofInt, storedChar]

theorem takeWhile_of_allDigits {s : Bytes} (h : AllDigits s) : s.takeWhile isDigit = s :=
  List.takeWhile_eq_self_iff.mpr h

theorem headD_isDigit {s : Bytes} (h : AllDigits s) (hne : s ≠ []) : isDigit (s.headD 0) := by
  cases s with
  | nil => exact absurd rfl hne
  | cons c r => exact h c List.mem_cons_self

theorem storedChar_toInt {n : ℕ} (h : n ≤ 127) : (storedChar n).toInt = n := by
  rw [storedChar, min_eq_right (by norm_num; omega)]
  exact Int8.toInt_ofInt_of_le (by omega) (by omega)

variable {pre ds : Bytes} {d c : UInt8}

theorem reverse_marked (hc : ¬ isDigit c) (hds : AllDigits ds) :
    ((pre ++ d :: c :: ds).reverse.takeWhile isDigit).reverse = ds ∧
      (pre ++ d :: c :: ds).reverse.dropWhile isDigit = c :: d :: pre.reverse := by
  have hrev : (pre ++ d :: c :: ds).reverse = ds.reverse ++ c :: d :: pre.reverse := by simp
  have hall : ∀ b ∈ ds.reverse, isDigit b = true := fun b hb => hds b (List.mem_reverse.mp hb)
  rw [hrev, List.takeWhile_append_of_pos hall, List.dropWhile_append_of_pos hall,
    List.takeWhile_cons_of_neg hc, List.dropWhile_cons_of_neg hc]
  simp

end Digits

section Labels

variable {name : Bytes}

theorem digitsOf_allDigits (h : AllDigits (stem name)) : digitsOf true name = stem name := by
  have hrev : AllDigits (stem name).reverse := fun c hc => h c (List.mem_reverse.mp hc)
  simp only [digitsOf, if_true, takeWhile_of_allDigits hrev, List.reverse_reverse]

theorem sectionChar_allDigits (h : AllDigits (stem name)) : sectionChar true name = 0 := by
  have hrev : ∀ c ∈ (stem name).reverse, isDigit c = true := fun c hc => h c (List.mem_reverse.mp hc)
  simp only [sectionChar, if_true, sectionMark, List.dropWhile_eq_nil_iff.mpr hrev]
  rfl

theorem digitsOf_marked {pre ds : Bytes} {d c : UInt8} (hs : stem name = pre ++ d :: c :: ds)
    (hc : ¬ isDigit c) (hds : AllDigits ds) : digitsOf true name = ds := by
  simp only [digitsOf, if_true, hs, (reverse_marked hc hds).1]

theorem sectionChar_marked {pre ds : Bytes} {d c : UInt8} (hs : stem name = pre ++ d :: c :: ds)
    (hc : ¬ isDigit c) (hds : AllDigits ds) :
    sectionChar true name = ((if d = 45 then some c else none).map UInt8.toInt8).getD 0 := by
  simp only [sectionChar, if_true, sectionMark, hs, (reverse_marked hc hds).2]
  by_cases hd : d = 45
  · subst hd
    rfl
  · simp [hd]

theorem not_allDigits_marked {pre ds : Bytes} {d c : UInt8} (hs : stem name = pre ++ d :: c :: ds)
    (hc : ¬ isDigit c) : ¬ AllDigits (stem name) := by
  intro h
  exact hc (h c (by simp [hs]))

theorem tailNumber_ok {r : Bytes × Option TailNumber} (h : tailNumber name = .ok r) :
    4 ≤ name.length ∧ ¬ LoneMark name := by
  have hlen : 4 ≤ name.length := by
    by_contra hshort
    have hresize : resize name (sizeSub name.length 4) = .error .lengthError := by
      simp [sizeSub, hshort, resize]
    simp [tailNumber, hresize, bind, Except.bind] at h
  refine ⟨hlen, fun hlone => ?_⟩
  rw [tailNumber_loneMark hlen hlone] at h
  exact absurd h (by simp)

theorem scanLabel_of_number {atEnd : Bool} (hread : ∀ f, scanLabel atEnd name ≠ .error f)
    (hnum : (numberOf atEnd name).isSome) :
    scanLabel atEnd name = .ok (some (storedKey atEnd name)) := by
  have hne : digitsOf atEnd name ≠ [] := by
    intro hnil
    simp [numberOf, hnil] at hnum
  cases atEnd with
  | false =>
    have hd : isDigit (name.headD 0) := by
      cases name with
      | nil => exact absurd rfl hne
      | cons c r =>
        by_contra hc
        exact hne (by simp only [digitsOf, Bool.false_eq_true, if_false]; exact List.takeWhile_cons_of_neg hc)
    simp only [scanLabel, Bool.not_false, if_true, hd, Bool.not_true, Bool.false_eq_true, if_false,
      storedKey, sectionChar, false_and, digitsOf, atoi_toInt8 hd]
  | true =>
    cases htail : tailNumber name with
    | error f =>
      exact absurd (by simp [scanLabel, htail, bind, Except.bind]) (hread f)
    | ok r =>
      obtain ⟨hlen, hlone⟩ := tailNumber_ok htail
      rcases stem_cases name with hd | hl | ⟨pre, d, c, ds, hs, hc, hds⟩
      · rw [digitsOf_allDigits hd] at hne
        have hhead := headD_isDigit hd hne
        simp only [scanLabel, tailNumber_allDigits hlen hd, Bool.not_true, Bool.false_eq_true,
          if_false, bind, Except.bind, pure, Except.pure, hhead, storedKey, sectionChar_allDigits hd,
          hd, and_self, if_true]
      · exact absurd hl hlone
      · rw [digitsOf_marked hs hc hds] at hne
        have hhead := headD_isDigit hds hne
        have hall := not_allDigits_marked hs hc
        simp only [scanLabel, tailNumber_marked hlen hs hc hds, Bool.not_true, Bool.false_eq_true,
          if_false, bind, Except.bind, pure, Except.pure, hhead, storedKey,
          sectionChar_marked hs hc hds, hall, and_false, digitsOf_marked hs hc hds,
          atoi_toInt8 hhead, takeWhile_of_allDigits hds]

theorem stem_headD (hne : stem name ≠ []) : (stem name).headD 0 = name.headD 0 := by
  unfold stem at hne ⊢
  cases hlen : name.length - 4 with
  | zero => exact absurd (by rw [hlen, List.take_zero]) hne
  | succ k => cases name <;> rfl

theorem ownNumber_of_number {s : Int8} {n : ℕ}
    (hread : ∀ f, scanLabel (!isDigit (name.headD 0)) name ≠ .error f)
    (hnum : numberOf (!isDigit (name.headD 0)) name = some (s, n)) :
    ∃ own, ownNumber name = .ok own ∧ own.checkAtEnd = !isDigit (name.headD 0) ∧
      own.section_ = s ∧ own.track = storedChar n := by
  have hne : digitsOf (!isDigit (name.headD 0)) name ≠ [] := by
    intro hnil
    rw [numberOf, if_pos hnil] at hnum
    exact absurd hnum (by simp)
  simp only [numberOf, if_neg hne, Option.some.injEq, Prod.mk.injEq] at hnum
  obtain ⟨rfl, rfl⟩ := hnum
  cases hd : isDigit (name.headD 0) with
  | true =>
    exact ⟨⟨false, none, (atoi name).toInt8⟩, ownNumber_start hd, rfl, rfl, atoi_toInt8 hd⟩
  | false =>
    rw [hd, Bool.not_false] at hread hne
    cases htail : tailNumber name with
    | error f => exact absurd (by simp [scanLabel, htail, bind, Except.bind]) (hread f)
    | ok r =>
      obtain ⟨hlen, hlone⟩ := tailNumber_ok htail
      rcases stem_cases name with hall | hl | ⟨pre, d, c, ds, hs, hc, hds⟩
      · rw [digitsOf_allDigits hall] at hne
        have hhead := headD_isDigit hall hne
        rw [stem_headD hne, hd] at hhead
        exact absurd hhead (by simp)
      · exact absurd hl hlone
      · rw [digitsOf_marked hs hc hds] at hne
        have hhead := headD_isDigit hds hne
        refine ⟨⟨true, (if d = 45 then some c else none).map UInt8.toInt8, (atoi ds).toInt8⟩,
          ?_, rfl, ?_, ?_⟩
        · rw [ownNumber_end hd, tailNumber_marked hlen hs hc hds]
          rfl
        · exact (sectionChar_marked hs hc hds).symm
        · rw [Bool.not_false, digitsOf_marked hs hc hds, atoi_toInt8 hhead,
            takeWhile_of_allDigits hds]

end Labels

def sectionsIn (atEnd : Bool) (items : List DirEntry) : Finset Int8 :=
  ((files items).map fun entry => sectionChar atEnd entry.label).toFinset

/-- A directory of uniquely numbered names, read as the file with number `n` is. -/
structure NumberedDirectory {env : Environment} {filename : Bytes}
    (run : UntrackedRun env filename) (items : List DirEntry) (atEnd : Bool) (s : Int8)
    (n : ℕ) : Prop where
  mode : atEnd = !isDigit (run.fileName.headD 0)
  listing : run.listing = some items
  two_le : 2 ≤ items.length
  own : numberOf atEnd run.fileName = some (s, n)
  one_le : 1 ≤ n
  contains : ∃ entry ∈ files items, entry.label = run.fileName
  readable : Readable atEnd items
  numbered : ∀ entry ∈ files items, (numberOf atEnd entry.label).isSome
  distinct : ((files items).filterMap fun entry => numberOf atEnd entry.label).Nodup

def Faithful (env : Environment) (filename : Bytes) (sections : Finset Int8) (s : Int8)
    (n : ℕ) : Prop :=
  (readTag env filename {}).2 = .ok true ∧
    (readTag env filename {}).1.track = some (n : ℤ) ∧
    (readTag env filename {}).1.disc = some (1 + (sections.filter (· < s)).card : ℤ) ∧
    (readTag env filename {}).1.discTotal = some (sections.card : ℤ)

namespace NumberedDirectory

variable {env : Environment} {filename : Bytes} {run : UntrackedRun env filename}
  {items : List DirEntry} {atEnd : Bool} {s : Int8} {n : ℕ}

theorem entryKey_eq (h : NumberedDirectory run items atEnd s n) {entry : DirEntry}
    (hentry : entry ∈ files items) :
    entryKey atEnd entry = .ok (some (storedKey atEnd entry.label)) :=
  scanLabel_of_number (h.readable entry hentry) (h.numbered entry hentry)

theorem keys_eq (h : NumberedDirectory run items atEnd s n) :
    keys (entryKey atEnd) (files items) =
      (files items).map fun entry => storedKey atEnd entry.label := by
  rw [keys, ← List.filterMap_eq_map]
  apply List.filterMap_congr
  intro entry hentry
  exact keyOf_eq_some.mpr (h.entryKey_eq hentry)

theorem clean_iff (h : NumberedDirectory run items atEnd s n) :
    Clean (entryKey atEnd) (files items) ↔
      ((files items).map fun entry => storedKey atEnd entry.label).Nodup := by
  rw [Clean, h.keys_eq]
  refine ⟨fun hc => hc.2, fun hc => ⟨fun entry hentry => ?_, hc⟩⟩
  rw [keyOf_eq_some.mpr (h.entryKey_eq hentry)]
  rfl

theorem sections_eq (h : NumberedDirectory run items atEnd s n) :
    sectionsOf (keys (entryKey atEnd) (files items)) = sectionsIn atEnd items := by
  rw [h.keys_eq, sectionsOf, sectionsIn, List.map_map]
  rfl

theorem own_mem (h : NumberedDirectory run items atEnd s n) : s ∈ sectionsIn atEnd items := by
  obtain ⟨entry, hentry, hlabel⟩ := h.contains
  have hown := h.own
  rw [numberOf] at hown
  split_ifs at hown with hnil
  rw [sectionsIn, List.mem_toFinset, List.mem_map]
  refine ⟨entry, hentry, ?_⟩
  rw [hlabel]
  exact congrArg Prod.fst (Option.some.inj hown)

theorem numbersOf_eq (h : NumberedDirectory run items atEnd s n) {own : OwnNumber}
    (hmode : own.checkAtEnd = atEnd) (hsection : own.section_ = s) :
    numbersOf own items =
      if 0 < own.track ∧ ((files items).map fun entry => storedKey atEnd entry.label).Nodup then
        some ⟨own.track.toInt, 1 + ((sectionsIn atEnd items).filter (· < s)).card,
          (sectionsIn atEnd items).card⟩
      else none := by
  have hlen : 1 < items.length := h.two_le
  have hrank : (discAmong (sectionsIn atEnd items) s : ℤ) =
      1 + ((sectionsIn atEnd items).filter (· < s)).card := by
    rw [discAmong, if_pos h.own_mem, rank]
    push_cast
    ring
  rw [numbersOf, hmode, h.sections_eq, hsection, hrank]
  simp only [h.clean_iff, hlen, true_and]

end NumberedDirectory

/-- In a uniquely numbered directory the numbering is faithful exactly when the
number of the file fits a `char` and the numbers stay distinct as they are kept. -/
theorem faithful_iff {env : Environment} {filename : Bytes} {run : UntrackedRun env filename}
    {items : List DirEntry} {atEnd : Bool} {s : Int8} {n : ℕ}
    (h : NumberedDirectory run items atEnd s n) :
    Faithful env filename (sectionsIn atEnd items) s n ↔
      n ≤ 127 ∧ ((files items).map fun entry => storedKey atEnd entry.label).Nodup := by
  obtain ⟨entry, hentry, hlabel⟩ := h.contains
  have hreadable : ∀ f, scanLabel (!isDigit (run.fileName.headD 0)) run.fileName ≠ .error f := by
    rw [← h.mode, ← hlabel]
    exact h.readable entry hentry
  have hnumber : numberOf (!isDigit (run.fileName.headD 0)) run.fileName = some (s, n) := by
    rw [← h.mode]
    exact h.own
  obtain ⟨own, hown, hmode, hsection, htrack⟩ := ownNumber_of_number hreadable hnumber
  rw [← h.mode] at hmode
  have hinfer : inferNumbers own run.listing = .ok (numbersOf own items) := by
    rw [h.listing]
    exact inferNumbers_eq (by rw [hmode]; exact h.readable)
  obtain ⟨hret, htrack', hdisc, htotal⟩ := run.readTag_numbers hown hinfer {}
  rw [h.numbersOf_eq hmode hsection] at htrack' hdisc htotal
  have hone := h.one_le
  have hmax := own.track.toInt_lt
  unfold Faithful
  rw [hret, htrack', hdisc, htotal]
  by_cases hnodup : ((files items).map fun entry => storedKey atEnd entry.label).Nodup
  · by_cases hpos : 0 < own.track
    · rw [if_pos ⟨hpos, hnodup⟩]
      simp only [Option.map_some, Option.getD_some, Option.some_or, true_and, and_true, hnodup,
        Option.some.injEq]
      constructor
      · intro heq
        omega
      · intro hle
        rw [htrack, storedChar_toInt hle]
    · rw [if_neg (fun hc => hpos hc.1)]
      -- no inference from a number that is not positive, and one up to 127 is
      refine iff_of_false (by simp) ?_
      intro hc
      apply hpos
      rw [Int8.lt_iff_toInt_lt, htrack, storedChar_toInt hc.1]
      change (0 : ℤ) < n
      omega
  · rw [if_neg (fun hc => hnodup hc.2)]
    exact iff_of_false (by simp) (fun hc => hnodup hc.2)

theorem twoFiles_numbered {env : Environment} {filename : Bytes} {run : UntrackedRun env filename}
    {first second : String} {n : ℕ} (hname : run.fileName = ascii first)
    (hlisting : run.listing = some (twoFiles first second))
    (hdigit : isDigit ((ascii first).headD 0))
    (hfirst : numberOf false (ascii first) = some (0, n)) (hpos : 1 ≤ n)
    (hsecond : ∃ m, numberOf false (ascii second) = some (0, m) ∧ n ≠ m) :
    NumberedDirectory run (twoFiles first second) false 0 n where
  mode := by rw [hname, hdigit]; rfl
  listing := hlisting
  two_le := le_rfl
  own := by rw [hname, hfirst]
  one_le := hpos
  contains := ⟨⟨ascii first, [], false⟩, List.mem_cons_self, hname.symm⟩
  readable := readable_start (twoFiles first second)
  numbered := by
    obtain ⟨m, hm, -⟩ := hsecond
    simp [twoFiles, files, hfirst, hm]
  distinct := by
    obtain ⟨m, hm, hne⟩ := hsecond
    simp [twoFiles, files, hfirst, hm, hne]

theorem faithful_two :
    Faithful (taggedEnv (twoFiles "01.spc" "02.spc")) (ascii "01.spc")
      (sectionsIn false (twoFiles "01.spc" "02.spc")) 0 1 := by
  obtain ⟨run, hname, hlisting, -⟩ := exists_untrackedRun (twoFiles "01.spc" "02.spc")
    (ascii "01.spc") (by decide) (by decide)
  have hdir : NumberedDirectory run (twoFiles "01.spc" "02.spc") false 0 1 :=
    twoFiles_numbered hname hlisting (by decide) (by decide) le_rfl ⟨2, by decide⟩
  exact (faithful_iff hdir).mpr ⟨by norm_num, by decide⟩

theorem faithful_200_fails :
    ∃ run : UntrackedRun (taggedEnv (twoFiles "200.spc" "201.spc")) (ascii "200.spc"),
      NumberedDirectory run (twoFiles "200.spc" "201.spc") false 0 200 ∧
      (readTag (taggedEnv (twoFiles "200.spc" "201.spc")) (ascii "200.spc") {}).1.track = some 0 ∧
      ¬ Faithful (taggedEnv (twoFiles "200.spc" "201.spc")) (ascii "200.spc")
        (sectionsIn false (twoFiles "200.spc" "201.spc")) 0 200 := by
  obtain ⟨run, hname, hlisting, -⟩ := exists_untrackedRun (twoFiles "200.spc" "201.spc")
    (ascii "200.spc") (by decide) (by decide)
  have htrack : (readTag (taggedEnv (twoFiles "200.spc" "201.spc")) (ascii "200.spc") {}).1.track =
      some 0 := by decide +kernel
  refine ⟨run, twoFiles_numbered hname hlisting (by decide) (by decide) (by norm_num)
    ⟨201, by decide⟩, htrack, fun h => ?_⟩
  rw [Faithful, htrack] at h
  exact absurd h.2.1 (by decide)

end SnesApu
