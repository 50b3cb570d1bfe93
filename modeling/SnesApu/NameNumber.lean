import SnesApu.Id666Tag

/-!
# Reading a number from a file name

`ReadTag` reads a number from the end of a name, before its four-character
extension, or from its start. The string operations are those of `std::string`:
a position is unsigned, so a difference below zero is larger than any size
(`none`), and an operation given a position past the end throws.

`char` is the signed byte of the platform, and `atoi` is `strtol` narrowed to
`int`.
-/

namespace SnesApu

/-- `a - b` on sizes; none where it wraps. -/
def sizeSub (a b : ℕ) : Option ℕ := if b ≤ a then some (a - b) else none

def resize (s : Bytes) : Option ℕ → Except Fault Bytes
  | some n => .ok (s.take n ++ List.replicate (n - s.length) 0)
  | none => .error .lengthError

def substr (s : Bytes) : Option ℕ → Except Fault Bytes
  | some pos => if pos ≤ s.length then .ok (s.drop pos) else .error .outOfRange
  | none => .error .outOfRange

def findLastNotOfDigits : Bytes → Option ℕ
  | [] => none
  | c :: s =>
    match findLastNotOfDigits s with
    | some i => some (i + 1)
    | none => if isDigit c then none else some 0

def isSpace (c : UInt8) : Bool := c = 32 || (9 ≤ c && c ≤ 13)

def decimal (digits : Bytes) : ℕ := digits.foldl (fun n c => 10 * n + (c - 48).toNat) 0

/-- `strtol` saturates at the ends of `long`. -/
def strtol (s : Bytes) : ℤ :=
  let s := s.dropWhile isSpace
  let (negative, s) :=
    match s with
    | 45 :: r => (true, r)
    | 43 :: r => (false, r)
    | _ => (false, s)
  let magnitude : ℤ := decimal (s.takeWhile isDigit)
  max (-2 ^ 63) (min (2 ^ 63 - 1) (if negative then -magnitude else magnitude))

def atoi (s : Bytes) : Int32 := Int32.ofInt (strtol s)

/-- What stands before and in the digits at the end of a name. -/
structure TailNumber where
  mark : Option UInt8
  digits : Bytes
  deriving DecidableEq

def tailNumber (name : Bytes) : Except Fault (Bytes × Option TailNumber) := do
  let stem ← resize name (sizeSub name.length 4)
  match findLastNotOfDigits stem with
  | none => return (stem, none)
  | some lastIndex =>
    let before ← substr stem (sizeSub lastIndex 1)
    let at_ ← substr stem (some lastIndex)
    let digits ← substr stem (some (lastIndex + 1))
    let mark :=
      if before.headD 0 = 45 ∧ ¬ isDigit (at_.headD 0) then some (at_.headD 0) else none
    return (stem, some ⟨mark, digits⟩)

structure OwnNumber where
  checkAtEnd : Bool
  mark : Option Int8
  track : Int8
  deriving DecidableEq

def OwnNumber.section_ (own : OwnNumber) : Int8 := own.mark.getD 0

def ownNumber (filename : Bytes) : Except Fault OwnNumber :=
  if !isDigit (filename.headD 0) then do
    let r ← tailNumber filename
    match r.2 with
    | none => return ⟨true, none, 0⟩
    | some t => return ⟨true, t.mark.map UInt8.toInt8, (atoi t.digits).toInt8⟩
  else return ⟨false, none, (atoi filename).toInt8⟩

/-- What the scan of the directory takes from a label, none where the label is
not numbered. -/
def scanLabel (checkAtEnd : Bool) (label : Bytes) : Except Fault (Option (Int8 × Int8)) :=
  if !checkAtEnd then
    if !isDigit (label.headD 0) then .ok none else .ok (some (0, (atoi label).toInt8))
  else do
    let r ← tailNumber label
    match r.2 with
    | none => if !isDigit (r.1.headD 0) then return none else return some (0, 0)
    | some t =>
      if !isDigit (t.digits.headD 0) then return none
      else return some ((t.mark.map UInt8.toInt8).getD 0, (atoi t.digits).toInt8)

def stem (name : Bytes) : Bytes := name.take (name.length - 4)

/-- The last character of the stem that is not a digit is its first one. -/
def LoneMark (name : Bytes) : Prop := findLastNotOfDigits (stem name) = some 0

instance (name : Bytes) : Decidable (LoneMark name) := inferInstanceAs (Decidable (_ = _))

def AllDigits (s : Bytes) : Prop := ∀ c ∈ s, isDigit c

theorem findLastNotOfDigits_eq_none {s : Bytes} : findLastNotOfDigits s = none ↔ AllDigits s := by
  induction s with
  | nil => simp [findLastNotOfDigits, AllDigits]
  | cons c s ih =>
    cases h : findLastNotOfDigits s with
    | none =>
      have hs : AllDigits s := ih.mp h
      simpa [findLastNotOfDigits, h, AllDigits] using fun _ => hs
    | some i =>
      have hs : ¬ AllDigits s := fun ha => by simp [ih.mpr ha] at h
      refine iff_of_false (by simp [findLastNotOfDigits, h]) fun ha => ?_
      exact hs fun d hd => ha d (List.mem_cons_of_mem c hd)

theorem findLastNotOfDigits_append {pre ds : Bytes} {c : UInt8} (hc : ¬ isDigit c)
    (hds : AllDigits ds) : findLastNotOfDigits (pre ++ c :: ds) = some pre.length := by
  induction pre with
  | nil => simp [findLastNotOfDigits, findLastNotOfDigits_eq_none.mpr hds, hc]
  | cons b pre ih => simp [findLastNotOfDigits, ih]

theorem split_last_nondigit (s : Bytes) :
    AllDigits s ∨ ∃ pre c ds, s = pre ++ c :: ds ∧ ¬ isDigit c ∧ AllDigits ds := by
  induction s with
  | nil => exact .inl fun c hc => absurd hc List.not_mem_nil
  | cons b s ih =>
    rcases ih with hs | ⟨pre, c, ds, rfl, hc, hds⟩
    · by_cases hb : isDigit b
      · exact .inl (List.forall_mem_cons.mpr ⟨hb, hs⟩)
      · exact .inr ⟨[], b, s, rfl, hb, hs⟩
    · exact .inr ⟨b :: pre, c, ds, rfl, hc, hds⟩

theorem resize_stem {name : Bytes} (h : 4 ≤ name.length) :
    resize name (sizeSub name.length 4) = .ok (stem name) := by
  have hz : name.length - 4 - name.length = 0 := by omega
  simp [resize, sizeSub, h, stem, hz]

theorem tailNumber_allDigits {name : Bytes} (h : 4 ≤ name.length) (hd : AllDigits (stem name)) :
    tailNumber name = .ok (stem name, none) := by
  simp [tailNumber, resize_stem h, findLastNotOfDigits_eq_none.mpr hd, bind, Except.bind, pure,
    Except.pure]

/-- The one position that leaves the name: the character before the last
non-digit, when there is none before it. -/
theorem tailNumber_loneMark {name : Bytes} (h : 4 ≤ name.length) (hl : LoneMark name) :
    tailNumber name = .error .outOfRange := by
  unfold LoneMark at hl
  have hbefore : substr (stem name) (sizeSub 0 1) = .error .outOfRange := rfl
  simp [tailNumber, resize_stem h, hl, hbefore, bind, Except.bind]

theorem tailNumber_marked {name pre ds : Bytes} {d c : UInt8} (h : 4 ≤ name.length)
    (hs : stem name = pre ++ d :: c :: ds) (hc : ¬ isDigit c) (hds : AllDigits ds) :
    tailNumber name = .ok (stem name, some ⟨if d = 45 then some c else none, ds⟩) := by
  have hsplit : stem name = (pre ++ [d]) ++ c :: ds := by simp [hs]
  have hlast : findLastNotOfDigits (stem name) = some (pre.length + 1) := by
    rw [hsplit, findLastNotOfDigits_append hc hds, List.length_append, List.length_singleton]
  have hlen : (stem name).length = pre.length + (ds.length + 2) := by simp [hs]
  have hbefore : substr (stem name) (sizeSub (pre.length + 1) 1) = .ok (d :: c :: ds) := by
    simp only [sizeSub, substr, hlen]
    simp [hs]
  have hat : substr (stem name) (some (pre.length + 1)) = .ok (c :: ds) := by
    simp only [substr, hlen]
    rw [if_pos (by omega), hsplit, List.drop_left' (by simp)]
  have hdigits : substr (stem name) (some (pre.length + 1 + 1)) = .ok ds := by
    have hsplit' : stem name = (pre ++ [d, c]) ++ ds := by simp [hs]
    simp only [substr, hlen]
    rw [if_pos (by omega), hsplit', List.drop_left' (by simp)]
  simp only [tailNumber, resize_stem h, hlast, hbefore, hat, hdigits, bind, Except.bind, pure,
    Except.pure, List.headD_cons, hc]
  simp

theorem loneMark_iff {name : Bytes} :
    LoneMark name ↔ ∃ c ds, stem name = c :: ds ∧ ¬ isDigit c ∧ AllDigits ds := by
  unfold LoneMark
  constructor
  · intro h
    rcases split_last_nondigit (stem name) with hd | ⟨pre, c, ds, hs, hc, hds⟩
    · simp [findLastNotOfDigits_eq_none.mpr hd] at h
    · rw [hs, findLastNotOfDigits_append hc hds] at h
      obtain rfl : pre = [] := List.eq_nil_of_length_eq_zero (Option.some.inj h)
      exact ⟨c, ds, hs, hc, hds⟩
  · rintro ⟨c, ds, hs, hc, hds⟩
    rw [hs]
    exact @findLastNotOfDigits_append [] ds c hc hds

theorem stem_cases (name : Bytes) :
    AllDigits (stem name) ∨ LoneMark name ∨
      ∃ pre d c ds, stem name = pre ++ d :: c :: ds ∧ ¬ isDigit c ∧ AllDigits ds := by
  rcases split_last_nondigit (stem name) with hd | ⟨pre, c, ds, hs, hc, hds⟩
  · exact .inl hd
  · rcases List.eq_nil_or_concat pre with rfl | ⟨pre, d, rfl⟩
    · exact .inr (.inl (loneMark_iff.mpr ⟨c, ds, hs, hc, hds⟩))
    · exact .inr (.inr ⟨pre, d, c, ds, by simpa using hs, hc, hds⟩)

theorem tailNumber_eq_error_iff {name : Bytes} (h : 4 ≤ name.length) {f : Fault} :
    tailNumber name = .error f ↔ LoneMark name ∧ f = .outOfRange := by
  rcases stem_cases name with hd | hl | ⟨pre, d, c, ds, hs, hc, hds⟩
  · have hn : ¬ LoneMark name := by
      unfold LoneMark
      rw [findLastNotOfDigits_eq_none.mpr hd]
      simp
    simp [tailNumber_allDigits h hd, hn]
  · rw [tailNumber_loneMark h hl]
    simp [hl, eq_comm]
  · have hn : ¬ LoneMark name := by
      unfold LoneMark
      rw [show stem name = (pre ++ [d]) ++ c :: ds by simp [hs], findLastNotOfDigits_append hc hds]
      simp
    simp [tailNumber_marked h hs hc hds, hn]

section Own

variable {name : Bytes}

theorem ownNumber_start (hd : isDigit (name.headD 0) = true) :
    ownNumber name = .ok ⟨false, none, (atoi name).toInt8⟩ := by
  simp only [ownNumber, hd, Bool.not_true, Bool.false_eq_true, if_false]
  rfl

theorem ownNumber_end (hd : isDigit (name.headD 0) = false) :
    ownNumber name =
      (tailNumber name).map fun r =>
        match r.2 with
        | none => ⟨true, none, 0⟩
        | some t => ⟨true, t.mark.map UInt8.toInt8, (atoi t.digits).toInt8⟩ := by
  simp only [ownNumber, hd, Bool.not_false, if_true, bind]
  rcases tailNumber name with f | ⟨s, _ | t⟩ <;> rfl

example : ownNumber (ascii "ff6-v12.spc") = .ok ⟨true, some 118, 12⟩ := by decide

theorem checkAtEnd_eq {own : OwnNumber} (h : ownNumber name = .ok own) :
    own.checkAtEnd = !isDigit (name.headD 0) := by
  cases hd : isDigit (name.headD 0) with
  | true =>
    rw [ownNumber_start hd] at h
    rw [← Except.ok.inj h]
    rfl
  | false =>
    rw [ownNumber_end hd] at h
    cases htail : tailNumber name with
    | error f => simp [htail, Except.map] at h
    | ok r =>
      rw [htail] at h
      rw [← Except.ok.inj h]
      rcases r with ⟨s, _ | t⟩ <;> rfl

theorem scanLabel_own {own : OwnNumber} {k : Int8 × Int8} (hown : ownNumber name = .ok own)
    (htrack : 0 < own.track) (hscan : scanLabel own.checkAtEnd name = .ok (some k)) :
    k = (own.section_, own.track) := by
  rw [checkAtEnd_eq hown] at hscan
  cases hd : isDigit (name.headD 0) with
  | true =>
    rw [ownNumber_start hd] at hown
    simp only [scanLabel, hd, Bool.not_true, Bool.not_false, if_true, Bool.false_eq_true, if_false]
      at hscan
    rw [← Except.ok.inj hown, ← Option.some.inj (Except.ok.inj hscan)]
    rfl
  | false =>
    rw [ownNumber_end hd] at hown
    simp only [scanLabel, hd, Bool.not_false, Bool.not_true, Bool.false_eq_true, if_false, bind]
      at hscan
    rcases htail : tailNumber name with f | ⟨s, _ | t⟩
    · simp [htail, Except.map] at hown
    · -- the file's own name keeps track 0 where it is all digits, and nothing is scanned
      rw [htail] at hown
      rw [← Except.ok.inj hown] at htrack
      exact absurd htrack Int8.lt_irrefl
    · rw [htail] at hown hscan
      simp only [Except.bind, pure, Except.pure] at hscan
      split_ifs at hscan
      · exact absurd (Except.ok.inj hscan) (by simp)
      · rw [← Except.ok.inj hown, ← Option.some.inj (Except.ok.inj hscan)]
        rfl

end Own

end SnesApu
