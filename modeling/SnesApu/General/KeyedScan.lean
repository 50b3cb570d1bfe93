import Mathlib

/-!
# Scans that collect distinct keys

A scan reads a key from every item and keeps the keys it has seen. It stops at
the first item without a key and at the first repeated key, and a reader that
fails stops it with the failure. Its outcome is characterised by the list of
items alone: whether every item has a key and the keys are pairwise distinct.
-/

namespace General.KeyedScan

variable {ε α κ : Type*} (key : α → Except ε (Option κ))

def keyOf (a : α) : Option κ :=
  match key a with
  | .ok k => k
  | .error _ => none

def keys (as : List α) : List κ := as.filterMap (keyOf key)

def Clean (as : List α) : Prop :=
  (∀ a ∈ as, (keyOf key a).isSome) ∧ (keys key as).Nodup

variable {key}

theorem keyOf_eq_some {a : α} {k : κ} : keyOf key a = some k ↔ key a = .ok (some k) := by
  cases h : key a <;> simp [keyOf, h]

theorem mem_keys {as : List α} {k : κ} : k ∈ keys key as ↔ ∃ a ∈ as, key a = .ok (some k) := by
  simp only [keys, List.mem_filterMap, keyOf_eq_some]

theorem keys_cons {a : α} {k : κ} (h : key a = .ok (some k)) (as : List α) :
    keys key (a :: as) = k :: keys key as :=
  List.filterMap_cons_some (keyOf_eq_some.mpr h)

theorem clean_cons {a : α} {k : κ} (h : key a = .ok (some k)) {as : List α} :
    Clean key (a :: as) ↔ k ∉ keys key as ∧ Clean key as := by
  simp only [Clean, List.forall_mem_cons, keyOf_eq_some.mpr h, Option.isSome_some, true_and,
    keys_cons h, List.nodup_cons]
  tauto

theorem not_clean_of_none {a : α} (h : key a = .ok none) (as : List α) :
    ¬ Clean key (a :: as) := by
  intro hc
  simpa [keyOf, h] using hc.1 a List.mem_cons_self

theorem not_clean_of_error {a : α} {e : ε} (h : key a = .error e) (as : List α) :
    ¬ Clean key (a :: as) := by
  intro hc
  simpa [keyOf, h] using hc.1 a List.mem_cons_self

theorem Clean.perm {as bs : List α} (hp : as.Perm bs) (h : Clean key as) : Clean key bs :=
  ⟨fun b hb => h.1 b (hp.mem_iff.mpr hb), (hp.filterMap _).nodup_iff.mp h.2⟩

theorem clean_perm_iff {as bs : List α} (hp : as.Perm bs) : Clean key as ↔ Clean key bs :=
  ⟨Clean.perm hp, Clean.perm hp.symm⟩

theorem keys_perm {as bs : List α} (hp : as.Perm bs) : (keys key as).Perm (keys key bs) :=
  hp.filterMap _

theorem Clean.key_inj {as : List α} (h : Clean key as) {a b : α} {k : κ} (ha : a ∈ as)
    (hb : b ∈ as) (hka : key a = .ok (some k)) (hkb : key b = .ok (some k)) : a = b := by
  induction as with
  | nil => exact absurd ha List.not_mem_nil
  | cons c as ih =>
    obtain ⟨j, hj⟩ := Option.isSome_iff_exists.mp (h.1 c List.mem_cons_self)
    obtain ⟨hnew, hclean⟩ := (clean_cons (keyOf_eq_some.mp hj)).mp h
    have hfresh : ∀ d ∈ as, key d = .ok (some k) → key c ≠ .ok (some k) := by
      intro d hd hkd hkc
      rw [keyOf_eq_some.mpr hkc] at hj
      exact hnew (mem_keys.mpr ⟨d, hd, Option.some.inj hj ▸ hkd⟩)
    rcases List.mem_cons.mp ha with rfl | hain
    · rcases List.mem_cons.mp hb with rfl | hbin
      · rfl
      · exact absurd hka (hfresh b hbin hkb)
    · rcases List.mem_cons.mp hb with rfl | hbin
      · exact absurd hkb (hfresh a hain hka)
      · exact ih hclean hain hbin

variable [DecidableEq κ]

instance (as : List α) : Decidable (Clean key as) := inferInstanceAs (Decidable (_ ∧ _))

variable (key) in
def scan : List κ → List α → Except ε (Option (List κ))
  | seen, [] => .ok (some seen)
  | seen, a :: as =>
    match key a with
    | .error e => .error e
    | .ok none => .ok none
    | .ok (some k) => if k ∈ seen then .ok none else scan (k :: seen) as

/-- A scan succeeds exactly on clean items whose keys are new, and collects the
keys in reverse order of reading. -/
theorem scan_eq_some_iff {seen r : List κ} {as : List α} :
    scan key seen as = .ok (some r) ↔
      Clean key as ∧ (∀ k ∈ keys key as, k ∉ seen) ∧ r = (keys key as).reverse ++ seen := by
  induction as generalizing seen with
  | nil =>
    simp only [scan, Clean, keys, List.filterMap_nil, List.not_mem_nil, List.nodup_nil]
    constructor
    · intro h
      exact ⟨by simp, by simp, by simpa using h.symm⟩
    · rintro ⟨-, -, rfl⟩
      rfl
  | cons a as ih =>
    cases h : key a with
    | error e => simp [scan, h, not_clean_of_error h]
    | ok o =>
      cases o with
      | none => simp [scan, h, not_clean_of_none h]
      | some k =>
        simp only [scan, h, clean_cons h, keys_cons h, List.forall_mem_cons, List.reverse_cons,
          List.append_assoc, List.singleton_append]
        by_cases hk : k ∈ seen
        · simp [hk]
        · rw [if_neg hk, ih]
          simp only [List.mem_cons, not_or, hk, not_false_eq_true, true_and]
          constructor
          · rintro ⟨hc, hn, rfl⟩
            exact ⟨⟨fun hmem => (hn k hmem).1 rfl, hc⟩, fun j hj => (hn j hj).2, rfl⟩
          · rintro ⟨⟨hk', hc⟩, hn, rfl⟩
            exact ⟨hc, fun j hj => ⟨fun he => hk' (he ▸ hj), hn j hj⟩, rfl⟩

theorem scan_append (seen : List κ) (as bs : List α) :
    scan key seen (as ++ bs) =
      match scan key seen as with
      | .error e => .error e
      | .ok none => .ok none
      | .ok (some r) => scan key r bs := by
  induction as generalizing seen with
  | nil => rfl
  | cons a as ih =>
    rw [List.cons_append]
    simp only [scan]
    cases key a with
    | error e => rfl
    | ok o =>
      cases o with
      | none => rfl
      | some k =>
        by_cases hk : k ∈ seen
        · simp only [if_pos hk]
        · simp only [if_neg hk, ih]

/-- A scan from nothing fails exactly when an item whose reader fails comes
after clean items only. -/
theorem scan_eq_error_iff {as : List α} {e : ε} :
    scan key [] as = .error e ↔
      ∃ pre a post, as = pre ++ a :: post ∧ key a = .error e ∧ Clean key pre := by
  constructor
  · -- the item that fails is the last one read, so the list is taken apart from its end
    intro h
    induction as using List.reverseRecOn with
    | nil => simp [scan] at h
    | append_singleton as a ih =>
      rw [scan_append] at h
      cases hs : scan key [] as with
      | error e' =>
        rw [hs] at h
        obtain ⟨pre, b, post, rfl, hb, hc⟩ := ih (hs.trans h)
        exact ⟨pre, b, post ++ [a], by simp, hb, hc⟩
      | ok o =>
        rw [hs] at h
        cases o with
        | none => simp at h
        | some r =>
          have hclean := (scan_eq_some_iff.mp hs).1
          cases ha : key a with
          | error e' =>
            simp only [scan, ha] at h
            obtain rfl : e' = e := by simpa using h
            exact ⟨as, a, [], rfl, ha, hclean⟩
          | ok o =>
            cases o with
            | none => simp [scan, ha] at h
            | some k =>
              simp only [scan, ha] at h
              split_ifs at h
  · rintro ⟨pre, a, post, rfl, ha, hc⟩
    have hpre : scan key [] pre = .ok (some (keys key pre).reverse) :=
      scan_eq_some_iff.mpr ⟨hc, by simp, by simp⟩
    rw [scan_append, hpre]
    simp only [scan, ha]

theorem scan_of_total {as : List α} (h : ∀ a ∈ as, ∀ e, key a ≠ .error e) :
    scan key [] as = .ok (if Clean key as then some (keys key as).reverse else none) := by
  split_ifs with hc
  · exact scan_eq_some_iff.mpr ⟨hc, by simp, by simp⟩
  · cases hs : scan key [] as with
    | error e =>
      obtain ⟨pre, a, post, rfl, ha, -⟩ := scan_eq_error_iff.mp hs
      exact absurd ha (h a (by simp) e)
    | ok o =>
      cases o with
      | none => rfl
      | some r => exact absurd (scan_eq_some_iff.mp hs).1 hc

end General.KeyedScan
