import SnesApu.Apu.DspEchoBounds

/-!
# The sound processor stays inside its arrays

Every clock keeps the bounds of its phase, and only the directory entry of a
sample can lie outside the memory. Runs write one pair of samples for each pass
through phase 27.
-/

namespace SnesApu.Apu

open General

def pitchBound (phase : ℕ) : ℤ :=
  if phase ∈ [1, 4, 7, 10, 13, 16, 19, 22] then 0xFF
  else if 23 ≤ phase ∧ phase ≤ 30 then 0x3FFF
  else 0x7FFE

def echoBound (phase : ℕ) : ℤ :=
  if phase = 24 then 0x18000 else if phase = 25 then 0x30000 else 0x8000

def readsDirectory (phase : ℕ) : Prop := phase ∈ [0, 3, 6, 9, 12, 15, 18, 21]

instance (phase : ℕ) : Decidable (readsDirectory phase) := inferInstanceAs (Decidable (_ ∈ _))

/-- The entry that V2 would read lies past the end of the memory. -/
def BadDirectory (m : Dsp) : Prop := 0x10100 ≤ m.tDirAddr

instance (m : Dsp) : Decidable (BadDirectory m) := inferInstanceAs (Decidable (_ ≤ _))

def Dsp.Safe (f : DspFrame) (phase : ℕ) (m : Dsp) : Prop :=
  m.OkAt f (pitchBound phase) (echoBound phase)

def clockRam (phase : ℕ) (m : Dsp) : ℕ → UInt8 :=
  if phase = 29 then echoRam m 0 else if phase = 30 then echoRam m 1 else m.ram

section Clocks

variable {m : Dsp} {f : DspFrame} {pitch echo : ℤ}

theorem OkAt.setRam (h : m.OkAt f pitch echo) : m.OkAt (f.setRam m.ram) pitch echo :=
  { h with ram := rfl }

theorem voiceV7V4V1_meets {i : ℕ} (hi : i + 1 < 8) (h : m.OkAt f pitch echo) :
    Meets (voiceV7V4V1 i m) (Dsp.OkAt f pitch echo) :=
  voiceV4_meets (voiceV1_ok (voiceV7_ok h)) hi

theorem voiceV8V5V2_meets {i : ℕ} (hi : i < 8) (h : m.OkAt f pitch echo)
    (hdir : ¬ BadDirectory m) : Meets (voiceV8V5V2 i m) (Dsp.OkAt f 0xFF echo) :=
  voiceV2_meets (voiceV5_ok (voiceV8_ok h hi)) (not_le.mp hdir)

theorem voiceV9V6V3_meets {i : ℕ} (hi : i + 2 < 8) (h : m.OkAt f 0xFF echo) :
    Meets (voiceV9V6V3 i m) (Dsp.OkAt f 0x7FFE echo) :=
  voiceV3_meets (voiceV6_ok (voiceV9_ok h (by omega))) hi

theorem voiceV3c_echo {i : ℕ} {m' : Dsp} (h : voiceV3c i m = .ok m') :
    m'.tEchoPtr = m.tEchoPtr ∧ m'.tEchoOut = m.tEchoOut ∧ m'.tEchoEnabled = m.tEchoEnabled ∧
      m'.ram = m.ram := by
  simp only [voiceV3c, bind_eq_ok, pure_eq_ok] at h
  obtain ⟨output, -, rfl⟩ := h
  exact ⟨rfl, rfl, rfl, rfl⟩

theorem misc30_echo : echoRam (misc30 m) 1 = echoRam m 1 := by
  unfold misc30 latchKeys
  split_ifs <;> rfl

/-- The phases that do not store the echo: the bounds of one give those of the next. -/
theorem quiet_clock_meets {phase : ℕ} (hphase : phase < 32) (h29 : phase ≠ 29) (h30 : phase ≠ 30)
    (h : m.Safe f phase) (hdir : readsDirectory phase → ¬ BadDirectory m) :
    Meets (clock phase m) (Dsp.Safe f ((phase + 1) % 32)) := by
  unfold Dsp.Safe at h ⊢
  interval_cases phase
  case «0» => exact voiceV2_meets (voiceV5_ok h) (not_le.mp (hdir (by decide)))
  case «1» => exact voiceV3_meets (voiceV6_ok h) (by norm_num)
  case «2» => exact voiceV7V4V1_meets (by norm_num) h
  case «3» => exact voiceV8V5V2_meets (by norm_num) h (hdir (by decide))
  case «4» => exact voiceV9V6V3_meets (by norm_num) h
  case «5» => exact voiceV7V4V1_meets (by norm_num) h
  case «6» => exact voiceV8V5V2_meets (by norm_num) h (hdir (by decide))
  case «7» => exact voiceV9V6V3_meets (by norm_num) h
  case «8» => exact voiceV7V4V1_meets (by norm_num) h
  case «9» => exact voiceV8V5V2_meets (by norm_num) h (hdir (by decide))
  case «10» => exact voiceV9V6V3_meets (by norm_num) h
  case «11» => exact voiceV7V4V1_meets (by norm_num) h
  case «12» => exact voiceV8V5V2_meets (by norm_num) h (hdir (by decide))
  case «13» => exact voiceV9V6V3_meets (by norm_num) h
  case «14» => exact voiceV7V4V1_meets (by norm_num) h
  case «15» => exact voiceV8V5V2_meets (by norm_num) h (hdir (by decide))
  case «16» => exact voiceV9V6V3_meets (by norm_num) h
  case «17» => exact voiceV4_meets (voiceV7_ok (voiceV1_ok h)) (by norm_num)
  case «18» => exact voiceV8V5V2_meets (by norm_num) h (hdir (by decide))
  case «19» => exact voiceV9V6V3_meets (by norm_num) h
  case «20» => exact voiceV4_meets (voiceV7_ok (voiceV1_ok h)) (by norm_num)
  case «21» =>
    exact voiceV2_meets (voiceV5_ok (voiceV8_ok h (by norm_num))) (not_le.mp (hdir (by decide)))
  case «22» => exact echo22_meets (voiceV6_ok (voiceV9_ok (voiceV3a_ok h) (by norm_num)))
  case «23» => exact echo23_meets (voiceV7_ok h)
  case «24» => exact echo24_meets (voiceV8_ok h (by norm_num))
  case «25» =>
    exact (voiceV3b_meets h (by norm_num)).bind fun _ h' =>
      echo25_meets (voiceV9_ok h' (by norm_num))
  case «26» => exact Meets.pure (echo26_ok h)
  case «27» => exact Meets.pure (echo27_ok (misc27_ok h))
  case «28» => exact Meets.pure (echo28_ok (misc28_ok h))
  case «29» => exact absurd rfl h29
  case «30» => exact absurd rfl h30
  case «31» => exact (voiceV4_meets h (by norm_num)).bind fun _ h' => Meets.pure (voiceV1_ok h')

/-- One clock keeps the bounds and the frame, and touches the memory only to
store the echo. -/
theorem clock_meets {phase : ℕ} (hphase : phase < 32) (h : m.Safe f phase)
    (hdir : readsDirectory phase → ¬ BadDirectory m) :
    Meets (clock phase m) fun m' =>
      m'.Safe (f.setRam m'.ram) ((phase + 1) % 32) ∧ m'.ram = clockRam phase m := by
  by_cases h29 : phase = 29
  · subst h29
    refine (echo29_meets (misc29_ok h)).mono fun m' h' => ⟨by rw [h'.2]; exact h'.1, h'.2.trans ?_⟩
    unfold misc29
    dsimp only
    split_ifs <;> rfl
  · by_cases h30 : phase = 30
    · subst h30
      obtain ⟨m₁, hm₁, h₁⟩ := voiceV3c_meets (i := 0) (misc30_ok h) (by norm_num)
      obtain ⟨hptr, hout, hen, hram⟩ := voiceV3c_echo hm₁
      have hclock : clock 30 m = echo30 m₁ := by
        simp only [clock, hm₁, ok_bind]
      rw [hclock]
      refine (echo30_meets h₁).mono fun m' h' => ⟨by rw [h'.2]; exact h'.1, h'.2.trans ?_⟩
      have hsame : echoRam m₁ 1 = echoRam (misc30 m) 1 := by
        simp only [echoRam, echoPtr, hptr, hout, hen, hram]
      rw [hsame, misc30_echo]
      rfl
    · refine (quiet_clock_meets hphase h29 h30 h hdir).mono fun m' h' => ⟨OkAt.setRam h', ?_⟩
      rw [clockRam, if_neg h29, if_neg h30, h.ram]
      exact h'.ram

/-- A clock fails in one way: it reads a directory entry past the end of the memory. -/
theorem clock_eq_error_iff {phase : ℕ} (hphase : phase < 32) (h : m.Safe f phase) {e : Failure} :
    clock phase m = .error e ↔ e = .outside ∧ readsDirectory phase ∧ BadDirectory m := by
  by_cases hbad : readsDirectory phase ∧ BadDirectory m
  · have hphases : phase = 0 ∨ phase = 3 ∨ phase = 6 ∨ phase = 9 ∨ phase = 12 ∨ phase = 15 ∨
        phase = 18 ∨ phase = 21 := by
      simpa [readsDirectory] using hbad.1
    have hclock : clock phase m = .error .outside := by
      rcases hphases with rfl | rfl | rfl | rfl | rfl | rfl | rfl | rfl <;>
        exact voiceV2_outside hbad.2
    rw [hclock, Except.error.injEq, eq_comm]
    exact ⟨fun he => ⟨he, hbad⟩, fun he => he.1⟩
  · obtain ⟨m', hm', -⟩ := clock_meets hphase h fun hreads hdir => hbad ⟨hreads, hdir⟩
    rw [hm']
    exact iff_of_false (by simp) fun he => hbad he.2

theorem good_of_clock {phase : ℕ} (hphase : phase < 32) (h : m.Safe f phase) {m' : Dsp}
    (hclock : clock phase m = .ok m') : readsDirectory phase → ¬ BadDirectory m := by
  intro hreads hbad
  rw [(clock_eq_error_iff hphase h).mpr ⟨rfl, hreads, hbad⟩] at hclock
  exact absurd hclock (by simp)

end Clocks

/-! ### Runs -/

section Runs

variable {m : Dsp} {f : DspFrame}

theorem emit_samples {phase : ℕ} (h : m.Safe f phase) :
    ∀ pair ∈ emit phase m, Sample pair.1 ∧ Sample pair.2 := by
  intro pair hpair
  unfold emit at hpair
  split_ifs at hpair
  · rw [List.mem_singleton] at hpair
    subst hpair
    unfold outputPair
    split_ifs
    · exact ⟨sample_zero, sample_zero⟩
    · exact ⟨h.mainOut 0, clamp16_mem _⟩
  · simp at hpair

theorem runFrom_safe {n phase : ℕ} (hphase : phase < 32) (h : m.Safe f phase)
    {result : Dsp × List (ℤ × ℤ)} (hrun : runFrom n phase m = .ok result) :
    result.1.Safe (f.setRam result.1.ram) ((phase + n) % 32) ∧
      ∀ pair ∈ result.2, Sample pair.1 ∧ Sample pair.2 := by
  induction n generalizing phase m f result with
  | zero =>
    obtain rfl : (m, []) = result := Except.ok.inj hrun
    rw [add_zero, Nat.mod_eq_of_lt hphase]
    exact ⟨OkAt.setRam h, by simp⟩
  | succ n ih =>
    simp only [runFrom, bind_eq_ok, pure_eq_ok] at hrun
    obtain ⟨next, hclock, rest, hrest, rfl⟩ := hrun
    obtain ⟨m', hm', hsafe, -⟩ := clock_meets hphase h (good_of_clock hphase h hclock)
    obtain rfl : m' = next := Except.ok.inj (hm'.symm.trans hclock)
    obtain ⟨hlast, hpairs⟩ := ih (Nat.mod_lt _ (by norm_num)) hsafe hrest
    refine ⟨?_, ?_⟩
    · have hphases : (phase + (n + 1)) % 32 = ((phase + 1) % 32 + n) % 32 := by omega
      rw [hphases]
      exact hlast
    · intro pair hpair
      rcases List.mem_append.mp hpair with hfirst | hlater
      · exact emit_samples h pair hfirst
      · exact hpairs pair hlater

/-- With DIR at most `$FD` in the frame no entry of the directory lies past the
end of the memory, so every run finishes. -/
theorem runFrom_meets {n phase : ℕ} (hphase : phase < 32) (h : m.Safe f phase)
    (hdir : f.dirMax ≤ 0xFD) : ∃ result, runFrom n phase m = .ok result := by
  induction n generalizing phase m f with
  | zero => exact ⟨_, rfl⟩
  | succ n ih =>
    have hgood : ¬ BadDirectory m := by
      have hentry := h.dirEntry
      unfold BadDirectory
      omega
    obtain ⟨m', hm', hsafe, -⟩ := clock_meets hphase h fun _ => hgood
    obtain ⟨rest, hrest⟩ := ih (Nat.mod_lt _ (by norm_num)) hsafe hdir
    exact ⟨(rest.1, emit phase m ++ rest.2), by simp only [runFrom, hm', ok_bind, hrest]; rfl⟩

/-- A run that fails leaves the memory; the assertion of V4 holds in every run. -/
theorem runFrom_error {n phase : ℕ} (hphase : phase < 32) (h : m.Safe f phase) {e : Failure}
    (hrun : runFrom n phase m = .error e) : e = .outside := by
  induction n generalizing phase m f with
  | zero => exact absurd hrun (by simp [runFrom])
  | succ n ih =>
    rw [runFrom] at hrun
    cases hclock : clock phase m with
    | error e' =>
      rw [hclock] at hrun
      obtain rfl := Except.error.inj hrun
      exact ((clock_eq_error_iff hphase h).mp hclock).1
    | ok next =>
      obtain ⟨m', hm', hsafe, -⟩ := clock_meets hphase h (good_of_clock hphase h hclock)
      obtain rfl : m' = next := Except.ok.inj (hm'.symm.trans hclock)
      rw [hclock, ok_bind] at hrun
      cases hrest : runFrom n ((phase + 1) % 32) m' with
      | error e' =>
        rw [hrest] at hrun
        obtain rfl := Except.error.inj hrun
        exact ih (Nat.mod_lt _ (by norm_num)) hsafe hrest
      | ok rest =>
        rw [hrest] at hrun
        exact absurd hrun (by simp [pure, Except.pure])

/-- The number of passes through phase 27 in `n` clocks from `phase`. -/
def pairCount (phase n : ℕ) : ℕ := (phase + n + 4) / 32 - (phase + 4) / 32

theorem runFrom_pairs {n phase : ℕ} (hphase : phase < 32) {result : Dsp × List (ℤ × ℤ)}
    (hrun : runFrom n phase m = .ok result) : result.2.length = pairCount phase n := by
  induction n generalizing phase m result with
  | zero =>
    obtain rfl : (m, []) = result := Except.ok.inj hrun
    simp [pairCount]
  | succ n ih =>
    simp only [runFrom, bind_eq_ok, pure_eq_ok] at hrun
    obtain ⟨next, -, rest, hrest, rfl⟩ := hrun
    have hlength := ih (Nat.mod_lt _ (by norm_num)) hrest
    rw [List.length_append, hlength]
    unfold emit pairCount
    split_ifs with h27
    · rw [List.length_singleton]
      omega
    · rw [List.length_nil]
      omega

end Runs

end SnesApu.Apu
