import SnesApu.General.CatchUp

/-!
# The three timers of the SMP

A timer divides its clock by a prescaler, counts the result in an 8-bit divider
against its period, and counts the matches in a 4-bit counter that reading
clears. The emulator brings a timer up to date only when a register access
needs it. `Timer.clock` is the timer as a circuit that moves at every clock.
-/

namespace SnesApu.Apu

open General

structure Timer where
  nextTime : ℤ
  prescaler : ℤ
  period : ℤ
  divider : ℤ
  enabled : Bool
  counter : ℤ
  deriving DecidableEq

def Timer.setNextTime (t : Timer) (next : ℤ) : Timer := { t with nextTime := next }

def ifZeroThen256 (n : ℤ) : ℤ := (n - 1) % 256 + 1

/-- The part of `run_timer_` that an enabled timer goes through. -/
def Timer.count (t : Timer) (elapsed : ℤ) : Timer :=
  if t.enabled then
    let remain := ifZeroThen256 (t.period - t.divider)
    let divider := t.divider + elapsed
    let past := elapsed - remain
    if 0 ≤ past then
      let n := past.tdiv t.period
      { t with
        counter := (t.counter + 1 + n) % 16
        divider := (past - n * t.period) % 256 }
    else { t with divider := divider % 256 }
  else t

def runTimer_ (t : Timer) (time : ℤ) : Timer :=
  let elapsed := (time - t.nextTime).tdiv t.prescaler + 1
  (t.setNextTime (t.nextTime + elapsed * t.prescaler)).count elapsed

def runTimer (t : Timer) (time : ℤ) : Timer :=
  if t.nextTime ≤ time then runTimer_ t time else t

structure Timer.Valid (t : Timer) : Prop where
  prescaler_pos : 0 < t.prescaler
  period_pos : 1 ≤ t.period
  period_le : t.period ≤ 256
  divider_nonneg : 0 ≤ t.divider
  divider_lt : t.divider < 256
  counter_nonneg : 0 ≤ t.counter
  counter_lt : t.counter < 16

/-- One pulse out of the prescaler. -/
def Timer.tick (t : Timer) : Timer :=
  if t.enabled then
    let divider := (t.divider + 1) % 256
    if divider = t.period % 256 then { t with divider := 0, counter := (t.counter + 1) % 16 }
    else { t with divider := divider }
  else t

def Timer.clock (now : ℤ) (t : Timer) : Timer :=
  if now = t.nextTime then t.tick.setNextTime (t.nextTime + t.prescaler) else t

theorem ifZeroThen256_mem (n : ℤ) : 1 ≤ ifZeroThen256 n ∧ ifZeroThen256 n ≤ 256 := by
  unfold ifZeroThen256
  omega

section Count

variable {t : Timer}

theorem succ_div_mod {a b : ℤ} (hb : 0 < b) :
    if a % b + 1 = b then (a + 1) / b = a / b + 1 ∧ (a + 1) % b = 0
    else (a + 1) / b = a / b ∧ (a + 1) % b = a % b + 1 := by
  have hdm := Int.emod_add_mul_ediv a b
  have hlow := Int.emod_nonneg a hb.ne'
  have hhigh := Int.emod_lt_of_pos a hb
  split_ifs with hlast
  · rw [Int.ediv_emod_unique hb]
    refine ⟨?_, le_rfl, hb⟩
    rw [mul_add]
    linarith
  · rw [Int.ediv_emod_unique hb]
    exact ⟨by linarith, by omega, by omega⟩

@[simp] theorem count_period (elapsed : ℤ) : (t.count elapsed).period = t.period := by
  unfold Timer.count
  split_ifs
  · dsimp only
    split_ifs <;> rfl
  · rfl

@[simp] theorem count_enabled (elapsed : ℤ) : (t.count elapsed).enabled = t.enabled := by
  unfold Timer.count
  split_ifs
  · dsimp only
    split_ifs <;> rfl
  · rfl

@[simp] theorem count_prescaler (elapsed : ℤ) : (t.count elapsed).prescaler = t.prescaler := by
  unfold Timer.count
  split_ifs
  · dsimp only
    split_ifs <;> rfl
  · rfl

theorem count_disabled (h : t.enabled = false) (elapsed : ℤ) : t.count elapsed = t := by
  simp [Timer.count, h]

theorem count_zero (hv : t.Valid) : t.count 0 = t := by
  by_cases he : t.enabled
  · obtain ⟨hlow, -⟩ := ifZeroThen256_mem (t.period - t.divider)
    have hneg : ¬ 0 ≤ 0 - ifZeroThen256 (t.period - t.divider) := by omega
    have hdiv : (t.divider + 0) % 256 = t.divider := by
      rw [add_zero]
      exact Int.emod_eq_of_lt hv.divider_nonneg hv.divider_lt
    unfold Timer.count
    simp only [hneg, if_false, hdiv]
    rw [if_pos he]
  · exact count_disabled (by simpa using he) 0

/-- Counting many pulses at once is counting them one by one. -/
theorem count_succ (hv : t.Valid) {n : ℤ} (hn : 0 ≤ n) : t.count (n + 1) = (t.count n).tick := by
  by_cases he : t.enabled
  case neg =>
    have hf : t.enabled = false := by simpa using he
    simp [count_disabled hf, Timer.tick, hf]
  case pos =>
    have hp := hv.period_pos
    have hp' := hv.period_le
    have hdlow := hv.divider_nonneg
    have hdhigh := hv.divider_lt
    have hremain : ifZeroThen256 (t.period - t.divider) = (t.period - t.divider - 1) % 256 + 1 :=
      rfl
    obtain ⟨hlow, hhigh⟩ := ifZeroThen256_mem (t.period - t.divider)
    set remain := ifZeroThen256 (t.period - t.divider) with hr
    clear_value remain
    rcases lt_trichotomy (n + 1) remain with hlt | heq | hgt
    · -- no match yet: the divider only moves on
      have h0 : ¬ 0 ≤ n - remain := by omega
      have h1 : ¬ 0 ≤ n + 1 - remain := by omega
      have hne : ((t.divider + n) % 256 + 1) % 256 ≠ t.period % 256 := by omega
      have hadd : (t.divider + (n + 1)) % 256 = ((t.divider + n) % 256 + 1) % 256 := by omega
      simp only [Timer.count, he, if_true, ← hr, h0, h1, if_false, Timer.tick, hne, hadd]
    · -- the first match
      have h0 : ¬ 0 ≤ n - remain := by omega
      have h1 : 0 ≤ n + 1 - remain := by omega
      have hpast : n + 1 - remain = 0 := by omega
      have hmatch : ((t.divider + n) % 256 + 1) % 256 = t.period % 256 := by omega
      simp only [Timer.count, he, if_true, ← hr, h0, if_false, Timer.tick, hmatch, hpast,
        Int.zero_tdiv, le_refl, add_zero, zero_mul, sub_zero, Int.zero_emod]
    · -- past the first match the divider is the remainder by the period
      have h0 : 0 ≤ n - remain := by omega
      have h1 : 0 ≤ n + 1 - remain := by omega
      obtain ⟨past, hpast⟩ : ∃ past, past = n - remain := ⟨_, rfl⟩
      have hpast1 : n + 1 - remain = past + 1 := by omega
      have hq : past.tdiv t.period = past / t.period := Int.tdiv_eq_ediv_of_nonneg (by omega)
      have hq1 : (past + 1).tdiv t.period = (past + 1) / t.period :=
        Int.tdiv_eq_ediv_of_nonneg (by omega)
      have hmod : past - past / t.period * t.period = past % t.period := by
        rw [Int.emod_def, mul_comm]
      have hmod1 : past + 1 - (past + 1) / t.period * t.period = (past + 1) % t.period := by
        rw [Int.emod_def, mul_comm]
      have hrlow := Int.emod_nonneg past (show t.period ≠ 0 by omega)
      have hrhigh := Int.emod_lt_of_pos past (show 0 < t.period by omega)
      have h256 : past % t.period % 256 = past % t.period := Int.emod_eq_of_lt hrlow (by omega)
      simp only [Timer.count, he, if_true, ← hr, ← hpast, hpast1, hpast ▸ h0,
        show 0 ≤ past + 1 by omega, hq, hq1, hmod, hmod1, Timer.tick, h256]
      have hsucc := succ_div_mod (a := past) (show 0 < t.period by omega)
      by_cases hlast : past % t.period + 1 = t.period
      · rw [if_pos hlast] at hsucc
        have hmatch : (past % t.period + 1) % 256 = t.period % 256 := by rw [hlast]
        have hcount : (t.counter + 1 + (past / t.period + 1)) % 16 =
            ((t.counter + 1 + past / t.period) % 16 + 1) % 16 := by omega
        simp only [hmatch, if_true, hsucc.1, hsucc.2, hcount, Int.zero_emod]
      · rw [if_neg hlast] at hsucc
        have hmiss : (past % t.period + 1) % 256 ≠ t.period % 256 := by omega
        simp only [hmiss, if_false, hsucc.1, hsucc.2]

theorem count_valid (hv : t.Valid) (elapsed : ℤ) : (t.count elapsed).Valid := by
  have hc := hv.counter_nonneg
  unfold Timer.count
  split_ifs
  · dsimp only
    split_ifs
    · exact ⟨hv.prescaler_pos, hv.period_pos, hv.period_le, by dsimp only; omega,
        by dsimp only; omega, by dsimp only; omega, by dsimp only; omega⟩
    · exact ⟨hv.prescaler_pos, hv.period_pos, hv.period_le, by dsimp only; omega,
        by dsimp only; omega, hc, hv.counter_lt⟩
  · exact hv

end Count

section Running

variable {t : Timer}

@[simp] theorem nextTime_setNextTime (next : ℤ) : (t.setNextTime next).nextTime = next := rfl

@[simp] theorem prescaler_setNextTime (next : ℤ) :
    (t.setNextTime next).prescaler = t.prescaler := rfl

@[simp] theorem setNextTime_setNextTime (first next : ℤ) :
    (t.setNextTime first).setNextTime next = t.setNextTime next := rfl

theorem setNextTime_valid (hv : t.Valid) (next : ℤ) : (t.setNextTime next).Valid :=
  ⟨hv.1, hv.2, hv.3, hv.4, hv.5, hv.6, hv.7⟩

theorem count_setNextTime (next elapsed : ℤ) :
    (t.setNextTime next).count elapsed = (t.count elapsed).setNextTime next := by
  unfold Timer.count Timer.setNextTime
  split_ifs
  · dsimp only
    split_ifs <;> rfl
  · rfl

theorem tick_setNextTime (next : ℤ) :
    (t.setNextTime next).tick = t.tick.setNextTime next := by
  unfold Timer.tick Timer.setNextTime
  split_ifs
  · dsimp only
    split_ifs <;> rfl
  · rfl

theorem runTimer_early {time : ℤ} (h : time < t.nextTime) : runTimer t time = t :=
  if_neg (by omega)

theorem runTimer_due {time : ℤ} (h : t.nextTime ≤ time) :
    runTimer t time =
      (t.count ((time - t.nextTime) / t.prescaler + 1)).setNextTime
        (t.nextTime + ((time - t.nextTime) / t.prescaler + 1) * t.prescaler) := by
  rw [runTimer, if_pos h, runTimer_, Int.tdiv_eq_ediv_of_nonneg (by omega)]
  exact count_setNextTime _ _

@[simp] theorem runTimer_period (time : ℤ) : (runTimer t time).period = t.period := by
  unfold runTimer
  split_ifs
  · exact count_period _
  · rfl

@[simp] theorem runTimer_enabled (time : ℤ) : (runTimer t time).enabled = t.enabled := by
  unfold runTimer
  split_ifs
  · exact count_enabled _
  · rfl

theorem runTimer_valid (hv : t.Valid) (time : ℤ) : (runTimer t time).Valid := by
  rcases lt_or_ge time t.nextTime with h | h
  · rw [runTimer_early h]
    exact hv
  · rw [runTimer_due h]
    exact setNextTime_valid (count_valid hv _) _

/-- A timer that was run to a clock is due only after it. -/
theorem lt_nextTime_runTimer (hv : t.Valid) (time : ℤ) : time < (runTimer t time).nextTime := by
  rcases lt_or_ge time t.nextTime with h | h
  · rw [runTimer_early h]
    exact h
  · rw [runTimer_due h]
    have hp := hv.prescaler_pos
    have hlt := Int.lt_ediv_add_one_mul_self (time - t.nextTime) hp
    rw [nextTime_setNextTime]
    omega

theorem runTimer_add_one (hv : t.Valid) (time : ℤ) :
    runTimer t (time + 1) = (runTimer t time).clock (time + 1) := by
  have hp := hv.prescaler_pos
  rcases lt_trichotomy (time + 1) t.nextTime with h | h | h
  · rw [runTimer_early h, runTimer_early (by omega), Timer.clock, if_neg (by omega)]
  · have hfirst : t.count (0 + 1) = t.tick := by rw [count_succ hv le_rfl, count_zero hv]
    have hearly : runTimer t time = t := runTimer_early (by omega)
    rw [hearly, Timer.clock, if_pos h, runTimer_due h.ge, h, sub_self, Int.zero_ediv, hfirst,
      zero_add, one_mul]
  · have hbefore : runTimer t time = _ := runTimer_due (by omega)
    have hafter : runTimer t (time + 1) = _ := runTimer_due h.le
    have hsucc := succ_div_mod (a := time - t.nextTime) hp
    have hshift : time + 1 - t.nextTime = time - t.nextTime + 1 := by ring
    have hdm := Int.emod_add_mul_ediv (time - t.nextTime) t.prescaler
    have hrhigh := Int.emod_lt_of_pos (time - t.nextTime) hp
    have hqlow : 0 ≤ (time - t.nextTime) / t.prescaler := Int.ediv_nonneg (by omega) hp.le
    rw [hbefore, hafter, hshift, Timer.clock]
    set q := (time - t.nextTime) / t.prescaler
    by_cases hlast : (time - t.nextTime) % t.prescaler + 1 = t.prescaler
    · rw [if_pos hlast] at hsucc
      have hdue : time + 1 = t.nextTime + (q + 1) * t.prescaler := by linarith
      rw [hsucc.1, count_succ hv (by omega), nextTime_setNextTime, if_pos hdue, tick_setNextTime,
        prescaler_setNextTime, count_prescaler, setNextTime_setNextTime]
      congr 1
      ring
    · rw [if_neg hlast] at hsucc
      have hnot : time + 1 ≠ t.nextTime + (q + 1) * t.prescaler := by
        intro heq
        apply hlast
        linarith
      rw [hsucc.1, nextTime_setNextTime, if_neg hnot]

end Running

theorem timer_catchUp :
    CatchUp Timer.clock (fun time t => runTimer t time) Timer.Valid where
  keeps time _ hv := runTimer_valid hv time
  idem time _ hv := runTimer_early (lt_nextTime_runTimer hv time)
  step time _ hv := runTimer_add_one hv time

/-! ### Register accesses -/

/-- A timer output register as `cpu_read` reads it. -/
def readOut (t : Timer) (time : ℤ) : Timer × ℤ :=
  let t := runTimer t time
  ({ t with counter := 0 }, t.counter)

def writeTarget (t : Timer) (data time : ℤ) : Timer :=
  let period := ifZeroThen256 data
  if t.period ≠ period then { runTimer t time with period := period } else t

def writeOut (t : Timer) (time : ℤ) : Timer := { runTimer t (time - 1) with counter := 0 }

def writeEnabled (t : Timer) (enabled : Bool) (time : ℤ) : Timer :=
  if t.enabled ≠ enabled then
    let t := { runTimer t time with enabled := enabled }
    if enabled then { t with divider := 0, counter := 0 } else t
  else t

inductive TimerAccess where
  | readOut
  | writeTarget (data : ℤ)
  | writeOut
  | writeEnabled (enabled : Bool)
  deriving DecidableEq

def accessTimer (time : ℤ) (access : TimerAccess) (t : Timer) : Timer × ℤ :=
  match access with
  | .readOut => readOut t time
  | .writeTarget data => (writeTarget t data time, 0)
  | .writeOut => (writeOut t time, 0)
  | .writeEnabled enabled => (writeEnabled t enabled time, 0)

/-- The accesses on a timer that is never behind: a cleared output register is
cleared before the pulse of its clock, everything else comes after it. -/
def timerPort : Port Timer TimerAccess ℤ where
  before access t :=
    match access with
    | .writeOut => { t with counter := 0 }
    | _ => t
  after access t :=
    match access with
    | .readOut => ({ t with counter := 0 }, t.counter)
    | .writeTarget data => ({ t with period := ifZeroThen256 data }, 0)
    | .writeOut => (t, 0)
    | .writeEnabled enabled =>
      if t.enabled = enabled then (t, 0)
      else if enabled then ({ t with enabled := true, divider := 0, counter := 0 }, 0)
      else ({ t with enabled := false }, 0)

theorem readOut_valid {t : Timer} (hv : t.Valid) (time : ℤ) : (readOut t time).1.Valid := by
  have h := runTimer_valid hv time
  exact ⟨h.1, h.2, h.3, h.4, h.5, le_rfl, by norm_num [readOut]⟩

theorem writeTarget_valid {t : Timer} (hv : t.Valid) (data time : ℤ) :
    (writeTarget t data time).Valid := by
  have h := runTimer_valid hv time
  obtain ⟨hlow, hhigh⟩ := ifZeroThen256_mem data
  unfold writeTarget
  dsimp only
  split_ifs
  · exact ⟨h.1, hlow, hhigh, h.4, h.5, h.6, h.7⟩
  · exact hv

theorem writeOut_valid {t : Timer} (hv : t.Valid) (time : ℤ) : (writeOut t time).Valid := by
  have h := runTimer_valid hv (time - 1)
  exact ⟨h.1, h.2, h.3, h.4, h.5, le_rfl, by norm_num [writeOut]⟩

theorem writeEnabled_valid {t : Timer} (hv : t.Valid) (enabled : Bool) (time : ℤ) :
    (writeEnabled t enabled time).Valid := by
  have h := runTimer_valid hv time
  unfold writeEnabled
  split_ifs
  · exact ⟨h.1, h.2, h.3, le_rfl, by norm_num, le_rfl, by norm_num⟩
  · exact ⟨h.1, h.2, h.3, h.4, h.5, h.6, h.7⟩
  · exact hv

theorem accessTimer_valid {t : Timer} (hv : t.Valid) (time : ℤ) (access : TimerAccess) :
    (accessTimer time access t).1.Valid := by
  cases access with
  | readOut => exact readOut_valid hv time
  | writeTarget data => exact writeTarget_valid hv data time
  | writeOut => exact writeOut_valid hv time
  | writeEnabled enabled => exact writeEnabled_valid hv enabled time

theorem clock_runTimer {t : Timer} (hv : t.Valid) (time : ℤ) :
    (runTimer t (time - 1)).clock time = runTimer t time := by
  have h := runTimer_add_one hv (time - 1)
  rw [sub_add_cancel] at h
  exact h.symm

theorem clock_writeOut {t : Timer} (hv : t.Valid) (time : ℤ) :
    runTimer (writeOut t time) time = (writeOut t time).clock time := by
  have hlt : time - 1 < (writeOut t time).nextTime := lt_nextTime_runTimer hv (time - 1)
  have h := runTimer_add_one (writeOut_valid hv time) (time - 1)
  rw [sub_add_cancel, runTimer_early hlt] at h
  exact h

/-- The four accesses, each bringing the timer up to date as far as it needs,
do what they do on a timer that moves at every clock. -/
theorem accessTimer_serves :
    Serves Timer.clock (fun time t => runTimer t time) timerPort accessTimer Timer.Valid where
  keeps time access t hv := accessTimer_valid hv time access
  answer time access t hv := by
    cases access with
    | readOut =>
      change (runTimer t time).counter = ((runTimer t (time - 1)).clock time).counter
      rw [clock_runTimer hv]
    | writeTarget data => rfl
    | writeOut => rfl
    | writeEnabled enabled =>
      simp only [accessTimer, timerPort]
      split_ifs <;> rfl
  leaves time access t hv := by
    have hlt := lt_nextTime_runTimer hv time
    have hclock := clock_runTimer hv time
    cases access with
    | readOut =>
      simp only [accessTimer, readOut, timerPort, hclock]
      exact runTimer_early hlt
    | writeTarget data =>
      simp only [accessTimer, writeTarget, timerPort, hclock]
      split_ifs with hsame
      · exact runTimer_early hlt
      · rw [← not_not.mp hsame, ← runTimer_period (t := t) time]
    | writeOut => exact clock_writeOut hv time
    | writeEnabled enabled =>
      simp only [accessTimer, writeEnabled, timerPort, hclock, runTimer_enabled]
      by_cases hsame : t.enabled = enabled
      · rw [if_neg (not_not.mpr hsame), if_pos hsame]
      · rw [if_pos hsame, if_neg hsame]
        cases enabled with
        | false => exact runTimer_early hlt
        | true => exact runTimer_early hlt

/-- Whatever the order of the accesses and the clocks between them, the lazily
run timer answers as one that moves at every clock. -/
theorem lazy_timer_outputs (t : Timer) (hv : t.Valid) (now : ℤ)
    (accesses : List (ℕ × TimerAccess)) :
    (lazyMachine accessTimer).outputs (now, t) accesses =
      (eagerMachine Timer.clock timerPort).outputs (now, runTimer t now) accesses :=
  accessTimer_serves.outputs_eq timer_catchUp now hv accesses

theorem lazy_timer_outputs_loaded :
    (lazyMachine accessTimer).outputs (0, ⟨1, 16, 3, 0, true, 0⟩)
        [(500, .readOut), (7, .writeTarget 2), (90, .readOut)] =
      (eagerMachine Timer.clock timerPort).outputs (0, runTimer ⟨1, 16, 3, 0, true, 0⟩ 0)
        [(500, .readOut), (7, .writeTarget 2), (90, .readOut)] :=
  lazy_timer_outputs _ ⟨by decide, by decide, by decide, by decide, by decide, by decide, by decide⟩
    0 _

end SnesApu.Apu
