import SnesApu.Apu.DspSafety

/-!
# Everything that can happen to the sound processor

The processor runs for some clocks, the program writes a register, or it stores
into the shared memory, in any order. The bounds hold after every such history
of a loaded processor.
-/

namespace SnesApu.Apu

open General

section Reachable

variable {m : Dsp} {f : DspFrame}

theorem loadedVoice_ok {i : ℕ} : (loadedVoice i).Ok i where
  regs := rfl
  bufPos := .inl rfl
  interpPos := by norm_num [loadedVoice]
  brrAddr := by norm_num [loadedVoice]
  brrOffset := .inl rfl
  konDelay := by norm_num [loadedVoice]
  env := by norm_num [loadedVoice]
  hiddenEnv := by norm_num [loadedVoice]
  samples _ := sample_zero
  mirrored _ _ := rfl

theorem load_safe (m : Dsp) {regs : ℕ → UInt8} (f : DspFrame) (hregs : f.regs = regs)
    (hram : f.ram = m.ram) (hmute : f.muteMask = m.muteMask) : (m.load regs).Safe f 0 := by
  have hdir := f.dir_le
  rw [hregs] at hdir
  exact {
    voices := fun i _ => loadedVoice_ok
    noise := by norm_num [Dsp.load, clearedDsp, Dsp.softResetCommon]
    counter := by norm_num [Dsp.load, clearedDsp, Dsp.softResetCommon, simpleCounterRange]
    echoHistPos := by norm_num [Dsp.load, clearedDsp, Dsp.softResetCommon]
    echoHist := fun _ _ => by norm_num [Dsp.load, clearedDsp, Dsp.softResetCommon]
    echoOffset := by norm_num [Dsp.load, clearedDsp, Dsp.softResetCommon]
    echoLength := by norm_num [Dsp.load, clearedDsp, Dsp.softResetCommon]
    dirAddr := by norm_num [Dsp.load, clearedDsp, Dsp.softResetCommon]
    nextAddr := by norm_num [Dsp.load, clearedDsp, Dsp.softResetCommon]
    adsr0 := by norm_num [Dsp.load, clearedDsp, Dsp.softResetCommon]
    brrHeader := by norm_num [Dsp.load, clearedDsp, Dsp.softResetCommon]
    brrByte := by norm_num [Dsp.load, clearedDsp, Dsp.softResetCommon]
    output := sample_zero
    echoPtr := by norm_num [Dsp.load, clearedDsp, Dsp.softResetCommon]
    mainOut := fun _ => sample_zero
    echoOut := fun _ => sample_zero
    pitch := by norm_num [Dsp.load, clearedDsp, Dsp.softResetCommon, pitchBound]
    echoIn := fun _ => by norm_num [Dsp.load, clearedDsp, Dsp.softResetCommon, echoBound]
    regs := fun r _ => by rw [hregs]; rfl
    ram := hram.symm
    muteMask := hmute.symm
    dir := hdir
    dirEntry := by
      dsimp only [Dsp.load, clearedDsp, Dsp.softResetCommon]
      positivity }

/-- The frame after the program wrote `data` to a register. -/
def DspFrame.write (f : DspFrame) (addr : ℕ) (data : UInt8)
    (h : addr = rDir → data.toNat ≤ f.dirMax) : DspFrame :=
  { f with
    regs := Function.update f.regs addr (if addr = rEndx then 0 else data)
    dir_le := by
      by_cases haddr : addr = rDir
      · subst haddr
        rw [Function.update_self, if_neg (by decide)]
        exact h rfl
      · rw [Function.update_of_ne (Ne.symm haddr)]
        exact f.dir_le }

theorem write_safe {phase addr : ℕ} {data : UInt8} (h : m.Safe f phase)
    (hdata : addr = rDir → data.toNat ≤ f.dirMax) :
    (m.write addr data).Safe (f.write addr data hdata) phase := by
  have hregs : ∀ r, ProgramReg r →
      Function.update m.regs addr (if addr = rEndx then 0 else data) r =
        Function.update f.regs addr (if addr = rEndx then 0 else data) r := by
    intro r hr
    rw [Function.update_apply, Function.update_apply, h.regs r hr]
  exact { h with regs := hregs }

theorem setRam_safe {phase : ℕ} (h : m.Safe f phase) (ram : ℕ → UInt8) :
    Dsp.Safe (f.setRam ram) phase { m with ram := ram } := { h with ram := rfl }

/-- What happens to the processor from outside: clocks, a register write and a
store of the program into the memory. -/
inductive DspAccess where
  | run (clocks : ℕ)
  | write (addr : ℕ) (data : UInt8)
  | poke (addr : ℕ) (data : UInt8)
  deriving DecidableEq

def SpcDsp.access (d : SpcDsp) : DspAccess → Checked SpcDsp
  | .run clocks => d.run clocks
  | .write addr data => .ok { d with state := d.state.write addr data }
  | .poke addr data =>
    .ok { d with state := { d.state with ram := Function.update d.state.ram addr data } }

def SpcDsp.accesses (d : SpcDsp) (as : List DspAccess) : Checked SpcDsp := as.foldlM SpcDsp.access d

def SpcDsp.Safe (f : DspFrame) (d : SpcDsp) : Prop := d.phase < 32 ∧ d.state.Safe f d.phase

/-- The access does not put more than `max` into DIR. -/
def DspAccess.DirAtMost (max : ℕ) : DspAccess → Prop
  | .write addr data => addr = rDir → data.toNat ≤ max
  | _ => True

theorem run_safe {d d' : SpcDsp} (h : d.Safe f) {clocks : ℕ} (hrun : d.run clocks = .ok d') :
    d'.Safe (f.setRam d'.state.ram) := by
  simp only [SpcDsp.run, bind_eq_ok, pure_eq_ok] at hrun
  obtain ⟨result, hfrom, rfl⟩ := hrun
  exact ⟨Nat.mod_lt _ (by norm_num), (runFrom_safe h.1 h.2 hfrom).1⟩

theorem run_error {d : SpcDsp} (h : d.Safe f) {clocks : ℕ} {e : Failure}
    (hrun : d.run clocks = .error e) : e = .outside := by
  unfold SpcDsp.run at hrun
  cases hfrom : runFrom clocks d.phase d.state with
  | error e' =>
    rw [hfrom] at hrun
    obtain rfl := Except.error.inj hrun
    exact runFrom_error h.1 h.2 hfrom
  | ok result =>
    rw [hfrom] at hrun
    exact absurd hrun (by simp [pure, Except.pure])

theorem access_safe {d d' : SpcDsp} (h : d.Safe f) {a : DspAccess} (ha : a.DirAtMost f.dirMax)
    (hd : d.access a = .ok d') : ∃ f', f'.dirMax = f.dirMax ∧ d'.Safe f' := by
  cases a with
  | run clocks => exact ⟨f.setRam d'.state.ram, rfl, run_safe h hd⟩
  | write addr data =>
    obtain rfl := Except.ok.inj hd
    exact ⟨f.write addr data ha, rfl, h.1, write_safe h.2 ha⟩
  | poke addr data =>
    obtain rfl := Except.ok.inj hd
    exact ⟨f.setRam (Function.update d.state.ram addr data), rfl, h.1, setRam_safe h.2 _⟩

theorem accesses_safe {d d' : SpcDsp} {as : List DspAccess} (h : d.Safe f)
    (has : ∀ a ∈ as, a.DirAtMost f.dirMax) (hd : d.accesses as = .ok d') :
    ∃ f', f'.dirMax = f.dirMax ∧ d'.Safe f' := by
  induction as generalizing d f with
  | nil =>
    obtain rfl : d = d' := Except.ok.inj hd
    exact ⟨f, rfl, h⟩
  | cons a as ih =>
    simp only [SpcDsp.accesses, List.foldlM_cons, bind_eq_ok] at hd
    obtain ⟨next, hnext, hrest⟩ := hd
    obtain ⟨f₁, hmax, h₁⟩ := access_safe h (has a List.mem_cons_self) hnext
    obtain ⟨f₂, hmax₂, h₂⟩ := ih h₁
      (fun b hb => hmax ▸ has b (List.mem_cons_of_mem a hb)) hrest
    exact ⟨f₂, hmax₂.trans hmax, h₂⟩

/-- With DIR at most `$FD` no access ever fails. -/
theorem accesses_isSome {d : SpcDsp} {as : List DspAccess} (h : d.Safe f)
    (hdir : f.dirMax ≤ 0xFD) (has : ∀ a ∈ as, a.DirAtMost f.dirMax) :
    ∃ d', d.accesses as = .ok d' := by
  induction as generalizing d f with
  | nil => exact ⟨d, rfl⟩
  | cons a as ih =>
    have hstep : ∃ next, d.access a = .ok next := by
      cases a with
      | run clocks =>
        obtain ⟨result, hresult⟩ := runFrom_meets (n := clocks) h.1 h.2 hdir
        exact ⟨_, by rw [SpcDsp.access, SpcDsp.run, hresult]; rfl⟩
      | write addr data => exact ⟨_, rfl⟩
      | poke addr data => exact ⟨_, rfl⟩
    obtain ⟨next, hnext⟩ := hstep
    obtain ⟨f₁, hmax, h₁⟩ := access_safe h (has a List.mem_cons_self) hnext
    obtain ⟨d', hd'⟩ := ih h₁ (hmax ▸ hdir) fun b hb => hmax ▸ has b (List.mem_cons_of_mem a hb)
    refine ⟨d', ?_⟩
    rw [SpcDsp.accesses, List.foldlM_cons, hnext]
    exact hd'

end Reachable

section Results

def SpcDsp.loaded (m : Dsp) (regs : ℕ → UInt8) (dac : Dac) : SpcDsp where
  state := m.load regs
  phase := 0
  dac := dac

/-- The frame of a processor loaded with `regs`, and at most `max` in DIR from then on. -/
def loadFrame (m : Dsp) (regs : ℕ → UInt8) (max : ℕ) (hdir : (regs rDir).toNat ≤ max)
    (hmax : max ≤ 0xFF) : DspFrame where
  regs := regs
  ram := m.ram
  muteMask := m.muteMask
  dirMax := max
  dir_le := hdir
  dirMax_le := hmax

theorem loaded_safe (m : Dsp) (regs : ℕ → UInt8) (dac : Dac) (max : ℕ)
    (hdir : (regs rDir).toNat ≤ max) (hmax : max ≤ 0xFF) :
    (SpcDsp.loaded m regs dac).Safe (loadFrame m regs max hdir hmax) :=
  ⟨by norm_num [SpcDsp.loaded], load_safe m _ rfl rfl rfl⟩

theorem dirAtMost_255 (a : DspAccess) : a.DirAtMost 0xFF := by
  cases a with
  | write addr data => exact fun _ => toNat_le_255 data
  | run clocks => trivial
  | poke addr data => trivial

/-- A processor whose DIR never exceeds `$FD` survives every history inside its arrays. -/
theorem dsp_stays_in_memory (m : Dsp) (regs : ℕ → UInt8) (dac : Dac) (as : List DspAccess)
    (hdir : (regs rDir).toNat ≤ 0xFD) (has : ∀ a ∈ as, a.DirAtMost 0xFD) :
    ∃ d, (SpcDsp.loaded m regs dac).accesses as = .ok d ∧ d.phase < 32 ∧ d.state.Ok := by
  have hsafe := loaded_safe m regs dac 0xFD hdir (by norm_num)
  obtain ⟨d, hd⟩ := accesses_isSome hsafe le_rfl has
  obtain ⟨f, -, hphase, hf⟩ := accesses_safe hsafe has hd
  exact ⟨d, hd, hphase, hf.toOk⟩

theorem dsp_stays_in_memory_init :
    ∃ d, (SpcDsp.loaded (Dsp.init fun _ => 0) (fun _ => 0xC0) ⟨[], 2, false, []⟩).accesses
      [.run 32, .write 0x5D 0xFD, .poke 0x200 7, .run 1000] = .ok d ∧ d.phase < 32 ∧
        d.state.Ok :=
  dsp_stays_in_memory _ _ _ _ (by decide) (by simp [DspAccess.DirAtMost])

/-- Whatever happened to a loaded processor, its next clock leaves the memory
exactly when it reads a directory entry past the end. -/
theorem dsp_fault_iff (m : Dsp) (regs : ℕ → UInt8) (dac : Dac) (as : List DspAccess) (d : SpcDsp)
    (hd : (SpcDsp.loaded m regs dac).accesses as = .ok d) :
    ∀ e, clock d.phase d.state = .error e ↔
      e = .outside ∧ readsDirectory d.phase ∧ 0x10100 ≤ d.state.tDirAddr := by
  have hsafe := loaded_safe m regs dac 0xFF (toNat_le_255 _) le_rfl
  obtain ⟨f, -, hphase, hf⟩ := accesses_safe hsafe (fun a _ => dirAtMost_255 a) hd
  exact fun e => clock_eq_error_iff hphase hf

/-- With DIR `$FF` the entry of source `$80`, which voice 3 asks for, lies at `$10100`. -/
theorem dsp_fault_iff_source80 :
    ∃ d, (SpcDsp.loaded (Dsp.init fun _ => 0) (fun _ => 0xFF) ⟨[], 2, false, []⟩).accesses
        [.write 0x34 0x80, .run 6] = .ok d ∧
      clock d.phase d.state = .error .outside := by
  have hlate : ((SpcDsp.loaded (Dsp.init fun _ => 0) (fun _ => 0xFF) ⟨[], 2, false, []⟩).accesses
      [.write 0x34 0x80, .run 6]).toOption.map (fun d => (d.phase, d.state.tDirAddr)) =
        some (6, 0x10100) := by decide +kernel
  cases hd : (SpcDsp.loaded (Dsp.init fun _ => 0) (fun _ => 0xFF) ⟨[], 2, false, []⟩).accesses
      [.write 0x34 0x80, .run 6] with
  | error e => simp [hd, Except.toOption] at hlate
  | ok d =>
    obtain ⟨hphase, hentry⟩ : d.phase = 6 ∧ d.state.tDirAddr = 0x10100 := by
      simpa [hd, Except.toOption] using hlate
    refine ⟨d, rfl, (dsp_fault_iff _ _ _ _ d hd .outside).mpr ⟨rfl, ?_, hentry.ge⟩⟩
    rw [hphase]
    decide

end Results

/-! ### Echo writes that FLG forbids -/

section EchoOff

variable {m : Dsp} {f : DspFrame}

/-- FLG forbids the echo, and so does its copy where the next clock uses it. -/
def EchoOff (phase : ℕ) (m : Dsp) : Prop :=
  m.regs rFlg &&& 0x20 ≠ 0 ∧ (phase = 29 ∨ phase = 30 → m.tEchoEnabled &&& 0x20 ≠ 0)

theorem writeRam_regs {m' : Dsp} {addr : ℤ} {data : UInt8} (h : m.writeRam addr data = .ok m') :
    m'.regs = m.regs := by
  simp only [Dsp.writeRam, bind_eq_ok, pure_eq_ok] at h
  obtain ⟨ram, -, rfl⟩ := h
  rfl

theorem echoWrite_regs {m' : Dsp} {ch : ℕ} (h : echoWrite ch m = .ok m') : m'.regs = m.regs := by
  simp only [echoWrite, bind_eq_ok, pure_eq_ok] at h
  obtain ⟨stored, hstored, rfl⟩ := h
  unfold echoStore at hstored
  split_ifs at hstored
  · simp only [Dsp.setLe16, bind_eq_ok] at hstored
    obtain ⟨first, hfirst, hsecond⟩ := hstored
    exact (writeRam_regs hsecond).trans (writeRam_regs hfirst)
  · obtain rfl := Except.ok.inj hstored
    rfl

theorem echo29_enabled {m' : Dsp} (h : echo29 m = .ok m') : m'.tEchoEnabled = m.regs rFlg := by
  simp only [echo29, bind_eq_ok, pure_eq_ok] at h
  obtain ⟨stored, hstored, rfl⟩ := h
  exact congrFun (echoWrite_regs hstored) rFlg

theorem misc29_regs : (misc29 m).regs = m.regs := by
  unfold misc29
  dsimp only
  split_ifs <;> rfl

/-- One clock under a frame does not touch a register of the program. -/
theorem clock_regs {phase : ℕ} (hphase : phase < 32) (h : m.Safe f phase) {m' : Dsp}
    (hclock : clock phase m = .ok m') {r : ℕ} (hr : ProgramReg r) : m'.regs r = m.regs r := by
  have hrun : runFrom 1 phase m = .ok (m', emit phase m ++ []) := by
    simp [runFrom, hclock]
  rw [(runFrom_safe hphase h hrun).1.regs r hr, h.regs r hr]
  rfl

theorem echoOff_clock {phase : ℕ} (hphase : phase < 32) (h : m.Safe f phase)
    (hoff : EchoOff phase m) {m' : Dsp} (hclock : clock phase m = .ok m') :
    EchoOff ((phase + 1) % 32) m' ∧ m'.ram = m.ram := by
  have hflg : m'.regs rFlg = m.regs rFlg :=
    clock_regs hphase h hclock (by norm_num [ProgramReg, rFlg, rEndx, vEnvx, vOutx])
  refine ⟨⟨by rw [hflg]; exact hoff.1, fun hnext => ?_⟩, ?_⟩
  · have hcases : phase = 28 ∨ phase = 29 := by omega
    rcases hcases with rfl | rfl
    · obtain rfl := Except.ok.inj hclock
      exact hoff.1
    · rw [echo29_enabled hclock, misc29_regs]
      exact hoff.1
  · obtain ⟨m₁, hm₁, -, hram⟩ := clock_meets hphase h (good_of_clock hphase h hclock)
    obtain rfl := Except.ok.inj (hm₁.symm.trans hclock)
    rw [hram]
    unfold clockRam echoRam
    split_ifs with h29 hen h30 hen
    · exact absurd hen (hoff.2 (.inl h29))
    · rfl
    · exact absurd hen (hoff.2 (.inr h30))
    · rfl
    · rfl

theorem echoOff_run {n phase : ℕ} (hphase : phase < 32) (h : m.Safe f phase)
    (hoff : EchoOff phase m) {result : Dsp × List (ℤ × ℤ)}
    (hrun : runFrom n phase m = .ok result) :
    EchoOff ((phase + n) % 32) result.1 ∧ result.1.ram = m.ram := by
  induction n generalizing phase m f result with
  | zero =>
    obtain rfl : (m, []) = result := Except.ok.inj hrun
    rw [add_zero, Nat.mod_eq_of_lt hphase]
    exact ⟨hoff, rfl⟩
  | succ n ih =>
    simp only [runFrom, bind_eq_ok, pure_eq_ok] at hrun
    obtain ⟨next, hclock, rest, hrest, rfl⟩ := hrun
    obtain ⟨hnext, hram⟩ := echoOff_clock hphase h hoff hclock
    have hone : runFrom 1 phase m = .ok (next, emit phase m ++ []) := by simp [runFrom, hclock]
    have hsafe : next.Safe (f.setRam next.ram) ((phase + 1) % 32) := (runFrom_safe hphase h hone).1
    obtain ⟨hlast, hkeep⟩ := ih (Nat.mod_lt _ (by norm_num)) hsafe hnext hrest
    have hphases : (phase + (n + 1)) % 32 = ((phase + 1) % 32 + n) % 32 := by omega
    rw [hphases]
    exact ⟨hlast, hkeep.trans hram⟩

/-- Once FLG forbids the echo, whatever happened before, the processor leaves
the memory alone for as long as it runs by itself. -/
theorem echoOff_keeps_memory (m : Dsp) (regs : ℕ → UInt8) (dac : Dac) (as : List DspAccess)
    (d d' : SpcDsp) (hd : (SpcDsp.loaded m regs dac).accesses as = .ok d)
    (hoff : EchoOff d.phase d.state) (clocks : ℕ) (hrun : d.run clocks = .ok d') :
    d'.state.ram = d.state.ram := by
  have hsafe := loaded_safe m regs dac 0xFF (toNat_le_255 _) le_rfl
  obtain ⟨f, -, hphase, hf⟩ := accesses_safe hsafe (fun a _ => dirAtMost_255 a) hd
  simp only [SpcDsp.run, bind_eq_ok, pure_eq_ok] at hrun
  obtain ⟨result, hfrom, rfl⟩ := hrun
  exact (echoOff_run hphase hf hoff hfrom).2

theorem echoOff_keeps_memory_init : ∃ d', (SpcDsp.loaded (Dsp.init fun _ => 0) (fun _ => 0x20)
    ⟨[], 2, false, []⟩).run 64 = .ok d' ∧ d'.state.ram = fun _ => 0 := by
  have hsafe := loaded_safe (Dsp.init fun _ => 0) (fun _ => 0x20) ⟨[], 2, false, []⟩ 0xFD
    (by decide) (by norm_num)
  have hdir : ∀ a ∈ [DspAccess.run 64], a.DirAtMost 0xFD := by simp [DspAccess.DirAtMost]
  obtain ⟨d', hd'⟩ := accesses_isSome hsafe le_rfl hdir
  have hrun : (SpcDsp.loaded (Dsp.init fun _ => 0) (fun _ => 0x20) ⟨[], 2, false, []⟩).run 64 =
      .ok d' := by
    simpa [SpcDsp.accesses, SpcDsp.access] using hd'
  refine ⟨d', hrun, ?_⟩
  exact echoOff_keeps_memory _ _ _ [] _ d' rfl ⟨by decide, by decide⟩ 64 hrun

end EchoOff

end SnesApu.Apu
