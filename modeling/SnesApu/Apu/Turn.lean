import SnesApu.Apu.CpuTiming
import SnesApu.Apu.Run

/-!
# One turn of the loop

What a turn of the CPU loop can do: go on with less time left, leave because
the next instruction does not fit, or leave at an instruction that stops.
-/

namespace SnesApu.Apu

open General

/-- Every turn takes a cycle, except a STOP at the end of the memory, after
which the program counter is zero. -/
def turnMeasure (r : Running) : ℕ := (-r.relTime).toNat + if r.cpu.pc = 0 then 0 else 1

/-- The next instruction stops the CPU. -/
def Stopped (r : Running) : Prop :=
  decode r.opcode = .sleep ∨ (decode r.opcode = .stop ∧ r.cpu.pc + 1 ≠ 0)

def Running.halt (r : Running) : Running := ⟨0, r.cpu, { r.spc with cpuError := true }⟩

section Turns

variable {r next : Running}

theorem cycles_stops : ∀ opcode, (decode opcode).stops → cycles opcode = 0 := by
  decide +kernel

theorem stops_cases {instr : Instr} (h : instr.stops) : instr = .stop ∨ instr = .sleep := by
  cases instr <;> simp_all [Instr.stops]

theorem turnMeasure_lt_turns (r : Running) : turnMeasure r < turns r.relTime := by
  unfold turnMeasure turns
  split_ifs <;> omega

theorem turn_inl (h : turn r = .ok (.inl next)) : ∃ refund, r.relTime + cycles r.opcode ≤ 0 ∧
    next.relTime = r.relTime + cycles r.opcode - refund ∧
    r.instruction.run (handle (r.relTime + cycles r.opcode)) r.spc =
      .ok (next.spc, .next next.cpu refund) := by
  unfold turn at h
  dsimp only at h
  split_ifs at h with hout
  · cases h
  · obtain ⟨⟨spc, flow⟩, hrun, hnext⟩ := map_eq_ok.mp h
    cases flow with
    | next cpu refund =>
      obtain rfl := Sum.inl.inj hnext
      exact ⟨refund, by omega, rfl, hrun⟩
    | stop cpu => cases hnext

/-- The loop goes on with time left, and comes nearer to its end. -/
theorem turn_goes_on (h : turn r = .ok (.inl next)) :
    next.relTime ≤ 0 ∧ turnMeasure next < turnMeasure r := by
  obtain ⟨refund, hrel, htime, hrun⟩ := turn_inl h
  obtain ⟨last, hnonneg, hmost, -⟩ := (opcode_timed _ _ _).post_of_run hrun
  have hcycles := cycles_nonneg r.opcode
  refine ⟨by omega, ?_⟩
  unfold turnMeasure
  rcases refund_lt_cycles r.opcode with hstop | hsleep | hless
  · unfold Running.instruction at hrun
    rw [hstop] at hrun hmost
    by_cases hpc : r.cpu.pc + 1 = 0
    · have hne : r.cpu.pc ≠ 0 := by
        intro hzero
        rw [hzero] at hpc
        exact absurd hpc (by decide)
      simp [exec, loop, hpc, Program.run] at hrun
      rw [← hrun.2.1, if_pos rfl, if_neg hne]
      simp only [Instr.refund] at hmost
      omega
    · simp [exec, hpc, Program.run] at hrun
  · unfold Running.instruction at hrun
    rw [hsleep] at hrun
    simp [exec, Program.run] at hrun
  · split_ifs <;> omega

theorem turn_stopped (h : Stopped r) (hrel : r.relTime ≤ 0) :
    turn r = .ok (.inr r.halt) := by
  have hcycles : cycles r.opcode = 0 := by
    apply cycles_stops
    rcases h with h | h
    · rw [h]
      rfl
    · rw [h.1]
      rfl
  unfold turn Running.instruction
  dsimp only
  rw [hcycles, add_zero, if_neg (by omega)]
  rcases h with h | ⟨h, hpc⟩
  · rw [h]
    simp [exec, Program.run, Except.map, arrive, Running.halt]
  · rw [h]
    simp [exec, Program.run, Except.map, arrive, Running.halt, hpc]

/-- The loop leaves out of time, or because it stops. -/
theorem turn_inr (h : turn r = .ok (.inr next)) :
    (next = r ∧ 0 < r.relTime + cycles r.opcode) ∨ Stopped r := by
  unfold turn at h
  dsimp only at h
  split_ifs at h with hout
  · exact .inl ⟨(Sum.inr.inj (Except.ok.inj h)).symm, hout⟩
  · obtain ⟨⟨spc, flow⟩, hrun, hnext⟩ := map_eq_ok.mp h
    cases flow with
    | next cpu refund => cases hnext
    | stop cpu =>
      obtain ⟨last, hstops, -⟩ := (opcode_timed _ _ _).post_of_run hrun
      rcases stops_cases hstops with hstop | hsleep
      · refine .inr (.inr ⟨hstop, fun hpc => ?_⟩)
        unfold Running.instruction at hrun
        rw [hstop] at hrun
        simp [exec, loop, hpc, Program.run] at hrun
      · exact .inr (.inl hsleep)

end Turns

end SnesApu.Apu
