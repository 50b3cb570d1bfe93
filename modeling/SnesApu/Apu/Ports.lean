import SnesApu.Apu.Resume

/-!
# Ports

The other processor reads and writes the ports at times of its own, and each
access runs the CPU up to its time. A read leaves no trace.
-/

namespace SnesApu.Apu

open General

def portCount : ℕ := 4

def readPort (s : Spc) (t : ℤ) (port : ℕ) : Except Fault (Spc × UInt8) :=
  if port < portCount then do
    let s ← runUntil_ s t
    pure (s, s.regs (rCpuio0 + port))
  else .error .assertion

def writePort (s : Spc) (t : ℤ) (port : ℕ) (data : ℤ) : Except Fault Spc :=
  if port < portCount then do
    let s ← runUntil_ s t
    pure { s with regsIn := Function.update s.regsIn (rCpuio0 + port) (byteOf data) }
  else .error .assertion

inductive PortAccess where
  | read (port : ℕ)
  | write (port : ℕ) (data : ℤ)

def PortAccess.port : PortAccess → ℕ
  | .read port => port
  | .write port _ => port

def PortAccess.isWrite : PortAccess → Bool
  | .read _ => false
  | .write _ _ => true

/-- What an access does once the CPU has run. -/
def PortAccess.store : PortAccess → Spc → Spc
  | .read _, s => s
  | .write port data, s =>
    { s with regsIn := Function.update s.regsIn (rCpuio0 + port) (byteOf data) }

def accessPort (s : Spc) : ℤ × PortAccess → Except Fault Spc
  | (t, .read port) => (readPort s t port).map Prod.fst
  | (t, .write port data) => writePort s t port data

def accessPorts (s : Spc) (accesses : List (ℤ × PortAccess)) (endTime : ℤ) : Except Fault Spc := do
  let s ← accesses.foldlM accessPort s
  runUntil_ s endTime

/-- Every access comes no earlier than the one before it, and none after the end. -/
def InOrder (endTime : ℤ) : ℤ → List (ℤ × PortAccess) → Prop
  | now, [] => now ≤ endTime
  | now, access :: rest => now ≤ access.1 ∧ InOrder endTime access.1 rest

section Ports

variable {s : Spc} {now endTime : ℤ} {rest : List (ℤ × PortAccess)}

theorem InOrder.earlier {first : ℤ} (h : InOrder endTime now rest) (hle : first ≤ now) :
    InOrder endTime first rest := by
  cases rest with
  | nil => exact hle.trans h
  | cons access rest => exact ⟨hle.trans h.1, h.2⟩

theorem InOrder.filter (h : InOrder endTime now rest) (p : ℤ × PortAccess → Bool) :
    InOrder endTime now (rest.filter p) := by
  induction rest generalizing now with
  | nil => exact h
  | cons access rest ih =>
    have hrest := ih h.2
    cases hp : p access with
    | true =>
      rw [List.filter_cons_of_pos hp]
      exact ⟨h.1, hrest⟩
    | false =>
      rw [List.filter_cons_of_neg (by simp [hp])]
      exact hrest.earlier h.1

theorem accessPorts_cons (access : ℤ × PortAccess) : accessPorts s (access :: rest) endTime =
    accessPort s access >>= fun s => accessPorts s rest endTime := by
  unfold accessPorts
  rw [List.foldlM_cons, bind_assoc]

theorem runUntil_le {s' : Spc} (h : runUntil_ s endTime = .ok s') : s'.spcTime ≤ endTime := by
  by_cases hle : s.spcTime ≤ endTime
  · rw [runUntil_of_le hle] at h
    cases hrun : iterate turn Fault.fuel (turns (s.spcTime - endTime)) (runFunc s endTime) with
    | error e =>
      rw [hrun] at h
      cases h
    | ok r =>
      rw [hrun] at h
      change runFuncEnd endTime r = .ok s' at h
      unfold runFuncEnd at h
      dsimp only at h
      split_ifs at h with hend
      obtain rfl := Except.ok.inj h
      exact hend
  · unfold runUntil_ at h
    dsimp only at h
    rw [if_pos (by omega)] at h
    cases h

theorem accessPort_eq {access : ℤ × PortAccess} (hport : access.2.port < portCount) :
    accessPort s access = (runUntil_ s access.1).map access.2.store := by
  obtain ⟨t, port | ⟨port, data⟩⟩ := access
  · simp only [accessPort, readPort]
    rw [if_pos (show port < portCount from hport)]
    cases runUntil_ s t with
    | error e => rfl
    | ok s => rfl
  · simp only [accessPort, writePort]
    rw [if_pos (show port < portCount from hport)]
    cases runUntil_ s t with
    | error e => rfl
    | ok s => rfl

/-- An access runs the CPU up to its time before anything else. -/
theorem accessPort_split {access : ℤ × PortAccess} (hport : access.2.port < portCount)
    (hle : s.spcTime ≤ now) (hnow : now ≤ access.1) :
    (runUntil_ s now >>= fun s => accessPort s access) = accessPort s access := by
  simp only [accessPort_eq hport]
  rw [← runUntil_split s hle hnow]
  cases runUntil_ s now with
  | error e => rfl
  | ok s => rfl

theorem accessPorts_split (hports : ∀ access ∈ rest, access.2.port < portCount)
    (h : InOrder endTime now rest) (hle : s.spcTime ≤ now) :
    (runUntil_ s now >>= fun s => accessPorts s rest endTime) = accessPorts s rest endTime := by
  cases rest with
  | nil => exact runUntil_split s hle h
  | cons access rest =>
    simp only [accessPorts_cons]
    rw [← bind_assoc, accessPort_split (hports access List.mem_cons_self) hle h.1]

theorem accessPort_le {access : ℤ × PortAccess} (hport : access.2.port < portCount) {s' : Spc}
    (h : accessPort s access = .ok s') : s'.spcTime ≤ access.1 := by
  rw [accessPort_eq hport] at h
  obtain ⟨r, hrun, rfl⟩ := map_eq_ok.mp h
  have hle := runUntil_le hrun
  obtain ⟨t, port | ⟨port, data⟩⟩ := access
  · exact hle
  · exact hle

theorem accessPorts_writes {accesses : List (ℤ × PortAccess)}
    (hports : ∀ access ∈ accesses, access.2.port < portCount) (h : InOrder endTime now accesses)
    (hle : s.spcTime ≤ now) : accessPorts s accesses endTime =
      accessPorts s (accesses.filter fun access => access.2.isWrite) endTime := by
  induction accesses generalizing now s with
  | nil => rfl
  | cons access rest ih =>
    have hport := hports access List.mem_cons_self
    have hrest : ∀ s, s.spcTime ≤ access.1 → accessPorts s rest endTime =
        accessPorts s (rest.filter fun access => access.2.isWrite) endTime := fun s hs =>
      ih (fun access h => hports access (List.mem_cons_of_mem _ h)) h.2 hs
    have hafter : (accessPort s access >>= fun s => accessPorts s rest endTime) =
        accessPort s access >>= fun s =>
          accessPorts s (rest.filter fun access => access.2.isWrite) endTime := by
      cases haccess : accessPort s access with
      | error e => rfl
      | ok s' => exact hrest s' (accessPort_le hport haccess)
    rw [accessPorts_cons, hafter]
    cases hwrite : access.2.isWrite with
    | true => rw [List.filter_cons_of_pos (by exact hwrite), accessPorts_cons]
    | false =>
      obtain ⟨t, port | ⟨port, data⟩⟩ := access
      · have hread : accessPort s (t, .read port) = runUntil_ s t := by
          rw [accessPort_eq hport]
          cases runUntil_ s t with
          | error e => rfl
          | ok s => rfl
        rw [List.filter_cons_of_neg (by simp [hwrite]), hread]
        apply accessPorts_split
        · intro access haccess
          exact hports access (List.mem_cons_of_mem _ (List.mem_of_mem_filter haccess))
        · exact h.2.filter _
        · exact hle.trans h.1
      · cases hwrite

/-- Whatever the other processor reads on the way, the machine ends as if only
its writes had been made. -/
theorem reads_leave_no_trace (s : Spc) (accesses : List (ℤ × PortAccess)) (endTime : ℤ)
    (hports : ∀ access ∈ accesses, access.2.port < portCount)
    (horder : InOrder endTime s.spcTime accesses) :
    accessPorts s accesses endTime =
      accessPorts s (accesses.filter fun access => access.2.isWrite) endTime :=
  accessPorts_writes hports horder le_rfl

theorem reads_leave_no_trace_init :
    accessPorts Spc.init [(100, .read 0), (200, .write 1 5), (250, .read 2)] 1000 =
      accessPorts Spc.init [(200, .write 1 5)] 1000 := by
  apply reads_leave_no_trace Spc.init [(100, .read 0), (200, .write 1 5), (250, .read 2)] 1000
  · simp [PortAccess.port, portCount]
  · have htime : Spc.init.spcTime = 0 := rfl
    simp [InOrder, htime]

end Ports

end SnesApu.Apu
