import VirtualChime.Bytes
import VirtualChime.Library.Runs

/-!
# The apply manager

`ApplyManager` of `chime-webd`: one status record behind a mutex, and a detached
thread for every job.  A call or a block under the mutex is one step, a restart
command is one step; a thread is where its job stands in `RunApplyJob`.
-/

namespace VirtualChime.Webd

/-! ## 1. The manager -/

inductive ApplyState where
  | idle | pending | running | succeeded | failed
deriving DecidableEq, Repr

structure ApplyStatus where
  job_id : UInt64 := 0
  state : ApplyState := .idle
  started_at_utc : Bytes := []
  finished_at_utc : Bytes := []
  error : Bytes := []
deriving DecidableEq, Repr

/-- What `std::system` reports, by the macros of `sys/wait.h`. -/
inductive CommandResult where
  | notRun
  | exited (code : Nat)
  | signaled (signal : Nat)
  | other
deriving DecidableEq, Repr

/-- `RunCommand`: no error, or its text. -/
def runCommand : CommandResult → Option Bytes
  | .exited 0 => none
  | .notRun => some (bytes "system() failed")
  | .exited code => some (bytes "exit code " ++ natDecimal code)
  | .signaled signal => some (bytes "signal " ++ natDecimal signal)
  | .other => some (bytes "unknown failure")

/-- Where a thread stands in `RunApplyJob`. -/
inductive JobPoint where
  | start
  | networkRestart
  | networkFailed (error : Bytes)
  | chimeRestart
  | chimeFailed (error : Bytes)
  | finish
deriving DecidableEq, Repr

structure JobThread where
  job_id : UInt64
  point : JobPoint
deriving DecidableEq, Repr

structure ApplyManager where
  status_ : ApplyStatus := {}
  next_job_id_ : UInt64 := 1
  threads : List JobThread := []
deriving DecidableEq, Repr

namespace ApplyManager

/-- `StartApply`, at the time `now`. -/
def startApply (m : ApplyManager) (now : Bytes) : ApplyStatus × ApplyManager :=
  if m.status_.state = .pending ∨ m.status_.state = .running then (m.status_, m)
  else
    let status : ApplyStatus :=
      { job_id := m.next_job_id_, state := .pending, started_at_utc := now }
    (status,
      { status_ := status
        next_job_id_ := m.next_job_id_ + 1
        threads := m.threads ++ [⟨m.next_job_id_, .start⟩] })

def failJob (status : ApplyStatus) (now message : Bytes) : ApplyStatus :=
  { status with state := .failed, finished_at_utc := now, error := message }

/-- The next step of a thread, at the time `now` and with `result` for a command: the status, and
where the thread stands then, if it has not returned. -/
def runApplyJob (status : ApplyStatus) (thread : JobThread) (now : Bytes)
    (result : CommandResult) : ApplyStatus × Option JobPoint :=
  match thread.point with
  | .start =>
      if status.job_id ≠ thread.job_id then (status, none)
      else ({ status with state := .running, started_at_utc := now }, some .networkRestart)
  | .networkRestart =>
      match runCommand result with
      | none => (status, some .chimeRestart)
      | some error => (status, some (.networkFailed error))
  | .networkFailed error => (failJob status now (bytes "network restart failed: " ++ error), none)
  | .chimeRestart =>
      match runCommand result with
      | none => (status, some .finish)
      | some error => (status, some (.chimeFailed error))
  | .chimeFailed error => (failJob status now (bytes "chime restart failed: " ++ error), none)
  | .finish =>
      ({ status with state := .succeeded, finished_at_utc := now, error := [] }, none)

/-- Thread `i` takes its next step. -/
def stepThread (m : ApplyManager) (i : Nat) (now : Bytes) (result : CommandResult) :
    Option ApplyManager :=
  m.threads[i]?.map fun thread =>
    let (status, point) := runApplyJob m.status_ thread now result
    { m with
      status_ := status
      threads := match point with
        | none => m.threads.eraseIdx i
        | some point => m.threads.set i { thread with point := point } }

/-! ## 2. One job at a time -/

/-- The threads a status goes with: none in an idle or final state, one that has yet to begin for
a pending job, one that has begun for a running job. -/
def Coherent (m : ApplyManager) : Prop :=
  match m.status_.state with
  | .idle | .succeeded | .failed => m.threads = []
  | .pending => m.threads = [⟨m.status_.job_id, .start⟩]
  | .running => ∃ point, point ≠ .start ∧ m.threads = [⟨m.status_.job_id, point⟩]

theorem coherent_init : Coherent {} := rfl

theorem startApply_cases (m : ApplyManager) (now : Bytes) :
    ((m.status_.state = .pending ∨ m.status_.state = .running) ∧
      m.startApply now = (m.status_, m)) ∨
    ((m.status_.state = .idle ∨ m.status_.state = .succeeded ∨ m.status_.state = .failed) ∧
      (m.startApply now).2.status_.state = .pending ∧
      (m.startApply now).2.status_.job_id = m.next_job_id_ ∧
      (m.startApply now).2.threads = m.threads ++ [⟨m.next_job_id_, .start⟩]) := by
  unfold startApply
  cases h : m.status_.state <;> simp

theorem Coherent.startApply {m : ApplyManager} (h : Coherent m) (now : Bytes) :
    Coherent (m.startApply now).2 := by
  rcases startApply_cases m now with ⟨-, heq⟩ | ⟨hstate, hpending, hid, hthreads⟩
  · rw [heq]
    exact h
  · have hnil : m.threads = [] := by
      unfold Coherent at h
      rcases hstate with hs | hs | hs <;> rw [hs] at h <;> exact h
    unfold Coherent
    rw [hpending, hthreads, hid, hnil]
    rfl

/-- A coherent manager has no thread, or the thread of the job in the record. -/
theorem Coherent.threads_cases {m : ApplyManager} (h : Coherent m) :
    m.threads = [] ∨ ∃ point, m.threads = [⟨m.status_.job_id, point⟩] := by
  unfold Coherent at h
  cases hstate : m.status_.state <;> rw [hstate] at h
  case pending => exact Or.inr ⟨_, h⟩
  case running =>
    obtain ⟨point, -, hthreads⟩ := h
    exact Or.inr ⟨point, hthreads⟩
  all_goals exact Or.inl h

/-- In a coherent state a thread step is one of six. -/
theorem Coherent.stepThread_cases {m m' : ApplyManager} {i : Nat} {now : Bytes}
    {result : CommandResult} (h : Coherent m) (hstep : m.stepThread i now result = some m') :
    ∃ thread, m.threads = [thread] ∧ thread.job_id = m.status_.job_id ∧
      (thread.point = .start ∧ m.status_.state = .pending ∨
        thread.point ≠ .start ∧ m.status_.state = .running) ∧
      m' = { m with
        status_ := (runApplyJob m.status_ thread now result).1
        threads := match (runApplyJob m.status_ thread now result).2 with
          | none => []
          | some point => [{ thread with point := point }] } := by
  obtain ⟨thread, hthread, rfl⟩ := Option.map_eq_some_iff.mp hstep
  have hone : ∀ t, m.threads = [t] → i = 0 ∧ thread = t := by
    intro t ht
    rw [ht] at hthread
    cases i with
    | zero => exact ⟨rfl, (Option.some.inj hthread).symm⟩
    | succ i => cases hthread
  have hempty : m.threads ≠ [] := by
    intro hnil
    rw [hnil] at hthread
    cases hthread
  unfold Coherent at h
  cases hstate : m.status_.state with
  | idle => rw [hstate] at h; exact absurd h hempty
  | succeeded => rw [hstate] at h; exact absurd h hempty
  | failed => rw [hstate] at h; exact absurd h hempty
  | pending =>
    rw [hstate] at h
    obtain ⟨rfl, rfl⟩ := hone _ h
    refine ⟨_, h, rfl, Or.inl ⟨rfl, rfl⟩, ?_⟩
    rw [h]
    rcases runApplyJob m.status_ ⟨m.status_.job_id, .start⟩ now result with ⟨status, _ | point⟩ <;>
      rfl
  | running =>
    rw [hstate] at h
    obtain ⟨point, hpoint, hthreads⟩ := h
    obtain ⟨rfl, rfl⟩ := hone _ hthreads
    refine ⟨_, hthreads, rfl, Or.inr ⟨hpoint, rfl⟩, ?_⟩
    rw [hthreads]
    rcases runApplyJob m.status_ ⟨m.status_.job_id, point⟩ now result with ⟨status, _ | point'⟩ <;>
      rfl

theorem Coherent.stepThread {m m' : ApplyManager} {i : Nat} {now : Bytes}
    {result : CommandResult} (h : Coherent m) (hstep : m.stepThread i now result = some m') :
    Coherent m' := by
  obtain ⟨⟨job_id, point⟩, hthreads, hid, hpoint, rfl⟩ := h.stepThread_cases hstep
  dsimp only at hid
  subst hid
  unfold Coherent
  cases point with
  | start => simp [runApplyJob]
  | networkRestart =>
    cases hr : runCommand result <;> simp_all [runApplyJob]
  | networkFailed error => simp [runApplyJob, failJob]
  | chimeRestart =>
    cases hr : runCommand result <;> simp_all [runApplyJob]
  | chimeFailed error => simp [runApplyJob, failJob]
  | finish => simp [runApplyJob]

end ApplyManager

end VirtualChime.Webd
