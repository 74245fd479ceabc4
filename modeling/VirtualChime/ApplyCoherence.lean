import VirtualChime.ApplyManager
import Mathlib.Data.List.Range

/-!
# Apply jobs one at a time

Calls of `StartApply` and `CurrentStatus` and the steps of the job threads, in any
order.  At most one thread is alive, it is the thread of the job in the record, and the
record says how far that job is.  Job ids are 64 bits wide and start over after the
last one, so they increase only as long as they do not run out.
-/

namespace VirtualChime.Webd.ApplyJobs

open ApplyManager

/-! ## 1. The system -/

/-- The fields of a broken-down time that are printed. -/
structure Tm where
  tm_year : Int
  tm_mon : Nat
  tm_mday : Nat
  tm_hour : Nat
  tm_min : Nat
  tm_sec : Nat
deriving DecidableEq, Repr

/-- A number in two digits. -/
def twoDigits (n : Nat) : Bytes := if n < 10 then 48 :: natDecimal n else natDecimal n

/-- `NowIso8601Utc` for the time that `gmtime_r` gives: `%Y-%m-%dT%H:%M:%SZ`. -/
def nowIso8601Utc (utc_tm : Tm) : Bytes :=
  toDecimal (utc_tm.tm_year + 1900) ++ bytes "-" ++ twoDigits (utc_tm.tm_mon + 1) ++ bytes "-" ++
    twoDigits utc_tm.tm_mday ++ bytes "T" ++ twoDigits utc_tm.tm_hour ++ bytes ":" ++
    twoDigits utc_tm.tm_min ++ bytes ":" ++ twoDigits utc_tm.tm_sec ++ bytes "Z"

theorem nowIso8601Utc_ne_nil (utc_tm : Tm) : nowIso8601Utc utc_tm ≠ [] := by
  rw [nowIso8601Utc]
  exact List.append_ne_nil_of_right_ne_nil _ (by decide)

/-- The manager, with the ids of the jobs that were started, in order. -/
structure System where
  manager : ApplyManager := {}
  issued : List UInt64 := []

inductive Action where
  | startApply (utc_tm : Tm)
  | currentStatus
  | job (i : Nat) (utc_tm : Tm) (result : CommandResult)

/-- A call of `StartApply` that starts a new job. -/
def StartsJob (m : ApplyManager) : Prop :=
  ¬ (m.status_.state = .pending ∨ m.status_.state = .running)

instance (m : ApplyManager) : Decidable (StartsJob m) := inferInstanceAs (Decidable (¬ _))

def step (s : System) : Action → Option System
  | .startApply utc_tm => some
      { manager := (s.manager.startApply (nowIso8601Utc utc_tm)).2
        issued :=
          if StartsJob s.manager then
            s.issued ++ [(s.manager.startApply (nowIso8601Utc utc_tm)).1.job_id]
          else s.issued }
  | .currentStatus => some s
  | .job i utc_tm result =>
      (s.manager.stepThread i (nowIso8601Utc utc_tm) result).map fun manager =>
        { s with manager := manager }

/-- The states that calls and threads reach, in any order. -/
abbrev Reachable (s : System) : Prop := Runs.Reaches step (fun _ _ => True) {} s

/-- The jobs between their running mark and their final write. -/
def underWay (m : ApplyManager) : List JobThread :=
  m.threads.filter fun thread => thread.point ≠ .start

/-! ## 2. The record -/

def IsFinal : ApplyState → Prop
  | .succeeded | .failed => True
  | _ => False

/-- A finish time goes with a final state, an error with a failure. -/
structure RecordCoherent (status : ApplyStatus) : Prop where
  finished_iff : status.finished_at_utc ≠ [] ↔ IsFinal status.state
  error_iff : status.error ≠ [] ↔ status.state = .failed

/-- How the record may change in a step. -/
inductive Moves (issued issued' : List UInt64) (old new : ApplyStatus) : Prop where
  | stay (h : new = old) (hissued : issued' = issued)
  | start (h : old.state = .idle ∨ IsFinal old.state) (hnew : new.state = .pending)
      (hissued : issued' = issued ++ [new.job_id])
  | begin_ (h : old.state = .pending) (hnew : new.state = .running)
      (hid : new.job_id = old.job_id) (hissued : issued' = issued)
  | finish (h : old.state = .running) (hnew : IsFinal new.state)
      (hid : new.job_id = old.job_id) (hissued : issued' = issued)

/-- The ids of `n` jobs: they are counted from one, in 64 bits. -/
def jobIds (n : Nat) : List UInt64 := (List.range n).map fun k => UInt64.ofNat (k + 1)

/-- A step that issues no id keeps the id in the record. -/
theorem Moves.job_id_eq {issued issued' : List UInt64} {old new : ApplyStatus}
    (h : Moves issued issued' old new) (hsame : issued' = issued) : new.job_id = old.job_id := by
  cases h with
  | stay h => rw [h]
  | start _ _ hissued => simp [hsame] at hissued
  | begin_ _ _ hid => exact hid
  | finish _ _ hid => exact hid

/-- What holds in every reachable state. -/
structure Invariant (s : System) : Prop where
  coherent : Coherent s.manager
  record : RecordCoherent s.manager.status_
  next : s.manager.next_job_id_ = UInt64.ofNat (s.issued.length + 1)
  issued : s.issued = jobIds s.issued.length

theorem jobIds_succ (n : Nat) : jobIds (n + 1) = jobIds n ++ [UInt64.ofNat (n + 1)] := by
  rw [jobIds, List.range_succ, List.map_append, jobIds]
  rfl

theorem invariant_init : Invariant {} := by
  constructor
  · exact coherent_init
  · exact ⟨by simp [IsFinal], by simp⟩
  · rfl
  · rfl

theorem startApply_eq_of_startsJob {m : ApplyManager} (h : StartsJob m) (now : Bytes) :
    m.startApply now =
      ({ job_id := m.next_job_id_, state := .pending, started_at_utc := now },
        { status_ := { job_id := m.next_job_id_, state := .pending, started_at_utc := now }
          next_job_id_ := m.next_job_id_ + 1
          threads := m.threads ++ [⟨m.next_job_id_, .start⟩] }) := if_neg h

theorem startApply_eq_of_not_startsJob {m : ApplyManager} (h : ¬ StartsJob m) (now : Bytes) :
    m.startApply now = (m.status_, m) := if_pos (not_not.mp h)

theorem isFinal_of_startsJob {m : ApplyManager} (h : StartsJob m) :
    m.status_.state = .idle ∨ IsFinal m.status_.state := by
  rw [StartsJob] at h
  cases hstate : m.status_.state with
  | idle => exact Or.inl rfl
  | pending => exact absurd (Or.inl hstate) h
  | running => exact absurd (Or.inr hstate) h
  | succeeded => exact Or.inr trivial
  | failed => exact Or.inr trivial

/-- A step of the job in the record leaves the record alone, marks it running or ends it. -/
theorem runApplyJob_cases {status : ApplyStatus} {thread : JobThread}
    (hid : thread.job_id = status.job_id)
    (hpoint : thread.point = .start ∧ status.state = .pending ∨
      thread.point ≠ .start ∧ status.state = .running) (now : Bytes) (result : CommandResult) :
    ((runApplyJob status thread now result).1 = status) ∨
    (status.state = .pending ∧ (runApplyJob status thread now result).1 =
      { status with state := .running, started_at_utc := now }) ∨
    (status.state = .running ∧ (runApplyJob status thread now result).1 =
      { status with state := .succeeded, finished_at_utc := now, error := [] }) ∨
    (status.state = .running ∧ ∃ error, error ≠ [] ∧ (runApplyJob status thread now result).1 =
      failJob status now error) := by
  obtain ⟨job_id, point⟩ := thread
  dsimp only at hid hpoint
  subst hid
  have hrunning : point ≠ .start → status.state = .running := by
    intro hne
    obtain ⟨hstart, -⟩ | ⟨-, hrun⟩ := hpoint
    · exact absurd hstart hne
    · exact hrun
  cases point with
  | start =>
    obtain ⟨-, hpending⟩ | ⟨hne, -⟩ := hpoint
    · right
      left
      exact ⟨hpending, congrArg Prod.fst (if_neg (not_not.mpr rfl))⟩
    · exact absurd rfl hne
  | networkRestart =>
    left
    cases hr : runCommand result <;> simp [runApplyJob, hr]
  | chimeRestart =>
    left
    cases hr : runCommand result <;> simp [runApplyJob, hr]
  | networkFailed error =>
    right
    right
    right
    exact ⟨hrunning (by simp), _, List.append_ne_nil_of_left_ne_nil (by decide) error, rfl⟩
  | chimeFailed error =>
    right
    right
    right
    exact ⟨hrunning (by simp), _, List.append_ne_nil_of_left_ne_nil (by decide) error, rfl⟩
  | finish =>
    right
    right
    left
    exact ⟨hrunning (by simp), rfl⟩

theorem Invariant.startApply {s : System} (h : Invariant s) (utc_tm : Tm) {u : System}
    (hstep : step s (.startApply utc_tm) = some u) :
    Invariant u ∧ Moves s.issued u.issued s.manager.status_ u.manager.status_ := by
  have hcoherent := h.coherent.startApply (nowIso8601Utc utc_tm)
  by_cases hstarts : StartsJob s.manager
  · obtain rfl : _ = u := Option.some.inj hstep
    rw [if_pos hstarts]
    rw [startApply_eq_of_startsJob hstarts] at hcoherent ⊢
    have hlen : (s.issued ++ [s.manager.next_job_id_]).length = s.issued.length + 1 := by simp
    constructor
    · refine ⟨hcoherent, ⟨by simp [IsFinal], by simp⟩, ?_, ?_⟩
      · show s.manager.next_job_id_ + 1 =
          UInt64.ofNat ((s.issued ++ [s.manager.next_job_id_]).length + 1)
        rw [hlen, h.next]
        exact (UInt64.ofNat_add _ 1).symm
      · show s.issued ++ [s.manager.next_job_id_] =
          jobIds (s.issued ++ [s.manager.next_job_id_]).length
        rw [hlen, jobIds_succ, ← h.issued, ← h.next]
    · exact .start (isFinal_of_startsJob hstarts) rfl rfl
  · obtain rfl : _ = u := Option.some.inj hstep
    rw [if_neg hstarts, startApply_eq_of_not_startsJob hstarts]
    exact ⟨⟨h.coherent, h.record, h.next, h.issued⟩, .stay rfl rfl⟩

theorem Invariant.job {s : System} (h : Invariant s) {i : Nat} {utc_tm : Tm}
    {result : CommandResult} {u : System} (hstep : step s (.job i utc_tm result) = some u) :
    Invariant u ∧ Moves s.issued u.issued s.manager.status_ u.manager.status_ := by
  obtain ⟨manager, hthread, rfl⟩ := Option.map_eq_some_iff.mp hstep
  have hcoherent := h.coherent.stepThread hthread
  obtain ⟨thread, -, hid, hpoint, rfl⟩ := h.coherent.stepThread_cases hthread
  have hfinished := h.record.finished_iff
  have herror := h.record.error_iff
  have htime := nowIso8601Utc_ne_nil utc_tm
  obtain hsame | ⟨hstate, hnew⟩ | ⟨hstate, hnew⟩ | ⟨hstate, error, hne, hnew⟩ :=
    runApplyJob_cases hid hpoint (nowIso8601Utc utc_tm) result
  · exact ⟨⟨hcoherent, by rw [hsame]; exact h.record, h.next, h.issued⟩, .stay hsame rfl⟩
  · rw [hnew] at hcoherent ⊢
    rw [hstate] at hfinished herror
    exact ⟨⟨hcoherent, ⟨hfinished.trans (by simp [IsFinal]), herror.trans (by simp)⟩, h.next,
      h.issued⟩, .begin_ hstate rfl rfl rfl⟩
  · rw [hnew] at hcoherent ⊢
    exact ⟨⟨hcoherent, ⟨by simp [IsFinal, htime], by simp⟩, h.next, h.issued⟩,
      .finish hstate trivial rfl rfl⟩
  · rw [hnew] at hcoherent ⊢
    exact ⟨⟨hcoherent, ⟨by simp [failJob, IsFinal, htime], by simp [failJob, hne]⟩, h.next,
      h.issued⟩, .finish hstate trivial rfl rfl⟩

/-- Every call and every step of a thread keeps the invariant and moves the record on. -/
theorem Invariant.step {s u : System} {a : Action} (h : Invariant s)
    (hstep : ApplyJobs.step s a = some u) :
    Invariant u ∧ Moves s.issued u.issued s.manager.status_ u.manager.status_ := by
  cases a with
  | startApply utc_tm => exact h.startApply utc_tm hstep
  | currentStatus =>
    obtain rfl : s = u := Option.some.inj hstep
    exact ⟨h, .stay rfl rfl⟩
  | job i utc_tm result => exact h.job hstep

theorem invariant_of_reachable {s : System} (h : Reachable s) : Invariant s :=
  h.invariant invariant_init fun _ _ _ ih _ hstep => (ih.step hstep).1

/-! ## 3. Job ids -/

theorem pairwise_jobIds {n : Nat} (hn : n < 2 ^ 64) : (jobIds n).Pairwise (· < ·) := by
  rw [jobIds, List.pairwise_map]
  apply List.pairwise_lt_range.imp_of_mem
  intro i j _ hj hij
  have hj' : j < n := List.mem_range.mp hj
  have hwidth : ∀ k < n, (UInt64.ofNat (k + 1)).toNat = k + 1 := by
    intro k hk
    apply UInt64.toNat_ofNat_of_lt'
    rw [UInt64.size]
    omega
  rw [UInt64.lt_iff_toNat_lt, hwidth i (hij.trans hj'), hwidth j hj']
  omega


/-- An id that starts over at zero is not larger than those before it. -/
theorem not_pairwise_jobIds {n : Nat} (hn : 0 < n) (hzero : UInt64.ofNat (n + 1) = 0) :
    ¬ (jobIds (n + 1)).Pairwise (· < ·) := by
  intro h
  have hone : (1 : UInt64) ∈ jobIds n := List.mem_map.mpr ⟨0, List.mem_range.mpr hn, rfl⟩
  rw [jobIds_succ, hzero] at h
  have hlt := (List.pairwise_append.mp h).2.2 1 hone 0 (List.mem_singleton.mpr rfl)
  exact absurd hlt (by decide)

/-- A job whose restarts succeed, from the call to its last write. -/
def wholeJob (utc_tm : Tm) : List Action :=
  [.startApply utc_tm, .job 0 utc_tm .notRun, .job 0 utc_tm (.exited 0), .job 0 utc_tm (.exited 0),
    .job 0 utc_tm .notRun]

theorem exec_wholeJob {s : System} (hthreads : s.manager.threads = [])
    (hstarts : StartsJob s.manager) (utc_tm : Tm) :
    ∃ u, Runs.exec step s (wholeJob utc_tm) = some u ∧ StartsJob u.manager ∧
      u.issued.length = s.issued.length + 1 := by
  have hcall : step s (.startApply utc_tm) = some
      { manager :=
          { status_ :=
              { job_id := s.manager.next_job_id_
                state := .pending
                started_at_utc := nowIso8601Utc utc_tm }
            next_job_id_ := s.manager.next_job_id_ + 1
            threads := [⟨s.manager.next_job_id_, .start⟩] }
        issued := s.issued ++ [s.manager.next_job_id_] } := by
    rw [step, if_pos hstarts, startApply_eq_of_startsJob hstarts, hthreads]
    rfl
  rw [wholeJob, Runs.exec, hcall]
  simp [Runs.exec, step, stepThread, runApplyJob, runCommand, StartsJob]

/-- A manager at rest, after `n` jobs, can be reached for every `n`. -/
theorem exists_reachable_at_rest (n : Nat) :
    ∃ s, Reachable s ∧ StartsJob s.manager ∧ s.issued.length = n := by
  induction n with
  | zero => exact ⟨{}, .refl, by decide, rfl⟩
  | succ n ih =>
    obtain ⟨s, hreach, hstarts, hlen⟩ := ih
    have hthreads : s.manager.threads = [] := by
      have hcoherent := (invariant_of_reachable hreach).coherent
      rw [Coherent] at hcoherent
      rcases isFinal_of_startsJob hstarts with hidle | hfinal
      · rwa [hidle] at hcoherent
      · cases hstate : s.manager.status_.state <;> rw [hstate] at hcoherent hfinal
        all_goals first
          | exact hcoherent
          | exact hfinal.elim
    obtain ⟨u, hexec, hrest, hissued⟩ := exec_wholeJob hthreads hstarts ⟨70, 0, 1, 0, 0, 0⟩
    exact ⟨u, hreach.exec _ (fun _ _ _ => trivial) hexec, hrest, by rw [hissued, hlen]⟩

/-! ## 4. The results -/

/-- With 2 ^ 64 jobs the ids start over. -/
theorem job_ids_wrap : ∃ s, Reachable s ∧ ¬ s.issued.Pairwise (· < ·) := by
  obtain ⟨s, hreach, -, hlen⟩ := exists_reachable_at_rest (18446744073709551615 + 1)
  refine ⟨s, hreach, ?_⟩
  have hissued := (invariant_of_reachable hreach).issued
  rw [hlen] at hissued
  rw [hissued]
  exact not_pairwise_jobIds (by norm_num) (by decide)

/-- One job at most is under way in every reachable state, the record is coherent, and ids that
have not run out increase.  A step moves the record on, every thread is the thread of the job in
the record, and so is the one that writes a final state. -/
theorem apply_jobs_coherent {s : System} (h : Reachable s) :
    (underWay s.manager).length ≤ 1 ∧
    (s.issued.length < 2 ^ 64 → s.issued.Pairwise (· < ·)) ∧
    RecordCoherent s.manager.status_ ∧
    (∀ a u, step s a = some u →
      Moves s.issued u.issued s.manager.status_ u.manager.status_) ∧
    (∀ thread ∈ s.manager.threads, thread.job_id = s.manager.status_.job_id) ∧
    ∀ i utc_tm result u, step s (.job i utc_tm result) = some u →
      ∃ thread, s.manager.threads[i]? = some thread ∧
        (IsFinal u.manager.status_.state → thread.job_id = u.manager.status_.job_id) := by
  have hinv := invariant_of_reachable h
  have hthreads := hinv.coherent.threads_cases
  have hown : ∀ thread ∈ s.manager.threads, thread.job_id = s.manager.status_.job_id := by
    intro thread hmem
    rcases hthreads with hnil | ⟨point, hone⟩
    · rw [hnil] at hmem
      exact absurd hmem List.not_mem_nil
    · rw [hone] at hmem
      rw [List.mem_singleton.mp hmem]
  refine ⟨?_, ?_, hinv.record, fun a u hstep => (hinv.step hstep).2, hown, ?_⟩
  · apply (List.length_filter_le _ _).trans
    rcases hthreads with hnil | ⟨point, hone⟩
    · rw [hnil]
      exact Nat.zero_le 1
    · rw [hone]
      exact le_refl 1
  · intro hlen
    rw [hinv.issued]
    exact pairwise_jobIds hlen
  · intro i utc_tm result u hstep
    obtain ⟨manager, hjob, rfl⟩ := Option.map_eq_some_iff.mp hstep
    obtain ⟨thread, hthread, -⟩ := Option.map_eq_some_iff.mp hjob
    refine ⟨thread, hthread, ?_⟩
    intro _
    rw [hown thread (List.mem_of_getElem? hthread)]
    exact ((hinv.step hstep).2.job_id_eq rfl).symm

theorem apply_jobs_coherent_first_job :
    let s : System := ⟨(startApply {} (nowIso8601Utc ⟨126, 0, 1, 0, 0, 0⟩)).2, [1]⟩
    s.manager.status_.state = .pending ∧ RecordCoherent s.manager.status_ ∧
      ∀ thread ∈ s.manager.threads, thread.job_id = 1 := by
  have hreach : Reachable ⟨(startApply {} (nowIso8601Utc ⟨126, 0, 1, 0, 0, 0⟩)).2, [1]⟩ :=
    .tail (a := .startApply ⟨126, 0, 1, 0, 0, 0⟩) .refl trivial rfl
  obtain ⟨-, -, hrecord, -, hown, -⟩ := apply_jobs_coherent hreach
  exact ⟨rfl, hrecord, hown⟩

end VirtualChime.Webd.ApplyJobs
