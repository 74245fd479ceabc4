import VirtualChime.ApplyCoherence
import VirtualChime.ApiResponses

/-!
# Saving from the console

`saveConfig` and `waitForApplyCompletion` of the web console against the apply manager: the
console posts a configuration and asks for the status of the job until it is over.  The
requests are under way for any time, other clients save in between, and the job threads
take their steps at any moment.  The console says that a configuration was applied only if
both restarts of the job it was given have succeeded (`applied_means_restarted`).
-/

namespace VirtualChime.WebUi

open Webd Webd.ApplyManager

/-! ## 1. The console -/

def timeoutMs : Nat := 90000
def pollMs : Nat := 800

/-- The errors at which `waitForApplyCompletion` gives up. -/
def maxTransientErrors : Nat := 5

/-- The message that `saveConfig` ends with. -/
inductive Outcome where
  | applied
  | failed (text : Bytes)
deriving DecidableEq, Repr

/-- The variables of `waitForApplyCompletion`. -/
structure Waiting where
  jobId : UInt64
  startedAt : Nat
  transientErrors : Nat := 0
deriving DecidableEq, Repr

/-- Where `saveConfig` stands.  An answer is under way until the console goes on with it. -/
inductive Saving where
  | posting
  | posted (answer : Except Bytes ApplyStatus)
  | sleeping (w : Waiting) (wake : Nat)
  | asking (w : Waiting)
  | answered (w : Waiting) (answer : Except Bytes ApplyStatus)
  | done (outcome : Outcome)

/-- `===` on job numbers, which are doubles to the console. -/
def sameNumber (a b : UInt64) : Prop := nearestDouble a.toNat = nearestDouble b.toNat

instance (a b : UInt64) : Decidable (sameNumber a b) := inferInstanceAs (Decidable (_ = _))

/-- `saveConfig` after the answer to POST, at the time `now`. -/
def afterPost (answer : Except Bytes ApplyStatus) (now : Nat) : Saving :=
  match answer with
  | .error text => .done (.failed text)
  | .ok apply =>
      if apply.state = .succeeded then .done .applied
      else .sleeping { jobId := apply.job_id, startedAt := now } now

/-- The `catch` of the loop. -/
def caught (w : Waiting) (text : Bytes) (now : Nat) : Saving :=
  if maxTransientErrors ≤ w.transientErrors + 1 then .done (.failed text)
  else .sleeping { w with transientErrors := w.transientErrors + 1 } (now + pollMs)

/-- The loop after the answer to GET. -/
def afterGet (w : Waiting) (answer : Except Bytes ApplyStatus) (now : Nat) : Saving :=
  match answer with
  | .error text => caught w text now
  | .ok apply =>
      if sameNumber apply.job_id w.jobId then
        match apply.state with
        | .succeeded => .done .applied
        | .failed => caught w (if apply.error = [] then bytes "Apply failed" else apply.error) now
        | _ => .sleeping w (now + pollMs)
      else .sleeping w (now + pollMs)

/-! ## 2. The system -/

inductive Restart where
  | network | chime
deriving DecidableEq, Repr

/-- A restart command that a job has run. -/
structure Command where
  job_id : UInt64
  restart : Restart
  result : CommandResult
deriving DecidableEq, Repr

/-- The command that a thread runs in its next step. -/
def commandOf (thread : JobThread) (result : CommandResult) : List Command :=
  match thread.point with
  | .networkRestart => [⟨thread.job_id, .network, result⟩]
  | .chimeRestart => [⟨thread.job_id, .chime, result⟩]
  | _ => []

structure System where
  jobs : ApplyJobs.System := {}
  -- the commands that were run, in order
  commands : List Command := []
  clock : Nat := 0
  saving : Saving := .posting
  -- the job in the answer to POST
  given : Option UInt64 := none
  -- how often the console has asked
  polls : Nat := 0

inductive Action where
  | job (i : Nat) (utc_tm : ApplyJobs.Tm) (result : CommandResult)
  -- another client saves
  | otherPost (utc_tm : ApplyJobs.Tm)
  | handlePost (utc_tm : ApplyJobs.Tm)
  | postFails (text : Bytes)
  | receivePost
  | check
  | handleGet
  | getFails (text : Bytes)
  | receive
  | tick (ms : Nat)

def step (s : System) : Action → Option System
  | .job i utc_tm result =>
      (ApplyJobs.step s.jobs (.job i utc_tm result)).map fun jobs =>
        { s with
          jobs
          commands := s.commands ++
            (s.jobs.manager.threads[i]?.map fun thread => commandOf thread result).getD [] }
  | .otherPost utc_tm =>
      (ApplyJobs.step s.jobs (.startApply utc_tm)).map fun jobs => { s with jobs }
  | .handlePost utc_tm =>
      match s.saving with
      | .posting =>
          (ApplyJobs.step s.jobs (.startApply utc_tm)).map fun jobs =>
            { s with
              jobs
              saving := .posted (.ok jobs.manager.status_)
              given := some jobs.manager.status_.job_id }
      | _ => none
  | .postFails text =>
      match s.saving with
      | .posting => some { s with saving := .posted (.error text) }
      | _ => none
  | .receivePost =>
      match s.saving with
      | .posted answer => some { s with saving := afterPost answer s.clock }
      | _ => none
  | .check =>
      match s.saving with
      | .sleeping w wake =>
          if s.clock < wake then none
          else if s.clock - w.startedAt < timeoutMs then
            some { s with saving := .asking w, polls := s.polls + 1 }
          else
            some { s with
              saving := .done (.failed (bytes "Timed out waiting for apply to complete.")) }
      | _ => none
  | .handleGet =>
      match s.saving with
      | .asking w => some { s with saving := .answered w (.ok s.jobs.manager.status_) }
      | _ => none
  | .getFails text =>
      match s.saving with
      | .asking w => some { s with saving := .answered w (.error text) }
      | _ => none
  | .receive =>
      match s.saving with
      | .answered w answer => some { s with saving := afterGet w answer s.clock }
      | _ => none
  | .tick ms => some { s with clock := s.clock + ms }

abbrev Reachable (s : System) : Prop := Runs.Reaches step (fun _ _ => True) {} s

/-! ## 3. The commands of a job -/

def commandsOf (commands : List Command) (job_id : UInt64) : List (Restart × CommandResult) :=
  (commands.filter fun c => c.job_id = job_id).map fun c => (c.restart, c.result)

/-- Both restarts were run, once each, and both succeeded. -/
def Restarted (commands : List Command) (job_id : UInt64) : Prop :=
  commandsOf commands job_id = [(.network, .exited 0), (.chime, .exited 0)]

/-- What a job has run when it comes to a point. -/
def RunBefore (point : JobPoint) (ran : List (Restart × CommandResult)) : Prop :=
  match point with
  | .start | .networkRestart => ran = []
  | .networkFailed error => ∃ r, runCommand r = some error ∧ ran = [(.network, r)]
  | .chimeRestart => ran = [(.network, .exited 0)]
  | .chimeFailed error =>
      ∃ r, runCommand r = some error ∧ ran = [(.network, .exited 0), (.chime, r)]
  | .finish => ran = [(.network, .exited 0), (.chime, .exited 0)]

/-- What the job in the record has run: as much as its thread, or all of it. -/
def RunByRecord (m : ApplyManager) (ran : List (Restart × CommandResult)) : Prop :=
  (∀ thread ∈ m.threads, RunBefore thread.point ran) ∧
    (m.status_.state = .succeeded → ran = [(.network, .exited 0), (.chime, .exited 0)])

theorem runCommand_eq_none {result : CommandResult} (h : runCommand result = none) :
    result = .exited 0 := by
  unfold runCommand at h
  split at h
  · rfl
  all_goals cases h

theorem commandsOf_append (commands more : List Command) (job_id : UInt64) :
    commandsOf (commands ++ more) job_id =
      commandsOf commands job_id ++ commandsOf more job_id := by
  rw [commandsOf, List.filter_append, List.map_append]
  rfl

theorem commandsOf_eq_nil {commands : List Command} {job_id : UInt64}
    (h : ∀ c ∈ commands, c.job_id ≠ job_id) : commandsOf commands job_id = [] := by
  rw [commandsOf, List.map_eq_nil_iff, List.filter_eq_nil_iff]
  intro c hc
  simpa using h c hc

/-- One step of a thread, with the command that it runs. -/
theorem RunBefore.step (status : ApplyStatus) (thread : JobThread) (now : Bytes)
    (result : CommandResult) {ran : List (Restart × CommandResult)} (h : RunBefore thread.point ran) :
    let more := commandsOf (commandOf thread result) thread.job_id
    (∀ point, (runApplyJob status thread now result).2 = some point →
        RunBefore point (ran ++ more)) ∧
      ((runApplyJob status thread now result).1.state = .succeeded → status.state ≠ .succeeded →
        ran ++ more = [(.network, .exited 0), (.chime, .exited 0)]) := by
  obtain ⟨job_id, point⟩ := thread
  cases point with
  | start =>
    obtain rfl : ran = [] := h
    constructor
    · intro point hpoint
      rw [runApplyJob] at hpoint
      dsimp only at hpoint
      split at hpoint
      · cases hpoint
      · obtain rfl := Option.some.inj hpoint
        rfl
    · intro hsucceeded hbefore
      rw [runApplyJob] at hsucceeded
      dsimp only at hsucceeded
      split at hsucceeded
      · exact absurd hsucceeded hbefore
      · cases hsucceeded
  | networkRestart =>
    obtain rfl : ran = [] := h
    have hmore : commandsOf (commandOf ⟨job_id, .networkRestart⟩ result) job_id =
        [(.network, result)] := by
      simp [commandsOf, commandOf]
    rw [hmore]
    constructor
    · intro point hpoint
      cases hresult : runCommand result with
      | none =>
        rw [runApplyJob, hresult] at hpoint
        obtain rfl := Option.some.inj hpoint
        rw [runCommand_eq_none hresult]
        rfl
      | some error =>
        rw [runApplyJob, hresult] at hpoint
        obtain rfl := Option.some.inj hpoint
        exact ⟨result, hresult, rfl⟩
    · intro hsucceeded hbefore
      cases hresult : runCommand result with
      | none =>
        rw [runApplyJob, hresult] at hsucceeded
        exact absurd hsucceeded hbefore
      | some error =>
        rw [runApplyJob, hresult] at hsucceeded
        exact absurd hsucceeded hbefore
  | networkFailed error =>
    constructor
    · intro point hpoint
      cases hpoint
    · intro hsucceeded _
      cases hsucceeded
  | chimeRestart =>
    obtain rfl : ran = [(.network, .exited 0)] := h
    have hmore : commandsOf (commandOf ⟨job_id, .chimeRestart⟩ result) job_id =
        [(.chime, result)] := by
      simp [commandsOf, commandOf]
    rw [hmore]
    constructor
    · intro point hpoint
      cases hresult : runCommand result with
      | none =>
        rw [runApplyJob, hresult] at hpoint
        obtain rfl := Option.some.inj hpoint
        rw [runCommand_eq_none hresult]
        rfl
      | some error =>
        rw [runApplyJob, hresult] at hpoint
        obtain rfl := Option.some.inj hpoint
        exact ⟨result, hresult, rfl⟩
    · intro hsucceeded hbefore
      cases hresult : runCommand result with
      | none =>
        rw [runApplyJob, hresult] at hsucceeded
        exact absurd hsucceeded hbefore
      | some error =>
        rw [runApplyJob, hresult] at hsucceeded
        exact absurd hsucceeded hbefore
  | chimeFailed error =>
    constructor
    · intro point hpoint
      cases hpoint
    · intro hsucceeded _
      cases hsucceeded
  | finish =>
    constructor
    · intro point hpoint
      cases hpoint
    · intro _ _
      exact (List.append_nil ran).trans h

/-! ## 4. The invariant -/

/-- What an answer with a status says: its job is one that was issued, and if it has succeeded then
its restarts have. -/
def Truthful (s : System) (status : ApplyStatus) : Prop :=
  status.job_id ∈ s.jobs.issued ∧
    (status.state = .succeeded → Restarted s.commands status.job_id)

/-- The console waits for the job that it was given, since some time ago. -/
structure WaitsFor (s : System) (w : Waiting) : Prop where
  given : s.given = some w.jobId
  issued : w.jobId ∈ s.jobs.issued
  started : w.startedAt ≤ s.clock

/-- Where the console stands is right, and it has asked no more often than it had time to. -/
def SavingOk (s : System) : Prop :=
  match s.saving with
  | .posting => s.polls = 0
  | .posted answer => s.polls = 0 ∧ ∀ status, answer = .ok status →
      s.given = some status.job_id ∧ Truthful s status
  | .sleeping w wake => WaitsFor s w ∧ w.startedAt + pollMs * s.polls ≤ wake ∧ s.polls ≤ 113
  | .asking w => WaitsFor s w ∧ w.startedAt + pollMs * s.polls ≤ s.clock + pollMs ∧ s.polls ≤ 113
  | .answered w answer =>
      WaitsFor s w ∧ w.startedAt + pollMs * s.polls ≤ s.clock + pollMs ∧ s.polls ≤ 113 ∧
        ∀ status, answer = .ok status → Truthful s status
  | .done outcome => s.polls ≤ 113 ∧
      (outcome = .applied → ∃ job_id, s.given = some job_id ∧ Restarted s.commands job_id)

structure Invariant (s : System) : Prop where
  jobs : ApplyJobs.Invariant s.jobs
  idle : s.jobs.manager.status_.state = .idle → s.jobs.issued = []
  current : s.jobs.manager.status_.state ≠ .idle →
    s.jobs.manager.status_.job_id ∈ s.jobs.issued ∧
      RunByRecord s.jobs.manager (commandsOf s.commands s.jobs.manager.status_.job_id)
  known : ∀ c ∈ s.commands, c.job_id ∈ s.jobs.issued
  saving : SavingOk s

theorem invariant_init : Invariant {} where
  jobs := ApplyJobs.invariant_init
  idle := fun _ => rfl
  current := by
    intro hne
    exact absurd rfl hne
  known := fun _ h => absurd h List.not_mem_nil
  saving := rfl

/-- The next id is none of those before it, unless ids have run out. -/
theorem next_not_mem_issued {jobs : ApplyJobs.System} (h : ApplyJobs.Invariant jobs)
    (few : jobs.issued.length + 1 < 2 ^ 64) : jobs.manager.next_job_id_ ∉ jobs.issued := by
  intro hmem
  have hpairwise := ApplyJobs.pairwise_jobIds few
  rw [ApplyJobs.jobIds_succ, ← h.issued, ← h.next] at hpairwise
  have hlt := (List.pairwise_append.mp hpairwise).2.2 _ hmem _ (List.mem_singleton.mpr rfl)
  exact UInt64.lt_irrefl _ hlt

/-- What stays so when others take steps: an id that was issued, restarts that have succeeded. -/
structure Later (s u : System) : Prop where
  issued : ∀ job_id ∈ s.jobs.issued, job_id ∈ u.jobs.issued
  restarted : ∀ job_id, Restarted s.commands job_id → Restarted u.commands job_id
  clock : s.clock ≤ u.clock

theorem Truthful.later {s u : System} {status : ApplyStatus} (h : Truthful s status)
    (later : Later s u) : Truthful u status := by
  rcases h with ⟨hissued, hrestarted⟩
  constructor
  · exact later.issued _ hissued
  · intro hsucceeded
    exact later.restarted _ (hrestarted hsucceeded)

theorem WaitsFor.later {s u : System} {w : Waiting} (h : WaitsFor s w) (later : Later s u)
    (hgiven : u.given = s.given) : WaitsFor u w where
  given := hgiven.trans h.given
  issued := later.issued _ h.issued
  started := h.started.trans later.clock

/-- The console does nothing while others take steps. -/
theorem SavingOk.later {s u : System} (h : SavingOk s) (later : Later s u)
    (hsaving : u.saving = s.saving) (hgiven : u.given = s.given) (hpolls : u.polls = s.polls) :
    SavingOk u := by
  have hclock := later.clock
  unfold SavingOk at h ⊢
  rw [hsaving, hgiven, hpolls]
  cases hs : s.saving with
  | posting =>
    rw [hs] at h
    exact h
  | posted answer =>
    rw [hs] at h
    rcases h with ⟨hzero, hanswer⟩
    refine ⟨hzero, ?_⟩
    intro status hstatus
    rcases hanswer status hstatus with ⟨hid, htruthful⟩
    exact ⟨hid, htruthful.later later⟩
  | sleeping w wake =>
    rw [hs] at h
    rcases h with ⟨hwaits, hbusy, hfew⟩
    exact ⟨hwaits.later later hgiven, hbusy, hfew⟩
  | asking w =>
    rw [hs] at h
    rcases h with ⟨hwaits, hbusy, hfew⟩
    exact ⟨hwaits.later later hgiven, hbusy.trans (Nat.add_le_add_right hclock _), hfew⟩
  | answered w answer =>
    rw [hs] at h
    rcases h with ⟨hwaits, hbusy, hfew, hanswer⟩
    refine ⟨hwaits.later later hgiven, hbusy.trans (Nat.add_le_add_right hclock _), hfew, ?_⟩
    intro status hstatus
    exact (hanswer status hstatus).later later
  | done outcome =>
    rw [hs] at h
    rcases h with ⟨hfew, happlied⟩
    refine ⟨hfew, ?_⟩
    intro hdone
    rcases happlied hdone with ⟨job_id, hid, hrestarted⟩
    exact ⟨job_id, hid, later.restarted _ hrestarted⟩

/-! ## 5. The steps of the jobs -/

theorem job_id_of_mem_commandOf {thread : JobThread} {result : CommandResult} {c : Command}
    (h : c ∈ commandOf thread result) : c.job_id = thread.job_id := by
  unfold commandOf at h
  split at h
  · rw [List.mem_singleton.mp h]
  · rw [List.mem_singleton.mp h]
  · exact absurd h List.not_mem_nil

/-- A job that has run both commands runs no other. -/
theorem RunBefore.commandOf_eq_nil {thread : JobThread}
    (h : RunBefore thread.point [(.network, .exited 0), (.chime, .exited 0)])
    (result : CommandResult) : commandOf thread result = [] := by
  obtain ⟨job_id, point⟩ := thread
  cases point with
  | networkRestart => cases h
  | chimeRestart => cases h
  | _ => rfl

theorem Invariant.truthful {s : System} (h : Invariant s)
    (hne : s.jobs.manager.status_.state ≠ .idle) : Truthful s s.jobs.manager.status_ := by
  rcases h.current hne with ⟨hissued, -, hsucceeded⟩
  exact ⟨hissued, hsucceeded⟩

/-- A thread takes a step. -/
theorem Invariant.job {s u : System} (h : Invariant s) {i : Nat} {utc_tm : ApplyJobs.Tm}
    {result : CommandResult} (hstep : step s (.job i utc_tm result) = some u) : Invariant u := by
  obtain ⟨jobs, hjobs, rfl⟩ := Option.map_eq_some_iff.mp hstep
  have hinv := (h.jobs.step hjobs).1
  obtain ⟨manager, hmanager, rfl⟩ := Option.map_eq_some_iff.mp hjobs
  have hthread := Option.map_eq_some_iff.mp hmanager
  obtain ⟨thread, hthreads, hid, hpoint, rfl⟩ := h.jobs.coherent.stepThread_cases hmanager
  have hget : s.jobs.manager.threads[i]? = some thread := by
    rcases hthread with ⟨other, hother, -⟩
    have hmem := List.mem_of_getElem? hother
    rw [hthreads] at hmem
    rw [hother, List.mem_singleton.mp hmem]
  have hne : s.jobs.manager.status_.state ≠ .idle := by
    rcases hpoint with ⟨-, hstate⟩ | ⟨-, hstate⟩ <;> simp [hstate]
  have hopen : s.jobs.manager.status_.state ≠ .succeeded := by
    rcases hpoint with ⟨-, hstate⟩ | ⟨-, hstate⟩ <;> simp [hstate]
  rcases h.current hne with ⟨hissued, hrun, -⟩
  have hbefore : RunBefore thread.point
      (commandsOf s.commands s.jobs.manager.status_.job_id) := by
    apply hrun
    rw [hthreads]
    exact List.mem_singleton.mpr rfl
  have hcommands : (s.jobs.manager.threads[i]?.map fun t => commandOf t result).getD [] =
      commandOf thread result := by
    rw [hget]
    rfl
  rw [hcommands]
  have hstepped : _ ∧ _ := RunBefore.step (s.jobs.manager.status_) thread
    (ApplyJobs.nowIso8601Utc utc_tm) result hbefore
  rcases hstepped with ⟨hafter, hdone⟩
  have hmoves := ApplyJobs.runApplyJob_cases hid hpoint (ApplyJobs.nowIso8601Utc utc_tm) result
  have hkeeps : (runApplyJob s.jobs.manager.status_ thread (ApplyJobs.nowIso8601Utc utc_tm)
      result).1.job_id = s.jobs.manager.status_.job_id ∧
      (runApplyJob s.jobs.manager.status_ thread (ApplyJobs.nowIso8601Utc utc_tm)
        result).1.state ≠ .idle := by
    rcases hmoves with hsame | ⟨-, hnew⟩ | ⟨-, hnew⟩ | ⟨-, error, -, hnew⟩
    · rw [hsame]
      exact ⟨rfl, hne⟩
    all_goals
      rw [hnew]
      exact ⟨rfl, ApplyState.noConfusion⟩
  have hlater : Later s { s with commands := s.commands ++ commandOf thread result } := by
    refine ⟨fun _ hmem => hmem, ?_, le_rfl⟩
    intro job_id hrestarted
    rw [Restarted, commandsOf_append, hrestarted]
    by_cases hown : thread.job_id = job_id
    · rw [← hown, hid] at hrestarted
      rw [hrestarted] at hbefore
      rw [hbefore.commandOf_eq_nil result]
      rfl
    · rw [commandsOf_eq_nil, List.append_nil]
      intro c hc
      rw [job_id_of_mem_commandOf hc]
      exact hown
  refine ⟨hinv, ?_, ?_, ?_, ?_⟩
  · intro hidle
    exact absurd hidle hkeeps.2
  · intro _
    rw [hkeeps.1]
    refine ⟨hissued, ?_, ?_⟩
    · intro other hother
      rw [commandsOf_append]
      rw [hid] at hafter
      dsimp only at hother
      split at hother
      · exact absurd hother List.not_mem_nil
      · rename_i point hpoint'
        rw [List.mem_singleton.mp hother]
        exact hafter point hpoint'
    · intro hsucceeded
      rw [commandsOf_append]
      rw [hid] at hdone
      exact hdone hsucceeded hopen
  · intro c hc
    rcases List.mem_append.mp hc with hold | hnew
    · exact h.known c hold
    · rw [job_id_of_mem_commandOf hnew, hid]
      exact hissued
  · exact h.saving.later ⟨hlater.issued, hlater.restarted, hlater.clock⟩ rfl rfl rfl

/-- What a call of `StartApply` leaves behind, whoever made it. -/
theorem Invariant.startApply {s : System} (h : Invariant s) {utc_tm : ApplyJobs.Tm}
    {jobs : ApplyJobs.System} (hstep : ApplyJobs.step s.jobs (.startApply utc_tm) = some jobs)
    (few : jobs.issued.length < 2 ^ 53) :
    ApplyJobs.Invariant jobs ∧ jobs.manager.status_.state ≠ .idle ∧
      (∀ job_id ∈ s.jobs.issued, job_id ∈ jobs.issued) ∧
      jobs.manager.status_.job_id ∈ jobs.issued ∧
      RunByRecord jobs.manager (commandsOf s.commands jobs.manager.status_.job_id) := by
  have hinv := (h.jobs.step hstep).1
  by_cases hstarts : ApplyJobs.StartsJob s.jobs.manager
  · obtain rfl := Option.some.inj hstep
    rw [if_pos hstarts] at few hinv ⊢
    have hcoherent := hinv.coherent
    rw [ApplyJobs.startApply_eq_of_startsJob hstarts] at hinv few hcoherent ⊢
    have hfresh : s.jobs.manager.next_job_id_ ∉ s.jobs.issued := by
      apply next_not_mem_issued h.jobs
      have hlen : (s.jobs.issued ++ [s.jobs.manager.next_job_id_]).length =
          s.jobs.issued.length + 1 := List.length_append
      dsimp only at few
      omega
    have hnone : commandsOf s.commands s.jobs.manager.next_job_id_ = [] := by
      apply commandsOf_eq_nil
      intro c hc heq
      exact hfresh (heq ▸ h.known c hc)
    refine ⟨hinv, ApplyState.noConfusion, ?_, ?_, ?_, ?_⟩
    · intro job_id hmem
      exact List.mem_append_left _ hmem
    · exact List.mem_append_right _ (List.mem_singleton.mpr rfl)
    · intro thread hthread
      have hone : s.jobs.manager.threads ++ [⟨s.jobs.manager.next_job_id_, .start⟩] =
          [⟨s.jobs.manager.next_job_id_, .start⟩] := hcoherent
      dsimp only at hthread
      rw [hone] at hthread
      rw [List.mem_singleton.mp hthread]
      exact hnone
    · intro hsucceeded
      cases hsucceeded
  · obtain rfl := Option.some.inj hstep
    have hne : s.jobs.manager.status_.state ≠ .idle := by
      intro hidle
      apply hstarts
      rw [ApplyJobs.StartsJob, hidle]
      decide
    rw [if_neg hstarts, ApplyJobs.startApply_eq_of_not_startsJob hstarts]
    exact ⟨⟨h.jobs.coherent, h.jobs.record, h.jobs.next, h.jobs.issued⟩, hne, fun _ hmem => hmem,
      h.current hne⟩

/-! ## 6. The steps of the console -/

/-- An id that the console takes for its own is its own, as long as ids are exact. -/
theorem eq_of_sameNumber {jobs : ApplyJobs.System} (h : ApplyJobs.Invariant jobs)
    (few : jobs.issued.length < 2 ^ 53) {a b : UInt64} (ha : a ∈ jobs.issued)
    (hb : b ∈ jobs.issued) (hsame : sameNumber a b) : a = b := by
  have hexact : ∀ id ∈ jobs.issued, nearestDouble id.toNat = id.toNat := by
    intro id hid
    rw [h.issued] at hid
    obtain ⟨k, hk, rfl⟩ := List.mem_map.mp hid
    have hlt : k < jobs.issued.length := List.mem_range.mp hk
    apply nearestDouble_of_le
    rw [UInt64.toNat_ofNat_of_lt' (by rw [UInt64.size]; omega)]
    omega
  rw [sameNumber, hexact a ha, hexact b hb] at hsame
  exact UInt64.toNat_inj.mp (by exact_mod_cast hsame)

theorem SavingOk.afterPost {s : System} {answer : Except Bytes ApplyStatus}
    (h : SavingOk s) (hs : s.saving = .posted answer) :
    SavingOk { s with saving := afterPost answer s.clock } := by
  unfold SavingOk at h ⊢
  rw [hs] at h
  rcases h with ⟨hzero, hanswer⟩
  cases answer with
  | error text => exact ⟨by rw [hzero]; decide, by intro happlied; cases happlied⟩
  | ok apply =>
    rcases hanswer apply rfl with ⟨hgiven, hissued, hrestarted⟩
    dsimp only [WebUi.afterPost]
    by_cases hsucceeded : apply.state = .succeeded
    · rw [if_pos hsucceeded]
      exact ⟨by rw [hzero]; decide, fun _ => ⟨apply.job_id, hgiven, hrestarted hsucceeded⟩⟩
    · rw [if_neg hsucceeded]
      dsimp only
      rw [hzero]
      exact ⟨⟨hgiven, hissued, le_rfl⟩, le_rfl, Nat.zero_le _⟩

/-- Going on after an error, the console stays in step with its clock. -/
theorem SavingOk.caught {s : System} {w : Waiting} (hwaits : WaitsFor s w)
    (hbusy : w.startedAt + pollMs * s.polls ≤ s.clock + pollMs) (hfew : s.polls ≤ 113)
    (text : Bytes) : SavingOk { s with saving := caught w text s.clock } := by
  unfold SavingOk
  dsimp only [WebUi.caught]
  by_cases hlast : maxTransientErrors ≤ w.transientErrors + 1
  · rw [if_pos hlast]
    exact ⟨hfew, by intro happlied; cases happlied⟩
  · rw [if_neg hlast]
    exact ⟨⟨hwaits.given, hwaits.issued, hwaits.started⟩, hbusy, hfew⟩

theorem SavingOk.afterGet {s : System} {w : Waiting} {answer : Except Bytes ApplyStatus}
    (h : SavingOk s) (hs : s.saving = .answered w answer) (hjobs : ApplyJobs.Invariant s.jobs)
    (few : s.jobs.issued.length < 2 ^ 53) :
    SavingOk { s with saving := afterGet w answer s.clock } := by
  unfold SavingOk at h
  rw [hs] at h
  rcases h with ⟨hwaits, hbusy, hfew, hanswer⟩
  have hgoes : SavingOk { s with saving := .sleeping w (s.clock + pollMs) } :=
    ⟨⟨hwaits.given, hwaits.issued, hwaits.started⟩, hbusy, hfew⟩
  cases answer with
  | error text => exact SavingOk.caught hwaits hbusy hfew text
  | ok apply =>
    rcases hanswer apply rfl with ⟨hissued, hrestarted⟩
    dsimp only [WebUi.afterGet]
    by_cases hsame : sameNumber apply.job_id w.jobId
    · rw [if_pos hsame]
      have hown := eq_of_sameNumber hjobs few hissued hwaits.issued hsame
      cases hstate : apply.state with
      | succeeded =>
        refine ⟨hfew, ?_⟩
        intro _
        exact ⟨w.jobId, hwaits.given, hown ▸ hrestarted hstate⟩
      | failed => exact SavingOk.caught hwaits hbusy hfew _
      | idle => exact hgoes
      | pending => exact hgoes
      | running => exact hgoes
    · rw [if_neg hsame]
      exact hgoes

theorem SavingOk.check {s u : System} (h : SavingOk s) (hstep : step s .check = some u) :
    SavingOk u := by
  rw [step] at hstep
  unfold SavingOk at h
  cases hs : s.saving with
  | sleeping w wake =>
    rw [hs] at h hstep
    rcases h with ⟨hwaits, hbusy, hfew⟩
    dsimp only at hstep
    split at hstep
    · cases hstep
    · rename_i hawake
      split at hstep
      · rename_i hintime
        obtain rfl := Option.some.inj hstep
        have hstarted := hwaits.started
        -- every poll before this one has taken its time
        have hpolls : pollMs * s.polls < timeoutMs := by omega
        rw [pollMs, timeoutMs] at hpolls
        refine ⟨⟨hwaits.given, hwaits.issued, hstarted⟩, ?_, ?_⟩
        · dsimp only
          rw [pollMs] at hbusy ⊢
          omega
        · dsimp only
          omega
      · obtain rfl := Option.some.inj hstep
        exact ⟨hfew, by intro happlied; cases happlied⟩
  | posting => rw [hs] at hstep; cases hstep
  | posted answer => rw [hs] at hstep; cases hstep
  | asking w => rw [hs] at hstep; cases hstep
  | answered w answer => rw [hs] at hstep; cases hstep
  | done outcome => rw [hs] at hstep; cases hstep

/-- A step of the console alone. -/
theorem Invariant.ofSaving {s : System} (h : Invariant s) (saving : Saving) (polls : Nat)
    (hok : SavingOk { s with saving := saving, polls := polls }) :
    Invariant { s with saving := saving, polls := polls } :=
  ⟨h.jobs, h.idle, h.current, h.known, hok⟩

theorem Invariant.otherPost {s u : System} (h : Invariant s) {utc_tm : ApplyJobs.Tm}
    (hstep : step s (.otherPost utc_tm) = some u) (few : u.jobs.issued.length < 2 ^ 53) :
    Invariant u := by
  rw [WebUi.step] at hstep
  obtain ⟨jobs, hjobs, rfl⟩ := Option.map_eq_some_iff.mp hstep
  rcases h.startApply hjobs few with ⟨hinv, hne, hgrows, hcurrent⟩
  refine ⟨hinv, fun hidle => absurd hidle hne, fun _ => hcurrent, ?_, ?_⟩
  · intro c hc
    exact hgrows _ (h.known c hc)
  · exact h.saving.later ⟨hgrows, fun _ hrestarted => hrestarted, le_rfl⟩ rfl rfl rfl

theorem Invariant.handlePost {s u : System} (h : Invariant s) {utc_tm : ApplyJobs.Tm}
    (hstep : step s (.handlePost utc_tm) = some u) (few : u.jobs.issued.length < 2 ^ 53) :
    Invariant u := by
  rw [WebUi.step] at hstep
  split at hstep
  · rename_i hs
    obtain ⟨jobs, hjobs, rfl⟩ := Option.map_eq_some_iff.mp hstep
    rcases h.startApply hjobs few with ⟨hinv, hne, hgrows, hissued, hrun⟩
    refine ⟨hinv, fun hidle => absurd hidle hne, fun _ => ⟨hissued, hrun⟩, ?_, ?_⟩
    · intro c hc
      exact hgrows _ (h.known c hc)
    · have hzero := h.saving
      unfold SavingOk at hzero
      rw [hs] at hzero
      refine ⟨hzero, ?_⟩
      intro status hstatus
      obtain rfl : jobs.manager.status_ = status := Except.ok.inj hstatus
      exact ⟨rfl, hissued, hrun.2⟩
  · cases hstep

theorem Invariant.handleGet {s u : System} (h : Invariant s) (hstep : step s .handleGet = some u) :
    Invariant u := by
  rw [WebUi.step] at hstep
  split at hstep
  · rename_i w hs
    obtain rfl := Option.some.inj hstep
    have hok := h.saving
    unfold SavingOk at hok
    rw [hs] at hok
    rcases hok with ⟨hwaits, hbusy, hfew⟩
    apply h.ofSaving
    refine ⟨⟨hwaits.given, hwaits.issued, hwaits.started⟩, hbusy, hfew, ?_⟩
    intro status hstatus
    obtain rfl : s.jobs.manager.status_ = status := Except.ok.inj hstatus
    -- the console has been given an id, so a job was started
    apply h.truthful
    intro hidle
    have hnone := h.idle hidle
    have hissued := hwaits.issued
    rw [hnone] at hissued
    exact absurd hissued List.not_mem_nil
  · cases hstep

/-- Whoever takes a step, the invariant stays as long as ids are exact. -/
theorem Invariant.step {s u : System} {a : Action} (h : Invariant s)
    (hstep : WebUi.step s a = some u) (few : u.jobs.issued.length < 2 ^ 53) : Invariant u := by
  cases a with
  | job i utc_tm result => exact h.job hstep
  | otherPost utc_tm => exact h.otherPost hstep few
  | handlePost utc_tm => exact h.handlePost hstep few
  | handleGet => exact h.handleGet hstep
  | postFails text =>
    rw [WebUi.step] at hstep
    split at hstep
    · rename_i hs
      obtain rfl := Option.some.inj hstep
      apply h.ofSaving
      have hzero := h.saving
      unfold SavingOk at hzero
      rw [hs] at hzero
      exact ⟨hzero, by intro status hstatus; cases hstatus⟩
    · cases hstep
  | receivePost =>
    rw [WebUi.step] at hstep
    split at hstep
    · rename_i answer hs
      obtain rfl := Option.some.inj hstep
      exact h.ofSaving _ _ (h.saving.afterPost hs)
    · cases hstep
  | check =>
    have hok := h.saving.check hstep
    rw [WebUi.step] at hstep
    split at hstep
    · split at hstep
      · cases hstep
      · split at hstep
        · obtain rfl := Option.some.inj hstep
          exact h.ofSaving _ _ hok
        · obtain rfl := Option.some.inj hstep
          exact h.ofSaving _ _ hok
    · cases hstep
  | getFails text =>
    rw [WebUi.step] at hstep
    split at hstep
    · rename_i w hs
      obtain rfl := Option.some.inj hstep
      apply h.ofSaving
      have hok := h.saving
      unfold SavingOk at hok
      rw [hs] at hok
      rcases hok with ⟨hwaits, hbusy, hfew⟩
      exact ⟨⟨hwaits.given, hwaits.issued, hwaits.started⟩, hbusy, hfew,
        by intro status hstatus; cases hstatus⟩
    · cases hstep
  | receive =>
    rw [WebUi.step] at hstep
    split at hstep
    · rename_i w answer hs
      obtain rfl := Option.some.inj hstep
      exact h.ofSaving _ _ (h.saving.afterGet hs h.jobs few)
    · cases hstep
  | tick ms =>
    obtain rfl := Option.some.inj hstep
    refine ⟨h.jobs, h.idle, h.current, h.known, ?_⟩
    exact h.saving.later ⟨fun _ hmem => hmem, fun _ hrestarted => hrestarted,
      Nat.le_add_right _ _⟩ rfl rfl rfl

/-- Ids are only added. -/
theorem issued_length_le {s u : System} {a : Action} (hstep : step s a = some u) :
    s.jobs.issued.length ≤ u.jobs.issued.length := by
  have hcall : ∀ utc_tm jobs, ApplyJobs.step s.jobs (.startApply utc_tm) = some jobs →
      s.jobs.issued.length ≤ jobs.issued.length := by
    intro utc_tm jobs hjobs
    obtain rfl := Option.some.inj hjobs
    dsimp only
    split
    · rw [List.length_append]
      exact Nat.le_add_right _ _
    · exact le_rfl
  cases a with
  | job i utc_tm result =>
    obtain ⟨jobs, hjobs, rfl⟩ := Option.map_eq_some_iff.mp hstep
    obtain ⟨manager, -, rfl⟩ := Option.map_eq_some_iff.mp hjobs
    exact le_rfl
  | otherPost utc_tm =>
    rw [step] at hstep
    obtain ⟨jobs, hjobs, rfl⟩ := Option.map_eq_some_iff.mp hstep
    exact hcall _ _ hjobs
  | handlePost utc_tm =>
    rw [step] at hstep
    split at hstep
    · obtain ⟨jobs, hjobs, rfl⟩ := Option.map_eq_some_iff.mp hstep
      exact hcall _ _ hjobs
    · cases hstep
  | check =>
    rw [step] at hstep
    split at hstep
    · split at hstep
      · cases hstep
      · split at hstep <;> obtain rfl := Option.some.inj hstep <;> exact le_rfl
    · cases hstep
  | tick ms =>
    obtain rfl := Option.some.inj hstep
    exact le_rfl
  | _ =>
    rw [step] at hstep
    split at hstep
    all_goals first
      | (obtain rfl := Option.some.inj hstep; exact le_rfl)
      | cases hstep

/-! ## 7. The result -/

/-- When the console says that the configuration was applied, it had been given a job, and both
restarts of that very job were run and have succeeded, whatever other clients, jobs and failed
requests came in between.  It asks 113 times at most. -/
theorem applied_means_restarted {s : System} (h : Reachable s)
    (few : s.jobs.issued.length < 2 ^ 53) :
    s.polls ≤ 113 ∧ (s.saving = .done .applied →
      ∃ job_id, s.given = some job_id ∧ Restarted s.commands job_id) := by
  have hinv : s.jobs.issued.length < 2 ^ 53 → Invariant s := by
    apply h.invariant (I := fun s => s.jobs.issued.length < 2 ^ 53 → Invariant s)
    · intro _
      exact invariant_init
    · intro t u a ih _ hstep hfew
      exact (ih (lt_of_le_of_lt (issued_length_le hstep) hfew)).step hstep hfew
  have hok := (hinv few).saving
  unfold SavingOk at hok
  cases hs : s.saving with
  | posting => rw [hs] at hok; exact ⟨by omega, by intro hdone; cases hdone⟩
  | posted answer => rw [hs] at hok; exact ⟨by omega, by intro hdone; cases hdone⟩
  | sleeping w wake => rw [hs] at hok; exact ⟨hok.2.2, by intro hdone; cases hdone⟩
  | asking w => rw [hs] at hok; exact ⟨hok.2.2, by intro hdone; cases hdone⟩
  | answered w answer => rw [hs] at hok; exact ⟨hok.2.2.1, by intro hdone; cases hdone⟩
  | done outcome =>
    rw [hs] at hok
    refine ⟨hok.1, ?_⟩
    intro hdone
    exact hok.2 (Saving.done.inj hdone)

/-- A save whose job succeeds before the console asks for the first time. -/
def quickSave (utc_tm : ApplyJobs.Tm) : List Action :=
  [.handlePost utc_tm, .receivePost, .job 0 utc_tm .notRun, .job 0 utc_tm (.exited 0),
    .job 0 utc_tm (.exited 0), .job 0 utc_tm .notRun, .check, .handleGet, .receive]

theorem applied_means_restarted_quickSave :
    ∃ s, Reachable s ∧ s.saving = .done .applied ∧
      ∃ job_id, s.given = some job_id ∧ Restarted s.commands job_id := by
  have hrun : ∃ s, Runs.exec step {} (quickSave ⟨126, 0, 1, 0, 0, 0⟩) = some s ∧
      s.saving = .done .applied ∧ s.jobs.issued.length = 1 := by
    simp [quickSave, Runs.exec, step, ApplyJobs.step, stepThread, runApplyJob, runCommand,
      startApply, afterPost, afterGet, sameNumber, timeoutMs, ApplyJobs.StartsJob]
  rcases hrun with ⟨s, hexec, hdone, hone⟩
  have hreach : Reachable s := Runs.reaches_of_exec _ (fun _ _ _ => trivial) hexec
  have few : s.jobs.issued.length < 2 ^ 53 := by
    rw [hone]
    norm_num
  exact ⟨s, hreach, hdone, (applied_means_restarted hreach few).2 hdone⟩

end VirtualChime.WebUi
