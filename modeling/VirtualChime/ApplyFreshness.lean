import VirtualChime.ApplyManager

/-!
# Saved configurations and the restarts that apply them

`POST /api/v1/config/core` saves, then calls `StartApply`; the job thread restarts
the network and then the chime service.  Every save gets a number, and the two
restarts record which save they came after.  `StartApply` joins a job that is
pending or running, also one whose network restart is over: the save is then left
unapplied (`saved_but_not_applied`).  In every run in which no call joins so late,
both services run the last save whenever the system is at rest
(`applied_at_rest`).
-/

namespace VirtualChime.Webd.Apply

open ApplyManager

/-! ## 1. The system -/

structure System where
  manager : ApplyManager := {}
  -- the number of the last successful save
  saved : Nat := 0
  -- for each request between its save and its `StartApply`, the number of the save
  posts : List Nat := []
  -- the last save before the last restart of each service
  networkApplied : Nat := 0
  chimeApplied : Nat := 0
deriving DecidableEq, Repr

inductive Action where
  | save
  | startApply (i : Nat) (now : Bytes)
  | job (i : Nat) (now : Bytes) (result : CommandResult)
deriving DecidableEq, Repr

/-- Whether thread `i` is about to run the restart of the given point. -/
def restarts (s : System) (i : Nat) (point : JobPoint) (result : CommandResult) : Bool :=
  s.manager.threads[i]?.any (fun thread => thread.point = point) && (runCommand result).isNone

def step (s : System) : Action → Option System
  | .save => some { s with saved := s.saved + 1, posts := s.posts ++ [s.saved + 1] }
  | .startApply i now => s.posts[i]?.map fun _ =>
      { s with manager := (s.manager.startApply now).2, posts := s.posts.eraseIdx i }
  | .job i now result => (s.manager.stepThread i now result).map fun manager =>
      { s with
        manager := manager
        networkApplied := if restarts s i .networkRestart result then s.saved else s.networkApplied
        chimeApplied := if restarts s i .chimeRestart result then s.saved else s.chimeApplied }

def CommandsSucceed : Action → Prop
  | .job _ _ result => runCommand result = none
  | _ => True

/-- No request joins a running job whose network restart came before the request's save. -/
def JoinsInTime (s : System) : Action → Prop
  | .startApply i _ => ∀ version, s.posts[i]? = some version →
      s.manager.status_.state = .running → s.networkApplied < version →
      ∃ thread ∈ s.manager.threads, thread.point = .networkRestart
  | _ => True

/-- No job is pending or running, and every saved request has been answered. -/
def AtRest (s : System) : Prop :=
  s.manager.status_.state ≠ .pending ∧ s.manager.status_.state ≠ .running ∧ s.posts = []

/-- Both services were last restarted after the last save. -/
def Applied (s : System) : Prop := s.networkApplied = s.saved ∧ s.chimeApplied = s.saved

/-! ## 2. The invariant -/

/-- What a thread that stands at the point still needs for the last save to be applied. -/
def Fresh (s : System) : JobPoint → Prop
  | .start | .networkRestart => True
  | .chimeRestart => s.networkApplied = s.saved
  | .finish => Applied s
  | .networkFailed _ | .chimeFailed _ => False

/-- The last save is applied, or a job is on its way to apply it. -/
def Covered (s : System) : Prop :=
  match s.manager.status_.state with
  | .idle | .succeeded | .failed => Applied s
  | .pending => True
  | .running => ∀ thread ∈ s.manager.threads, Fresh s thread.point

/-- No command of the thread has failed, and its chime restart came after its network restart. -/
def OnCourse (s : System) : JobPoint → Prop
  | .start | .networkRestart | .chimeRestart => True
  | .finish => s.networkApplied ≤ s.chimeApplied
  | .networkFailed _ | .chimeFailed _ => False

structure Inv (s : System) : Prop where
  coherent : Coherent s.manager
  network_le : s.networkApplied ≤ s.saved
  chime_le : s.chimeApplied ≤ s.saved
  onCourse : ∀ thread ∈ s.manager.threads, OnCourse s thread.point
  covered : s.saved ∈ s.posts ∨ Covered s

theorem inv_init : Inv {} where
  coherent := coherent_init
  network_le := le_rfl
  chime_le := le_rfl
  onCourse := by simp
  covered := Or.inr ⟨rfl, rfl⟩

theorem eq_of_mem_eraseIdx {α : Type} {l : List α} {i : Nat} {x p : α} (hx : x ∈ l)
    (hp : l[i]? = some p) (herase : x ∉ l.eraseIdx i) : x = p := by
  obtain ⟨j, hj⟩ := List.mem_iff_getElem?.mp hx
  by_cases hij : j = i
  · rw [hij, hp] at hj
    exact (Option.some.inj hj).symm
  · exact absurd (List.mem_eraseIdx_iff_getElem?.mpr ⟨j, hij, hj⟩) herase

theorem Inv.save {s : System} (h : Inv s) :
    Inv { s with saved := s.saved + 1, posts := s.posts ++ [s.saved + 1] } where
  coherent := h.coherent
  network_le := Nat.le_succ_of_le h.network_le
  chime_le := Nat.le_succ_of_le h.chime_le
  onCourse thread hthread := by
    have := h.onCourse thread hthread
    cases hpoint : thread.point <;> rw [hpoint] at this <;> exact this
  covered := Or.inl (List.mem_append_right _ (List.mem_singleton_self _))

/-- A job that is joined in time applies the joining request's save. -/
theorem Inv.covered_of_joined {s : System} (h : Inv s) {i : Nat} {now : Bytes}
    (hpost : s.posts[i]? = some s.saved) (hjoins : JoinsInTime s (.startApply i now))
    (hstate : s.manager.status_.state = .pending ∨ s.manager.status_.state = .running) :
    Covered s := by
  have hcoherent := h.coherent
  simp only [Covered]
  simp only [Coherent] at hcoherent
  rcases hstate with hs | hs
  · rw [hs]
    trivial
  · rw [hs] at hcoherent ⊢
    obtain ⟨point, -, hthreads⟩ := hcoherent
    have hcourse := h.onCourse
    have hnetwork := h.network_le
    have hchime := h.chime_le
    rw [hthreads] at hcourse ⊢
    simp only [List.mem_singleton, forall_eq] at hcourse ⊢
    by_cases hlate : s.networkApplied < s.saved
    · obtain ⟨thread, hmem, hpoint⟩ := hjoins s.saved hpost hs hlate
      rw [hthreads, List.mem_singleton] at hmem
      rw [hmem] at hpoint
      dsimp only at hpoint
      rw [hpoint]
      trivial
    · have hfresh : s.networkApplied = s.saved := by omega
      cases point with
      | start => trivial
      | networkRestart => trivial
      | networkFailed error => exact hcourse
      | chimeRestart => exact hfresh
      | chimeFailed error => exact hcourse
      | finish =>
        have hle : s.networkApplied ≤ s.chimeApplied := hcourse
        exact ⟨hfresh, by omega⟩

theorem Inv.startApply {s : System} (h : Inv s) {i version : Nat} {now : Bytes}
    (hpost : s.posts[i]? = some version) (hjoins : JoinsInTime s (.startApply i now)) :
    Inv { s with manager := (s.manager.startApply now).2, posts := s.posts.eraseIdx i } := by
  have hcoherent := h.coherent.startApply now
  rcases startApply_cases s.manager now with ⟨hstate, heq⟩ | ⟨hstate, hpending, -, hthreads⟩
  · -- the request joins the job there is
    rw [heq]
    refine ⟨h.coherent, h.network_le, h.chime_le, h.onCourse, ?_⟩
    by_cases hmem : s.saved ∈ s.posts.eraseIdx i
    · exact Or.inl hmem
    · apply Or.inr
      rcases h.covered with hsaved | hcovered
      · have hversion := eq_of_mem_eraseIdx hsaved hpost hmem
        rw [← hversion] at hpost
        exact h.covered_of_joined hpost hjoins hstate
      · exact hcovered
  · -- a new job begins
    refine ⟨hcoherent, h.network_le, h.chime_le, ?_, Or.inr ?_⟩
    · intro thread hthread
      simp only [hthreads, List.mem_append, List.mem_singleton] at hthread
      rcases hthread with hthread | rfl
      · exact h.onCourse thread hthread
      · trivial
    · simp only [Covered]
      rw [hpending]
      trivial

theorem Inv.job {s : System} (h : Inv s) {i : Nat} {now : Bytes} {result : CommandResult}
    {manager : ApplyManager} (hstep : s.manager.stepThread i now result = some manager)
    (hsucceeds : runCommand result = none) :
    Inv { s with
      manager := manager
      networkApplied := if restarts s i .networkRestart result then s.saved else s.networkApplied
      chimeApplied :=
        if restarts s i .chimeRestart result then s.saved else s.chimeApplied } := by
  have hcoherent := h.coherent.stepThread hstep
  obtain ⟨⟨job_id, point⟩, hthreads, hid, hpoint, hmanager⟩ := h.coherent.stepThread_cases hstep
  have hrestarts : ∀ p, restarts s i p result = decide (point = p) := by
    intro p
    obtain ⟨thread, hthread, -⟩ := Option.map_eq_some_iff.mp hstep
    have hmem := List.mem_of_getElem? hthread
    rw [hthreads, List.mem_singleton] at hmem
    simp [restarts, hthread, hmem, hsucceeds]
  have hcourse := h.onCourse ⟨job_id, point⟩ (by rw [hthreads]; exact List.mem_singleton_self _)
  have hnetwork := h.network_le
  have hchime := h.chime_le
  dsimp only at hid hpoint hcourse
  subst hid
  rw [hrestarts, hrestarts]
  cases point with
  | start =>
    simp only [runApplyJob, ne_eq, not_true_eq_false, if_false] at hmanager
    subst hmanager
    refine ⟨hcoherent, hnetwork, hchime, ?_, Or.inr ?_⟩
    · simp [OnCourse]
    · simp [Covered, Fresh]
  | networkRestart =>
    simp only [runApplyJob, hsucceeds] at hmanager
    subst hmanager
    refine ⟨hcoherent, le_rfl, hchime, ?_, Or.inr ?_⟩
    · simp [OnCourse]
    · have hrunning : s.manager.status_.state = .running := by simpa using hpoint
      simp [Covered, hrunning, Fresh]
  | networkFailed error => exact absurd hcourse id
  | chimeRestart =>
    simp only [runApplyJob, hsucceeds] at hmanager
    subst hmanager
    have hrunning : s.manager.status_.state = .running := by simpa using hpoint
    refine ⟨hcoherent, hnetwork, le_rfl, ?_, ?_⟩
    · simp [OnCourse, hnetwork]
    · rcases h.covered with hsaved | hcovered
      · exact Or.inl hsaved
      · apply Or.inr
        simp only [Covered, hrunning, hthreads, List.mem_singleton, forall_eq, Fresh] at hcovered ⊢
        exact ⟨hcovered, rfl⟩
  | chimeFailed error => exact absurd hcourse id
  | finish =>
    simp only [runApplyJob] at hmanager
    subst hmanager
    have hrunning : s.manager.status_.state = .running := by simpa using hpoint
    refine ⟨hcoherent, hnetwork, hchime, ?_, ?_⟩
    · simp
    · rcases h.covered with hsaved | hcovered
      · exact Or.inl hsaved
      · apply Or.inr
        simp only [Covered, hrunning, hthreads, List.mem_singleton, forall_eq, Fresh] at hcovered ⊢
        exact hcovered

theorem Inv.step {s s' : System} {a : Action} (h : Inv s) (hsucceeds : CommandsSucceed a)
    (hjoins : JoinsInTime s a) (hstep : step s a = some s') : Inv s' := by
  cases a with
  | save =>
    rw [← Option.some.inj hstep]
    exact h.save
  | startApply i now =>
    obtain ⟨version, hpost, rfl⟩ := Option.map_eq_some_iff.mp hstep
    exact h.startApply hpost hjoins
  | job i now result =>
    obtain ⟨manager, hjob, rfl⟩ := Option.map_eq_some_iff.mp hstep
    exact h.job hjob hsucceeds

/-! ## 3. At rest -/

theorem Inv.applied {s : System} (h : Inv s) (rest : AtRest s) : Applied s := by
  obtain ⟨hpending, hrunning, hposts⟩ := rest
  rcases h.covered with hsaved | hcovered
  · rw [hposts] at hsaved
    cases hsaved
  · simp only [Covered] at hcovered
    cases hstate : s.manager.status_.state with
    | pending => exact absurd hstate hpending
    | running => exact absurd hstate hrunning
    | idle => rw [hstate] at hcovered; exact hcovered
    | succeeded => rw [hstate] at hcovered; exact hcovered
    | failed => rw [hstate] at hcovered; exact hcovered

/-- In every run in which the restarts succeed and every request joins in time, both services
have read the last saved configuration whenever the system is at rest. -/
theorem applied_at_rest (s : System)
    (run : Runs.Reaches step (fun s a => CommandsSucceed a ∧ JoinsInTime s a) {} s)
    (rest : AtRest s) : Applied s :=
  (run.invariant inv_init fun _ _ _ h ok next => h.step ok.1 ok.2 next).applied rest

theorem applied_at_rest_sample : ∃ s : System, s.saved = 1 ∧ AtRest s ∧ Applied s := by
  have run : Runs.Reaches step (fun s a => CommandsSucceed a ∧ JoinsInTime s a) {}
      { manager := { status_ := { job_id := 1, state := .succeeded }, next_job_id_ := 2 }
        saved := 1, networkApplied := 1, chimeApplied := 1 } := by
    refine .head (a := .save) ⟨trivial, trivial⟩ rfl ?_
    refine .head (a := .startApply 0 []) ⟨trivial, fun _ _ hstate => ?_⟩ rfl ?_
    · cases hstate
    refine .head (a := .job 0 [] (.exited 0)) ⟨rfl, trivial⟩ rfl ?_
    refine .head (a := .job 0 [] (.exited 0)) ⟨rfl, trivial⟩ rfl ?_
    refine .head (a := .job 0 [] (.exited 0)) ⟨rfl, trivial⟩ rfl ?_
    refine .head (a := .job 0 [] (.exited 0)) ⟨rfl, trivial⟩ rfl ?_
    exact .refl
  have rest : AtRest { manager := { status_ := { job_id := 1, state := .succeeded },
                                    next_job_id_ := 2 }
                       saved := 1, networkApplied := 1, chimeApplied := 1 } :=
    ⟨by decide, by decide, rfl⟩
  exact ⟨_, rfl, rest, applied_at_rest _ run rest⟩

/-- A second request is saved after the network restart of the first one's job and joins that
job: the job succeeds, and the network never reads the second save. -/
theorem saved_but_not_applied :
    ∃ s, Runs.Reaches step (fun _ a => CommandsSucceed a) {} s ∧ AtRest s ∧
      s.manager.status_.state = .succeeded ∧ s.saved = 2 ∧ s.networkApplied = 1 := by
  have hall : ∀ a ∈ [.save, .startApply 0 [], .job 0 [] (.exited 0), .job 0 [] (.exited 0),
      .save, .startApply 0 [], .job 0 [] (.exited 0), .job 0 [] (.exited 0)],
      ∀ _ : System, CommandsSucceed a := by
    simp [CommandsSucceed, runCommand]
  refine ⟨_, Runs.reaches_of_exec _ hall rfl, ⟨?_, ?_, ?_⟩, ?_, ?_, ?_⟩ <;> decide

end VirtualChime.Webd.Apply
