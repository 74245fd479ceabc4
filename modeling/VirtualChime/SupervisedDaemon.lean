import VirtualChime.Supervisor

/-!
# One supervised daemon

In every run of an init script in which no supervisor ends by itself: a supervisor that is alive is
the one of the pid file, and a daemon that has not been told to end is the child of that supervisor
(`one_supervised_daemon`).
-/

namespace VirtualChime.InitD

namespace Machine

/-! ## 1. Who is in charge -/

/-- A daemon that runs and has not been told to end. -/
def Untold (s : Machine) (j : ℕ) : Prop :=
  ∃ daemon, s.daemons[j]? = some daemon ∧ daemon.running = true ∧ daemon.told = false

/-- The daemon is the child of a supervisor. -/
def Owned (s : Machine) (j : ℕ) : Prop :=
  ∃ (p : ℕ) (supervisor : Supervisor), s.supervisors[p]? = some supervisor ∧
    supervisor.point.child = some j

/-- A supervisor that is alive is the one of the pid file, or is about to be; while a script stops
the daemons there is none.  A daemon that has not been told to end is the child of a supervisor,
unless a script is about to tell it. -/
structure Supervised (s : Machine) : Prop where
  pid_lt : ∀ p, s.pidfile = some p ∨ s.script = .writePid p → p < s.supervisors.length
  named : ∀ p, s.alive p = true → s.pidfile = some p ∨ s.script = .writePid p
  fresh : ∀ p, s.script = .writePid p → s.pidfile.any s.alive = false
  stopped : ∀ restart, s.script = .killall restart → ∀ p, s.alive p = false
  owned : ∀ j, s.Untold j → (∃ restart, s.script = .killall restart) ∨ s.Owned j

theorem supervised_init : Supervised {} where
  pid_lt := by
    rintro p (h | h)
    · cases h
    · cases h
  named := fun _ h => by cases h
  fresh := fun _ h => by cases h
  stopped := fun _ h => by cases h
  owned := by
    rintro j ⟨daemon, hdaemon, -⟩
    cases hdaemon

theorem alive_iff {s : Machine} {p : ℕ} : s.alive p = true ↔
    ∃ supervisor, s.supervisors[p]? = some supervisor ∧ supervisor.point ≠ .ended := by
  rw [alive, Option.any_eq_true]
  simp

/-- One supervisor at the most is alive. -/
theorem Supervised.alive_unique {s : Machine} (h : Supervised s) {p q : ℕ} (hp : s.alive p = true)
    (hq : s.alive q = true) : p = q := by
  have hapart : ∀ a b, s.alive a = true → s.pidfile = some a → s.script ≠ .writePid b := by
    intro a b ha hpid hscript
    have hfresh := h.fresh b hscript
    rw [hpid, Option.any_some, ha] at hfresh
    cases hfresh
  rcases h.named p hp with hpid | hscript
  · rcases h.named q hq with hpid' | hscript'
    · exact Option.some.inj (hpid.symm.trans hpid')
    · exact absurd hscript' (hapart p q hp hpid)
  · rcases h.named q hq with hpid' | hscript'
    · exact absurd hscript (hapart q p hq hpid')
    · exact ScriptPoint.writePid.inj (hscript.symm.trans hscript')

/-- The processes and the pid file are the same; the log may have changed. -/
structure SameProcesses (s t : Machine) : Prop where
  pidfile : t.pidfile = s.pidfile
  supervisors : t.supervisors = s.supervisors
  daemons : t.daemons = s.daemons
  script : t.script = s.script

theorem Supervised.congr {s t : Machine} (h : Supervised s) (hsame : SameProcesses s t) :
    Supervised t := by
  rcases s with ⟨log, rotated, pidfile, supervisors, daemons, script, written⟩
  rcases t with ⟨log', rotated', pidfile', supervisors', daemons', script', written'⟩
  obtain ⟨rfl, rfl, rfl, rfl⟩ := hsame
  exact ⟨h.pid_lt, h.named, h.fresh, h.stopped, h.owned⟩

theorem sameProcesses_append (s : Machine) (data : Bytes) : SameProcesses s (s.append data) :=
  ⟨rfl, rfl, rfl, rfl⟩

theorem sameProcesses_logLine (s : Machine) (io : StepIo) (text : Bytes) :
    SameProcesses s (s.logLine io text) := by
  rw [logLine]
  split
  · exact sameProcesses_append ..
  · exact ⟨rfl, rfl, rfl, rfl⟩

theorem sameProcesses_move (s : Machine) (source target : Bytes) :
    SameProcesses s (s.move source target) :=
  ⟨rfl, rfl, rfl, rfl⟩

theorem sameProcesses_copyLog (s : Machine) (copied : ℕ) : SameProcesses s (s.copyLog copied) := by
  rw [copyLog]
  split <;> exact ⟨rfl, rfl, rfl, rfl⟩

/-- A rotation touches nothing but the log. -/
theorem sameProcesses_stepRotation (s : Machine) (settings : LogSettings) (io : StepIo)
    (point : RotationPoint) : SameProcesses s (s.stepRotation settings io point).1 := by
  cases point with
  | check =>
    rw [stepRotation]
    split
    · exact ⟨rfl, rfl, rfl, rfl⟩
    · split <;> exact ⟨rfl, rfl, rfl, rfl⟩
  | shift index log_size =>
    rw [stepRotation]
    split
    · cases arithmeticValue index with
      | none => exact ⟨rfl, rfl, rfl, rfl⟩
      | some value =>
        dsimp only
        split
        · exact sameProcesses_move ..
        · exact ⟨rfl, rfl, rfl, rfl⟩
    · exact ⟨rfl, rfl, rfl, rfl⟩
  | copy log_size =>
    rw [stepRotation]
    dsimp only
    split
    · exact sameProcesses_copyLog ..
    · exact ⟨rfl, rfl, rfl, rfl⟩
  | empty log_size =>
    rw [stepRotation]
    split <;> exact ⟨rfl, rfl, rfl, rfl⟩
  | note log_size => exact sameProcesses_logLine ..

theorem alive_setPoint {s : Machine} {p : ℕ} {supervisor : Supervisor}
    (hp : s.supervisors[p]? = some supervisor) (hlive : supervisor.point ≠ .ended)
    {point : SupervisorPoint} (hpoint : point ≠ .ended) (q : ℕ) :
    (s.setPoint p supervisor point).alive q = s.alive q := by
  by_cases hpq : p = q
  · subst hpq
    have hold : s.alive p = true := alive_iff.mpr ⟨supervisor, hp, hlive⟩
    have hnew : (s.setPoint p supervisor point).alive p = true := by
      refine alive_iff.mpr ⟨{ supervisor with point }, ?_, hpoint⟩
      change (s.supervisors.set p _)[p]? = _
      rw [List.getElem?_set_self', hp]
      rfl
    rw [hold, hnew]
  · rw [alive, alive, setPoint, List.getElem?_set_ne hpq]

/-- A supervisor goes on, and lets go of no daemon that it has to watch. -/
theorem Supervised.setPoint {s : Machine} (h : Supervised s) {p : ℕ} {supervisor : Supervisor}
    (hp : s.supervisors[p]? = some supervisor) (hlive : supervisor.point ≠ .ended)
    {point : SupervisorPoint} (hpoint : point ≠ .ended)
    (hchild : ∀ j, s.Untold j → supervisor.point.child = some j → point.child = some j) :
    Supervised (s.setPoint p supervisor point) := by
  have halive := alive_setPoint hp hlive hpoint
  constructor
  · intro q hq
    rw [Machine.setPoint, List.length_set]
    exact h.pid_lt q hq
  · intro q hq
    rw [halive] at hq
    exact h.named q hq
  · intro q hq
    have hfresh := h.fresh q hq
    change s.pidfile.any (s.setPoint p supervisor point).alive = false
    rwa [funext halive]
  · intro restart hscript q
    rw [halive]
    exact h.stopped restart hscript q
  · intro j hj
    rcases h.owned j hj with hkillall | ⟨q, owner, hq, howner⟩
    · exact Or.inl hkillall
    · right
      by_cases hpq : p = q
      · subst hpq
        obtain rfl : supervisor = owner := Option.some.inj (hp.symm.trans hq)
        refine ⟨p, { supervisor with point }, ?_, hchild j hj howner⟩
        change (s.supervisors.set p _)[p]? = _
        rw [List.getElem?_set_self', hp]
        rfl
      · exact ⟨q, owner, (List.getElem?_set_ne hpq).trans hq, howner⟩

/-! ## 2. Every step -/

theorem afterRotation_ne_ended (watched : Option ℕ) {result : RotationResult}
    (h : result ≠ .fatal) : SupervisorPoint.afterRotation watched result ≠ .ended := by
  cases result with
  | goesOn next => exact fun heq => by cases heq
  | returns => cases watched <;> exact fun heq => by cases heq
  | fatal => exact absurd rfl h

theorem child_afterRotation (watched : Option ℕ) {result : RotationResult} (h : result ≠ .fatal) :
    (SupervisorPoint.afterRotation watched result).child = watched := by
  cases result with
  | goesOn next => rfl
  | returns => cases watched <;> rfl
  | fatal => exact absurd rfl h

/-- What a command of a supervisor does besides taking it from one point to another. -/
inductive Move (service : Service) (s : Machine) (settings : LogSettings) (io : StepIo) :
    SupervisorPoint → Machine → SupervisorPoint → Prop
  | rotating (point : RotationPoint) (watched : Option ℕ) :
      Move service s settings io (.rotating point watched) (s.stepRotation settings io point).1
        (.afterRotation watched (s.stepRotation settings io point).2)
  | starting : Move service s settings io .starting (s.logLine io service.starting) .spawning
  | spawning : Move service s settings io .spawning
      { s with daemons := s.daemons ++ [({} : Daemon)] } (service.spawned s.daemons.length)
  | looksAfter (child : ℕ) :
      Move service s settings io (.watching child) s (.rotating .check (some child))
  | misses (child : ℕ) : Move service s settings io (.watching child) s (.waiting child)
  | waited (child : ℕ) (daemon : Daemon) (hdaemon : s.daemons[child]? = some daemon)
      (hended : daemon.running = false) :
      Move service s settings io (.waiting child) s (.restarting daemon.exit_code)
  | restarting (exit_code : ℕ) : Move service s settings io (.restarting exit_code)
      (s.logLine io (service.exited exit_code)) service.loopPoint

theorem stepSupervisor_move {service : Service} {s t : Machine} {p : ℕ} {supervisor : Supervisor}
    {io : StepIo} (hstep : s.stepSupervisor service p supervisor io = some t) :
    ∃ u point, Move service s supervisor.settings io supervisor.point u point ∧
      t = u.setPoint p supervisor point := by
  rw [Machine.stepSupervisor] at hstep
  cases hpoint : supervisor.point with
  | rotating point watched =>
    rw [hpoint] at hstep
    exact ⟨_, _, .rotating point watched, (Option.some.inj hstep).symm⟩
  | starting =>
    rw [hpoint] at hstep
    exact ⟨_, _, .starting, (Option.some.inj hstep).symm⟩
  | spawning =>
    rw [hpoint] at hstep
    exact ⟨_, _, .spawning, (Option.some.inj hstep).symm⟩
  | watching child =>
    rw [hpoint] at hstep
    dsimp only at hstep
    split at hstep
    · exact ⟨_, _, .looksAfter child, (Option.some.inj hstep).symm⟩
    · exact ⟨_, _, .misses child, (Option.some.inj hstep).symm⟩
  | waiting child =>
    rw [hpoint] at hstep
    dsimp only at hstep
    split at hstep
    · cases hstep
    · next daemon hdaemon =>
      split at hstep
      · cases hstep
      · next hended =>
        exact ⟨_, _, .waited child daemon hdaemon (Bool.eq_false_iff.mpr hended),
          (Option.some.inj hstep).symm⟩
  | restarting exit_code =>
    rw [hpoint] at hstep
    exact ⟨_, _, .restarting exit_code, (Option.some.inj hstep).symm⟩
  | ended =>
    rw [hpoint] at hstep
    cases hstep

theorem Move.live {service : Service} {s u : Machine} {settings : LogSettings} {io : StepIo}
    {old point : SupervisorPoint} (hmove : Move service s settings io old u point) :
    old ≠ .ended := by
  rintro rfl
  cases hmove

/-- No supervisor is changed but by the step to the next point. -/
theorem Move.supervisors {service : Service} {s u : Machine} {settings : LogSettings} {io : StepIo}
    {old point : SupervisorPoint} (hmove : Move service s settings io old u point) :
    u.supervisors = s.supervisors := by
  cases hmove with
  | rotating point watched => exact (sameProcesses_stepRotation s settings io point).supervisors
  | starting => exact (sameProcesses_logLine s io _).supervisors
  | restarting exit_code => exact (sameProcesses_logLine s io _).supervisors
  | _ => rfl

/-- A daemon is started, of which the supervisor knows. -/
theorem Supervised.spawnDaemon {service : Service} {s : Machine} (h : Supervised s) {p : ℕ}
    {supervisor : Supervisor} (hp : s.supervisors[p]? = some supervisor)
    (hpoint : supervisor.point = .spawning) :
    Supervised ({ s with daemons := s.daemons ++ [({} : Daemon)] }.setPoint p supervisor
      (service.spawned s.daemons.length)) := by
  have hlive : supervisor.point ≠ .ended := by rw [hpoint]; exact fun h => by cases h
  have hset : Supervised (s.setPoint p supervisor (service.spawned s.daemons.length)) := by
    refine h.setPoint hp hlive (service.spawned_ne_ended _) ?_
    intro j _ hchild
    rw [hpoint] at hchild
    cases hchild
  have hself :
      (s.supervisors.set p { supervisor with point := service.spawned s.daemons.length })[p]? =
      some { supervisor with point := service.spawned s.daemons.length } := by
    rw [List.getElem?_set_self', hp]
    rfl
  refine ⟨hset.pid_lt, hset.named, hset.fresh, hset.stopped, ?_⟩
  rintro j ⟨daemon, hdaemon, huntold⟩
  change (s.daemons ++ [({} : Daemon)])[j]? = some daemon at hdaemon
  rw [List.getElem?_append] at hdaemon
  split at hdaemon
  · exact hset.owned j ⟨daemon, hdaemon, huntold⟩
  · next hlength =>
    have hj : s.daemons.length = j := by
      have hlt := (List.getElem?_eq_some_iff.mp hdaemon).1
      rw [List.length_singleton] at hlt
      omega
    exact Or.inr ⟨p, _, hself, (service.child_spawned _).trans (congrArg some hj)⟩

theorem Supervised.stepSupervisor {service : Service} {s t : Machine} (h : Supervised s) {p : ℕ}
    {supervisor : Supervisor} (hp : s.supervisors[p]? = some supervisor) {io : StepIo}
    (hlasts : ∀ point watched, supervisor.point = .rotating point watched →
      (s.stepRotation supervisor.settings io point).2 ≠ .fatal)
    (hstep : s.stepSupervisor service p supervisor io = some t) : Supervised t := by
  obtain ⟨u, next, hmove, rfl⟩ := stepSupervisor_move hstep
  have hlive := hmove.live
  have hsupervisors := hmove.supervisors
  generalize hold : supervisor.point = old at hmove
  cases hmove with
  | rotating point watched =>
    have hsame := sameProcesses_stepRotation s supervisor.settings io point
    have hlast := hlasts point watched hold
    refine (h.congr hsame).setPoint (hsupervisors ▸ hp) hlive (afterRotation_ne_ended _ hlast) ?_
    intro j _ hchild
    rw [hold] at hchild
    exact (child_afterRotation watched hlast).trans hchild
  | starting =>
    refine (h.congr (sameProcesses_logLine ..)).setPoint (hsupervisors ▸ hp) hlive
      (fun h => by cases h) ?_
    intro j _ hchild
    rw [hold] at hchild
    cases hchild
  | spawning => exact h.spawnDaemon hp hold
  | looksAfter child =>
    refine h.setPoint hp hlive (fun h => by cases h) ?_
    intro j _ hchild
    rwa [hold] at hchild
  | misses child =>
    refine h.setPoint hp hlive (fun h => by cases h) ?_
    intro j _ hchild
    rwa [hold] at hchild
  | waited child daemon hdaemon hended =>
    -- what it lets go of is a daemon that has ended
    refine h.setPoint hp hlive (fun h => by cases h) ?_
    rintro j ⟨untold, huntold, hrunning, -⟩ hchild
    rw [hold] at hchild
    obtain rfl : child = j := Option.some.inj hchild
    obtain rfl : daemon = untold := Option.some.inj (hdaemon.symm.trans huntold)
    rw [hended] at hrunning
    cases hrunning
  | restarting exit_code =>
    refine (h.congr (sameProcesses_logLine ..)).setPoint (hsupervisors ▸ hp) hlive
      service.loopPoint_ne_ended ?_
    intro j _ hchild
    rw [hold] at hchild
    cases hchild

theorem Supervised.idle {s : Machine} (h : Supervised s) (hstart : s.script = .start) :
    Supervised { s with script := .idle } where
  pid_lt := by
    rintro q (hq | hq)
    · exact h.pid_lt q (Or.inl hq)
    · cases hq
  named := by
    intro q hq
    rcases h.named q hq with hpid | hscript
    · exact Or.inl hpid
    · rw [hstart] at hscript
      cases hscript
  fresh := fun _ hq => by cases hq
  stopped := fun _ hq => by cases hq
  owned := by
    intro j hj
    rcases h.owned j hj with ⟨restart, hkillall⟩ | howned
    · rw [hstart] at hkillall
      cases hkillall
    · exact Or.inr howned

theorem Supervised.dead_of_start {s : Machine} (h : Supervised s) (hstart : s.script = .start)
    (hnone : s.pidfile.any s.alive = false) (q : ℕ) : s.alive q = false := by
  apply Bool.eq_false_iff.mpr
  intro hq
  rcases h.named q hq with hpid | hscript
  · rw [hpid, Option.any_some, hq] at hnone
    cases hnone
  · rw [hstart] at hscript
    cases hscript

/-- A supervisor is started where none is alive. -/
theorem Supervised.spawn {s : Machine} (h : Supervised s) (hstart : s.script = .start)
    (hnone : s.pidfile.any s.alive = false) (settings : LogSettings)
    (point : SupervisorPoint) : Supervised { s with
      supervisors := s.supervisors ++ [⟨settings, point⟩]
      script := .writePid s.supervisors.length } := by
  have hdead := h.dead_of_start hstart hnone
  have hnew : ∀ q, Machine.alive { s with
      supervisors := s.supervisors ++ [⟨settings, point⟩]
      script := .writePid s.supervisors.length } q = true → s.supervisors.length = q := by
    intro q hq
    rcases alive_iff.mp hq with ⟨supervisor, hsupervisor, hlive⟩
    change (s.supervisors ++ [_])[q]? = some supervisor at hsupervisor
    rw [List.getElem?_append] at hsupervisor
    split at hsupervisor
    · have hold : s.alive q = true := alive_iff.mpr ⟨supervisor, hsupervisor, hlive⟩
      rw [hdead q] at hold
      cases hold
    · have hlt := (List.getElem?_eq_some_iff.mp hsupervisor).1
      rw [List.length_singleton] at hlt
      omega
  constructor
  · intro q hq
    rw [List.length_append, List.length_singleton]
    rcases hq with hpid | hscript
    · have hlt := h.pid_lt q (Or.inl hpid)
      exact Nat.lt_succ_of_lt hlt
    · rw [← ScriptPoint.writePid.inj hscript]
      exact Nat.lt_succ_self _
  · intro q hq
    exact Or.inr (congrArg ScriptPoint.writePid (hnew q hq))
  · intro q hq
    change s.pidfile.any _ = false
    cases hpid : s.pidfile with
    | none => rfl
    | some old =>
      apply Bool.eq_false_iff.mpr
      intro hold
      have hlt := h.pid_lt old (Or.inl hpid)
      have heq := hnew old hold
      omega
  · intro restart hscript
    cases hscript
  · intro j hj
    rcases h.owned j hj with ⟨restart, hkillall⟩ | ⟨q, supervisor, hq, hchild⟩
    · rw [hstart] at hkillall
      cases hkillall
    · refine Or.inr ⟨q, supervisor, ?_, hchild⟩
      change (s.supervisors ++ [_])[q]? = _
      rw [List.getElem?_append_left (List.getElem?_eq_some_iff.mp hq).1]
      exact hq

/-- The supervisor of the pid file is the only one that could be alive; once it is killed there is
none. -/
theorem Supervised.kill {s : Machine} (h : Supervised s) {restart : Bool}
    (hstop : s.script = .stop restart) :
    Supervised { (match s.pidfile with
      | none => s
      | some pid => { s.kill pid with pidfile := none }) with script := .killall restart } := by
  have hnamed : ∀ q, s.alive q = true → s.pidfile = some q := by
    intro q hq
    rcases h.named q hq with hpid | hscript
    · exact hpid
    · rw [hstop] at hscript
      cases hscript
  have hdead : ∀ q, Machine.alive { (match s.pidfile with
      | none => s
      | some pid => { s.kill pid with pidfile := none }) with script := .killall restart } q =
        false := by
    intro q
    apply Bool.eq_false_iff.mpr
    intro hq
    cases hpid : s.pidfile with
    | none =>
      rw [hpid] at hq
      have hsome := hnamed q hq
      rw [hpid] at hsome
      cases hsome
    | some pid =>
      rw [hpid] at hq
      rcases alive_iff.mp hq with ⟨supervisor, hsupervisor, hlive⟩
      change (s.kill pid).supervisors[q]? = some supervisor at hsupervisor
      rw [Machine.kill] at hsupervisor
      cases hkilled : s.supervisors[pid]? with
      | none =>
        rw [hkilled] at hsupervisor
        have hold := hnamed q (alive_iff.mpr ⟨supervisor, hsupervisor, hlive⟩)
        obtain rfl := Option.some.inj (hpid.symm.trans hold)
        rw [hkilled] at hsupervisor
        cases hsupervisor
      | some killed =>
        rw [hkilled] at hsupervisor
        rcases Holders.getElem?_set hsupervisor with ⟨-, rfl⟩ | ⟨hne, hold⟩
        · exact hlive rfl
        · have hsome := hnamed q (alive_iff.mpr ⟨supervisor, hold, hlive⟩)
          exact hne (Option.some.inj (hpid.symm.trans hsome))
  constructor
  · intro q hq
    cases hpid : s.pidfile with
    | none =>
      rw [hpid] at hq
      rcases hq with hq | hq
      · change s.pidfile = some q at hq
        rw [hpid] at hq
        cases hq
      · cases hq
    | some pid =>
      rw [hpid] at hq
      rcases hq with hq | hq
      · cases hq
      · cases hq
  · intro q hq
    rw [hdead q] at hq
    cases hq
  · intro q hq
    cases hq
  · exact fun _ _ => hdead
  · exact fun _ _ => Or.inl ⟨restart, rfl⟩

theorem Supervised.stepScript {service : Service} {s t : Machine} (h : Supervised s)
    {executable : Bool} {config : Option Bytes}
    (hstep : s.stepScript service executable config = some t) : Supervised t := by
  rw [Machine.stepScript] at hstep
  cases hscript : s.script with
  | idle =>
    rw [hscript] at hstep
    cases hstep
  | start =>
    rw [hscript] at hstep
    dsimp only at hstep
    split at hstep
    · obtain rfl := Option.some.inj hstep
      exact h.idle hscript
    · next hnone =>
      split at hstep
      · obtain rfl := Option.some.inj hstep
        exact h.idle hscript
      · obtain rfl := Option.some.inj hstep
        exact h.spawn hscript (Bool.eq_false_iff.mpr hnone) _ _
  | writePid pid =>
    rw [hscript] at hstep
    obtain rfl := Option.some.inj hstep
    have hfresh := h.fresh pid hscript
    constructor
    · rintro q (hq | hq)
      · obtain rfl := Option.some.inj hq
        exact h.pid_lt pid (Or.inr hscript)
      · cases hq
    · intro q hq
      rcases h.named q hq with hpid | hwrite
      · rw [hpid, Option.any_some] at hfresh
        exact absurd hq (Bool.eq_false_iff.mp hfresh)
      · obtain rfl := ScriptPoint.writePid.inj (hscript.symm.trans hwrite)
        exact Or.inl rfl
    · exact fun _ hq => by cases hq
    · exact fun _ hq => by cases hq
    · intro j hj
      rcases h.owned j hj with ⟨restart, hkillall⟩ | howned
      · rw [hscript] at hkillall
        cases hkillall
      · exact Or.inr howned
  | stop restart =>
    rw [hscript] at hstep
    obtain rfl := Option.some.inj hstep
    exact h.kill hscript
  | killall restart =>
    rw [hscript] at hstep
    obtain rfl := Option.some.inj hstep
    have hdead := h.stopped restart hscript
    constructor
    · rintro q (hq | hq)
      · exact h.pid_lt q (Or.inl hq)
      · cases restart <;> cases hq
    · intro q hq
      have halive : s.alive q = true := hq
      rw [hdead q] at halive
      cases halive
    · intro q hq
      cases restart <;> cases hq
    · intro again hq
      cases restart <;> cases hq
    · rintro j ⟨daemon, hdaemon, hrunning, htold⟩
      rw [List.getElem?_map] at hdaemon
      obtain ⟨old, -, rfl⟩ := Option.map_eq_some_iff.mp hdaemon
      have hold : old.running = true := hrunning
      simp [hold] at htold

/-- A daemon ends. -/
theorem Supervised.exit {s : Machine} (h : Supervised s) (j : ℕ) (daemon : Daemon)
    (exit_code : ℕ) :
    Supervised { s with
      daemons := s.daemons.set j { daemon with running := false, exit_code } } := by
  refine ⟨h.pid_lt, h.named, h.fresh, h.stopped, ?_⟩
  rintro i ⟨other, hother, huntold⟩
  rcases Holders.getElem?_set hother with ⟨-, rfl⟩ | ⟨-, hold⟩
  · cases huntold.1
  · exact h.owned i ⟨other, hold, huntold⟩

theorem Supervised.command {s : Machine} (h : Supervised s) (hidle : s.script = .idle)
    {script : ScriptPoint} (hwrite : ∀ p, script ≠ .writePid p)
    (hkillall : ∀ restart, script ≠ .killall restart) : Supervised { s with script } := by
  constructor
  · rintro q (hq | hq)
    · exact h.pid_lt q (Or.inl hq)
    · exact absurd hq (hwrite q)
  · intro q hq
    rcases h.named q hq with hpid | hscript
    · exact Or.inl hpid
    · rw [hidle] at hscript
      cases hscript
  · exact fun q hq => absurd hq (hwrite q)
  · exact fun restart hq => absurd hq (hkillall restart)
  · intro j hj
    rcases h.owned j hj with ⟨restart, hold⟩ | howned
    · rw [hidle] at hold
      cases hold
    · exact Or.inr howned

/-- Every step that ends no shell with an error. -/
theorem Supervised.step {service : Service} {s t : Machine} {a : Action} (h : Supervised s)
    (hlasts : ∀ p io supervisor, a = .supervisor p io → s.supervisors[p]? = some supervisor →
      ∀ point watched, supervisor.point = .rotating point watched →
        (s.stepRotation supervisor.settings io point).2 ≠ .fatal)
    (hstep : s.step service a = some t) : Supervised t := by
  cases a with
  | command command =>
    simp only [Machine.step] at hstep
    split at hstep
    · next hidle =>
      obtain rfl := Option.some.inj hstep
      apply h.command hidle
      · intro p
        cases command <;> exact fun h => by cases h
      · intro restart
        cases command <;> exact fun h => by cases h
    · cases hstep
  | script executable config => exact h.stepScript hstep
  | supervisor p io =>
    rcases Option.bind_eq_some_iff.mp hstep with ⟨supervisor, hp, hsupervisor⟩
    exact h.stepSupervisor hp (hlasts p io supervisor rfl hp) hsupervisor
  | write j data =>
    simp only [Machine.step] at hstep
    split at hstep
    · obtain rfl := Option.some.inj hstep
      exact h.congr (sameProcesses_append ..)
    · cases hstep
  | exit j exit_code =>
    rcases Option.bind_eq_some_iff.mp hstep with ⟨daemon, -, hexit⟩
    split at hexit
    · obtain rfl := Option.some.inj hexit
      exact h.exit j daemon exit_code
    · cases hexit

/-! ## 3. Supervisors that last -/

/-- What holds in the runs in which no supervisor ends by itself. -/
structure Invariant (service : Service) (s : Machine) : Prop where
  supervised : Supervised s
  keep : ∀ supervisor ∈ s.supervisors, service.rotates = true →
    (arithmeticValue supervisor.settings.keep).isSome = true
  readable : ∀ supervisor ∈ s.supervisors, supervisor.point.Readable service

/-- A command of a rotation, where nothing ends the shell. -/
theorem readable_stepRotation {service : Service} {s : Machine} {settings : LogSettings} {io : StepIo}
    {point : RotationPoint} {watched : Option ℕ}
    (h : (SupervisorPoint.rotating point watched).Readable service)
    (hkeep : (arithmeticValue settings.keep).isSome = true)
    (hdone : ∀ log_size, point = .empty log_size → io.done = true) :
    (s.stepRotation settings io point).2 ≠ .fatal ∧
      (SupervisorPoint.afterRotation watched (s.stepRotation settings io point).2).Readable
        service := by
  have hreturns : ∀ rotates : service.rotates = true,
      (SupervisorPoint.afterRotation watched .returns).Readable service := by
    intro rotates
    cases watched with
    | none => trivial
    | some child => exact rotates
  cases point with
  | check =>
    rw [stepRotation]
    split
    · exact ⟨(fun heq => by cases heq), hreturns h⟩
    · split
      · exact ⟨(fun heq => by cases heq), hreturns h⟩
      · exact ⟨(fun heq => by cases heq), h, hkeep⟩
  | shift index log_size =>
    obtain ⟨hrotates, hindex⟩ := h
    obtain ⟨value, hvalue⟩ := Option.isSome_iff_exists.mp hindex
    rw [stepRotation, hvalue]
    split
    · refine ⟨(fun heq => by cases heq), hrotates, ?_⟩
      rw [arithmeticValue_natDecimal]
      rfl
    · exact ⟨(fun heq => by cases heq), hrotates⟩
  | copy log_size => exact ⟨(fun heq => by cases heq), h⟩
  | empty log_size =>
    rw [stepRotation, if_pos (hdone log_size rfl)]
    exact ⟨(fun heq => by cases heq), h⟩
  | note log_size => exact ⟨(fun heq => by cases heq), hreturns h⟩

/-- A supervisor that goes on. -/
theorem Invariant.setPoint {service : Service} {s t : Machine} (h : Invariant service s)
    (ht : Supervised t) {p : ℕ} {supervisor : Supervisor} {point : SupervisorPoint}
    (hp : s.supervisors[p]? = some supervisor)
    (hset : t.supervisors = s.supervisors.set p { supervisor with point })
    (hpoint : point.Readable service) : Invariant service t where
  supervised := ht
  keep := by
    intro other hmem
    rw [hset] at hmem
    rcases List.mem_or_eq_of_mem_set hmem with hold | rfl
    · exact h.keep other hold
    · exact h.keep supervisor (List.mem_of_getElem? hp)
  readable := by
    intro other hmem
    rw [hset] at hmem
    rcases List.mem_or_eq_of_mem_set hmem with hold | rfl
    · exact h.readable other hold
    · exact hpoint

/-- What a command of a supervisor does to the supervisors. -/
theorem supervisors_stepSupervisor {service : Service} {s t : Machine} {p : ℕ}
    {supervisor : Supervisor} {io : StepIo}
    (hrotated : ∀ point watched, supervisor.point = .rotating point watched →
      (SupervisorPoint.afterRotation watched
        (s.stepRotation supervisor.settings io point).2).Readable service)
    (hreadable : supervisor.point.Readable service)
    (hstep : s.stepSupervisor service p supervisor io = some t) :
    ∃ point, t.supervisors = s.supervisors.set p { supervisor with point } ∧
      point.Readable service := by
  obtain ⟨u, next, hmove, rfl⟩ := stepSupervisor_move hstep
  refine ⟨next, by rw [Machine.setPoint, hmove.supervisors], ?_⟩
  generalize hold : supervisor.point = old at hmove
  cases hmove with
  | rotating point watched => exact hrotated point watched hold
  | starting => trivial
  | spawning => exact service.readable_spawned _
  | looksAfter child =>
    rw [hold] at hreadable
    exact hreadable
  | misses child => trivial
  | waited child daemon hdaemon hended => trivial
  | restarting exit_code => exact service.readable_loopPoint

/-- What a command of a script does to them. -/
theorem supervisors_stepScript {service : Service} {s t : Machine} {executable : Bool}
    {config : Option Bytes} (hstep : s.stepScript service executable config = some t) :
    (∀ supervisor ∈ t.supervisors, supervisor ∈ s.supervisors ∨
      (s.script = .start ∧ supervisor = ⟨loadLogSettings config, service.loopPoint⟩) ∨
      (supervisor.point = .ended ∧ ∃ old ∈ s.supervisors, supervisor.settings = old.settings)) := by
  intro supervisor hmem
  rw [Machine.stepScript] at hstep
  cases hscript : s.script with
  | idle =>
    rw [hscript] at hstep
    cases hstep
  | start =>
    rw [hscript] at hstep
    dsimp only at hstep
    split at hstep
    · obtain rfl := Option.some.inj hstep
      exact Or.inl hmem
    · split at hstep
      · obtain rfl := Option.some.inj hstep
        exact Or.inl hmem
      · obtain rfl := Option.some.inj hstep
        rcases List.mem_append.mp hmem with hold | hnew
        · exact Or.inl hold
        · exact Or.inr (Or.inl ⟨rfl, List.mem_singleton.mp hnew⟩)
  | writePid pid =>
    rw [hscript] at hstep
    obtain rfl := Option.some.inj hstep
    exact Or.inl hmem
  | stop restart =>
    rw [hscript] at hstep
    obtain rfl := Option.some.inj hstep
    cases hpid : s.pidfile with
    | none =>
      rw [hpid] at hmem
      exact Or.inl hmem
    | some pid =>
      rw [hpid] at hmem
      dsimp only [Machine.kill] at hmem
      cases hp : s.supervisors[pid]? with
      | none =>
        rw [hp] at hmem
        exact Or.inl hmem
      | some killed =>
        rw [hp] at hmem
        rcases List.mem_or_eq_of_mem_set hmem with hold | rfl
        · exact Or.inl hold
        · exact Or.inr (Or.inr ⟨rfl, killed, List.mem_of_getElem? hp, rfl⟩)
  | killall restart =>
    rw [hscript] at hstep
    obtain rfl := Option.some.inj hstep
    exact Or.inl hmem

theorem Invariant.step {service : Service} {s t : Machine} {a : Action} (h : Invariant service s)
    (ha : s.lasting service a = true) (hstep : s.step service a = some t) : Invariant service t := by
  cases a with
  | supervisor p io =>
    rcases Option.bind_eq_some_iff.mp hstep with ⟨supervisor, hp, hsupervisor⟩
    have hmem := List.mem_of_getElem? hp
    have hreadable := h.readable supervisor hmem
    have hrotates : ∀ point watched, supervisor.point = .rotating point watched →
        service.rotates = true := by
      intro point watched hpoint
      rw [hpoint] at hreadable
      cases point with
      | shift index log_size => exact hreadable.1
      | _ => exact hreadable
    have hlasts : ∀ point watched, supervisor.point = .rotating point watched →
        (s.stepRotation supervisor.settings io point).2 ≠ .fatal ∧
          (SupervisorPoint.afterRotation watched
            (s.stepRotation supervisor.settings io point).2).Readable service := by
      intro point watched hpoint
      refine readable_stepRotation (hpoint ▸ hreadable)
        (h.keep supervisor hmem (hrotates point watched hpoint)) ?_
      rintro log_size rfl
      simpa [Machine.lasting, empties, hp, hpoint] using ha
    obtain ⟨point, hset, hpoint⟩ := supervisors_stepSupervisor
      (fun point watched heq => (hlasts point watched heq).2) hreadable hsupervisor
    exact h.setPoint (h.supervised.stepSupervisor hp
      (fun point watched heq => (hlasts point watched heq).1) hsupervisor) hp hset hpoint
  | script executable config =>
    have ht := h.supervised.step (fun _ _ _ heq => by cases heq) hstep
    have hfrom := supervisors_stepScript hstep
    refine ⟨ht, ?_, ?_⟩
    · intro supervisor hmem hrotates
      rcases hfrom supervisor hmem with hold | ⟨hstart, rfl⟩ | ⟨-, old, hold, heq⟩
      · exact h.keep supervisor hold hrotates
      · simpa [Machine.lasting, hstart, hrotates] using ha
      · exact heq ▸ h.keep old hold hrotates
    · intro supervisor hmem
      rcases hfrom supervisor hmem with hold | ⟨-, rfl⟩ | ⟨hended, -⟩
      · exact h.readable supervisor hold
      · exact service.readable_loopPoint
      · rw [hended]
        trivial
  | command command =>
    have ht := h.supervised.step (fun _ _ _ heq => by cases heq) hstep
    simp only [Machine.step] at hstep
    split at hstep
    · obtain rfl := Option.some.inj hstep
      exact ⟨ht, h.keep, h.readable⟩
    · cases hstep
  | write j data =>
    have ht := h.supervised.step (fun _ _ _ heq => by cases heq) hstep
    simp only [Machine.step] at hstep
    split at hstep
    · obtain rfl := Option.some.inj hstep
      exact ⟨ht, h.keep, h.readable⟩
    · cases hstep
  | exit j exit_code =>
    have ht := h.supervised.step (fun _ _ _ heq => by cases heq) hstep
    rcases Option.bind_eq_some_iff.mp hstep with ⟨daemon, -, hexit⟩
    split at hexit
    · obtain rfl := Option.some.inj hexit
      exact ⟨ht, h.keep, h.readable⟩
    · cases hexit

theorem invariant_init (service : Service) : Invariant service {} :=
  ⟨supervised_init, (fun _ hmem => by cases hmem), (fun _ hmem => by cases hmem)⟩

theorem invariant_of_reachable {service : Service} {s : Machine} (h : s.Reachable service) :
    Invariant service s :=
  h.invariant (invariant_init service) fun _ _ _ hinv ha hstep => hinv.step ha hstep

end Machine

/-- Whenever the init script has done what it was last told, with commands, crashes and writes in
any order, and no supervisor that ended by itself: at most one supervisor is alive, and it is the
one of the pid file; at most one daemon has not been told to end, and it is the child of that
supervisor. -/
theorem one_supervised_daemon {service : Service} {s : Machine} (h : s.Reachable service)
    (hidle : s.script = .idle) :
    (∀ p, s.alive p = true → s.pidfile = some p) ∧
    (∀ j, s.Untold j → ∃ p supervisor, s.pidfile = some p ∧ s.supervisors[p]? = some supervisor ∧
      supervisor.point.child = some j) ∧
    (∀ i j, s.Untold i → s.Untold j → i = j) := by
  have hinv := (Machine.invariant_of_reachable h).supervised
  have hnamed : ∀ p, s.alive p = true → s.pidfile = some p := by
    intro p hp
    rcases hinv.named p hp with hpid | hscript
    · exact hpid
    · rw [hidle] at hscript
      cases hscript
  have howned : ∀ j, s.Untold j → ∃ p supervisor, s.pidfile = some p ∧
      s.supervisors[p]? = some supervisor ∧ supervisor.point.child = some j := by
    intro j hj
    rcases hinv.owned j hj with ⟨restart, hkillall⟩ | ⟨p, supervisor, hp, hchild⟩
    · rw [hidle] at hkillall
      cases hkillall
    · have hlive : supervisor.point ≠ .ended := by
        intro hkilled
        rw [hkilled] at hchild
        cases hchild
      exact ⟨p, supervisor, hnamed p (Machine.alive_iff.mpr ⟨supervisor, hp, hlive⟩), hp, hchild⟩
  refine ⟨hnamed, howned, ?_⟩
  intro i j hi hj
  rcases howned i hi with ⟨p, supervisor, hpid, hp, hchild⟩
  rcases howned j hj with ⟨q, supervisor', hpid', hq, hchild'⟩
  obtain rfl := Option.some.inj (hpid.symm.trans hpid')
  obtain rfl := Option.some.inj (hp.symm.trans hq)
  exact Option.some.inj (hchild.symm.trans hchild')

/-- A daemon is started and crashes, its supervisor starts the next one, and the machine is told to
start once more. -/
def crashAndStart : List Machine.Action :=
  [.command .start, .script true none, .script true none,
    .supervisor 0 {}, .supervisor 0 {}, .supervisor 0 {}, .supervisor 0 {},
    .exit 0 139, .supervisor 0 {}, .supervisor 0 {}, .supervisor 0 {},
    .supervisor 0 {}, .supervisor 0 {}, .supervisor 0 { done := false }, .supervisor 0 {},
    .supervisor 0 {}, .command .start, .script true none]

/-- Told to keep `08` logs, the supervisor ends in its first rotation, and the next start runs a
second daemon beside the first. -/
example :
    (Runs.exec (Machine.step S99chime) {} ([.command .start,
      .script true (some (bytes "log_rotate_keep=08\nlog_max_bytes=1024\n")), .script true none,
      .supervisor 0 {}, .supervisor 0 {}, .supervisor 0 {}, .write 0 (List.replicate 1100 49),
      .supervisor 0 {}, .supervisor 0 {}, .supervisor 0 {}, .command .start, .script true none,
      .script true none, .supervisor 1 { done := false }, .supervisor 1 {}, .supervisor 1 {}])).map
        (fun s => (s.script, s.daemons)) = some (.idle, [{}, {}]) := by
  decide +kernel

theorem one_supervised_daemon_crashAndStart :
    ∃ s, Runs.exec (fun (s : Machine) a =>
        if s.lasting S99chime a then s.step S99chime a else none) {} crashAndStart = some s ∧
      s.Untold 1 ∧ (∀ i j, s.Untold i → s.Untold j → i = j) ∧ ∃ p, s.pidfile = some p := by
  have hrun : (Runs.exec (fun (s : Machine) a =>
      if s.lasting S99chime a then s.step S99chime a else none) {} crashAndStart).map
        (fun s => (s.script, s.daemons)) =
      some (.idle, [{ running := false, exit_code := 139 }, ({} : Daemon)]) := by
    decide +kernel
  obtain ⟨s, hexec, hlast⟩ := Option.map_eq_some_iff.mp hrun
  obtain ⟨hidle, hdaemons⟩ := Prod.mk.inj hlast
  have huntold : s.Untold 1 := by
    refine ⟨{}, ?_, rfl, rfl⟩
    rw [hdaemons]
    rfl
  obtain ⟨-, howned, hone⟩ :=
    one_supervised_daemon (Runs.reaches_of_exec_allowed hexec) hidle
  obtain ⟨p, -, hpid, -⟩ := howned 1 huntold
  exact ⟨s, hexec, huntold, hone, p, hpid⟩

end VirtualChime.InitD
