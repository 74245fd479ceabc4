import VirtualChime.SupervisedDaemon

/-!
# What is left of the log

A rotation copies the log and then empties it, in commands between which the daemon writes.  As
long as nobody writes or kills the supervisor between the copy and the emptying, and the commands do
their work, the files together hold the newest of what was written, in order.
-/

namespace VirtualChime.InitD

/-! ## 1. Where the rotation is -/

def SupervisorPoint.rotation : SupervisorPoint → Option RotationPoint
  | .rotating point _ => some point
  | _ => none

/-- Where the rotation goes on, if it does. -/
def RotationResult.next : RotationResult → Option RotationPoint
  | .goesOn next => some next
  | _ => none

/-- The files are being moved, or the log is in two of them. -/
def RotationPoint.underway : RotationPoint → Bool
  | .shift .. => true
  | .copy _ => true
  | .empty _ => true
  | _ => false

def RotationPoint.copied : RotationPoint → Bool
  | .empty _ => true
  | _ => false

namespace Machine

def rotation (s : Machine) : Option RotationPoint :=
  s.supervisors.findSome? fun supervisor => supervisor.point.rotation

/-- What the log holds and no other file. -/
def current (s : Machine) : Bytes :=
  if s.rotation.any RotationPoint.copied then [] else s.log.getD []

/-- `LOGFILE.n`, for a number written without a leading zero. -/
def numbered (s : Machine) : ℕ → Option Bytes := s.rotated ∘ natDecimal

/-- The files from the oldest to the newest. -/
def kept (s : Machine) (keep : ℕ) : Bytes := Shelves.contents s.numbered keep ++ s.current

/-- The settings stay as they are, no script stops a supervisor in the middle of a rotation, `mv`,
`cp` and the emptying do their work, and no daemon writes between the last two. -/
def undisturbed (settings : LogSettings) (s : Machine) : Action → Bool
  | .script _ config =>
      match s.script with
      | .start => loadLogSettings config = settings
      | .stop _ => !s.rotation.any RotationPoint.underway
      | _ => true
  | .supervisor _ io =>
      !s.rotation.any RotationPoint.underway ||
        (io.done && (s.log.getD []).length ≤ io.copied)
  | .write .. => !s.rotation.any RotationPoint.copied
  | _ => true

end Machine

theorem rotation_afterRotation (watched : Option ℕ) (result : RotationResult) :
    (SupervisorPoint.afterRotation watched result).rotation = result.next := by
  cases result with
  | goesOn next => rfl
  | returns => cases watched <;> rfl
  | fatal => rfl

namespace Machine

variable {s t : Machine} {p : ℕ} {supervisor : Supervisor} {point : SupervisorPoint}
  {settings : LogSettings} {keep : ℕ}

theorem rotation_of_alive (h : Supervised s) (hp : s.supervisors[p]? = some supervisor)
    (hlive : supervisor.point ≠ .ended) : s.rotation = supervisor.point.rotation := by
  apply Holders.findSome?_eq_of_others (f := fun supervisor => supervisor.point.rotation) hp
  intro q other hne hq
  by_cases hother : other.point = .ended
  · rw [hother]
    rfl
  · exact absurd (h.alive_unique (alive_iff.mpr ⟨supervisor, hp, hlive⟩)
      (alive_iff.mpr ⟨other, hq, hother⟩)) hne

theorem rotation_of_dead (h : ∀ q, s.alive q = false) : s.rotation = none := by
  rw [rotation, List.findSome?_eq_none_iff]
  intro supervisor hmem
  obtain ⟨q, hq⟩ := List.mem_iff_getElem?.mp hmem
  by_cases hkilled : supervisor.point = .ended
  · rw [hkilled]
    rfl
  · have halive := alive_iff.mpr ⟨supervisor, hq, hkilled⟩
    rw [h q] at halive
    cases halive

theorem rotation_setPoint (h : Supervised s) (hp : s.supervisors[p]? = some supervisor)
    (hlive : supervisor.point ≠ .ended) :
    (s.setPoint p supervisor point).rotation = point.rotation := by
  have hself : (s.supervisors.set p { supervisor with point })[p]? =
      some { supervisor with point } := by
    rw [List.getElem?_set_self', hp]
    rfl
  apply Holders.findSome?_eq_of_others (f := fun supervisor => supervisor.point.rotation) hself
  intro q other hne hq
  rcases Holders.getElem?_set hq with ⟨heq, -⟩ | ⟨-, hold⟩
  · exact absurd heq hne
  · by_cases hother : other.point = .ended
    · rw [hother]
      rfl
    · exact absurd (h.alive_unique (alive_iff.mpr ⟨supervisor, hp, hlive⟩)
        (alive_iff.mpr ⟨other, hold, hother⟩)) hne

/-- Where nobody disturbs a rotation, no supervisor ends by itself. -/
theorem lasting_of_undisturbed (h : Supervised s) (hkeep : settings.keep = natDecimal keep)
    {a : Action} (ha : undisturbed settings s a = true) : s.lasting S99chime a = true := by
  cases a with
  | script executable config =>
    by_cases hstart : s.script = .start
    · rw [undisturbed, hstart] at ha
      have hsettings : loadLogSettings config = settings := of_decide_eq_true ha
      rw [lasting, hsettings, hkeep, arithmeticValue_natDecimal, Option.isSome_some, Bool.or_true]
    · rw [lasting, decide_eq_true hstart]
      rfl
  | supervisor p io =>
    rw [lasting]
    cases hempties : s.empties p with
    | false => exact Bool.or_true _
    | true =>
      rw [empties, Option.any_eq_true] at hempties
      obtain ⟨supervisor, hp, hmatch⟩ := hempties
      split at hmatch
      · next log_size watched hpoint =>
        have hlive : supervisor.point ≠ .ended := by
          rw [hpoint]
          exact fun heq => by cases heq
        rw [undisturbed, rotation_of_alive h hp hlive, hpoint, Bool.or_eq_true] at ha
        rcases ha with hrest | hdone
        · cases hrest
        · rw [(Bool.and_eq_true_iff.mp hdone).1]
          rfl
      · cases hmatch
  | command command => rfl
  | write j data => rfl
  | exit j exit_code => rfl

/-! ## 2. The files at each point -/

/-- The log is long enough to be rotated. -/
def Full (settings : LogSettings) (s : Machine) : Prop :=
  ∃ text, s.log = some text ∧ digitsValue settings.max_bytes ≤ text.length

/-- The logs that were rotated, the newest first, and where they are. -/
def Stage (settings : LogSettings) (keep : ℕ) (files : List Bytes) (s : Machine) :
    Option RotationPoint → Prop
  | some (.shift index _) =>
      ∃ i, index = natDecimal i ∧ Shelves.Shifting keep i s.numbered files ∧
        (1 ≤ i ∧ i ≤ keep) ∧ Full settings s ∧ s.written = files.reverse.flatten ++ s.log.getD []
  | some (.copy _) =>
      Shelves.Shifting keep 1 s.numbered files ∧ 1 ≤ keep ∧
        Full settings s ∧ s.written = files.reverse.flatten ++ s.log.getD []
  | some (.empty _) =>
      Shelves.Shelved keep s.numbered files ∧ s.written = files.reverse.flatten
  | _ =>
      Shelves.Shelved keep s.numbered files ∧
        s.written = files.reverse.flatten ++ s.log.getD []

variable {files : List Bytes} {r : Option RotationPoint}

theorem Stage.of_rest (h : Stage settings keep files s r)
    (hrest : r.any RotationPoint.underway = false) : Stage settings keep files s none := by
  match r, h with
  | none, h => exact h
  | some .check, h => exact h
  | some (.note _), h => exact h
  | some (.shift _ _), _ => cases hrest
  | some (.copy _), _ => cases hrest
  | some (.empty _), _ => cases hrest

theorem Full.append (h : Full settings s) (data : Bytes) : Full settings (s.append data) := by
  rcases h with ⟨text, hlog, hlength⟩
  refine ⟨text ++ data, ?_, ?_⟩
  · rw [Machine.append, hlog]
    rfl
  · rw [List.length_append]
    exact Nat.le_add_right_of_le hlength

theorem written_append (h : s.written = files.reverse.flatten ++ s.log.getD []) (data : Bytes) :
    (s.append data).written = files.reverse.flatten ++ (s.append data).log.getD [] := by
  change s.written ++ data = _ ++ (s.log.getD [] ++ data)
  rw [h, List.append_assoc]

/-- What is appended stays in the log, unless this has just been copied. -/
theorem Stage.append (h : Stage settings keep files s r)
    (hcopied : r.any RotationPoint.copied = false) (data : Bytes) :
    Stage settings keep files (s.append data) r := by
  match r, h with
  | none, ⟨hshelved, hwritten⟩ => exact ⟨hshelved, written_append hwritten data⟩
  | some .check, ⟨hshelved, hwritten⟩ => exact ⟨hshelved, written_append hwritten data⟩
  | some (.note _), ⟨hshelved, hwritten⟩ => exact ⟨hshelved, written_append hwritten data⟩
  | some (.shift _ _), ⟨i, hname, hshifting, hindex, hfull, hwritten⟩ =>
    exact ⟨i, hname, hshifting, hindex, hfull.append data, written_append hwritten data⟩
  | some (.copy _), ⟨hshifting, hkeep, hfull, hwritten⟩ =>
    exact ⟨hshifting, hkeep, hfull.append data, written_append hwritten data⟩
  | some (.empty _), _ => cases hcopied

theorem Stage.logLine (h : Stage settings keep files s r)
    (hcopied : r.any RotationPoint.copied = false) (io : StepIo) (text : Bytes) :
    Stage settings keep files (s.logLine io text) r := by
  rw [Machine.logLine]
  split
  · exact h.append hcopied _
  · exact h

/-- A command of a rotation. -/
theorem Stage.stepRotation {current : RotationPoint} (h : Stage settings keep files s (some current))
    (hkeep : settings.keep = natDecimal keep) (hleast : 1 ≤ keep)
    (hfull : ∀ file ∈ files, digitsValue settings.max_bytes ≤ file.length)
    {io : StepIo} (hio : current.underway = true →
      io.done = true ∧ (s.log.getD []).length ≤ io.copied) :
    ∃ files', (∀ file ∈ files', digitsValue settings.max_bytes ≤ file.length) ∧
      Stage settings keep files' (s.stepRotation settings io current).1
        (s.stepRotation settings io current).2.next := by
  cases current with
  | check =>
    rcases h with ⟨hshelved, hwritten⟩
    refine ⟨files, hfull, ?_⟩
    rw [Machine.stepRotation]
    cases hlog : s.log with
    | none => exact ⟨hshelved, hwritten⟩
    | some text =>
      dsimp only
      split
      · exact ⟨hshelved, hwritten⟩
      · next hlong =>
        simp only [Bool.or_eq_true, decide_eq_true_eq, not_or, not_lt] at hlong
        exact ⟨keep, hkeep, hshelved.shifting hleast, ⟨hleast, Nat.le_refl _⟩,
          ⟨text, hlog, hlong.2⟩, hwritten⟩
  | shift index log_size =>
    rcases h with ⟨i, rfl, hshifting, ⟨hindex, hle⟩, hlong, hwritten⟩
    obtain ⟨hdone, -⟩ := hio rfl
    refine ⟨files, hfull, ?_⟩
    rw [Machine.stepRotation, digitsValue_natDecimal, arithmeticValue_natDecimal]
    split
    · next hgt =>
      refine ⟨i - 1, rfl, ?_, ⟨by omega, by omega⟩, hlong, hwritten⟩
      show Shelves.Shifting keep (i - 1)
        (Shelves.move s.rotated (natDecimal (i - 1)) (natDecimal i) ∘ natDecimal) files
      rw [Shelves.move_comp natDecimal_injective]
      exact hshifting.move hgt hle
    · next hgt =>
      obtain rfl : i = 1 := by omega
      exact ⟨hshifting, hleast, hlong, hwritten⟩
  | copy log_size =>
    rcases h with ⟨hshifting, -, ⟨text, hlog, hlong⟩, hwritten⟩
    obtain ⟨hdone, hcopied⟩ := hio rfl
    rw [hlog, Option.getD_some] at hcopied hwritten
    refine ⟨text :: files, ?_, ?_⟩
    · intro file hfile
      rcases List.mem_cons.mp hfile with rfl | hmem
      · exact hlong
      · exact hfull file hmem
    · have hstep : (s.stepRotation settings io (.copy log_size)) =
          ({ s with rotated := Shelves.put s.rotated (natDecimal 1) text },
            .goesOn (.empty log_size)) := by
        simp only [Machine.stepRotation, hdone, if_true, copyLog, hlog,
          List.take_of_length_le hcopied]
        rfl
      rw [hstep]
      constructor
      · rw [numbered, Shelves.put_comp natDecimal_injective]
        exact hshifting.put hleast text
      · rw [List.reverse_cons, List.flatten_append, List.flatten_singleton]
        exact hwritten
  | empty log_size =>
    rcases h with ⟨hshelved, hwritten⟩
    obtain ⟨hdone, -⟩ := hio rfl
    refine ⟨files, hfull, ?_⟩
    rw [Machine.stepRotation, if_pos hdone]
    exact ⟨hshelved, hwritten.trans (List.append_nil _).symm⟩
  | note log_size =>
    have hrest : Stage settings keep files s none := h
    exact ⟨files, hfull, hrest.logLine rfl io _⟩

/-- The names of the files are numbers. -/
def Named (s : Machine) : Prop := ∀ name, (s.rotated name).isSome = true → ∃ n, name = natDecimal n

theorem Named.logLine (h : Named s) (io : StepIo) (text : Bytes) : Named (s.logLine io text) := by
  rw [Machine.logLine]
  split
  · exact h
  · exact h

theorem Stage.index_eq {index : Bytes} {log_size : ℕ}
    (h : Stage settings keep files s (some (.shift index log_size))) :
    ∃ i, index = natDecimal i := by
  rcases h with ⟨i, hname, -⟩
  exact ⟨i, hname⟩

theorem Named.stepRotation {current : RotationPoint} (h : Named s)
    (hindex : ∀ index log_size, current = .shift index log_size → ∃ i, index = natDecimal i)
    (settings : LogSettings) (io : StepIo) : Named (s.stepRotation settings io current).1 := by
  cases current with
  | check =>
    rw [Machine.stepRotation]
    split
    · exact h
    · split <;> exact h
  | shift index log_size =>
    obtain ⟨i, rfl⟩ := hindex index log_size rfl
    rw [Machine.stepRotation]
    split
    · cases arithmeticValue (natDecimal i) with
      | none => exact h
      | some value =>
        dsimp only
        split
        · intro name hname
          rcases Shelves.move_isSome hname with rfl | hold
          · exact ⟨i, rfl⟩
          · exact h name hold
        · exact h
    · exact h
  | copy log_size =>
    rw [Machine.stepRotation]
    dsimp only
    split
    · rw [copyLog]
      split
      · exact h
      · intro name hname
        rcases Shelves.put_isSome hname with rfl | hold
        · exact ⟨1, rfl⟩
        · exact h name hold
    · exact h
  | empty log_size =>
    rw [Machine.stepRotation]
    split <;> exact h
  | note log_size => exact h.logLine io _

/-! ## 3. The runs -/

/-- The logs that were rotated were long enough, and they are where the rotation has them. -/
structure Rotated (settings : LogSettings) (keep : ℕ) (s : Machine) : Prop where
  settled : ∀ supervisor ∈ s.supervisors, supervisor.settings = settings ∧ 1 ≤ keep
  named : Named s
  stage : ∃ files, (∀ file ∈ files, digitsValue settings.max_bytes ≤ file.length) ∧
    Stage settings keep files s s.rotation

theorem rotated_init (settings : LogSettings) (keep : ℕ) : Rotated settings keep {} where
  settled := fun _ hmem => by cases hmem
  named := fun _ h => by cases h
  stage := ⟨[], (fun _ hmem => by cases hmem), ⟨fun _ _ _ => rfl, fun _ _ => rfl⟩, rfl⟩

/-- The log and its files are the same. -/
structure SameFiles (s t : Machine) : Prop where
  log : t.log = s.log
  rotated : t.rotated = s.rotated
  written : t.written = s.written

theorem Stage.congr (h : Stage settings keep files s r) (hsame : SameFiles s t) :
    Stage settings keep files t r := by
  rcases s with ⟨log, rotated, pidfile, supervisors, daemons, script, written⟩
  rcases t with ⟨log', rotated', pidfile', supervisors', daemons', script', written'⟩
  obtain ⟨rfl, rfl, rfl⟩ := hsame
  exact h

theorem settled_set (h : ∀ other ∈ s.supervisors, other.settings = settings ∧ 1 ≤ keep)
    (hp : s.supervisors[p]? = some supervisor) {other : Supervisor}
    (hmem : other ∈ s.supervisors.set p { supervisor with point }) :
    other.settings = settings ∧ 1 ≤ keep := by
  rcases List.mem_or_eq_of_mem_set hmem with hold | rfl
  · exact h other hold
  · exact h supervisor (List.mem_of_getElem? hp)

/-- A supervisor goes on, with the files as they are at its new point. -/
theorem Rotated.setPoint (h : Rotated settings keep s) (ht : Supervised t)
    (hsame : t.supervisors = s.supervisors) (hp : s.supervisors[p]? = some supervisor)
    (hlive : supervisor.point ≠ .ended) (hnamed : Named t)
    (hstage : ∃ files, (∀ file ∈ files, digitsValue settings.max_bytes ≤ file.length) ∧
      Stage settings keep files t point.rotation) :
    Rotated settings keep (t.setPoint p supervisor point) where
  settled := by
    intro other hmem
    change other ∈ t.supervisors.set p _ at hmem
    rw [hsame] at hmem
    exact settled_set h.settled hp hmem
  named := hnamed
  stage := by
    rcases hstage with ⟨files, hfull, hstage⟩
    refine ⟨files, hfull, ?_⟩
    rw [rotation_setPoint ht (hsame ▸ hp) hlive]
    exact hstage.congr ⟨rfl, rfl, rfl⟩

theorem Rotated.stepSupervisor (h : Rotated settings keep s) (hs : Supervised s)
    (hkeep : settings.keep = natDecimal keep)
    (hp : s.supervisors[p]? = some supervisor) {io : StepIo}
    (hio : undisturbed settings s (.supervisor p io) = true)
    (hstep : s.stepSupervisor S99chime p supervisor io = some t) : Rotated settings keep t := by
  obtain ⟨hsettings, hleast⟩ := h.settled supervisor (List.mem_of_getElem? hp)
  obtain ⟨files, hfull, hstage⟩ := h.stage
  obtain ⟨u, next, hmove, rfl⟩ := stepSupervisor_move hstep
  have hlive := hmove.live
  rw [rotation_of_alive hs hp hlive] at hstage
  rw [undisturbed, rotation_of_alive hs hp hlive] at hio
  generalize hpoint : supervisor.point = old at hmove
  rw [hpoint] at hstage hio
  cases hmove with
  | rotating current watched =>
    have hsame := sameProcesses_stepRotation s supervisor.settings io current
    refine h.setPoint (hs.congr hsame) hsame.supervisors hp hlive
      (h.named.stepRotation ?_ supervisor.settings io) ?_
    · rintro index log_size rfl
      exact Stage.index_eq hstage
    rw [rotation_afterRotation, hsettings]
    refine hstage.stepRotation hkeep hleast hfull fun hunderway => ?_
    simpa [SupervisorPoint.rotation, hunderway] using hio
  | starting =>
    have hsame := sameProcesses_logLine s io S99chime.starting
    exact h.setPoint (hs.congr hsame) hsame.supervisors hp hlive (h.named.logLine io _)
      ⟨files, hfull, hstage.logLine rfl io _⟩
  | spawning =>
    have hset : Rotated settings keep (s.setPoint p supervisor (.watching s.daemons.length)) :=
      h.setPoint hs rfl hp hlive h.named ⟨files, hfull, hstage⟩
    obtain ⟨files', hfull', hstage'⟩ := hset.stage
    exact ⟨hset.settled, hset.named, files', hfull', hstage'.congr ⟨rfl, rfl, rfl⟩⟩
  | looksAfter child => exact h.setPoint hs rfl hp hlive h.named ⟨files, hfull, hstage⟩
  | misses child => exact h.setPoint hs rfl hp hlive h.named ⟨files, hfull, hstage⟩
  | waited child daemon hdaemon hended =>
    exact h.setPoint hs rfl hp hlive h.named ⟨files, hfull, hstage⟩
  | restarting exit_code =>
    have hsame := sameProcesses_logLine s io (S99chime.exited exit_code)
    exact h.setPoint (hs.congr hsame) hsame.supervisors hp hlive (h.named.logLine io _)
      ⟨files, hfull, hstage.logLine rfl io _⟩

/-- A step that leaves the files and the rotation alone. -/
theorem Rotated.congr (h : Rotated settings keep s) (hsame : SameFiles s t)
    (hsupervisors : t.supervisors = s.supervisors) : Rotated settings keep t where
  settled := hsupervisors ▸ h.settled
  named := by
    intro name hname
    rw [hsame.rotated] at hname
    exact h.named name hname
  stage := by
    obtain ⟨files, hfull, hstage⟩ := h.stage
    refine ⟨files, hfull, ?_⟩
    rw [show t.rotation = s.rotation by rw [rotation, rotation, hsupervisors]]
    exact hstage.congr hsame

/-- A rotation that is not under way goes on no further. -/
theorem Rotated.rest (h : Rotated settings keep s)
    (hrest : s.rotation.any RotationPoint.underway = false) (hsame : SameFiles s t)
    (hsettled : ∀ supervisor ∈ t.supervisors,
      supervisor.settings = settings ∧ 1 ≤ keep)
    (ht : t.rotation.any (fun point => point ≠ .check) = false) : Rotated settings keep t where
  settled := hsettled
  named := by
    intro name hname
    rw [hsame.rotated] at hname
    exact h.named name hname
  stage := by
    obtain ⟨files, hfull, hstage⟩ := h.stage
    refine ⟨files, hfull, ?_⟩
    have hnone := (hstage.of_rest hrest).congr hsame
    cases hrotation : t.rotation with
    | none => exact hnone
    | some point =>
      rw [hrotation, Option.any_some, decide_eq_false_iff_not, not_not] at ht
      rw [ht]
      exact hnone

theorem Rotated.stepScript (h : Rotated settings keep s) (hs : Supervised s)
    (hkeep : settings.keep = natDecimal keep) {executable : Bool}
    {config : Option Bytes} (hio : undisturbed settings s (.script executable config) = true)
    (hstep : s.stepScript S99chime executable config = some t) : Rotated settings keep t := by
  have ht := hs.stepScript hstep
  rw [undisturbed] at hio
  have hsettled : ∀ supervisor ∈ t.supervisors, supervisor.settings = settings ∧ 1 ≤ keep := by
    intro supervisor hmem
    rcases supervisors_stepScript hstep supervisor hmem with
      hold | ⟨hstart, rfl⟩ | ⟨-, old, hold, heq⟩
    · exact h.settled supervisor hold
    · rw [hstart] at hio
      have hsettings : loadLogSettings config = settings := of_decide_eq_true hio
      have hleast := one_le_keep config
      rw [hsettings, hkeep, digitsValue_natDecimal] at hleast
      exact ⟨hsettings, hleast⟩
    · rw [heq]
      exact h.settled old hold
  rw [Machine.stepScript] at hstep
  cases hscript : s.script with
  | idle =>
    rw [hscript] at hstep
    cases hstep
  | start =>
    rw [hscript] at hstep
    dsimp only at hstep
    split at hstep
    · obtain rfl := Option.some.inj hstep
      exact h.congr ⟨rfl, rfl, rfl⟩ rfl
    · next hnone =>
      split at hstep
      · obtain rfl := Option.some.inj hstep
        exact h.congr ⟨rfl, rfl, rfl⟩ rfl
      · obtain rfl := Option.some.inj hstep
        have hdead := hs.dead_of_start hscript (Bool.eq_false_iff.mpr hnone)
        have hrest : s.rotation.any RotationPoint.underway = false := by
          rw [rotation_of_dead hdead]
          rfl
        refine h.rest hrest ⟨rfl, rfl, rfl⟩ hsettled ?_
        have hlast : (s.supervisors ++ [⟨loadLogSettings config, .rotating .check none⟩])[
            s.supervisors.length]? = some ⟨loadLogSettings config, .rotating .check none⟩ := by
          simp
        rw [rotation_of_alive ht hlast (fun hkilled => by cases hkilled)]
        rfl
  | writePid pid =>
    rw [hscript] at hstep
    obtain rfl := Option.some.inj hstep
    exact h.congr ⟨rfl, rfl, rfl⟩ rfl
  | stop restart =>
    rw [hscript] at hstep hio
    obtain rfl := Option.some.inj hstep
    have hrest : s.rotation.any RotationPoint.underway = false := by simpa using hio
    refine h.rest hrest ?_ hsettled ?_
    · cases s.pidfile with
      | none => exact ⟨rfl, rfl, rfl⟩
      | some pid =>
        dsimp only [Machine.kill]
        cases s.supervisors[pid]? <;> exact ⟨rfl, rfl, rfl⟩
    · rw [rotation_of_dead (ht.stopped restart rfl)]
      rfl
  | killall restart =>
    rw [hscript] at hstep
    obtain rfl := Option.some.inj hstep
    exact h.congr ⟨rfl, rfl, rfl⟩ rfl

theorem Rotated.step {a : Action} (h : Rotated settings keep s) (hs : Supervised s)
    (hkeep : settings.keep = natDecimal keep) (ha : undisturbed settings s a = true)
    (hstep : s.step S99chime a = some t) :
    Rotated settings keep t := by
  cases a with
  | command command =>
    simp only [Machine.step] at hstep
    split at hstep
    · obtain rfl := Option.some.inj hstep
      exact h.congr ⟨rfl, rfl, rfl⟩ rfl
    · cases hstep
  | script executable config => exact h.stepScript hs hkeep ha hstep
  | supervisor p io =>
    rcases Option.bind_eq_some_iff.mp hstep with ⟨supervisor, hp, hsupervisor⟩
    exact h.stepSupervisor hs hkeep hp ha hsupervisor
  | write j data =>
    simp only [Machine.step] at hstep
    split at hstep
    · obtain rfl := Option.some.inj hstep
      obtain ⟨files, hfull, hstage⟩ := h.stage
      have hcopied : s.rotation.any RotationPoint.copied = false := by
        simpa [undisturbed] using ha
      exact ⟨h.settled, h.named, files, hfull, hstage.append hcopied data⟩
    · cases hstep
  | exit j exit_code =>
    rcases Option.bind_eq_some_iff.mp hstep with ⟨daemon, -, hexit⟩
    split at hexit
    · obtain rfl := Option.some.inj hexit
      exact h.congr ⟨rfl, rfl, rfl⟩ rfl
    · cases hexit

theorem rotated_of_reaches (hkeep : settings.keep = natDecimal keep)
    (h : Runs.Reaches (step S99chime) (fun s a => undisturbed settings s a = true) {} s) :
    Rotated settings keep s := by
  have hboth : Invariant S99chime s ∧ Rotated settings keep s :=
    h.invariant (I := fun s => Invariant S99chime s ∧ Rotated settings keep s)
      ⟨invariant_init S99chime, rotated_init settings keep⟩ fun _ _ _ hinv ha hstep =>
        ⟨hinv.1.step (lasting_of_undisturbed hinv.1.supervised hkeep ha) hstep,
          hinv.2.step hinv.1.supervised hkeep ha hstep⟩
  exact hboth.2

/-! ## 4. What is kept -/

/-- The files hold the newest of what was written, and what they do not hold was dropped for
more. -/
theorem exists_lost {n : ℕ} (hfull : ∀ file ∈ files, digitsValue settings.max_bytes ≤ file.length)
    (hcontents : Shelves.contents s.numbered keep = (files.take n).reverse.flatten)
    (hwritten : s.written = files.reverse.flatten ++ s.current)
    (hlength : keep * digitsValue settings.max_bytes ≤
      n * digitsValue settings.max_bytes + s.current.length) :
    ∃ lost, s.written = lost ++ s.kept keep ∧
      (lost ≠ [] → keep * digitsValue settings.max_bytes ≤ (s.kept keep).length) := by
  refine ⟨(files.drop n).reverse.flatten, ?_, ?_⟩
  · rw [hwritten, kept, hcontents, Shelves.flatten_reverse_split n, List.append_assoc]
  · intro hlost
    have hmore : n ≤ files.length := by
      by_contra hless
      rw [List.drop_of_length_le (by omega)] at hlost
      exact hlost rfl
    have hleast : ∀ file ∈ (files.take n).reverse, digitsValue settings.max_bytes ≤ file.length :=
      fun file hfile => hfull file (List.mem_of_mem_take (List.mem_reverse.mp hfile))
    have htake := Shelves.le_length_flatten hleast
    rw [List.length_reverse, List.length_take, Nat.min_eq_left hmore] at htake
    rw [kept, hcontents, List.length_append]
    omega

theorem Full.keep_le (h : Full settings s) {n : ℕ} (hn : keep ≤ n + 1) :
    keep * digitsValue settings.max_bytes ≤
      n * digitsValue settings.max_bytes + (s.log.getD []).length := by
  rcases h with ⟨text, hlog, hlong⟩
  rw [hlog, Option.getD_some]
  calc keep * digitsValue settings.max_bytes
      ≤ (n + 1) * digitsValue settings.max_bytes := Nat.mul_le_mul_right _ hn
    _ = n * digitsValue settings.max_bytes + digitsValue settings.max_bytes := Nat.succ_mul ..
    _ ≤ n * digitsValue settings.max_bytes + text.length := Nat.add_le_add_left hlong _

/-- The places hold the newest logs, as many as there are places, or one less while the log itself
is long enough to be rotated. -/
theorem Stage.newest (h : Stage settings keep files s r) (hr : s.rotation = r) :
    s.written = files.reverse.flatten ++ s.current ∧
    ∃ n, Shelves.contents s.numbered keep = (files.take n).reverse.flatten ∧
      keep * digitsValue settings.max_bytes ≤
        n * digitsValue settings.max_bytes + s.current.length := by
  rw [current, hr]
  match r, h with
  | none, ⟨hshelved, hwritten⟩ =>
    exact ⟨hwritten, keep, hshelved.contents, Nat.le_add_right ..⟩
  | some .check, ⟨hshelved, hwritten⟩ =>
    exact ⟨hwritten, keep, hshelved.contents, Nat.le_add_right ..⟩
  | some (.note _), ⟨hshelved, hwritten⟩ =>
    exact ⟨hwritten, keep, hshelved.contents, Nat.le_add_right ..⟩
  | some (.empty _), ⟨hshelved, hwritten⟩ =>
    exact ⟨hwritten.trans (List.append_nil _).symm, keep, hshelved.contents,
      Nat.le_add_right ..⟩
  | some (.shift _ _), ⟨_, _, hshifting, ⟨hindex, hle⟩, hfull, hwritten⟩ =>
    obtain ⟨n, hn, hcontents⟩ := hshifting.contents hindex hle
    exact ⟨hwritten, n, hcontents, hfull.keep_le hn⟩
  | some (.copy _), ⟨hshifting, hkeep, hfull, hwritten⟩ =>
    obtain ⟨n, hn, hcontents⟩ := hshifting.contents (Nat.le_refl _) hkeep
    exact ⟨hwritten, n, hcontents, hfull.keep_le hn⟩

theorem Stage.mem (h : Stage settings keep files s r) {n : ℕ} {file : Bytes}
    (hfile : s.numbered n = some file) : 1 ≤ n ∧ n ≤ keep ∧ file ∈ files := by
  match r, h with
  | none, h => exact h.1.mem hfile
  | some .check, h => exact h.1.mem hfile
  | some (.note _), h => exact h.1.mem hfile
  | some (.empty _), h => exact h.1.mem hfile
  | some (.shift _ _), ⟨_, _, hshifting, _⟩ => exact hshifting.mem hfile
  | some (.copy _), h => exact h.1.mem hfile

end Machine

/-- The supervisor takes six steps, the commands of a rotation among them. -/
def sixSteps : List Machine.Action := List.replicate 6 (.supervisor 0 { copied := 5000 })

/-- Two files are kept; the daemon writes enough for three rotations, and more during one. -/
def threeRotations : List Machine.Action := List.flatten [
  [.command .start, .script true (some (bytes "log_max_bytes=1024\nlog_rotate_keep=2\n")),
    .script true none, .supervisor 0 {}, .supervisor 0 {}, .supervisor 0 {},
    .write 0 (List.replicate 1100 49), .supervisor 0 {}, .supervisor 0 {}], sixSteps,
  [.write 0 (List.replicate 1200 50), .supervisor 0 {}], sixSteps,
  [.write 0 (List.replicate 1300 51), .supervisor 0 {}, .write 0 (List.replicate 9 52)], sixSteps]

end VirtualChime.InitD
