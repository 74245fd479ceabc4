import VirtualChime.OtaRollbackSlot

/-!
# How often an update is tried

`S42otaguard` counts the boots of a slot on trial in `ATTEMPTS_LEFT` and goes back
to the previous slot once it is used up.  The count is kept by the image that is
tried: a boot that dies before the guard has replaced a file is not counted and can
be repeated without end (`boots_uncounted`).  The boots that are counted are
bounded (`bounded_boots`).
-/

namespace VirtualChime.Ota

open Interruptible (Script)
open Interruptible.Script

/-! ## 1. Boots -/

/-- How far a boot gets: the commands `S42otaguard` runs and, if it comes to its end, those
`S99otaconfirm` runs. -/
structure Boot where
  guardTime : Timestamp
  guardCut : Nat
  healthy : Bool
  confirmTime : Timestamp
  confirmCut : Nat

section Boot

variable (maxAttempts : Nat) (d : Device) (b : Boot)

/-- The device after `S42otaguard`, and whether the script has come to its end. -/
def guarded : Device × Bool := (otaGuard maxAttempts b.guardTime).cut b.guardCut d.reboot

/-- A boot of the slot `cmdline.txt` names.  The guard may end it with `reboot -f`. -/
def boot : Device :=
  let g := guarded maxAttempts d b
  if g.2 = true ∧ g.1.running = some d.cmdline then
    ((s99otaconfirm b.healthy b.confirmTime).cut b.confirmCut g.1).1
  else g.1

/-- `ota-confirm` does not get as far as removing `pending.env`. -/
def NotConfirmed : Prop := (boot maxAttempts d b).pending = (guarded maxAttempts d b).1.pending

instance : Decidable (NotConfirmed maxAttempts d b) := inferInstanceAs (Decidable (_ = _))

/-- A boot of the slot in which the guard replaces `pending.env` or `cmdline.txt`. -/
def Counted (target : Slot) : Prop :=
  d.cmdline = target ∧
    ((guarded maxAttempts d b).1.pending ≠ d.pending ∨
      (guarded maxAttempts d b).1.cmdline ≠ d.cmdline)

instance (target : Slot) : Decidable (Counted maxAttempts d b target) :=
  inferInstanceAs (Decidable (_ ∧ _))

/-- Boots, with a count of some of them. -/
def tally (counts : Device → Boot → Bool) (s : Device × Nat) (b : Boot) : Option (Device × Nat) :=
  some (boot maxAttempts s.1 b, if counts s.1 b then s.2 + 1 else s.2)

end Boot

/-- The slot is staged with a number of attempts left. -/
structure Trying (target : Slot) (attempts : Nat) (d : Device) : Prop where
  cmdline : d.cmdline = target
  pending : ∃ text, d.pending = some text ∧
    readEnvValue text (bytes "TARGET_SLOT") = target.name ∧
    readEnvValue text (bytes "PREVIOUS_SLOT") = target.other.name ∧
    readEnvValue text (bytes "ATTEMPTS_LEFT") = natDecimal attempts

variable {maxAttempts : Nat} {d : Device} {b : Boot}

/-- An `ota-install` that comes to its end stages the other slot. -/
theorem trying_of_stage {sha256sum : Bytes → Bytes} {args : InstallArgs} {now : Timestamp}
    {current : Slot} {size : Nat}
    (hdigest : digest sha256sum ((d.slot current.other).content.take size) = args.sha256)
    (hversion : ∀ line ∈ laterLines args.version,
      envLine (bytes "TARGET_SLOT") line = none ∧ envLine (bytes "PREVIOUS_SLOT") line = none) :
    Trying current.other maxAttempts
      ((stage sha256sum maxAttempts args now current size).finish d) := by
  have hsha256 : newline ∉ args.sha256 := by
    rw [← hdigest]
    exact newline_not_mem_digest _ _
  rw [stage, finish, if_neg (not_not.mpr hdigest)]
  cases args.no_reboot
  all_goals
    refine ⟨rfl, _, rfl, ?_, ?_, readEnvValue_pendingText_attempts hsha256⟩
    · exact readEnvValue_pendingText_target hsha256 fun line hline => (hversion line hline).1
    · rw [Slot.other_other]
      exact readEnvValue_pendingText_previous hsha256 fun line hline => (hversion line hline).2

/-! ## 2. What the guard does -/

/-- What `S42otaguard` can leave of `pending.env` and `cmdline.txt`, wherever it is cut off. -/
inductive GuardOutcome (maxAttempts : Nat) (d d' : Device) : Prop
  | idle (pending : d'.pending = d.pending) (cmdline : d'.cmdline = d.cmdline)
  | counted {current : Slot} {text : Bytes} {left : Int} {value : Nat}
      (acts : GuardActs maxAttempts d current text left) (more : 1 < left)
      (arithmetic : arithmeticValue (splitSign (attemptsLeft maxAttempts text)).2 = some value)
      (pending : d'.pending =
        some (setEnvKv (some text) (bytes "ATTEMPTS_LEFT") (toDecimal ((value : Int) - 1))))
      (cmdline : d'.cmdline = d.cmdline)
  | wentBack {current target : Slot} {text : Bytes} {left : Int}
      (acts : GuardActs maxAttempts d current text left) (used : left ≤ 1)
      (previous : Slot.ofName (readEnvValue text (bytes "PREVIOUS_SLOT")) = some target)
      (pending : d'.pending = d.pending ∨ d'.pending = none) (cmdline : d'.cmdline = target)

theorem GuardOutcome.congr {d' d'' : Device} (h : GuardOutcome maxAttempts d d')
    (hpending : d''.pending = d'.pending) (hcmdline : d''.cmdline = d'.cmdline) :
    GuardOutcome maxAttempts d d'' := by
  cases h with
  | idle pending cmdline => exact .idle (hpending.trans pending) (hcmdline.trans cmdline)
  | counted acts more arithmetic pending cmdline =>
    exact .counted acts more arithmetic (hpending.trans pending) (hcmdline.trans cmdline)
  | wentBack acts used previous pending cmdline =>
    exact .wentBack acts used previous (by rwa [hpending]) (hcmdline.trans cmdline)

theorem guardOutcome (now : Timestamp) (n : Nat) :
    GuardOutcome maxAttempts d ((otaGuard maxAttempts now).cut n d).1 := by
  have hstatus : StatusFree (GuardOutcome maxAttempts d) := fun _ _ _ h => h.congr rfl rfl
  apply Safe.cut
  apply safe_otaGuard (S := fun d' => ∃ current text left target,
    GuardActs maxAttempts d current text left ∧ left ≤ 1 ∧
      Slot.ofName (readEnvValue text (bytes "PREVIOUS_SLOT")) = some target ∧
      d'.cmdline = target ∧ (d'.pending = d.pending ∨ d'.pending = none)) hstatus hstatus
  · intro d' key value h
    exact h
  · intro d' h
    exact h
  · rintro d' ⟨_, _, _, _, acts, used, previous, cmdline, pending⟩
    exact .wentBack acts used previous pending cmdline
  · rintro d' ⟨current, text, left, target, acts, used, previous, cmdline, _⟩
    exact ⟨current, text, left, target, acts, used, previous, cmdline, Or.inr rfl⟩
  · intro d' h
    exact h.congr rfl rfl
  · exact .idle rfl rfl
  · intro current text left acts used target previous status
    exact ⟨current, text, left, target, acts, used, previous, rfl, Or.inl rfl⟩
  · intro current text left value acts more arithmetic
    exact .counted acts more arithmetic (by rw [Device.setAttempts, acts.pending]) rfl

theorem shellNumber_natDecimal (n : Nat) : shellNumber (natDecimal n) = some (n : Int) := by
  have hdigits : (natDecimal n).all isDigit = true :=
    List.all_eq_true.mpr fun _ h => natDecimal_digits h
  have hne : (natDecimal n).isEmpty = false := by
    rw [List.isEmpty_eq_false_iff]
    exact natDecimal_ne_nil n
  rw [shellNumber, splitSign_natDecimal]
  simp [hdigits, hne, digitsValue_natDecimal]

theorem attemptsLeft_eq {text : Bytes} {attempts : Nat}
    (hattempts : readEnvValue text (bytes "ATTEMPTS_LEFT") = natDecimal attempts) :
    attemptsLeft maxAttempts text = natDecimal attempts := by
  simp only [attemptsLeft, hattempts]
  exact if_neg (natDecimal_ne_nil attempts)

theorem GuardActs.left_eq {current : Slot} {text : Bytes} {left : Int} {attempts : Nat}
    (h : GuardActs maxAttempts d current text left)
    (hattempts : readEnvValue text (bytes "ATTEMPTS_LEFT") = natDecimal attempts) :
    left = attempts := by
  have hleft := h.attempts
  rw [attemptsLeft_eq hattempts, shellNumber_natDecimal, Option.some.injEq] at hleft
  exact hleft.symm

/-- The test and the subtraction read a number of attempts in the same way. -/
theorem arithmeticValue_attempts (attempts : Nat) :
    arithmeticValue (splitSign (natDecimal attempts)).2 = some attempts := by
  rw [splitSign_natDecimal]
  exact arithmeticValue_natDecimal attempts

theorem boot_cmdline : (boot maxAttempts d b).cmdline = (guarded maxAttempts d b).1.cmdline := by
  simp only [boot]
  split
  · have hstatus : StatusFree fun d' => d'.cmdline = (guarded maxAttempts d b).1.cmdline :=
      fun _ _ _ h => h
    refine Safe.cut (safe_s99otaconfirm (Q := fun d' =>
      d'.cmdline = (guarded maxAttempts d b).1.cmdline) rfl
        (safe_otaConfirm hstatus rfl fun current text _ _ _ => ?_) b.healthy) b.confirmCut
    exact Device.setSlot_cmdline _ current _
  · rfl

/-- A rollback that comes to its end has set the slot in `cmdline.txt`. -/
theorem finish_otaRollback_cmdline {current target : Slot} {now : Timestamp}
    (hrunning : d.running = some current) :
    ((otaRollback (some target.name) true now).finish d).cmdline = target := by
  rw [otaRollback, finish, hrunning]
  dsimp only
  rw [if_neg (by simp), Slot.ofName_name]
  rfl

/-- A boot of a staged update is counted if the guard comes to its end. -/
theorem Trying.counted {target : Slot} {attempts : Nat} (h : Trying target attempts d)
    (hend : (guarded maxAttempts d b).2 = true) : Counted maxAttempts d b target := by
  obtain ⟨text, htext, htarget, hprevious, hattempts⟩ := h.pending
  have hrunning : d.reboot.running = some target := congrArg some h.cmdline
  have hpending : d.reboot.pending = some text := htext
  refine ⟨h.cmdline, ?_⟩
  rw [guarded, cut_of_completed hend, otaGuard, finish, hrunning, hpending]
  dsimp only
  rw [htarget, attemptsLeft_eq hattempts, shellNumber_natDecimal, if_neg (not_not.mpr rfl)]
  simp only [arithmeticValue_attempts]
  split
  · right
    rw [setStatus, finish, setStatus, finish, finish_seq, hprevious, h.cmdline]
    intro hsame
    refine Slot.other_ne target (Eq.trans (Eq.symm ?_) hsame)
    exact finish_otaRollback_cmdline hrunning
  · next hmore =>
    left
    intro hsame
    -- the attempts that are left differ
    have hwritten : some (setEnvKv (some text) (bytes "ATTEMPTS_LEFT")
        (toDecimal ((attempts : Int) - 1))) = some text := by
      have hset : some (setEnvKv d.pending (bytes "ATTEMPTS_LEFT")
          (toDecimal ((attempts : Int) - 1))) = d.pending := hsame
      rwa [htext] at hset
    have hvalue : readEnvValue (setEnvKv (some text) (bytes "ATTEMPTS_LEFT")
        (toDecimal ((attempts : Int) - 1))) (bytes "ATTEMPTS_LEFT") =
          toDecimal ((attempts : Int) - 1) :=
      readEnvValue_setEnvKv (by decide) (newline_not_mem_toDecimal _)
    rw [Option.some.inj hwritten, hattempts, toDecimal_of_nonneg (by omega)] at hvalue
    have hdigits := congrArg digitsValue hvalue
    rw [digitsValue_natDecimal, digitsValue_natDecimal] at hdigits
    omega

/-! ## 3. The attempts run out -/

/-- An update on trial or given up, after `n` counted boots of at most `bound`. -/
inductive Trial (target : Slot) (bound : Nat) (d : Device) (n : Nat) : Prop
  | trying (attempts : Nat) (trying : Trying target attempts d) (left : n + max attempts 1 ≤ bound)
  | givenUp (cmdline : d.cmdline = target.other) (booted : n ≤ bound)
      (pending : ∀ text, d.pending = some text →
        readEnvValue text (bytes "TARGET_SLOT") = target.name)

variable {target : Slot} {bound n : Nat}

theorem Trial.congr {d' : Device} (h : Trial target bound d n) (hpending : d'.pending = d.pending)
    (hcmdline : d'.cmdline = d.cmdline) : Trial target bound d' n := by
  cases h with
  | trying attempts trying left =>
    exact .trying attempts ⟨hcmdline.trans trying.cmdline, by rw [hpending]; exact trying.pending⟩
      left
  | givenUp cmdline booted pending =>
    exact .givenUp (hcmdline.trans cmdline) booted (by rw [hpending]; exact pending)

theorem not_counted_of_idle (hpending : (guarded maxAttempts d b).1.pending = d.pending)
    (hcmdline : (guarded maxAttempts d b).1.cmdline = d.cmdline) :
    ¬ Counted maxAttempts d b target := by
  rintro ⟨_, hchanged | hchanged⟩
  · exact hchanged hpending
  · exact hchanged hcmdline

/-- The guard of a boot takes an attempt, or goes back when there is none left. -/
theorem Trying.guarded {attempts : Nat} (h : Trying target attempts d)
    (hleft : n + max attempts 1 ≤ bound) :
    Trial target bound (guarded maxAttempts d b).1
      (if Counted maxAttempts d b target then n + 1 else n) := by
  obtain ⟨text, htext, htarget, hprevious, hattempts⟩ := h.pending
  have hcount : (if Counted maxAttempts d b target then n + 1 else n) ≤ n + 1 := by
    split <;> omega
  have houtcome : GuardOutcome maxAttempts d.reboot (Ota.guarded maxAttempts d b).1 :=
    guardOutcome b.guardTime b.guardCut
  cases houtcome with
  | idle pending cmdline =>
    rw [if_neg (not_counted_of_idle pending cmdline)]
    exact (Trial.trying attempts h hleft).congr pending cmdline
  | counted acts more arithmetic pending cmdline =>
    obtain rfl := Option.some.inj (htext.symm.trans acts.pending)
    have hleft := acts.left_eq hattempts
    subst hleft
    rw [attemptsLeft_eq hattempts, arithmeticValue_attempts] at arithmetic
    obtain rfl := Option.some.inj arithmetic
    have hone : ((attempts : Int) - 1).toNat = attempts - 1 := by omega
    refine .trying (attempts - 1) ⟨cmdline.trans h.cmdline, _, pending, ?_, ?_, ?_⟩ (by omega)
    · rw [readEnvValue_setAttempts (by decide) (by decide)]
      exact htarget
    · rw [readEnvValue_setAttempts (by decide) (by decide)]
      exact hprevious
    · rw [readEnvValue_setEnvKv (by decide) (newline_not_mem_toDecimal _),
        toDecimal_of_nonneg (by omega), hone]
  | wentBack acts used previous pending cmdline =>
    obtain rfl := Option.some.inj (htext.symm.trans acts.pending)
    rw [hprevious, Slot.ofName_name, Option.some.injEq] at previous
    refine .givenUp (cmdline.trans previous.symm) (by omega) fun text' htext' => ?_
    rcases pending with hsame | hnone
    · rw [hsame] at htext'
      rw [← Option.some.inj (htext.symm.trans htext')]
      exact htarget
    · rw [hnone] at htext'
      cases htext'

theorem Trial.boot (h : Trial target bound d n) (hnot : NotConfirmed maxAttempts d b) :
    Trial target bound (boot maxAttempts d b)
      (if Counted maxAttempts d b target then n + 1 else n) := by
  refine Trial.congr ?_ hnot boot_cmdline
  cases h with
  | trying attempts trying left => exact trying.guarded left
  | givenUp cmdline booted pending =>
    have hslot : ¬ Counted maxAttempts d b target := by
      intro hcounted
      exact Slot.other_ne target (cmdline.symm.trans hcounted.1)
    rw [if_neg hslot]
    have hidle : ∀ {current text left}, ¬ GuardActs maxAttempts d.reboot current text left := by
      intro current text left acts
      have hcurrent := Slot.name_injective ((pending text acts.pending).symm.trans acts.target)
      have hrunning := Option.some.inj acts.running
      exact Slot.other_ne target (cmdline.symm.trans (hrunning.trans hcurrent.symm))
    have houtcome : GuardOutcome maxAttempts d.reboot (Ota.guarded maxAttempts d b).1 :=
      guardOutcome b.guardTime b.guardCut
    cases houtcome with
    | idle hpending hcmdline => exact (Trial.givenUp cmdline booted pending).congr hpending hcmdline
    | counted acts => exact absurd acts hidle
    | wentBack acts => exact absurd acts hidle

variable (maxAttempts target)

/-- From a staged update, in every run of boots without a confirmation, the counted boots of the
target are at most `maxAttempts`, `cmdline.txt` names the previous slot after the last, and up to
there every boot whose guard comes to its end is a counted one. -/
theorem bounded_boots (d₀ : Device) (hstaged : Trying target maxAttempts d₀) (d : Device) (n : Nat)
    (run : Runs.Reaches (tally maxAttempts fun d b => decide (Counted maxAttempts d b target))
      (fun s b => NotConfirmed maxAttempts s.1 b) (d₀, 0) (d, n)) :
    n ≤ max maxAttempts 1 ∧
      (d.cmdline = target ∧ n < max maxAttempts 1 ∨ d.cmdline = target.other) ∧
      ∀ b, d.cmdline = target → (guarded maxAttempts d b).2 = true →
        Counted maxAttempts d b target := by
  have hstart : Trial target (max maxAttempts 1) d₀ 0 := .trying maxAttempts hstaged (by omega)
  have h : Trial target (max maxAttempts 1) d n := by
    refine run.invariant (I := fun s => Trial target (max maxAttempts 1) s.1 s.2) hstart ?_
    intro s b s' hs hnot hnext
    rw [← Option.some.inj hnext]
    simpa using hs.boot hnot
  cases h with
  | trying attempts trying left =>
    exact ⟨by omega, Or.inl ⟨trying.cmdline, by omega⟩, fun b _ hend => trying.counted hend⟩
  | givenUp cmdline booted _ =>
    refine ⟨booted, Or.inr cmdline, fun b hcmdline _ => ?_⟩
    exact absurd (cmdline.symm.trans hcmdline) (Slot.other_ne target)

def stagedDevice : Device :=
  ((otaInstall sampleSha256sum 3 (sampleInstall imageX digestX) sampleTime).cut 20 sampleDevice).1

/-- A boot that runs `n` commands of `S42otaguard` and, at most, fails its health check. -/
def sampleBoot (n : Nat) : Boot where
  guardTime := sampleTime
  guardCut := n
  healthy := false
  confirmTime := sampleTime
  confirmCut := 0

theorem staged_sample : Trying .B 3 stagedDevice := by
  refine ⟨by decide +kernel, _, rfl, ?_, ?_, ?_⟩ <;> decide +kernel

theorem bounded_boots_sample :
    ∃ d : Device, d.cmdline = .A ∧ 3 ≤ max 3 1 ∧
      (d.cmdline = .B ∧ 3 < max 3 1 ∨ d.cmdline = Slot.B.other) := by
  have run : ∃ s : Device × Nat, s.1.cmdline = .A ∧ s.2 = 3 ∧
      Runs.Reaches (tally 3 fun d b => decide (Counted 3 d b .B))
        (fun s b => NotConfirmed 3 s.1 b) (stagedDevice, 0) s := by
    -- the second boot dies early and is not counted, the last one goes back
    refine ⟨_, ?_, ?_, .head (a := sampleBoot 20) ?_ rfl (.head (a := sampleBoot 0) ?_ rfl
      (.head (a := sampleBoot 20) ?_ rfl (.head (a := sampleBoot 20) ?_ rfl .refl)))⟩
    all_goals decide +kernel
  obtain ⟨⟨d, n⟩, hcmdline, rfl, hreaches⟩ := run
  have h := bounded_boots 3 .B stagedDevice staged_sample d 3 hreaches
  exact ⟨d, hcmdline, h.1, h.2.1⟩

/-- Four boots that die before `S42otaguard` has replaced a file: with three attempts, the target
is booted once more. -/
theorem boots_uncounted :
    Trying .B 3 stagedDevice ∧ ∃ s : Device × Nat,
      Runs.Reaches (tally 3 fun d _ => decide (d.cmdline = .B))
        (fun s b => NotConfirmed 3 s.1 b) (stagedDevice, 0) s ∧ s.1.cmdline = .B ∧ 3 < s.2 := by
  refine ⟨staged_sample, _, .head (a := sampleBoot 0) ?_ rfl (.head (a := sampleBoot 0) ?_ rfl
    (.head (a := sampleBoot 0) ?_ rfl (.head (a := sampleBoot 0) ?_ rfl .refl))), ?_, ?_⟩
  all_goals decide +kernel

end VirtualChime.Ota
