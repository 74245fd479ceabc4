import VirtualChime.Bytes

/-!
# The scanner's commands

`RunCommand` of the WiFi scanner.  Its loop adds 100 ms for every pass, whatever the pass
took, and a pass ends early when there is output or the output has been closed.
-/

namespace VirtualChime.Webd.WifiScanner

/-! ## 1. The source -/

def kScanTimeoutMs : ℤ := 8000
def kPollStepMs : ℤ := 100

structure CommandResult where
  success : Bool := false
  timed_out : Bool := false
  exit_code : ℤ := -1
  output : Bytes := []
  error : Bytes := []
deriving DecidableEq, Repr

/-- What `poll` comes back with, and what is then read. -/
inductive Poll where
  | timedOut
  | readable (data : Bytes)
  | hangUp
  | failed
deriving DecidableEq, Repr

/-- How a child has ended. -/
inductive Exit where
  | exited (status : ℤ)
  | signaled (signal : ℤ)
deriving DecidableEq, Repr

/-- One pass of the loop as the child makes it: what `poll` finds and how many milliseconds it
takes, whether the child has ended, and if so what it has left in the pipe. -/
structure Pass (T : Type) where
  poll : Poll
  took : T
  ended : Option Exit := none
  drained : Bytes := []

/-- The output so far with what has been read. -/
def keepOutput (max_output_bytes : ℕ) (output data : Bytes) : Bytes :=
  output ++ data.take (max_output_bytes - output.length)

def CommandResult.read (result : CommandResult) (max_output_bytes : ℕ) (data : Bytes) :
    CommandResult :=
  { result with output := keepOutput max_output_bytes result.output data }

def CommandResult.afterPoll (result : CommandResult) (max_output_bytes : ℕ) : Poll → CommandResult
  | .readable data => result.read max_output_bytes data
  | _ => result

def CommandResult.end (result : CommandResult) : Exit → CommandResult
  | .exited status => { result with exit_code := status, success := status = 0 }
  | .signaled signal => { result with exit_code := 128 + signal, success := false }

/-- The result, whether the child was killed, and how many passes were made. -/
structure CommandRun where
  result : CommandResult
  killed : Bool
  passes : ℕ
deriving DecidableEq, Repr

/-- The loop of `RunCommand`, from a pass on. -/
def commandLoop {T : Type} (pass : ℕ → Pass T) (timeout_ms : ℤ) (max_output_bytes passes : ℕ)
    (elapsed_ms : ℤ) (result : CommandResult) : CommandRun :=
  let result := result.afterPoll max_output_bytes (pass passes).poll
  match (pass passes).ended with
  | some how =>
      ⟨(result.end how).read max_output_bytes (pass passes).drained, false, passes + 1⟩
  | none =>
      if elapsed_ms + kPollStepMs ≥ timeout_ms then
        ⟨{ result with timed_out := true, error := bytes "command timed out" }, true, passes + 1⟩
      else
        commandLoop pass timeout_ms max_output_bytes (passes + 1) (elapsed_ms + kPollStepMs) result
termination_by (timeout_ms - elapsed_ms).toNat
decreasing_by
  have hstep : kPollStepMs = 100 := rfl
  omega

/-- How starting a command ends. -/
inductive Spawn (T : Type) where
  | pipeFailed (reason : Bytes)
  | forkFailed (reason : Bytes)
  | started (pass : ℕ → Pass T)

def runCommand {T : Type} (args : List Bytes) (spawn : Spawn T) (timeout_ms : ℤ)
    (max_output_bytes : ℕ) : CommandRun :=
  if args = [] then ⟨{ error := bytes "empty command" }, false, 0⟩
  else
    match spawn with
    | .pipeFailed reason => ⟨{ error := bytes "pipe failed: " ++ reason }, false, 0⟩
    | .forkFailed reason => ⟨{ error := bytes "fork failed: " ++ reason }, false, 0⟩
    | .started pass => commandLoop pass timeout_ms max_output_bytes 0 0 {}

/-! ## 2. The loop -/

/-- How many passes the loop makes when the child does not end. -/
def allowedPasses (timeout_ms : ℤ) : ℕ := (max 1 ((timeout_ms + 99) / 100)).toNat

theorem timed_out_afterPoll (result : CommandResult) (max_output_bytes : ℕ) (poll : Poll) :
    (result.afterPoll max_output_bytes poll).timed_out = result.timed_out := by
  cases poll <;> rfl

theorem timed_out_end (result : CommandResult) (how : Exit) :
    (result.end how).timed_out = result.timed_out := by
  cases how <;> rfl

/-- The last pass that is allowed is the one at whose end the count reaches the timeout. -/
theorem reaches_timeout_iff (timeout_ms : ℤ) (passes : ℕ) :
    100 * (passes : ℤ) + kPollStepMs ≥ timeout_ms ↔ allowedPasses timeout_ms ≤ passes + 1 := by
  have hstep : kPollStepMs = 100 := rfl
  unfold allowedPasses
  omega

/-- The loop ends with the child, or with the last pass it is allowed.  The induction is on the
passes that are left. -/
theorem commandLoop_cases {T : Type} (pass : ℕ → Pass T) (timeout_ms : ℤ) (max_output_bytes : ℕ)
    {passes : ℕ} (result : CommandResult) (hpasses : passes < allowedPasses timeout_ms)
    (hresult : result.timed_out = false) :
    let run := commandLoop pass timeout_ms max_output_bytes passes (100 * passes) result
    ((∃ i, passes ≤ i ∧ i < allowedPasses timeout_ms ∧ (pass i).ended.isSome) ∧
      run.result.timed_out = false ∧ run.killed = false) ∨
    ((∀ i, passes ≤ i → i < allowedPasses timeout_ms → (pass i).ended = none) ∧
      run.killed = true ∧ run.passes = allowedPasses timeout_ms) := by
  induction hleft : allowedPasses timeout_ms - passes using Nat.strong_induction_on
    generalizing passes result with
  | _ left ih =>
    rw [commandLoop]
    have hafter := (timed_out_afterPoll result max_output_bytes (pass passes).poll).trans hresult
    generalize result.afterPoll max_output_bytes (pass passes).poll = result at hafter
    cases hended : (pass passes).ended with
    | some how =>
      refine Or.inl ⟨⟨passes, le_refl _, hpasses, by simp [hended]⟩, ?_, rfl⟩
      exact (timed_out_end result how).trans hafter
    | none =>
      dsimp only
      by_cases hlast : allowedPasses timeout_ms ≤ passes + 1
      · rw [if_pos ((reaches_timeout_iff timeout_ms passes).mpr hlast)]
        have hall : passes + 1 = allowedPasses timeout_ms := by omega
        refine Or.inr ⟨?_, rfl, hall⟩
        intro i hi hlt
        obtain rfl : i = passes := by omega
        exact hended
      · rw [if_neg (mt (reaches_timeout_iff timeout_ms passes).mp hlast)]
        have hnext : 100 * (passes : ℤ) + kPollStepMs = 100 * ((passes + 1 : ℕ) : ℤ) := by
          have hstep : kPollStepMs = 100 := rfl
          omega
        rw [hnext]
        have hfewer : allowedPasses timeout_ms - (passes + 1) < left := by omega
        rcases ih _ hfewer result (by omega) hafter rfl with
          ⟨⟨i, hi, hlt, hsome⟩, hrun⟩ | ⟨hnone, hrun⟩
        · exact Or.inl ⟨⟨i, by omega, hlt, hsome⟩, hrun⟩
        · refine Or.inr ⟨?_, hrun⟩
          intro i hi hlt
          rcases Nat.eq_or_lt_of_le hi with rfl | hlater
          · exact hended
          · exact hnone i hlater hlt

theorem length_keepOutput_le {max_output_bytes : ℕ} {output : Bytes} (data : Bytes)
    (h : output.length ≤ max_output_bytes) :
    (keepOutput max_output_bytes output data).length ≤ max_output_bytes := by
  rw [keepOutput, List.length_append, List.length_take]
  omega

/-- No run keeps more output than it may. -/
theorem length_output_le {T : Type} (pass : ℕ → Pass T) (timeout_ms : ℤ) {max_output_bytes : ℕ}
    (passes : ℕ) (elapsed_ms : ℤ) {result : CommandResult}
    (h : result.output.length ≤ max_output_bytes) :
    (commandLoop pass timeout_ms max_output_bytes passes elapsed_ms result).result.output.length ≤
      max_output_bytes := by
  have hafter : ∀ (r : CommandResult) (poll : Poll), r.output.length ≤ max_output_bytes →
      (r.afterPoll max_output_bytes poll).output.length ≤ max_output_bytes := by
    intro r poll hr
    cases poll with
    | readable data => exact length_keepOutput_le data hr
    | timedOut => exact hr
    | hangUp => exact hr
    | failed => exact hr
  fun_induction commandLoop pass timeout_ms max_output_bytes passes elapsed_ms result with
  | case1 passes elapsed_ms result result' how hended =>
    apply length_keepOutput_le
    cases how <;> exact hafter _ _ h
  | case2 passes elapsed_ms result result' hended hlast => exact hafter _ _ h
  | case3 passes elapsed_ms result result' hended hmore ih => exact ih (hafter _ _ h)

/-! ## 3. The time a run takes -/

section Time

variable {T : Type} [Field T] [LinearOrder T] [IsStrictOrderedRing T]

/-- The passes as a child can make them: `poll` waits up to 100 ms, and comes back before that only
if it has found something. -/
structure Schedule (T : Type) [Field T] [LinearOrder T] where
  pass : ℕ → Pass T
  took_nonneg : ∀ i, 0 ≤ (pass i).took
  took_le : ∀ i, (pass i).took ≤ 100
  took_full : ∀ i, (pass i).poll = .timedOut → (pass i).took = 100

/-- `poll` waits no longer than it is told to. -/
def Prompt : Spawn T → Prop
  | .started pass => ∀ i, (pass i).took ≤ 100
  | _ => True

namespace Schedule

/-- The time from the beginning of the loop to the end of some passes. -/
def elapsed (s : Schedule T) (passes : ℕ) : T := ∑ i ∈ Finset.range passes, (s.pass i).took

/-- How much sooner than after 100 ms these passes have ended, all in all. -/
def lost (s : Schedule T) (passes : ℕ) : T := ∑ i ∈ Finset.range passes, (100 - (s.pass i).took)

omit [IsStrictOrderedRing T] in
theorem elapsed_add_lost (s : Schedule T) (passes : ℕ) :
    s.elapsed passes + s.lost passes = 100 * passes := by
  rw [elapsed, lost, ← Finset.sum_add_distrib]
  simp [mul_comm]

theorem lost_nonneg (s : Schedule T) (passes : ℕ) : 0 ≤ s.lost passes := by
  apply Finset.sum_nonneg
  intro i _
  exact sub_nonneg.mpr (s.took_le i)

/-- The loop loses no time if `poll` finds nothing. -/
theorem lost_eq_zero_iff (s : Schedule T) (passes : ℕ) :
    s.lost passes = 0 ↔ ∀ i < passes, (s.pass i).took = 100 := by
  rw [lost, Finset.sum_eq_zero_iff_of_nonneg fun i _ => sub_nonneg.mpr (s.took_le i)]
  simp only [Finset.mem_range, sub_eq_zero]
  constructor
  · intro h i hi
    exact (h i hi).symm
  · intro h i hi
    exact (h i hi).symm

end Schedule

/-- The child ends in one of the passes that are allowed, or these passes lose no more time than
their number has to spare. -/
def HasTime (s : Schedule T) (timeout_ms : ℤ) : Prop :=
  (∃ i < allowedPasses timeout_ms, (s.pass i).ended.isSome) ∨
    s.lost (allowedPasses timeout_ms) ≤ 100 * allowedPasses timeout_ms - timeout_ms

/-- A command that is started is not killed before its time if it has the time, and only then; with
a timeout in whole steps it must not make a single pass end early. -/
theorem not_killed_early_iff (args : List Bytes) (s : Schedule T) (timeout_ms : ℤ)
    (max_output_bytes : ℕ) :
    let run := runCommand args (.started s.pass) timeout_ms max_output_bytes
    ((run.result.timed_out = true ∨ run.killed = true → timeout_ms ≤ s.elapsed run.passes) ↔
      args = [] ∨ HasTime s timeout_ms) ∧
    (0 < timeout_ms → 100 ∣ timeout_ms → (HasTime s timeout_ms ↔
      (∃ i < allowedPasses timeout_ms, (s.pass i).ended.isSome) ∨
        ∀ i < allowedPasses timeout_ms, (s.pass i).took = 100)) := by
  intro run
  constructor
  · by_cases hargs : args = []
    · have hrun : run = ⟨{ error := bytes "empty command" }, false, 0⟩ := if_pos hargs
      rw [hrun]
      simp [hargs]
    · have hrun : run = commandLoop s.pass timeout_ms max_output_bytes 0 (100 * (0 : ℕ)) {} :=
        if_neg hargs
      have hallowed : 0 < allowedPasses timeout_ms := by
        unfold allowedPasses
        omega
      have hcases := commandLoop_cases s.pass timeout_ms max_output_bytes {} hallowed rfl
      rw [← hrun] at hcases
      rcases hcases with ⟨⟨i, -, hlt, hsome⟩, htimed, hkilled⟩ | ⟨hnone, hkilled, hpasses⟩
      · rw [htimed, hkilled]
        have htime : HasTime s timeout_ms := Or.inl ⟨i, hlt, hsome⟩
        simp [htime]
      · have hnever : ¬ ∃ i < allowedPasses timeout_ms, (s.pass i).ended.isSome = true := by
          rintro ⟨i, hlt, hsome⟩
          rw [hnone i (Nat.zero_le i) hlt] at hsome
          cases hsome
        have hsum := s.elapsed_add_lost (allowedPasses timeout_ms)
        rw [hkilled, hpasses, HasTime]
        simp only [hargs, hnever, or_true, false_or, forall_const]
        constructor
        · intro hle
          linarith
        · intro hle
          linarith
  · intro hpositive hdvd
    have hwhole : (100 * (allowedPasses timeout_ms : ℤ)) = timeout_ms := by
      unfold allowedPasses
      omega
    have hspare : 100 * (allowedPasses timeout_ms : T) - timeout_ms = 0 := by
      rw [sub_eq_zero]
      exact_mod_cast hwhole
    rw [HasTime, hspare, ← s.lost_eq_zero_iff, le_antisymm_iff]
    simp only [s.lost_nonneg, and_true]

end Time

/-- A child that prints nothing and goes on for a long time. -/
def quiet : Schedule ℚ where
  pass _ := { poll := .timedOut, took := 100 }
  took_nonneg _ := by norm_num
  took_le _ := le_refl 100
  took_full _ _ := rfl

theorem not_killed_early_iff_quiet :
    let run := runCommand [bytes "iw", bytes "dev", bytes "wlan0", bytes "scan"]
      (.started quiet.pass) kScanTimeoutMs 262144
    run.killed = true ∧ (kScanTimeoutMs : ℚ) ≤ quiet.elapsed run.passes := by
  have hkilled : (runCommand [bytes "iw", bytes "dev", bytes "wlan0", bytes "scan"]
      (.started quiet.pass) kScanTimeoutMs 262144).killed = true := by
    decide +kernel
  obtain ⟨hearly, hsteps⟩ := not_killed_early_iff
    [bytes "iw", bytes "dev", bytes "wlan0", bytes "scan"] quiet kScanTimeoutMs 262144
  have htime : HasTime quiet kScanTimeoutMs := by
    apply (hsteps (by decide) (by decide)).mpr
    right
    intro i _
    rfl
  exact ⟨hkilled, hearly.mpr (Or.inr htime) (Or.inr hkilled)⟩

/-- A child that closes its output and goes on for a long time. -/
def closedOutput : Schedule ℚ where
  pass _ := { poll := .hangUp, took := 0 }
  took_nonneg _ := le_refl 0
  took_le _ := by norm_num
  took_full _ h := by cases h

/-- It is killed at once, where it has 8000 ms. -/
theorem closed_output_killed_at_once :
    let run := runCommand [bytes "iw", bytes "dev", bytes "wlan0", bytes "scan"]
      (.started closedOutput.pass) kScanTimeoutMs 262144
    run.result.timed_out = true ∧ run.killed = true ∧ closedOutput.elapsed run.passes = 0 ∧
      ¬ (kScanTimeoutMs : ℚ) ≤ closedOutput.elapsed run.passes := by
  have hrun : runCommand [bytes "iw", bytes "dev", bytes "wlan0", bytes "scan"]
      (.started closedOutput.pass) kScanTimeoutMs 262144 =
        ⟨{ timed_out := true, error := bytes "command timed out" }, true, 80⟩ := by
    decide +kernel
  have helapsed : closedOutput.elapsed 80 = 0 := Finset.sum_const_zero
  intro run
  have heq : run = ⟨{ timed_out := true, error := bytes "command timed out" }, true, 80⟩ := hrun
  rw [heq]
  refine ⟨rfl, rfl, helapsed, ?_⟩
  rw [helapsed]
  norm_num [kScanTimeoutMs]

end VirtualChime.Webd.WifiScanner
