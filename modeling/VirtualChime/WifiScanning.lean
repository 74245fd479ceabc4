import VirtualChime.ScannerCommand
import VirtualChime.IntConversions

/-!
# Scanning for networks

`WifiScanner::Scan`.  `wpa_cli` is told to scan and then asked for the results, up to six times;
where that finds nothing, `iw` scans.  Whatever these commands do, a scan ends in time with the
networks of the first of them that has any, or with an error on one line (`scan_outcome`).
-/

namespace VirtualChime.Webd.WifiScanner

/-! ## 1. The source -/

def kMaxCommandOutputBytes : ℕ := 262144
def kScanResultsAttempts : ℕ := 6

/-- A byte that would end a line or a column. -/
def isLayout (ch : Byte) : Bool := ch == newline || ch == carriageReturn || ch == tab

def oneLineOutput (output : Bytes) (max_chars : ℕ) : Bytes :=
  let output := trim (output.map fun ch => if isLayout ch then 32 else ch)
  if output.length ≤ max_chars then output else output.take max_chars ++ bytes "..."

def describeCommandFailure (command : Bytes) (command_result : CommandResult) : Bytes :=
  let details := command ++ bytes " failed"
  let details :=
    if command_result.timed_out then details ++ bytes " (timed out)"
    else if command_result.exit_code ≥ 0 then
      details ++ (bytes " (exit=" ++ (toDecimal command_result.exit_code ++ bytes ")"))
    else details
  let output := oneLineOutput command_result.output 180
  if output ≠ [] then details ++ (bytes ": " ++ output)
  else if command_result.error ≠ [] then details ++ (bytes ": " ++ command_result.error)
  else details

def containsBusySignal (output : Bytes) : Bool := decide (bytes "busy" <:+: output.map toLower)

/-- How the commands of a scan go. -/
structure ScanIo (T : Type) where
  trigger : Spawn T
  /-- `wpa_cli scan_results`, for each attempt. -/
  results : ℕ → Spawn T
  iw : Spawn T

/-- What a scan does: it runs a command, or sleeps for 750 ms. -/
inductive ScanStep (T : Type) where
  | command (args : List Bytes) (spawn : Spawn T)
  | pause

variable {T : Type}

def scanCommand (args : List Bytes) (spawn : Spawn T) : CommandResult :=
  (runCommand args spawn kScanTimeoutMs kMaxCommandOutputBytes).result

def triggerArgs (interface_name : Bytes) : List Bytes :=
  [bytes "wpa_cli", bytes "-i", interface_name, bytes "scan"]

def resultsArgs (interface_name : Bytes) : List Bytes :=
  [bytes "wpa_cli", bytes "-i", interface_name, bytes "scan_results"]

def iwArgs (interface_name : Bytes) : List Bytes :=
  [bytes "iw", bytes "dev", interface_name, bytes "scan"]

/-- `networks`, `last_scan_results_error` and what was done, at the end of the loop. -/
structure Attempts (T : Type) where
  networks : List WifiNetwork
  last_scan_results_error : Bytes
  steps : List (ScanStep T)

/-- The loop of `ScanWithWpaCli` over the attempts that are left. -/
def scanResultsLoop (interface_name : Bytes) (results : ℕ → Spawn T) :
    (left attempt : ℕ) → (last_scan_results_error : Bytes) → Attempts T
  | 0, _, last_scan_results_error => ⟨[], last_scan_results_error, []⟩
  | left + 1, attempt, last_scan_results_error =>
      let scan_results := scanCommand (resultsArgs interface_name) (results attempt)
      let networks := parseWpaCliScanResults scan_results.output
      let steps := [.pause, .command (resultsArgs interface_name) (results attempt)]
      if scan_results.success ∧ networks ≠ [] then ⟨networks, last_scan_results_error, steps⟩
      else
        let rest := scanResultsLoop interface_name results left (attempt + 1)
          (if scan_results.success then last_scan_results_error
            else describeCommandFailure (bytes "wpa_cli scan_results") scan_results)
        { rest with steps := steps ++ rest.steps }

def scanWithWpaCli (sort : SignalSort) (interface_name : Bytes) (io : ScanIo T) :
    WifiScanResult × List (ScanStep T) :=
  let trigger := scanCommand (triggerArgs interface_name) io.trigger
  let steps := [.command (triggerArgs interface_name) io.trigger]
  let trigger_busy := !trigger.success && containsBusySignal trigger.output
  if !trigger.success && !trigger_busy then
    ({ error := describeCommandFailure (bytes "wpa_cli scan") trigger }, steps)
  else
    let attempts := scanResultsLoop interface_name io.results kScanResultsAttempts 0 []
    let result : WifiScanResult :=
      if attempts.networks = [] then
        if attempts.last_scan_results_error ≠ [] then { error := attempts.last_scan_results_error }
        else if trigger_busy then
          { error := bytes "wpa_cli scan busy and no cached scan results available" }
        else { error := bytes "wpa_cli returned no scan results" }
      else { success := true, networks := deduplicateStrongest sort attempts.networks }
    (result, steps ++ attempts.steps)

/-- There is no result if a signal is cast to an `int` that cannot hold it. -/
def scanWithIw (round : ℚ → Option ℚ) (sort : SignalSort) (interface_name : Bytes) (io : ScanIo T) :
    Option WifiScanResult × List (ScanStep T) :=
  let iw_output := scanCommand (iwArgs interface_name) io.iw
  let result : Option WifiScanResult :=
    if iw_output.success then
      (Casts.scanWithIw round sort iw_output.output).result.map fun networks =>
        { success := true, networks }
    else some { error := describeCommandFailure (bytes "iw scan") iw_output }
  (result, [.command (iwArgs interface_name) io.iw])

def scan (round : ℚ → Option ℚ) (sort : SignalSort) (interface_name : Bytes) (io : ScanIo T) :
    Option WifiScanResult × List (ScanStep T) :=
  let primary := scanWithWpaCli sort interface_name io
  if primary.1.success then (some primary.1, primary.2)
  else
    let fallback := scanWithIw round sort interface_name io
    let result := fallback.1.map fun fallback =>
      if fallback.success then fallback
      else
        { error := bytes "wifi scan failed: " ++ (primary.1.error ++ (bytes " | " ++ fallback.error)) }
    (result, primary.2 ++ fallback.2)

/-! ## 2. Errors on one line -/

/-- Nothing in the text ends a line or a column. -/
def Unbroken (text : Bytes) : Prop := ∀ ch ∈ text, isLayout ch = false

-- Not left to inference, which may pick the search through all 256 bytes.
instance (text : Bytes) : Decidable (Unbroken text) :=
  List.decidableBAll (fun ch => isLayout ch = false) text

theorem Unbroken.append {a b : Bytes} (ha : Unbroken a) (hb : Unbroken b) : Unbroken (a ++ b) := by
  intro ch hch
  rcases List.mem_append.mp hch with hch | hch
  · exact ha ch hch
  · exact hb ch hch

theorem unbroken_oneLineOutput (output : Bytes) (max_chars : ℕ) :
    Unbroken (oneLineOutput output max_chars) := by
  have hmapped : Unbroken (trim (output.map fun ch => if isLayout ch then 32 else ch)) := by
    intro ch hch
    obtain ⟨old, -, rfl⟩ := List.mem_map.mp (mem_of_mem_trim hch)
    split
    · decide
    · next hold => exact Bool.eq_false_iff.mpr hold
  rw [oneLineOutput]
  split
  · exact hmapped
  · apply Unbroken.append
    · exact fun ch hch => hmapped ch (List.mem_of_mem_take hch)
    · decide

theorem unbroken_toDecimal (n : ℤ) : Unbroken (toDecimal n) := by
  intro ch hch
  apply Bool.eq_false_iff.mpr
  intro hlayout
  have hblank : isBlank ch = true := by
    simp only [isLayout, Bool.or_eq_true, beq_iff_eq] at hlayout
    rcases hlayout with (rfl | rfl) | rfl <;> decide
  rw [(toDecimal_clean hch).1] at hblank
  cases hblank

theorem unbroken_describeCommandFailure {command : Bytes} (hcommand : Unbroken command)
    {result : CommandResult} (herror : Unbroken result.error) :
    Unbroken (describeCommandFailure command result) := by
  have hcolon : Unbroken (bytes ": ") := by decide
  have hexit := (unbroken_toDecimal result.exit_code).append (by decide : Unbroken (bytes ")"))
  have hfailed := hcommand.append (by decide : Unbroken (bytes " failed"))
  have hdetails : Unbroken
      (if result.timed_out then command ++ bytes " failed" ++ bytes " (timed out)"
      else if result.exit_code ≥ 0 then
        command ++ bytes " failed" ++
          (bytes " (exit=" ++ (toDecimal result.exit_code ++ bytes ")"))
      else command ++ bytes " failed") := by
    split
    · exact hfailed.append (by decide)
    · split
      · exact hfailed.append (Unbroken.append (by decide) hexit)
      · exact hfailed
  rw [describeCommandFailure]
  split
  · exact hdetails.append (hcolon.append (unbroken_oneLineOutput _ 180))
  · split
    · exact hdetails.append (hcolon.append herror)
    · exact hdetails

/-- Why a command cannot be started is said on one line, as `strerror` does. -/
def ReasonUnbroken : Spawn T → Prop
  | .pipeFailed reason => Unbroken reason
  | .forkFailed reason => Unbroken reason
  | .started _ => True

theorem error_end (result : CommandResult) (how : Exit) :
    (result.end how).error = result.error := by
  cases how <;> rfl

theorem unbroken_commandLoop (pass : ℕ → Pass T) (timeout_ms : ℤ) (max_output_bytes passes : ℕ)
    (elapsed_ms : ℤ) {result : CommandResult} (h : Unbroken result.error) :
    Unbroken
      (commandLoop pass timeout_ms max_output_bytes passes elapsed_ms result).result.error := by
  have hafter : ∀ (r : CommandResult) (poll : Poll), Unbroken r.error →
      Unbroken (r.afterPoll max_output_bytes poll).error := by
    intro r poll hr
    cases poll <;> exact hr
  fun_induction commandLoop pass timeout_ms max_output_bytes passes elapsed_ms result with
  | case1 passes elapsed_ms result result' how hended =>
    change Unbroken (result'.end how).error
    rw [error_end]
    exact hafter _ _ h
  | case2 passes elapsed_ms result result' hended hlast =>
    change Unbroken (bytes "command timed out")
    decide
  | case3 passes elapsed_ms result result' hended hmore ih => exact ih (hafter _ _ h)

theorem unbroken_scanCommand (args : List Bytes) {spawn : Spawn T} (h : ReasonUnbroken spawn) :
    Unbroken (scanCommand args spawn).error := by
  unfold scanCommand runCommand
  split
  · decide
  · cases spawn with
    | pipeFailed reason => exact Unbroken.append (by decide) h
    | forkFailed reason => exact Unbroken.append (by decide) h
    | started pass =>
      exact unbroken_commandLoop _ _ _ _ _ (fun _ hch => absurd hch List.not_mem_nil)

theorem unbroken_scanResultsLoop (interface_name : Bytes) {results : ℕ → Spawn T}
    (h : ∀ attempt, ReasonUnbroken (results attempt)) (left attempt : ℕ) {last : Bytes}
    (hlast : Unbroken last) :
    Unbroken
      (scanResultsLoop interface_name results left attempt last).last_scan_results_error := by
  induction left generalizing attempt last with
  | zero => exact hlast
  | succ left ih =>
    rw [scanResultsLoop]
    dsimp only
    split
    · exact hlast
    · apply ih
      split
      · exact hlast
      · exact unbroken_describeCommandFailure (by decide) (unbroken_scanCommand _ (h attempt))

/-! ## 3. What is found -/

/-- What an attempt finds. -/
def attemptFinds (interface_name : Bytes) (results : ℕ → Spawn T) (attempt : ℕ) :
    Option (List WifiNetwork) :=
  let scan_results := scanCommand (resultsArgs interface_name) (results attempt)
  let networks := parseWpaCliScanResults scan_results.output
  if scan_results.success ∧ networks ≠ [] then some networks else none

/-- What `wpa_cli` finds: once a scan has been started or was already under way, the networks of
the first of six attempts that has any. -/
def wpaCliFinds (interface_name : Bytes) (io : ScanIo T) : Option (List WifiNetwork) :=
  let trigger := scanCommand (triggerArgs interface_name) io.trigger
  if trigger.success || containsBusySignal trigger.output then
    (List.range' 0 kScanResultsAttempts).findSome? (attemptFinds interface_name io.results)
  else none

theorem attemptFinds_ne_nil {interface_name : Bytes} {results : ℕ → Spawn T} {attempt : ℕ}
    {networks : List WifiNetwork}
    (h : attemptFinds interface_name results attempt = some networks) :
    networks ≠ [] := by
  rw [attemptFinds] at h
  split at h
  · next hfound =>
    obtain rfl := Option.some.inj h
    exact hfound.2
  · cases h

/-- The loop stops at the first attempt that finds something. -/
theorem networks_scanResultsLoop (interface_name : Bytes) (results : ℕ → Spawn T)
    (left attempt : ℕ) (last : Bytes) :
    (scanResultsLoop interface_name results left attempt last).networks =
      ((List.range' attempt left).findSome? (attemptFinds interface_name results)).getD [] := by
  induction left generalizing attempt last with
  | zero => rfl
  | succ left ih =>
    rw [scanResultsLoop, List.range'_succ, List.findSome?_cons]
    dsimp only
    split
    · next hfound => rw [attemptFinds, if_pos hfound]; rfl
    · next hnothing =>
      rw [attemptFinds, if_neg hnothing]
      exact ih ..

theorem scanWithWpaCli_of_found {sort : SignalSort} {interface_name : Bytes} {io : ScanIo T}
    {networks : List WifiNetwork} (h : wpaCliFinds interface_name io = some networks) :
    (scanWithWpaCli sort interface_name io).1 =
      { success := true, networks := deduplicateStrongest sort networks } := by
  rw [wpaCliFinds] at h
  split at h
  · next htrigger =>
    obtain ⟨_, _, -, -, hattempt, -⟩ := List.findSome?_eq_some_iff.mp h
    have hne := attemptFinds_ne_nil hattempt
    have hnetworks := networks_scanResultsLoop interface_name io.results kScanResultsAttempts 0 []
    rw [h, Option.getD_some] at hnetworks
    rw [scanWithWpaCli, if_neg]
    · dsimp only
      rw [hnetworks, if_neg hne]
    · simp only [Bool.or_eq_true] at htrigger
      rcases htrigger with hsuccess | hbusy
      · simp [hsuccess]
      · simp [hbusy]
  · cases h

theorem scanWithWpaCli_of_none (sort : SignalSort) {interface_name : Bytes} {io : ScanIo T}
    (h : wpaCliFinds interface_name io = none)
    (htrigger : ReasonUnbroken io.trigger)
    (hresults : ∀ attempt, ReasonUnbroken (io.results attempt)) :
    ∃ error, (scanWithWpaCli sort interface_name io).1 = { error } ∧ Unbroken error := by
  rw [scanWithWpaCli]
  dsimp only
  split
  · exact ⟨_, rfl, unbroken_describeCommandFailure (by decide) (unbroken_scanCommand _ htrigger)⟩
  · next hstarted =>
    have hfinds : (List.range' 0 kScanResultsAttempts).findSome?
        (attemptFinds interface_name io.results) = none := by
      rw [wpaCliFinds, if_pos] at h
      · exact h
      · by_contra hnot
        apply hstarted
        simp only [Bool.or_eq_true, not_or, Bool.not_eq_true] at hnot
        simp [hnot.1, hnot.2]
    have hnetworks := networks_scanResultsLoop interface_name io.results kScanResultsAttempts 0 []
    rw [hfinds, Option.getD_none] at hnetworks
    rw [if_pos hnetworks]
    split
    · exact ⟨_, rfl, unbroken_scanResultsLoop interface_name hresults _ 0
        (fun _ hch => absurd hch List.not_mem_nil)⟩
    · split
      · exact ⟨_, rfl, by decide⟩
      · exact ⟨_, rfl, by decide⟩

/-! ## 4. The time a scan takes -/

section Time

variable [Field T] [LinearOrder T] [IsStrictOrderedRing T]

def passesTook (spawn : Spawn T) (passes : ℕ) : T :=
  match spawn with
  | .started pass => ∑ i ∈ Finset.range passes, (pass i).took
  | _ => 0

/-- How many milliseconds a step takes. -/
def ScanStep.took : ScanStep T → T
  | .command args spawn =>
      passesTook spawn (runCommand args spawn kScanTimeoutMs kMaxCommandOutputBytes).passes
  | .pause => 750

def stepsTook (steps : List (ScanStep T)) : T := (steps.map ScanStep.took).sum

omit [LinearOrder T] [IsStrictOrderedRing T] in
theorem stepsTook_append (before after : List (ScanStep T)) :
    stepsTook (before ++ after) = stepsTook before + stepsTook after := by
  rw [stepsTook, List.map_append, List.sum_append]
  rfl

omit [Field T] [LinearOrder T] [IsStrictOrderedRing T] in
theorem passes_commandLoop_le (pass : ℕ → Pass T) (timeout_ms : ℤ) (max_output_bytes : ℕ)
    (passes : ℕ) (result : CommandResult) (h : passes < allowedPasses timeout_ms) :
    (commandLoop pass timeout_ms max_output_bytes passes (100 * passes) result).passes ≤
      allowedPasses timeout_ms := by
  induction hleft : allowedPasses timeout_ms - passes using Nat.strong_induction_on
    generalizing passes result with
  | _ left ih =>
    rw [commandLoop]
    split
    · exact h
    · split
      · exact h
      · next hmore =>
        rw [reaches_timeout_iff] at hmore
        have hnext : 100 * (passes : ℤ) + kPollStepMs = 100 * ((passes + 1 : ℕ) : ℤ) := by
          have hstep : kPollStepMs = 100 := rfl
          omega
        rw [hnext]
        exact ih _ (by omega) _ _ (by omega) rfl

omit [Field T] [LinearOrder T] [IsStrictOrderedRing T] in
theorem passes_runCommand_le (args : List Bytes) (spawn : Spawn T) (max_output_bytes : ℕ) :
    (runCommand args spawn kScanTimeoutMs max_output_bytes).passes ≤ 80 := by
  unfold runCommand
  split
  · exact Nat.zero_le 80
  · cases spawn with
    | pipeFailed reason => exact Nat.zero_le 80
    | forkFailed reason => exact Nat.zero_le 80
    | started pass => exact passes_commandLoop_le pass kScanTimeoutMs _ 0 {} (by decide)

theorem took_command_le (args : List Bytes) {spawn : Spawn T} (h : Prompt spawn) :
    (ScanStep.command args spawn).took ≤ 8000 := by
  have hpasses := passes_runCommand_le args spawn kMaxCommandOutputBytes
  rw [ScanStep.took]
  cases spawn with
  | pipeFailed reason => exact Nat.ofNat_nonneg 8000
  | forkFailed reason => exact Nat.ofNat_nonneg 8000
  | started pass =>
    calc ∑ i ∈ Finset.range _, (pass i).took
        ≤ (Finset.range _).card • (100 : T) := Finset.sum_le_card_nsmul _ _ _ fun i _ => h i
      _ ≤ 80 • (100 : T) := by
        rw [Finset.card_range]
        exact nsmul_le_nsmul_left (Nat.ofNat_nonneg 100) hpasses
      _ = 8000 := by norm_num

theorem took_scanResultsLoop_le (interface_name : Bytes) {results : ℕ → Spawn T}
    (h : ∀ attempt, Prompt (results attempt)) (left attempt : ℕ) (last : Bytes) :
    stepsTook (scanResultsLoop interface_name results left attempt last).steps ≤ 8750 * left := by
  induction left generalizing attempt last with
  | zero => simp [scanResultsLoop, stepsTook]
  | succ left ih =>
    have hboth : stepsTook [.pause, .command (resultsArgs interface_name) (results attempt)] ≤
        8750 := by
      have hcommand := took_command_le (resultsArgs interface_name) (h attempt)
      simp only [stepsTook, List.map_cons, List.map_nil, List.sum_cons, List.sum_nil]
      have hpause : (ScanStep.pause : ScanStep T).took = 750 := rfl
      rw [hpause]
      linarith
    rw [scanResultsLoop]
    dsimp only
    push_cast
    split
    · have hleft : (0 : T) ≤ left := Nat.cast_nonneg left
      dsimp only
      linarith
    · dsimp only
      rw [stepsTook_append]
      have hrest := ih (attempt + 1)
        (if (scanCommand (resultsArgs interface_name) (results attempt)).success then last
          else describeCommandFailure (bytes "wpa_cli scan_results")
            (scanCommand (resultsArgs interface_name) (results attempt)))
      linarith

theorem took_scanWithWpaCli_le (sort : SignalSort) (interface_name : Bytes) {io : ScanIo T}
    (htrigger : Prompt io.trigger) (hresults : ∀ attempt, Prompt (io.results attempt)) :
    stepsTook (scanWithWpaCli sort interface_name io).2 ≤ 60500 := by
  have hfirst : stepsTook [.command (triggerArgs interface_name) io.trigger] ≤ 8000 := by
    have hcommand := took_command_le (triggerArgs interface_name) htrigger
    simpa [stepsTook] using hcommand
  rw [scanWithWpaCli]
  dsimp only
  split
  · linarith
  · have hloop := took_scanResultsLoop_le interface_name hresults kScanResultsAttempts 0 []
    have hattempts : (8750 : T) * (kScanResultsAttempts : ℕ) = 52500 := by
      norm_num [kScanResultsAttempts]
    dsimp only
    rw [stepsTook_append]
    linarith

theorem took_scan_le (round : ℚ → Option ℚ) (sort : SignalSort) (interface_name : Bytes)
    {io : ScanIo T} (htrigger : Prompt io.trigger) (hresults : ∀ attempt, Prompt (io.results attempt))
    (hiw : Prompt io.iw) : stepsTook (scan round sort interface_name io).2 ≤ 68500 := by
  have hprimary := took_scanWithWpaCli_le sort interface_name htrigger hresults
  rw [scan]
  dsimp only
  split
  · linarith
  · have hlast : stepsTook (scanWithIw round sort interface_name io).2 ≤ 8000 := by
      have hcommand := took_command_le (iwArgs interface_name) hiw
      simpa [stepsTook, scanWithIw] using hcommand
    dsimp only
    rw [stepsTook_append]
    linarith

/-! ## 5. The outcome -/

/-- Whatever the commands print and however they end.  If `wpa_cli` finds networks, the scan shows
these, the strongest for each name; if it does not and `iw` succeeds, what `iw` has found; and
otherwise it fails with an error on one line and no networks.  If `poll` keeps its time, it ends
within 68.5 seconds. -/
theorem scan_outcome (round : ℚ → Option ℚ) (sort : SignalSort) (interface_name : Bytes)
    (io : ScanIo T) (htrigger : ReasonUnbroken io.trigger)
    (hresults : ∀ attempt, ReasonUnbroken (io.results attempt)) (hiw : ReasonUnbroken io.iw) :
    (∀ networks, wpaCliFinds interface_name io = some networks →
      (scan round sort interface_name io).1 =
        some { success := true, networks := deduplicateStrongest sort networks }) ∧
    (wpaCliFinds interface_name io = none → (scanCommand (iwArgs interface_name) io.iw).success →
      (scan round sort interface_name io).1 =
        (Casts.scanWithIw round sort (scanCommand (iwArgs interface_name) io.iw).output).result.map
          fun networks => { success := true, networks }) ∧
    (wpaCliFinds interface_name io = none →
      (scanCommand (iwArgs interface_name) io.iw).success = false →
      ∃ details, (scan round sort interface_name io).1 =
          some { error := bytes "wifi scan failed: " ++ details } ∧ Unbroken details) ∧
    (Prompt io.trigger → (∀ attempt, Prompt (io.results attempt)) → Prompt io.iw →
      stepsTook (scan round sort interface_name io).2 ≤ 68500) := by
  refine ⟨?_, ?_, ?_, took_scan_le round sort interface_name⟩
  · intro networks hfound
    rw [scan, scanWithWpaCli_of_found hfound]
    rfl
  · intro hnone hsuccess
    rcases scanWithWpaCli_of_none sort hnone htrigger hresults with ⟨error, herror, -⟩
    rw [scan, herror, scanWithIw]
    dsimp only
    rw [if_neg Bool.false_ne_true, if_pos hsuccess]
    cases (Casts.scanWithIw round sort
      (scanCommand (iwArgs interface_name) io.iw).output).result with
    | none => rfl
    | some networks => rfl
  · intro hnone hfailed
    rcases scanWithWpaCli_of_none sort hnone htrigger hresults with
      ⟨error, herror, hunbroken⟩
    rw [scan, herror, scanWithIw]
    dsimp only
    rw [if_neg Bool.false_ne_true, hfailed, if_neg Bool.false_ne_true]
    refine ⟨_, rfl, hunbroken.append (Unbroken.append (by decide) ?_)⟩
    exact unbroken_describeCommandFailure (by decide) (unbroken_scanCommand _ hiw)

end Time

/-- A child that ends in its first pass with some output. -/
def endsWith (status : ℤ) (output : Bytes) : Spawn ℚ :=
  .started fun _ => { poll := .readable output, took := 3, ended := some (.exited status) }

/-- The radio is busy, the first attempt shows the header only and the second one network. -/
def busyRadio : ScanIo ℚ where
  trigger := endsWith 255 (bytes "FAIL-BUSY\n")
  results attempt := endsWith 0
    (if attempt = 0 then scanHeader ++ bytes "\n"
    else bytes "02:00:00:00:00:01\t2412\t-51\t[WPA2-PSK-CCMP][ESS]\tHome\n")
  iw := .forkFailed (bytes "Cannot allocate memory")

theorem scan_outcome_busyRadio :
    (scan some stableSort (bytes "wlan0") busyRadio).1 =
        some { success := true, networks := [⟨bytes "Home", -51, bytes "WPA2"⟩] } ∧
      stepsTook (scan some stableSort (bytes "wlan0") busyRadio).2 ≤ 68500 := by
  have hfinds : wpaCliFinds (bytes "wlan0") busyRadio =
      some [⟨bytes "Home", -51, bytes "WPA2"⟩] := by
    decide +kernel
  have hprompt : ∀ status output, Prompt (endsWith status output) :=
    fun _ _ _ => by norm_num
  obtain ⟨hfound, -, -, htime⟩ := scan_outcome some stableSort (bytes "wlan0") busyRadio
    trivial (fun _ => trivial) (by decide : Unbroken (bytes "Cannot allocate memory"))
  exact ⟨hfound _ hfinds, htime (hprompt _ _) (fun _ => hprompt _ _) trivial⟩

end VirtualChime.Webd.WifiScanner
