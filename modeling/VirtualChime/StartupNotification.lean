import VirtualChime.ChimeConfig
import Mathlib.Data.List.Chain

/-!
# The startup notification

The part of the loop of `ChimeService::Run` that reads the Wi-Fi state and plays the
success or the failure sound once after a start.  A pass of the loop is given by its
time, what `ReadState` finds and whether the MQTT client is connected.
-/

namespace VirtualChime

structure WifiState where
  interface_present : Bool := false
  operstate : Bytes := bytes "unknown"
  carrier : Int := -1
deriving DecidableEq, Repr

def wifiStateIsConnected (state : Option WifiState) : Bool :=
  match state with
  | none => false
  | some state => state.interface_present && state.operstate == bytes "up" && state.carrier == 1

inductive NotificationSoundType where
  | kSuccess
  | kFailure
deriving DecidableEq, Repr

/-- `PlayNotification`: the sound and the volume that the audio player is given. -/
def playNotification (config : ChimeConfig) (type : NotificationSoundType) : Option (Bytes × Int) :=
  if config.audio_enabled then
    match type with
    | .kSuccess => some (config.notification_success_sound_path, config.volume_notifications)
    | .kFailure => some (config.notification_failure_sound_path, config.volume_notifications)
  else none

/-! ## 1. The loop -/

def kStartupNotificationTimeoutSeconds : Int := 10
def kStartupUnknownWifiTimeoutSeconds : Int := 30

/-- The whole seconds of a duration of the steady clock, which counts nanoseconds. -/
def durationSeconds (d : Int) : Int := Int.tdiv d 1000000000

/-- The variables of the loop. -/
structure RunLoop where
  last_wifi_check : Int
  last_wifi_state : Option WifiState
  startup_begin : Int
  startup_notification_played : Bool
  startup_notification_unknown_logged : Bool := false
  startup_unknown_wifi_begin : Option Int := none

structure Pass where
  now : Int
  wifi : Option WifiState
  mqtt_connected : Bool

namespace RunLoop

/-- The variables before the first pass; `wifi` is the reading that is logged at the start. -/
def start (config : ChimeConfig) (wifi : Option WifiState) (last_wifi_check startup_begin : Int) :
    RunLoop where
  last_wifi_check := last_wifi_check
  last_wifi_state := wifi
  startup_begin := startup_begin
  startup_notification_played := !config.audio_enabled

def refreshWifiState (l : RunLoop) (current_state : Option WifiState) : RunLoop :=
  if current_state.isSome then { l with last_wifi_state := current_state }
  else if l.last_wifi_state.isSome then { l with last_wifi_state := none }
  else l

def wifiCheckDue (config : ChimeConfig) (l : RunLoop) (now : Int) : Prop :=
  config.wifi_check_interval > 0 ∧
    durationSeconds (now - l.last_wifi_check) ≥ config.wifi_check_interval

instance (config : ChimeConfig) (l : RunLoop) (now : Int) : Decidable (wifiCheckDue config l now) :=
  inferInstanceAs (Decidable (_ ∧ _))

def logUnknown (l : RunLoop) (now : Int) : RunLoop :=
  if !l.startup_notification_unknown_logged then
    { l with
      startup_notification_unknown_logged := true
      startup_unknown_wifi_begin := some now }
  else l

def checkUnknownElapsed (l : RunLoop) (now : Int) : RunLoop × Option NotificationSoundType :=
  match l.startup_unknown_wifi_begin with
  | some since =>
      if durationSeconds (now - since) ≥ kStartupUnknownWifiTimeoutSeconds then
        ({ l with startup_notification_played := true }, some .kFailure)
      else (l, none)
  | none => (l, none)

/-- The block under `if (!startup_notification_played)`, after the reading. -/
def startupCheck (l : RunLoop) (p : Pass) : RunLoop × Option NotificationSoundType :=
  let wifi_state_known := l.last_wifi_state.isSome
  let wifi_connected := wifi_state_known && wifiStateIsConnected l.last_wifi_state
  if wifi_connected && p.mqtt_connected then
    ({ l with startup_notification_played := true }, some .kSuccess)
  else if durationSeconds (p.now - l.startup_begin) ≥ kStartupNotificationTimeoutSeconds then
    if !wifi_state_known then checkUnknownElapsed (l.logUnknown p.now) p.now
    else
      ({ l with startup_unknown_wifi_begin := none, startup_notification_played := true },
        some .kFailure)
  else (l, none)

/-- A pass of the loop, with the call of `PlayNotification` it makes. -/
def pass (config : ChimeConfig) (l : RunLoop) (p : Pass) : RunLoop × Option NotificationSoundType :=
  let wifi_state_refreshed := decide (wifiCheckDue config l p.now)
  let l :=
    if wifi_state_refreshed then { l.refreshWifiState p.wifi with last_wifi_check := p.now } else l
  if !l.startup_notification_played then
    startupCheck (if !wifi_state_refreshed then l.refreshWifiState p.wifi else l) p
  else (l, none)

/-- The calls of `PlayNotification` in some passes, each with the pass that makes it. -/
def notifications (config : ChimeConfig) (l : RunLoop) :
    List Pass → List (Pass × NotificationSoundType)
  | [] => []
  | p :: passes =>
      let next := pass config l p
      (next.2.map fun type => (p, type)).toList ++ notifications config next.1 passes

/-! ## 2. One pass -/

/-- A pass that reads a connected interface while MQTT is connected. -/
def AllConnected (p : Pass) : Prop := wifiStateIsConnected p.wifi = true ∧ p.mqtt_connected = true

/-- A pass at or after the timeout of ten seconds. -/
def TimedOut (l : RunLoop) (p : Pass) : Prop :=
  durationSeconds (p.now - l.startup_begin) ≥ kStartupNotificationTimeoutSeconds

@[simp] theorem refreshWifiState_eq (l : RunLoop) (wifi : Option WifiState) :
    l.refreshWifiState wifi = { l with last_wifi_state := wifi } := by
  rw [refreshWifiState]
  cases wifi with
  | some state => simp
  | none =>
    split
    · next h => simp at h
    · split
      · rfl
      · next hnone =>
        rw [Option.not_isSome_iff_eq_none] at hnone
        rw [← hnone]

/-- Once the sound has been played a pass plays nothing. -/
theorem pass_of_played (config : ChimeConfig) {l : RunLoop}
    (h : l.startup_notification_played = true) (p : Pass) :
    (pass config l p).2 = none ∧ (pass config l p).1.startup_notification_played = true := by
  by_cases hdue : wifiCheckDue config l p.now
  · simp [pass, hdue, h]
  · simp [pass, hdue, h]

/-- Before that, every pass decides on the reading it takes itself. -/
theorem pass_of_undecided {config : ChimeConfig} {l : RunLoop}
    (h : l.startup_notification_played = false) (p : Pass) :
    ∃ check, pass config l p =
      startupCheck { l with last_wifi_check := check, last_wifi_state := p.wifi } p := by
  by_cases hdue : wifiCheckDue config l p.now
  · exact ⟨p.now, by simp [pass, hdue, h]⟩
  · exact ⟨l.last_wifi_check, by simp [pass, hdue, h]⟩

theorem allConnected_iff {p : Pass} :
    AllConnected p ↔
      ((p.wifi.isSome && wifiStateIsConnected p.wifi) && p.mqtt_connected) = true := by
  rw [AllConnected, Bool.and_eq_true]
  cases p.wifi with
  | none => simp [wifiStateIsConnected]
  | some state => simp

/-- The time from which an unknown Wi-Fi state is counted, after a pass that finds it unknown. -/
def unknownSince (l : RunLoop) (now : Int) : Option Int :=
  if l.startup_notification_unknown_logged then l.startup_unknown_wifi_begin else some now

theorem logUnknown_eq (l : RunLoop) (now : Int) :
    l.logUnknown now =
      { l with
        startup_notification_unknown_logged := true
        startup_unknown_wifi_begin := l.unknownSince now } := by
  rw [logUnknown, unknownSince]
  cases hlogged : l.startup_notification_unknown_logged with
  | false => rfl
  | true => simp [← hlogged]

theorem checkUnknownElapsed_cases (l : RunLoop) (now : Int) :
    l.checkUnknownElapsed now =
        ({ l with startup_notification_played := true }, some .kFailure) ∨
      l.checkUnknownElapsed now = (l, none) ∧ ∀ since ∈ l.startup_unknown_wifi_begin,
        durationSeconds (now - since) < kStartupUnknownWifiTimeoutSeconds := by
  rw [checkUnknownElapsed]
  cases l.startup_unknown_wifi_begin with
  | none => exact Or.inr ⟨rfl, nofun⟩
  | some since =>
    by_cases hlong : durationSeconds (now - since) ≥ kStartupUnknownWifiTimeoutSeconds
    · exact Or.inl (if_pos hlong)
    · right
      refine ⟨if_neg hlong, ?_⟩
      intro b hb
      rw [← Option.some.inj hb]
      exact not_le.mp hlong

/-- What a pass that has not yet played does: it plays the success sound, or it plays the failure
sound, or it goes on waiting. -/
theorem pass_cases (config : ChimeConfig) {l : RunLoop}
    (h : l.startup_notification_played = false) (p : Pass) :
    ((pass config l p).2 = some .kSuccess ∧ AllConnected p ∧
      (pass config l p).1.startup_notification_played = true) ∨
    ((pass config l p).2 = some .kFailure ∧ ¬ AllConnected p ∧ TimedOut l p ∧
      (pass config l p).1.startup_notification_played = true) ∨
    ((pass config l p).2 = none ∧ ¬ TimedOut l p ∧
      ∃ check, (pass config l p).1 =
        { l with last_wifi_check := check, last_wifi_state := p.wifi }) ∨
    ((pass config l p).2 = none ∧ p.wifi = none ∧
      (∀ since ∈ unknownSince l p.now,
        durationSeconds (p.now - since) < kStartupUnknownWifiTimeoutSeconds) ∧
      ∃ check, (pass config l p).1 =
        { l with
          last_wifi_check := check
          last_wifi_state := none
          startup_notification_unknown_logged := true
          startup_unknown_wifi_begin := unknownSince l p.now }) := by
  obtain ⟨check, heq⟩ := pass_of_undecided h p
  rw [heq, startupCheck]
  dsimp only
  by_cases hconnected : AllConnected p
  · rw [if_pos (allConnected_iff.mp hconnected)]
    exact Or.inl ⟨rfl, hconnected, rfl⟩
  · rw [if_neg (fun hif => hconnected (allConnected_iff.mpr hif))]
    by_cases htime : l.TimedOut p
    · rw [if_pos (show durationSeconds (p.now - l.startup_begin) ≥ _ from htime)]
      cases hwifi : p.wifi with
      | some state => exact Or.inr (Or.inl ⟨rfl, hconnected, htime, rfl⟩)
      | none =>
        rw [logUnknown_eq]
        obtain hplay | ⟨hwait, hshort⟩ := checkUnknownElapsed_cases _ p.now
        · right
          left
          exact ⟨congrArg Prod.snd hplay, hconnected, htime,
            congrArg (fun r => r.1.startup_notification_played) hplay⟩
        · right
          right
          right
          exact ⟨congrArg Prod.snd hwait, rfl, hshort, check, congrArg Prod.fst hwait⟩
    · rw [if_neg (show ¬ durationSeconds (p.now - l.startup_begin) ≥ _ from htime)]
      exact Or.inr (Or.inr (Or.inl ⟨rfl, htime, check, rfl⟩))

/-- What a pass that plays nothing leaves behind. -/
theorem pass_silent_cases {config : ChimeConfig} {l : RunLoop}
    (h : l.startup_notification_played = false) {p : Pass} (hnone : (pass config l p).2 = none) :
    (¬ TimedOut l p ∧ ∃ check, (pass config l p).1 =
      { l with last_wifi_check := check, last_wifi_state := p.wifi }) ∨
    (p.wifi = none ∧
      (∀ since ∈ unknownSince l p.now,
        durationSeconds (p.now - since) < kStartupUnknownWifiTimeoutSeconds) ∧
      ∃ check, (pass config l p).1 =
        { l with
          last_wifi_check := check
          last_wifi_state := none
          startup_notification_unknown_logged := true
          startup_unknown_wifi_begin := unknownSince l p.now }) := by
  obtain ⟨hplay, -⟩ | ⟨hplay, -⟩ | ⟨-, hearly⟩ | ⟨-, hunknown⟩ := pass_cases config h p
  · rw [hplay] at hnone
    cases hnone
  · rw [hplay] at hnone
    cases hnone
  · exact Or.inl hearly
  · exact Or.inr hunknown

/-! ## 3. Runs -/

def second : Int := 1000000000

theorem le_durationSeconds_iff {n d : Int} (hn : 0 < n) :
    n ≤ durationSeconds d ↔ n * second ≤ d := by
  rw [durationSeconds, second]
  rcases le_total 0 d with hd | hd
  · rw [Int.tdiv_eq_ediv_of_nonneg hd]
    omega
  · have hneg : Int.tdiv (-d) 1000000000 = -(Int.tdiv d 1000000000) := Int.neg_tdiv d 1000000000
    rw [Int.tdiv_eq_ediv_of_nonneg (by omega)] at hneg
    omega

/-- The sound has not been played, and an unknown Wi-Fi state is counted from a time up to `t`
once it has been logged. -/
structure Waiting (l : RunLoop) (t : Int) : Prop where
  undecided : l.startup_notification_played = false
  logged_iff : l.startup_notification_unknown_logged = l.startup_unknown_wifi_begin.isSome
  since_le : ∀ since ∈ l.startup_unknown_wifi_begin, since ≤ t

theorem waiting_start {config : ChimeConfig} (haudio : config.audio_enabled = true)
    (wifi : Option WifiState) (last_wifi_check startup_begin t : Int) :
    (start config wifi last_wifi_check startup_begin).Waiting t :=
  ⟨by rw [start, haudio]; rfl, rfl, nofun⟩

theorem Waiting.unknownSince {l : RunLoop} {t now : Int} (h : l.Waiting t) (hle : t ≤ now) :
    ∃ since, l.unknownSince now = some since ∧ since ≤ now := by
  have hlogged := h.logged_iff
  rw [RunLoop.unknownSince]
  cases hbegin : l.startup_unknown_wifi_begin with
  | none =>
    rw [hbegin] at hlogged
    exact ⟨now, by rw [hlogged]; rfl, le_refl now⟩
  | some since =>
    rw [hbegin] at hlogged
    exact ⟨since, by rw [hlogged]; rfl, le_trans (h.since_le since hbegin) hle⟩

/-- A pass that plays nothing leaves the loop waiting. -/
theorem Waiting.pass {config : ChimeConfig} {l : RunLoop} {t : Int} (h : l.Waiting t) {p : Pass}
    (hle : t ≤ p.now) (hnone : (RunLoop.pass config l p).2 = none) :
    (RunLoop.pass config l p).1.Waiting p.now ∧
      (RunLoop.pass config l p).1.startup_begin = l.startup_begin := by
  obtain ⟨-, check, heq⟩ | ⟨-, -, check, heq⟩ := pass_silent_cases h.undecided hnone
  · rw [heq]
    exact ⟨⟨h.undecided, h.logged_iff, fun since hs => le_trans (h.since_le since hs) hle⟩, rfl⟩
  · obtain ⟨since, hsince, hle'⟩ := h.unknownSince hle
    rw [heq, hsince]
    refine ⟨⟨h.undecided, rfl, ?_⟩, rfl⟩
    intro b hb
    rw [← Option.some.inj hb]
    exact hle'

theorem notifications_cons_of_none {config : ChimeConfig} {l : RunLoop} {p : Pass}
    (h : (pass config l p).2 = none) (passes : List Pass) :
    notifications config l (p :: passes) = notifications config (pass config l p).1 passes := by
  rw [notifications, h]
  rfl

theorem notifications_cons_of_some {config : ChimeConfig} {l : RunLoop} {p : Pass}
    {type : NotificationSoundType} (h : (pass config l p).2 = some type) (passes : List Pass) :
    notifications config l (p :: passes) =
      (p, type) :: notifications config (pass config l p).1 passes := by
  rw [notifications, h]
  rfl

theorem notifications_cons_ne_nil {config : ChimeConfig} {l : RunLoop} {p : Pass}
    (h : (pass config l p).2 ≠ none) (passes : List Pass) :
    notifications config l (p :: passes) ≠ [] := by
  obtain ⟨type, hsome⟩ := Option.ne_none_iff_exists'.mp h
  rw [notifications_cons_of_some hsome]
  exact List.cons_ne_nil _ _

theorem notifications_of_played {config : ChimeConfig} {l : RunLoop}
    (h : l.startup_notification_played = true) (passes : List Pass) :
    notifications config l passes = [] := by
  induction passes generalizing l with
  | nil => rfl
  | cons p passes ih =>
    obtain ⟨hnone, hplayed⟩ := pass_of_played config h p
    rw [notifications_cons_of_none hnone, ih hplayed]

/-- The grounds on which a pass plays a sound. -/
def Grounds (startup_begin : Int) (p : Pass) : NotificationSoundType → Prop
  | .kSuccess => AllConnected p
  | .kFailure =>
      kStartupNotificationTimeoutSeconds * second ≤ p.now - startup_begin ∧ ¬ AllConnected p

theorem timedOut_iff {l : RunLoop} {p : Pass} :
    l.TimedOut p ↔ kStartupNotificationTimeoutSeconds * second ≤ p.now - l.startup_begin :=
  le_durationSeconds_iff (by decide)

/-- Whatever the passes are, a waiting loop plays one sound at most, and on its grounds. -/
theorem Waiting.notifications (config : ChimeConfig) {l : RunLoop} {t : Int} (h : l.Waiting t)
    {passes : List Pass} (hmono : (t :: passes.map Pass.now).Pairwise (· ≤ ·)) :
    RunLoop.notifications config l passes = [] ∨
      ∃ p type, RunLoop.notifications config l passes = [(p, type)] ∧ p ∈ passes ∧
        Grounds l.startup_begin p type := by
  induction passes generalizing l t with
  | nil => exact Or.inl rfl
  | cons p passes ih =>
    have hle : t ≤ p.now := (List.pairwise_cons.mp hmono).1 p.now (List.mem_cons_self ..)
    cases hcall : (RunLoop.pass config l p).2 with
    | none =>
      obtain ⟨hwait, hbegin⟩ := h.pass hle hcall
      rw [notifications_cons_of_none hcall, ← hbegin]
      apply (ih hwait (List.pairwise_cons.mp hmono).2).imp_right
      rintro ⟨q, type, hplay, hmem, hgrounds⟩
      exact ⟨q, type, hplay, List.mem_cons_of_mem _ hmem, hgrounds⟩
    | some type =>
      right
      rw [notifications_cons_of_some hcall]
      obtain ⟨hplay, hall, hplayed⟩ | ⟨hplay, hnot, htime, hplayed⟩ | ⟨hplay, -⟩ | ⟨hplay, -⟩ :=
        pass_cases config h.undecided p
      · rw [notifications_of_played hplayed]
        obtain rfl := Option.some.inj (hcall.symm.trans hplay)
        exact ⟨p, _, rfl, List.mem_cons_self .., hall⟩
      · rw [notifications_of_played hplayed]
        obtain rfl := Option.some.inj (hcall.symm.trans hplay)
        exact ⟨p, _, rfl, List.mem_cons_self .., timedOut_iff.mp htime, hnot⟩
      · rw [hcall] at hplay
        cases hplay
      · rw [hcall] at hplay
        cases hplay

/-- A pass that is reached undecided finds a loop that still waits. -/
theorem Waiting.reach {config : ChimeConfig} {l : RunLoop} {t : Int} (h : l.Waiting t)
    {before : List Pass} {p : Pass} {rest : List Pass}
    (hmono : (t :: (before ++ p :: rest).map Pass.now).Pairwise (· ≤ ·)) :
    RunLoop.notifications config l (before ++ p :: rest) ≠ [] ∨
      ∃ l' t', l'.Waiting t' ∧ t' ≤ p.now ∧ l'.startup_begin = l.startup_begin ∧
        RunLoop.notifications config l (before ++ p :: rest) =
          RunLoop.notifications config l' (p :: rest) := by
  induction before generalizing l t with
  | nil =>
    right
    exact ⟨l, t, h, (List.pairwise_cons.mp hmono).1 p.now (List.mem_cons_self ..), rfl, rfl⟩
  | cons q before ih =>
    have hle : t ≤ q.now := (List.pairwise_cons.mp hmono).1 q.now (List.mem_cons_self ..)
    rw [List.cons_append]
    cases hcall : (RunLoop.pass config l q).2 with
    | none =>
      obtain ⟨hwait, hbegin⟩ := h.pass hle hcall
      rw [notifications_cons_of_none hcall, ← hbegin]
      exact ih hwait (List.pairwise_cons.mp hmono).2
    | some type =>
      left
      exact notifications_cons_ne_nil (by rw [hcall]; exact Option.some_ne_none type) _

/-! ## 4. The decision is made -/

/-- A pass after the timeout that knows the Wi-Fi state plays a sound. -/
theorem notifications_of_known {config : ChimeConfig} {l : RunLoop} {p : Pass}
    (h : l.startup_notification_played = false)
    (htime : kStartupNotificationTimeoutSeconds * second ≤ p.now - l.startup_begin)
    (hknown : p.wifi ≠ none) (rest : List Pass) : notifications config l (p :: rest) ≠ [] := by
  apply notifications_cons_ne_nil
  intro hnone
  obtain ⟨hearly, -⟩ | ⟨hunknown, -⟩ := pass_silent_cases h hnone
  · exact absurd (timedOut_iff.mpr htime) hearly
  · exact absurd hunknown hknown

/-- The sound has not been played and the unknown Wi-Fi state is counted from `since`. -/
structure CountsFrom (l : RunLoop) (since : Int) : Prop where
  undecided : l.startup_notification_played = false
  logged : l.startup_notification_unknown_logged = true
  begin_eq : l.startup_unknown_wifi_begin = some since

/-- A pass after the timeout that plays nothing has the unknown state counted. -/
theorem Waiting.countsFrom {config : ChimeConfig} {l : RunLoop} {t : Int} (h : l.Waiting t)
    {p : Pass} (hle : t ≤ p.now)
    (htime : kStartupNotificationTimeoutSeconds * second ≤ p.now - l.startup_begin)
    (hnone : (RunLoop.pass config l p).2 = none) :
    ∃ since, (RunLoop.pass config l p).1.CountsFrom since ∧ since ≤ p.now := by
  obtain ⟨hearly, -⟩ | ⟨-, -, check, heq⟩ := pass_silent_cases h.undecided hnone
  · exact absurd (timedOut_iff.mpr htime) hearly
  · obtain ⟨since, hsince, hle'⟩ := h.unknownSince hle
    rw [heq, hsince]
    exact ⟨since, ⟨h.undecided, rfl, rfl⟩, hle'⟩

theorem CountsFrom.unknownSince {l : RunLoop} {since : Int} (h : l.CountsFrom since) (now : Int) :
    l.unknownSince now = some since := by
  rw [RunLoop.unknownSince, if_pos h.logged, h.begin_eq]

/-- No reading in between makes the loop forget from when it counts. -/
theorem CountsFrom.pass {config : ChimeConfig} {l : RunLoop} {since : Int}
    (h : l.CountsFrom since) {p : Pass} (hnone : (RunLoop.pass config l p).2 = none) :
    (RunLoop.pass config l p).1.CountsFrom since ∧
      (RunLoop.pass config l p).1.startup_begin = l.startup_begin := by
  obtain ⟨-, check, heq⟩ | ⟨-, -, check, heq⟩ := pass_silent_cases h.undecided hnone
  · rw [heq]
    exact ⟨⟨h.undecided, h.logged, h.begin_eq⟩, rfl⟩
  · rw [heq, h.unknownSince]
    exact ⟨⟨h.undecided, rfl, rfl⟩, rfl⟩

/-- A loop that counts from `since` has played a sound thirty seconds later. -/
theorem CountsFrom.notifications {config : ChimeConfig} {l : RunLoop} {since : Int}
    (h : l.CountsFrom since) {between : List Pass} {p : Pass}
    (htime : kStartupNotificationTimeoutSeconds * second ≤ p.now - l.startup_begin)
    (hlong : kStartupUnknownWifiTimeoutSeconds * second ≤ p.now - since) :
    RunLoop.notifications config l (between ++ [p]) ≠ [] := by
  induction between generalizing l with
  | nil =>
    apply notifications_cons_ne_nil
    intro hnone
    obtain ⟨hearly, -⟩ | ⟨-, hshort, -⟩ := pass_silent_cases h.undecided hnone
    · exact absurd (timedOut_iff.mpr htime) hearly
    · have hnot := hshort since (h.unknownSince p.now)
      exact absurd ((le_durationSeconds_iff (by decide)).mpr hlong) (not_le.mpr hnot)
  | cons q between ih =>
    rw [List.cons_append]
    cases hcall : (RunLoop.pass config l q).2 with
    | none =>
      obtain ⟨hcounts, hbegin⟩ := h.pass hcall
      rw [notifications_cons_of_none hcall]
      rw [← hbegin] at htime
      exact ih hcounts htime
    | some type => exact notifications_cons_ne_nil (by rw [hcall]; exact Option.some_ne_none type) _

/-- After a late pass that knows the Wi-Fi state the sound has been played. -/
theorem Waiting.decided_of_known {config : ChimeConfig} {l : RunLoop} {t : Int} (h : l.Waiting t)
    {before : List Pass} {p : Pass}
    (hmono : (t :: (before ++ [p]).map Pass.now).Pairwise (· ≤ ·))
    (htime : kStartupNotificationTimeoutSeconds * second ≤ p.now - l.startup_begin)
    (hknown : p.wifi ≠ none) : RunLoop.notifications config l (before ++ [p]) ≠ [] := by
  obtain hplayed | ⟨l', t', hl, -, hbegin, heq⟩ := h.reach hmono
  · exact hplayed
  · rw [heq]
    exact notifications_of_known hl.undecided (by rw [hbegin]; exact htime) hknown []

/-- After a pass that comes thirty seconds after another late one the sound has been played. -/
theorem Waiting.decided_of_late {config : ChimeConfig} {l : RunLoop} {t : Int} (h : l.Waiting t)
    {before between : List Pass} {first p : Pass}
    (hmono : (t :: (before ++ first :: (between ++ [p])).map Pass.now).Pairwise (· ≤ ·))
    (htime : kStartupNotificationTimeoutSeconds * second ≤ first.now - l.startup_begin)
    (hlong : kStartupUnknownWifiTimeoutSeconds * second ≤ p.now - first.now) :
    RunLoop.notifications config l (before ++ first :: (between ++ [p])) ≠ [] := by
  obtain hplayed | ⟨l', t', hl, hle, hbegin, heq⟩ := h.reach hmono
  · exact hplayed
  · rw [heq]
    rw [← hbegin] at htime
    cases hcall : (RunLoop.pass config l' first).2 with
    | some type => exact notifications_cons_ne_nil (by rw [hcall]; exact Option.some_ne_none type) _
    | none =>
      obtain ⟨since, hcounts, hsince⟩ := hl.countsFrom hle htime hcall
      have hsame := (hl.pass hle hcall).2
      have hpositive : 0 < kStartupUnknownWifiTimeoutSeconds * second := by decide
      rw [notifications_cons_of_none hcall]
      apply hcounts.notifications
      · rw [hsame]
        omega
      · omega

/-- One sound is played at most, on its grounds, and it has been played after every pass that
comes ten seconds after the start and knows the Wi-Fi state, and after every pass that comes
thirty seconds after another one that late. -/
theorem startup_notification_decided (config : ChimeConfig)
    (haudio : config.audio_enabled = true) (wifi : Option WifiState)
    (last_wifi_check startup_begin : Int) (passes : List Pass)
    (hmono : (startup_begin :: passes.map Pass.now).Pairwise (· ≤ ·)) :
    let calls := notifications config (start config wifi last_wifi_check startup_begin)
    (calls passes).length ≤ 1 ∧
    (∀ p type, (p, type) ∈ calls passes → p ∈ passes ∧ Grounds startup_begin p type) ∧
    (∀ before p after, passes = before ++ p :: after →
      10 * second ≤ p.now - startup_begin → p.wifi ≠ none → calls (before ++ [p]) ≠ []) ∧
    (∀ before first between p after, passes = before ++ first :: (between ++ p :: after) →
      10 * second ≤ first.now - startup_begin → 30 * second ≤ p.now - first.now →
      calls (before ++ first :: (between ++ [p])) ≠ []) := by
  have hwait : ∀ t, (start config wifi last_wifi_check startup_begin).Waiting t :=
    waiting_start haudio wifi last_wifi_check startup_begin
  have hcalls := (hwait startup_begin).notifications config hmono
  dsimp only
  refine ⟨?_, ?_, ?_, ?_⟩
  · rcases hcalls with hnil | ⟨p, type, hone, -⟩
    · rw [hnil]
      exact Nat.zero_le 1
    · rw [hone]
      exact le_refl 1
  · intro p type hmem
    rcases hcalls with hnil | ⟨q, sound, hone, hq, hgrounds⟩
    · rw [hnil] at hmem
      exact absurd hmem List.not_mem_nil
    · rw [hone] at hmem
      obtain ⟨rfl, rfl⟩ := Prod.mk.inj (List.mem_singleton.mp hmem)
      exact ⟨hq, hgrounds⟩
  · rintro before p after rfl htime hknown
    apply (hwait startup_begin).decided_of_known ?_ htime hknown
    apply List.Pairwise.sublist ?_ hmono
    simp
  · rintro before first between p after rfl htime hlong
    apply (hwait startup_begin).decided_of_late ?_ htime hlong
    apply List.Pairwise.sublist ?_ hmono
    simp

/-- An interface that stays unknown gets the failure sound. -/
theorem startup_notification_decided_unknown :
    notifications {} (start {} none 0 0)
      [⟨12 * second, none, true⟩, ⟨43 * second, none, true⟩] ≠ [] :=
  (startup_notification_decided {} rfl none 0 0
    [⟨12 * second, none, true⟩, ⟨43 * second, none, true⟩] (by decide)).2.2.2
    [] ⟨12 * second, none, true⟩ [] ⟨43 * second, none, true⟩ [] rfl (by decide) (by decide)

end RunLoop

end VirtualChime
