import VirtualChime.DaemonSession

/-!
# What the daemon accounts for

The counters that the daemon logs, the sounds it has played and the times of its heartbeats and
health logs, over every run.  The counters are right (`daemon_accounts`),
and nothing periodic runs early, late or more often than its period allows (`daemon_periodic`).
-/

namespace VirtualChime.System

open ChimeService

variable {config : ChimeConfig} {begun : Int}

/-! ## 1. The books -/

/-- A message on `topic` rings the bell. -/
def ringsBell (config : ChimeConfig) (topic : Bytes) : Bool :=
  config.audio_enabled && topicMatchesFilter config.ring_topic topic

/-- The topics of handled messages that ring the bell. -/
def rung (config : ChimeConfig) (handled : List Bytes) : List Bytes := handled.filter (ringsBell config)

/-- What the daemon counts and plays, beside what has happened. -/
structure Books where
  config : ChimeConfig
  played : List (Bytes × Int)
  loop : RunLoop
  last_heartbeat : Int
  last_health : Int
  messages_received_ : UInt64
  ring_messages_received_ : UInt64
  loop_errors_ : UInt64
  reconnect_attempts_ : UInt64
  heartbeats_sent_ : UInt64
  clock : Int
  handled : List Bytes
  heartbeats : List Heartbeat
  notified : List NotificationSoundType
  health : List Health

def books (s : System) : Books where
  config := s.daemon.service.config
  played := s.daemon.service.played
  loop := s.daemon.loop
  last_heartbeat := s.daemon.last_heartbeat
  last_health := s.daemon.last_health
  messages_received_ := s.daemon.messages_received_
  ring_messages_received_ := s.daemon.ring_messages_received_
  loop_errors_ := s.daemon.loop_errors_
  reconnect_attempts_ := s.daemon.reconnect_attempts_
  heartbeats_sent_ := s.daemon.heartbeats_sent_
  clock := s.clock
  handled := s.handled
  heartbeats := s.heartbeats
  notified := s.notified
  health := s.health

/-- The startup sound is asked for once at most, and only with the audio enabled. -/
structure NotifiedOnce (config : ChimeConfig) (loop : RunLoop)
    (notified : List NotificationSoundType) : Prop where
  once : notified.length ≤ 1
  played : notified ≠ [] → loop.startup_notification_played = true
  silent : config.audio_enabled = false →
    notified = [] ∧ loop.startup_notification_played = true

/-- The books are right, for a daemon that began at the time `begun`. -/
structure Balanced (config : ChimeConfig) (begun : Int) (b : Books) : Prop where
  config_eq : b.config = config
  messages : b.messages_received_ = UInt64.ofNat b.handled.length
  rings : b.ring_messages_received_ = UInt64.ofNat (rung config b.handled).length
  played : b.played.length = (rung config b.handled).length + b.notified.length
  notified : NotifiedOnce config b.loop b.notified
  sent : b.heartbeats_sent_ =
    UInt64.ofNat (b.heartbeats.filter fun beat => beat.published).length
  errors : b.loop_errors_ = b.reconnect_attempts_
  noBeats : config.heartbeat_interval ≤ 0 → b.heartbeats = []
  beats : Periodic.Ran (config.heartbeat_interval * RunLoop.second) begun
    (b.heartbeats.map Heartbeat.time) b.last_heartbeat
  health : Periodic.Ran (kHealthLogIntervalSeconds * RunLoop.second) begun
    (b.health.map Health.time) b.last_health
  beat_le : b.last_heartbeat ≤ b.clock
  health_le : b.last_health ≤ b.clock

/-! ## 2. The steps -/

theorem ofNat_length_concat {α : Type} (l : List α) (x : α) :
    UInt64.ofNat (l ++ [x]).length = UInt64.ofNat l.length + 1 := by
  rw [List.length_append, List.length_singleton]
  exact UInt64.ofNat_add _ 1

theorem rung_concat_of_rings {topic : Bytes} (h : ringsBell config topic = true)
    (handled : List Bytes) : rung config (handled ++ [topic]) = rung config handled ++ [topic] := by
  rw [rung, List.filter_append, List.filter_cons_of_pos h]
  rfl

theorem rung_concat_of_not_rings {topic : Bytes} (h : ¬ ringsBell config topic = true)
    (handled : List Bytes) : rung config (handled ++ [topic]) = rung config handled := by
  rw [rung, List.filter_append, List.filter_cons_of_neg h]
  exact List.append_nil _

theorem played_onMessage {service : ChimeService} (hconfig : service.config = config)
    (topic : Bytes) (persists : Bool) :
    (service.onMessage topic persists).played =
      if ringsBell config topic then service.played ++ [(config.sound_path, config.volume_bell)]
      else service.played := by
  subst hconfig
  rw [onMessage_played]
  simp only [← topicMatchesFilter_iff, ringsBell, Bool.and_eq_true]

/-- A message is counted, and rings the bell if it matches. -/
theorem Balanced.handleMessage {s : System} (h : Balanced config begun s.books) (topic : Bytes)
    (persists : Bool) :
    Balanced config begun (s.callBack (.message topic persists)).books := by
  have hconfig : s.daemon.service.config = config := h.config_eq
  have hcount : s.daemon.ring_messages_received_ = _ := h.rings
  have hplayed : s.daemon.service.played.length = _ := h.played
  have hmatches : (s.daemon.service.config.audio_enabled &&
      s.daemon.service.ringTopicMatches topic) = ringsBell config topic := by
    rw [ringTopicMatches, hconfig]
    rfl
  refine ⟨?_, ?_, ?_, ?_, h.notified, h.sent, h.errors, h.noBeats, h.beats, h.health, h.beat_le,
    h.health_le⟩
  · exact (onMessage_config ..).trans hconfig
  · refine Eq.trans ?_ (ofNat_length_concat s.handled topic).symm
    exact congrArg (· + 1) h.messages
  · show (if s.daemon.service.config.audio_enabled && s.daemon.service.ringTopicMatches topic then
      s.daemon.ring_messages_received_ + 1 else s.daemon.ring_messages_received_) =
        UInt64.ofNat (rung config (s.handled ++ [topic])).length
    rw [hmatches, hcount]
    by_cases hrings : ringsBell config topic = true
    · rw [if_pos hrings, rung_concat_of_rings hrings, ofNat_length_concat]
      rfl
    · rw [if_neg hrings, rung_concat_of_not_rings hrings]
      rfl
  · show (s.daemon.service.onMessage topic persists).played.length =
      (rung config (s.handled ++ [topic])).length + s.notified.length
    rw [played_onMessage hconfig]
    by_cases hrings : ringsBell config topic = true
    · rw [if_pos hrings, rung_concat_of_rings hrings, List.length_append, List.length_append,
        hplayed, List.length_singleton, List.length_singleton]
      exact Nat.add_right_comm ..
    · rw [if_neg hrings, rung_concat_of_not_rings hrings]
      exact hplayed

theorem heartbeat_cases (d : Daemon) (now : Int) (published : Bool) :
    (¬ d.heartbeatDue now ∧ d.heartbeat now published = (d, none)) ∨
      (d.heartbeatDue now ∧ ∃ payload, d.heartbeat now published =
        ({ d with
            heartbeats_sent_ := if published then d.heartbeats_sent_ + 1 else d.heartbeats_sent_
            last_heartbeat := now },
          some { time := now, payload := payload, published := published })) := by
  rw [Daemon.heartbeat]
  by_cases hdue : d.heartbeatDue now
  · rw [if_pos hdue]
    exact Or.inr ⟨hdue, _, rfl⟩
  · rw [if_neg hdue]
    exact Or.inl ⟨hdue, rfl⟩

theorem checkHealth_cases (d : Daemon) (now : Int) (clock_sane : Bool) :
    (durationSeconds (now - d.last_health) < kHealthLogIntervalSeconds ∧
      d.checkHealth now clock_sane = (d, none)) ∨
    (kHealthLogIntervalSeconds ≤ durationSeconds (now - d.last_health) ∧ ∃ unsynced line,
      d.checkHealth now clock_sane =
        ({ d with clock_was_unsynced_ := unsynced, last_health := now }, some line) ∧
      line.time = now) := by
  rw [Daemon.checkHealth]
  by_cases hdue : durationSeconds (now - d.last_health) ≥ kHealthLogIntervalSeconds
  · rw [if_pos hdue]
    exact Or.inr ⟨hdue, _, _, rfl, rfl⟩
  · rw [if_neg hdue]
    exact Or.inl ⟨not_le.mp hdue, rfl⟩

/-- A pass of the loop asks for the startup sound only if it has not been played. -/
theorem pass_notifies (config : ChimeConfig) (l : RunLoop) (p : Pass) :
    ((RunLoop.pass config l p).2 = none ∧ (l.startup_notification_played = true →
      (RunLoop.pass config l p).1.startup_notification_played = true)) ∨
    (l.startup_notification_played = false ∧ (∃ type, (RunLoop.pass config l p).2 = some type) ∧
      (RunLoop.pass config l p).1.startup_notification_played = true) := by
  cases hplayed : l.startup_notification_played with
  | true =>
    rcases RunLoop.pass_of_played config hplayed p with ⟨hnone, hstays⟩
    exact Or.inl ⟨hnone, fun _ => hstays⟩
  | false =>
    rcases RunLoop.pass_cases config hplayed p with ⟨hsound, -, hnow⟩ | ⟨hsound, -, -, hnow⟩ |
      ⟨hnone, -⟩ | ⟨hnone, -⟩
    · exact Or.inr ⟨rfl, ⟨_, hsound⟩, hnow⟩
    · exact Or.inr ⟨rfl, ⟨_, hsound⟩, hnow⟩
    · exact Or.inl ⟨hnone, fun htrue => absurd htrue (by simp)⟩
    · exact Or.inl ⟨hnone, fun htrue => absurd htrue (by simp)⟩

theorem Balanced.heartbeat {s : System} (h : Balanced config begun s.books) {now : Int}
    (hnow : s.clock ≤ now) (published : Bool) :
    Balanced config begun
      { s with
        daemon := (s.daemon.heartbeat now published).1
        clock := now
        heartbeats := s.heartbeats ++ (s.daemon.heartbeat now published).2.toList : System
        }.books := by
  have hconfig : s.daemon.service.config = config := h.config_eq
  rcases heartbeat_cases s.daemon now published with ⟨-, hnone⟩ | ⟨hdue, payload, hbeat⟩
  · rw [hnone]
    simp only [Option.toList_none, List.append_nil]
    exact ⟨h.config_eq, h.messages, h.rings, h.played, h.notified, h.sent, h.errors, h.noBeats,
      h.beats, h.health, h.beat_le.trans hnow, h.health_le.trans hnow⟩
  · rw [hbeat]
    rw [Daemon.heartbeatDue, hconfig] at hdue
    rcases hdue with ⟨hpositive, hlong⟩
    have hdue : s.daemon.last_heartbeat + config.heartbeat_interval * RunLoop.second ≤ now := by
      have hle := (RunLoop.le_durationSeconds_iff hpositive).mp hlong
      omega
    refine ⟨h.config_eq, h.messages, h.rings, h.played, h.notified, ?_, h.errors, ?_, ?_, h.health,
      le_refl now, h.health_le.trans hnow⟩
    · show (if published then s.daemon.heartbeats_sent_ + 1 else s.daemon.heartbeats_sent_) =
        UInt64.ofNat ((s.heartbeats ++ [({ time := now, payload, published } : Heartbeat)]).filter
          fun beat => beat.published).length
      have hsent : s.daemon.heartbeats_sent_ = _ := h.sent
      rw [List.filter_append, hsent]
      cases published with
      | true =>
        rw [if_pos rfl, List.filter_cons_of_pos rfl, List.filter_nil, ofNat_length_concat]
        rfl
      | false =>
        rw [if_neg Bool.false_ne_true, List.filter_cons_of_neg Bool.false_ne_true, List.filter_nil,
          List.append_nil]
        rfl
    · intro hnot
      exact absurd hpositive (not_lt.mpr hnot)
    · show Periodic.Ran _ begun ((s.heartbeats ++ [({ time := now, payload, published } :
        Heartbeat)]).map Heartbeat.time) now
      rw [List.map_append]
      exact h.beats.append hdue

theorem Balanced.watchWifi {s : System} (h : Balanced config begun s.books) (now : Int)
    (wifi : Option WifiState) :
    Balanced config begun
      { s with
        daemon := (s.daemon.watchWifi now wifi).1
        notified := s.notified ++ (s.daemon.watchWifi now wifi).2.toList : System }.books := by
  have hconfig : s.daemon.service.config = config := h.config_eq
  have hplayed : s.daemon.service.played.length = _ := h.played
  have hnotified : NotifiedOnce config s.daemon.loop s.notified := h.notified
  rw [Daemon.watchWifi, hconfig]
  dsimp only
  rcases pass_notifies config s.daemon.loop
    { now, wifi, mqtt_connected := s.daemon.service.mqtt_connected } with
    ⟨hnone, hstays⟩ | ⟨hnot, ⟨type, hsound⟩, hnow⟩
  · rw [hnone]
    simp only [Option.bind_none, Option.toList_none, List.append_nil]
    refine ⟨h.config_eq, h.messages, h.rings, h.played, ?_, h.sent, h.errors, h.noBeats, h.beats,
      h.health, h.beat_le, h.health_le⟩
    refine ⟨hnotified.once, ?_, ?_⟩
    · intro hne
      exact hstays (hnotified.played hne)
    · intro haudio
      rcases hnotified.silent haudio with ⟨hnil, htrue⟩
      exact ⟨hnil, hstays htrue⟩
  · have hnil : s.notified = [] := by
      by_contra hne
      exact absurd (hnotified.played hne) (by rw [hnot]; decide)
    have haudio : config.audio_enabled = true := by
      by_contra hoff
      exact absurd (hnotified.silent (Bool.not_eq_true _ ▸ hoff)).2 (by rw [hnot]; decide)
    have hone : ((some type).bind (playNotification config)).toList.length = 1 := by
      cases type <;> simp [playNotification, haudio]
    rw [hsound]
    refine ⟨h.config_eq, h.messages, h.rings, ?_, ?_, h.sent, h.errors, h.noBeats, h.beats,
      h.health, h.beat_le, h.health_le⟩
    · show (s.daemon.service.played ++ ((some type).bind (playNotification config)).toList).length =
        (rung config s.handled).length + (s.notified ++ [type]).length
      rw [List.length_append, hone, hplayed, List.length_append]
      exact Nat.add_assoc ..
    · refine ⟨?_, fun _ => hnow, ?_⟩
      · show (s.notified ++ [type]).length ≤ 1
        rw [hnil]
        exact le_refl 1
      · intro hoff
        exact absurd haudio (by rw [hoff]; decide)

theorem Balanced.checkHealth {s : System} (h : Balanced config begun s.books) (clock_sane : Bool) :
    Balanced config begun
      { s with
        daemon := (s.daemon.checkHealth s.clock clock_sane).1
        health := s.health ++ (s.daemon.checkHealth s.clock clock_sane).2.toList : System
        }.books := by
  rcases checkHealth_cases s.daemon s.clock clock_sane with ⟨-, hnone⟩ |
    ⟨hdue, unsynced, line, hline, htime⟩
  · rw [hnone]
    simp only [Option.toList_none, List.append_nil]
    exact h
  · rw [hline]
    refine ⟨h.config_eq, h.messages, h.rings, h.played, h.notified, h.sent, h.errors, h.noBeats,
      h.beats, ?_, h.beat_le, le_refl s.clock⟩
    show Periodic.Ran _ begun ((s.health ++ [line]).map Health.time) s.clock
    rw [List.map_append, List.map_singleton, htime]
    apply Periodic.Ran.append h.health
    have hle := (RunLoop.le_durationSeconds_iff (by decide)).mp hdue
    show s.daemon.last_health + _ ≤ s.clock
    omega

theorem Balanced.afterTimers {s : System} (h : Balanced config begun s.books) {now : Int}
    (hnow : s.clock ≤ now) (wifi : Option WifiState) (published clock_sane : Bool) :
    Balanced config begun (s.afterTimers now wifi published clock_sane).books :=
  ((h.heartbeat hnow published).watchWifi now wifi).checkHealth clock_sane

theorem Balanced.callBack {s : System} (h : Balanced config begun s.books) (callback : Callback) :
    Balanced config begun (s.callBack callback).books := by
  cases callback with
  | message topic persists => exact h.handleMessage topic persists
  | connect rc subscribe_rcs =>
    have hkeeps : (s.daemon.service.onConnect rc).config = s.daemon.service.config ∧
        (s.daemon.service.onConnect rc).played = s.daemon.service.played := by
      rw [onConnect]
      split
      · exact ⟨rfl, rfl⟩
      · exact ⟨rfl, rfl⟩
    refine ⟨hkeeps.1.trans h.config_eq, h.messages, h.rings, ?_, h.notified, h.sent, h.errors,
      h.noBeats, h.beats, h.health, h.beat_le, h.health_le⟩
    exact (congrArg List.length hkeeps.2).trans h.played
  | disconnect => exact h

theorem Balanced.callBacks {s : System} (h : Balanced config begun s.books)
    (callbacks : List Callback) :
    Balanced config begun (callbacks.foldl System.callBack s).books := by
  induction callbacks generalizing s with
  | nil => exact h
  | cons callback callbacks ih => exact ih (h.callBack callback)

theorem Balanced.step {s u : System} {a : Action} (h : Balanced config begun s.books)
    (hstep : System.step s a = some u) : Balanced config begun u.books := by
  cases moves_of_step hstep with
  | looped => exact h.callBacks _
  | reconnect =>
    exact ⟨h.config_eq, h.messages, h.rings, h.played, h.notified, h.sent,
      congrArg (· + 1) h.errors, h.noBeats, h.beats, h.health, h.beat_le, h.health_le⟩
  | timers hnow => exact h.afterTimers hnow ..
  | _ => exact h

theorem balanced_start {file : Option Bytes} {replies : MosquittoReplies}
    {wifi : Option WifiState} {clock_sane : Bool} {last_heartbeat startup_begin : Int} {s : System}
    (h : start config file replies wifi clock_sane last_heartbeat startup_begin = .ok s)
    (hle : last_heartbeat ≤ startup_begin) : Balanced config last_heartbeat s.books := by
  rw [start] at h
  cases hconnect : Client.connect replies config.host config.port (connectOptions config) with
  | error e =>
    rw [hconnect] at h
    cases h
  | ok handle =>
    rw [hconnect] at h
    obtain rfl := Except.ok.inj h
    refine ⟨rfl, rfl, rfl, rfl, ⟨Nat.zero_le 1, fun hne => absurd rfl hne, ?_⟩, rfl, rfl,
      fun _ => rfl, Periodic.ran_nil, Periodic.ran_nil, hle, hle⟩
    intro haudio
    refine ⟨rfl, ?_⟩
    show (RunLoop.start config wifi last_heartbeat startup_begin).startup_notification_played = true
    rw [RunLoop.start, haudio]
    rfl

/-! ## 3. One pass of the timers -/

theorem last_heartbeat_of_pass (s : System) (now : Int) (wifi : Option WifiState)
    (published clock_sane : Bool) :
    (s.afterTimers now wifi published clock_sane).daemon.last_heartbeat =
      (s.daemon.heartbeat now published).1.last_heartbeat := by
  obtain ⟨_, _, hchecked⟩ := checkHealth_eq
    ((s.daemon.heartbeat now published).1.watchWifi now wifi).1 now clock_sane
  simp only [afterTimers]
  rw [hchecked]
  rfl

theorem last_health_of_pass (s : System) (now : Int) (wifi : Option WifiState)
    (published clock_sane : Bool) :
    (s.afterTimers now wifi published clock_sane).daemon.last_health =
      (s.daemon.checkHealth now clock_sane).1.last_health := by
  obtain ⟨_, _, hbeat⟩ := heartbeat_eq s.daemon now published
  simp only [afterTimers]
  rw [hbeat, Daemon.checkHealth, Daemon.checkHealth]
  show Daemon.last_health (Prod.fst (if durationSeconds (now - s.daemon.last_health) ≥
    kHealthLogIntervalSeconds then _ else _)) = _
  split
  · rfl
  · rfl

/-- A pass leaves nothing periodic overdue. -/
theorem on_time_of_pass {s : System} (hconfig : s.daemon.service.config = config) (now : Int)
    (wifi : Option WifiState) (published clock_sane : Bool) :
    let u := s.afterTimers now wifi published clock_sane
    (0 < config.heartbeat_interval →
      now < u.daemon.last_heartbeat + config.heartbeat_interval * RunLoop.second) ∧
    now < u.daemon.last_health + kHealthLogIntervalSeconds * RunLoop.second := by
  have hsecond : (0 : Int) < RunLoop.second := by decide
  have hsixty : (0 : Int) < kHealthLogIntervalSeconds := by decide
  intro u
  rw [last_heartbeat_of_pass, last_health_of_pass]
  constructor
  · intro hpositive
    rcases heartbeat_cases s.daemon now published with ⟨hnot, hnone⟩ | ⟨-, payload, hbeat⟩
    · rw [hnone]
      rw [Daemon.heartbeatDue, hconfig] at hnot
      have hshort : ¬ config.heartbeat_interval ≤ durationSeconds (now - s.daemon.last_heartbeat) :=
        fun hle => hnot ⟨hpositive, hle⟩
      rw [RunLoop.le_durationSeconds_iff hpositive] at hshort
      dsimp only
      omega
    · rw [hbeat]
      have hperiod := mul_pos hpositive hsecond
      dsimp only
      omega
  · rcases checkHealth_cases s.daemon now clock_sane with ⟨hshort, hnone⟩ |
      ⟨-, unsynced, line, hline, -⟩
    · rw [hnone]
      have hnot := not_le.mpr hshort
      rw [RunLoop.le_durationSeconds_iff hsixty] at hnot
      dsimp only
      omega
    · rw [hline]
      have hperiod := mul_pos hsixty hsecond
      dsimp only
      omega

/-! ## 4. The results -/

section Results
variable {file : Option Bytes} {replies : MosquittoReplies} {wifi : Option WifiState}
  {clock_sane : Bool} {last_heartbeat startup_begin : Int} {s u : System}

theorem balanced_of_reaches
    (hstart : start config file replies wifi clock_sane last_heartbeat startup_begin = .ok s)
    (hle : last_heartbeat ≤ startup_begin)
    (h : Runs.Reaches step (fun _ _ => True) s u) :
    Balanced config last_heartbeat u.books :=
  h.invariant (I := fun u => Balanced config last_heartbeat u.books) (balanced_start hstart hle)
    fun _ _ _ ih _ hstep => ih.step hstep

/-- In every state of every run, the counters that the health log prints are right: the messages
handled, those of them that ring the bell, the heartbeats that were published, and as many errors
of the loop as attempts to reconnect.  The audio player was called once for each message that
rings, and besides that once at most. -/
theorem daemon_accounts
    (hstart : start config file replies wifi clock_sane last_heartbeat startup_begin = .ok s)
    (hle : last_heartbeat ≤ startup_begin)
    (h : Runs.Reaches step (fun _ _ => True) s u) :
    u.daemon.messages_received_ = UInt64.ofNat u.handled.length ∧
    u.daemon.ring_messages_received_ = UInt64.ofNat (rung config u.handled).length ∧
    u.daemon.heartbeats_sent_ =
      UInt64.ofNat (u.heartbeats.filter fun beat => beat.published).length ∧
    u.daemon.loop_errors_ = u.daemon.reconnect_attempts_ ∧
    u.daemon.service.played.length = (rung config u.handled).length + u.notified.length ∧
    u.notified.length ≤ 1 ∧ (config.audio_enabled = false → u.daemon.service.played = []) := by
  have hbalanced := balanced_of_reaches hstart hle h
  refine ⟨hbalanced.messages, hbalanced.rings, hbalanced.sent, hbalanced.errors,
    hbalanced.played, hbalanced.notified.once, ?_⟩
  intro haudio
  have hrung : rung config u.handled = [] := by
    apply List.filter_eq_nil_iff.mpr
    intro topic _
    rw [ringsBell, haudio]
    exact Bool.false_ne_true
  have hplayed : u.daemon.service.played.length = (rung config u.handled).length +
      u.notified.length := hbalanced.played
  have hnotified : u.notified = [] := (hbalanced.notified.silent haudio).1
  rw [hrung, hnotified] at hplayed
  exact List.length_eq_zero_iff.mp hplayed

/-- In every run, two heartbeats are at least the configured interval apart, two health logs at
least a minute, and there are no more of them than that allows; with an interval of zero there
is no heartbeat.  No pass of the loop leaves one overdue.  A heartbeat says that the daemon is
alive exactly if it has read the broker's acceptance on the connection there is, or was not told
of the end of one that was accepted. -/
theorem daemon_periodic
    (hstart : start config file replies wifi clock_sane last_heartbeat startup_begin = .ok s)
    (hle : last_heartbeat ≤ startup_begin)
    (h : Runs.Reaches step (fun _ _ => True) s u) :
    (last_heartbeat :: u.heartbeats.map Heartbeat.time).IsChain
      (fun a b => a + config.heartbeat_interval * RunLoop.second ≤ b) ∧
    (last_heartbeat :: u.health.map Health.time).IsChain
      (fun a b => a + kHealthLogIntervalSeconds * RunLoop.second ≤ b) ∧
    u.heartbeats.length * (config.heartbeat_interval * RunLoop.second) ≤
      u.clock - last_heartbeat ∧
    u.health.length * (kHealthLogIntervalSeconds * RunLoop.second) ≤ u.clock - last_heartbeat ∧
    (config.heartbeat_interval ≤ 0 → u.heartbeats = []) ∧
    ∀ now wifi published clock_sane v,
      step u (.timers now wifi published clock_sane) = some v →
      (0 < config.heartbeat_interval →
        now < v.daemon.last_heartbeat + config.heartbeat_interval * RunLoop.second) ∧
      now < v.daemon.last_health + kHealthLogIntervalSeconds * RunLoop.second ∧
      ∀ beat, v.heartbeats = u.heartbeats ++ [beat] →
        (beat.payload = bytes "alive" ↔ u.asked ≠ none ∨ u.missed = true) := by
  have hbalanced := balanced_of_reaches hstart hle h
  have hbeats := hbalanced.beats.length_mul_le
  have hhealth := hbalanced.health.length_mul_le
  have hbeat_le := hbalanced.beat_le
  have hhealth_le := hbalanced.health_le
  rw [List.length_map] at hbeats hhealth
  have hconnected := (invariant_of_reaches hstart h).connected_iff
  refine ⟨hbalanced.beats.spaced, hbalanced.health.spaced,
    hbeats.trans (Int.sub_le_sub_right hbeat_le _),
    hhealth.trans (Int.sub_le_sub_right hhealth_le _), hbalanced.noBeats, ?_⟩
  intro now wifi published clock_sane v hstep
  cases moves_of_step hstep with
  | timers hnow =>
    rcases on_time_of_pass hbalanced.config_eq now wifi published clock_sane with ⟨hbeat, hlog⟩
    refine ⟨hbeat, hlog, ?_⟩
    intro beat hnew
    rw [← hconnected]
    have hlast : (u.daemon.heartbeat now published).2.toList = [beat] :=
      List.append_cancel_left hnew
    rw [Daemon.heartbeat] at hlast
    split at hlast
    · obtain rfl := List.singleton_inj.mp hlast
      dsimp only
      split
      · rename_i hflag
        exact ⟨fun _ => hflag, fun _ => rfl⟩
      · rename_i hflag
        exact ⟨fun heq => absurd heq (by decide), fun htrue => absurd htrue hflag⟩
    · cases hlast

/-- A run with one pass of the timers, a minute after the start. -/
def firstMinute : List Action :=
  subscribing ++ [.proceed, .timers (60 * RunLoop.second) none true true]

theorem daemon_accounts_firstMinute :
    ∃ u, Runs.exec step sampleStart firstMinute = some u ∧
      u.daemon.heartbeats_sent_ =
        UInt64.ofNat (u.heartbeats.filter fun beat => beat.published).length := by
  have hrun : (Runs.exec step sampleStart firstMinute).isSome = true := rfl
  obtain ⟨u, hexec⟩ := Option.isSome_iff_exists.mp hrun
  exact ⟨u, hexec, (daemon_accounts start_sample (le_refl 0)
    (Runs.reaches_of_exec firstMinute (fun _ _ _ => trivial) hexec)).2.2.1⟩

theorem daemon_periodic_firstMinute :
    ∃ u, Runs.exec step sampleStart firstMinute = some u ∧
      (0 :: u.heartbeats.map Heartbeat.time).IsChain
        (fun a b => a + twoTopics.heartbeat_interval * RunLoop.second ≤ b) := by
  have hrun : (Runs.exec step sampleStart firstMinute).isSome = true := rfl
  obtain ⟨u, hexec⟩ := Option.isSome_iff_exists.mp hrun
  exact ⟨u, hexec, (daemon_periodic start_sample (le_refl 0)
    (Runs.reaches_of_exec firstMinute (fun _ _ _ => trivial) hexec)).1⟩

end Results

end VirtualChime.System
