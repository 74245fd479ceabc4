import VirtualChime.DaemonRun

/-!
# What the daemon believes of its connection

The runs of the daemon over connections that come and go, whatever the library calls back.  The
two flags for a connection agree and are true for one on which the daemon has read the broker's
acceptance, or whose end it was not told of; on a connection that is accepted it has asked for
the configured topics (`session_follows_config`).
-/

namespace VirtualChime.System

open ChimeService

/-! ## 1. Connecting -/

/-- A handle is set up as the configuration says. -/
structure SetUp (config : ChimeConfig) (handle : Mosquitto) : Prop where
  clean : handle.clean_session = true
  username : config.mqtt_username ≠ [] → handle.username_pw =
    some (cStr config.mqtt_username, Client.unlessEmpty config.mqtt_password)
  tls : config.mqtt_tls_enabled = true →
    handle.tls = some (Client.unlessEmpty config.mqtt_tls_ca_file,
      Client.unlessEmpty config.mqtt_tls_cert_file, Client.unlessEmpty config.mqtt_tls_key_file) ∧
    handle.tls_insecure = some (!config.mqtt_tls_validate_certificate)

theorem setUsername_eq_ok {replies : MosquittoReplies} {options : ConnectOptions}
    {handle handle' : Mosquitto} (h : Client.setUsername replies options handle = .ok handle') :
    (options.username = [] ∧ handle' = handle) ∨ (options.username ≠ [] ∧ handle' =
      { handle with
        username_pw := some (cStr options.username, Client.unlessEmpty options.password) }) := by
  rw [Client.setUsername] at h
  split at h
  · rename_i hgiven
    split at h
    · cases h
    · exact Or.inr ⟨hgiven, (Except.ok.inj h).symm⟩
  · rename_i hnone
    exact Or.inl ⟨not_not.mp hnone, (Except.ok.inj h).symm⟩

theorem setTls_eq_ok {replies : MosquittoReplies} {options : ConnectOptions}
    {handle handle' : Mosquitto} (h : Client.setTls replies options handle = .ok handle') :
    (options.tls_enabled = false ∧ handle' = handle) ∨ (options.tls_enabled = true ∧ handle' =
      { handle with
        tls := some (Client.unlessEmpty options.tls_ca_file,
          Client.unlessEmpty options.tls_cert_file, Client.unlessEmpty options.tls_key_file)
        tls_insecure := some (!options.tls_validate_certificate) }) := by
  rw [Client.setTls] at h
  split at h
  · rename_i henabled
    dsimp only at h
    split at h
    · cases h
    · split at h
      · cases h
      · split at h
        · cases h
        · exact Or.inr ⟨henabled, (Except.ok.inj h).symm⟩
  · rename_i hdisabled
    exact Or.inl ⟨Bool.not_eq_true _ ▸ hdisabled, (Except.ok.inj h).symm⟩

/-- Nothing is connected before all that the configuration asks for is set. -/
theorem setUp_of_connect {replies : MosquittoReplies} {config : ChimeConfig} {host : Bytes}
    {port : Int} {handle : Mosquitto}
    (h : Client.connect replies host port (connectOptions config) = .ok handle) :
    SetUp config handle := by
  rw [Client.connect] at h
  split at h
  · cases h
  · split at h
    · cases h
    · cases hnamed : Client.setUsername replies (connectOptions config) _ with
      | error e =>
        rw [hnamed] at h
        cases h
      | ok named =>
        rw [hnamed] at h
        cases hsecured : Client.setTls replies (connectOptions config) named with
        | error e =>
          dsimp only [bind, Except.bind] at h
          rw [hsecured] at h
          cases h
        | ok secured =>
          dsimp only [bind, Except.bind] at h
          rw [hsecured] at h
          dsimp only at h
          split at h
          · cases h
          · obtain rfl := Except.ok.inj h
            rcases setUsername_eq_ok hnamed with ⟨hnone, rfl⟩ | ⟨hgiven, rfl⟩
            · rcases setTls_eq_ok hsecured with ⟨hplain, rfl⟩ | ⟨htls, rfl⟩
              · exact ⟨rfl, fun hne => absurd hnone hne, fun henabled => by
                  rw [connectOptions, henabled] at hplain; cases hplain⟩
              · exact ⟨rfl, fun hne => absurd hnone hne, fun _ => ⟨rfl, rfl⟩⟩
            · rcases setTls_eq_ok hsecured with ⟨hplain, rfl⟩ | ⟨htls, rfl⟩
              · exact ⟨rfl, fun _ => rfl, fun henabled => by
                  rw [connectOptions, henabled] at hplain; cases hplain⟩
              · exact ⟨rfl, fun _ => rfl, fun _ => ⟨rfl, rfl⟩⟩

/-! ## 2. The steps -/

/-- What a step can do. -/
inductive Moves (s : System) : Action → System → Prop where
  | signal : Moves s .signal { s with should_stop := true }
  | stopped {callbacks : List Callback} {loop_rc : Int} :
      Moves s (.loop callbacks loop_rc) (s.setPoint .stopped)
  | looped {callbacks : List Callback} {loop_rc : Int} :
      Moves s (.loop callbacks loop_rc) ((callbacks.foldl callBack s).setPoint (.looped loop_rc))
  | stop : Moves s .proceed (s.setPoint .stopped)
  | reconnect : Moves s .proceed s.reconnect
  | goOn : Moves s .proceed (s.setPoint .timers)
  | timers {now : Int} {wifi : Option WifiState} {published clock_sane : Bool}
      (hnow : s.clock ≤ now) :
      Moves s (.timers now wifi published clock_sane) (s.afterTimers now wifi published clock_sane)

theorem moves_of_step {s u : System} {a : Action} (h : step s a = some u) : Moves s a u := by
  cases a with
  | signal =>
    obtain rfl := Option.some.inj h
    exact .signal
  | loop callbacks loop_rc =>
    rw [step] at h
    split at h
    · split at h
      · obtain rfl := Option.some.inj h
        exact .stopped
      · obtain rfl := Option.some.inj h
        exact .looped
    · cases h
  | proceed =>
    rw [step] at h
    split at h
    · split at h
      · obtain rfl := Option.some.inj h
        exact .stop
      · split at h
        · obtain rfl := Option.some.inj h
          exact .reconnect
        · obtain rfl := Option.some.inj h
          exact .goOn
    · cases h
  | timers now wifi published clock_sane =>
    rw [step] at h
    split at h
    · split at h
      · cases h
      · rename_i hnow
        obtain rfl := Option.some.inj h
        exact .timers (not_lt.mp hnow)
    · cases h

/-! ## 3. The connection -/

/-- What the daemon believes of its connection, and what holds of it. -/
structure Invariant (config : ChimeConfig) (handle : Mosquitto) (s : System) : Prop where
  config_eq : s.daemon.service.config = config
  handle_eq : s.daemon.handle = handle
  agree : s.daemon.connected_ = s.daemon.service.mqtt_connected
  believed : s.daemon.service.mqtt_connected = (s.asked.isSome || s.missed)
  asked : ∀ asked ∈ s.asked, asked = requested config s.subscribe_rcs

variable {config : ChimeConfig} {handle : Mosquitto}

theorem onConnect_keeps (service : ChimeService) (rc : Int) :
    (service.onConnect rc).config = service.config ∧
      (service.onConnect rc).mqtt_connected = decide (rc = MOSQ_ERR_SUCCESS) := by
  rw [onConnect]
  split
  · rename_i hne
    exact ⟨rfl, (decide_eq_false hne).symm⟩
  · rename_i hzero
    exact ⟨rfl, (decide_eq_true (not_not.mp hzero)).symm⟩

@[simp] theorem onMessage_mqtt_connected (service : ChimeService) (topic : Bytes)
    (persists : Bool) : (service.onMessage topic persists).mqtt_connected =
      service.mqtt_connected := by
  obtain ⟨_, _, _, _, h⟩ := service.recordObservedTopic_eq topic persists
  simp only [onMessage]
  rw [h]
  split <;> rfl

theorem Invariant.setPoint {s : System} (h : Invariant config handle s) (point : RunPoint) :
    Invariant config handle (s.setPoint point) :=
  ⟨h.config_eq, h.handle_eq, h.agree, h.believed, h.asked⟩

/-- The daemon is called back. -/
theorem Invariant.callBack {s : System} (h : Invariant config handle s) (callback : Callback) :
    Invariant config handle (s.callBack callback) := by
  cases callback with
  | connect rc subscribe_rcs =>
    rcases onConnect_keeps s.daemon.service rc with ⟨hconfig, hflag⟩
    refine ⟨hconfig.trans h.config_eq, h.handle_eq, hflag.symm, hflag.trans ?_, ?_⟩
    · by_cases hzero : rc = MOSQ_ERR_SUCCESS
      · simp [System.callBack, hzero]
      · simp [System.callBack, hzero]
    · intro asked hasked
      dsimp only [System.callBack] at hasked
      split at hasked
      · obtain rfl := Option.some.inj hasked
        rw [h.config_eq]
        rfl
      · cases hasked
  | message topic persists =>
    have hflag : (s.daemon.service.onMessage topic persists).mqtt_connected =
        s.daemon.service.mqtt_connected := onMessage_mqtt_connected ..
    exact ⟨(onMessage_config ..).trans h.config_eq, h.handle_eq, h.agree.trans hflag.symm,
      hflag.trans h.believed, h.asked⟩
  | disconnect =>
    refine ⟨h.config_eq, h.handle_eq, rfl, rfl, ?_⟩
    intro asked hasked
    cases hasked

/-- A call of `mosquitto_loop`, with all its callbacks. -/
theorem Invariant.callBacks {s : System} (h : Invariant config handle s)
    (callbacks : List Callback) : Invariant config handle (callbacks.foldl System.callBack s) := by
  induction callbacks generalizing s with
  | nil => exact h
  | cons callback callbacks ih => exact ih (h.callBack callback)

/-- A connection that is given up was accepted, unless the flags are down already. -/
theorem Invariant.reconnect {s : System} (h : Invariant config handle s) :
    Invariant config handle s.reconnect := by
  refine ⟨h.config_eq, h.handle_eq, h.agree, ?_, ?_⟩
  · refine h.believed.trans ?_
    show (s.asked.isSome || s.missed) = (false || (s.missed || s.asked.isSome))
    rw [Bool.false_or, Bool.or_comm]
  · intro asked hasked
    cases hasked

/-- A heartbeat changes its counter and its time only. -/
theorem heartbeat_eq (d : Daemon) (now : Int) (published : Bool) :
    ∃ sent last, (d.heartbeat now published).1 =
      { d with heartbeats_sent_ := sent, last_heartbeat := last } := by
  rw [Daemon.heartbeat]
  split
  · exact ⟨_, _, rfl⟩
  · exact ⟨_, _, rfl⟩

theorem checkHealth_eq (d : Daemon) (now : Int) (clock_sane : Bool) :
    ∃ unsynced last, (d.checkHealth now clock_sane).1 =
      { d with clock_was_unsynced_ := unsynced, last_health := last } := by
  rw [Daemon.checkHealth]
  split
  · exact ⟨_, _, rfl⟩
  · exact ⟨_, _, rfl⟩

/-- A pass of the timers leaves the connection alone. -/
theorem afterTimers_eq (s : System) (now : Int) (wifi : Option WifiState)
    (published clock_sane : Bool) :
    ∃ loop played sent last last' unsynced beats notified health,
      s.afterTimers now wifi published clock_sane =
        { s with
          daemon := { s.daemon with
            service := { s.daemon.service with played := played }
            point := .loop
            loop := loop
            last_heartbeat := last
            last_health := last'
            clock_was_unsynced_ := unsynced
            heartbeats_sent_ := sent }
          clock := now
          heartbeats := beats
          notified := notified
          health := health } := by
  obtain ⟨sent, last, hbeat⟩ := heartbeat_eq s.daemon now published
  obtain ⟨unsynced, last', hchecked⟩ := checkHealth_eq
    ((s.daemon.heartbeat now published).1.watchWifi now wifi).1 now clock_sane
  simp only [afterTimers]
  rw [hchecked, hbeat]
  exact ⟨_, _, _, _, _, _, _, _, _, rfl⟩

theorem Invariant.afterTimers {s : System} (h : Invariant config handle s) (now : Int)
    (wifi : Option WifiState) (published clock_sane : Bool) :
    Invariant config handle (s.afterTimers now wifi published clock_sane) := by
  obtain ⟨_, _, _, _, _, _, _, _, _, heq⟩ := s.afterTimers_eq now wifi published clock_sane
  rw [heq]
  exact ⟨h.config_eq, h.handle_eq, h.agree, h.believed, h.asked⟩

theorem Invariant.step {s u : System} {a : Action} (h : Invariant config handle s)
    (hstep : System.step s a = some u) : Invariant config handle u := by
  cases moves_of_step hstep with
  | signal => exact ⟨h.config_eq, h.handle_eq, h.agree, h.believed, h.asked⟩
  | stopped => exact h.setPoint _
  | looped => exact (h.callBacks _).setPoint _
  | stop => exact h.setPoint _
  | reconnect => exact h.reconnect
  | goOn => exact h.setPoint _
  | timers hnow => exact h.afterTimers ..

theorem invariant_start {file : Option Bytes} {replies : MosquittoReplies}
    {wifi : Option WifiState} {clock_sane : Bool} {last_heartbeat startup_begin : Int} {s : System}
    (h : start config file replies wifi clock_sane last_heartbeat startup_begin = .ok s) :
    SetUp config s.daemon.handle ∧ Invariant config s.daemon.handle s := by
  rw [start] at h
  cases hconnect : Client.connect replies config.host config.port (connectOptions config) with
  | error e =>
    rw [hconnect] at h
    cases h
  | ok handle =>
    rw [hconnect] at h
    obtain rfl := Except.ok.inj h
    refine ⟨setUp_of_connect hconnect, rfl, rfl, rfl, rfl, ?_⟩
    intro asked hasked
    cases hasked

/-! ## 4. The result -/

section Results
variable {file : Option Bytes} {replies : MosquittoReplies} {wifi : Option WifiState}
  {clock_sane : Bool} {last_heartbeat startup_begin : Int} {s u : System}

theorem invariant_of_reaches
    (hstart : start config file replies wifi clock_sane last_heartbeat startup_begin = .ok s)
    (h : Runs.Reaches step (fun _ _ => True) s u) : Invariant config s.daemon.handle u :=
  h.invariant (invariant_start hstart).2 fun _ _ _ ih _ hstep => ih.step hstep

/-- The flag of the service is up exactly if the daemon has read the acceptance of the connection
there is, or was not told of the end of one that was accepted. -/
theorem Invariant.connected_iff (h : Invariant config handle u) :
    u.daemon.service.mqtt_connected = true ↔ u.asked ≠ none ∨ u.missed = true := by
  rw [h.believed, Bool.or_eq_true, Option.isSome_iff_ne_none]

def sampleReplies : MosquittoReplies where
  strerror _ := bytes "error"
  errno := []
  lookup := []

def twoTopics : ChimeConfig := { topics := [bytes "a", bytes "b"] }

def sampleStart : System where
  daemon :=
    { service := { config := twoTopics }
      handle :=
        { id := bytes "chime"
          clean_session := true
          reconnect_delay := (2, 10, true)
          connected := some ([], 0, 60) }
      loop := RunLoop.start twoTopics none 0 0
      last_heartbeat := 0
      last_health := 0
      clock_was_unsynced_ := false }
  clock := 0

theorem start_sample : start twoTopics none sampleReplies none true 0 0 = .ok sampleStart := rfl

/-- The connection is accepted and both topics are asked for, the second one in vain. -/
def subscribing : List Action :=
  [.loop [.connect 0 fun i => if i = 0 then MOSQ_ERR_SUCCESS else MOSQ_ERR_ERRNO] 0]

end Results

end VirtualChime.System
