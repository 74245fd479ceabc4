import VirtualChime.ChimeService
import VirtualChime.StartupNotification
import VirtualChime.Library.Periodic
import VirtualChime.Library.Runs

/-!
# The run of the daemon

`ChimeService::Run` with the MQTT client under it: the connection is set up, then the loop lets
the client call back, opens a new connection after an error, sends heartbeats, watches the Wi-Fi
and logs its health.  What the library calls back and returns is any input of a step.
-/

namespace VirtualChime

/-! ## 1. The MQTT client -/

structure ConnectOptions where
  client_id : Bytes
  username : Bytes
  password : Bytes
  tls_enabled : Bool := false
  tls_validate_certificate : Bool := true
  tls_ca_file : Bytes
  tls_cert_file : Bytes
  tls_key_file : Bytes
  keepalive_seconds : Int := 60
  reconnect_min_seconds : Int := 2
  reconnect_max_seconds : Int := 10
  reconnect_exponential_backoff : Bool := true
deriving DecidableEq, Repr

/-- What a client handle has been told, in the order of the calls. -/
structure Mosquitto where
  id : Bytes
  clean_session : Bool
  reconnect_delay : Int × Int × Bool
  username_pw : Option (Bytes × Option Bytes) := none
  -- the CA, certificate and key files
  tls : Option (Option Bytes × Option Bytes × Option Bytes) := none
  tls_insecure : Option Bool := none
  -- host, port and keepalive
  connected : Option (Bytes × Int × Int) := none
deriving DecidableEq, Repr

/-- What the library answers to the calls of `Connect`. -/
structure MosquittoReplies where
  lib_init : Int := 0
  created : Bool := true
  username_pw_set : Int := 0
  tls_set : Int := 0
  tls_insecure_set : Int := 0
  connect : Int := 0
  strerror : Int → Bytes
  -- `strerror(errno)` after `mosquitto_connect`
  errno : Bytes
  -- what `DescribeHostLookup` finds
  lookup : Bytes

def MOSQ_ERR_SUCCESS : Int := 0
def MOSQ_ERR_ERRNO : Int := 14
def MOSQ_ERR_EAI : Int := 15

namespace Client

/-- A text for the library, or a null pointer if it is empty. -/
def unlessEmpty (s : Bytes) : Option Bytes := if s = [] then none else some (cStr s)

/-- The block of `Connect` under `if (!options.username.empty())`. -/
def setUsername (replies : MosquittoReplies) (options : ConnectOptions) (handle : Mosquitto) :
    Except Bytes Mosquitto :=
  if options.username ≠ [] then
    if replies.username_pw_set ≠ MOSQ_ERR_SUCCESS then
      .error (bytes "mqtt auth setup failed: " ++ replies.strerror replies.username_pw_set)
    else
      .ok { handle with
        username_pw := some (cStr options.username, unlessEmpty options.password) }
  else .ok handle

/-- The block of `Connect` under `if (options.tls_enabled)`. -/
def setTls (replies : MosquittoReplies) (options : ConnectOptions) (handle : Mosquitto) :
    Except Bytes Mosquitto :=
  if options.tls_enabled then
    let ca_file := unlessEmpty options.tls_ca_file
    let cert_file := unlessEmpty options.tls_cert_file
    let key_file := unlessEmpty options.tls_key_file
    if cert_file.isNone ≠ key_file.isNone then
      .error (bytes "mqtt tls setup failed: tls_cert_file and tls_key_file must both be set")
    else if replies.tls_set ≠ MOSQ_ERR_SUCCESS then
      .error (bytes "mqtt tls setup failed: " ++ replies.strerror replies.tls_set)
    else if replies.tls_insecure_set ≠ MOSQ_ERR_SUCCESS then
      .error (bytes "mqtt tls verify setup failed: " ++ replies.strerror replies.tls_insecure_set)
    else
      .ok { handle with
        tls := some (ca_file, cert_file, key_file)
        tls_insecure := some (!options.tls_validate_certificate) }
  else .ok handle

def connectError (replies : MosquittoReplies) : Bytes :=
  bytes "connect failed: " ++ replies.strerror replies.connect ++
    (if replies.connect = MOSQ_ERR_ERRNO then bytes " (" ++ replies.errno ++ bytes ")" else []) ++
    (if replies.connect = MOSQ_ERR_EAI ∨
        replies.strerror replies.connect = bytes "Lookup error." then
      bytes " [" ++ replies.lookup ++ bytes "]"
    else [])

/-- `Connect`: the handle it leaves, or the error. -/
def connect (replies : MosquittoReplies) (host : Bytes) (port : Int) (options : ConnectOptions) :
    Except Bytes Mosquitto :=
  if replies.lib_init ≠ MOSQ_ERR_SUCCESS then
    .error (bytes "mosquitto_lib_init failed: " ++ replies.strerror replies.lib_init)
  else if !replies.created then .error (bytes "failed to create client")
  else do
    let handle ← setUsername replies options
      { id := cStr options.client_id
        clean_session := true
        reconnect_delay := (options.reconnect_min_seconds, options.reconnect_max_seconds,
          options.reconnect_exponential_backoff) }
    let handle ← setTls replies options handle
    if replies.connect ≠ MOSQ_ERR_SUCCESS then .error (connectError replies)
    else .ok { handle with connected := some (cStr host, port, options.keepalive_seconds) }

end Client

namespace ChimeService

/-- The options that `Run` connects with. -/
def connectOptions (config : ChimeConfig) : ConnectOptions where
  client_id := config.client_id
  username := config.mqtt_username
  password := config.mqtt_password
  tls_enabled := config.mqtt_tls_enabled
  tls_validate_certificate := config.mqtt_tls_validate_certificate
  tls_ca_file := config.mqtt_tls_ca_file
  tls_cert_file := config.mqtt_tls_cert_file
  tls_key_file := config.mqtt_tls_key_file

def onDisconnect (s : ChimeService) : ChimeService := { s with mqtt_connected := false }

/-- The topics, with their quality of service, for which `mosquitto_subscribe` succeeds, given what
it returns in each call. -/
def requested (config : ChimeConfig) (subscribe_rcs : Nat → Int) : List (Bytes × Int) :=
  (config.topics.zipIdx.filter fun call => subscribe_rcs call.2 = MOSQ_ERR_SUCCESS).map
    fun call => (cStr call.1, config.mqtt_subscribe_qos)

end ChimeService

/-! ## 2. The daemon -/

def kHealthLogIntervalSeconds : Int := 60

inductive RunPoint where
  -- before the condition of the loop
  | loop
  -- after `Loop`, with its result
  | looped (loop_rc : Int)
  | timers
  | stopped
deriving DecidableEq, Repr

structure Daemon where
  service : ChimeService
  -- the client
  handle : Mosquitto
  connected_ : Bool := false
  -- `Run`
  point : RunPoint := .loop
  loop : RunLoop
  last_heartbeat : Int
  last_health : Int
  clock_was_unsynced_ : Bool
  messages_received_ : UInt64 := 0
  ring_messages_received_ : UInt64 := 0
  loop_errors_ : UInt64 := 0
  reconnect_attempts_ : UInt64 := 0
  heartbeats_sent_ : UInt64 := 0

structure Heartbeat where
  time : Int
  payload : Bytes
  published : Bool
deriving DecidableEq, Repr

/-- What `LogHealth` prints, apart from `audio_playing`. -/
structure Health where
  time : Int
  clock_sane : Bool
  mqtt_connected : Bool
  messages : UInt64
  rings : UInt64
  loop_errors : UInt64
  reconnects : UInt64
  heartbeats : UInt64
deriving DecidableEq, Repr

namespace Daemon

/-- `HandleConnect`. -/
def handleConnect (d : Daemon) (rc : Int) : Daemon :=
  { d with connected_ := rc = MOSQ_ERR_SUCCESS, service := d.service.onConnect rc }

/-- `HandleDisconnect`. -/
def handleDisconnect (d : Daemon) : Daemon :=
  { d with connected_ := false, service := d.service.onDisconnect }

/-- `HandleMessage`, with the counters of `OnMessage`. -/
def handleMessage (d : Daemon) (topic : Bytes) (persists : Bool) : Daemon :=
  { d with
    service := d.service.onMessage topic persists
    messages_received_ := d.messages_received_ + 1
    ring_messages_received_ :=
      if d.service.config.audio_enabled && d.service.ringTopicMatches topic then
        d.ring_messages_received_ + 1
      else d.ring_messages_received_ }

def heartbeatDue (d : Daemon) (now : Int) : Prop :=
  d.service.config.heartbeat_interval > 0 ∧
    durationSeconds (now - d.last_heartbeat) ≥ d.service.config.heartbeat_interval

instance (d : Daemon) (now : Int) : Decidable (d.heartbeatDue now) :=
  inferInstanceAs (Decidable (_ ∧ _))

/-- The heartbeat of a pass, if it is due; `published` is what `Publish` returns. -/
def heartbeat (d : Daemon) (now : Int) (published : Bool) : Daemon × Option Heartbeat :=
  if d.heartbeatDue now then
    let payload := if d.service.mqtt_connected then bytes "alive" else bytes "degraded"
    ({ d with
        heartbeats_sent_ := if published then d.heartbeats_sent_ + 1 else d.heartbeats_sent_
        last_heartbeat := now },
      some { time := now, payload, published })
  else (d, none)

/-- The Wi-Fi check and the startup notification of a pass. -/
def watchWifi (d : Daemon) (now : Int) (wifi : Option WifiState) :
    Daemon × Option NotificationSoundType :=
  let next := RunLoop.pass d.service.config d.loop
    { now, wifi, mqtt_connected := d.service.mqtt_connected }
  let sound := next.2.bind (playNotification d.service.config)
  ({ d with loop := next.1, service := { d.service with played := d.service.played ++ sound.toList } },
    next.2)

def logHealth (d : Daemon) (now : Int) (clock_sane : Bool) : Health where
  time := now
  clock_sane := clock_sane
  mqtt_connected := d.service.mqtt_connected
  messages := d.messages_received_
  rings := d.ring_messages_received_
  loop_errors := d.loop_errors_
  reconnects := d.reconnect_attempts_
  heartbeats := d.heartbeats_sent_

/-- The health log of a pass, if it is due. -/
def checkHealth (d : Daemon) (now : Int) (clock_sane : Bool) : Daemon × Option Health :=
  if durationSeconds (now - d.last_health) ≥ kHealthLogIntervalSeconds then
    ({ d with
        clock_was_unsynced_ := if clock_sane then false else d.clock_was_unsynced_
        last_health := now },
      some (d.logHealth now clock_sane))
  else (d, none)

end Daemon

/-! ## 3. The daemon under the library -/

/-- What `mosquitto_loop` calls back for.  Nothing is assumed of the library, of the network or of
the broker: any callbacks may come, in any order. -/
inductive Callback where
  -- with what the calls of `mosquitto_subscribe` return
  | connect (rc : Int) (subscribe_rcs : Nat → Int)
  -- with whether the observed topics can be written
  | message (topic : Bytes) (persists : Bool)
  | disconnect

inductive Action where
  | signal
  | loop (callbacks : List Callback) (loop_rc : Int)
  | proceed
  | timers (now : Int) (wifi : Option WifiState) (published clock_sane : Bool)

structure System where
  daemon : Daemon
  should_stop : Bool := false
  -- the time of the last pass
  clock : Int
  -- what was asked for on the current connection, once its acceptance is read
  asked : Option (List (Bytes × Int)) := none
  -- an accepted connection came to an end without a callback
  missed : Bool := false
  -- what the calls of `mosquitto_subscribe` returned when the client was last accepted
  subscribe_rcs : Nat → Int := fun _ => MOSQ_ERR_SUCCESS
  -- what the daemon has done, in order
  handled : List Bytes := []
  heartbeats : List Heartbeat := []
  notified : List NotificationSoundType := []
  health : List Health := []

namespace System

def callBack (s : System) : Callback → System
  | .connect rc subscribe_rcs =>
      { s with
        daemon := s.daemon.handleConnect rc
        asked :=
          if rc = MOSQ_ERR_SUCCESS then
            some (ChimeService.requested s.daemon.service.config subscribe_rcs)
          else none
        missed := false
        subscribe_rcs }
  | .message topic persists =>
      { s with
        daemon := s.daemon.handleMessage topic persists
        handled := s.handled ++ [topic] }
  | .disconnect =>
      { s with daemon := s.daemon.handleDisconnect, asked := none, missed := false }

def setPoint (s : System) (point : RunPoint) : System :=
  { s with daemon := { s.daemon with point } }

/-- An error of the loop: the connection is given up for a new one, which may fail too. -/
def reconnect (s : System) : System :=
  { s with
    daemon := { s.daemon with
      loop_errors_ := s.daemon.loop_errors_ + 1
      reconnect_attempts_ := s.daemon.reconnect_attempts_ + 1
      point := .timers }
    asked := none
    missed := s.missed || s.asked.isSome }

/-- The end of a pass: the heartbeat, the Wi-Fi and the health log. -/
def afterTimers (s : System) (now : Int) (wifi : Option WifiState) (published clock_sane : Bool) :
    System :=
  let beat := s.daemon.heartbeat now published
  let watched := beat.1.watchWifi now wifi
  let checked := watched.1.checkHealth now clock_sane
  { s with
    daemon := { checked.1 with point := .loop }
    clock := now
    heartbeats := s.heartbeats ++ beat.2.toList
    notified := s.notified ++ watched.2.toList
    health := s.health ++ checked.2.toList }

def step (s : System) : Action → Option System
  | .signal => some { s with should_stop := true }
  | .loop callbacks loop_rc =>
      match s.daemon.point with
      | .loop =>
          if s.should_stop then some (s.setPoint .stopped)
          else some ((callbacks.foldl callBack s).setPoint (.looped loop_rc))
      | _ => none
  | .proceed =>
      match s.daemon.point with
      | .looped loop_rc =>
          if s.should_stop then some (s.setPoint .stopped)
          else if loop_rc ≠ 0 then some s.reconnect
          else some (s.setPoint .timers)
      | _ => none
  | .timers now wifi published clock_sane =>
      match s.daemon.point with
      | .timers => if now < s.clock then none else some (s.afterTimers now wifi published clock_sane)
      | _ => none

/-- The state in which the loop begins, if `Connect` succeeds: the Wi-Fi state was read in between
the two times. -/
def start (config : ChimeConfig) (observedTopicsFile : Option Bytes) (replies : MosquittoReplies)
    (wifi : Option WifiState) (clock_sane : Bool) (last_heartbeat startup_begin : Int) :
    Except Bytes System := do
  let handle ← Client.connect replies config.host config.port
    (ChimeService.connectOptions config)
  return {
    daemon := {
      service := { config, observedTopicsFile }
      handle
      loop := RunLoop.start config wifi last_heartbeat startup_begin
      last_heartbeat
      last_health := last_heartbeat
      clock_was_unsynced_ := !clock_sane }
    clock := startup_begin }

end System

end VirtualChime
