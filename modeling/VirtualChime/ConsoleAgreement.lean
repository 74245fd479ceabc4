import VirtualChime.SavedConfig

/-!
# What the web console shows

`LoadCoreConfig` and `ReadWifiInterfaceOrDefault` read the file that the daemon
loads with readers of their own.  For a key whose lines are spelled `key=`, the
two differ by the console's defaults alone: it shows one for a blank text and for
a number or switch whose last line is blank or refused, where the daemon keeps
the blank text or the last line it could read (`console_agrees`).
-/

namespace VirtualChime.Webd

open Config

/-! ## 1. The Wi-Fi interface -/

/-- The loop of `ReadWifiInterfaceOrDefault`. -/
def firstInterface : List Bytes → Bytes
  | [] => bytes "wlan0"
  | line :: rest =>
      match exactValue (bytes "wifi_interface") line with
      | none => firstInterface rest
      | some value => if value.isEmpty then firstInterface rest else value

/-- `ReadWifiInterfaceOrDefault`; `file` is `none` where the file cannot be opened. -/
def readWifiInterfaceOrDefault (file : Option Bytes) : Bytes :=
  match file with
  | none => bytes "wlan0"
  | some text => firstInterface (getlines text)

theorem firstInterface_eq (lines : List Bytes) :
    firstInterface lines = ((lines.filterMap (exactValue (bytes "wifi_interface"))).find?
      fun value => !value.isEmpty).getD (bytes "wlan0") := by
  induction lines with
  | nil => rfl
  | cons line rest ih =>
    rw [firstInterface]
    rcases hv : exactValue (bytes "wifi_interface") line with _ | value
    · simp only [List.filterMap_cons, hv, ih]
    · by_cases hempty : value.isEmpty = true
      · simp only [List.filterMap_cons, hv, hempty, if_true, ih, List.find?_cons, Bool.not_true]
      · simp [hv, hempty]

/-! ## 2. One key -/

section Key

variable {key : ConfigKey} {lines : List Bytes}

theorem trim_of_mem_valuesFor {name v : Bytes} (h : v ∈ valuesFor name lines) : trim v = v := by
  obtain ⟨w, hmem, heq⟩ := LastWins.mem_readings.mp h
  rw [Option.some.injEq] at heq
  subst heq
  obtain ⟨line, -, hparse⟩ := List.mem_filterMap.mp hmem
  simp only [parseLine] at hparse
  split at hparse
  · cases hparse
  · obtain ⟨kv, -, heq⟩ := Option.map_eq_some_iff.mp hparse
    rw [Prod.mk.injEq] at heq
    rw [← heq.2, trim_trim]

theorem readings_eq_values (key : ConfigKey) (lines : List Bytes) :
    readings key lines = (valuesFor key.name lines).filterMap key.kind.assigns :=
  LastWins.readings_eq_filterMap _

/-- The key's last line, if it has one, holds a value the daemon takes, and not a blank one. -/
def lastLineValid (key : ConfigKey) (lines : List Bytes) : Bool :=
  (valuesFor key.name lines).getLast?.all fun v => !v.isEmpty && key.kind.accepts v

theorem daemon_text (hkind : key.kind = .string) (default : Bytes) :
    LastWins.settle (.text default) (readings key lines) =
      .text (LastWins.settle default (valuesFor key.name lines)) := by
  have hmap : (valuesFor key.name lines).filterMap key.kind.assigns =
      (valuesFor key.name lines).map Value.text := by
    rw [hkind]
    exact congrFun List.filterMap_eq_map' _
  rw [readings_eq_values, hmap, LastWins.settle, LastWins.settle, List.getLast?_map]
  cases (valuesFor key.name lines).getLast? <;> rfl

/-- A list: both readers take the last line, also where it is read as empty. -/
theorem daemon_list (hkind : key.kind = .csv) :
    LastWins.settle (.list []) (readings key lines) =
      .list (splitCsv (LastWins.settle [] (valuesFor key.name lines))) := by
  have hmap : (valuesFor key.name lines).filterMap key.kind.assigns =
      (valuesFor key.name lines).map fun v => Value.list (splitCsv v) := by
    rw [hkind]
    exact congrFun List.filterMap_eq_map' _
  rw [readings_eq_values, hmap, LastWins.settle, LastWins.settle, List.getLast?_map]
  cases (valuesFor key.name lines).getLast? <;> rfl

/-- A number or a switch: the console shows the daemon's value where the last line is valid, and
its own default where it is not. -/
theorem console_reads {β : Type} {read : Bytes → Option β} {wrap : β → Value}
    (hassigns : ∀ v, key.kind.assigns v = (read v).map wrap)
    (haccepts : ∀ v, key.kind.accepts v = (read v).isSome) {default daemon shown : β}
    (hwrap : Function.Injective wrap)
    (hdaemon : wrap daemon = LastWins.settle (wrap default) (readings key lines))
    (hdefault : valuesFor key.name lines = [] → shown = default) :
    ((if (LastWins.settle [] (valuesFor key.name lines)).isEmpty then none
      else read (LastWins.settle [] (valuesFor key.name lines))).getD shown) =
      if lastLineValid key lines then daemon else shown := by
  rw [readings_eq_values] at hdaemon
  unfold lastLineValid
  rcases hlast : (valuesFor key.name lines).getLast? with _ | v
  · have hnil := List.getLast?_eq_none_iff.mp hlast
    rw [hnil] at hdaemon ⊢
    simp [hdefault hnil, hwrap hdaemon]
  · rw [LastWins.settle_of_getLast? hlast, Option.all_some, haccepts]
    rcases hread : read v with _ | x
    · simp
    · rw [LastWins.settle_filterMap hlast (by rw [hassigns, hread]; rfl)] at hdaemon
      rw [← hwrap hdaemon]
      cases v with
      | nil => simp
      | cons c s => simp

end Key

/-! ## 3. The whole file -/

/-- Every line that sets the key is spelled `key=`. -/
def Spelled (lines : List Bytes) (key : ConfigKey) : Prop := SpelledExactly key.name lines

/-- How the console's view of a file relates to the daemon's, for each key whose own lines are
spelled `key=`. -/
structure ConsoleAgrees (lines : List Bytes) (shown : CoreConfig) (daemon : ChimeConfig) :
    Prop where
  mqtt_host : Spelled lines .mqtt_host → shown.mqtt_host = daemon.host
  mqtt_username : Spelled lines .mqtt_username → shown.mqtt_username = daemon.mqtt_username
  mqtt_password : Spelled lines .mqtt_password → shown.mqtt_password = daemon.mqtt_password
  mqtt_tls_ca_file : Spelled lines .mqtt_tls_ca_file →
    shown.mqtt_tls_ca_file = daemon.mqtt_tls_ca_file
  mqtt_tls_cert_file : Spelled lines .mqtt_tls_cert_file →
    shown.mqtt_tls_cert_file = daemon.mqtt_tls_cert_file
  mqtt_tls_key_file : Spelled lines .mqtt_tls_key_file →
    shown.mqtt_tls_key_file = daemon.mqtt_tls_key_file
  mqtt_topics : Spelled lines .mqtt_topics → shown.mqtt_topics = daemon.topics
  -- a blank text is shown as the default
  mqtt_client_id : Spelled lines .mqtt_client_id → shown.mqtt_client_id =
    if daemon.client_id.isEmpty then bytes "chime" else daemon.client_id
  ring_topic : Spelled lines .ring_topic → shown.ring_topic =
    if daemon.ring_topic.isEmpty then bytes "doorbell/ring" else daemon.ring_topic
  notification_success_sound_path : Spelled lines .notification_success_sound_path →
    shown.notification_success_sound_path =
    if daemon.notification_success_sound_path.isEmpty then bytes "/usr/local/share/chime/test.wav"
    else daemon.notification_success_sound_path
  notification_failure_sound_path : Spelled lines .notification_failure_sound_path →
    shown.notification_failure_sound_path =
    if daemon.notification_failure_sound_path.isEmpty then bytes "/usr/local/share/chime/ring.wav"
    else daemon.notification_failure_sound_path
  -- a blank or refused last line is shown as the default
  mqtt_port : Spelled lines .mqtt_port → shown.mqtt_port =
    if lastLineValid .mqtt_port lines then daemon.port else 1883
  mqtt_tls_enabled : Spelled lines .mqtt_tls_enabled → shown.mqtt_tls_enabled =
    if lastLineValid .mqtt_tls_enabled lines then daemon.mqtt_tls_enabled else false
  mqtt_tls_validate_certificate : Spelled lines .mqtt_tls_validate_certificate →
    shown.mqtt_tls_validate_certificate =
    if lastLineValid .mqtt_tls_validate_certificate lines then
      daemon.mqtt_tls_validate_certificate
    else true
  volume_bell : Spelled lines .volume_bell → shown.volume_bell =
    if lastLineValid .volume_bell lines then daemon.volume_bell else 80
  volume_notifications : Spelled lines .volume_notifications → shown.volume_notifications =
    if lastLineValid .volume_notifications lines then daemon.volume_notifications else 70
  volume_other : Spelled lines .volume_other → shown.volume_other =
    if lastLineValid .volume_other lines then daemon.volume_other else 70

section File

variable {path text : Bytes} {key : ConfigKey}
  (spelled : SpelledExactly key.name (getlines text))

theorem trim_settle (key : ConfigKey) (lines : List Bytes) :
    trim (LastWins.settle [] (valuesFor key.name lines)) =
      LastWins.settle [] (valuesFor key.name lines) := by
  rcases hlast : (valuesFor key.name lines).getLast? with _ | v
  · rw [LastWins.settle, hlast]
    rfl
  · rw [LastWins.settle_of_getLast? hlast, trim_of_mem_valuesFor (List.mem_of_getLast? hlast)]

/-- A blank last value and no value at all come to the same for a text with a default. -/
theorem settle_orDefault (default : Bytes) (vs : List Bytes) :
    (if (LastWins.settle [] vs).isEmpty then default else LastWins.settle [] vs) =
      if (LastWins.settle default vs).isEmpty then default else LastWins.settle default vs := by
  unfold LastWins.settle
  cases vs.getLast? with
  | none => simp
  | some v => rfl

include spelled

theorem shown_text (hkind : key.kind = .string) {default daemon : Bytes}
    (hdefault : ChimeConfig.value {} key = .text default)
    (hdaemon : (loadConfig path (some text)).config.value key = .text daemon) :
    (if (extractConfigValue (getlines text) key.name).isEmpty then default
      else extractConfigValue (getlines text) key.name) =
      if daemon.isEmpty then default else daemon := by
  rw [loadConfig_value, hdefault, daemon_text hkind] at hdaemon
  rw [extractConfigValue_of_spelled key.name_plain spelled, settle_orDefault,
    Value.text.inj hdaemon]

theorem shown_text_nil (hkind : key.kind = .string) {daemon : Bytes}
    (hdefault : ChimeConfig.value {} key = .text [])
    (hdaemon : (loadConfig path (some text)).config.value key = .text daemon) :
    extractConfigValue (getlines text) key.name = daemon := by
  have h := shown_text spelled hkind hdefault hdaemon
  have hid : ∀ b : Bytes, (if b.isEmpty then [] else b) = b := by
    intro b
    cases b <;> rfl
  rwa [hid, hid] at h

theorem shown_list (hkind : key.kind = .csv) {daemon : List Bytes}
    (hdefault : ChimeConfig.value {} key = .list [])
    (hdaemon : (loadConfig path (some text)).config.value key = .list daemon) :
    splitCsv (extractConfigValue (getlines text) key.name) = daemon := by
  rw [loadConfig_value, hdefault, daemon_list hkind] at hdaemon
  rw [extractConfigValue_of_spelled key.name_plain spelled, Value.list.inj hdaemon]

theorem shown_int {lo hi default daemon shown : Int} (hkind : key.kind = .int lo hi)
    (hdefault : ChimeConfig.value {} key = .number default)
    (hdaemon : (loadConfig path (some text)).config.value key = .number daemon)
    (hshown : valuesFor key.name (getlines text) = [] → shown = default) :
    (parseInt (extractConfigValue (getlines text) key.name) lo hi).getD shown =
      if lastLineValid key (getlines text) then daemon else shown := by
  rw [loadConfig_value, hdefault] at hdaemon
  rw [extractConfigValue_of_spelled key.name_plain spelled, parseInt, trim_settle]
  exact console_reads (by rw [hkind]; exact fun _ => rfl) (by rw [hkind]; exact fun _ => rfl)
    (fun _ _ => Value.number.inj) hdaemon.symm hshown

theorem shown_bool {default daemon : Bool} (hkind : key.kind = .bool)
    (hdefault : ChimeConfig.value {} key = .flag default)
    (hdaemon : (loadConfig path (some text)).config.value key = .flag daemon) :
    (parseBool (extractConfigValue (getlines text) key.name)).getD default =
      if lastLineValid key (getlines text) then daemon else default := by
  rw [loadConfig_value, hdefault] at hdaemon
  rw [extractConfigValue_of_spelled key.name_plain spelled, parseBool, trim_settle]
  have hassigns : ∀ v, key.kind.assigns v = (boolSpelling (v.map toLower)).map Value.flag := by
    rw [hkind]
    intro _
    exact rfl
  exact console_reads hassigns (by rw [hkind]; exact fun _ => rfl)
    (fun _ _ => Value.flag.inj) hdaemon.symm fun _ => rfl

end File

theorem valuesFor_port_ne_nil {path text : Bytes}
    (loads : (loadConfig path (some text)).success = true) :
    valuesFor ConfigKey.mqtt_port.name (getlines text) ≠ [] := by
  obtain ⟨v, hv, -⟩ := (loadConfig_success_iff path text).mp loads .mqtt_port rfl
  exact List.ne_nil_of_mem hv

theorem readChimeLines_agrees {path text : Bytes}
    (loads : (loadConfig path (some text)).success = true) :
    ConsoleAgrees (getlines text) (readChimeLines (getlines text))
      (loadConfig path (some text)).config where
  mqtt_host := fun spelled => shown_text_nil spelled rfl rfl rfl
  mqtt_username := fun spelled => shown_text_nil spelled rfl rfl rfl
  mqtt_password := fun spelled => shown_text_nil spelled rfl rfl rfl
  mqtt_tls_ca_file := fun spelled => shown_text_nil spelled rfl rfl rfl
  mqtt_tls_cert_file := fun spelled => shown_text_nil spelled rfl rfl rfl
  mqtt_tls_key_file := fun spelled => shown_text_nil spelled rfl rfl rfl
  mqtt_topics := fun spelled => shown_list spelled rfl rfl rfl
  mqtt_client_id := fun spelled => shown_text spelled rfl rfl rfl
  ring_topic := fun spelled => shown_text spelled rfl rfl rfl
  notification_success_sound_path :=
    fun spelled => shown_text spelled rfl rfl rfl
  notification_failure_sound_path :=
    fun spelled => shown_text spelled rfl rfl rfl
  mqtt_port := fun spelled => shown_int spelled rfl rfl rfl
    fun h => absurd h (valuesFor_port_ne_nil loads)
  mqtt_tls_enabled := fun spelled => shown_bool spelled rfl rfl rfl
  mqtt_tls_validate_certificate :=
    fun spelled => shown_bool spelled rfl rfl rfl
  volume_bell := fun spelled => shown_int spelled rfl rfl rfl fun _ => rfl
  volume_notifications :=
    fun spelled => shown_int spelled rfl rfl rfl fun _ => rfl
  volume_other := fun spelled => shown_int spelled rfl rfl rfl fun _ => rfl

/-- `ReadWifiInterfaceOrDefault` returns the first value that is not blank. -/
theorem readWifiInterfaceOrDefault_eq {text : Bytes}
    (spelled : SpelledExactly ConfigKey.wifi_interface.name (getlines text)) :
    readWifiInterfaceOrDefault (some text) =
      ((valuesFor ConfigKey.wifi_interface.name (getlines text)).find? fun v => !v.isEmpty).getD
        (bytes "wlan0") := by
  rw [← filterMap_exactValue ConfigKey.wifi_interface.name_plain spelled]
  exact firstInterface_eq _

/-- A file with a blank text and a refused last line. -/
def sampleRows : List (ConfigKey × Bytes) := [
  (.mqtt_host, bytes "broker"), (.mqtt_port, bytes "1883"), (.mqtt_topics, bytes "doorbell/ring"),
  (.ring_topic, []), (.volume_bell, bytes "20"), (.volume_bell, bytes "500")]

def sampleText : Bytes := joinLines (sampleRows.map fun row => settingLine (row.1.name, row.2))

end VirtualChime.Webd
