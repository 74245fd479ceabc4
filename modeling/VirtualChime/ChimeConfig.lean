import VirtualChime.KvConfig

/-!
# The daemon's configuration

`ChimeConfig` with its defaults, the field table `kConfigFields` and `LoadConfig`.

The table has 24 rows of four kinds.  So that a result can be stated once for
every row, `ConfigKey` names the rows, `ChimeConfig.value` reads the member of a
row, and `assigns`/`accepts` say what a row's setter writes and whether it takes
the value.  `loadConfig_value` and `loadConfig_success_iff` are the two facts
about `LoadConfig` that everything else rests on.
-/

namespace VirtualChime

open Config

structure ChimeConfig where
  host : Bytes := []
  port : Int := 0
  client_id : Bytes := bytes "chime"
  mqtt_username : Bytes := []
  mqtt_password : Bytes := []
  mqtt_tls_enabled : Bool := false
  mqtt_tls_validate_certificate : Bool := true
  mqtt_tls_ca_file : Bytes := []
  mqtt_tls_cert_file : Bytes := []
  mqtt_tls_key_file : Bytes := []
  topics : List Bytes := []
  mqtt_subscribe_qos : Int := 0
  heartbeat_interval : Int := 60
  heartbeat_topic : Bytes := bytes "chime/heartbeat"
  ring_topic : Bytes := bytes "doorbell/ring"
  sound_path : Bytes := bytes "/usr/local/share/chime/ring.wav"
  notification_success_sound_path : Bytes := bytes "/usr/local/share/chime/test.wav"
  notification_failure_sound_path : Bytes := bytes "/usr/local/share/chime/ring.wav"
  volume_bell : Int := 80
  volume_notifications : Int := 70
  volume_other : Int := 70
  audio_enabled : Bool := true
  wifi_interface : Bytes := bytes "wlan0"
  wifi_check_interval : Int := 5
deriving DecidableEq, Repr

def kConfigFields : List (ConfigField ChimeConfig) := [
  ⟨bytes "mqtt_host", parseString ⟨(·.host), fun v c => { c with host := v }⟩, true⟩,
  ⟨bytes "mqtt_port", parseInt ⟨(·.port), fun v c => { c with port := v }⟩ 1 65535, true⟩,
  ⟨bytes "mqtt_client_id",
    parseString ⟨(·.client_id), fun v c => { c with client_id := v }⟩, false⟩,
  ⟨bytes "mqtt_username",
    parseString ⟨(·.mqtt_username), fun v c => { c with mqtt_username := v }⟩, false⟩,
  ⟨bytes "mqtt_password",
    parseString ⟨(·.mqtt_password), fun v c => { c with mqtt_password := v }⟩, false⟩,
  ⟨bytes "mqtt_tls_enabled",
    parseBool ⟨(·.mqtt_tls_enabled), fun v c => { c with mqtt_tls_enabled := v }⟩, false⟩,
  ⟨bytes "mqtt_tls_validate_certificate",
    parseBool ⟨(·.mqtt_tls_validate_certificate),
      fun v c => { c with mqtt_tls_validate_certificate := v }⟩, false⟩,
  ⟨bytes "mqtt_tls_ca_file",
    parseString ⟨(·.mqtt_tls_ca_file), fun v c => { c with mqtt_tls_ca_file := v }⟩, false⟩,
  ⟨bytes "mqtt_tls_cert_file",
    parseString ⟨(·.mqtt_tls_cert_file), fun v c => { c with mqtt_tls_cert_file := v }⟩, false⟩,
  ⟨bytes "mqtt_tls_key_file",
    parseString ⟨(·.mqtt_tls_key_file), fun v c => { c with mqtt_tls_key_file := v }⟩, false⟩,
  ⟨bytes "mqtt_topics", parseCsv ⟨(·.topics), fun v c => { c with topics := v }⟩, true⟩,
  ⟨bytes "mqtt_subscribe_qos",
    parseInt ⟨(·.mqtt_subscribe_qos), fun v c => { c with mqtt_subscribe_qos := v }⟩ 0 2, false⟩,
  ⟨bytes "heartbeat_interval",
    parseInt ⟨(·.heartbeat_interval), fun v c => { c with heartbeat_interval := v }⟩ 0 3600,
    false⟩,
  ⟨bytes "heartbeat_topic",
    parseString ⟨(·.heartbeat_topic), fun v c => { c with heartbeat_topic := v }⟩, false⟩,
  ⟨bytes "ring_topic",
    parseString ⟨(·.ring_topic), fun v c => { c with ring_topic := v }⟩, false⟩,
  ⟨bytes "sound_path",
    parseString ⟨(·.sound_path), fun v c => { c with sound_path := v }⟩, false⟩,
  ⟨bytes "notification_success_sound_path",
    parseString ⟨(·.notification_success_sound_path),
      fun v c => { c with notification_success_sound_path := v }⟩, false⟩,
  ⟨bytes "notification_failure_sound_path",
    parseString ⟨(·.notification_failure_sound_path),
      fun v c => { c with notification_failure_sound_path := v }⟩, false⟩,
  ⟨bytes "volume_bell",
    parseInt ⟨(·.volume_bell), fun v c => { c with volume_bell := v }⟩ 0 100, false⟩,
  ⟨bytes "volume_notifications",
    parseInt ⟨(·.volume_notifications), fun v c => { c with volume_notifications := v }⟩ 0 100,
    false⟩,
  ⟨bytes "volume_other",
    parseInt ⟨(·.volume_other), fun v c => { c with volume_other := v }⟩ 0 100, false⟩,
  ⟨bytes "audio_enabled",
    parseBool ⟨(·.audio_enabled), fun v c => { c with audio_enabled := v }⟩, false⟩,
  ⟨bytes "wifi_interface",
    parseString ⟨(·.wifi_interface), fun v c => { c with wifi_interface := v }⟩, false⟩,
  ⟨bytes "wifi_check_interval",
    parseInt ⟨(·.wifi_check_interval), fun v c => { c with wifi_check_interval := v }⟩ 0 3600,
    false⟩]

/-- `LoadConfig`; `file` is `none` where the file cannot be opened. -/
def loadConfig (path : Bytes) (file : Option Bytes) : LoadResult ChimeConfig :=
  load path file {} kConfigFields

/-! ### The rows of the table -/

inductive ConfigKey where
  | mqtt_host | mqtt_port | mqtt_client_id | mqtt_username | mqtt_password
  | mqtt_tls_enabled | mqtt_tls_validate_certificate
  | mqtt_tls_ca_file | mqtt_tls_cert_file | mqtt_tls_key_file
  | mqtt_topics | mqtt_subscribe_qos | heartbeat_interval | heartbeat_topic
  | ring_topic | sound_path | notification_success_sound_path | notification_failure_sound_path
  | volume_bell | volume_notifications | volume_other
  | audio_enabled | wifi_interface | wifi_check_interval
deriving DecidableEq, Repr

/-- What a member of the record can hold. -/
inductive Value where
  | text (b : Bytes)
  | number (n : Int)
  | flag (b : Bool)
  | list (l : List Bytes)
deriving DecidableEq, Repr

/-- The setter of a row, by kind. -/
inductive Kind where
  | string
  | int (minVal maxVal : Int)
  | csv
  | bool
deriving DecidableEq, Repr

namespace ConfigKey

def name : ConfigKey → Bytes
  | mqtt_host => bytes "mqtt_host"
  | mqtt_port => bytes "mqtt_port"
  | mqtt_client_id => bytes "mqtt_client_id"
  | mqtt_username => bytes "mqtt_username"
  | mqtt_password => bytes "mqtt_password"
  | mqtt_tls_enabled => bytes "mqtt_tls_enabled"
  | mqtt_tls_validate_certificate => bytes "mqtt_tls_validate_certificate"
  | mqtt_tls_ca_file => bytes "mqtt_tls_ca_file"
  | mqtt_tls_cert_file => bytes "mqtt_tls_cert_file"
  | mqtt_tls_key_file => bytes "mqtt_tls_key_file"
  | mqtt_topics => bytes "mqtt_topics"
  | mqtt_subscribe_qos => bytes "mqtt_subscribe_qos"
  | heartbeat_interval => bytes "heartbeat_interval"
  | heartbeat_topic => bytes "heartbeat_topic"
  | ring_topic => bytes "ring_topic"
  | sound_path => bytes "sound_path"
  | notification_success_sound_path => bytes "notification_success_sound_path"
  | notification_failure_sound_path => bytes "notification_failure_sound_path"
  | volume_bell => bytes "volume_bell"
  | volume_notifications => bytes "volume_notifications"
  | volume_other => bytes "volume_other"
  | audio_enabled => bytes "audio_enabled"
  | wifi_interface => bytes "wifi_interface"
  | wifi_check_interval => bytes "wifi_check_interval"

def kind : ConfigKey → Kind
  | mqtt_port => .int 1 65535
  | mqtt_tls_enabled | mqtt_tls_validate_certificate | audio_enabled => .bool
  | mqtt_topics => .csv
  | mqtt_subscribe_qos => .int 0 2
  | heartbeat_interval | wifi_check_interval => .int 0 3600
  | volume_bell | volume_notifications | volume_other => .int 0 100
  | _ => .string

def required : ConfigKey → Bool
  | mqtt_host | mqtt_port | mqtt_topics => true
  | _ => false

end ConfigKey

def Kind.assigns (kind : Kind) (v : Bytes) : Option Value :=
  match kind with
  | .string => some (.text v)
  | .int minVal maxVal => (intInRange minVal maxVal v).map .number
  | .csv => some (.list (splitCsv v))
  | .bool => (boolSpelling (v.map toLower)).map .flag

def Kind.accepts (kind : Kind) (v : Bytes) : Bool :=
  match kind with
  | .string => true
  | .int minVal maxVal => (intInRange minVal maxVal v).isSome
  | .csv => !(splitCsv v).isEmpty
  | .bool => (boolSpelling (v.map toLower)).isSome

/-- The member of the row `key`. -/
def ChimeConfig.value (c : ChimeConfig) : ConfigKey → Value
  | .mqtt_host => .text c.host
  | .mqtt_port => .number c.port
  | .mqtt_client_id => .text c.client_id
  | .mqtt_username => .text c.mqtt_username
  | .mqtt_password => .text c.mqtt_password
  | .mqtt_tls_enabled => .flag c.mqtt_tls_enabled
  | .mqtt_tls_validate_certificate => .flag c.mqtt_tls_validate_certificate
  | .mqtt_tls_ca_file => .text c.mqtt_tls_ca_file
  | .mqtt_tls_cert_file => .text c.mqtt_tls_cert_file
  | .mqtt_tls_key_file => .text c.mqtt_tls_key_file
  | .mqtt_topics => .list c.topics
  | .mqtt_subscribe_qos => .number c.mqtt_subscribe_qos
  | .heartbeat_interval => .number c.heartbeat_interval
  | .heartbeat_topic => .text c.heartbeat_topic
  | .ring_topic => .text c.ring_topic
  | .sound_path => .text c.sound_path
  | .notification_success_sound_path => .text c.notification_success_sound_path
  | .notification_failure_sound_path => .text c.notification_failure_sound_path
  | .volume_bell => .number c.volume_bell
  | .volume_notifications => .number c.volume_notifications
  | .volume_other => .number c.volume_other
  | .audio_enabled => .flag c.audio_enabled
  | .wifi_interface => .text c.wifi_interface
  | .wifi_check_interval => .number c.wifi_check_interval

/-- `field` is the row of `key`: its setter reports what the kind accepts, writes what the
kind assigns into the member of `key` and leaves every other member alone. -/
structure IsRow (key : ConfigKey) (field : ConfigField ChimeConfig) : Prop where
  key_eq : field.key = key.name
  required_eq : field.required = key.required
  accepts_eq : ∀ (c : ChimeConfig) v, (field.setter c v).2 = key.kind.accepts v
  value_eq : ∀ (c : ChimeConfig) v key', (field.setter c v).1.value key' =
    if key = key' then (key.kind.assigns v).getD (c.value key') else c.value key'

section Rows

variable {key : ConfigKey} {name : Bytes} {required : Bool}

theorem isRow_string (hname : name = key.name) (hreq : required = key.required)
    (hkind : key.kind = .string) {member : Member ChimeConfig Bytes}
    (hset : ∀ v c key', (member.set v c).value key' =
      if key = key' then .text v else c.value key') :
    IsRow key ⟨name, parseString member, required⟩ where
  key_eq := hname
  required_eq := hreq
  accepts_eq c v := by rw [hkind]; rfl
  value_eq c v key' := by rw [hkind]; exact hset v c key'

theorem isRow_int (hname : name = key.name) (hreq : required = key.required) {lo hi : Int}
    (hkind : key.kind = .int lo hi) {member : Member ChimeConfig Int}
    (hset : ∀ v c key', (member.set v c).value key' =
      if key = key' then .number v else c.value key') :
    IsRow key ⟨name, parseInt member lo hi, required⟩ where
  key_eq := hname
  required_eq := hreq
  accepts_eq c v := by
    rw [hkind]
    simp only [parseInt, Kind.accepts]
    cases intInRange lo hi v <;> rfl
  value_eq c v key' := by
    rw [hkind]
    simp only [parseInt, Kind.assigns]
    cases intInRange lo hi v with
    | none => simp
    | some n => exact hset n c key'

theorem isRow_csv (hname : name = key.name) (hreq : required = key.required)
    (hkind : key.kind = .csv) {member : Member ChimeConfig (List Bytes)}
    (hset : ∀ v c key', (member.set v c).value key' =
      if key = key' then .list v else c.value key') :
    IsRow key ⟨name, parseCsv member, required⟩ where
  key_eq := hname
  required_eq := hreq
  accepts_eq c v := by rw [hkind]; rfl
  value_eq c v key' := by rw [hkind]; exact hset _ c key'

theorem isRow_bool (hname : name = key.name) (hreq : required = key.required)
    (hkind : key.kind = .bool) {member : Member ChimeConfig Bool}
    (hset : ∀ v c key', (member.set v c).value key' =
      if key = key' then .flag v else c.value key') :
    IsRow key ⟨name, parseBool member, required⟩ where
  key_eq := hname
  required_eq := hreq
  accepts_eq c v := by
    rw [hkind]
    simp only [parseBool, Kind.accepts]
    cases boolSpelling (v.map toLower) <;> rfl
  value_eq c v key' := by
    rw [hkind]
    simp only [parseBool, Kind.assigns]
    cases boolSpelling (v.map toLower) with
    | none => simp
    | some b => exact hset b c key'

end Rows

theorem exists_isRow {field : ConfigField ChimeConfig} (h : field ∈ kConfigFields) :
    ∃ key, IsRow key field := by
  simp only [kConfigFields, List.mem_cons, List.not_mem_nil, or_false] at h
  rcases h with rfl | rfl | rfl | rfl | rfl | rfl | rfl | rfl | rfl | rfl | rfl | rfl | rfl | rfl |
    rfl | rfl | rfl | rfl | rfl | rfl | rfl | rfl | rfl | rfl
  · refine ⟨.mqtt_host, isRow_string rfl rfl rfl ?_⟩
    rintro _ _ ⟨⟩ <;> rfl
  · refine ⟨.mqtt_port, isRow_int rfl rfl rfl ?_⟩
    rintro _ _ ⟨⟩ <;> rfl
  · refine ⟨.mqtt_client_id, isRow_string rfl rfl rfl ?_⟩
    rintro _ _ ⟨⟩ <;> rfl
  · refine ⟨.mqtt_username, isRow_string rfl rfl rfl ?_⟩
    rintro _ _ ⟨⟩ <;> rfl
  · refine ⟨.mqtt_password, isRow_string rfl rfl rfl ?_⟩
    rintro _ _ ⟨⟩ <;> rfl
  · refine ⟨.mqtt_tls_enabled, isRow_bool rfl rfl rfl ?_⟩
    rintro _ _ ⟨⟩ <;> rfl
  · refine ⟨.mqtt_tls_validate_certificate, isRow_bool rfl rfl rfl ?_⟩
    rintro _ _ ⟨⟩ <;> rfl
  · refine ⟨.mqtt_tls_ca_file, isRow_string rfl rfl rfl ?_⟩
    rintro _ _ ⟨⟩ <;> rfl
  · refine ⟨.mqtt_tls_cert_file, isRow_string rfl rfl rfl ?_⟩
    rintro _ _ ⟨⟩ <;> rfl
  · refine ⟨.mqtt_tls_key_file, isRow_string rfl rfl rfl ?_⟩
    rintro _ _ ⟨⟩ <;> rfl
  · refine ⟨.mqtt_topics, isRow_csv rfl rfl rfl ?_⟩
    rintro _ _ ⟨⟩ <;> rfl
  · refine ⟨.mqtt_subscribe_qos, isRow_int rfl rfl rfl ?_⟩
    rintro _ _ ⟨⟩ <;> rfl
  · refine ⟨.heartbeat_interval, isRow_int rfl rfl rfl ?_⟩
    rintro _ _ ⟨⟩ <;> rfl
  · refine ⟨.heartbeat_topic, isRow_string rfl rfl rfl ?_⟩
    rintro _ _ ⟨⟩ <;> rfl
  · refine ⟨.ring_topic, isRow_string rfl rfl rfl ?_⟩
    rintro _ _ ⟨⟩ <;> rfl
  · refine ⟨.sound_path, isRow_string rfl rfl rfl ?_⟩
    rintro _ _ ⟨⟩ <;> rfl
  · refine ⟨.notification_success_sound_path, isRow_string rfl rfl rfl ?_⟩
    rintro _ _ ⟨⟩ <;> rfl
  · refine ⟨.notification_failure_sound_path, isRow_string rfl rfl rfl ?_⟩
    rintro _ _ ⟨⟩ <;> rfl
  · refine ⟨.volume_bell, isRow_int rfl rfl rfl ?_⟩
    rintro _ _ ⟨⟩ <;> rfl
  · refine ⟨.volume_notifications, isRow_int rfl rfl rfl ?_⟩
    rintro _ _ ⟨⟩ <;> rfl
  · refine ⟨.volume_other, isRow_int rfl rfl rfl ?_⟩
    rintro _ _ ⟨⟩ <;> rfl
  · refine ⟨.audio_enabled, isRow_bool rfl rfl rfl ?_⟩
    rintro _ _ ⟨⟩ <;> rfl
  · refine ⟨.wifi_interface, isRow_string rfl rfl rfl ?_⟩
    rintro _ _ ⟨⟩ <;> rfl
  · refine ⟨.wifi_check_interval, isRow_int rfl rfl rfl ?_⟩
    rintro _ _ ⟨⟩ <;> rfl

namespace ConfigKey

def all : List ConfigKey := [
  mqtt_host, mqtt_port, mqtt_client_id, mqtt_username, mqtt_password, mqtt_tls_enabled,
  mqtt_tls_validate_certificate, mqtt_tls_ca_file, mqtt_tls_cert_file, mqtt_tls_key_file,
  mqtt_topics, mqtt_subscribe_qos, heartbeat_interval, heartbeat_topic, ring_topic, sound_path,
  notification_success_sound_path, notification_failure_sound_path, volume_bell,
  volume_notifications, volume_other, audio_enabled, wifi_interface, wifi_check_interval]

theorem mem_all (key : ConfigKey) : key ∈ all := by cases key <;> decide

theorem find?_all_name (key : ConfigKey) :
    all.find? (fun k => k.name = key.name) = some key := by
  cases key <;> rfl

theorem name_injective : Function.Injective name := by
  intro a b h
  have ha := find?_all_name a
  rw [h, find?_all_name b] at ha
  exact (Option.some.inj ha).symm

theorem all_names : all.map name = kConfigFields.map ConfigField.key := rfl

/-- Key names are plain words: no `=`, no line end, no blank, no comment sign in front. -/
def PlainName (name : Bytes) : Prop :=
  name ≠ [] ∧ equals ∉ name ∧ newline ∉ name ∧ (∀ c ∈ name, isBlank c = false) ∧
    name.head? ≠ some hash

instance (name : Bytes) : Decidable (PlainName name) :=
  letI : Decidable (∀ c ∈ name, isBlank c = false) := List.decidableBAll _ name
  inferInstanceAs (Decidable (_ ∧ _))

theorem name_plain (key : ConfigKey) : PlainName key.name := by cases key <;> decide

end ConfigKey

/-- The row the loader finds for a key's name is the row of that key. -/
theorem find?_row (key : ConfigKey) :
    ∃ field, kConfigFields.find? (fun f => f.key = key.name) = some field ∧ IsRow key field := by
  have hmem : key.name ∈ kConfigFields.map ConfigField.key := by
    rw [← ConfigKey.all_names]
    exact List.mem_map_of_mem (ConfigKey.mem_all key)
  obtain ⟨f, hf, hfk⟩ := List.mem_map.mp hmem
  rcases hfind : kConfigFields.find? (fun f => f.key = key.name) with _ | field
  · exact absurd (by simp [hfk]) (List.find?_eq_none.mp hfind f hf)
  · obtain ⟨key', hrow⟩ := exists_isRow (List.mem_of_find?_eq_some hfind)
    have hname : field.key = key.name := by simpa using List.find?_some hfind
    have hkey : key' = key := ConfigKey.name_injective (by rw [← hrow.key_eq, hname])
    subst hkey
    exact ⟨field, hfind, hrow⟩

theorem tracks_value (key : ConfigKey) :
    Tracks kConfigFields key.name (fun c => ChimeConfig.value c key) key.kind.assigns where
  own field hfind c v := by
    obtain ⟨row, hrow, hisRow⟩ := find?_row key
    rw [hrow, Option.some.injEq] at hfind
    subst hfind
    simpa using hisRow.value_eq c v key
  present := by
    obtain ⟨row, hrow, -⟩ := find?_row key
    rw [hrow]
    rfl
  frame field hmem hne c v := by
    obtain ⟨key', hrow⟩ := exists_isRow hmem
    have hkey : key' ≠ key := by
      rintro rfl
      exact hne hrow.key_eq
    simpa [hkey] using hrow.value_eq c v key

/-! ### What `LoadConfig` reads -/

/-- What the lines of a text say about `key`, in order, refused values left out. -/
def readings (key : ConfigKey) (lines : List Bytes) : List Value :=
  LastWins.readings key.name key.kind.assigns (entries lines)

/-- `LoadConfig` gives each key what the last line for it that its setter takes says. -/
theorem loadConfig_value (path text : Bytes) (key : ConfigKey) :
    (loadConfig path (some text)).config.value key =
      LastWins.settle (ChimeConfig.value {} key) (readings key (getlines text)) :=
  load_member (tracks_value key) path text {}

def accepts (name v : Bytes) : Bool :=
  match ConfigKey.all.find? fun key => key.name = name with
  | some key => key.kind.accepts v
  | none => false

theorem accepts_name (key : ConfigKey) (v : Bytes) : accepts key.name v = key.kind.accepts v := by
  rw [accepts, ConfigKey.find?_all_name]

theorem acceptsBy_kConfigFields : AcceptsBy kConfigFields accepts := by
  intro field hmem c v
  obtain ⟨key, hrow⟩ := exists_isRow hmem
  rw [hrow.accepts_eq, hrow.key_eq, accepts_name]

/-- `LoadConfig` succeeds exactly when host, port and topics each have an accepted line. -/
theorem loadConfig_success_iff (path text : Bytes) :
    (loadConfig path (some text)).success = true ↔
      ∀ key : ConfigKey, key.required = true →
        ∃ v ∈ valuesFor key.name (getlines text), key.kind.accepts v = true := by
  rw [loadConfig, load_success_iff acceptsBy_kConfigFields]
  constructor
  · intro h key hreq
    obtain ⟨field, hfind, hrow⟩ := find?_row key
    have := h field (List.mem_of_find?_eq_some hfind) (by rw [hrow.required_eq, hreq])
    simpa only [hrow.key_eq, accepts_name] using this
  · intro h field hmem hreq
    obtain ⟨key, hrow⟩ := exists_isRow hmem
    have := h key (by rw [← hrow.required_eq, hreq])
    simpa only [hrow.key_eq, accepts_name] using this

end VirtualChime
