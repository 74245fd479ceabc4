import VirtualChime.ConfigStore
import VirtualChime.WebdJson

/-!
# The configuration API

The handlers of `/api/v1/config/core`, of the Wi-Fi scan and of the observed topics:
the field readers of a posted object, with the errors they collect, and the response
bodies.  What the apply manager answers, what a scan finds and what becomes of the
file operations are inputs.
-/

namespace VirtualChime.Webd

/-! ## 1. Data -/

structure HttpResponse where
  status : Nat
  body : Bytes
deriving DecidableEq, Repr

/-- An `ApplyStatus` as it is serialised, with its state as a string. -/
structure ApplyReport where
  job_id : UInt64 := 0
  state : Bytes := bytes "idle"
  started_at_utc : Bytes := []
  finished_at_utc : Bytes := []
  error : Bytes := []
deriving DecidableEq, Repr

structure WifiNetwork where
  ssid : Bytes
  signal_dbm : Int := -1000
  security : Bytes
deriving DecidableEq, Repr

structure WifiScanResult where
  success : Bool := false
  error : Bytes := []
  networks : List WifiNetwork := []
deriving DecidableEq, Repr

/-! ## 2. Typed access -/

def asBool : JsonValue → Option Bool
  | .bool value => some value
  | _ => none

def asNumber : JsonValue → Option ℚ
  | .number value => some value
  | _ => none

def asString : JsonValue → Option Bytes
  | .string value => some value
  | _ => none

def asArray : JsonValue → Option (List JsonValue)
  | .array items => some items
  | _ => none

/-- What a field reader returns, and the errors it adds. -/
abbrev FieldRead (α : Type) := Option α × List ValidationError

/-- The readers of a required field: `message` follows the key if the type is wrong. -/
def readRequired {α : Type} (convert : JsonValue → Option α) (message : Bytes) (object : JsonValue)
    (key : Bytes) : FieldRead α :=
  match getObjectField object key with
  | none => (none, [⟨key, key ++ bytes " is required"⟩])
  | some field =>
      match convert field with
      | none => (none, [⟨key, key ++ message⟩])
      | some value => (some value, [])

def readRequiredString (object : JsonValue) (key : Bytes) : FieldRead Bytes :=
  readRequired asString (bytes " must be a string") object key

def readRequiredBool (object : JsonValue) (key : Bytes) : FieldRead Bool :=
  readRequired asBool (bytes " must be a boolean") object key

/-- `static_cast<int>(value)`: towards zero, and saturated as on the target. -/
def castToInt (value : ℚ) : Int := max longMin (min longMax (value.num.tdiv value.den))

def readRequiredInt (object : JsonValue) (key : Bytes) : FieldRead Int :=
  match readRequired asNumber (bytes " must be a number") object key with
  | (some value, _) =>
      if (castToInt value : ℚ) ≠ value then (none, [⟨key, key ++ bytes " must be an integer"⟩])
      else (some (castToInt value), [])
  | (none, errors) => (none, errors)

def readRequiredStringArray (object : JsonValue) (key : Bytes) : FieldRead (List Bytes) :=
  match readRequired asArray (bytes " must be an array") object key with
  | (some items, _) =>
      (some (items.filterMap asString),
        (items.zipIdx.filter fun entry => (asString entry.1).isNone).map fun entry =>
          ⟨key, key ++ bytes "[" ++ natDecimal entry.2 ++ bytes "] must be a string"⟩)
  | (none, errors) => (none, errors)

def readOptionalString (object : JsonValue) (key : Bytes) : FieldRead Bytes :=
  match getObjectField object key with
  | none => (none, [])
  | some field =>
      match asString field with
      | none => (none, [⟨key, key ++ bytes " must be a string"⟩])
      | some value => (some value, [])

/-! ## 3. Bodies -/

/-- `{"key":value,…}`, the values already encoded. -/
def jsonObject (members : List (Bytes × Bytes)) : Bytes :=
  123 :: ([comma].intercalate (members.map fun m => 34 :: (m.1 ++ 34 :: 58 :: m.2)) ++ [125])

def jsonArray (items : List Bytes) : Bytes := 91 :: ([comma].intercalate items ++ [93])

def serializeValidationErrors (validation_errors : List ValidationError) : Bytes :=
  jsonArray (validation_errors.map fun e =>
    jsonObject [(bytes "field", jsonString e.field), (bytes "message", jsonString e.message)])

def serializeTopics (topics : List Bytes) : Bytes := jsonArray (topics.map jsonString)

def serializeApplyStatus (status : ApplyReport) : Bytes :=
  jsonObject [
    (bytes "job_id", natDecimal status.job_id.toNat),
    (bytes "state", jsonString status.state),
    (bytes "started_at_utc", jsonString status.started_at_utc),
    (bytes "finished_at_utc", jsonString status.finished_at_utc),
    (bytes "error", jsonString status.error)]

/-- The body both handlers of the configuration answer with. -/
def coreConfigBody (snapshot : CoreConfigSnapshot) (apply : ApplyReport) : Bytes :=
  let config := snapshot.config
  jsonObject [
    (bytes "wifi_ssid", jsonString config.wifi_ssid),
    (bytes "wifi_password_set", jsonBool snapshot.wifi_password_set),
    (bytes "mqtt_host", jsonString config.mqtt_host),
    (bytes "mqtt_port", jsonNumber config.mqtt_port),
    (bytes "mqtt_client_id", jsonString config.mqtt_client_id),
    (bytes "mqtt_username", jsonString config.mqtt_username),
    (bytes "mqtt_password_set", jsonBool snapshot.mqtt_password_set),
    (bytes "mqtt_tls_enabled", jsonBool config.mqtt_tls_enabled),
    (bytes "mqtt_tls_validate_certificate", jsonBool config.mqtt_tls_validate_certificate),
    (bytes "mqtt_tls_ca_file", jsonString config.mqtt_tls_ca_file),
    (bytes "mqtt_tls_cert_file", jsonString config.mqtt_tls_cert_file),
    (bytes "mqtt_tls_key_file", jsonString config.mqtt_tls_key_file),
    (bytes "mqtt_topics", serializeTopics config.mqtt_topics),
    (bytes "ring_topic", jsonString config.ring_topic),
    (bytes "notification_success_sound_path", jsonString config.notification_success_sound_path),
    (bytes "notification_failure_sound_path", jsonString config.notification_failure_sound_path),
    (bytes "volume_bell", jsonNumber config.volume_bell),
    (bytes "volume_notifications", jsonNumber config.volume_notifications),
    (bytes "volume_other", jsonNumber config.volume_other),
    (bytes "apply", serializeApplyStatus apply)]

def networkObject (network : WifiNetwork) : Bytes :=
  jsonObject [
    (bytes "ssid", jsonString network.ssid),
    (bytes "signal_dbm", jsonNumber network.signal_dbm),
    (bytes "security", jsonString network.security)]

def wifiScanBody (networks : List WifiNetwork) : Bytes :=
  jsonObject [(bytes "networks", jsonArray (networks.map networkObject))]

def observedTopicsBody (topics : List Bytes) : Bytes :=
  jsonObject [(bytes "topics", serializeTopics topics)]

/-- `{"error":"…","message":…}` -/
def errorBody (error message : Bytes) : Bytes :=
  jsonObject [(bytes "error", 34 :: (error ++ [34])), (bytes "message", jsonString message)]

def validationFailedBody (errors : List ValidationError) : Bytes :=
  jsonObject [(bytes "error", bytes "\"validation_failed\""),
    (bytes "validation_errors", serializeValidationErrors errors)]

/-! ## 4. Handlers -/

def handleGetCoreConfig (store : ConfigStore) (disk : Disk) (chimeOpen wpaOpen : Option Bytes)
    (apply : ApplyReport) : HttpResponse :=
  let loaded := loadCoreConfig store disk chimeOpen wpaOpen
  if !loaded.success then ⟨500, errorBody (bytes "load_failed") loaded.error⟩
  else ⟨200, coreConfigBody loaded.snapshot apply⟩

/-- The fields of a posted object, each absent where its reader returned nothing. -/
structure PostedFields where
  wifi_ssid : Option Bytes
  mqtt_host : Option Bytes
  mqtt_port : Option Int
  mqtt_client_id : Option Bytes
  mqtt_username : Option Bytes
  mqtt_tls_enabled : Option Bool
  mqtt_tls_validate_certificate : Option Bool
  mqtt_tls_ca_file : Option Bytes
  mqtt_tls_cert_file : Option Bytes
  mqtt_tls_key_file : Option Bytes
  mqtt_topics : Option (List Bytes)
  ring_topic : Option Bytes
  notification_success_sound_path : Option Bytes
  notification_failure_sound_path : Option Bytes
  volume_bell : Option Int
  volume_notifications : Option Int
  volume_other : Option Int
  wifi_password : Option Bytes
  mqtt_password : Option Bytes
deriving DecidableEq, Repr

/-- The fields `HandlePostCoreConfig` reads, and `parse_errors`. -/
def readPostedFields (object : JsonValue) : PostedFields × List ValidationError :=
  let wifi_ssid := readRequiredString object (bytes "wifi_ssid")
  let mqtt_host := readRequiredString object (bytes "mqtt_host")
  let mqtt_port := readRequiredInt object (bytes "mqtt_port")
  let mqtt_client_id := readRequiredString object (bytes "mqtt_client_id")
  let mqtt_username := readRequiredString object (bytes "mqtt_username")
  let mqtt_tls_enabled := readRequiredBool object (bytes "mqtt_tls_enabled")
  let mqtt_tls_validate_certificate :=
    readRequiredBool object (bytes "mqtt_tls_validate_certificate")
  let mqtt_tls_ca_file := readRequiredString object (bytes "mqtt_tls_ca_file")
  let mqtt_tls_cert_file := readRequiredString object (bytes "mqtt_tls_cert_file")
  let mqtt_tls_key_file := readRequiredString object (bytes "mqtt_tls_key_file")
  let mqtt_topics := readRequiredStringArray object (bytes "mqtt_topics")
  let ring_topic := readRequiredString object (bytes "ring_topic")
  let notification_success_sound_path :=
    readOptionalString object (bytes "notification_success_sound_path")
  let notification_failure_sound_path :=
    readOptionalString object (bytes "notification_failure_sound_path")
  let volume_bell := readRequiredInt object (bytes "volume_bell")
  let volume_notifications := readRequiredInt object (bytes "volume_notifications")
  let volume_other := readRequiredInt object (bytes "volume_other")
  let wifi_password := readOptionalString object (bytes "wifi_password")
  let mqtt_password := readOptionalString object (bytes "mqtt_password")
  ({ wifi_ssid := wifi_ssid.1
     mqtt_host := mqtt_host.1
     mqtt_port := mqtt_port.1
     mqtt_client_id := mqtt_client_id.1
     mqtt_username := mqtt_username.1
     mqtt_tls_enabled := mqtt_tls_enabled.1
     mqtt_tls_validate_certificate := mqtt_tls_validate_certificate.1
     mqtt_tls_ca_file := mqtt_tls_ca_file.1
     mqtt_tls_cert_file := mqtt_tls_cert_file.1
     mqtt_tls_key_file := mqtt_tls_key_file.1
     mqtt_topics := mqtt_topics.1
     ring_topic := ring_topic.1
     notification_success_sound_path := notification_success_sound_path.1
     notification_failure_sound_path := notification_failure_sound_path.1
     volume_bell := volume_bell.1
     volume_notifications := volume_notifications.1
     volume_other := volume_other.1
     wifi_password := wifi_password.1
     mqtt_password := mqtt_password.1 },
    wifi_ssid.2 ++ mqtt_host.2 ++ mqtt_port.2 ++ mqtt_client_id.2 ++ mqtt_username.2 ++
      mqtt_tls_enabled.2 ++ mqtt_tls_validate_certificate.2 ++ mqtt_tls_ca_file.2 ++
      mqtt_tls_cert_file.2 ++ mqtt_tls_key_file.2 ++ mqtt_topics.2 ++ ring_topic.2 ++
      notification_success_sound_path.2 ++ notification_failure_sound_path.2 ++ volume_bell.2 ++
      volume_notifications.2 ++ volume_other.2 ++ wifi_password.2 ++ mqtt_password.2)

/-- The request made of the fields once there is no error; a notification path that was not sent
is the stored one. -/
def saveRequestOf (fields : PostedFields) (existing : Option CoreConfigSnapshot) : SaveRequest :=
  let defaults : CoreConfig := {}
  { config :=
      { wifi_ssid := fields.wifi_ssid.getD []
        mqtt_host := fields.mqtt_host.getD []
        mqtt_port := fields.mqtt_port.getD 0
        mqtt_client_id := fields.mqtt_client_id.getD []
        mqtt_username := fields.mqtt_username.getD []
        mqtt_tls_enabled := fields.mqtt_tls_enabled.getD false
        mqtt_tls_validate_certificate := fields.mqtt_tls_validate_certificate.getD false
        mqtt_tls_ca_file := fields.mqtt_tls_ca_file.getD []
        mqtt_tls_cert_file := fields.mqtt_tls_cert_file.getD []
        mqtt_tls_key_file := fields.mqtt_tls_key_file.getD []
        mqtt_topics := fields.mqtt_topics.getD []
        ring_topic := fields.ring_topic.getD []
        notification_success_sound_path :=
          (fields.notification_success_sound_path.or
            (existing.map (·.config.notification_success_sound_path))).getD
              defaults.notification_success_sound_path
        notification_failure_sound_path :=
          (fields.notification_failure_sound_path.or
            (existing.map (·.config.notification_failure_sound_path))).getD
              defaults.notification_failure_sound_path
        volume_bell := fields.volume_bell.getD 0
        volume_notifications := fields.volume_notifications.getD 0
        volume_other := fields.volume_other.getD 0 }
    wifi_password := fields.wifi_password
    mqtt_password := fields.mqtt_password }

/-- What becomes of the file operations of one POST: those of the load it may begin with, and
those of the save. -/
structure PostFaults where
  chime_open : Option Bytes := none
  wpa_open : Option Bytes := none
  save : SaveFaults := {}
deriving DecidableEq, Repr

/-- The snapshot that is loaded where a notification path was not sent. -/
def existingForPaths (store : ConfigStore) (fields : PostedFields) (faults : PostFaults)
    (disk : Disk) : Except Bytes (Option CoreConfigSnapshot) :=
  if fields.notification_success_sound_path.isNone ||
      fields.notification_failure_sound_path.isNone then
    let loaded := loadCoreConfig store disk faults.chime_open faults.wpa_open
    if !loaded.success then .error loaded.error else .ok (some loaded.snapshot)
  else .ok none

/-- The part of `HandlePostCoreConfig` from `SaveCoreConfig` on. -/
def savePosted (store : ConfigStore) (request : SaveRequest) (faults : SaveFaults)
    (apply : ApplyReport) (disk : Disk) : HttpResponse × Disk :=
  let (saved, disk) := saveCoreConfig store request faults disk
  if !saved.validation_errors.isEmpty then
    (⟨400, validationFailedBody saved.validation_errors⟩, disk)
  else if !saved.success then (⟨500, errorBody (bytes "save_failed") saved.error⟩, disk)
  else (⟨200, coreConfigBody saved.snapshot apply⟩, disk)

/-- The part of `HandlePostCoreConfig` that handles an object. -/
def postObject (store : ConfigStore) (object : JsonValue) (faults : PostFaults)
    (apply : ApplyReport) (disk : Disk) : HttpResponse × Disk :=
  let (fields, parse_errors) := readPostedFields object
  if !parse_errors.isEmpty then (⟨400, validationFailedBody parse_errors⟩, disk)
  else
    match existingForPaths store fields faults disk with
    | .error error => (⟨500, errorBody (bytes "save_failed") error⟩, disk)
    | .ok existing => savePosted store (saveRequestOf fields existing) faults.save apply disk

/-- `HandlePostCoreConfig`; `apply` is what `StartApply` returns if the save succeeds. -/
def handlePostCoreConfig (store : ConfigStore) (body : Bytes) (faults : PostFaults)
    (apply : ApplyReport) (disk : Disk) : HttpResponse × Disk :=
  match parseJson body with
  | .error error => (⟨400, errorBody (bytes "invalid_json") error⟩, disk)
  | .ok (.object items) => postObject store (.object items) faults apply disk
  | .ok _ => (⟨400, errorBody (bytes "invalid_payload") (bytes "payload must be an object")⟩, disk)

def handleWifiScan (scan : WifiScanResult) : HttpResponse :=
  if !scan.success then ⟨503, errorBody (bytes "scan_failed") scan.error⟩
  else ⟨200, wifiScanBody scan.networks⟩

/-- `ReadObservedTopicsFromFile`; a file that is missing or cannot be opened gives no topics. -/
def readObservedTopics (file : Option Bytes) : List Bytes :=
  match file with
  | none => []
  | some text =>
      (getlines text).foldl (fun topics line =>
        let topic := trim line
        if topic.isEmpty ∨ topic ∈ topics then topics else topics ++ [topic]) []

def handleGetObservedTopics (file : Option Bytes) : HttpResponse :=
  ⟨200, observedTopicsBody (readObservedTopics file)⟩

end VirtualChime.Webd
