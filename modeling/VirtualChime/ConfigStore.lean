import VirtualChime.ChimeConfig
import VirtualChime.AtomicWrite

/-!
# The web daemon's configuration store

`ConfigStore` of `chime-webd`: `ValidateRequest`, the two file readers behind
`LoadCoreConfig`, the two file rewriters `SaveChimeConfig` and `SaveWpaSupplicant`,
and `SaveCoreConfig`, which runs them in turn on a disk whose file operations may
each fail.
-/

namespace VirtualChime.Webd

open Config

/-! ## 1. Data -/

structure ValidationError where
  field : Bytes
  message : Bytes
deriving DecidableEq, Repr

structure CoreConfig where
  wifi_ssid : Bytes := []
  mqtt_host : Bytes := []
  mqtt_port : Int := 1883
  mqtt_client_id : Bytes := bytes "chime"
  mqtt_username : Bytes := []
  mqtt_password : Bytes := []
  mqtt_tls_enabled : Bool := false
  mqtt_tls_validate_certificate : Bool := true
  mqtt_tls_ca_file : Bytes := []
  mqtt_tls_cert_file : Bytes := []
  mqtt_tls_key_file : Bytes := []
  mqtt_topics : List Bytes := []
  ring_topic : Bytes := bytes "doorbell/ring"
  notification_success_sound_path : Bytes := bytes "/usr/local/share/chime/test.wav"
  notification_failure_sound_path : Bytes := bytes "/usr/local/share/chime/ring.wav"
  volume_bell : Int := 80
  volume_notifications : Int := 70
  volume_other : Int := 70
deriving DecidableEq, Repr

structure CoreConfigSnapshot where
  config : CoreConfig := {}
  wifi_password_set : Bool := false
  mqtt_password_set : Bool := false
deriving DecidableEq, Repr

structure SaveRequest where
  config : CoreConfig
  wifi_password : Option Bytes
  mqtt_password : Option Bytes
deriving DecidableEq, Repr

structure SaveResult where
  success : Bool := false
  error : Bytes := []
  validation_errors : List ValidationError := []
  snapshot : CoreConfigSnapshot := {}
deriving DecidableEq, Repr

structure ConfigStore where
  chime_config_path : Bytes := bytes "/etc/chime.conf"
  wpa_supplicant_path : Bytes := bytes "/etc/wpa_supplicant/wpa_supplicant.conf"
deriving DecidableEq, Repr

/-- The two files, `none` where there is none. -/
structure Disk where
  chime_config : Option Bytes
  wpa_supplicant : Option Bytes
deriving DecidableEq, Repr

/-! ## 2. Validation -/

/-- One validation error if the condition holds. -/
def reject (condition : Bool) (field message : Bytes) : List ValidationError :=
  if condition then [⟨field, message⟩] else []

def isTopicValid (topic : Bytes) : Bool :=
  !topic.isEmpty && !topic.contains 32 && !topic.contains 9

/-- The lambda `validate_sound_path`. -/
def validateSoundPath (field value : Bytes) : List ValidationError :=
  if value.contains newline || value.contains carriageReturn then
    [⟨field, field ++ bytes " must not contain newline characters"⟩]
  else
    reject ((trim value).isEmpty || decide (256 < (trim value).length)) field
      (field ++ bytes " must be 1-256 chars after trimming")

def validateTlsFile (field value : Bytes) : List ValidationError :=
  reject (decide (256 < value.length)) field (field ++ bytes " must be <= 256 chars")

def validateVolume (field : Bytes) (value : Int) : List ValidationError :=
  reject (decide (value < 0) || decide (100 < value)) field (field ++ bytes " must be 0-100")

def topicErrors (topics : List Bytes) : List ValidationError :=
  (topics.zipIdx.filter fun entry => !isTopicValid entry.1).map fun entry =>
    ⟨bytes "mqtt_topics", bytes "mqtt_topics[" ++ natDecimal entry.2 ++ bytes "] is invalid"⟩

def validateRequest (request : SaveRequest) : List ValidationError :=
  let config := request.config
  (if config.wifi_ssid.isEmpty then
      [⟨bytes "wifi_ssid", bytes "wifi_ssid is required"⟩]
    else
      reject (decide (32 < config.wifi_ssid.length)) (bytes "wifi_ssid")
        (bytes "wifi_ssid must be <= 32 chars")) ++
  (match request.wifi_password with
    | some password =>
        reject (!password.isEmpty && (decide (password.length < 8) || decide (63 < password.length)))
          (bytes "wifi_password") (bytes "wifi_password must be 8-63 chars when provided")
    | none => []) ++
  (if config.mqtt_host.isEmpty then
      [⟨bytes "mqtt_host", bytes "mqtt_host is required"⟩]
    else
      reject (config.mqtt_host.contains 32) (bytes "mqtt_host")
        (bytes "mqtt_host must not contain spaces")) ++
  reject (decide (config.mqtt_port < 1) || decide (65535 < config.mqtt_port)) (bytes "mqtt_port")
    (bytes "mqtt_port must be 1-65535") ++
  (if config.mqtt_client_id.isEmpty then
      [⟨bytes "mqtt_client_id", bytes "mqtt_client_id is required"⟩]
    else
      reject (decide (128 < config.mqtt_client_id.length)) (bytes "mqtt_client_id")
        (bytes "mqtt_client_id must be <= 128 chars")) ++
  reject (decide (128 < config.mqtt_username.length)) (bytes "mqtt_username")
    (bytes "mqtt_username must be <= 128 chars") ++
  (match request.mqtt_password with
    | some password =>
        reject (config.mqtt_username.isEmpty && !password.isEmpty) (bytes "mqtt_password")
          (bytes "mqtt_password requires mqtt_username to be set") ++
        reject (decide (256 < password.length)) (bytes "mqtt_password")
          (bytes "mqtt_password must be <= 256 chars")
    | none => []) ++
  validateTlsFile (bytes "mqtt_tls_ca_file") config.mqtt_tls_ca_file ++
  validateTlsFile (bytes "mqtt_tls_cert_file") config.mqtt_tls_cert_file ++
  validateTlsFile (bytes "mqtt_tls_key_file") config.mqtt_tls_key_file ++
  reject (config.mqtt_tls_cert_file.isEmpty != config.mqtt_tls_key_file.isEmpty)
    (bytes "mqtt_tls_cert_file")
    (bytes "mqtt_tls_cert_file and mqtt_tls_key_file must both be set") ++
  (if config.mqtt_topics.isEmpty then
      [⟨bytes "mqtt_topics", bytes "mqtt_topics must contain at least one topic"⟩]
    else topicErrors config.mqtt_topics) ++
  reject (!isTopicValid config.ring_topic) (bytes "ring_topic") (bytes "ring_topic is invalid") ++
  validateSoundPath (bytes "notification_success_sound_path")
    config.notification_success_sound_path ++
  validateSoundPath (bytes "notification_failure_sound_path")
    config.notification_failure_sound_path ++
  validateVolume (bytes "volume_bell") config.volume_bell ++
  validateVolume (bytes "volume_notifications") config.volume_notifications ++
  validateVolume (bytes "volume_other") config.volume_other

@[simp] theorem reject_eq_nil {condition : Bool} {field message : Bytes} :
    reject condition field message = [] ↔ condition = false := by
  cases condition <;> simp [reject]

theorem validateSoundPath_eq_nil {field value : Bytes} :
    validateSoundPath field value = [] ↔
      newline ∉ value ∧ carriageReturn ∉ value ∧ trim value ≠ [] ∧ (trim value).length ≤ 256 := by
  unfold validateSoundPath
  split
  · next h =>
    simp only [List.cons_ne_nil, false_iff]
    rintro ⟨hn, hr, -, -⟩
    simp [hn, hr] at h
  · next h =>
    obtain ⟨hn, hr⟩ : newline ∉ value ∧ carriageReturn ∉ value := by simpa using h
    simp [hn, hr]

theorem topicErrors_eq_nil {topics : List Bytes} :
    topicErrors topics = [] ↔ ∀ topic ∈ topics, isTopicValid topic = true := by
  unfold topicErrors
  rw [List.map_eq_nil_iff, List.filter_eq_nil_iff]
  constructor
  · intro h topic hmem
    obtain ⟨i, hi⟩ := List.mem_iff_getElem?.mp hmem
    simpa using h (topic, i) (List.mem_zipIdx_iff_getElem?.mpr hi)
  · rintro h ⟨topic, i⟩ hmem
    simpa using h topic (List.mem_of_getElem? (List.mem_zipIdx_iff_getElem?.mp hmem))

/-- What acceptance says about the fields written to `chime.conf`. -/
structure Accepted (request : SaveRequest) : Prop where
  host : request.config.mqtt_host ≠ []
  port : 1 ≤ request.config.mqtt_port ∧ request.config.mqtt_port ≤ 65535
  client_id : request.config.mqtt_client_id ≠ []
  password : request.config.mqtt_username = [] → request.mqtt_password.getD [] = []
  topics : request.config.mqtt_topics ≠ []
  topic : ∀ topic ∈ request.config.mqtt_topics, isTopicValid topic = true
  ring_topic : isTopicValid request.config.ring_topic = true
  success_sound : newline ∉ request.config.notification_success_sound_path ∧
    trim request.config.notification_success_sound_path ≠ []
  failure_sound : newline ∉ request.config.notification_failure_sound_path ∧
    trim request.config.notification_failure_sound_path ≠ []
  volume_bell : 0 ≤ request.config.volume_bell ∧ request.config.volume_bell ≤ 100
  volume_notifications :
    0 ≤ request.config.volume_notifications ∧ request.config.volume_notifications ≤ 100
  volume_other : 0 ≤ request.config.volume_other ∧ request.config.volume_other ≤ 100

theorem accepted_of_validateRequest {request : SaveRequest} (h : validateRequest request = []) :
    Accepted request := by
  unfold validateRequest at h
  dsimp only at h
  simp only [List.append_eq_nil_iff, reject_eq_nil, validateSoundPath_eq_nil,
    validateVolume, Bool.or_eq_false_iff, decide_eq_false_iff_not, Int.not_lt,
    Bool.not_eq_false'] at h
  obtain ⟨⟨⟨⟨⟨⟨⟨⟨⟨⟨⟨⟨⟨⟨⟨⟨⟨-, -⟩, hhost⟩, hport⟩, hclient⟩, -⟩, hpassword⟩, -⟩, -⟩, -⟩, -⟩, htopics⟩,
    hring⟩, hsuccess⟩, hfailure⟩, hbell⟩, hnotifications⟩, hother⟩ := h
  have hhost' : request.config.mqtt_host ≠ [] := by
    rintro hnil
    simp [hnil] at hhost
  have hclient' : request.config.mqtt_client_id ≠ [] := by
    rintro hnil
    simp [hnil] at hclient
  have htopics' : request.config.mqtt_topics ≠ [] := by
    rintro hnil
    simp [hnil] at htopics
  refine ⟨hhost', hport, hclient', ?_, htopics', ?_, hring, ⟨hsuccess.1, hsuccess.2.2.1⟩,
    ⟨hfailure.1, hfailure.2.2.1⟩, hbell, hnotifications, hother⟩
  · intro huser
    cases hgiven : request.mqtt_password with
    | none => rfl
    | some password =>
      rw [hgiven] at hpassword
      simpa [huser] using (List.append_eq_nil_iff.mp hpassword).1
  · rw [if_neg (by simpa using htopics')] at htopics
    exact topicErrors_eq_nil.mp htopics

/-! ## 3. Reading the two files -/

/-- `ReadAllLines`; `failure` is the text of `strerror(errno)` if opening an existing file fails. -/
def readAllLines (path : Bytes) (file failure : Option Bytes) : Except Bytes (List Bytes) :=
  match failure, file with
  | some message, _ => .error (bytes "failed to open file '" ++ path ++ bytes "': " ++ message)
  | none, none =>
      .error (bytes "failed to open file '" ++ path ++ bytes "': No such file or directory")
  | none, some text => .ok (getlines text)

def readAllLinesIfExists (path : Bytes) (file failure : Option Bytes) :
    Except Bytes (List Bytes) :=
  if file.isSome then readAllLines path file failure else .ok []

def parseInt (text : Bytes) (minValue maxValue : Int) : Option Int :=
  if (trim text).isEmpty then none else intInRange minValue maxValue (trim text)

theorem parseInt_bounds {lo hi n : Int} {text : Bytes} (h : parseInt text lo hi = some n) :
    lo ≤ n ∧ n ≤ hi := by
  unfold parseInt at h
  split at h
  · cases h
  · exact intInRange_bounds h

def parseBool (text : Bytes) : Option Bool :=
  if (trim text).isEmpty then none else boolSpelling ((trim text).map toLower)

/-- The value of a line that begins, once trimmed, with `key=`. -/
def exactValue (key line : Bytes) : Option Bytes :=
  let trimmed := trim line
  if trimmed.isEmpty ∨ trimmed.head? = some hash then none
  else if (key ++ [equals]).isPrefixOf trimmed then
    some (trim (trimmed.drop (key ++ [equals]).length))
  else none

def extractConfigValue (lines : List Bytes) (key : Bytes) : Bytes :=
  lines.foldl (fun output line => (exactValue key line).getD output) []

/-- The body of `StripQuotes`'s loop: `escape` is set after a backslash. -/
def unescape : Bool → Bytes → Bytes
  | _, [] => []
  | true, c :: s => c :: unescape false s
  | false, c :: s => if c = 92 then unescape true s else c :: unescape false s

def stripQuotes (value : Bytes) : Bytes :=
  let trimmed := trim value
  if trimmed.length < 2 ∨ trimmed.head? ≠ some 34 ∨ trimmed.getLast? ≠ some 34 then trimmed
  else unescape false (trimmed.drop 1).dropLast

def quoteForWpa (value : Bytes) : Bytes :=
  34 :: (value.flatMap fun c => if c = 92 ∨ c = 34 then [92, c] else [c]) ++ [34]

structure WpaData where
  lines : List Bytes
  ssid : Bytes := []
  psk : Bytes := []
  has_network_block : Bool := false
  block_start : Nat := 0
  block_end : Nat := 0
deriving DecidableEq, Repr

/-- The trimmed key and value around the first `=` of a trimmed line. -/
def wpaSetting (line : Bytes) : Option (Bytes × Bytes) :=
  (Scanner.cut equals (trim line)).map fun kv => (trim kv.1, trim kv.2)

/-- The loop of `ParseWpaData` from line `i` on; the flag is `block_closed`. -/
def parseWpaLoop : List Bytes → Nat → Bool → WpaData → WpaData × Bool
  | [], _, _, data => (data, false)
  | line :: rest, i, in_block, data =>
      if !in_block && decide (trim line = bytes "network=\x7b") then
        parseWpaLoop rest (i + 1) true { data with has_network_block := true, block_start := i }
      else if !in_block then parseWpaLoop rest (i + 1) false data
      else if trim line = bytes "\x7d" then ({ data with block_end := i }, true)
      else
        match wpaSetting line with
        | none => parseWpaLoop rest (i + 1) true data
        | some (key, value) =>
            if key = bytes "ssid" then
              parseWpaLoop rest (i + 1) true { data with ssid := stripQuotes value }
            else if key = bytes "psk" then
              parseWpaLoop rest (i + 1) true { data with psk := stripQuotes value }
            else parseWpaLoop rest (i + 1) true data

def parseWpaData (lines : List Bytes) : WpaData :=
  let (data, block_closed) := parseWpaLoop lines 0 false { lines := lines }
  if data.has_network_block && !block_closed then { data with has_network_block := false } else data

/-- The part of `LoadCoreConfigInternal` that reads the lines of `chime.conf`. -/
def readChimeLines (lines : List Bytes) : CoreConfig :=
  let defaults : ChimeConfig := {}
  let extract := fun key => extractConfigValue lines (bytes key)
  let orDefault := fun (value default : Bytes) => if value.isEmpty then default else value
  { mqtt_host := extract "mqtt_host"
    mqtt_port := (parseInt (extract "mqtt_port") 1 65535).getD 1883
    mqtt_client_id := orDefault (extract "mqtt_client_id") defaults.client_id
    mqtt_username := extract "mqtt_username"
    mqtt_password := extract "mqtt_password"
    mqtt_tls_enabled := (parseBool (extract "mqtt_tls_enabled")).getD defaults.mqtt_tls_enabled
    mqtt_tls_validate_certificate :=
      (parseBool (extract "mqtt_tls_validate_certificate")).getD
        defaults.mqtt_tls_validate_certificate
    mqtt_tls_ca_file := extract "mqtt_tls_ca_file"
    mqtt_tls_cert_file := extract "mqtt_tls_cert_file"
    mqtt_tls_key_file := extract "mqtt_tls_key_file"
    mqtt_topics := splitCsv (extract "mqtt_topics")
    ring_topic := orDefault (extract "ring_topic") defaults.ring_topic
    notification_success_sound_path :=
      orDefault (extract "notification_success_sound_path")
        defaults.notification_success_sound_path
    notification_failure_sound_path :=
      orDefault (extract "notification_failure_sound_path")
        defaults.notification_failure_sound_path
    volume_bell := (parseInt (extract "volume_bell") 0 100).getD defaults.volume_bell
    volume_notifications :=
      (parseInt (extract "volume_notifications") 0 100).getD defaults.volume_notifications
    volume_other := (parseInt (extract "volume_other") 0 100).getD defaults.volume_other }

def snapshotOf (chimeLines wpaLines : List Bytes) : CoreConfigSnapshot :=
  let config := readChimeLines chimeLines
  let wpa := parseWpaData wpaLines
  { config := { config with wifi_ssid := wpa.ssid }
    wifi_password_set := !wpa.psk.isEmpty
    mqtt_password_set := !config.mqtt_password.isEmpty }

/-- `LoadCoreConfigInternal`; the two failures are those of opening `chime.conf` and
`wpa_supplicant.conf`. -/
def loadCoreConfig (store : ConfigStore) (disk : Disk) (chimeOpen wpaOpen : Option Bytes) :
    SaveResult :=
  match readAllLines store.chime_config_path disk.chime_config chimeOpen with
  | .error error => { error := error }
  | .ok chimeLines =>
      match readAllLinesIfExists store.wpa_supplicant_path disk.wpa_supplicant wpaOpen with
      | .error error => { error := error }
      | .ok wpaLines => { success := true, snapshot := snapshotOf chimeLines wpaLines }

/-! ## 4. Rewriting `chime.conf` -/

def joinLines (lines : List Bytes) : Bytes :=
  if lines.isEmpty then [newline] else Scanner.joinLines newline lines

def joinCsv (items : List Bytes) : Bytes := [comma].intercalate items

def boolToConfig (value : Bool) : Bytes := if value then bytes "true" else bytes "false"

/-- The password `SaveChimeConfig` writes. -/
def savedMqttPassword (request : SaveRequest) (existing : CoreConfig) : Bytes :=
  if request.config.mqtt_username.isEmpty then []
  else
    match request.mqtt_password with
    | some password =>
        if password.isEmpty then
          if request.config.mqtt_username ≠ existing.mqtt_username then []
          else existing.mqtt_password
        else password
    | none =>
        if request.config.mqtt_username ≠ existing.mqtt_username then []
        else existing.mqtt_password

/-- The map `replacements`, in the order a `std::map` is walked. -/
def replacements (config : CoreConfig) (mqttPassword : Bytes) : List (Bytes × Bytes) := [
  (bytes "mqtt_client_id", config.mqtt_client_id),
  (bytes "mqtt_host", config.mqtt_host),
  (bytes "mqtt_password", mqttPassword),
  (bytes "mqtt_port", toDecimal config.mqtt_port),
  (bytes "mqtt_tls_ca_file", config.mqtt_tls_ca_file),
  (bytes "mqtt_tls_cert_file", config.mqtt_tls_cert_file),
  (bytes "mqtt_tls_enabled", boolToConfig config.mqtt_tls_enabled),
  (bytes "mqtt_tls_key_file", config.mqtt_tls_key_file),
  (bytes "mqtt_tls_validate_certificate", boolToConfig config.mqtt_tls_validate_certificate),
  (bytes "mqtt_topics", joinCsv config.mqtt_topics),
  (bytes "mqtt_username", config.mqtt_username),
  (bytes "notification_failure_sound_path", config.notification_failure_sound_path),
  (bytes "notification_success_sound_path", config.notification_success_sound_path),
  (bytes "ring_topic", config.ring_topic),
  (bytes "volume_bell", toDecimal config.volume_bell),
  (bytes "volume_notifications", toDecimal config.volume_notifications),
  (bytes "volume_other", toDecimal config.volume_other)]

/-- The key and new value of a line that is to be rewritten. -/
def replacementFor (table : List (Bytes × Bytes)) (line : Bytes) : Option (Bytes × Bytes) :=
  (parseLine line).bind fun entry => table.find? fun row => row.1 = entry.1

def settingLine (row : Bytes × Bytes) : Bytes := row.1 ++ equals :: row.2

/-- The rewriting loop: the new lines and the keys put into `seen`. -/
def rewriteLines (table : List (Bytes × Bytes)) : List Bytes → List Bytes × List Bytes
  | [] => ([], [])
  | line :: rest =>
      let (lines, seen) := rewriteLines table rest
      match replacementFor table line with
      | none => (line :: lines, seen)
      | some row => (settingLine row :: lines, row.1 :: seen)

/-- The lines `SaveChimeConfig` writes: the rewritten ones, then the keys not seen. -/
def chimeLines (table : List (Bytes × Bytes)) (lines : List Bytes) : List Bytes :=
  let (rewritten, seen) := rewriteLines table lines
  rewritten ++ ((table.filter fun row => !seen.contains row.1).map settingLine)

/-- The content `SaveChimeConfig` writes over a file with the given lines. -/
def chimeContent (request : SaveRequest) (existing : CoreConfig) (lines : List Bytes) : Bytes :=
  joinLines (chimeLines (replacements request.config (savedMqttPassword request existing)) lines)

/-! ## 5. Rewriting `wpa_supplicant.conf` -/

/-- The passphrase `SaveWpaSupplicant` writes, or its error. -/
def savedWifiPassword (request : SaveRequest) (psk : Bytes) : Except Bytes Bytes :=
  match request.wifi_password with
  | some password =>
      if password.isEmpty then
        if psk.isEmpty then
          .error (bytes "wifi_password is blank and no existing password is available")
        else .ok psk
      else .ok password
  | none =>
      if psk.isEmpty then
        .error (bytes "wifi_password is missing and no existing password is available")
      else .ok psk

/-- A line of the network block after the rewriting loop. -/
def rewriteWpaLine (ssidLine pskLine line : Bytes) : Bytes :=
  match wpaSetting line with
  | none => line
  | some (key, _) =>
      if key = bytes "ssid" then ssidLine else if key = bytes "psk" then pskLine else line

def hasWpaKey (key line : Bytes) : Bool := (wpaSetting line).any fun entry => entry.1 = key

/-- The lines `SaveWpaSupplicant` writes. -/
def wpaLines (ssidLine pskLine : Bytes) (parsed : WpaData) (lines : List Bytes) : List Bytes :=
  if !parsed.has_network_block then
    (if !lines.isEmpty && lines.getLast? != some [] then lines ++ [[]] else lines) ++
      [bytes "network=\x7b", ssidLine, pskLine, bytes "\x7d"]
  else
    let inBlock := fun i => decide (parsed.block_start < i) && decide (i < parsed.block_end)
    let written := fun key => lines.zipIdx.any fun entry => inBlock entry.2 && hasWpaKey key entry.1
    let rewritten := lines.mapIdx fun i line =>
      if inBlock i then rewriteWpaLine ssidLine pskLine line else line
    let ssid_written := written (bytes "ssid")
    let psk_written := written (bytes "psk")
    let withSsid :=
      if ssid_written then rewritten else rewritten.insertIdx parsed.block_end ssidLine
    let insert_pos := if ssid_written then parsed.block_end else parsed.block_end + 1
    if psk_written then withSsid else withSsid.insertIdx insert_pos pskLine

def wpaPreamble : List Bytes :=
  [bytes "ctrl_interface=/var/run/wpa_supplicant", bytes "update_config=1", bytes "country=US", []]

/-- The content `SaveWpaSupplicant` writes over a file with the given lines, or its error. -/
def wpaContent (request : SaveRequest) (oldLines : List Bytes) : Except Bytes Bytes :=
  let lines := if oldLines.isEmpty then wpaPreamble else oldLines
  let parsed := parseWpaData lines
  match savedWifiPassword request parsed.psk with
  | .error error => .error error
  | .ok password =>
      let ssidLine := bytes "    ssid=" ++ quoteForWpa request.config.wifi_ssid
      let pskLine := bytes "    psk=" ++ quoteForWpa password
      .ok (joinLines (wpaLines ssidLine pskLine parsed lines))

/-! ## 6. Saving -/

/-- The outcome of every file operation of one `SaveCoreConfig`, in the order they are made. -/
structure SaveFaults where
  existing_chime_open : Option Bytes := none
  existing_wpa_open : Option Bytes := none
  wpa_open : Option Bytes := none
  wpa_write : WriteOutcome := {}
  chime_open : Option Bytes := none
  chime_write : WriteOutcome := {}
  loaded_chime_open : Option Bytes := none
  loaded_wpa_open : Option Bytes := none
deriving DecidableEq, Repr

/-- `SaveWpaSupplicant`: the error if it returns false, and the disk afterwards. -/
def saveWpaSupplicant (store : ConfigStore) (request : SaveRequest) (faults : SaveFaults)
    (disk : Disk) : Except Bytes Unit × Disk :=
  match readAllLinesIfExists store.wpa_supplicant_path disk.wpa_supplicant faults.wpa_open with
  | .error error => (.error error, disk)
  | .ok lines =>
      match wpaContent request lines with
      | .error error => (.error error, disk)
      | .ok content =>
          let (result, file) := atomicWriteFile store.wpa_supplicant_path content faults.wpa_write
            disk.wpa_supplicant
          (result, { disk with wpa_supplicant := file })

/-- `SaveChimeConfig`: the error if it returns false, and the disk afterwards. -/
def saveChimeConfig (store : ConfigStore) (request : SaveRequest) (existing : CoreConfigSnapshot)
    (faults : SaveFaults) (disk : Disk) : Except Bytes Unit × Disk :=
  match readAllLines store.chime_config_path disk.chime_config faults.chime_open with
  | .error error => (.error error, disk)
  | .ok lines =>
      let (result, file) := atomicWriteFile store.chime_config_path
        (chimeContent request existing.config lines) faults.chime_write disk.chime_config
      (result, { disk with chime_config := file })

def saveCoreConfig (store : ConfigStore) (request : SaveRequest) (faults : SaveFaults)
    (disk : Disk) : SaveResult × Disk :=
  let validation_errors := validateRequest request
  if !validation_errors.isEmpty then
    ({ error := bytes "validation_failed", validation_errors := validation_errors }, disk)
  else
    let existing := loadCoreConfig store disk faults.existing_chime_open faults.existing_wpa_open
    if !existing.success then (existing, disk)
    else
      match saveWpaSupplicant store request faults disk with
      | (.error error, disk) => ({ error := error }, disk)
      | (.ok (), disk) =>
          match saveChimeConfig store request existing.snapshot faults disk with
          | (.error error, disk) => ({ error := error }, disk)
          | (.ok (), disk) =>
              (loadCoreConfig store disk faults.loaded_chime_open faults.loaded_wpa_open, disk)

/-! ## 7. What a save can do -/

/-- The lines the store works from where there is no `wpa_supplicant.conf`: none. -/
def Disk.wpaLines (disk : Disk) : List Bytes := (disk.wpa_supplicant.map getlines).getD []

/-- The snapshot `SaveCoreConfig` takes before it writes. -/
def existingSnapshot (store : ConfigStore) (faults : SaveFaults) (disk : Disk) : SaveResult :=
  loadCoreConfig store disk faults.existing_chime_open faults.existing_wpa_open

/-- The disk after a complete save over the given `chime.conf`, with this `wpa_supplicant.conf`. -/
def savedDisk (request : SaveRequest) (chime wpa : Bytes) : Disk :=
  ⟨some (chimeContent request (readChimeLines (getlines chime)) (getlines chime)), some wpa⟩

/-- The ways a save can end, by the step that fails. -/
inductive SaveCase (store : ConfigStore) (request : SaveRequest) (faults : SaveFaults)
    (disk : Disk) : SaveResult × Disk → Prop where
  | rejected (invalid : validateRequest request ≠ []) :
      SaveCase store request faults disk
        ({ error := bytes "validation_failed", validation_errors := validateRequest request }, disk)
  | unreadable (failed : (existingSnapshot store faults disk).success = false) :
      SaveCase store request faults disk (existingSnapshot store faults disk, disk)
  | wpaFailed {message : Bytes}
      (failed : saveWpaSupplicant store request faults disk = (.error message, disk)) :
      SaveCase store request faults disk ({ error := message }, disk)
  | chimeFailed {wpa message : Bytes} (accepted : validateRequest request = [])
      (new_wpa : wpaContent request disk.wpaLines = .ok wpa)
      (failed : saveChimeConfig store request (existingSnapshot store faults disk).snapshot faults
        { disk with wpa_supplicant := some wpa } =
          (.error message, { disk with wpa_supplicant := some wpa })) :
      SaveCase store request faults disk
        ({ error := message }, { disk with wpa_supplicant := some wpa })
  | bothReplaced {chime wpa : Bytes} (accepted : validateRequest request = [])
      (old_chime : disk.chime_config = some chime)
      (new_wpa : wpaContent request disk.wpaLines = .ok wpa) :
      SaveCase store request faults disk
        (loadCoreConfig store (savedDisk request chime wpa) faults.loaded_chime_open
          faults.loaded_wpa_open, savedDisk request chime wpa)

theorem readAllLines_ok {path : Bytes} {file failure : Option Bytes} {lines : List Bytes}
    (h : readAllLines path file failure = .ok lines) :
    ∃ text, file = some text ∧ lines = getlines text := by
  unfold readAllLines at h
  split at h
  · cases h
  · cases h
  · next text => exact ⟨text, rfl, (Except.ok.inj h).symm⟩

theorem readAllLinesIfExists_ok {path : Bytes} {file failure : Option Bytes} {lines : List Bytes}
    (h : readAllLinesIfExists path file failure = .ok lines) :
    lines = (file.map getlines).getD [] := by
  unfold readAllLinesIfExists at h
  split at h
  · obtain ⟨text, rfl, rfl⟩ := readAllLines_ok h
    rfl
  · next hnone =>
    rw [Option.not_isSome_iff_eq_none.mp hnone]
    exact (Except.ok.inj h).symm

theorem saveWpaSupplicant_cases (store : ConfigStore) (request : SaveRequest)
    (faults : SaveFaults) (disk : Disk) :
    (∃ message, saveWpaSupplicant store request faults disk = (.error message, disk)) ∨
      ∃ wpa, wpaContent request disk.wpaLines = .ok wpa ∧
        saveWpaSupplicant store request faults disk =
          (.ok (), { disk with wpa_supplicant := some wpa }) := by
  unfold saveWpaSupplicant
  rcases hread : readAllLinesIfExists store.wpa_supplicant_path disk.wpa_supplicant
    faults.wpa_open with message | lines
  · exact Or.inl ⟨message, rfl⟩
  · have hlines : lines = disk.wpaLines := readAllLinesIfExists_ok hread
    rcases hcontent : wpaContent request lines with message | wpa
    · simp only [hcontent]
      exact Or.inl ⟨message, rfl⟩
    · simp only [hcontent]
      rcases atomicWriteFile_cases store.wpa_supplicant_path wpa faults.wpa_write
        disk.wpa_supplicant with ⟨message, hw⟩ | hw
      · rw [hw]
        exact Or.inl ⟨message, rfl⟩
      · rw [hw]
        exact Or.inr ⟨wpa, hlines ▸ hcontent, rfl⟩

theorem saveChimeConfig_cases (store : ConfigStore) (request : SaveRequest)
    (existing : CoreConfigSnapshot) (faults : SaveFaults) (disk : Disk) :
    (∃ message, saveChimeConfig store request existing faults disk = (.error message, disk)) ∨
      ∃ chime, disk.chime_config = some chime ∧
        saveChimeConfig store request existing faults disk =
          (.ok (), { disk with
            chime_config := some (chimeContent request existing.config (getlines chime)) }) := by
  unfold saveChimeConfig
  rcases hread : readAllLines store.chime_config_path disk.chime_config faults.chime_open with
    message | lines
  · exact Or.inl ⟨message, rfl⟩
  · obtain ⟨chime, hchime, rfl⟩ := readAllLines_ok hread
    rcases atomicWriteFile_cases store.chime_config_path
      (chimeContent request existing.config (getlines chime)) faults.chime_write
      disk.chime_config with ⟨message, hw⟩ | hw
    · simp only [hw]
      exact Or.inl ⟨message, rfl⟩
    · simp only [hw]
      exact Or.inr ⟨chime, hchime, rfl⟩

theorem loadCoreConfig_success {store : ConfigStore} {disk : Disk}
    {chimeOpen wpaOpen : Option Bytes}
    (h : (loadCoreConfig store disk chimeOpen wpaOpen).success = true) :
    ∃ chime, disk.chime_config = some chime ∧
      loadCoreConfig store disk chimeOpen wpaOpen =
        { success := true, snapshot := snapshotOf (getlines chime) disk.wpaLines } := by
  unfold loadCoreConfig at h ⊢
  rcases hchime : readAllLines store.chime_config_path disk.chime_config chimeOpen with
    message | lines
  · rw [hchime] at h
    cases h
  · obtain ⟨chime, hfile, rfl⟩ := readAllLines_ok hchime
    rcases hwpa : readAllLinesIfExists store.wpa_supplicant_path disk.wpa_supplicant wpaOpen with
      message | lines
    · rw [hchime, hwpa] at h
      cases h
    · refine ⟨chime, hfile, ?_⟩
      rw [readAllLinesIfExists_ok hwpa]
      rfl

/-- The password written depends on the snapshot's MQTT account alone. -/
theorem chimeContent_snapshot (request : SaveRequest) (chimeLines wpaLines lines : List Bytes) :
    chimeContent request (snapshotOf chimeLines wpaLines).config lines =
      chimeContent request (readChimeLines chimeLines) lines := rfl

theorem saveCoreConfig_cases (store : ConfigStore) (request : SaveRequest) (faults : SaveFaults)
    (disk : Disk) :
    SaveCase store request faults disk (saveCoreConfig store request faults disk) := by
  have hfold : loadCoreConfig store disk faults.existing_chime_open faults.existing_wpa_open =
      existingSnapshot store faults disk := rfl
  unfold saveCoreConfig
  by_cases haccepted : validateRequest request = []
  · simp only [haccepted, List.isEmpty_nil, Bool.not_true, Bool.false_eq_true, if_false, hfold]
    by_cases hexisting : (existingSnapshot store faults disk).success = true
    · obtain ⟨chime, hchime, hload⟩ := loadCoreConfig_success hexisting
      rw [hexisting]
      simp only [Bool.not_true, Bool.false_eq_true, if_false]
      rcases saveWpaSupplicant_cases store request faults disk with
        ⟨message, hwpa⟩ | ⟨wpa, hnew, hwpa⟩
      · rw [hwpa]
        exact SaveCase.wpaFailed hwpa
      · rw [hwpa]
        rcases saveChimeConfig_cases store request (existingSnapshot store faults disk).snapshot
          faults { disk with wpa_supplicant := some wpa } with ⟨message, hsave⟩ | ⟨text, htext, hsave⟩
        · simp only [hsave]
          exact SaveCase.chimeFailed haccepted hnew hsave
        · simp only [hsave]
          have heq : text = chime := by
            rw [hchime] at htext
            exact (Option.some.inj htext).symm
          subst heq
          have hexist : existingSnapshot store faults disk =
              { success := true, snapshot := snapshotOf (getlines text) disk.wpaLines } := hload
          rw [hexist, chimeContent_snapshot]
          exact SaveCase.bothReplaced haccepted hchime hnew
    · rw [Bool.not_eq_true] at hexisting
      rw [hexisting]
      exact SaveCase.unreadable hexisting
  · have hne : (validateRequest request).isEmpty = false := by simpa using haccepted
    simp only [hne, Bool.not_false, if_true]
    exact SaveCase.rejected haccepted

theorem SaveCase.succeeded {store : ConfigStore} {request : SaveRequest} {faults : SaveFaults}
    {disk : Disk} {out : SaveResult × Disk} (hcase : SaveCase store request faults disk out)
    (h : out.1.success = true) :
    ∃ chime wpa, validateRequest request = [] ∧ disk.chime_config = some chime ∧
      wpaContent request disk.wpaLines = .ok wpa ∧ out.2 = savedDisk request chime wpa := by
  cases hcase with
  | rejected => cases h
  | unreadable failed => rw [failed] at h; cases h
  | wpaFailed => cases h
  | chimeFailed => cases h
  | @bothReplaced chime wpa accepted old_chime new_wpa =>
    exact ⟨chime, wpa, accepted, old_chime, new_wpa, rfl⟩

theorem saveCoreConfig_success {store : ConfigStore} {request : SaveRequest} {faults : SaveFaults}
    {disk : Disk} (h : (saveCoreConfig store request faults disk).1.success = true) :
    ∃ chime wpa, validateRequest request = [] ∧ disk.chime_config = some chime ∧
      wpaContent request disk.wpaLines = .ok wpa ∧
      (saveCoreConfig store request faults disk).2 = savedDisk request chime wpa :=
  (saveCoreConfig_cases store request faults disk).succeeded h

/-- No file operation of the save fails. -/
structure SaveFaults.Succeeds (faults : SaveFaults) : Prop where
  existing_chime_open : faults.existing_chime_open = none
  existing_wpa_open : faults.existing_wpa_open = none
  wpa_open : faults.wpa_open = none
  wpa_write : faults.wpa_write.Succeeds
  chime_open : faults.chime_open = none
  chime_write : faults.chime_write.Succeeds
  loaded_chime_open : faults.loaded_chime_open = none
  loaded_wpa_open : faults.loaded_wpa_open = none

/-- Where no file operation fails, an accepted request over a readable configuration is saved. -/
theorem saveCoreConfig_of_succeeds (store : ConfigStore) {request : SaveRequest}
    {faults : SaveFaults} (h : faults.Succeeds) (disk : Disk) {chime wpa : Bytes}
    (accepted : validateRequest request = []) (old_chime : disk.chime_config = some chime)
    (new_wpa : wpaContent request disk.wpaLines = .ok wpa) :
    saveCoreConfig store request faults disk =
      (loadCoreConfig store (savedDisk request chime wpa) none none,
        savedDisk request chime wpa) := by
  obtain ⟨chimeFile, wpaFile⟩ := disk
  subst old_chime
  have hread : readAllLinesIfExists store.wpa_supplicant_path wpaFile none =
      .ok (Disk.wpaLines ⟨some chime, wpaFile⟩) := by
    cases wpaFile <;> rfl
  have hload : loadCoreConfig store ⟨some chime, wpaFile⟩ none none =
      { success := true
        snapshot := snapshotOf (getlines chime) (Disk.wpaLines ⟨some chime, wpaFile⟩) } := by
    rw [loadCoreConfig, hread]
    rfl
  have hwpa : saveWpaSupplicant store request faults ⟨some chime, wpaFile⟩ =
      (.ok (), ⟨some chime, some wpa⟩) := by
    rw [saveWpaSupplicant, h.wpa_open, hread]
    simp only [new_wpa]
    rw [atomicWriteFile_of_succeeds _ _ h.wpa_write]
  have hchime : ∀ existing, saveChimeConfig store request existing faults ⟨some chime, some wpa⟩ =
      (.ok (), ⟨some (chimeContent request existing.config (getlines chime)), some wpa⟩) := by
    intro existing
    rw [saveChimeConfig, h.chime_open]
    simp only [readAllLines]
    rw [atomicWriteFile_of_succeeds _ _ h.chime_write]
  unfold saveCoreConfig
  rw [h.existing_chime_open, h.existing_wpa_open, h.loaded_chime_open, h.loaded_wpa_open]
  simp only [accepted, List.isEmpty_nil, Bool.not_true, Bool.false_eq_true, if_false, hload, hwpa,
    hchime, chimeContent_snapshot]
  rfl

theorem saveCoreConfig_of_no_failure (store : ConfigStore) {request : SaveRequest} (disk : Disk)
    {chime wpa : Bytes} (accepted : validateRequest request = [])
    (old_chime : disk.chime_config = some chime)
    (new_wpa : wpaContent request disk.wpaLines = .ok wpa) :
    saveCoreConfig store request {} disk =
      (loadCoreConfig store (savedDisk request chime wpa) none none,
        savedDisk request chime wpa) :=
  saveCoreConfig_of_succeeds store ⟨rfl, rfl, rfl, succeeds_default, rfl, succeeds_default, rfl, rfl⟩
    disk accepted old_chime new_wpa

end VirtualChime.Webd
