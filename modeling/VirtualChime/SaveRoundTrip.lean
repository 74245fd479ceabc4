import VirtualChime.SavedConfig

/-!
# Saving and loading again

What the two readers find in a `chime.conf` that a save has written.  For a
request in the one-line form the web page sends, both find exactly the requested
values and the other lines of the file are kept (`save_round_trip`).  For any
accepted request the daemon's load succeeds exactly when the written topic list
holds something (`save_loads_iff`).
-/

namespace VirtualChime.Webd

open Config

/-! ## 1. Topic lists -/

theorem joinCsv_cons_cons (t u : Bytes) (ts : List Bytes) :
    joinCsv (t :: u :: ts) = t ++ comma :: joinCsv (u :: ts) := by
  simp [joinCsv, List.intercalate_cons_cons]

theorem mem_joinCsv {c : Byte} {topics : List Bytes} (h : c ∈ joinCsv topics) :
    c = comma ∨ ∃ topic ∈ topics, c ∈ topic := by
  induction topics with
  | nil => simp [joinCsv] at h
  | cons t ts ih =>
    cases ts with
    | nil => exact Or.inr ⟨t, List.mem_singleton_self t, by simpa [joinCsv] using h⟩
    | cons u ts =>
      rw [joinCsv_cons_cons, List.mem_append, List.mem_cons] at h
      rcases h with h | h | h
      · exact Or.inr ⟨t, List.mem_cons_self .., h⟩
      · exact Or.inl h
      · rcases ih h with h | ⟨topic, hmem, hc⟩
        · exact Or.inl h
        · exact Or.inr ⟨topic, List.mem_cons_of_mem _ hmem, hc⟩

theorem trim_joinCsv {topics : List Bytes} (hne : ∀ t ∈ topics, t ≠ [])
    (htrim : ∀ t ∈ topics, trim t = t) : trim (joinCsv topics) = joinCsv topics := by
  induction topics with
  | nil => rfl
  | cons t ts ih =>
    cases ts with
    | nil => simpa [joinCsv] using htrim t (List.mem_singleton_self t)
    | cons u ts =>
      have hrest := ih (fun x hx => hne x (List.mem_cons_of_mem _ hx))
        fun x hx => htrim x (List.mem_cons_of_mem _ hx)
      rw [joinCsv_cons_cons, trim_append_cons (hne t (List.mem_cons_self ..))
        (htrim t (List.mem_cons_self ..)) (by decide),
        Scanner.rdropWhile_of_strip_eq_self hrest]

theorem splitCsv_joinCsv {topics : List Bytes} (hnil : topics ≠ []) (hne : ∀ t ∈ topics, t ≠ [])
    (htrim : ∀ t ∈ topics, trim t = t) (hcomma : ∀ t ∈ topics, comma ∉ t) :
    splitCsv (joinCsv topics) = topics := by
  have hmap : topics.map trim = topics := by
    conv_rhs => rw [← List.map_id topics]
    exact List.map_congr_left htrim
  rw [splitCsv, joinCsv, List.splitOn_intercalate comma hcomma hnil, hmap]
  exact List.filter_eq_self.mpr fun t ht => by simpa using hne t ht

/-! ## 2. Requests in one-line form -/

/-- The form the web page sends: every text on one line and without blanks around it, no comma
in a topic. -/
structure OneLineRequest (request : SaveRequest) : Prop where
  mqtt_host : OneLine request.config.mqtt_host
  mqtt_client_id : OneLine request.config.mqtt_client_id
  mqtt_username : OneLine request.config.mqtt_username
  mqtt_password : ∀ password, request.mqtt_password = some password → OneLine password
  mqtt_tls_ca_file : OneLine request.config.mqtt_tls_ca_file
  mqtt_tls_cert_file : OneLine request.config.mqtt_tls_cert_file
  mqtt_tls_key_file : OneLine request.config.mqtt_tls_key_file
  mqtt_topics : ∀ topic ∈ request.config.mqtt_topics, OneLine topic ∧ comma ∉ topic
  ring_topic : OneLine request.config.ring_topic
  notification_success_sound_path : OneLine request.config.notification_success_sound_path
  notification_failure_sound_path : OneLine request.config.notification_failure_sound_path

theorem toDecimal_oneLine (n : Int) : OneLine (toDecimal n) :=
  ⟨newline_not_mem_toDecimal n, trim_toDecimal n⟩

theorem boolToConfig_oneLine (b : Bool) : OneLine (boolToConfig b) := by
  cases b <;> exact ⟨by decide, by decide⟩

theorem isTopicValid_ne_nil {topic : Bytes} (h : isTopicValid topic = true) : topic ≠ [] := by
  rintro rfl
  cases h

theorem joinCsv_oneLine {topics : List Bytes} (hne : ∀ t ∈ topics, t ≠ [])
    (h : ∀ t ∈ topics, OneLine t) : OneLine (joinCsv topics) := by
  refine ⟨fun hmem => ?_, trim_joinCsv hne fun t ht => (h t ht).2⟩
  rcases mem_joinCsv hmem with heq | ⟨t, ht, hc⟩
  · cases heq
  · exact (h t ht).1 hc

theorem savedMqttPassword_oneLine {request : SaveRequest} {lines : List Bytes}
    (hgiven : ∀ password, request.mqtt_password = some password → OneLine password)
    (hlines : ∀ line ∈ lines, newline ∉ line) :
    OneLine (savedMqttPassword request (readChimeLines lines)) := by
  have hstored : OneLine (readChimeLines lines).mqtt_password :=
    extractConfigValue_oneLine hlines _
  simp only [savedMqttPassword]
  split
  · exact oneLine_nil
  · split
    · next password hpassword =>
      split
      · split
        · exact oneLine_nil
        · exact hstored
      · exact hgiven password hpassword
    · split
      · exact oneLine_nil
      · exact hstored

theorem splitCsv_topics {request : SaveRequest} (accepted : Accepted request)
    (h : OneLineRequest request) :
    splitCsv (joinCsv request.config.mqtt_topics) = request.config.mqtt_topics :=
  splitCsv_joinCsv accepted.topics (fun t ht => isTopicValid_ne_nil (accepted.topic t ht))
    (fun t ht => (h.mqtt_topics t ht).1.2) fun t ht => (h.mqtt_topics t ht).2

theorem fieldText_oneLine {request : SaveRequest} (accepted : Accepted request)
    (h : OneLineRequest request) {mqttPassword : Bytes} (hpassword : OneLine mqttPassword)
    (key : ConfigKey) : OneLine (fieldText request.config mqttPassword key) := by
  cases key with
  | mqtt_host => exact h.mqtt_host
  | mqtt_port => exact toDecimal_oneLine _
  | mqtt_client_id => exact h.mqtt_client_id
  | mqtt_username => exact h.mqtt_username
  | mqtt_password => exact hpassword
  | mqtt_tls_enabled => exact boolToConfig_oneLine _
  | mqtt_tls_validate_certificate => exact boolToConfig_oneLine _
  | mqtt_tls_ca_file => exact h.mqtt_tls_ca_file
  | mqtt_tls_cert_file => exact h.mqtt_tls_cert_file
  | mqtt_tls_key_file => exact h.mqtt_tls_key_file
  | mqtt_topics =>
    exact joinCsv_oneLine (fun t ht => isTopicValid_ne_nil (accepted.topic t ht))
      fun t ht => (h.mqtt_topics t ht).1
  | ring_topic => exact h.ring_topic
  | notification_success_sound_path => exact h.notification_success_sound_path
  | notification_failure_sound_path => exact h.notification_failure_sound_path
  | volume_bell => exact toDecimal_oneLine _
  | volume_notifications => exact toDecimal_oneLine _
  | volume_other => exact toDecimal_oneLine _
  | _ => exact oneLine_nil

/-! ## 3. What both readers see of fields without line ends -/

section CleanFields

variable {config : CoreConfig} {mqttPassword : Bytes} {key : ConfigKey}
  (clean : ∀ g, newline ∉ fieldText config mqttPassword g) (managed : key ∈ managedKeys)
  (text : Bytes)

include clean

theorem savedLines_clean :
    savedLines config mqttPassword text =
      chimeLines (replacements config mqttPassword) (getlines text) := by
  have hne : chimeLines (replacements config mqttPassword) (getlines text) ≠ [] :=
    List.ne_nil_of_mem (settingLine_written (g := .mqtt_host) (by decide))
  apply getlines_joinLines_of_clean hne
  intro line hmem
  rcases mem_chimeLines hmem with ⟨hold, -⟩ | ⟨row, hrow, rfl⟩
  · exact newline_not_mem_of_mem_getlines hold
  · rw [replacements_eq] at hrow
    obtain ⟨g, -, rfl⟩ := List.mem_map.mp hrow
    exact newline_not_mem_settingLine g.name_plain (clean g)

/-- The lines of a saved file that set a managed key are its setting lines. -/
theorem parseLine_savedLines {line v : Bytes} (hmem : line ∈ savedLines config mqttPassword text)
    (hparse : parseLine line = some (key.name, v)) (managed : key ∈ managedKeys) :
    line = settingLine (key.name, fieldText config mqttPassword key) := by
  rw [savedLines_clean clean] at hmem
  rcases mem_chimeLines hmem with ⟨-, hkept⟩ | ⟨row, hrow, rfl⟩
  · refine absurd ?_ (replacementFor_eq_none_iff.mp hkept key.name v hparse)
    rw [replacements_keys]
    exact name_mem_managed_iff.mpr managed
  · rw [replacements_eq] at hrow
    obtain ⟨g, -, rfl⟩ := List.mem_map.mp hrow
    rw [parseLine_settingLine g.name_plain, Option.some.injEq, Prod.mk.injEq] at hparse
    rw [ConfigKey.name_injective hparse.1]

include managed

theorem getLast?_saved_clean {β : Type} {read : Bytes → Option β} {x : β}
    (own : read (trim (fieldText config mqttPassword key)) = some x) :
    (LastWins.readings key.name read
      (entries (savedLines config mqttPassword text))).getLast? = some x := by
  apply getLast?_savedLines managed
  · rw [readings_settingLine, if_pos rfl, firstLine_of_not_mem (clean key),
      laterLines_of_not_mem (clean key), own]
    rfl
  · intro g _ _ y hy
    rw [laterLines_of_not_mem (clean g)] at hy
    cases hy

/-- The web daemon reads the trimmed text of the field. -/
theorem extractConfigValue_clean :
    extractConfigValue (savedLines config mqttPassword text) key.name =
      trim (fieldText config mqttPassword key) := by
  rw [extractConfigValue_of_spelled key.name_plain]
  · exact LastWins.settle_of_getLast? (getLast?_saved_clean clean managed text rfl)
  · intro line hmem v hparse
    have hline := parseLine_savedLines clean text hmem hparse managed
    rw [hline, parseLine_settingLine key.name_plain, Option.some.injEq, Prod.mk.injEq] at hparse
    rw [hline, exactValue_settingLine key.name_plain, hparse.2]

end CleanFields

section OneLineFields

variable {config : CoreConfig} {mqttPassword : Bytes} {key : ConfigKey}
  (oneLine : ∀ g, OneLine (fieldText config mqttPassword g)) (managed : key ∈ managedKeys)
  (text : Bytes)

include oneLine

theorem savedLines_oneLine :
    savedLines config mqttPassword text =
      chimeLines (replacements config mqttPassword) (getlines text) :=
  savedLines_clean (fun g => (oneLine g).1) text

include managed

theorem loadConfig_saved (path : Bytes) {new : Bytes}
    (hnew : getlines new = savedLines config mqttPassword text)
    {x : Value} (own : key.kind.assigns (fieldText config mqttPassword key) = some x) :
    (loadConfig path (some new)).config.value key = x := by
  rw [loadConfig_value, hnew]
  apply LastWins.settle_of_getLast?
  apply getLast?_saved_clean (fun g => (oneLine g).1) managed
  rw [(oneLine key).2, own]

theorem extractConfigValue_saved :
    extractConfigValue (savedLines config mqttPassword text) key.name =
      fieldText config mqttPassword key := by
  rw [extractConfigValue_clean (fun g => (oneLine g).1) managed, (oneLine key).2]

end OneLineFields

/-! ## 4. The round trip -/

/-- The daemon's settings are the requested ones. -/
structure DaemonRuns (c : ChimeConfig) (config : CoreConfig) : Prop where
  host : c.host = config.mqtt_host
  port : c.port = config.mqtt_port
  client_id : c.client_id = config.mqtt_client_id
  mqtt_username : c.mqtt_username = config.mqtt_username
  mqtt_tls_enabled : c.mqtt_tls_enabled = config.mqtt_tls_enabled
  mqtt_tls_validate_certificate :
    c.mqtt_tls_validate_certificate = config.mqtt_tls_validate_certificate
  mqtt_tls_ca_file : c.mqtt_tls_ca_file = config.mqtt_tls_ca_file
  mqtt_tls_cert_file : c.mqtt_tls_cert_file = config.mqtt_tls_cert_file
  mqtt_tls_key_file : c.mqtt_tls_key_file = config.mqtt_tls_key_file
  topics : c.topics = config.mqtt_topics
  ring_topic : c.ring_topic = config.ring_topic
  notification_success_sound_path :
    c.notification_success_sound_path = config.notification_success_sound_path
  notification_failure_sound_path :
    c.notification_failure_sound_path = config.notification_failure_sound_path
  volume_bell : c.volume_bell = config.volume_bell
  volume_notifications : c.volume_notifications = config.volume_notifications
  volume_other : c.volume_other = config.volume_other

/-- The web daemon shows the requested values, the Wi-Fi name and the password aside. -/
def ConsoleShows (shown config : CoreConfig) : Prop :=
  { shown with wifi_ssid := config.wifi_ssid, mqtt_password := config.mqtt_password } = config

/-- The line's key, if it has one, is none of the seventeen rewritten ones. -/
def isOtherLine (line : Bytes) : Bool :=
  (parseLine line).all fun entry => !(managedKeys.map ConfigKey.name).contains entry.1

theorem isOtherLine_eq (config : CoreConfig) (mqttPassword line : Bytes) :
    isOtherLine line = (replacementFor (replacements config mqttPassword) line).isNone := by
  rw [Bool.eq_iff_iff, Option.isNone_iff_eq_none, replacementFor_eq_none_iff, replacements_keys,
    isOtherLine]
  rcases parseLine line with _ | ⟨k, v⟩
  · simp
  · simp only [Option.all_some, Bool.not_eq_true', List.contains_eq_mem, decide_eq_false_iff_not,
      Option.some.injEq, Prod.mk.injEq]
    constructor
    · rintro h k' v' ⟨rfl, -⟩
      exact h
    · intro h
      exact h k v ⟨rfl, rfl⟩

theorem intInRange_toDecimal {n lo hi : Int} (hlo : 0 ≤ lo) (hhi : hi ≤ longMax)
    (h : lo ≤ n ∧ n ≤ hi) : intInRange lo hi (toDecimal n) = some n := by
  simp only [intInRange]
  rw [strtol_toDecimal (by omega) (by omega), if_neg (by simpa using h)]

theorem boolSpelling_boolToConfig (b : Bool) :
    boolSpelling ((boolToConfig b).map toLower) = some b := by
  cases b <;> decide

theorem parseInt_toDecimal {n lo hi : Int} (hlo : 0 ≤ lo) (hhi : hi ≤ longMax)
    (h : lo ≤ n ∧ n ≤ hi) : parseInt (toDecimal n) lo hi = some n := by
  rw [parseInt, trim_toDecimal, if_neg (by simpa using toDecimal_ne_nil n)]
  exact intInRange_toDecimal hlo hhi h

theorem parseBool_boolToConfig (b : Bool) : parseBool (boolToConfig b) = some b := by
  cases b <;> decide

section Readers

variable {request : SaveRequest} {mqttPassword : Bytes} (accepted : Accepted request)
  (oneLine : OneLineRequest request) (password : OneLine mqttPassword)

include accepted oneLine password

theorem daemonRuns_saved (path : Bytes) {text new : Bytes}
    (hnew : getlines new = savedLines request.config mqttPassword text) :
    DaemonRuns (loadConfig path (some new)).config request.config := by
  have hfields := fun g => fieldText_oneLine accepted oneLine password g
  have hvalue := fun (key : ConfigKey) (managed : key ∈ managedKeys) (x : Value)
    (own : key.kind.assigns (fieldText request.config mqttPassword key) = some x) =>
      loadConfig_saved hfields managed text path hnew own
  have hcsv := splitCsv_topics accepted oneLine
  have hint := fun {lo hi n : Int} (hlo : 0 ≤ lo) (hhi : hi ≤ longMax) (h : lo ≤ n ∧ n ≤ hi) =>
    congrArg (Option.map Value.number) (intInRange_toDecimal hlo hhi h)
  have hflag := fun b => congrArg (Option.map Value.flag) (boolSpelling_boolToConfig b)
  constructor
  · exact Value.text.inj (hvalue .mqtt_host (by decide) _ rfl)
  · exact Value.number.inj (hvalue .mqtt_port (by decide) _
      (hint (by decide) (by decide) accepted.port))
  · exact Value.text.inj (hvalue .mqtt_client_id (by decide) _ rfl)
  · exact Value.text.inj (hvalue .mqtt_username (by decide) _ rfl)
  · exact Value.flag.inj (hvalue .mqtt_tls_enabled (by decide) _ (hflag _))
  · exact Value.flag.inj (hvalue .mqtt_tls_validate_certificate (by decide) _ (hflag _))
  · exact Value.text.inj (hvalue .mqtt_tls_ca_file (by decide) _ rfl)
  · exact Value.text.inj (hvalue .mqtt_tls_cert_file (by decide) _ rfl)
  · exact Value.text.inj (hvalue .mqtt_tls_key_file (by decide) _ rfl)
  · rw [← hcsv]
    exact Value.list.inj (hvalue .mqtt_topics (by decide) _ rfl)
  · exact Value.text.inj (hvalue .ring_topic (by decide) _ rfl)
  · exact Value.text.inj (hvalue .notification_success_sound_path (by decide) _ rfl)
  · exact Value.text.inj (hvalue .notification_failure_sound_path (by decide) _ rfl)
  · exact Value.number.inj (hvalue .volume_bell (by decide) _
      (hint (by decide) (by decide) accepted.volume_bell))
  · exact Value.number.inj (hvalue .volume_notifications (by decide) _
      (hint (by decide) (by decide) accepted.volume_notifications))
  · exact Value.number.inj (hvalue .volume_other (by decide) _
      (hint (by decide) (by decide) accepted.volume_other))

theorem consoleShows_saved (text : Bytes) :
    ConsoleShows (readChimeLines (savedLines request.config mqttPassword text))
      request.config := by
  have hextract := fun key (managed : key ∈ managedKeys) => extractConfigValue_saved
    (fun g => fieldText_oneLine accepted oneLine password g) managed text
  have hcsv := splitCsv_topics accepted oneLine
  have hring : request.config.ring_topic ≠ [] := isTopicValid_ne_nil accepted.ring_topic
  have hsuccess : request.config.notification_success_sound_path ≠ [] :=
    fun h => accepted.success_sound.2 (by rw [h]; rfl)
  have hfailure : request.config.notification_failure_sound_path ≠ [] :=
    fun h => accepted.failure_sound.2 (by rw [h]; rfl)
  have htext : ∀ {value default : Bytes}, value ≠ [] →
      (if value.isEmpty then default else value) = value := by
    intro value default hne
    rw [if_neg (by simpa using hne)]
  generalize savedLines request.config mqttPassword text = lines at hextract
  have hhost := hextract .mqtt_host (by decide)
  have hport := hextract .mqtt_port (by decide)
  have hclient := hextract .mqtt_client_id (by decide)
  have huser := hextract .mqtt_username (by decide)
  have htls := hextract .mqtt_tls_enabled (by decide)
  have hvalidate := hextract .mqtt_tls_validate_certificate (by decide)
  have hca := hextract .mqtt_tls_ca_file (by decide)
  have hcert := hextract .mqtt_tls_cert_file (by decide)
  have hkey := hextract .mqtt_tls_key_file (by decide)
  have htopics := hextract .mqtt_topics (by decide)
  have hringText := hextract .ring_topic (by decide)
  have hsuccessText := hextract .notification_success_sound_path (by decide)
  have hfailureText := hextract .notification_failure_sound_path (by decide)
  have hbell := hextract .volume_bell (by decide)
  have hnotifications := hextract .volume_notifications (by decide)
  have hother := hextract .volume_other (by decide)
  simp only [ConfigKey.name, fieldText] at *
  simp only [ConsoleShows, readChimeLines, hhost, hport, hclient, huser, htls, hvalidate, hca,
    hcert, hkey, htopics, hringText, hsuccessText, hfailureText, hbell, hnotifications, hother,
    parseInt_toDecimal (by decide) (by decide) accepted.port,
    parseInt_toDecimal (by decide) (by decide) accepted.volume_bell,
    parseInt_toDecimal (by decide) (by decide) accepted.volume_notifications,
    parseInt_toDecimal (by decide) (by decide) accepted.volume_other,
    parseBool_boolToConfig, hcsv, htext hring, htext hsuccess, htext hfailure,
    htext accepted.client_id, Option.getD_some]

omit oneLine password in
/-- The daemon accepts every file whose written topic list it reads as nonempty. -/
theorem loadConfig_saved_success_iff (path : Bytes) {text new : Bytes}
    (hnew : getlines new = savedLines request.config mqttPassword text) :
    (loadConfig path (some new)).success = true ↔
      ∃ v ∈ valuesFor ConfigKey.mqtt_topics.name (savedLines request.config mqttPassword text),
        splitCsv v ≠ [] := by
  rw [loadConfig_success_iff, hnew]
  have hvalue : ∀ key ∈ managedKeys, ∀ v,
      v ∈ valuesFor key.name (savedLines request.config mqttPassword text) ↔
        some (trim (firstLine (fieldText request.config mqttPassword key))) = some v ∨
          ∃ g ∈ managedKeys, v ∈ valuesFor key.name
            (laterLines (fieldText request.config mqttPassword g)) :=
    fun _ managed _ => mem_readings_savedLines managed
  constructor
  · intro h
    obtain ⟨v, hv, haccepts⟩ := h .mqtt_topics rfl
    exact ⟨v, hv, by simpa [Kind.accepts, ConfigKey.kind] using haccepts⟩
  · rintro ⟨v, hv, hne⟩ key hrequired
    cases key with
    | mqtt_host => exact ⟨_, (hvalue .mqtt_host (by decide) _).mpr (Or.inl rfl), rfl⟩
    | mqtt_port =>
      refine ⟨_, (hvalue .mqtt_port (by decide) _).mpr (Or.inl rfl), ?_⟩
      have hport : OneLine (fieldText request.config mqttPassword .mqtt_port) :=
        toDecimal_oneLine _
      rw [hport.firstLine]
      have hread := intInRange_toDecimal (by decide) (by decide) accepted.port
      simp only [fieldText, ConfigKey.kind, Kind.accepts, hread, Option.isSome_some]
    | mqtt_topics => exact ⟨v, hv, by simpa [Kind.accepts, ConfigKey.kind] using hne⟩
    | _ => cases hrequired

end Readers

theorem loadCoreConfig_savedDisk (store : ConfigStore) (request : SaveRequest)
    (chime wpa : Bytes) :
    loadCoreConfig store (savedDisk request chime wpa) none none =
      { success := true
        snapshot := snapshotOf (savedLines request.config
          (savedMqttPassword request (readChimeLines (getlines chime))) chime) (getlines wpa) } :=
  rfl

theorem consoleShows_snapshotOf {chimeLines wpaLines : List Bytes} {config : CoreConfig} :
    ConsoleShows (snapshotOf chimeLines wpaLines).config config ↔
      ConsoleShows (readChimeLines chimeLines) config := Iff.rfl

theorem daemonRuns_of_save {store : ConfigStore} {request : SaveRequest} {faults : SaveFaults}
    {disk : Disk} (oneLine : OneLineRequest request)
    (saved : (saveCoreConfig store request faults disk).1.success = true) (path : Bytes) :
    DaemonRuns (loadConfig path (saveCoreConfig store request faults disk).2.chime_config).config
      request.config := by
  obtain ⟨old, wpa, hvalid, -, -, hdisk⟩ := saveCoreConfig_success saved
  rw [hdisk]
  exact daemonRuns_saved (accepted_of_validateRequest hvalid) oneLine
    (savedMqttPassword_oneLine oneLine.mqtt_password fun _ => newline_not_mem_of_mem_getlines) path
    (getlines_chimeContent request (readChimeLines (getlines old)) old)

/-- A save followed by a load, for requests in the form the web page sends. -/
theorem save_round_trip (store : ConfigStore) (request : SaveRequest) (faults : SaveFaults)
    (disk : Disk) (path : Bytes) (oneLine : OneLineRequest request)
    (saved : (saveCoreConfig store request faults disk).1.success = true) :
    ∃ old new, disk.chime_config = some old ∧
      (saveCoreConfig store request faults disk).2.chime_config = some new ∧
      (loadConfig path (some new)).success = true ∧
      DaemonRuns (loadConfig path (some new)).config request.config ∧
      (loadCoreConfig store (saveCoreConfig store request faults disk).2 none none).success = true ∧
      ConsoleShows (loadCoreConfig store (saveCoreConfig store request faults disk).2
        none none).snapshot.config request.config ∧
      ((getlines old).filter isOtherLine).Sublist (getlines new) := by
  have hruns := daemonRuns_of_save oneLine saved path
  obtain ⟨old, wpa, hvalid, hold, -, hdisk⟩ := saveCoreConfig_success saved
  have accepted := accepted_of_validateRequest hvalid
  have password : OneLine (savedMqttPassword request (readChimeLines (getlines old))) :=
    savedMqttPassword_oneLine oneLine.mqtt_password fun _ => newline_not_mem_of_mem_getlines
  have hfields := fun g => fieldText_oneLine accepted oneLine password g
  have hnew := getlines_chimeContent request (readChimeLines (getlines old)) old
  rw [hdisk] at hruns
  rw [hdisk, loadCoreConfig_savedDisk]
  refine ⟨old, _, hold, rfl, ?_, hruns, rfl, ?_, ?_⟩
  · rw [loadConfig_saved_success_iff accepted path hnew]
    refine ⟨_, (mem_readings_savedLines (by decide)).mpr (Or.inl rfl), ?_⟩
    rw [(hfields .mqtt_topics).firstLine, fieldText, splitCsv_topics accepted oneLine]
    exact accepted.topics
  · rw [consoleShows_snapshotOf]
    exact consoleShows_saved accepted oneLine password old
  · rw [hnew, savedLines_oneLine hfields, List.filter_congr fun line _ =>
      isOtherLine_eq request.config
        (savedMqttPassword request (readChimeLines (getlines old))) line]
    exact kept_sublist_chimeLines

def sampleRequest : SaveRequest where
  config :=
    { wifi_ssid := bytes "home", mqtt_host := bytes "broker",
      mqtt_topics := [bytes "doorbell/ring", bytes "home/+"] }
  wifi_password := some (bytes "password1")
  mqtt_password := none

/-- A device whose `chime.conf` has a repeated key, blanks, a CRLF ending and missing keys. -/
def sampleDisk : Disk where
  chime_config := some (bytes
    "mqtt_host = old\r\n# a note\naudio_enabled=true\nmqtt_host=older\nmqtt_port = 70000\nx")
  wpa_supplicant := none

theorem sampleRequest_oneLine : OneLineRequest sampleRequest where
  mqtt_host := by decide
  mqtt_client_id := by decide
  mqtt_username := by decide
  mqtt_password := by intro password h; cases h
  mqtt_tls_ca_file := by decide
  mqtt_tls_cert_file := by decide
  mqtt_tls_key_file := by decide
  mqtt_topics := by decide
  ring_topic := by decide
  notification_success_sound_path := by decide
  notification_failure_sound_path := by decide

theorem save_round_trip_sample :
    ∃ new, (saveCoreConfig {} sampleRequest {} sampleDisk).2.chime_config = some new ∧
      DaemonRuns (loadConfig [] (some new)).config sampleRequest.config := by
  obtain ⟨old, new, -, hnew, -, hruns, -, -, -⟩ := save_round_trip {} sampleRequest {} sampleDisk []
    sampleRequest_oneLine (by decide +kernel)
  exact ⟨new, hnew, hruns⟩

/-! ## 5. Files the daemon accepts -/

/-- The text of a topic list holds a byte that belongs to a topic. -/
def HoldsTopic (csv : Bytes) : Prop := ∃ c ∈ csv, c ≠ comma ∧ isBlank c = false

/-- The first line of the joined topics holds a topic, or a later line of some field sets the
topics to a list that does. -/
def ListsTopic (request : SaveRequest) : Prop :=
  HoldsTopic (firstLine (joinCsv request.config.mqtt_topics)) ∨
    ∃ key ∈ managedKeys, ∃ v ∈ valuesFor ConfigKey.mqtt_topics.name
      (laterLines (fieldText request.config (request.mqtt_password.getD []) key)), HoldsTopic v

theorem splitCsv_trim_ne_nil_iff {csv : Bytes} : splitCsv (trim csv) ≠ [] ↔ HoldsTopic csv := by
  rw [splitCsv_ne_nil_iff]
  constructor
  · rintro ⟨c, hc, h⟩
    exact ⟨c, mem_of_mem_trim hc, h⟩
  · rintro ⟨c, hc, hne, hb⟩
    exact ⟨c, Scanner.mem_strip_of_mem hc hb, hne, hb⟩

/-- The password written has the later lines of the given one: a stored one has none. -/
theorem laterLines_savedMqttPassword {request : SaveRequest} (accepted : Accepted request)
    {lines : List Bytes} (hlines : ∀ line ∈ lines, newline ∉ line) :
    laterLines (savedMqttPassword request (readChimeLines lines)) =
      laterLines (request.mqtt_password.getD []) := by
  have hstored : laterLines (readChimeLines lines).mqtt_password = [] :=
    (extractConfigValue_oneLine hlines _).laterLines
  have hkept : laterLines
      (if request.config.mqtt_username ≠ (readChimeLines lines).mqtt_username then []
        else (readChimeLines lines).mqtt_password) = [] := by
    split
    · rfl
    · exact hstored
  simp only [savedMqttPassword]
  split
  · next huser =>
    rw [accepted.password (by simpa using huser)]
  · cases hpassword : request.mqtt_password with
    | none => exact hkept
    | some password =>
      cases password with
      | nil => exact hkept
      | cons c s => rfl

theorem fieldText_of_ne_password (config : CoreConfig) (p q : Bytes) {key : ConfigKey}
    (h : key ≠ .mqtt_password) : fieldText config p key = fieldText config q key := by
  cases key with
  | mqtt_password => exact absurd rfl h
  | _ => rfl

/-- The daemon loads a saved file exactly when the request lists a topic in it. -/
theorem save_loads_iff (store : ConfigStore) (request : SaveRequest) (faults : SaveFaults)
    (disk : Disk) (path : Bytes)
    (saved : (saveCoreConfig store request faults disk).1.success = true) :
    (loadConfig path (saveCoreConfig store request faults disk).2.chime_config).success = true ↔
      ListsTopic request := by
  obtain ⟨old, wpa, hvalid, hold, -, hdisk⟩ := saveCoreConfig_success saved
  have accepted := accepted_of_validateRequest hvalid
  rw [hdisk, savedDisk, loadConfig_saved_success_iff accepted path (getlines_chimeContent _ _ old)]
  have hlater : ∀ key, laterLines (fieldText request.config
      (savedMqttPassword request (readChimeLines (getlines old))) key) =
        laterLines (fieldText request.config (request.mqtt_password.getD []) key) := by
    intro key
    by_cases hkey : key = .mqtt_password
    · subst hkey
      exact laterLines_savedMqttPassword accepted fun _ => newline_not_mem_of_mem_getlines
    · rw [fieldText_of_ne_password _ _ _ hkey]
  have hvalues : ∀ v, v ∈ valuesFor ConfigKey.mqtt_topics.name
      (savedLines request.config (savedMqttPassword request (readChimeLines (getlines old))) old) ↔
        trim (firstLine (joinCsv request.config.mqtt_topics)) = v ∨
          ∃ key ∈ managedKeys, v ∈ valuesFor ConfigKey.mqtt_topics.name
            (laterLines (fieldText request.config (request.mqtt_password.getD []) key)) := by
    intro v
    rw [valuesFor, mem_readings_savedLines (by decide), Option.some.injEq]
    simp only [hlater]
    rfl
  constructor
  · rintro ⟨v, hv, hne⟩
    rcases (hvalues v).mp hv with rfl | ⟨key, hkey, hlate⟩
    · exact Or.inl (splitCsv_trim_ne_nil_iff.mp hne)
    · exact Or.inr ⟨key, hkey, v, hlate, splitCsv_ne_nil_iff.mp hne⟩
  · rintro (hfirst | ⟨key, hkey, v, hlate, hv⟩)
    · exact ⟨_, (hvalues _).mpr (Or.inl rfl), splitCsv_trim_ne_nil_iff.mpr hfirst⟩
    · exact ⟨v, (hvalues v).mpr (Or.inr ⟨key, hkey, hlate⟩), splitCsv_ne_nil_iff.mpr hv⟩

theorem save_loads_iff_sample :
    (loadConfig [] (saveCoreConfig {} sampleRequest {} sampleDisk).2.chime_config).success = true ↔
      ListsTopic sampleRequest :=
  save_loads_iff {} sampleRequest {} sampleDisk [] (by decide +kernel)

/-- A list of one comma is accepted and saved, and leaves the daemon without topics. -/
theorem save_loads_comma :
    let request := { sampleRequest with
      config := { sampleRequest.config with mqtt_topics := [bytes ","] } }
    let outcome := saveCoreConfig {} request {} sampleDisk
    validateRequest request = [] ∧ outcome.1.success = true ∧
      (loadConfig (bytes "/etc/chime.conf") outcome.2.chime_config).success = false ∧
      (loadConfig (bytes "/etc/chime.conf") outcome.2.chime_config).error =
        bytes "Missing required config key: mqtt_topics" := by
  decide +kernel

end VirtualChime.Webd
