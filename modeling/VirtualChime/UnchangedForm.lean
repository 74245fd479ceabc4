import VirtualChime.ApiResponses
import VirtualChime.SaveRoundTrip
import VirtualChime.WifiRoundTrip

/-!
# Saving an unchanged form

The web page fills its form from the body of GET and posts the fields back.  If the
user changes nothing and leaves both passwords blank, the post is accepted and the
configuration, the Wi-Fi key and the MQTT password are the same as before
(`unchanged_form`): each loss on the way there and back leaves alone what the file
readers return.
-/

namespace VirtualChime.Webd

open Config

/-! ## 1. What a stored configuration looks like -/

theorem oneLine_orDefault {value default : Bytes} (hvalue : OneLine value)
    (hdefault : OneLine default) : OneLine (if value.isEmpty then default else value) := by
  split
  · exact hdefault
  · exact hvalue

theorem oneLine_of_mem_splitCsv {csv topic : Bytes} (hcsv : newline ∉ csv)
    (h : topic ∈ splitCsv csv) : OneLine topic ∧ comma ∉ topic := by
  obtain ⟨hmem, -⟩ := List.mem_filter.mp h
  obtain ⟨piece, hpiece, rfl⟩ := List.mem_map.mp hmem
  refine ⟨⟨?_, trim_trim piece⟩, ?_⟩
  · intro hnewline
    exact hcsv (Scanner.exists_mem_splitOn.mp ⟨piece, hpiece, mem_of_mem_trim hnewline⟩).1
  · intro hcomma
    exact (Scanner.exists_mem_splitOn.mp ⟨piece, hpiece, mem_of_mem_trim hcomma⟩).2 rfl

/-- What the readers return is in the form of `OneLineRequest`. -/
theorem oneLineRequest_stored {chimeLines wpaLines : List Bytes}
    (hlines : ∀ line ∈ chimeLines, newline ∉ line) (wifi : Option Bytes) :
    OneLineRequest ⟨{ (snapshotOf chimeLines wpaLines).config with mqtt_password := [] }, wifi,
      some []⟩ := by
  have hextract : ∀ key, OneLine (extractConfigValue chimeLines key) :=
    extractConfigValue_oneLine hlines
  constructor
  · exact hextract _
  · exact oneLine_orDefault (hextract _) (by decide)
  · exact hextract _
  · intro password heq
    rw [← Option.some.inj heq]
    exact oneLine_nil
  · exact hextract _
  · exact hextract _
  · exact hextract _
  · intro topic htopic
    exact oneLine_of_mem_splitCsv (hextract _).1 htopic
  · exact oneLine_orDefault (hextract _) (by decide)
  · exact oneLine_orDefault (hextract _) (by decide)
  · exact oneLine_orDefault (hextract _) (by decide)

/-! ## 2. The posted fields -/

/-- The keys of the body of GET that a post sends back. -/
def formKeys : List Bytes := [
  bytes "wifi_ssid", bytes "mqtt_host", bytes "mqtt_port", bytes "mqtt_client_id",
  bytes "mqtt_username", bytes "mqtt_tls_enabled", bytes "mqtt_tls_validate_certificate",
  bytes "mqtt_tls_ca_file", bytes "mqtt_tls_cert_file", bytes "mqtt_tls_key_file",
  bytes "mqtt_topics", bytes "ring_topic", bytes "notification_success_sound_path",
  bytes "notification_failure_sound_path", bytes "volume_bell", bytes "volume_notifications",
  bytes "volume_other"]

/-- The posted object has the fields that were received, and blank passwords. -/
structure SameForm (received posted : JsonValue) : Prop where
  fields : ∀ key ∈ formKeys, getObjectField posted key = getObjectField received key
  wifi_password : getObjectField posted (bytes "wifi_password") = some (.string [])
  mqtt_password : getObjectField posted (bytes "mqtt_password") = some (.string [])

/-- The members of a received object and two blank passwords make the same form. -/
theorem sameForm_append (ms : List (Bytes × JsonValue)) :
    SameForm (.ofMembers ms) (.ofMembers (ms ++ [(bytes "wifi_password", .string []),
      (bytes "mqtt_password", .string [])])) := by
  have hother : ∀ key ∈ formKeys, bytes "wifi_password" ≠ key ∧ bytes "mqtt_password" ≠ key := by
    decide +kernel
  have hne : bytes "mqtt_password" ≠ bytes "wifi_password" := by decide +kernel
  constructor
  · intro key hkey
    obtain ⟨hwifi, hmqtt⟩ := hother key hkey
    simp only [JsonValue.ofMembers, getObjectField, KeyMap.get_ofList, List.reverse_append,
      List.reverse_cons, List.reverse_nil, List.nil_append, List.cons_append, KeyMap.get_cons,
      if_neg hwifi, if_neg hmqtt]
  · simp only [JsonValue.ofMembers, getObjectField, KeyMap.get_ofList, List.reverse_append,
      List.reverse_cons, List.reverse_nil, List.nil_append, List.cons_append, KeyMap.get_cons,
      if_neg hne, if_true]
  · simp only [JsonValue.ofMembers, getObjectField, KeyMap.get_ofList, List.reverse_append,
      List.reverse_cons, List.reverse_nil, List.nil_append, List.cons_append, KeyMap.get_cons,
      if_true]

/-- The received members can be posted back. -/
theorem exists_sameForm {snapshot : CoreConfigSnapshot} (ints : IntFields snapshot.config)
    (apply : ApplyReport) : ∃ body posted, parseJson body = .ok posted ∧
      SameForm (coreConfigValue snapshot apply) posted := by
  have hspelt := spelt_jsonObject (coreConfigSpelt ints apply ++
    [.string (bytes "wifi_password") [] (by decide +kernel),
      .string (bytes "mqtt_password") [] (by decide +kernel)])
  rw [List.map_append] at hspelt
  refine ⟨_, _, parseJson_of_spelt hspelt, ?_⟩
  rw [List.map_append]
  exact sameForm_append (coreConfigMembers snapshot apply)

/-- The strings of a configuration that GET sends. -/
def sentStrings (config : CoreConfig) : List Bytes := [
  config.wifi_ssid, config.mqtt_host, config.mqtt_client_id, config.mqtt_username,
  config.mqtt_tls_ca_file, config.mqtt_tls_cert_file, config.mqtt_tls_key_file, config.ring_topic,
  config.notification_success_sound_path, config.notification_failure_sound_path] ++
  config.mqtt_topics

/-- The keys of the body of GET. -/
def coreConfigKeys : List Bytes := [
  bytes "wifi_ssid", bytes "wifi_password_set", bytes "mqtt_host", bytes "mqtt_port",
  bytes "mqtt_client_id", bytes "mqtt_username", bytes "mqtt_password_set",
  bytes "mqtt_tls_enabled", bytes "mqtt_tls_validate_certificate", bytes "mqtt_tls_ca_file",
  bytes "mqtt_tls_cert_file", bytes "mqtt_tls_key_file", bytes "mqtt_topics", bytes "ring_topic",
  bytes "notification_success_sound_path", bytes "notification_failure_sound_path",
  bytes "volume_bell", bytes "volume_notifications", bytes "volume_other", bytes "apply"]

theorem nodup_coreConfigKeys : coreConfigKeys.Nodup := by decide +kernel

/-- A name that is listed once keeps its value. -/
theorem getObjectField_ofMembers {ms : List (Bytes × JsonValue)} {keys : List Bytes}
    (hkeys : ms.map Prod.fst = keys) (nodup : keys.Nodup) {i : Nat} {key : Bytes} {v : JsonValue}
    (h : ms[i]? = some (key, v)) : getObjectField (.ofMembers ms) key = some v := by
  subst hkeys
  rw [JsonValue.ofMembers, getObjectField, KeyMap.get_ofList]
  apply KeyMap.get_of_mem
  · rw [List.map_reverse]
    exact List.nodup_reverse.mpr nodup
  · exact List.mem_reverse.mpr (List.mem_of_getElem? h)

/-- The fields of an unchanged form. -/
def formFields (config : CoreConfig) : PostedFields where
  wifi_ssid := some config.wifi_ssid
  mqtt_host := some config.mqtt_host
  mqtt_port := some config.mqtt_port
  mqtt_client_id := some config.mqtt_client_id
  mqtt_username := some config.mqtt_username
  mqtt_tls_enabled := some config.mqtt_tls_enabled
  mqtt_tls_validate_certificate := some config.mqtt_tls_validate_certificate
  mqtt_tls_ca_file := some config.mqtt_tls_ca_file
  mqtt_tls_cert_file := some config.mqtt_tls_cert_file
  mqtt_tls_key_file := some config.mqtt_tls_key_file
  mqtt_topics := some config.mqtt_topics
  ring_topic := some config.ring_topic
  notification_success_sound_path := some config.notification_success_sound_path
  notification_failure_sound_path := some config.notification_failure_sound_path
  volume_bell := some config.volume_bell
  volume_notifications := some config.volume_notifications
  volume_other := some config.volume_other
  wifi_password := some []
  mqtt_password := some []

section Readers

variable {object : JsonValue} {key : Bytes}

theorem readRequired_of_field {α : Type} {convert : JsonValue → Option α} {message : Bytes}
    {field : JsonValue} {value : α} (hfield : getObjectField object key = some field)
    (hconvert : convert field = some value) :
    readRequired convert message object key = (some value, []) := by
  unfold readRequired
  simp only [hfield, hconvert]

theorem castToInt_intCast {n : Int} (h : IsInt n) : castToInt (n : ℚ) = n := by
  obtain ⟨hlow, hhigh⟩ := h
  rw [castToInt, Rat.num_intCast, Rat.den_intCast, Nat.cast_one, Int.tdiv_one, min_eq_right hhigh,
    max_eq_right hlow]

theorem readRequiredInt_of_field {n : Int} (h : IsInt n)
    (hfield : getObjectField object key = some (.number n)) :
    readRequiredInt object key = (some n, []) := by
  have hread : readRequired asNumber (bytes " must be a number") object key = (some (n : ℚ), []) :=
    readRequired_of_field hfield rfl
  rw [readRequiredInt, hread]
  simp only [castToInt_intCast h, ne_eq, not_true_eq_false, if_false]

theorem readRequiredStringArray_of_field {topics : List Bytes}
    (hfield : getObjectField object key = some (.array (topics.map JsonValue.string))) :
    readRequiredStringArray object key = (some topics, []) := by
  have hread : readRequired asArray (bytes " must be an array") object key =
      (some (topics.map JsonValue.string), []) := readRequired_of_field hfield rfl
  have hstrings : (topics.map JsonValue.string).filterMap asString = topics := by
    rw [List.filterMap_map]
    exact List.filterMap_some
  have hnone : ((topics.map JsonValue.string).zipIdx.filter
      fun entry => (asString entry.1).isNone) = [] := by
    rw [List.filter_eq_nil_iff]
    rintro ⟨item, i⟩ hitem
    obtain ⟨topic, -, rfl⟩ := List.mem_map.mp (List.fst_mem_of_mem_zipIdx hitem)
    exact Bool.false_ne_true
  rw [readRequiredStringArray, hread]
  simp only [hstrings, hnone, List.map_nil]

theorem readOptionalString_of_field {value : Bytes}
    (hfield : getObjectField object key = some (.string value)) :
    readOptionalString object key = (some value, []) := by
  rw [readOptionalString, hfield]
  rfl

end Readers

/-- A string that arrives as it was sent. -/
def Sendable (s : Bytes) : Prop := ∀ c ∈ s, 32 ≤ c.toNat ∨ c ∈ ([8, 9, 10, 12, 13] : Bytes)

instance (s : Bytes) : Decidable (Sendable s) :=
  inferInstanceAs (Decidable (∀ c ∈ s, 32 ≤ c.toNat ∨ c ∈ ([8, 9, 10, 12, 13] : Bytes)))

theorem received_topics {topics : List Bytes} (h : ∀ topic ∈ topics, Sendable topic) :
    topics.map (fun topic => JsonValue.string (received topic)) =
      topics.map JsonValue.string := by
  apply List.map_congr_left
  intro topic htopic
  rw [received_eq_self (h topic htopic)]

section Form

variable {snapshot : CoreConfigSnapshot} {apply : ApplyReport} {posted : JsonValue}
  (form : SameForm (coreConfigValue snapshot apply) posted)

include form

theorem field_of_form {i j : Nat} {key : Bytes} {v : JsonValue} (hkey : formKeys[i]? = some key)
    (hmember : (coreConfigMembers snapshot apply)[j]? = some (key, v)) :
    getObjectField posted key = some v := by
  have hkeys : (coreConfigMembers snapshot apply).map Prod.fst = coreConfigKeys := rfl
  rw [form.fields key (List.mem_of_getElem? hkey)]
  exact getObjectField_ofMembers hkeys nodup_coreConfigKeys hmember

theorem string_of_form (sendable : ∀ s ∈ sentStrings snapshot.config, Sendable s) {i j k : Nat}
    {key s : Bytes} (hkey : formKeys[i]? = some key)
    (hmember : (coreConfigMembers snapshot apply)[j]? = some (key, .string (received s)))
    (hsent : (sentStrings snapshot.config)[k]? = some s) :
    getObjectField posted key = some (.string s) := by
  rw [field_of_form form hkey hmember, received_eq_self (sendable s (List.mem_of_getElem? hsent))]

/-- The field readers get back from the form what GET was given. -/
theorem readPostedFields_of_form (ints : IntFields snapshot.config)
    (sendable : ∀ s ∈ sentStrings snapshot.config, Sendable s) :
    readPostedFields posted = (formFields snapshot.config, []) := by
  have hstring : ∀ {i j k : Nat} {key s : Bytes}, formKeys[i]? = some key →
      (coreConfigMembers snapshot apply)[j]? = some (key, .string (received s)) →
      (sentStrings snapshot.config)[k]? = some s →
      readRequiredString posted key = (some s, []) := fun hkey hmember hsent =>
    readRequired_of_field (string_of_form form sendable hkey hmember hsent) rfl
  have hpath : ∀ {i j k : Nat} {key s : Bytes}, formKeys[i]? = some key →
      (coreConfigMembers snapshot apply)[j]? = some (key, .string (received s)) →
      (sentStrings snapshot.config)[k]? = some s →
      readOptionalString posted key = (some s, []) := fun hkey hmember hsent =>
    readOptionalString_of_field (string_of_form form sendable hkey hmember hsent)
  have hbool : ∀ {i j : Nat} {key : Bytes} {b : Bool}, formKeys[i]? = some key →
      (coreConfigMembers snapshot apply)[j]? = some (key, .bool b) →
      readRequiredBool posted key = (some b, []) := fun hkey hmember =>
    readRequired_of_field (field_of_form form hkey hmember) rfl
  have hint : ∀ {i j : Nat} {key : Bytes} {n : Int}, IsInt n → formKeys[i]? = some key →
      (coreConfigMembers snapshot apply)[j]? = some (key, .number n) →
      readRequiredInt posted key = (some n, []) := fun hn hkey hmember =>
    readRequiredInt_of_field hn (field_of_form form hkey hmember)
  have mqtt_topics : readRequiredStringArray posted (bytes "mqtt_topics") =
      (some snapshot.config.mqtt_topics, []) := by
    apply readRequiredStringArray_of_field
    rw [← received_topics fun topic htopic => sendable topic (List.mem_append_right _ htopic)]
    exact field_of_form form (i := 10) (j := 12) rfl rfl
  have wifi_ssid := hstring (i := 0) (j := 0) (k := 0) rfl rfl rfl
  have mqtt_host := hstring (i := 1) (j := 2) (k := 1) rfl rfl rfl
  have mqtt_port := hint ints.mqtt_port (i := 2) (j := 3) rfl rfl
  have mqtt_client_id := hstring (i := 3) (j := 4) (k := 2) rfl rfl rfl
  have mqtt_username := hstring (i := 4) (j := 5) (k := 3) rfl rfl rfl
  have mqtt_tls_enabled := hbool (i := 5) (j := 7) rfl rfl
  have mqtt_tls_validate_certificate := hbool (i := 6) (j := 8) rfl rfl
  have mqtt_tls_ca_file := hstring (i := 7) (j := 9) (k := 4) rfl rfl rfl
  have mqtt_tls_cert_file := hstring (i := 8) (j := 10) (k := 5) rfl rfl rfl
  have mqtt_tls_key_file := hstring (i := 9) (j := 11) (k := 6) rfl rfl rfl
  have ring_topic := hstring (i := 11) (j := 13) (k := 7) rfl rfl rfl
  have success_path := hpath (i := 12) (j := 14) (k := 8) rfl rfl rfl
  have failure_path := hpath (i := 13) (j := 15) (k := 9) rfl rfl rfl
  have volume_bell := hint ints.volume_bell (i := 14) (j := 16) rfl rfl
  have volume_notifications := hint ints.volume_notifications (i := 15) (j := 17) rfl rfl
  have volume_other := hint ints.volume_other (i := 16) (j := 18) rfl rfl
  have wifi_password := readOptionalString_of_field form.wifi_password
  have mqtt_password := readOptionalString_of_field form.mqtt_password
  unfold readPostedFields
  simp only [wifi_ssid, mqtt_host, mqtt_port, mqtt_client_id, mqtt_username, mqtt_tls_enabled,
    mqtt_tls_validate_certificate, mqtt_tls_ca_file, mqtt_tls_cert_file, mqtt_tls_key_file,
    mqtt_topics, ring_topic, success_path, failure_path, volume_bell, volume_notifications,
    volume_other, wifi_password, mqtt_password, List.append_nil]
  rfl

end Form

/-! ## 3. The save -/

/-- The request an unchanged form makes. -/
def formRequest (config : CoreConfig) : SaveRequest :=
  ⟨{ config with mqtt_password := [] }, some [], some []⟩

theorem postObject_form (store : ConfigStore) {object : JsonValue} {config : CoreConfig}
    (h : readPostedFields object = (formFields config, [])) (faults : PostFaults)
    (apply : ApplyReport) (disk : Disk) :
    postObject store object faults apply disk =
      savePosted store (formRequest config) faults.save apply disk := by
  have hpaths : existingForPaths store (formFields config) faults disk = .ok none := rfl
  have hrequest : saveRequestOf (formFields config) none = formRequest config := rfl
  simp only [postObject, h, List.isEmpty_nil, Bool.not_true, Bool.false_eq_true, if_false, hpaths,
    hrequest]

theorem validateRequest_formRequest (config : CoreConfig) :
    validateRequest (formRequest config) = validateRequest ⟨config, none, none⟩ := by
  have hfalse : ∀ field message, reject false field message = [] := fun _ _ => rfl
  unfold formRequest validateRequest
  dsimp only
  simp only [List.isEmpty_nil, Bool.not_true, Bool.false_and, Bool.and_false, List.length_nil,
    Nat.not_lt_zero, decide_false, hfalse, List.append_nil]

theorem ConsoleShows.eq_of_password {shown config : CoreConfig}
    (h : ConsoleShows shown { config with mqtt_password := [] })
    (hpassword : shown.mqtt_password = config.mqtt_password) :
    { shown with wifi_ssid := config.wifi_ssid } = config := by
  have hboth := congrArg (fun c : CoreConfig => { c with mqtt_password := config.mqtt_password }) h
  calc { shown with wifi_ssid := config.wifi_ssid }
      = { shown with
          wifi_ssid := config.wifi_ssid, mqtt_password := config.mqtt_password } := by
        rw [← hpassword]
    _ = config := hboth

section Save

variable {chime : Bytes} {disk : Disk} (hchime : disk.chime_config = some chime)
  (accepted : validateRequest ⟨(snapshotOf (getlines chime) disk.wpaLines).config, none, none⟩ = [])
  (wifiKey : (parseWpaData disk.wpaLines).psk ≠ [])
  (account : (readChimeLines (getlines chime)).mqtt_password ≠ [] →
    (readChimeLines (getlines chime)).mqtt_username ≠ [])

include account in
/-- A blank password keeps the stored one, as the username is the same. -/
theorem savedMqttPassword_form :
    savedMqttPassword (formRequest (snapshotOf (getlines chime) disk.wpaLines).config)
        (readChimeLines (getlines chime)) =
      (readChimeLines (getlines chime)).mqtt_password := by
  have huser : (formRequest (snapshotOf (getlines chime) disk.wpaLines).config).config.mqtt_username =
      (readChimeLines (getlines chime)).mqtt_username := rfl
  rw [savedMqttPassword, huser]
  split
  · next hempty =>
    by_contra hne
    exact account (fun h => hne h.symm) (List.isEmpty_iff.mp hempty)
  · simp [formRequest]

include wifiKey in
theorem wpaContent_form :
    wpaContent (formRequest (snapshotOf (getlines chime) disk.wpaLines).config) disk.wpaLines =
      .ok (joinLines (savedWpaLines (parseWpaData disk.wpaLines).ssid
        (parseWpaData disk.wpaLines).psk (wpaBase disk.wpaLines))) := by
  have hkept : savedWifiPassword (formRequest (snapshotOf (getlines chime) disk.wpaLines).config)
      (parseWpaData disk.wpaLines).psk = .ok (parseWpaData disk.wpaLines).psk := by
    have hempty : (parseWpaData disk.wpaLines).psk.isEmpty = false := by simpa using wifiKey
    simp [savedWifiPassword, formRequest, hempty]
  rw [wpaContent_eq, hkept]
  rfl

include accepted in
/-- The rewritten `chime.conf` is read as the old one. -/
theorem readChimeLines_form :
    let config := (snapshotOf (getlines chime) disk.wpaLines).config
    let stored := readChimeLines (getlines chime)
    { readChimeLines (savedLines (formRequest config).config stored.mqtt_password chime) with
      wifi_ssid := config.wifi_ssid } = config := by
  intro config stored
  have hlines : ∀ line ∈ getlines chime, newline ∉ line := fun _ => newline_not_mem_of_mem_getlines
  have hvalid : Accepted (formRequest config) := accepted_of_validateRequest (by
    rw [validateRequest_formRequest]
    exact accepted)
  have oneLine : OneLineRequest (formRequest config) := oneLineRequest_stored hlines (some [])
  have hpassword : OneLine stored.mqtt_password := extractConfigValue_oneLine hlines _
  have hshown := consoleShows_saved hvalid oneLine hpassword chime
  have hkept : (readChimeLines (savedLines (formRequest config).config stored.mqtt_password
      chime)).mqtt_password = stored.mqtt_password :=
    extractConfigValue_saved (fun g => fieldText_oneLine hvalid oneLine hpassword g)
      (show ConfigKey.mqtt_password ∈ managedKeys by decide) chime
  exact hshown.eq_of_password hkept

theorem parseWpaData_form (hssid : newline ∉ (parseWpaData disk.wpaLines).ssid) :
    let data := parseWpaData (getlines (joinLines (savedWpaLines (parseWpaData disk.wpaLines).ssid
      (parseWpaData disk.wpaLines).psk (wpaBase disk.wpaLines))))
    data.ssid = (parseWpaData disk.wpaLines).ssid ∧ data.psk = (parseWpaData disk.wpaLines).psk := by
  rw [getlines_savedWpaLines hssid (newline_not_mem_storedPsk disk)
    (newline_not_mem_wpaBase (newline_not_mem_wpaLines disk))]
  exact parseWpaData_savedWpaLines _

include hchime accepted wifiKey account in
/-- The save of an unchanged form succeeds, and the files are read as before. -/
theorem saveCoreConfig_form (store : ConfigStore) {faults : SaveFaults} (h : faults.Succeeds) :
    ∃ new, saveCoreConfig store (formRequest (snapshotOf (getlines chime) disk.wpaLines).config)
        faults disk = (loadCoreConfig store new none none, new) ∧
      loadCoreConfig store new none none =
        { success := true, snapshot := snapshotOf (getlines chime) disk.wpaLines } ∧
      (parseWpaData new.wpaLines).psk = (parseWpaData disk.wpaLines).psk := by
  have hvalid : validateRequest
      (formRequest (snapshotOf (getlines chime) disk.wpaLines).config) = [] := by
    rw [validateRequest_formRequest]
    exact accepted
  have hsave := saveCoreConfig_of_succeeds store h disk hvalid hchime (wpaContent_form wifiKey)
  obtain ⟨hssid, hpsk⟩ := parseWpaData_form (newline_not_mem_storedSsid disk)
  refine ⟨_, hsave, ?_, hpsk⟩
  have hreads : { readChimeLines (savedLines
        (formRequest (snapshotOf (getlines chime) disk.wpaLines).config).config
        (readChimeLines (getlines chime)).mqtt_password chime) with
      wifi_ssid := (parseWpaData disk.wpaLines).ssid } =
        (snapshotOf (getlines chime) disk.wpaLines).config := readChimeLines_form accepted
  have hpassword := congrArg CoreConfig.mqtt_password hreads
  have hsnapshot : ∀ lines wpa, snapshotOf lines wpa =
      ⟨{ readChimeLines lines with wifi_ssid := (parseWpaData wpa).ssid },
        !(parseWpaData wpa).psk.isEmpty, !(readChimeLines lines).mqtt_password.isEmpty⟩ :=
    fun _ _ => rfl
  rw [loadCoreConfig_savedDisk, savedMqttPassword_form account, hsnapshot, hssid, hpsk, hreads,
    hpassword]
  rfl

end Save

/-! ## 4. The form -/

/-- The body of GET, posted back with blank passwords, changes nothing that can be loaded. -/
theorem unchanged_form (store : ConfigStore) (disk : Disk) (apply : ApplyReport)
    (loads : (loadCoreConfig store disk none none).success = true)
    (accepted : validateRequest
      ⟨(loadCoreConfig store disk none none).snapshot.config, none, none⟩ = [])
    (wifiKey : (loadCoreConfig store disk none none).snapshot.wifi_password_set = true)
    (account : (loadCoreConfig store disk none none).snapshot.config.mqtt_password ≠ [] →
      (loadCoreConfig store disk none none).snapshot.config.mqtt_username ≠ [])
    (sendable : ∀ s ∈ sentStrings (loadCoreConfig store disk none none).snapshot.config,
      Sendable s) :
    (handleGetCoreConfig store disk none none apply).status = 200 ∧
      ∃ received, parseJson (handleGetCoreConfig store disk none none apply).body = .ok received ∧
        ∀ (body : Bytes) (posted : JsonValue) (faults : PostFaults) (apply' : ApplyReport),
          parseJson body = .ok posted → SameForm received posted → faults.save.Succeeds →
          (handlePostCoreConfig store body faults apply' disk).1.status = 200 ∧
          loadCoreConfig store (handlePostCoreConfig store body faults apply' disk).2 none none =
            loadCoreConfig store disk none none ∧
          (parseWpaData (handlePostCoreConfig store body faults apply' disk).2.wpaLines).psk =
            (parseWpaData disk.wpaLines).psk := by
  obtain ⟨chime, hchime, hload⟩ := loadCoreConfig_success loads
  rw [hload] at accepted wifiKey account sendable ⊢
  have hints : IntFields (snapshotOf (getlines chime) disk.wpaLines).config :=
    intFields_snapshotOf _ _
  have hkey : (parseWpaData disk.wpaLines).psk ≠ [] := by
    intro hnil
    simp [snapshotOf, hnil] at wifiKey
  have hget : handleGetCoreConfig store disk none none apply =
      ⟨200, coreConfigBody (snapshotOf (getlines chime) disk.wpaLines) apply⟩ := by
    rw [handleGetCoreConfig, hload]
    rfl
  rw [hget]
  refine ⟨rfl, _, parseJson_of_spelt (spelt_coreConfigBody hints apply), ?_⟩
  intro body posted faults apply' hparse form succeeds
  obtain ⟨new, hsave, hnew, hpsk⟩ :=
    saveCoreConfig_form hchime accepted hkey account store succeeds
  have hpost : handlePostCoreConfig store body faults apply' disk =
      (⟨200, coreConfigBody (snapshotOf (getlines chime) disk.wpaLines) apply'⟩, new) := by
    have hfields := readPostedFields_of_form form hints sendable
    cases posted with
    | object items =>
      rw [handlePostCoreConfig, hparse]
      simp only
      rw [postObject_form store hfields, savePosted, hsave, hnew]
      rfl
    | _ => cases form.wifi_password
  rw [hpost]
  exact ⟨rfl, hnew, hpsk⟩

/-- A device with an account, and a network whose name and key hold a quote and a backslash. -/
def formDisk : Disk where
  chime_config := some (bytes
    " mqtt_host= broker\r\nmqtt_username=me\nmqtt_password= secret \nmqtt_topics=a/b, c\n")
  wpa_supplicant := some (bytes "network=\x7b\n ssid=\"tea\\\"room\"\n psk=old\\key\n\x7d\n")

theorem unchanged_form_sample :
    ∃ body, (handlePostCoreConfig {} body {} {} formDisk).1.status = 200 ∧
      loadCoreConfig {} (handlePostCoreConfig {} body {} {} formDisk).2 none none =
        loadCoreConfig {} formDisk none none := by
  obtain ⟨-, received, hparse, hpost⟩ := unchanged_form {} formDisk {} (by decide +kernel)
    (by decide +kernel) (by decide +kernel) (by decide +kernel) (by decide +kernel)
  have hints : IntFields (loadCoreConfig {} formDisk none none).snapshot.config :=
    intFields_snapshotOf _ _
  have hget : (handleGetCoreConfig {} formDisk none none {}).body =
      coreConfigBody (loadCoreConfig {} formDisk none none).snapshot {} := rfl
  rw [hget, parseJson_of_spelt (spelt_coreConfigBody hints {})] at hparse
  obtain ⟨body, posted, hbody, hform⟩ := exists_sameForm hints {}
  rw [Except.ok.inj hparse] at hform
  have hsaved := hpost body posted {} {} hbody hform
    ⟨rfl, rfl, rfl, succeeds_default, rfl, succeeds_default, rfl, rfl⟩
  exact ⟨body, hsaved.1, hsaved.2.1⟩

end VirtualChime.Webd
