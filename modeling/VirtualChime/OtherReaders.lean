import VirtualChime.ConsoleAgreement
import VirtualChime.SaveRoundTrip
import VirtualChime.Supervisor

/-!
# The other readers of `chime.conf`

Besides the daemon and the configuration store, two init scripts and the start of the web console
read `chime.conf`, each in its own way.  They read keys that the console does not write, and what
they read is the same after any number of saves.
-/

namespace VirtualChime.InitD

/-! ## 1. `S41timesync` -/

/-- The settings of `load_settings`; the lists are still texts with blanks between the items. -/
structure TimeSettings where
  ntp_servers : Bytes
  time_http_urls : Bytes
  retries : Bytes
  retry_delay : Bytes
  interval : Bytes
  deriving DecidableEq, Repr

/-- `tr ',' ' '` -/
def commasToBlanks (text : Bytes) : Bytes := text.map fun c => if c = comma then 32 else c

def loadTimeSettings (config : Option Bytes) : TimeSettings where
  ntp_servers := commasToBlanks (getConfigValue config (bytes "ntp_servers")
    (bytes "time.cloudflare.com,time.google.com,pool.ntp.org"))
  time_http_urls := commasToBlanks (getConfigValue config (bytes "time_http_urls")
    (bytes "http://connectivitycheck.gstatic.com/generate_204," ++
      (bytes "http://detectportal.firefox.com/success.txt," ++ bytes "http://example.com/")))
  retries := loadLogSetting config (bytes "time_sync_retries") 1 6
  retry_delay := loadLogSetting config (bytes "time_sync_retry_delay") 1 5
  interval := loadLogSetting config (bytes "time_sync_interval") 0 3600

end VirtualChime.InitD

namespace VirtualChime.Webd

open Config InitD

/-! ## 2. A reader of a key that the console does not write -/

/-- The lines it reads are lines that set the key, for the daemon and the store too. -/
def ReadsKey {β : Type} (key : Bytes) (read : Bytes → Option β) : Prop :=
  ∀ line v, read line = some v → ∃ w, parseLine line = some (key, w)

section Frame

variable {β : Type} {key : Bytes} {read : Bytes → Option β} {table : List (Bytes × Bytes)}

theorem ReadsKey.settingLine (h : ReadsKey key read) {row : Bytes × Bytes}
    (hplain : ConfigKey.PlainName row.1) (hne : row.1 ≠ key) : read (settingLine row) = none := by
  rw [Option.eq_none_iff_forall_ne_some]
  intro v hv
  obtain ⟨w, hw⟩ := h _ v hv
  have hparse := parseLine_settingLine hplain row.2
  exact hne (congrArg Prod.fst (Option.some.inj (hparse.symm.trans hw)))

theorem ReadsKey.rewritten (h : ReadsKey key read) (hkey : key ∉ table.map Prod.fst)
    {line : Bytes} {row : Bytes × Bytes} (hrow : replacementFor table line = some row) :
    read line = none := by
  rw [Option.eq_none_iff_forall_ne_some]
  intro v hv
  obtain ⟨w, hw⟩ := h _ v hv
  obtain ⟨hmem, w', hw'⟩ := replacementFor_mem hrow
  have hsame : row.1 = key := congrArg Prod.fst (Option.some.inj (hw'.symm.trans hw))
  exact hkey (hsame ▸ List.mem_map_of_mem hmem)

theorem ReadsKey.chimeLines (h : ReadsKey key read) (hkey : key ∉ table.map Prod.fst)
    (hplain : ∀ row ∈ table, ConfigKey.PlainName row.1) (lines : List Bytes) :
    (chimeLines table lines).filterMap read = lines.filterMap read := by
  have hrow : ∀ row ∈ table, read (Webd.settingLine row) = none := by
    intro row hmem
    apply h.settingLine (hplain row hmem)
    rintro rfl
    exact hkey (List.mem_map_of_mem hmem)
  have hadded : ∀ rows : List (Bytes × Bytes), (∀ row ∈ rows, row ∈ table) →
      (rows.map Webd.settingLine).filterMap read = [] := by
    intro rows hrows
    rw [List.filterMap_eq_nil_iff]
    intro line hline
    obtain ⟨row, hmem, rfl⟩ := List.mem_map.mp hline
    exact hrow row (hrows row hmem)
  rw [chimeLines_eq, List.filterMap_append, hadded _ fun row hmem => (List.mem_filter.mp hmem).1,
    List.append_nil, List.filterMap_map]
  apply List.filterMap_congr
  intro line _
  rw [Function.comp_apply]
  cases hr : replacementFor table line with
  | none => rfl
  | some row =>
    rw [h.rewritten hkey hr]
    exact hrow row (replacementFor_mem hr).1

end Frame

theorem readsKey_envLine {key : Bytes} (hkey : ConfigKey.PlainName key) :
    ReadsKey key (Ota.envLine key) := by
  intro line v hv
  rw [Ota.envLine_eq_some_iff.mp hv]
  exact ⟨trim v, parseLine_settingLine hkey v⟩

theorem readsKey_exactValue {key : Bytes} (hkey : ConfigKey.PlainName key) :
    ReadsKey key (exactValue key) :=
  fun _ v hv => ⟨v, parseLine_of_exactValue hkey hv⟩

/-! ## 3. The device after saves -/

section Saves

variable {β : Type} {key : Bytes} {read : Bytes → Option β} {request : SaveRequest}

/-- A save with texts of one line leaves what is read of another key. -/
theorem ReadsKey.chimeContent (h : ReadsKey key read)
    (hkey : key ∉ managedKeys.map ConfigKey.name) (accepted : Accepted request)
    (oneLine : OneLineRequest request) (old : Bytes) :
    (getlines (Webd.chimeContent request (readChimeLines (getlines old)) (getlines old))).filterMap
      read = (getlines old).filterMap read := by
  have password : OneLine (savedMqttPassword request (readChimeLines (getlines old))) :=
    savedMqttPassword_oneLine oneLine.mqtt_password fun _ => newline_not_mem_of_mem_getlines
  rw [getlines_chimeContent,
    savedLines_oneLine fun g => fieldText_oneLine accepted oneLine password g]
  apply h.chimeLines
  · rw [replacements_keys]
    exact hkey
  intro row hrow
  rw [replacements_eq] at hrow
  obtain ⟨g, -, rfl⟩ := List.mem_map.mp hrow
  exact g.name_plain

/-- What a reader of lines finds in a file, if there is one. -/
def found (read : Bytes → Option β) (config : Option Bytes) : Option (List β) :=
  config.map fun text => (getlines text).filterMap read

theorem ReadsKey.saveCoreConfig (h : ReadsKey key read)
    (hkey : key ∉ managedKeys.map ConfigKey.name) (oneLine : OneLineRequest request)
    (store : ConfigStore) (faults : SaveFaults) (disk : Disk) :
    found read (Webd.saveCoreConfig store request faults disk).2.chime_config =
      found read disk.chime_config := by
  have hcase := saveCoreConfig_cases store request faults disk
  generalize Webd.saveCoreConfig store request faults disk = out at hcase
  cases hcase with
  | rejected => rfl
  | unreadable => rfl
  | wpaFailed => rfl
  | chimeFailed => rfl
  | @bothReplaced chime wpa valid old_chime =>
    have hread := h.chimeContent hkey (accepted_of_validateRequest valid) oneLine chime
    rw [old_chime, savedDisk, found, found, Option.map_some, Option.map_some, hread]

/-- The device after the saves, whether they succeed or not. -/
def saveAll (store : ConfigStore) (disk : Disk) (saves : List (SaveRequest × SaveFaults)) : Disk :=
  saves.foldl (fun disk save => (Webd.saveCoreConfig store save.1 save.2 disk).2) disk

theorem ReadsKey.saveAll (h : ReadsKey key read) (hkey : key ∉ managedKeys.map ConfigKey.name)
    (store : ConfigStore) {saves : List (SaveRequest × SaveFaults)}
    (oneLine : ∀ save ∈ saves, OneLineRequest save.1) (disk : Disk) :
    found read (Webd.saveAll store disk saves).chime_config = found read disk.chime_config := by
  induction saves generalizing disk with
  | nil => rfl
  | cons save saves ih =>
    have hone := oneLine save (List.mem_cons_self ..)
    have hrest := ih fun other hmem => oneLine other (List.mem_cons_of_mem _ hmem)
    simp only [Webd.saveAll, List.foldl_cons] at hrest ⊢
    rw [hrest, h.saveCoreConfig hkey hone store save.2 disk]

end Saves

theorem getConfigValue_found (config : Option Bytes) (key default_value : Bytes) :
    getConfigValue config key default_value =
      match found (Ota.envLine key) config with
      | none => default_value
      | some values =>
          if values.getLast?.getD [] ≠ [] then values.getLast?.getD [] else default_value := by
  cases config <;> rfl

theorem readWifiInterfaceOrDefault_found (config : Option Bytes) :
    readWifiInterfaceOrDefault config =
      match found (exactValue (bytes "wifi_interface")) config with
      | none => bytes "wlan0"
      | some values => (values.find? fun value => !value.isEmpty).getD (bytes "wlan0") := by
  cases config with
  | none => rfl
  | some text => exact firstInterface_eq (getlines text)

/-- The keys that the init scripts read. -/
def scriptKeys : List Bytes := [bytes "log_max_bytes", bytes "log_rotate_keep",
  bytes "log_rotate_check_interval", bytes "ntp_servers", bytes "time_http_urls",
  bytes "time_sync_retries", bytes "time_sync_retry_delay", bytes "time_sync_interval"]

theorem scriptKeys_unmanaged : ∀ key ∈ bytes "wifi_interface" :: scriptKeys,
    ConfigKey.PlainName key ∧ key ∉ managedKeys.map ConfigKey.name := by
  decide +kernel

/-- Whatever is saved from the console, one line to a text, and whether the saves succeed or not:
every key that the console does not write has the value for the init scripts that it had before, so
the log is rotated and the clock is set as before, and the console scans the same interface. -/
theorem saves_keep_other_readers (store : ConfigStore) (saves : List (SaveRequest × SaveFaults))
    (oneLine : ∀ save ∈ saves, OneLineRequest save.1) (disk : Disk) :
    (∀ key default_value, ConfigKey.PlainName key → key ∉ managedKeys.map ConfigKey.name →
      getConfigValue (saveAll store disk saves).chime_config key default_value =
        getConfigValue disk.chime_config key default_value) ∧
    loadLogSettings (saveAll store disk saves).chime_config = loadLogSettings disk.chime_config ∧
    loadTimeSettings (saveAll store disk saves).chime_config =
      loadTimeSettings disk.chime_config ∧
    readWifiInterfaceOrDefault (saveAll store disk saves).chime_config =
      readWifiInterfaceOrDefault disk.chime_config := by
  have hvalue : ∀ key default_value, ConfigKey.PlainName key →
      key ∉ managedKeys.map ConfigKey.name →
      getConfigValue (saveAll store disk saves).chime_config key default_value =
        getConfigValue disk.chime_config key default_value := by
    intro key default_value hplain hkey
    rw [getConfigValue_found, getConfigValue_found,
      (readsKey_envLine hplain).saveAll hkey store oneLine]
  have hlist : ∀ key default_value, key ∈ scriptKeys →
      getConfigValue (saveAll store disk saves).chime_config key default_value =
        getConfigValue disk.chime_config key default_value := by
    intro key default_value hmem
    obtain ⟨hplain, hkey⟩ := scriptKeys_unmanaged key (List.mem_cons_of_mem _ hmem)
    exact hvalue key default_value hplain hkey
  have hsetting : ∀ key least default_value, key ∈ scriptKeys →
      loadLogSetting (saveAll store disk saves).chime_config key least default_value =
        loadLogSetting disk.chime_config key least default_value := by
    intro key least default_value hmem
    rw [loadLogSetting, loadLogSetting, hlist key _ hmem]
  refine ⟨hvalue, ?_, ?_, ?_⟩
  · rw [loadLogSettings, loadLogSettings,
      hsetting (bytes "log_max_bytes") _ _ (by simp [scriptKeys]),
      hsetting (bytes "log_rotate_keep") _ _ (by simp [scriptKeys]),
      hsetting (bytes "log_rotate_check_interval") _ _ (by simp [scriptKeys])]
  · rw [loadTimeSettings, loadTimeSettings, hlist (bytes "ntp_servers") _ (by simp [scriptKeys]),
      hlist (bytes "time_http_urls") _ (by simp [scriptKeys]),
      hsetting (bytes "time_sync_retries") _ _ (by simp [scriptKeys]),
      hsetting (bytes "time_sync_retry_delay") _ _ (by simp [scriptKeys]),
      hsetting (bytes "time_sync_interval") _ _ (by simp [scriptKeys])]
  · obtain ⟨hplain, hkey⟩ := scriptKeys_unmanaged (bytes "wifi_interface") (List.mem_cons_self ..)
    rw [readWifiInterfaceOrDefault_found, readWifiInterfaceOrDefault_found,
      (readsKey_exactValue hplain).saveAll hkey store oneLine]

/-- A device that keeps nine rotated logs. -/
def nineLogs : Disk where
  chime_config := some (bytes "log_rotate_keep=3\nmqtt_host=old\nlog_rotate_keep=9\n")
  wpa_supplicant := none

theorem saves_keep_other_readers_nineLogs :
    (loadLogSettings (saveAll {} nineLogs [(sampleRequest, {})]).chime_config).keep = bytes "9" := by
  obtain ⟨-, hlog, -⟩ := saves_keep_other_readers {} [(sampleRequest, {})]
    (fun _ hmem => (List.mem_singleton.mp hmem) ▸ sampleRequest_oneLine) nineLogs
  rw [hlog]
  decide +kernel

end VirtualChime.Webd
