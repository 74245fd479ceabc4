import VirtualChime.SaveRoundTrip

/-!
# Whose password is stored

An MQTT password belongs to the username it was stored or sent with.
`SaveChimeConfig` keeps a stored password only for the stored username and drops
it with any other, so that along every run of saves a stored password can be
traced back to where it came from, with no change of the username since
(`password_attributed`).
-/

namespace VirtualChime.Webd

open Config

/-! ## 1. The stored account -/

/-- The username and the password that `LoadCoreConfig` reports. -/
structure Account where
  username : Bytes
  password : Bytes
deriving DecidableEq, Repr

def account (store : ConfigStore) (disk : Disk) : Account :=
  let config := (loadCoreConfig store disk none none).snapshot.config
  ⟨config.mqtt_username, config.mqtt_password⟩

/-- Every text of the request that is written to `chime.conf` is without line ends. -/
structure NoLineEnds (request : SaveRequest) : Prop where
  mqtt_host : newline ∉ request.config.mqtt_host
  mqtt_client_id : newline ∉ request.config.mqtt_client_id
  mqtt_username : newline ∉ request.config.mqtt_username
  mqtt_password : newline ∉ request.mqtt_password.getD []
  mqtt_tls_ca_file : newline ∉ request.config.mqtt_tls_ca_file
  mqtt_tls_cert_file : newline ∉ request.config.mqtt_tls_cert_file
  mqtt_tls_key_file : newline ∉ request.config.mqtt_tls_key_file
  mqtt_topics : ∀ topic ∈ request.config.mqtt_topics, newline ∉ topic
  ring_topic : newline ∉ request.config.ring_topic
  notification_success_sound_path : newline ∉ request.config.notification_success_sound_path
  notification_failure_sound_path : newline ∉ request.config.notification_failure_sound_path

theorem account_eq (store : ConfigStore) (chime : Bytes) (wpa : Option Bytes) :
    account store ⟨some chime, wpa⟩ =
      ⟨(readChimeLines (getlines chime)).mqtt_username,
        (readChimeLines (getlines chime)).mqtt_password⟩ := by
  cases wpa <;> rfl

theorem account_congr {store : ConfigStore} {disk disk' : Disk}
    (h : disk.chime_config = disk'.chime_config) : account store disk = account store disk' := by
  obtain ⟨chime, wpa⟩ := disk
  obtain ⟨chime', wpa'⟩ := disk'
  cases h
  cases chime with
  | none => rfl
  | some text => rw [account_eq, account_eq]

theorem savedMqttPassword_clean {request : SaveRequest} {lines : List Bytes}
    (hgiven : newline ∉ request.mqtt_password.getD [])
    (hlines : ∀ line ∈ lines, newline ∉ line) :
    newline ∉ savedMqttPassword request (readChimeLines lines) := by
  have hstored : newline ∉ (readChimeLines lines).mqtt_password :=
    (extractConfigValue_oneLine hlines _).1
  simp only [savedMqttPassword]
  split
  · exact List.not_mem_nil
  · split
    · next password hpassword =>
      split
      · split
        · exact List.not_mem_nil
        · exact hstored
      · rw [hpassword] at hgiven
        exact hgiven
    · split
      · exact List.not_mem_nil
      · exact hstored

theorem fieldText_clean {request : SaveRequest} (h : NoLineEnds request) {mqttPassword : Bytes}
    (hpassword : newline ∉ mqttPassword) (key : ConfigKey) :
    newline ∉ fieldText request.config mqttPassword key := by
  cases key with
  | mqtt_host => exact h.mqtt_host
  | mqtt_port => exact newline_not_mem_toDecimal _
  | mqtt_client_id => exact h.mqtt_client_id
  | mqtt_username => exact h.mqtt_username
  | mqtt_password => exact hpassword
  | mqtt_tls_enabled => exact (boolToConfig_oneLine _).1
  | mqtt_tls_validate_certificate => exact (boolToConfig_oneLine _).1
  | mqtt_tls_ca_file => exact h.mqtt_tls_ca_file
  | mqtt_tls_cert_file => exact h.mqtt_tls_cert_file
  | mqtt_tls_key_file => exact h.mqtt_tls_key_file
  | mqtt_topics =>
    intro hmem
    rcases mem_joinCsv hmem with heq | ⟨topic, htopic, hc⟩
    · cases heq
    · exact h.mqtt_topics topic htopic hc
  | ring_topic => exact h.ring_topic
  | notification_success_sound_path => exact h.notification_success_sound_path
  | notification_failure_sound_path => exact h.notification_failure_sound_path
  | volume_bell => exact newline_not_mem_toDecimal _
  | volume_notifications => exact newline_not_mem_toDecimal _
  | volume_other => exact newline_not_mem_toDecimal _
  | _ => exact List.not_mem_nil

/-- The account after `chime.conf` has been replaced: the requested username, and the password
`SaveChimeConfig` chose, each as it is read back. -/
theorem account_savedDisk (store : ConfigStore) {request : SaveRequest} (clean : NoLineEnds request)
    (chime wpa : Bytes) :
    account store (savedDisk request chime wpa) =
      ⟨trim request.config.mqtt_username,
        trim (savedMqttPassword request (readChimeLines (getlines chime)))⟩ := by
  have hfields := fun g => fieldText_clean clean
    (savedMqttPassword_clean clean.mqtt_password
      fun line (hline : line ∈ getlines chime) => newline_not_mem_of_mem_getlines hline) g
  rw [savedDisk, account_eq, getlines_chimeContent, Account.mk.injEq]
  constructor
  · exact extractConfigValue_clean hfields
      (show ConfigKey.mqtt_username ∈ managedKeys by decide) chime
  · exact extractConfigValue_clean hfields
      (show ConfigKey.mqtt_password ∈ managedKeys by decide) chime

/-! ## 2. One save -/

/-- The save gets as far as replacing `chime.conf`. -/
def replacesChimeConfig (store : ConfigStore) (request : SaveRequest) (faults : SaveFaults)
    (disk : Disk) : Bool :=
  (validateRequest request).isEmpty && (existingSnapshot store faults disk).success &&
    (saveWpaSupplicant store request faults disk).1.isOk &&
    (saveChimeConfig store request (existingSnapshot store faults disk).snapshot faults
      (saveWpaSupplicant store request faults disk).2).1.isOk

/-- The request sends a password that is not empty. -/
def supplies (request : SaveRequest) : Bool := !(request.mqtt_password.getD []).isEmpty

theorem saveCoreConfig_replaces (store : ConfigStore) (request : SaveRequest) (faults : SaveFaults)
    (disk : Disk) :
    (replacesChimeConfig store request faults disk = true ∧ validateRequest request = [] ∧
      ∃ chime wpa, disk.chime_config = some chime ∧
        (saveCoreConfig store request faults disk).2 = savedDisk request chime wpa) ∨
    (replacesChimeConfig store request faults disk = false ∧
      (saveCoreConfig store request faults disk).2.chime_config = disk.chime_config) := by
  have hfold : loadCoreConfig store disk faults.existing_chime_open faults.existing_wpa_open =
      existingSnapshot store faults disk := rfl
  unfold saveCoreConfig replacesChimeConfig
  by_cases haccepted : validateRequest request = []
  · simp only [haccepted, List.isEmpty_nil, Bool.not_true, Bool.false_eq_true, if_false, hfold,
      Bool.true_and]
    by_cases hexisting : (existingSnapshot store faults disk).success = true
    · obtain ⟨chime, hchime, hload⟩ := loadCoreConfig_success hexisting
      have hexist : existingSnapshot store faults disk =
          { success := true, snapshot := snapshotOf (getlines chime) disk.wpaLines } := hload
      rw [hexisting]
      simp only [Bool.not_true, Bool.false_eq_true, if_false, Bool.true_and]
      rcases saveWpaSupplicant_cases store request faults disk with
        ⟨message, hwpa⟩ | ⟨wpa, -, hwpa⟩
      · rw [hwpa]
        exact Or.inr ⟨rfl, rfl⟩
      · rw [hwpa]
        rcases saveChimeConfig_cases store request (existingSnapshot store faults disk).snapshot
          faults { disk with wpa_supplicant := some wpa } with ⟨message, hsave⟩ | ⟨text, htext, hsave⟩
        · simp only [hsave]
          exact Or.inr ⟨rfl, trivial⟩
        · have heq : text = chime := by
            rw [hchime] at htext
            exact (Option.some.inj htext).symm
          subst heq
          simp only [hsave]
          refine Or.inl ⟨rfl, trivial, text, wpa, hchime, ?_⟩
          rw [hexist, chimeContent_snapshot]
          rfl
    · rw [Bool.not_eq_true] at hexisting
      rw [hexisting]
      exact Or.inr ⟨rfl, rfl⟩
  · have hne : (validateRequest request).isEmpty = false := by simpa using haccepted
    simp only [hne, Bool.not_false, if_true]
    exact Or.inr ⟨rfl, trivial⟩

/-- The stored password is kept only for the stored username. -/
theorem savedMqttPassword_eq (request : SaveRequest) (existing : CoreConfig) :
    savedMqttPassword request existing =
      if request.config.mqtt_username = [] then []
      else if supplies request then request.mqtt_password.getD []
      else if request.config.mqtt_username ≠ existing.mqtt_username then []
      else existing.mqtt_password := by
  simp only [savedMqttPassword, List.isEmpty_iff]
  split
  · rfl
  · cases hpassword : request.mqtt_password with
    | none => simp [supplies, hpassword]
    | some password => cases password <;> simp [supplies, hpassword]

/-- What a save that replaces `chime.conf` makes of the stored account. -/
theorem account_saveCoreConfig {store : ConfigStore} {request : SaveRequest} {faults : SaveFaults}
    {disk : Disk} (clean : NoLineEnds request)
    (hreplaces : replacesChimeConfig store request faults disk = true) :
    validateRequest request = [] ∧
      ∃ existing : CoreConfig, account store disk = ⟨existing.mqtt_username, existing.mqtt_password⟩ ∧
        trim existing.mqtt_username = existing.mqtt_username ∧
        trim existing.mqtt_password = existing.mqtt_password ∧
        account store (saveCoreConfig store request faults disk).2 =
          ⟨trim request.config.mqtt_username, trim (savedMqttPassword request existing)⟩ := by
  rcases saveCoreConfig_replaces store request faults disk with
    ⟨-, haccepted, chime, wpa, hchime, hdisk⟩ | ⟨hnot, -⟩
  · refine ⟨haccepted, readChimeLines (getlines chime), ?_, ?_, ?_, ?_⟩
    · obtain ⟨chimeFile, wpaFile⟩ := disk
      subst hchime
      exact account_eq store chime wpaFile
    · exact (extractConfigValue_oneLine (fun _ => newline_not_mem_of_mem_getlines) _).2
    · exact (extractConfigValue_oneLine (fun _ => newline_not_mem_of_mem_getlines) _).2
    · rw [hdisk]
      exact account_savedDisk store clean chime wpa
  · rw [hreplaces] at hnot
    cases hnot

/-! ## 3. Histories -/

/-- One call of `SaveCoreConfig`, with what its file operations come to. -/
structure SaveCall where
  request : SaveRequest
  faults : SaveFaults := {}
deriving DecidableEq, Repr

def runSaves (store : ConfigStore) : Disk → List SaveCall → Disk
  | disk, [] => disk
  | disk, call :: calls =>
      runSaves store (saveCoreConfig store call.request call.faults disk).2 calls

/-- A save that replaced `chime.conf`, with the accounts stored before and after it. -/
structure SaveRecord where
  request : SaveRequest
  before : Account
  after : Account
deriving DecidableEq, Repr

/-- The saves of a run that replaced `chime.conf`, in their order. -/
def history (store : ConfigStore) : Disk → List SaveCall → List SaveRecord
  | _, [] => []
  | disk, call :: calls =>
      let saved := (saveCoreConfig store call.request call.faults disk).2
      if replacesChimeConfig store call.request call.faults disk then
        ⟨call.request, account store disk, account store saved⟩ :: history store saved calls
      else history store saved calls

def KeepsUsername (record : SaveRecord) : Prop := record.after.username = record.before.username

/-- Where the stored account comes from. -/
inductive Attributed (initial : Account) (records : List SaveRecord) (now : Account) : Prop where
  | stored (none_supplied : ∀ record ∈ records, supplies record.request = false)
      (same_username : ∀ record ∈ records, KeepsUsername record) (unchanged : now = initial)
  | supplied {earlier later : List SaveRecord} {latest : SaveRecord}
      (split : records = earlier ++ latest :: later) (gives : supplies latest.request = true)
      (none_supplied : ∀ record ∈ later, supplies record.request = false)
      (same_username : ∀ record ∈ later, KeepsUsername record)
      (password : now.password = trim (latest.request.mqtt_password.getD []))
      (username : now.username = trim latest.request.config.mqtt_username)

/-- One more save at the beginning of the history. -/
theorem Attributed.cons {store : ConfigStore} {request : SaveRequest} {faults : SaveFaults}
    {disk : Disk} {records : List SaveRecord} {now : Account} (clean : NoLineEnds request)
    (hreplaces : replacesChimeConfig store request faults disk = true) (hnow : now.password ≠ [])
    (h : Attributed (account store (saveCoreConfig store request faults disk).2) records now) :
    Attributed (account store disk)
      (⟨request, account store disk,
        account store (saveCoreConfig store request faults disk).2⟩ :: records) now := by
  obtain ⟨haccepted, existing, hbefore, huser, hpass, hafter⟩ :=
    account_saveCoreConfig clean hreplaces
  cases h with
  | @supplied earlier later latest split gives none_supplied same_username password username =>
    exact Attributed.supplied (by rw [split, List.cons_append]) gives none_supplied same_username
      password username
  | stored none_supplied same_username unchanged =>
    rw [hafter] at unchanged
    have hkept : trim (savedMqttPassword request existing) ≠ [] := by
      rw [unchanged] at hnow
      exact hnow
    rw [savedMqttPassword_eq] at hkept unchanged
    have hname : request.config.mqtt_username ≠ [] := by
      intro hnil
      rw [if_pos hnil] at hkept
      exact hkept rfl
    rw [if_neg hname] at hkept unchanged
    cases hgives : supplies request with
    | true =>
      rw [if_pos hgives] at unchanged
      exact Attributed.supplied (List.nil_append _).symm hgives none_supplied same_username
        (by rw [unchanged]) (by rw [unchanged])
    | false =>
      rw [hgives, if_neg Bool.false_ne_true] at hkept unchanged
      have hsame : request.config.mqtt_username = existing.mqtt_username := by
        by_contra hne
        rw [if_pos hne] at hkept
        exact hkept rfl
      rw [if_neg (not_not_intro hsame), hpass, hsame, huser, ← hbefore] at unchanged
      refine Attributed.stored ?_ ?_ unchanged
      · intro record hmem
        rcases List.mem_cons.mp hmem with heq | hmem
        · rw [heq]
          exact hgives
        · exact none_supplied record hmem
      · intro record hmem
        rcases List.mem_cons.mp hmem with heq | hmem
        · rw [heq, KeepsUsername, hafter, hbefore, hsame]
          exact huser
        · exact same_username record hmem

theorem attributed_runSaves (store : ConfigStore) (calls : List SaveCall)
    (clean : ∀ call ∈ calls, NoLineEnds call.request) (disk : Disk)
    (hnow : (account store (runSaves store disk calls)).password ≠ []) :
    Attributed (account store disk) (history store disk calls)
      (account store (runSaves store disk calls)) := by
  induction calls generalizing disk with
  | nil => exact Attributed.stored (by simp [history]) (by simp [history]) rfl
  | cons call calls ih =>
    rw [runSaves] at hnow ⊢
    have hrest := ih (fun c hc => clean c (List.mem_cons_of_mem _ hc))
      (saveCoreConfig store call.request call.faults disk).2 hnow
    rw [history]
    split
    · next hreplaces =>
      exact hrest.cons (clean call (List.mem_cons_self ..)) hreplaces hnow
    · next hnot =>
      rcases saveCoreConfig_replaces store call.request call.faults disk with
        ⟨hreplaces, -⟩ | ⟨-, hsame⟩
      · exact absurd hreplaces hnot
      · rw [account_congr hsame] at hrest
        exact hrest

/-! ## 4. The rule -/

/-- A save under the stored username, not empty, that sends no password keeps the password. -/
theorem save_keeps_password {store : ConfigStore} {request : SaveRequest} {faults : SaveFaults}
    {disk : Disk} (clean : NoLineEnds request)
    (hreplaces : replacesChimeConfig store request faults disk = true)
    (hname : request.config.mqtt_username = (account store disk).username)
    (hne : request.config.mqtt_username ≠ []) (hgives : supplies request = false) :
    (account store (saveCoreConfig store request faults disk).2).password =
      (account store disk).password := by
  obtain ⟨-, existing, hbefore, -, hpass, hafter⟩ := account_saveCoreConfig clean hreplaces
  rw [hbefore] at hname ⊢
  rw [hafter, savedMqttPassword_eq, if_neg hne, hgives, if_neg Bool.false_ne_true,
    if_neg (not_not_intro hname)]
  exact hpass

theorem save_erases_password {store : ConfigStore} {request : SaveRequest} {faults : SaveFaults}
    {disk : Disk} (clean : NoLineEnds request)
    (hreplaces : replacesChimeConfig store request faults disk = true)
    (hname : request.config.mqtt_username = []) :
    (account store (saveCoreConfig store request faults disk).2).password = [] := by
  obtain ⟨-, existing, -, -, -, hafter⟩ := account_saveCoreConfig clean hreplaces
  rw [hafter, savedMqttPassword_eq, if_pos hname]
  rfl

/-- Along every run of saves a stored password belongs to the username it came with, and each
further save keeps or erases it as its username says. -/
theorem password_attributed (store : ConfigStore) (disk : Disk) (calls : List SaveCall)
    (clean : ∀ call ∈ calls, NoLineEnds call.request) :
    ((account store (runSaves store disk calls)).password ≠ [] →
        Attributed (account store disk) (history store disk calls)
          (account store (runSaves store disk calls))) ∧
      ∀ request faults, NoLineEnds request →
        replacesChimeConfig store request faults (runSaves store disk calls) = true →
        (request.config.mqtt_username = (account store (runSaves store disk calls)).username →
            request.config.mqtt_username ≠ [] → supplies request = false →
            (account store (saveCoreConfig store request faults
              (runSaves store disk calls)).2).password =
                (account store (runSaves store disk calls)).password) ∧
          (request.config.mqtt_username = [] →
            (account store (saveCoreConfig store request faults
              (runSaves store disk calls)).2).password = []) := by
  constructor
  · intro hnow
    exact attributed_runSaves store calls clean disk hnow
  · intro request faults hclean hreplaces
    exact ⟨save_keeps_password hclean hreplaces, save_erases_password hclean hreplaces⟩

def aliceRequest : SaveRequest where
  config :=
    { wifi_ssid := bytes "home"
      mqtt_host := bytes "broker"
      mqtt_username := bytes "alice"
      mqtt_topics := [bytes "doorbell/ring"] }
  wifi_password := some (bytes "password1")
  mqtt_password := some (bytes "secret")

theorem aliceRequest_clean : NoLineEnds aliceRequest := by
  constructor <;> decide

theorem password_attributed_sample :
    (∀ call ∈ [SaveCall.mk aliceRequest {}], NoLineEnds call.request) ∧
      (account {} (runSaves {} ⟨some [], none⟩ [SaveCall.mk aliceRequest {}])).password ≠ [] ∧
      Attributed (account {} ⟨some [], none⟩)
        (history {} ⟨some [], none⟩ [SaveCall.mk aliceRequest {}])
        (account {} (runSaves {} ⟨some [], none⟩ [SaveCall.mk aliceRequest {}])) := by
  have hclean : ∀ call ∈ [SaveCall.mk aliceRequest {}], NoLineEnds call.request := by
    intro call hmem
    rw [List.mem_singleton.mp hmem]
    exact aliceRequest_clean
  have hnow :
      (account {} (runSaves {} ⟨some [], none⟩ [SaveCall.mk aliceRequest {}])).password ≠ [] := by
    decide +kernel
  exact ⟨hclean, hnow, (password_attributed {} _ _ hclean).1 hnow⟩

/-- The same account with neither a username nor a password. -/
def anonymousRequest : SaveRequest where
  config := { aliceRequest.config with mqtt_username := [] }
  wifi_password := aliceRequest.wifi_password
  mqtt_password := some []

/-- A password stored without a username: a save that repeats the empty username and leaves the
password blank erases it. -/
theorem password_without_username :
    ¬ ∀ (store : ConfigStore) (request : SaveRequest) (faults : SaveFaults) (disk : Disk),
      NoLineEnds request → validateRequest request = [] →
      (saveCoreConfig store request faults disk).1.success = true →
      request.config.mqtt_username = (account store disk).username →
      request.mqtt_password.getD [] = [] →
      (account store (saveCoreConfig store request faults disk).2).password =
        (account store disk).password := by
  intro h
  have hclean : NoLineEnds anonymousRequest := by
    constructor <;> decide
  have hkept := h {} anonymousRequest {} ⟨some (bytes "mqtt_password=secret\n"), none⟩ hclean
    (by decide +kernel) (by decide +kernel) (by decide +kernel) rfl
  revert hkept
  decide +kernel

end VirtualChime.Webd
