import VirtualChime.JsonStrings
import VirtualChime.SecretWrites

/-!
# Stored secrets stay in the device

Two devices whose files agree but for the values of the MQTT password and of the Wi-Fi
key, blank in both or in neither, answer every sequence of requests to the
configuration alike, and their files agree in this way afterwards (`secrets_hidden`).
What the apply manager reports and how the file operations end is the same in both;
the calls of `write` may be split differently.
-/

namespace VirtualChime.Webd

open Config

/-! ## 1. File operations that end alike -/

/-- The same calls fail, with the same messages; of the write loops both write all or neither. -/
structure WritesAlike (content content' : Bytes) (calls calls' : WriteOutcome) : Prop where
  create_directories : calls.create_directories = calls'.create_directories
  mkstemp : calls.mkstemp = calls'.mkstemp
  fchmod : calls.fchmod = calls'.fchmod
  writes : (writeLoop content calls.writes []).map (fun _ => ()) =
    (writeLoop content' calls'.writes []).map fun _ => ()
  fsync : calls.fsync = calls'.fsync
  close : calls.close = calls'.close
  rename : calls.rename = calls'.rename

theorem map_unit_cases {α β : Type} {x : Except Bytes α} {y : Except Bytes β}
    (h : x.map (fun _ => ()) = y.map fun _ => ()) :
    (∃ message, x = .error message ∧ y = .error message) ∨ ∃ a b, x = .ok a ∧ y = .ok b := by
  cases x with
  | error message =>
    cases y with
    | error message' => exact Or.inl ⟨message, rfl, by rw [Except.error.inj h]⟩
    | ok b => cases h
  | ok a =>
    cases y with
    | error message' => cases h
    | ok b => exact Or.inr ⟨a, b, rfl, rfl⟩

theorem bind_map_unit {α β γ δ : Type} {x : Except Bytes α} {y : Except Bytes β}
    {f : α → Except Bytes γ} {g : β → Except Bytes δ}
    (hxy : x.map (fun _ => ()) = y.map fun _ => ())
    (hfg : ∀ a b, (f a).map (fun _ => ()) = (g b).map fun _ => ()) :
    (x >>= f).map (fun _ => ()) = (y >>= g).map fun _ => () := by
  rcases map_unit_cases hxy with ⟨message, rfl, rfl⟩ | ⟨a, b, rfl, rfl⟩
  · rfl
  · exact hfg a b

theorem writeAndRename_alike {content content' : Bytes} {calls calls' : WriteOutcome}
    (h : WritesAlike content content' calls calls') (path : Bytes) :
    (writeAndRename path content calls).map (fun _ => ()) =
      (writeAndRename path content' calls').map fun _ => () := by
  unfold writeAndRename
  rw [h.create_directories, h.mkstemp, h.fchmod, h.fsync, h.close, h.rename]
  refine bind_map_unit rfl fun _ _ => bind_map_unit rfl fun _ _ => bind_map_unit rfl fun _ _ => ?_
  refine bind_map_unit h.writes fun _ _ => bind_map_unit rfl fun _ _ => ?_
  exact bind_map_unit rfl fun _ _ => bind_map_unit rfl fun _ _ => rfl

theorem atomicWriteFile_alike {content content' : Bytes} {calls calls' : WriteOutcome}
    (h : WritesAlike content content' calls calls') (path : Bytes) (target target' : Option Bytes) :
    (∃ message, atomicWriteFile path content calls target = (.error message, target) ∧
        atomicWriteFile path content' calls' target' = (.error message, target')) ∨
      atomicWriteFile path content calls target = (.ok (), some content) ∧
        atomicWriteFile path content' calls' target' = (.ok (), some content') := by
  simp only [atomicWriteFile]
  rcases map_unit_cases (writeAndRename_alike h path) with
    ⟨message, herror, herror'⟩ | ⟨temp, temp', hok, hok'⟩
  · rw [herror, herror']
    exact Or.inl ⟨message, rfl, rfl⟩
  · rw [hok, hok', ← writeAndRename_ok hok, ← writeAndRename_ok hok']
    exact Or.inr ⟨rfl, rfl⟩

/-! ## 2. Loading -/

/-- The states of the two files agree but for the secrets. -/
structure SameDisk (disk disk' : Disk) : Prop where
  chime : Option.Rel (fun text text' => SameChime (getlines text) (getlines text'))
    disk.chime_config disk'.chime_config
  wpa : Option.Rel (fun text text' => SameWpa (getlines text) (getlines text'))
    disk.wpa_supplicant disk'.wpa_supplicant

theorem SameDisk.wpaLines {disk disk' : Disk} (h : SameDisk disk disk') :
    SameWpa disk.wpaLines disk'.wpaLines := by
  have hwpa := h.wpa
  simp only [Disk.wpaLines]
  generalize disk.wpa_supplicant = file, disk'.wpa_supplicant = file' at hwpa ⊢
  cases hwpa with
  | none => exact List.Forall₂.nil
  | some hlines => exact hlines

section Reading

variable {R : List Bytes → List Bytes → Prop} {file file' : Option Bytes}
  (h : Option.Rel (fun text text' => R (getlines text) (getlines text')) file file')

include h

theorem readAllLines_same (path : Bytes) (failure : Option Bytes) :
    (∃ message, readAllLines path file failure = .error message ∧
        readAllLines path file' failure = .error message) ∨
      ∃ lines lines', readAllLines path file failure = .ok lines ∧
        readAllLines path file' failure = .ok lines' ∧ R lines lines' := by
  cases failure with
  | some message => exact Or.inl ⟨_, rfl, rfl⟩
  | none =>
    cases h with
    | none => exact Or.inl ⟨_, rfl, rfl⟩
    | some hlines => exact Or.inr ⟨_, _, rfl, rfl, hlines⟩

theorem readAllLinesIfExists_same (hnil : R [] []) (path : Bytes) (failure : Option Bytes) :
    (∃ message, readAllLinesIfExists path file failure = .error message ∧
        readAllLinesIfExists path file' failure = .error message) ∨
      ∃ lines lines', readAllLinesIfExists path file failure = .ok lines ∧
        readAllLinesIfExists path file' failure = .ok lines' ∧ R lines lines' := by
  have hread := readAllLines_same h path failure
  cases h with
  | none => exact Or.inr ⟨_, _, rfl, rfl, hnil⟩
  | some hlines => exact hread

end Reading

/-- The results agree, but for the MQTT password in the snapshot. -/
structure SameResult (result result' : SaveResult) : Prop where
  success : result.success = result'.success
  error : result.error = result'.error
  validation_errors : result.validation_errors = result'.validation_errors
  snapshot : SameSnapshot result.snapshot result'.snapshot

theorem sameResult_refl (result : SaveResult) : SameResult result result :=
  ⟨rfl, rfl, rfl, ⟨rfl, bothBlank_refl _⟩, rfl, rfl⟩

theorem loadCoreConfig_same (store : ConfigStore) {disk disk' : Disk} (h : SameDisk disk disk')
    (chimeOpen wpaOpen : Option Bytes) :
    SameResult (loadCoreConfig store disk chimeOpen wpaOpen)
      (loadCoreConfig store disk' chimeOpen wpaOpen) := by
  unfold loadCoreConfig
  rcases readAllLines_same h.chime store.chime_config_path chimeOpen with
    ⟨message, hchime, hchime'⟩ | ⟨chime, chime', hchime, hchime', hsame⟩
  · rw [hchime, hchime']
    exact sameResult_refl _
  · rw [hchime, hchime']
    rcases readAllLinesIfExists_same h.wpa List.Forall₂.nil store.wpa_supplicant_path wpaOpen with
      ⟨message, hwpa, hwpa'⟩ | ⟨wpa, wpa', hwpa, hwpa', hsameWpa⟩
    · simp only [hwpa, hwpa']
      exact sameResult_refl _
    · simp only [hwpa, hwpa']
      exact ⟨rfl, rfl, rfl, snapshotOf_same hsame hsameWpa⟩

/-- No response holds the password of a snapshot. -/
theorem coreConfigBody_same {snapshot snapshot' : CoreConfigSnapshot}
    (h : SameSnapshot snapshot snapshot') (apply : ApplyReport) :
    coreConfigBody snapshot apply = coreConfigBody snapshot' apply := by
  have hblank : ∀ s : CoreConfigSnapshot, coreConfigBody s apply =
      coreConfigBody { s with config := { s.config with mqtt_password := [] } } apply :=
    fun _ => rfl
  rw [hblank snapshot, hblank snapshot', h.config.others, h.wifi_password_set,
    h.mqtt_password_set]

/-! ## 3. Saving -/

/-- The file operations of two saves of one request end alike. -/
structure SaveAlike (request : SaveRequest) (disk disk' : Disk) (faults faults' : SaveFaults) :
    Prop where
  existing_chime_open : faults.existing_chime_open = faults'.existing_chime_open
  existing_wpa_open : faults.existing_wpa_open = faults'.existing_wpa_open
  wpa_open : faults.wpa_open = faults'.wpa_open
  wpa_write : ∀ content content', wpaContent request disk.wpaLines = .ok content →
    wpaContent request disk'.wpaLines = .ok content' →
    WritesAlike content content' faults.wpa_write faults'.wpa_write
  chime_open : faults.chime_open = faults'.chime_open
  chime_write : ∀ chime chime', disk.chime_config = some chime →
    disk'.chime_config = some chime' →
    WritesAlike (chimeContent request (readChimeLines (getlines chime)) (getlines chime))
      (chimeContent request (readChimeLines (getlines chime')) (getlines chime'))
      faults.chime_write faults'.chime_write
  loaded_chime_open : faults.loaded_chime_open = faults'.loaded_chime_open
  loaded_wpa_open : faults.loaded_wpa_open = faults'.loaded_wpa_open

section Saving

variable {request : SaveRequest} {disk disk' : Disk} {faults faults' : SaveFaults}
  (alike : SaveAlike request disk disk' faults faults') (h : SameDisk disk disk')

include alike h

theorem saveWpaSupplicant_same (store : ConfigStore) :
    (∃ message, saveWpaSupplicant store request faults disk = (.error message, disk) ∧
        saveWpaSupplicant store request faults' disk' = (.error message, disk')) ∨
      ∃ wpa wpa', saveWpaSupplicant store request faults disk =
          (.ok (), { disk with wpa_supplicant := some wpa }) ∧
        saveWpaSupplicant store request faults' disk' =
          (.ok (), { disk' with wpa_supplicant := some wpa' }) ∧
        SameWpa (getlines wpa) (getlines wpa') := by
  unfold saveWpaSupplicant
  rw [alike.wpa_open]
  rcases readAllLinesIfExists_same h.wpa List.Forall₂.nil store.wpa_supplicant_path
    faults'.wpa_open with ⟨message, hread, hread'⟩ | ⟨lines, lines', hread, hread', -⟩
  · rw [hread, hread']
    exact Or.inl ⟨message, rfl, rfl⟩
  · have hlines : lines = disk.wpaLines := readAllLinesIfExists_ok hread
    have hlines' : lines' = disk'.wpaLines := readAllLinesIfExists_ok hread'
    rw [hread, hread', hlines, hlines']
    rcases wpaContent_same request h.wpaLines (newline_not_mem_wpaLines disk)
      (newline_not_mem_wpaLines disk') with
      ⟨message, hnew, hnew'⟩ | ⟨content, content', hnew, hnew', hsame⟩
    · simp only [hnew, hnew']
      exact Or.inl ⟨message, rfl, rfl⟩
    · simp only [hnew, hnew']
      rcases atomicWriteFile_alike (alike.wpa_write _ _ hnew hnew') store.wpa_supplicant_path
        disk.wpa_supplicant disk'.wpa_supplicant with ⟨message, hwrite, hwrite'⟩ | ⟨hwrite, hwrite'⟩
      · rw [hwrite, hwrite']
        exact Or.inl ⟨message, rfl, rfl⟩
      · rw [hwrite, hwrite']
        exact Or.inr ⟨content, content', rfl, rfl, hsame⟩

/-- The second writer runs over the `chime.conf` files that the first one has left alone. -/
theorem saveChimeConfig_same (store : ConfigStore) {chime chime' : Bytes}
    (hchime : disk.chime_config = some chime) (hchime' : disk'.chime_config = some chime')
    {existing existing' : CoreConfigSnapshot}
    (hexisting : existing = snapshotOf (getlines chime) disk.wpaLines)
    (hexisting' : existing' = snapshotOf (getlines chime') disk'.wpaLines) (wpa wpa' : Bytes) :
    (∃ message, saveChimeConfig store request existing faults
          { disk with wpa_supplicant := some wpa } =
          (.error message, { disk with wpa_supplicant := some wpa }) ∧
        saveChimeConfig store request existing' faults'
          { disk' with wpa_supplicant := some wpa' } =
          (.error message, { disk' with wpa_supplicant := some wpa' })) ∨
      ∃ new new', saveChimeConfig store request existing faults
          { disk with wpa_supplicant := some wpa } =
          (.ok (), ⟨some new, some wpa⟩) ∧
        saveChimeConfig store request existing' faults'
          { disk' with wpa_supplicant := some wpa' } =
          (.ok (), ⟨some new', some wpa'⟩) ∧
        SameChime (getlines new) (getlines new') := by
  have hlines : SameChime (getlines chime) (getlines chime') := by
    have hfiles := h.chime
    rw [hchime, hchime'] at hfiles
    cases hfiles with
    | some hlines => exact hlines
  have hnew := chimeContent_same request hlines (fun _ => newline_not_mem_of_mem_getlines)
    fun _ => newline_not_mem_of_mem_getlines
  unfold saveChimeConfig
  rw [alike.chime_open, hexisting, hexisting']
  simp only [hchime, hchime']
  cases faults'.chime_open with
  | some message => exact Or.inl ⟨_, rfl, rfl⟩
  | none =>
    simp only [readAllLines, chimeContent_snapshot]
    rcases atomicWriteFile_alike (alike.chime_write _ _ hchime hchime') store.chime_config_path
      (some chime) (some chime') with ⟨message, hwrite, hwrite'⟩ | ⟨hwrite, hwrite'⟩
    · rw [hwrite, hwrite']
      exact Or.inl ⟨message, rfl, rfl⟩
    · rw [hwrite, hwrite']
      exact Or.inr ⟨_, _, rfl, rfl, hnew⟩

theorem saveCoreConfig_same (store : ConfigStore) :
    SameResult (saveCoreConfig store request faults disk).1
        (saveCoreConfig store request faults' disk').1 ∧
      SameDisk (saveCoreConfig store request faults disk).2
        (saveCoreConfig store request faults' disk').2 := by
  have hload := loadCoreConfig_same store h faults'.existing_chime_open faults'.existing_wpa_open
  unfold saveCoreConfig
  rw [alike.existing_chime_open, alike.existing_wpa_open, alike.loaded_chime_open,
    alike.loaded_wpa_open]
  simp only
  split
  · exact ⟨sameResult_refl _, h⟩
  · rw [hload.success]
    split
    · exact ⟨hload, h⟩
    · next hsuccess =>
      rw [Bool.not_eq_true, Bool.not_eq_false'] at hsuccess
      obtain ⟨chime', hchime', hexisting'⟩ := loadCoreConfig_success hsuccess
      obtain ⟨chime, hchime, hexisting⟩ := loadCoreConfig_success (hload.success.trans hsuccess)
      rcases saveWpaSupplicant_same alike h store with
        ⟨message, hwpa, hwpa'⟩ | ⟨wpa, wpa', hwpa, hwpa', hsameWpa⟩
      · rw [hwpa, hwpa']
        exact ⟨sameResult_refl _, h⟩
      · rw [hwpa, hwpa']
        have hsameDisk : SameDisk { disk with wpa_supplicant := some wpa }
            { disk' with wpa_supplicant := some wpa' } := ⟨h.chime, Option.Rel.some hsameWpa⟩
        rcases saveChimeConfig_same alike h store hchime hchime'
          (congrArg SaveResult.snapshot hexisting) (congrArg SaveResult.snapshot hexisting') wpa
          wpa' with ⟨message, hsave, hsave'⟩ | ⟨new, new', hsave, hsave', hsameChime⟩
        · simp only [hsave, hsave']
          exact ⟨sameResult_refl _, hsameDisk⟩
        · simp only [hsave, hsave']
          have hsaved : SameDisk ⟨some new, some wpa⟩ ⟨some new', some wpa'⟩ :=
            ⟨Option.Rel.some hsameChime, Option.Rel.some hsameWpa⟩
          exact ⟨loadCoreConfig_same store hsaved _ _, hsaved⟩

end Saving

/-! ## 4. Requests -/

/-- A request to the configuration, with what the apply manager and the files answer. -/
inductive ApiRequest where
  | get (chimeOpen wpaOpen : Option Bytes) (apply : ApplyReport)
  | post (body : Bytes) (faults : PostFaults) (apply : ApplyReport)

def serve (store : ConfigStore) (disk : Disk) : ApiRequest → HttpResponse × Disk
  | .get chimeOpen wpaOpen apply => (handleGetCoreConfig store disk chimeOpen wpaOpen apply, disk)
  | .post body faults apply => handlePostCoreConfig store body faults apply disk

/-- The same request, for which the apply manager and the files behave alike. -/
inductive RequestAlike (store : ConfigStore) (disk disk' : Disk) : ApiRequest → ApiRequest → Prop where
  | get (chimeOpen wpaOpen : Option Bytes) (apply : ApplyReport) :
      RequestAlike store disk disk' (.get chimeOpen wpaOpen apply) (.get chimeOpen wpaOpen apply)
  | post (body : Bytes) {faults faults' : PostFaults} (apply : ApplyReport)
      (chime_open : faults.chime_open = faults'.chime_open)
      (wpa_open : faults.wpa_open = faults'.wpa_open)
      (save : ∀ request, postedRequest store body faults disk = some request →
        SaveAlike request disk disk' faults.save faults'.save) :
      RequestAlike store disk disk' (.post body faults apply) (.post body faults' apply)

theorem handleGet_same (store : ConfigStore) {disk disk' : Disk} (h : SameDisk disk disk')
    (chimeOpen wpaOpen : Option Bytes) (apply : ApplyReport) :
    handleGetCoreConfig store disk chimeOpen wpaOpen apply =
      handleGetCoreConfig store disk' chimeOpen wpaOpen apply := by
  have hload := loadCoreConfig_same store h chimeOpen wpaOpen
  simp only [handleGetCoreConfig]
  rw [hload.success, hload.error, coreConfigBody_same hload.snapshot]

theorem savePosted_same (store : ConfigStore) {request : SaveRequest} {disk disk' : Disk}
    {faults faults' : SaveFaults} (alike : SaveAlike request disk disk' faults faults')
    (h : SameDisk disk disk') (apply : ApplyReport) :
    (savePosted store request faults apply disk).1 =
        (savePosted store request faults' apply disk').1 ∧
      SameDisk (savePosted store request faults apply disk).2
        (savePosted store request faults' apply disk').2 := by
  obtain ⟨hresult, hdisk⟩ := saveCoreConfig_same alike h store
  simp only [savePosted]
  generalize saveCoreConfig store request faults disk = saved,
    saveCoreConfig store request faults' disk' = saved' at hresult hdisk ⊢
  obtain ⟨result, new⟩ := saved
  obtain ⟨result', new'⟩ := saved'
  rw [hresult.validation_errors, hresult.success, hresult.error,
    coreConfigBody_same hresult.snapshot]
  split
  · exact ⟨rfl, hdisk⟩
  · split
    · exact ⟨rfl, hdisk⟩
    · exact ⟨rfl, hdisk⟩

/-- The snapshot that may be loaded for the notification paths gives the same request. -/
theorem existingForPaths_same (store : ConfigStore) (fields : PostedFields)
    {faults faults' : PostFaults} (chime_open : faults.chime_open = faults'.chime_open)
    (wpa_open : faults.wpa_open = faults'.wpa_open) {disk disk' : Disk} (h : SameDisk disk disk') :
    (∃ message, existingForPaths store fields faults disk = .error message ∧
        existingForPaths store fields faults' disk' = .error message) ∨
      ∃ existing existing', existingForPaths store fields faults disk = .ok existing ∧
        existingForPaths store fields faults' disk' = .ok existing' ∧
        saveRequestOf fields existing = saveRequestOf fields existing' := by
  have hload := loadCoreConfig_same store h faults'.chime_open faults'.wpa_open
  simp only [existingForPaths, chime_open, wpa_open]
  split
  · rw [hload.success, hload.error]
    split
    · exact Or.inl ⟨_, rfl, rfl⟩
    · have hsuccess := congrArg CoreConfig.notification_success_sound_path
        hload.snapshot.config.others
      have hfailure := congrArg CoreConfig.notification_failure_sound_path
        hload.snapshot.config.others
      dsimp only at hsuccess hfailure
      refine Or.inr ⟨_, _, rfl, rfl, ?_⟩
      simp only [saveRequestOf, Option.map_some, hsuccess, hfailure]
  · exact Or.inr ⟨none, none, rfl, rfl, rfl⟩

theorem handlePost_same (store : ConfigStore) (body : Bytes) {faults faults' : PostFaults}
    (apply : ApplyReport) (chime_open : faults.chime_open = faults'.chime_open)
    (wpa_open : faults.wpa_open = faults'.wpa_open) {disk disk' : Disk}
    (save : ∀ request, postedRequest store body faults disk = some request →
      SaveAlike request disk disk' faults.save faults'.save) (h : SameDisk disk disk') :
    (handlePostCoreConfig store body faults apply disk).1 =
        (handlePostCoreConfig store body faults' apply disk').1 ∧
      SameDisk (handlePostCoreConfig store body faults apply disk).2
        (handlePostCoreConfig store body faults' apply disk').2 := by
  unfold handlePostCoreConfig
  cases hparse : parseJson body with
  | error message => exact ⟨rfl, h⟩
  | ok posted =>
    cases posted with
    | object items =>
      rw [postedRequest, hparse] at save
      simp only [postObject] at save ⊢
      split
      · exact ⟨rfl, h⟩
      · next hvalid =>
        rcases existingForPaths_same store (readPostedFields (.object items)).1 chime_open wpa_open
          h with ⟨message, hload, hload'⟩ | ⟨existing, existing', hload, hload', hrequest⟩
        · simp only [hload, hload']
          exact ⟨trivial, h⟩
        · rw [if_neg hvalid] at save
          simp only [hload] at save
          simp only [hload, hload', ← hrequest]
          exact savePosted_same store (save _ rfl) h apply
    | _ => exact ⟨rfl, h⟩

/-- One request: the answers are equal, and the files agree again. -/
theorem serve_unwinds (store : ConfigStore) :
    TwoRuns.Unwinds (serve store) (RequestAlike store) SameDisk := by
  intro disk disk' request request' h alike
  cases alike with
  | get chimeOpen wpaOpen apply => exact ⟨handleGet_same store h chimeOpen wpaOpen apply, h⟩
  | post body apply chime_open wpa_open save =>
    exact handlePost_same store body apply chime_open wpa_open save h

/-- No sequence of requests tells apart two devices whose files agree but for the secrets. -/
theorem secrets_hidden (store : ConfigStore) (disk disk' : Disk)
    (requests requests' : List ApiRequest) (same : SameDisk disk disk')
    (alike : TwoRuns.Paired (serve store) (RequestAlike store) disk disk' requests requests') :
    (TwoRuns.run (serve store) disk requests).1 = (TwoRuns.run (serve store) disk' requests').1 ∧
      SameDisk (TwoRuns.run (serve store) disk requests).2
        (TwoRuns.run (serve store) disk' requests').2 :=
  alike.responses (serve_unwinds store) same

theorem saveAlike_default (request : SaveRequest) (disk disk' : Disk) :
    SaveAlike request disk disk' {} {} where
  existing_chime_open := rfl
  existing_wpa_open := rfl
  wpa_open := rfl
  wpa_write _ _ _ _ := ⟨rfl, rfl, rfl, rfl, rfl, rfl, rfl⟩
  chime_open := rfl
  chime_write _ _ _ _ := ⟨rfl, rfl, rfl, rfl, rfl, rfl, rfl⟩
  loaded_chime_open := rfl
  loaded_wpa_open := rfl

/-- A device with these secrets. -/
def deviceWith (password psk : Bytes) : Disk where
  chime_config := some (joinLines [bytes "mqtt_username=me", passwordKey ++ equals :: password])
  wpa_supplicant := some (joinLines [bytes "network=\x7b", pskKey ++ equals :: psk, bytes "\x7d"])

theorem deviceWith_same {password password' psk psk' : Bytes}
    (hpassword : newline ∉ password ∧ newline ∉ password')
    (hblank : BothBlank (trim password) (trim password'))
    (hpsk : newline ∉ psk ∧ newline ∉ psk') (hempty : BothBlank (stripQuotes psk) (stripQuotes psk')) :
    SameDisk (deviceWith password psk) (deviceWith password' psk') := by
  have hclean : ∀ {key value : Bytes}, newline ∉ key → newline ∉ value →
      newline ∉ key ++ equals :: value := by
    intro key value hkey hvalue
    have hne : newline ≠ equals := by decide
    simp [hkey, hvalue, hne]
  constructor
  · refine Option.Rel.some (getlines_written (.cons (.refl _) (.cons (Or.inr ⟨?_, ?_, ?_⟩) .nil)))
    · exact .secret (trim_name passwordKey_plain) passwordKey_plain.2.1 hblank
    · exact hclean passwordKey_plain.2.2.1 hpassword.1
    · exact hclean passwordKey_plain.2.2.1 hpassword.2
  · refine Option.Rel.some (getlines_written
      (.cons (.refl _) (.cons (Or.inr ⟨?_, ?_, ?_⟩) (.cons (.refl _) .nil))))
    · exact .secret (trim_name pskKey_plain) pskKey_plain.2.1 hempty
    · exact hclean pskKey_plain.2.2.1 hpsk.1
    · exact hclean pskKey_plain.2.2.1 hpsk.2

/-- A form that keeps the MQTT password and the Wi-Fi key. -/
def keepingBody : Bytes := bytes ("\x7b\"wifi_ssid\":\"home\",\"mqtt_host\":\"broker\"," ++
  "\"mqtt_port\":1883,\"mqtt_client_id\":\"chime\",\"mqtt_username\":\"me\"," ++
  "\"mqtt_tls_enabled\":false,\"mqtt_tls_validate_certificate\":true,\"mqtt_tls_ca_file\":\"\"," ++
  "\"mqtt_tls_cert_file\":\"\",\"mqtt_tls_key_file\":\"\",\"mqtt_topics\":[\"a/b\"]," ++
  "\"ring_topic\":\"ring\",\"volume_bell\":80,\"volume_notifications\":70," ++
  "\"volume_other\":70\x7d")

/-- Two devices with other secrets are read, posted to, and read again. -/
theorem secrets_hidden_sample :
    let requests : List ApiRequest :=
      [.get none none {}, .post keepingBody {} {}, .get none none {}]
    (TwoRuns.run (serve {}) (deviceWith (bytes "one") (bytes "\"first key\"")) requests).1 =
      (TwoRuns.run (serve {}) (deviceWith (bytes "another one") (bytes "other")) requests).1 := by
  intro requests
  have hsame : SameDisk (deviceWith (bytes "one") (bytes "\"first key\""))
      (deviceWith (bytes "another one") (bytes "other")) :=
    deviceWith_same (by decide +kernel) (by unfold BothBlank; decide +kernel) (by decide +kernel)
      (by unfold BothBlank; decide +kernel)
  exact (secrets_hidden {} _ _ requests requests hsame (.cons (.get none none {})
    (.cons (.post _ {} rfl rfl fun request _ => saveAlike_default request _ _)
      (.cons (.get none none {}) .nil)))).1

end VirtualChime.Webd
