import VirtualChime.SaveRoundTrip
import VirtualChime.WifiRoundTrip

/-!
# Saving the same request twice

A second save works on what the first has written.  `chime.conf` comes out the
same (`chimeLines_twice`), and so does `wpa_supplicant.conf` where the first
network block was closed or there was none.  A block that is not closed ends only
with the block the first save has appended, so that the second save rewrites the
settings inside it: the files stay as they are exactly if there is nothing to
rewrite (`save_twice_iff`).
-/

namespace VirtualChime.Webd

open Config

/-! ## 1. `chime.conf` -/

section Chime

variable {config : CoreConfig} {mqttPassword : Bytes} {lines : List Bytes}

theorem replacementFor_row {row : Bytes × Bytes} (hrow : row ∈ replacements config mqttPassword) :
    replacementFor (replacements config mqttPassword) (settingLine row) = some row := by
  rw [replacements_eq] at hrow
  obtain ⟨key, hkey, rfl⟩ := List.mem_map.mp hrow
  exact replacementFor_settingLine config mqttPassword _ hkey

/-- Rewriting what a save has written changes no line and appends none. -/
theorem chimeLines_twice (config : CoreConfig) (mqttPassword : Bytes) (lines : List Bytes) :
    chimeLines (replacements config mqttPassword)
        (chimeLines (replacements config mqttPassword) lines) =
      chimeLines (replacements config mqttPassword) lines := by
  have hfixed : ∀ line ∈ chimeLines (replacements config mqttPassword) lines,
      ((replacementFor (replacements config mqttPassword) line).map settingLine).getD line =
        line := by
    intro line hline
    rcases mem_chimeLines hline with ⟨-, hkept⟩ | ⟨row, hrow, rfl⟩
    · rw [hkept]
      rfl
    · rw [replacementFor_row hrow]
      rfl
  have hseen : ∀ row ∈ replacements config mqttPassword,
      row.1 ∈ (chimeLines (replacements config mqttPassword) lines).filterMap fun line =>
        (replacementFor (replacements config mqttPassword) line).map Prod.fst := by
    intro row hrow
    have hnodup : ((replacements config mqttPassword).map Prod.fst).Nodup := by
      rw [replacements_keys]
      exact managedKeys_names_nodup
    refine List.mem_filterMap.mpr ⟨settingLine row, settingLine_mem_chimeLines hnodup hrow, ?_⟩
    rw [replacementFor_row hrow]
    rfl
  conv_lhs => rw [chimeLines_eq]
  rw [List.map_congr_left hfixed, List.map_id', List.filter_eq_nil_iff.mpr]
  · exact List.append_nil _
  · intro row hrow
    simpa using hseen row hrow

/-- The second save keeps the MQTT password the first has stored. -/
theorem savedMqttPassword_twice {request : SaveRequest} {existing stored : CoreConfig}
    (husername : stored.mqtt_username = request.config.mqtt_username)
    (hpassword : stored.mqtt_password = savedMqttPassword request existing) :
    savedMqttPassword request stored = savedMqttPassword request existing := by
  have hkept : (if request.config.mqtt_username ≠ stored.mqtt_username then ([] : Bytes)
      else stored.mqtt_password) = savedMqttPassword request existing := by
    rw [if_neg (by simp [husername]), hpassword]
  rw [savedMqttPassword]
  split
  · next huser => rw [savedMqttPassword, if_pos huser]
  · next huser =>
    split
    · next password hgiven =>
      split
      · exact hkept
      · next hne => simp only [savedMqttPassword, if_neg huser, hgiven, if_neg hne]
    · exact hkept

end Chime

/-! ## 2. `wpa_supplicant.conf` -/

section Wpa

variable {ssid password : Bytes}

/-- Every setting of the name or the passphrase is already the line that is written. -/
def Settled (ssid password : Bytes) (lines : List Bytes) : Prop :=
  ∀ line ∈ lines,
    (hasWpaKey (bytes "ssid") line = true → line = quotedLine (bytes "ssid") ssid) ∧
      (hasWpaKey (bytes "psk") line = true → line = quotedLine (bytes "psk") password)

theorem settled_newSettings : Settled ssid password (newSettings ssid password) := by
  intro line hline
  rcases List.mem_cons.mp hline with rfl | hline
  · rw [hasWpaKey_ssidLine, hasWpaKey_ssidLine]
    exact ⟨fun _ => rfl, fun h => absurd h (by decide)⟩
  · rw [List.mem_singleton.mp hline, hasWpaKey_pskLine, hasWpaKey_pskLine]
    exact ⟨fun h => absurd h (by decide), fun _ => rfl⟩

theorem rewriteWpaLine_eq_self_iff (line : Bytes) :
    rewriteWpaLine (quotedLine (bytes "ssid") ssid) (quotedLine (bytes "psk") password) line =
        line ↔
      (hasWpaKey (bytes "ssid") line = true → line = quotedLine (bytes "ssid") ssid) ∧
        (hasWpaKey (bytes "psk") line = true → line = quotedLine (bytes "psk") password) := by
  rcases rewriteWpaLine_cases (quotedLine (bytes "ssid") ssid) (quotedLine (bytes "psk") password)
    line with ⟨hssid, hpsk, heq⟩ | ⟨hssid, hpsk, heq⟩ | ⟨hssid, hpsk, heq⟩
  · rw [heq, hssid, hpsk]
    simp [eq_comm]
  · rw [heq, hssid, hpsk]
    simp [eq_comm]
  · rw [heq, hssid, hpsk]
    simp

/-- A block that has both settings is rewritten to itself exactly if they are settled. -/
theorem savedBlock_eq_self_iff {body : List Bytes}
    (hssid : quotedLine (bytes "ssid") ssid ∈ body)
    (hpsk : quotedLine (bytes "psk") password ∈ body) :
    savedBlock ssid password body = body ↔ Settled ssid password body := by
  have hanySsid : body.any (hasWpaKey (bytes "ssid")) = true :=
    List.any_eq_true.mpr ⟨_, hssid, hasWpaKey_of_wpaSetting (wpaSetting_ssidLine ssid)⟩
  have hanyPsk : body.any (hasWpaKey (bytes "psk")) = true :=
    List.any_eq_true.mpr ⟨_, hpsk, hasWpaKey_of_wpaSetting (wpaSetting_pskLine password)⟩
  have hmap : savedBlock ssid password body = body.map (rewriteWpaLine
      (quotedLine (bytes "ssid") ssid) (quotedLine (bytes "psk") password)) := by
    rw [savedBlock, rewriteBlock, hanySsid, hanyPsk, if_pos rfl, if_pos rfl, List.append_nil,
      List.append_nil]
  rw [hmap]
  conv_lhs => rw [← List.map_id body, List.map_map, List.map_inj_left]
  exact forall₂_congr fun line _ => rewriteWpaLine_eq_self_iff line

theorem settled_savedBlock (body : List Bytes) :
    Settled ssid password (savedBlock ssid password body) := by
  intro line hline
  rcases mem_savedBlock hline with rfl | rfl | ⟨-, hssid, hpsk⟩
  · exact settled_newSettings _ (List.mem_cons_self ..)
  · exact settled_newSettings _ (List.mem_cons_of_mem _ (List.mem_cons_self ..))
  · rw [hssid, hpsk]
    exact ⟨fun h => absurd h Bool.false_ne_true, fun h => absurd h Bool.false_ne_true⟩

/-- The settings a second save would change: those of a first block that was not closed. -/
def NothingStale (ssid password : Bytes) (lines : List Bytes) : Prop :=
  hasClosedBlock lines = true ∨ Settled ssid password (blockLines lines)

/-- A second rewriting leaves the file as it is exactly if no setting in it was stale. -/
theorem savedWpaLines_twice_iff (lines : List Bytes) :
    savedWpaLines ssid password (savedWpaLines ssid password lines) =
        savedWpaLines ssid password lines ↔
      NothingStale ssid password lines := by
  obtain ⟨before, opening, block, closing, after, hbefore, hopening, hblock, hclosing, hnew, heq⟩ :=
    savedWpaLines_shape ssid password lines
  have hsame : savedWpaLines ssid password (savedWpaLines ssid password lines) =
      savedWpaLines ssid password lines ↔ savedBlock ssid password block = block := by
    rw [heq, savedWpaLines_closed ssid password hbefore hopening hblock hclosing,
      List.append_cancel_left_eq, List.cons.injEq, List.append_cancel_right_eq]
    simp
  rw [hsame, NothingStale]
  cases hnew with
  | rewritten closed =>
    rw [savedBlock_eq_self_iff (ssidLine_mem_savedBlock _) (pskLine_mem_savedBlock _)]
    exact ⟨fun _ => Or.inl closed, fun _ => settled_savedBlock _⟩
  | appended filler unclosed hfiller =>
    rw [savedBlock_eq_self_iff (by simp [newSettings]) (by simp [newSettings]), unclosed]
    constructor
    · intro h
      exact Or.inr fun line hline => h line (by simp [hline])
    · rintro (hclosed | h)
      · cases hclosed
      · intro line hline
        rcases List.mem_append.mp hline with hline | hline
        · rcases List.mem_append.mp hline with hline | hline
          · exact h line hline
          · obtain ⟨-, hssid, hpsk⟩ := hfiller line hline
            rw [hssid, hpsk]
            exact ⟨fun h => absurd h Bool.false_ne_true, fun h => absurd h Bool.false_ne_true⟩
        · exact settled_newSettings line hline

end Wpa

/-! ## 3. Both files -/

/-- One-line requests whose Wi-Fi texts are single trimmed lines too. -/
structure OneLineForm (request : SaveRequest) : Prop extends OneLineRequest request where
  wifi_ssid : OneLine request.config.wifi_ssid
  wifi_password : OneLine (request.wifi_password.getD [])

/-- Saved again without a failing file operation, the request leaves both files as they are. -/
def SameAgain (store : ConfigStore) (request : SaveRequest) (disk : Disk) : Prop :=
  (saveCoreConfig store request {} disk).1.success = true ∧
    (saveCoreConfig store request {} disk).2 = disk

theorem savedWifiPassword_twice {request : SaveRequest} {psk password : Bytes}
    (h : savedWifiPassword request psk = .ok password) :
    savedWifiPassword request password = .ok password := by
  rw [savedWifiPassword]
  rcases savedWifiPassword_ok h with ⟨hgiven, hne⟩ | ⟨hblank, rfl, hne⟩
  · rw [hgiven]
    simp [hne]
  · cases hgiven : request.wifi_password with
    | none => simp [hne]
    | some given =>
      rw [hgiven, Option.getD_some] at hblank
      simp [hblank, hne]

/-- A one-line `chime.conf` is saved again as it is. -/
theorem chimeContent_twice {request : SaveRequest} (accepted : Accepted request)
    (oneLine : OneLineRequest request) (chime : Bytes) :
    let content := chimeContent request (readChimeLines (getlines chime)) (getlines chime)
    chimeContent request (readChimeLines (getlines content)) (getlines content) = content := by
  intro content
  have password : OneLine (savedMqttPassword request (readChimeLines (getlines chime))) :=
    savedMqttPassword_oneLine oneLine.mqtt_password fun _ => newline_not_mem_of_mem_getlines
  have hfields := fun g => fieldText_oneLine accepted oneLine password g
  have hlines : getlines content = savedLines request.config
      (savedMqttPassword request (readChimeLines (getlines chime))) chime :=
    getlines_chimeContent request _ chime
  have husername : (readChimeLines (getlines content)).mqtt_username =
      request.config.mqtt_username := by
    rw [hlines]
    exact extractConfigValue_saved hfields
      (show ConfigKey.mqtt_username ∈ managedKeys by decide) chime
  have hpassword : (readChimeLines (getlines content)).mqtt_password =
      savedMqttPassword request (readChimeLines (getlines chime)) := by
    rw [hlines]
    exact extractConfigValue_saved hfields
      (show ConfigKey.mqtt_password ∈ managedKeys by decide) chime
  rw [chimeContent, savedMqttPassword_twice husername hpassword, hlines,
    savedLines_oneLine hfields, chimeLines_twice]
  rfl

theorem nothingStale_wpaBase (ssid password : Bytes) (lines : List Bytes) :
    NothingStale ssid password (wpaBase lines) ↔ NothingStale ssid password lines := by
  rw [wpaBase]
  split
  · next h =>
    have hpreamble : blockLines wpaPreamble = [] := by decide
    have hnone : Settled ssid password [] := by
      intro line hline
      cases hline
    rw [List.isEmpty_iff.mp h, NothingStale, NothingStale, hpreamble]
    exact iff_of_true (Or.inr hnone) (Or.inr hnone)
  · rfl

theorem joinLines_inj {xs ys : List Bytes} (hxs : xs ≠ []) (hys : ys ≠ [])
    (hcleanXs : ∀ line ∈ xs, newline ∉ line) (hcleanYs : ∀ line ∈ ys, newline ∉ line) :
    joinLines xs = joinLines ys ↔ xs = ys := by
  constructor
  · intro h
    rw [← getlines_joinLines_of_clean hxs hcleanXs, h, getlines_joinLines_of_clean hys hcleanYs]
  · rintro rfl
    rfl

/-- The second of two equal saves changes nothing exactly if the first block of the old
`wpa_supplicant.conf` was closed, or had no setting to change. -/
theorem save_twice_iff (store : ConfigStore) (request : SaveRequest) (faults : SaveFaults)
    (disk : Disk) (oneLine : OneLineForm request)
    (saved : (saveCoreConfig store request faults disk).1.success = true) :
    SameAgain store request (saveCoreConfig store request faults disk).2 ↔
      NothingStale request.config.wifi_ssid
        (passwordAfter request (parseWpaData disk.wpaLines).psk) disk.wpaLines := by
  obtain ⟨chime, wpa, hvalid, hchime, hwpa, hdisk⟩ := saveCoreConfig_success saved
  have accepted := accepted_of_validateRequest hvalid
  rw [wpaContent_eq] at hwpa
  rcases hpassword : savedWifiPassword request (parseWpaData disk.wpaLines).psk with
    message | password
  · rw [hpassword] at hwpa
    cases hwpa
  rw [hpassword] at hwpa
  have hclean : newline ∉ password := by
    rcases savedWifiPassword_ok hpassword with ⟨hgiven, -⟩ | ⟨-, rfl, -⟩
    · have hgivenLine := oneLine.wifi_password.1
      rwa [hgiven] at hgivenLine
    · exact newline_not_mem_storedPsk disk
  have hssid := oneLine.wifi_ssid.1
  have hbase := newline_not_mem_wpaBase (newline_not_mem_wpaLines disk)
  rw [hdisk, passwordAfter_of_saved hpassword, ← nothingStale_wpaBase, ← savedWpaLines_twice_iff]
  have hwritten : joinLines (savedWpaLines request.config.wifi_ssid password
      (wpaBase disk.wpaLines)) = wpa := Except.ok.inj hwpa
  rw [← hwritten]
  generalize hfirst : savedWpaLines request.config.wifi_ssid password (wpaBase disk.wpaLines) = first
  have hne : first ≠ [] := by
    rw [← hfirst]
    exact savedWpaLines_ne_nil _
  have hlines : getlines (joinLines first) = first := by
    rw [← hfirst]
    exact getlines_savedWpaLines hssid hclean hbase
  have hcleanFirst : ∀ line ∈ first, newline ∉ line := by
    rw [← hlines]
    intro _
    exact newline_not_mem_of_mem_getlines
  have hpsk : (parseWpaData first).psk = password := by
    rw [← hfirst]
    exact (parseWpaData_savedWpaLines _).2
  have hagain : wpaContent request first =
      .ok (joinLines (savedWpaLines request.config.wifi_ssid password first)) := by
    rw [wpaContent_eq, hpsk, savedWifiPassword_twice hpassword, wpaBase,
      if_neg (by simpa using hne)]
    rfl
  have hcleanAgain : ∀ line ∈ savedWpaLines request.config.wifi_ssid password first,
      newline ∉ line := by
    rw [← getlines_savedWpaLines hssid hclean hcleanFirst]
    intro _
    exact newline_not_mem_of_mem_getlines
  have hcontent : wpaContent request (savedDisk request chime (joinLines first)).wpaLines =
      .ok (joinLines (savedWpaLines request.config.wifi_ssid password first)) := by
    rw [← hagain]
    exact congrArg (wpaContent request) hlines
  have hrun := saveCoreConfig_of_no_failure store (savedDisk request chime (joinLines first))
    hvalid rfl hcontent
  rw [SameAgain, hrun, ← joinLines_inj (savedWpaLines_ne_nil _) hne hcleanAgain hcleanFirst,
    loadCoreConfig_savedDisk, savedDisk, savedDisk,
    chimeContent_twice accepted oneLine.toOneLineRequest chime]
  simp

theorem sampleRequest_oneLineForm : OneLineForm sampleRequest where
  toOneLineRequest := sampleRequest_oneLine
  wifi_ssid := by decide
  wifi_password := by decide

theorem save_twice_iff_sample :
    SameAgain {} sampleRequest (saveCoreConfig {} sampleRequest {} sampleDisk).2 ↔
      NothingStale (bytes "home") (bytes "password1") [] :=
  save_twice_iff {} sampleRequest {} sampleDisk sampleRequest_oneLineForm (by decide +kernel)

/-- A network block that is not closed holds an old name: the first save leaves it, the second
rewrites it. -/
theorem save_twice_unclosed :
    let disk : Disk := { sampleDisk with
      wpa_supplicant := some (bytes "network=\x7b\nssid=\"old\"\n") }
    let first := saveCoreConfig {} sampleRequest {} disk
    let second := saveCoreConfig {} sampleRequest {} first.2
    validateRequest sampleRequest = [] ∧ first.1.success = true ∧ second.1.success = true ∧
      first.2.wpa_supplicant = some (bytes ("network=\x7b\nssid=\"old\"\n\n" ++
        "network=\x7b\n    ssid=\"home\"\n    psk=\"password1\"\n\x7d\n")) ∧
      second.2.wpa_supplicant = some (bytes ("network=\x7b\n    ssid=\"home\"\n\n" ++
        "network=\x7b\n    ssid=\"home\"\n    psk=\"password1\"\n\x7d\n")) ∧
      ¬ SameAgain {} sampleRequest first.2 := by
  refine ⟨by decide +kernel, by decide +kernel, by decide +kernel, by decide +kernel,
    by decide +kernel, fun h => ?_⟩
  have hsame := h.2
  revert hsame
  decide +kernel

end VirtualChime.Webd
