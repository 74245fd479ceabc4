import VirtualChime.WpaNetwork

/-!
# Saving the Wi-Fi settings and reading them again

Where the network name and the passphrase hold no line end, the web daemon's own
reader finds both in the file it has written, whatever bytes they hold and
whatever the old file looked like, and the other lines of the old file are still
there (`wifi_round_trip`).
-/

namespace VirtualChime.Webd

/-! ## 1. The written text -/

/-- The lines `SaveWpaSupplicant` works from: an empty file starts with three settings. -/
def wpaBase (lines : List Bytes) : List Bytes := if lines.isEmpty then wpaPreamble else lines

theorem newline_not_mem_wpaBase {lines : List Bytes} (h : ∀ line ∈ lines, newline ∉ line) :
    ∀ line ∈ wpaBase lines, newline ∉ line := by
  rw [wpaBase]
  split
  · decide
  · exact h

theorem parseWpaData_wpaBase (lines : List Bytes) :
    (parseWpaData (wpaBase lines)).psk = (parseWpaData lines).psk := by
  rw [wpaBase]
  split
  · next h =>
    rw [List.isEmpty_iff.mp h]
    decide
  · rfl

theorem wpaContent_eq (request : SaveRequest) (lines : List Bytes) :
    wpaContent request lines =
      (savedWifiPassword request (parseWpaData lines).psk).map fun password =>
        joinLines (savedWpaLines request.config.wifi_ssid password (wpaBase lines)) := by
  have hbase : (if lines.isEmpty then wpaPreamble else lines) = wpaBase lines := rfl
  have hline : ∀ key value : Bytes, bytes "    " ++ key ++ equals :: quoteForWpa value =
      (bytes "    " ++ key ++ [equals]) ++ quoteForWpa value := by simp
  have hssid : bytes "    ssid=" = bytes "    " ++ bytes "ssid" ++ [equals] := by decide
  have hpsk : bytes "    psk=" = bytes "    " ++ bytes "psk" ++ [equals] := by decide
  simp only [wpaContent, hbase, parseWpaData_wpaBase]
  rcases savedWifiPassword request (parseWpaData lines).psk with message | password
  · rfl
  · simp only [Except.map, savedWpaLines, quotedLine, hline, hssid, hpsk]

/-- A passphrase that is saved was given and is not empty, or is the stored one. -/
theorem savedWifiPassword_ok {request : SaveRequest} {psk password : Bytes}
    (h : savedWifiPassword request psk = .ok password) :
    (request.wifi_password = some password ∧ password ≠ []) ∨
      (request.wifi_password.getD [] = [] ∧ password = psk ∧ psk ≠ []) := by
  rw [savedWifiPassword] at h
  split at h
  · next given hgiven =>
    split at h
    · next hempty =>
      split at h
      · cases h
      · next hpsk =>
        rw [hgiven]
        refine Or.inr ⟨by simpa using hempty, (Except.ok.inj h).symm, by simpa using hpsk⟩
    · next hempty =>
      rw [← Except.ok.inj h]
      exact Or.inl ⟨hgiven, by simpa using hempty⟩
  · next hnone =>
    split at h
    · cases h
    · next hpsk =>
      rw [hnone]
      exact Or.inr ⟨rfl, (Except.ok.inj h).symm, by simpa using hpsk⟩

theorem saveWpaSupplicant_ok {store : ConfigStore} {request : SaveRequest} {faults : SaveFaults}
    {disk : Disk} (h : (saveWpaSupplicant store request faults disk).1 = .ok ()) :
    ∃ password, savedWifiPassword request (parseWpaData disk.wpaLines).psk = .ok password ∧
      (saveWpaSupplicant store request faults disk).2 =
        { disk with wpa_supplicant := some (joinLines
          (savedWpaLines request.config.wifi_ssid password (wpaBase disk.wpaLines))) } := by
  rcases saveWpaSupplicant_cases store request faults disk with ⟨message, heq⟩ | ⟨wpa, hwpa, heq⟩
  · rw [heq] at h
    cases h
  · rw [wpaContent_eq] at hwpa
    rw [heq]
    rcases hpassword : savedWifiPassword request (parseWpaData disk.wpaLines).psk with
      message | password
    · rw [hpassword] at hwpa
      cases hwpa
    · rw [hpassword] at hwpa
      exact ⟨password, rfl, by rw [← Except.ok.inj hwpa]⟩

theorem newline_not_mem_wpaLines (disk : Disk) : ∀ line ∈ disk.wpaLines, newline ∉ line := by
  intro line hline
  rw [Disk.wpaLines] at hline
  cases hfile : disk.wpa_supplicant with
  | none =>
    rw [hfile] at hline
    cases hline
  | some text =>
    rw [hfile] at hline
    exact newline_not_mem_of_mem_getlines hline

theorem newline_not_mem_storedSsid (disk : Disk) :
    newline ∉ (parseWpaData disk.wpaLines).ssid :=
  (newline_not_mem_parseWpaData (newline_not_mem_wpaLines disk)).1

theorem newline_not_mem_storedPsk (disk : Disk) :
    newline ∉ (parseWpaData disk.wpaLines).psk :=
  (newline_not_mem_parseWpaData (newline_not_mem_wpaLines disk)).2

section Clean

variable {ssid password : Bytes} {lines : List Bytes}

theorem newline_not_mem_quotedLine {key value : Bytes} (hkey : newline ∉ key)
    (hvalue : newline ∉ value) : newline ∉ quotedLine key value := by
  have hblank : newline ∉ bytes "    " := by decide
  rw [quotedLine, List.mem_append, List.mem_append, List.mem_cons]
  rintro ((h | h) | h | h)
  · exact hblank h
  · exact hkey h
  · cases h
  · exact newline_not_mem_quoteForWpa hvalue h

/-- A written line is an old one, one of the two new settings, or a fixed one. -/
theorem mem_savedWpaLines {line : Bytes} (h : line ∈ savedWpaLines ssid password lines) :
    line ∈ lines ∨ line ∈ newSettings ssid password ∨
      line ∈ [[], bytes "network=\x7b", bytes "\x7d"] := by
  have happend : (parseWpaData lines).has_network_block = false →
      line ∈ lines ∨ line ∈ newSettings ssid password ∨
        line ∈ [[], bytes "network=\x7b", bytes "\x7d"] := by
    intro hblock
    rw [savedWpaLines_append ssid password hblock, List.mem_append] at h
    obtain ⟨blank, heq, hblank⟩ := appendedLines_eq ssid password lines
    rw [heq, List.mem_append, List.mem_cons, List.mem_append, List.mem_singleton] at h
    rcases h with h | h | rfl | h | rfl
    · exact Or.inl h
    · rcases hblank with rfl | rfl
      · cases h
      · exact Or.inr (Or.inr (by simp [List.mem_singleton.mp h]))
    · exact Or.inr (Or.inr (by simp))
    · exact Or.inr (Or.inl h)
    · exact Or.inr (Or.inr (by simp))
  cases layout lines with
  | noBlock hbefore => exact happend (by rw [parseWpaData_noBlock hbefore])
  | unclosed before opening body hbefore hopening hbody =>
    exact happend (by rw [parseWpaData_unclosed hbefore hopening hbody])
  | closed before opening body closing after hbefore hopening hbody hclosing =>
    rw [savedWpaLines_closed ssid password hbefore hopening hbody hclosing] at h
    rw [List.mem_append, List.mem_cons, List.mem_append] at h
    rcases h with h | rfl | h | h
    · exact Or.inl (by simp [h])
    · exact Or.inl (by simp)
    · rcases mem_savedBlock h with rfl | rfl | ⟨hold, -, -⟩
      · exact Or.inr (Or.inl (by simp [newSettings]))
      · exact Or.inr (Or.inl (by simp [newSettings]))
      · exact Or.inl (by simp [hold])
    · exact Or.inl (by simp [h])

theorem savedWpaLines_ne_nil (lines : List Bytes) : savedWpaLines ssid password lines ≠ [] := by
  intro hnil
  obtain ⟨hlast, -⟩ := getLast?_savedWpaLines ssid password lines
  rw [hnil] at hlast
  cases hlast

theorem getlines_savedWpaLines (hssid : newline ∉ ssid) (hpassword : newline ∉ password)
    (hlines : ∀ line ∈ lines, newline ∉ line) :
    getlines (joinLines (savedWpaLines ssid password lines)) =
      savedWpaLines ssid password lines := by
  apply getlines_joinLines_of_clean (savedWpaLines_ne_nil lines)
  intro line hline
  rcases mem_savedWpaLines hline with hold | hnew | hfixed
  · exact hlines line hold
  · rcases List.mem_cons.mp hnew with rfl | hnew
    · exact newline_not_mem_quotedLine (by decide) hssid
    · rw [List.mem_singleton.mp hnew]
      exact newline_not_mem_quotedLine (by decide) hpassword
  · have hall : ∀ l ∈ [[], bytes "network=\x7b", bytes "\x7d"], newline ∉ l := by decide
    exact hall line hfixed

end Clean

/-! ## 2. The lines that are kept -/

/-- The lines other than the two settings of a closed first block. -/
def otherWpaLines (lines : List Bytes) : List Bytes :=
  if hasClosedBlock lines then
    let rest := lines.dropWhile fun line => !opensBlock line
    (lines.takeWhile fun line => !opensBlock line) ++ rest.take 1 ++
      ((blockLines lines).filter fun line =>
        !hasWpaKey (bytes "ssid") line && !hasWpaKey (bytes "psk") line) ++
      (rest.drop 1).dropWhile fun line => !closesBlock line
  else lines

section Kept

variable {ssid password : Bytes}

theorem filter_sublist_savedBlock (body : List Bytes) :
    (body.filter fun line =>
        !hasWpaKey (bytes "ssid") line && !hasWpaKey (bytes "psk") line).Sublist
      (savedBlock ssid password body) := by
  rw [savedBlock, rewriteBlock]
  refine List.Sublist.trans ?_ (List.sublist_append_left _ _)
  induction body with
  | nil => exact List.Sublist.slnil
  | cons line body ih =>
    rw [List.map_cons]
    rcases rewriteWpaLine_cases (quotedLine (bytes "ssid") ssid) (quotedLine (bytes "psk") password)
      line with ⟨hssid, -, -⟩ | ⟨-, hpsk, -⟩ | ⟨hssid, hpsk, heq⟩
    · rw [List.filter_cons_of_neg (by simp [hssid])]
      exact ih.cons _
    · rw [List.filter_cons_of_neg (by simp [hpsk])]
      exact ih.cons _
    · rw [List.filter_cons_of_pos (by simp [hssid, hpsk]), heq]
      exact ih.cons_cons line

theorem otherWpaLines_sublist (lines : List Bytes) :
    (otherWpaLines lines).Sublist (savedWpaLines ssid password lines) := by
  cases layout lines with
  | noBlock hbefore =>
    rw [savedWpaLines_append ssid password (by rw [parseWpaData_noBlock hbefore]), otherWpaLines,
      hasClosedBlock_of_noBlock hbefore]
    exact List.sublist_append_left _ _
  | unclosed before opening body hbefore hopening hbody =>
    have hnone : body.any closesBlock = false := by simpa using hbody
    rw [savedWpaLines_append ssid password (by rw [parseWpaData_unclosed hbefore hopening hbody]),
      otherWpaLines, hasClosedBlock_of_opening hbefore hopening, hnone]
    exact List.sublist_append_left _ _
  | closed before opening body closing after hbefore hopening hbody hclosing =>
    have htake : (before ++ opening :: (body ++ closing :: after)).takeWhile
        (fun line => !opensBlock line) = before := by
      rw [List.takeWhile_append_of_pos fun line hline => by simp [hbefore line hline],
        List.takeWhile_cons, if_neg (by simp [hopening]), List.append_nil]
    have hrest : (body ++ closing :: after).dropWhile (fun line => !closesBlock line) =
        closing :: after := by
      rw [List.dropWhile_append_of_pos fun line hline => by simp [hbody line hline],
        List.dropWhile_cons, if_neg (by simp [hclosing])]
    have hany : (body ++ closing :: after).any closesBlock = true := by simp [hclosing]
    simp only [otherWpaLines]
    rw [savedWpaLines_closed ssid password hbefore hopening hbody hclosing,
      hasClosedBlock_of_opening hbefore hopening, hany, if_pos rfl, htake,
      dropWhile_opening hbefore hopening, List.drop_succ_cons, List.drop_zero, hrest,
      blockLines_of_opening hbefore hopening, takeWhile_closed hbody hclosing, List.append_assoc,
      List.append_assoc]
    refine List.Sublist.append_left (List.Sublist.cons_cons opening ?_) before
    exact (filter_sublist_savedBlock body).append_right (closing :: after)

end Kept

/-! ## 3. The round trip -/

/-- The passphrase a request leaves in force: a nonempty given one, or the stored one. -/
def passwordAfter (request : SaveRequest) (stored : Bytes) : Bytes :=
  let given := request.wifi_password.getD []
  if given.isEmpty then stored else given

theorem passwordAfter_of_saved {request : SaveRequest} {psk password : Bytes}
    (h : savedWifiPassword request psk = .ok password) : passwordAfter request psk = password := by
  simp only [passwordAfter]
  rcases savedWifiPassword_ok h with ⟨hgiven, hne⟩ | ⟨hblank, heq, -⟩
  · rw [hgiven, Option.getD_some, if_neg (by simpa using hne)]
  · rw [hblank, heq]
    rfl

/-- The web daemon reads back the network name and the passphrase it has saved, and has kept the
other lines. -/
theorem wifi_round_trip (store : ConfigStore) (request : SaveRequest) (faults : SaveFaults)
    (disk : Disk) (hssid : newline ∉ request.config.wifi_ssid)
    (hpassword : newline ∉ request.wifi_password.getD [])
    (saved : (saveWpaSupplicant store request faults disk).1 = .ok ()) :
    ∃ new, (saveWpaSupplicant store request faults disk).2.wpa_supplicant = some new ∧
      (parseWpaData (getlines new)).ssid = request.config.wifi_ssid ∧
      (parseWpaData (getlines new)).psk =
        passwordAfter request (parseWpaData disk.wpaLines).psk ∧
      (otherWpaLines disk.wpaLines).Sublist (getlines new) := by
  obtain ⟨password, hsaved, hdisk⟩ := saveWpaSupplicant_ok saved
  have hclean : newline ∉ password := by
    rcases savedWifiPassword_ok hsaved with ⟨hgiven, -⟩ | ⟨-, rfl, -⟩
    · rw [hgiven] at hpassword
      exact hpassword
    · exact newline_not_mem_storedPsk disk
  have hlines := getlines_savedWpaLines hssid hclean
    (newline_not_mem_wpaBase (newline_not_mem_wpaLines disk))
  rw [hdisk]
  refine ⟨_, rfl, ?_, ?_, ?_⟩
  · rw [hlines]
    exact (parseWpaData_savedWpaLines _).1
  · rw [hlines, passwordAfter_of_saved hsaved]
    exact (parseWpaData_savedWpaLines _).2
  · rw [hlines, wpaBase]
    split
    · next h =>
      rw [List.isEmpty_iff.mp h]
      exact List.nil_sublist _
    · exact otherWpaLines_sublist disk.wpaLines

/-- A file whose first block has a repeated key, and whose second block is not closed. -/
def sampleWpa : Disk where
  chime_config := none
  wpa_supplicant := some (bytes
    "update_config=1\n network=\x7b\r\nssid = \"a\"\npsk=\"old password\"\nssid=b\n\x7d\nnetwork=\x7b\n")

def quotedRequest : SaveRequest where
  config := { wifi_ssid := bytes " \"tea\\room\" " }
  wifi_password := none
  mqtt_password := none

theorem wifi_round_trip_sample :
    ∃ new, (saveWpaSupplicant {} quotedRequest {} sampleWpa).2.wpa_supplicant = some new ∧
      (parseWpaData (getlines new)).ssid = bytes " \"tea\\room\" " ∧
      (parseWpaData (getlines new)).psk = bytes "old password" := by
  obtain ⟨new, hnew, hssid, hpsk, -⟩ := wifi_round_trip {} quotedRequest {} sampleWpa (by decide)
    (by decide) (by decide +kernel)
  refine ⟨new, hnew, hssid, hpsk.trans ?_⟩
  decide +kernel

end VirtualChime.Webd
