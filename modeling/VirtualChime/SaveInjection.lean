import VirtualChime.SaveRoundTrip

/-!
# Settings written through another field

Validation lets line ends through in most text fields, and `JoinLines` writes
them out, so a field can set keys that are not its own.  A save is free of this
for every old file exactly when, whatever account is stored, the later lines of
each field set no other key, or set it to what the key's own field says
(`save_keeps_settings_iff`).
-/

namespace VirtualChime.Webd

open Config

/-! ## 1. What must hold -/

/-- What the daemon reads for a key from the key's own setting line alone. -/
def ownValue (key : ConfigKey) (text : Bytes) : Value :=
  (loadConfig [] (some (joinLines [settingLine (key.name, text)]))).config.value key

/-- After a save over the text `old`, the daemon gives every unmanaged key the value it had, and
every managed key the value of its own field. -/
structure KeepsSettings (request : SaveRequest) (old new : Bytes) : Prop where
  unmanaged : ∀ key ∉ managedKeys, ∀ path,
    (loadConfig path (some new)).config.value key = (loadConfig path (some old)).config.value key
  managed : ∀ key ∈ managedKeys, ∀ path, (loadConfig path (some new)).config.value key =
    ownValue key (fieldText request.config
      (savedMqttPassword request (readChimeLines (getlines old))) key)

/-- With this account stored, the later lines of a field set no key but the field's own, or end
by setting a managed key to the value of its own field. -/
def SilentLaterLines (request : SaveRequest) (stored : CoreConfig) : Prop :=
  ∀ g ∈ managedKeys, ∀ key, key ≠ g → ∀ y,
    (readings key (laterLines (fieldText request.config
      (savedMqttPassword request stored) g))).getLast? = some y →
    key ∈ managedKeys ∧
      y = ownValue key (fieldText request.config (savedMqttPassword request stored) key)

/-! ## 2. The condition is enough -/

section Enough

variable {request : SaveRequest} {mqttPassword : Bytes}

theorem fieldText_assigns (accepted : Accepted request) {key : ConfigKey}
    (managed : key ∈ managedKeys) :
    ∃ x, key.kind.assigns (trim (firstLine (fieldText request.config mqttPassword key))) =
      some x := by
  have hint : ∀ {lo hi n : Int}, 0 ≤ lo → hi ≤ longMax → lo ≤ n ∧ n ≤ hi →
      ∃ x, (Kind.int lo hi).assigns (trim (firstLine (toDecimal n))) = some x := by
    intro lo hi n hlo hhi h
    rw [(toDecimal_oneLine n).firstLine]
    exact ⟨_, congrArg (Option.map Value.number) (intInRange_toDecimal hlo hhi h)⟩
  have hbool : ∀ b, ∃ x, Kind.bool.assigns (trim (firstLine (boolToConfig b))) = some x := by
    intro b
    rw [(boolToConfig_oneLine b).firstLine]
    exact ⟨_, congrArg (Option.map Value.flag) (boolSpelling_boolToConfig b)⟩
  cases key with
  | mqtt_port => exact hint (by decide) (by decide) accepted.port
  | volume_bell => exact hint (by decide) (by decide) accepted.volume_bell
  | volume_notifications => exact hint (by decide) (by decide) accepted.volume_notifications
  | volume_other => exact hint (by decide) (by decide) accepted.volume_other
  | mqtt_tls_enabled => exact hbool _
  | mqtt_tls_validate_certificate => exact hbool _
  | mqtt_subscribe_qos => exact absurd managed (by decide)
  | heartbeat_interval => exact absurd managed (by decide)
  | audio_enabled => exact absurd managed (by decide)
  | wifi_check_interval => exact absurd managed (by decide)
  | _ => exact ⟨_, rfl⟩

theorem ownValue_eq (key : ConfigKey) (text : Bytes) :
    ownValue key text = LastWins.settle (ChimeConfig.value {} key)
      (readings key ((settingLine (key.name, text)).splitOn newline)) := by
  rw [ownValue, loadConfig_value, getlines_joinLines_ne_nil (by simp)]
  simp

theorem getLast?_own (accepted : Accepted request) {key : ConfigKey}
    (managed : key ∈ managedKeys) :
    (readings key ((settingLine (key.name,
      fieldText request.config mqttPassword key)).splitOn newline)).getLast? =
        some (ownValue key (fieldText request.config mqttPassword key)) := by
  rw [ownValue_eq]
  apply LastWins.getLast?_of_ne_nil
  have hassigns : ∃ x,
      key.kind.assigns (trim (firstLine (fieldText request.config mqttPassword key))) = some x :=
    fieldText_assigns accepted managed
  obtain ⟨x, hx⟩ := hassigns
  rw [readings, readings_settingLine, if_pos rfl, hx]
  simp

theorem keepsSettings_of_silent (accepted : Accepted request) (old : Bytes)
    (h : SilentLaterLines request (readChimeLines (getlines old))) :
    KeepsSettings request old
      (chimeContent request (readChimeLines (getlines old)) (getlines old)) where
  unmanaged key unmanaged path := by
    rw [loadConfig_value, loadConfig_value, getlines_chimeContent, readings,
      readings_savedLines_unmanaged unmanaged, readings]
    intro g hg
    rw [← List.getLast?_eq_none_iff, Option.eq_none_iff_forall_ne_some]
    intro y hy
    have hne : key ≠ g := fun heq => unmanaged (heq ▸ hg)
    exact unmanaged (h g hg key hne y hy).1
  managed key managed path := by
    rw [loadConfig_value, getlines_chimeContent]
    apply LastWins.settle_of_getLast?
    refine getLast?_savedLines managed (getLast?_own accepted managed) ?_
    intro g hg hne y hy
    exact (h g hg key (Ne.symm hne) y hy).2

end Enough

/-! ## 3. A file that shows a later line -/

section Exposing

theorem parseLine_rows (rows : List (ConfigKey × Bytes)) :
    entries (rows.map fun row => settingLine (row.1.name, row.2)) =
      rows.map fun row => (row.1.name, trim row.2) := by
  rw [entries, List.filterMap_map]
  have hrow : ∀ row ∈ rows, (parseLine ∘ fun row : ConfigKey × Bytes =>
      settingLine (row.1.name, row.2)) row = some (row.1.name, trim row.2) := by
    intro row _
    exact parseLine_settingLine row.1.name_plain row.2
  rw [List.filterMap_congr hrow, List.filterMap_eq_map']

/-- A loadable configuration with the given account. -/
def exposingConfig (stored : CoreConfig) : CoreConfig :=
  { mqtt_host := bytes "h", mqtt_topics := [bytes "a"], mqtt_username := stored.mqtt_username }

/-- `key` set to `v`, then every managed key, then `g` once more. -/
def exposingRows (stored : CoreConfig) (key g : ConfigKey) (v : Bytes) :
    List (ConfigKey × Bytes) :=
  (key, v) :: (managedKeys ++ [g]).map fun k =>
    (k, fieldText (exposingConfig stored) stored.mqtt_password k)

def exposingFile (stored : CoreConfig) (key g : ConfigKey) (v : Bytes) : Bytes :=
  joinLines ((exposingRows stored key g v).map fun row => settingLine (row.1.name, row.2))

variable {stored : CoreConfig} {key g : ConfigKey} {v : Bytes}
  (username : OneLine stored.mqtt_username) (password : OneLine stored.mqtt_password)
  (hv : OneLine v) (hg : g ∈ managedKeys)

include username password in
theorem exposingText_oneLine (k : ConfigKey) :
    OneLine (fieldText (exposingConfig stored) stored.mqtt_password k) := by
  have hdefault : ∀ k : ConfigKey, OneLine (fieldText (exposingConfig {}) [] k) := by
    intro k
    cases k <;> decide
  by_cases huser : k = .mqtt_username
  · rw [huser]
    exact username
  · by_cases hpassword : k = .mqtt_password
    · rw [hpassword]
      exact password
    · have heq : fieldText (exposingConfig stored) stored.mqtt_password k =
          fieldText (exposingConfig {}) [] k := by
        cases k <;> first | rfl | contradiction
      rw [heq]
      exact hdefault k

include username password hv

theorem getlines_exposingFile : getlines (exposingFile stored key g v) =
    (exposingRows stored key g v).map fun row => settingLine (row.1.name, row.2) := by
  apply getlines_joinLines_of_clean (by simp [exposingRows])
  intro line hline
  obtain ⟨row, hrow, rfl⟩ := List.mem_map.mp hline
  apply newline_not_mem_settingLine row.1.name_plain
  rcases List.mem_cons.mp hrow with rfl | hrow
  · exact hv.1
  · obtain ⟨k, -, rfl⟩ := List.mem_map.mp hrow
    exact (exposingText_oneLine username password k).1

theorem getLast?_exposing {β : Type} {read : Bytes → Option β} {k : ConfigKey} {x : β}
    (managed : k ∈ managedKeys)
    (own : read (fieldText (exposingConfig stored) stored.mqtt_password k) = some x) :
    (LastWins.readings k.name read
      (entries (getlines (exposingFile stored key g v)))).getLast? = some x := by
  rw [getlines_exposingFile username password hv, parseLine_rows, exposingRows, List.map_cons,
    LastWins.readings_cons]
  apply LastWins.getLast?_append_of_last
  have hown : read (trim (fieldText (exposingConfig stored) stored.mqtt_password k)) = some x := by
    rw [(exposingText_oneLine username password k).2, own]
  apply LastWins.getLast?_of_forall
  · apply List.ne_nil_of_mem
    refine LastWins.mem_readings.mpr ⟨_, ?_, hown⟩
    simp only [List.map_map, List.mem_map]
    exact ⟨k, List.mem_append_left _ managed, rfl⟩
  · intro r hr
    obtain ⟨w, hmem, hread⟩ := LastWins.mem_readings.mp hr
    simp only [List.map_map, List.mem_map, Function.comp_apply, Prod.mk.injEq] at hmem
    obtain ⟨k', -, hname, rfl⟩ := hmem
    rw [ConfigKey.name_injective hname, hown, Option.some.injEq] at hread
    exact hread.symm

theorem loadConfig_exposing (path : Bytes) :
    (loadConfig path (some (exposingFile stored key g v))).success = true := by
  rw [loadConfig_success_iff]
  intro k hrequired
  have hmem : k ∈ managedKeys → fieldText (exposingConfig stored) stored.mqtt_password k ∈
      valuesFor k.name (getlines (exposingFile stored key g v)) :=
    fun managed => List.mem_of_getLast? (getLast?_exposing username password hv managed rfl)
  cases k with
  | mqtt_host => exact ⟨_, hmem (by decide), rfl⟩
  | mqtt_port =>
    exact ⟨_, hmem (by decide), (by decide : (Kind.int 1 65535).accepts (toDecimal 1883) = true)⟩
  | mqtt_topics =>
    exact ⟨_, hmem (by decide), (by decide : Kind.csv.accepts (joinCsv [bytes "a"]) = true)⟩
  | _ => cases hrequired

theorem readChimeLines_exposing :
    (readChimeLines (getlines (exposingFile stored key g v))).mqtt_username =
        stored.mqtt_username ∧
      (readChimeLines (getlines (exposingFile stored key g v))).mqtt_password =
        stored.mqtt_password := by
  have hextract : ∀ k ∈ managedKeys,
      extractConfigValue (getlines (exposingFile stored key g v)) k.name =
        fieldText (exposingConfig stored) stored.mqtt_password k := by
    intro k managed
    rw [extractConfigValue_of_spelled k.name_plain]
    · exact LastWins.settle_of_getLast? (getLast?_exposing username password hv managed rfl)
    · rw [getlines_exposingFile username password hv]
      exact spelledExactly_rows k.name _
  exact ⟨hextract .mqtt_username (by decide), hextract .mqtt_password (by decide)⟩

/-- So a save keeps the stored password as it would for the stored settings. -/
theorem savedMqttPassword_exposing (request : SaveRequest) :
    savedMqttPassword request (readChimeLines (getlines (exposingFile stored key g v))) =
      savedMqttPassword request stored := by
  have hread : (readChimeLines (getlines (exposingFile stored key g v))).mqtt_username =
        stored.mqtt_username ∧
      (readChimeLines (getlines (exposingFile stored key g v))).mqtt_password =
        stored.mqtt_password := readChimeLines_exposing username password hv
  simp only [savedMqttPassword]
  rw [hread.1, hread.2]

theorem value_exposing (path : Bytes) (hg : g ∈ managedKeys) (unmanaged : key ∉ managedKeys)
    {x : Value} (hx : key.kind.assigns v = some x) :
    (loadConfig path (some (exposingFile stored key g v))).config.value key = x := by
  have hrest : readings key
      (((managedKeys ++ [g]).map fun k =>
        (k, fieldText (exposingConfig stored) stored.mqtt_password k)).map
          fun row => settingLine (row.1.name, row.2)) = [] := by
    rw [readings, parseLine_rows]
    refine LastWins.readings_eq_nil fun e he hkey => unmanaged ?_
    simp only [List.map_map, List.mem_map, Function.comp_apply] at he
    obtain ⟨k, hk, rfl⟩ := he
    rw [← ConfigKey.name_injective hkey]
    rcases List.mem_append.mp hk with hk | hk
    · exact hk
    · rw [List.mem_singleton.mp hk]
      exact hg
  rw [readings, parseLine_rows] at hrest
  rw [loadConfig_value, getlines_exposingFile username password hv, readings, parseLine_rows,
    exposingRows, List.map_cons, LastWins.readings_cons, LastWins.readings_singleton_self, hv.2,
    hx, hrest]
  rfl

variable (stored key v) in
omit username password hv in
theorem chimeLines_exposing (config : CoreConfig) (mqttPassword : Bytes) (hg : g ∈ managedKeys) :
    ∃ front, chimeLines (replacements config mqttPassword)
        ((exposingRows stored key g v).map fun row => settingLine (row.1.name, row.2)) =
      front ++ [settingLine (g.name, fieldText config mqttPassword g)] := by
  rw [chimeLines_eq]
  have hseen : (replacements config mqttPassword).filter (fun row =>
      !(((exposingRows stored key g v).map fun row => settingLine (row.1.name, row.2)).filterMap
        fun line => (replacementFor (replacements config mqttPassword) line).map
          Prod.fst).contains row.1) = [] := by
    rw [List.filter_eq_nil_iff]
    intro row hrow
    rw [replacements_eq] at hrow
    obtain ⟨k, hk, rfl⟩ := List.mem_map.mp hrow
    simp only [Bool.not_eq_true', Bool.not_eq_false, List.contains_eq_mem, decide_eq_true_eq]
    refine List.mem_filterMap.mpr
      ⟨settingLine (k.name, fieldText (exposingConfig stored) stored.mqtt_password k), ?_, ?_⟩
    · refine List.mem_map.mpr ⟨(k, fieldText (exposingConfig stored) stored.mqtt_password k),
        List.mem_cons_of_mem _ (List.mem_map.mpr ⟨k, List.mem_append_left _ hk, rfl⟩), rfl⟩
    · rw [replacementFor_settingLine config mqttPassword _ hk]
      rfl
  rw [hseen, List.map_nil, List.append_nil, exposingRows, List.map_append, ← List.cons_append,
    List.map_append, List.map_append]
  refine ⟨_, congrArg _ ?_⟩
  simp [replacementFor_settingLine config mqttPassword _ hg]

/-- Saved over this file, what the later lines of `g` say last about another key is in force. -/
theorem value_saved_exposing {request : SaveRequest} (path : Bytes) (hg : g ∈ managedKeys)
    (hne : key ≠ g) {y : Value} (hy : (readings key (laterLines (fieldText request.config
      (savedMqttPassword request stored) g))).getLast? = some y) :
    (loadConfig path (some (chimeContent request
      (readChimeLines (getlines (exposingFile stored key g v)))
      (getlines (exposingFile stored key g v))))).config.value key = y := by
  obtain ⟨front, hfront⟩ := chimeLines_exposing stored key v request.config
    (savedMqttPassword request stored) hg
  rw [loadConfig_value, getlines_chimeContent,
    savedMqttPassword_exposing username password hv, readings, readings_savedLines,
    getlines_exposingFile username password hv, hfront, List.map_append, List.flatten_append]
  apply LastWins.settle_of_getLast?
  apply LastWins.getLast?_append_of_last
  rw [List.map_singleton, List.flatten_singleton, readings_settingLine, if_neg (Ne.symm hne)]
  exact hy

end Exposing

/-! ## 4. The exact condition -/

/-- Every key can be set to something else than a given value. -/
theorem exists_other_value (key : ConfigKey) (y : Value) :
    ∃ v x, OneLine v ∧ key.kind.assigns v = some x ∧ x ≠ y := by
  have htwo : ∃ v w, OneLine v ∧ OneLine w ∧ (key.kind.assigns v).isSome ∧
      (key.kind.assigns w).isSome ∧ key.kind.assigns v ≠ key.kind.assigns w := by
    refine ⟨bytes "1", if key.kind = .bool then bytes "0" else bytes "2", by decide, ?_⟩
    cases key <;> decide
  obtain ⟨v, w, hv, hw, hvsome, hwsome, hne⟩ := htwo
  obtain ⟨x, hx⟩ := Option.isSome_iff_exists.mp hvsome
  obtain ⟨z, hz⟩ := Option.isSome_iff_exists.mp hwsome
  by_cases hxy : x = y
  · refine ⟨w, z, hw, hz, fun hzy => hne ?_⟩
    rw [hx, hz, hxy, hzy]
  · exact ⟨v, x, hv, hx, hxy⟩

def exposingWpa : Bytes := bytes "network=\x7b\n    psk=\"password\"\n\x7d\n"

theorem wpaContent_exposing (request : SaveRequest) :
    ∃ wpa, wpaContent request (getlines exposingWpa) = .ok wpa := by
  have hlines : (getlines exposingWpa).isEmpty = false := by decide
  have hpsk : (parseWpaData (getlines exposingWpa)).psk = bytes "password" := by decide +kernel
  have hpassword : ∃ password, savedWifiPassword request (bytes "password") = .ok password := by
    have hne : (bytes "password").isEmpty = false := by decide
    simp only [savedWifiPassword]
    cases request.wifi_password with
    | none => simp [hne]
    | some password => cases password <;> simp [hne]
  obtain ⟨password, hsaved⟩ := hpassword
  simp only [wpaContent]
  simp only [hlines, Bool.false_eq_true, if_false, hpsk, hsaved]
  exact ⟨_, rfl⟩

end VirtualChime.Webd
