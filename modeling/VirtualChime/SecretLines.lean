import VirtualChime.Library.TwoRuns
import VirtualChime.SavedConfig
import VirtualChime.WpaNetwork

/-!
# Lines that differ in a secret

Two states of a file agree but for a secret if they have the same lines, except that
the lines with its key may have different values, blank in both or in neither
(`SameLine`).  The readers of `chime.conf` and of `wpa_supplicant.conf` return the
same from both, but for the secret itself, of which they tell whether it is blank.
-/

namespace VirtualChime.Webd

open Config

/-! ## 1. Two lines -/

/-- Both blank, or neither. -/
def BothBlank (v v' : Bytes) : Prop := v = [] ↔ v' = []

theorem bothBlank_refl (v : Bytes) : BothBlank v v := Iff.rfl

theorem BothBlank.isEmpty {v v' : Bytes} (h : BothBlank v v') : v.isEmpty = v'.isEmpty := by
  rw [Bool.eq_iff_iff, List.isEmpty_iff, List.isEmpty_iff]
  exact h

/-- The lines agree, but for the value if they have this key; `unquote` is how the value is read. -/
inductive SameLine (key : Bytes) (unquote : Bytes → Bytes) : Bytes → Bytes → Prop where
  | same (line : Bytes) : SameLine key unquote line line
  | secret {name v v' : Bytes} (key_eq : trim name = key) (first : equals ∉ name)
      (blank : BothBlank (unquote v) (unquote v')) :
      SameLine key unquote (name ++ equals :: v) (name ++ equals :: v')

section Secret

variable {key name : Bytes} (key_eq : trim name = key) (hkey : ConfigKey.PlainName key)

include key_eq

/-- Without the blanks in front, the name is the key and blanks. -/
theorem name_blanks : ∃ blanks, name.dropWhile isBlank = key ++ blanks := by
  obtain ⟨blanks, heq⟩ := List.rdropWhile_prefix isBlank (name.dropWhile isBlank)
  refine ⟨blanks, ?_⟩
  rw [← heq, ← key_eq]
  rfl

theorem trim_name_dropWhile : trim (name.dropWhile isBlank) = key := by
  rw [← key_eq, trim, trim, Scanner.strip, Scanner.strip, List.dropWhile_idempotent]

include hkey

theorem trim_secret (v : Bytes) :
    trim (name ++ equals :: v) = name.dropWhile isBlank ++ equals :: v.rdropWhile isBlank := by
  obtain ⟨blanks, hname⟩ := name_blanks key_eq
  have hne : (name.dropWhile isBlank).isEmpty = false := by
    rw [hname]
    simp [hkey.1]
  rw [trim, Scanner.strip, List.dropWhile_append, if_neg (by simp [hne])]
  exact Scanner.rdropWhile_append_cons (by decide) _ _

theorem secret_not_skipped (rest : Bytes) :
    ¬ ((name.dropWhile isBlank ++ equals :: rest).isEmpty = true ∨
      (name.dropWhile isBlank ++ equals :: rest).head? = some hash) := by
  obtain ⟨blanks, hname⟩ := name_blanks key_eq
  obtain ⟨c, s, hcs⟩ := List.exists_cons_of_ne_nil hkey.1
  have hhash : key.head? ≠ some hash := hkey.2.2.2.2
  rw [hname, hcs]
  rw [hcs] at hhash
  simpa using hhash

variable (first : equals ∉ name)

include first

theorem cut_secret (v : Bytes) :
    Scanner.cut equals (trim (name ++ equals :: v)) =
      some (name.dropWhile isBlank, v.rdropWhile isBlank) := by
  rw [trim_secret key_eq hkey]
  exact Scanner.cut_append (fun h => first ((List.dropWhile_sublist _).mem h)) _

theorem parseLine_secret (v : Bytes) : parseLine (name ++ equals :: v) = some (key, trim v) := by
  have hcut := cut_secret key_eq hkey first v
  rw [trim_secret key_eq hkey] at hcut
  simp only [parseLine]
  simp only [trim_secret key_eq hkey, if_neg (secret_not_skipped key_eq hkey _), hcut,
    Option.map_some, trim_name_dropWhile key_eq, trim_rdropWhile]

theorem wpaSetting_secret (v : Bytes) :
    wpaSetting (name ++ equals :: v) = some (key, trim v) := by
  rw [wpaSetting, cut_secret key_eq hkey first, Option.map_some, trim_name_dropWhile key_eq,
    trim_rdropWhile]

/-- `ExtractConfigValue` takes the line only if no blank stands between the key and the sign. -/
theorem exactValue_secret {wanted : Bytes} (hwanted : ConfigKey.PlainName wanted) (v : Bytes) :
    exactValue wanted (name ++ equals :: v) =
      if name.dropWhile isBlank = wanted then some (trim v) else none := by
  by_cases heq : name.dropWhile isBlank = wanted
  · rw [if_pos heq]
    have hassoc : wanted ++ equals :: v.rdropWhile isBlank =
        (wanted ++ [equals]) ++ v.rdropWhile isBlank := by simp
    have hskip := secret_not_skipped key_eq hkey (v.rdropWhile isBlank)
    rw [heq] at hskip
    simp only [exactValue]
    simp only [trim_secret key_eq hkey, heq, if_neg hskip]
    rw [hassoc, if_pos (List.isPrefixOf_iff_prefix.mpr (List.prefix_append _ _)), List.drop_left,
      trim_rdropWhile]
  · rw [if_neg heq]
    cases htaken : exactValue wanted (name ++ equals :: v) with
    | none => rfl
    | some value =>
      exfalso
      simp only [exactValue] at htaken
      rw [if_neg (by rw [trim_secret key_eq hkey]; exact secret_not_skipped key_eq hkey _)] at htaken
      split at htaken
      · next hpre =>
        obtain ⟨rest, hrest⟩ := List.isPrefixOf_iff_prefix.mp hpre
        have hcut := cut_secret key_eq hkey first v
        rw [← hrest, List.append_assoc, List.singleton_append,
          Scanner.cut_append hwanted.2.1] at hcut
        exact heq (congrArg Prod.fst (Option.some.inj hcut)).symm
      · cases htaken

end Secret

/-! ## 2. Reading `chime.conf` -/

def passwordKey : Bytes := ConfigKey.mqtt_password.name

theorem passwordKey_plain : ConfigKey.PlainName passwordKey := ConfigKey.mqtt_password.name_plain

/-- The lines of two states of `chime.conf`. -/
abbrev SameChime : List Bytes → List Bytes → Prop := List.Forall₂ (SameLine passwordKey trim)

theorem SameLine.exactValue_other {line line' wanted : Bytes}
    (h : SameLine passwordKey trim line line') (hwanted : ConfigKey.PlainName wanted)
    (hne : wanted ≠ passwordKey) : exactValue wanted line = exactValue wanted line' := by
  cases h with
  | same => rfl
  | @secret name v v' key_eq first _ =>
    have hother : name.dropWhile isBlank ≠ wanted := by
      intro heq
      apply hne
      rw [← trim_name_dropWhile key_eq, heq, trim_name hwanted]
    rw [exactValue_secret key_eq passwordKey_plain first hwanted, if_neg hother,
      exactValue_secret key_eq passwordKey_plain first hwanted, if_neg hother]

theorem SameLine.exactValue_key {line line' : Bytes} (h : SameLine passwordKey trim line line') :
    Option.Rel BothBlank (exactValue passwordKey line) (exactValue passwordKey line') := by
  cases h with
  | same =>
    cases exactValue passwordKey line with
    | none => exact Option.Rel.none
    | some v => exact Option.Rel.some (bothBlank_refl v)
  | @secret name v v' key_eq first blank =>
    rw [exactValue_secret key_eq passwordKey_plain first passwordKey_plain,
      exactValue_secret key_eq passwordKey_plain first passwordKey_plain]
    split
    · exact Option.Rel.some blank
    · exact Option.Rel.none

theorem extractConfigValue_other {lines lines' : List Bytes} (h : SameChime lines lines')
    {wanted : Bytes} (hwanted : ConfigKey.PlainName wanted) (hne : wanted ≠ passwordKey) :
    extractConfigValue lines wanted = extractConfigValue lines' wanted := by
  refine List.rel_foldl (P := Eq) ?_ rfl h
  intro output output' hsame line line' hline
  dsimp only
  rw [hsame, hline.exactValue_other hwanted hne]

theorem extractConfigValue_key {lines lines' : List Bytes} (h : SameChime lines lines') :
    BothBlank (extractConfigValue lines passwordKey) (extractConfigValue lines' passwordKey) := by
  refine List.rel_foldl (P := BothBlank) ?_ (bothBlank_refl []) h
  intro output output' hsame line line' hline
  have hvalue := hline.exactValue_key
  dsimp only
  generalize exactValue passwordKey line = value, exactValue passwordKey line' = value' at hvalue
  cases hvalue with
  | none => exact hsame
  | some hblank => exact hblank

/-- The configurations agree, but for the MQTT password. -/
structure SameConfig (config config' : CoreConfig) : Prop where
  others : { config with mqtt_password := [] } = { config' with mqtt_password := [] }
  password : BothBlank config.mqtt_password config'.mqtt_password

theorem readChimeLines_same {lines lines' : List Bytes} (h : SameChime lines lines') :
    SameConfig (readChimeLines lines) (readChimeLines lines') := by
  have hextract : ∀ key : ConfigKey, key ≠ .mqtt_password →
      extractConfigValue lines key.name = extractConfigValue lines' key.name := by
    intro key hne
    exact extractConfigValue_other h key.name_plain fun heq =>
      hne (ConfigKey.name_injective heq)
  constructor
  · have mqtt_host : extractConfigValue lines (bytes "mqtt_host") = _ :=
      hextract .mqtt_host (by decide)
    have mqtt_port : extractConfigValue lines (bytes "mqtt_port") = _ :=
      hextract .mqtt_port (by decide)
    have mqtt_client_id : extractConfigValue lines (bytes "mqtt_client_id") = _ :=
      hextract .mqtt_client_id (by decide)
    have mqtt_username : extractConfigValue lines (bytes "mqtt_username") = _ :=
      hextract .mqtt_username (by decide)
    have mqtt_tls_enabled : extractConfigValue lines (bytes "mqtt_tls_enabled") = _ :=
      hextract .mqtt_tls_enabled (by decide)
    have mqtt_tls_validate_certificate : extractConfigValue lines (bytes "mqtt_tls_validate_certificate") = _ :=
      hextract .mqtt_tls_validate_certificate (by decide)
    have mqtt_tls_ca_file : extractConfigValue lines (bytes "mqtt_tls_ca_file") = _ :=
      hextract .mqtt_tls_ca_file (by decide)
    have mqtt_tls_cert_file : extractConfigValue lines (bytes "mqtt_tls_cert_file") = _ :=
      hextract .mqtt_tls_cert_file (by decide)
    have mqtt_tls_key_file : extractConfigValue lines (bytes "mqtt_tls_key_file") = _ :=
      hextract .mqtt_tls_key_file (by decide)
    have mqtt_topics : extractConfigValue lines (bytes "mqtt_topics") = _ :=
      hextract .mqtt_topics (by decide)
    have ring_topic : extractConfigValue lines (bytes "ring_topic") = _ :=
      hextract .ring_topic (by decide)
    have notification_success_sound_path : extractConfigValue lines (bytes "notification_success_sound_path") = _ :=
      hextract .notification_success_sound_path (by decide)
    have notification_failure_sound_path : extractConfigValue lines (bytes "notification_failure_sound_path") = _ :=
      hextract .notification_failure_sound_path (by decide)
    have volume_bell : extractConfigValue lines (bytes "volume_bell") = _ :=
      hextract .volume_bell (by decide)
    have volume_notifications : extractConfigValue lines (bytes "volume_notifications") = _ :=
      hextract .volume_notifications (by decide)
    have volume_other : extractConfigValue lines (bytes "volume_other") = _ :=
      hextract .volume_other (by decide)
    simp only [readChimeLines, mqtt_host, mqtt_port, mqtt_client_id, mqtt_username,
      mqtt_tls_enabled, mqtt_tls_validate_certificate, mqtt_tls_ca_file, mqtt_tls_cert_file,
      mqtt_tls_key_file, mqtt_topics, ring_topic, notification_success_sound_path,
      notification_failure_sound_path, volume_bell, volume_notifications, volume_other]
    rfl
  · exact extractConfigValue_key h

/-! ## 3. Reading `wpa_supplicant.conf` -/

def pskKey : Bytes := bytes "psk"

theorem pskKey_plain : ConfigKey.PlainName pskKey := by decide

/-- The lines of two states of `wpa_supplicant.conf`. -/
abbrev SameWpa : List Bytes → List Bytes → Prop := List.Forall₂ (SameLine pskKey stripQuotes)

/-- The data agree, but for the key. -/
structure SameWpaData (data data' : WpaData) : Prop where
  ssid : data.ssid = data'.ssid
  has_network_block : data.has_network_block = data'.has_network_block
  block_start : data.block_start = data'.block_start
  block_end : data.block_end = data'.block_end
  psk : BothBlank data.psk data'.psk

theorem stripQuotes_trim (value : Bytes) : stripQuotes (trim value) = stripQuotes value := by
  simp only [stripQuotes, trim_trim]

theorem not_opensBlock_of_wpaSetting {line : Bytes} {kv : Bytes × Bytes}
    (h : wpaSetting line = some kv) (hne : kv.1 ≠ bytes "network") : opensBlock line = false := by
  simp only [opensBlock, decide_eq_false_iff_not]
  intro hopen
  have hcut : Scanner.cut equals (bytes "network=\x7b") = some (bytes "network", bytes "\x7b") := by
    decide
  rw [wpaSetting, hopen, hcut, Option.map_some, Option.some.injEq] at h
  rw [← h] at hne
  exact hne (by decide)

section PskLine

variable {name : Bytes} (key_eq : trim name = pskKey) (first : equals ∉ name) (v : Bytes)

include key_eq first

/-- A line with the key opens and closes no block, and sets the key inside one. -/
theorem parseWpaLoop_secret (rest : List Bytes) (i : Nat) (in_block : Bool) (data : WpaData) :
    parseWpaLoop ((name ++ equals :: v) :: rest) i in_block data =
      parseWpaLoop rest (i + 1) in_block
        (if in_block then { data with psk := stripQuotes v } else data) := by
  have hsetting := wpaSetting_secret key_eq pskKey_plain first v
  have hnetwork : pskKey ≠ bytes "network" := by decide
  have hopen := not_opensBlock_of_wpaSetting hsetting hnetwork
  have hclose := not_closesBlock_of_wpaSetting hsetting
  rw [opensBlock] at hopen
  rw [closesBlock, decide_eq_false_iff_not] at hclose
  have hssid : ¬ pskKey = bytes "ssid" := by decide
  have hpsk : pskKey = bytes "psk" := rfl
  rw [parseWpaLoop, hopen, hsetting]
  cases in_block with
  | false => rfl
  | true =>
    simp only [Bool.not_true, Bool.false_and, Bool.false_eq_true, if_false, if_neg hclose,
      if_neg hssid, if_pos hpsk, stripQuotes_trim, if_true]

end PskLine

theorem parseWpaLoop_same {lines lines' : List Bytes} (h : SameWpa lines lines') (i : Nat)
    (in_block : Bool) {data data' : WpaData} (hdata : SameWpaData data data') :
    (parseWpaLoop lines i in_block data).2 = (parseWpaLoop lines' i in_block data').2 ∧
      SameWpaData (parseWpaLoop lines i in_block data).1
        (parseWpaLoop lines' i in_block data').1 := by
  induction h generalizing i in_block data data' with
  | nil => exact ⟨rfl, hdata⟩
  | @cons line line' lines lines' hline _ ih =>
    cases hline with
    | secret key_eq first blank =>
      rw [parseWpaLoop_secret key_eq first, parseWpaLoop_secret key_eq first]
      apply ih
      cases in_block with
      | false => exact hdata
      | true => exact { hdata with psk := blank }
    | same =>
      rw [parseWpaLoop, parseWpaLoop]
      split
      · exact ih _ _ { hdata with has_network_block := rfl, block_start := rfl }
      · split
        · exact ih _ _ hdata
        · split
          · exact ⟨rfl, { hdata with block_end := rfl }⟩
          · split
            · exact ih _ _ hdata
            · split
              · exact ih _ _ { hdata with ssid := rfl }
              · split
                · exact ih _ _ { hdata with psk := bothBlank_refl _ }
                · exact ih _ _ hdata

theorem parseWpaData_same {lines lines' : List Bytes} (h : SameWpa lines lines') :
    SameWpaData (parseWpaData lines) (parseWpaData lines') := by
  have hstart : SameWpaData { lines := lines } { lines := lines' } :=
    ⟨rfl, rfl, rfl, rfl, bothBlank_refl []⟩
  obtain ⟨hclosed, hdata⟩ := parseWpaLoop_same h 0 false hstart
  simp only [parseWpaData]
  rw [hclosed, hdata.has_network_block]
  split
  · exact { hdata with has_network_block := rfl }
  · exact hdata

/-- The snapshots agree, but for the MQTT password. -/
structure SameSnapshot (snapshot snapshot' : CoreConfigSnapshot) : Prop where
  config : SameConfig snapshot.config snapshot'.config
  wifi_password_set : snapshot.wifi_password_set = snapshot'.wifi_password_set
  mqtt_password_set : snapshot.mqtt_password_set = snapshot'.mqtt_password_set

theorem snapshotOf_same {chime chime' wpa wpa' : List Bytes} (hchime : SameChime chime chime')
    (hwpa : SameWpa wpa wpa') : SameSnapshot (snapshotOf chime wpa) (snapshotOf chime' wpa') := by
  have hconfig := readChimeLines_same hchime
  have hdata := parseWpaData_same hwpa
  refine ⟨⟨?_, hconfig.password⟩, ?_, ?_⟩
  · have hothers := congrArg
      (fun config : CoreConfig => { config with wifi_ssid := (parseWpaData wpa').ssid })
      hconfig.others
    simp only [snapshotOf, hdata.ssid]
    exact hothers
  · simp only [snapshotOf, hdata.psk.isEmpty]
  · simp only [snapshotOf, hconfig.password.isEmpty]

end VirtualChime.Webd
