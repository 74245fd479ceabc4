import VirtualChime.JsonParser
import VirtualChime.CoreConfigApi

/-!
# What the responses decode to

Every piece of a response is spelled by the grammar of JSON for the parser's reader, so
that the bodies, concatenated by hand in the handlers, are JSON texts and decode to
the data they were built from (`responses_decode`).  Two things are not exact: a
control byte without a short escape arrives as a question mark, and a job number
above `2^53` as the nearest double.
-/

namespace VirtualChime.Webd

open JsonText

/-! ## 1. Strings -/

/-- What is received of a byte: the control bytes that have no short escape are lost. -/
def receivedByte (c : Byte) : Byte :=
  if c.toNat < 32 ∧ c ∉ ([8, 9, 10, 12, 13] : Bytes) then 63 else c

def received (s : Bytes) : Bytes := s.map receivedByte

/-- `JsonEscape` writes each byte as one piece of a string. -/
theorem exists_piece (c : Byte) : ∃ p : Piece, p.text = escapeByte c ∧
    pieceByte p = some (receivedByte c) ∧ longEscapes [p] = [] := by
  unfold escapeByte
  split
  · exact ⟨.short 34 34 rfl, rfl, rfl, rfl⟩
  · exact ⟨.short 92 92 rfl, rfl, rfl, rfl⟩
  · exact ⟨.short 98 8 rfl, rfl, rfl, rfl⟩
  · exact ⟨.short 102 12 rfl, rfl, rfl, rfl⟩
  · exact ⟨.short 110 10 rfl, rfl, rfl, rfl⟩
  · exact ⟨.short 114 13 rfl, rfl, rfl, rfl⟩
  · exact ⟨.short 116 9 rfl, rfl, rfl, rfl⟩
  · next hquote hbackslash hb hf hn hr ht =>
    split
    · next hcontrol =>
      refine ⟨.byte 63 (by decide), rfl, ?_, rfl⟩
      have hlost : c ∉ ([8, 9, 10, 12, 13] : Bytes) := by
        simp only [List.mem_cons, List.not_mem_nil, or_false, not_or]
        exact ⟨hb, ht, hn, hf, hr⟩
      rw [receivedByte, if_pos ⟨hcontrol, hlost⟩]
      rfl
    · next hcontrol =>
      refine ⟨.byte c ⟨not_lt.mp hcontrol, hquote, hbackslash⟩, rfl, ?_, rfl⟩
      rw [receivedByte, if_neg fun h => hcontrol h.1]
      rfl

/-- The pieces decode to a text, without a `\u` escape. -/
structure Writes (ps : List Piece) (s : Bytes) : Prop where
  decodes : Decodes ps s
  short : longEscapes ps = []

theorem Writes.cons {p : Piece} {ps : List Piece} {c : Byte} {s : Bytes} (h : Writes ps s)
    (hp : pieceByte p = some c) (hshort : longEscapes [p] = []) : Writes (p :: ps) (c :: s) where
  decodes := List.Forall₂.cons hp h.decodes
  short := by
    have happend : longEscapes ([p] ++ ps) = longEscapes [p] ++ longEscapes ps := by
      rw [longEscapes, List.filterMap_append]
      rfl
    rw [← List.singleton_append, happend, hshort, h.short]
    rfl

theorem exists_pieces (s : Bytes) : ∃ ps : List Piece, ps.flatMap Piece.text = jsonEscape s ∧
    Writes ps (received s) := by
  induction s with
  | nil => exact ⟨[], rfl, List.Forall₂.nil, rfl⟩
  | cons c s ih =>
    obtain ⟨p, htext, hp, hshort⟩ := exists_piece c
    obtain ⟨ps, htexts, hps⟩ := ih
    refine ⟨p :: ps, ?_, hps.cons hp hshort⟩
    rw [List.flatMap_cons, htext, htexts]
    rfl

/-- The parser's reader, where it keeps to JSON: `\u` escapes have hexadecimal digits. -/
def strictReading : Reading Bytes JsonValue := parserReading.restrict HexDigits

theorem Writes.takes {ps : List Piece} {s : Bytes} (h : Writes ps s) :
    strictReading.string ps s := by
  refine ⟨h.decodes, ?_⟩
  rw [h.short]
  intro ds hds
  cases hds

/-- The text spells this value, by the grammar of JSON. -/
def Spelt (text : Bytes) (value : JsonValue) : Prop := Spells strictReading (.value value) text

/-- A text in quotation marks spells what its pieces decode to. -/
theorem spelt_pieces {text value : Bytes}
    (h : ∃ ps : List Piece, ps.flatMap Piece.text = text ∧ Writes ps value) :
    Spelt (34 :: (text ++ [34])) (.string value) := by
  obtain ⟨ps, htext, hps⟩ := h
  have hspells : Spells strictReading (.value (.string value)) (quoted ps) :=
    Spells.string hps.takes
  rw [quoted, htext] at hspells
  exact hspells

theorem spelt_jsonString (s : Bytes) : Spelt (jsonString s) (.string (received s)) :=
  spelt_pieces (exists_pieces s)

theorem spelt_jsonBool (b : Bool) : Spelt (jsonBool b) (.bool b) := by
  cases b with
  | false => exact Spells.false
  | true => exact Spells.true

/-! ## 2. Numbers -/

theorem isWhole_natDecimal (n : Nat) : IsWhole (natDecimal n) := by
  by_cases hzero : n = 0
  · rw [hzero]
    exact Or.inl rfl
  · refine Or.inr ⟨⟨natDecimal_ne_nil n, fun c hc => natDecimal_digits hc⟩, ?_⟩
    rw [natDecimal, if_neg hzero, List.head?_map, List.head?_reverse]
    intro h
    obtain ⟨d, hd, hcode⟩ := Option.map_eq_some_iff.mp h
    have hne : Nat.digits 10 n ≠ [] := Nat.digits_ne_nil_iff_ne_zero.mpr hzero
    have hlast := Nat.getLast_digit_ne_zero 10 hzero
    rw [List.getLast?_eq_getLast_of_ne_nil hne] at hd
    rw [Option.some.inj hd] at hlast
    have hlt : d < 10 := Nat.digits_lt_base (by decide) (List.mem_of_getLast? (by
      rw [List.getLast?_eq_getLast_of_ne_nil hne, hd]))
    have hval := congrArg UInt8.toNat hcode
    rw [UInt8.toNat_ofNat', Nat.mod_eq_of_lt (by omega)] at hval
    exact hlast (Nat.add_left_cancel hval)

/-- The token `std::to_string` makes of an integer. -/
def integerToken (negative : Bool) (n : Nat) : Decimal where
  negative := negative
  whole := natDecimal n
  fraction := none
  exponent := none
  whole_ok := isWhole_natDecimal n
  fraction_ok := by
    intro ds hds
    cases hds

theorem magnitude_integerToken (negative : Bool) (n : Nat) :
    (integerToken negative n).magnitude = n := by
  have hvalue : JsonText.digitsValue (natDecimal n) = n := digitsValue_natDecimal n
  simp [Decimal.magnitude, integerToken, hvalue]

/-- The double a printed number decodes to. -/
def nearestDouble (n : Nat) : ℚ := (Binary64.round n).getD 0

theorem nearestDouble_of_le {n : Nat} (h : n ≤ 2 ^ 53) : nearestDouble n = n := by
  have hround := Binary64.round_intCast (n := (n : Int)) (by simpa using h)
  rw [Int.cast_natCast] at hround
  rw [nearestDouble, hround]
  rfl

theorem spelt_natDecimal {n : Nat} (h : n < 2 ^ 64) :
    Spelt (natDecimal n) (.number (nearestDouble n)) := by
  have hvalue : (integerToken false n).value = n := magnitude_integerToken false n
  have hfinite : (Binary64.round (n : ℚ)).isSome = true := by
    rw [Binary64.round_isSome_iff, abs_of_nonneg (by positivity)]
    have hlt : (n : ℚ) < 2 ^ 64 := by exact_mod_cast h
    apply hlt.trans
    have hunit := Binary64.two_pow_970_pos
    have hle : (2 : ℚ) ^ 64 ≤ 2 ^ 970 := pow_le_pow_right₀ (by norm_num) (by norm_num)
    rw [Binary64.two_pow_1024]
    generalize (2 : ℚ) ^ 970 = u at hunit hle ⊢
    linarith only [hle, hunit]
  obtain ⟨q, hround⟩ := Option.isSome_iff_exists.mp hfinite
  have hspells : Spells strictReading (.value (.number (nearestDouble n)))
      (integerToken false n).text := by
    refine Spells.number _ ⟨q, by rw [hvalue, hround], ?_⟩
    rw [nearestDouble, hround]
    rfl
  have htext : (integerToken false n).text = natDecimal n := List.append_nil _
  rw [htext] at hspells
  exact hspells

theorem spelt_jsonNumber {n : Int} (h : n.natAbs ≤ 2 ^ 53) : Spelt (jsonNumber n) (.number n) := by
  have hround := Binary64.round_intCast h
  unfold jsonNumber toDecimal
  split
  · next hneg =>
    have hvalue : (integerToken true n.natAbs).value = n := by
      have hmagnitude : (integerToken true n.natAbs).value = -(n.natAbs : ℚ) :=
        congrArg Neg.neg (magnitude_integerToken true n.natAbs)
      rw [hmagnitude, Nat.cast_natAbs, Int.cast_abs, abs_of_neg (by exact_mod_cast hneg), neg_neg]
    have htext : (integerToken true n.natAbs).text = 45 :: natDecimal n.natAbs :=
      congrArg (45 :: ·) (List.append_nil _)
    have hspells : Spells strictReading (.value (.number n)) (integerToken true n.natAbs).text :=
      Spells.number _ ⟨n, by rw [hvalue, hround], rfl⟩
    rw [htext] at hspells
    exact hspells
  · next hnonneg =>
    have hvalue : (integerToken false n.toNat).value = n := by
      have hmagnitude : (integerToken false n.toNat).value = (n.toNat : ℚ) :=
        magnitude_integerToken false n.toNat
      have hcast : ((n.toNat : Int) : ℚ) = n := by rw [Int.toNat_of_nonneg (not_lt.mp hnonneg)]
      rw [hmagnitude, ← hcast, Int.cast_natCast]
    have htext : (integerToken false n.toNat).text = natDecimal n.toNat := List.append_nil _
    have hspells : Spells strictReading (.value (.number n)) (integerToken false n.toNat).text :=
      Spells.number _ ⟨n, by rw [hvalue, hround], rfl⟩
    rw [htext] at hspells
    exact hspells

/-! ## 3. Arrays and objects -/

theorem spells_items {texts : List Bytes} {values : List JsonValue}
    (h : List.Forall₂ Spelt texts values) (hne : texts ≠ []) :
    Spells strictReading (.items values) ([comma].intercalate texts) := by
  induction h with
  | nil => exact absurd rfl hne
  | @cons text value texts values hspelt hrest ih =>
    cases hrest with
    | nil =>
      have hlast := Spells.lastItem hspelt ws_nil
      rw [List.append_nil] at hlast
      rw [List.intercalate_singleton]
      exact hlast
    | @cons text' value' texts values hspelt' hrest =>
      have hitems := ih (List.cons_ne_nil _ _)
      rw [List.intercalate_cons_cons, List.append_assoc]
      exact Spells.item hspelt ws_nil ws_nil hitems

theorem spelt_jsonArray {texts : List Bytes} {values : List JsonValue}
    (h : List.Forall₂ Spelt texts values) : Spelt (jsonArray texts) (.array values) := by
  cases h with
  | nil => exact Spells.emptyArray ws_nil
  | cons hspelt hrest =>
    exact Spells.array ws_nil (spells_items (List.Forall₂.cons hspelt hrest) (List.cons_ne_nil _ _))

theorem spelt_serializeTopics (topics : List Bytes) :
    Spelt (serializeTopics topics) (.array (topics.map fun topic => .string (received topic))) := by
  apply spelt_jsonArray
  induction topics with
  | nil => exact List.Forall₂.nil
  | cons topic topics ih => exact List.Forall₂.cons (spelt_jsonString topic) ih

/-- A key that is written as it is. -/
def PlainKey (key : Bytes) : Prop := ∀ c ∈ key, Unescaped c

instance (key : Bytes) : Decidable (PlainKey key) :=
  inferInstanceAs (Decidable (∀ c ∈ key, Unescaped c))

theorem PlainKey.exists_pieces {key : Bytes} (h : PlainKey key) :
    ∃ ps : List Piece, ps.flatMap Piece.text = key ∧ Writes ps key := by
  induction key with
  | nil => exact ⟨[], rfl, List.Forall₂.nil, rfl⟩
  | cons c key ih =>
    obtain ⟨ps, htext, hps⟩ := ih fun d hd => h d (List.mem_cons_of_mem _ hd)
    refine ⟨.byte c (h c (List.mem_cons_self ..)) :: ps, ?_, hps.cons rfl rfl⟩
    rw [List.flatMap_cons, htext]
    rfl

/-- A member of a response: its key, its encoded value, and what that decodes to. -/
structure SpeltMember where
  key : Bytes
  text : Bytes
  value : JsonValue
  plain : PlainKey key
  spelt : Spelt text value

namespace SpeltMember

def encoded (m : SpeltMember) : Bytes := 34 :: (m.key ++ 34 :: 58 :: m.text)

theorem encoded_eq (m : SpeltMember) : ∃ ps : List Piece, Writes ps m.key ∧
    ∀ rest, m.encoded ++ rest = quoted ps ++ nameSeparator :: (m.text ++ rest) := by
  obtain ⟨ps, htext, hps⟩ := m.plain.exists_pieces
  refine ⟨ps, hps, ?_⟩
  intro rest
  simp [encoded, quoted, htext]

end SpeltMember

theorem spells_members (m : SpeltMember) (ms : List SpeltMember) :
    Spells strictReading (.members ((m :: ms).map fun m => (m.key, m.value)))
      ([comma].intercalate ((m :: ms).map SpeltMember.encoded)) := by
  induction ms generalizing m with
  | nil =>
    obtain ⟨ps, hps, htext⟩ := m.encoded_eq
    have hlast := Spells.lastMember hps.takes ws_nil ws_nil m.spelt ws_nil
    have heq := htext []
    rw [List.append_nil, List.append_nil] at heq
    rw [List.nil_append, List.nil_append, List.append_nil, ← heq] at hlast
    rw [List.map_singleton, List.map_singleton, List.intercalate_singleton]
    exact hlast
  | cons m' ms ih =>
    obtain ⟨ps, hps, htext⟩ := m.encoded_eq
    have hmember := Spells.member hps.takes ws_nil ws_nil m.spelt ws_nil ws_nil (ih m')
    have hjoin : [comma].intercalate ((m :: m' :: ms).map SpeltMember.encoded) =
        m.encoded ++ ([comma] ++ [comma].intercalate ((m' :: ms).map SpeltMember.encoded)) := by
      rw [← List.append_assoc]
      exact List.intercalate_cons_of_ne_nil (List.cons_ne_nil _ _)
    rw [hjoin, htext]
    exact hmember

theorem spelt_jsonObject (ms : List SpeltMember) :
    Spelt (jsonObject (ms.map fun m => (m.key, m.text)))
      (.ofMembers (ms.map fun m => (m.key, m.value))) := by
  have hencoded : ((ms.map fun m => (m.key, m.text)).map fun m => 34 :: (m.1 ++ 34 :: 58 :: m.2)) =
      ms.map SpeltMember.encoded := by
    rw [List.map_map]
    rfl
  rw [jsonObject, hencoded]
  cases ms with
  | nil => exact Spells.emptyObject ws_nil
  | cons m ms => exact Spells.object ws_nil (spells_members m ms)

theorem parseJson_of_spelt {text : Bytes} {value : JsonValue} (h : Spelt text value) :
    parseJson text = .ok value := by
  have hspells : Spells parserReading (.value value) text := h.map (parserReading.hom_restrict _)
  rw [parseJson_eq_ok_iff]
  exact ⟨[], text, [], ws_nil, ws_nil, (List.append_nil text).symm, hspells⟩

theorem isJson_of_spelt {text : Bytes} {value : JsonValue} (h : Spelt text value) :
    IsJson (fun _ => True) text := by
  have hspells : Spells (.accepting HexDigits fun _ => True) (.value ()) text :=
    h.map (Reading.hom_accepting (R := strictReading) (fun _ _ _ => trivial) fun _ _ htakes =>
      htakes.2)
  exact ⟨[], text, [], ws_nil, ws_nil, (List.append_nil text).symm, hspells⟩

/-! ## 4. The bodies -/

namespace SpeltMember

def string (key s : Bytes) (plain : PlainKey key) : SpeltMember :=
  ⟨key, jsonString s, .string (received s), plain, spelt_jsonString s⟩

def bool (key : Bytes) (b : Bool) (plain : PlainKey key) : SpeltMember :=
  ⟨key, jsonBool b, .bool b, plain, spelt_jsonBool b⟩

end SpeltMember

/-- The range of `int` on the target. -/
def IsInt (n : Int) : Prop := longMin ≤ n ∧ n ≤ longMax

theorem IsInt.natAbs_le {n : Int} (h : IsInt n) : n.natAbs ≤ 2 ^ 53 := by
  unfold IsInt longMin longMax at h
  omega

/-- Every number of a configuration is an `int`. -/
structure IntFields (config : CoreConfig) : Prop where
  mqtt_port : IsInt config.mqtt_port
  volume_bell : IsInt config.volume_bell
  volume_notifications : IsInt config.volume_notifications
  volume_other : IsInt config.volume_other

def applyValue (status : ApplyReport) : JsonValue :=
  .ofMembers [
    (bytes "job_id", .number (nearestDouble status.job_id.toNat)),
    (bytes "state", .string (received status.state)),
    (bytes "started_at_utc", .string (received status.started_at_utc)),
    (bytes "finished_at_utc", .string (received status.finished_at_utc)),
    (bytes "error", .string (received status.error))]

/-- The members that the body of a configuration decodes to. -/
def coreConfigMembers (snapshot : CoreConfigSnapshot) (apply : ApplyReport) :
    List (Bytes × JsonValue) :=
  let config := snapshot.config
  [
    (bytes "wifi_ssid", .string (received config.wifi_ssid)),
    (bytes "wifi_password_set", .bool snapshot.wifi_password_set),
    (bytes "mqtt_host", .string (received config.mqtt_host)),
    (bytes "mqtt_port", .number config.mqtt_port),
    (bytes "mqtt_client_id", .string (received config.mqtt_client_id)),
    (bytes "mqtt_username", .string (received config.mqtt_username)),
    (bytes "mqtt_password_set", .bool snapshot.mqtt_password_set),
    (bytes "mqtt_tls_enabled", .bool config.mqtt_tls_enabled),
    (bytes "mqtt_tls_validate_certificate", .bool config.mqtt_tls_validate_certificate),
    (bytes "mqtt_tls_ca_file", .string (received config.mqtt_tls_ca_file)),
    (bytes "mqtt_tls_cert_file", .string (received config.mqtt_tls_cert_file)),
    (bytes "mqtt_tls_key_file", .string (received config.mqtt_tls_key_file)),
    (bytes "mqtt_topics", .array (config.mqtt_topics.map fun topic => .string (received topic))),
    (bytes "ring_topic", .string (received config.ring_topic)),
    (bytes "notification_success_sound_path",
      .string (received config.notification_success_sound_path)),
    (bytes "notification_failure_sound_path",
      .string (received config.notification_failure_sound_path)),
    (bytes "volume_bell", .number config.volume_bell),
    (bytes "volume_notifications", .number config.volume_notifications),
    (bytes "volume_other", .number config.volume_other),
    (bytes "apply", applyValue apply)]

def coreConfigValue (snapshot : CoreConfigSnapshot) (apply : ApplyReport) : JsonValue :=
  .ofMembers (coreConfigMembers snapshot apply)

theorem spelt_serializeApplyStatus (status : ApplyReport) :
    Spelt (serializeApplyStatus status) (applyValue status) :=
  spelt_jsonObject [
    ⟨bytes "job_id", _, _, by decide +kernel, spelt_natDecimal status.job_id.toNat_lt⟩,
    .string (bytes "state") status.state (by decide +kernel),
    .string (bytes "started_at_utc") status.started_at_utc (by decide +kernel),
    .string (bytes "finished_at_utc") status.finished_at_utc (by decide +kernel),
    .string (bytes "error") status.error (by decide +kernel)]

/-- The members of the body of a configuration. -/
def coreConfigSpelt {snapshot : CoreConfigSnapshot} (ints : IntFields snapshot.config)
    (apply : ApplyReport) : List SpeltMember := [
    .string (bytes "wifi_ssid") snapshot.config.wifi_ssid (by decide +kernel),
    .bool (bytes "wifi_password_set") snapshot.wifi_password_set (by decide +kernel),
    .string (bytes "mqtt_host") snapshot.config.mqtt_host (by decide +kernel),
    ⟨bytes "mqtt_port", _, _, by decide +kernel, spelt_jsonNumber ints.mqtt_port.natAbs_le⟩,
    .string (bytes "mqtt_client_id") snapshot.config.mqtt_client_id (by decide +kernel),
    .string (bytes "mqtt_username") snapshot.config.mqtt_username (by decide +kernel),
    .bool (bytes "mqtt_password_set") snapshot.mqtt_password_set (by decide +kernel),
    .bool (bytes "mqtt_tls_enabled") snapshot.config.mqtt_tls_enabled (by decide +kernel),
    .bool (bytes "mqtt_tls_validate_certificate") snapshot.config.mqtt_tls_validate_certificate
      (by decide +kernel),
    .string (bytes "mqtt_tls_ca_file") snapshot.config.mqtt_tls_ca_file (by decide +kernel),
    .string (bytes "mqtt_tls_cert_file") snapshot.config.mqtt_tls_cert_file (by decide +kernel),
    .string (bytes "mqtt_tls_key_file") snapshot.config.mqtt_tls_key_file (by decide +kernel),
    ⟨bytes "mqtt_topics", _, _, by decide +kernel,
      spelt_serializeTopics snapshot.config.mqtt_topics⟩,
    .string (bytes "ring_topic") snapshot.config.ring_topic (by decide +kernel),
    .string (bytes "notification_success_sound_path")
      snapshot.config.notification_success_sound_path (by decide +kernel),
    .string (bytes "notification_failure_sound_path")
      snapshot.config.notification_failure_sound_path (by decide +kernel),
    ⟨bytes "volume_bell", _, _, by decide +kernel, spelt_jsonNumber ints.volume_bell.natAbs_le⟩,
    ⟨bytes "volume_notifications", _, _, by decide +kernel,
      spelt_jsonNumber ints.volume_notifications.natAbs_le⟩,
    ⟨bytes "volume_other", _, _, by decide +kernel, spelt_jsonNumber ints.volume_other.natAbs_le⟩,
    ⟨bytes "apply", _, _, by decide +kernel, spelt_serializeApplyStatus apply⟩]

theorem spelt_coreConfigBody {snapshot : CoreConfigSnapshot} (ints : IntFields snapshot.config)
    (apply : ApplyReport) :
    Spelt (coreConfigBody snapshot apply) (coreConfigValue snapshot apply) :=
  spelt_jsonObject (coreConfigSpelt ints apply)

def networkValue (network : WifiNetwork) : JsonValue :=
  .ofMembers [
    (bytes "ssid", .string (received network.ssid)),
    (bytes "signal_dbm", .number network.signal_dbm),
    (bytes "security", .string (received network.security))]

def wifiScanValue (networks : List WifiNetwork) : JsonValue :=
  .ofMembers [(bytes "networks", .array (networks.map networkValue))]

def observedTopicsValue (topics : List Bytes) : JsonValue :=
  .ofMembers [(bytes "topics", .array (topics.map fun topic => .string (received topic)))]

theorem spelt_networkObject {network : WifiNetwork} (signal : IsInt network.signal_dbm) :
    Spelt (networkObject network) (networkValue network) :=
  spelt_jsonObject [
    .string (bytes "ssid") network.ssid (by decide +kernel),
    ⟨bytes "signal_dbm", _, _, by decide +kernel, spelt_jsonNumber signal.natAbs_le⟩,
    .string (bytes "security") network.security (by decide +kernel)]

theorem spelt_networks {networks : List WifiNetwork}
    (signals : ∀ network ∈ networks, IsInt network.signal_dbm) :
    List.Forall₂ Spelt (networks.map networkObject) (networks.map networkValue) := by
  induction networks with
  | nil => exact List.Forall₂.nil
  | cons network networks ih =>
    apply List.Forall₂.cons (spelt_networkObject (signals _ (List.mem_cons_self ..)))
    exact ih fun n hn => signals n (List.mem_cons_of_mem _ hn)

theorem spelt_wifiScanBody {networks : List WifiNetwork}
    (signals : ∀ network ∈ networks, IsInt network.signal_dbm) :
    Spelt (wifiScanBody networks) (wifiScanValue networks) :=
  spelt_jsonObject [
    ⟨bytes "networks", _, _, by decide +kernel, spelt_jsonArray (spelt_networks signals)⟩]

theorem spelt_observedTopicsBody (topics : List Bytes) :
    Spelt (observedTopicsBody topics) (observedTopicsValue topics) :=
  spelt_jsonObject [⟨bytes "topics", _, _, by decide +kernel, spelt_serializeTopics topics⟩]

/-- A text without control bytes, but for those with a short escape, is received as it is. -/
theorem received_eq_self {s : Bytes}
    (h : ∀ c ∈ s, 32 ≤ c.toNat ∨ c ∈ ([8, 9, 10, 12, 13] : Bytes)) : received s = s := by
  refine (List.map_congr_left ?_).trans (List.map_id s)
  intro c hc
  apply if_neg
  rintro ⟨hcontrol, hlost⟩
  rcases h c hc with hhigh | hshort
  · omega
  · exact hlost hshort

/-- The response bodies are JSON texts, and decode to the data they were built from. -/
theorem responses_decode (snapshot : CoreConfigSnapshot) (apply : ApplyReport)
    (topics : List Bytes) (networks : List WifiNetwork) (ints : IntFields snapshot.config)
    (signals : ∀ network ∈ networks, IsInt network.signal_dbm) :
    parseJson (coreConfigBody snapshot apply) = .ok (coreConfigValue snapshot apply) ∧
      parseJson (observedTopicsBody topics) = .ok (observedTopicsValue topics) ∧
      parseJson (wifiScanBody networks) = .ok (wifiScanValue networks) ∧
      (∀ s : Bytes, (∀ c ∈ s, 32 ≤ c.toNat ∨ c ∈ ([8, 9, 10, 12, 13] : Bytes)) → received s = s) ∧
      (apply.job_id.toNat ≤ 2 ^ 53 → nearestDouble apply.job_id.toNat = apply.job_id.toNat) := by
  refine ⟨?_, ?_, ?_, ?_, ?_⟩
  · exact parseJson_of_spelt (spelt_coreConfigBody ints apply)
  · exact parseJson_of_spelt (spelt_observedTopicsBody topics)
  · exact parseJson_of_spelt (spelt_wifiScanBody signals)
  · intro s h
    exact received_eq_self h
  · exact nearestDouble_of_le

theorem responses_decode_sample :
    parseJson (wifiScanBody [⟨bytes "tea \"room\"", -40, bytes "wpa2"⟩]) =
      .ok (wifiScanValue [⟨bytes "tea \"room\"", -40, bytes "wpa2"⟩]) := by
  have hints : IntFields ({} : CoreConfigSnapshot).config :=
    ⟨⟨by decide, by decide⟩, ⟨by decide, by decide⟩, ⟨by decide, by decide⟩, ⟨by decide, by decide⟩⟩
  have hsignals : ∀ network ∈ [WifiNetwork.mk (bytes "tea \"room\"") (-40) (bytes "wpa2")],
      IsInt network.signal_dbm := by
    intro network hmem
    rw [List.mem_singleton.mp hmem]
    exact ⟨by decide, by decide⟩
  exact (responses_decode {} {} [] _ hints hsignals).2.2.1

/-- The job number in a decoded configuration. -/
def jobNumber (value : JsonValue) : Option ℚ :=
  ((getObjectField value (bytes "apply")).bind fun apply =>
    getObjectField apply (bytes "job_id")).bind asNumber

/-- Job number `2^53 + 1` arrives as `2^53`. -/
theorem job_number_rounded :
    ∃ value, parseJson (coreConfigBody {} { job_id := 9007199254740993 }) = .ok value ∧
      jobNumber value = some 9007199254740992 := by
  have hints : IntFields ({} : CoreConfigSnapshot).config :=
    ⟨⟨by decide, by decide⟩, ⟨by decide, by decide⟩, ⟨by decide, by decide⟩, ⟨by decide, by decide⟩⟩
  refine ⟨_, parseJson_of_spelt (spelt_coreConfigBody hints _), ?_⟩
  decide +kernel

/-! ## 5. What the handlers answer -/

/-- A number that is read within bounds, or is their default. -/
theorem isInt_parseInt {lo hi default : Int} (hlo : longMin ≤ lo) (hhi : hi ≤ longMax)
    (hdefault : lo ≤ default ∧ default ≤ hi) (text : Bytes) :
    IsInt ((parseInt text lo hi).getD default) := by
  have hbounds : lo ≤ (parseInt text lo hi).getD default ∧
      (parseInt text lo hi).getD default ≤ hi := by
    cases hparsed : parseInt text lo hi with
    | none => exact hdefault
    | some n => exact parseInt_bounds hparsed
  exact ⟨hlo.trans hbounds.1, hbounds.2.trans hhi⟩

theorem intFields_snapshotOf (chimeLines wpaLines : List Bytes) :
    IntFields (snapshotOf chimeLines wpaLines).config where
  mqtt_port := isInt_parseInt (by decide) (by decide) (by decide) _
  volume_bell := isInt_parseInt (by decide) (by decide) (by decide) _
  volume_notifications := isInt_parseInt (by decide) (by decide) (by decide) _
  volume_other := isInt_parseInt (by decide) (by decide) (by decide) _

/-- What the body of an error decodes to. -/
def errorValue (error message : Bytes) : JsonValue :=
  .ofMembers [(bytes "error", .string error), (bytes "message", .string (received message))]

theorem spelt_errorBody {error : Bytes} (plain : PlainKey error) (message : Bytes) :
    Spelt (errorBody error message) (errorValue error message) :=
  spelt_jsonObject [
    ⟨bytes "error", _, _, by decide +kernel, spelt_pieces plain.exists_pieces⟩,
    .string (bytes "message") message (by decide +kernel)]

/-- GET answers with the loaded configuration, or with why it was not loaded. -/
theorem handleGetCoreConfig_decodes (store : ConfigStore) (disk : Disk)
    (chimeOpen wpaOpen : Option Bytes) (apply : ApplyReport) :
    let loaded := loadCoreConfig store disk chimeOpen wpaOpen
    parseJson (handleGetCoreConfig store disk chimeOpen wpaOpen apply).body =
      .ok (if loaded.success then coreConfigValue loaded.snapshot apply
        else errorValue (bytes "load_failed") loaded.error) := by
  intro loaded
  apply parseJson_of_spelt
  rw [handleGetCoreConfig]
  cases hload : loaded.success with
  | false => exact spelt_errorBody (by decide +kernel) loaded.error
  | true =>
    obtain ⟨chime, -, hsnapshot⟩ := loadCoreConfig_success hload
    have hints : IntFields loaded.snapshot.config := by
      rw [show loaded = _ from hsnapshot]
      exact intFields_snapshotOf _ _
    exact spelt_coreConfigBody hints apply

theorem handleWifiScan_decodes (scan : WifiScanResult)
    (signals : ∀ network ∈ scan.networks, IsInt network.signal_dbm) :
    parseJson (handleWifiScan scan).body =
      .ok (if scan.success then wifiScanValue scan.networks
        else errorValue (bytes "scan_failed") scan.error) := by
  apply parseJson_of_spelt
  rw [handleWifiScan]
  cases scan.success with
  | false => exact spelt_errorBody (by decide +kernel) scan.error
  | true => exact spelt_wifiScanBody signals

/-- The topics of the file come back once each, in the order of their first lines. -/
theorem handleGetObservedTopics_decodes (file : Option Bytes) :
    parseJson (handleGetObservedTopics file).body =
      .ok (observedTopicsValue (readObservedTopics file)) :=
  parseJson_of_spelt (spelt_observedTopicsBody _)

end VirtualChime.Webd
