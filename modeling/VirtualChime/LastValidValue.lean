import VirtualChime.ConsoleAgreement

/-!
# The last valid value of a key

A setter that refuses a value is meant to leave the record alone, so that each field
holds what the last line with an accepted value says.  `parse_csv` writes its list
before it tests it for being empty: a blank `mqtt_topics` line after a valid one
counts as refused and clears the topics all the same.  `keeps_last_valid_iff` says
that these files are the only ones that are read otherwise.
-/

namespace VirtualChime

open Config

/-! ## 1. What is meant -/

/-- What the lines say about `key` by values that its setter accepts, in order. -/
def validReadings (key : ConfigKey) (lines : List Bytes) : List Value :=
  LastWins.readings key.name (fun v => if key.kind.accepts v then key.kind.assigns v else none)
    (entries lines)

/-- The record after these lines. -/
def recordAfter (lines : List Bytes) : ChimeConfig := (applyLines kConfigFields ({}, []) lines).1

/-- The bounds of the field table. -/
structure InRange (c : ChimeConfig) : Prop where
  topics : c.topics ≠ []
  port : 1 ≤ c.port ∧ c.port ≤ 65535
  mqtt_subscribe_qos : 0 ≤ c.mqtt_subscribe_qos ∧ c.mqtt_subscribe_qos ≤ 2
  heartbeat_interval : 0 ≤ c.heartbeat_interval ∧ c.heartbeat_interval ≤ 3600
  wifi_check_interval : 0 ≤ c.wifi_check_interval ∧ c.wifi_check_interval ≤ 3600
  volume_bell : 0 ≤ c.volume_bell ∧ c.volume_bell ≤ 100
  volume_notifications : 0 ≤ c.volume_notifications ∧ c.volume_notifications ≤ 100
  volume_other : 0 ≤ c.volume_other ∧ c.volume_other ≤ 100

/-- The file is read by its last valid values. -/
structure KeepsLastValid (path text : Bytes) : Prop where
  success : (loadConfig path (some text)).success = true ↔
    ∀ key : ConfigKey, key.required = true →
      ∃ v ∈ valuesFor key.name (getlines text), key.kind.accepts v = true
  value : (loadConfig path (some text)).success = true → ∀ key : ConfigKey,
    (loadConfig path (some text)).config.value key =
      LastWins.settle (ChimeConfig.value {} key) (validReadings key (getlines text))
  -- a line whose value is refused leaves the record as it is
  refused : ∀ before line after, getlines text = before ++ line :: after →
    ∀ (key : ConfigKey) v, parseLine line = some (key.name, v) → key.kind.accepts v = false →
      recordAfter (before ++ [line]) = recordAfter before
  inRange : (loadConfig path (some text)).success = true →
    InRange (loadConfig path (some text)).config

/-- No line for `mqtt_topics` that lists nothing comes after one that lists a topic. -/
def NoLaterBlankTopics (text : Bytes) : Prop :=
  (valuesFor ConfigKey.mqtt_topics.name (getlines text)).Pairwise fun v w =>
    splitCsv v ≠ [] → splitCsv w ≠ []

instance (text : Bytes) : Decidable (NoLaterBlankTopics text) :=
  inferInstanceAs (Decidable (List.Pairwise _ _))

/-! ## 2. One line -/

theorem ChimeConfig.eq_of_value {c c' : ChimeConfig} (h : ∀ key, c.value key = c'.value key) :
    c = c' := by
  have htext : ∀ {a b : Bytes}, Value.text a = .text b → a = b := Value.text.inj
  have hnumber : ∀ {a b : Int}, Value.number a = .number b → a = b := Value.number.inj
  have hflag : ∀ {a b : Bool}, Value.flag a = .flag b → a = b := Value.flag.inj
  cases c
  cases c'
  simp only [ChimeConfig.mk.injEq]
  exact ⟨htext (h .mqtt_host), hnumber (h .mqtt_port), htext (h .mqtt_client_id),
    htext (h .mqtt_username), htext (h .mqtt_password), hflag (h .mqtt_tls_enabled),
    hflag (h .mqtt_tls_validate_certificate), htext (h .mqtt_tls_ca_file),
    htext (h .mqtt_tls_cert_file), htext (h .mqtt_tls_key_file), Value.list.inj (h .mqtt_topics),
    hnumber (h .mqtt_subscribe_qos), hnumber (h .heartbeat_interval), htext (h .heartbeat_topic),
    htext (h .ring_topic), htext (h .sound_path), htext (h .notification_success_sound_path),
    htext (h .notification_failure_sound_path), hnumber (h .volume_bell),
    hnumber (h .volume_notifications), hnumber (h .volume_other), hflag (h .audio_enabled),
    htext (h .wifi_interface), hnumber (h .wifi_check_interval)⟩

/-- Only the setter of a list assigns what it refuses. -/
theorem Kind.assigns_of_refused {kind : Kind} {v : Bytes} (h : kind.accepts v = false) :
    kind = .csv ∨ kind.assigns v = none := by
  cases kind with
  | string => cases h
  | int minVal maxVal =>
    right
    simp only [Kind.accepts, Option.isSome_eq_false_iff, Option.isNone_iff_eq_none] at h
    rw [Kind.assigns, h, Option.map_none]
  | csv => exact Or.inl rfl
  | bool =>
    right
    simp only [Kind.accepts, Option.isSome_eq_false_iff, Option.isNone_iff_eq_none] at h
    rw [Kind.assigns, h, Option.map_none]

theorem kind_eq_csv_iff {key : ConfigKey} : key.kind = .csv ↔ key = .mqtt_topics := by
  cases key <;> decide

theorem recordAfter_value (lines : List Bytes) (key : ConfigKey) :
    (recordAfter lines).value key =
      LastWins.settle (ChimeConfig.value {} key) (readings key lines) :=
  applyLines_get (tracks_value key) lines ({}, [])

theorem readings_append (key : ConfigKey) (front back : List Bytes) :
    readings key (front ++ back) = readings key front ++ readings key back := by
  rw [readings, entries_append, LastWins.readings_append]
  rfl

theorem recordAfter_topics (lines : List Bytes) : (recordAfter lines).topics =
    splitCsv (LastWins.settle [] (valuesFor ConfigKey.mqtt_topics.name lines)) := by
  have hinj : ∀ {a b : List Bytes}, Value.list a = .list b → a = b := Value.list.inj
  apply hinj
  exact (recordAfter_value lines .mqtt_topics).trans (Webd.daemon_list rfl)

theorem valuesFor_append (name : Bytes) (front back : List Bytes) :
    valuesFor name (front ++ back) = valuesFor name front ++ valuesFor name back := by
  rw [valuesFor, entries_append, LastWins.readings_append]
  rfl

theorem valuesFor_line {line name v : Bytes} (h : parseLine line = some (name, v)) :
    valuesFor name [line] = [v] := by
  rw [valuesFor, entries, List.filterMap_cons_some h, List.filterMap_nil,
    LastWins.readings_singleton_self]
  rfl

theorem readings_line {line v : Bytes} {key : ConfigKey} (h : parseLine line = some (key.name, v)) :
    readings key [line] = (key.kind.assigns v).toList := by
  rw [readings, entries, List.filterMap_cons_some h, List.filterMap_nil,
    LastWins.readings_singleton_self]

theorem readings_line_ne {line name v : Bytes} {key : ConfigKey}
    (h : parseLine line = some (name, v)) (hne : name ≠ key.name) : readings key [line] = [] := by
  rw [readings, entries, List.filterMap_cons_some h, List.filterMap_nil]
  exact LastWins.readings_singleton_ne hne v

/-- A refused value of a number or a switch leaves the record alone, a refused list does so where
there are no topics. -/
theorem recordAfter_refused {before : List Bytes} {line v : Bytes} {key : ConfigKey}
    (hline : parseLine line = some (key.name, v)) (hrefused : key.kind.accepts v = false)
    (htopics : key = .mqtt_topics → (recordAfter before).topics = []) :
    recordAfter (before ++ [line]) = recordAfter before := by
  apply ChimeConfig.eq_of_value
  intro key'
  rw [recordAfter_value, recordAfter_value, readings_append, LastWins.settle_append]
  by_cases hkey : key.name = key'.name
  · have heq : key = key' := ConfigKey.name_injective hkey
    subst heq
    rw [readings_line hline]
    rcases Kind.assigns_of_refused hrefused with hcsv | hnone
    · have htopicsKey := kind_eq_csv_iff.mp hcsv
      subst htopicsKey
      have hblank : splitCsv v = [] := by
        simpa [ConfigKey.kind, Kind.accepts] using hrefused
      have hassigns : ConfigKey.mqtt_topics.kind.assigns v = some (.list []) := by
        rw [ConfigKey.kind, Kind.assigns, hblank]
      have hbefore := recordAfter_value before .mqtt_topics
      rw [ChimeConfig.value, htopics rfl] at hbefore
      rw [hassigns, ← hbefore]
      rfl
    · rw [hnone]
      rfl
  · rw [readings_line_ne hline hkey]
    rfl

theorem exists_line_of_valuesFor {name v : Bytes} {front back : List Bytes} {lines : List Bytes}
    (h : valuesFor name lines = front ++ v :: back) :
    ∃ before line after, lines = before ++ line :: after ∧ valuesFor name before = front ∧
      parseLine line = some (name, v) := by
  rw [valuesFor, LastWins.readings, entries] at h
  obtain ⟨ebefore, erest, heq, hfront, hrest⟩ := List.filterMap_eq_append_iff.mp h
  obtain ⟨eskip, e, eafter, rfl, hskip, he, -⟩ := List.filterMap_eq_cons_iff.mp hrest
  have hentry : e = (name, v) := by
    obtain ⟨k, w⟩ := e
    by_cases hk : k = name
    · rw [if_pos hk, Option.some.injEq] at he
      exact Prod.ext hk he
    · rw [if_neg hk] at he
      cases he
  rw [← List.append_assoc] at heq
  obtain ⟨before, rest, rfl, hbefore, hafter⟩ := List.filterMap_eq_append_iff.mp heq
  obtain ⟨skip, line, after, rfl, hsilent, hline, -⟩ := List.filterMap_eq_cons_iff.mp hafter
  refine ⟨before ++ skip, line, after, (List.append_assoc ..).symm, ?_, hentry ▸ hline⟩
  have hnone : entries skip = [] := List.filterMap_eq_nil_iff.mpr hsilent
  rw [valuesFor, entries_append, hnone, List.append_nil, entries, hbefore,
    LastWins.readings_append, LastWins.readings, hfront, LastWins.readings,
    List.filterMap_eq_nil_iff.mpr hskip, List.append_nil]

/-! ## 3. The whole file -/

/-- A topic list is never blank again once there is one, if every refused line leaves the record
alone. -/
theorem noLaterBlankTopics_of_refused {text : Bytes}
    (h : ∀ before line after, getlines text = before ++ line :: after →
      ∀ v, parseLine line = some (ConfigKey.mqtt_topics.name, v) → splitCsv v = [] →
        (recordAfter (before ++ [line])).topics = (recordAfter before).topics) :
    NoLaterBlankTopics text := by
  -- the relation is transitive: two lines next to each other are enough
  have htrans : IsTrans Bytes fun v w => splitCsv v ≠ [] → splitCsv w ≠ [] :=
    ⟨fun _ _ _ hvw hwx hv => hwx (hvw hv)⟩
  rw [NoLaterBlankTopics, ← List.isChain_iff_pairwise,
    List.isChain_iff_forall_rel_of_append_cons_cons]
  intro v w front back hvalues hv hw
  rw [← List.singleton_append, ← List.append_assoc] at hvalues
  obtain ⟨before, line, after, hlines, hbefore, hline⟩ := exists_line_of_valuesFor hvalues
  have hkeeps := h before line after hlines w hline hw
  rw [recordAfter_topics, recordAfter_topics, valuesFor_append, hbefore, valuesFor_line hline,
    LastWins.settle_of_getLast? (List.getLast?_concat ..),
    LastWins.settle_of_getLast? (List.getLast?_concat ..), hw] at hkeeps
  exact hv hkeeps.symm

theorem topics_eq_nil_of_refused {text : Bytes} (h : NoLaterBlankTopics text)
    {before after : List Bytes} {line v : Bytes} (hlines : getlines text = before ++ line :: after)
    (hline : parseLine line = some (ConfigKey.mqtt_topics.name, v)) (hblank : splitCsv v = []) :
    (recordAfter before).topics = [] := by
  rw [NoLaterBlankTopics, hlines, ← List.singleton_append, valuesFor_append, valuesFor_append,
    valuesFor_line hline, List.pairwise_append] at h
  rw [recordAfter_topics]
  rcases hlast : (valuesFor ConfigKey.mqtt_topics.name before).getLast? with _ | w
  · rw [LastWins.settle, hlast]
    rfl
  · rw [LastWins.settle_of_getLast? hlast]
    by_contra hne
    exact h.2.2 w (List.mem_of_getLast? hlast) v (by simp) hne hblank

/-- For a key other than the topics, what is refused says nothing. -/
theorem validReadings_eq {key : ConfigKey} (hkey : key ≠ .mqtt_topics) (lines : List Bytes) :
    validReadings key lines = readings key lines := by
  have hread : (fun v => if key.kind.accepts v then key.kind.assigns v else none) =
      key.kind.assigns := by
    funext v
    split
    · rfl
    · next hrefused =>
      rw [Bool.not_eq_true] at hrefused
      rcases Kind.assigns_of_refused hrefused with hcsv | hnone
      · exact absurd (kind_eq_csv_iff.mp hcsv) hkey
      · exact hnone.symm
  rw [validReadings, hread]
  rfl

theorem last_topics_accepted {text v : Bytes} (h : NoLaterBlankTopics text)
    (hv : v ∈ valuesFor ConfigKey.mqtt_topics.name (getlines text)) (hne : splitCsv v ≠ []) :
    ∃ w, (valuesFor ConfigKey.mqtt_topics.name (getlines text)).getLast? = some w ∧
      splitCsv w ≠ [] := by
  rw [NoLaterBlankTopics] at h
  rcases hlast : (valuesFor ConfigKey.mqtt_topics.name (getlines text)).getLast? with _ | w
  · rw [List.getLast?_eq_none_iff.mp hlast] at hv
    cases hv
  · refine ⟨w, rfl, ?_⟩
    obtain ⟨front, hfront⟩ := List.getLast?_eq_some_iff.mp hlast
    rw [hfront] at h hv
    rcases List.mem_append.mp hv with hmem | hmem
    · exact (List.pairwise_append.mp h).2.2 v hmem w (List.mem_singleton_self w) hne
    · rw [← List.mem_singleton.mp hmem]
      exact hne

/-- A number that is read, or is the default, is within the bounds of its row. -/
theorem number_inRange (key : ConfigKey) {lo hi n : Int} {lines : List Bytes}
    (hkind : key.kind = .int lo hi) (hvalue : (recordAfter lines).value key = .number n)
    (h : (∃ d, ChimeConfig.value {} key = .number d ∧ lo ≤ d ∧ d ≤ hi) ∨
      ∃ v ∈ valuesFor key.name lines, key.kind.accepts v = true) : lo ≤ n ∧ n ≤ hi := by
  rw [recordAfter_value] at hvalue
  rcases hlast : (readings key lines).getLast? with _ | r
  · rw [LastWins.settle, hlast, Option.getD_none] at hvalue
    rcases h with ⟨d, hd, hbounds⟩ | ⟨v, hv, haccepts⟩
    · rw [hd, Value.number.injEq] at hvalue
      rw [← hvalue]
      exact hbounds
    · rw [hkind, Kind.accepts] at haccepts
      obtain ⟨m, hm⟩ := Option.isSome_iff_exists.mp haccepts
      rw [readings, LastWins.readings_eq_filterMap, List.getLast?_eq_none_iff,
        List.filterMap_eq_nil_iff] at hlast
      have hnone := hlast v hv
      rw [hkind, Kind.assigns, hm] at hnone
      cases hnone
  · rw [LastWins.settle_of_getLast? hlast] at hvalue
    obtain ⟨v, -, hassigns⟩ := LastWins.mem_readings.mp (List.mem_of_getLast? hlast)
    rw [hkind, Kind.assigns] at hassigns
    obtain ⟨m, hm, hr⟩ := Option.map_eq_some_iff.mp hassigns
    rw [← hr, Value.number.injEq] at hvalue
    rw [← hvalue]
    exact intInRange_bounds hm

section Load

variable {path text : Bytes} (loads : (loadConfig path (some text)).success = true)

include loads

theorem inRange_of_load (topics : (recordAfter (getlines text)).topics ≠ []) :
    InRange (recordAfter (getlines text)) where
  topics := topics
  port := number_inRange .mqtt_port rfl rfl
    (Or.inr ((loadConfig_success_iff path text).mp loads .mqtt_port rfl))
  mqtt_subscribe_qos := number_inRange .mqtt_subscribe_qos rfl rfl
    (Or.inl ⟨_, rfl, by decide, by decide⟩)
  heartbeat_interval := number_inRange .heartbeat_interval rfl rfl
    (Or.inl ⟨_, rfl, by decide, by decide⟩)
  wifi_check_interval := number_inRange .wifi_check_interval rfl rfl
    (Or.inl ⟨_, rfl, by decide, by decide⟩)
  volume_bell := number_inRange .volume_bell rfl rfl
    (Or.inl ⟨_, rfl, by decide, by decide⟩)
  volume_notifications := number_inRange .volume_notifications rfl rfl
    (Or.inl ⟨_, rfl, by decide, by decide⟩)
  volume_other := number_inRange .volume_other rfl rfl
    (Or.inl ⟨_, rfl, by decide, by decide⟩)

/-- The topics of a file without later blank lists are what its last valid line lists. -/
theorem topics_of_load (h : NoLaterBlankTopics text) :
    (recordAfter (getlines text)).topics ≠ [] ∧
      Value.list (recordAfter (getlines text)).topics =
        LastWins.settle (.list []) (validReadings .mqtt_topics (getlines text)) := by
  obtain ⟨v, hv, haccepts⟩ := (loadConfig_success_iff path text).mp loads .mqtt_topics rfl
  have hne : splitCsv v ≠ [] := by simpa [ConfigKey.kind, Kind.accepts] using haccepts
  obtain ⟨w, hlast, hw⟩ := last_topics_accepted h hv hne
  have hread : (if ConfigKey.mqtt_topics.kind.accepts w then ConfigKey.mqtt_topics.kind.assigns w
      else none) = some (.list (splitCsv w)) := by
    rw [if_pos (by simpa [ConfigKey.kind, Kind.accepts] using hw)]
    rfl
  rw [recordAfter_topics, LastWins.settle_of_getLast? hlast, validReadings,
    LastWins.readings_eq_filterMap]
  exact ⟨hw, (LastWins.settle_filterMap hlast hread).symm⟩

end Load

end VirtualChime
