import VirtualChime.ConfigStore

/-!
# What a saved `chime.conf` says

`SaveChimeConfig` rewrites lines, the daemon's `load` and the web daemon's
`ExtractConfigValue` read them back with scanners of their own.  This module
relates the three.  A written line is either an untouched old line, whose key is
none of the rewritten ones, or the setting line of a row of `replacements`
(`mem_chimeLines`); read back, a setting line gives its own key the first line of
its value, and whatever the further lines of the value happen to say
(`entries_settingLine`).
-/

namespace VirtualChime.Webd

open Config

/-! ## 1. One setting line -/

section SettingLine

variable {name : Bytes}

theorem trim_name (h : ConfigKey.PlainName name) : trim name = name :=
  trim_eq_self_of_forall h.2.2.2.1

theorem trim_settingLine (h : ConfigKey.PlainName name) (value : Bytes) :
    trim (settingLine (name, value)) = name ++ equals :: value.rdropWhile isBlank :=
  trim_append_cons h.1 (trim_name h) (by decide) value

theorem settingLine_not_skipped (h : ConfigKey.PlainName name) (rest : Bytes) :
    ¬ ((name ++ equals :: rest).isEmpty = true ∨ (name ++ equals :: rest).head? = some hash) := by
  obtain ⟨c, s, hcs⟩ := List.exists_cons_of_ne_nil h.1
  have hc : name.head? ≠ some hash := h.2.2.2.2
  rw [hcs] at hc ⊢
  simpa using hc

/-- Both scanners of a setting line see its key and its trimmed value. -/
theorem parseLine_settingLine (h : ConfigKey.PlainName name) (value : Bytes) :
    parseLine (settingLine (name, value)) = some (name, trim value) := by
  simp only [parseLine]
  simp only [trim_settingLine h, if_neg (settingLine_not_skipped h _),
    Scanner.cut_append h.2.1, Option.map_some, trim_name h, trim_rdropWhile]

theorem exactValue_settingLine (h : ConfigKey.PlainName name) (value : Bytes) :
    exactValue name (settingLine (name, value)) = some (trim value) := by
  have hassoc : name ++ equals :: value.rdropWhile isBlank =
      (name ++ [equals]) ++ value.rdropWhile isBlank := by simp
  simp only [exactValue]
  simp only [trim_settingLine h, if_neg (settingLine_not_skipped h _)]
  rw [hassoc, if_pos (List.isPrefixOf_iff_prefix.mpr (List.prefix_append _ _)), List.drop_left,
    trim_rdropWhile]

/-- A line that `ExtractConfigValue` takes for a key is taken by the other scanners too, with
the same value. -/
theorem parseLine_of_exactValue (h : ConfigKey.PlainName name) {line v : Bytes}
    (hv : exactValue name line = some v) : parseLine line = some (name, v) := by
  unfold exactValue at hv
  unfold parseLine
  dsimp only at hv
  split at hv
  · cases hv
  · next hskip =>
    split at hv
    · next hpre =>
      obtain ⟨rest, hrest⟩ := List.isPrefixOf_iff_prefix.mp hpre
      have htrim : trim line = name ++ equals :: rest := by rw [← hrest]; simp
      rw [Option.some.injEq, ← hrest, List.drop_left] at hv
      simp only [if_neg hskip]
      rw [htrim, Scanner.cut_append h.2.1, Option.map_some, trim_name h, hv]
    · cases hv

theorem newline_not_mem_settingLine (h : ConfigKey.PlainName name) {value : Bytes}
    (hvalue : newline ∉ value) : newline ∉ settingLine (name, value) := by
  have heq : newline ≠ equals := by decide
  simp [settingLine, h.2.2.1, hvalue, heq]

/-- Read back, a setting line sets its own key to the first line of the value; the later lines
of the value are lines of their own. -/
theorem entries_settingLine (h : ConfigKey.PlainName name) (value : Bytes) :
    entries ((settingLine (name, value)).splitOn newline) =
      (name, trim (firstLine value)) :: entries (laterLines value) := by
  have hnl : newline ∉ name ++ [equals] := by
    simp [h.2.2.1]
    decide
  have hsplit : (settingLine (name, value)).splitOn newline =
      settingLine (name, firstLine value) :: laterLines value := by
    have := splitOn_newline_append hnl value
    simpa [settingLine] using this
  rw [hsplit, entries_cons]
  simp [entries, parseLine_settingLine h]

end SettingLine

/-! ## 2. The web daemon's reader -/

/-- A text on one line, without blanks around it. -/
def OneLine (text : Bytes) : Prop := newline ∉ text ∧ trim text = text

instance (text : Bytes) : Decidable (OneLine text) := inferInstanceAs (Decidable (_ ∧ _))

theorem oneLine_nil : OneLine [] := ⟨by simp, rfl⟩

theorem OneLine.firstLine {text : Bytes} (h : OneLine text) : trim (firstLine text) = text := by
  rw [firstLine_of_not_mem h.1, h.2]

theorem OneLine.laterLines {text : Bytes} (h : OneLine text) : laterLines text = [] :=
  laterLines_of_not_mem h.1

theorem extractConfigValue_eq (lines : List Bytes) (key : Bytes) :
    extractConfigValue lines key = LastWins.settle [] (lines.filterMap (exactValue key)) :=
  LastWins.foldl_settle (exactValue key) lines []

theorem exactValue_oneLine {name line v : Bytes} (hline : newline ∉ line)
    (h : exactValue name line = some v) : OneLine v := by
  simp only [exactValue] at h
  split at h
  · cases h
  · split at h
    · rw [Option.some.injEq] at h
      subst h
      exact ⟨fun hmem => hline (mem_of_mem_trim (List.mem_of_mem_drop (mem_of_mem_trim hmem))),
        trim_trim _⟩
    · cases h

theorem extractConfigValue_oneLine {lines : List Bytes} (hlines : ∀ line ∈ lines, newline ∉ line)
    (key : Bytes) : OneLine (extractConfigValue lines key) := by
  rw [extractConfigValue_eq, LastWins.settle]
  rcases hlast : (lines.filterMap (exactValue key)).getLast? with _ | v
  · exact oneLine_nil
  · obtain ⟨line, hmem, hv⟩ := List.mem_filterMap.mp (List.mem_of_getLast? hlast)
    exact exactValue_oneLine (hlines line hmem) hv

/-- Every line that sets the key is spelled `key=`, without blanks before the sign. -/
def SpelledExactly (name : Bytes) (lines : List Bytes) : Prop :=
  ∀ line ∈ lines, ∀ v, parseLine line = some (name, v) → exactValue name line = some v

theorem spelledExactly_rows (name : Bytes) (rows : List (ConfigKey × Bytes)) :
    SpelledExactly name (rows.map fun row => settingLine (row.1.name, row.2)) := by
  intro line hline v hparse
  obtain ⟨row, -, rfl⟩ := List.mem_map.mp hline
  rw [parseLine_settingLine row.1.name_plain, Option.some.injEq, Prod.mk.injEq] at hparse
  rw [← hparse.1, exactValue_settingLine row.1.name_plain, hparse.2]

/-- On lines spelled exactly, the two scanners find the same values for a key. -/
theorem filterMap_exactValue {name : Bytes} (hname : ConfigKey.PlainName name)
    {lines : List Bytes} (h : SpelledExactly name lines) :
    lines.filterMap (exactValue name) = valuesFor name lines := by
  rw [valuesFor, LastWins.readings, entries, List.filterMap_filterMap]
  apply List.filterMap_congr
  intro line hmem
  rcases hparse : parseLine line with _ | ⟨k, v⟩
  · rcases hv : exactValue name line with _ | v
    · rfl
    · rw [parseLine_of_exactValue hname hv] at hparse
      cases hparse
  · by_cases hk : k = name
    · subst hk
      rw [h line hmem v hparse]
      simp
    · rcases hv : exactValue name line with _ | v
      · simp [hk]
      · rw [parseLine_of_exactValue hname hv, Option.some.injEq, Prod.mk.injEq] at hparse
        exact absurd hparse.1.symm hk

theorem extractConfigValue_of_spelled {name : Bytes} (hname : ConfigKey.PlainName name)
    {lines : List Bytes} (h : SpelledExactly name lines) :
    extractConfigValue lines name = LastWins.settle [] (valuesFor name lines) := by
  rw [extractConfigValue_eq, filterMap_exactValue hname h]

/-! ## 3. The rewriting loop -/

section Rewrite

variable (table : List (Bytes × Bytes)) (lines : List Bytes)

theorem rewriteLines_eq :
    rewriteLines table lines =
      (lines.map fun line => ((replacementFor table line).map settingLine).getD line,
        lines.filterMap fun line => (replacementFor table line).map Prod.fst) := by
  induction lines with
  | nil => rfl
  | cons line lines ih =>
    rw [rewriteLines, ih]
    cases h : replacementFor table line <;> simp [h]

theorem chimeLines_eq :
    chimeLines table lines =
      (lines.map fun line => ((replacementFor table line).map settingLine).getD line) ++
        ((table.filter fun row => !(lines.filterMap fun line =>
          (replacementFor table line).map Prod.fst).contains row.1).map settingLine) := by
  rw [chimeLines, rewriteLines_eq]

variable {table lines}

theorem replacementFor_mem {line : Bytes} {row : Bytes × Bytes}
    (h : replacementFor table line = some row) :
    row ∈ table ∧ ∃ v, parseLine line = some (row.1, v) := by
  simp only [replacementFor] at h
  obtain ⟨⟨k, v⟩, hparse, hfind⟩ := Option.bind_eq_some_iff.mp h
  have hk : row.1 = k := by simpa using List.find?_some hfind
  exact ⟨List.mem_of_find?_eq_some hfind, v, by rw [hparse, hk]⟩

theorem replacementFor_eq_none_iff {line : Bytes} :
    replacementFor table line = none ↔ ∀ k v, parseLine line = some (k, v) → k ∉ table.map Prod.fst := by
  simp only [replacementFor]
  rcases hparse : parseLine line with _ | ⟨k, v⟩
  · simp
  · rw [Option.bind_some, List.find?_eq_none]
    constructor
    · rintro h k' v' heq hmem
      rw [Option.some.injEq, Prod.mk.injEq] at heq
      obtain ⟨row, hrow, hk⟩ := List.mem_map.mp hmem
      exact h row hrow (by simp [hk, heq.1])
    · rintro h row hrow hk
      exact h k v rfl (List.mem_map.mpr ⟨row, hrow, by simpa using hk⟩)

/-- A written line is an old line with no rewritten key or the setting line of a row. -/
theorem mem_chimeLines {line : Bytes} (h : line ∈ chimeLines table lines) :
    (line ∈ lines ∧ replacementFor table line = none) ∨
      ∃ row ∈ table, line = settingLine row := by
  rw [chimeLines_eq, List.mem_append] at h
  rcases h with h | h
  · obtain ⟨old, hold, heq⟩ := List.mem_map.mp h
    rcases hr : replacementFor table old with _ | row
    · rw [hr, Option.map_none, Option.getD_none] at heq
      exact Or.inl ⟨heq ▸ hold, heq ▸ hr⟩
    · rw [hr, Option.map_some, Option.getD_some] at heq
      exact Or.inr ⟨row, (replacementFor_mem hr).1, heq.symm⟩
  · obtain ⟨row, hrow, heq⟩ := List.mem_map.mp h
    exact Or.inr ⟨row, (List.mem_filter.mp hrow).1, heq.symm⟩

/-- Every row is written, in place of the lines with its key or at the end. -/
theorem settingLine_mem_chimeLines (hnodup : (table.map Prod.fst).Nodup) {row : Bytes × Bytes}
    (h : row ∈ table) : settingLine row ∈ chimeLines table lines := by
  rw [chimeLines_eq, List.mem_append]
  by_cases hseen : ∃ line ∈ lines, ∃ r, replacementFor table line = some r ∧ r.1 = row.1
  · obtain ⟨line, hline, r, hr, hkey⟩ := hseen
    have hrow : r = row :=
      List.inj_on_of_nodup_map hnodup (replacementFor_mem hr).1 h hkey
    exact Or.inl (List.mem_map.mpr ⟨line, hline, by rw [hr, hrow]; rfl⟩)
  · refine Or.inr (List.mem_map.mpr ⟨row, List.mem_filter.mpr ⟨h, ?_⟩, rfl⟩)
    simp only [Bool.not_eq_true', List.contains_eq_mem, decide_eq_false_iff_not,
      List.mem_filterMap, Option.map_eq_some_iff]
    rintro ⟨line, hline, r, hr, hkey⟩
    exact hseen ⟨line, hline, r, hr, hkey⟩

/-- The untouched lines are written in their old order. -/
theorem kept_sublist_chimeLines :
    (lines.filter fun line => (replacementFor table line).isNone).Sublist
      (chimeLines table lines) := by
  rw [chimeLines_eq]
  refine List.Sublist.trans ?_ (List.sublist_append_left _ _)
  induction lines with
  | nil => exact List.Sublist.slnil
  | cons line lines ih =>
    cases hr : replacementFor table line with
    | none => simpa [hr] using ih.cons_cons line
    | some row => simpa [hr] using ih.cons (settingLine row)

end Rewrite

/-! ## 4. Reading the written text back -/

theorem getlines_joinLines_ne_nil {ls : List Bytes} (h : ls ≠ []) :
    getlines (joinLines ls) = ls.flatMap fun l => l.splitOn newline := by
  rw [joinLines, if_neg (by simpa using h)]
  exact Scanner.lines_joinLines ls

theorem getlines_joinLines_of_clean {ls : List Bytes} (hne : ls ≠ [])
    (h : ∀ l ∈ ls, newline ∉ l) : getlines (joinLines ls) = ls := by
  rw [joinLines, if_neg (by simpa using hne)]
  exact Scanner.lines_joinLines_of_clean h

theorem entries_joinLines (ls : List Bytes) :
    entries (getlines (joinLines ls)) = ls.flatMap fun l => entries (l.splitOn newline) := by
  by_cases h : ls = []
  · subst h
    rfl
  · rw [getlines_joinLines_ne_nil h, entries_flatMap]

/-! ## 5. The seventeen managed keys -/

/-- The keys of `replacements`, in its order. -/
def managedKeys : List ConfigKey := [
  .mqtt_client_id, .mqtt_host, .mqtt_password, .mqtt_port, .mqtt_tls_ca_file,
  .mqtt_tls_cert_file, .mqtt_tls_enabled, .mqtt_tls_key_file, .mqtt_tls_validate_certificate,
  .mqtt_topics, .mqtt_username, .notification_failure_sound_path,
  .notification_success_sound_path, .ring_topic, .volume_bell, .volume_notifications,
  .volume_other]

/-- The text `replacements` gives a managed key. -/
def fieldText (config : CoreConfig) (mqttPassword : Bytes) : ConfigKey → Bytes
  | .mqtt_client_id => config.mqtt_client_id
  | .mqtt_host => config.mqtt_host
  | .mqtt_password => mqttPassword
  | .mqtt_port => toDecimal config.mqtt_port
  | .mqtt_tls_ca_file => config.mqtt_tls_ca_file
  | .mqtt_tls_cert_file => config.mqtt_tls_cert_file
  | .mqtt_tls_enabled => boolToConfig config.mqtt_tls_enabled
  | .mqtt_tls_key_file => config.mqtt_tls_key_file
  | .mqtt_tls_validate_certificate => boolToConfig config.mqtt_tls_validate_certificate
  | .mqtt_topics => joinCsv config.mqtt_topics
  | .mqtt_username => config.mqtt_username
  | .notification_failure_sound_path => config.notification_failure_sound_path
  | .notification_success_sound_path => config.notification_success_sound_path
  | .ring_topic => config.ring_topic
  | .volume_bell => toDecimal config.volume_bell
  | .volume_notifications => toDecimal config.volume_notifications
  | .volume_other => toDecimal config.volume_other
  | _ => []

theorem replacements_eq (config : CoreConfig) (mqttPassword : Bytes) :
    replacements config mqttPassword =
      managedKeys.map fun key => (key.name, fieldText config mqttPassword key) := rfl

theorem replacements_keys (config : CoreConfig) (mqttPassword : Bytes) :
    (replacements config mqttPassword).map Prod.fst = managedKeys.map ConfigKey.name := rfl

theorem managedKeys_names_nodup : (managedKeys.map ConfigKey.name).Nodup :=
  List.Nodup.map ConfigKey.name_injective (by decide)

theorem name_mem_managed_iff {key : ConfigKey} :
    key.name ∈ managedKeys.map ConfigKey.name ↔ key ∈ managedKeys :=
  List.mem_map_of_injective ConfigKey.name_injective

/-- The lines of the `chime.conf` a save writes over a file with the given text. -/
def savedLines (config : CoreConfig) (mqttPassword text : Bytes) : List Bytes :=
  getlines (joinLines (chimeLines (replacements config mqttPassword) (getlines text)))

theorem getlines_chimeContent (request : SaveRequest) (existing : CoreConfig) (text : Bytes) :
    getlines (chimeContent request existing (getlines text)) =
      savedLines request.config (savedMqttPassword request existing) text := rfl

theorem replacementFor_settingLine (config : CoreConfig) (mqttPassword value : Bytes)
    {key : ConfigKey} (managed : key ∈ managedKeys) :
    replacementFor (replacements config mqttPassword) (settingLine (key.name, value)) =
      some (key.name, fieldText config mqttPassword key) := by
  have hparse := parseLine_settingLine key.name_plain value
  rcases hr : replacementFor (replacements config mqttPassword)
    (settingLine (key.name, value)) with _ | row
  · refine absurd ?_ (replacementFor_eq_none_iff.mp hr _ _ hparse)
    rw [replacements_keys]
    exact name_mem_managed_iff.mpr managed
  · obtain ⟨hmem, v, hv⟩ := replacementFor_mem hr
    rw [replacements_eq] at hmem
    obtain ⟨k, -, rfl⟩ := List.mem_map.mp hmem
    rw [hparse, Option.some.injEq, Prod.mk.injEq] at hv
    rw [ConfigKey.name_injective hv.1]

section Saved

variable {β : Type} {key : ConfigKey} {read : Bytes → Option β} {config : CoreConfig}
  {mqttPassword text : Bytes}

/-- What a setting line says about a key: its first line if it is the key's own, then the
later lines of its value. -/
theorem readings_settingLine (g : ConfigKey) (value : Bytes) :
    LastWins.readings key.name read (entries ((settingLine (g.name, value)).splitOn newline)) =
      (if g = key then (read (trim (firstLine value))).toList else []) ++
        LastWins.readings key.name read (entries (laterLines value)) := by
  rw [entries_settingLine g.name_plain, LastWins.readings_cons]
  split
  · next h => rw [h, LastWins.readings_singleton_self]
  · next h => rw [LastWins.readings_singleton_ne (ConfigKey.name_injective.ne h)]

theorem readings_savedLines :
    LastWins.readings key.name read (entries (savedLines config mqttPassword text)) =
      ((chimeLines (replacements config mqttPassword) (getlines text)).map fun l =>
        LastWins.readings key.name read (entries (l.splitOn newline))).flatten := by
  rw [savedLines, entries_joinLines, LastWins.readings_flatMap]

theorem readings_kept {line : Bytes} (managed : key ∈ managedKeys) (hline : newline ∉ line)
    (hkept : replacementFor (replacements config mqttPassword) line = none) :
    LastWins.readings key.name read (entries (line.splitOn newline)) = [] := by
  rw [splitOn_newline_of_not_mem hline]
  apply LastWins.readings_eq_nil
  intro e he hkey
  obtain ⟨l, hl, hparse⟩ := List.mem_filterMap.mp he
  rw [List.mem_singleton] at hl
  rw [hl] at hparse
  apply replacementFor_eq_none_iff.mp hkept e.1 e.2 hparse
  rw [hkey, replacements_keys]
  exact name_mem_managed_iff.mpr managed

theorem readings_rewritten {line : Bytes} {row : Bytes × Bytes} (unmanaged : key ∉ managedKeys)
    (hrow : replacementFor (replacements config mqttPassword) line = some row) :
    LastWins.readings key.name read (entries [line]) = [] := by
  obtain ⟨hmem, v, hparse⟩ := replacementFor_mem hrow
  have hentries : entries [line] = [(row.1, v)] := by simp [entries, hparse]
  rw [hentries]
  refine LastWins.readings_singleton_ne (fun hkey => unmanaged ?_) v
  rw [← name_mem_managed_iff, ← hkey, ← replacements_keys config mqttPassword]
  exact List.mem_map_of_mem hmem

theorem settingLine_written {g : ConfigKey} (hg : g ∈ managedKeys) :
    settingLine (g.name, fieldText config mqttPassword g) ∈
      chimeLines (replacements config mqttPassword) (getlines text) := by
  apply settingLine_mem_chimeLines
  · rw [replacements_keys]
    exact managedKeys_names_nodup
  · rw [replacements_eq]
    exact List.mem_map_of_mem hg

/-- For a managed key, what the written lines say is what the setting lines say. -/
theorem mem_readings_savedLines {r : β} (managed : key ∈ managedKeys) :
    r ∈ LastWins.readings key.name read (entries (savedLines config mqttPassword text)) ↔
      read (trim (firstLine (fieldText config mqttPassword key))) = some r ∨
        ∃ g ∈ managedKeys, r ∈ LastWins.readings key.name read
          (entries (laterLines (fieldText config mqttPassword g))) := by
  rw [readings_savedLines, List.mem_flatten]
  constructor
  · rintro ⟨block, hblock, hr⟩
    obtain ⟨line, hline, rfl⟩ := List.mem_map.mp hblock
    rcases mem_chimeLines hline with ⟨hold, hkept⟩ | ⟨row, hrow, rfl⟩
    · rw [readings_kept managed (newline_not_mem_of_mem_getlines hold) hkept] at hr
      cases hr
    · rw [replacements_eq] at hrow
      obtain ⟨g, hg, rfl⟩ := List.mem_map.mp hrow
      rw [readings_settingLine, List.mem_append] at hr
      rcases hr with hr | hr
      · split at hr
        · next hkey =>
          subst hkey
          exact Or.inl (Option.mem_toList.mp hr)
        · cases hr
      · exact Or.inr ⟨g, hg, hr⟩
  · rintro (hr | ⟨g, hg, hr⟩)
    · refine ⟨_, List.mem_map_of_mem (settingLine_written managed), ?_⟩
      rw [readings_settingLine, if_pos rfl, hr]
      simp
    · refine ⟨_, List.mem_map_of_mem (settingLine_written hg), ?_⟩
      rw [readings_settingLine]
      exact List.mem_append_right _ hr

/-- If the own setting line of a managed key ends by saying `x`, and no other setting line ends
by saying anything else, the saved file says `x`. -/
theorem getLast?_savedLines {x : β} (managed : key ∈ managedKeys)
    (own : (LastWins.readings key.name read (entries
      ((settingLine (key.name, fieldText config mqttPassword key)).splitOn newline))).getLast? =
        some x)
    (others : ∀ g ∈ managedKeys, g ≠ key → ∀ y, (LastWins.readings key.name read
      (entries (laterLines (fieldText config mqttPassword g)))).getLast? = some y → y = x) :
    (LastWins.readings key.name read
      (entries (savedLines config mqttPassword text))).getLast? = some x := by
  rw [readings_savedLines]
  apply LastWins.getLast?_flatten_of_blocks
  · intro block hblock
    obtain ⟨line, hline, rfl⟩ := List.mem_map.mp hblock
    rcases mem_chimeLines hline with ⟨hold, hkept⟩ | ⟨row, hrow, rfl⟩
    · exact Or.inl (readings_kept managed (newline_not_mem_of_mem_getlines hold) hkept)
    · rw [replacements_eq] at hrow
      obtain ⟨g, hg, rfl⟩ := List.mem_map.mp hrow
      by_cases hkey : g = key
      · subst hkey
        exact Or.inr own
      · rw [readings_settingLine, if_neg hkey, List.nil_append]
        rcases hlast : (LastWins.readings key.name read
          (entries (laterLines (fieldText config mqttPassword g)))).getLast? with _ | y
        · exact Or.inl (List.getLast?_eq_none_iff.mp hlast)
        · exact Or.inr (by rw [others g hg hkey y hlast])
  · refine ⟨_, List.mem_map_of_mem (settingLine_written managed), fun hnil => ?_⟩
    rw [hnil] at own
    cases own

/-- If no setting line has later lines that speak about an unmanaged key, the saved file says
about it what the old one said. -/
theorem readings_savedLines_unmanaged (unmanaged : key ∉ managedKeys)
    (silent : ∀ g ∈ managedKeys, LastWins.readings key.name read
      (entries (laterLines (fieldText config mqttPassword g))) = []) :
    LastWins.readings key.name read (entries (savedLines config mqttPassword text)) =
      LastWins.readings key.name read (entries (getlines text)) := by
  have hrow : ∀ row ∈ replacements config mqttPassword, LastWins.readings key.name read
      (entries ((settingLine row).splitOn newline)) = [] := by
    intro row hrow
    rw [replacements_eq] at hrow
    obtain ⟨g, hg, rfl⟩ := List.mem_map.mp hrow
    have hne : g ≠ key := fun h => unmanaged (h ▸ hg)
    rw [readings_settingLine, if_neg hne, silent g hg, List.append_nil]
  have hline : ∀ line ∈ getlines text, ((fun l =>
      LastWins.readings key.name read (entries (l.splitOn newline))) ∘ fun line =>
        ((replacementFor (replacements config mqttPassword) line).map settingLine).getD line) line =
      LastWins.readings key.name read (entries [line]) := by
    intro line hmem
    rw [Function.comp_apply]
    rcases hr : replacementFor (replacements config mqttPassword) line with _ | row
    · rw [Option.map_none, Option.getD_none,
        splitOn_newline_of_not_mem (newline_not_mem_of_mem_getlines hmem)]
    · rw [Option.map_some, Option.getD_some, hrow row (replacementFor_mem hr).1,
        readings_rewritten unmanaged hr]
  have hold : entries (getlines text) = (getlines text).flatMap fun line => entries [line] := by
    rw [← entries_flatMap]
    simp
  rw [readings_savedLines, chimeLines_eq, List.map_append, List.flatten_append, List.map_map,
    List.map_congr_left hline, hold, LastWins.readings_flatMap]
  refine List.append_right_eq_self.mpr (List.flatten_eq_nil_iff.mpr fun block hblock => ?_)
  rw [List.map_map] at hblock
  obtain ⟨row, hmem, rfl⟩ := List.mem_map.mp hblock
  exact hrow row (List.mem_filter.mp hmem).1

end Saved

end VirtualChime.Webd
