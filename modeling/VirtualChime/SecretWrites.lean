import VirtualChime.SecretLines
import VirtualChime.WifiRoundTrip

/-!
# Rewriting files that differ in a secret

Over files that agree but for a secret the two writers of a save write files that
agree again but for the secret (`wpaContent_same`, `chimeContent_same`), or refuse
alike.  A secret that is kept comes from a line of the old file, so that it stays on one
line of the new one; everything else that is written is the same text in both files.
-/

namespace VirtualChime.Webd

open Config

/-! ## 1. Lines to be written -/

/-- Two lines to be written: equal, or on one line each and the same but for the secret. -/
def Written (key : Bytes) (unquote : Bytes → Bytes) (line line' : Bytes) : Prop :=
  line = line' ∨ SameLine key unquote line line' ∧ newline ∉ line ∧ newline ∉ line'

section Written

variable {key : Bytes} {unquote : Bytes → Bytes}

theorem Written.refl (line : Bytes) : Written key unquote line line := Or.inl rfl

theorem Written.sameLine {line line' : Bytes} (h : Written key unquote line line') :
    SameLine key unquote line line' := by
  rcases h with rfl | ⟨hsame, -, -⟩
  · exact .same line
  · exact hsame

theorem written_of_sameLine {lines lines' : List Bytes}
    (h : List.Forall₂ (SameLine key unquote) lines lines') (hclean : ∀ line ∈ lines, newline ∉ line)
    (hclean' : ∀ line ∈ lines', newline ∉ line) :
    List.Forall₂ (Written key unquote) lines lines' := by
  induction h with
  | nil => exact List.Forall₂.nil
  | @cons line line' lines lines' hline _ ih =>
    obtain ⟨hfirst, hrest⟩ := List.forall_mem_cons.mp hclean
    obtain ⟨hfirst', hrest'⟩ := List.forall_mem_cons.mp hclean'
    exact List.Forall₂.cons (Or.inr ⟨hline, hfirst, hfirst'⟩) (ih hrest hrest')

theorem splitOn_written {line line' : Bytes} (h : Written key unquote line line') :
    List.Forall₂ (SameLine key unquote) (line.splitOn newline) (line'.splitOn newline) := by
  rcases h with rfl | ⟨hsame, hclean, hclean'⟩
  · exact List.forall₂_same.mpr fun l _ => .same l
  · rw [splitOn_newline_of_not_mem hclean, splitOn_newline_of_not_mem hclean']
    exact List.Forall₂.cons hsame List.Forall₂.nil

/-- Read back, the written lines agree but for the secret. -/
theorem getlines_written {lines lines' : List Bytes}
    (h : List.Forall₂ (Written key unquote) lines lines') :
    List.Forall₂ (SameLine key unquote) (getlines (joinLines lines))
      (getlines (joinLines lines')) := by
  cases h with
  | nil => exact List.forall₂_same.mpr fun l _ => .same l
  | @cons line line' lines lines' hline hlines =>
    simp only [joinLines, List.isEmpty_cons, Bool.false_eq_true, if_false, getlines,
      Scanner.lines_joinLines]
    exact List.rel_flatMap (List.Forall₂.cons hline hlines) fun _ _ h => splitOn_written h

end Written

/-! ## 2. Writing `wpa_supplicant.conf` -/

theorem quotedLine_written {psk psk' : Bytes} (blank : BothBlank psk psk') (hclean : newline ∉ psk)
    (hclean' : newline ∉ psk') :
    Written pskKey stripQuotes (quotedLine (bytes "psk") psk) (quotedLine (bytes "psk") psk') := by
  refine Or.inr ⟨?_, newline_not_mem_quotedLine (by decide) hclean,
    newline_not_mem_quotedLine (by decide) hclean'⟩
  apply SameLine.secret (by decide) (by decide)
  rw [stripQuotes_quoteForWpa, stripQuotes_quoteForWpa]
  exact blank

/-- Both saves refuse alike, or write the posted passphrase, or each its own. -/
theorem savedWifiPassword_same (request : SaveRequest) {psk psk' : Bytes}
    (h : BothBlank psk psk') :
    (∃ message, savedWifiPassword request psk = .error message ∧
        savedWifiPassword request psk' = .error message) ∨
      (∃ password, savedWifiPassword request psk = .ok password ∧
        savedWifiPassword request psk' = .ok password) ∨
      savedWifiPassword request psk = .ok psk ∧ savedWifiPassword request psk' = .ok psk' := by
  simp only [savedWifiPassword, ← h.isEmpty]
  split
  · split
    · split
      · exact Or.inl ⟨_, rfl, rfl⟩
      · exact Or.inr (Or.inr ⟨rfl, rfl⟩)
    · exact Or.inr (Or.inl ⟨_, rfl, rfl⟩)
  · split
    · exact Or.inl ⟨_, rfl, rfl⟩
    · exact Or.inr (Or.inr ⟨rfl, rfl⟩)

theorem SameLine.wpaKey {line line' : Bytes} (h : SameLine pskKey stripQuotes line line') :
    line = line' ∨ ∃ v v', wpaSetting line = some (pskKey, v) ∧ wpaSetting line' = some (pskKey, v')
    := by
  cases h with
  | same => exact Or.inl rfl
  | secret key_eq first _ =>
    exact Or.inr ⟨_, _, wpaSetting_secret key_eq pskKey_plain first _,
      wpaSetting_secret key_eq pskKey_plain first _⟩

theorem SameLine.hasWpaKey_eq {line line' : Bytes} (h : SameLine pskKey stripQuotes line line')
    (key : Bytes) : hasWpaKey key line = hasWpaKey key line' := by
  rcases h.wpaKey with rfl | ⟨v, v', hv, hv'⟩
  · rfl
  · rw [hasWpaKey, hasWpaKey, hv, hv']
    rfl

theorem rewriteWpaLine_written {ssidLine pskLine pskLine' line line' : Bytes}
    (hpsk : Written pskKey stripQuotes pskLine pskLine')
    (h : Written pskKey stripQuotes line line') :
    Written pskKey stripQuotes (rewriteWpaLine ssidLine pskLine line)
      (rewriteWpaLine ssidLine pskLine' line') := by
  rcases h.sameLine.wpaKey with rfl | ⟨v, v', hv, hv'⟩
  · unfold rewriteWpaLine
    split
    · exact .refl _
    · split
      · exact .refl _
      · split
        · exact hpsk
        · exact .refl _
  · have hne : ¬ pskKey = bytes "ssid" := by decide
    have heq : pskKey = bytes "psk" := rfl
    simp only [rewriteWpaLine, hv, hv', if_neg hne, if_pos heq]
    exact hpsk

theorem Written.blank {line line' : Bytes} (h : Written pskKey stripQuotes line line') :
    BothBlank line line' := by
  cases h.sameLine with
  | same => exact bothBlank_refl line
  | secret _ _ _ => simp [BothBlank]

theorem getLast?_written {lines lines' : List Bytes}
    (h : List.Forall₂ (Written pskKey stripQuotes) lines lines') :
    lines.getLast? = some [] ↔ lines'.getLast? = some [] := by
  have hreverse := List.forall₂_reverse_iff.mpr h
  rw [← List.head?_reverse, ← List.head?_reverse]
  generalize lines.reverse = reversed, lines'.reverse = reversed' at hreverse ⊢
  cases hreverse with
  | nil => exact Iff.rfl
  | cons hline _ =>
    rw [List.head?_cons, List.head?_cons, Option.some.injEq, Option.some.injEq]
    exact hline.blank

section WpaLines

variable {ssidLine pskLine pskLine' : Bytes} {parsed parsed' : WpaData} {lines lines' : List Bytes}
  (hpsk : Written pskKey stripQuotes pskLine pskLine') (hparsed : SameWpaData parsed parsed')
  (h : List.Forall₂ (Written pskKey stripQuotes) lines lines')

include hpsk h

theorem appendBlock_written :
    List.Forall₂ (Written pskKey stripQuotes) (appendBlock ssidLine pskLine lines)
      (appendBlock ssidLine pskLine' lines') := by
  have hempty : lines.isEmpty = lines'.isEmpty := by
    cases h with
    | nil => rfl
    | cons _ _ => rfl
  have hlast : (lines.getLast? != some []) = (lines'.getLast? != some []) := by
    have hiff := getLast?_written h
    by_cases hblank : lines.getLast? = some []
    · rw [hblank, hiff.mp hblank]
    · rw [bne_iff_ne.mpr hblank, bne_iff_ne.mpr fun heq => hblank (hiff.mpr heq)]
  have hfront : List.Forall₂ (Written pskKey stripQuotes)
      (if !lines.isEmpty && lines.getLast? != some [] then lines ++ [[]] else lines)
      (if !lines'.isEmpty && lines'.getLast? != some [] then lines' ++ [[]] else lines') := by
    rw [hempty, hlast]
    split
    · exact List.rel_append h (List.forall₂_same.mpr fun l _ => .refl l)
    · exact h
  rw [appendBlock, appendBlock]
  exact List.rel_append hfront
    (.cons (.refl _) (.cons (.refl _) (.cons hpsk (.cons (.refl _) .nil))))

include hparsed

/-- The rewritten lines agree but for the key. -/
theorem wpaLines_written :
    List.Forall₂ (Written pskKey stripQuotes) (wpaLines ssidLine pskLine parsed lines)
      (wpaLines ssidLine pskLine' parsed' lines') := by
  by_cases hblock : parsed.has_network_block = true
  · have hwritten : ∀ key, (lines.zipIdx.any fun entry =>
        inBlock parsed.block_start parsed.block_end entry.2 && hasWpaKey key entry.1) =
        lines'.zipIdx.any fun entry =>
          inBlock parsed.block_start parsed.block_end entry.2 && hasWpaKey key entry.1 := by
      intro key
      apply TwoRuns.any_zipIdx_congr h
      intro i line line' hline
      rw [hline.sameLine.hasWpaKey_eq key]
    have hrewritten : List.Forall₂ (Written pskKey stripQuotes)
        (lines.mapIdx fun i line => if inBlock parsed.block_start parsed.block_end i then
          rewriteWpaLine ssidLine pskLine line else line)
        (lines'.mapIdx fun i line => if inBlock parsed.block_start parsed.block_end i then
          rewriteWpaLine ssidLine pskLine' line else line) := by
      apply TwoRuns.forall₂_mapIdx h
      intro i line line' hline
      split
      · exact rewriteWpaLine_written hpsk hline
      · exact hline
    rw [wpaLines_inBlock ssidLine pskLine hblock lines,
      wpaLines_inBlock ssidLine pskLine' (hparsed.has_network_block ▸ hblock) lines',
      ← hparsed.block_start, ← hparsed.block_end]
    simp only [hwritten]
    split
    · split
      · exact hrewritten
      · exact TwoRuns.forall₂_insertIdx hrewritten (.refl ssidLine) _
    · split
      · exact TwoRuns.forall₂_insertIdx hrewritten hpsk _
      · exact TwoRuns.forall₂_insertIdx
          (TwoRuns.forall₂_insertIdx hrewritten (.refl ssidLine) _) hpsk _
  · rw [Bool.not_eq_true] at hblock
    rw [wpaLines_append ssidLine pskLine hblock,
      wpaLines_append ssidLine pskLine' (hparsed.has_network_block ▸ hblock)]
    exact appendBlock_written hpsk h

end WpaLines

theorem wpaBase_same {lines lines' : List Bytes} (h : SameWpa lines lines') :
    SameWpa (wpaBase lines) (wpaBase lines') := by
  cases h with
  | nil => exact List.forall₂_same.mpr fun l _ => .same l
  | cons hline hlines => exact List.Forall₂.cons hline hlines

/-- The two saves fail alike, or write files that agree but for the key. -/
theorem wpaContent_same (request : SaveRequest) {lines lines' : List Bytes}
    (h : SameWpa lines lines') (hclean : ∀ line ∈ lines, newline ∉ line)
    (hclean' : ∀ line ∈ lines', newline ∉ line) :
    (∃ message, wpaContent request lines = .error message ∧
        wpaContent request lines' = .error message) ∨
      ∃ content content', wpaContent request lines = .ok content ∧
        wpaContent request lines' = .ok content' ∧
        SameWpa (getlines content) (getlines content') := by
  have hbase := wpaBase_same h
  have hlines := written_of_sameLine hbase (newline_not_mem_wpaBase hclean)
    (newline_not_mem_wpaBase hclean')
  have hblank := (parseWpaData_same h).psk
  have hpsk := (newline_not_mem_parseWpaData hclean).2
  have hpsk' := (newline_not_mem_parseWpaData hclean').2
  have hfile : ∀ password password',
      Written pskKey stripQuotes (quotedLine (bytes "psk") password)
        (quotedLine (bytes "psk") password') →
      SameWpa
        (getlines (joinLines (savedWpaLines request.config.wifi_ssid password (wpaBase lines))))
        (getlines (joinLines (savedWpaLines request.config.wifi_ssid password' (wpaBase lines')))) :=
    fun _ _ hpsk => getlines_written (wpaLines_written hpsk (parseWpaData_same hbase) hlines)
  rw [wpaContent_eq, wpaContent_eq]
  rcases savedWifiPassword_same request hblank with
    ⟨message, herror, herror'⟩ | ⟨password, hok, hok'⟩ | ⟨hok, hok'⟩
  · rw [herror, herror']
    exact Or.inl ⟨message, rfl, rfl⟩
  · rw [hok, hok']
    exact Or.inr ⟨_, _, rfl, rfl, hfile password password (.refl _)⟩
  · rw [hok, hok']
    exact Or.inr ⟨_, _, rfl, rfl, hfile _ _ (quotedLine_written hblank hpsk hpsk')⟩

/-! ## 3. Writing `chime.conf` -/

/-- Two texts of the MQTT password that may be written: the posted one, or each device's own. -/
def SamePassword (password password' : Bytes) : Prop :=
  password = password' ∨
    newline ∉ password ∧ newline ∉ password' ∧ BothBlank (trim password) (trim password')

theorem passwordLine_written {password password' : Bytes} (h : SamePassword password password') :
    Written passwordKey trim (settingLine (passwordKey, password))
      (settingLine (passwordKey, password')) := by
  rcases h with rfl | ⟨hclean, hclean', blank⟩
  · exact .refl _
  · exact Or.inr ⟨.secret (trim_name passwordKey_plain) passwordKey_plain.2.1 blank,
      newline_not_mem_settingLine passwordKey_plain hclean,
      newline_not_mem_settingLine passwordKey_plain hclean'⟩

/-- Two rows with one key, whose setting lines agree but for the password. -/
def SameRow (row row' : Bytes × Bytes) : Prop :=
  row.1 = row'.1 ∧ Written passwordKey trim (settingLine row) (settingLine row')

theorem sameRow_refl (row : Bytes × Bytes) : SameRow row row := ⟨rfl, .refl _⟩

theorem replacements_same (config : CoreConfig) {password password' : Bytes}
    (h : SamePassword password password') :
    List.Forall₂ SameRow (replacements config password) (replacements config password') := by
  refine .cons (sameRow_refl _) (.cons (sameRow_refl _) (.cons ⟨rfl, passwordLine_written h⟩ ?_))
  exact List.forall₂_same.mpr fun row _ => sameRow_refl row

section Table

variable {table table' : List (Bytes × Bytes)} (htable : List.Forall₂ SameRow table table')

include htable

theorem find?_same (key : Bytes) :
    Option.Rel SameRow (table.find? fun row => row.1 = key)
      (table'.find? fun row => row.1 = key) := by
  induction htable with
  | nil => exact Option.Rel.none
  | cons hrow _ ih =>
    rw [List.find?_cons, List.find?_cons, hrow.1]
    split
    · exact Option.Rel.some hrow
    · exact ih

theorem replacementFor_same {line line' : Bytes} (h : SameLine passwordKey trim line line') :
    Option.Rel SameRow (replacementFor table line) (replacementFor table' line') := by
  unfold replacementFor
  cases h with
  | same =>
    cases parseLine line with
    | none => exact Option.Rel.none
    | some entry => exact find?_same htable entry.1
  | secret key_eq first _ =>
    rw [parseLine_secret key_eq passwordKey_plain first,
      parseLine_secret key_eq passwordKey_plain first]
    exact find?_same htable passwordKey

theorem rewriteLines_same {lines lines' : List Bytes}
    (h : List.Forall₂ (Written passwordKey trim) lines lines') :
    List.Forall₂ (Written passwordKey trim) (rewriteLines table lines).1
        (rewriteLines table' lines').1 ∧
      (rewriteLines table lines).2 = (rewriteLines table' lines').2 := by
  induction h with
  | nil => exact ⟨List.Forall₂.nil, rfl⟩
  | @cons line line' lines lines' hline _ ih =>
    obtain ⟨hlines, hseen⟩ := ih
    have hrow := replacementFor_same htable hline.sameLine
    simp only [rewriteLines]
    generalize replacementFor table line = found, replacementFor table' line' = found' at hrow ⊢
    cases hrow with
    | none => exact ⟨List.Forall₂.cons hline hlines, hseen⟩
    | @some row row' hrow =>
      refine ⟨List.Forall₂.cons hrow.2 hlines, ?_⟩
      dsimp only
      rw [hseen, hrow.1]

theorem chimeLines_written {lines lines' : List Bytes}
    (h : List.Forall₂ (Written passwordKey trim) lines lines') :
    List.Forall₂ (Written passwordKey trim) (chimeLines table lines) (chimeLines table' lines') := by
  obtain ⟨hlines, hseen⟩ := rewriteLines_same htable h
  have hadded : List.Forall₂ SameRow
      (table.filter fun row => !(rewriteLines table lines).2.contains row.1)
      (table'.filter fun row => !(rewriteLines table' lines').2.contains row.1) := by
    refine List.rel_filter ?_ htable
    intro row row' hrow
    dsimp only
    rw [hseen, hrow.1]
  exact List.rel_append hlines (List.rel_map (fun _ _ hrow => hrow.2) hadded)

end Table

theorem SameConfig.username {config config' : CoreConfig} (h : SameConfig config config') :
    config.mqtt_username = config'.mqtt_username := by
  have heq := congrArg CoreConfig.mqtt_username h.others
  exact heq

/-- Which password is written depends on the stored one only in being it. -/
theorem savedMqttPassword_same (request : SaveRequest) {lines lines' : List Bytes}
    (h : SameChime lines lines') (hclean : ∀ line ∈ lines, newline ∉ line)
    (hclean' : ∀ line ∈ lines', newline ∉ line) :
    SamePassword (savedMqttPassword request (readChimeLines lines))
      (savedMqttPassword request (readChimeLines lines')) := by
  have hconfig := readChimeLines_same h
  have hstored : SamePassword (readChimeLines lines).mqtt_password
      (readChimeLines lines').mqtt_password := by
    have holds : OneLine (readChimeLines lines).mqtt_password := extractConfigValue_oneLine hclean _
    have holds' : OneLine (readChimeLines lines').mqtt_password :=
      extractConfigValue_oneLine hclean' _
    refine Or.inr ⟨holds.1, holds'.1, ?_⟩
    rw [holds.2, holds'.2]
    exact hconfig.password
  simp only [savedMqttPassword, hconfig.username]
  split
  · exact Or.inl rfl
  · split
    · split
      · split
        · exact Or.inl rfl
        · exact hstored
      · exact Or.inl rfl
    · split
      · exact Or.inl rfl
      · exact hstored

theorem chimeContent_same (request : SaveRequest) {lines lines' : List Bytes}
    (h : SameChime lines lines') (hclean : ∀ line ∈ lines, newline ∉ line)
    (hclean' : ∀ line ∈ lines', newline ∉ line) :
    SameChime (getlines (chimeContent request (readChimeLines lines) lines))
      (getlines (chimeContent request (readChimeLines lines') lines')) := by
  have hpassword := savedMqttPassword_same request h hclean hclean'
  exact getlines_written (chimeLines_written (replacements_same request.config hpassword)
    (written_of_sameLine h hclean hclean'))

end VirtualChime.Webd
