import VirtualChime.SaveRoundTrip
import VirtualChime.WifiRoundTrip

/-!
# What `wpa_supplicant` reads

`wpa_supplicant` has a value syntax of its own: a quoted value is the raw bytes
up to the last quote of the line, without escapes, and an unquoted one is
hexadecimal.  Read that way, a saved file says what the user entered exactly when
the new texts hold no quote, backslash or line end, and a stored passphrase that
is kept was a quoted one already written with `QuoteForWpa`'s escapes
(`wifi_means_iff`).
-/

namespace VirtualChime.Webd

/-! ## 1. The value syntax -/

/-- The bytes between a first quote and the last one. -/
def quotedText : Bytes → Option Bytes
  | [] => none
  | c :: rest =>
      let inside := rest.rdropWhile (· != quote)
      if c = quote ∧ inside ≠ [] then some inside.dropLast else none

/-- Two hexadecimal digits for each byte. -/
def hexBytes : Bytes → Option Bytes
  | [] => some []
  | [_] => none
  | high :: low :: rest =>
      (hexDigit high).bind fun h => (hexDigit low).bind fun l =>
        (hexBytes rest).map fun bytes => UInt8.ofNat (16 * h + l) :: bytes

inductive Credential where
  | passphrase (text : Bytes)
  | rawKey (key : Bytes)
deriving DecidableEq, Repr

def readSsid (value : Bytes) : Option Bytes :=
  if value.head? = some quote then quotedText value else hexBytes value

def readPsk (value : Bytes) : Option Credential :=
  if value.head? = some quote then (quotedText value).map .passphrase
  else if value.length = 64 then (hexBytes value).map .rawKey
  else none

/-- The network name of the first block: the last setting counts. -/
def networkSsid (lines : List Bytes) : Option Bytes :=
  (wpaValues (bytes "ssid") (blockLines lines)).getLast?.bind readSsid

def networkPsk (lines : List Bytes) : Option Credential :=
  (wpaValues (bytes "psk") (blockLines lines)).getLast?.bind readPsk

theorem quotedText_eq_some_iff {value text : Bytes} :
    quotedText value = some text ↔
      ∃ junk, value = quote :: text ++ quote :: junk ∧ quote ∉ junk := by
  constructor
  · intro h
    cases value with
    | nil => cases h
    | cons c rest =>
      simp only [quotedText] at h
      split at h
      · next hquoted =>
        obtain ⟨rfl, hne⟩ := hquoted
        have hlast := List.rdropWhile_last_not (fun x => x != quote) rest hne
        simp only [bne_iff_ne, ne_eq, Decidable.not_not] at hlast
        have hinside := List.dropLast_append_getLast hne
        rw [hlast, Option.some.inj h] at hinside
        have hjunk := List.rdropWhile_append_rtakeWhile (p := fun x => x != quote) (l := rest)
        refine ⟨rest.rtakeWhile (· != quote), ?_, ?_⟩
        · rw [← hjunk]
          conv_lhs => rw [← hinside]
          simp
        · intro hmem
          simpa using List.mem_rtakeWhile_imp hmem
      · cases h
  · rintro ⟨junk, rfl, hjunk⟩
    have hdrop : (text ++ quote :: junk).rdropWhile (· != quote) = text ++ [quote] := by
      rw [Scanner.rdropWhile_append_cons (by simp), List.rdropWhile_eq_nil_iff.mpr]
      intro c hc
      simpa using fun heq : c = quote => hjunk (heq ▸ hc)
    simp only [quotedText, List.cons_append]
    rw [hdrop, if_pos (by simp), List.dropLast_concat]

theorem quotedText_quoted (inner : Bytes) :
    quotedText (quote :: inner ++ [quote]) = some inner :=
  quotedText_eq_some_iff.mpr ⟨[], rfl, by simp⟩

theorem length_hexBytes {value out : Bytes} (h : hexBytes value = some out) :
    value.length = 2 * out.length := by
  fun_induction hexBytes value generalizing out with
  | case1 =>
    rw [← Option.some.inj h]
    rfl
  | case2 => cases h
  | case3 high low rest ih =>
    obtain ⟨_, _, h⟩ := Option.bind_eq_some_iff.mp h
    obtain ⟨_, _, h⟩ := Option.bind_eq_some_iff.mp h
    obtain ⟨bytes, hbytes, rfl⟩ := Option.map_eq_some_iff.mp h
    simp only [List.length_cons, ih hbytes]
    omega

theorem readSsid_quoteForWpa (value : Bytes) : readSsid (quoteForWpa value) = some (escape value) := by
  rw [readSsid, quoteForWpa_eq, if_pos (by simp), quotedText_quoted]

theorem readPsk_quoteForWpa (value : Bytes) :
    readPsk (quoteForWpa value) = some (.passphrase (escape value)) := by
  rw [readPsk, quoteForWpa_eq, if_pos (by simp), quotedText_quoted, Option.map_some]

/-- A passphrase is a part of the value it is read from. -/
theorem mem_of_readPsk {value text : Bytes} (h : readPsk value = some (.passphrase text)) {c : Byte}
    (hc : c ∈ text) : c ∈ value := by
  rw [readPsk] at h
  split at h
  · obtain ⟨t, ht, heq⟩ := Option.map_eq_some_iff.mp h
    obtain ⟨junk, rfl, -⟩ := quotedText_eq_some_iff.mp ht
    rw [Credential.passphrase.inj heq]
    simp [hc]
  · split at h
    · obtain ⟨_, _, heq⟩ := Option.map_eq_some_iff.mp h
      cases heq
    · cases h

/-! ## 2. Texts that mean themselves -/

/-- A text without quote, backslash and line end. -/
def PlainText (text : Bytes) : Prop := quote ∉ text ∧ backslash ∉ text ∧ newline ∉ text

instance (text : Bytes) : Decidable (PlainText text) := inferInstanceAs (Decidable (_ ∧ _ ∧ _))

theorem escape_eq_self_iff {text : Bytes} :
    escape text = text ↔ quote ∉ text ∧ backslash ∉ text := by
  induction text with
  | nil => simp [escape]
  | cons c text ih =>
    rw [escape_cons]
    split
    · next hc =>
      constructor
      · intro h
        -- one byte of escape more than the text has
        have hcut := (List.cons.inj h).2
        have hlen := congrArg List.length hcut
        have hle := le_length_escape text
        simp only [List.length_cons] at hlen
        omega
      · rintro ⟨hquote, hbackslash⟩
        rcases hc with rfl | rfl
        · exact absurd (List.mem_cons_self ..) hbackslash
        · exact absurd (List.mem_cons_self ..) hquote
    · next hc =>
      rw [List.cons.injEq, List.mem_cons, List.mem_cons]
      simp only [not_or] at hc
      simp [ih, Ne.symm hc.1, Ne.symm hc.2]

/-- Every backslash is followed by a backslash or a quote, and no quote stands alone: a text that
`QuoteForWpa` could have written between its quotes. -/
def isEscaped : Bytes → Bool
  | [] => true
  | [c] => c != backslash && c != quote
  | c :: d :: rest =>
      if c = backslash then (d == backslash || d == quote) && isEscaped rest
      else c != quote && isEscaped (d :: rest)

theorem isEscaped_iff {inner : Bytes} :
    isEscaped inner = true ↔ escape (unescape false inner) = inner := by
  fun_induction isEscaped inner with
  | case1 => simp [unescape, escape]
  | case2 c =>
    by_cases hc : c = backslash
    · subst hc
      decide
    · rw [unescape, if_neg hc, escape_cons]
      by_cases hquote : c = quote
      · subst hquote
        decide
      · simp [hc, hquote, unescape, escape]
  | case3 d rest ih =>
    rw [unescape, if_pos rfl, unescape, escape_cons]
    by_cases hd : d = backslash ∨ d = quote
    · rw [if_pos hd, List.cons.injEq, List.cons.injEq, ← ih]
      simp [hd]
    · rw [if_neg hd]
      simp only [not_or] at hd
      simp [hd]
  | case4 c d rest hc ih =>
    rw [unescape, if_neg hc, escape_cons]
    by_cases hquote : c = quote
    · have hne : backslash ≠ quote := by decide
      simp [hquote, hne]
    · rw [if_neg (by simp [hc, hquote]), List.cons.injEq, ← ih]
      simp [hquote]

/-- The stored passphrase is a quoted one with `QuoteForWpa`'s escapes. -/
def StoredEscaped (lines : List Bytes) : Prop :=
  ∃ inner, (wpaValues (bytes "psk") (blockLines lines)).getLast? = some (quote :: inner ++ [quote]) ∧
    isEscaped inner = true

/-- Written again, a stored value keeps its meaning exactly if it is an escaped quoted one. -/
theorem readPsk_stored_iff {value : Bytes} (htrim : trim value = value) :
    readPsk value = some (.passphrase (escape (stripQuotes value))) ↔
      ∃ inner, value = quote :: inner ++ [quote] ∧ isEscaped inner = true := by
  constructor
  · intro h
    rw [readPsk] at h
    split at h
    · obtain ⟨text, htext, heq⟩ := Option.map_eq_some_iff.mp h
      rw [Credential.passphrase.injEq] at heq
      obtain ⟨junk, rfl, hjunk⟩ := quotedText_eq_some_iff.mp htext
      rcases List.eq_nil_or_concat junk with rfl | ⟨front, c, rfl⟩
      · rw [stripQuotes_quoted] at heq
        exact ⟨text, rfl, isEscaped_iff.mpr heq.symm⟩
      · -- without a quote at its end the value is escaped whole, which makes it longer
        have hlast : (quote :: text ++ quote :: (front ++ [c])).getLast? ≠ some quote := by
          have hc : c ≠ quote := fun h => hjunk (by simp [h])
          rw [← List.cons_append, ← List.append_assoc, List.getLast?_concat]
          simpa using hc
        have hstrip : stripQuotes (quote :: text ++ quote :: (front ++ [c])) =
            quote :: text ++ quote :: (front ++ [c]) := by
          simp only [stripQuotes]
          rw [List.concat_eq_append] at htrim
          rw [htrim, if_pos (Or.inr (Or.inr hlast))]
        rw [List.concat_eq_append, hstrip] at heq
        have hle := le_length_escape (quote :: text ++ quote :: (front ++ [c]))
        rw [← heq] at hle
        simp only [List.length_append, List.length_cons] at hle
        omega
    · split at h
      · obtain ⟨_, _, heq⟩ := Option.map_eq_some_iff.mp h
        cases heq
      · cases h
  · rintro ⟨inner, rfl, hescaped⟩
    rw [stripQuotes_quoted, isEscaped_iff.mp hescaped, readPsk, if_pos (by simp), quotedText_quoted,
      Option.map_some]

/-! ## 3. What the written file means -/

section Written

variable {ssid password : Bytes} {lines : List Bytes}

theorem flatMap_splitOn_of_clean {ls : List Bytes} (h : ∀ line ∈ ls, newline ∉ line) :
    ls.flatMap (fun line => line.splitOn newline) = ls := by
  rw [← Scanner.lines_joinLines, Scanner.lines_joinLines_of_clean h]

/-- A line of the first block that is read back is part of a line that was written to it. -/
theorem mem_blockLines_written (hblock : hasClosedBlock lines = true)
    (hlines : ∀ line ∈ lines, newline ∉ line) {line : Bytes}
    (h : line ∈ blockLines (getlines (joinLines (savedWpaLines ssid password lines)))) :
    ∃ written ∈ savedBlock ssid password (blockLines lines),
      line ∈ written.splitOn newline := by
  rw [getlines_joinLines_ne_nil (savedWpaLines_ne_nil lines)] at h
  cases layout lines with
  | noBlock hbefore =>
    rw [hasClosedBlock_of_noBlock hbefore] at hblock
    cases hblock
  | unclosed before opening body hbefore hopening hbody =>
    rw [hasClosedBlock_of_opening hbefore hopening] at hblock
    obtain ⟨l, hl, hclose⟩ := List.any_eq_true.mp hblock
    rw [hbody l hl] at hclose
    cases hclose
  | closed before opening body closing after hbefore hopening hbody hclosing =>
    rw [List.forall_mem_append, List.forall_mem_cons, List.forall_mem_append] at hlines
    obtain ⟨hcleanBefore, hcleanOpening, -, hcleanAfter⟩ := hlines
    have hopen := splitOn_newline_of_not_mem hcleanOpening
    rw [savedWpaLines_closed ssid password hbefore hopening hbody hclosing, List.flatMap_append,
      List.flatMap_cons, List.flatMap_append, flatMap_splitOn_of_clean hcleanBefore,
      flatMap_splitOn_of_clean hcleanAfter, hopen, List.singleton_append,
      blockLines_of_opening hbefore hopening] at h
    rw [blockLines_of_opening hbefore hopening, takeWhile_closed hbody hclosing]
    generalize hblockText : (savedBlock ssid password body).flatMap
      (fun l => l.splitOn newline) = pieces at h
    have hmem : line ∈ pieces := by
      rw [List.takeWhile_append] at h
      split at h
      · rwa [List.takeWhile_cons, if_neg (by simp [hclosing]), List.append_nil] at h
      · exact (List.takeWhile_sublist _).mem h
    rw [← hblockText] at hmem
    exact List.mem_flatMap.mp hmem

/-- A passphrase that is read holds no line end. -/
theorem newline_not_mem_of_networkPsk {text : Bytes} {file : List Bytes}
    (hfile : ∀ line ∈ file, newline ∉ line)
    (h : networkPsk file = some (.passphrase text)) : newline ∉ text := by
  obtain ⟨value, hlast, hread⟩ := Option.bind_eq_some_iff.mp h
  obtain ⟨line, hline, hsetting⟩ := mem_wpaValues.mp (List.mem_of_getLast? hlast)
  intro hmem
  exact hfile line (mem_of_mem_blockLines hline)
    (mem_of_wpaSetting hsetting (mem_of_readPsk hread hmem))

/-- The first piece of a written name is a quoted value, whatever follows. -/
theorem head_of_first_piece {rest value : Bytes}
    (h : wpaSetting (bytes "    ssid=\"" ++ rest) = some (bytes "ssid", value)) :
    value.head? = some quote := by
  have hkey : bytes "    ssid=\"" ++ rest = bytes "    " ++ (bytes "ssid" ++ equals :: quote :: rest) := by
    rfl
  have htrim : trim (bytes "    ssid=\"" ++ rest) =
      bytes "ssid" ++ equals :: (quote :: rest).rdropWhile isBlank := by
    rw [hkey, trim, Scanner.strip, List.dropWhile_append_of_pos isBlank_of_mem_indent]
    exact trim_append_cons (by decide) (by decide) (by decide) (quote :: rest)
  have hquoted : (quote :: rest).rdropWhile isBlank = quote :: rest.rdropWhile isBlank :=
    Scanner.rdropWhile_append_cons (p := isBlank) (x := quote) (by decide) [] rest
  have hvalue : trim (quote :: rest.rdropWhile isBlank) = quote :: rest.rdropWhile isBlank := by
    have hright := Scanner.rdropWhile_append_cons (p := isBlank) (x := quote) (by decide) []
      (rest.rdropWhile isBlank)
    rw [List.rdropWhile_idempotent] at hright
    rw [trim, Scanner.strip, List.dropWhile_cons, if_neg (by decide)]
    exact hright
  rw [wpaSetting, htrim, hquoted, Scanner.cut_append (by decide), Option.map_some, hvalue,
    Option.some.injEq, Prod.mk.injEq] at h
  rw [← h.2]
  rfl

/-- A network name with a line end is not read back: quoted values end with their line, and the
text leaves no room for its own hexadecimal form. -/
theorem newline_not_mem_of_networkSsid (hblock : hasClosedBlock lines = true)
    (hlines : ∀ line ∈ lines, newline ∉ line) (hpassword : newline ∉ password)
    (h : networkSsid (getlines (joinLines (savedWpaLines ssid password lines))) = some ssid) :
    newline ∉ ssid := by
  obtain ⟨value, hlast, hread⟩ := Option.bind_eq_some_iff.mp h
  obtain ⟨line, hline, hsetting⟩ := mem_wpaValues.mp (List.mem_of_getLast? hlast)
  have hclean : newline ∉ line := newline_not_mem_of_mem_getlines (mem_of_mem_blockLines hline)
  rw [readSsid] at hread
  split at hread
  · obtain ⟨junk, rfl, -⟩ := quotedText_eq_some_iff.mp hread
    intro hmem
    exact hclean (mem_of_wpaSetting hsetting (by simp [hmem]))
  · next hunquoted =>
    exfalso
    have hlength := length_hexBytes hread
    obtain ⟨written, hwritten, hpiece⟩ := mem_blockLines_written hblock hlines hline
    rcases mem_savedBlock hwritten with rfl | rfl | ⟨hold, hno, -⟩
    · have hfirst : newline ∉ bytes "    ssid=\"" := by decide
      have hsplit := splitOn_newline_append hfirst (escape ssid ++ [quote])
      have heq : quotedLine (bytes "ssid") ssid =
          bytes "    ssid=\"" ++ (escape ssid ++ [quote]) := rfl
      rw [heq, hsplit, List.mem_cons] at hpiece
      rcases hpiece with rfl | hlater
      · exact hunquoted (head_of_first_piece hsetting)
      · have hlater' : line ∈ (escape ssid ++ [quote]).splitOn newline := by
          rw [splitOn_newline]
          exact List.mem_cons_of_mem _ hlater
        have hline := Scanner.length_le_of_mem_splitOn hlater'
        have hroom := length_of_wpaSetting hsetting
        have hescape := length_escape_le ssid
        have hkey : (bytes "ssid").length = 4 := by decide
        simp only [List.length_append, List.length_singleton] at hline
        omega
    · rw [splitOn_newline_of_not_mem (newline_not_mem_quotedLine (by decide) hpassword),
        List.mem_singleton] at hpiece
      rw [hpiece, wpaSetting_pskLine, Option.some.injEq, Prod.mk.injEq] at hsetting
      exact absurd hsetting.1 (by decide)
    · rw [splitOn_newline_of_not_mem (hlines written (mem_of_mem_blockLines hold)),
        List.mem_singleton] at hpiece
      rw [hpiece] at hsetting
      rw [hasWpaKey_of_wpaSetting hsetting] at hno
      cases hno

/-- Without line ends, the new settings are read raw. -/
theorem network_written (hssid : newline ∉ ssid) (hpassword : newline ∉ password)
    (hlines : ∀ line ∈ lines, newline ∉ line) :
    networkSsid (getlines (joinLines (savedWpaLines ssid password lines))) = some (escape ssid) ∧
      networkPsk (getlines (joinLines (savedWpaLines ssid password lines))) =
        some (.passphrase (escape password)) := by
  obtain ⟨hlastSsid, hlastPsk⟩ :=
    getLast?_savedWpaLines ssid password lines
  rw [getlines_savedWpaLines hssid hpassword hlines, networkSsid, networkPsk, hlastSsid, hlastPsk,
    Option.bind_some, Option.bind_some, readSsid_quoteForWpa, readPsk_quoteForWpa]
  exact ⟨rfl, rfl⟩

end Written

/-! ## 4. When a save means what was entered -/

/-- From the new file `wpa_supplicant` reads the requested name, and the given passphrase or the
credential it read before. -/
structure WifiMeans (request : SaveRequest) (old new : List Bytes) : Prop where
  ssid : networkSsid new = some request.config.wifi_ssid
  given : ∀ password, request.wifi_password = some password → password ≠ [] →
    networkPsk new = some (.passphrase password)
  kept : request.wifi_password.getD [] = [] → networkPsk new = networkPsk old

/-- The new texts are plain, and a kept passphrase is stored with the escapes. -/
structure WrittenAsMeant (request : SaveRequest) (old : List Bytes) : Prop where
  ssid : PlainText request.config.wifi_ssid
  given : ∀ password, request.wifi_password = some password → password ≠ [] → PlainText password
  kept : request.wifi_password.getD [] = [] → StoredEscaped old

theorem trim_of_mem_wpaValues {key value : Bytes} {lines : List Bytes}
    (h : value ∈ wpaValues key lines) : trim value = value := by
  obtain ⟨line, -, hsetting⟩ := mem_wpaValues.mp h
  rw [wpaSetting, Option.map_eq_some_iff] at hsetting
  obtain ⟨kv, -, heq⟩ := hsetting
  rw [← (Prod.mk.inj heq).2]
  exact trim_trim _

/-- Rewriting the stored passphrase keeps its meaning exactly if it is stored with the escapes. -/
theorem storedEscaped_iff {lines : List Bytes} (hstored : (parseWpaData lines).psk ≠ []) :
    networkPsk lines = some (.passphrase (escape (parseWpaData lines).psk)) ↔
      StoredEscaped lines := by
  rw [(parseWpaData_texts lines).2] at hstored ⊢
  rw [networkPsk, StoredEscaped]
  rcases hlast : (wpaValues (bytes "psk") (blockLines lines)).getLast? with _ | value
  · rw [List.getLast?_eq_none_iff] at hlast
    exact absurd (by rw [wpaText, hlast]; rfl) hstored
  · have htext : wpaText (bytes "psk") (blockLines lines) = stripQuotes value := by
      rw [wpaText, LastWins.settle, List.getLast?_map, hlast]
      rfl
    rw [htext, Option.bind_some,
      readPsk_stored_iff (trim_of_mem_wpaValues (List.mem_of_getLast? hlast))]
    simp

/-- `wpa_supplicant` reads what the user entered exactly when it was written as meant. -/
theorem wifi_means_iff (store : ConfigStore) (request : SaveRequest) (faults : SaveFaults)
    (disk : Disk) (hblock : hasClosedBlock disk.wpaLines = true)
    (saved : (saveWpaSupplicant store request faults disk).1 = .ok ()) :
    ∃ new, (saveWpaSupplicant store request faults disk).2.wpa_supplicant = some new ∧
      (WifiMeans request disk.wpaLines (getlines new) ↔
        WrittenAsMeant request disk.wpaLines) := by
  obtain ⟨password, hsaved, hdisk⟩ := saveWpaSupplicant_ok saved
  have hlines := newline_not_mem_wpaLines disk
  have hbase : wpaBase disk.wpaLines = disk.wpaLines := by
    rw [wpaBase, if_neg]
    intro hnil
    rw [List.isEmpty_iff.mp hnil] at hblock
    cases hblock
  rw [hdisk, hbase]
  refine ⟨_, rfl, ?_⟩
  have hfile : ∀ line ∈ getlines (joinLines
      (savedWpaLines request.config.wifi_ssid password disk.wpaLines)), newline ∉ line :=
    fun _ => newline_not_mem_of_mem_getlines
  rcases savedWifiPassword_ok hsaved with ⟨hgiven, hne⟩ | ⟨hblank, heq, hstored⟩
  · have hnotBlank : request.wifi_password.getD [] ≠ [] := by
      rw [hgiven]
      exact hne
    constructor
    · intro h
      have hpsk := h.given password hgiven hne
      have hpassword := newline_not_mem_of_networkPsk hfile hpsk
      have hssid := newline_not_mem_of_networkSsid hblock hlines hpassword h.ssid
      obtain ⟨hwrittenSsid, hwrittenPsk⟩ := network_written hssid hpassword hlines
      have hssidText := Option.some.inj (hwrittenSsid.symm.trans h.ssid)
      have hpskText := Credential.passphrase.inj (Option.some.inj (hwrittenPsk.symm.trans hpsk))
      obtain ⟨hq, hb⟩ := escape_eq_self_iff.mp hssidText
      obtain ⟨hq', hb'⟩ := escape_eq_self_iff.mp hpskText
      refine ⟨⟨hq, hb, hssid⟩, ?_, fun hnone => absurd hnone hnotBlank⟩
      intro p hp _
      rw [hgiven, Option.some.injEq] at hp
      rw [← hp]
      exact ⟨hq', hb', hpassword⟩
    · intro h
      obtain ⟨hq, hb, hssid⟩ := h.ssid
      obtain ⟨hq', hb', hpassword⟩ := h.given password hgiven hne
      obtain ⟨hwrittenSsid, hwrittenPsk⟩ := network_written hssid hpassword hlines
      rw [escape_eq_self_iff.mpr ⟨hq, hb⟩] at hwrittenSsid
      rw [escape_eq_self_iff.mpr ⟨hq', hb'⟩] at hwrittenPsk
      refine ⟨hwrittenSsid, ?_, fun hnone => absurd hnone hnotBlank⟩
      intro p hp _
      rw [hgiven, Option.some.injEq] at hp
      rw [← hp]
      exact hwrittenPsk
  · subst heq
    have hpassword : newline ∉ (parseWpaData disk.wpaLines).psk := newline_not_mem_storedPsk disk
    have hgiven : ∀ p, request.wifi_password = some p → p = [] := by
      intro p hp
      rw [hp] at hblank
      exact hblank
    constructor
    · intro h
      have hssid := newline_not_mem_of_networkSsid hblock hlines hpassword h.ssid
      obtain ⟨hwrittenSsid, hwrittenPsk⟩ := network_written hssid hpassword hlines
      obtain ⟨hq, hb⟩ := escape_eq_self_iff.mp (Option.some.inj (hwrittenSsid.symm.trans h.ssid))
      refine ⟨⟨hq, hb, hssid⟩, fun p hp hne => absurd (hgiven p hp) hne, fun _ => ?_⟩
      exact (storedEscaped_iff hstored).mp ((h.kept hblank).symm.trans hwrittenPsk)
    · intro h
      obtain ⟨hq, hb, hssid⟩ := h.ssid
      obtain ⟨hwrittenSsid, hwrittenPsk⟩ := network_written hssid hpassword hlines
      rw [escape_eq_self_iff.mpr ⟨hq, hb⟩] at hwrittenSsid
      refine ⟨hwrittenSsid, fun p hp hne => absurd (hgiven p hp) hne, fun _ => ?_⟩
      exact hwrittenPsk.trans ((storedEscaped_iff hstored).mpr (h.kept hblank)).symm

def closedWpa (psk : Bytes) : Disk where
  chime_config := none
  wpa_supplicant := some (bytes "network=\x7b\nssid=\"home\"\npsk=" ++ psk ++ bytes "\n\x7d\n")

theorem wifi_means_iff_sample :
    ∃ new, (saveWpaSupplicant {} sampleRequest {} (closedWpa (bytes "\"old\""))).2.wpa_supplicant =
      some new ∧ (WifiMeans sampleRequest (closedWpa (bytes "\"old\"")).wpaLines (getlines new) ↔
        WrittenAsMeant sampleRequest (closedWpa (bytes "\"old\"")).wpaLines) :=
  wifi_means_iff {} sampleRequest {} (closedWpa (bytes "\"old\"")) (by decide +kernel)
    (by decide +kernel)

/-- A passphrase with a backslash is accepted and saved, and read with two of them. -/
theorem wifi_means_backslash :
    let request := { sampleRequest with wifi_password := some (bytes "pass\\word") }
    let outcome := saveWpaSupplicant {} request {} (closedWpa (bytes "\"old\""))
    validateRequest request = [] ∧ outcome.1 = .ok () ∧
      ∃ new, outcome.2.wpa_supplicant = some new ∧
        networkPsk (getlines new) = some (.passphrase (bytes "pass\\\\word")) ∧
        ¬ WifiMeans request (closedWpa (bytes "\"old\"")).wpaLines (getlines new) := by
  refine ⟨by decide +kernel, by decide +kernel, _, rfl, by decide +kernel, fun h => ?_⟩
  have hgiven := h.given (bytes "pass\\word") rfl (by decide)
  revert hgiven
  decide +kernel

end VirtualChime.Webd
