import VirtualChime.CoreConfigApi

/-!
# The Wi-Fi scan

`ParseWpaCliScanResults` over the text that `wpa_cli scan_results` prints.  The SSID is
printed with its unusual bytes escaped, and the parser takes the escaped text for the
SSID: the networks are read as they are exactly when nothing had to be escaped.
-/

namespace VirtualChime.Webd

/-! ## 1. The parser -/

abbrev tab : Byte := 9

def splitLines (input : Bytes) : List Bytes :=
  (getlines input).map fun line =>
    if line.getLast? = some carriageReturn then line.dropLast else line

def splitTabs (input : Bytes) : List Bytes := input.splitOn tab

def securityFromFlags (flags : Bytes) : Bytes :=
  if bytes "WPA3" <:+: flags then bytes "WPA3"
  else if bytes "WPA2" <:+: flags ∨ bytes "RSN" <:+: flags then bytes "WPA2"
  else if bytes "WPA" <:+: flags then bytes "WPA"
  else if bytes "WEP" <:+: flags then bytes "WEP"
  else bytes "OPEN"

/-- The number in the third field; a `long` of the target is an `int`. -/
def scanSignal (field : Bytes) : Int :=
  if field = [] then -1000
  else
    let (parsed, rest) := strtol field
    if rest = [] then parsed else -1000

def parseScanLine (line : Bytes) : Option WifiNetwork :=
  if line = [] ∨ (bytes "bssid").isPrefixOf line then none
  else
    match splitTabs line with
    | _ :: _ :: signal :: flags :: ssid :: _ =>
        if ssid = [] then none
        else
          some { ssid, signal_dbm := scanSignal signal, security := securityFromFlags flags }
    | _ => none

def parseWpaCliScanResults (output : Bytes) : List WifiNetwork :=
  (splitLines output).filterMap parseScanLine

/-! ## 2. What is printed -/

/-- A network as the scan found it. -/
structure ScannedNetwork where
  bssid : List Byte
  frequency : Nat
  signal : Int
  flags : Bytes
  ssid : Bytes
  signal_int : longMin ≤ signal ∧ signal ≤ longMax
  flags_clean : tab ∉ flags ∧ newline ∉ flags
  ssid_ne : ssid ≠ []

/-- The bytes that are printed as they are. -/
def IsPlain (c : Byte) : Prop := 32 ≤ c.toNat ∧ c.toNat ≤ 126 ∧ c ≠ 34 ∧ c ≠ 92

instance (c : Byte) : Decidable (IsPlain c) := inferInstanceAs (Decidable (_ ∧ _))

/-- How the bytes of an SSID may be printed: a plain byte as it is, every other one as a backslash
and some text. -/
def Escapes (escapeByte : Byte → Bytes) : Prop :=
  ∀ c, (IsPlain c → escapeByte c = [c]) ∧
    (¬ IsPlain c → ∃ text, text ≠ [] ∧ (∀ d ∈ text, 32 ≤ d.toNat ∧ d.toNat ≤ 126) ∧
      escapeByte c = 92 :: text)

/-- A byte in two hexadecimal digits. -/
def hexByte (c : Byte) : Bytes :=
  [c / 16, c % 16].map fun d => if d < 10 then 48 + d else 87 + d

def printBssid (bssid : List Byte) : Bytes := [58].intercalate (bssid.map hexByte)

def printNetwork (escapeByte : Byte → Bytes) (n : ScannedNetwork) : Bytes :=
  printBssid n.bssid ++ tab :: (natDecimal n.frequency ++ tab :: (toDecimal n.signal ++
    tab :: (n.flags ++ tab :: n.ssid.flatMap escapeByte)))

def scanHeader : Bytes := bytes "bssid / frequency / signal level / flags / ssid"

/-- The output of `wpa_cli scan_results`. -/
def printScanResults (escapeByte : Byte → Bytes) (networks : List ScannedNetwork) : Bytes :=
  Scanner.joinLines newline (scanHeader :: networks.map (printNetwork escapeByte))

/-- The escapes of `wpa_cli`: `\"`, `\\`, `\e`, `\n`, `\r`, `\t`, and `\xNN` for the rest. -/
def printfEncode (c : Byte) : Bytes :=
  if IsPlain c then [c]
  else if c = 34 ∨ c = 92 then [92, c]
  else if c = 27 then bytes "\\e"
  else if c = 10 then bytes "\\n"
  else if c = 13 then bytes "\\r"
  else if c = 9 then bytes "\\t"
  else 92 :: 120 :: hexByte c

/-! ## 3. The text of an SSID -/

def escapeSsid (escapeByte : Byte → Bytes) (ssid : Bytes) : Bytes := ssid.flatMap escapeByte

variable {escapeByte : Byte → Bytes}

theorem printable_of_mem_escapeSsid (h : Escapes escapeByte) {ssid : Bytes} {c : Byte}
    (hc : c ∈ escapeSsid escapeByte ssid) : 32 ≤ c.toNat ∧ c.toNat ≤ 126 := by
  obtain ⟨b, -, hb⟩ := List.mem_flatMap.mp hc
  by_cases hplain : IsPlain b
  · rw [(h b).1 hplain] at hb
    rw [List.mem_singleton.mp hb]
    exact ⟨hplain.1, hplain.2.1⟩
  · obtain ⟨text, -, htext, heq⟩ := (h b).2 hplain
    rw [heq] at hb
    rcases List.mem_cons.mp hb with rfl | hb
    · decide
    · exact htext c hb

theorem escapeByte_ne_nil (h : Escapes escapeByte) (c : Byte) : escapeByte c ≠ [] := by
  by_cases hplain : IsPlain c
  · simp [(h c).1 hplain]
  · obtain ⟨text, -, -, heq⟩ := (h c).2 hplain
    simp [heq]

theorem length_le_escapeSsid (h : Escapes escapeByte) (ssid : Bytes) :
    ssid.length ≤ (escapeSsid escapeByte ssid).length := by
  induction ssid with
  | nil => exact Nat.zero_le _
  | cons c ssid ih =>
    have hc := List.length_pos_of_ne_nil (escapeByte_ne_nil h c)
    rw [escapeSsid, List.flatMap_cons, List.length_append, ← escapeSsid, List.length_cons]
    omega

/-- An SSID is printed as it is exactly when all its bytes are plain. -/
theorem escapeSsid_eq_self_iff (h : Escapes escapeByte) {ssid : Bytes} :
    escapeSsid escapeByte ssid = ssid ↔ ∀ c ∈ ssid, IsPlain c := by
  induction ssid with
  | nil => exact ⟨fun _ => nofun, fun _ => rfl⟩
  | cons c ssid ih =>
    have hcons : escapeSsid escapeByte (c :: ssid) = escapeByte c ++ escapeSsid escapeByte ssid := by
      rw [escapeSsid, List.flatMap_cons, escapeSsid]
    rw [hcons, List.forall_mem_cons, ← ih]
    by_cases hplain : IsPlain c
    · rw [(h c).1 hplain]
      simp [hplain]
    · obtain ⟨text, hne, -, heq⟩ := (h c).2 hplain
      constructor
      · intro hself
        have hlength := congrArg List.length hself
        have htext := List.length_pos_of_ne_nil hne
        have hrest := length_le_escapeSsid h ssid
        rw [heq, List.length_append, List.length_cons, List.length_cons] at hlength
        omega
      · intro hall
        exact absurd hall.1 hplain

/-! ## 4. What the parser reads -/

theorem hexByte_clean (b : Byte) : ∀ c ∈ hexByte b, c ≠ tab ∧ c ≠ newline ∧ c ≠ 115 := by
  -- as a test, since not all bytes `c` are to be tried
  have hall : ∀ b : Byte, (hexByte b).all (fun c => c != tab && c != newline && c != 115) = true := by
    apply byte_forall
    decide +kernel
  intro c hc
  simpa [and_assoc] using List.all_eq_true.mp (hall b) c hc

theorem printBssid_clean {bssid : List Byte} {c : Byte} (h : c ∈ printBssid bssid) :
    c ≠ tab ∧ c ≠ newline ∧ c ≠ 115 := by
  obtain ⟨l, hl, hc⟩ := List.mem_flatten.mp h
  have hmem : l ∈ bssid.map hexByte ∨ l = [58] := by
    revert l
    generalize bssid.map hexByte = parts
    intro l hl _
    induction parts with
    | nil => cases hl
    | cons part parts ih =>
      cases parts with
      | nil => exact Or.inl hl
      | cons next parts =>
        rw [List.intersperse_cons_cons] at hl
        rcases List.mem_cons.mp hl with rfl | hl
        · exact Or.inl (List.mem_cons_self ..)
        · rcases List.mem_cons.mp hl with rfl | hl
          · exact Or.inr rfl
          · exact (ih hl).imp_left (List.mem_cons_of_mem _)
  rcases hmem with hmem | rfl
  · obtain ⟨b, -, rfl⟩ := List.mem_map.mp hmem
    exact hexByte_clean b c hc
  · rw [List.mem_singleton.mp hc]
    decide

theorem isDigit_clean {c : Byte} (h : isDigit c = true) : c ≠ tab ∧ c ≠ newline := by
  obtain ⟨hspace, -, -, -, -, hnl⟩ := not_isSpace_of_isDigit h
  refine ⟨?_, hnl⟩
  rintro rfl
  revert hspace
  decide

theorem tab_not_mem_natDecimal (n : Nat) : tab ∉ natDecimal n :=
  fun h => (isDigit_clean (natDecimal_digits h)).1 rfl

theorem tab_not_mem_toDecimal (n : Int) : tab ∉ toDecimal n := by
  intro h
  have hblank := (toDecimal_clean h).1
  revert hblank
  decide

theorem not_mem_escapeSsid (h : Escapes escapeByte) (ssid : Bytes) {c : Byte} (hc : c.toNat < 32) :
    c ∉ escapeSsid escapeByte ssid := by
  intro hmem
  have hprintable := (printable_of_mem_escapeSsid h hmem).1
  omega

/-- A printed line is not taken for the header. -/
theorem not_header (escapeByte : Byte → Bytes) (n : ScannedNetwork) :
    (bytes "bssid").isPrefixOf (printNetwork escapeByte n) = false := by
  rw [Bool.eq_false_iff, Ne, List.isPrefixOf_iff_prefix]
  intro hprefix
  have hbssid : printBssid n.bssid <+: printNetwork escapeByte n := List.prefix_append _ _
  rcases List.prefix_or_prefix_of_prefix hprefix hbssid with hle | hle
  · have hmem : (115 : Byte) ∈ printBssid n.bssid := hle.subset (by decide)
    exact (printBssid_clean hmem).2.2 rfl
  · obtain ⟨rest, hrest⟩ := hle
    rw [printNetwork, ← hrest, List.prefix_append_right_inj] at hprefix
    cases rest with
    | nil =>
      have hmem : (115 : Byte) ∈ printBssid n.bssid := by
        rw [← List.append_nil (printBssid n.bssid), hrest]
        decide
      exact (printBssid_clean hmem).2.2 rfl
    | cons c rest =>
      have htab : c = tab := (List.cons_prefix_cons.mp hprefix).1
      have hmem : tab ∈ bytes "bssid" := by
        rw [← hrest, htab]
        simp
      revert hmem
      decide

theorem splitTabs_printNetwork (h : Escapes escapeByte) (n : ScannedNetwork) :
    splitTabs (printNetwork escapeByte n) =
      [printBssid n.bssid, natDecimal n.frequency, toDecimal n.signal, n.flags,
        escapeSsid escapeByte n.ssid] := by
  have hssid : tab ∉ escapeSsid escapeByte n.ssid := not_mem_escapeSsid h n.ssid (by decide)
  rw [splitTabs, printNetwork,
    List.splitOn_append_cons_self_of_not_mem (fun hmem => (printBssid_clean hmem).1 rfl),
    List.splitOn_append_cons_self_of_not_mem (tab_not_mem_natDecimal n.frequency),
    List.splitOn_append_cons_self_of_not_mem (tab_not_mem_toDecimal n.signal),
    List.splitOn_append_cons_self_of_not_mem n.flags_clean.1, ← escapeSsid,
    List.splitOn_eq_singleton hssid]

theorem escapeSsid_ne_nil (h : Escapes escapeByte) (n : ScannedNetwork) :
    escapeSsid escapeByte n.ssid ≠ [] := by
  have hle := length_le_escapeSsid h n.ssid
  have hpos := List.length_pos_of_ne_nil n.ssid_ne
  apply List.ne_nil_of_length_pos
  omega

/-- A printed line is read as a network with the printed text for its SSID. -/
theorem parseScanLine_printNetwork (h : Escapes escapeByte) (n : ScannedNetwork) :
    parseScanLine (printNetwork escapeByte n) = some
      { ssid := escapeSsid escapeByte n.ssid
        signal_dbm := n.signal
        security := securityFromFlags n.flags } := by
  have hne : printNetwork escapeByte n ≠ [] := by simp [printNetwork]
  have hline : ¬ (printNetwork escapeByte n = [] ∨
      (bytes "bssid").isPrefixOf (printNetwork escapeByte n) = true) := by
    rw [not_header]
    simp [hne]
  have hsignal : scanSignal (toDecimal n.signal) = n.signal := by
    rw [scanSignal, if_neg (toDecimal_ne_nil n.signal),
      strtol_toDecimal_of_long n.signal_int.1 n.signal_int.2]
    rfl
  rw [parseScanLine, if_neg hline, splitTabs_printNetwork h]
  dsimp only
  rw [if_neg (escapeSsid_ne_nil h n), hsignal]

theorem newline_not_mem_printNetwork (h : Escapes escapeByte) (n : ScannedNetwork) :
    newline ∉ printNetwork escapeByte n := by
  have hssid : newline ∉ escapeSsid escapeByte n.ssid := not_mem_escapeSsid h n.ssid (by decide)
  have hbssid : newline ∉ printBssid n.bssid := fun hmem => (printBssid_clean hmem).2.1 rfl
  have hfrequency : newline ∉ natDecimal n.frequency :=
    fun hmem => (isDigit_clean (natDecimal_digits hmem)).2 rfl
  have hsignal := newline_not_mem_toDecimal n.signal
  have htab : newline ≠ tab := by decide
  rw [printNetwork, ← escapeSsid]
  simp [hssid, hbssid, hfrequency, hsignal, n.flags_clean.2, htab]

theorem getLast?_printNetwork (h : Escapes escapeByte) (n : ScannedNetwork) :
    (printNetwork escapeByte n).getLast? ≠ some carriageReturn := by
  have hssid : carriageReturn ∉ escapeSsid escapeByte n.ssid :=
    not_mem_escapeSsid h n.ssid (by decide)
  have hne := escapeSsid_ne_nil h n
  have hline : ∃ before, printNetwork escapeByte n = before ++ escapeSsid escapeByte n.ssid := by
    refine ⟨printBssid n.bssid ++ tab :: (natDecimal n.frequency ++ tab :: (toDecimal n.signal ++
      tab :: (n.flags ++ [tab]))), ?_⟩
    simp [printNetwork, escapeSsid]
  obtain ⟨before, hline⟩ := hline
  rw [hline, List.getLast?_append, List.getLast?_eq_some_getLast hne]
  intro hlast
  apply hssid
  rw [← Option.some.inj hlast]
  exact List.getLast_mem hne

theorem splitLines_joinLines {lines : List Bytes} (h : ∀ l ∈ lines, newline ∉ l)
    (hcr : ∀ l ∈ lines, l.getLast? ≠ some carriageReturn) :
    splitLines (Scanner.joinLines newline lines) = lines := by
  rw [splitLines, getlines, Scanner.lines_joinLines_of_clean h]
  have hsame : ∀ l ∈ lines,
      (if l.getLast? = some carriageReturn then l.dropLast else l) = l :=
    fun l hl => if_neg (hcr l hl)
  rw [List.map_congr_left hsame]
  exact List.map_id' lines

/-- The parser reads one network a line, in order, with the printed text for its SSID. -/
theorem parse_printScanResults (h : Escapes escapeByte) (networks : List ScannedNetwork) :
    parseWpaCliScanResults (printScanResults escapeByte networks) =
      networks.map fun n =>
        { ssid := escapeSsid escapeByte n.ssid
          signal_dbm := n.signal
          security := securityFromFlags n.flags } := by
  have hlines : ∀ l ∈ scanHeader :: networks.map (printNetwork escapeByte),
      newline ∉ l ∧ l.getLast? ≠ some carriageReturn := by
    intro l hl
    rcases List.mem_cons.mp hl with rfl | hl
    · decide +kernel
    · obtain ⟨n, -, rfl⟩ := List.mem_map.mp hl
      exact ⟨newline_not_mem_printNetwork h n, getLast?_printNetwork h n⟩
  have hheader : parseScanLine scanHeader = none := if_pos (Or.inr (by decide +kernel))
  rw [parseWpaCliScanResults, printScanResults,
    splitLines_joinLines (fun l hl => (hlines l hl).1) fun l hl => (hlines l hl).2,
    List.filterMap_cons, hheader, List.filterMap_map]
  dsimp only
  have hread : parseScanLine ∘ printNetwork escapeByte = some ∘ fun n : ScannedNetwork =>
      { ssid := escapeSsid escapeByte n.ssid
        signal_dbm := n.signal
        security := securityFromFlags n.flags } := by
    funext n
    exact parseScanLine_printNetwork h n
  rw [hread, List.filterMap_eq_map]

/-- The networks are read with their own SSIDs and signals exactly when every byte of every SSID
is printed as it is. -/
theorem scan_keeps_networks_iff (h : Escapes escapeByte) (networks : List ScannedNetwork) :
    (parseWpaCliScanResults (printScanResults escapeByte networks)).map
        (fun network => (network.ssid, network.signal_dbm)) =
      networks.map (fun n => (n.ssid, n.signal)) ↔
    ∀ n ∈ networks, ∀ c ∈ n.ssid, IsPlain c := by
  rw [parse_printScanResults h, List.map_map, List.map_inj_left]
  constructor
  · intro hsame n hn
    apply (escapeSsid_eq_self_iff h).mp
    exact (Prod.mk.inj (hsame n hn)).1
  · intro hplain n hn
    exact Prod.ext ((escapeSsid_eq_self_iff h).mpr (hplain n hn)) rfl

/-- The characters of an escape are printed as they are. -/
def isPrinted (c : Byte) : Bool := decide (32 ≤ c.toNat) && decide (c.toNat ≤ 126)

theorem all_isPrinted {cs : Bytes} (h : cs.all isPrinted = true) :
    ∀ c ∈ cs, 32 ≤ c.toNat ∧ c.toNat ≤ 126 := by
  intro c hc
  simpa [isPrinted] using List.all_eq_true.mp h c hc

theorem escapes_printfEncode : Escapes printfEncode := by
  have hhex : ∀ b : Byte, (hexByte b).all isPrinted = true := by
    apply byte_forall
    decide +kernel
  intro c
  constructor
  · intro hplain
    rw [printfEncode, if_pos hplain]
  · intro hplain
    rw [printfEncode, if_neg hplain]
    split
    · next hquote =>
      refine ⟨[c], by simp, all_isPrinted ?_, rfl⟩
      rcases hquote with rfl | rfl
      · rfl
      · rfl
    · split
      · exact ⟨[101], by simp, all_isPrinted rfl, rfl⟩
      · split
        · exact ⟨[110], by simp, all_isPrinted rfl, rfl⟩
        · split
          · exact ⟨[114], by simp, all_isPrinted rfl, rfl⟩
          · split
            · exact ⟨[116], by simp, all_isPrinted rfl, rfl⟩
            · refine ⟨120 :: hexByte c, by simp, all_isPrinted ?_, rfl⟩
              rw [List.all_cons, hhex c]
              rfl

def cafeNetwork : ScannedNetwork where
  bssid := [0x00, 0x11, 0x22, 0x33, 0x44, 0x55]
  frequency := 2437
  signal := -40
  flags := bytes "[WPA2-PSK-CCMP][ESS]"
  ssid := bytes "Caf" ++ [0xC3, 0xA9]
  signal_int := by decide
  flags_clean := by decide +kernel
  ssid_ne := by decide

/-- The two bytes of an umlaut are read as eight. -/
theorem umlaut_escaped :
    (parseWpaCliScanResults (printScanResults printfEncode [cafeNetwork])).map (·.ssid) =
        [bytes "Caf\\xc3\\xa9"] ∧
      bytes "Caf\\xc3\\xa9" ≠ cafeNetwork.ssid := by
  decide +kernel

theorem scan_keeps_networks_home :
    (parseWpaCliScanResults (printScanResults printfEncode
      [{ cafeNetwork with ssid := bytes "home", ssid_ne := by decide }])).map
        (fun network => (network.ssid, network.signal_dbm)) = [(bytes "home", -40)] := by
  apply (scan_keeps_networks_iff escapes_printfEncode
    [{ cafeNetwork with ssid := bytes "home", ssid_ne := by decide }]).mpr
  intro n hn
  rw [List.mem_singleton.mp hn]
  have hplain : (bytes "home").all (fun c => decide (IsPlain c)) = true := by decide +kernel
  intro c hc
  exact of_decide_eq_true (List.all_eq_true.mp hplain c hc)

end VirtualChime.Webd
