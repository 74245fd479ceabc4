import VirtualChime.SavedConfig

/-!
# The network block of `wpa_supplicant.conf`

`ParseWpaData` walks the lines with two flags and two indices, `SaveWpaSupplicant`
rewrites between the indices and inserts at them.  Both are brought here into one
form: the lines up to the first `network=\x7b`, the lines of its block, and what
follows (`Layout`).  In that form the parser reads the last setting of a key in
the block (`parseWpaData_closed`), and the rewriter maps the block and leaves the
rest alone (`wpaLines_closed`).
-/

namespace VirtualChime.Webd

open Config

/-! ## 1. Quoting -/

abbrev quote : Byte := 34
abbrev backslash : Byte := 92

/-- The bytes `QuoteForWpa` puts between its quotes. -/
def escape (value : Bytes) : Bytes :=
  value.flatMap fun c => if c = backslash ∨ c = quote then [backslash, c] else [c]

theorem quoteForWpa_eq (value : Bytes) : quoteForWpa value = quote :: escape value ++ [quote] := rfl

theorem escape_cons (c : Byte) (value : Bytes) :
    escape (c :: value) =
      if c = backslash ∨ c = quote then backslash :: c :: escape value else c :: escape value := by
  rw [escape, List.flatMap_cons]
  split <;> rfl

theorem unescape_escape (value : Bytes) : unescape false (escape value) = value := by
  induction value with
  | nil => rfl
  | cons c value ih =>
    rw [escape_cons]
    split
    · rw [unescape, if_pos rfl, unescape, ih]
    · next h =>
      rw [unescape, if_neg fun hc => h (Or.inl hc), ih]

theorem newline_not_mem_escape {value : Bytes} (h : newline ∉ value) : newline ∉ escape value := by
  intro hmem
  obtain ⟨c, hc, hin⟩ := List.mem_flatMap.mp hmem
  split at hin
  · next hquoted =>
    rcases List.mem_cons.mp hin with heq | hin
    · cases heq
    · rw [List.mem_singleton.mp hin] at h
      exact h hc
  · rw [List.mem_singleton.mp hin] at h
    exact h hc

theorem trim_quoted (inner : Bytes) :
    trim (quote :: inner ++ [quote]) = quote :: inner ++ [quote] := by
  apply Scanner.strip_eq_self_iff.mpr
  constructor
  · intro _
    rfl
  · intro _
    rw [List.getLast_append_singleton]
    rfl

theorem stripQuotes_quoted (inner : Bytes) :
    stripQuotes (quote :: inner ++ [quote]) = unescape false inner := by
  have hlast : (quote :: inner ++ [quote]).getLast? = some quote := List.getLast?_concat
  have hinner : ((quote :: inner ++ [quote]).drop 1).dropLast = inner := by
    rw [List.cons_append, List.drop_succ_cons, List.drop_zero, List.dropLast_concat]
  simp only [stripQuotes]
  rw [trim_quoted, hlast, hinner, if_neg (by simp)]

/-- `StripQuotes` undoes `QuoteForWpa`, whatever the bytes. -/
theorem stripQuotes_quoteForWpa (value : Bytes) : stripQuotes (quoteForWpa value) = value := by
  rw [quoteForWpa_eq, stripQuotes_quoted, unescape_escape]

theorem newline_not_mem_quoteForWpa {value : Bytes} (h : newline ∉ value) :
    newline ∉ quoteForWpa value := by
  rw [quoteForWpa_eq, List.mem_append, List.mem_cons, List.mem_singleton]
  rintro ((heq | hmem) | heq)
  · cases heq
  · exact newline_not_mem_escape h hmem
  · cases heq

theorem mem_of_mem_unescape {c : Byte} {escaped : Bool} {s : Bytes}
    (h : c ∈ unescape escaped s) : c ∈ s := by
  fun_induction unescape escaped s with
  | case1 => exact h
  | case2 d s ih =>
    rcases List.mem_cons.mp h with rfl | h
    · exact List.mem_cons_self ..
    · exact List.mem_cons_of_mem _ (ih h)
  | case3 s ih => exact List.mem_cons_of_mem _ (ih h)
  | case4 d s hd ih =>
    rcases List.mem_cons.mp h with rfl | h
    · exact List.mem_cons_self ..
    · exact List.mem_cons_of_mem _ (ih h)

theorem length_unescape_le (escaped : Bool) (s : Bytes) :
    (unescape escaped s).length ≤ s.length := by
  fun_induction unescape escaped s with
  | case1 => exact Nat.le_refl 0
  | case2 d s ih => exact Nat.succ_le_succ ih
  | case3 s ih => exact Nat.le_succ_of_le ih
  | case4 d s hd ih => exact Nat.succ_le_succ ih

theorem le_length_escape (value : Bytes) : value.length ≤ (escape value).length := by
  calc value.length = (unescape false (escape value)).length := by rw [unescape_escape]
    _ ≤ (escape value).length := length_unescape_le false _

theorem mem_of_mem_stripQuotes {c : Byte} {value : Bytes} (h : c ∈ stripQuotes value) :
    c ∈ value := by
  simp only [stripQuotes] at h
  split at h
  · exact mem_of_mem_trim h
  · exact mem_of_mem_trim (List.mem_of_mem_drop (List.dropLast_subset _ (mem_of_mem_unescape h)))

theorem length_escape_le (value : Bytes) : (escape value).length ≤ 2 * value.length := by
  induction value with
  | nil => exact Nat.le_refl 0
  | cons c value ih =>
    rw [escape_cons]
    split
    · simp only [List.length_cons]
      omega
    · simp only [List.length_cons]
      omega

/-! ## 2. Settings of a block -/

/-- What the lines set the key to, in order. -/
def wpaValues (key : Bytes) (lines : List Bytes) : List Bytes :=
  LastWins.readings key some (lines.filterMap wpaSetting)

/-- What `ParseWpaData` makes of the last of them. -/
def wpaText (key : Bytes) (lines : List Bytes) : Bytes :=
  LastWins.settle [] ((wpaValues key lines).map stripQuotes)

theorem wpaValues_append (key : Bytes) (xs ys : List Bytes) :
    wpaValues key (xs ++ ys) = wpaValues key xs ++ wpaValues key ys := by
  rw [wpaValues, List.filterMap_append, LastWins.readings_append]
  rfl

theorem wpaValues_singleton (key line : Bytes) :
    wpaValues key [line] =
      ((wpaSetting line).bind fun kv => if kv.1 = key then some kv.2 else none).toList := by
  rw [wpaValues]
  rcases h : wpaSetting line with _ | ⟨k, v⟩
  · simp [h]
  · by_cases hk : k = key
    · simp [h, hk, LastWins.readings]
    · simp [h, hk, LastWins.readings]

theorem mem_wpaValues {key value : Bytes} {lines : List Bytes} :
    value ∈ wpaValues key lines ↔ ∃ line ∈ lines, wpaSetting line = some (key, value) := by
  rw [wpaValues, LastWins.mem_readings]
  simp [List.mem_filterMap]

theorem mem_of_wpaSetting {line key value : Bytes} {c : Byte}
    (h : wpaSetting line = some (key, value)) (hc : c ∈ value) : c ∈ line := by
  rw [wpaSetting, Option.map_eq_some_iff] at h
  obtain ⟨⟨k, v⟩, hcut, heq⟩ := h
  obtain ⟨htrim, -⟩ := Scanner.cut_eq_some_iff.mp hcut
  rw [Prod.mk.injEq] at heq
  rw [← heq.2] at hc
  apply mem_of_mem_trim
  rw [htrim]
  exact List.mem_append_right _ (List.mem_cons_of_mem _ (mem_of_mem_trim hc))

theorem length_of_wpaSetting {line key value : Bytes} (h : wpaSetting line = some (key, value)) :
    key.length + 1 + value.length ≤ line.length := by
  rw [wpaSetting, Option.map_eq_some_iff] at h
  obtain ⟨⟨k, v⟩, hcut, heq⟩ := h
  obtain ⟨htrim, -⟩ := Scanner.cut_eq_some_iff.mp hcut
  rw [Prod.mk.injEq] at heq
  have hkey := Scanner.length_strip_le (p := isBlank) k
  have hvalue := Scanner.length_strip_le (p := isBlank) v
  have hline := Scanner.length_strip_le (p := isBlank) line
  have hlength := congrArg List.length htrim
  simp only [List.length_append, List.length_cons] at hlength
  rw [← heq.1, ← heq.2]
  simp only [trim] at hlength ⊢
  omega

theorem newline_not_mem_wpaText {key : Bytes} {lines : List Bytes}
    (h : ∀ line ∈ lines, newline ∉ line) : newline ∉ wpaText key lines := by
  rw [wpaText, LastWins.settle]
  rcases hlast : ((wpaValues key lines).map stripQuotes).getLast? with _ | text
  · simp
  · obtain ⟨value, hvalue, rfl⟩ := List.mem_map.mp (List.mem_of_getLast? hlast)
    obtain ⟨line, hline, hsetting⟩ := mem_wpaValues.mp hvalue
    rw [Option.getD_some]
    intro hmem
    exact h line hline (mem_of_wpaSetting hsetting (mem_of_mem_stripQuotes hmem))

/-- A line `    key="…"` as `SaveWpaSupplicant` writes it. -/
def quotedLine (key value : Bytes) : Bytes :=
  bytes "    " ++ key ++ equals :: quoteForWpa value

theorem isBlank_of_mem_indent : ∀ c ∈ bytes "    ", isBlank c = true := by decide +kernel

theorem wpaSetting_quotedLine {key : Bytes} (hne : key ≠ []) (hkey : equals ∉ key)
    (htrim : trim key = key) (value : Bytes) :
    wpaSetting (quotedLine key value) = some (key, quoteForWpa value) := by
  have hblank : trim (quotedLine key value) = trim (key ++ equals :: quoteForWpa value) := by
    rw [quotedLine, trim, Scanner.strip, List.append_assoc,
      List.dropWhile_append_of_pos isBlank_of_mem_indent]
    rfl
  have hvalue : (quoteForWpa value).rdropWhile isBlank = quoteForWpa value :=
    Scanner.rdropWhile_of_strip_eq_self (trim_quoted _)
  have hline : trim (quotedLine key value) = key ++ equals :: quoteForWpa value := by
    rw [hblank, trim_append_cons hne htrim (by decide), hvalue]
  have hquoted : trim (quoteForWpa value) = quoteForWpa value := trim_quoted _
  rw [wpaSetting, hline, Scanner.cut_append hkey, Option.map_some, htrim, hquoted]

/-! ## 3. The shape of the file -/

def opensBlock (line : Bytes) : Bool := decide (trim line = bytes "network=\x7b")

def closesBlock (line : Bytes) : Bool := decide (trim line = bytes "\x7d")

/-- The lines of the first network block, up to its end or the end of the file. -/
def blockLines (lines : List Bytes) : List Bytes :=
  ((lines.dropWhile fun line => !opensBlock line).drop 1).takeWhile fun line => !closesBlock line

/-- The first network block is closed. -/
def hasClosedBlock (lines : List Bytes) : Bool :=
  ((lines.dropWhile fun line => !opensBlock line).drop 1).any closesBlock

/-- The three shapes of a file: no network block, one that is not closed, a closed first one. -/
inductive Layout : List Bytes → Prop where
  | noBlock {lines : List Bytes} (before : ∀ line ∈ lines, opensBlock line = false) : Layout lines
  | unclosed (before : List Bytes) (opening : Bytes) (body : List Bytes)
      (hbefore : ∀ line ∈ before, opensBlock line = false) (hopening : opensBlock opening = true)
      (hbody : ∀ line ∈ body, closesBlock line = false) : Layout (before ++ opening :: body)
  | closed (before : List Bytes) (opening : Bytes) (body : List Bytes) (closing : Bytes)
      (after : List Bytes) (hbefore : ∀ line ∈ before, opensBlock line = false)
      (hopening : opensBlock opening = true) (hbody : ∀ line ∈ body, closesBlock line = false)
      (hclosing : closesBlock closing = true) :
      Layout (before ++ opening :: (body ++ closing :: after))

/-- A list is of one class, or divides at its first element of the other. -/
theorem all_or_exists_first (p : Bytes → Bool) (lines : List Bytes) :
    (∀ line ∈ lines, p line = false) ∨ ∃ before line after,
      lines = before ++ line :: after ∧ (∀ l ∈ before, p l = false) ∧ p line = true := by
  induction lines with
  | nil => exact Or.inl (by simp)
  | cons l lines ih =>
    by_cases hl : p l = true
    · exact Or.inr ⟨[], l, lines, rfl, by simp, hl⟩
    · rw [Bool.not_eq_true] at hl
      rcases ih with hall | ⟨before, line, after, rfl, hbefore, hline⟩
      · exact Or.inl (List.forall_mem_cons.mpr ⟨hl, hall⟩)
      · exact Or.inr ⟨l :: before, line, after, rfl, List.forall_mem_cons.mpr ⟨hl, hbefore⟩, hline⟩

theorem layout (lines : List Bytes) : Layout lines := by
  rcases all_or_exists_first opensBlock lines with
    hall | ⟨before, opening, rest, rfl, hbefore, hopening⟩
  · exact .noBlock hall
  · rcases all_or_exists_first closesBlock rest with
      hbody | ⟨body, closing, after, rfl, hbody, hclosing⟩
    · exact .unclosed before opening rest hbefore hopening hbody
    · exact .closed before opening body closing after hbefore hopening hbody hclosing

section Shape

variable {before body after : List Bytes} {opening closing : Bytes}

theorem mem_of_mem_blockLines {line : Bytes} {lines : List Bytes} (h : line ∈ blockLines lines) :
    line ∈ lines :=
  (List.dropWhile_sublist _).mem
    (List.mem_of_mem_drop ((List.takeWhile_sublist _).mem h))

theorem blockLines_of_noBlock (h : ∀ line ∈ before, opensBlock line = false) :
    blockLines before = [] := by
  have hdrop : before.dropWhile (fun line => !opensBlock line) = [] :=
    List.dropWhile_eq_nil_iff.mpr fun line hline => by simp [h line hline]
  rw [blockLines, hdrop]
  rfl

theorem dropWhile_opening (hbefore : ∀ line ∈ before, opensBlock line = false)
    (hopening : opensBlock opening = true) (rest : List Bytes) :
    (before ++ opening :: rest).dropWhile (fun line => !opensBlock line) = opening :: rest := by
  rw [List.dropWhile_append_of_pos fun line hline => by simp [hbefore line hline],
    List.dropWhile_cons, if_neg (by simp [hopening])]

theorem blockLines_of_opening (hbefore : ∀ line ∈ before, opensBlock line = false)
    (hopening : opensBlock opening = true) (rest : List Bytes) :
    blockLines (before ++ opening :: rest) = rest.takeWhile fun line => !closesBlock line := by
  rw [blockLines, dropWhile_opening hbefore hopening]
  rfl

theorem hasClosedBlock_of_noBlock (h : ∀ line ∈ before, opensBlock line = false) :
    hasClosedBlock before = false := by
  have hdrop : before.dropWhile (fun line => !opensBlock line) = [] :=
    List.dropWhile_eq_nil_iff.mpr fun line hline => by simp [h line hline]
  rw [hasClosedBlock, hdrop]
  rfl

theorem hasClosedBlock_of_opening (hbefore : ∀ line ∈ before, opensBlock line = false)
    (hopening : opensBlock opening = true) (rest : List Bytes) :
    hasClosedBlock (before ++ opening :: rest) = rest.any closesBlock := by
  rw [hasClosedBlock, dropWhile_opening hbefore hopening, List.drop_succ_cons, List.drop_zero]

theorem takeWhile_unclosed (hbody : ∀ line ∈ body, closesBlock line = false) :
    body.takeWhile (fun line => !closesBlock line) = body :=
  List.takeWhile_eq_self_iff.mpr fun line hline => by simp [hbody line hline]

theorem takeWhile_closed (hbody : ∀ line ∈ body, closesBlock line = false)
    (hclosing : closesBlock closing = true) (after : List Bytes) :
    (body ++ closing :: after).takeWhile (fun line => !closesBlock line) = body := by
  rw [List.takeWhile_append_of_pos fun line hline => by simp [hbody line hline],
    List.takeWhile_cons, if_neg (by simp [hclosing]), List.append_nil]

/-- A line with a key of the block neither opens nor closes one. -/
theorem not_closesBlock_of_wpaSetting {line : Bytes} {kv : Bytes × Bytes}
    (h : wpaSetting line = some kv) : closesBlock line = false := by
  simp only [closesBlock, decide_eq_false_iff_not]
  intro hclose
  have hnone : Scanner.cut equals (bytes "\x7d") = none := by decide
  rw [wpaSetting, hclose, hnone] at h
  cases h

end Shape

/-! ## 4. The parser -/

section Parser

variable {before body after : List Bytes} {opening closing : Bytes}

theorem parseWpaLoop_before (hbefore : ∀ line ∈ before, opensBlock line = false)
    (rest : List Bytes) (i : Nat) (data : WpaData) :
    parseWpaLoop (before ++ rest) i false data =
      parseWpaLoop rest (i + before.length) false data := by
  induction before generalizing i with
  | nil => rfl
  | cons line before ih =>
    obtain ⟨hline, hrest⟩ := List.forall_mem_cons.mp hbefore
    have hopen : ¬ trim line = bytes "network=\x7b" := by simpa [opensBlock] using hline
    rw [List.cons_append, parseWpaLoop]
    simp only [hopen, decide_false, Bool.and_false, Bool.false_eq_true, if_false, Bool.not_false,
      if_true]
    rw [ih hrest, List.length_cons]
    congr 1
    omega

/-- The data with the settings of some more lines of the block. -/
def WpaData.settle (data : WpaData) (lines : List Bytes) : WpaData :=
  { data with
    ssid := LastWins.settle data.ssid ((wpaValues (bytes "ssid") lines).map stripQuotes)
    psk := LastWins.settle data.psk ((wpaValues (bytes "psk") lines).map stripQuotes) }

theorem settle_append (data : WpaData) (xs ys : List Bytes) :
    data.settle (xs ++ ys) = (data.settle xs).settle ys := by
  simp only [WpaData.settle, wpaValues_append, List.map_append, LastWins.settle_append]

theorem parseWpaLoop_line {line : Bytes} (hline : closesBlock line = false) (rest : List Bytes)
    (i : Nat) (data : WpaData) :
    parseWpaLoop (line :: rest) i true data =
      parseWpaLoop rest (i + 1) true (data.settle [line]) := by
  have hclose : ¬ trim line = bytes "\x7d" := by simpa [closesBlock] using hline
  have hne : bytes "ssid" ≠ bytes "psk" := by decide
  rw [parseWpaLoop]
  simp only [Bool.not_true, Bool.false_and, Bool.false_eq_true, if_false, if_neg hclose,
    WpaData.settle, wpaValues_singleton]
  rcases hsetting : wpaSetting line with _ | ⟨key, value⟩
  · rfl
  · by_cases hssid : key = bytes "ssid"
    · simp [hssid, hne, LastWins.settle]
    · by_cases hpsk : key = bytes "psk"
      · simp [hpsk, hne.symm, LastWins.settle]
      · simp [hssid, hpsk, LastWins.settle]

theorem parseWpaLoop_body (hbody : ∀ line ∈ body, closesBlock line = false) (rest : List Bytes)
    (i : Nat) (data : WpaData) :
    parseWpaLoop (body ++ rest) i true data =
      parseWpaLoop rest (i + body.length) true (data.settle body) := by
  induction body generalizing i data with
  | nil => rfl
  | cons line body ih =>
    obtain ⟨hline, hrest⟩ := List.forall_mem_cons.mp hbody
    rw [List.cons_append, parseWpaLoop_line hline, ih hrest, ← settle_append,
      List.singleton_append, List.length_cons]
    congr 1
    omega

theorem parseWpaLoop_opening (hopening : opensBlock opening = true) (rest : List Bytes) (i : Nat)
    (data : WpaData) :
    parseWpaLoop (opening :: rest) i false data =
      parseWpaLoop rest (i + 1) true { data with has_network_block := true, block_start := i } := by
  rw [opensBlock, decide_eq_true_eq] at hopening
  rw [parseWpaLoop]
  simp [hopening]

theorem parseWpaData_noBlock (hbefore : ∀ line ∈ before, opensBlock line = false) :
    parseWpaData before = { lines := before } := by
  have hloop : parseWpaLoop before 0 false { lines := before } = ({ lines := before }, false) := by
    have := parseWpaLoop_before hbefore [] 0 { lines := before }
    rwa [List.append_nil] at this
  rw [parseWpaData, hloop]
  rfl

theorem parseWpaData_unclosed (hbefore : ∀ line ∈ before, opensBlock line = false)
    (hopening : opensBlock opening = true) (hbody : ∀ line ∈ body, closesBlock line = false) :
    parseWpaData (before ++ opening :: body) =
      { lines := before ++ opening :: body, ssid := wpaText (bytes "ssid") body,
        psk := wpaText (bytes "psk") body, block_start := before.length } := by
  have hloop := parseWpaLoop_body hbody [] (0 + before.length + 1)
    { lines := before ++ opening :: body, has_network_block := true,
      block_start := 0 + before.length }
  rw [List.append_nil] at hloop
  rw [parseWpaData, parseWpaLoop_before hbefore, parseWpaLoop_opening hopening, hloop]
  simp [parseWpaLoop, WpaData.settle, wpaText]

theorem parseWpaData_closed (hbefore : ∀ line ∈ before, opensBlock line = false)
    (hopening : opensBlock opening = true) (hbody : ∀ line ∈ body, closesBlock line = false)
    (hclosing : closesBlock closing = true) :
    parseWpaData (before ++ opening :: (body ++ closing :: after)) =
      { lines := before ++ opening :: (body ++ closing :: after)
        ssid := wpaText (bytes "ssid") body, psk := wpaText (bytes "psk") body
        has_network_block := true, block_start := before.length
        block_end := before.length + 1 + body.length } := by
  rw [closesBlock, decide_eq_true_eq] at hclosing
  rw [parseWpaData, parseWpaLoop_before hbefore, parseWpaLoop_opening hopening,
    parseWpaLoop_body hbody, parseWpaLoop]
  simp [hclosing, WpaData.settle, wpaText]

/-- Whatever the file's shape, the parser reads the last settings of its first block. -/
theorem parseWpaData_texts (lines : List Bytes) :
    (parseWpaData lines).ssid = wpaText (bytes "ssid") (blockLines lines) ∧
      (parseWpaData lines).psk = wpaText (bytes "psk") (blockLines lines) := by
  cases layout lines with
  | noBlock hbefore =>
    rw [parseWpaData_noBlock hbefore, blockLines_of_noBlock hbefore]
    exact ⟨rfl, rfl⟩
  | unclosed before opening body hbefore hopening hbody =>
    rw [parseWpaData_unclosed hbefore hopening hbody, blockLines_of_opening hbefore hopening,
      takeWhile_unclosed hbody]
    exact ⟨rfl, rfl⟩
  | closed before opening body closing after hbefore hopening hbody hclosing =>
    rw [parseWpaData_closed hbefore hopening hbody hclosing,
      blockLines_of_opening hbefore hopening, takeWhile_closed hbody hclosing]
    exact ⟨rfl, rfl⟩

theorem newline_not_mem_parseWpaData {lines : List Bytes} (h : ∀ line ∈ lines, newline ∉ line) :
    newline ∉ (parseWpaData lines).ssid ∧ newline ∉ (parseWpaData lines).psk := by
  have hblock : ∀ line ∈ blockLines lines, newline ∉ line := by
    intro line hline
    exact h line (mem_of_mem_blockLines hline)
  obtain ⟨hssid, hpsk⟩ := parseWpaData_texts lines
  rw [hssid, hpsk]
  exact ⟨newline_not_mem_wpaText hblock, newline_not_mem_wpaText hblock⟩

end Parser

/-! ## 5. The rewriter -/

section Rewriter

variable {before body after : List Bytes} {opening closing : Bytes} (ssidLine pskLine : Bytes)

/-- The block `SaveWpaSupplicant` makes of a closed one. -/
def rewriteBlock (body : List Bytes) : List Bytes :=
  body.map (rewriteWpaLine ssidLine pskLine) ++
    ((if body.any (hasWpaKey (bytes "ssid")) then [] else [ssidLine]) ++
      (if body.any (hasWpaKey (bytes "psk")) then [] else [pskLine]))

/-- The block it appends where there is no closed one, after a blank line. -/
def appendBlock (lines : List Bytes) : List Bytes :=
  (if !lines.isEmpty && lines.getLast? != some [] then lines ++ [[]] else lines) ++
    [bytes "network=\x7b", ssidLine, pskLine, bytes "\x7d"]

theorem wpaLines_append {parsed : WpaData} (h : parsed.has_network_block = false)
    (lines : List Bytes) :
    wpaLines ssidLine pskLine parsed lines = appendBlock ssidLine pskLine lines := by
  rw [wpaLines, h]
  rfl

theorem zipIdx_closed (before : List Bytes) (opening : Bytes) (body rest : List Bytes) :
    (before ++ opening :: (body ++ rest)).zipIdx =
      before.zipIdx ++ ([opening].zipIdx before.length ++ (body.zipIdx (before.length + 1) ++
        rest.zipIdx (before.length + 1 + body.length))) := by
  rw [List.zipIdx_append, List.zipIdx_cons, List.zipIdx_append, Nat.zero_add]
  rfl

/-- The index test of the rewriting loop. -/
def inBlock (start stop i : Nat) : Bool := decide (start < i) && decide (i < stop)

section Window

variable {start stop k : Nat} {lines : List Bytes}

theorem inBlock_of_window (hlow : start < k) (hhigh : k + lines.length ≤ stop) :
    ∀ entry ∈ lines.zipIdx k, inBlock start stop entry.2 = true := by
  intro entry hentry
  have hle := List.le_snd_of_mem_zipIdx hentry
  have hlt := List.snd_lt_add_of_mem_zipIdx hentry
  simp [inBlock]
  omega

theorem not_inBlock_of_outside (houtside : k + lines.length ≤ start + 1 ∨ stop ≤ k) :
    ∀ entry ∈ lines.zipIdx k, inBlock start stop entry.2 = false := by
  intro entry hentry
  have hle := List.le_snd_of_mem_zipIdx hentry
  have hlt := List.snd_lt_add_of_mem_zipIdx hentry
  simp [inBlock]
  omega

theorem map_window {f : Bytes → Bytes} (h : ∀ entry ∈ lines.zipIdx k, inBlock start stop entry.2 = true) :
    (lines.zipIdx k).map (fun entry => if inBlock start stop entry.2 then f entry.1 else entry.1) =
      lines.map f := by
  rw [List.map_congr_left (g := f ∘ Prod.fst) fun entry hentry => by
    rw [h entry hentry, if_pos rfl, Function.comp_apply], ← List.map_map, List.zipIdx_map_fst]

theorem map_outside {f : Bytes → Bytes}
    (h : ∀ entry ∈ lines.zipIdx k, inBlock start stop entry.2 = false) :
    (lines.zipIdx k).map (fun entry => if inBlock start stop entry.2 then f entry.1 else entry.1) =
      lines := by
  rw [List.map_congr_left (g := Prod.fst) fun entry hentry => by
    rw [h entry hentry, if_neg (by simp)], List.zipIdx_map_fst]

theorem any_window {p : Bytes → Bool}
    (h : ∀ entry ∈ lines.zipIdx k, inBlock start stop entry.2 = true) :
    (lines.zipIdx k).any (fun entry => inBlock start stop entry.2 && p entry.1) = lines.any p := by
  have hany : (lines.zipIdx k).any (fun entry => inBlock start stop entry.2 && p entry.1) =
      ((lines.zipIdx k).map Prod.fst).any p := by
    rw [List.any_map, Bool.eq_iff_iff, List.any_eq_true, List.any_eq_true]
    constructor
    · rintro ⟨entry, hentry, hp⟩
      exact ⟨entry, hentry, (Bool.and_eq_true_iff.mp hp).2⟩
    · rintro ⟨entry, hentry, hp⟩
      exact ⟨entry, hentry, Bool.and_eq_true_iff.mpr ⟨h entry hentry, hp⟩⟩
  rw [hany, List.zipIdx_map_fst]

theorem any_outside {p : Bytes → Bool}
    (h : ∀ entry ∈ lines.zipIdx k, inBlock start stop entry.2 = false) :
    (lines.zipIdx k).any (fun entry => inBlock start stop entry.2 && p entry.1) = false := by
  rw [List.any_eq_false]
  intro entry hentry
  simp [h entry hentry]

end Window

/-- The rewriting of a closed block, with the flags of the loop spelled out. -/
theorem wpaLines_inBlock {parsed : WpaData} (hblock : parsed.has_network_block = true)
    (lines : List Bytes) :
    wpaLines ssidLine pskLine parsed lines =
      let written := fun key => lines.zipIdx.any fun entry =>
        inBlock parsed.block_start parsed.block_end entry.2 && hasWpaKey key entry.1
      let rewritten := lines.mapIdx fun i line =>
        if inBlock parsed.block_start parsed.block_end i then
          rewriteWpaLine ssidLine pskLine line else line
      let withSsid := if written (bytes "ssid") then rewritten else
        rewritten.insertIdx parsed.block_end ssidLine
      if written (bytes "psk") then withSsid else
        withSsid.insertIdx
          (if written (bytes "ssid") then parsed.block_end else parsed.block_end + 1) pskLine := by
  rw [wpaLines, hblock]
  rfl

theorem insertIdx_after (xs ys : List Bytes) (line : Bytes) :
    (xs ++ ys).insertIdx xs.length line = xs ++ line :: ys := by
  induction xs with
  | nil => rfl
  | cons x xs ih => rw [List.cons_append, List.length_cons, List.insertIdx_succ_cons, ih]; rfl

/-- A closed first block is rewritten in place; everything around it is kept. -/
theorem wpaLines_closed {parsed : WpaData} (hblock : parsed.has_network_block = true)
    (hstart : parsed.block_start = before.length)
    (hend : parsed.block_end = before.length + 1 + body.length) :
    wpaLines ssidLine pskLine parsed (before ++ opening :: (body ++ closing :: after)) =
      before ++ opening :: (rewriteBlock ssidLine pskLine body ++ closing :: after) := by
  have hbefore : ∀ entry ∈ before.zipIdx 0,
      inBlock before.length (before.length + 1 + body.length) entry.2 = false :=
    not_inBlock_of_outside (Or.inl (by omega))
  have hopening : ∀ entry ∈ [opening].zipIdx before.length,
      inBlock before.length (before.length + 1 + body.length) entry.2 = false :=
    not_inBlock_of_outside (Or.inl (by simp))
  have hbody : ∀ entry ∈ body.zipIdx (before.length + 1),
      inBlock before.length (before.length + 1 + body.length) entry.2 = true :=
    inBlock_of_window (by omega) (by omega)
  have hafter : ∀ entry ∈ (closing :: after).zipIdx (before.length + 1 + body.length),
      inBlock before.length (before.length + 1 + body.length) entry.2 = false :=
    not_inBlock_of_outside (Or.inr (by omega))
  have hmap : (before ++ opening :: (body ++ closing :: after)).mapIdx (fun i line =>
      if inBlock before.length (before.length + 1 + body.length) i then
        rewriteWpaLine ssidLine pskLine line else line) =
      before ++ opening :: (body.map (rewriteWpaLine ssidLine pskLine) ++ closing :: after) := by
    rw [List.mapIdx_eq_zipIdx_map, zipIdx_closed]
    simp only [List.map_append]
    rw [map_outside hbefore, map_outside hopening, map_window hbody, map_outside hafter]
    rfl
  have hany : ∀ key, (before ++ opening :: (body ++ closing :: after)).zipIdx.any (fun entry =>
      inBlock before.length (before.length + 1 + body.length) entry.2 && hasWpaKey key entry.1) =
      body.any (hasWpaKey key) := by
    intro key
    rw [zipIdx_closed]
    simp only [List.any_append]
    rw [any_outside hbefore, any_outside hopening, any_window hbody, any_outside hafter]
    simp
  -- the inserts stand where the block ends once the lines before them are in place
  have hinsert : ∀ block : List Bytes, ∀ line,
      (before ++ opening :: (block ++ closing :: after)).insertIdx
        (before.length + 1 + block.length) line =
      before ++ opening :: (block ++ [line] ++ closing :: after) := by
    intro block line
    have := insertIdx_after (before ++ opening :: block) (closing :: after) line
    rw [List.length_append, List.length_cons] at this
    simpa [Nat.add_assoc, Nat.add_comm 1] using this
  rw [wpaLines_inBlock ssidLine pskLine hblock, hstart, hend, hmap, rewriteBlock]
  simp only [hany]
  by_cases hssid : body.any (hasWpaKey (bytes "ssid")) = true
  · by_cases hpsk : body.any (hasWpaKey (bytes "psk")) = true
    · simp [hssid, hpsk]
    · have hone := hinsert (body.map (rewriteWpaLine ssidLine pskLine)) pskLine
      rw [List.length_map] at hone
      simp [hssid, hpsk, hone]
  · have hone := hinsert (body.map (rewriteWpaLine ssidLine pskLine)) ssidLine
    rw [List.length_map] at hone
    by_cases hpsk : body.any (hasWpaKey (bytes "psk")) = true
    · simp [hssid, hpsk, hone]
    · have htwo := hinsert (body.map (rewriteWpaLine ssidLine pskLine) ++ [ssidLine]) pskLine
      rw [List.length_append, List.length_map, List.length_singleton, ← Nat.add_assoc] at htwo
      simp only [hssid, hpsk, Bool.false_eq_true, if_false, hone, htwo]
      simp

end Rewriter

/-! ## 6. The saved lines -/

/-- The lines `SaveWpaSupplicant` writes over a file with the given ones. -/
def savedWpaLines (ssid password : Bytes) (lines : List Bytes) : List Bytes :=
  wpaLines (quotedLine (bytes "ssid") ssid) (quotedLine (bytes "psk") password)
    (parseWpaData lines) lines

section Saved

variable {before body after : List Bytes} {opening closing : Bytes} (ssid password : Bytes)

/-- The block that is written in place of a closed one. -/
def savedBlock (body : List Bytes) : List Bytes :=
  rewriteBlock (quotedLine (bytes "ssid") ssid) (quotedLine (bytes "psk") password) body

theorem savedWpaLines_closed (hbefore : ∀ line ∈ before, opensBlock line = false)
    (hopening : opensBlock opening = true) (hbody : ∀ line ∈ body, closesBlock line = false)
    (hclosing : closesBlock closing = true) :
    savedWpaLines ssid password (before ++ opening :: (body ++ closing :: after)) =
      before ++ opening :: (savedBlock ssid password body ++ closing :: after) := by
  rw [savedWpaLines, parseWpaData_closed hbefore hopening hbody hclosing]
  exact wpaLines_closed _ _ rfl rfl rfl

/-- The two new settings. -/
def newSettings : List Bytes :=
  [quotedLine (bytes "ssid") ssid, quotedLine (bytes "psk") password]

/-- The lines appended to a file without a closed block. -/
def appendedLines (lines : List Bytes) : List Bytes :=
  (if !lines.isEmpty && lines.getLast? != some [] then [[]] else []) ++
    bytes "network=\x7b" :: (newSettings ssid password ++ [bytes "\x7d"])

theorem savedWpaLines_append {lines : List Bytes}
    (h : (parseWpaData lines).has_network_block = false) :
    savedWpaLines ssid password lines = lines ++ appendedLines ssid password lines := by
  rw [savedWpaLines, wpaLines_append _ _ h, appendBlock, appendedLines, newSettings]
  split <;> simp

theorem wpaSetting_ssidLine :
    wpaSetting (quotedLine (bytes "ssid") ssid) = some (bytes "ssid", quoteForWpa ssid) :=
  wpaSetting_quotedLine (by decide) (by decide) (by decide) ssid

theorem wpaSetting_pskLine :
    wpaSetting (quotedLine (bytes "psk") password) = some (bytes "psk", quoteForWpa password) :=
  wpaSetting_quotedLine (by decide) (by decide) (by decide) password

variable {ssid password}

theorem rewriteWpaLine_cases (ssidLine pskLine line : Bytes) :
    (hasWpaKey (bytes "ssid") line = true ∧ hasWpaKey (bytes "psk") line = false ∧
      rewriteWpaLine ssidLine pskLine line = ssidLine) ∨
    (hasWpaKey (bytes "ssid") line = false ∧ hasWpaKey (bytes "psk") line = true ∧
      rewriteWpaLine ssidLine pskLine line = pskLine) ∨
    (hasWpaKey (bytes "ssid") line = false ∧ hasWpaKey (bytes "psk") line = false ∧
      rewriteWpaLine ssidLine pskLine line = line) := by
  have hne : bytes "psk" ≠ bytes "ssid" := by decide
  rw [rewriteWpaLine, hasWpaKey, hasWpaKey]
  rcases wpaSetting line with _ | ⟨key, value⟩
  · simp
  · by_cases hssid : key = bytes "ssid"
    · simp [hssid, hne.symm]
    · by_cases hpsk : key = bytes "psk"
      · simp [hpsk, hne]
      · simp [hssid, hpsk]

/-- A line of the written block is one of the two new lines, or an old one with neither key. -/
theorem mem_savedBlock {line : Bytes} (h : line ∈ savedBlock ssid password body) :
    line = quotedLine (bytes "ssid") ssid ∨ line = quotedLine (bytes "psk") password ∨
      (line ∈ body ∧ hasWpaKey (bytes "ssid") line = false ∧
        hasWpaKey (bytes "psk") line = false) := by
  rw [savedBlock, rewriteBlock, List.mem_append, List.mem_append] at h
  rcases h with h | h | h
  · obtain ⟨old, hold, rfl⟩ := List.mem_map.mp h
    rcases rewriteWpaLine_cases (quotedLine (bytes "ssid") ssid) (quotedLine (bytes "psk") password)
      old with ⟨-, -, heq⟩ | ⟨-, -, heq⟩ | ⟨hssid, hpsk, heq⟩
    · exact Or.inl heq
    · exact Or.inr (Or.inl heq)
    · rw [heq]
      exact Or.inr (Or.inr ⟨hold, hssid, hpsk⟩)
  · split at h
    · cases h
    · exact Or.inl (List.mem_singleton.mp h)
  · split at h
    · cases h
    · exact Or.inr (Or.inl (List.mem_singleton.mp h))

theorem hasWpaKey_ssidLine (key : Bytes) :
    hasWpaKey key (quotedLine (bytes "ssid") ssid) = decide (bytes "ssid" = key) := by
  rw [hasWpaKey, wpaSetting_ssidLine]
  rfl

theorem hasWpaKey_pskLine (key : Bytes) :
    hasWpaKey key (quotedLine (bytes "psk") password) = decide (bytes "psk" = key) := by
  rw [hasWpaKey, wpaSetting_pskLine]
  rfl

theorem ssidLine_mem_savedBlock (body : List Bytes) :
    quotedLine (bytes "ssid") ssid ∈ savedBlock ssid password body := by
  rw [savedBlock, rewriteBlock, List.mem_append, List.mem_append]
  by_cases hany : body.any (hasWpaKey (bytes "ssid")) = true
  · obtain ⟨line, hline, hkey⟩ := List.any_eq_true.mp hany
    refine Or.inl (List.mem_map.mpr ⟨line, hline, ?_⟩)
    rcases rewriteWpaLine_cases (quotedLine (bytes "ssid") ssid) (quotedLine (bytes "psk") password)
      line with ⟨-, -, heq⟩ | ⟨hno, -⟩ | ⟨hno, -⟩
    · exact heq
    · exact absurd hkey (by simp [hno])
    · exact absurd hkey (by simp [hno])
  · rw [if_neg hany]
    exact Or.inr (Or.inl (List.mem_singleton_self _))

theorem pskLine_mem_savedBlock (body : List Bytes) :
    quotedLine (bytes "psk") password ∈ savedBlock ssid password body := by
  rw [savedBlock, rewriteBlock, List.mem_append, List.mem_append]
  by_cases hany : body.any (hasWpaKey (bytes "psk")) = true
  · obtain ⟨line, hline, hkey⟩ := List.any_eq_true.mp hany
    refine Or.inl (List.mem_map.mpr ⟨line, hline, ?_⟩)
    rcases rewriteWpaLine_cases (quotedLine (bytes "ssid") ssid) (quotedLine (bytes "psk") password)
      line with ⟨-, hno, -⟩ | ⟨-, -, heq⟩ | ⟨-, hno, -⟩
    · exact absurd hkey (by simp [hno])
    · exact heq
    · exact absurd hkey (by simp [hno])
  · rw [if_neg hany]
    exact Or.inr (Or.inr (List.mem_singleton_self _))

theorem savedBlock_open (hbody : ∀ line ∈ body, closesBlock line = false) :
    ∀ line ∈ savedBlock ssid password body, closesBlock line = false := by
  intro line hline
  rcases mem_savedBlock hline with rfl | rfl | ⟨hold, -, -⟩
  · exact not_closesBlock_of_wpaSetting (wpaSetting_ssidLine ssid)
  · exact not_closesBlock_of_wpaSetting (wpaSetting_pskLine password)
  · exact hbody line hold

/-- If the only value lines give the key is `value`, and one does, that is the last value. -/
theorem getLast?_wpaValues {key value line : Bytes} {lines : List Bytes} (hline : line ∈ lines)
    (hsetting : wpaSetting line = some (key, value))
    (hall : ∀ l ∈ lines, ∀ v, wpaSetting l = some (key, v) → v = value) :
    (wpaValues key lines).getLast? = some value := by
  apply LastWins.getLast?_of_forall
  · exact List.ne_nil_of_mem (mem_wpaValues.mpr ⟨line, hline, hsetting⟩)
  · intro v hv
    obtain ⟨l, hl, hset⟩ := mem_wpaValues.mp hv
    exact hall l hl v hset

theorem hasWpaKey_of_wpaSetting {key value line : Bytes} (h : wpaSetting line = some (key, value)) :
    hasWpaKey key line = true := by
  rw [hasWpaKey, h]
  simp

theorem getLast?_savedBlock (body : List Bytes) :
    (wpaValues (bytes "ssid") (savedBlock ssid password body)).getLast? = some (quoteForWpa ssid) ∧
      (wpaValues (bytes "psk") (savedBlock ssid password body)).getLast? =
        some (quoteForWpa password) := by
  constructor
  · apply getLast?_wpaValues (ssidLine_mem_savedBlock body) (wpaSetting_ssidLine ssid)
    intro l hl v hv
    rcases mem_savedBlock hl with rfl | rfl | ⟨-, hno, -⟩
    · rw [wpaSetting_ssidLine, Option.some.injEq, Prod.mk.injEq] at hv
      exact hv.2.symm
    · rw [wpaSetting_pskLine, Option.some.injEq, Prod.mk.injEq] at hv
      exact absurd hv.1 (by decide)
    · rw [hasWpaKey_of_wpaSetting hv] at hno
      cases hno
  · apply getLast?_wpaValues (pskLine_mem_savedBlock body) (wpaSetting_pskLine password)
    intro l hl v hv
    rcases mem_savedBlock hl with rfl | rfl | ⟨-, -, hno⟩
    · rw [wpaSetting_ssidLine, Option.some.injEq, Prod.mk.injEq] at hv
      exact absurd hv.1 (by decide)
    · rw [wpaSetting_pskLine, Option.some.injEq, Prod.mk.injEq] at hv
      exact hv.2.symm
    · rw [hasWpaKey_of_wpaSetting hv] at hno
      cases hno

theorem newSettings_open : ∀ line ∈ newSettings ssid password, closesBlock line = false := by
  intro line hline
  rcases List.mem_cons.mp hline with rfl | hline
  · exact not_closesBlock_of_wpaSetting (wpaSetting_ssidLine ssid)
  · rw [List.mem_singleton.mp hline]
    exact not_closesBlock_of_wpaSetting (wpaSetting_pskLine password)

theorem getLast?_newSettings (front : List Bytes) :
    (wpaValues (bytes "ssid") (front ++ newSettings ssid password)).getLast? =
        some (quoteForWpa ssid) ∧
      (wpaValues (bytes "psk") (front ++ newSettings ssid password)).getLast? =
        some (quoteForWpa password) := by
  have hne : bytes "psk" ≠ bytes "ssid" := by decide
  rw [wpaValues_append, wpaValues_append]
  constructor
  · apply LastWins.getLast?_append_of_last
    simp [newSettings, wpaValues, wpaSetting_ssidLine, wpaSetting_pskLine, LastWins.readings, hne]
  · apply LastWins.getLast?_append_of_last
    simp [newSettings, wpaValues, wpaSetting_ssidLine, wpaSetting_pskLine, LastWins.readings,
      hne.symm]

/-- What is appended: a blank line where the file does not end with one, and a closed block. -/
theorem appendedLines_eq (ssid password : Bytes) (lines : List Bytes) :
    ∃ blank, appendedLines ssid password lines =
        blank ++ bytes "network=\x7b" :: (newSettings ssid password ++ [bytes "\x7d"]) ∧
      (blank = [] ∨ blank = [[]]) := by
  rw [appendedLines]
  split
  · exact ⟨[[]], rfl, Or.inr rfl⟩
  · exact ⟨[], rfl, Or.inl rfl⟩

/-- The lines between an old block that was not closed and the two new settings. -/
def IsFiller (filler : List Bytes) : Prop :=
  ∀ line ∈ filler, closesBlock line = false ∧ hasWpaKey (bytes "ssid") line = false ∧
    hasWpaKey (bytes "psk") line = false

/-- The block of the new file: the old one rewritten, or the lines of one that was not closed with
the two new settings at its end. -/
inductive NewBlock (ssid password : Bytes) (lines : List Bytes) : List Bytes → Prop where
  | rewritten (closed : hasClosedBlock lines = true) :
      NewBlock ssid password lines (savedBlock ssid password (blockLines lines))
  | appended (filler : List Bytes) (unclosed : hasClosedBlock lines = false)
      (hfiller : IsFiller filler) :
      NewBlock ssid password lines (blockLines lines ++ filler ++ newSettings ssid password)

/-- Whatever the shape of the old file, the new one has a closed first block. -/
theorem savedWpaLines_shape (ssid password : Bytes) (lines : List Bytes) :
    ∃ before opening block closing after, (∀ line ∈ before, opensBlock line = false) ∧
      opensBlock opening = true ∧ (∀ line ∈ block, closesBlock line = false) ∧
      closesBlock closing = true ∧ NewBlock ssid password lines block ∧
      savedWpaLines ssid password lines = before ++ opening :: (block ++ closing :: after) := by
  have hopenLine : opensBlock (bytes "network=\x7b") = true := by decide
  have hcloseLine : closesBlock (bytes "\x7d") = true := by decide
  cases layout lines with
  | noBlock hbefore =>
    obtain ⟨blank, heq, hblank⟩ := appendedLines_eq ssid password lines
    have hbefore' : ∀ line ∈ lines ++ blank, opensBlock line = false := by
      refine List.forall_mem_append.mpr ⟨hbefore, ?_⟩
      rcases hblank with rfl | rfl
      · exact nofun
      · decide
    have hnew : NewBlock ssid password lines (newSettings ssid password) := by
      have : NewBlock ssid password _ _ :=
        NewBlock.appended [] (hasClosedBlock_of_noBlock hbefore) nofun
      rwa [blockLines_of_noBlock hbefore] at this
    refine ⟨lines ++ blank, _, _, _, [], hbefore', hopenLine, newSettings_open, hcloseLine, hnew, ?_⟩
    rw [savedWpaLines_append ssid password (by rw [parseWpaData_noBlock hbefore]), heq,
      List.append_assoc]
  | unclosed before opening body hbefore hopening hbody =>
    obtain ⟨blank, heq, hblank⟩ := appendedLines_eq ssid password
      (before ++ opening :: body)
    have hfiller : IsFiller (blank ++ [bytes "network=\x7b"]) := by
      rcases hblank with rfl | rfl
      · unfold IsFiller
        decide
      · unfold IsFiller
        decide
    have hnone : hasClosedBlock (before ++ opening :: body) = false := by
      rw [hasClosedBlock_of_opening hbefore hopening]
      simpa using hbody
    have hblock : blockLines (before ++ opening :: body) = body := by
      rw [blockLines_of_opening hbefore hopening, takeWhile_unclosed hbody]
    have hnew : NewBlock ssid password _ _ := NewBlock.appended _ hnone hfiller
    rw [hblock] at hnew
    refine ⟨before, opening, _, _, [], hbefore, hopening, ?_, hcloseLine, hnew, ?_⟩
    · exact List.forall_mem_append.mpr ⟨List.forall_mem_append.mpr
        ⟨hbody, fun line hline => (hfiller line hline).1⟩, newSettings_open⟩
    · rw [savedWpaLines_append ssid password (by rw [parseWpaData_unclosed hbefore hopening hbody]),
        heq]
      simp
  | closed before opening body closing after hbefore hopening hbody hclosing =>
    have hclosed : hasClosedBlock (before ++ opening :: (body ++ closing :: after)) = true := by
      rw [hasClosedBlock_of_opening hbefore hopening]
      simp [hclosing]
    have hblock : blockLines (before ++ opening :: (body ++ closing :: after)) = body := by
      rw [blockLines_of_opening hbefore hopening, takeWhile_closed hbody hclosing]
    have hnew : NewBlock ssid password _ _ := NewBlock.rewritten hclosed
    rw [hblock] at hnew
    exact ⟨before, opening, _, closing, after, hbefore, hopening, savedBlock_open hbody, hclosing,
      hnew, savedWpaLines_closed ssid password hbefore hopening hbody hclosing⟩

theorem newBlock_blockLines (ssid password : Bytes) (lines : List Bytes) :
    NewBlock ssid password lines (blockLines (savedWpaLines ssid password lines)) := by
  obtain ⟨before, opening, block, closing, after, hbefore, hopening, hblock, hclosing, hnew, heq⟩ :=
    savedWpaLines_shape ssid password lines
  rwa [heq, blockLines_of_opening hbefore hopening, takeWhile_closed hblock hclosing]

/-- The last settings of the new block are the two new ones. -/
theorem getLast?_savedWpaLines (ssid password : Bytes) (lines : List Bytes) :
    (wpaValues (bytes "ssid") (blockLines (savedWpaLines ssid password lines))).getLast? =
        some (quoteForWpa ssid) ∧
      (wpaValues (bytes "psk") (blockLines (savedWpaLines ssid password lines))).getLast? =
        some (quoteForWpa password) := by
  have hnew := newBlock_blockLines ssid password lines
  generalize blockLines (savedWpaLines ssid password lines) = block at hnew ⊢
  cases hnew with
  | rewritten closed => exact getLast?_savedBlock _
  | appended filler unclosed hfiller => exact getLast?_newSettings _

theorem wpaText_of_getLast? {key value : Bytes} {lines : List Bytes}
    (h : (wpaValues key lines).getLast? = some (quoteForWpa value)) : wpaText key lines = value := by
  rw [wpaText, LastWins.settle_of_getLast? (x := stripQuotes (quoteForWpa value)),
    stripQuotes_quoteForWpa]
  rw [List.getLast?_map, h, Option.map_some]

/-- Parsed again, the written lines give the two new texts. -/
theorem parseWpaData_savedWpaLines (lines : List Bytes) :
    (parseWpaData (savedWpaLines ssid password lines)).ssid = ssid ∧
      (parseWpaData (savedWpaLines ssid password lines)).psk = password := by
  obtain ⟨hssid, hpsk⟩ := parseWpaData_texts (savedWpaLines ssid password lines)
  obtain ⟨hlastSsid, hlastPsk⟩ :=
    getLast?_savedWpaLines ssid password lines
  rw [hssid, hpsk]
  exact ⟨wpaText_of_getLast? hlastSsid, wpaText_of_getLast? hlastPsk⟩

end Saved

end VirtualChime.Webd
