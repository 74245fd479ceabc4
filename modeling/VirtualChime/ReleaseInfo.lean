import VirtualChime.ApiResponses

/-!
# The release information

`post_build.sh` writes `/etc/virtualchime-release`; `chime --version` and the handler of
`/api/v1/system/version` read some of it, each in its own way: the one takes the first line
that begins with the key, the other the last value of a map of trimmed keys.  On the files
that are written both ways find every value (`release_values_read`).
-/

namespace VirtualChime.Release

/-! ## 1. The writer -/

/-- What the script knows when it comes to the release metadata: the variables that the two sourced
files and the build set, `none` where one is unset, and the files of the target. -/
structure BuildMeta where
  virtualchime_os_version : Option Bytes
  chime_config_version : Option Bytes
  buildroot_version : Option Bytes
  build_timestamp_utc : Option Bytes
  -- what `date` prints
  date : Bytes
  chime_build_id : Option Bytes
  virtualchime_build_id : Option Bytes
  source_git_sha : Option Bytes
  source_git_short : Option Bytes
  source_git_dirty : Option Bytes
  kernel_version : Option Bytes
  -- the digest of `chime.conf`, if it can be taken
  sha256 : Option Bytes
  chime_app_version_file : Option Bytes
  chime_build_id_file : Option Bytes
deriving DecidableEq, Repr

def unknown : Bytes := bytes "unknown"

/-- `${given:-default}` -/
def orDefault (given : Option Bytes) (default : Bytes) : Bytes :=
  if given.getD [] = [] then default else given.getD []

/-- `$(head -n 1 "$file" | tr -d "[:space:]")` -/
def firstWord (file : Bytes) : Bytes := (firstLine file).filter fun c => !isSpace c

def chimeAppVersion (m : BuildMeta) : Bytes := (m.chime_app_version_file.map firstWord).getD unknown

def chimeBuildId (m : BuildMeta) : Bytes :=
  (m.chime_build_id_file.map firstWord).getD (orDefault m.chime_build_id unknown)

/-- A version with its build id, if there is one. -/
def fullVersion (version build_id : Bytes) : Bytes :=
  if build_id ≠ unknown ∧ build_id ≠ [] then version ++ 43 :: build_id else version

def osVersion (m : BuildMeta) : Bytes := orDefault m.virtualchime_os_version unknown

def osBuildId (m : BuildMeta) : Bytes := orDefault m.virtualchime_build_id unknown

/-- The lines of the here document. -/
def releaseEntries (m : BuildMeta) : List (Bytes × Bytes) := [
  (bytes "VIRTUALCHIME_OS_VERSION", osVersion m),
  (bytes "VIRTUALCHIME_OS_VERSION_FULL", fullVersion (osVersion m) (osBuildId m)),
  (bytes "CHIME_APP_VERSION", chimeAppVersion m),
  (bytes "CHIME_APP_VERSION_FULL", fullVersion (chimeAppVersion m) (chimeBuildId m)),
  (bytes "CHIME_CONFIG_VERSION", orDefault m.chime_config_version unknown),
  (bytes "BUILDROOT_RELEASE", orDefault m.buildroot_version unknown),
  (bytes "BUILD_TIMESTAMP_UTC", orDefault m.build_timestamp_utc m.date),
  (bytes "LINUX_KERNEL_RELEASE", orDefault m.kernel_version unknown),
  (bytes "CHIME_CONFIG_SHA256", m.sha256.getD unknown),
  (bytes "CHIME_BUILD_ID", chimeBuildId m),
  (bytes "VIRTUALCHIME_BUILD_ID", osBuildId m),
  (bytes "SOURCE_GIT_SHA", orDefault m.source_git_sha unknown),
  (bytes "SOURCE_GIT_SHORT", orDefault m.source_git_short unknown),
  (bytes "SOURCE_GIT_DIRTY", orDefault m.source_git_dirty unknown)]

def keyLine (entry : Bytes × Bytes) : Bytes := entry.1 ++ equals :: entry.2

def releaseFile (m : BuildMeta) : Bytes :=
  Scanner.joinLines newline ((releaseEntries m).map keyLine)

/-! ## 2. The readers -/

/-- `ReadReleaseValue` of `chime --version`; `none` where there is no file. -/
def readReleaseValue (file : Option Bytes) (key : Bytes) : Bytes :=
  match file with
  | none => []
  | some text =>
      match (getlines text).find? fun line => (key ++ [equals]).isPrefixOf line with
      | none => []
      | some line => line.drop (key ++ [equals]).length

/-- The constants that `main.cpp` is compiled with. -/
structure Compiled where
  chime_app_version : Bytes
  chime_build_id : Bytes
  virtualchime_os_version : Bytes
  chime_config_version : Bytes
deriving DecidableEq, Repr

/-- A line that `PrintVersion` prints unless the value is empty. -/
def runtimeLine (name value : Bytes) : List Bytes :=
  if value ≠ [] then [keyLine (name, value)] else []

def Compiled.lines (compiled : Compiled) : List Bytes :=
  [keyLine (bytes "CHIME_APP_VERSION", compiled.chime_app_version),
    keyLine (bytes "CHIME_BUILD_ID", compiled.chime_build_id),
    keyLine (bytes "VIRTUALCHIME_OS_VERSION", compiled.virtualchime_os_version),
    keyLine (bytes "CHIME_CONFIG_VERSION", compiled.chime_config_version)]

/-- The lines that `PrintVersion` prints. -/
def printVersion (compiled : Compiled) (file : Option Bytes) : List Bytes :=
  compiled.lines ++
  runtimeLine (bytes "RUNTIME_OS_VERSION")
    (readReleaseValue file (bytes "VIRTUALCHIME_OS_VERSION")) ++
  runtimeLine (bytes "RUNTIME_KERNEL_RELEASE")
    (readReleaseValue file (bytes "LINUX_KERNEL_RELEASE")) ++
  runtimeLine (bytes "RUNTIME_CHIME_BUILD_ID") (readReleaseValue file (bytes "CHIME_BUILD_ID")) ++
  runtimeLine (bytes "RUNTIME_SOURCE_GIT_SHA") (readReleaseValue file (bytes "SOURCE_GIT_SHA"))

/-- The assignment that a line makes in `ReadKeyValueFile`. -/
def keyValue (line : Bytes) : Option (Bytes × Bytes) :=
  let trimmed := trim line
  if trimmed = [] ∨ trimmed.head? = some hash then none
  else
    match Scanner.cut equals trimmed with
    | none => none
    | some (key, value) => if trim key = [] then none else some (trim key, trim value)

def readKeyValueFile (file : Option Bytes) : List (Bytes × Bytes) :=
  match file with
  | none => []
  | some text => KeyMap.ofList Webd.keyBefore ((getlines text).filterMap keyValue)

def readValueOrDefault (values : List (Bytes × Bytes)) (key fallback : Bytes) : Bytes :=
  match KeyMap.get key values with
  | none => fallback
  | some value => if value = [] then fallback else value

def readTrimmedFirstLine (file : Option Bytes) : Bytes :=
  match file with
  | none => []
  | some text => trim ((getlines text).headD [])

structure SystemVersion where
  chime_version : Bytes
  os_version : Bytes
  config_version : Bytes
deriving DecidableEq, Repr

/-- The part of `HandleGetSystemVersion` before the response. -/
def systemVersion (release_info app_version : Option Bytes) : SystemVersion :=
  let release_values := readKeyValueFile release_info
  let chime_version_fallback := readValueOrDefault release_values (bytes "CHIME_APP_VERSION_FULL")
    (readValueOrDefault release_values (bytes "CHIME_APP_VERSION") unknown)
  let app_version_file := readTrimmedFirstLine app_version
  { chime_version := if app_version_file ≠ [] then app_version_file else chime_version_fallback
    os_version := readValueOrDefault release_values (bytes "VIRTUALCHIME_OS_VERSION_FULL")
      (readValueOrDefault release_values (bytes "VIRTUALCHIME_OS_VERSION") unknown)
    config_version := readValueOrDefault release_values (bytes "CHIME_CONFIG_VERSION") unknown }

def systemVersionBody (version : SystemVersion) : Bytes :=
  Webd.jsonObject [
    (bytes "chime_version", Webd.jsonString version.chime_version),
    (bytes "os_version", Webd.jsonString version.os_version),
    (bytes "config_version", Webd.jsonString version.config_version)]

def handleGetSystemVersion (release_info app_version : Option Bytes) : Webd.HttpResponse :=
  ⟨200, systemVersionBody (systemVersion release_info app_version)⟩

/-! ## 3. One line for each value -/

/-- A value that stays on its line and is its own trim. -/
def OneLine (value : Bytes) : Prop := newline ∉ value ∧ trim value = value

/-- A key that both readers take for what it is. -/
def PlainName (key : Bytes) : Prop :=
  key ≠ [] ∧ key.head? ≠ some hash ∧ ∀ c ∈ key, c ≠ equals ∧ isBlank c = false

instance (key : Bytes) : Decidable (PlainName key) := inferInstanceAs (Decidable (_ ∧ _ ∧ _))

theorem oneLine_of_not_isSpace {value : Bytes} (h : ∀ c ∈ value, isSpace c = false) :
    OneLine value := by
  constructor
  · intro hmem
    have := h newline hmem
    revert this
    decide
  · apply trim_eq_self_of_forall
    intro c hc
    have hspace := h c hc
    by_contra hblank
    rw [Bool.not_eq_false, isBlank] at hblank
    simp only [Bool.or_eq_true, beq_iff_eq, or_assoc] at hblank
    rcases hblank with rfl | rfl | rfl | rfl
    · revert hspace
      decide
    · revert hspace
      decide
    · revert hspace
      decide
    · revert hspace
      decide

theorem oneLine_unknown : OneLine unknown := ⟨by decide, by decide⟩

theorem oneLine_firstWord (file : Bytes) : OneLine (firstWord file) := by
  apply oneLine_of_not_isSpace
  intro c hc
  simpa using (List.mem_filter.mp hc).2

theorem oneLine_orDefault {given : Option Bytes} {default : Bytes}
    (h : ∀ value, given = some value → OneLine value) (hdefault : OneLine default) :
    OneLine (orDefault given default) := by
  rw [orDefault]
  split
  · exact hdefault
  · next hne =>
    cases given with
    | none => exact absurd rfl hne
    | some value => exact h value rfl

theorem oneLine_append {a b : Bytes} (ha : OneLine a) (hb : OneLine b) :
    OneLine (a ++ 43 :: b) := by
  obtain ⟨ha, htrimA⟩ := ha
  obtain ⟨hb, htrimB⟩ := hb
  have hplus : newline ≠ 43 := by decide
  constructor
  · simp [ha, hb, hplus]
  · have hright : (43 :: b).rdropWhile isBlank = 43 :: b := by
      have happend := Scanner.rdropWhile_append_cons (p := isBlank) (x := 43) (by decide) [] b
      rwa [Scanner.rdropWhile_of_strip_eq_self htrimB, List.nil_append] at happend
    by_cases hne : a = []
    · subst hne
      have hleft : (43 :: b).dropWhile isBlank = 43 :: b := by
        rw [List.dropWhile_cons, if_neg (by decide)]
      rw [List.nil_append, trim, Scanner.strip, hleft, hright]
    · rw [trim_append_cons hne htrimA (by decide), Scanner.rdropWhile_of_strip_eq_self htrimB]

theorem oneLine_fullVersion {version build_id : Bytes} (hversion : OneLine version)
    (hid : OneLine build_id) : OneLine (fullVersion version build_id) := by
  rw [fullVersion]
  split
  · exact oneLine_append hversion hid
  · exact hversion

/-- Every variable that is set is one line, as the files that are sourced and the tools give it. -/
structure Clean (m : BuildMeta) : Prop where
  virtualchime_os_version : ∀ value, m.virtualchime_os_version = some value → OneLine value
  chime_config_version : ∀ value, m.chime_config_version = some value → OneLine value
  buildroot_version : ∀ value, m.buildroot_version = some value → OneLine value
  build_timestamp_utc : ∀ value, m.build_timestamp_utc = some value → OneLine value
  date : OneLine m.date
  chime_build_id : ∀ value, m.chime_build_id = some value → OneLine value
  virtualchime_build_id : ∀ value, m.virtualchime_build_id = some value → OneLine value
  source_git_sha : ∀ value, m.source_git_sha = some value → OneLine value
  source_git_short : ∀ value, m.source_git_short = some value → OneLine value
  source_git_dirty : ∀ value, m.source_git_dirty = some value → OneLine value
  kernel_version : ∀ value, m.kernel_version = some value → OneLine value
  sha256 : ∀ value, m.sha256 = some value → OneLine value

theorem Clean.oneLine {m : BuildMeta} (h : Clean m) : ∀ e ∈ releaseEntries m, OneLine e.2 := by
  have hos : OneLine (osVersion m) := oneLine_orDefault h.virtualchime_os_version oneLine_unknown
  have hosId : OneLine (osBuildId m) := oneLine_orDefault h.virtualchime_build_id oneLine_unknown
  have happ : OneLine (chimeAppVersion m) := by
    rw [chimeAppVersion]
    cases m.chime_app_version_file with
    | none => exact oneLine_unknown
    | some file => exact oneLine_firstWord file
  have happId : OneLine (chimeBuildId m) := by
    rw [chimeBuildId]
    cases m.chime_build_id_file with
    | none => exact oneLine_orDefault h.chime_build_id oneLine_unknown
    | some file => exact oneLine_firstWord file
  have hsha : OneLine (m.sha256.getD unknown) := by
    cases hsome : m.sha256 with
    | none => exact oneLine_unknown
    | some value => exact h.sha256 value hsome
  rw [releaseEntries]
  simp only [List.forall_mem_cons]
  refine ⟨hos, oneLine_fullVersion hos hosId, happ, oneLine_fullVersion happ happId, ?_, ?_, ?_, ?_,
    hsha, happId, hosId, ?_, ?_, ?_, fun _ hnil => absurd hnil List.not_mem_nil⟩
  · exact oneLine_orDefault h.chime_config_version oneLine_unknown
  · exact oneLine_orDefault h.buildroot_version oneLine_unknown
  · exact oneLine_orDefault h.build_timestamp_utc h.date
  · exact oneLine_orDefault h.kernel_version oneLine_unknown
  · exact oneLine_orDefault h.source_git_sha oneLine_unknown
  · exact oneLine_orDefault h.source_git_short oneLine_unknown
  · exact oneLine_orDefault h.source_git_dirty oneLine_unknown

theorem map_fst_releaseEntries (m : BuildMeta) :
    (releaseEntries m).map Prod.fst = (releaseEntries ⟨none, none, none, none, [], none, none, none,
      none, none, none, none, none, none⟩).map Prod.fst := rfl

theorem plainName_of_mem {m : BuildMeta} : ∀ e ∈ releaseEntries m, PlainName e.1 := by
  have hkeys : ∀ key ∈ (releaseEntries m).map Prod.fst, PlainName key := by
    rw [map_fst_releaseEntries]
    decide +kernel
  intro e he
  exact hkeys e.1 (List.mem_map_of_mem he)

theorem nodup_keys (m : BuildMeta) : ((releaseEntries m).map Prod.fst).Nodup := by
  rw [map_fst_releaseEntries]
  decide

/-! ## 4. Reading back -/

section Lines

variable {entries : List (Bytes × Bytes)} (hkeys : ∀ e ∈ entries, PlainName e.1)
  (hvalues : ∀ e ∈ entries, OneLine e.2)

theorem PlainName.newline_not_mem {key : Bytes} (h : PlainName key) : newline ∉ key := by
  intro hmem
  have := (h.2.2 newline hmem).2
  revert this
  decide

include hkeys hvalues in
theorem getlines_joinLines_keyLine :
    getlines (Scanner.joinLines newline (entries.map keyLine)) = entries.map keyLine := by
  apply Scanner.lines_joinLines_of_clean
  intro line hline
  obtain ⟨e, he, rfl⟩ := List.mem_map.mp hline
  have hkey := (hkeys e he).newline_not_mem
  have hvalue := (hvalues e he).1
  have hequals : newline ≠ equals := by decide
  simp [keyLine, hkey, hvalue, hequals]

theorem keyValue_keyLine {e : Bytes × Bytes} (hkey : PlainName e.1) (hvalue : OneLine e.2) :
    keyValue (keyLine e) = some e := by
  obtain ⟨hne, hhash, hchars⟩ := hkey
  have htrim : trim e.1 = e.1 := trim_eq_self_of_forall fun c hc => (hchars c hc).2
  have hline : trim (keyLine e) = keyLine e := by
    rw [keyLine, trim_append_cons hne htrim (by decide),
      Scanner.rdropWhile_of_strip_eq_self hvalue.2]
  have hhead : (keyLine e).head? = e.1.head? := by
    obtain ⟨c, rest, hcons⟩ := List.exists_cons_of_ne_nil hne
    rw [keyLine, hcons]
    rfl
  have hcut : Scanner.cut equals (keyLine e) = some (e.1, e.2) :=
    Scanner.cut_append (fun hmem => (hchars equals hmem).1 rfl) e.2
  have hstart : ¬ (keyLine e = [] ∨ (keyLine e).head? = some hash) := by
    rw [hhead]
    rintro (hnil | hcomment)
    · exact List.append_ne_nil_of_right_ne_nil _ (List.cons_ne_nil _ _) hnil
    · exact hhash hcomment
  rw [keyValue, hline, if_neg hstart, hcut]
  dsimp only
  rw [htrim, hvalue.2, if_neg hne]

include hkeys hvalues in
theorem filterMap_keyValue : (entries.map keyLine).filterMap keyValue = entries := by
  rw [List.filterMap_map]
  calc entries.filterMap (keyValue ∘ keyLine) = entries.filterMap some :=
        List.filterMap_congr fun e he => keyValue_keyLine (hkeys e he) (hvalues e he)
    _ = entries := List.filterMap_some

/-- A line begins with another key and a separator only if the keys are the same. -/
theorem eq_of_isPrefixOf_keyLine {key : Bytes} {e : Bytes × Bytes} (hkey : equals ∉ key)
    (hname : equals ∉ e.1) (h : (key ++ [equals]).isPrefixOf (keyLine e) = true) : e.1 = key := by
  obtain ⟨rest, hrest⟩ := List.isPrefixOf_iff_prefix.mp h
  have hcut := Scanner.cut_append hname e.2
  have hcut' : Scanner.cut equals (keyLine e) = some (key, rest) := by
    rw [← hrest, List.append_assoc]
    exact Scanner.cut_append hkey rest
  rw [← keyLine, hcut'] at hcut
  exact (congrArg Prod.fst (Option.some.inj hcut)).symm

include hkeys in
/-- The first line that begins with a key is the line of that key. -/
theorem find?_keyLine (nodup : (entries.map Prod.fst).Nodup) {e : Bytes × Bytes}
    (he : e ∈ entries) :
    (entries.map keyLine).find? (fun line => (e.1 ++ [equals]).isPrefixOf line) =
      some (keyLine e) := by
  have hclean : ∀ e ∈ entries, equals ∉ e.1 := by
    intro e he hmem
    exact ((hkeys e he).2.2 equals hmem).1 rfl
  induction entries with
  | nil => cases he
  | cons first entries ih =>
    rw [List.map_cons, List.nodup_cons] at nodup
    rw [List.map_cons, List.find?_cons]
    rcases List.mem_cons.mp he with rfl | hmem
    · have hself : (e.1 ++ [equals]).isPrefixOf (keyLine e) = true := by
        rw [List.isPrefixOf_iff_prefix, keyLine]
        exact ⟨e.2, by simp⟩
      rw [hself]
    · have hother : (e.1 ++ [equals]).isPrefixOf (keyLine first) = false := by
        by_contra hstart
        rw [Bool.not_eq_false] at hstart
        have heq := eq_of_isPrefixOf_keyLine (hclean e he)
          (hclean first (List.mem_cons_self ..)) hstart
        exact nodup.1 (heq ▸ List.mem_map_of_mem hmem)
      rw [hother]
      exact ih (fun e he => hkeys e (List.mem_cons_of_mem _ he)) nodup.2 hmem
        (fun e he => hclean e (List.mem_cons_of_mem _ he))

end Lines

/-- Both readers find the value of every key of a file that the build wrote. -/
theorem release_values_found {m : BuildMeta} (h : Clean m) {e : Bytes × Bytes}
    (he : e ∈ releaseEntries m) :
    readReleaseValue (some (releaseFile m)) e.1 = e.2 ∧
      KeyMap.get e.1 (readKeyValueFile (some (releaseFile m))) = some e.2 := by
  have hlines : getlines (releaseFile m) = (releaseEntries m).map keyLine :=
    getlines_joinLines_keyLine plainName_of_mem h.oneLine
  constructor
  · rw [readReleaseValue, hlines, find?_keyLine plainName_of_mem (nodup_keys m) he]
    simp [keyLine]
  · have hnodup : ((releaseEntries m).reverse.map Prod.fst).Nodup := by
      rw [List.map_reverse]
      exact List.nodup_reverse.mpr (nodup_keys m)
    rw [readKeyValueFile, hlines, filterMap_keyValue plainName_of_mem h.oneLine, KeyMap.get_ofList]
    exact KeyMap.get_of_mem hnodup (List.mem_reverse.mpr he)

/-- A version as it is reported: unknown where it is empty. -/
def reported (full version : Bytes) : Bytes :=
  if full ≠ [] then full else if version ≠ [] then version else unknown

theorem readValueOrDefault_of_get {values : List (Bytes × Bytes)} {key value : Bytes}
    (h : KeyMap.get key values = some value) (fallback : Bytes) :
    readValueOrDefault values key fallback = if value = [] then fallback else value := by
  rw [readValueOrDefault, h]

theorem orDefault_unknown_ne_nil (given : Option Bytes) : orDefault given unknown ≠ [] := by
  rw [orDefault]
  split
  · decide
  · next hne => exact hne

/-- What the build wrote is what both programs report.  `ReadReleaseValue` finds the value of each
key, and `chime --version` prints those of four keys after its own constants, the build id only if
there is one.  The web console shows the versions with their build ids, that of the program from the
file that an update replaces if there is one. -/
theorem release_values_read (m : BuildMeta) (h : Clean m) (compiled : Compiled)
    (app_version : Option Bytes) :
    (∀ e ∈ releaseEntries m, readReleaseValue (some (releaseFile m)) e.1 = e.2) ∧
      printVersion compiled (some (releaseFile m)) =
        compiled.lines ++
        [keyLine (bytes "RUNTIME_OS_VERSION", osVersion m)] ++
        [keyLine (bytes "RUNTIME_KERNEL_RELEASE", orDefault m.kernel_version unknown)] ++
        runtimeLine (bytes "RUNTIME_CHIME_BUILD_ID") (chimeBuildId m) ++
        [keyLine (bytes "RUNTIME_SOURCE_GIT_SHA", orDefault m.source_git_sha unknown)] ∧
      systemVersion (some (releaseFile m)) app_version =
        { chime_version :=
            if readTrimmedFirstLine app_version ≠ [] then readTrimmedFirstLine app_version
            else reported (fullVersion (chimeAppVersion m) (chimeBuildId m)) (chimeAppVersion m)
          os_version := fullVersion (osVersion m) (osBuildId m)
          config_version := orDefault m.chime_config_version unknown } := by
  have hfound : ∀ (i : ℕ) (key value : Bytes), (releaseEntries m)[i]? = some (key, value) →
      readReleaseValue (some (releaseFile m)) key = value ∧
        KeyMap.get key (readKeyValueFile (some (releaseFile m))) = some value := by
    intro i key value hentry
    exact release_values_found h (List.mem_of_getElem? hentry)
  refine ⟨fun e he => (release_values_found h he).1, ?_, ?_⟩
  · have hos := (hfound 0 _ _ rfl).1
    have hkernel := (hfound 7 _ _ rfl).1
    have hid := (hfound 9 _ _ rfl).1
    have hsha := (hfound 11 _ _ rfl).1
    have hline : ∀ (name : Bytes) (given : Option Bytes),
        runtimeLine name (orDefault given unknown) = [keyLine (name, orDefault given unknown)] :=
      fun name given => if_pos (orDefault_unknown_ne_nil given)
    rw [printVersion, hos, hkernel, hid, hsha, osVersion, hline, hline, hline]
  · have hfull : fullVersion (osVersion m) (osBuildId m) ≠ [] := by
      rw [fullVersion]
      split
      · exact List.append_ne_nil_of_right_ne_nil _ (List.cons_ne_nil _ _)
      · exact orDefault_unknown_ne_nil _
    have hos := (hfound 1 _ _ rfl).2
    have happ := (hfound 2 _ _ rfl).2
    have happFull := (hfound 3 _ _ rfl).2
    have hconfig := (hfound 4 _ _ rfl).2
    rw [systemVersion, readValueOrDefault_of_get hos, readValueOrDefault_of_get happ,
      readValueOrDefault_of_get happFull, readValueOrDefault_of_get hconfig, if_neg hfull,
      if_neg (orDefault_unknown_ne_nil _)]
    simp only [reported, ne_eq, ite_not]

/-- The metadata of a build from a clean checkout. -/
def sampleMeta : BuildMeta where
  virtualchime_os_version := some (bytes "0.4.1")
  chime_config_version := some (bytes "1")
  buildroot_version := some (bytes "2024.02")
  build_timestamp_utc := none
  date := bytes "2026-01-02T03:04:05Z"
  chime_build_id := some (bytes "b7")
  virtualchime_build_id := none
  source_git_sha := none
  source_git_short := none
  source_git_dirty := some (bytes "0")
  kernel_version := some (bytes "6.1.0")
  sha256 := none
  chime_app_version_file := some (bytes "1.2.0\n")
  chime_build_id_file := none

theorem clean_sampleMeta : Clean sampleMeta := by
  constructor
  all_goals first
    | exact ⟨by decide, by decide⟩
    | (intro value hvalue
       cases hvalue <;> exact ⟨by decide, by decide⟩)

theorem release_values_read_sample :
    systemVersion (some (releaseFile sampleMeta)) none =
      ⟨bytes "1.2.0+b7", bytes "0.4.1", bytes "1"⟩ :=
  (release_values_read sampleMeta clean_sampleMeta
    ⟨bytes "1.2.0", bytes "b7", bytes "0.4.1", bytes "1"⟩ none).2.2

end VirtualChime.Release
