import VirtualChime.RingSounds
import VirtualChime.AtomicWrite
import VirtualChime.Library.PosixPath
import VirtualChime.Library.Calls

/-!
# The files that requests reach

`TryServeExternalUi` and the two handlers that write ring sounds, as programs that make the
file system calls of the source: whatever these reply, an upload, a selection or a request
for a page reaches only files in the directory that it is about.
-/

namespace VirtualChime.Webd

open PosixPath

namespace OnDisk

/-! ## 1. Calls -/

/-- The calls of the source to the file system, each with its path. -/
inductive FileCall where
  | exists_ (path : Bytes)
  | isDirectory (path : Bytes)
  | isRegularFile (path : Bytes)
  | createDirectories (path : Bytes)
  | readFile (path : Bytes)
  -- opening for writing makes or empties the file
  | openOutput (path : Bytes)
  | writeOutput (path content : Bytes)
  | syncOutput (path : Bytes)
  | closeOutput (path : Bytes)
  | copyFile (source target : Bytes)
  | rename (source target : Bytes)
  | remove (path : Bytes)
deriving DecidableEq, Repr

/-- What a call may reply: a question with an answer or the text of an error, the making of
directories with the text of an error, the reading of a file with its bytes, and the others with
whether they succeed. -/
@[reducible] def FileCall.Reply : FileCall → Type
  | .exists_ _ | .isDirectory _ | .isRegularFile _ => Except Bytes Bool
  | .createDirectories _ => Option Bytes
  | .readFile _ => Option Bytes
  | _ => Bool

/-- The files that a call opens, creates, replaces, reads or removes. -/
def FileCall.files : FileCall → List Bytes
  | .exists_ _ | .isDirectory _ | .isRegularFile _ | .createDirectories _ => []
  | .readFile path | .openOutput path | .writeOutput path _ | .syncOutput path
  | .closeOutput path | .remove path => [cString path]
  | .copyFile source target | .rename source target => [cString source, cString target]

/-- The reply is right for the file system. -/
def Answers (fs : FileSystem) : (c : FileCall) → c.Reply → Prop
  | .exists_ path, reply => ∀ b, reply = .ok b → (b = true ↔ fs.stat (cString path) ≠ none)
  | .isDirectory path, reply =>
      ∀ b, reply = .ok b → (b = true ↔ fs.stat (cString path) = some .directory)
  | .isRegularFile path, reply =>
      ∀ b, reply = .ok b → (b = true ↔ fs.stat (cString path) = some .regular)
  | _, _ => True

/-- Each reply is right for a file system; between two calls others may change it. -/
def Possible (c : FileCall) (reply : c.Reply) : Prop := ∃ fs, Answers fs c reply

abbrev FileProgram := Calls.Program FileCall FileCall.Reply

def perform (c : FileCall) : FileProgram c.Reply := Calls.Program.perform c

/-- The answer where an error counts as no. -/
def holds (answer : Except Bytes Bool) : Bool := answer.toOption.getD false

/-! ## 2. The pages -/

/-- A response with the headers that a page has of its own. -/
structure PageResponse extends HttpResponse where
  content_type : Bytes := bytes "application/json; charset=utf-8"
  cache_control : Bytes := bytes "no-store"
deriving DecidableEq, Repr

/-- The iteration of the source skips the empty components. -/
def isSafeRelativePath (path : Bytes) : Bool := (components path).all fun part => part != dotDot

def contentTypes : List (Bytes × Bytes) :=
  [(bytes ".html", bytes "text/html; charset=utf-8"), (bytes ".css", bytes "text/css; charset=utf-8"),
    (bytes ".js", bytes "application/javascript; charset=utf-8"),
    (bytes ".json", bytes "application/json; charset=utf-8"),
    (bytes ".svg", bytes "image/svg+xml"), (bytes ".ico", bytes "image/x-icon"),
    (bytes ".png", bytes "image/png"), (bytes ".jpg", bytes "image/jpeg"),
    (bytes ".jpeg", bytes "image/jpeg"), (bytes ".webp", bytes "image/webp"),
    (bytes ".woff2", bytes "font/woff2"), (bytes ".woff", bytes "font/woff")]

def contentTypeForPath (path : Bytes) : Bytes :=
  (contentTypes.lookup ((extension path).map toLower)).getD (bytes "application/octet-stream")

def cacheControlForPath (request_path path : Bytes) : Bytes :=
  if (extension path).map toLower = bytes ".html" then bytes "no-cache"
  else if (bytes "/assets/").isPrefixOf request_path then
    bytes "public, max-age=31536000, immutable"
  else bytes "public, max-age=3600"

/-- The lambda of `TryServeExternalUi`. -/
def responseFromFile (file_path request_path : Bytes) : FileProgram (Option PageResponse) := do
  let found ← perform (.exists_ file_path)
  if !holds found then return none
  let regular ← perform (.isRegularFile file_path)
  if !holds regular then return none
  match ← perform (.readFile file_path) with
  | none =>
      return some {
        status := 500
        body := jsonObject [(bytes "error", bytes "\"ui_read_failed\"")] }
  | some body =>
      return some {
        status := 200
        body
        content_type := contentTypeForPath file_path
        cache_control := cacheControlForPath request_path file_path }

def notFound : PageResponse where
  status := 404
  body := jsonObject [(bytes "error", bytes "\"not_found\"")]

def tryServeExternalUi (ui_dist_dir : Bytes) (request : HttpRequest) :
    FileProgram (Option PageResponse) := do
  if ui_dist_dir = [] ∨ request.method ≠ bytes "GET" then return none
  if request.path.head? ≠ some slash ∨ (bytes "/api/").isPrefixOf request.path then return none
  let found ← perform (.exists_ ui_dist_dir)
  if !holds found then return none
  let directory ← perform (.isDirectory ui_dist_dir)
  if !holds directory then return none
  let index := join ui_dist_dir (bytes "index.html")
  if request.path = bytes "/" then responseFromFile index (bytes "/")
  else
    let relative_path := relativePath request.path
    if relative_path = [] ∨ !isSafeRelativePath relative_path then return some notFound
    if let some response ← responseFromFile (join ui_dist_dir relative_path) request.path then
      return some response
    if !(bytes "/assets/").isPrefixOf request.path ∧ extension relative_path = [] then
      if let some response ← responseFromFile index (bytes "/") then return some response
    return some notFound

/-! ## 3. The ring sounds -/

/-- The directories and files of the server, as `main` takes them from the environment. -/
structure ServedPaths where
  ui_dist_dir : Bytes
  ring_sounds_dir : Bytes
  active_ring_sound_path : Bytes
  ui_dist_dir_clean : ui_dist_dir ≠ [] ∧ 0 ∉ ui_dist_dir
  ring_sounds_dir_clean : ring_sounds_dir ≠ [] ∧ 0 ∉ ring_sounds_dir
  active_ring_sound_path_clean : active_ring_sound_path ≠ [] ∧ 0 ∉ active_ring_sound_path

/-- The error if there is one. -/
def ensureDirectoryExists (path : Bytes) : FileProgram (Option Bytes) := do
  match ← perform (.exists_ path) with
  | .error message => return some (bytes "exists(" ++ path ++ bytes ") failed: " ++ message)
  | .ok true =>
      match ← perform (.isDirectory path) with
      | .error message => return some (bytes "is_directory(" ++ path ++ bytes ") failed: " ++ message)
      | .ok false => return some (bytes "path exists but is not a directory: " ++ path)
      | .ok true => return none
  | .ok false =>
      match ← perform (.createDirectories path) with
      | some message =>
          return some (bytes "create_directories(" ++ path ++ bytes ") failed: " ++ message)
      | none => return none

def temporary (path : Bytes) : Bytes := path ++ bytes ".tmp"

def saveFailed (message : String) : HttpResponse :=
  ⟨500, errorBody (bytes "save_failed") (bytes message)⟩

def handleUploadRingSound (paths : ServedPaths) (request : HttpRequest) :
    FileProgram HttpResponse := do
  let sound_name := uploadName request
  if !isSafeSoundName sound_name then return invalidSoundName
  if request.has_content_type && mimeTypeOnly request.content_type != bytes "audio/wav" &&
      mimeTypeOnly request.content_type != bytes "audio/x-wav" then return notWav
  if !startsLikeWav request.body then return notWav
  if let some ensure_error ← ensureDirectoryExists paths.ring_sounds_dir then
    return ringSoundsUnavailable ensure_error
  let sound_path := join paths.ring_sounds_dir sound_name
  let temp_path := temporary sound_path
  if !(← perform (.openOutput temp_path)) then return saveFailed "failed to open destination"
  if !(← perform (.writeOutput temp_path request.body)) then
    let _ ← perform (.remove temp_path)
    return saveFailed "failed to write destination"
  if !(← perform (.rename temp_path sound_path)) then
    let _ ← perform (.remove temp_path)
    return saveFailed "failed to move destination"
  return ⟨200, jsonObject [(bytes "uploaded", jsonString sound_name)]⟩

/-- Writing, syncing and closing a file that is open; whether all went well. -/
def writeSynced (path content : Bytes) : FileProgram Bool := do
  if !(← perform (.writeOutput path content)) then
    let _ ← perform (.closeOutput path)
    return false
  let synced ← perform (.syncOutput path)
  let closed ← perform (.closeOutput path)
  return synced && closed

/-- The block of `HandleSelectRingSound` that writes `selected.txt`. -/
def persistSelection (paths : ServedPaths) (sound_name : Bytes) : FileProgram Bool := do
  let selected_path := paths.ring_sounds_dir ++ bytes "/selected.txt"
  let temp_selected_path := temporary selected_path
  if !(← perform (.openOutput temp_selected_path)) then return false
  let io_ok ← writeSynced temp_selected_path (sound_name ++ [newline])
  if !io_ok then
    let _ ← perform (.remove temp_selected_path)
    return false
  if !(← perform (.rename temp_selected_path selected_path)) then
    let _ ← perform (.remove temp_selected_path)
    return false
  return true

def soundNotFound : HttpResponse :=
  ⟨404, errorBody (bytes "not_found") (bytes "sound file does not exist")⟩

def activateFailed (message : String) : HttpResponse :=
  ⟨500, errorBody (bytes "activate_failed") (bytes message)⟩

/-- The part of `HandleSelectRingSound` from the look for the sound on; an inspection that throws
leaves the request without a response. -/
def activateRingSound (paths : ServedPaths) (sound_name : Bytes) :
    FileProgram (Option HttpResponse) := do
  if let some ensure_error ← ensureDirectoryExists paths.ring_sounds_dir then
    return some (ringSoundsUnavailable ensure_error)
  let source := join paths.ring_sounds_dir sound_name
  match ← perform (.exists_ source) with
  | .error _ => return none
  | .ok false => return some soundNotFound
  | .ok true =>
      match ← perform (.isRegularFile source) with
      | .error _ => return none
      | .ok false => return some soundNotFound
      | .ok true =>
          let target_path := paths.active_ring_sound_path
          if let some message ← perform (.createDirectories (parentPath target_path)) then
            return some ⟨500, errorBody (bytes "create_directory_failed")
              (bytes "failed to create parent directory: " ++ message)⟩
          let temp_path := temporary target_path
          if !(← perform (.copyFile source temp_path)) then
            return some (activateFailed "failed to copy selected sound")
          if !(← perform (.rename temp_path target_path)) then
            let _ ← perform (.remove temp_path)
            return some (activateFailed "failed to activate selected sound")
          let selection_persisted ← persistSelection paths sound_name
          return some ⟨200, jsonObject [(bytes "selected", jsonString sound_name),
            (bytes "selection_persisted", jsonBool selection_persisted)]⟩

def handleSelectRingSound (paths : ServedPaths) (request : HttpRequest) :
    FileProgram (Option HttpResponse) :=
  match parseJson request.body with
  | .ok (.object items) =>
      match readRequiredString (.object items) (bytes "name") with
      | (some sound_name, []) =>
          if isSafeSoundName sound_name then activateRingSound paths sound_name
          else return some invalidSoundName
      | _ => return some invalidSoundName
  | _ => return some ⟨400, errorBody (bytes "invalid_json") (bytes "payload must be an object")⟩

/-! ## 4. Confinement -/

variable {α β : Type} {P : Bytes → Prop}

/-- The program, in some run, opens, creates, replaces, reads or removes the file. -/
def Reaches (p : FileProgram α) (path : Bytes) : Prop :=
  ∃ c, Calls.Makes Possible p c ∧ path ∈ c.files

def AllFiles (P : Bytes → Prop) (p : FileProgram α) : Prop :=
  Calls.Always Possible (fun c => ∀ path ∈ c.files, P path) p

theorem AllFiles.of_reaches {p : FileProgram α} (h : AllFiles P p) {path : Bytes}
    (hpath : Reaches p path) : P path := by
  obtain ⟨c, hmakes, hmem⟩ := hpath
  exact h c hmakes path hmem

theorem allFiles_pure (a : α) : AllFiles P (pure a : FileProgram α) := Calls.always_pure a

theorem allFiles_perform {c : FileCall} {k : c.Reply → FileProgram α}
    (hc : ∀ path ∈ c.files, P path) (hk : ∀ reply, Possible c reply → AllFiles P (k reply)) :
    AllFiles P (perform c >>= k) := Calls.always_perform hc hk

/-- A call that reaches no file. -/
theorem allFiles_ask {c : FileCall} {k : c.Reply → FileProgram α} (hc : c.files = [])
    (hk : ∀ reply, Possible c reply → AllFiles P (k reply)) : AllFiles P (perform c >>= k) := by
  apply allFiles_perform _ hk
  intro path hpath
  rw [hc] at hpath
  cases hpath

theorem AllFiles.bind {p : FileProgram α} {k : α → FileProgram β} (hp : AllFiles P p)
    (hk : ∀ a, AllFiles P (k a)) : AllFiles P (p >>= k) := Calls.Always.bind hp hk

theorem regular_of_holds {path : Bytes} {reply : Except Bytes Bool}
    (hpossible : Possible (.isRegularFile path) reply) (h : holds reply = true) :
    ∃ fs : FileSystem, fs.stat (cString path) = some .regular := by
  obtain ⟨fs, hanswers⟩ := hpossible
  cases reply with
  | error message => cases h
  | ok b => exact ⟨fs, (hanswers b rfl).mp h⟩

theorem not_mem_of_isSafeRelativePath {path : Bytes} (h : isSafeRelativePath path = true) :
    dotDot ∉ components path := by
  intro hmem
  have hne := List.all_eq_true.mp h dotDot hmem
  revert hne
  decide

/-- What is read is in the directory. -/
theorem allFiles_responseFromFile {dir path : Bytes} (request_path : Bytes)
    (hdir : dir ≠ [] ∧ 0 ∉ dir) (hpath : isAbsolute path = false)
    (hup : dotDot ∉ components path) :
    AllFiles (IsDescent dir) (responseFromFile (join dir path) request_path) := by
  unfold responseFromFile
  refine allFiles_ask rfl ?_
  intro found _
  split
  · exact allFiles_pure _
  · refine allFiles_ask rfl ?_
    intro regular hpossible
    split
    · exact allFiles_pure _
    · next hholds =>
      obtain ⟨fs, hregular⟩ := regular_of_holds hpossible (by simpa using hholds)
      have hdescent := isDescent_of_regular hdir.1 hdir.2 hpath hup hregular
      refine allFiles_perform (List.forall_mem_singleton.mpr hdescent) ?_
      intro body _
      cases body with
      | none => exact allFiles_pure _
      | some body => exact allFiles_pure _

theorem allFiles_tryServeExternalUi {ui_dist_dir : Bytes}
    (hdir : ui_dist_dir ≠ [] ∧ 0 ∉ ui_dist_dir) (request : HttpRequest) :
    AllFiles (IsDescent ui_dist_dir) (tryServeExternalUi ui_dist_dir request) := by
  have hindex : AllFiles (IsDescent ui_dist_dir)
      (responseFromFile (join ui_dist_dir (bytes "index.html")) (bytes "/")) :=
    allFiles_responseFromFile (bytes "/") hdir (by decide) (by decide)
  unfold tryServeExternalUi
  split
  · exact allFiles_pure _
  · split
    · exact allFiles_pure _
    · refine allFiles_ask rfl ?_
      intro found _
      split
      · exact allFiles_pure _
      · refine allFiles_ask rfl ?_
        intro directory _
        split
        · exact allFiles_pure _
        · dsimp only
          split
          · exact hindex
          · split
            · exact allFiles_pure _
            · next hsafe =>
              have hup : dotDot ∉ components (relativePath request.path) := by
                rw [not_or, Bool.not_eq_true', Bool.not_eq_false] at hsafe
                exact not_mem_of_isSafeRelativePath hsafe.2
              apply (allFiles_responseFromFile request.path hdir
                (isAbsolute_relativePath request.path) hup).bind
              intro response
              cases response with
              | some response => exact allFiles_pure _
              | none =>
                dsimp only
                split
                · apply hindex.bind
                  intro fallback
                  cases fallback with
                  | some response => exact allFiles_pure _
                  | none => exact allFiles_pure _
                · exact allFiles_pure _

/-! ## 5. The directory of the ring sounds -/

def bookkeeping : List Bytes := [bytes "selected.txt", temporary (bytes "selected.txt")]

/-- What the handlers may reach in the directory: the record of the selection, and the file of a
sound that is none of its files, each with its temporary file. -/
def IsSoundsFile (name : Bytes) : Prop :=
  name ∈ bookkeeping ∨ ∃ sound_name, isSafeSoundName sound_name = true ∧
    sound_name ∉ bookkeeping ∧ temporary sound_name ∉ bookkeeping ∧
    (name = sound_name ∨ name = temporary sound_name)

def InSounds (paths : ServedPaths) (path : Bytes) : Prop :=
  ∃ name, IsSoundsFile name ∧ IsEntry paths.ring_sounds_dir name path

/-- The sound that rings, with its temporary file. -/
def IsActiveSound (paths : ServedPaths) (path : Bytes) : Prop :=
  path = paths.active_ring_sound_path ∨ path = temporary paths.active_ring_sound_path

theorem prefix_ring_ne {name : Bytes} (h : isSafeSoundName name = true) :
    ∀ other ∈ bookkeeping, name ≠ other := by
  rintro other hother rfl
  revert h
  fin_cases hother <;> decide

theorem temporary_ne {name : Bytes} (h : isSafeSoundName name = true) :
    temporary name ∉ bookkeeping := by
  intro hmem
  rcases List.mem_cons.mp hmem with heq | hmem
  · have hsuffix : bytes ".tmp" <:+ bytes "selected.txt" := ⟨name, heq⟩
    revert hsuffix
    decide
  · have hname : name = bytes "selected.txt" :=
      List.append_cancel_right (List.mem_singleton.mp hmem)
    exact prefix_ring_ne h _ (by decide) hname

/-- A name that is a path of one component. -/
structure IsPlainName (name : Bytes) : Prop where
  slash_not_mem : slash ∉ name
  zero_not_mem : 0 ∉ name
  not_special : ¬ IsSpecial name

theorem isPlainName_of_isSafeSoundName {name : Bytes} (h : isSafeSoundName name = true) :
    IsPlainName name := by
  obtain ⟨hstart, hclass⟩ := RingSounds.prefix_and_class_of_isSafeSoundName h
  refine ⟨?_, ?_, ?_⟩
  · intro hmem
    have hslash := hclass _ hmem
    revert hslash
    decide
  · intro hmem
    have hzero := hclass _ hmem
    revert hzero
    decide
  · intro hspecial
    have hlength := (List.isPrefixOf_iff_prefix.mp hstart).length_le
    rcases hspecial with rfl | rfl | rfl <;> revert hlength <;> decide

theorem IsPlainName.temporary {name : Bytes} (h : IsPlainName name) :
    IsPlainName (temporary name) := by
  refine ⟨?_, ?_, ?_⟩
  · intro hmem
    rcases List.mem_append.mp hmem with hmem | hmem
    · exact h.slash_not_mem hmem
    · revert hmem
      decide
  · intro hmem
    rcases List.mem_append.mp hmem with hmem | hmem
    · exact h.zero_not_mem hmem
    · revert hmem
      decide
  · intro hspecial
    have hlength : 4 ≤ (OnDisk.temporary name).length := by
      rw [OnDisk.temporary, List.length_append]
      exact Nat.le_add_left _ _
    rcases hspecial with heq | heq | heq <;> rw [heq] at hlength <;> revert hlength <;> decide

theorem IsPlainName.inSounds {name : Bytes} (h : IsPlainName name) (hfile : IsSoundsFile name)
    (paths : ServedPaths) : InSounds paths (cString (join paths.ring_sounds_dir name)) := by
  obtain ⟨hne, hzero⟩ := paths.ring_sounds_dir_clean
  rw [cString_join hzero (isAbsolute_of_not_mem h.slash_not_mem), cString_of_not_mem h.zero_not_mem]
  exact ⟨name, hfile, isEntry_join hne h.slash_not_mem h.not_special⟩

theorem temporary_join {name : Bytes} (h : IsPlainName name) (dir : Bytes) :
    temporary (join dir name) = join dir (temporary name) := by
  apply join_append (isAbsolute_of_not_mem h.slash_not_mem)
  intro hnil
  exact h.not_special (Or.inl hnil)

theorem inSounds_append_slash {name : Bytes} (h : IsPlainName name) (hfile : IsSoundsFile name)
    (paths : ServedPaths) : InSounds paths (cString (paths.ring_sounds_dir ++ slash :: name)) := by
  obtain ⟨hne, hzero⟩ := paths.ring_sounds_dir_clean
  have hclean : 0 ∉ slash :: name := by
    rw [List.mem_cons, not_or]
    exact ⟨by decide, h.zero_not_mem⟩
  rw [cString_append hzero, cString_of_not_mem hclean]
  exact ⟨name, hfile, isEntry_append_slash hne h.slash_not_mem h.not_special⟩

theorem isPlainName_selected : IsPlainName (bytes "selected.txt") where
  slash_not_mem := by decide
  zero_not_mem := by decide
  not_special := by decide

/-- The files of a selection's record. -/
theorem inSounds_selected (paths : ServedPaths) :
    InSounds paths (cString (paths.ring_sounds_dir ++ bytes "/selected.txt")) ∧
      InSounds paths (cString (temporary (paths.ring_sounds_dir ++ bytes "/selected.txt"))) := by
  constructor
  · exact inSounds_append_slash isPlainName_selected (Or.inl (by decide)) paths
  · rw [temporary, List.append_assoc]
    exact inSounds_append_slash isPlainName_selected.temporary (Or.inl (by decide)) paths

/-- The files of a sound. -/
theorem inSounds_sound {name : Bytes} (h : isSafeSoundName name = true) (paths : ServedPaths) :
    InSounds paths (cString (join paths.ring_sounds_dir name)) ∧
      InSounds paths (cString (temporary (join paths.ring_sounds_dir name))) := by
  have hplain := isPlainName_of_isSafeSoundName h
  have hname : name ∉ bookkeeping := by
    intro hmem
    exact prefix_ring_ne h name hmem rfl
  constructor
  · exact hplain.inSounds (Or.inr ⟨name, h, hname, temporary_ne h, Or.inl rfl⟩) paths
  · rw [temporary_join hplain]
    exact hplain.temporary.inSounds (Or.inr ⟨name, h, hname, temporary_ne h, Or.inr rfl⟩) paths

theorem allFiles_ensureDirectoryExists (path : Bytes) : AllFiles P (ensureDirectoryExists path) := by
  refine allFiles_ask rfl ?_
  rintro (message | found) _
  · exact allFiles_pure _
  · cases found with
    | true =>
      refine allFiles_ask rfl ?_
      rintro (message | directory) _
      · exact allFiles_pure _
      · cases directory with
        | true => exact allFiles_pure _
        | false => exact allFiles_pure _
    | false =>
      refine allFiles_ask rfl ?_
      rintro (_ | message) _
      · exact allFiles_pure _
      · exact allFiles_pure _

/-- An upload reaches only the files of its sound. -/
theorem allFiles_handleUploadRingSound (paths : ServedPaths) (request : HttpRequest) :
    AllFiles (InSounds paths) (handleUploadRingSound paths request) := by
  unfold handleUploadRingSound
  dsimp only
  split
  · exact allFiles_pure _
  · next hsafe =>
    obtain ⟨hsound, htemp⟩ := inSounds_sound (by simpa using hsafe) paths
    have hone := List.forall_mem_singleton.mpr htemp
    have htwo := List.forall_mem_cons.mpr ⟨htemp, List.forall_mem_singleton.mpr hsound⟩
    split
    · exact allFiles_pure _
    · split
      · exact allFiles_pure _
      · refine (allFiles_ensureDirectoryExists _).bind ?_
        rintro (_ | ensure_error)
        · refine allFiles_perform hone ?_
          intro opened _
          split
          · exact allFiles_pure _
          · refine allFiles_perform hone ?_
            intro written _
            split
            · refine allFiles_perform hone ?_
              intro _ _
              exact allFiles_pure _
            · refine allFiles_perform htwo ?_
              intro moved _
              split
              · refine allFiles_perform hone ?_
                intro _ _
                exact allFiles_pure _
              · exact allFiles_pure _
        · exact allFiles_pure _

theorem allFiles_writeSynced {path : Bytes} (h : P (cString path)) (content : Bytes) :
    AllFiles P (writeSynced path content) := by
  have hone := List.forall_mem_singleton.mpr h
  unfold writeSynced
  refine allFiles_perform hone ?_
  intro written _
  split
  · refine allFiles_perform hone ?_
    intro _ _
    exact allFiles_pure _
  · refine allFiles_perform hone ?_
    intro synced _
    refine allFiles_perform hone ?_
    intro closed _
    exact allFiles_pure _

theorem allFiles_persistSelection (paths : ServedPaths) (sound_name : Bytes) :
    AllFiles (InSounds paths) (persistSelection paths sound_name) := by
  obtain ⟨hselected, htemp⟩ := inSounds_selected paths
  have hone := List.forall_mem_singleton.mpr htemp
  have htwo := List.forall_mem_cons.mpr ⟨htemp, List.forall_mem_singleton.mpr hselected⟩
  unfold persistSelection
  refine allFiles_perform hone ?_
  intro opened _
  split
  · exact allFiles_pure _
  · refine (allFiles_writeSynced htemp _).bind ?_
    intro io_ok
    split
    · refine allFiles_perform hone ?_
      intro _ _
      exact allFiles_pure _
    · refine allFiles_perform htwo ?_
      intro moved _
      split
      · refine allFiles_perform hone ?_
        intro _ _
        exact allFiles_pure _
      · exact allFiles_pure _

theorem AllFiles.mono {P' : Bytes → Prop} {p : FileProgram α} (h : AllFiles P p)
    (hP : ∀ path, P path → P' path) : AllFiles P' p := by
  intro c hmakes path hpath
  exact hP path (h c hmakes path hpath)

theorem isActiveSound_cString (paths : ServedPaths) :
    IsActiveSound paths (cString paths.active_ring_sound_path) ∧
      IsActiveSound paths (cString (temporary paths.active_ring_sound_path)) := by
  have hzero := paths.active_ring_sound_path_clean.2
  constructor
  · exact Or.inl (cString_of_not_mem hzero)
  · have hsuffix : cString (bytes ".tmp") = bytes ".tmp" := by decide
    rw [temporary, cString_append hzero, hsuffix]
    exact Or.inr rfl

/-- A selection reaches the files of its sound, those of the record and the sound that rings. -/
theorem allFiles_activateRingSound (paths : ServedPaths) {sound_name : Bytes}
    (hsafe : isSafeSoundName sound_name = true) :
    AllFiles (fun path => InSounds paths path ∨ IsActiveSound paths path)
      (activateRingSound paths sound_name) := by
  have hsource := (inSounds_sound hsafe paths).1
  obtain ⟨htarget, htemp⟩ := isActiveSound_cString paths
  unfold activateRingSound
  refine (allFiles_ensureDirectoryExists _).bind ?_
  rintro (_ | ensure_error)
  · refine allFiles_ask rfl ?_
    rintro (message | found) _
    · exact allFiles_pure _
    · cases found with
      | false => exact allFiles_pure _
      | true =>
        refine allFiles_ask rfl ?_
        rintro (message | regular) _
        · exact allFiles_pure _
        · cases regular with
          | false => exact allFiles_pure _
          | true =>
            refine allFiles_ask rfl ?_
            rintro (_ | message) _
            · refine allFiles_perform (List.forall_mem_cons.mpr
                ⟨Or.inl hsource, List.forall_mem_singleton.mpr (Or.inr htemp)⟩) ?_
              intro copied _
              split
              · exact allFiles_pure _
              · refine allFiles_perform (List.forall_mem_cons.mpr
                  ⟨Or.inr htemp, List.forall_mem_singleton.mpr (Or.inr htarget)⟩) ?_
                intro activated _
                split
                · refine allFiles_perform (List.forall_mem_singleton.mpr (Or.inr htemp)) ?_
                  intro _ _
                  exact allFiles_pure _
                · refine ((allFiles_persistSelection paths sound_name).mono ?_).bind ?_
                  · intro path hpath
                    exact Or.inl hpath
                  · intro selection_persisted
                    exact allFiles_pure _
            · exact allFiles_pure _
  · exact allFiles_pure _

theorem allFiles_handleSelectRingSound (paths : ServedPaths) (request : HttpRequest) :
    AllFiles (fun path => InSounds paths path ∨ IsActiveSound paths path)
      (handleSelectRingSound paths request) := by
  unfold handleSelectRingSound
  split
  · split
    · split
      · next hsafe => exact allFiles_activateRingSound paths hsafe
      · exact allFiles_pure _
    · exact allFiles_pure _
  · exact allFiles_pure _

/-! ## 6. The handlers without their paths -/

theorem run_perform_bind (answer : (c : FileCall) → c.Reply) (c : FileCall)
    (k : c.Reply → FileProgram α) :
    (perform c >>= k).run answer = (k (answer c)).run answer := rfl

/-- What becomes of the file operations of an upload under these replies. -/
def uploadIo (answer : (c : FileCall) → c.Reply) (paths : ServedPaths) (request : HttpRequest) :
    SoundsIo :=
  let sound_path := join paths.ring_sounds_dir (uploadName request)
  { ensureError := (ensureDirectoryExists paths.ring_sounds_dir).run answer
    destinationOpens := answer (.openOutput (temporary sound_path))
    destinationWritten := answer (.writeOutput (temporary sound_path) request.body)
    destinationMoved := answer (.rename (temporary sound_path) sound_path) }

/-- The calls of an upload lead to the response of the handler over the sounds by name. -/
theorem run_handleUploadRingSound (answer : (c : FileCall) → c.Reply) (paths : ServedPaths)
    (s : RingSounds) (request : HttpRequest) :
    some ((handleUploadRingSound paths request).run answer) =
      (Webd.handleUploadRingSound s request (uploadIo answer paths request)).2 := by
  unfold handleUploadRingSound Webd.handleUploadRingSound uploadIo
  dsimp only
  split
  · rfl
  · split
    · rfl
    · split
      · rfl
      · rw [Calls.Program.run_bind]
        cases (ensureDirectoryExists paths.ring_sounds_dir).run answer with
        | some ensure_error => rfl
        | none =>
          dsimp only
          rw [run_perform_bind]
          split
          · rfl
          · rw [run_perform_bind]
            split
            · rfl
            · rw [run_perform_bind]
              split
              · rfl
              · rfl

def throws (answer : Except Bytes Bool) : Bool := !answer.toBool

/-- What becomes of the file operations of a selection under these replies. -/
def selectIo (answer : (c : FileCall) → c.Reply) (paths : ServedPaths) (sound_name : Bytes) :
    SoundsIo :=
  let source := join paths.ring_sounds_dir sound_name
  let target_path := paths.active_ring_sound_path
  { ensureError := (ensureDirectoryExists paths.ring_sounds_dir).run answer
    inspectionThrows := throws (answer (.exists_ source)) ||
      (holds (answer (.exists_ source)) && throws (answer (.isRegularFile source)))
    parentError := answer (.createDirectories (parentPath target_path))
    copied := answer (.copyFile source (temporary target_path))
    activated := answer (.rename (temporary target_path) target_path)
    selectionPersisted := (persistSelection paths sound_name).run answer }

/-- The replies are those for a directory that holds these sounds. -/
def Agrees (answer : (c : FileCall) → c.Reply) (paths : ServedPaths) (s : RingSounds)
    (sound_name : Bytes) : Prop :=
  let source := join paths.ring_sounds_dir sound_name
  (KeyMap.get sound_name s.sounds).isSome =
    (holds (answer (.exists_ source)) && holds (answer (.isRegularFile source)))

theorem run_activateRingSound {answer : (c : FileCall) → c.Reply} {paths : ServedPaths}
    {s : RingSounds} {sound_name : Bytes} (hsound : Agrees answer paths s sound_name) :
    (activateRingSound paths sound_name).run answer =
      (Webd.activateRingSound s sound_name (selectIo answer paths sound_name)).2 := by
  unfold activateRingSound Webd.activateRingSound selectIo
  unfold Agrees at hsound
  rw [Calls.Program.run_bind]
  dsimp only at hsound ⊢
  cases (ensureDirectoryExists paths.ring_sounds_dir).run answer with
  | some ensure_error => rfl
  | none =>
    dsimp only
    rw [run_perform_bind]
    obtain ⟨found, hfound⟩ :
        ∃ reply : Except Bytes Bool,
          answer (.exists_ (join paths.ring_sounds_dir sound_name)) = reply := ⟨_, rfl⟩
    obtain ⟨regular, hregular⟩ :
        ∃ reply : Except Bytes Bool,
          answer (.isRegularFile (join paths.ring_sounds_dir sound_name)) = reply := ⟨_, rfl⟩
    rw [hfound, hregular] at hsound
    simp only [hfound, hregular]
    have hnone : (KeyMap.get sound_name s.sounds).isSome = false →
        KeyMap.get sound_name s.sounds = none := by
      intro hmissing
      exact Option.isNone_iff_eq_none.mp (Option.isSome_eq_false_iff.mp hmissing)
    rcases found with message | _ | _
    · rfl
    · rw [hnone hsound]
      rfl
    · dsimp only
      rw [run_perform_bind, hregular]
      rcases regular with message | _ | _
      · rfl
      · rw [hnone hsound]
        rfl
      · obtain ⟨sound, hget⟩ := Option.isSome_iff_exists.mp hsound
        rw [hget, run_perform_bind]
        obtain ⟨parent, hparent⟩ :
            ∃ reply : Option Bytes,
              answer (.createDirectories (parentPath paths.active_ring_sound_path)) = reply :=
          ⟨_, rfl⟩
        simp only [hparent]
        cases parent with
        | some message => rfl
        | none =>
          dsimp only
          rw [run_perform_bind]
          split
          · rfl
          · rw [run_perform_bind]
            split
            · rfl
            · rw [Calls.Program.run_bind]
              rfl

/-- What a selection makes of its payload. -/
def requestedSound (request : HttpRequest) : Except HttpResponse Bytes :=
  match parseJson request.body with
  | .ok (.object items) =>
      match readRequiredString (.object items) (bytes "name") with
      | (some sound_name, []) =>
          if isSafeSoundName sound_name then .ok sound_name else .error invalidSoundName
      | _ => .error invalidSoundName
  | _ => .error ⟨400, errorBody (bytes "invalid_json") (bytes "payload must be an object")⟩

theorem handleSelectRingSound_eq (paths : ServedPaths) (request : HttpRequest) :
    handleSelectRingSound paths request =
      match requestedSound request with
      | .error response => pure (some response)
      | .ok sound_name => activateRingSound paths sound_name := by
  unfold handleSelectRingSound requestedSound
  split
  · split
    · split
      · rfl
      · rfl
    · rfl
  · rfl

theorem webd_handleSelectRingSound_eq (s : RingSounds) (request : HttpRequest) (io : SoundsIo) :
    Webd.handleSelectRingSound s request io =
      match requestedSound request with
      | .error response => (s, some response)
      | .ok sound_name => Webd.activateRingSound s sound_name io := by
  unfold Webd.handleSelectRingSound requestedSound
  cases parseJson request.body with
  | error e => rfl
  | ok value =>
    cases value with
    | object items =>
      dsimp only
      rcases readRequiredString (.object items) (bytes "name") with ⟨_ | sound_name, _ | ⟨e, es⟩⟩
      · rfl
      · rfl
      · dsimp only
        split
        · rfl
        · rfl
      · rfl
    | _ => rfl

/-- The calls of a selection lead to the response of the handler over the sounds by name. -/
theorem run_handleSelectRingSound {answer : (c : FileCall) → c.Reply} {paths : ServedPaths}
    {s : RingSounds} (hsounds : ∀ sound_name, Agrees answer paths s sound_name)
    (request : HttpRequest) :
    ∃ io, (handleSelectRingSound paths request).run answer =
      (Webd.handleSelectRingSound s request io).2 := by
  rw [handleSelectRingSound_eq]
  cases hrequested : requestedSound request with
  | error response =>
    refine ⟨{}, ?_⟩
    rw [webd_handleSelectRingSound_eq, hrequested]
    rfl
  | ok sound_name =>
    refine ⟨selectIo answer paths sound_name, ?_⟩
    rw [webd_handleSelectRingSound_eq, hrequested]
    exact run_activateRingSound (hsounds sound_name)

/-! ## 7. Every request -/

/-- `EnvOrDefault`; a value of the environment is a C string. -/
def envOrDefault (getEnv : Bytes → Bytes) (key fallback : Bytes) : Bytes :=
  if getEnv key ≠ [] then getEnv key else fallback

def kUiDistDir : Bytes := bytes "/usr/local/share/chime-web-ui/dist"
def kRingSoundsDir : Bytes := bytes "/var/lib/chime/ring_sounds"
def kActiveRingSoundPath : Bytes := bytes "/usr/local/share/chime/ring.wav"

theorem envOrDefault_clean {getEnv : Bytes → Bytes} (h : ∀ key, 0 ∉ getEnv key) (key : Bytes)
    {fallback : Bytes} (hfallback : fallback ≠ [] ∧ 0 ∉ fallback) :
    envOrDefault getEnv key fallback ≠ [] ∧ 0 ∉ envOrDefault getEnv key fallback := by
  rw [envOrDefault]
  split
  · next hne => exact ⟨hne, h key⟩
  · exact hfallback

/-- The paths that `main` hands to the server. -/
def ServedPaths.ofEnvironment (getEnv : Bytes → Bytes) (h : ∀ key, 0 ∉ getEnv key) :
    ServedPaths where
  ui_dist_dir := envOrDefault getEnv (bytes "CHIME_WEBD_UI_DIST_DIR") kUiDistDir
  ring_sounds_dir := envOrDefault getEnv (bytes "CHIME_WEBD_RING_SOUNDS_DIR") kRingSoundsDir
  active_ring_sound_path :=
    envOrDefault getEnv (bytes "CHIME_WEBD_ACTIVE_RING_SOUND") kActiveRingSoundPath
  ui_dist_dir_clean := envOrDefault_clean h _ (by decide)
  ring_sounds_dir_clean := envOrDefault_clean h _ (by decide)
  active_ring_sound_path_clean := envOrDefault_clean h _ (by decide)

/-- The paths of the device, where none of the variables is set. -/
def deployed : ServedPaths := .ofEnvironment (fun _ => []) fun _ => List.not_mem_nil

/-- The sound that rings is not kept among the ring sounds. -/
theorem not_inside_of_isActiveSound {path : Bytes} (h : IsActiveSound deployed path) :
    ¬ Inside deployed.ring_sounds_dir path := by
  rintro ⟨-, below, -, -, hnames⟩
  have htake := congrArg (List.take 4) hnames
  rw [List.take_append_of_le_length (by decide)] at htake
  rcases h with rfl | rfl <;> revert htake <;> decide

/-- Whatever a request asks for: the files of a page are in the directory of the pages, and an
upload and a selection reach among the ring sounds only a sound with a safe name, the record of
the selection and their temporary files. -/
theorem request_paths_confined (paths : ServedPaths) (request : HttpRequest) :
    (∀ path, Reaches (tryServeExternalUi paths.ui_dist_dir request) path →
      Inside paths.ui_dist_dir path) ∧
    (∀ path, Reaches (handleUploadRingSound paths request) path → InSounds paths path) ∧
    (∀ path, Reaches (handleSelectRingSound paths request) path →
      InSounds paths path ∨ IsActiveSound paths path) ∧
    ∀ path, Reaches (handleSelectRingSound deployed request) path →
      Inside deployed.ring_sounds_dir path → InSounds deployed path := by
  refine ⟨?_, ?_, ?_, ?_⟩
  · intro path hpath
    have hdescent := allFiles_tryServeExternalUi paths.ui_dist_dir_clean request
    exact (hdescent.of_reaches hpath).inside paths.ui_dist_dir_clean.1
  · intro path hpath
    exact (allFiles_handleUploadRingSound paths request).of_reaches hpath
  · intro path hpath
    exact (allFiles_handleSelectRingSound paths request).of_reaches hpath
  · intro path hpath hinside
    rcases (allFiles_handleSelectRingSound deployed request).of_reaches hpath with h | h
    · exact h
    · exact absurd hinside (not_inside_of_isActiveSound h)

/-- A file system with one page. -/
def onePage : FileSystem :=
  Tree.fileSystem (.directory [(bytes "usr", .directory [(bytes "local", .directory
    [(bytes "share", .directory [(bytes "chime-web-ui", .directory [(bytes "dist", .directory
      [(bytes "favicon.ico", .file [])])])])])])])

theorem request_paths_confined_favicon :
    Inside deployed.ui_dist_dir (bytes "/usr/local/share/chime-web-ui/dist/favicon.ico") := by
  apply (request_paths_confined deployed
    { method := bytes "GET", path := bytes "//favicon.ico" }).1
  refine ⟨.readFile (bytes "/usr/local/share/chime-web-ui/dist/favicon.ico"), ?_, by decide⟩
  rw [tryServeExternalUi, if_neg (by decide), if_neg (by decide)]
  refine Calls.makes_perform (.ok true) ⟨onePage, ?_⟩ ?_
  · rintro b ⟨⟩
    decide
  rw [if_neg (by decide)]
  refine Calls.makes_perform (.ok true) ⟨onePage, ?_⟩ ?_
  · rintro b ⟨⟩
    decide
  rw [if_neg (by decide), if_neg (by decide), if_neg (by decide)]
  apply Calls.Makes.bind
  refine Calls.makes_perform (.ok true) ⟨onePage, ?_⟩ ?_
  · rintro b ⟨⟩
    decide
  rw [if_neg (by decide)]
  refine Calls.makes_perform (.ok true) ⟨onePage, ?_⟩ ?_
  · rintro b ⟨⟩
    decide
  rw [if_neg (by decide)]
  exact .now _

/-- Without links what is read for a page is in the directory itself. -/
theorem page_file_below (paths : ServedPaths) (request : HttpRequest) {path : Bytes}
    (hpath : Reaches (tryServeExternalUi paths.ui_dist_dir request) path) {root : Tree}
    {directory place : Tree.Place} (hdirectory : root.resolve paths.ui_dist_dir = some directory)
    (hplace : root.resolve path = some place) : Tree.Below directory.2 place.2 := by
  have hdescent := allFiles_tryServeExternalUi paths.ui_dist_dir_clean request
  exact Tree.below_of_isDescent (hdescent.of_reaches hpath) hdirectory hplace

end OnDisk

end VirtualChime.Webd
