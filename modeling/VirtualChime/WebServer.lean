import VirtualChime.ServedPaths
import VirtualChime.ApiResponses
import VirtualChime.ApplyManager
import VirtualChime.ReleaseInfo

/-!
# The web server

`Route` sends each request to its handler.  The state behind the handlers is the
configuration on disk, the ring sounds and the apply manager.  Whatever a request is and
whatever its handler meets, the answer is a page of the user interface or an object that says
whether it is an error (`route_answers`).
-/

namespace VirtualChime.Webd

open OnDisk PosixPath

/-! ## 1. The source -/

/-- What the handlers work on. -/
structure WebState where
  disk : Disk
  sounds : RingSounds
  apply : ApplyManager

/-- The members of `WebServer` that the handlers read. -/
structure WebServer where
  config_store : ConfigStore := {}
  ui_dist_dir : Bytes := kUiDistDir

/-- What one request meets outside the server. -/
structure RequestIo where
  -- the load of `HandleGetCoreConfig`
  chime_open : Option Bytes := none
  wpa_open : Option Bytes := none
  post : PostFaults := {}
  sounds : SoundsIo := {}
  scan : WifiScanResult := {}
  -- a signal is an `int`
  scan_signals : ∀ network ∈ scan.networks, IsInt network.signal_dbm
  observed_topics : Option Bytes := none
  release_info : Option Bytes := none
  app_version : Option Bytes := none
  -- the file system, as `TryServeExternalUi` asks it
  ui : (c : FileCall) → c.Reply
  -- the time at which `StartApply` is called
  now : Bytes := []

def stateName : ApplyState → Bytes
  | .idle => bytes "idle"
  | .pending => bytes "pending"
  | .running => bytes "running"
  | .succeeded => bytes "succeeded"
  | .failed => bytes "failed"

def ApplyStatus.report (status : ApplyStatus) : ApplyReport where
  job_id := status.job_id
  state := stateName status.state
  started_at_utc := status.started_at_utc
  finished_at_utc := status.finished_at_utc
  error := status.error

def mainPageLines : List Bytes := [
  bytes "<!doctype html>",
  bytes "<html lang=\"en\">",
  bytes "<head>",
  bytes "  <meta charset=\"utf-8\" />",
  bytes "  <meta name=\"viewport\" content=\"width=device-width, initial-scale=1\" />",
  bytes "  <title>Chime Web Console Unavailable</title>",
  bytes "  <style>",
  bytes "    body \x7b",
  bytes "      margin: 24px;",
  bytes "      font-family: system-ui, sans-serif;",
  bytes "      line-height: 1.4;",
  bytes "      color: #1f2937;",
  bytes "      background: #f8fafc;",
  bytes "    \x7d",
  bytes "    .card \x7b",
  bytes "      max-width: 680px;",
  bytes "      background: #fff;",
  bytes "      border: 1px solid #d1d5db;",
  bytes "      border-radius: 10px;",
  bytes "      padding: 16px;",
  bytes "    \x7d",
  bytes "    h1 \x7b margin-top: 0; \x7d",
  bytes "    code \x7b",
  bytes "      background: #f3f4f6;",
  bytes "      border: 1px solid #e5e7eb;",
  bytes "      border-radius: 4px;",
  bytes "      padding: 1px 4px;",
  bytes "    \x7d",
  bytes "  </style>",
  bytes "</head>",
  bytes "<body>",
  bytes "  <div class=\"card\">",
  bytes "    <h1>Web UI Unavailable</h1>",
  bytes "    <p>Something went wrong loading the web interface.</p>",
  bytes "    <p>Check that UI assets are built and the <code>CHIME_WEBD_UI_DIST_DIR</code> path is " ++
    bytes "valid, then restart <code>chime-webd</code>.</p>",
  bytes "  </div>",
  bytes "</body>",
  bytes "</html>"]

/-- `MainPageHtml` -/
def mainPageHtml : Bytes := Scanner.joinLines newline mainPageLines

def reservedNotImplemented (path : Bytes) : HttpResponse :=
  ⟨501, jsonObject [(bytes "error", bytes "\"not_implemented\""),
    (bytes "message", bytes "\"reserved endpoint\""), (bytes "path", jsonString path)]⟩

/-- A response with the headers that `HttpResponse` has by default. -/
def apiPage (response : HttpResponse) : PageResponse := { toHttpResponse := response }

/-- The answer to POST and what it leaves: `StartApply` is called once the configuration is
saved. -/
def postCoreConfig (server : WebServer) (s : WebState) (body : Bytes) (io : RequestIo) :
    WebState × HttpResponse :=
  let (status, apply) := s.apply.startApply io.now
  let (response, disk) :=
    handlePostCoreConfig server.config_store body io.post status.report s.disk
  ({ s with disk, apply := if response.status = 200 then apply else s.apply }, response)

def coreConfigPath : Bytes := bytes "/api/v1/config/core"

/-- A path of the ring sounds. -/
def isRingSoundsPath (path : Bytes) : Bool :=
  decide (path = bytes "/api/v1/ring/sounds") || ringSoundsPrefix.isPrefixOf path

def reservedRoots : List Bytes :=
  [bytes "/api/v1/system", bytes "/api/v1/device", bytes "/api/v1/diagnostics"]

def isReservedPath (path : Bytes) : Bool :=
  reservedRoots.any fun root => decide (path = root) || (root ++ [slash]).isPrefixOf path

/-- A route that is there for GET alone. -/
def getOnly (request : HttpRequest) (response : HttpResponse) : HttpResponse :=
  if request.method ≠ bytes "GET" then methodNotAllowed else response

/-- What a request of one of the paths below `/api/` or of the user interface is answered with,
where the state plays no part. -/
def routeStateless (server : WebServer) (request : HttpRequest) (io : RequestIo) : PageResponse :=
  if request.path = bytes "/api/v1/wifi/scan" then
    apiPage (getOnly request (handleWifiScan io.scan))
  else if request.path = bytes "/api/v1/system/version" then
    apiPage (getOnly request (Release.handleGetSystemVersion io.release_info io.app_version))
  else if request.path = bytes "/api/v1/mqtt/topics" then
    apiPage (getOnly request (handleGetObservedTopics io.observed_topics))
  else if isReservedPath request.path then apiPage (reservedNotImplemented request.path)
  else
    match (tryServeExternalUi server.ui_dist_dir request).run io.ui with
    | some ui_response => ui_response
    | none =>
        if request.method = bytes "GET" ∧ request.path = [slash] then
          { status := 200, body := mainPageHtml, content_type := bytes "text/html; charset=utf-8" }
        else notFound

/-- `Route`; there is no response where a handler throws.  The paths of the routes are disjoint, so
that their order makes no difference. -/
def route (server : WebServer) (s : WebState) (request : HttpRequest) (io : RequestIo) :
    WebState × Option PageResponse :=
  if request.path = coreConfigPath then
    if request.method = bytes "GET" then
      (s, some (apiPage (handleGetCoreConfig server.config_store s.disk io.chime_open io.wpa_open
        s.apply.status_.report)))
    else if request.method = bytes "POST" then
      let (s, response) := postCoreConfig server s request.body io
      (s, some (apiPage response))
    else (s, some (apiPage methodNotAllowed))
  else if isRingSoundsPath request.path then
    let (sounds, response) := routeRingSounds s.sounds request io.sounds
    ({ s with sounds }, response.map apiPage)
  else (s, some (routeStateless server request io))

/-! ## 2. Answers -/

def errorKey : Bytes := bytes "error"

/-- The body is an object, by the grammar of JSON and for the parser of the server; it has an error,
which is not empty, exactly when the status is not 200. -/
def IsAnswer (response : HttpResponse) : Prop :=
  JsonText.IsJson (fun _ => True) response.body ∧
  ∃ items, parseJson response.body = .ok (.object items) ∧
    if response.status = 200 then getObjectField (.object items) errorKey = none
    else ∃ error, error ≠ [] ∧ getObjectField (.object items) errorKey = some (.string error)

theorem getObjectField_none {ms : List SpeltMember} (h : ∀ m ∈ ms, m.key ≠ errorKey) :
    getObjectField (.ofMembers (ms.map fun m => (m.key, m.value))) errorKey = none := by
  rw [JsonValue.ofMembers, getObjectField, KeyMap.get_ofList, KeyMap.get, Option.map_eq_none_iff,
    List.find?_eq_none]
  intro e he
  obtain ⟨m, hm, rfl⟩ := List.mem_map.mp (List.mem_reverse.mp he)
  simpa using h m hm

theorem getObjectField_first {m : SpeltMember} {ms : List SpeltMember} (hkey : m.key = errorKey)
    (h : ∀ m ∈ ms, m.key ≠ errorKey) :
    getObjectField (.ofMembers ((m :: ms).map fun m => (m.key, m.value))) errorKey =
      some m.value := by
  have hnone : (ms.map fun m => (m.key, m.value)).reverse.find? (fun e => e.1 = errorKey) =
      none := by
    rw [List.find?_eq_none]
    intro e he
    obtain ⟨m, hm, rfl⟩ := List.mem_map.mp (List.mem_reverse.mp he)
    simpa using h m hm
  rw [JsonValue.ofMembers, getObjectField, KeyMap.get_ofList, KeyMap.get, List.map_cons,
    List.reverse_cons, List.find?_append, hnone, Option.none_or]
  simp [hkey]

/-- A success whose members are no errors. -/
theorem isAnswer_of_members (ms : List SpeltMember) (h : ∀ m ∈ ms, m.key ≠ errorKey) :
    IsAnswer ⟨200, jsonObject (ms.map fun m => (m.key, m.text))⟩ :=
  ⟨isJson_of_spelt (spelt_jsonObject ms), _, parseJson_of_spelt (spelt_jsonObject ms),
    getObjectField_none h⟩

/-- The codes by which a failure is named. -/
def errorCodes : List Bytes :=
  [bytes "activate_failed", bytes "bad_request", bytes "create_directory_failed",
    bytes "invalid_json", bytes "invalid_payload", bytes "invalid_sound_name", bytes "load_failed",
    bytes "method_not_allowed", bytes "not_found", bytes "not_implemented",
    bytes "ring_sounds_unavailable", bytes "save_failed", bytes "scan_failed",
    bytes "ui_read_failed", bytes "validation_failed"]

theorem errorCodes_plain : ∀ error ∈ errorCodes, error ≠ [] ∧ PlainKey error := by decide +kernel

/-- The keys of the members of an answer. -/
def answerKeys : List Bytes :=
  [errorKey, bytes "message", bytes "path", bytes "field", bytes "validation_errors",
    bytes "networks", bytes "topics", bytes "chime_version", bytes "os_version",
    bytes "config_version", bytes "selected_sound", bytes "sounds", bytes "uploaded",
    bytes "selected", bytes "selection_persisted"]

theorem plain_of_mem {key : Bytes} (h : key ∈ answerKeys) : PlainKey key := by
  have hall : ∀ key ∈ answerKeys, PlainKey key := by decide +kernel
  exact hall key h

/-- A failure that names its error first. -/
theorem isAnswer_of_error {status : Nat} (error : Bytes) {text : Bytes} (ms : List SpeltMember)
    (hstatus : status ≠ 200) (hcode : error ∈ errorCodes) (htext : text = 34 :: (error ++ [34]))
    (h : ∀ m ∈ ms, m.key ≠ errorKey) :
    IsAnswer ⟨status, jsonObject ((bytes "error", text) :: ms.map fun m => (m.key, m.text))⟩ := by
  subst htext
  obtain ⟨hne, plain⟩ := errorCodes_plain error hcode
  have hkey : PlainKey errorKey := plain_of_mem (List.mem_cons_self ..)
  have hspelt := spelt_jsonObject
    (⟨errorKey, _, .string error, hkey, spelt_pieces plain.exists_pieces⟩ :: ms)
  refine ⟨isJson_of_spelt hspelt, _, parseJson_of_spelt hspelt, ?_⟩
  dsimp only
  rw [if_neg hstatus]
  exact ⟨error, hne, getObjectField_first rfl h⟩

theorem key_ne_of_keys {ms : List SpeltMember} (keys : List Bytes) (hkeys : ms.map (·.key) = keys)
    (h : errorKey ∉ keys) : ∀ m ∈ ms, m.key ≠ errorKey := by
  rintro m hm heq
  apply h
  rw [← hkeys, ← heq]
  exact List.mem_map_of_mem hm

theorem isAnswer_errorBody {status : Nat} {error : Bytes} (hstatus : status ≠ 200)
    (hcode : error ∈ errorCodes) (message : Bytes) :
    IsAnswer ⟨status, errorBody error message⟩ :=
  isAnswer_of_error _ [.string (bytes "message") message (plain_of_mem (by simp [answerKeys]))]
    hstatus hcode rfl
    (key_ne_of_keys [bytes "message"] rfl (by decide))

/-- A failure without a message. -/
theorem isAnswer_bare {status : Nat} (error : Bytes) {text : Bytes} (hstatus : status ≠ 200)
    (hcode : error ∈ errorCodes) (htext : text = 34 :: (error ++ [34])) :
    IsAnswer ⟨status, jsonObject [(bytes "error", text)]⟩ :=
  isAnswer_of_error _ [] hstatus hcode htext fun _ h => absurd h List.not_mem_nil

theorem isAnswer_methodNotAllowed : IsAnswer methodNotAllowed :=
  isAnswer_bare (bytes "method_not_allowed") (by decide) (by simp [errorCodes]) (by decide)

theorem isAnswer_reservedNotImplemented (path : Bytes) :
    IsAnswer (reservedNotImplemented path) :=
  isAnswer_of_error (bytes "not_implemented")
    [⟨bytes "message", bytes "\"reserved endpoint\"", .string (bytes "reserved endpoint"),
        plain_of_mem (by simp [answerKeys]),
        spelt_pieces (PlainKey.exists_pieces (by decide +kernel))⟩,
      .string (bytes "path") path (plain_of_mem (by simp [answerKeys]))]
    (by decide) (by simp [errorCodes]) (by decide)
    (key_ne_of_keys [bytes "message", bytes "path"] rfl (by decide))

theorem exists_spelt_validationErrors (errors : List ValidationError) :
    ∃ value, Spelt (serializeValidationErrors errors) value := by
  have hitem : ∀ e : ValidationError, ∃ value, Spelt
      (jsonObject [(bytes "field", jsonString e.field), (bytes "message", jsonString e.message)])
      value := by
    intro e
    exact ⟨_, spelt_jsonObject
      [.string (bytes "field") e.field (plain_of_mem (by simp [answerKeys])),
        .string (bytes "message") e.message (plain_of_mem (by simp [answerKeys]))]⟩
  choose value hvalue using hitem
  have hitems : List.Forall₂ Spelt
      (errors.map fun e =>
        jsonObject [(bytes "field", jsonString e.field), (bytes "message", jsonString e.message)])
      (errors.map value) := by
    induction errors with
    | nil => exact List.Forall₂.nil
    | cons e errors ih => exact List.Forall₂.cons (hvalue e) ih
  exact ⟨_, spelt_jsonArray hitems⟩

theorem isAnswer_validationFailedBody (errors : List ValidationError) :
    IsAnswer ⟨400, validationFailedBody errors⟩ := by
  obtain ⟨value, hspelt⟩ := exists_spelt_validationErrors errors
  exact isAnswer_of_error (bytes "validation_failed")
    [⟨bytes "validation_errors", _, value, plain_of_mem (by simp [answerKeys]), hspelt⟩]
    (by decide) (by simp [errorCodes]) (by decide)
    (key_ne_of_keys [bytes "validation_errors"] rfl (by decide))

theorem isAnswer_coreConfigBody {snapshot : CoreConfigSnapshot} (ints : IntFields snapshot.config)
    (apply : ApplyReport) : IsAnswer ⟨200, coreConfigBody snapshot apply⟩ := by
  have hkeys : errorKey ∉ (coreConfigSpelt ints apply).map (·.key) := by
    change errorKey ∉ (coreConfigMembers {} {}).map Prod.fst
    decide
  exact isAnswer_of_members (coreConfigSpelt ints apply) (key_ne_of_keys _ rfl hkeys)

theorem intFields_loadCoreConfig {store : ConfigStore} {disk : Disk}
    {chimeOpen wpaOpen : Option Bytes}
    (h : (loadCoreConfig store disk chimeOpen wpaOpen).success = true) :
    IntFields (loadCoreConfig store disk chimeOpen wpaOpen).snapshot.config := by
  obtain ⟨chime, -, hsnapshot⟩ := loadCoreConfig_success h
  rw [hsnapshot]
  exact intFields_snapshotOf _ _

theorem isAnswer_handleGetCoreConfig (store : ConfigStore) (disk : Disk)
    (chimeOpen wpaOpen : Option Bytes) (apply : ApplyReport) :
    IsAnswer (handleGetCoreConfig store disk chimeOpen wpaOpen apply) := by
  rw [handleGetCoreConfig]
  split
  · exact isAnswer_errorBody (by decide) (by simp [errorCodes]) _
  · next hsuccess =>
    exact isAnswer_coreConfigBody (intFields_loadCoreConfig (by simpa using hsuccess)) _

theorem isAnswer_handleWifiScan {scan : WifiScanResult}
    (signals : ∀ network ∈ scan.networks, IsInt network.signal_dbm) :
    IsAnswer (handleWifiScan scan) := by
  rw [handleWifiScan]
  split
  · exact isAnswer_errorBody (by decide) (by simp [errorCodes]) _
  · exact isAnswer_of_members
      [⟨bytes "networks", _, _, plain_of_mem (by simp [answerKeys]),
        spelt_jsonArray (spelt_networks signals)⟩]
      (key_ne_of_keys [bytes "networks"] rfl (by decide))

theorem isAnswer_handleGetObservedTopics (file : Option Bytes) :
    IsAnswer (handleGetObservedTopics file) :=
  isAnswer_of_members
    [⟨bytes "topics", _, _, plain_of_mem (by simp [answerKeys]), spelt_serializeTopics _⟩]
    (key_ne_of_keys [bytes "topics"] rfl (by decide))

theorem isAnswer_handleGetSystemVersion (release_info app_version : Option Bytes) :
    IsAnswer (Release.handleGetSystemVersion release_info app_version) :=
  isAnswer_of_members
    [.string (bytes "chime_version") _ (plain_of_mem (by simp [answerKeys])),
      .string (bytes "os_version") _ (plain_of_mem (by simp [answerKeys])),
      .string (bytes "config_version") _ (plain_of_mem (by simp [answerKeys]))]
    (key_ne_of_keys [bytes "chime_version", bytes "os_version", bytes "config_version"] rfl
      (by decide))

/-- The snapshot of a save that succeeds has been read back. -/
theorem intFields_saveCoreConfig {store : ConfigStore} {request : SaveRequest} {faults : SaveFaults}
    {disk : Disk} (h : (saveCoreConfig store request faults disk).1.success = true) :
    IntFields (saveCoreConfig store request faults disk).1.snapshot.config := by
  rw [saveCoreConfig] at h ⊢
  dsimp only at h ⊢
  split at h
  · cases h
  · next haccepted =>
    rw [if_neg haccepted]
    split at h
    · next hexisting =>
      rw [h] at hexisting
      cases hexisting
    · next hexisting =>
      rw [if_neg hexisting]
      rcases hwpa : saveWpaSupplicant store request faults disk with ⟨_ | _, written⟩
      · rw [hwpa] at h
        cases h
      · rw [hwpa] at h
        rcases hchime : saveChimeConfig store request
            (loadCoreConfig store disk faults.existing_chime_open faults.existing_wpa_open).snapshot
            faults written with ⟨_ | _, saved⟩
        · simp only [hchime] at h
          cases h
        · simp only [hchime] at h ⊢
          exact intFields_loadCoreConfig h

theorem isAnswer_savePosted (store : ConfigStore) (request : SaveRequest) (faults : SaveFaults)
    (apply : ApplyReport) (disk : Disk) :
    IsAnswer (savePosted store request faults apply disk).1 := by
  rw [savePosted]
  dsimp only
  split
  · exact isAnswer_validationFailedBody _
  · split
    · exact isAnswer_errorBody (by decide) (by simp [errorCodes]) _
    · next hsuccess =>
      exact isAnswer_coreConfigBody (intFields_saveCoreConfig (by simpa using hsuccess)) _

theorem isAnswer_handlePostCoreConfig (store : ConfigStore) (body : Bytes) (faults : PostFaults)
    (apply : ApplyReport) (disk : Disk) :
    IsAnswer (handlePostCoreConfig store body faults apply disk).1 := by
  rw [handlePostCoreConfig]
  split
  · exact isAnswer_errorBody (by decide) (by simp [errorCodes]) _
  · rw [postObject]
    dsimp only
    split
    · exact isAnswer_validationFailedBody _
    · split
      · exact isAnswer_errorBody (by decide) (by simp [errorCodes]) _
      · exact isAnswer_savePosted ..
  · exact isAnswer_errorBody (by decide) (by simp [errorCodes]) _

/-- Whatever the response is, it is an answer. -/
def Answers (result : RingSounds × Option HttpResponse) : Prop :=
  ∀ response, result.2 = some response → IsAnswer response

theorem answers_none (s : RingSounds) : Answers (s, none) := by
  intro response h
  cases h

theorem answers_some {s : RingSounds} {response : HttpResponse} (h : IsAnswer response) :
    Answers (s, some response) := by
  intro other heq
  rwa [← Option.some.inj heq]

theorem answers_errorBody (s : RingSounds) {status : Nat} {error : Bytes} (hstatus : status ≠ 200)
    (hcode : error ∈ errorCodes) (message : Bytes) :
    Answers (s, some ⟨status, errorBody error message⟩) :=
  answers_some (isAnswer_errorBody hstatus hcode message)

theorem answers_handleGetRingSounds (s : RingSounds) (io : SoundsIo) :
    Answers (handleGetRingSounds s io) := by
  intro response h
  obtain ⟨report, -, rfl⟩ := Option.map_eq_some_iff.mp h
  rcases report with error | report
  · exact isAnswer_errorBody (by decide) (by simp [errorCodes]) _
  · exact isAnswer_of_members
      [.string (bytes "selected_sound") report.selected_sound (plain_of_mem (by simp [answerKeys])),
        ⟨bytes "sounds", _, _, plain_of_mem (by simp [answerKeys]),
          spelt_serializeTopics report.sounds⟩]
      (key_ne_of_keys [bytes "selected_sound", bytes "sounds"] rfl (by decide))

theorem answers_handleUploadRingSound (s : RingSounds) (request : HttpRequest) (io : SoundsIo) :
    Answers (handleUploadRingSound s request io) := by
  rw [handleUploadRingSound]
  split
  · exact answers_errorBody s (by decide) (by simp [errorCodes]) _
  · split
    · exact answers_errorBody s (by decide) (by simp [errorCodes]) _
    · split
      · exact answers_errorBody s (by decide) (by simp [errorCodes]) _
      · cases io.ensureError with
        | some error => exact answers_errorBody s (by decide) (by simp [errorCodes]) _
        | none =>
          dsimp only
          split
          · exact answers_errorBody s (by decide) (by simp [errorCodes]) _
          · split
            · exact answers_errorBody s (by decide) (by simp [errorCodes]) _
            · split
              · exact answers_errorBody s (by decide) (by simp [errorCodes]) _
              · exact answers_some (isAnswer_of_members
                  [.string (bytes "uploaded") (uploadName request)
                    (plain_of_mem (by simp [answerKeys]))]
                  (key_ne_of_keys [bytes "uploaded"] rfl (by decide)))

theorem answers_activateRingSound (s : RingSounds) (sound_name : Bytes) (io : SoundsIo) :
    Answers (activateRingSound s sound_name io) := by
  rw [activateRingSound]
  cases io.ensureError with
  | some error => exact answers_errorBody s (by decide) (by simp [errorCodes]) _
  | none =>
    dsimp only
    split
    · exact answers_none s
    · cases KeyMap.get sound_name s.sounds with
      | none => exact answers_errorBody s (by decide) (by simp [errorCodes]) _
      | some sound =>
        cases io.parentError with
        | some error => exact answers_errorBody s (by decide) (by simp [errorCodes]) _
        | none =>
          dsimp only
          split
          · exact answers_errorBody s (by decide) (by simp [errorCodes]) _
          · split
            · exact answers_errorBody s (by decide) (by simp [errorCodes]) _
            · exact answers_some (isAnswer_of_members
                [.string (bytes "selected") sound_name (plain_of_mem (by simp [answerKeys])),
                  .bool (bytes "selection_persisted") io.selectionPersisted
                    (plain_of_mem (by simp [answerKeys]))]
                (key_ne_of_keys [bytes "selected", bytes "selection_persisted"] rfl
                  (by decide)))

theorem answers_handleSelectRingSound (s : RingSounds) (request : HttpRequest) (io : SoundsIo) :
    Answers (handleSelectRingSound s request io) := by
  rw [handleSelectRingSound]
  split
  · split
    · split
      · exact answers_activateRingSound s _ io
      · exact answers_errorBody s (by decide) (by simp [errorCodes]) _
    · exact answers_errorBody s (by decide) (by simp [errorCodes]) _
  · exact answers_errorBody s (by decide) (by simp [errorCodes]) _

theorem answers_routeRingSounds (s : RingSounds) (request : HttpRequest) (io : SoundsIo) :
    Answers (routeRingSounds s request io) := by
  have hmethod := answers_some (s := s) isAnswer_methodNotAllowed
  rw [routeRingSounds]
  split
  · split
    · exact answers_handleGetRingSounds s io
    · exact hmethod
  · split
    · split
      · split
        · exact hmethod
        · exact answers_handleSelectRingSound s request io
      · split
        · exact hmethod
        · exact answers_handleUploadRingSound s request io
    · exact answers_none s

/-! ## 3. Pages -/

def pageContentTypes : List Bytes :=
  bytes "application/octet-stream" :: contentTypes.map (·.2)

def pageCacheControls : List Bytes :=
  [bytes "no-cache", bytes "public, max-age=31536000, immutable", bytes "public, max-age=3600",
    bytes "no-store"]

/-- What is sent of a file, or in place of one. -/
structure IsFile (response : PageResponse) : Prop where
  status : response.status = 200
  content_type : response.content_type ∈ pageContentTypes
  cache_control : response.cache_control ∈ pageCacheControls

/-- A page is an answer to a GET outside `/api/`. -/
structure IsPage (request : HttpRequest) (response : PageResponse) : Prop extends
    IsFile response where
  method : request.method = bytes "GET"
  path : ¬ (bytes "/api/").isPrefixOf request.path

/-- An answer with the headers of the API: it is not to be stored. -/
structure IsApiAnswer (response : PageResponse) : Prop where
  answer : IsAnswer response.toHttpResponse
  content_type : response.content_type = bytes "application/json; charset=utf-8"
  cache_control : response.cache_control = bytes "no-store"

theorem isApiAnswer_apiPage {response : HttpResponse} (h : IsAnswer response) :
    IsApiAnswer (apiPage response) := ⟨h, rfl, rfl⟩

theorem isApiAnswer_notFound : IsApiAnswer notFound := by
  have hbare : IsAnswer ⟨404, jsonObject [(bytes "error", bytes "\"not_found\"")]⟩ :=
    isAnswer_bare (bytes "not_found") (by decide) (by simp [errorCodes]) (by decide)
  exact isApiAnswer_apiPage hbare

/-- The file system answers once for each call, so that one table of answers is any of its
answers. -/
theorem run_perform_then {α : Type} (ui : (c : FileCall) → c.Reply) (c : FileCall)
    (k : c.Reply → FileProgram α) : (perform c >>= k).run ui = (k (ui c)).run ui := rfl

theorem contentTypeForPath_mem (path : Bytes) : contentTypeForPath path ∈ pageContentTypes := by
  rw [contentTypeForPath]
  cases hlookup : contentTypes.lookup ((extension path).map toLower) with
  | none => exact List.mem_cons_self ..
  | some content_type =>
    obtain ⟨before, after, hentry, -⟩ := List.lookup_eq_some_iff.mp hlookup
    apply List.mem_cons_of_mem
    rw [hentry]
    simp

theorem cacheControlForPath_mem (request_path path : Bytes) :
    cacheControlForPath request_path path ∈ pageCacheControls := by
  rw [cacheControlForPath]
  split
  · decide
  · split
    · decide
    · decide

/-- A file is sent, or an error if it cannot be read. -/
theorem responseFromFile_cases (ui : (c : FileCall) → c.Reply) (file_path request_path : Bytes) :
    ∀ response, (responseFromFile file_path request_path).run ui = some response →
      IsFile response ∨ IsApiAnswer response := by
  intro response h
  rw [responseFromFile, run_perform_then] at h
  split at h
  · cases h
  · rw [run_perform_then] at h
    split at h
    · cases h
    · rw [run_perform_then] at h
      split at h
      · right
        obtain rfl := Option.some.inj h
        have hbare : IsAnswer ⟨500, jsonObject [(bytes "error", bytes "\"ui_read_failed\"")]⟩ :=
          isAnswer_bare (bytes "ui_read_failed") (by decide) (by simp [errorCodes]) (by decide)
        exact isApiAnswer_apiPage hbare
      · left
        obtain rfl := Option.some.inj h
        exact ⟨rfl, contentTypeForPath_mem _, cacheControlForPath_mem _ _⟩

/-- What the user interface answers is a page, or an error. -/
theorem tryServeExternalUi_cases (ui : (c : FileCall) → c.Reply) (ui_dist_dir : Bytes)
    (request : HttpRequest) (response : PageResponse)
    (h : (tryServeExternalUi ui_dist_dir request).run ui = some response) :
    IsPage request response ∨ IsApiAnswer response := by
  rw [tryServeExternalUi] at h
  split at h
  · cases h
  · next hget =>
    split at h
    · cases h
    · next hpath =>
      have hfile : ∀ file_path request_path, (responseFromFile file_path request_path).run ui =
          some response → IsPage request response ∨ IsApiAnswer response := by
        intro file_path request_path hrun
        rcases responseFromFile_cases ui file_path request_path response hrun with hpage | hanswer
        · left
          refine ⟨hpage, ?_, ?_⟩
          · by_contra hmethod
            exact hget (Or.inr hmethod)
          · intro hapi
            exact hpath (Or.inr hapi)
        · exact Or.inr hanswer
      have hmissing : some notFound = some response →
          IsPage request response ∨ IsApiAnswer response := by
        intro heq
        rw [← Option.some.inj heq]
        exact Or.inr isApiAnswer_notFound
      rw [run_perform_then] at h
      split at h
      · cases h
      · rw [run_perform_then] at h
        split at h
        · cases h
        · dsimp only at h
          split at h
          · exact hfile _ _ h
          · split at h
            · exact hmissing h
            · rw [Calls.Program.run_bind] at h
              split at h
              · next found hfound =>
                rw [Calls.Program.run_pure] at h
                exact hfile _ _ (hfound.trans h)
              · split at h
                · rw [Calls.Program.run_bind] at h
                  split at h
                  · next fallback hfallback =>
                    rw [Calls.Program.run_pure] at h
                    exact hfile _ _ (hfallback.trans h)
                  · exact hmissing h
                · exact hmissing h

/-! ## 4. Every answer -/

theorem routeStateless_answers (server : WebServer) (request : HttpRequest) (io : RequestIo) :
    IsPage request (routeStateless server request io) ∨
      IsApiAnswer (routeStateless server request io) := by
  have hgetOnly : ∀ response, IsAnswer response →
      IsApiAnswer (apiPage (getOnly request response)) := by
    intro response hanswer
    apply isApiAnswer_apiPage
    rw [getOnly]
    split
    · exact isAnswer_methodNotAllowed
    · exact hanswer
  rw [routeStateless]
  split
  · exact Or.inr (hgetOnly _ (isAnswer_handleWifiScan io.scan_signals))
  · split
    · exact Or.inr (hgetOnly _ (isAnswer_handleGetSystemVersion _ _))
    · split
      · exact Or.inr (hgetOnly _ (isAnswer_handleGetObservedTopics _))
      · split
        · exact Or.inr (isApiAnswer_apiPage (isAnswer_reservedNotImplemented _))
        · split
          · next ui_response hui => exact tryServeExternalUi_cases io.ui _ request ui_response hui
          · split
            · next hroot =>
              left
              refine ⟨⟨rfl, by decide, by decide⟩, hroot.1, ?_⟩
              rw [hroot.2]
              decide
            · exact Or.inr isApiAnswer_notFound

/-- What the header lines of a response are taken from. -/
structure HasHeaders (response : PageResponse) : Prop where
  content_type : response.content_type ∈
    bytes "application/json; charset=utf-8" :: bytes "text/html; charset=utf-8" :: pageContentTypes
  cache_control : response.cache_control ∈ pageCacheControls

theorem hasHeaders_apiPage (response : HttpResponse) : HasHeaders (apiPage response) where
  content_type := List.mem_cons_self ..
  cache_control := by
    change bytes "no-store" ∈ pageCacheControls
    simp [pageCacheControls]

/-- The headers of every response. -/
theorem hasHeaders_route {server : WebServer} {s : WebState} {request : HttpRequest} {io : RequestIo}
    {response : PageResponse} (h : (route server s request io).2 = some response) :
    HasHeaders response := by
  rw [route] at h
  split at h
  · split at h
    · obtain rfl := Option.some.inj h
      exact hasHeaders_apiPage _
    · split at h
      · obtain rfl := Option.some.inj h
        exact hasHeaders_apiPage _
      · obtain rfl := Option.some.inj h
        exact hasHeaders_apiPage _
  · split at h
    · obtain ⟨answer, -, rfl⟩ := Option.map_eq_some_iff.mp h
      exact hasHeaders_apiPage _
    · obtain rfl := Option.some.inj h
      rw [routeStateless]
      split
      · exact hasHeaders_apiPage _
      · split
        · exact hasHeaders_apiPage _
        · split
          · exact hasHeaders_apiPage _
          · split
            · exact hasHeaders_apiPage _
            · split
              · next ui_response hui =>
                rcases tryServeExternalUi_cases io.ui _ request ui_response hui with hpage | hanswer
                · exact ⟨List.mem_cons_of_mem _ (List.mem_cons_of_mem _ hpage.content_type),
                    hpage.cache_control⟩
                · constructor
                  · rw [hanswer.content_type]
                    exact List.mem_cons_self ..
                  · rw [hanswer.cache_control]
                    simp [pageCacheControls]
              · split
                · constructor
                  · exact List.mem_cons_of_mem _ (List.mem_cons_self ..)
                  · change bytes "no-store" ∈ pageCacheControls
                    simp [pageCacheControls]
                · exact hasHeaders_apiPage _

/-- Whatever a request asks for and whatever its handler meets, in every state: if it is answered at
all, then with a page, to a GET outside `/api/`, or with an object that names an error exactly when
the status is not 200 and that is not to be stored. -/
theorem route_answers (server : WebServer) (s : WebState) (request : HttpRequest) (io : RequestIo)
    (response : PageResponse) (h : (route server s request io).2 = some response) :
    IsPage request response ∨ IsApiAnswer response := by
  rw [route] at h
  split at h
  · split at h
    · obtain rfl := Option.some.inj h
      exact Or.inr (isApiAnswer_apiPage (isAnswer_handleGetCoreConfig ..))
    · split at h
      · obtain rfl := Option.some.inj h
        exact Or.inr (isApiAnswer_apiPage (isAnswer_handlePostCoreConfig ..))
      · obtain rfl := Option.some.inj h
        exact Or.inr (isApiAnswer_apiPage isAnswer_methodNotAllowed)
  · split at h
    · obtain ⟨answer, hanswer, rfl⟩ := Option.map_eq_some_iff.mp h
      exact Or.inr (isApiAnswer_apiPage (answers_routeRingSounds _ request io.sounds answer hanswer))
    · obtain rfl := Option.some.inj h
      exact routeStateless_answers server request io

/-- A file system without files. -/
def noFiles : (c : FileCall) → c.Reply
  | .exists_ _ | .isDirectory _ | .isRegularFile _ => .ok false
  | .createDirectories _ => none
  | .readFile _ => none
  | .openOutput _ | .writeOutput _ _ | .syncOutput _ | .closeOutput _ | .copyFile _ _ | .rename _ _
  | .remove _ => false

theorem route_answers_reserved :
    IsPage ⟨bytes "GET", bytes "/api/v1/device", [], [], false⟩
        (apiPage (reservedNotImplemented (bytes "/api/v1/device"))) ∨
      IsApiAnswer (apiPage (reservedNotImplemented (bytes "/api/v1/device"))) :=
  route_answers {} ⟨⟨none, none⟩, {}, {}⟩ ⟨bytes "GET", bytes "/api/v1/device", [], [], false⟩
    { scan_signals := fun _ h => absurd h List.not_mem_nil, ui := noFiles } _ (by rfl)

end VirtualChime.Webd
