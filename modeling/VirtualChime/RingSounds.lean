import VirtualChime.CoreConfigApi
import Mathlib.Data.List.Sort

/-!
# The ring sounds

The handlers under `/api/v1/ring/sounds`: the library of sounds, the file
`selected.txt` that records the selection and the active sound that rings.  What
becomes of the file operations of a request is an input; an operation that throws
leaves the request without a response.
-/

namespace VirtualChime.Webd

/-! ## 1. Names and payloads -/

structure HttpRequest where
  method : Bytes
  path : Bytes
  body : Bytes := []
  content_type : Bytes := []
  has_content_type : Bool := false
deriving DecidableEq, Repr

def isAlnum (c : Byte) : Bool :=
  isDigit c || (decide (65 ≤ c.toNat) && decide (c.toNat ≤ 90)) ||
    (decide (97 ≤ c.toNat) && decide (c.toNat ≤ 122))

def mimeTypeOnly (content_type : Bytes) : Bytes :=
  (trim (content_type.takeWhile (· ≠ 59))).map toLower

def isSafeSoundName (file_name : Bytes) : Bool :=
  if file_name = [] ∨ file_name.length > 128 then false
  else if slash ∈ file_name ∨ 92 ∈ file_name then false
  else if bytes ".." <:+: file_name then false
  else
    let lowered := file_name.map toLower
    -- the prefix makes the name longer than the suffix, so `size() - 4` is not below zero
    if !(bytes "ring-").isPrefixOf lowered || !(bytes ".wav").isSuffixOf lowered then false
    else file_name.all fun c => isAlnum c || c == 46 || c == 45 || c == 95

/-- What an upload looks for at the start of its body. -/
def startsLikeWav (body : Bytes) : Bool :=
  !(body.length < 12 || !(bytes "RIFF").isPrefixOf body || (body.drop 8).take 4 != bytes "WAVE")

/-! ## 2. The handlers -/

/-- An upload or a selection that is answered with 200, the selection with whether it could be
recorded. -/
inductive Answer where
  | uploaded (name : Bytes)
  | selected (name : Bytes) (selection_persisted : Bool)
deriving DecidableEq, Repr

structure RingSounds where
  -- the sounds in the directory, by name
  sounds : List (Bytes × Bytes) := []
  selectedFile : Option Bytes := none
  -- the active ring sound file
  active : Option Bytes := none
  -- the requests answered with 200 so far, in order
  answers : List Answer := []
deriving DecidableEq, Repr

/-- What becomes of the file operations of a request. -/
structure SoundsIo where
  ensureError : Option Bytes := none
  -- listing the sounds
  seeds : Bool := true
  selectedOpens : Bool := true
  iterationThrows : Bool := false
  reaches : Bytes → Bool := fun _ => true
  clears : Bool := true
  -- an upload
  destinationOpens : Bool := true
  destinationWritten : Bool := true
  destinationMoved : Bool := true
  -- a selection
  inspectionThrows : Bool := false
  parentError : Option Bytes := none
  copied : Bool := true
  activated : Bool := true
  selectionPersisted : Bool := true

def kDefaultRingSoundName : Bytes := bytes "ring-default.wav"

def trySeedDefaultRingSound (s : RingSounds) (io : SoundsIo) : RingSounds :=
  match s.active with
  | none => s
  | some active =>
      if (KeyMap.get kDefaultRingSoundName s.sounds).isSome then s
      else if io.seeds then
        { s with sounds := KeyMap.set keyBefore kDefaultRingSoundName active s.sounds }
      else s

/-- The name in `selected.txt`. -/
def readSelectedName (s : RingSounds) (io : SoundsIo) : Bytes :=
  match s.selectedFile with
  | none => []
  | some text => if io.selectedOpens then trim (firstLine text) else []

/-- The names that the iteration over the directory finds, sorted. -/
def listSounds (s : RingSounds) (io : SoundsIo) : List Bytes :=
  ((s.sounds.map (·.1)).filter fun name => io.reaches name && isSafeSoundName name).insertionSort
    fun a b => keyBefore b a = false

structure RingSoundsReport where
  selected_sound : Bytes
  sounds : List Bytes
deriving DecidableEq, Repr

/-- The part of `HandleGetRingSounds` before the response. -/
def reportRingSounds (s : RingSounds) (io : SoundsIo) :
    RingSounds × Option (Except Bytes RingSoundsReport) :=
  match io.ensureError with
  | some error => (s, some (.error error))
  | none =>
      let s := trySeedDefaultRingSound s io
      let selected_name := readSelectedName s io
      if io.iterationThrows then (s, none)
      else
        let sounds := listSounds s io
        if isSafeSoundName selected_name && sounds.contains selected_name then
          (s, some (.ok ⟨selected_name, sounds⟩))
        else if selected_name = [] then (s, some (.ok ⟨[], sounds⟩))
        else
          ({ s with selectedFile := if io.clears then some [] else s.selectedFile },
            some (.ok ⟨[], sounds⟩))

def ringSoundsUnavailable (ensure_error : Bytes) : HttpResponse :=
  ⟨500, errorBody (bytes "ring_sounds_unavailable") ensure_error⟩

def ringSoundsBody (report : RingSoundsReport) : Bytes :=
  jsonObject [(bytes "selected_sound", jsonString report.selected_sound),
    (bytes "sounds", jsonArray (report.sounds.map jsonString))]

def handleGetRingSounds (s : RingSounds) (io : SoundsIo) : RingSounds × Option HttpResponse :=
  let (s, report) := reportRingSounds s io
  (s, report.map fun
    | .error error => ringSoundsUnavailable error
    | .ok report => ⟨200, ringSoundsBody report⟩)

def invalidSoundName : HttpResponse :=
  ⟨400, errorBody (bytes "invalid_sound_name") (bytes "Use ring-*.wav")⟩

def notWav : HttpResponse :=
  ⟨415, errorBody (bytes "invalid_payload") (bytes "payload is not a WAV file")⟩

def ringSoundsPrefix : Bytes := bytes "/api/v1/ring/sounds/"

def uploadName (request : HttpRequest) : Bytes := request.path.drop ringSoundsPrefix.length

def handleUploadRingSound (s : RingSounds) (request : HttpRequest) (io : SoundsIo) :
    RingSounds × Option HttpResponse :=
  let sound_name := uploadName request
  if !isSafeSoundName sound_name then (s, some invalidSoundName)
  else if request.has_content_type && mimeTypeOnly request.content_type != bytes "audio/wav" &&
      mimeTypeOnly request.content_type != bytes "audio/x-wav" then (s, some notWav)
  else if !startsLikeWav request.body then (s, some notWav)
  else
    match io.ensureError with
    | some error => (s, some (ringSoundsUnavailable error))
    | none =>
        if !io.destinationOpens then
          (s, some ⟨500, errorBody (bytes "save_failed") (bytes "failed to open destination")⟩)
        else if !io.destinationWritten then
          (s, some ⟨500, errorBody (bytes "save_failed") (bytes "failed to write destination")⟩)
        else if !io.destinationMoved then
          (s, some ⟨500, errorBody (bytes "save_failed") (bytes "failed to move destination")⟩)
        else
          ({ s with
              sounds := KeyMap.set keyBefore sound_name request.body s.sounds
              answers := s.answers ++ [.uploaded sound_name] },
            some ⟨200, jsonObject [(bytes "uploaded", jsonString sound_name)]⟩)

/-- The part of `HandleSelectRingSound` from the look for the sound on. -/
def activateRingSound (s : RingSounds) (sound_name : Bytes) (io : SoundsIo) :
    RingSounds × Option HttpResponse :=
  match io.ensureError with
  | some error => (s, some (ringSoundsUnavailable error))
  | none =>
      if io.inspectionThrows then (s, none)
      else
        match KeyMap.get sound_name s.sounds with
        | none => (s, some ⟨404, errorBody (bytes "not_found") (bytes "sound file does not exist")⟩)
        | some sound =>
            match io.parentError with
            | some error =>
                (s, some ⟨500, errorBody (bytes "create_directory_failed")
                  (bytes "failed to create parent directory: " ++ error)⟩)
            | none =>
                if !io.copied then
                  (s, some ⟨500,
                    errorBody (bytes "activate_failed") (bytes "failed to copy selected sound")⟩)
                else if !io.activated then
                  (s, some ⟨500,
                    errorBody (bytes "activate_failed") (bytes "failed to activate selected sound")⟩)
                else
                  ({ s with
                      active := some sound
                      selectedFile :=
                        if io.selectionPersisted then some (sound_name ++ [newline])
                        else s.selectedFile
                      answers := s.answers ++ [.selected sound_name io.selectionPersisted] },
                    some ⟨200, jsonObject [(bytes "selected", jsonString sound_name),
                      (bytes "selection_persisted", jsonBool io.selectionPersisted)]⟩)

def handleSelectRingSound (s : RingSounds) (request : HttpRequest) (io : SoundsIo) :
    RingSounds × Option HttpResponse :=
  match parseJson request.body with
  | .ok (.object items) =>
      match readRequiredString (.object items) (bytes "name") with
      | (some sound_name, []) =>
          if isSafeSoundName sound_name then activateRingSound s sound_name io
          else (s, some invalidSoundName)
      | _ => (s, some invalidSoundName)
  | _ => (s, some ⟨400, errorBody (bytes "invalid_json") (bytes "payload must be an object")⟩)

def methodNotAllowed : HttpResponse :=
  ⟨405, jsonObject [(bytes "error", bytes "\"method_not_allowed\"")]⟩

/-- The routes of `Route` to these handlers; a request for another path is not theirs. -/
def routeRingSounds (s : RingSounds) (request : HttpRequest) (io : SoundsIo) :
    RingSounds × Option HttpResponse :=
  if request.path = bytes "/api/v1/ring/sounds" then
    if request.method = bytes "GET" then handleGetRingSounds s io else (s, some methodNotAllowed)
  else if ringSoundsPrefix.isPrefixOf request.path then
    if request.path = bytes "/api/v1/ring/sounds/select" then
      if request.method ≠ bytes "POST" then (s, some methodNotAllowed)
      else handleSelectRingSound s request io
    else if request.method ≠ bytes "PUT" then (s, some methodNotAllowed)
    else handleUploadRingSound s request io
  else (s, none)

/-! ## 3. What the handlers do -/

/-- Listing the sounds may add the default sound and may empty the record of the selection; what
it reports as selected is the recorded name. -/
theorem reportRingSounds_cases (s : RingSounds) (io : SoundsIo) :
    ((reportRingSounds s io).1 = s ∨ (reportRingSounds s io).1 = trySeedDefaultRingSound s io ∨
      (reportRingSounds s io).1 =
        { trySeedDefaultRingSound s io with selectedFile := some [] }) ∧
    ∀ report, (reportRingSounds s io).2 = some (.ok report) → report.selected_sound ≠ [] →
      (reportRingSounds s io).1 = trySeedDefaultRingSound s io ∧
      report.selected_sound = readSelectedName (trySeedDefaultRingSound s io) io := by
  rw [reportRingSounds]
  cases io.ensureError with
  | some error => exact ⟨Or.inl rfl, nofun⟩
  | none =>
    dsimp only
    by_cases hthrows : io.iterationThrows = true
    · rw [if_pos hthrows]
      exact ⟨Or.inr (Or.inl rfl), nofun⟩
    · rw [if_neg hthrows]
      split
      · refine ⟨Or.inr (Or.inl rfl), ?_⟩
        intro report hreport _
        obtain rfl := Except.ok.inj (Option.some.inj hreport)
        exact ⟨rfl, rfl⟩
      · split
        · refine ⟨Or.inr (Or.inl rfl), ?_⟩
          intro report hreport hne
          obtain rfl := Except.ok.inj (Option.some.inj hreport)
          exact absurd rfl hne
        · refine ⟨?_, ?_⟩
          · cases io.clears with
            | true => exact Or.inr (Or.inr rfl)
            | false => exact Or.inr (Or.inl rfl)
          · intro report hreport hne
            obtain rfl := Except.ok.inj (Option.some.inj hreport)
            exact absurd rfl hne

/-- Seeding leaves every sound that is there, and everything but the sounds. -/
theorem trySeedDefaultRingSound_cases (s : RingSounds) (io : SoundsIo) :
    trySeedDefaultRingSound s io = s ∨ ∃ active, KeyMap.get kDefaultRingSoundName s.sounds = none ∧
      trySeedDefaultRingSound s io =
        { s with sounds := KeyMap.set keyBefore kDefaultRingSoundName active s.sounds } := by
  rw [trySeedDefaultRingSound]
  cases s.active with
  | none => exact Or.inl rfl
  | some active =>
    dsimp only
    split
    · exact Or.inl rfl
    · next hnone =>
      split
      · exact Or.inr ⟨active, Option.not_isSome_iff_eq_none.mp hnone, rfl⟩
      · exact Or.inl rfl

/-- A request that is refused, or that fails, and changes nothing. -/
def Refused (s : RingSounds) (result : RingSounds × Option HttpResponse) : Prop :=
  result.1 = s ∧ ∀ response, result.2 = some response → response.status ≠ 200

theorem refused_of_status (s : RingSounds) {status : Nat} {body : Bytes} (h : status ≠ 200) :
    Refused s (s, some ⟨status, body⟩) := by
  refine ⟨rfl, ?_⟩
  intro response heq
  rwa [← Option.some.inj heq]

/-- An upload stores its body under its name, or is refused. -/
theorem handleUploadRingSound_cases (s : RingSounds) (request : HttpRequest) (io : SoundsIo) :
    Refused s (handleUploadRingSound s request io) ∨
    (isSafeSoundName (uploadName request) = true ∧ startsLikeWav request.body = true ∧
      handleUploadRingSound s request io =
        ({ s with
            sounds := KeyMap.set keyBefore (uploadName request) request.body s.sounds
            answers := s.answers ++ [.uploaded (uploadName request)] },
          some ⟨200, jsonObject [(bytes "uploaded", jsonString (uploadName request))]⟩)) := by
  rw [handleUploadRingSound]
  split
  · exact Or.inl (refused_of_status s (by decide))
  · next hsafe =>
    split
    · exact Or.inl (refused_of_status s (by decide))
    · split
      · exact Or.inl (refused_of_status s (by decide))
      · next hwav =>
        cases io.ensureError with
        | some error => exact Or.inl (refused_of_status s (by decide))
        | none =>
          dsimp only
          split
          · exact Or.inl (refused_of_status s (by decide))
          · split
            · exact Or.inl (refused_of_status s (by decide))
            · split
              · exact Or.inl (refused_of_status s (by decide))
              · exact Or.inr ⟨by simpa using hsafe, by simpa using hwav, rfl⟩

/-- A selection makes a sound of the directory the active one, or is refused. -/
theorem activateRingSound_cases (s : RingSounds) (sound_name : Bytes) (io : SoundsIo) :
    Refused s (activateRingSound s sound_name io) ∨
    ∃ sound, KeyMap.get sound_name s.sounds = some sound ∧
      (activateRingSound s sound_name io).1 =
        { s with
          active := some sound
          selectedFile :=
            if io.selectionPersisted then some (sound_name ++ [newline]) else s.selectedFile
          answers := s.answers ++ [.selected sound_name io.selectionPersisted] } := by
  rw [activateRingSound]
  cases io.ensureError with
  | some error => exact Or.inl (refused_of_status s (by decide))
  | none =>
    dsimp only
    split
    · refine Or.inl ⟨rfl, ?_⟩
      intro response hresponse
      cases hresponse
    · cases hget : KeyMap.get sound_name s.sounds with
      | none => exact Or.inl (refused_of_status s (by decide))
      | some sound =>
        cases io.parentError with
        | some error => exact Or.inl (refused_of_status s (by decide))
        | none =>
          dsimp only
          split
          · exact Or.inl (refused_of_status s (by decide))
          · split
            · exact Or.inl (refused_of_status s (by decide))
            · exact Or.inr ⟨sound, rfl, rfl⟩

theorem handleSelectRingSound_cases (s : RingSounds) (request : HttpRequest) (io : SoundsIo) :
    Refused s (handleSelectRingSound s request io) ∨
    ∃ sound_name, isSafeSoundName sound_name = true ∧
      handleSelectRingSound s request io = activateRingSound s sound_name io := by
  rw [handleSelectRingSound]
  split
  · split
    · split
      · next hsafe => exact Or.inr ⟨_, hsafe, rfl⟩
      · exact Or.inl (refused_of_status s (by decide))
    · exact Or.inl (refused_of_status s (by decide))
  · exact Or.inl (refused_of_status s (by decide))

/-! ## 4. Runs -/

namespace RingSounds

/-- Before the first request: no sounds and no selection, whatever rings. -/
def start (active : Option Bytes) : RingSounds := { active }

/-- The state after some requests, each with what becomes of its file operations. -/
def run (s : RingSounds) (requests : List (HttpRequest × SoundsIo)) : RingSounds :=
  requests.foldl (fun s request => (routeRingSounds s request.1 request.2).1) s

/-- Nothing has come in between: no upload under the name, and no selection that could not be
recorded. -/
def Undisturbed (name : Bytes) (later : List Answer) : Prop :=
  .uploaded name ∉ later ∧ ∀ other, .selected other false ∉ later

/-- The name is the one of the last selection that was recorded, and unless something has come in
between its sound is the active one. -/
def LastRecorded (s : RingSounds) (name : Bytes) : Prop :=
  ∃ earlier later, s.answers = earlier ++ .selected name true :: later ∧
    (∀ other, .selected other true ∉ later) ∧
    (Undisturbed name later → s.active = KeyMap.get name s.sounds)

/-- What the record of the selection holds, if it holds anything. -/
structure Recorded (s : RingSounds) (name : Bytes) : Prop where
  safe : isSafeSoundName name = true
  exists_ : (KeyMap.get name s.sounds).isSome
  last : LastRecorded s name

/-- `selected.txt` is missing, empty, or names the last recorded selection. -/
def Tracked (s : RingSounds) : Prop :=
  ∀ text, s.selectedFile = some text → text = [] ∨ ∃ name, text = name ++ [newline] ∧ Recorded s name

theorem tracked_start (active : Option Bytes) : Tracked (start active) := nofun

/-- A change that keeps the records keeps the state tracked. -/
theorem Tracked.of_recorded {s s' : RingSounds} (h : Tracked s)
    (hfile : s'.selectedFile = s.selectedFile) (hrec : ∀ name, Recorded s name → Recorded s' name) :
    Tracked s' := by
  intro text htext
  rw [hfile] at htext
  obtain hempty | ⟨name, rfl, hname⟩ := h text htext
  · exact Or.inl hempty
  · exact Or.inr ⟨name, rfl, hrec name hname⟩

theorem Recorded.seed {s : RingSounds} {name : Bytes} (h : Recorded s name) (io : SoundsIo) :
    Recorded (trySeedDefaultRingSound s io) name := by
  obtain heq | ⟨active, hnone, heq⟩ := trySeedDefaultRingSound_cases s io
  · rwa [heq]
  · have hne : kDefaultRingSoundName ≠ name := by
      rintro rfl
      simpa [hnone] using h.exists_
    have hget : KeyMap.get name (KeyMap.set keyBefore kDefaultRingSoundName active s.sounds) =
        KeyMap.get name s.sounds := by
      rw [KeyMap.get_set, if_neg hne]
    rw [heq]
    obtain ⟨earlier, later, hanswers, hlast, hactive⟩ := h.last
    exact ⟨h.safe, by rw [hget]; exact h.exists_, earlier, later, hanswers, hlast,
      fun hundisturbed => (hactive hundisturbed).trans hget.symm⟩

theorem Tracked.get {s : RingSounds} (h : Tracked s) (io : SoundsIo) :
    Tracked (reportRingSounds s io).1 := by
  have hseed : Tracked (trySeedDefaultRingSound s io) := by
    apply h.of_recorded
    · obtain heq | ⟨active, -, heq⟩ := trySeedDefaultRingSound_cases s io
      · rw [heq]
      · rw [heq]
    · intro _ hname
      exact hname.seed io
  obtain heq | heq | heq := (reportRingSounds_cases s io).1
  · rwa [heq]
  · rwa [heq]
  · rw [heq]
    intro text htext
    exact Or.inl (Option.some.inj htext).symm

theorem Tracked.upload {s : RingSounds} (h : Tracked s) (request : HttpRequest) (io : SoundsIo) :
    Tracked (handleUploadRingSound s request io).1 := by
  obtain hrefused | ⟨-, -, heq⟩ := handleUploadRingSound_cases s request io
  · rwa [hrefused.1]
  · rw [heq]
    apply h.of_recorded (by rfl)
    intro name hname
    obtain ⟨earlier, later, hanswers, hlast, hactive⟩ := hname.last
    refine ⟨hname.safe, ?_, earlier, later ++ [.uploaded (uploadName request)], ?_, ?_, ?_⟩
    · rw [KeyMap.get_set]
      split
      · rfl
      · exact hname.exists_
    · simp [hanswers]
    · simpa using hlast
    · rintro ⟨hupload, hunrecorded⟩
      have hne : uploadName request ≠ name := by
        rintro rfl
        simp at hupload
      have hbefore : Undisturbed name later := by
        constructor
        · intro hmem
          exact hupload (List.mem_append_left _ hmem)
        · intro other hmem
          exact hunrecorded other (List.mem_append_left _ hmem)
      rw [KeyMap.get_set, if_neg hne]
      exact hactive hbefore

theorem Tracked.select {s : RingSounds} (h : Tracked s) (request : HttpRequest) (io : SoundsIo) :
    Tracked (handleSelectRingSound s request io).1 := by
  obtain hrefused | ⟨sound_name, hsafe, heq⟩ := handleSelectRingSound_cases s request io
  · rwa [hrefused.1]
  · rw [heq]
    obtain hrefused | ⟨sound, hget, heq⟩ := activateRingSound_cases s sound_name io
    · rwa [hrefused.1]
    · rw [heq]
      cases hpersisted : io.selectionPersisted with
      | true =>
        intro text htext
        right
        refine ⟨sound_name, (Option.some.inj htext).symm, hsafe, ?_, s.answers, [], rfl, ?_, ?_⟩
        · simp [hget]
        · intro other
          exact List.not_mem_nil
        · intro _
          exact hget.symm
      | false =>
        apply h.of_recorded (by rfl)
        intro name hname
        obtain ⟨earlier, later, hanswers, hlast, -⟩ := hname.last
        refine ⟨hname.safe, hname.exists_, earlier, later ++ [.selected sound_name false], ?_, ?_, ?_⟩
        · simp [hanswers]
        · simpa using hlast
        · rintro ⟨-, hunrecorded⟩
          exact absurd (List.mem_append_right _ (List.mem_singleton.mpr rfl)) (hunrecorded sound_name)

/-- Every request keeps the record of the selection in step. -/
theorem Tracked.route {s : RingSounds} (h : Tracked s) (request : HttpRequest) (io : SoundsIo) :
    Tracked (routeRingSounds s request io).1 := by
  rw [routeRingSounds]
  split
  · split
    · exact h.get io
    · exact h
  · split
    · split
      · split
        · exact h
        · exact h.select request io
      · split
        · exact h
        · exact h.upload request io
    · exact h

theorem Tracked.run {s : RingSounds} (h : Tracked s) (requests : List (HttpRequest × SoundsIo)) :
    Tracked (s.run requests) := by
  induction requests generalizing s with
  | nil => exact h
  | cons request requests ih => exact ih (h.route request.1 request.2)

/-! ## 5. What a listing reports -/

theorem prefix_and_class_of_isSafeSoundName {name : Bytes} (h : isSafeSoundName name = true) :
    (bytes "ring-").isPrefixOf (name.map toLower) = true ∧
      ∀ c ∈ name, (isAlnum c || c == 46 || c == 45 || c == 95) = true := by
  rw [isSafeSoundName] at h
  split at h
  · cases h
  · split at h
    · cases h
    · split at h
      · cases h
      · dsimp only at h
        split at h
        · cases h
        · next haffixes =>
          constructor
          · by_contra hstart
            simp [hstart] at haffixes
          · exact List.all_eq_true.mp h

theorem not_isBlank_of_isSafeSoundName {name : Bytes} (h : isSafeSoundName name = true) :
    ∀ c ∈ name, isBlank c = false := by
  intro c hc
  have hclass := (prefix_and_class_of_isSafeSoundName h).2 c hc
  by_contra hblank
  rw [Bool.not_eq_false, isBlank] at hblank
  simp only [Bool.or_eq_true, beq_iff_eq, or_assoc] at hblank
  rcases hblank with rfl | rfl | rfl | rfl <;> revert hclass <;> decide

/-- The recorded name is read back. -/
theorem trim_firstLine_of_isSafeSoundName {name : Bytes} (h : isSafeSoundName name = true) :
    trim (firstLine (name ++ [newline])) = name := by
  have hclean : newline ∉ name := by
    intro hmem
    have hblank := not_isBlank_of_isSafeSoundName h newline hmem
    revert hblank
    decide
  have hline : firstLine (name ++ [newline]) = name ++ firstLine [newline] :=
    congrArg (fun ls => ls.headD []) (splitOn_newline_append hclean [newline])
  rw [hline]
  have hnil : firstLine [newline] = [] := by decide
  rw [hnil, List.append_nil]
  exact trim_eq_self_of_forall (not_isBlank_of_isSafeSoundName h)

/-- A selection that is reported is in the directory and was recorded last; it is the sound that
rings unless it was uploaded again since, or a later selection could not be recorded. -/
theorem reported_sound_rings (active : Option Bytes) (requests : List (HttpRequest × SoundsIo))
    (io : SoundsIo) (report : RingSoundsReport)
    (hreport : (reportRingSounds ((start active).run requests) io).2 = some (.ok report))
    (hne : report.selected_sound ≠ []) :
    let s := (reportRingSounds ((start active).run requests) io).1
    (KeyMap.get report.selected_sound s.sounds).isSome ∧
    ∃ earlier later, s.answers = earlier ++ .selected report.selected_sound true :: later ∧
      (∀ other, .selected other true ∉ later) ∧
      (Undisturbed report.selected_sound later →
        s.active = KeyMap.get report.selected_sound s.sounds) := by
  have htracked := ((tracked_start active).run requests).get io
  obtain ⟨hstate, hname⟩ :=
    (reportRingSounds_cases ((start active).run requests) io).2 report hreport hne
  intro s
  rw [← hstate] at hname
  cases hfile : s.selectedFile with
  | none =>
    rw [readSelectedName, hfile] at hname
    exact absurd hname hne
  | some text =>
    rw [readSelectedName, hfile] at hname
    dsimp only at hname
    split at hname
    · obtain rfl | ⟨name, rfl, hrecorded⟩ := htracked text hfile
      · exact absurd hname hne
      · rw [trim_firstLine_of_isSafeSoundName hrecorded.safe] at hname
        rw [hname]
        exact ⟨hrecorded.exists_, hrecorded.last⟩
    · exact absurd hname hne

def putRequest (name body : Bytes) : HttpRequest :=
  { method := bytes "PUT", path := ringSoundsPrefix ++ name, body }

def selectRequest (name : Bytes) : HttpRequest where
  method := bytes "POST"
  path := bytes "/api/v1/ring/sounds/select"
  body := jsonObject [(bytes "name", jsonString name)]

/-- A sound that is uploaded again after it was selected is reported and does not ring; nor does
the recorded one after a selection that could not be recorded. -/
theorem reported_sound_does_not_ring :
    (let requests : List (HttpRequest × SoundsIo) :=
        [(putRequest (bytes "ring-a.wav") (bytes "RIFF....WAVEa"), {}),
          (selectRequest (bytes "ring-a.wav"), {}),
          (putRequest (bytes "ring-a.wav") (bytes "RIFF....WAVEb"), {})]
      let listed := reportRingSounds ((start none).run requests) {}
      listed.2 = some (.ok ⟨bytes "ring-a.wav", [bytes "ring-a.wav", bytes "ring-default.wav"]⟩) ∧
        listed.1.active ≠ KeyMap.get (bytes "ring-a.wav") listed.1.sounds) ∧
    let requests : List (HttpRequest × SoundsIo) :=
      [(putRequest (bytes "ring-a.wav") (bytes "RIFF....WAVEa"), {}),
        (putRequest (bytes "ring-b.wav") (bytes "RIFF....WAVEb"), {}),
        (selectRequest (bytes "ring-a.wav"), {}),
        (selectRequest (bytes "ring-b.wav"), { selectionPersisted := false })]
    let listed := reportRingSounds ((start none).run requests) {}
    listed.2 = some (.ok
      ⟨bytes "ring-a.wav", [bytes "ring-a.wav", bytes "ring-b.wav", bytes "ring-default.wav"]⟩) ∧
      listed.1.active ≠ KeyMap.get (bytes "ring-a.wav") listed.1.sounds := by
  decide +kernel

theorem reported_sound_rings_sample :
    let requests : List (HttpRequest × SoundsIo) :=
      [(putRequest (bytes "ring-a.wav") (bytes "RIFF....WAVEa"), {}),
        (selectRequest (bytes "ring-a.wav"), {})]
    let s := (reportRingSounds ((start none).run requests) {}).1
    (KeyMap.get (bytes "ring-a.wav") s.sounds).isSome :=
  (reported_sound_rings none
    [(putRequest (bytes "ring-a.wav") (bytes "RIFF....WAVEa"), {}),
      (selectRequest (bytes "ring-a.wav"), {})] {}
    ⟨bytes "ring-a.wav", [bytes "ring-a.wav", bytes "ring-default.wav"]⟩
    (by decide +kernel) (by decide)).1

end RingSounds

end VirtualChime.Webd
