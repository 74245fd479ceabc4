import VirtualChime.OtaScripts
import VirtualChime.SaveRoundTrip
import VirtualChime.WifiRoundTrip

/-!
# Saving on the device

`S31persistent` keeps the two configuration files on the data partition and binds
them over their paths on whichever root partition is running.  Reading through a
bind mount gives the persistent file; replacing it by `rename` fails, because a
mount point is busy.  On a device that has booted, every save therefore ends at
its first `rename` (`save_on_mounts`), and none persists
(`save_never_persists`).
-/

namespace VirtualChime.Webd

open Ota (Slot)

/-! ## 1. Files and mounts -/

/-- Which of the two paths a file of the data partition is mounted on. -/
structure Mounts where
  chime_config : Bool := false
  wpa_supplicant : Bool := false
deriving DecidableEq, Repr

/-- The two configuration files on each root partition and on `/data/etc`, and what is mounted. -/
structure FileSystem where
  root : Slot → Disk
  data : Disk
  mounts : Mounts
  running : Slot

namespace FileSystem

/-- What the two paths under `/etc` show. -/
def view (fs : FileSystem) : Disk where
  chime_config :=
    if fs.mounts.chime_config then fs.data.chime_config else (fs.root fs.running).chime_config
  wpa_supplicant :=
    if fs.mounts.wpa_supplicant then fs.data.wpa_supplicant
    else (fs.root fs.running).wpa_supplicant

/-- New files at the two paths of the running root partition. -/
def setRoot (fs : FileSystem) (disk : Disk) : FileSystem :=
  { fs with root := fun slot => if slot = fs.running then disk else fs.root slot }

end FileSystem

/-- `copy_if_missing`: the file at `dst` afterwards. -/
def copyIfMissing (src dst : Option Bytes) : Option Bytes :=
  if dst.isNone && src.isSome then src else dst

/-- `[ -e "$FILE" ] || : > "$FILE"` -/
def touch (file : Option Bytes) : Option Bytes := if file.isSome then file else some []

/-- `bind_file` for `chime.conf`. -/
def bindChimeConfig (fs : FileSystem) : FileSystem :=
  let root := fs.root fs.running
  { fs.setRoot { root with chime_config :=
      if fs.mounts.chime_config then root.chime_config else touch root.chime_config } with
    data := { fs.data with chime_config := touch fs.data.chime_config }
    mounts := { fs.mounts with chime_config := true } }

/-- `bind_file` for `wpa_supplicant.conf`. -/
def bindWpaSupplicant (fs : FileSystem) : FileSystem :=
  let root := fs.root fs.running
  { fs.setRoot { root with wpa_supplicant :=
      if fs.mounts.wpa_supplicant then root.wpa_supplicant else touch root.wpa_supplicant } with
    data := { fs.data with wpa_supplicant := touch fs.data.wpa_supplicant }
    mounts := { fs.mounts with wpa_supplicant := true } }

/-- `S31persistent start` -/
def startPersistent (fs : FileSystem) : FileSystem :=
  let fs := { fs with data :=
    { chime_config := copyIfMissing fs.view.chime_config fs.data.chime_config
      wpa_supplicant := copyIfMissing fs.view.wpa_supplicant fs.data.wpa_supplicant } }
  bindWpaSupplicant (bindChimeConfig fs)

/-- A boot from the root partition of a slot: nothing is mounted until the script has run. -/
def bootSlot (slot : Slot) (fs : FileSystem) : FileSystem :=
  startPersistent { fs with mounts := {}, running := slot }

/-- `rename` onto a mount point fails with `EBUSY`; every other file operation succeeds. -/
def renameOnto (mounted : Bool) : WriteOutcome :=
  { rename := if mounted then some (bytes "Device or resource busy") else none }

def mountFaults (mounts : Mounts) : SaveFaults where
  wpa_write := renameOnto mounts.wpa_supplicant
  chime_write := renameOnto mounts.chime_config

/-- `SaveCoreConfig` at the two paths: what a `rename` replaces is the file of the running root
partition. -/
def saveOnDevice (request : SaveRequest) (fs : FileSystem) : SaveResult × FileSystem :=
  let (result, disk) := saveCoreConfig {} request (mountFaults fs.mounts) fs.view
  let root := fs.root fs.running
  (result, fs.setRoot
    { chime_config := if fs.mounts.chime_config then root.chime_config else disk.chime_config
      wpa_supplicant :=
        if fs.mounts.wpa_supplicant then root.wpa_supplicant else disk.wpa_supplicant })

def loadOnDevice (fs : FileSystem) : SaveResult := loadCoreConfig {} fs.view none none

inductive DeviceEvent where
  | boot (slot : Slot)
  | start
  | save (request : SaveRequest)

def deviceStep (fs : FileSystem) : DeviceEvent → Option FileSystem
  | .boot slot => some (bootSlot slot fs)
  | .start => some (startPersistent fs)
  | .save request => some (saveOnDevice request fs).2

/-! ## 2. Mounted files -/

/-- Both files are mounted from the data partition, where they exist. -/
structure Mounted (fs : FileSystem) : Prop where
  chime_config : fs.mounts.chime_config = true
  wpa_supplicant : fs.mounts.wpa_supplicant = true
  chime_exists : fs.data.chime_config.isSome = true
  wpa_exists : fs.data.wpa_supplicant.isSome = true

theorem Mounted.view {fs : FileSystem} (h : Mounted fs) : fs.view = fs.data := by
  simp [FileSystem.view, h.chime_config, h.wpa_supplicant]

theorem touch_isSome (file : Option Bytes) : (touch file).isSome = true := by
  cases file <;> rfl

theorem touch_of_isSome {file : Option Bytes} (h : file.isSome = true) : touch file = file := by
  rw [touch, if_pos h]

theorem startPersistent_mounted (fs : FileSystem) : Mounted (startPersistent fs) :=
  ⟨rfl, rfl, touch_isSome _, touch_isSome _⟩

theorem setRoot_self (fs : FileSystem) : fs.setRoot (fs.root fs.running) = fs := by
  have hroot : (fun slot => if slot = fs.running then fs.root fs.running else fs.root slot) =
      fs.root := by
    funext slot
    split
    · next h => rw [h]
    · rfl
  rw [FileSystem.setRoot, hroot]

/-- Once both files are mounted, a save fails at the `rename` of `wpa_supplicant.conf`, and
nothing changes. -/
theorem save_on_mounts {fs : FileSystem} (h : Mounted fs) {request : SaveRequest}
    (accepted : validateRequest request = []) {wpa : Bytes}
    (password : wpaContent request fs.view.wpaLines = .ok wpa) :
    saveOnDevice request fs =
      ({ error := bytes "rename failed for '/etc/wpa_supplicant/wpa_supplicant.conf': " ++
          bytes "Device or resource busy" }, fs) := by
  obtain ⟨chime, hchime⟩ := Option.isSome_iff_exists.mp h.chime_exists
  obtain ⟨old, hold⟩ := Option.isSome_iff_exists.mp h.wpa_exists
  have hview : fs.view = ⟨some chime, some old⟩ := by rw [h.view, ← hchime, ← hold]
  rw [hview] at password
  have hload : loadCoreConfig {} ⟨some chime, some old⟩ none none =
      { success := true, snapshot := snapshotOf (getlines chime) (getlines old) } := rfl
  have hsave : saveWpaSupplicant {} request (mountFaults fs.mounts) ⟨some chime, some old⟩ =
      (.error (bytes "rename failed for '/etc/wpa_supplicant/wpa_supplicant.conf': " ++
        bytes "Device or resource busy"), ⟨some chime, some old⟩) := by
    have hlines : readAllLinesIfExists (bytes "/etc/wpa_supplicant/wpa_supplicant.conf") (some old)
        none = .ok (getlines old) := rfl
    have hpassword : wpaContent request (getlines old) = .ok wpa := password
    simp only [saveWpaSupplicant, mountFaults, hlines, hpassword]
    rw [h.wpa_supplicant]
    rfl
  have hcore : saveCoreConfig {} request (mountFaults fs.mounts) ⟨some chime, some old⟩ =
      ({ error := bytes "rename failed for '/etc/wpa_supplicant/wpa_supplicant.conf': " ++
          bytes "Device or resource busy" }, ⟨some chime, some old⟩) := by
    have hopen : (mountFaults fs.mounts).existing_chime_open = none ∧
        (mountFaults fs.mounts).existing_wpa_open = none := ⟨rfl, rfl⟩
    simp only [saveCoreConfig, accepted, hopen.1, hopen.2, hload, hsave, List.isEmpty_nil,
      Bool.not_true, Bool.false_eq_true, if_false]
  simp only [saveOnDevice, hview, hcore, h.chime_config, h.wpa_supplicant, if_true]
  rw [setRoot_self]

/-! ## 3. Every run of the device -/

theorem copyIfMissing_of_isSome {src dst : Option Bytes} (h : dst.isSome = true) :
    copyIfMissing src dst = dst := by
  have hnone : dst.isNone = false := by
    cases dst
    · cases h
    · rfl
  rw [copyIfMissing, hnone]
  rfl

/-- Started again, from either root partition, the script leaves the persistent files alone. -/
theorem startPersistent_data {fs : FileSystem} (hchime : fs.data.chime_config.isSome = true)
    (hwpa : fs.data.wpa_supplicant.isSome = true) : (startPersistent fs).data = fs.data := by
  simp only [startPersistent, bindWpaSupplicant, bindChimeConfig, FileSystem.setRoot,
    copyIfMissing_of_isSome hchime, copyIfMissing_of_isSome hwpa, touch_of_isSome hchime,
    touch_of_isSome hwpa]

theorem bootSlot_data {fs : FileSystem} (slot : Slot) (h : Mounted fs) :
    (bootSlot slot fs).data = fs.data :=
  startPersistent_data h.chime_exists h.wpa_exists

theorem saveOnDevice_keeps (request : SaveRequest) (fs : FileSystem) :
    (saveOnDevice request fs).2.data = fs.data ∧
      (saveOnDevice request fs).2.mounts = fs.mounts := by
  rcases h : saveCoreConfig {} request (mountFaults fs.mounts) fs.view with ⟨result, disk⟩
  simp only [saveOnDevice, h]
  exact ⟨rfl, rfl⟩

/-- From the first boot on, the files stay mounted and the persistent copies as they are. -/
theorem mounted_of_reaches {fs₀ fs : FileSystem} (start : Mounted fs₀)
    (h : Runs.Reaches deviceStep (fun _ _ => True) fs₀ fs) : Mounted fs ∧ fs.data = fs₀.data := by
  apply h.invariant (I := fun fs => Mounted fs ∧ fs.data = fs₀.data) ⟨start, rfl⟩
  rintro fs event fs' ⟨hmounted, hdata⟩ - hstep
  cases event with
  | boot slot =>
    rw [← Option.some.inj hstep]
    exact ⟨startPersistent_mounted _, (bootSlot_data slot hmounted).trans hdata⟩
  | start =>
    rw [← Option.some.inj hstep]
    exact ⟨startPersistent_mounted _,
      (startPersistent_data hmounted.chime_exists hmounted.wpa_exists).trans hdata⟩
  | save request =>
    rw [← Option.some.inj hstep]
    obtain ⟨hkeptData, hkeptMounts⟩ := saveOnDevice_keeps request fs
    refine ⟨⟨?_, ?_, ?_, ?_⟩, hkeptData.trans hdata⟩
    · rw [hkeptMounts]
      exact hmounted.chime_config
    · rw [hkeptMounts]
      exact hmounted.wpa_supplicant
    · rw [hkeptData]
      exact hmounted.chime_exists
    · rw [hkeptData]
      exact hmounted.wpa_exists

def bootAll (slots : List Slot) (fs : FileSystem) : FileSystem :=
  slots.foldl (fun fs slot => bootSlot slot fs) fs

theorem bootAll_mounted {fs : FileSystem} (h : Mounted fs) (slots : List Slot) :
    Mounted (bootAll slots fs) ∧ (bootAll slots fs).data = fs.data := by
  induction slots generalizing fs with
  | nil => exact ⟨h, rfl⟩
  | cons slot slots ih =>
    obtain ⟨hmounted, hdata⟩ := ih (startPersistent_mounted { fs with mounts := {}, running := slot })
    exact ⟨hmounted, hdata.trans (bootSlot_data slot h)⟩

/-- The save succeeds, and whatever is booted after it shows the saved values. -/
def SavePersists (request : SaveRequest) (fs : FileSystem) : Prop :=
  (saveOnDevice request fs).1.success = true ∧ ∀ slots,
    let later := loadOnDevice (bootAll slots (saveOnDevice request fs).2)
    later.success = true ∧ ConsoleShows later.snapshot.config request.config ∧
      later.snapshot.config.wifi_ssid = request.config.wifi_ssid

/-- A passphrase is given or stored. -/
def HasWifiPassword (request : SaveRequest) (lines : List Bytes) : Prop :=
  request.wifi_password.getD [] ≠ [] ∨ (parseWpaData lines).psk ≠ []

theorem HasWifiPassword.wpaContent {request : SaveRequest} {lines : List Bytes}
    (h : HasWifiPassword request lines) : ∃ wpa, wpaContent request lines = .ok wpa := by
  rw [wpaContent_eq, savedWifiPassword]
  rcases hgiven : request.wifi_password with _ | password
  · have hpsk : (parseWpaData lines).psk ≠ [] := by
      rcases h with h | h
      · rw [hgiven] at h
        exact absurd rfl h
      · exact h
    simp [hpsk, Except.map]
  · rcases h with h | hpsk
    · rw [hgiven, Option.getD_some] at h
      simp [h, Except.map]
    · by_cases hempty : password = []
      · simp [hempty, hpsk, Except.map]
      · simp [hempty, Except.map]

/-- On a device that has booted, in every state it reaches, every accepted save fails, and what it
finds after any further boots is what it had before. -/
theorem save_never_persists {fs₀ fs : FileSystem} {slot : Slot} {request : SaveRequest}
    (run : Runs.Reaches deviceStep (fun _ _ => True) (bootSlot slot fs₀) fs)
    (accepted : validateRequest request = [])
    (password : HasWifiPassword request fs.view.wpaLines) :
    ¬ SavePersists request fs ∧ (saveOnDevice request fs).2 = fs ∧
      (saveOnDevice request fs).1.error =
        bytes "rename failed for '/etc/wpa_supplicant/wpa_supplicant.conf': " ++
          bytes "Device or resource busy" ∧
      ∀ slots, loadOnDevice (bootAll slots (saveOnDevice request fs).2) = loadOnDevice fs := by
  obtain ⟨hmounted, -⟩ := mounted_of_reaches (startPersistent_mounted _) run
  obtain ⟨wpa, hwpa⟩ := password.wpaContent
  have hsave := save_on_mounts hmounted accepted hwpa
  refine ⟨?_, by rw [hsave], by rw [hsave], ?_⟩
  · rintro ⟨hsuccess, -⟩
    rw [hsave] at hsuccess
    cases hsuccess
  · intro slots
    obtain ⟨hlater, hdata⟩ := bootAll_mounted hmounted slots
    rw [hsave, loadOnDevice, loadOnDevice, hlater.view, hmounted.view, hdata]

/-- A device whose root partitions hold the shipped files, booted for the first time. -/
def shippedDevice : FileSystem where
  root := fun _ => ⟨some (bytes "mqtt_host=broker\nmqtt_port=1883\nmqtt_topics=doorbell/ring\n"), none⟩
  data := ⟨none, none⟩
  mounts := {}
  running := .A

theorem save_never_persists_sample :
    ¬ SavePersists sampleRequest (bootSlot .B (bootSlot .A shippedDevice)) := by
  have run : Runs.Reaches deviceStep (fun _ _ => True) (bootSlot .A shippedDevice)
      (bootSlot .B (bootSlot .A shippedDevice)) := .tail (a := .boot .B) .refl trivial rfl
  exact (save_never_persists run (by decide +kernel) (Or.inl (by decide))).1

/-- The first save after the first boot is refused by the kernel. -/
theorem save_busy :
    validateRequest sampleRequest = [] ∧
      (saveOnDevice sampleRequest (bootSlot .A shippedDevice)).1.success = false ∧
      ¬ SavePersists sampleRequest (bootSlot .A shippedDevice) := by
  have hfailed : (saveOnDevice sampleRequest (bootSlot .A shippedDevice)).1.success = false := by
    decide +kernel
  refine ⟨by decide +kernel, hfailed, ?_⟩
  rintro ⟨hsuccess, -⟩
  rw [hfailed] at hsuccess
  cases hsuccess

end VirtualChime.Webd
