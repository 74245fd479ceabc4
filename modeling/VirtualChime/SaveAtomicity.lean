import VirtualChime.SaveRoundTrip

/-!
# What a failed save leaves behind

`SaveCoreConfig` replaces two files one after the other, each atomically.  The
result of a save tells which of the two were replaced: `saveCoreConfig_outcome`
goes through the step at which it failed.
-/

namespace VirtualChime.Webd

/-- A file is never left half written: each of the two has its old content or a complete new
one. -/
theorem saveCoreConfig_whole_files (store : ConfigStore) (request : SaveRequest)
    (faults : SaveFaults) (disk : Disk) :
    let after := (saveCoreConfig store request faults disk).2
    (after.wpa_supplicant = disk.wpa_supplicant ∨
      ∃ wpa, wpaContent request disk.wpaLines = .ok wpa ∧ after.wpa_supplicant = some wpa) ∧
    (after.chime_config = disk.chime_config ∨
      ∃ chime, disk.chime_config = some chime ∧ after.chime_config =
        some (chimeContent request (readChimeLines (getlines chime)) (getlines chime))) := by
  intro after
  have hcase := saveCoreConfig_cases store request faults disk
  generalize hout : saveCoreConfig store request faults disk = out at hcase
  have hafter : after = out.2 := congrArg Prod.snd hout
  rw [hafter]
  cases hcase with
  | rejected => exact ⟨Or.inl rfl, Or.inl rfl⟩
  | unreadable => exact ⟨Or.inl rfl, Or.inl rfl⟩
  | wpaFailed => exact ⟨Or.inl rfl, Or.inl rfl⟩
  | chimeFailed _ new_wpa => exact ⟨Or.inr ⟨_, new_wpa, rfl⟩, Or.inl rfl⟩
  | bothReplaced _ old_chime new_wpa =>
    exact ⟨Or.inr ⟨_, new_wpa, rfl⟩, Or.inr ⟨_, old_chime, rfl⟩⟩

theorem SaveCase.failure {store : ConfigStore} {request : SaveRequest} {faults : SaveFaults}
    {disk : Disk} {out : SaveResult × Disk} (h : SaveCase store request faults disk out)
    (failed : out.1.success = false) :
    (out.2 = disk ∧ (validateRequest request ≠ [] ∨
      (existingSnapshot store faults disk).success = false ∨
      ∃ message, saveWpaSupplicant store request faults disk = (.error message, disk))) ∨
    (∃ wpa message, wpaContent request disk.wpaLines = .ok wpa ∧
      out.2 = { disk with wpa_supplicant := some wpa } ∧
      saveChimeConfig store request (existingSnapshot store faults disk).snapshot faults out.2 =
        (.error message, out.2)) ∨
    (∃ chime wpa, disk.chime_config = some chime ∧ wpaContent request disk.wpaLines = .ok wpa ∧
      out.2 = savedDisk request chime wpa ∧
      (loadCoreConfig store out.2 faults.loaded_chime_open faults.loaded_wpa_open).success =
        false) := by
  cases h with
  | rejected invalid => exact Or.inl ⟨rfl, Or.inl invalid⟩
  | unreadable unread => exact Or.inl ⟨rfl, Or.inr (Or.inl unread)⟩
  | @wpaFailed message hwpa => exact Or.inl ⟨rfl, Or.inr (Or.inr ⟨message, hwpa⟩)⟩
  | @chimeFailed wpa message _ new_wpa hchime =>
    exact Or.inr (Or.inl ⟨wpa, message, new_wpa, rfl, hchime⟩)
  | @bothReplaced chime wpa _ old_chime new_wpa =>
    exact Or.inr (Or.inr ⟨chime, wpa, old_chime, new_wpa, rfl, failed⟩)

/-- A successful save has replaced both files.  A failed one has left both alone if it failed
before or while replacing `wpa_supplicant.conf`, has replaced that file alone if replacing
`chime.conf` failed, and has replaced both if only loading them again failed. -/
theorem saveCoreConfig_outcome (store : ConfigStore) (request : SaveRequest) (faults : SaveFaults)
    (disk : Disk) :
    let out := saveCoreConfig store request faults disk
    (out.1.success = true → ∃ chime wpa, disk.chime_config = some chime ∧
      wpaContent request disk.wpaLines = .ok wpa ∧ out.2 = savedDisk request chime wpa) ∧
    (out.1.success = false →
      (out.2 = disk ∧ (validateRequest request ≠ [] ∨
        (existingSnapshot store faults disk).success = false ∨
        ∃ message, saveWpaSupplicant store request faults disk = (.error message, disk))) ∨
      (∃ wpa message, wpaContent request disk.wpaLines = .ok wpa ∧
        out.2 = { disk with wpa_supplicant := some wpa } ∧
        saveChimeConfig store request (existingSnapshot store faults disk).snapshot faults out.2 =
          (.error message, out.2)) ∨
      (∃ chime wpa, disk.chime_config = some chime ∧ wpaContent request disk.wpaLines = .ok wpa ∧
        out.2 = savedDisk request chime wpa ∧
        (loadCoreConfig store out.2 faults.loaded_chime_open faults.loaded_wpa_open).success =
          false)) := by
  intro out
  have hcase : SaveCase store request faults disk out :=
    saveCoreConfig_cases store request faults disk
  clear_value out
  refine ⟨fun h => ?_, hcase.failure⟩
  obtain ⟨chime, wpa, -, hold, hnew, hdisk⟩ := hcase.succeeded h
  exact ⟨chime, wpa, hold, hnew, hdisk⟩

/-- With `rename` failing on `chime.conf`, the new Wi-Fi settings stay on disk after a failed
save. -/
theorem saveCoreConfig_rename_fails :
    let faults : SaveFaults :=
      { chime_write := { rename := some (bytes "Device or resource busy") } }
    let out := saveCoreConfig {} sampleRequest faults sampleDisk
    out.1.success = false ∧ out.2.chime_config = sampleDisk.chime_config ∧
      out.2.wpa_supplicant ≠ sampleDisk.wpa_supplicant := by
  decide +kernel

end VirtualChime.Webd
