import VirtualChime.ShellNumbers
import VirtualChime.Library.Interruptible
import VirtualChime.Library.Runs

/-!
# The update scripts

`ota-install`, `ota-confirm`, `ota-rollback`, `S42otaguard` and `S99otaconfirm` as
scripts over the state they share: the two root partitions, `pending.env`,
`status.env`, the partition `cmdline.txt` boots next and the one that is running.
A command that leaves this state alone is not a step.  A partition is written byte
by byte; a file is replaced whole, as `mv` does it.
-/

namespace VirtualChime.Ota

open Interruptible (Script)
open Interruptible.Script

/-! ## 1. Environment files -/

section Env

/-- `sed -n "s/^key=//p"` on one line. -/
def envLine (key line : Bytes) : Option Bytes :=
  if (key ++ [equals]).isPrefixOf line then some (line.drop (key ++ [equals]).length) else none

/-- `read_env_value` of a file that exists. -/
def readEnvValue (text key : Bytes) : Bytes :=
  ((getlines text).filterMap (envLine key)).getLast?.getD []

/-- What `set_env_kv` leaves in a file. -/
def setEnvKv (file : Option Bytes) (key value : Bytes) : Bytes :=
  let kept := ((file.map getlines).getD []).filter fun line => (envLine key line).isNone
  Scanner.joinLines newline (kept ++ [key ++ equals :: value])

theorem envLine_eq_some_iff {key line v : Bytes} :
    envLine key line = some v ↔ line = key ++ equals :: v := by
  simp only [envLine]
  constructor
  · intro h
    split at h
    · next hpre =>
      obtain ⟨rest, hrest⟩ := List.isPrefixOf_iff_prefix.mp hpre
      rw [← hrest, List.drop_left, Option.some.injEq] at h
      rw [← hrest, h]
      simp
    · cases h
  · rintro rfl
    have heq : key ++ equals :: v = (key ++ [equals]) ++ v := by simp
    rw [heq, if_pos (List.isPrefixOf_iff_prefix.mpr (List.prefix_append _ _)), List.drop_left]

theorem envLine_of_ne {key key' line v : Bytes} (hkey : equals ∉ key) (hkey' : equals ∉ key')
    (hne : key' ≠ key) (h : envLine key line = some v) : envLine key' line = none := by
  rw [Option.eq_none_iff_forall_ne_some]
  intro w hw
  rw [envLine_eq_some_iff] at h hw
  have hcut := Scanner.cut_append hkey v
  rw [← h, hw, Scanner.cut_append hkey' w, Option.some.injEq, Prod.mk.injEq] at hcut
  exact hne hcut.1

theorem envLine_setting {key k : Bytes} (hkey : equals ∉ key) (hk : equals ∉ k) (v : Bytes) :
    envLine key (k ++ equals :: v) = if k = key then some v else none := by
  split
  · next h => rw [h, envLine_eq_some_iff]
  · next h => exact envLine_of_ne hk hkey (Ne.symm h) (envLine_eq_some_iff.mpr rfl)

def setting (row : Bytes × Bytes) : Bytes := row.1 ++ equals :: row.2

theorem filterMap_setting {key : Bytes} (hkey : equals ∉ key) {rows : List (Bytes × Bytes)}
    (hrows : ∀ row ∈ rows, equals ∉ row.1) :
    (rows.map setting).filterMap (envLine key) =
      rows.filterMap fun row => if row.1 = key then some row.2 else none := by
  rw [List.filterMap_map]
  exact List.filterMap_congr fun row hrow => envLine_setting hkey (hrows row hrow) row.2

theorem readEnvValue_of_getLast? {text key v : Bytes}
    (h : ((getlines text).filterMap (envLine key)).getLast? = some v) :
    readEnvValue text key = v := by
  rw [readEnvValue, h, Option.getD_some]

section SetEnvKv

variable {file : Option Bytes} {key value : Bytes} (hkey : equals ∉ key) (hline : newline ∉ key)
  (hvalue : newline ∉ value)

include hline hvalue in
theorem getlines_setEnvKv :
    getlines (setEnvKv file key value) =
      (((file.map getlines).getD []).filter fun line => (envLine key line).isNone) ++
        [key ++ equals :: value] := by
  apply Scanner.lines_joinLines_of_clean
  intro line hmem
  rcases List.mem_append.mp hmem with hold | hnew
  · cases file with
    | none => cases hold
    | some text => exact newline_not_mem_of_mem_getlines (List.mem_filter.mp hold).1
  · rw [List.mem_singleton.mp hnew]
    have heq : newline ≠ equals := by decide
    simp [hline, hvalue, heq]

include hline hvalue in
theorem readEnvValue_setEnvKv : readEnvValue (setEnvKv file key value) key = value := by
  apply readEnvValue_of_getLast?
  rw [getlines_setEnvKv hline hvalue, List.filterMap_append]
  simp [envLine_eq_some_iff.mpr]

include hkey hline hvalue in
theorem readEnvValue_setEnvKv_of_ne {text key' : Bytes} (hkey' : equals ∉ key')
    (hne : key' ≠ key) :
    readEnvValue (setEnvKv (some text) key value) key' = readEnvValue text key' := by
  have hnew : envLine key' (key ++ equals :: value) = none :=
    envLine_of_ne hkey hkey' hne (envLine_eq_some_iff.mpr rfl)
  have hkept : ((getlines text).filter fun line => (envLine key line).isNone).filterMap
      (envLine key') = (getlines text).filterMap (envLine key') := by
    rw [List.filterMap_filter]
    apply List.filterMap_congr
    intro line _
    rcases h : envLine key line with _ | v
    · simp
    · simp [envLine_of_ne hkey hkey' hne h]
  rw [readEnvValue, readEnvValue, getlines_setEnvKv hline hvalue, List.filterMap_append]
  simp [hkept, hnew]

end SetEnvKv

end Env

/-! ## 2. The device -/

inductive Slot where
  | A | B
deriving DecidableEq, Repr

namespace Slot

def name : Slot → Bytes
  | A => bytes "A"
  | B => bytes "B"

/-- `inactive_slot`, where `current_slot` is the running one. -/
def other : Slot → Slot
  | A => B
  | B => A

/-- `validate_slot`. -/
def ofName (name : Bytes) : Option Slot :=
  if name = bytes "A" then some A else if name = bytes "B" then some B else none

@[simp] theorem other_other (s : Slot) : s.other.other = s := by cases s <;> rfl

theorem other_ne (s : Slot) : s.other ≠ s := by cases s <;> decide

theorem eq_or_eq_other (s t : Slot) : t = s ∨ t = s.other := by cases s <;> cases t <;> decide

theorem ofName_name (s : Slot) : ofName s.name = some s := by cases s <;> decide

theorem name_injective : Function.Injective name := by
  intro s t h
  have hs := ofName_name s
  rw [h, ofName_name t] at hs
  exact (Option.some.inj hs).symm

end Slot

/-- How the bytes of a partition came there. -/
inductive Provenance where
  -- as the device started with them
  | original
  -- installs have written this many since a comparison last reached all that was written
  | written (count : Nat)
  -- and after that the digest of the first `size` bytes was compared
  | checked (count size : Nat) (sha256 : Bytes)
deriving DecidableEq, Repr

/-- How far the bytes reach that were written and that no comparison has reached. -/
def Provenance.unchecked : Provenance → Nat
  | .original => 0
  | .written count => count
  | .checked count size _ => if count ≤ size then 0 else count

/-- A comparison makes a difference to bytes that none has reached. -/
def Provenance.check (size : Nat) (sha256 : Bytes) : Provenance → Provenance
  | .original => .original
  | .written count => .checked count size sha256
  | .checked count size' sha256' =>
      if count ≤ size' then .checked count size' sha256' else .checked count size sha256

/-- A root partition.  `provenance` and `confirmed` record its history; no script reads them. -/
structure Partition where
  content : Bytes
  provenance : Provenance := .original
  confirmed : Bool
deriving DecidableEq, Repr

structure Device where
  a : Partition
  b : Partition
  pending : Option Bytes := none
  status : Option Bytes := none
  -- the partition the `root=` of `cmdline.txt` names
  cmdline : Slot
  -- the partition the device runs from, `none` while it has no power
  running : Option Slot
deriving DecidableEq, Repr

namespace Device

def slot (d : Device) : Slot → Partition
  | .A => d.a
  | .B => d.b

def setSlot (d : Device) (s : Slot) (p : Partition) : Device :=
  match s with
  | .A => { d with a := p }
  | .B => { d with b := p }

@[simp] theorem slot_setSlot_self (d : Device) (s : Slot) (p : Partition) :
    (d.setSlot s p).slot s = p := by cases s <;> rfl

theorem slot_setSlot_of_ne (d : Device) {s t : Slot} (h : t ≠ s) (p : Partition) :
    (d.setSlot s p).slot t = d.slot t := by
  cases s <;> cases t <;> first | rfl | exact absurd rfl h

@[simp] theorem setSlot_pending (d : Device) (s : Slot) (p : Partition) :
    (d.setSlot s p).pending = d.pending := by cases s <;> rfl

@[simp] theorem setSlot_cmdline (d : Device) (s : Slot) (p : Partition) :
    (d.setSlot s p).cmdline = d.cmdline := by cases s <;> rfl

@[simp] theorem setSlot_running (d : Device) (s : Slot) (p : Partition) :
    (d.setSlot s p).running = d.running := by cases s <;> rfl

def writeByte (s : Slot) (i : Nat) (byte : Byte) (d : Device) : Device :=
  d.setSlot s
    { content := (d.slot s).content.set i byte
      provenance := .written (max (d.slot s).provenance.unchecked (i + 1))
      confirmed := false }

def markChecked (s : Slot) (size : Nat) (sha256 : Bytes) (d : Device) : Device :=
  d.setSlot s { d.slot s with provenance := (d.slot s).provenance.check size sha256 }

/-- `set_env_kv "$OTA_STATUS_FILE"`. -/
def setStatus (key value : Bytes) (d : Device) : Device :=
  { d with status := some (setEnvKv d.status key value) }

/-- `set_env_kv "$OTA_PENDING_FILE" ATTEMPTS_LEFT`. -/
def setAttempts (attempts : Bytes) (d : Device) : Device :=
  { d with pending := some (setEnvKv d.pending (bytes "ATTEMPTS_LEFT") attempts) }

/-- `write_pending_state`, for the text it writes. -/
def writePending (text : Bytes) (d : Device) : Device := { d with pending := some text }

/-- `set_next_root_device`, for the device of a slot. -/
def setNextRoot (s : Slot) (d : Device) : Device := { d with cmdline := s }

/-- `rm -f "$OTA_PENDING_FILE"`. -/
def removePending (d : Device) : Device := { d with pending := none }

/-- `rm -f "$OTA_PENDING_FILE"` in `ota-confirm`, which makes the running image a confirmed one. -/
def confirm (s : Slot) (d : Device) : Device :=
  (d.setSlot s { d.slot s with confirmed := true }).removePending

/-- `reboot -f`: the bootloader boots the `root=` partition. -/
def reboot (d : Device) : Device := { d with running := some d.cmdline }

end Device

/-! ## 3. The scripts -/

structure Timestamp where
  text : Bytes
  oneLine : newline ∉ text

/-- What `--image` names: standard input, a file, or nothing there is. -/
inductive Image where
  | stream (content : Bytes)
  | file (content : Bytes)
  | missing
deriving DecidableEq, Repr

def Image.content : Image → Bytes
  | .stream content | .file content => content
  | .missing => []

/-- The variables of `ota-install` after its argument loop. -/
structure InstallArgs where
  image : Image
  sha256 : Bytes
  version : Bytes
  size_bytes : Bytes := []
  no_reboot : Bool := false
deriving DecidableEq, Repr

/-- How many bytes `ota-install` compares after `dd`. -/
def InstallArgs.size (args : InstallArgs) : Nat :=
  match args.image with
  | .file content => content.length
  | _ => digitsValue args.size_bytes

section Scripts

/-- `sha256sum | awk '{print $1}'`, from what `sha256sum` prints for a content. -/
def digest (sha256sum : Bytes → Bytes) (content : Bytes) : Bytes :=
  let separates := fun c : Byte => c == 32 || c == 9
  ((firstLine (sha256sum content)).dropWhile separates).takeWhile fun c => !separates c

def setStatus (key value : Bytes) (rest : Script Device) : Script Device :=
  .run (Device.setStatus key value) rest

/-- `dd` onto a partition, from byte `i` on; it fails at the end of the partition. -/
def dd (target : Slot) : Bytes → Nat → Script Device → Script Device
  | [], _, rest => rest
  | byte :: content, i, rest => .ask fun d =>
      if i < (d.slot target).content.length then
        .run (Device.writeByte target i byte) (dd target content (i + 1) rest)
      else .done

/-- The text `write_pending_state` writes. -/
def pendingText (target previous : Slot) (version sha256 : Bytes) (now : Timestamp)
    (attempts : Nat) : Bytes :=
  Scanner.joinLines newline [
    bytes "STATE=pending",
    bytes "TARGET_SLOT=" ++ target.name,
    bytes "PREVIOUS_SLOT=" ++ previous.name,
    bytes "FW_VERSION=" ++ version,
    bytes "SHA256=" ++ sha256,
    bytes "APPLY_TIME_UTC=" ++ now.text,
    bytes "ATTEMPTS_LEFT=" ++ natDecimal attempts]

theorem newline_not_mem_name (s : Slot) : newline ∉ s.name := by cases s <;> decide

theorem newline_not_mem_natDecimal (n : Nat) : newline ∉ natDecimal n :=
  fun h => (not_isSpace_of_isDigit (natDecimal_digits h)).2.2.2.2.2 rfl

theorem newline_not_mem_digest (sha256sum : Bytes → Bytes) (content : Bytes) :
    newline ∉ digest sha256sum content := by
  intro h
  exact newline_not_mem_firstLine (sha256sum content)
    ((List.dropWhile_sublist _).mem ((List.takeWhile_sublist _).mem h))

section PendingText

variable {target previous : Slot} {version sha256 : Bytes} {now : Timestamp} {attempts : Nat}
  (hsha256 : newline ∉ sha256)

include hsha256

/-- The version is the only text that can hold further lines. -/
theorem getlines_pendingText :
    getlines (pendingText target previous version sha256 now attempts) =
      [(bytes "STATE", bytes "pending"), (bytes "TARGET_SLOT", target.name),
        (bytes "PREVIOUS_SLOT", previous.name), (bytes "FW_VERSION", firstLine version)].map
          setting ++
      laterLines version ++
      [(bytes "SHA256", sha256), (bytes "APPLY_TIME_UTC", now.text),
        (bytes "ATTEMPTS_LEFT", natDecimal attempts)].map setting := by
  have hone : ∀ {key v : Bytes}, newline ∉ key → newline ∉ v →
      (key ++ v).splitOn newline = [key ++ v] := by
    intro key v hkey hv
    exact splitOn_newline_of_not_mem (by simp [hkey, hv])
  rw [pendingText, getlines, Scanner.lines_joinLines]
  simp only [List.flatMap_cons, List.flatMap_nil]
  rw [splitOn_newline_of_not_mem (by decide : newline ∉ bytes "STATE=pending"),
    hone (by decide) (newline_not_mem_name target), hone (by decide) (newline_not_mem_name previous),
    splitOn_newline_append (by decide : newline ∉ bytes "FW_VERSION=") version,
    hone (by decide) hsha256, hone (by decide) now.oneLine,
    hone (by decide) (newline_not_mem_natDecimal attempts)]
  simp only [List.cons_append, List.nil_append, List.append_nil]
  rfl

/-- What the rows of `pending.env` say of a key the version does not set. -/
theorem filterMap_pendingText {key : Bytes} (hkey : equals ∉ key)
    (hversion : ∀ line ∈ laterLines version, envLine key line = none) :
    (getlines (pendingText target previous version sha256 now attempts)).filterMap (envLine key) =
      ([(bytes "STATE", bytes "pending"), (bytes "TARGET_SLOT", target.name),
        (bytes "PREVIOUS_SLOT", previous.name), (bytes "FW_VERSION", firstLine version)] ++
      [(bytes "SHA256", sha256), (bytes "APPLY_TIME_UTC", now.text),
        (bytes "ATTEMPTS_LEFT", natDecimal attempts)]).filterMap fun row =>
          if row.1 = key then some row.2 else none := by
  have hnone : (laterLines version).filterMap (envLine key) = [] :=
    List.filterMap_eq_nil_iff.mpr hversion
  rw [getlines_pendingText hsha256, List.filterMap_append, List.filterMap_append, hnone,
    List.append_nil, filterMap_setting hkey (by simp; decide),
    filterMap_setting hkey (by simp; decide), List.filterMap_append]

theorem readEnvValue_pendingText_target
    (hversion : ∀ line ∈ laterLines version, envLine (bytes "TARGET_SLOT") line = none) :
    readEnvValue (pendingText target previous version sha256 now attempts)
      (bytes "TARGET_SLOT") = target.name := by
  apply readEnvValue_of_getLast?
  rw [filterMap_pendingText hsha256 (by decide) hversion]
  rfl

theorem readEnvValue_pendingText_previous
    (hversion : ∀ line ∈ laterLines version, envLine (bytes "PREVIOUS_SLOT") line = none) :
    readEnvValue (pendingText target previous version sha256 now attempts)
      (bytes "PREVIOUS_SLOT") = previous.name := by
  apply readEnvValue_of_getLast?
  rw [filterMap_pendingText hsha256 (by decide) hversion]
  rfl

/-- `ATTEMPTS_LEFT` comes after the version, which cannot change it. -/
theorem readEnvValue_pendingText_attempts :
    readEnvValue (pendingText target previous version sha256 now attempts)
      (bytes "ATTEMPTS_LEFT") = natDecimal attempts := by
  apply readEnvValue_of_getLast?
  rw [getlines_pendingText hsha256, List.filterMap_append,
    filterMap_setting (by decide) (by simp; decide), List.getLast?_append]
  rfl

end PendingText

variable (sha256sum : Bytes → Bytes) (maxAttempts : Nat)

/-- `ota-install` from the comparison after `dd` on. -/
def stage (args : InstallArgs) (now : Timestamp) (current : Slot) (size : Nat) : Script Device :=
  .ask fun d =>
    if digest sha256sum ((d.slot current.other).content.take size) ≠ args.sha256 then
      setStatus (bytes "LAST_RESULT") (bytes "verify_failed_after_write") <|
      setStatus (bytes "LAST_ERROR") (bytes "target_sha256_mismatch") <|
      .done
    else
      .run (Device.markChecked current.other size args.sha256) <|
      .run (Device.writePending
        (pendingText current.other current args.version args.sha256 now maxAttempts)) <|
      setStatus (bytes "LAST_RESULT") (bytes "install_staged") <|
      setStatus (bytes "CURRENT_SLOT") current.name <|
      setStatus (bytes "LAST_FW_VERSION") args.version <|
      .run (Device.setNextRoot current.other) <|
      if args.no_reboot then .done else .run Device.reboot .done

/-- `ota-install`.  The device runs from the partition it was booted from, so `current_slot` is
never empty. -/
def otaInstall (args : InstallArgs) (now : Timestamp) : Script Device :=
  .ask fun d =>
    match d.running with
    | none => .done
    | some current =>
        if args.sha256 = [] ∨ args.version = [] then .done
        else
          match args.image with
          | .missing => .done
          | .stream content =>
              if args.size_bytes = [] ∨ ¬ args.size_bytes.all isDigit then .done
              else dd current.other content 0 <|
                stage sha256sum maxAttempts args now current args.size
          | .file content =>
              if digest sha256sum content ≠ args.sha256 then
                setStatus (bytes "LAST_RESULT") (bytes "verify_failed") <|
                setStatus (bytes "LAST_ERROR") (bytes "sha256_mismatch") <|
                .done
              else dd current.other content 0 <|
                stage sha256sum maxAttempts args now current args.size

/-- The checks before `dd` pass. -/
def InstallArgs.proceeds (args : InstallArgs) : Prop :=
  args.sha256 ≠ [] ∧ args.version ≠ [] ∧
    match args.image with
    | .missing => False
    | .stream _ => args.size_bytes ≠ [] ∧ args.size_bytes.all isDigit = true
    | .file content => digest sha256sum content = args.sha256

def otaConfirm (now : Timestamp) : Script Device :=
  .ask fun d =>
    match d.running with
    | none => .done
    | some current =>
        setStatus (bytes "CURRENT_SLOT") current.name <|
        match d.pending with
        | none => setStatus (bytes "LAST_RESULT") (bytes "no_pending_update") .done
        | some text =>
            let target := readEnvValue text (bytes "TARGET_SLOT")
            if target = [] then
              setStatus (bytes "LAST_RESULT") (bytes "pending_invalid") <|
              setStatus (bytes "LAST_ERROR") (bytes "missing_target_slot") <|
              .done
            else if current.name ≠ target then
              setStatus (bytes "LAST_RESULT") (bytes "slot_mismatch") <|
              setStatus (bytes "LAST_ERROR")
                (bytes "current_" ++ current.name ++ bytes "_target_" ++ target) <|
              .done
            else
              .run (Device.confirm current) <|
              setStatus (bytes "LAST_RESULT") (bytes "confirmed") <|
              setStatus (bytes "LAST_GOOD_SLOT") current.name <|
              setStatus (bytes "LAST_FW_VERSION") (readEnvValue text (bytes "FW_VERSION")) <|
              setStatus (bytes "CONFIRMED_TIME_UTC") now.text <|
              .done

/-- `ota-rollback`; `slot` is what follows `--slot`, if it is given. -/
def otaRollback (slot : Option Bytes) (no_reboot : Bool) (now : Timestamp) : Script Device :=
  .ask fun d =>
    match d.running with
    | none => .done
    | some current =>
        let requested := match slot with
          | some name => name
          | none => (d.pending.map fun text => readEnvValue text (bytes "PREVIOUS_SLOT")).getD []
        let target := if slot = none ∧ requested = [] then some current.other
          else Slot.ofName requested
        match target with
        | none => .done
        | some target =>
            .run (Device.setNextRoot target) <|
            .run Device.removePending <|
            setStatus (bytes "LAST_RESULT") (bytes "rollback_requested") <|
            setStatus (bytes "CURRENT_SLOT") current.name <|
            setStatus (bytes "LAST_GOOD_SLOT") target.name <|
            setStatus (bytes "ROLLBACK_TIME_UTC") now.text <|
            if no_reboot then .done else .run Device.reboot .done

/-- A number as the shell's `-le` reads it. -/
def shellNumber (text : Bytes) : Option Int :=
  let (negative, digits) := splitSign text
  if digits.isEmpty || !digits.all isDigit then none
  else some (if negative then -(digitsValue digits : Int) else digitsValue digits)

/-- `ATTEMPTS_LEFT`, or its default. -/
def attemptsLeft (text : Bytes) : Bytes :=
  let attempts := readEnvValue text (bytes "ATTEMPTS_LEFT")
  if attempts = [] then natDecimal maxAttempts else attempts

/-- `S42otaguard start`. -/
def otaGuard (now : Timestamp) : Script Device :=
  .ask fun d =>
    match d.running, d.pending with
    | some current, some text =>
        let target := readEnvValue text (bytes "TARGET_SLOT")
        let attempts := attemptsLeft maxAttempts text
        if current.name ≠ target then .done
        else
          match shellNumber attempts with
          -- an arithmetic error ends the script
          | none => .done
          | some left =>
              if left ≤ 1 then
                setStatus (bytes "LAST_RESULT") (bytes "rollback_auto") <|
                setStatus (bytes "LAST_ERROR") (bytes "attempts_exhausted_slot_" ++ target) <|
                (otaRollback (some (readEnvValue text (bytes "PREVIOUS_SLOT"))) true now).seq <|
                .run Device.reboot .done
              else
                match arithmeticValue (splitSign attempts).2 with
                | none => .done
                | some value =>
                    .run (Device.setAttempts (toDecimal ((value : Int) - 1))) <|
                    setStatus (bytes "LAST_RESULT") (bytes "boot_unconfirmed") <|
                    setStatus (bytes "CURRENT_SLOT") current.name <|
                    .done
    | _, _ => .done

/-- `S99otaconfirm start`; `healthy` is whether both supervisors are running. -/
def s99otaconfirm (healthy : Bool) (now : Timestamp) : Script Device :=
  .ask fun d => if d.pending.isSome && healthy then otaConfirm now else .done

/-! ## 4. The device over time -/

/-- What happens to the device.  A script is cut off after `cut` commands: `ota-install` and
`ota-confirm` are killed, a boot script ends with the power. -/
inductive Event where
  | install (args : InstallArgs) (now : Timestamp) (cut : Nat)
  | confirm (now : Timestamp) (cut : Nat)
  | guard (now : Timestamp) (cut : Nat)
  | s99 (healthy : Bool) (now : Timestamp) (cut : Nat)
  | reboot

def powerCut (outcome : Device × Bool) : Device :=
  if outcome.2 then outcome.1 else { outcome.1 with running := none }

def step (d : Device) : Event → Option Device
  | .install args now n => some ((otaInstall sha256sum maxAttempts args now).cut n d).1
  | .confirm now n => some ((otaConfirm now).cut n d).1
  | .guard now n => some (powerCut ((otaGuard maxAttempts now).cut n d))
  | .s99 healthy now n => some (powerCut ((s99otaconfirm healthy now).cut n d))
  | .reboot => some d.reboot

end Scripts

end VirtualChime.Ota
