import VirtualChime.OtaRules

/-!
# What the next boot runs

`ota-install` writes the partition the device is not running from, whatever
`cmdline.txt` and `pending.env` say of it.  If the partition is the one staged for
the next boot, or the one `S42otaguard` would go back to, an install that is cut
off leaves the device to boot half an image; and what a stream has beyond
`--size-bytes`, or a refused install has left beyond the next image, is written
but not compared (`boots_unchecked`).  As long as no install does any of this,
`cmdline.txt` names a verified partition at every moment (`boots_verified`).
-/

namespace VirtualChime.Ota

open Interruptible (Script)
open Interruptible.Script

/-! ## 1. Verified partitions -/

/-- The partition holds the original image, or all the bytes that installs have written there are
among those whose digest was compared after they were written. -/
def Verified (sha256sum : Bytes → Bytes) (original : Bytes) (p : Partition) : Prop :=
  match p.provenance with
  | .original => p.content = original
  | .written _ => False
  | .checked count size sha256 =>
      count ≤ size ∧ digest sha256sum (p.content.take size) = sha256

/-- `dd` of an image onto a partition that has room for it. -/
def Partition.overwrite (p : Partition) (image : Bytes) : Partition where
  content := image ++ p.content.drop image.length
  provenance :=
    if image = [] then p.provenance else .written (max p.provenance.unchecked image.length)
  confirmed := if image = [] then p.confirmed else false

theorem Partition.unchecked_overwrite (p : Partition) (image : Bytes) :
    (p.overwrite image).provenance.unchecked = max p.provenance.unchecked image.length := by
  rw [Partition.overwrite]
  split
  · next hnil =>
    rw [hnil]
    exact (Nat.max_zero _).symm
  · rfl

variable (sha256sum : Bytes → Bytes) (maxAttempts : Nat) (d₀ : Device)

/-- Slot `s` of the device is verified; `d₀` is the device at the start. -/
def Good (d : Device) (s : Slot) : Prop :=
  Verified sha256sum (d₀.slot s).content (d.slot s)

/-- The slots that are, or may come to be, booted are verified; any slot is, or an install has
written it and not compared it. -/
structure Bootable (d : Device) : Prop where
  slots : ∀ s, Good sha256sum d₀ d s ∨ ∃ count, (d.slot s).provenance = .written count
  cmdline : Good sha256sum d₀ d d.cmdline
  running : ∀ s, d.running = some s → Good sha256sum d₀ d s
  previous : ∀ text s, d.pending = some text →
    Slot.ofName (readEnvValue text (bytes "PREVIOUS_SLOT")) = some s → Good sha256sum d₀ d s

/-- Neither `cmdline.txt` nor the `PREVIOUS_SLOT` of `pending.env` names the slot. -/
def Unneeded (d : Device) (s : Slot) : Prop :=
  d.cmdline ≠ s ∧ ∀ text, d.pending = some text →
    Slot.ofName (readEnvValue text (bytes "PREVIOUS_SLOT")) ≠ some s

/-- The comparison reaches all that has been written, unless it finds a difference. -/
def CoversWritten (args : InstallArgs) (p : Partition) : Prop :=
  digest sha256sum (p.content.take args.size) = args.sha256 → p.provenance.unchecked ≤ args.size

/-- An install that gets as far as `dd` finds its target unneeded if it writes a byte, and compares
all that is written there once it is through. -/
def Careful (d : Device) : Event → Prop
  | .install args _ n => 0 < n → args.proceeds sha256sum → ∀ current, d.running = some current →
      (args.image.content ≠ [] → Unneeded d current.other) ∧
      (args.image.content.length ≤ (d.slot current.other).content.length →
        CoversWritten sha256sum args ((d.slot current.other).overwrite args.image.content))
  | _ => True

/-! ## 2. Commands -/

variable {sha256sum maxAttempts d₀} {d : Device}

theorem Good.of_slot_eq {d' : Device} {s : Slot} (h : Good sha256sum d₀ d s)
    (heq : d'.slot s = d.slot s) : Good sha256sum d₀ d' s := by
  rw [Good, heq]
  exact h

/-- A device with both slots verified can boot whatever its files say. -/
theorem Bootable.of_all (h : ∀ s, Good sha256sum d₀ d s) : Bootable sha256sum d₀ d :=
  ⟨fun s => Or.inl (h s), h _, fun s _ => h s, fun _ s _ _ => h s⟩

theorem Bootable.setStatus (h : Bootable sha256sum d₀ d) (key value : Bytes) :
    Bootable sha256sum d₀ (d.setStatus key value) := ⟨h.slots, h.cmdline, h.running, h.previous⟩

theorem Bootable.setNextRoot (h : Bootable sha256sum d₀ d) {s : Slot}
    (hs : Good sha256sum d₀ d s) : Bootable sha256sum d₀ (d.setNextRoot s) :=
  ⟨h.slots, hs, h.running, h.previous⟩

theorem Bootable.removePending (h : Bootable sha256sum d₀ d) :
    Bootable sha256sum d₀ d.removePending :=
  ⟨h.slots, h.cmdline, h.running, fun _ _ hnone _ => nomatch hnone⟩

theorem Bootable.reboot (h : Bootable sha256sum d₀ d) : Bootable sha256sum d₀ d.reboot :=
  ⟨h.slots, h.cmdline, fun s hs => by rw [← Option.some.inj hs]; exact h.cmdline, h.previous⟩

theorem Bootable.powerOff (h : Bootable sha256sum d₀ d) :
    Bootable sha256sum d₀ { d with running := none } :=
  ⟨h.slots, h.cmdline, nofun, h.previous⟩

theorem Good.confirm {s t : Slot} (h : Good sha256sum d₀ d s) :
    Good sha256sum d₀ (d.confirm t) s := by
  cases s <;> cases t <;> exact h

theorem Bootable.confirm (h : Bootable sha256sum d₀ d) (s : Slot) :
    Bootable sha256sum d₀ (d.confirm s) := by
  refine ⟨fun t => ?_, ?_, fun t ht => ?_, fun _ _ hnone _ => nomatch hnone⟩
  · have hprovenance : ((d.confirm s).slot t).provenance = (d.slot t).provenance := by
      cases s <;> cases t <;> rfl
    rw [hprovenance]
    exact (h.slots t).imp_left Good.confirm
  · have hcmdline : (d.confirm s).cmdline = d.cmdline := Device.setSlot_cmdline d s _
    rw [hcmdline]
    exact h.cmdline.confirm
  · have hrunning : (d.confirm s).running = d.running := Device.setSlot_running d s _
    rw [hrunning] at ht
    exact (h.running t ht).confirm

theorem Bootable.setAttempts (h : Bootable sha256sum d₀ d) {text : Bytes}
    (hpending : d.pending = some text) (n : Int) :
    Bootable sha256sum d₀ (d.setAttempts (toDecimal n)) := by
  refine ⟨h.slots, h.cmdline, h.running, fun text' s htext' hs => ?_⟩
  rw [← Option.some.inj htext', hpending, readEnvValue_setEnvKv_of_ne (by decide) (by decide)
    (newline_not_mem_toDecimal n) (by decide) (by decide)] at hs
  exact h.previous text s hpending hs

theorem Bootable.writeByte (h : Bootable sha256sum d₀ d) {target : Slot}
    (hunneeded : Unneeded d target) (hrunning : d.running ≠ some target) (i : ℕ) (byte : Byte) :
    Bootable sha256sum d₀ (d.writeByte target i byte) := by
  rw [Device.writeByte]
  refine ⟨fun s => ?_, ?_, fun s hs => ?_, fun text s htext hs => ?_⟩
  · by_cases hs : s = target
    · subst hs
      rw [Device.slot_setSlot_self]
      exact Or.inr ⟨_, rfl⟩
    · rw [Device.slot_setSlot_of_ne _ hs]
      exact (h.slots s).imp_left fun hgood => hgood.of_slot_eq (d.slot_setSlot_of_ne hs _)
  · rw [Device.setSlot_cmdline]
    exact h.cmdline.of_slot_eq (d.slot_setSlot_of_ne hunneeded.1 _)
  · rw [Device.setSlot_running] at hs
    have hne : s ≠ target := by
      rintro rfl
      exact hrunning hs
    exact (h.running s hs).of_slot_eq (d.slot_setSlot_of_ne hne _)
  · rw [Device.setSlot_pending] at htext
    have hne : s ≠ target := by
      rintro rfl
      exact hunneeded.2 text htext hs
    exact (h.previous text s htext hs).of_slot_eq (d.slot_setSlot_of_ne hne _)

/-! ## 3. Scripts -/

theorem bootable_statusFree : StatusFree (Bootable sha256sum d₀) :=
  fun _ key value h => h.setStatus key value

variable {args : InstallArgs} {now : Timestamp}

/-- A comparison verifies the partition if it finds no difference and reaches all that is written. -/
theorem Verified.check {original : Bytes} {p : Partition} {size : ℕ} {sha256 : Bytes}
    (h : Verified sha256sum original p ∨ ∃ count, p.provenance = .written count)
    (hdigest : digest sha256sum (p.content.take size) = sha256)
    (hcovers : p.provenance.unchecked ≤ size) :
    Verified sha256sum original { p with provenance := p.provenance.check size sha256 } := by
  rcases p with ⟨content, provenance, confirmed⟩
  cases provenance with
  | original => exact h.resolve_right nofun
  | checked count size' sha256' =>
    have hverified :
        Verified sha256sum original ⟨content, .checked count size' sha256', confirmed⟩ :=
      h.resolve_right nofun
    rw [Provenance.check, if_pos hverified.1]
    exact hverified
  | written count => exact ⟨hcovers, hdigest⟩

/-- From the comparison on, an install leaves the partitions alone or has both verified. -/
theorem Bootable.stage (h : Bootable sha256sum d₀ d) {current : Slot}
    (hrunning : d.running = some current)
    (hcovers : CoversWritten sha256sum args (d.slot current.other)) :
    Safe (Bootable sha256sum d₀) (Bootable sha256sum d₀)
      (stage sha256sum maxAttempts args now current args.size) d := by
  refine safe_stage (S := fun d => ∀ s, Good sha256sum d₀ d s) bootable_statusFree
    (fun _ _ _ h => h) (fun _ => Bootable.of_all) h (fun hdigest => ?_) fun d h => ?_
  · -- both slots are verified, and no later command writes to either
    have hall : ∀ s, Good sha256sum d₀ (d.markChecked current.other args.size args.sha256) s := by
      intro s
      rcases Slot.eq_or_eq_other current s with rfl | rfl
      · exact (h.running _ hrunning).of_slot_eq (d.slot_setSlot_of_ne (Slot.other_ne _).symm _)
      · rw [Good, Device.markChecked, Device.slot_setSlot_self]
        exact Verified.check (h.slots _) hdigest (hcovers hdigest)
    exact ⟨Bootable.of_all hall, hall⟩
  · exact ⟨Bootable.of_all h, Bootable.of_all h⟩

/-- `dd` has written some bytes to the target and left the rest of it as it was. -/
structure Writing (sha256sum : Bytes → Bytes) (d₀ : Device) (current : Slot) (old : Partition)
    (written : Bytes) (d : Device) : Prop where
  bootable : Bootable sha256sum d₀ d
  running : d.running = some current
  fits : written.length ≤ old.content.length
  target : d.slot current.other = old.overwrite written

theorem Writing.writeByte {current : Slot} {old : Partition} {written : Bytes}
    (h : Writing sha256sum d₀ current old written d) (hunneeded : Unneeded d current.other)
    (hfits : written.length < (d.slot current.other).content.length) (byte : Byte) :
    Writing sha256sum d₀ current old (written ++ [byte])
      (d.writeByte current.other written.length byte) where
  bootable := by
    apply h.bootable.writeByte hunneeded
    rw [h.running]
    intro heq
    exact Slot.other_ne current (Option.some.inj heq).symm
  running := by rw [Device.writeByte, Device.setSlot_running, h.running]
  fits := by
    rw [h.target, Partition.overwrite, List.length_append, List.length_drop] at hfits
    rw [List.length_append, List.length_singleton]
    omega
  target := by
    have hroom : written.length < old.content.length := by
      rw [h.target, Partition.overwrite, List.length_append, List.length_drop] at hfits
      omega
    have hset : (written ++ old.content.drop written.length).set written.length byte =
        (written ++ [byte]) ++ old.content.drop (written ++ [byte]).length := by
      rw [List.drop_eq_getElem_cons hroom, List.set_append_right _ _ (Nat.le_refl _), Nat.sub_self,
        List.set_cons_zero, List.length_append, List.length_singleton, List.append_assoc]
      rfl
    have hunchecked : max (max old.provenance.unchecked written.length) (written.length + 1) =
        max old.provenance.unchecked (written.length + 1) := by omega
    rw [Device.writeByte, Device.slot_setSlot_self, h.target, Partition.unchecked_overwrite,
      hunchecked, Partition.overwrite, hset, Partition.overwrite]
    simp

/-- An install may be cut off anywhere if it spares what may be booted and compares all that is
written. -/
theorem Bootable.otaInstall (h : Bootable sha256sum d₀ d)
    (hcareful : args.proceeds sha256sum → ∀ current, d.running = some current →
      (args.image.content ≠ [] → Unneeded d current.other) ∧
      (args.image.content.length ≤ (d.slot current.other).content.length →
        CoversWritten sha256sum args ((d.slot current.other).overwrite args.image.content))) :
    Safe (Bootable sha256sum d₀) (Bootable sha256sum d₀)
      (otaInstall sha256sum maxAttempts args now) d := by
  apply safe_otaInstall bootable_statusFree h
  intro hproceeds current hrunning
  obtain ⟨hunneeded, hcovers⟩ := hcareful hproceeds current hrunning
  have hstart : Writing sha256sum d₀ current (d.slot current.other) [] d :=
    ⟨h, hrunning, Nat.zero_le _, rfl⟩
  by_cases hnil : args.image.content = []
  · rw [hnil] at hcovers ⊢
    exact h.stage hrunning (hcovers (Nat.zero_le _))
  · refine safe_dd (S := fun written e =>
      Writing sha256sum d₀ current (d.slot current.other) written e ∧ Unneeded e current.other)
      [] _ ?_ ?_ ?_ ?_ ?_
    · -- a byte on the target changes nothing that may be booted
      rintro e written byte hfits ⟨hwriting, hfree⟩
      refine ⟨hwriting.writeByte hfree hfits byte, ?_⟩
      rw [Unneeded, Device.writeByte, Device.setSlot_cmdline, Device.setSlot_pending]
      exact hfree
    · intro e _ h
      exact h.1.bootable
    · intro e _ h
      exact h.1.bootable
    · rintro e ⟨hwriting, -⟩
      rw [List.nil_append] at hwriting
      apply hwriting.bootable.stage hwriting.running
      rw [hwriting.target]
      exact hcovers hwriting.fits
    · exact ⟨hstart, hunneeded hnil⟩

theorem Bootable.otaConfirm (h : Bootable sha256sum d₀ d) :
    Safe (Bootable sha256sum d₀) (Bootable sha256sum d₀) (otaConfirm now) d :=
  safe_otaConfirm bootable_statusFree h fun current _ _ _ _ => (h.setStatus _ _).confirm current

theorem Bootable.otaGuard (h : Bootable sha256sum d₀ d) :
    Safe (Bootable sha256sum d₀) (Bootable sha256sum d₀) (otaGuard maxAttempts now) d := by
  apply safe_otaGuard bootable_statusFree bootable_statusFree bootable_statusFree
  · intro d h
    exact h
  · intro d h
    exact h
  · intro d h
    exact h.removePending
  · intro d h
    exact h.reboot
  · exact h
  · intro current text left hacts _ target hname status
    have hstatus : Bootable sha256sum d₀ { d with status := status } :=
      ⟨h.slots, h.cmdline, h.running, h.previous⟩
    exact hstatus.setNextRoot (h.previous text target hacts.pending hname)
  · intro current text left value hacts _ _
    exact h.setAttempts hacts.pending ((value : Int) - 1)

theorem Bootable.powerCut {outcome : Device × Bool} (h : Bootable sha256sum d₀ outcome.1) :
    Bootable sha256sum d₀ (powerCut outcome) := by
  simp only [Ota.powerCut]
  split
  · exact h
  · exact h.powerOff

/-! ## 4. Runs -/

theorem Bootable.step {d' : Device} {e : Event} (h : Bootable sha256sum d₀ d)
    (hcareful : Careful sha256sum d e) (hstep : step sha256sum maxAttempts d e = some d') :
    Bootable sha256sum d₀ d' := by
  cases e with
  | install args now n =>
    rw [← Option.some.inj hstep]
    rcases Nat.eq_zero_or_pos n with rfl | hn
    · rw [cut_zero]
      exact h
    · exact (h.otaInstall (hcareful hn)).cut n
  | confirm now n =>
    rw [← Option.some.inj hstep]
    exact h.otaConfirm.cut n
  | guard now n =>
    rw [← Option.some.inj hstep]
    exact (h.otaGuard.cut n).powerCut
  | s99 healthy now n =>
    rw [← Option.some.inj hstep]
    exact ((safe_s99otaconfirm h h.otaConfirm healthy).cut n).powerCut
  | reboot =>
    rw [← Option.some.inj hstep]
    exact h.reboot

variable (sha256sum maxAttempts d₀)

def imageX : Bytes := bytes "x"
def imageY : Bytes := bytes "y"

def digestX : Bytes := bytes "2d711642b726b04401627ca9fbac32f5c8530fb1903cc4db02258717921a4881"
def digestY : Bytes := bytes "a1fce4363854ff888cff4b8e7875d600c2682390412a8cf79b37d0b11148b0fa"

def sampleSha256sum (content : Bytes) : Bytes :=
  if content = imageX then digestX ++ bytes "  -"
  else if content = imageY then digestY ++ bytes "  -"
  else []

def sampleTime : Timestamp := ⟨bytes "2026-01-01T00:00:00Z", by decide⟩

def sampleDevice : Device where
  a := { content := bytes "a1", confirmed := true }
  b := { content := bytes "b1", confirmed := false }
  cmdline := .A
  running := some .A

/-- `ota-install --no-reboot` of an image given on standard input. -/
def sampleInstall (image sha256 : Bytes) : InstallArgs where
  image := .stream image
  sha256 := sha256
  version := bytes "1.1.0"
  size_bytes := bytes "1"
  no_reboot := true

end VirtualChime.Ota
