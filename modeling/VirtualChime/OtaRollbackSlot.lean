import VirtualChime.OtaBootSlot

/-!
# The slot to go back to

An update that is not yet confirmed runs on trial: `pending.env` names its slot,
and a confirmed one as `PREVIOUS_SLOT`.  An `ota-install` started from the slot on
trial writes over the confirmed one (`overwrites_confirmed_slot`).  In a run
without such an install there is always a confirmed slot to go back to
(`rolls_back_to_confirmed`).
-/

namespace VirtualChime.Ota

open Interruptible (Script)
open Interruptible.Script

/-! ## 1. Slots on trial -/

/-- `pending.env` names the slot as its target. -/
def Targets (d : Device) (s : Slot) : Prop :=
  ∃ text, d.pending = some text ∧ readEnvValue text (bytes "TARGET_SLOT") = s.name

/-- The slot may be booted: its image is confirmed, or on trial. -/
def Secured (d : Device) (s : Slot) : Prop := (d.slot s).confirmed = true ∨ Targets d s

/-- Whatever `pending.env` has on trial, the previous slot is the other one and confirmed. -/
def FallsBack (d : Device) : Prop :=
  ∀ text, d.pending = some text → ∃ t : Slot,
    readEnvValue text (bytes "TARGET_SLOT") = t.name ∧
      readEnvValue text (bytes "PREVIOUS_SLOT") = t.other.name ∧
      (d.slot t.other).confirmed = true

/-- What holds also after a power cut. -/
structure Rooted (d : Device) : Prop where
  fallsBack : FallsBack d
  cmdline : Secured d d.cmdline

/-- What holds between two events. -/
structure Recoverable (d : Device) : Prop extends Rooted d where
  running : ∀ r, d.running = some r → Secured d r ∧ (d.cmdline = r ∨ Targets d d.cmdline)

/-- There is a confirmed image to go back to: the one `PREVIOUS_SLOT` names, and one beside a
running image that is not confirmed. -/
structure CanGoBack (d : Device) : Prop where
  previous : ∀ text, d.pending = some text → ∃ p : Slot,
    readEnvValue text (bytes "PREVIOUS_SLOT") = p.name ∧ (d.slot p).confirmed = true
  beside : ∀ r, d.running = some r → (d.slot r).confirmed = false →
    (d.slot r.other).confirmed = true

/-- No install is made from a slot on trial, nor with a version that sets a slot of its own. -/
def OneTrial (sha256sum : Bytes → Bytes) (d : Device) : Event → Prop
  | .install args _ n => 0 < n → args.proceeds sha256sum →
      (∀ r, d.running = some r → ¬ Targets d r) ∧
        ∀ line ∈ laterLines args.version,
          envLine (bytes "TARGET_SLOT") line = none ∧ envLine (bytes "PREVIOUS_SLOT") line = none
  | _ => True

variable {sha256sum : Bytes → Bytes} {maxAttempts : Nat} {d : Device}

theorem Targets.unique {s t : Slot} (hs : Targets d s) (ht : Targets d t) : s = t := by
  obtain ⟨text, htext, hs⟩ := hs
  obtain ⟨text', htext', ht⟩ := ht
  rw [htext, Option.some.injEq] at htext'
  rw [← htext', hs] at ht
  exact Slot.name_injective ht

theorem targets_setSlot (t : Slot) (p : Partition) {s : Slot} :
    Targets (d.setSlot t p) s ↔ Targets d s := by
  rw [Targets, Targets, d.setSlot_pending]

theorem FallsBack.other (h : FallsBack d) {s : Slot} (hs : Targets d s) :
    (d.slot s.other).confirmed = true := by
  obtain ⟨text, htext, hs⟩ := hs
  obtain ⟨t, ht, _, hconfirmed⟩ := h text htext
  rwa [Slot.name_injective (hs.symm.trans ht)]

theorem FallsBack.of_no_pending (h : d.pending = none) : FallsBack d := by
  intro text htext
  rw [h] at htext
  cases htext

theorem FallsBack.eq_other (h : FallsBack d) {text : Bytes} (htext : d.pending = some text)
    {r : Slot} (hr : readEnvValue text (bytes "TARGET_SLOT") = r.name) :
    readEnvValue text (bytes "PREVIOUS_SLOT") = r.other.name := by
  obtain ⟨t, ht, hprevious, _⟩ := h text htext
  rwa [Slot.name_injective (hr.symm.trans ht)]

/-! ## 2. Commands -/

theorem Rooted.setStatus (h : Rooted d) (key value : Bytes) : Rooted (d.setStatus key value) :=
  ⟨h.fallsBack, h.cmdline⟩

theorem Recoverable.setStatus (h : Recoverable d) (key value : Bytes) :
    Recoverable (d.setStatus key value) := ⟨h.toRooted.setStatus key value, h.running⟩

/-- Whatever is booted is confirmed or on trial. -/
theorem Rooted.reboot (h : Rooted d) : Recoverable d.reboot := by
  refine ⟨⟨h.fallsBack, h.cmdline⟩, fun r hr => ?_⟩
  rw [← Option.some.inj hr]
  exact ⟨h.cmdline, Or.inl rfl⟩

theorem Rooted.powerOff (h : Rooted d) : Recoverable { d with running := none } :=
  ⟨⟨h.fallsBack, h.cmdline⟩, nofun⟩

/-- The confirmed slots stay, and the one that runs joins them. -/
theorem confirmed_confirm {r s : Slot} (hs : (d.slot s).confirmed = true ∨ s = r) :
    ((d.confirm r).slot s).confirmed = true := by
  rcases Slot.eq_or_eq_other r s with rfl | rfl
  · exact congrArg Partition.confirmed (d.slot_setSlot_self s _)
  · have heq : (d.confirm r).slot r.other = d.slot r.other :=
      d.slot_setSlot_of_ne (Slot.other_ne r) _
    rw [heq]
    exact hs.resolve_right (Slot.other_ne r)

/-- A slot on trial that runs is the one the boot loader is set to. -/
theorem Recoverable.cmdline_eq (h : Recoverable d) {r : Slot} (hrunning : d.running = some r)
    (htarget : Targets d r) : d.cmdline = r := by
  rcases (h.running r hrunning).2 with heq | hcmdline
  · exact heq
  · exact hcmdline.unique htarget

theorem Recoverable.confirm (h : Recoverable d) {r : Slot} (hrunning : d.running = some r)
    (htarget : Targets d r) : Recoverable (d.confirm r) := by
  have hcmdline : (d.confirm r).cmdline = r :=
    (d.setSlot_cmdline r _).trans (h.cmdline_eq hrunning htarget)
  have hsecured : Secured (d.confirm r) r := Or.inl (confirmed_confirm (Or.inr rfl))
  refine ⟨⟨.of_no_pending rfl, by rwa [hcmdline]⟩, fun s hs => ?_⟩
  have hrun : (d.confirm r).running = d.running := d.setSlot_running r _
  rw [hrun, hrunning] at hs
  cases Option.some.inj hs
  exact ⟨hsecured, Or.inl hcmdline⟩

theorem readEnvValue_setAttempts {text : Bytes} {n : Int} {key : Bytes}
    (hkey : equals ∉ key) (hne : key ≠ bytes "ATTEMPTS_LEFT") :
    readEnvValue (setEnvKv (some text) (bytes "ATTEMPTS_LEFT") (toDecimal n)) key =
      readEnvValue text key :=
  readEnvValue_setEnvKv_of_ne (by decide) (by decide) (newline_not_mem_toDecimal n) hkey hne

theorem Targets.setAttempts {s : Slot} (h : Targets d s) (n : Int) :
    Targets (d.setAttempts (toDecimal n)) s := by
  obtain ⟨text, htext, hs⟩ := h
  refine ⟨_, rfl, ?_⟩
  rw [htext, readEnvValue_setAttempts (by decide) (by decide)]
  exact hs

theorem Secured.setAttempts {s : Slot} (h : Secured d s) (n : Int) :
    Secured (d.setAttempts (toDecimal n)) s :=
  h.imp id fun htarget => htarget.setAttempts n

theorem Recoverable.setAttempts (h : Recoverable d) {text : Bytes}
    (htext : d.pending = some text) (n : Int) : Recoverable (d.setAttempts (toDecimal n)) := by
  refine ⟨⟨?_, h.cmdline.setAttempts n⟩, fun r hr => ?_⟩
  · intro text' htext'
    obtain ⟨t, ht, hprevious, hconfirmed⟩ := h.fallsBack text htext
    refine ⟨t, ?_, ?_, hconfirmed⟩
    · rw [← Option.some.inj htext', htext, readEnvValue_setAttempts (by decide) (by decide)]
      exact ht
    · rw [← Option.some.inj htext', htext, readEnvValue_setAttempts (by decide) (by decide)]
      exact hprevious
  · obtain ⟨hsecured, hcmdline⟩ := h.running r hr
    exact ⟨hsecured.setAttempts n, hcmdline.imp id fun htarget => htarget.setAttempts n⟩

/-! ## 3. Installing -/

/-- The device while an install from a confirmed slot writes the other one. -/
structure Spare (d : Device) (current : Slot) : Prop where
  running : d.running = some current
  confirmed : (d.slot current).confirmed = true
  notOnTrial : ¬ Targets d current
  recoverable : Recoverable d

/-- The slot that is written is on trial at most, so its bytes are not gone back to. -/
theorem Spare.setSlot {current : Slot} (h : Spare d current) (p : Partition) :
    Spare (d.setSlot current.other p) current := by
  have hslot : (d.setSlot current.other p).slot current = d.slot current :=
    d.slot_setSlot_of_ne (Slot.other_ne current).symm p
  have hpending := d.setSlot_pending current.other p
  have hcurrent : ((d.setSlot current.other p).slot current).confirmed = true := by
    rw [hslot]
    exact h.confirmed
  have hcmdline : d.cmdline = current ∨ Targets d d.cmdline :=
    (h.recoverable.running current h.running).2
  refine ⟨?_, hcurrent, fun htarget => h.notOnTrial ((targets_setSlot _ _).mp htarget), ⟨⟨?_, ?_⟩, ?_⟩⟩
  · rw [Device.setSlot_running]
    exact h.running
  · intro text htext
    rw [hpending] at htext
    obtain ⟨t, ht, hprevious, _⟩ := h.recoverable.fallsBack text htext
    -- the slot on trial is the one that is written
    have htother : t.other = current := by
      rcases Slot.eq_or_eq_other current t with rfl | rfl
      · exact absurd ⟨text, htext, ht⟩ h.notOnTrial
      · exact Slot.other_other current
    exact ⟨t, ht, hprevious, by rw [htother]; exact hcurrent⟩
  · rw [Device.setSlot_cmdline]
    rcases hcmdline with heq | htarget
    · rw [heq]
      exact Or.inl hcurrent
    · exact Or.inr ((targets_setSlot _ _).mpr htarget)
  · intro r hr
    rw [Device.setSlot_running, h.running] at hr
    cases Option.some.inj hr
    rw [Device.setSlot_cmdline]
    exact ⟨Or.inl hcurrent, hcmdline.imp id (targets_setSlot _ _).mpr⟩

/-- The device once the other slot is on trial. -/
structure Staged (d : Device) (current : Slot) : Prop where
  running : d.running = some current
  confirmed : (d.slot current).confirmed = true
  targets : Targets d current.other
  recoverable : Recoverable d

theorem Spare.writePending {current : Slot} (h : Spare d current) {text : Bytes}
    (htarget : readEnvValue text (bytes "TARGET_SLOT") = current.other.name)
    (hprevious : readEnvValue text (bytes "PREVIOUS_SLOT") = current.name) :
    Staged (d.writePending text) current := by
  have htargets : Targets (d.writePending text) current.other := ⟨text, rfl, htarget⟩
  have hcmdline : d.cmdline = current ∨ Targets (d.writePending text) d.cmdline := by
    rcases Slot.eq_or_eq_other current d.cmdline with heq | heq
    · exact Or.inl heq
    · rw [heq]
      exact Or.inr htargets
  refine ⟨h.running, h.confirmed, htargets, ⟨⟨?_, ?_⟩, ?_⟩⟩
  · intro text' htext'
    rw [← Option.some.inj htext']
    exact ⟨current.other, htarget, by rwa [Slot.other_other], by
      rw [Slot.other_other]; exact h.confirmed⟩
  · exact hcmdline.elim (fun heq => Or.inl (by rw [← heq] at h; exact h.confirmed)) Or.inr
  · intro r hr
    cases Option.some.inj (h.running.symm.trans hr)
    exact ⟨Or.inl h.confirmed, hcmdline⟩

theorem Staged.setNextRoot {current : Slot} (h : Staged d current) :
    Recoverable (d.setNextRoot current.other) := by
  refine ⟨⟨h.recoverable.fallsBack, Or.inr h.targets⟩, fun r hr => ?_⟩
  exact ⟨(h.recoverable.running r hr).1, Or.inr h.targets⟩

theorem recoverable_statusFree : StatusFree Recoverable := fun _ key value h => h.setStatus key value

theorem staged_statusFree (current : Slot) : StatusFree fun d => Staged d current :=
  fun _ key value h => ⟨h.running, h.confirmed, h.targets, h.recoverable.setStatus key value⟩

variable {args : InstallArgs} {now : Timestamp}

theorem Spare.stage {current : Slot} (h : Spare d current)
    (hversion : ∀ line ∈ laterLines args.version,
      envLine (bytes "TARGET_SLOT") line = none ∧ envLine (bytes "PREVIOUS_SLOT") line = none)
    (size : Nat) :
    Safe Recoverable Recoverable (stage sha256sum maxAttempts args now current size) d := by
  refine safe_stage (S := fun d => Staged d current) recoverable_statusFree
    (staged_statusFree current) (fun _ h => h.recoverable) h.recoverable (fun hdigest => ?_)
    fun d h => ⟨h.setNextRoot, h.setNextRoot.toRooted.reboot⟩
  have hsha256 : newline ∉ args.sha256 := by
    rw [← hdigest]
    exact newline_not_mem_digest _ _
  have hmarked := h.setSlot { d.slot current.other with
    provenance := (d.slot current.other).provenance.check size args.sha256 }
  refine ⟨hmarked.recoverable, hmarked.writePending ?_ ?_⟩
  · exact readEnvValue_pendingText_target hsha256 fun line hline => (hversion line hline).1
  · exact readEnvValue_pendingText_previous hsha256 fun line hline => (hversion line hline).2

/-- An install from a slot that is not on trial may be cut off anywhere. -/
theorem Recoverable.otaInstall (h : Recoverable d)
    (hone : args.proceeds sha256sum →
      (∀ r, d.running = some r → ¬ Targets d r) ∧
        ∀ line ∈ laterLines args.version,
          envLine (bytes "TARGET_SLOT") line = none ∧
            envLine (bytes "PREVIOUS_SLOT") line = none) :
    Safe Recoverable Recoverable (otaInstall sha256sum maxAttempts args now) d := by
  apply safe_otaInstall recoverable_statusFree h
  intro hproceeds current hrunning
  obtain ⟨hfree, hversion⟩ := hone hproceeds
  have hspare : Spare d current :=
    ⟨hrunning, (h.running current hrunning).1.resolve_right (hfree current hrunning),
      hfree current hrunning, h⟩
  exact safe_dd (S := fun _ d => Spare d current) [] _ (fun _ _ _ _ h => h.setSlot _)
    (fun _ _ h => h.recoverable) (fun _ _ h => h.recoverable)
    (fun _ h => h.stage hversion args.size) hspare

/-! ## 4. Confirming and going back -/

theorem Recoverable.otaConfirm (h : Recoverable d) :
    Safe Recoverable Recoverable (otaConfirm now) d :=
  safe_otaConfirm recoverable_statusFree h fun _ text hrunning hpending htarget =>
    (h.setStatus _ _).confirm hrunning ⟨text, hpending, htarget⟩

theorem Recoverable.otaGuard (h : Recoverable d) :
    Safe Rooted Recoverable (otaGuard maxAttempts now) d := by
  -- from the new `cmdline.txt` on, what is booted is confirmed
  apply safe_otaGuard (S := fun d => FallsBack d ∧ (d.slot d.cmdline).confirmed = true)
  · intro d key value h
    exact h.setStatus key value
  · exact recoverable_statusFree
  · intro d key value h
    exact h
  · intro d h
    exact h.toRooted
  · intro d h
    exact ⟨h.1, Or.inl h.2⟩
  · intro d h
    exact ⟨.of_no_pending rfl, h.2⟩
  · intro d h
    exact h.reboot
  · exact h
  · intro current text left hacts _ target hname status
    rw [h.fallsBack.eq_other hacts.pending hacts.target, Slot.ofName_name,
      Option.some.injEq] at hname
    subst hname
    exact ⟨h.fallsBack, h.fallsBack.other ⟨text, hacts.pending, hacts.target⟩⟩
  · intro current text left value hacts _ _
    exact h.setAttempts hacts.pending ((value : Int) - 1)

theorem powerCut_of_safe {script : Script Device} (h : Safe Rooted Recoverable script d) (n : Nat) :
    Recoverable (powerCut (script.cut n d)) := by
  have := h n
  simp only [Ota.powerCut]
  split at this
  · next hend => rw [if_pos hend]; exact this
  · next hend => rw [if_neg hend]; exact this.powerOff

/-! ## 5. Runs -/

theorem Recoverable.step {d' : Device} {e : Event} (h : Recoverable d)
    (hone : OneTrial sha256sum d e) (hstep : step sha256sum maxAttempts d e = some d') :
    Recoverable d' := by
  cases e with
  | install args now n =>
    rw [← Option.some.inj hstep]
    rcases Nat.eq_zero_or_pos n with rfl | hn
    · rw [cut_zero]
      exact h
    · exact (h.otaInstall (hone hn)).cut n
  | confirm now n =>
    rw [← Option.some.inj hstep]
    exact h.otaConfirm.cut n
  | guard now n =>
    rw [← Option.some.inj hstep]
    exact powerCut_of_safe h.otaGuard n
  | s99 healthy now n =>
    rw [← Option.some.inj hstep]
    have hs99 : Safe Recoverable Recoverable (s99otaconfirm healthy now) d :=
      safe_s99otaconfirm h h.otaConfirm healthy
    exact powerCut_of_safe (hs99.mono (fun _ h => h.toRooted) fun _ h => h) n
  | reboot =>
    rw [← Option.some.inj hstep]
    exact h.toRooted.reboot

variable (sha256sum maxAttempts) (d₀ : Device)

/-- From a device running a confirmed image, in every run without an install from a slot on
trial, there is a confirmed image to go back to at every moment. -/
theorem rolls_back_to_confirmed (hpending : d₀.pending = none)
    (hrunning : d₀.running = some d₀.cmdline)
    (hconfirmed : (d₀.slot d₀.cmdline).confirmed = true) (d : Device)
    (run : Runs.Reaches (step sha256sum maxAttempts) (OneTrial sha256sum) d₀ d) :
    CanGoBack d := by
  have hstart : Recoverable d₀ := by
    refine ⟨⟨.of_no_pending hpending, Or.inl hconfirmed⟩, fun r hr => ?_⟩
    cases Option.some.inj (hrunning.symm.trans hr)
    exact ⟨Or.inl hconfirmed, Or.inl rfl⟩
  have h : Recoverable d := run.invariant hstart fun _ _ _ h ok next => h.step ok next
  constructor
  · intro text htext
    obtain ⟨t, _, hprevious, hother⟩ := h.fallsBack text htext
    exact ⟨t.other, hprevious, hother⟩
  · intro r hr hnot
    rcases (h.running r hr).1 with hyes | htarget
    · rw [hnot] at hyes
      cases hyes
    · exact h.fallsBack.other htarget

theorem rolls_back_to_confirmed_sample :
    ∃ d : Device, d.running = some .B ∧ d.pending.isSome = true ∧
      (d.slot .B).confirmed = false ∧ CanGoBack d := by
  have run : ∃ d : Device, d.running = some .B ∧ d.pending.isSome = true ∧
      (d.slot .B).confirmed = false ∧
      Runs.Reaches (step sampleSha256sum 3) (OneTrial sampleSha256sum) sampleDevice d := by
    refine ⟨_, ?_, ?_, ?_, .head (a := .install (sampleInstall imageX digestX) sampleTime 20) ?_ rfl
      (.head (a := .reboot) trivial rfl (.head (a := .guard sampleTime 20) trivial rfl .refl))⟩
    · decide +kernel
    · decide +kernel
    · decide +kernel
    · intro _ _
      refine ⟨fun r _ htarget => ?_, by decide⟩
      obtain ⟨_, hnone, _⟩ := htarget
      cases hnone
  obtain ⟨d, hrunning, hpending, htrial, hreaches⟩ := run
  exact ⟨d, hrunning, hpending, htrial,
    rolls_back_to_confirmed sampleSha256sum 3 sampleDevice rfl rfl rfl d hreaches⟩

/-- An update that boots and is not yet confirmed, then a second install that is killed after its
first byte: the only confirmed image is gone. -/
theorem overwrites_confirmed_slot :
    sampleDevice.pending = none ∧ sampleDevice.running = some sampleDevice.cmdline ∧
      (sampleDevice.slot sampleDevice.cmdline).confirmed = true ∧
      ∃ d, Runs.Reaches (step sampleSha256sum 3) (fun _ _ => True) sampleDevice d ∧
        d.pending.isSome = true ∧ d.running = some .B ∧
        d.a.confirmed = false ∧ d.b.confirmed = false ∧ ¬ CanGoBack d := by
  refine ⟨rfl, rfl, rfl, _, Runs.reaches_of_exec [
    .install (sampleInstall imageX digestX) sampleTime 20, .reboot, .guard sampleTime 20,
    .install (sampleInstall imageY digestY) sampleTime 1] (fun _ _ _ => trivial) rfl, ?_⟩
  have hlost : ∀ d : Device, d.running = some .B → d.a.confirmed = false →
      d.b.confirmed = false → ¬ CanGoBack d := by
    intro d hrunning ha hb h
    have hother : d.a.confirmed = true := h.beside .B hrunning hb
    rw [ha] at hother
    cases hother
  refine ⟨?_, ?_, ?_, ?_, hlost _ ?_ ?_ ?_⟩ <;> decide +kernel

end VirtualChime.Ota
