import VirtualChime.OtaScripts

/-!
# What the update scripts can do

One rule for each script: which commands have to keep a property for the script to
keep it wherever it is cut off.  Writing `status.env` keeps every property here.
-/

namespace VirtualChime.Ota

open Interruptible (Script)
open Interruptible.Script

/-- The property does not depend on `status.env`. -/
def StatusFree (I : Device → Prop) : Prop := ∀ d key value, I d → I (d.setStatus key value)

section Rules

variable {I Q S : Device → Prop} {d : Device}

theorem safe_setStatus {key value : Bytes} {rest : Script Device} (h : I d)
    (hrest : Safe I Q rest (d.setStatus key value)) : Safe I Q (setStatus key value rest) d :=
  safe_run h hrest

/-! ## 1. Installing -/

/-- `S written` holds once `dd` has written some bytes: each byte that fits adds to them, and `dd`
fails where one does not. -/
theorem safe_dd {target : Slot} {rest : Script Device} {S : Bytes → Device → Prop}
    (written content : Bytes)
    (hbyte : ∀ d written byte, written.length < (d.slot target).content.length → S written d →
      S (written ++ [byte]) (d.writeByte target written.length byte))
    (hcut : ∀ d written, S written d → I d) (hend : ∀ d written, S written d → Q d)
    (hrest : ∀ d, S (written ++ content) d → Safe I Q rest d) (h : S written d) :
    Safe I Q (dd target content written.length rest) d := by
  induction content generalizing d written with
  | nil =>
    rw [List.append_nil] at hrest
    exact hrest d h
  | cons byte content ih =>
    apply safe_ask
    split
    · next hfits =>
      have hnext := ih (written ++ [byte]) (by simpa using hrest) (hbyte d written byte hfits h)
      rw [List.length_append] at hnext
      exact safe_run (hcut d written h) hnext
    · exact safe_done (hend d written h)

variable {sha256sum : Bytes → Bytes} {maxAttempts : Nat} {args : InstallArgs} {now : Timestamp}

/-- The end of an install: `S` holds from the new `pending.env` on. -/
theorem safe_stage (hI : StatusFree I) (hS : StatusFree S) (hSI : ∀ d, S d → I d) (h : I d)
    {current : Slot} {size : Nat}
    (hchecked : digest sha256sum ((d.slot current.other).content.take size) = args.sha256 →
      I (d.markChecked current.other size args.sha256) ∧
      S ((d.markChecked current.other size args.sha256).writePending
        (pendingText current.other current args.version args.sha256 now maxAttempts)))
    (hroot : ∀ d, S d → I (d.setNextRoot current.other) ∧ I (d.setNextRoot current.other).reboot) :
    Safe I I (stage sha256sum maxAttempts args now current size) d := by
  apply safe_ask
  split
  · exact safe_setStatus h (safe_setStatus (hI _ _ _ h) (safe_done (hI _ _ _ (hI _ _ _ h))))
  · next hdigest =>
    rw [ne_eq, not_not] at hdigest
    obtain ⟨hmark, hpending⟩ := hchecked hdigest
    refine safe_run h (safe_run hmark ?_)
    have h1 := hS _ (bytes "LAST_RESULT") (bytes "install_staged") hpending
    have h2 := hS _ (bytes "CURRENT_SLOT") current.name h1
    have h3 := hS _ (bytes "LAST_FW_VERSION") args.version h2
    refine safe_setStatus (hSI _ hpending) (safe_setStatus (hSI _ h1) (safe_setStatus (hSI _ h2)
      (safe_run (hSI _ h3) ?_)))
    split
    · exact safe_done (hroot _ h3).1
    · exact safe_run (hroot _ h3).1 (safe_done (hroot _ h3).2)

/-- An install that does not get as far as `dd` writes `status.env` at most. -/
theorem safe_otaInstall (hI : StatusFree I) (h : I d)
    (hdd : args.proceeds sha256sum → ∀ current, d.running = some current →
      Safe I I (dd current.other args.image.content 0
        (stage sha256sum maxAttempts args now current args.size)) d) :
    Safe I I (otaInstall sha256sum maxAttempts args now) d := by
  apply safe_ask
  cases hrunning : d.running with
  | none => exact safe_done h
  | some current =>
    dsimp only
    split
    · exact safe_done h
    · next hargs =>
      rw [not_or] at hargs
      split
      · exact safe_done h
      · next content himage =>
        split
        · exact safe_done h
        · next hsize =>
          rw [not_or, not_not] at hsize
          have hproceeds : args.proceeds sha256sum := by
            refine ⟨hargs.1, hargs.2, ?_⟩
            rw [himage]
            exact hsize
          have := hdd hproceeds current hrunning
          rwa [himage] at this
      · next content himage =>
        split
        · exact safe_setStatus h (safe_setStatus (hI _ _ _ h)
            (safe_done (hI _ _ _ (hI _ _ _ h))))
        · next hdigest =>
          rw [ne_eq, not_not] at hdigest
          have hproceeds : args.proceeds sha256sum := by
            refine ⟨hargs.1, hargs.2, ?_⟩
            rw [himage]
            exact hdigest
          have := hdd hproceeds current hrunning
          rwa [himage] at this

/-! ## 2. Confirming -/

theorem safe_otaConfirm (hI : StatusFree I) (h : I d)
    (hconfirm : ∀ current text, d.running = some current → d.pending = some text →
      readEnvValue text (bytes "TARGET_SLOT") = current.name →
      I ((d.setStatus (bytes "CURRENT_SLOT") current.name).confirm current)) :
    Safe I I (otaConfirm now) d := by
  apply safe_ask
  cases hrunning : d.running with
  | none => exact safe_done h
  | some current =>
    dsimp only
    have h1 := hI _ (bytes "CURRENT_SLOT") current.name h
    apply safe_setStatus h
    cases hpending : d.pending with
    | none => exact safe_setStatus h1 (safe_done (hI _ _ _ h1))
    | some text =>
      dsimp only
      split
      · exact safe_setStatus h1 (safe_setStatus (hI _ _ _ h1)
          (safe_done (hI _ _ _ (hI _ _ _ h1))))
      · split
        · exact safe_setStatus h1 (safe_setStatus (hI _ _ _ h1)
            (safe_done (hI _ _ _ (hI _ _ _ h1))))
        · next htarget =>
          rw [ne_eq, not_not] at htarget
          have h2 := hconfirm current text hrunning hpending htarget.symm
          have h3 := hI _ (bytes "LAST_RESULT") (bytes "confirmed") h2
          have h4 := hI _ (bytes "LAST_GOOD_SLOT") current.name h3
          have h5 := hI _ (bytes "LAST_FW_VERSION") (readEnvValue text (bytes "FW_VERSION")) h4
          exact safe_run h1 (safe_setStatus h2 (safe_setStatus h3 (safe_setStatus h4
            (safe_setStatus h5 (safe_done (hI _ _ _ h5))))))

theorem safe_s99otaconfirm (h : Q d) (hconfirm : Safe I Q (otaConfirm now) d) (healthy : Bool) :
    Safe I Q (s99otaconfirm healthy now) d := by
  apply safe_ask
  split
  · exact hconfirm
  · exact safe_done h

/-! ## 3. Going back -/

/-- A rollback: `S` holds from the new `cmdline.txt` on. -/
theorem safe_otaRollback (hS : StatusFree S) (hSI : ∀ d, S d → I d)
    (hremove : ∀ d, S d → S d.removePending) (h : I d) {name : Bytes}
    (hroot : ∀ target, Slot.ofName name = some target → S (d.setNextRoot target)) :
    Safe I I (otaRollback (some name) true now) d := by
  apply safe_ask
  cases hrunning : d.running with
  | none => exact safe_done h
  | some current =>
    dsimp only
    rw [if_neg (by simp)]
    cases hname : Slot.ofName name with
    | none => exact safe_done h
    | some target =>
      dsimp only
      have h1 := hroot target hname
      have h2 := hremove _ h1
      have h3 := hS _ (bytes "LAST_RESULT") (bytes "rollback_requested") h2
      have h4 := hS _ (bytes "CURRENT_SLOT") current.name h3
      have h5 := hS _ (bytes "LAST_GOOD_SLOT") target.name h4
      have h6 := hS _ (bytes "ROLLBACK_TIME_UTC") now.text h5
      exact safe_run h (safe_run (hSI _ h1) (safe_setStatus (hSI _ h2) (safe_setStatus (hSI _ h3)
        (safe_setStatus (hSI _ h4) (safe_setStatus (hSI _ h5) (safe_done (hSI _ h6)))))))

/-- `S42otaguard` finds the running slot on trial, with a number of attempts left. -/
structure GuardActs (maxAttempts : Nat) (d : Device) (current : Slot) (text : Bytes)
    (left : Int) : Prop where
  running : d.running = some current
  pending : d.pending = some text
  target : readEnvValue text (bytes "TARGET_SLOT") = current.name
  attempts : shellNumber (attemptsLeft maxAttempts text) = some left

/-- `S42otaguard` leaves the device alone, goes back and reboots, or counts an attempt.  `I` is
what holds if the power fails, `Q` what holds at its end. -/
theorem safe_otaGuard (hI : StatusFree I) (hQ : StatusFree Q) (hS : StatusFree S)
    (hQI : ∀ d, Q d → I d) (hSI : ∀ d, S d → I d) (hremove : ∀ d, S d → S d.removePending)
    (hreboot : ∀ d, I d → Q d.reboot) (h : Q d)
    (hroot : ∀ current text left, GuardActs maxAttempts d current text left → left ≤ 1 →
      ∀ target, Slot.ofName (readEnvValue text (bytes "PREVIOUS_SLOT")) = some target →
      ∀ status, S (Device.setNextRoot target { d with status := status }))
    (hcount : ∀ current text left value, GuardActs maxAttempts d current text left → 1 < left →
      arithmeticValue (splitSign (attemptsLeft maxAttempts text)).2 = some value →
      Q (d.setAttempts (toDecimal ((value : Int) - 1)))) :
    Safe I Q (otaGuard maxAttempts now) d := by
  apply safe_ask
  split
  · next current text hrunning hpending =>
    dsimp only
    split
    · exact safe_done h
    · next htarget =>
      rw [ne_eq, not_not] at htarget
      split
      · exact safe_done h
      · next left hleft =>
        have hacts : GuardActs maxAttempts d current text left :=
          ⟨hrunning, hpending, htarget.symm, hleft⟩
        split
        · next hused =>
          -- the attempts are used up
          have h1 := hI _ (bytes "LAST_RESULT") (bytes "rollback_auto") (hQI _ h)
          have h2 := hI _ (bytes "LAST_ERROR")
            (bytes "attempts_exhausted_slot_" ++ readEnvValue text (bytes "TARGET_SLOT")) h1
          refine safe_setStatus (hQI _ h) (safe_setStatus h1 (safe_seq ?_))
          refine (safe_otaRollback hS hSI hremove h2 fun target hname =>
            hroot current text left hacts hused target hname _).mono (fun _ h => h) fun t ht => ?_
          exact safe_run ht (safe_done (hreboot t ht))
        · next hmore =>
          split
          · exact safe_done h
          · next value hvalue =>
            have h1 := hcount current text left value hacts (not_le.mp hmore) hvalue
            have h2 := hQ _ (bytes "LAST_RESULT") (bytes "boot_unconfirmed") h1
            exact safe_run (hQI _ h) (safe_setStatus (hQI _ h1) (safe_setStatus (hQI _ h2)
              (safe_done (hQ _ _ _ h2))))
  · exact safe_done h

end Rules

end VirtualChime.Ota
