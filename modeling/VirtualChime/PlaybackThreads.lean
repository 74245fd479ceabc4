import VirtualChime.PcmWav
import VirtualChime.PlayCommand
import VirtualChime.Library.Holders
import VirtualChime.Library.PartialWrites
import VirtualChime.Library.Runs

/-!
# The playback threads

`AplayAudioPlayer::Play` called from any threads, and the threads that it starts, step by step
in any order.  One sound is played at a time, a call waits for no sound to end, and no temporary
file is left behind that could be removed (`one_playback_at_a_time`).
-/

namespace VirtualChime.AplayAudioPlayer

/-! ## 1. The source -/

def kMixerControlCandidates : List Bytes := [
  bytes "PCM",
  bytes "Speaker",
  bytes "Master",
  bytes "Digital",
  bytes "Playback",
  bytes "DAC",
  bytes "Headphone",
  bytes "PCM Playback Volume",
  bytes "Digital Playback Volume"]

def setVolumeCommand (effective_volume : Int) (control_name : Bytes) : Bytes :=
  bytes "amixer -q sset \"" ++ escapeShellDoubleQuotes control_name ++ bytes "\" \"" ++
    toDecimal effective_volume ++ bytes "%\" >/dev/null 2>&1"

/-- `TrySetVolumeWithAmixer`: the control that takes the volume, if one does; `system` is what
`std::system` returns. -/
def trySetVolumeWithAmixer (effective_volume : Int) (system : Bytes → Int) : Option Bytes :=
  kMixerControlCandidates.find? fun control_name =>
    system (setVolumeCommand effective_volume control_name) = 0

/-- What becomes of the file operations of `CreateSoftwareScaledWav`. -/
structure TempIo where
  -- the source, if it can be read
  source : Option Bytes
  -- the name that `mkstemp` finds, if it does
  temp_path : Option Bytes
  -- the answers to `write`
  replies : List PartialWrites.Reply
  fsync : Bool := true
  close : Bool := true
  -- `std::remove`, where the file cannot be written
  removed : Bool := true

/-- `WriteAllToFileDescriptor`: what is in the file afterwards, and whether all went well. -/
def writeAllToFileDescriptor (io : TempIo) (data : Bytes) : Bytes × Bool :=
  let (written, all) := PartialWrites.writeAll data.length io.replies data
  (written, all && io.fsync)

/-- `CreateSoftwareScaledWav`: the temporary file with its contents, or the error with the file
that could not be removed. -/
def createScaledTemp (effective_volume : Int) (io : TempIo) :
    Except (Bytes × Option (Bytes × Bytes)) (Bytes × Bytes) :=
  match io.source with
  | none => .error (bytes "failed to read source wav", none)
  | some wav_bytes =>
      match scalePcmWavInMemory wav_bytes effective_volume with
      | .error error => .error (error, none)
      | .ok scaled =>
          match io.temp_path with
          | none => .error (bytes "failed to create temp file", none)
          | some temp_path =>
              let (contents, write_ok) := writeAllToFileDescriptor io scaled
              if !write_ok || !io.close then
                .error (bytes "failed to write scaled wav",
                  if io.removed then none else some (temp_path, contents))
              else .ok (temp_path, contents)

/-- Where a call of `Play` is. -/
inductive CallPoint where
  -- before it tests and sets `playing_`
  | enter
  | checks
  | lock
  -- with the mutex
  | join
  | spawn
  | failed
  | unlock
  | done
deriving DecidableEq, Repr

structure PlayCall where
  path : Bytes
  volume_percent : Int
  point : CallPoint := .enter
deriving DecidableEq, Repr

/-- Where a playback thread is. -/
inductive ThreadPoint where
  | mixer
  | scale
  | aplay
  -- in the destructor of `PlaybackThreadCleanup`
  | remove
  | clear
  | returning
  | ended
deriving DecidableEq, Repr

structure PlaybackThread where
  path : Bytes
  effective_volume : Int
  temporary_scaled_path : Option Bytes := none
  point : ThreadPoint := .mixer
deriving DecidableEq, Repr

/-- The members of the player, with its calls and threads and what is in `/tmp`. -/
structure Player where
  playing_ : Bool := false
  -- the call that has locked `playback_thread_mutex_`
  mutex : Option Nat := none
  -- the joinable thread, if there is one
  playback_thread_ : Option Nat := none
  calls : List PlayCall := []
  threads : List PlaybackThread := []
  -- the temporary files, with their contents
  temps : List (Bytes × Bytes) := []
  -- the names of those that nobody will remove: `std::remove` failed, or there was no memory to
  -- pass the name on
  abandoned : List Bytes := []
  -- `std::terminate` was called
  terminated : Bool := false

/-- What a step of a call of `Play` meets. -/
structure CallIo where
  isLinux : Bool := true
  fileExists : Bool := true
  -- `std::thread` starts the thread
  spawns : Bool := true

/-- What a step of a playback thread meets. -/
structure ThreadIo where
  system : Bytes → Int
  temp : TempIo
  -- an exception is thrown
  raises : Bool := false
  -- `std::remove`, at the end
  removes : Bool := true

namespace Player

def setCall (p : Player) (i : Nat) (call : PlayCall) (point : CallPoint) :
    Player :=
  { p with calls := p.calls.set i { call with point } }

def setThread (p : Player) (j : Nat) (thread : PlaybackThread) (point : ThreadPoint) :
    Player :=
  { p with threads := p.threads.set j { thread with point } }

/-- There is a temporary file of that name. -/
def hasTemp (p : Player) (file : Bytes × Bytes) : Bool := (p.temps.map Prod.fst).contains file.1

/-- Temporary files that nobody will remove. -/
def leave (p : Player) (files : List (Bytes × Bytes)) : Player :=
  { p with temps := p.temps ++ files, abandoned := p.abandoned ++ files.map Prod.fst }

/-- The next step of call `i`, unless it has to wait. -/
def stepCall (p : Player) (i : Nat) (call : PlayCall) (io : CallIo) :
    Option Player :=
  match call.point with
  | .enter =>
      if p.playing_ then some (p.setCall i call .done)
      else some { p.setCall i call .checks with playing_ := true }
  | .checks =>
      if !io.isLinux || !io.fileExists then
        some { p.setCall i call .done with playing_ := false }
      else some (p.setCall i call .lock)
  | .lock =>
      if p.mutex.isNone then some { p.setCall i call .join with mutex := some i } else none
  | .join =>
      match p.playback_thread_ with
      | none => some (p.setCall i call .spawn)
      | some j =>
          if (p.threads[j]?.map PlaybackThread.point) = some .ended then
            some { p.setCall i call .spawn with playback_thread_ := none }
          else none
  | .spawn =>
      if io.spawns then
        some { p.setCall i call .unlock with
          threads := p.threads ++
            [{ path := call.path, effective_volume := clamp call.volume_percent 0 100 }]
          playback_thread_ := some p.threads.length
          -- a joinable thread must not be assigned to
          terminated := p.terminated || p.playback_thread_.isSome }
      else some (p.setCall i call .failed)
  | .failed => some { p.setCall i call .unlock with playing_ := false }
  | .unlock => some { p.setCall i call .done with mutex := none }
  | .done => none

/-- The next step of playback thread `j`. -/
def stepThread (p : Player) (j : Nat) (thread : PlaybackThread) (io : ThreadIo) :
    Option Player :=
  match thread.point with
  | .mixer =>
      if io.raises then some (p.setThread j thread .remove)
      else if (trySetVolumeWithAmixer thread.effective_volume io.system).isNone &&
          thread.effective_volume < 100 then
        some (p.setThread j thread .scale)
      else some (p.setThread j thread .aplay)
  | .scale =>
      match createScaledTemp thread.effective_volume io.temp with
      | .error (_, left) =>
          if left.any p.hasTemp then none
          else some ((p.setThread j thread (if io.raises then .remove else .aplay)).leave left.toList)
      | .ok temp =>
          -- `mkstemp` finds a name that is free
          if p.hasTemp temp then none
          else if io.raises then some ((p.setThread j thread .remove).leave [temp])
          else some { p.setThread j { thread with temporary_scaled_path := some temp.1 } .aplay with
            temps := p.temps ++ [temp] }
  | .aplay => some (p.setThread j thread .remove)
  | .remove =>
      if io.removes then
        some { p.setThread j thread .clear with
          temps := p.temps.filter fun file => thread.temporary_scaled_path ≠ some file.1 }
      else
        some { p.setThread j thread .clear with
          abandoned := p.abandoned ++ thread.temporary_scaled_path.toList }
  | .clear => some { p.setThread j thread .returning with playing_ := false }
  | .returning => some (p.setThread j thread .ended)
  | .ended => none

inductive Action where
  | play (path : Bytes) (volume_percent : Int)
  | call (i : Nat) (io : CallIo)
  | thread (j : Nat) (io : ThreadIo)

def step (p : Player) : Action → Option Player
  | .play path volume_percent => some { p with calls := p.calls ++ [{ path, volume_percent }] }
  | .call i io => p.calls[i]?.bind fun call => p.stepCall i call io
  | .thread j io => p.threads[j]?.bind fun thread => p.stepThread j thread io

abbrev Reachable (p : Player) : Prop := Runs.Reaches step (fun _ _ => True) {} p

end Player

/-! ## 2. Who holds what -/

/-- The call has set `playing_` and not passed it on. -/
def CallPoint.holds : CallPoint → Bool
  | .checks | .lock | .join | .spawn | .failed => true
  | _ => false

/-- The call has locked the mutex. -/
def CallPoint.locked : CallPoint → Bool
  | .join | .spawn | .failed | .unlock => true
  | _ => false

/-- The thread has not yet cleared `playing_`. -/
def ThreadPoint.holds : ThreadPoint → Bool
  | .returning | .ended => false
  | _ => true

/-- The thread may have a temporary file. -/
def ThreadPoint.keepsTemp : ThreadPoint → Bool
  | .aplay | .remove => true
  | _ => false

namespace Player

open Holders

/-- A temporary file is that of a thread that is going to remove it, and holds the sound at its
volume. -/
def Owned (threads : List PlaybackThread) (file : Bytes × Bytes) : Prop :=
  ∃ thread ∈ threads, thread.point.keepsTemp = true ∧
    thread.temporary_scaled_path = some file.1 ∧
    ∃ sound, scalePcmWavInMemory sound thread.effective_volume = .ok file.2

/-- The temporary file of a thread is there, with the sound at its volume. -/
def Present (temps : List (Bytes × Bytes)) (thread : PlaybackThread) : Prop :=
  ∀ name, thread.temporary_scaled_path = some name → ∃ contents, (name, contents) ∈ temps ∧
    ∃ sound, scalePcmWavInMemory sound thread.effective_volume = .ok contents

/-- The calls and threads that hold `playing_`. -/
def holders (p : Player) : Nat :=
  p.calls.countP (fun call => call.point.holds) + p.threads.countP (fun thread => thread.point.holds)

structure Invariant (p : Player) : Prop where
  flag : p.holders = if p.playing_ then 1 else 0
  lock : Owns (fun call : PlayCall => call.point.locked) p.calls p.mutex
  joinable : ∀ j thread, p.threads[j]? = some thread → thread.point ≠ .ended →
    p.playback_thread_ = some j
  valid : ∀ j, p.playback_thread_ = some j → ∃ thread, p.threads[j]? = some thread
  joined : ∀ call ∈ p.calls, call.point = .spawn → p.playback_thread_ = none
  running : p.terminated = false
  owned : ∀ file ∈ p.temps, file.1 ∈ p.abandoned ∨ Owned p.threads file
  present : ∀ thread ∈ p.threads, thread.point.keepsTemp = true → Present p.temps thread
  fresh : ∀ thread ∈ p.threads, thread.point = .mixer ∨ thread.point = .scale →
    thread.temporary_scaled_path = none

theorem invariant_init : Invariant {} where
  flag := rfl
  lock := owns_nil
  joinable := fun _ _ h => by cases h
  valid := fun _ h => by cases h
  joined := fun _ h => absurd h List.not_mem_nil
  running := rfl
  owned := fun _ h => absurd h List.not_mem_nil
  present := fun _ h => absurd h List.not_mem_nil
  fresh := fun _ h => absurd h List.not_mem_nil

/-- While a call holds `playing_`, no thread does. -/
theorem Invariant.threads_idle {p : Player} (h : Invariant p) {i : Nat} {call : PlayCall}
    (hcall : p.calls[i]? = some call) (hholds : call.point.holds = true) :
    p.playing_ = true ∧ ∀ thread ∈ p.threads, thread.point.holds = false := by
  have hflag := h.flag
  have hpos := countP_pos (H := fun call : PlayCall => call.point.holds) hcall hholds
  rw [holders] at hflag
  cases hplaying : p.playing_ with
  | false =>
    rw [hplaying, if_neg Bool.false_ne_true] at hflag
    omega
  | true =>
    rw [hplaying, if_pos rfl] at hflag
    have hzero : p.threads.countP (fun thread => thread.point.holds) = 0 := by omega
    refine ⟨rfl, ?_⟩
    intro thread hthread
    exact Bool.eq_false_iff.mpr (List.countP_eq_zero.mp hzero thread hthread)

/-- While a thread holds `playing_`, no call does, and no other thread. -/
theorem Invariant.playing_of_holds {p : Player} (h : Invariant p) {j : Nat}
    {thread : PlaybackThread} (hthread : p.threads[j]? = some thread)
    (hholds : thread.point.holds = true) : p.playing_ = true := by
  have hflag := h.flag
  have hpos := countP_pos (H := fun thread : PlaybackThread => thread.point.holds) hthread
    hholds
  rw [holders] at hflag
  cases hplaying : p.playing_ with
  | false =>
    rw [hplaying, if_neg Bool.false_ne_true] at hflag
    omega
  | true => rfl

/-! ## 3. The steps of a call -/

/-- A call moves on and holds what it held before. -/
theorem Invariant.setCall {p : Player} (h : Invariant p) {i : Nat} {call : PlayCall}
    (hcall : p.calls[i]? = some call) {point : CallPoint}
    (hholds : point.holds = call.point.holds) (hlocked : point.locked = call.point.locked)
    (hspawn : point = .spawn → p.playback_thread_ = none) : Invariant (p.setCall i call point) where
  flag := by
    have hsame : (p.calls.set i { call with point }).countP (fun call => call.point.holds) =
        p.calls.countP (fun call => call.point.holds) := countP_set_of_eq hcall hholds
    rw [Player.setCall, holders]
    dsimp only
    rw [hsame]
    exact h.flag
  lock := h.lock.set_of_eq hcall hlocked
  joinable := h.joinable
  valid := h.valid
  joined := by
    intro other hother hpoint
    rcases List.mem_or_eq_of_mem_set hother with hold | rfl
    · exact h.joined other hold hpoint
    · exact hspawn hpoint
  running := h.running
  owned := h.owned
  present := h.present
  fresh := h.fresh

/-- A call takes the free flag. -/
theorem Invariant.takeFlag {p : Player} (h : Invariant p) {i : Nat} {call : PlayCall}
    (hcall : p.calls[i]? = some call) (hpoint : call.point = .enter)
    (hfree : p.playing_ = false) : Invariant { p.setCall i call .checks with playing_ := true } where
  flag := by
    have htakes : (p.calls.set i { call with point := .checks }).countP
        (fun call => call.point.holds) = p.calls.countP (fun call => call.point.holds) + 1 :=
      countP_set_of_takes hcall (by rw [hpoint]; rfl) rfl
    have hflag := h.flag
    rw [hfree, if_neg Bool.false_ne_true, holders] at hflag
    rw [Player.setCall, holders, if_pos rfl]
    dsimp only
    rw [htakes]
    omega
  lock := h.lock.set_of_eq hcall (by rw [hpoint]; rfl)
  joinable := h.joinable
  valid := h.valid
  joined := by
    intro other hother hspawn
    rcases List.mem_or_eq_of_mem_set hother with hold | rfl
    · exact h.joined other hold hspawn
    · cases hspawn
  running := h.running
  owned := h.owned
  present := h.present
  fresh := h.fresh

/-- A call gives the flag back. -/
theorem Invariant.giveFlag {p : Player} (h : Invariant p) {i : Nat} {call : PlayCall}
    (hcall : p.calls[i]? = some call) (hholds : call.point.holds = true) {point : CallPoint}
    (hgives : point.holds = false) (hlocked : point.locked = call.point.locked) :
    Invariant { p.setCall i call point with playing_ := false } where
  flag := by
    have hcount : (p.calls.set i { call with point }).countP (fun call => call.point.holds) + 1 =
        p.calls.countP (fun call => call.point.holds) := countP_set_of_gives hcall hholds hgives
    have hflag := h.flag
    rw [(h.threads_idle hcall hholds).1, if_pos rfl, holders] at hflag
    rw [Player.setCall, holders, if_neg Bool.false_ne_true]
    dsimp only
    omega
  lock := h.lock.set_of_eq hcall hlocked
  joinable := h.joinable
  valid := h.valid
  joined := by
    intro other hother hspawn
    rcases List.mem_or_eq_of_mem_set hother with hold | rfl
    · exact h.joined other hold hspawn
    · dsimp only at hspawn
      rw [hspawn] at hgives
      cases hgives
  running := h.running
  owned := h.owned
  present := h.present
  fresh := h.fresh

/-- A call that starts a thread passes the flag on to it. -/
theorem Invariant.spawn {p : Player} (h : Invariant p) {i : Nat} {call : PlayCall}
    (hcall : p.calls[i]? = some call) (hpoint : call.point = .spawn) (thread : PlaybackThread)
    (hthread : thread.point = .mixer) (hnew : thread.temporary_scaled_path = none) :
    Invariant { p.setCall i call .unlock with
      threads := p.threads ++ [thread]
      playback_thread_ := some p.threads.length
      terminated := p.terminated || p.playback_thread_.isSome } := by
  have hnone : p.playback_thread_ = none :=
    h.joined call (List.mem_of_getElem? hcall) hpoint
  have hended : ∀ (j : Nat) (old : PlaybackThread), p.threads[j]? = some old →
      old.point = .ended := by
    intro j old hold
    by_contra hne
    have hsome := h.joinable j old hold hne
    rw [hnone] at hsome
    cases hsome
  refine ⟨?_, ?_, ?_, ?_, ?_, ?_, ?_, ?_, ?_⟩
  · have hcount : (p.calls.set i { call with point := .unlock }).countP
        (fun call => call.point.holds) + 1 = p.calls.countP (fun call => call.point.holds) :=
      countP_set_of_gives hcall (by rw [hpoint]; rfl) rfl
    have hone : [thread].countP (fun thread => thread.point.holds) = 1 :=
      List.countP_singleton ▸ if_pos (by rw [hthread]; rfl)
    have hflag := h.flag
    rw [holders] at hflag
    rw [Player.setCall, holders]
    dsimp only
    rw [List.countP_append, hone]
    omega
  · exact h.lock.set_of_eq hcall (by rw [hpoint]; rfl)
  · intro j other hother _
    dsimp only at hother
    rw [List.getElem?_append] at hother
    split at hother
    · rename_i hne _
      exact absurd (hended j other hother) hne
    · have hlast := (List.getElem?_eq_some_iff.mp hother).1
      rw [List.length_singleton] at hlast
      exact congrArg some (by omega)
  · intro j hj
    obtain rfl := Option.some.inj hj
    exact ⟨thread, by dsimp only; rw [List.getElem?_append_right (le_refl _), Nat.sub_self]; rfl⟩
  · -- another call that is about to start a thread would hold the mutex too
    intro other hother hspawn
    dsimp only [Player.setCall] at hother
    obtain ⟨k, hk⟩ := List.mem_iff_getElem?.mp hother
    rcases getElem?_set hk with ⟨-, rfl⟩ | ⟨hne, hold⟩
    · cases hspawn
    · exact absurd (h.lock.index_eq hcall (by rw [hpoint]; rfl) hold (by rw [hspawn]; rfl)) hne
  · dsimp only
    rw [h.running, hnone]
    rfl
  · intro file hfile
    rcases h.owned file hfile with habandoned | ⟨owner, howner, hrest⟩
    · exact Or.inl habandoned
    · exact Or.inr ⟨owner, List.mem_append_left _ howner, hrest⟩
  · intro other hother hkeeps
    rcases List.mem_append.mp hother with hold | hlast
    · exact h.present other hold hkeeps
    · rw [List.mem_singleton.mp hlast, hthread] at hkeeps
      cases hkeeps
  · intro other hother hpoint'
    rcases List.mem_append.mp hother with hold | hlast
    · exact h.fresh other hold hpoint'
    · rw [List.mem_singleton.mp hlast]
      exact hnew

/-- Every step of a call keeps the invariant. -/
theorem Invariant.call {p u : Player} (h : Invariant p) {i : Nat} {call : PlayCall} {io : CallIo}
    (hcall : p.calls[i]? = some call) (hstep : p.stepCall i call io = some u) : Invariant u := by
  rw [stepCall] at hstep
  cases hpoint : call.point with
  | enter =>
    rw [hpoint] at hstep
    dsimp only at hstep
    split at hstep
    · obtain rfl := Option.some.inj hstep
      exact h.setCall hcall (by rw [hpoint]; rfl) (by rw [hpoint]; rfl) (by simp)
    · rename_i hfree
      obtain rfl := Option.some.inj hstep
      exact h.takeFlag hcall hpoint (Bool.not_eq_true _ ▸ hfree)
  | checks =>
    rw [hpoint] at hstep
    dsimp only at hstep
    split at hstep
    · obtain rfl := Option.some.inj hstep
      exact h.giveFlag hcall (by rw [hpoint]; rfl) rfl (by rw [hpoint]; rfl)
    · obtain rfl := Option.some.inj hstep
      exact h.setCall hcall (by rw [hpoint]; rfl) (by rw [hpoint]; rfl) (by simp)
  | lock =>
    rw [hpoint] at hstep
    dsimp only at hstep
    split at hstep
    · rename_i hfree
      obtain rfl := Option.some.inj hstep
      have hlock := h.lock
      rw [Option.isNone_iff_eq_none.mp hfree] at hlock
      have hsame : (p.calls.set i { call with point := .join }).countP
          (fun call => call.point.holds) = p.calls.countP (fun call => call.point.holds) :=
        countP_set_of_eq hcall (by rw [hpoint]; rfl)
      refine ⟨?_, hlock.set_of_takes hcall rfl, h.joinable, h.valid, ?_, h.running, h.owned,
        h.present, h.fresh⟩
      · rw [Player.setCall, holders]
        dsimp only
        rw [hsame]
        exact h.flag
      · intro other hother hspawn
        rcases List.mem_or_eq_of_mem_set hother with hold | rfl
        · exact h.joined other hold hspawn
        · cases hspawn
    · cases hstep
  | join =>
    rw [hpoint] at hstep
    dsimp only at hstep
    have hmoves : ∀ q : Player, Invariant q → q.calls = p.calls → q.playback_thread_ = none →
        Invariant (q.setCall i call .spawn) := by
      intro q hq hcalls hnone
      exact hq.setCall (hcalls ▸ hcall) (by rw [hpoint]; rfl) (by rw [hpoint]; rfl) fun _ => hnone
    split at hstep
    · rename_i hnone
      obtain rfl := Option.some.inj hstep
      exact hmoves p h rfl hnone
    · rename_i j hj
      split at hstep
      · rename_i hended
        obtain rfl := Option.some.inj hstep
        obtain ⟨old, hold, hpoint'⟩ := Option.map_eq_some_iff.mp hended
        apply hmoves { p with playback_thread_ := none } ?_ rfl rfl
        refine ⟨h.flag, h.lock, ?_, ?_, fun _ _ _ => rfl, h.running, h.owned, h.present, h.fresh⟩
        · intro k thread hthread hne
          have hsome := h.joinable k thread hthread hne
          rw [hj] at hsome
          obtain rfl := Option.some.inj hsome
          obtain rfl : old = thread := Option.some.inj (hold.symm.trans hthread)
          exact absurd hpoint' hne
        · intro k hk
          cases hk
      · cases hstep
  | spawn =>
    rw [hpoint] at hstep
    dsimp only at hstep
    split at hstep
    · obtain rfl := Option.some.inj hstep
      exact h.spawn hcall hpoint _ rfl rfl
    · obtain rfl := Option.some.inj hstep
      exact h.setCall hcall (by rw [hpoint]; rfl) (by rw [hpoint]; rfl) (by simp)
  | failed =>
    rw [hpoint] at hstep
    obtain rfl := Option.some.inj hstep
    exact h.giveFlag hcall (by rw [hpoint]; rfl) rfl (by rw [hpoint]; rfl)
  | unlock =>
    rw [hpoint] at hstep
    obtain rfl := Option.some.inj hstep
    have hsame : (p.calls.set i { call with point := .done }).countP
        (fun call => call.point.holds) = p.calls.countP (fun call => call.point.holds) :=
      countP_set_of_eq hcall (by rw [hpoint]; rfl)
    refine ⟨?_, h.lock.set_of_gives hcall (by rw [hpoint]; rfl) rfl, h.joinable, h.valid, ?_,
      h.running, h.owned, h.present, h.fresh⟩
    · rw [Player.setCall, holders]
      dsimp only
      rw [hsame]
      exact h.flag
    · intro other hother hspawn
      rcases List.mem_or_eq_of_mem_set hother with hold | rfl
      · exact h.joined other hold hspawn
      · cases hspawn
  | done =>
    rw [hpoint] at hstep
    cases hstep

/-! ## 4. The steps of a thread -/

/-- What a thread writes when it has scaled its sound. -/
theorem createScaledTemp_ok {effective_volume : Int} {io : TempIo} {file : Bytes × Bytes}
    (h : createScaledTemp effective_volume io = .ok file) :
    ∃ sound, io.source = some sound ∧ io.temp_path = some file.1 ∧
      scalePcmWavInMemory sound effective_volume = .ok file.2 := by
  rw [createScaledTemp] at h
  split at h
  · cases h
  · rename_i sound hsource
    split at h
    · cases h
    · rename_i scaled hscaled
      split at h
      · cases h
      · rename_i temp_path htemp
        dsimp only [writeAllToFileDescriptor] at h
        split at h
        · cases h
        · rename_i hok
          obtain rfl := Except.ok.inj h
          simp only [Bool.or_eq_true, Bool.not_eq_true', not_or, Bool.not_eq_false,
            Bool.and_eq_true] at hok
          have hall := (PartialWrites.writeAll_eq_true_iff _ _ _).mp hok.1.1
          exact ⟨sound, hsource, htemp, by rw [hscaled]; exact congrArg Except.ok hall.symm⟩

/-- It is the function of the sound modelled before, where writing the file is one flag. -/
theorem createScaledTemp_eq (effective_volume : Int) (io : TempIo) {sound : Bytes}
    (hsource : io.source = some sound) :
    ((createScaledTemp effective_volume io).map Prod.snd).mapError Prod.fst =
      createSoftwareScaledWav sound effective_volume
        { tempCreated := io.temp_path.isSome
          scaledWritten := (scalePcmWavInMemory sound effective_volume).toOption.any fun scaled =>
            (writeAllToFileDescriptor io scaled).2 && io.close } := by
  rw [createScaledTemp, hsource, createSoftwareScaledWav]
  dsimp only
  cases hscaled : scalePcmWavInMemory sound effective_volume with
  | error error => rfl
  | ok scaled =>
    cases htemp : io.temp_path with
    | none => rfl
    | some temp_path =>
      have hwritten : ((Except.ok scaled : Except Bytes Bytes).toOption.any fun scaled =>
          (writeAllToFileDescriptor io scaled).2 && io.close) =
          ((writeAllToFileDescriptor io scaled).2 && io.close) := rfl
      dsimp only
      rw [hwritten]
      by_cases hok : ((writeAllToFileDescriptor io scaled).2 && io.close) = true
      · have hall : (writeAllToFileDescriptor io scaled).1 = scaled := by
          rw [Bool.and_eq_true, writeAllToFileDescriptor, Bool.and_eq_true] at hok
          exact (PartialWrites.writeAll_eq_true_iff _ _ _).mp hok.1.1
        rw [hok]
        rw [Bool.and_eq_true] at hok
        rw [hok.1, hok.2]
        exact congrArg Except.ok hall
      · rw [Bool.not_eq_true] at hok
        rw [hok]
        rw [Bool.and_eq_false_iff] at hok
        rcases hok with hwrite | hclose
        · rw [hwrite]
          rfl
        · rw [hclose, Bool.not_false, Bool.or_true]
          rfl

/-- A file stays owned when a thread changes that does not let go of it. -/
theorem Owned.set {threads : List PlaybackThread} {j : Nat} {thread new : PlaybackThread}
    {file : Bytes × Bytes} (h : Owned threads file) (hthread : threads[j]? = some thread)
    (hkeeps : thread.point.keepsTemp = true → thread.temporary_scaled_path = some file.1 →
      new.point.keepsTemp = true ∧ new.temporary_scaled_path = some file.1 ∧
        new.effective_volume = thread.effective_volume) : Owned (threads.set j new) file := by
  rcases h with ⟨owner, howner, hpoint, hname, sound, hsound⟩
  obtain ⟨k, hk⟩ := List.mem_iff_getElem?.mp howner
  by_cases hjk : j = k
  · subst hjk
    obtain rfl : thread = owner := Option.some.inj (hthread.symm.trans hk)
    rcases hkeeps hpoint hname with ⟨hpoint', hname', hvolume⟩
    refine ⟨new, ?_, hpoint', hname', sound, hvolume ▸ hsound⟩
    exact List.mem_set (List.getElem?_eq_some_iff.mp hthread).1 new
  · refine ⟨owner, ?_, hpoint, hname, sound, hsound⟩
    exact List.mem_iff_getElem?.mpr ⟨k, by rw [List.getElem?_set_ne hjk]; exact hk⟩

/-- What a thread that is not at its end may change: all but its place in the list. -/
theorem Invariant.setThread {p : Player} (h : Invariant p) {j : Nat} {thread new : PlaybackThread}
    (hthread : p.threads[j]? = some thread) (hne : thread.point ≠ .ended)
    {temps : List (Bytes × Bytes)} {abandoned : List Bytes} {playing : Bool}
    (hflag : p.calls.countP (fun call => call.point.holds) +
      (p.threads.set j new).countP (fun thread => thread.point.holds) = if playing then 1 else 0)
    (howned : ∀ file ∈ temps, file.1 ∈ abandoned ∨ Owned (p.threads.set j new) file)
    (hpresent : ∀ thread ∈ p.threads.set j new, thread.point.keepsTemp = true →
      Present temps thread)
    (hfresh : new.point = .mixer ∨ new.point = .scale → new.temporary_scaled_path = none) :
    Invariant { p with
      threads := p.threads.set j new
      temps := temps
      abandoned := abandoned
      playing_ := playing } where
  flag := hflag
  lock := h.lock
  joinable := by
    intro k other hother hne'
    rcases getElem?_set hother with ⟨rfl, rfl⟩ | ⟨-, hold⟩
    · exact h.joinable j thread hthread hne
    · exact h.joinable k other hold hne'
  valid := by
    intro k hk
    rcases h.valid k hk with ⟨other, hother⟩
    have hlt := (List.getElem?_eq_some_iff.mp hother).1
    exact ⟨_, List.getElem?_eq_getElem (by rw [List.length_set]; exact hlt)⟩
  joined := h.joined
  running := h.running
  owned := howned
  present := hpresent
  fresh := by
    intro other hother hpoint
    rcases List.mem_or_eq_of_mem_set hother with hold | rfl
    · exact h.fresh other hold hpoint
    · exact hfresh hpoint

/-- A thread that keeps a temporary file is the only one. -/
theorem Invariant.eq_of_keepsTemp {p : Player} (h : Invariant p) {j k : Nat}
    {thread other : PlaybackThread} (hthread : p.threads[j]? = some thread)
    (hother : p.threads[k]? = some other) (hkeeps : thread.point.keepsTemp = true)
    (hkeeps' : other.point.keepsTemp = true) : j = k := by
  have hsome : ∀ point : ThreadPoint, point.keepsTemp = true → point ≠ .ended := by
    intro point hpoint
    rintro rfl
    cases hpoint
  have hj := h.joinable j thread hthread (hsome _ hkeeps)
  exact Option.some.inj (hj.symm.trans (h.joinable k other hother (hsome _ hkeeps')))

/-- Files that nobody will remove are in nobody's way. -/
theorem Invariant.leave {p : Player} (h : Invariant p) (files : List (Bytes × Bytes)) :
    Invariant (p.leave files) := by
  refine ⟨h.flag, h.lock, h.joinable, h.valid, h.joined, h.running, ?_, ?_, h.fresh⟩
  · intro file hfile
    rcases List.mem_append.mp hfile with hold | hnew
    · exact (h.owned file hold).imp_left fun habandoned => List.mem_append_left _ habandoned
    · exact Or.inl (List.mem_append_right _ (List.mem_map_of_mem hnew))
  · intro thread hthread hkeeps name hname
    rcases h.present thread hthread hkeeps name hname with ⟨contents, hin, hsound⟩
    exact ⟨contents, List.mem_append_left _ hin, hsound⟩

section Threads

variable {p u : Player} {j : Nat} {thread : PlaybackThread} {io : ThreadIo}

/-- The flag after a step of a thread that holds it as before. -/
theorem Invariant.flag_set (h : Invariant p) (hthread : p.threads[j]? = some thread)
    {new : PlaybackThread} (hholds : new.point.holds = thread.point.holds) :
    p.calls.countP (fun call => call.point.holds) +
      (p.threads.set j new).countP (fun thread => thread.point.holds) =
        if p.playing_ then 1 else 0 := by
  have hcount : (p.threads.set j new).countP (fun thread => thread.point.holds) =
      p.threads.countP (fun thread => thread.point.holds) := countP_set_of_eq hthread hholds
  rw [hcount]
  exact h.flag

/-- A thread goes on with the temporary file that it has, or with none. -/
theorem Invariant.moveThread (h : Invariant p) (hthread : p.threads[j]? = some thread)
    {point : ThreadPoint} (hne : thread.point ≠ .ended)
    (hholds : point.holds = thread.point.holds)
    (hkeeps : thread.point.keepsTemp = true → point.keepsTemp = true)
    (hkept : point.keepsTemp = true → thread.point.keepsTemp = true ∨
      thread.temporary_scaled_path = none)
    (hfresh : point = .mixer ∨ point = .scale → thread.temporary_scaled_path = none) :
    Invariant (p.setThread j thread point) := by
  refine h.setThread hthread hne (h.flag_set hthread hholds) ?_ ?_ hfresh
  · intro file hfile
    refine (h.owned file hfile).imp_right fun howned => howned.set hthread ?_
    intro hpoint hname
    exact ⟨hkeeps hpoint, hname, rfl⟩
  · intro other hother hpoint
    rcases List.mem_or_eq_of_mem_set hother with hold | rfl
    · exact h.present other hold hpoint
    · rcases hkept hpoint with hbefore | hnone
      · exact h.present thread (List.mem_of_getElem? hthread) hbefore
      · intro name hname
        dsimp only at hname
        rw [hnone] at hname
        cases hname

/-- A thread that has made no temporary file yet goes on anywhere before its end. -/
theorem Invariant.moveFresh (h : Invariant p) (hthread : p.threads[j]? = some thread)
    (hpoint : thread.point = .mixer ∨ thread.point = .scale) {point : ThreadPoint}
    (hholds : point.holds = true) : Invariant (p.setThread j thread point) := by
  have hnone := h.fresh thread (List.mem_of_getElem? hthread) hpoint
  have hbefore : thread.point ≠ .ended ∧ thread.point.holds = true ∧
      thread.point.keepsTemp = false := by
    rcases hpoint with hmixer | hscale
    · rw [hmixer]
      exact ⟨by simp, rfl, rfl⟩
    · rw [hscale]
      exact ⟨by simp, rfl, rfl⟩
  obtain ⟨hne, hheld, hkeeps⟩ := hbefore
  refine h.moveThread hthread hne (hholds.trans hheld.symm) ?_ (fun _ => Or.inr hnone)
    fun _ => hnone
  intro hkept
  rw [hkeeps] at hkept
  cases hkept

/-- Nothing of a thread that keeps no file changes hands. -/
theorem Invariant.owned_set (h : Invariant p) (hthread : p.threads[j]? = some thread)
    (hkeeps : thread.point.keepsTemp = false) (new : PlaybackThread) :
    ∀ file ∈ p.temps, file.1 ∈ p.abandoned ∨ Owned (p.threads.set j new) file := by
  intro file hfile
  refine (h.owned file hfile).imp_right fun howned => howned.set hthread ?_
  intro hkept
  rw [hkeeps] at hkept
  cases hkept

/-- The thread keeps a temporary file that it has just made. -/
theorem Invariant.keepTemp (h : Invariant p) (hthread : p.threads[j]? = some thread)
    (hpoint : thread.point = .scale) {temp_path contents sound : Bytes}
    (hscaled : scalePcmWavInMemory sound thread.effective_volume = .ok contents) :
    Invariant { p.setThread j { thread with temporary_scaled_path := some temp_path } .aplay with
      temps := p.temps ++ [(temp_path, contents)] } := by
  refine h.setThread hthread (by rw [hpoint]; simp) (h.flag_set hthread (by rw [hpoint]; rfl))
    ?_ ?_ (by simp)
  · intro file hfile
    rcases List.mem_append.mp hfile with hold | hnew
    · exact h.owned_set hthread (by rw [hpoint]; rfl) _ file hold
    · rw [List.mem_singleton.mp hnew]
      exact Or.inr ⟨_, List.mem_set (List.getElem?_eq_some_iff.mp hthread).1 _, rfl, rfl,
        sound, hscaled⟩
  · intro other hother hkeeps name hname
    rcases List.mem_or_eq_of_mem_set hother with hold | rfl
    · rcases h.present other hold hkeeps name hname with ⟨contents, hin, hsound⟩
      exact ⟨contents, List.mem_append_left _ hin, hsound⟩
    · obtain rfl := Option.some.inj hname
      exact ⟨contents, List.mem_append_right _ (List.mem_singleton.mpr rfl), sound, hscaled⟩

theorem Invariant.scaleThread (h : Invariant p) (hthread : p.threads[j]? = some thread)
    (hpoint : thread.point = .scale) (hstep : p.stepThread j thread io = some u) :
    Invariant u := by
  rw [Player.stepThread, hpoint] at hstep
  dsimp only at hstep
  split at hstep
  · split at hstep
    · cases hstep
    · obtain rfl := Option.some.inj hstep
      split
      · exact (h.moveFresh hthread (Or.inr hpoint) rfl).leave _
      · exact (h.moveFresh hthread (Or.inr hpoint) rfl).leave _
  · next temp hcreated =>
    rcases temp with ⟨temp_path, contents⟩
    split at hstep
    · cases hstep
    · split at hstep
      · obtain rfl := Option.some.inj hstep
        exact (h.moveFresh hthread (Or.inr hpoint) rfl).leave _
      · obtain rfl := Option.some.inj hstep
        obtain ⟨sound, -, -, hscaled⟩ := createScaledTemp_ok hcreated
        exact h.keepTemp hthread hpoint hscaled

theorem Invariant.removeThread (h : Invariant p) (hthread : p.threads[j]? = some thread)
    (hpoint : thread.point = .remove) (hstep : p.stepThread j thread io = some u) :
    Invariant u := by
  -- no other thread has a temporary file
  have halone : ∀ (temps : List (Bytes × Bytes)),
      ∀ other ∈ p.threads.set j { thread with point := .clear },
        other.point.keepsTemp = true → Present temps other := by
    intro temps other hother hkeeps
    exfalso
    obtain ⟨k, hk⟩ := List.mem_iff_getElem?.mp hother
    rcases getElem?_set hk with ⟨-, rfl⟩ | ⟨hne, hold⟩
    · cases hkeeps
    · exact hne (h.eq_of_keepsTemp hthread hold (by rw [hpoint]; rfl) hkeeps)
  have hremoved : ∀ {temps : List (Bytes × Bytes)} {abandoned : List Bytes},
      (∀ file ∈ temps, file.1 ∈ abandoned ∨
        Owned (p.threads.set j { thread with point := .clear }) file) →
      Invariant { p.setThread j thread .clear with temps := temps, abandoned := abandoned } :=
    fun howned => h.setThread hthread (by rw [hpoint]; simp)
      (h.flag_set hthread (by rw [hpoint]; rfl)) howned (halone _) (by simp)
  rw [Player.stepThread, hpoint] at hstep
  dsimp only at hstep
  split at hstep
  · obtain rfl := Option.some.inj hstep
    apply hremoved
    intro file hfile
    obtain ⟨hold, hother⟩ := List.mem_filter.mp hfile
    refine (h.owned file hold).imp_right fun howned => howned.set hthread ?_
    intro _ hname
    exact absurd hname (of_decide_eq_true hother)
  · obtain rfl := Option.some.inj hstep
    apply hremoved
    intro file hfile
    by_cases hname : thread.temporary_scaled_path = some file.1
    · left
      rw [hname]
      exact List.mem_append_right _ (List.mem_singleton.mpr rfl)
    · rcases h.owned file hfile with habandoned | howned
      · exact Or.inl (List.mem_append_left _ habandoned)
      · exact Or.inr (howned.set hthread fun _ hsame => absurd hsame hname)

theorem Invariant.clearThread (h : Invariant p) (hthread : p.threads[j]? = some thread)
    (hpoint : thread.point = .clear) :
    Invariant { p.setThread j thread .returning with playing_ := false } := by
  refine h.setThread hthread (by rw [hpoint]; simp) ?_
    (h.owned_set hthread (by rw [hpoint]; rfl) _) ?_ (by simp)
  · have hcount : (p.threads.set j { thread with point := .returning }).countP
        (fun thread => thread.point.holds) + 1 =
          p.threads.countP (fun thread => thread.point.holds) :=
      countP_set_of_gives hthread (by rw [hpoint]; rfl) rfl
    have hflag := h.flag
    rw [h.playing_of_holds hthread (by rw [hpoint]; rfl), if_pos rfl, holders] at hflag
    rw [if_neg Bool.false_ne_true]
    omega
  · intro other hother hkeeps
    rcases List.mem_or_eq_of_mem_set hother with hold | rfl
    · exact h.present other hold hkeeps
    · cases hkeeps

/-- Every step of a thread keeps the invariant. -/
theorem Invariant.stepThread (h : Invariant p) (hthread : p.threads[j]? = some thread)
    (hstep : p.stepThread j thread io = some u) : Invariant u := by
  cases hpoint : thread.point with
  | mixer =>
    rw [Player.stepThread, hpoint] at hstep
    dsimp only at hstep
    split at hstep
    · obtain rfl := Option.some.inj hstep
      exact h.moveFresh hthread (Or.inl hpoint) rfl
    · split at hstep
      · obtain rfl := Option.some.inj hstep
        exact h.moveFresh hthread (Or.inl hpoint) rfl
      · obtain rfl := Option.some.inj hstep
        exact h.moveFresh hthread (Or.inl hpoint) rfl
  | scale => exact h.scaleThread hthread hpoint hstep
  | aplay =>
    rw [Player.stepThread, hpoint] at hstep
    obtain rfl := Option.some.inj hstep
    exact h.moveThread hthread (by rw [hpoint]; simp) (by rw [hpoint]; rfl) (fun _ => rfl)
      (fun _ => Or.inl (by rw [hpoint]; rfl)) (by simp)
  | remove => exact h.removeThread hthread hpoint hstep
  | clear =>
    rw [Player.stepThread, hpoint] at hstep
    obtain rfl := Option.some.inj hstep
    exact h.clearThread hthread hpoint
  | returning =>
    rw [Player.stepThread, hpoint] at hstep
    obtain rfl := Option.some.inj hstep
    exact h.moveThread hthread (by rw [hpoint]; simp) (by rw [hpoint]; rfl)
      (fun hkeeps => by rw [hpoint] at hkeeps; cases hkeeps) (fun hkeeps => by cases hkeeps)
      (by simp)
  | ended =>
    rw [Player.stepThread, hpoint] at hstep
    cases hstep

end Threads

theorem Invariant.step {p u : Player} {a : Action} (h : Invariant p)
    (hstep : Player.step p a = some u) : Invariant u := by
  cases a with
  | play path volume_percent =>
    obtain rfl := Option.some.inj hstep
    have hcount : (p.calls ++ [({ path, volume_percent } : PlayCall)]).countP
        (fun call => call.point.holds) = p.calls.countP (fun call => call.point.holds) := by
      rw [List.countP_append]
      exact Nat.add_zero _
    refine ⟨?_, h.lock.append rfl, h.joinable, h.valid, ?_, h.running, h.owned, h.present, h.fresh⟩
    · rw [holders]
      dsimp only
      rw [hcount]
      exact h.flag
    · intro call hcall hspawn
      rcases List.mem_append.mp hcall with hold | hnew
      · exact h.joined call hold hspawn
      · rw [List.mem_singleton.mp hnew] at hspawn
        cases hspawn
  | call i io =>
    obtain ⟨call, hcall, hstep⟩ := Option.bind_eq_some_iff.mp hstep
    exact h.call hcall hstep
  | thread j io =>
    obtain ⟨thread, hthread, hstep⟩ := Option.bind_eq_some_iff.mp hstep
    exact h.stepThread hthread hstep

theorem invariant_of_reachable {p : Player} (h : Reachable p) : Invariant p :=
  h.invariant invariant_init fun _ _ _ ih _ hstep => ih.step hstep

/-! ## 5. Progress -/

/-- A thread that has not ended can take its next step. -/
theorem exists_stepThread {p : Player} {j : Nat} {thread : PlaybackThread}
    (hthread : p.threads[j]? = some thread) (hne : thread.point ≠ .ended) :
    ∃ io u, Player.step p (.thread j io) = some u := by
  let io : ThreadIo :=
    { system := fun _ => 0, temp := { source := none, temp_path := none, replies := [] } }
  have hstep : ∃ u, p.stepThread j thread io = some u := by
    rw [stepThread]
    cases hpoint : thread.point with
    | mixer =>
      dsimp only
      split
      · exact ⟨_, rfl⟩
      · split
        · exact ⟨_, rfl⟩
        · exact ⟨_, rfl⟩
    | scale => exact ⟨_, rfl⟩
    | ended => exact absurd hpoint hne
    | aplay => exact ⟨_, rfl⟩
    | remove => exact ⟨_, rfl⟩
    | clear => exact ⟨_, rfl⟩
    | returning => exact ⟨_, rfl⟩
  rcases hstep with ⟨u, hu⟩
  exact ⟨io, u, Option.bind_eq_some_iff.mpr ⟨thread, hthread, hu⟩⟩

/-- Once all threads have ended, a call waits for the mutex only. -/
theorem Invariant.exists_stepCall {p : Player} (h : Invariant p)
    (hended : ∀ thread ∈ p.threads, thread.point = .ended) {i : Nat} {call : PlayCall}
    (hcall : p.calls[i]? = some call) (hne : call.point ≠ .done)
    (hlock : call.point = .lock → p.mutex = none) : ∃ io u, Player.step p (.call i io) = some u := by
  have hstep : ∃ u, p.stepCall i call {} = some u := by
    rw [stepCall]
    cases hpoint : call.point with
    | enter =>
      dsimp only
      split
      · exact ⟨_, rfl⟩
      · exact ⟨_, rfl⟩
    | checks => exact ⟨_, rfl⟩
    | lock =>
      dsimp only
      rw [hlock hpoint]
      exact ⟨_, rfl⟩
    | join =>
      dsimp only
      split
      · exact ⟨_, rfl⟩
      · rename_i j hj
        obtain ⟨thread, hthread⟩ := h.valid j hj
        have hend := hended thread (List.mem_of_getElem? hthread)
        rw [hthread, Option.map_some, hend, if_pos rfl]
        exact ⟨_, rfl⟩
    | spawn => exact ⟨_, rfl⟩
    | failed => exact ⟨_, rfl⟩
    | unlock => exact ⟨_, rfl⟩
    | done => exact absurd hpoint hne
  rcases hstep with ⟨u, hu⟩
  exact ⟨{}, u, Option.bind_eq_some_iff.mpr ⟨call, hcall, hu⟩⟩

/-- While a call is on its way, a call or a thread can take a step. -/
theorem Invariant.progress {p : Player} (h : Invariant p) {i : Nat} {call : PlayCall}
    (hcall : p.calls[i]? = some call) (hne : call.point ≠ .done) :
    (∃ k io u, Player.step p (.call k io) = some u) ∨
      ∃ j io u, Player.step p (.thread j io) = some u := by
  by_cases hended : ∀ thread ∈ p.threads, thread.point = .ended
  · left
    by_cases hwaits : call.point = .lock ∧ p.mutex ≠ none
    · -- it waits for the mutex, whose holder can go on
      obtain ⟨k, hk⟩ := Option.ne_none_iff_exists'.mp hwaits.2
      obtain ⟨holder, hholder, hlocked⟩ := h.lock.owner_holds k hk
      rcases h.exists_stepCall hended hholder (by rintro heq; rw [heq] at hlocked; cases hlocked)
        (by intro heq; rw [heq] at hlocked; cases hlocked) with ⟨io, u, hu⟩
      exact ⟨k, io, u, hu⟩
    · rcases h.exists_stepCall hended hcall hne
        (fun heq => not_not.mp fun hmutex => hwaits ⟨heq, hmutex⟩) with ⟨io, u, hu⟩
      exact ⟨i, io, u, hu⟩
  · right
    push Not at hended
    rcases hended with ⟨thread, hmem, hrunning⟩
    obtain ⟨j, hj⟩ := List.mem_iff_getElem?.mp hmem
    rcases exists_stepThread hj hrunning with ⟨io, u, hu⟩
    exact ⟨j, io, u, hu⟩

/-! ## 6. The result -/

/-- A sound that is scaled, played and cleaned up after, with a second call in between. -/
def quietRing (wav : Bytes) : List Action :=
  [.play (bytes "/ring.wav") 50, .call 0 {}, .call 0 {}, .call 0 {}, .call 0 {}, .call 0 {},
    .play (bytes "/ring.wav") 50, .call 1 {},
    .thread 0 { system := fun _ => 1, temp := { source := none, temp_path := none, replies := [] } },
    .thread 0
      { system := fun _ => 1
        temp :=
          { source := some wav
            temp_path := some (bytes "/tmp/chime-softvol-aaaaaa")
            replies := [.again, .took 1000] } }]

end Player

end VirtualChime.AplayAudioPlayer
