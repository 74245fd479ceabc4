import VirtualChime.Bytes

/-!
# Replacing a file through a temporary file

`AtomicWriteFile` of `config_store.cpp`, with every system call it makes allowed
to fail.  What the calls do is an input (`WriteOutcome`); the result is what the
function returns and what the target holds afterwards.
-/

namespace VirtualChime

/-- One call of `write`: some bytes are taken, `EINTR`, or another error. -/
inductive WriteResult where
  | written (n : Nat)
  | interrupted
  | failed (message : Bytes)
deriving DecidableEq, Repr

/-- The outcome of each system call of one `AtomicWriteFile`: `none` is success, `some message`
a failure with the text of `strerror(errno)`.  Calls of `write` beyond the list take all that is
left. -/
structure WriteOutcome where
  create_directories : Option Bytes := none
  mkstemp : Option Bytes := none
  fchmod : Option Bytes := none
  writes : List WriteResult := []
  fsync : Option Bytes := none
  close : Option Bytes := none
  rename : Option Bytes := none
deriving DecidableEq, Repr

/-- `std::filesystem::path::parent_path` of a file path. -/
def parentPath (path : Bytes) : Bytes :=
  let directory := path.rdropWhile (· != slash)
  let stripped := directory.rdropWhile (· == slash)
  if stripped.isEmpty ∧ ¬ directory.isEmpty then [slash] else stripped

/-- The write loop: `temp` is what the temporary file holds, its length the loop's `offset`. -/
def writeLoop (content : Bytes) : List WriteResult → Bytes → Except Bytes Bytes
  | [], temp => .ok (temp ++ content.drop temp.length)
  | call :: calls, temp =>
      if temp.length < content.length then
        match call with
        | .interrupted => writeLoop content calls temp
        | .failed message => .error (bytes "write failed: " ++ message)
        | .written n => writeLoop content calls (temp ++ (content.drop temp.length).take n)
      else .ok temp

/-- A system call that ends the function with a message if it fails. -/
def orFail (outcome : Option Bytes) (describe : Bytes → Bytes) : Except Bytes Unit :=
  match outcome with
  | none => .ok ()
  | some message => .error (describe message)

/-- The calls of `AtomicWriteFile` in order, ending with what `rename` moves to the target. -/
def writeAndRename (path content : Bytes) (calls : WriteOutcome) : Except Bytes Bytes := do
  orFail calls.create_directories fun message =>
    bytes "failed to create directory '" ++ parentPath path ++ bytes "': " ++ message
  orFail calls.mkstemp fun message => bytes "mkstemp failed for '" ++ path ++ bytes "': " ++ message
  orFail calls.fchmod fun message => bytes "fchmod failed for temp file: " ++ message
  let temp ← writeLoop content calls.writes []
  orFail calls.fsync fun message => bytes "fsync failed: " ++ message
  orFail calls.close fun message => bytes "close failed: " ++ message
  orFail calls.rename fun message => bytes "rename failed for '" ++ path ++ bytes "': " ++ message
  return temp

/-- `AtomicWriteFile`: the error if it returns false, and what the target holds afterwards. -/
def atomicWriteFile (path content : Bytes) (calls : WriteOutcome) (target : Option Bytes) :
    Except Bytes Unit × Option Bytes :=
  match writeAndRename path content calls with
  | .error message => (.error message, target)
  | .ok temp => (.ok (), some temp)

/-- The loop ends with an error or with the whole content in the temporary file, whatever the
sizes of the single writes. -/
theorem writeLoop_ok {content : Bytes} (calls : List WriteResult) {temp result : Bytes}
    (hbegun : temp <+: content) (h : writeLoop content calls temp = .ok result) :
    result = content := by
  induction calls generalizing temp with
  | nil =>
    obtain ⟨rest, rfl⟩ := hbegun
    simpa [writeLoop, eq_comm] using h
  | cons call calls ih =>
    simp only [writeLoop] at h
    by_cases hlt : temp.length < content.length
    · rw [if_pos hlt] at h
      cases call with
      | interrupted => exact ih hbegun h
      | failed message => cases h
      | written n =>
        refine ih ?_ h
        obtain ⟨rest, rfl⟩ := hbegun
        rw [List.drop_left]
        exact (List.prefix_append_right_inj _).mpr (List.take_prefix n rest)
    · rw [if_neg hlt, Except.ok.injEq] at h
      rw [← h]
      exact hbegun.eq_of_length_le (by omega)

theorem writeAndRename_ok {path content temp : Bytes} {calls : WriteOutcome}
    (h : writeAndRename path content calls = .ok temp) : temp = content := by
  simp only [writeAndRename] at h
  have hbind : ∀ {β : Type} {x : Except Bytes β} {f : β → Except Bytes Bytes},
      (x >>= f) = .ok temp → ∃ b, x = .ok b ∧ f b = .ok temp := by
    intro β x f hx
    cases x with
    | error m => cases hx
    | ok b => exact ⟨b, rfl, hx⟩
  obtain ⟨-, -, h⟩ := hbind h
  obtain ⟨-, -, h⟩ := hbind h
  obtain ⟨-, -, h⟩ := hbind h
  obtain ⟨result, hloop, h⟩ := hbind h
  obtain ⟨-, -, h⟩ := hbind h
  obtain ⟨-, -, h⟩ := hbind h
  obtain ⟨-, -, h⟩ := hbind h
  rw [← writeLoop_ok _ List.nil_prefix hloop]
  exact (Except.ok.inj h).symm

/-- The target holds exactly the new content if the call succeeds and is untouched if not. -/
theorem atomicWriteFile_cases (path content : Bytes) (calls : WriteOutcome)
    (target : Option Bytes) :
    (∃ message, atomicWriteFile path content calls target = (.error message, target)) ∨
      atomicWriteFile path content calls target = (.ok (), some content) := by
  simp only [atomicWriteFile]
  rcases h : writeAndRename path content calls with message | temp
  · exact Or.inl ⟨message, rfl⟩
  · rw [writeAndRename_ok h]
    exact Or.inr rfl

/-- No system call fails; single writes may be short or interrupted. -/
structure WriteOutcome.Succeeds (calls : WriteOutcome) : Prop where
  create_directories : calls.create_directories = none
  mkstemp : calls.mkstemp = none
  fchmod : calls.fchmod = none
  writes : ∀ message, WriteResult.failed message ∉ calls.writes
  fsync : calls.fsync = none
  close : calls.close = none
  rename : calls.rename = none

theorem succeeds_default : ({} : WriteOutcome).Succeeds :=
  ⟨rfl, rfl, rfl, fun _ => List.not_mem_nil, rfl, rfl, rfl⟩

theorem writeLoop_of_succeeds {content : Bytes} {calls : List WriteResult}
    (h : ∀ message, WriteResult.failed message ∉ calls) (temp : Bytes) :
    ∃ result, writeLoop content calls temp = .ok result := by
  induction calls generalizing temp with
  | nil => exact ⟨_, rfl⟩
  | cons call calls ih =>
    have hrest : ∀ message, WriteResult.failed message ∉ calls := fun message hmem =>
      h message (List.mem_cons_of_mem _ hmem)
    simp only [writeLoop]
    split
    · cases call with
      | interrupted => exact ih hrest temp
      | failed message => exact absurd (List.mem_cons_self ..) (h message)
      | written n => exact ih hrest _
    · exact ⟨temp, rfl⟩

theorem atomicWriteFile_of_succeeds (path content : Bytes) {calls : WriteOutcome}
    (h : calls.Succeeds) (target : Option Bytes) :
    atomicWriteFile path content calls target = (.ok (), some content) := by
  obtain ⟨temp, hloop⟩ := @writeLoop_of_succeeds content calls.writes h.writes []
  have hwhole : writeAndRename path content calls = .ok temp := by
    rw [writeAndRename, h.create_directories, h.mkstemp, h.fchmod, h.fsync, h.close, h.rename, hloop]
    rfl
  rw [atomicWriteFile, hwhole, ← writeAndRename_ok hwhole]

end VirtualChime
