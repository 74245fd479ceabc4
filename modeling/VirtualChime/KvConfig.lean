import VirtualChime.Bytes
import VirtualChime.Library.LastWins

/-!
# The key-value configuration reader

`vc::config::load` over a field table, from `kv_config.h`, with its value setters.
The second half says what the line loop computes: the member behind a key holds
what the last line for that key says that its setter takes (`load_member`), and
the load succeeds exactly when every required key has a line whose value its
setter accepts (`load_success_iff`).
-/

namespace VirtualChime.Config

/-! ### Values -/

/-- `split_csv`: the trimmed pieces between commas, empty ones dropped. -/
def splitCsv (csv : Bytes) : List Bytes :=
  ((csv.splitOn comma).map trim).filter fun cleaned => !cleaned.isEmpty

/-- A list is read as empty when it holds nothing but commas and blanks. -/
theorem splitCsv_ne_nil_iff {csv : Bytes} :
    splitCsv csv ≠ [] ↔ ∃ c ∈ csv, c ≠ comma ∧ isBlank c = false := by
  have hpiece : splitCsv csv ≠ [] ↔ ∃ piece ∈ csv.splitOn comma, ∃ c ∈ piece, isBlank c = false := by
    simp [splitCsv, List.filter_eq_nil_iff, trim_eq_nil_iff]
  rw [hpiece]
  constructor
  · rintro ⟨piece, hmem, c, hc, hb⟩
    obtain ⟨hcsv, hne⟩ := Scanner.exists_mem_splitOn.mp ⟨piece, hmem, hc⟩
    exact ⟨c, hcsv, hne, hb⟩
  · rintro ⟨c, hc, hne, hb⟩
    obtain ⟨piece, hmem, hpc⟩ := Scanner.exists_mem_splitOn.mpr ⟨hc, hne⟩
    exact ⟨piece, hmem, c, hpc, hb⟩

/-- The spellings `parse_bool` and `ParseBool` compare a lowered value with. -/
def boolSpelling (lower : Bytes) : Option Bool :=
  if lower = bytes "true" ∨ lower = bytes "yes" ∨ lower = bytes "1" ∨ lower = bytes "on" then
    some true
  else if lower = bytes "false" ∨ lower = bytes "no" ∨ lower = bytes "0" ∨ lower = bytes "off" then
    some false
  else none

/-- `strtol` with the checks both integer readers make on its result. -/
def intInRange (minVal maxVal : Int) (value : Bytes) : Option Int :=
  let parsed := strtol value
  if parsed.2 ≠ [] ∨ parsed.1 < minVal ∨ maxVal < parsed.1 then none else some parsed.1

theorem intInRange_bounds {lo hi n : Int} {value : Bytes} (h : intInRange lo hi value = some n) :
    lo ≤ n ∧ n ≤ hi := by
  simp only [intInRange] at h
  split at h
  · cases h
  · next hrange =>
    rw [not_or, not_or, not_lt, not_lt] at hrange
    rw [← Option.some.inj h]
    exact hrange.2

/-- A member of a configuration record, read and written. -/
structure Member (T V : Type) where
  get : T → V
  set : V → T → T

/-- One row of a field table. -/
structure ConfigField (T : Type) where
  key : Bytes
  setter : T → Bytes → T × Bool
  required : Bool

section Setters

variable {T : Type}

def parseString (member : Member T Bytes) (target : T) (value : Bytes) : T × Bool :=
  (member.set value target, true)

def parseInt (member : Member T Int) (minVal maxVal : Int) (target : T) (value : Bytes) :
    T × Bool :=
  match intInRange minVal maxVal value with
  | none => (target, false)
  | some parsed => (member.set parsed target, true)

/-- The member is written before the result is tested for being empty. -/
def parseCsv (member : Member T (List Bytes)) (target : T) (value : Bytes) : T × Bool :=
  (member.set (splitCsv value) target, !(splitCsv value).isEmpty)

def parseBool (member : Member T Bool) (target : T) (value : Bytes) : T × Bool :=
  match boolSpelling (value.map toLower) with
  | none => (target, false)
  | some b => (member.set b target, true)

end Setters

/-! ### Lines -/

/-- What one line sets: the trimmed key and value around the first `=` of the trimmed line,
nothing for a blank line, a comment or a line without `=`. -/
def parseLine (line : Bytes) : Option (Bytes × Bytes) :=
  let cleaned := trim line
  if cleaned.isEmpty ∨ cleaned.head? = some hash then none
  else (Scanner.cut equals cleaned).map fun kv => (trim kv.1, trim kv.2)

/-- The key-value pairs a list of lines sets, in order. -/
def entries (lines : List Bytes) : List (Bytes × Bytes) := lines.filterMap parseLine

@[simp] theorem entries_nil : entries [] = [] := rfl

@[simp] theorem entries_append (xs ys : List Bytes) :
    entries (xs ++ ys) = entries xs ++ entries ys := by
  simp [entries]

theorem entries_cons (l : Bytes) (ls : List Bytes) :
    entries (l :: ls) = entries [l] ++ entries ls := by
  rw [← entries_append, List.singleton_append]

theorem entries_flatMap {α : Type} (xs : List α) (f : α → List Bytes) :
    entries (xs.flatMap f) = xs.flatMap fun x => entries (f x) := by
  induction xs with
  | nil => rfl
  | cons x xs ih => rw [List.flatMap_cons, List.flatMap_cons, entries_append, ih]

/-! ### The loader -/

structure LoadResult (T : Type) where
  config : T
  success : Bool
  error : Bytes
deriving DecidableEq

variable {T : Type}

/-- The body of the line loop of `load` for a line that sets `key` to `value`.  The array
`seen` is kept as the list of keys whose flag is set. -/
def applyEntry (fields : List (ConfigField T)) (state : T × List Bytes) (entry : Bytes × Bytes) :
    T × List Bytes :=
  match fields.find? fun field => field.key = entry.1 with
  | none => state
  | some field =>
      let result := field.setter state.1 entry.2
      (result.1, if result.2 then entry.1 :: state.2 else state.2)

/-- The line loop of `load`. -/
def applyLines (fields : List (ConfigField T)) (state : T × List Bytes) (lines : List Bytes) :
    T × List Bytes :=
  (entries lines).foldl (applyEntry fields) state

/-- `vc::config::load`; `file` is `none` where the file cannot be opened. -/
def load (path : Bytes) (file : Option Bytes) (defaults : T) (fields : List (ConfigField T)) :
    LoadResult T :=
  match file with
  | none => ⟨defaults, false, bytes "Failed to open config: " ++ path⟩
  | some text =>
      let loaded := applyLines fields (defaults, []) (getlines text)
      match fields.find? fun field => field.required && !loaded.2.contains field.key with
      | some field => ⟨loaded.1, false, bytes "Missing required config key: " ++ field.key⟩
      | none => ⟨loaded.1, true, []⟩

/-! ### What the loader computes -/

/-- The values the lines give `key`, in order. -/
def valuesFor (key : Bytes) (lines : List Bytes) : List Bytes :=
  LastWins.readings key some (entries lines)

/-- `get` follows the lines for `key` alone: the row of the table for `key` writes what `read`
says, and no other row touches it. -/
structure Tracks {V : Type} (fields : List (ConfigField T)) (key : Bytes) (get : T → V)
    (read : Bytes → Option V) : Prop where
  own : ∀ field, fields.find? (fun f => f.key = key) = some field →
    ∀ t v, get (field.setter t v).1 = (read v).getD (get t)
  present : (fields.find? fun f => f.key = key).isSome
  frame : ∀ field ∈ fields, field.key ≠ key → ∀ t v, get (field.setter t v).1 = get t

theorem applyEntry_get {V : Type} {fields : List (ConfigField T)} {key : Bytes} {get : T → V}
    {read : Bytes → Option V} (h : Tracks fields key get read) (state : T × List Bytes)
    (entry : Bytes × Bytes) :
    get (applyEntry fields state entry).1 =
      if entry.1 = key then (read entry.2).getD (get state.1) else get state.1 := by
  obtain ⟨k, v⟩ := entry
  simp only [applyEntry]
  by_cases hk : k = key
  · subst hk
    obtain ⟨field, hfield⟩ := Option.isSome_iff_exists.mp h.present
    simp only [hfield, if_true]
    exact h.own field hfield state.1 v
  · rw [if_neg hk]
    rcases hfind : fields.find? (fun f => f.key = k) with _ | field
    · simp only [hfind]
    · have hkey : field.key = k := by simpa using List.find?_some hfind
      simp only [hfind]
      exact h.frame field (List.mem_of_find?_eq_some hfind) (by rw [hkey]; exact hk) state.1 v

/-- The member behind `key` ends with what the last line for `key` that its setter takes says. -/
theorem applyLines_get {V : Type} {fields : List (ConfigField T)} {key : Bytes} {get : T → V}
    {read : Bytes → Option V} (h : Tracks fields key get read) (lines : List Bytes)
    (state : T × List Bytes) :
    get (applyLines fields state lines).1 =
      LastWins.settle (get state.1) (LastWins.readings key read (entries lines)) := by
  simp only [applyLines]
  rw [← LastWins.foldl_readings]
  induction entries lines generalizing state with
  | nil => rfl
  | cons e es ih => rw [List.foldl_cons, List.foldl_cons, ih, applyEntry_get h]

theorem load_config (path : Bytes) (text : Bytes) (defaults : T) (fields : List (ConfigField T)) :
    (load path (some text) defaults fields).config =
      (applyLines fields (defaults, []) (getlines text)).1 := by
  simp only [load]
  split <;> rfl

theorem load_member {V : Type} {fields : List (ConfigField T)} {key : Bytes} {get : T → V}
    {read : Bytes → Option V} (h : Tracks fields key get read) (path text : Bytes)
    (defaults : T) :
    get (load path (some text) defaults fields).config =
      LastWins.settle (get defaults) (LastWins.readings key read (entries (getlines text))) := by
  rw [load_config, applyLines_get h]

/-- The setters of a table accept or refuse a value whatever the record holds. -/
def AcceptsBy (fields : List (ConfigField T)) (accepts : Bytes → Bytes → Bool) : Prop :=
  ∀ field ∈ fields, ∀ t v, (field.setter t v).2 = accepts field.key v

theorem mem_seen_applyLines {fields : List (ConfigField T)} {accepts : Bytes → Bytes → Bool}
    (h : AcceptsBy fields accepts) {key : Bytes}
    (hkey : (fields.find? fun f => f.key = key).isSome) (lines : List Bytes)
    (state : T × List Bytes) :
    key ∈ (applyLines fields state lines).2 ↔
      key ∈ state.2 ∨ ∃ v ∈ valuesFor key lines, accepts key v = true := by
  have hmem : ∀ es : List (Bytes × Bytes), ∀ state : T × List Bytes,
      (key ∈ (es.foldl (applyEntry fields) state).2 ↔
        key ∈ state.2 ∨ ∃ v, (key, v) ∈ es ∧ accepts key v = true) := by
    intro es
    induction es with
    | nil => intro state; simp
    | cons e es ih =>
      intro state
      obtain ⟨k, v⟩ := e
      have hstep : key ∈ (applyEntry fields state (k, v)).2 ↔
          key ∈ state.2 ∨ (k = key ∧ accepts key v = true) := by
        simp only [applyEntry]
        rcases hfind : fields.find? (fun f => f.key = k) with _ | field
        · have hne : k ≠ key := by
            rintro rfl
            rw [hfind] at hkey
            cases hkey
          simp [hfind, hne]
        · have hfk : field.key = k := by simpa using List.find?_some hfind
          have hacc := h field (List.mem_of_find?_eq_some hfind) state.1 v
          rw [hfk] at hacc
          simp only [hfind, hacc]
          by_cases hk : k = key
          · subst hk
            by_cases ha : accepts k v = true <;> simp [ha]
          · by_cases ha : accepts k v = true <;> simp [ha, hk, Ne.symm hk]
      rw [List.foldl_cons, ih, hstep]
      constructor
      · rintro ((hs | ⟨rfl, ha⟩) | ⟨w, hw, ha⟩)
        · exact Or.inl hs
        · exact Or.inr ⟨v, List.mem_cons_self .., ha⟩
        · exact Or.inr ⟨w, List.mem_cons_of_mem _ hw, ha⟩
      · rintro (hs | ⟨w, hw, ha⟩)
        · exact Or.inl (Or.inl hs)
        · rcases List.mem_cons.mp hw with heq | hw
          · obtain ⟨rfl, rfl⟩ := Prod.mk.inj heq
            exact Or.inl (Or.inr ⟨rfl, ha⟩)
          · exact Or.inr ⟨w, hw, ha⟩
  simp only [applyLines]
  rw [hmem]
  simp [valuesFor, LastWins.mem_readings]

/-- A load succeeds exactly when every required key has a line whose value is accepted. -/
theorem load_success_iff {fields : List (ConfigField T)} {accepts : Bytes → Bytes → Bool}
    (h : AcceptsBy fields accepts) (path text : Bytes) (defaults : T) :
    (load path (some text) defaults fields).success = true ↔
      ∀ field ∈ fields, field.required = true →
        ∃ v ∈ valuesFor field.key (getlines text), accepts field.key v = true := by
  have hseen : ∀ field ∈ fields,
      (field.key ∈ (applyLines fields (defaults, []) (getlines text)).2 ↔
        ∃ v ∈ valuesFor field.key (getlines text), accepts field.key v = true) := by
    intro field hf
    rw [mem_seen_applyLines h (List.find?_isSome.mpr ⟨field, hf, by simp⟩)]
    simp
  simp only [load]
  split
  · next field hfind =>
    have hmem := List.mem_of_find?_eq_some hfind
    have hprop := List.find?_some hfind
    simp only [Bool.and_eq_true, Bool.not_eq_true', List.contains_eq_mem,
      decide_eq_false_iff_not] at hprop
    constructor
    · intro hfalse
      cases hfalse
    · intro hall
      exact absurd ((hseen field hmem).mpr (hall field hmem hprop.1)) hprop.2
  · next hfind =>
    simp only [true_iff]
    intro field hf hreq
    have hnone := List.find?_eq_none.mp hfind field hf
    simp only [hreq, Bool.true_and, Bool.not_eq_true', List.contains_eq_mem,
      decide_eq_false_iff_not, not_not] at hnone
    exact (hseen field hf).mp hnone

end VirtualChime.Config
