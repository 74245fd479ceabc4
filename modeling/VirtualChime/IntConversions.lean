import VirtualChime.ApiResponses
import VirtualChime.WifiScan
import VirtualChime.StrongestNetworks
import VirtualChime.Library.LastWins
import VirtualChime.Library.Traced

/-!
# Conversions to int

The three places that cast a number from outside to `int`, with the casts that are
evaluated: `ReadRequiredInt` of a posted number, and the signals that
`ParseWpaCliScanResults` and `ScanWithIw` read.  A cast of a value that has no `int` ends a
run, as the language does not say what follows.
-/

namespace VirtualChime.Webd.Casts

open Traced (Run)

/-! ## 1. Numbers -/

/-- What a `double` is, without the sign of an infinity. -/
inductive Number where
  | nan
  | infinite
  | finite (value : ℚ)
deriving DecidableEq, Repr

/-- Towards zero. -/
def truncate (value : ℚ) : Int := value.num.tdiv value.den

/-- `static_cast<int>`, where the value has an `int`. -/
def toInt : Number → Option Int
  | .finite value =>
      if longMin ≤ truncate value ∧ truncate value ≤ longMax then some (truncate value) else none
  | _ => none

def HasInt (v : Number) : Prop := (toInt v).isSome

def cast (v : Number) : Run Number Int := .perform v (toInt v)

theorem truncate_intCast (n : Int) : truncate n = n := by
  simp [truncate]

theorem toInt_finite {value : ℚ} (h : IsInt (truncate value)) :
    toInt (.finite value) = some (truncate value) := if_pos h

theorem hasInt_finite_iff {value : ℚ} : HasInt (.finite value) ↔ IsInt (truncate value) := by
  simp [HasInt, toInt, IsInt]

theorem faithful_cast (v : Number) : Traced.Faithful HasInt (cast v) :=
  Traced.faithful_perform Iff.rfl

/-! ## 2. The C library -/

/-- The range of `long`, which has all of `int`. -/
structure LongRange where
  least : Int
  greatest : Int
  covers : least ≤ longMin ∧ longMax ≤ greatest

/-- The target's `long` is an `int`. -/
def LongRange.target : LongRange := ⟨longMin, longMax, le_refl _, le_refl _⟩

/-- The integer as a `long`, at a bound if it is beyond it. -/
def LongRange.saturate (long : LongRange) (n : Int) : Int := max long.least (min long.greatest n)

/-- The integer that a text begins with, and what follows it; none where there is no digit. -/
def leadingInteger (s : Bytes) : Option (Int × Bytes) :=
  let (negative, unsigned) := splitSign ((cStr s).dropWhile isSpace)
  let digits := unsigned.takeWhile isDigit
  if digits.isEmpty then none
  else
    let value : Int := digitsValue digits
    some (if negative then -value else value, unsigned.drop digits.length)

/-- `std::strtol(s.c_str(), &end, 10)`: the value, saturated, and the text at `end`. -/
def strtol (long : LongRange) (s : Bytes) : Int × Bytes :=
  match leadingInteger s with
  | none => (0, cStr s)
  | some (value, rest) => (long.saturate value, rest)

/-- The text after a word, whatever the case of its letters. -/
def dropWord (word s : Bytes) : Option Bytes :=
  if word.isPrefixOf (s.map toLower) then some (s.drop word.length) else none

def dropInfinity (s : Bytes) : Option Bytes :=
  (dropWord (bytes "infinity") s).or (dropWord (bytes "inf") s)

/-- `nan` may have letters, digits and underscores in parentheses after it. -/
def dropNan (s : Bytes) : Option Bytes :=
  (dropWord (bytes "nan") s).map fun rest =>
    if rest.head? = some 40 then
      let closed := rest.tail.dropWhile fun c => isDigit c || (97 ≤ toLower c && toLower c ≤ 122) || c == 95
      if closed.head? = some 41 then closed.tail else rest
    else rest

/-- The exponent after one of two letters, and what follows it: none without a digit. -/
def exponentAfter (lower upper : Byte) (s : Bytes) : Int × Bytes :=
  if s.head? = some lower ∨ s.head? = some upper then
    let (negative, unsigned) := splitSign s.tail
    let digits := unsigned.takeWhile isDigit
    if digits.isEmpty then (0, s)
    else (if negative then -digitsValue digits else digitsValue digits, unsigned.dropWhile isDigit)
  else (0, s)

/-- The digits of a class around a point, how many stand after it, and what follows. -/
def pointed (isDigit : Byte → Bool) (s : Bytes) : Bytes × ℕ × Bytes :=
  let rest := s.dropWhile isDigit
  if rest.head? = some 46 then
    let fraction := rest.tail.takeWhile isDigit
    (s.takeWhile isDigit ++ fraction, fraction.length, rest.tail.dropWhile isDigit)
  else (s.takeWhile isDigit, 0, rest)

def decimal (s : Bytes) : Option (ℚ × Bytes) :=
  let (digits, places, rest) := pointed isDigit s
  if digits.isEmpty then none
  else
    let (exponent, rest) := exponentAfter 101 69 rest
    some (digitsValue digits * 10 ^ (exponent - (places : Int)), rest)

/-- `0x` and hexadecimal digits; the exponent is one of two. -/
def hexadecimal (s : Bytes) : Option (ℚ × Bytes) :=
  match dropWord (bytes "0x") s with
  | none => none
  | some s =>
      let (digits, places, rest) := pointed isHexDigit s
      if digits.isEmpty then none
      else
        let (exponent, rest) := exponentAfter 112 80 rest
        some (hexValue digits * 2 ^ (exponent - 4 * (places : Int)), rest)

/-- The number that a text begins with, and what follows it.  The result of rounding is infinite
where there is none. -/
def leadingNumber (round : ℚ → Option ℚ) (s : Bytes) : Option (Number × Bytes) :=
  let (negative, unsigned) := splitSign ((cStr s).dropWhile isSpace)
  match dropInfinity unsigned, dropNan unsigned, (hexadecimal unsigned).or (decimal unsigned) with
  | some rest, _, _ => some (.infinite, rest)
  | none, some rest, _ => some (.nan, rest)
  | none, none, some (magnitude, rest) =>
      some (((round (if negative then -magnitude else magnitude)).map .finite).getD .infinite, rest)
  | none, none, none => none

/-- `std::strtod(s.c_str(), &end)` in the C locale, for any rounding. -/
def strtod (round : ℚ → Option ℚ) (s : Bytes) : Number × Bytes :=
  (leadingNumber round s).getD (.finite 0, cStr s)

/-- A text that is nothing but what it begins with. -/
def whole {α : Type} (leading : Option (α × Bytes)) : Option α :=
  leading.bind fun found => if found.2 = [] then some found.1 else none

/-- The integer that a field spells. -/
def spelledInteger (field : Bytes) : Option Int := whole (leadingInteger field)

def spelledNumber (round : ℚ → Option ℚ) (field : Bytes) : Option Number :=
  whole (leadingNumber round field)

/-! ## 3. The source -/

def readRequiredInt (object : JsonValue) (key : Bytes) : Run Number (FieldRead Int) :=
  match readRequired asNumber (bytes " must be a number") object key with
  | (some value, _) => do
      let rounded ← cast (.finite value)
      if (rounded : ℚ) ≠ value then return (none, [⟨key, key ++ bytes " must be an integer"⟩])
      else return (some rounded, [])
  | (none, errors) => return (none, errors)

/-- The third field of a line of `wpa_cli`. -/
def scanSignal (long : LongRange) (field : Bytes) : Run Number Int :=
  if field = [] then return -1000
  else
    let (parsed, rest) := strtol long field
    if rest = [] then cast (.finite parsed) else return -1000

/-- The loop of `ParseWpaCliScanResults` for one line. -/
def scanLine (long : LongRange) (networks : List WifiNetwork) (line : Bytes) :
    Run Number (List WifiNetwork) :=
  if line = [] ∨ (bytes "bssid").isPrefixOf line then return networks
  else
    match splitTabs line with
    | _ :: _ :: signal :: flags :: ssid :: _ => do
        let signal_dbm ← scanSignal long signal
        if ssid = [] then return networks
        else return networks ++ [{ ssid, signal_dbm, security := securityFromFlags flags }]
    | _ => return networks

def parseWpaCliScanResults (long : LongRange) (output : Bytes) : Run Number (List WifiNetwork) :=
  (splitLines output).foldlM (scanLine long) []

/-- What the loop of `ScanWithIw` keeps from line to line. -/
structure IwState where
  networks : List WifiNetwork := []
  current : WifiNetwork := { ssid := [], security := [] }
  in_block : Bool := false

def IwState.pushCurrent (s : IwState) : IwState where
  networks :=
    if s.in_block && s.current.ssid != [] then
      s.networks ++ [{ s.current with
        security := if s.current.security = [] then bytes "OPEN" else s.current.security }]
    else s.networks

/-- The value of a signal; none if it leaves the signal as it is. -/
def iwSignal (round : ℚ → Option ℚ) (value : Bytes) : Run Number (Option Int) :=
  let (parsed, rest) := strtod round value
  if rest = [] then do
    let signal_dbm ← cast parsed
    return some signal_dbm
  else return none

/-- What stands after `signal:`, up to a blank. -/
def signalValue (trimmed : Bytes) : Bytes := (trim (trimmed.drop 7)).takeWhile (· != 32)

def startsBlock (line : Bytes) : Bool := (bytes "BSS ").isPrefixOf (trim line)

/-- The loop of `ScanWithIw` for one line. -/
def iwLine (round : ℚ → Option ℚ) (s : IwState) (line : Bytes) : Run Number IwState :=
  let trimmed := trim line
  if startsBlock line then return { s.pushCurrent with in_block := true }
  else if !s.in_block then return s
  else if (bytes "SSID:").isPrefixOf trimmed then
    return { s with current := { s.current with ssid := trim (trimmed.drop 5) } }
  else if (bytes "signal:").isPrefixOf trimmed then do
    let signal ← iwSignal round (signalValue trimmed)
    return { s with current := { s.current with
      signal_dbm := signal.getD s.current.signal_dbm } }
  else if (bytes "RSN:").isPrefixOf trimmed then
    return { s with current := { s.current with security := bytes "WPA2" } }
  else if (bytes "WPA:").isPrefixOf trimmed then
    return { s with current := { s.current with security := bytes "WPA" } }
  else if bytes "WEP" <:+: trimmed then
    return { s with current := { s.current with security := bytes "WEP" } }
  else return s

/-- `ScanWithIw` from the output of `iw` on. -/
def scanWithIw (round : ℚ → Option ℚ) (sort : SignalSort) (output : Bytes) :
    Run Number (List WifiNetwork) := do
  let s ← (splitLines output).foldlM (iwLine round) {}
  return deduplicateStrongest sort s.pushCurrent.networks

/-! ## 4. A posted number -/

/-- The number at a key of an object. -/
def fieldNumber (object : JsonValue) (key : Bytes) : Option ℚ :=
  (getObjectField object key).bind asNumber

/-- The value of an `int`. -/
def IsIntValue (value : ℚ) : Prop := ∃ n : Int, IsInt n ∧ (n : ℚ) = value

section Posted

variable {object : JsonValue} {key : Bytes}

theorem readRequired_of_fieldNumber {value : ℚ} (h : fieldNumber object key = some value) :
    readRequired asNumber (bytes " must be a number") object key = (some value, []) := by
  obtain ⟨field, hfield, hnumber⟩ := Option.bind_eq_some_iff.mp h
  simp only [readRequired, hfield, hnumber]

theorem readRequired_of_no_fieldNumber (h : fieldNumber object key = none) :
    ∃ error, readRequired asNumber (bytes " must be a number") object key = (none, [error]) := by
  rw [readRequired]
  cases hfield : getObjectField object key with
  | none => exact ⟨_, rfl⟩
  | some field =>
    rw [fieldNumber, hfield, Option.bind_some] at h
    dsimp only
    rw [h]
    exact ⟨_, rfl⟩

/-- Every posted number is cast. -/
theorem events_readRequiredInt :
    (readRequiredInt object key).events = ((fieldNumber object key).map Number.finite).toList := by
  cases h : fieldNumber object key with
  | none =>
    obtain ⟨error, hread⟩ := readRequired_of_no_fieldNumber h
    rw [readRequiredInt, hread]
    rfl
  | some value =>
    rw [readRequiredInt, readRequired_of_fieldNumber h]
    dsimp only
    cases hint : toInt (.finite value) with
    | none =>
      rw [Run.events_bind_of_none (by simpa [cast] using hint)]
      rfl
    | some n =>
      rw [Run.events_bind (by simpa [cast] using hint)]
      split
      · rfl
      · rfl

/-- A number whose cast has a value is taken if that is the number itself. -/
theorem result_readRequiredInt {value : ℚ} (h : fieldNumber object key = some value)
    (hint : IsInt (truncate value)) :
    (readRequiredInt object key).result =
      some (if (truncate value : ℚ) ≠ value then
        (none, [⟨key, key ++ bytes " must be an integer"⟩]) else (some (truncate value), [])) := by
  rw [readRequiredInt, readRequired_of_fieldNumber h]
  simp only [Run.result_bind, cast, Run.result_perform, toInt_finite hint, Option.bind_some]
  split
  · rfl
  · rfl

/-- Where every cast has a value, the run is that of the model on the target. -/
theorem result_readRequiredInt_eq
    (h : ∀ value, fieldNumber object key = some value → IsInt (truncate value)) :
    (readRequiredInt object key).result = some (Webd.readRequiredInt object key) := by
  cases hfield : fieldNumber object key with
  | none =>
    obtain ⟨error, hread⟩ := readRequired_of_no_fieldNumber hfield
    rw [readRequiredInt, Webd.readRequiredInt, hread]
    rfl
  | some value =>
    have hint := h value hfield
    have hcast : castToInt value = truncate value := by
      rw [castToInt, ← truncate, min_eq_right hint.2, max_eq_right hint.1]
    rw [result_readRequiredInt hfield hint, Webd.readRequiredInt, readRequired_of_fieldNumber hfield]
    dsimp only
    rw [hcast]

/-- The casts have values exactly when the whole part of the number is an `int`. -/
theorem hasInt_events_iff :
    (∀ v ∈ (readRequiredInt object key).events, HasInt v) ↔
      ∀ value, fieldNumber object key = some value → IsInt (truncate value) := by
  rw [events_readRequiredInt]
  cases fieldNumber object key with
  | none => simp
  | some value => simp [hasInt_finite_iff]

/-- A posted number is taken if it is the value of an `int`, and any other is refused. -/
structure AcceptsInt (object : JsonValue) (key : Bytes) : Prop where
  casts : ∀ v ∈ (readRequiredInt object key).events, HasInt v
  taken : ∀ value n, fieldNumber object key = some value → IsInt n → (n : ℚ) = value →
    (readRequiredInt object key).result = some (some n, [])
  refused : ∀ value, fieldNumber object key = some value → ¬ IsIntValue value →
    (readRequiredInt object key).result =
      some (none, [⟨key, key ++ bytes " must be an integer"⟩])

/-- The same, and a number that is refused is not cast. -/
structure ReadsInt (object : JsonValue) (key : Bytes) : Prop extends AcceptsInt object key where
  uncast : ∀ value, fieldNumber object key = some value → ¬ IsIntValue value →
    .finite value ∉ (readRequiredInt object key).events

/-- The check after the cast does its work where the cast has a value. -/
theorem acceptsInt_iff :
    AcceptsInt object key ↔
      ∀ value, fieldNumber object key = some value → IsInt (truncate value) := by
  constructor
  · intro h
    exact hasInt_events_iff.mp h.casts
  · intro h
    refine ⟨hasInt_events_iff.mpr h, ?_, ?_⟩
    · rintro value n hfield hn rfl
      rw [result_readRequiredInt hfield (h _ hfield), truncate_intCast, if_neg (not_not.mpr rfl)]
    · intro value hfield hno
      have hne : (truncate value : ℚ) ≠ value := fun heq => hno ⟨_, h value hfield, heq⟩
      rw [result_readRequiredInt hfield (h value hfield), if_pos hne]

theorem readsInt_iff :
    ReadsInt object key ↔ ∀ value, fieldNumber object key = some value → IsIntValue value := by
  constructor
  · intro h value hfield
    by_contra hno
    have hcast := h.uncast value hfield hno
    rw [events_readRequiredInt, hfield] at hcast
    exact hcast (List.mem_singleton_self _)
  · intro h
    refine ⟨acceptsInt_iff.mpr ?_, ?_⟩
    · intro value hfield
      obtain ⟨n, hn, rfl⟩ := h value hfield
      rwa [truncate_intCast]
    · intro value hfield hno
      exact absurd (h value hfield) hno

end Posted

/-! ## 5. The signals of `wpa_cli` -/

/-- The signal of a line that is read. -/
def wpaSignalField (line : Bytes) : Option Bytes :=
  if line = [] ∨ (bytes "bssid").isPrefixOf line then none
  else
    match splitTabs line with
    | _ :: _ :: signal :: _ :: _ :: _ => some signal
    | _ => none

def wpaSignalFields (output : Bytes) : List Bytes := (splitLines output).filterMap wpaSignalField

/-- The signal that a field gives if nothing is lost: its integer, or else the default. -/
def wpaSignal (field : Bytes) : Int := (spelledInteger field).getD (-1000)

/-- A field whose integer is an `int`, and that is not cut to nothing by a null byte. -/
def WpaFits (field : Bytes) : Prop :=
  (∀ n, spelledInteger field = some n → IsInt n) ∧ (cStr field = [] → field = [])

section Wpa

variable {long : LongRange}

theorem leadingInteger_of_cStr {s : Bytes} (h : cStr s = []) : leadingInteger s = none := by
  simp only [leadingInteger, h]
  rfl

theorem toInt_intCast {n m : Int} : toInt (.finite n) = some m ↔ IsInt n ∧ n = m := by
  simp only [toInt, truncate_intCast, IsInt]
  split
  · next h => simp [h]
  · next h => simp [h]

theorem toInt_zero : toInt (.finite 0) = some 0 :=
  toInt_intCast.mpr ⟨⟨by decide, by decide⟩, rfl⟩

/-- A saturated value is never one of the integers that are not an `int`. -/
theorem saturate_eq_iff {n : Int} : (IsInt (long.saturate n) ∧ long.saturate n = n) ↔ IsInt n := by
  obtain ⟨hleast, hgreatest⟩ := long.covers
  constructor
  · rintro ⟨hint, heq⟩
    rwa [heq] at hint
  · intro hint
    have heq : long.saturate n = n := by
      rw [LongRange.saturate, min_eq_right (hint.2.trans hgreatest),
        max_eq_right (hleast.trans hint.1)]
    exact ⟨by rwa [heq], heq⟩

theorem scanSignal_nil : scanSignal long [] = pure (-1000) := rfl

/-- The result for a field that is not empty: its integer, saturated, and zero where a null byte
has left nothing to read. -/
theorem result_scanSignal {field : Bytes} (hne : field ≠ []) :
    (scanSignal long field).result =
      match spelledInteger field with
      | some n => toInt (.finite (long.saturate n))
      | none => if cStr field = [] then some 0 else some (-1000) := by
  rw [scanSignal, if_neg hne, strtol, spelledInteger]
  cases hlead : leadingInteger field with
  | none =>
    by_cases hstr : cStr field = []
    · simp [hstr, whole, cast, toInt_zero]
    · simp [hstr, whole]
  | some found =>
    obtain ⟨n, rest⟩ := found
    have hstr : cStr field ≠ [] := by
      intro hstr
      rw [leadingInteger_of_cStr hstr] at hlead
      cases hlead
    by_cases hrest : rest = []
    · simp [hrest, whole, cast]
    · simp [hrest, whole, hstr]

theorem scanSignal_eq_iff {field : Bytes} :
    (scanSignal long field).result = some (wpaSignal field) ↔ WpaFits field := by
  by_cases hne : field = []
  · subst hne
    have hnone : spelledInteger [] = none := rfl
    simp [scanSignal_nil, wpaSignal, WpaFits, hnone]
  rw [result_scanSignal hne, wpaSignal, WpaFits]
  cases hspelled : spelledInteger field with
  | none =>
    by_cases hstr : cStr field = []
    · simp [hstr, hne]
    · simp [hstr]
  | some n =>
    have hstr : cStr field ≠ [] := by
      intro hstr
      rw [spelledInteger, leadingInteger_of_cStr hstr] at hspelled
      cases hspelled
    simp [hstr, toInt_intCast, saturate_eq_iff]

theorem strtol_target (s : Bytes) : strtol .target s = VirtualChime.strtol s := by
  simp only [strtol, leadingInteger, VirtualChime.strtol]
  by_cases h : ((splitSign ((cStr s).dropWhile isSpace)).2.takeWhile isDigit).isEmpty
  · simp only [h]
    rfl
  · simp only [h]
    rfl

theorem isInt_strtol (s : Bytes) : IsInt (VirtualChime.strtol s).1 := by
  simp only [VirtualChime.strtol]
  split
  · exact ⟨(by decide : longMin ≤ 0), (by decide : 0 ≤ longMax)⟩
  · exact ⟨le_max_left .., max_le (by decide) (min_le_left ..)⟩

/-- The model of the target is the run with the target's `long`. -/
theorem result_scanSignal_target (field : Bytes) :
    (scanSignal .target field).result = some (Webd.scanSignal field) := by
  by_cases hne : field = []
  · subst hne
    rfl
  rw [scanSignal, if_neg hne, Webd.scanSignal, if_neg hne, strtol_target]
  have hint := isInt_strtol field
  rcases hread : VirtualChime.strtol field with ⟨parsed, rest⟩
  rw [hread] at hint
  dsimp only
  split
  · exact toInt_intCast.mpr ⟨hint, rfl⟩
  · rfl

theorem scanSignal_of_fits {field : Bytes} (h : WpaFits field) :
    Webd.scanSignal field = wpaSignal field := by
  have htarget := result_scanSignal_target field
  rw [scanSignal_eq_iff.mpr h] at htarget
  exact (Option.some.inj htarget).symm

theorem faithful_scanSignal (field : Bytes) :
    Traced.Faithful HasInt (scanSignal long field) := by
  rw [scanSignal]
  split
  · exact Traced.faithful_pure _
  · rcases strtol long field with ⟨parsed, rest⟩
    dsimp only
    split
    · exact faithful_cast _
    · exact Traced.faithful_pure _

theorem wpaSignalField_of_fields {line signal bssid frequency flags ssid : Bytes}
    {rest : List Bytes} (hline : ¬(line = [] ∨ (bytes "bssid").isPrefixOf line))
    (hfields : splitTabs line = bssid :: frequency :: signal :: flags :: ssid :: rest) :
    wpaSignalField line = some signal := by
  rw [wpaSignalField, if_neg hline, hfields]

theorem parseScanLine_of_fields {line signal bssid frequency flags ssid : Bytes}
    {rest : List Bytes} (hline : ¬(line = [] ∨ (bytes "bssid").isPrefixOf line))
    (hfields : splitTabs line = bssid :: frequency :: signal :: flags :: ssid :: rest) :
    parseScanLine line =
      if ssid = [] then none
      else some { ssid, signal_dbm := Webd.scanSignal signal,
                  security := securityFromFlags flags } := by
  rw [parseScanLine, if_neg hline, hfields]

/-- The signal of a network is that of its line. -/
theorem signal_of_parseScanLine {line : Bytes} {network : WifiNetwork}
    (h : parseScanLine line = some network) :
    ∃ field, wpaSignalField line = some field ∧ network.signal_dbm = Webd.scanSignal field := by
  rw [parseScanLine] at h
  split at h
  · cases h
  · next hline =>
    split at h
    · next fields signal flags ssid rest hfields =>
      split at h
      · cases h
      · obtain rfl := Option.some.inj h
        exact ⟨signal, wpaSignalField_of_fields hline hfields, rfl⟩
    · cases h

/-- A line adds the network that the model of the target reads, with the signal that is read. -/
theorem scanLine_eq (networks : List WifiNetwork) (line : Bytes) :
    scanLine long networks line =
      match wpaSignalField line with
      | none => pure networks
      | some field => do
          let signal_dbm ← scanSignal long field
          return networks ++ ((parseScanLine line).map fun n => { n with signal_dbm }).toList := by
  rw [scanLine]
  split
  · next hline => rw [wpaSignalField, if_pos hline]
  · next hline =>
    split
    · next signal flags ssid rest hfields =>
      rw [wpaSignalField_of_fields hline hfields, parseScanLine_of_fields hline hfields]
      by_cases hssid : ssid = []
      · simp [hssid]
      · simp [hssid]
    · next hother =>
      have hnone : wpaSignalField line = none := by
        rw [wpaSignalField, if_neg hline]
        split
        · next hfields => exact (hother _ _ _ _ _ _ hfields).elim
        · rfl
      rw [hnone]

theorem faithful_scanLine (networks : List WifiNetwork) (line : Bytes) :
    Traced.Faithful HasInt (scanLine long networks line) := by
  rw [scanLine_eq]
  cases wpaSignalField line with
  | none => exact Traced.faithful_pure _
  | some field => exact (faithful_scanSignal field).bind fun _ => Traced.faithful_pure _

theorem result_scanLine {line : Bytes} (networks : List WifiNetwork)
    (h : ∀ field, wpaSignalField line = some field → WpaFits field) :
    (scanLine long networks line).result = some (networks ++ (parseScanLine line).toList) := by
  rw [scanLine_eq]
  cases hfield : wpaSignalField line with
  | none =>
    cases hread : parseScanLine line with
    | none => simp
    | some network =>
      obtain ⟨field, hsome, -⟩ := signal_of_parseScanLine hread
      rw [hfield] at hsome
      cases hsome
  | some field =>
    have hfits := h field hfield
    simp only [Run.result_bind, scanSignal_eq_iff.mpr hfits, Option.bind_some, Run.result_pure]
    cases hread : parseScanLine line with
    | none => rfl
    | some network =>
      obtain ⟨_, hsome, hsignal⟩ := signal_of_parseScanLine hread
      obtain rfl := Option.some.inj (hfield.symm.trans hsome)
      rw [scanSignal_of_fits hfits] at hsignal
      rw [Option.map_some, ← hsignal]

/-- Where every field fits, the run is that of the model of the target. -/
theorem result_parseWpaCliScanResults {output : Bytes}
    (h : ∀ field ∈ wpaSignalFields output, WpaFits field) :
    (parseWpaCliScanResults long output).result = some (Webd.parseWpaCliScanResults output) := by
  rw [parseWpaCliScanResults, Webd.parseWpaCliScanResults, ← List.nil_append (List.filterMap _ _)]
  rw [wpaSignalFields] at h
  generalize splitLines output = lines at h ⊢
  generalize ([] : List WifiNetwork) = networks
  induction lines generalizing networks with
  | nil => simp
  | cons line lines ih =>
    have hline : ∀ field, wpaSignalField line = some field → WpaFits field := fun field hfield =>
      h field (List.mem_filterMap.mpr ⟨line, List.mem_cons_self .., hfield⟩)
    have hlines : ∀ field ∈ lines.filterMap wpaSignalField, WpaFits field := by
      intro field hfield
      obtain ⟨other, hother, hread⟩ := List.mem_filterMap.mp hfield
      exact h field (List.mem_filterMap.mpr ⟨other, List.mem_cons_of_mem _ hother, hread⟩)
    rw [List.foldlM_cons, Run.result_bind, result_scanLine networks hline, Option.bind_some,
      ih hlines, List.append_assoc]
    cases hread : parseScanLine line with
    | none => simp [hread]
    | some network => simp [hread]

/-- What is said of an output of `wpa_cli`: every cast has an `int`, a field is its own integer or
else the default, and a network has the signal of its line. -/
structure ReadsWpa (long : LongRange) (output : Bytes) : Prop where
  casts : ∀ v ∈ (parseWpaCliScanResults long output).events, HasInt v
  fields : ∀ field ∈ wpaSignalFields output,
    (scanSignal long field).result = some (wpaSignal field)
  networks : ∃ networks, (parseWpaCliScanResults long output).result = some networks ∧
    ∀ network ∈ networks, ∃ line ∈ splitLines output, parseScanLine line = some network ∧
      ∃ field, wpaSignalField line = some field ∧ network.signal_dbm = wpaSignal field

theorem readsWpa_iff {output : Bytes} :
    ReadsWpa long output ↔ ∀ field ∈ wpaSignalFields output, WpaFits field := by
  constructor
  · intro h field hfield
    exact scanSignal_eq_iff.mp (h.fields field hfield)
  · intro h
    have hresult : (parseWpaCliScanResults long output).result =
        some (Webd.parseWpaCliScanResults output) := result_parseWpaCliScanResults h
    refine ⟨?_, ?_, ?_⟩
    · have hfaithful : Traced.Faithful HasInt (parseWpaCliScanResults long output) :=
        Traced.faithful_foldlM faithful_scanLine _ _
      apply hfaithful.mp
      rw [hresult]
      rfl
    · intro field hfield
      exact scanSignal_eq_iff.mpr (h field hfield)
    · refine ⟨_, hresult, ?_⟩
      intro network hnetwork
      obtain ⟨line, hline, hread⟩ := List.mem_filterMap.mp hnetwork
      obtain ⟨field, hfield, hsignal⟩ := signal_of_parseScanLine hread
      have hfits := h field (List.mem_filterMap.mpr ⟨line, hline, hfield⟩)
      rw [scanSignal_of_fits hfits] at hsignal
      exact ⟨line, hline, hread, field, hfield, hsignal⟩

end Wpa

/-! ## 6. The signals of `iw` -/

/-- The signal of a line, should it stand in a block. -/
def iwSignalField (line : Bytes) : Option Bytes :=
  if (bytes "signal:").isPrefixOf (trim line) then some (signalValue (trim line)) else none

def iwSsidField (line : Bytes) : Option Bytes :=
  if (bytes "SSID:").isPrefixOf (trim line) then some (trim ((trim line).drop 5)) else none

/-- The signals of the lines from the first block on. -/
def iwSignalFields (output : Bytes) : List Bytes :=
  ((splitLines output).dropWhile fun line => !startsBlock line).filterMap iwSignalField

/-- The signal that a value gives if nothing is lost: its number without the fraction. -/
def iwReading (round : ℚ → Option ℚ) (value : Bytes) : Option Int :=
  (spelledNumber round value).bind toInt

/-- A value that is there, and whose number, if it is one, has an `int`. -/
def IwFits (round : ℚ → Option ℚ) (value : Bytes) : Prop :=
  (∀ v, spelledNumber round value = some v → HasInt v) ∧ cStr value ≠ []

/-- The lines that follow the start of a block, without another start, and all lines after them. -/
def BlockThen (lines block after : List Bytes) : Prop :=
  ∃ before start, lines = before ++ start :: (block ++ after) ∧ startsBlock start = true ∧
    ∀ line ∈ block, startsBlock line = false

/-- The lines after the start of a block, up to the next one. -/
def IsBlock (lines block : List Bytes) : Prop :=
  ∃ after, BlockThen lines block after ∧ ∀ next ∈ after.head?, startsBlock next = true

/-- A network has the last SSID and the last signal of the lines of its block. -/
def Describes (read : Bytes → Option Int) (network : WifiNetwork) (block : List Bytes) : Prop :=
  network.ssid = LastWins.settle [] (block.filterMap iwSsidField) ∧
    network.signal_dbm = LastWins.settle (-1000) ((block.filterMap iwSignalField).filterMap read)

section Iw

variable {round : ℚ → Option ℚ}

theorem leadingNumber_of_cStr {s : Bytes} (h : cStr s = []) : leadingNumber round s = none := by
  simp only [leadingNumber, h]
  rfl

/-- The result for a value: its number, and zero where there is nothing to read. -/
theorem result_iwSignal (value : Bytes) :
    (iwSignal round value).result =
      match spelledNumber round value with
      | some v => (toInt v).map some
      | none => if cStr value = [] then some (some 0) else some none := by
  rw [iwSignal, strtod, spelledNumber]
  cases hlead : leadingNumber round value with
  | none =>
    by_cases hstr : cStr value = []
    · simp [hstr, whole, cast, toInt_zero]
    · simp [hstr, whole]
  | some found =>
    obtain ⟨v, rest⟩ := found
    have hstr : cStr value ≠ [] := by
      intro hstr
      rw [leadingNumber_of_cStr hstr] at hlead
      cases hlead
    by_cases hrest : rest = []
    · cases hint : toInt v with
      | none => simp [hrest, whole, cast, hint]
      | some n => simp [hrest, whole, cast, hint]
    · simp [hrest, whole, hstr]

theorem iwSignal_eq_iff {value : Bytes} :
    (iwSignal round value).result = some (iwReading round value) ↔ IwFits round value := by
  rw [result_iwSignal, iwReading, IwFits]
  cases hspelled : spelledNumber round value with
  | none =>
    by_cases hstr : cStr value = []
    · simp [hstr]
    · simp [hstr]
  | some v =>
    have hstr : cStr value ≠ [] := by
      intro hstr
      rw [spelledNumber, leadingNumber_of_cStr hstr] at hspelled
      cases hspelled
    cases hint : toInt v with
    | none => simp [HasInt, hint]
    | some n => simp [HasInt, hint, hstr]

theorem faithful_iwSignal (value : Bytes) : Traced.Faithful HasInt (iwSignal round value) := by
  rw [iwSignal]
  rcases strtod round value with ⟨parsed, rest⟩
  dsimp only
  split
  · exact (faithful_cast _).bind fun _ => Traced.faithful_pure _
  · exact Traced.faithful_pure _

/-- A text has one first byte. -/
theorem isPrefixOf_exclusive {word other s : Bytes} (hword : word ≠ []) (hother : other ≠ [])
    (hne : word.head? ≠ other.head?) (h : word.isPrefixOf s) : other.isPrefixOf s = false := by
  rw [Bool.eq_false_iff]
  intro h'
  obtain ⟨rest, rfl⟩ := List.isPrefixOf_iff_prefix.mp h
  obtain ⟨rest', hsame⟩ := List.isPrefixOf_iff_prefix.mp h'
  have hhead := congrArg List.head? hsame
  rw [List.head?_append_of_ne_nil _ hword, List.head?_append_of_ne_nil _ hother] at hhead
  exact hne hhead.symm

theorem iwSignalField_of_startsBlock {line : Bytes} (h : startsBlock line = true) :
    iwSignalField line = none := by
  rw [iwSignalField, isPrefixOf_exclusive (by decide) (by decide) (by decide) h]
  rfl

/-- What one line does: it starts a block, it stands outside of one, it sets the signal, or it
leaves the signal as it is. -/
theorem iwLine_cases (s : IwState) (line : Bytes) :
    (startsBlock line = true ∧ iwLine round s line = pure { s.pushCurrent with in_block := true }) ∨
    (startsBlock line = false ∧ s.in_block = false ∧ iwLine round s line = pure s) ∨
    (startsBlock line = false ∧ s.in_block = true ∧ iwSsidField line = none ∧
      ∃ value, iwSignalField line = some value ∧ iwLine round s line = (do
        let signal ← iwSignal round value
        return { s with current := { s.current with
          signal_dbm := signal.getD s.current.signal_dbm } })) ∨
    (startsBlock line = false ∧ s.in_block = true ∧ iwSignalField line = none ∧
      ∃ current, iwLine round s line = pure { s with current } ∧
        current.ssid = (iwSsidField line).getD s.current.ssid ∧
        current.signal_dbm = s.current.signal_dbm) := by
  rw [iwLine]
  dsimp only
  by_cases hstart : startsBlock line = true
  · exact Or.inl ⟨hstart, if_pos hstart⟩
  rw [if_neg hstart]
  rw [Bool.not_eq_true] at hstart
  by_cases hin : s.in_block = true
  · rw [if_neg (by simp [hin])]
    refine Or.inr (Or.inr ?_)
    by_cases hssid : (bytes "SSID:").isPrefixOf (trim line) = true
    · have hnone : iwSignalField line = none := by
        rw [iwSignalField, isPrefixOf_exclusive (by decide) (by decide) (by decide) hssid]
        rfl
      have hsome : iwSsidField line = some (trim ((trim line).drop 5)) := if_pos hssid
      refine Or.inr ⟨hstart, hin, hnone, _, if_pos hssid, ?_, rfl⟩
      rw [hsome]
      rfl
    have hnone : iwSsidField line = none := if_neg hssid
    rw [if_neg hssid, hnone]
    by_cases hsignal : (bytes "signal:").isPrefixOf (trim line) = true
    · exact Or.inl ⟨hstart, hin, rfl, _, if_pos hsignal, if_pos hsignal⟩
    rw [if_neg hsignal]
    refine Or.inr ⟨hstart, hin, if_neg hsignal, ?_⟩
    -- what is left sets the security at most
    split
    · exact ⟨_, rfl, rfl, rfl⟩
    · split
      · exact ⟨_, rfl, rfl, rfl⟩
      · split
        · exact ⟨_, rfl, rfl, rfl⟩
        · exact ⟨s.current, rfl, rfl, rfl⟩
  · rw [Bool.not_eq_true] at hin
    exact Or.inr (Or.inl ⟨hstart, hin, if_pos (by simp [hin])⟩)

theorem faithful_iwLine (s : IwState) (line : Bytes) :
    Traced.Faithful HasInt (iwLine round s line) := by
  rcases iwLine_cases s line with ⟨-, hrun⟩ | ⟨-, -, hrun⟩ | ⟨-, -, -, value, -, hrun⟩ |
    ⟨-, -, -, current, hrun, -, -⟩
  · rw [hrun]
    exact Traced.faithful_pure _
  · rw [hrun]
    exact Traced.faithful_pure _
  · rw [hrun]
    exact (faithful_iwSignal value).bind fun _ => Traced.faithful_pure _
  · rw [hrun]
    exact Traced.faithful_pure _

/-- The loop comes to its end if and only if every signal of a block can be cast. -/
theorem isSome_lines (lines : List Bytes) (s : IwState) :
    (lines.foldlM (iwLine round) s).result.isSome ↔
      ∀ value ∈ (if s.in_block = true then lines
        else lines.dropWhile fun line => !startsBlock line).filterMap iwSignalField,
        (iwSignal round value).result.isSome := by
  induction lines generalizing s with
  | nil => simp
  | cons line lines ih =>
    rw [List.foldlM_cons, Run.result_bind]
    rcases iwLine_cases s line with ⟨hstart, hrun⟩ | ⟨hstart, hin, hrun⟩ |
      ⟨-, hin, -, value, hvalue, hrun⟩ | ⟨-, hin, hnone, current, hrun, -, -⟩
    · rw [hrun, Run.result_pure, Option.bind_some, ih]
      simp [hstart, iwSignalField_of_startsBlock hstart]
    · rw [hrun, Run.result_pure, Option.bind_some, ih]
      simp [hstart, hin]
    · rw [hrun, Run.result_bind, if_pos hin, List.filterMap_cons_some hvalue, List.forall_mem_cons]
      cases hread : (iwSignal round value).result with
      | none => simp
      | some signal =>
        simp only [Option.bind_some, Run.result_pure]
        rw [ih]
        simp [hin]
    · rw [hrun, Run.result_pure, Option.bind_some, ih]
      simp [hin, hnone]

/-! ### The networks of the blocks -/

section Blocks

variable {lines block after : List Bytes} {line : Bytes}

theorem BlockThen.append (h : BlockThen lines block after) (more : List Bytes) :
    BlockThen (lines ++ more) block (after ++ more) := by
  obtain ⟨before, start, rfl, hstart, hblock⟩ := h
  exact ⟨before, start, by simp, hstart, hblock⟩

theorem BlockThen.extend (h : BlockThen lines block []) (hline : startsBlock line = false) :
    BlockThen (lines ++ [line]) (block ++ [line]) [] := by
  obtain ⟨before, start, rfl, hstart, hblock⟩ := h
  refine ⟨before, start, by simp, hstart, ?_⟩
  intro other hother
  rcases List.mem_append.mp hother with hmem | hmem
  · exact hblock other hmem
  · rwa [List.mem_singleton.mp hmem]

theorem BlockThen.start (hline : startsBlock line = true) :
    BlockThen (lines ++ [line]) [] [] :=
  ⟨lines, line, rfl, hline, by simp⟩

end Blocks

variable {read : Bytes → Option Int}

theorem Describes.snoc {network next : WifiNetwork} {block : List Bytes} {line : Bytes}
    (h : Describes read network block)
    (hssid : next.ssid = (iwSsidField line).getD network.ssid)
    (hsignal : next.signal_dbm = ((iwSignalField line).bind read).getD network.signal_dbm) :
    Describes read next (block ++ [line]) := by
  constructor
  · rw [LastWins.settle_filterMap_append, ← h.1, hssid]
  · rw [List.filterMap_filterMap, LastWins.settle_filterMap_append, ← List.filterMap_filterMap, ← h.2,
      hsignal]

/-- What the loop keeps: its networks are of blocks that are over, and the current one is of the
block that the last line stands in. -/
structure Reads (read : Bytes → Option Int) (lines : List Bytes) (s : IwState) : Prop where
  networks : ∀ network ∈ s.networks, ∃ block next after, BlockThen lines block (next :: after) ∧
    startsBlock next = true ∧ Describes read network block
  current : s.in_block = true → ∃ block, BlockThen lines block [] ∧ Describes read s.current block

theorem reads_nil : Reads read [] {} where
  networks := by simp
  current := by simp

theorem Reads.mem_pushCurrent {lines : List Bytes} {s : IwState} (h : Reads read lines s)
    {network : WifiNetwork} (hnetwork : network ∈ s.pushCurrent.networks) :
    network ∈ s.networks ∨ ∃ block, BlockThen lines block [] ∧ Describes read network block := by
  rw [IwState.pushCurrent] at hnetwork
  dsimp only at hnetwork
  split at hnetwork
  · next hin =>
    rcases List.mem_append.mp hnetwork with hmem | hmem
    · exact Or.inl hmem
    · obtain rfl := List.mem_singleton.mp hmem
      rw [Bool.and_eq_true] at hin
      obtain ⟨block, hblock, hdescribes⟩ := h.current hin.1
      exact Or.inr ⟨block, hblock, hdescribes.1, hdescribes.2⟩
  · exact Or.inl hnetwork

/-- One line keeps it, with the signals as they are read. -/
theorem Reads.step {lines : List Bytes} {s s' : IwState} {line : Bytes}
    (h : Reads (fun value => (iwSignal round value).result.join) lines s)
    (hrun : (iwLine round s line).result = some s') :
    Reads (fun value => (iwSignal round value).result.join) (lines ++ [line]) s' := by
  have hnetworks : ∀ network ∈ s.networks, ∃ block next after,
      BlockThen (lines ++ [line]) block (next :: after) ∧ startsBlock next = true ∧
        Describes (fun value => (iwSignal round value).result.join) network block := by
    intro network hnetwork
    obtain ⟨block, next, after, hblock, hnext, hdescribes⟩ := h.networks network hnetwork
    exact ⟨block, next, after ++ [line], hblock.append [line], hnext, hdescribes⟩
  rcases iwLine_cases s line with ⟨hstart, heq⟩ | ⟨-, hin, heq⟩ |
    ⟨hstart, hin, hssid, value, hvalue, heq⟩ | ⟨hstart, hin, hnone, current, heq, hssid, hsignal⟩
  · rw [heq, Run.result_pure, Option.some.injEq] at hrun
    subst hrun
    refine ⟨?_, fun _ => ⟨[], BlockThen.start hstart, rfl, rfl⟩⟩
    intro network hnetwork
    rcases h.mem_pushCurrent hnetwork with hmem | ⟨block, hblock, hdescribes⟩
    · exact hnetworks network hmem
    · exact ⟨block, line, [], hblock.append [line], hstart, hdescribes⟩
  · rw [heq, Run.result_pure, Option.some.injEq] at hrun
    subst hrun
    refine ⟨hnetworks, ?_⟩
    intro hin'
    rw [hin] at hin'
    cases hin'
  · rw [heq, Run.result_bind, Option.bind_eq_some_iff] at hrun
    obtain ⟨signal, hread, hrun⟩ := hrun
    rw [Run.result_pure, Option.some.injEq] at hrun
    subst hrun
    refine ⟨hnetworks, fun _ => ?_⟩
    obtain ⟨block, hblock, hdescribes⟩ := h.current hin
    refine ⟨block ++ [line], hblock.extend hstart, hdescribes.snoc ?_ ?_⟩
    · rw [hssid]
      rfl
    · simp [hvalue, hread]
  · rw [heq, Run.result_pure, Option.some.injEq] at hrun
    subst hrun
    refine ⟨hnetworks, fun _ => ?_⟩
    obtain ⟨block, hblock, hdescribes⟩ := h.current hin
    refine ⟨block ++ [line], hblock.extend hstart, hdescribes.snoc hssid ?_⟩
    rw [hnone]
    exact hsignal

theorem describes_of_scanWithIw {sort : SignalSort} {output : Bytes} {networks : List WifiNetwork}
    (h : (scanWithIw round sort output).result = some networks) {network : WifiNetwork}
    (hnetwork : network ∈ networks) : ∃ block, IsBlock (splitLines output) block ∧
      Describes (fun value => (iwSignal round value).result.join) network block := by
  rw [scanWithIw, Run.result_bind, Option.bind_eq_some_iff] at h
  obtain ⟨s, hlines, h⟩ := h
  rw [Run.result_pure, Option.some.injEq] at h
  subst h
  have hreads : Reads (fun value => (iwSignal round value).result.join) (splitLines output) s :=
    Run.foldlM_invariant reads_nil (fun _ _ _ _ h hrun => h.step hrun) hlines
  have hmem := (mem_deduplicateStrongest.mp hnetwork).2.mem
  rcases hreads.mem_pushCurrent hmem with hmem | ⟨block, hblock, hdescribes⟩
  · obtain ⟨block, next, after, hblock, hnext, hdescribes⟩ := hreads.networks network hmem
    exact ⟨block, ⟨_, hblock, by simpa using hnext⟩, hdescribes⟩
  · exact ⟨block, ⟨[], hblock, by simp⟩, hdescribes⟩

/-! ### What is said of an output -/

theorem isSome_iwSignal {value : Bytes} :
    (iwSignal round value).result.isSome ↔ ∀ v, spelledNumber round value = some v → HasInt v := by
  rw [result_iwSignal]
  cases spelledNumber round value with
  | none =>
    by_cases hstr : cStr value = []
    · simp [hstr]
    · simp [hstr]
  | some v => simp [HasInt]

theorem faithful_scanWithIw (sort : SignalSort) (output : Bytes) :
    Traced.Faithful HasInt (scanWithIw round sort output) :=
  (Traced.faithful_foldlM faithful_iwLine _ _).bind fun _ => Traced.faithful_pure _

/-- Every cast has an `int` if and only if every number in the place of a signal has one. -/
theorem scanWithIw_casts_iff {sort : SignalSort} {output : Bytes} :
    (∀ v ∈ (scanWithIw round sort output).events, HasInt v) ↔
      ∀ value ∈ iwSignalFields output, ∀ v, spelledNumber round value = some v → HasInt v := by
  have hfaithful : Traced.Faithful HasInt (scanWithIw round sort output) :=
    faithful_scanWithIw sort output
  have hlines : (scanWithIw round sort output).result.isSome ↔
      ((splitLines output).foldlM (iwLine round) {}).result.isSome := by
    rw [scanWithIw, Run.result_bind]
    cases ((splitLines output).foldlM (iwLine round) {}).result with
    | none => simp
    | some s => simp
  rw [Traced.Faithful, hlines, isSome_lines] at hfaithful
  simpa [isSome_iwSignal, iwSignalFields] using hfaithful.symm

/-- The signals of a block are among those of the output. -/
theorem mem_of_blockThen {lines block after : List Bytes} (h : BlockThen lines block after)
    {line : Bytes} (hline : line ∈ block) :
    line ∈ lines.dropWhile fun line => !startsBlock line := by
  obtain ⟨before, start, rfl, hstart, -⟩ := h
  rw [List.dropWhile_append]
  split
  · simp [hstart, hline]
  · simp [hline]

theorem Describes.congr {read read' : Bytes → Option Int} {network : WifiNetwork}
    {block : List Bytes} (h : Describes read network block)
    (hread : ∀ value ∈ block.filterMap iwSignalField, read value = read' value) :
    Describes read' network block := by
  refine ⟨h.1, ?_⟩
  rw [h.2, List.filterMap_congr hread]

/-- What is said of an output of `iw`: every cast has an `int`, a value is its own number without
the fraction or else leaves the signal, and a network has the last signal of its block. -/
structure ReadsIw (round : ℚ → Option ℚ) (sort : SignalSort) (output : Bytes) : Prop where
  casts : ∀ v ∈ (scanWithIw round sort output).events, HasInt v
  fields : ∀ value ∈ iwSignalFields output,
    (iwSignal round value).result = some (iwReading round value)
  networks : ∃ networks, (scanWithIw round sort output).result = some networks ∧
    ∀ network ∈ networks, ∃ block, IsBlock (splitLines output) block ∧
      Describes (iwReading round) network block

theorem readsIw_iff {sort : SignalSort} {output : Bytes} :
    ReadsIw round sort output ↔ ∀ value ∈ iwSignalFields output, IwFits round value := by
  constructor
  · intro h value hvalue
    exact iwSignal_eq_iff.mp (h.fields value hvalue)
  · intro h
    have hcasts : ∀ v ∈ (scanWithIw round sort output).events, HasInt v :=
      scanWithIw_casts_iff.mpr fun value hvalue => (h value hvalue).1
    obtain ⟨networks, hresult⟩ :=
      Option.isSome_iff_exists.mp ((faithful_scanWithIw sort output).mpr hcasts)
    refine ⟨hcasts, ?_, networks, hresult, ?_⟩
    · intro value hvalue
      exact iwSignal_eq_iff.mpr (h value hvalue)
    · intro network hnetwork
      obtain ⟨block, hblock, hdescribes⟩ := describes_of_scanWithIw hresult hnetwork
      refine ⟨block, hblock, hdescribes.congr ?_⟩
      intro value hvalue
      obtain ⟨line, hline, hfield⟩ := List.mem_filterMap.mp hvalue
      obtain ⟨after, hthen, -⟩ := hblock
      have hmem : value ∈ iwSignalFields output :=
        List.mem_filterMap.mpr ⟨line, mem_of_blockThen hthen hline, hfield⟩
      rw [iwSignal_eq_iff.mpr (h value hmem)]
      rfl

end Iw

/-! ## 7. Numbers from outside -/

/-- The numbers that `HandlePostCoreConfig` reads. -/
def intKeys : List Bytes :=
  [bytes "mqtt_port", bytes "volume_bell", bytes "volume_notifications", bytes "volume_other"]

/-- The number at a key of a posted object. -/
def postedNumber (body key : Bytes) : Option ℚ :=
  (parseJson body).toOption.bind fun object => fieldNumber object key

/-- What is said of the body of a POST. -/
def ReadsBody (body : Bytes) : Prop :=
  ∀ object, parseJson body = .ok object → ∀ key ∈ intKeys, ReadsInt object key

/-- The posted numbers are those of `int`s. -/
def BodyFits (body : Bytes) : Prop :=
  ∀ key ∈ intKeys, ∀ value, postedNumber body key = some value → IsIntValue value

theorem postedNumber_eq_some_iff {body key : Bytes} {value : ℚ} :
    postedNumber body key = some value ↔
      ∃ object, parseJson body = .ok object ∧ fieldNumber object key = some value := by
  rw [postedNumber]
  cases parseJson body with
  | error message => simp [Except.toOption]
  | ok object => simp [Except.toOption]

theorem readsBody_iff {body : Bytes} : ReadsBody body ↔ BodyFits body := by
  constructor
  · intro h key hkey value hvalue
    obtain ⟨object, hparse, hfield⟩ := postedNumber_eq_some_iff.mp hvalue
    exact readsInt_iff.mp (h object hparse key hkey) value hfield
  · intro h object hparse key hkey
    rw [readsInt_iff]
    intro value hfield
    exact h key hkey value (postedNumber_eq_some_iff.mpr ⟨object, hparse, hfield⟩)

/-- Numbers from outside are read as they should be from just the inputs whose numbers fit. -/
theorem conversions_iff (long : LongRange) (round : ℚ → Option ℚ) (sort : SignalSort)
    (body wpa iw : Bytes) :
    (ReadsBody body ↔ BodyFits body) ∧
      (ReadsWpa long wpa ↔ ∀ field ∈ wpaSignalFields wpa, WpaFits field) ∧
      (ReadsIw round sort iw ↔ ∀ value ∈ iwSignalFields iw, IwFits round value) :=
  ⟨readsBody_iff, readsWpa_iff, readsIw_iff⟩

/-- A port that is no `int` is cast, and so is a signal that is no number. -/
theorem port_cast :
    ¬ ReadsBody (bytes "\x7b\"mqtt_port\":3000000000\x7d") ∧
      ∀ sort, ¬ ReadsIw Binary64.round sort (bytes "BSS x\n\tsignal: nan\n") := by
  constructor
  · have hport : postedNumber (bytes "\x7b\"mqtt_port\":3000000000\x7d") (bytes "mqtt_port") =
        some 3000000000 := by
      decide +kernel
    obtain ⟨object, hparse, hfield⟩ := postedNumber_eq_some_iff.mp hport
    have hnone : toInt (.finite 3000000000) = none := by decide +kernel
    intro h
    have hcasts := (h object hparse _ (List.mem_cons_self ..)).casts
    rw [events_readRequiredInt, hfield] at hcasts
    have hint := hcasts _ (List.mem_singleton_self _)
    rw [HasInt, hnone] at hint
    cases hint
  · intro sort h
    have hfits := readsIw_iff.mp h (bytes "nan") (by decide +kernel)
    have hnan := hfits.1 .nan (by decide +kernel)
    cases hnan

end VirtualChime.Webd.Casts
