import Mathlib.Data.Nat.Digits.Lemmas
import Mathlib.Tactic
import VirtualChime.Library.Scanner

/-!
# Byte strings and the C library functions the programs use

A `std::string` is a list of bytes.  This module has `vc::config::trim`, the
`std::getline` loop, `std::strtol` in base 10, `std::to_string` and `std::tolower`
as the sources call them, with the facts the later modules use: a printed number
is read back by `strtol`, and trimming a `key=value` line trims its value.
-/

namespace VirtualChime

abbrev Byte := UInt8
abbrev Bytes := List Byte

/-- The bytes of an ASCII literal of the sources. -/
def bytes (s : String) : Bytes := s.toList.map fun c => UInt8.ofNat c.toNat

abbrev newline : Byte := 10
abbrev carriageReturn : Byte := 13
abbrev comma : Byte := 44
abbrev equals : Byte := 61
abbrev hash : Byte := 35
abbrev slash : Byte := 47

/-- What holds of the 256 bytes holds of every byte. -/
theorem byte_forall {P : Byte → Prop} (h : ∀ n < 256, P (UInt8.ofNat n)) (b : Byte) : P b := by
  have hb := h b.toNat b.toNat_lt
  rwa [UInt8.ofNat_toNat] at hb

/-! ### Trimming -/

/-- The characters `" \t\r\n"` of `trim`. -/
def isBlank (c : Byte) : Bool := c == 32 || c == 9 || c == 13 || c == 10

def trim (input : Bytes) : Bytes := Scanner.strip isBlank input

@[simp] theorem trim_nil : trim [] = [] := rfl

theorem trim_trim (s : Bytes) : trim (trim s) = trim s := Scanner.strip_strip s

theorem trim_eq_nil_iff {s : Bytes} : trim s = [] ↔ ∀ c ∈ s, isBlank c = true :=
  Scanner.strip_eq_nil_iff

theorem mem_of_mem_trim {c : Byte} {s : Bytes} (h : c ∈ trim s) : c ∈ s :=
  Scanner.mem_of_mem_strip h

theorem trim_eq_self_of_forall {s : Bytes} (h : ∀ c ∈ s, isBlank c = false) : trim s = s :=
  Scanner.strip_eq_self_iff.mpr
    ⟨fun _ => h _ (List.head_mem _), fun _ => h _ (List.getLast_mem _)⟩

theorem trim_append_cons {a : Bytes} {x : Byte} (hne : a ≠ []) (ha : trim a = a)
    (hx : isBlank x = false) (b : Bytes) :
    trim (a ++ x :: b) = a ++ x :: b.rdropWhile isBlank :=
  Scanner.strip_append_cons hne ha hx b

theorem trim_rdropWhile (s : Bytes) : trim (s.rdropWhile isBlank) = trim s :=
  Scanner.strip_rdropWhile s

/-! ### Lines -/

/-- The lines `while (std::getline(file, line))` yields on a file with these bytes. -/
def getlines (text : Bytes) : List Bytes := Scanner.lines newline text

theorem newline_not_mem_of_mem_getlines {text line : Bytes} (h : line ∈ getlines text) :
    newline ∉ line :=
  Scanner.not_mem_of_mem_lines h

/-- The part of a text before its first line end. -/
def firstLine (text : Bytes) : Bytes := (text.splitOn newline).headD []

/-- The lines of a text after the first. -/
def laterLines (text : Bytes) : List Bytes := (text.splitOn newline).tail

theorem splitOn_newline (text : Bytes) :
    text.splitOn newline = firstLine text :: laterLines text := by
  unfold firstLine laterLines
  obtain ⟨l, ls, h⟩ := List.exists_cons_of_ne_nil (List.splitOn_ne_nil newline text)
  rw [h]
  rfl

theorem splitOn_newline_of_not_mem {text : Bytes} (h : newline ∉ text) :
    text.splitOn newline = [text] := List.splitOn_eq_singleton h

theorem firstLine_of_not_mem {text : Bytes} (h : newline ∉ text) : firstLine text = text := by
  rw [firstLine, splitOn_newline_of_not_mem h]
  rfl

theorem laterLines_of_not_mem {text : Bytes} (h : newline ∉ text) : laterLines text = [] := by
  rw [laterLines, splitOn_newline_of_not_mem h]
  rfl

theorem newline_not_mem_firstLine (text : Bytes) : newline ∉ firstLine text := by
  apply Scanner.not_mem_of_mem_splitOn (s := text)
  rw [splitOn_newline]
  exact List.mem_cons_self ..

theorem splitOn_newline_append {a : Bytes} (ha : newline ∉ a) (b : Bytes) :
    (a ++ b).splitOn newline = (a ++ firstLine b) :: laterLines b := by
  induction a with
  | nil => exact splitOn_newline b
  | cons c a ih =>
    have hc : c ≠ newline := fun h => ha (by simp [h])
    have hmem : newline ∉ a := fun h => ha (List.mem_cons_of_mem _ h)
    rw [List.cons_append, List.splitOn_cons_eq_if_modifyHead, if_neg (by simpa using hc), ih hmem]
    rfl

/-! ### C strings and numbers -/

/-- The part of a `std::string` a callee of `c_str()` sees: everything before the first NUL. -/
def cStr (s : Bytes) : Bytes := s.takeWhile (· != 0)

/-- `std::isspace` in the C locale, which `strtol` skips. -/
def isSpace (c : Byte) : Bool :=
  c == 32 || c == 9 || c == 10 || c == 11 || c == 12 || c == 13

def isDigit (c : Byte) : Bool := decide (48 ≤ c.toNat) && decide (c.toNat ≤ 57)

/-- `LONG_MIN` and `LONG_MAX` of the target, a 32-bit ARM. -/
def longMin : Int := -2147483648
def longMax : Int := 2147483647

def digitsValue (ds : Bytes) : Nat := ds.foldl (fun n d => 10 * n + (d.toNat - 48)) 0

/-- An optional sign: whether it is a minus, and what follows it. -/
def splitSign : Bytes → Bool × Bytes
  | 45 :: rest => (true, rest)
  | 43 :: rest => (false, rest)
  | s => (false, s)

/-- `std::strtol(s.c_str(), &end, 10)`: the value, saturated, and the text at `end`. -/
def strtol (s : Bytes) : Int × Bytes :=
  let text := cStr s
  let (negative, unsigned) := splitSign (text.dropWhile isSpace)
  let digits := unsigned.takeWhile isDigit
  if digits.isEmpty then (0, text)
  else
    let value : Int := digitsValue digits
    (max longMin (min longMax (if negative then -value else value)), unsigned.drop digits.length)

/-- `std::to_string` of an unsigned value. -/
def natDecimal (n : Nat) : Bytes :=
  if n = 0 then [48] else (Nat.digits 10 n).reverse.map fun d => UInt8.ofNat (48 + d)

/-- `std::to_string` of an `int`. -/
def toDecimal (n : Int) : Bytes :=
  if n < 0 then 45 :: natDecimal n.natAbs else natDecimal n.toNat

theorem isDigit_ofNat {d : Nat} (h : d < 10) : isDigit (UInt8.ofNat (48 + d)) = true := by
  have hlt : 48 + d < 256 := by omega
  simp [isDigit, UInt8.toNat_ofNat', Nat.mod_eq_of_lt hlt]
  omega

theorem natDecimal_digits {n : Nat} {c : Byte} (h : c ∈ natDecimal n) : isDigit c = true := by
  simp only [natDecimal] at h
  split at h
  · simp only [List.mem_singleton] at h
    subst h
    decide
  · obtain ⟨d, hd, rfl⟩ := List.mem_map.mp h
    exact isDigit_ofNat (Nat.digits_lt_base (by omega) (List.mem_reverse.mp hd))

theorem natDecimal_ne_nil (n : Nat) : natDecimal n ≠ [] := by
  simp only [natDecimal]
  split
  · simp
  · simp [Nat.digits_ne_nil_iff_ne_zero, *]

theorem foldl_digits (l : List Nat) (h : ∀ d ∈ l, d < 10) :
    digitsValue (l.reverse.map fun d => UInt8.ofNat (48 + d)) = Nat.ofDigits 10 l := by
  simp only [digitsValue]
  rw [List.foldl_map, List.foldl_reverse, Nat.ofDigits_eq_foldr]
  induction l with
  | nil => rfl
  | cons d l ih =>
    have hd : d < 10 := h d (List.mem_cons_self ..)
    have hmod : (48 + d) % 256 = 48 + d := Nat.mod_eq_of_lt (by omega)
    rw [List.foldr_cons, List.foldr_cons, ih fun x hx => h x (List.mem_cons_of_mem _ hx)]
    simp [UInt8.toNat_ofNat', hmod]
    omega

theorem digitsValue_natDecimal (n : Nat) : digitsValue (natDecimal n) = n := by
  simp only [natDecimal]
  split
  · next h => rw [h]; decide
  · rw [foldl_digits _ fun d hd => Nat.digits_lt_base (by omega) hd, Nat.ofDigits_digits]

theorem not_isSpace_of_isDigit {c : Byte} (h : isDigit c = true) :
    isSpace c = false ∧ isBlank c = false ∧ c ≠ 0 ∧ c ≠ 45 ∧ c ≠ 43 ∧ c ≠ newline := by
  simp only [isDigit, Bool.and_eq_true, decide_eq_true_eq] at h
  have hne : ∀ k : Byte, k.toNat < 48 → c ≠ k := by
    rintro k hk rfl
    omega
  have hnl : c ≠ newline := hne newline (by decide)
  simp [isSpace, isBlank, hne, hnl]

theorem splitSign_of_isDigit {c : Byte} (hc : isDigit c = true) (s : Bytes) :
    splitSign (c :: s) = (false, c :: s) := by
  obtain ⟨-, -, -, hminus, hplus, -⟩ := not_isSpace_of_isDigit hc
  simp only [splitSign]
  split
  · next heq => exact absurd (List.cons.inj heq).1 hminus
  · next heq => exact absurd (List.cons.inj heq).1 hplus
  · rfl

theorem splitSign_natDecimal (n : Nat) : splitSign (natDecimal n) = (false, natDecimal n) := by
  obtain ⟨c, s, hcs⟩ := List.exists_cons_of_ne_nil (natDecimal_ne_nil n)
  have hc : isDigit c = true := natDecimal_digits (by rw [hcs]; exact List.mem_cons_self ..)
  rw [hcs]
  exact splitSign_of_isDigit hc s

theorem strtol_natDecimal {n : Nat} (h : (n : Int) ≤ longMax) :
    strtol (natDecimal n) = ((n : Int), []) := by
  have hdig : ∀ c ∈ natDecimal n, isDigit c = true := fun c hc => natDecimal_digits hc
  have hstr : cStr (natDecimal n) = natDecimal n := by
    apply List.takeWhile_eq_self_iff.mpr
    intro d hd
    simp [(not_isSpace_of_isDigit (hdig d hd)).2.2.1]
  have hbody : (natDecimal n).dropWhile isSpace = natDecimal n := by
    obtain ⟨c, s, hcs⟩ := List.exists_cons_of_ne_nil (natDecimal_ne_nil n)
    have hc := (not_isSpace_of_isDigit (hdig c (by rw [hcs]; exact List.mem_cons_self ..))).1
    rw [hcs, List.dropWhile_cons, if_neg (by simp [hc])]
  have htake : (natDecimal n).takeWhile isDigit = natDecimal n :=
    List.takeWhile_eq_self_iff.mpr hdig
  have hmin : longMin ≤ (n : Int) := by unfold longMin; omega
  simp only [strtol]
  simp only [hstr, hbody, splitSign_natDecimal, htake, digitsValue_natDecimal]
  simp [natDecimal_ne_nil, min_eq_right h, max_eq_right hmin]

theorem toDecimal_of_nonneg {n : Int} (h : 0 ≤ n) : toDecimal n = natDecimal n.toNat := by
  rw [toDecimal, if_neg (by omega)]

theorem strtol_toDecimal {n : Int} (h0 : 0 ≤ n) (h : n ≤ longMax) :
    strtol (toDecimal n) = (n, []) := by
  have hn : ((n.toNat : Nat) : Int) = n := Int.toNat_of_nonneg h0
  rw [toDecimal_of_nonneg h0, strtol_natDecimal (by omega), hn]

/-- A number in the range of a `long` is read back, whatever its sign. -/
theorem strtol_toDecimal_of_long {n : Int} (h0 : longMin ≤ n) (h : n ≤ longMax) :
    strtol (toDecimal n) = (n, []) := by
  rcases le_or_gt 0 n with hn | hn
  · exact strtol_toDecimal hn h
  · have hdig : ∀ c ∈ natDecimal n.natAbs, isDigit c = true := fun c hc => natDecimal_digits hc
    have hstr : cStr (45 :: natDecimal n.natAbs) = 45 :: natDecimal n.natAbs := by
      apply List.takeWhile_eq_self_iff.mpr
      intro d hd
      rcases List.mem_cons.mp hd with rfl | hd
      · decide
      · simp [(not_isSpace_of_isDigit (hdig d hd)).2.2.1]
    have hbody : (45 :: natDecimal n.natAbs).dropWhile isSpace = 45 :: natDecimal n.natAbs := by
      rw [List.dropWhile_cons, if_neg (by decide)]
    have htake : (natDecimal n.natAbs).takeWhile isDigit = natDecimal n.natAbs :=
      List.takeWhile_eq_self_iff.mpr hdig
    rw [toDecimal, if_pos hn]
    simp only [strtol]
    simp only [hstr, hbody, splitSign, htake, digitsValue_natDecimal]
    simp [natDecimal_ne_nil, abs_of_neg hn, min_eq_right h, max_eq_right h0]

theorem toDecimal_clean {n : Int} {c : Byte} (h : c ∈ toDecimal n) :
    isBlank c = false ∧ c ≠ newline := by
  have hdigit : ∀ {m : Nat}, c ∈ natDecimal m → isBlank c = false ∧ c ≠ newline := by
    intro m hm
    obtain ⟨-, hb, -, -, -, hnl⟩ := not_isSpace_of_isDigit (natDecimal_digits hm)
    exact ⟨hb, hnl⟩
  simp only [toDecimal] at h
  split at h
  · rcases List.mem_cons.mp h with rfl | h
    · decide
    · exact hdigit h
  · exact hdigit h

theorem trim_toDecimal (n : Int) : trim (toDecimal n) = toDecimal n :=
  trim_eq_self_of_forall fun _ hc => (toDecimal_clean hc).1

theorem newline_not_mem_toDecimal (n : Int) : newline ∉ toDecimal n :=
  fun h => (toDecimal_clean h).2 rfl

theorem toDecimal_ne_nil (n : Int) : toDecimal n ≠ [] := by
  simp only [toDecimal]
  split
  · simp
  · exact natDecimal_ne_nil _

/-- The value of a hexadecimal digit. -/
def hexDigit (c : Byte) : Option Nat :=
  if 48 ≤ c.toNat ∧ c.toNat ≤ 57 then some (c.toNat - 48)
  else if 65 ≤ c.toNat ∧ c.toNat ≤ 70 then some (c.toNat - 55)
  else if 97 ≤ c.toNat ∧ c.toNat ≤ 102 then some (c.toNat - 87)
  else none

/-- `std::tolower` in the C locale. -/
def toLower (c : Byte) : Byte := if 65 ≤ c.toNat ∧ c.toNat ≤ 90 then c + 32 else c

end VirtualChime
