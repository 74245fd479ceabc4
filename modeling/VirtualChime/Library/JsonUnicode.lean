import VirtualChime.Library.JsonText
import VirtualChime.Library.KeyMap

/-!
# What JSON texts denote

A string of a JSON text encodes a sequence of Unicode characters: each of them as it is
in UTF-8, by a short escape, by a `\u` escape, or by two of these as a surrogate pair
(`Encodes`).  A text denotes a `Document` over such strings, in which a number is what
rounding makes of it and an object is a map; `Reading.unicode` is the reader.
-/

namespace JsonText

/-! ### UTF-8 -/

def utf8 (u : List Char) : Text := u.flatMap String.utf8EncodeChar

@[simp] theorem utf8_nil : utf8 [] = [] := rfl

@[simp] theorem utf8_cons (c : Char) (u : List Char) :
    utf8 (c :: u) = String.utf8EncodeChar c ++ utf8 u := rfl

theorem utf8_injective : Function.Injective utf8 := by
  intro u u' h
  have hbytes : (String.ofList u).toByteArray = (String.ofList u').toByteArray := by
    rw [String.toByteArray_ofList, String.toByteArray_ofList]
    exact congrArg List.toByteArray h
  exact String.ofList_injective (String.toByteArray_inj.mp hbytes)

theorem utf8EncodeChar_of_lt {c : Char} (h : c.toNat < 128) :
    String.utf8EncodeChar c = [UInt8.ofNat c.toNat] := by
  have hle : c.val.toNat ≤ 127 := Nat.le_of_lt_succ h
  unfold String.utf8EncodeChar
  exact if_pos hle

/-! ### Encodings -/

def hexDigitValue (c : UInt8) : ℕ :=
  if isDigit c then c.toNat - 48 else if c.toNat ≤ 70 then c.toNat - 55 else c.toNat - 87

/-- The code unit that hexadecimal digits write. -/
def codeUnit (ds : Text) : ℕ := ds.foldl (fun n d => 16 * n + hexDigitValue d) 0

/-- The bytes of a text, each for itself. -/
def Literal (ps : List Piece) (t : Text) : Prop :=
  List.Forall₂ (fun p b => ∃ ok, p = .byte b ok) ps t

inductive Encodes : List Char → List Piece → Prop where
  | nil : Encodes [] []
  | literal {c : Char} {u : List Char} {qs ps : List Piece}
      (bytes : Literal qs (String.utf8EncodeChar c)) (rest : Encodes u ps) :
      Encodes (c :: u) (qs ++ ps)
  | short {c : Char} {u : List Char} {letter meaning : UInt8} {ps : List Piece}
      (ok : shortEscape letter = some meaning) (char : c.toNat = meaning.toNat)
      (rest : Encodes u ps) : Encodes (c :: u) (.short letter meaning ok :: ps)
  | unit {c : Char} {u : List Char} {ds : Text} {ps : List Piece} (ok : ds.length = 4)
      (hex : HexDigits ds) (char : c.toNat = codeUnit ds) (rest : Encodes u ps) :
      Encodes (c :: u) (.unicode ds ok :: ps)
  | pair {c : Char} {u : List Char} {ds ds' : Text} {ps : List Piece} (ok : ds.length = 4)
      (ok' : ds'.length = 4) (hex : HexDigits ds) (hex' : HexDigits ds')
      (high : 0xD800 ≤ codeUnit ds ∧ codeUnit ds < 0xDC00)
      (low : 0xDC00 ≤ codeUnit ds' ∧ codeUnit ds' < 0xE000)
      (char : c.toNat = 0x10000 + (codeUnit ds - 0xD800) * 0x400 + (codeUnit ds' - 0xDC00))
      (rest : Encodes u ps) : Encodes (c :: u) (.unicode ds ok :: .unicode ds' ok' :: ps)

/-! ### Values -/

/-- A JSON value over strings `K`. -/
inductive Document (K : Type) where
  | null
  | bool (b : Bool)
  | number (q : ℚ)
  | string (k : K)
  | array (vs : List (Document K))
  | object (ms : List (K × Document K))

/-- The reader of values: `round` is what it makes of a number, and `before` the order of names
that makes two lists of the same members one map. -/
def Reading.unicode (round : ℚ → Option ℚ) (before : List Char → List Char → Bool) :
    Reading (List Char) (Document (List Char)) where
  null := .null
  bool := .bool
  number n v := ∃ q, round n.value = some q ∧ v = .number q
  string ps u := Encodes u ps
  text := .string
  array := .array
  object ms := .object (KeyMap.ofList before ms)

end JsonText
