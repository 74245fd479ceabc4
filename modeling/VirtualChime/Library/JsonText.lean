import Mathlib.Data.List.TakeWhile
import Mathlib.Data.Rat.Floor
import Mathlib.Tactic

/-!
# JSON texts

The grammar of JSON at the level of bytes.  `Spells R p t` says that the text `t`
is a value (or the inside of an array or of an object) and that a reader `R` makes
`p` of it: the reader says which numbers and strings it takes and how it builds its
own values, so that one grammar serves for acceptance (`Reading.accepting`) and for
every way of reading.  Two readers are compared by a homomorphism (`Spells.map`).
Inside strings every byte from `0x20` on is allowed but the quotation mark and the
reverse solidus.
-/

namespace JsonText

abbrev Text := List UInt8

abbrev quotationMark : UInt8 := 34
abbrev reverseSolidus : UInt8 := 92
abbrev beginArray : UInt8 := 91
abbrev endArray : UInt8 := 93
abbrev beginObject : UInt8 := 123
abbrev endObject : UInt8 := 125
abbrev nameSeparator : UInt8 := 58
abbrev valueSeparator : UInt8 := 44

/-! ### White space -/

/-- Space, tab, line feed and carriage return. -/
def isWs (c : UInt8) : Bool := c == 32 || c == 10 || c == 13 || c == 9

def Ws (w : Text) : Prop := ∀ c ∈ w, isWs c = true

theorem ws_nil : Ws [] := by
  intro c hc
  cases hc

/-- What follows begins with no white space. -/
def NoWs (t : Text) : Prop := ∀ c ∈ t.head?, isWs c = false

theorem dropWhile_ws {w t : Text} (hw : Ws w) (ht : NoWs t) : (w ++ t).dropWhile isWs = t := by
  rw [List.dropWhile_append_of_pos hw]
  cases t with
  | nil => rfl
  | cons c t => rw [List.dropWhile_cons_of_neg (by simp [ht c rfl])]

theorem ws_takeWhile (t : Text) : Ws (t.takeWhile isWs) := fun _ hc => List.mem_takeWhile_imp hc

/-! ### Numbers -/

def isDigit (c : UInt8) : Bool := decide (48 ≤ c.toNat) && decide (c.toNat ≤ 57)

/-- A run of digits with at least one. -/
def Digits (ds : Text) : Prop := ds ≠ [] ∧ ∀ c ∈ ds, isDigit c = true

def digitsValue (ds : Text) : ℕ := ds.foldl (fun n d => 10 * n + (d.toNat - 48)) 0

structure Exponent where
  letter : UInt8
  sign : Text
  digits : Text
  letter_ok : letter = 101 ∨ letter = 69
  sign_ok : sign = [] ∨ sign = [43] ∨ sign = [45]
  digits_ok : Digits digits

def Exponent.text (e : Exponent) : Text := e.letter :: (e.sign ++ e.digits)

def Exponent.value (e : Exponent) : ℤ :=
  if e.sign = [45] then -digitsValue e.digits else digitsValue e.digits

/-- A number: no zero leads the whole part unless it is zero. -/
structure Decimal where
  negative : Bool
  whole : Text
  fraction : Option Text
  exponent : Option Exponent
  whole_ok : whole = [48] ∨ Digits whole ∧ whole.head? ≠ some 48
  fraction_ok : ∀ ds ∈ fraction, Digits ds

namespace Decimal

def minusText (n : Decimal) : Text := if n.negative then [45] else []

def fractionText (n : Decimal) : Text := n.fraction.elim [] fun ds => 46 :: ds

def exponentText (n : Decimal) : Text := n.exponent.elim [] Exponent.text

def text (n : Decimal) : Text :=
  n.minusText ++ (n.whole ++ (n.fractionText ++ n.exponentText))

def magnitude (n : Decimal) : ℚ :=
  let fraction := n.fraction.getD []
  digitsValue (n.whole ++ fraction) *
    10 ^ ((n.exponent.elim 0 Exponent.value) - (fraction.length : ℤ))

def value (n : Decimal) : ℚ := if n.negative then -n.magnitude else n.magnitude

theorem digits_whole (n : Decimal) : Digits n.whole := by
  rcases n.whole_ok with h | ⟨h, -⟩
  · rw [h]
    refine ⟨List.cons_ne_nil _ _, ?_⟩
    intro c hc
    rw [List.mem_singleton.mp hc]
    rfl
  · exact h

end Decimal

/-! ### Strings -/

/-- What a reverse solidus and this byte stand for. -/
def shortEscape (c : UInt8) : Option UInt8 :=
  if c = 34 ∨ c = 92 ∨ c = 47 then some c
  else if c = 98 then some 8
  else if c = 102 then some 12
  else if c = 110 then some 10
  else if c = 114 then some 13
  else if c = 116 then some 9
  else none

def Unescaped (c : UInt8) : Prop := 32 ≤ c.toNat ∧ c ≠ quotationMark ∧ c ≠ reverseSolidus

instance (c : UInt8) : Decidable (Unescaped c) :=
  inferInstanceAs (Decidable (32 ≤ c.toNat ∧ c ≠ quotationMark ∧ c ≠ reverseSolidus))

/-- One piece of a string: a byte, a short escape, or the four bytes of a long one. -/
inductive Piece where
  | byte (c : UInt8) (ok : Unescaped c)
  | short (c meaning : UInt8) (ok : shortEscape c = some meaning)
  | unicode (digits : Text) (ok : digits.length = 4)

def Piece.text : Piece → Text
  | .byte c _ => [c]
  | .short c _ _ => [reverseSolidus, c]
  | .unicode digits _ => reverseSolidus :: 117 :: digits

def quoted (ps : List Piece) : Text :=
  quotationMark :: (ps.flatMap Piece.text ++ [quotationMark])

/-- The digits of the long escapes of a string. -/
def longEscapes (ps : List Piece) : List Text :=
  ps.filterMap fun
    | .unicode digits _ => some digits
    | _ => none

def isHexDigit (c : UInt8) : Bool :=
  isDigit c || decide (65 ≤ c.toNat) && decide (c.toNat ≤ 70) ||
    decide (97 ≤ c.toNat) && decide (c.toNat ≤ 102)

def HexDigits (ds : Text) : Prop := ∀ c ∈ ds, isHexDigit c = true

instance (ds : Text) : Decidable (HexDigits ds) :=
  inferInstanceAs (Decidable (∀ c ∈ ds, isHexDigit c = true))

/-! ### Values -/

/-- What a reader takes, and what it makes of it: `K` are its strings and `V` its values. -/
structure Reading (K V : Type) where
  null : V
  bool : Bool → V
  number : Decimal → V → Prop
  string : List Piece → K → Prop
  text : K → V
  array : List V → V
  object : List (K × V) → V

/-- A value, or the inside of an array or of an object. -/
inductive Part (K V : Type) where
  | value (v : V)
  | items (vs : List V)
  | members (ms : List (K × V))

section Grammar

variable {K V : Type}

inductive Spells (R : Reading K V) : Part K V → Text → Prop where
  | null : Spells R (.value R.null) [110, 117, 108, 108]
  | true : Spells R (.value (R.bool true)) [116, 114, 117, 101]
  | false : Spells R (.value (R.bool false)) [102, 97, 108, 115, 101]
  | number {v : V} (n : Decimal) (takes : R.number n v) : Spells R (.value v) n.text
  | string {ps : List Piece} {k : K} (takes : R.string ps k) :
      Spells R (.value (R.text k)) (quoted ps)
  | emptyArray {w : Text} (ws : Ws w) :
      Spells R (.value (R.array [])) (beginArray :: (w ++ [endArray]))
  | array {w t : Text} {vs : List V} (ws : Ws w) (inside : Spells R (.items vs) t) :
      Spells R (.value (R.array vs)) (beginArray :: (w ++ (t ++ [endArray])))
  | emptyObject {w : Text} (ws : Ws w) :
      Spells R (.value (R.object [])) (beginObject :: (w ++ [endObject]))
  | object {w t : Text} {ms : List (K × V)} (ws : Ws w) (inside : Spells R (.members ms) t) :
      Spells R (.value (R.object ms)) (beginObject :: (w ++ (t ++ [endObject])))
  | lastItem {v : V} {t w : Text} (item : Spells R (.value v) t) (ws : Ws w) :
      Spells R (.items [v]) (t ++ w)
  | item {v : V} {vs : List V} {t w w' t' : Text} (item : Spells R (.value v) t) (ws : Ws w)
      (ws' : Ws w') (rest : Spells R (.items vs) t') :
      Spells R (.items (v :: vs)) (t ++ (w ++ valueSeparator :: (w' ++ t')))
  | lastMember {ps : List Piece} {k : K} {v : V} {w w' t w'' : Text} (key : R.string ps k)
      (ws : Ws w) (ws' : Ws w') (value : Spells R (.value v) t) (ws'' : Ws w'') :
      Spells R (.members [(k, v)]) (quoted ps ++ (w ++ nameSeparator :: (w' ++ (t ++ w''))))
  | member {ps : List Piece} {k : K} {v : V} {ms : List (K × V)} {w w' t w'' w₃ t' : Text}
      (key : R.string ps k) (ws : Ws w) (ws' : Ws w') (value : Spells R (.value v) t)
      (ws'' : Ws w'') (ws₃ : Ws w₃) (rest : Spells R (.members ms) t') :
      Spells R (.members ((k, v) :: ms))
        (quoted ps ++
          (w ++ nameSeparator :: (w' ++ (t ++ (w'' ++ valueSeparator :: (w₃ ++ t'))))))

/-- A JSON text: a value with white space about it. -/
def IsText (R : Reading K V) (v : V) (s : Text) : Prop :=
  ∃ w t w', Ws w ∧ Ws w' ∧ s = w ++ (t ++ w') ∧ Spells R (.value v) t

/-! ### Comparing readers -/

variable {K' V' : Type}

def Part.map (k : K → K') (f : V → V') : Part K V → Part K' V'
  | .value v => .value (f v)
  | .items vs => .items (vs.map f)
  | .members ms => .members (ms.map fun m => (k m.1, f m.2))

/-- What the second reader makes of a text is the image of what the first one does. -/
structure Reading.Hom (R : Reading K V) (R' : Reading K' V') (k : K → K') (f : V → V') : Prop where
  null : f R.null = R'.null
  bool : ∀ b, f (R.bool b) = R'.bool b
  number : ∀ n v, R.number n v → R'.number n (f v)
  string : ∀ ps s, R.string ps s → R'.string ps (k s)
  text : ∀ s, f (R.text s) = R'.text (k s)
  array : ∀ vs, f (R.array vs) = R'.array (vs.map f)
  object : ∀ ms, f (R.object ms) = R'.object (ms.map fun m => (k m.1, f m.2))

theorem Spells.map {R : Reading K V} {R' : Reading K' V'} {k : K → K'} {f : V → V'}
    (hom : R.Hom R' k f) {p : Part K V} {t : Text} (h : Spells R p t) :
    Spells R' (p.map k f) t := by
  induction h with
  | null => simpa only [Part.map, hom.null] using Spells.null
  | true => simpa only [Part.map, hom.bool] using Spells.true
  | false => simpa only [Part.map, hom.bool] using Spells.false
  | number n takes => exact Spells.number n (hom.number n _ takes)
  | string takes => simpa only [Part.map, hom.text] using Spells.string (hom.string _ _ takes)
  | emptyArray ws => simpa only [Part.map, hom.array, List.map_nil] using Spells.emptyArray ws
  | array ws _ ih => simpa only [Part.map, hom.array] using Spells.array ws ih
  | emptyObject ws => simpa only [Part.map, hom.object, List.map_nil] using Spells.emptyObject ws
  | object ws _ ih => simpa only [Part.map, hom.object] using Spells.object ws ih
  | lastItem _ ws ih => exact Spells.lastItem ih ws
  | item _ ws ws' _ ihItem ihRest => exact Spells.item ihItem ws ws' ihRest
  | lastMember key ws ws' _ ws'' ih =>
    exact Spells.lastMember (hom.string _ _ key) ws ws' ih ws''
  | member key ws ws' _ ws'' ws₃ _ ihValue ihRest =>
    exact Spells.member (hom.string _ _ key) ws ws' ihValue ws'' ws₃ ihRest

theorem IsText.map {R : Reading K V} {R' : Reading K' V'} {k : K → K'} {f : V → V'}
    (hom : R.Hom R' k f) {v : V} {s : Text} (h : IsText R v s) : IsText R' (f v) s := by
  obtain ⟨w, t, w', hw, hw', heq, hspells⟩ := h
  exact ⟨w, t, w', hw, hw', heq, hspells.map hom⟩

/-- Every number and string that the first reader takes, the second one takes. -/
structure Reading.Covers (R' : Reading K' V') (R : Reading K V) : Prop where
  number : ∀ n v, R.number n v → ∃ v', R'.number n v'
  string : ∀ ps s, R.string ps s → ∃ s', R'.string ps s'

/-- The reader makes something of the text, as a part of the same kind. -/
def Part.Read (R' : Reading K' V') (t : Text) : Part K V → Prop
  | .value _ => ∃ v, Spells R' (.value v) t
  | .items _ => ∃ vs, Spells R' (.items vs) t
  | .members _ => ∃ ms, Spells R' (.members ms) t

theorem Spells.read {R : Reading K V} {R' : Reading K' V'} (covers : R'.Covers R) {p : Part K V}
    {t : Text} (h : Spells R p t) : p.Read R' t := by
  induction h with
  | null => exact ⟨_, Spells.null⟩
  | true => exact ⟨_, Spells.true⟩
  | false => exact ⟨_, Spells.false⟩
  | number n takes =>
    obtain ⟨v', hv'⟩ := covers.number n _ takes
    exact ⟨_, Spells.number n hv'⟩
  | string takes =>
    obtain ⟨s', hs'⟩ := covers.string _ _ takes
    exact ⟨_, Spells.string hs'⟩
  | emptyArray ws => exact ⟨_, Spells.emptyArray ws⟩
  | array ws _ ih =>
    obtain ⟨vs, hvs⟩ := ih
    exact ⟨_, Spells.array ws hvs⟩
  | emptyObject ws => exact ⟨_, Spells.emptyObject ws⟩
  | object ws _ ih =>
    obtain ⟨ms, hms⟩ := ih
    exact ⟨_, Spells.object ws hms⟩
  | lastItem _ ws ih =>
    obtain ⟨v, hv⟩ := ih
    exact ⟨_, Spells.lastItem hv ws⟩
  | item _ ws ws' _ ihItem ihRest =>
    obtain ⟨v, hv⟩ := ihItem
    obtain ⟨vs, hvs⟩ := ihRest
    exact ⟨_, Spells.item hv ws ws' hvs⟩
  | lastMember key ws ws' _ ws'' ih =>
    obtain ⟨k, hk⟩ := covers.string _ _ key
    obtain ⟨v, hv⟩ := ih
    exact ⟨_, Spells.lastMember hk ws ws' hv ws''⟩
  | member key ws ws' _ ws'' ws₃ _ ihValue ihRest =>
    obtain ⟨k, hk⟩ := covers.string _ _ key
    obtain ⟨v, hv⟩ := ihValue
    obtain ⟨ms, hms⟩ := ihRest
    exact ⟨_, Spells.member hk ws ws' hv ws'' ws₃ hms⟩

theorem IsText.read {R : Reading K V} {R' : Reading K' V'} (covers : R'.Covers R) {v : V}
    {s : Text} (h : IsText R v s) : ∃ v', IsText R' v' s := by
  obtain ⟨w, t, w', hw, hw', heq, hspells⟩ := h
  obtain ⟨v', hv'⟩ := hspells.read covers
  exact ⟨v', w, t, w', hw, hw', heq, hv'⟩

/-! ### The first byte of a value -/

/-- A byte that begins a value. -/
def Starts (c : UInt8) : Prop := isWs c = false ∧ c ≠ endArray ∧ c ≠ endObject

instance (c : UInt8) : Decidable (Starts c) :=
  inferInstanceAs (Decidable (isWs c = false ∧ c ≠ endArray ∧ c ≠ endObject))

theorem starts_of_isDigit {c : UInt8} (h : isDigit c = true) : Starts c := by
  have hrange : 48 ≤ c.toNat ∧ c.toNat ≤ 57 := by simpa [isDigit] using h
  have hne : ∀ d : UInt8, d.toNat < 48 ∨ 57 < d.toNat → c ≠ d := by
    intro d hd heq
    rw [heq] at hrange
    omega
  refine ⟨?_, hne endArray (by decide), hne endObject (by decide)⟩
  simp [isWs, hne 32 (by decide), hne 10 (by decide), hne 13 (by decide), hne 9 (by decide)]

theorem Decimal.head_text (n : Decimal) :
    ∃ c t, n.text = c :: t ∧ (c = 45 ∨ isDigit c = true) := by
  obtain ⟨hne, hdigits⟩ := n.digits_whole
  obtain ⟨c, ds, hwhole⟩ := List.exists_cons_of_ne_nil hne
  unfold Decimal.text Decimal.minusText
  split
  · exact ⟨45, _, rfl, Or.inl rfl⟩
  · rw [hwhole]
    exact ⟨c, _, rfl, Or.inr (hdigits c (by rw [hwhole]; exact List.mem_cons_self ..))⟩

theorem Spells.head {R : Reading K V} {p : Part K V} {t : Text} (h : Spells R p t) :
    ∃ c u, t = c :: u ∧ Starts c := by
  induction h with
  | null => exact ⟨_, _, rfl, by decide⟩
  | true => exact ⟨_, _, rfl, by decide⟩
  | false => exact ⟨_, _, rfl, by decide⟩
  | number n takes =>
    obtain ⟨c, u, htext, hc⟩ := n.head_text
    refine ⟨c, u, htext, ?_⟩
    rcases hc with rfl | hc
    · decide
    · exact starts_of_isDigit hc
  | string takes => exact ⟨_, _, rfl, by decide⟩
  | emptyArray ws => exact ⟨_, _, rfl, by decide⟩
  | array ws inside => exact ⟨_, _, rfl, by decide⟩
  | emptyObject ws => exact ⟨_, _, rfl, by decide⟩
  | object ws inside => exact ⟨_, _, rfl, by decide⟩
  | lastItem _ ws ih =>
    obtain ⟨c, u, rfl, hc⟩ := ih
    exact ⟨c, _, rfl, hc⟩
  | item _ ws ws' _ ih _ =>
    obtain ⟨c, u, rfl, hc⟩ := ih
    exact ⟨c, _, rfl, hc⟩
  | lastMember key ws ws' value ws'' => exact ⟨_, _, rfl, by decide⟩
  | member key ws ws' value ws'' ws₃ rest => exact ⟨_, _, rfl, by decide⟩

theorem Spells.noWs_append {R : Reading K V} {p : Part K V} {t : Text} (h : Spells R p t)
    (rest : Text) : NoWs (t ++ rest) := by
  obtain ⟨c, u, rfl, hc, -, -⟩ := h.head
  intro d hd
  rw [← Option.some.inj hd]
  exact hc

theorem Spells.length_pos {R : Reading K V} {p : Part K V} {t : Text} (h : Spells R p t) :
    0 < t.length := by
  obtain ⟨c, u, rfl, -⟩ := h.head
  exact Nat.succ_pos _

end Grammar

/-! ### Acceptance -/

/-- The reader that only accepts: these long escapes and these numbers. -/
def Reading.accepting (digits : Text → Prop) (number : Decimal → Prop) : Reading Unit Unit where
  null := ()
  bool _ := ()
  number n _ := number n
  string ps _ := ∀ ds ∈ longEscapes ps, digits ds
  text _ := ()
  array _ := ()
  object _ := ()

theorem Reading.hom_accepting {K V : Type} {R : Reading K V} {digits : Text → Prop}
    {number : Decimal → Prop} (hnumber : ∀ n v, R.number n v → number n)
    (hstring : ∀ ps k, R.string ps k → ∀ ds ∈ longEscapes ps, digits ds) :
    R.Hom (accepting digits number) (fun _ => ()) (fun _ => ()) where
  null := rfl
  bool _ := rfl
  number n v h := hnumber n v h
  string ps k h := hstring ps k h
  text _ := rfl
  array _ := rfl
  object _ := rfl

/-- The reader that takes a string only if its long escapes are such. -/
def Reading.restrict {K V : Type} (R : Reading K V) (digits : Text → Prop) : Reading K V where
  null := R.null
  bool := R.bool
  number := R.number
  string ps k := R.string ps k ∧ ∀ ds ∈ longEscapes ps, digits ds
  text := R.text
  array := R.array
  object := R.object

/-- What it takes, it takes as before. -/
theorem Reading.hom_restrict {K V : Type} (R : Reading K V) (digits : Text → Prop) :
    (R.restrict digits).Hom R id id where
  null := rfl
  bool _ := rfl
  number _ _ h := h
  string _ _ h := h.1
  text _ := rfl
  array vs := by rw [List.map_id]; rfl
  object ms := congrArg R.object (List.map_id ms).symm

/-- A JSON text, as far as its numbers are these. -/
def IsJson (number : Decimal → Prop) (s : Text) : Prop :=
  IsText (.accepting HexDigits number) () s

end JsonText
