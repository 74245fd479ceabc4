import VirtualChime.Library.Scanner
import VirtualChime.Library.Streams

/-!
# Messages with a head and a counted body

An HTTP message is a start line, header fields and a body, whose length one of the
fields gives.  `decode` reads a message from a stream; it reads back what `encode`
writes, whatever follows (`decode_encode`), and nothing from a part of it that is cut
off (`decode_eq_none_of_prefix`): the end of a body does not depend on its bytes.
-/

namespace HttpMessage

open Streams

abbrev Octets := List UInt8

/-! ## 1. Messages -/

structure Message where
  start : Octets
  fields : List (Octets × Octets)
  body : Octets
deriving DecidableEq, Repr

def crlf : Octets := [13, 10]

def encodeField (field : Octets × Octets) : Octets := field.1 ++ 58 :: 32 :: field.2

def headLines (m : Message) : List Octets := m.start :: m.fields.map encodeField

def encode (m : Message) : Octets :=
  ((headLines m).flatMap fun line => line ++ crlf) ++ crlf ++ m.body

/-! ## 2. Reading -/

/-- The lines before the first empty line, and what follows that. -/
def takeHead : ℕ → Octets → Option (List Octets × Octets)
  | 0, _ => none
  | fuel + 1, s =>
      match cutAt crlf s with
      | none => none
      | some (line, rest) =>
          if line = [] then some ([], rest)
          else (takeHead fuel rest).map fun (lines, rest) => (line :: lines, rest)

/-- The white space around a field value. -/
def isBlank (c : UInt8) : Bool := c == 32 || c == 9

def lower (c : UInt8) : UInt8 := if 65 ≤ c ∧ c ≤ 90 then c + 32 else c

def decodeField (line : Octets) : Option (Octets × Octets) :=
  (Scanner.cut 58 line).map fun (name, value) => (name, Scanner.strip isBlank value)

/-- The value of the first field with a name, which is compared without regard to case. -/
def field (name : Octets) (fields : List (Octets × Octets)) : Option Octets :=
  (fields.find? fun f => f.1.map lower = name).map (·.2)

def isDigit (c : UInt8) : Bool := decide (48 ≤ c ∧ c ≤ 57)

def decimal (text : Octets) : Option ℕ :=
  if text ≠ [] ∧ text.all isDigit then
    some (text.foldl (fun n d => 10 * n + (d.toNat - 48)) 0)
  else none

/-- `content-length` -/
def contentLength : Octets := [99, 111, 110, 116, 101, 110, 116, 45, 108, 101, 110, 103, 116, 104]

def bodyLength (fields : List (Octets × Octets)) : Option ℕ :=
  (field contentLength fields).bind decimal

/-- The message at the beginning of a stream and what follows it, once it is complete. -/
def decode (s : Octets) : Option (Message × Octets) :=
  match takeHead (s.length + 1) s with
  | some (start :: lines, rest) =>
      (lines.mapM decodeField).bind fun fields =>
        (bodyLength fields).bind fun length =>
          if rest.length < length then none
          else some (⟨start, fields, rest.take length⟩, rest.drop length)
  | _ => none

/-- The code in a status line, its second word. -/
def statusCode (start : Octets) : Option ℕ :=
  (Scanner.cut 32 start).bind fun (_, rest) =>
    (Scanner.cut 32 rest).bind fun (code, _) => decimal code

theorem statusCode_line {version code : Octets} (hversion : 32 ∉ version) (hcode : 32 ∉ code)
    (reason : Octets) : statusCode (version ++ 32 :: (code ++ 32 :: reason)) = decimal code := by
  rw [statusCode, Scanner.cut_append hversion, Option.bind_some]
  dsimp only
  rw [Scanner.cut_append hcode, Option.bind_some]

/-! ## 3. Round trip -/

/-- A line that does not look like two, nor like the end of the head. -/
def IsLine (line : Octets) : Prop := line ≠ [] ∧ 13 ∉ line

/-- What a message must keep to for its head to be read back. -/
structure WellFormed (m : Message) : Prop where
  start : IsLine m.start
  name : ∀ f ∈ m.fields, 58 ∉ f.1 ∧ 13 ∉ f.1
  value : ∀ f ∈ m.fields, 13 ∉ f.2 ∧ Scanner.strip isBlank f.2 = f.2
  length : bodyLength m.fields = some m.body.length

theorem strip_cons_blank {c : UInt8} (hc : isBlank c = true) (value : Octets) :
    Scanner.strip isBlank (c :: value) = Scanner.strip isBlank value := by
  rw [Scanner.strip, List.dropWhile_cons, if_pos hc]
  rfl

theorem decodeField_encodeField {f : Octets × Octets} (hname : 58 ∉ f.1)
    (hvalue : Scanner.strip isBlank f.2 = f.2) : decodeField (encodeField f) = some f := by
  rw [decodeField, encodeField, Scanner.cut_append hname, Option.map_some]
  dsimp only
  rw [strip_cons_blank (by decide), hvalue]

theorem mapM_decodeField {fields : List (Octets × Octets)} (hname : ∀ f ∈ fields, 58 ∉ f.1)
    (hvalue : ∀ f ∈ fields, Scanner.strip isBlank f.2 = f.2) :
    (fields.map encodeField).mapM decodeField = some fields := by
  induction fields with
  | nil => rfl
  | cons f fields ih =>
    obtain ⟨hname, hnames⟩ := List.forall_mem_cons.mp hname
    obtain ⟨hvalue, hvalues⟩ := List.forall_mem_cons.mp hvalue
    rw [List.map_cons, List.mapM_cons, decodeField_encodeField hname hvalue, ih hnames hvalues]
    rfl

/-- The lines of a head are read back, whatever follows the empty line. -/
theorem takeHead_lines {lines : List Octets} (h : ∀ line ∈ lines, IsLine line) (rest : Octets)
    {fuel : ℕ} (hfuel : lines.length < fuel) :
    takeHead fuel ((lines.flatMap fun line => line ++ crlf) ++ crlf ++ rest) =
      some (lines, rest) := by
  induction lines generalizing fuel with
  | nil =>
    obtain ⟨fuel, rfl⟩ := Nat.exists_eq_succ_of_ne_zero (Nat.ne_of_gt (Nat.zero_lt_of_lt hfuel))
    rw [takeHead]
    rfl
  | cons line lines ih =>
    obtain ⟨hline, hlines⟩ := List.forall_mem_cons.mp h
    obtain ⟨fuel, rfl⟩ := Nat.exists_eq_succ_of_ne_zero (Nat.ne_of_gt (Nat.zero_lt_of_lt hfuel))
    have hcut : cutAt crlf (((line :: lines).flatMap fun line => line ++ crlf) ++ crlf ++ rest) =
        some (line, (lines.flatMap fun line => line ++ crlf) ++ crlf ++ rest) := by
      rw [List.flatMap_cons]
      simp only [List.append_assoc]
      rw [← List.append_assoc]
      exact cutAt_of_not_mem hline.2 _
    rw [takeHead, hcut]
    dsimp only
    rw [if_neg hline.1, ih hlines (Nat.lt_of_succ_lt_succ hfuel)]
    rfl

theorem isLine_encodeField {f : Octets × Octets} (hname : 13 ∉ f.1) (hvalue : 13 ∉ f.2) :
    IsLine (encodeField f) := by
  constructor
  · exact List.append_ne_nil_of_right_ne_nil _ (List.cons_ne_nil _ _)
  · simp [encodeField, hname, hvalue]

theorem WellFormed.isLine {m : Message} (h : WellFormed m) :
    ∀ line ∈ headLines m, IsLine line := by
  intro line hline
  rcases List.mem_cons.mp hline with rfl | hline
  · exact h.start
  · obtain ⟨f, hf, rfl⟩ := List.mem_map.mp hline
    exact isLine_encodeField (h.name f hf).2 (h.value f hf).1

theorem length_headLines_lt (m : Message) (rest : Octets) :
    (headLines m).length < (encode m ++ rest).length + 1 := by
  have hlines : ∀ lines : List Octets,
      lines.length ≤ (lines.flatMap fun line => line ++ crlf).length := by
    intro lines
    induction lines with
    | nil => exact Nat.le_refl 0
    | cons line lines ih =>
      rw [List.flatMap_cons, List.length_append, List.length_append, List.length_cons]
      have hcrlf : crlf.length = 2 := rfl
      omega
  have := hlines (headLines m)
  rw [encode, List.length_append, List.length_append, List.length_append]
  omega

/-- A message that is written is read back, and what follows it is left over. -/
theorem decode_encode {m : Message} (h : WellFormed m) (rest : Octets) :
    decode (encode m ++ rest) = some (m, rest) := by
  have hhead : takeHead ((encode m ++ rest).length + 1) (encode m ++ rest) =
      some (headLines m, m.body ++ rest) := by
    have hsplit : encode m ++ rest =
        ((headLines m).flatMap fun line => line ++ crlf) ++ crlf ++ (m.body ++ rest) := by
      rw [encode, List.append_assoc _ m.body]
    have hfuel := length_headLines_lt m rest
    rw [hsplit] at hfuel ⊢
    exact takeHead_lines h.isLine _ hfuel
  have hfields : (m.fields.map encodeField).mapM decodeField = some m.fields :=
    mapM_decodeField (fun f hf => (h.name f hf).1) (fun f hf => (h.value f hf).2)
  rw [decode, hhead, headLines]
  dsimp only
  rw [hfields, Option.bind_some, h.length, Option.bind_some, if_neg (by simp)]
  simp

/-! ## 4. A message that is cut off -/

theorem takeHead_append {fuel : ℕ} {s : Octets} {lines : List Octets} {rest : Octets}
    (h : takeHead fuel s = some (lines, rest)) (more : ℕ) (t : Octets) :
    takeHead (fuel + more) (s ++ t) = some (lines, rest ++ t) := by
  induction fuel generalizing s lines with
  | zero => cases h
  | succ fuel ih =>
    rw [takeHead] at h
    rw [Nat.succ_add, takeHead]
    cases hcut : cutAt crlf s with
    | none =>
      rw [hcut] at h
      cases h
    | some found =>
      obtain ⟨line, after⟩ := found
      rw [hcut] at h
      rw [cutAt_append hcut t]
      dsimp only at h ⊢
      split at h
      · next hnil =>
        cases h
        rw [if_pos hnil]
      · next hne =>
        obtain ⟨⟨lines', rest'⟩, hhead, heq⟩ := Option.map_eq_some_iff.mp h
        cases heq
        rw [if_neg hne, ih hhead]
        rfl

/-- What comes later does not change the message that was read. -/
theorem decode_append {s rest : Octets} {m : Message} (h : decode s = some (m, rest))
    (t : Octets) : decode (s ++ t) = some (m, rest ++ t) := by
  rw [decode] at h
  split at h
  · next start lines after hhead =>
    obtain ⟨fields, hfields, h⟩ := Option.bind_eq_some_iff.mp h
    obtain ⟨length, hlength, h⟩ := Option.bind_eq_some_iff.mp h
    split at h
    · cases h
    · next hle =>
      cases h
      have hlonger : takeHead ((s ++ t).length + 1) (s ++ t) =
          some (start :: lines, after ++ t) := by
        rw [List.length_append, Nat.add_right_comm]
        exact takeHead_append hhead t.length t
      have hle' : length ≤ after.length := not_lt.mp hle
      rw [decode, hlonger]
      dsimp only
      rw [hfields, Option.bind_some, hlength, Option.bind_some,
        if_neg (by rw [List.length_append]; omega), List.take_append_of_le_length hle',
        List.drop_append_of_le_length hle']
  · cases h

/-- From a part of a message nothing is read. -/
theorem decode_eq_none_of_prefix {m : Message} (h : WellFormed m) {s : Octets}
    (hpart : s <+: encode m) (hne : s ≠ encode m) : decode s = none := by
  obtain ⟨t, ht⟩ := hpart
  cases hdecode : decode s with
  | none => rfl
  | some found =>
    obtain ⟨m', rest⟩ := found
    have hwhole := decode_append hdecode t
    have hread := decode_encode h []
    rw [List.append_nil] at hread
    rw [ht, hread] at hwhole
    have hnil : rest ++ t = [] := (congrArg Prod.snd (Option.some.inj hwhole)).symm
    obtain ⟨-, rfl⟩ := List.append_eq_nil_iff.mp hnil
    rw [List.append_nil] at ht
    exact absurd ht hne

end HttpMessage
