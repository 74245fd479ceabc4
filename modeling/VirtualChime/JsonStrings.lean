import VirtualChime.CoreConfigApi
import VirtualChime.JsonAcceptance
import VirtualChime.Library.JsonUnicode

/-!
# The strings that arrive

The bytes `ParseJson` makes of a string are its UTF-8 text if the string has no `\u`
escape from U+0080 on; each of those escapes arrives as a question mark.  Two bodies
without such escapes that denote one value are therefore one request to the store
(`strings_arrive`).
-/

namespace VirtualChime.Webd

open JsonText

/-! ## 1. One string -/

/-- The byte that arrives of a piece of a string. -/
def arrivingByte : Piece → Byte
  | .byte c _ => c
  | .short _ meaning _ => meaning
  | .unicode digits _ => if codeUnit digits < 128 then UInt8.ofNat (codeUnit digits) else 63

theorem hexDigitValue_eq {c : Byte} (h : JsonText.isHexDigit c = true) :
    hexDigitValue c = (hexDigit c).getD 0 := by
  unfold JsonText.isHexDigit JsonText.isDigit at h
  unfold hexDigitValue JsonText.isDigit hexDigit
  simp only [Bool.or_eq_true, Bool.and_eq_true, decide_eq_true_eq] at h ⊢
  split
  · next hdigit => rw [Option.getD_some]
  · next hdigit =>
    split
    · next hupper => rw [if_pos (by omega), Option.getD_some]
    · next hupper => rw [if_neg (by omega), if_pos (by omega), Option.getD_some]

theorem codeUnit_eq {ds : Bytes} (h : HexDigits ds) : codeUnit ds = hexValue ds := by
  unfold codeUnit hexValue
  apply List.foldl_ext
  intro n d hd
  rw [hexDigitValue_eq (h d hd)]

theorem pieceByte_unicode {ds : Bytes} (ok : ds.length = 4) (hex : HexDigits ds) :
    pieceByte (.unicode ds ok) = some (arrivingByte (.unicode ds ok)) := by
  rw [pieceByte, unicodeEscape_of_hexDigits hex ok, arrivingByte, codeUnit_eq hex]

theorem decodes_literal {qs : List Piece} {t : Bytes} (h : Literal qs t) : Decodes qs t := by
  apply h.imp
  rintro p b ⟨ok, rfl⟩
  rfl

theorem map_literal {qs : List Piece} {t : Bytes} (h : Literal qs t) :
    qs.map arrivingByte = t := by
  induction h with
  | nil => rfl
  | cons hp _ ih =>
    obtain ⟨ok, rfl⟩ := hp
    rw [List.map_cons, ih]
    rfl

/-- The parser reads every encoding, byte by byte as `arrivingByte` says. -/
theorem decodes_arriving {u : List Char} {ps : List Piece} (h : Encodes u ps) :
    Decodes ps (ps.map arrivingByte) := by
  induction h with
  | nil => exact List.Forall₂.nil
  | @literal c u qs ps hbytes _ ih =>
    rw [List.map_append, map_literal hbytes]
    exact List.rel_append (decodes_literal hbytes) ih
  | short ok _ _ ih => exact List.Forall₂.cons rfl ih
  | unit ok hex _ _ ih => exact List.Forall₂.cons (pieceByte_unicode ok hex) ih
  | pair ok ok' hex hex' _ _ _ _ ih =>
    exact List.Forall₂.cons (pieceByte_unicode ok hex)
      (List.Forall₂.cons (pieceByte_unicode ok' hex') ih)

theorem shortEscape_lt {letter meaning : Byte} (h : shortEscape letter = some meaning) :
    meaning.toNat < 128 := by
  have hmeaning : meaning ∈ [34, 92, 47, 8, 12, 10, 13, 9] := by
    unfold shortEscape at h
    grind
  have hall : ∀ c ∈ ([34, 92, 47, 8, 12, 10, 13, 9] : Bytes), c.toNat < 128 := by decide +kernel
  exact hall meaning hmeaning

/-- Escapes below U+0080 arrive as the characters they stand for. -/
theorem arriving_of_encodes {u : List Char} {ps : List Piece} (h : Encodes u ps)
    (ascii : ∀ ds ∈ longEscapes ps, codeUnit ds < 128) : ps.map arrivingByte = utf8 u := by
  induction h with
  | nil => rfl
  | @literal c u qs ps hbytes _ ih =>
    rw [List.map_append, map_literal hbytes, utf8_cons, ih]
    intro ds hds
    apply ascii
    rw [longEscapes, List.filterMap_append]
    exact List.mem_append_right _ hds
  | @short c u letter meaning ps ok hchar _ ih =>
    have hlt : c.toNat < 128 := by
      rw [hchar]
      exact shortEscape_lt ok
    rw [List.map_cons, utf8_cons, utf8EncodeChar_of_lt hlt, ih ascii, hchar, arrivingByte,
      UInt8.ofNat_toNat]
    rfl
  | @unit c u ds ps ok hex hchar _ ih =>
    have hlt : codeUnit ds < 128 := ascii ds (List.mem_cons_self ..)
    rw [List.map_cons, utf8_cons, utf8EncodeChar_of_lt (hchar ▸ hlt),
      ih fun ds' hds => ascii ds' (List.mem_cons_of_mem _ hds), hchar, arrivingByte, if_pos hlt]
    rfl
  | @pair c u ds ds' ps ok ok' hex hex' high low hchar _ ih =>
    have hlt : codeUnit ds < 128 := ascii ds (List.mem_cons_self ..)
    omega

/-! ## 2. One value -/

/-- The order in which the members of an object are kept. -/
def nameBefore (a b : List Char) : Bool := keyBefore (utf8 a) (utf8 b)

/-- The body is JSON that denotes this value, its numbers as doubles. -/
def Denotes (v : Document (List Char)) (body : Bytes) : Prop :=
  IsText (.unicode Binary64.round nameBefore) v body

/-- No `\u` escape of the body stands for a code unit from U+0080 on. -/
def AsciiEscapes (body : Bytes) : Prop := ∀ ds ∈ unicodeEscapes body, codeUnit ds < 128

instance (body : Bytes) : Decidable (AsciiEscapes body) :=
  inferInstanceAs (Decidable (∀ ds ∈ unicodeEscapes body, codeUnit ds < 128))

mutual

/-- A value with its strings in UTF-8. -/
def parsed : Document (List Char) → JsonValue
  | .null => .null
  | .bool b => .bool b
  | .number q => .number q
  | .string u => .string (utf8 u)
  | .array vs => .array (parsedItems vs)
  | .object ms => .object (parsedMembers ms)

def parsedItems : List (Document (List Char)) → List JsonValue
  | [] => []
  | v :: vs => parsed v :: parsedItems vs

def parsedMembers : List (List Char × Document (List Char)) → List (Bytes × JsonValue)
  | [] => []
  | (u, v) :: ms => (utf8 u, parsed v) :: parsedMembers ms

end

theorem parsedItems_eq (vs : List (Document (List Char))) : parsedItems vs = vs.map parsed := by
  induction vs with
  | nil => rfl
  | cons v vs ih => rw [parsedItems, ih, List.map_cons]

theorem parsedMembers_eq (ms : List (List Char × Document (List Char))) :
    parsedMembers ms = ms.map fun m => (utf8 m.1, parsed m.2) := by
  induction ms with
  | nil => rfl
  | cons m ms ih =>
    obtain ⟨u, v⟩ := m
    rw [parsedMembers, ih, List.map_cons]

/-- Where only strings without an escape from U+0080 on are taken, the parser reads what the text
denotes. -/
theorem hom_parsed :
    ((Reading.unicode Binary64.round nameBefore).restrict fun ds => codeUnit ds < 128).Hom
      parserReading utf8 parsed where
  null := by rw [Reading.restrict, Reading.unicode, parsed, parserReading]
  bool b := by rw [Reading.restrict, Reading.unicode, parsed, parserReading]
  number n v := by
    rintro ⟨q, hround, rfl⟩
    exact ⟨q, hround, by rw [parsed]⟩
  string ps u := by
    rintro ⟨hencodes, hascii⟩
    have hdecodes := decodes_arriving hencodes
    rw [arriving_of_encodes hencodes hascii] at hdecodes
    exact hdecodes
  text u := by rw [Reading.restrict, Reading.unicode, parsed, parserReading]
  array vs := by rw [Reading.restrict, Reading.unicode, parsed, parserReading, parsedItems_eq]
  object ms := by
    have hmap : (KeyMap.ofList nameBefore ms).map (fun m => (utf8 m.1, parsed m.2)) =
        KeyMap.ofList keyBefore (ms.map fun m => (utf8 m.1, parsed m.2)) :=
      KeyMap.map_ofList parsed utf8_injective (fun _ _ => rfl) ms
    rw [Reading.restrict, Reading.unicode, parsed, parserReading, parsedMembers_eq, hmap]
    rfl

theorem parseJson_of_denotes {v : Document (List Char)} {body : Bytes} (h : Denotes v body)
    (hascii : AsciiEscapes body) : parseJson body = .ok (parsed v) := by
  apply (parseJson_eq_ok_iff _ _).mpr
  exact ((escapes_of_isText h).2 _ hascii).map hom_parsed

/-! ## 3. The request -/

/-- The request that a POST hands to `SaveCoreConfig`, if it gets so far. -/
def postedRequest (store : ConfigStore) (body : Bytes) (faults : PostFaults) (disk : Disk) :
    Option SaveRequest :=
  match parseJson body with
  | .ok (.object items) =>
      let (fields, parse_errors) := readPostedFields (.object items)
      if !parse_errors.isEmpty then none
      else
        match existingForPaths store fields faults disk with
        | .error _ => none
        | .ok existing => some (saveRequestOf fields existing)
  | _ => none

/-- A POST that hands over no request leaves the files alone. -/
theorem disk_of_no_request {store : ConfigStore} {body : Bytes} {faults : PostFaults} {disk : Disk}
    (h : postedRequest store body faults disk = none) (apply : ApplyReport) :
    (handlePostCoreConfig store body faults apply disk).2 = disk := by
  unfold postedRequest at h
  unfold handlePostCoreConfig
  split at h
  · next items hparse =>
    rw [hparse]
    simp only [postObject] at h ⊢
    split
    · rfl
    · next hvalid =>
      rw [if_neg hvalid] at h
      cases hexisting : existingForPaths store (readPostedFields (.object items)).1 faults disk with
      | error message => rfl
      | ok existing =>
        rw [hexisting] at h
        cases h
  · next hnot =>
    split
    · rfl
    · next items hparse => exact (hnot items hparse).elim
    · rfl

/-- Every encoding of a Unicode string is parsed to its UTF-8 text, except that each `\u` escape
from U+0080 on gives a question mark.  Two bodies without such escapes that denote one value make
the same request and leave the same files, and a body that is no JSON text with numbers in the
range of the doubles makes none. -/
theorem strings_arrive :
    (∀ (u : List Char) (ps : List Piece) (w w' : Bytes), Encodes u ps → Ws w → Ws w' →
      parseJson (w ++ (quoted ps ++ w')) = .ok (.string (ps.map arrivingByte)) ∧
        ((∀ ds ∈ longEscapes ps, codeUnit ds < 128) → ps.map arrivingByte = utf8 u)) ∧
    (∀ (v : Document (List Char)) (body body' : Bytes), Denotes v body → Denotes v body' →
      AsciiEscapes body → AsciiEscapes body' →
      parseJson body = parseJson body' ∧
        ∀ (store : ConfigStore) (faults : PostFaults) (apply : ApplyReport) (disk : Disk),
          postedRequest store body faults disk = postedRequest store body' faults disk ∧
          handlePostCoreConfig store body faults apply disk =
            handlePostCoreConfig store body' faults apply disk) ∧
    (∀ body : Bytes, (∀ ds ∈ unicodeEscapes body, HexDigits ds) → ¬ IsJson FiniteDouble body →
      ∀ (store : ConfigStore) (faults : PostFaults) (apply : ApplyReport) (disk : Disk),
        postedRequest store body faults disk = none ∧
        (handlePostCoreConfig store body faults apply disk).2 = disk) := by
  refine ⟨?_, ?_, ?_⟩
  · intro u ps w w' hencodes hw hw'
    refine ⟨?_, arriving_of_encodes hencodes⟩
    apply (parseJson_eq_ok_iff _ _).mpr
    exact ⟨w, quoted ps, w', hw, hw', rfl,
      @Spells.string _ _ parserReading ps _ (decodes_arriving hencodes)⟩
  · intro v body body' hbody hbody' hascii hascii'
    have hparse : parseJson body = parseJson body' := by
      rw [parseJson_of_denotes hbody hascii, parseJson_of_denotes hbody' hascii']
    refine ⟨hparse, ?_⟩
    intro store faults apply disk
    constructor
    · rw [postedRequest, postedRequest, hparse]
    · rw [handlePostCoreConfig, handlePostCoreConfig, hparse]
  · intro body hhex hnot store faults apply disk
    have hrequest : postedRequest store body faults disk = none := by
      unfold postedRequest
      cases hparse : parseJson body with
      | error message => rfl
      | ok v =>
        have hlax : IsLaxJson body := (parse_accepts_lax body).mp ⟨v, hparse⟩
        exact absurd (isText_accepting hlax hhex) hnot
    exact ⟨hrequest, disk_of_no_request hrequest apply⟩

/-- The letter `é` written as an escape arrives as a question mark. -/
theorem escaped_letter_lost :
    Encodes [Char.ofNat 233] [.unicode (bytes "00e9") rfl] ∧
      parseJson (quoted [.unicode (bytes "00e9") rfl]) ≠ .ok (.string (utf8 [Char.ofNat 233])) := by
  constructor
  · exact Encodes.unit rfl (by decide +kernel) (by decide) Encodes.nil
  · have hdecodes : Decodes [.unicode (bytes "00e9") rfl] [63] :=
      List.Forall₂.cons (by decide +kernel) List.Forall₂.nil
    have hstring : parseJson (quoted [.unicode (bytes "00e9") rfl]) = .ok (.string [63]) := by
      apply (parseJson_eq_ok_iff _ _).mpr
      refine ⟨[], _, [], ws_nil, ws_nil, ?_, @Spells.string _ _ parserReading _ _ hdecodes⟩
      rw [List.nil_append, List.append_nil]
    rw [hstring]
    intro h
    have heq : ([63] : Bytes) = utf8 [Char.ofNat 233] :=
      JsonValue.string.inj (Except.ok.inj h)
    exact absurd heq (by decide)

/-- `"A"` written with an escape, and an object whose name is written in two ways. -/
theorem strings_arrive_sample :
    parseJson (quoted [.unicode (bytes "0041") rfl]) = .ok (.string [65]) ∧
      parseJson (bytes "\x7b\"A\":\"A\"\x7d") =
        parseJson (bytes "\x7b\"A\":\"\\u0041\"\x7d") := by
  obtain ⟨hone, hsame, -⟩ := strings_arrive
  have hescaped : Encodes [Char.ofNat 65] [.unicode (bytes "0041") rfl] :=
    Encodes.unit rfl (by decide +kernel) (by decide) Encodes.nil
  have hliteral : Literal [.byte 65 (by decide)] (String.utf8EncodeChar (Char.ofNat 65)) :=
    List.Forall₂.cons ⟨_, rfl⟩ List.Forall₂.nil
  have hplain : Encodes [Char.ofNat 65] [.byte 65 (by decide)] :=
    Encodes.literal hliteral Encodes.nil
  have hdenotes : ∀ ps, Encodes [Char.ofNat 65] ps →
      Denotes (.object [([Char.ofNat 65], .string [Char.ofNat 65])])
        (123 :: (quoted [.byte 65 (by decide)] ++ 58 :: (quoted ps ++ [125]))) := by
    intro ps hps
    refine ⟨[], _, [], ws_nil, ws_nil, ?_, Spells.object ws_nil (Spells.lastMember hplain ws_nil
      ws_nil (Spells.string hps) ws_nil)⟩
    simp
  constructor
  · have harrives := (hone _ _ [] [] hescaped ws_nil ws_nil).1
    exact harrives
  · exact (hsame _ _ _ (hdenotes _ hplain) (hdenotes _ hescaped) (by decide) (by decide)).1

end VirtualChime.Webd
