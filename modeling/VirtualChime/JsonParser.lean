import VirtualChime.JsonNumber

/-!
# The parser and the grammar

`ParseJson` succeeds with a value exactly on the texts that the grammar spells for
the reader `parserReading`, which takes the `\u` escapes that `unicodeEscape` takes
and the numbers with a finite double (`parseJson_eq_ok_iff`).  Soundness goes by
induction on the fuel, completeness by induction on the grammar.
-/

namespace VirtualChime.Webd

open JsonText

/-! ## 1. Strings -/

/-- The byte the parser makes of a piece of a string. -/
def pieceByte : Piece → Option Byte
  | .byte c _ => some c
  | .short _ meaning _ => some meaning
  | .unicode digits _ => unicodeEscape digits

def Decodes (ps : List Piece) (text : Bytes) : Prop :=
  List.Forall₂ (fun p c => pieceByte p = some c) ps text

theorem escapedByte_eq (c : Byte) : escapedByte c = shortEscape c := by
  unfold escapedByte shortEscape
  split
  · rfl
  · rfl
  · rfl
  · rfl
  · rfl
  · rfl
  · rfl
  · rfl
  · next h34 h92 h47 h98 h102 h110 h114 h116 =>
    rw [if_neg (by rintro (h | h | h) <;> contradiction), if_neg h98, if_neg h102, if_neg h110,
      if_neg h114, if_neg h116]

theorem push_eq_ok {c : Byte} {parsed : Parsed Bytes} {text rest : Bytes}
    (h : push c parsed = .ok (text, rest)) :
    ∃ text', parsed = .ok (text', rest) ∧ text = c :: text' := by
  cases parsed with
  | error message => cases h
  | ok result =>
    cases h
    exact ⟨result.1, rfl, rfl⟩

theorem parseStringLoop_sound {s text rest : Bytes} (h : parseStringLoop s = .ok (text, rest)) :
    ∃ ps, s = ps.flatMap Piece.text ++ 34 :: rest ∧ Decodes ps text := by
  fun_induction parseStringLoop s generalizing text with
  | case1 => cases h
  | case2 s =>
    cases h
    exact ⟨[], rfl, List.Forall₂.nil⟩
  | case3 => cases h
  | case4 esc s byte hescaped _ ih =>
    obtain ⟨text', hrest, rfl⟩ := push_eq_ok h
    obtain ⟨ps, rfl, hps⟩ := ih hrest
    exact ⟨.short esc byte (by rw [← escapedByte_eq, hescaped]) :: ps, rfl, .cons rfl hps⟩
  | case5 d₁ d₂ d₃ d₄ s byte hunicode _ _ ih =>
    obtain ⟨text', hrest, rfl⟩ := push_eq_ok h
    obtain ⟨ps, rfl, hps⟩ := ih hrest
    exact ⟨.unicode [d₁, d₂, d₃, d₄] rfl :: ps, rfl, .cons hunicode hps⟩
  | case6 => cases h
  | case7 => cases h
  | case8 => cases h
  | case9 => cases h
  | case10 c s hquote hbackslash hcontrol ih =>
    obtain ⟨text', hrest, rfl⟩ := push_eq_ok h
    obtain ⟨ps, rfl, hps⟩ := ih hrest
    exact ⟨.byte c ⟨not_lt.mp hcontrol, hquote, hbackslash⟩ :: ps, rfl, .cons rfl hps⟩

theorem parseStringLoop_quote (s : Bytes) : parseStringLoop (34 :: s) = .ok ([], s) := by
  rw [parseStringLoop.eq_def]
  rfl

theorem parseStringLoop_byte {c : Byte} (ok : Unescaped c) (s : Bytes) :
    parseStringLoop (c :: s) = push c (parseStringLoop s) := by
  obtain ⟨hcontrol, hquote, hbackslash⟩ := ok
  rw [parseStringLoop.eq_def]
  simp only [if_neg hquote, if_neg hbackslash, if_neg (not_lt.mpr hcontrol)]

theorem parseStringLoop_short {c meaning : Byte} (ok : shortEscape c = some meaning) (s : Bytes) :
    parseStringLoop (92 :: c :: s) = push meaning (parseStringLoop s) := by
  rw [← escapedByte_eq] at ok
  have hquote : ¬ (92 : Byte) = 34 := by decide
  rw [parseStringLoop.eq_def]
  simp only [if_neg hquote, if_true, ok]

theorem parseStringLoop_unicode {d₁ d₂ d₃ d₄ c : Byte}
    (ok : unicodeEscape [d₁, d₂, d₃, d₄] = some c) (s : Bytes) :
    parseStringLoop (92 :: 117 :: d₁ :: d₂ :: d₃ :: d₄ :: s) = push c (parseStringLoop s) := by
  have hquote : ¬ (92 : Byte) = 34 := by decide
  have hu : escapedByte 117 = none := by decide
  rw [parseStringLoop.eq_def]
  simp only [if_neg hquote, if_true, hu, ok]

theorem parseStringLoop_complete {ps : List Piece} {text : Bytes} (h : Decodes ps text)
    (rest : Bytes) :
    parseStringLoop (ps.flatMap Piece.text ++ 34 :: rest) = .ok (text, rest) := by
  induction h with
  | nil => exact parseStringLoop_quote rest
  | @cons p c ps text hp _ ih =>
    rw [List.flatMap_cons, List.append_assoc]
    cases p with
    | byte b ok =>
      rw [Piece.text, List.singleton_append, parseStringLoop_byte ok, ih, ← Option.some.inj hp]
      rfl
    | short esc meaning ok =>
      have htext : (Piece.short esc meaning ok).text ++ (ps.flatMap Piece.text ++ 34 :: rest) =
          92 :: esc :: (ps.flatMap Piece.text ++ 34 :: rest) := by rfl
      rw [htext, parseStringLoop_short ok, ih, ← Option.some.inj hp]
      rfl
    | unicode digits ok =>
      obtain ⟨d₁, d₂, d₃, d₄, rfl⟩ := List.length_eq_four.mp ok
      have htext : (Piece.unicode [d₁, d₂, d₃, d₄] ok).text ++
          (ps.flatMap Piece.text ++ 34 :: rest) =
            92 :: 117 :: d₁ :: d₂ :: d₃ :: d₄ :: (ps.flatMap Piece.text ++ 34 :: rest) := by rfl
      rw [htext, parseStringLoop_unicode hp, ih]
      rfl

theorem parseString_sound {s text rest : Bytes} (h : parseString s = .ok (text, rest)) :
    ∃ ps, s = quoted ps ++ rest ∧ Decodes ps text := by
  unfold parseString at h
  split at h
  · next s =>
    obtain ⟨ps, rfl, hps⟩ := parseStringLoop_sound h
    refine ⟨ps, ?_, hps⟩
    rw [quoted, List.cons_append, List.append_assoc, List.singleton_append]
  · cases h

theorem parseString_complete {ps : List Piece} {text : Bytes} (h : Decodes ps text) (rest : Bytes) :
    parseString (quoted ps ++ rest) = .ok (text, rest) := by
  rw [quoted, List.cons_append, List.append_assoc, List.singleton_append]
  exact parseStringLoop_complete h rest

/-! ## 2. White space and what ends a number -/

theorem skipWhitespace_append {w t : Bytes} (hw : Ws w) (ht : NoWs t) :
    skipWhitespace (w ++ t) = t := dropWhile_ws hw ht

/-- A text is some white space and what is left after skipping it. -/
theorem exists_ws (s : Bytes) : ∃ w, Ws w ∧ s = w ++ skipWhitespace s :=
  ⟨s.takeWhile isWs, ws_takeWhile s, List.takeWhile_append_dropWhile.symm⟩

theorem noWs_cons {c : Byte} (hc : isWs c = false) (t : Bytes) : NoWs (c :: t) := by
  intro d hd
  rw [← Option.some.inj hd]
  exact hc

theorem endsNumber_cons {c : Byte} (hc : isDigit c = false ∧ c ≠ 46 ∧ c ≠ 101 ∧ c ≠ 69)
    (t : Bytes) : EndsNumber (c :: t) := by
  intro d hd
  rw [← Option.some.inj hd]
  exact hc

theorem endsNumber_of_ws {w t : Bytes} (hw : Ws w) (ht : EndsNumber t) : EndsNumber (w ++ t) := by
  cases w with
  | nil => exact ht
  | cons c w =>
    apply endsNumber_cons
    have hc := hw c (List.mem_cons_self ..)
    simp only [isWs, Bool.or_eq_true, beq_iff_eq] at hc
    rcases hc with ((rfl | rfl) | rfl) | rfl
    · decide
    · decide
    · decide
    · decide

/-! ## 3. Values -/

/-- How the parser reads JSON. -/
def parserReading : Reading Bytes JsonValue where
  null := .null
  bool := .bool
  number n v := ∃ q, Binary64.round n.value = some q ∧ v = .number q
  string := Decodes
  text := .string
  array := .array
  object := .ofMembers

theorem parseLiteral_sound {literal s rest : Bytes} {value v : JsonValue}
    (h : parseLiteral literal value s = .ok (v, rest)) : s = literal ++ rest ∧ v = value := by
  unfold parseLiteral at h
  split at h
  · cases h
  · split at h
    · cases h
    · next hlit =>
      cases h
      refine ⟨?_, rfl⟩
      nth_rewrite 1 [← List.take_append_drop literal.length s]
      rw [not_not.mp hlit]

theorem parseLiteral_complete (literal rest : Bytes) (value : JsonValue) :
    parseLiteral literal value (literal ++ rest) = .ok (value, rest) := by
  have hlen : ¬ (literal ++ rest).length < literal.length := by simp
  rw [parseLiteral, if_neg hlen, List.take_left', if_neg (not_not_intro rfl), List.drop_left']
  · rfl
  · rfl

/-- What the three mutual functions have read when they return. -/
structure Sound (fuel : Nat) : Prop where
  value : ∀ s v rest, parseValue fuel s = .ok (v, rest) →
    ∃ t, s = t ++ rest ∧ Spells parserReading (.value v) t
  members : ∀ ms s v rest, parseMembers fuel ms s = .ok (v, rest) →
    ∃ new t, s = t ++ endObject :: rest ∧ Spells parserReading (.members new) t ∧
      v = .ofMembers (ms ++ new)
  items : ∀ vs s v rest, parseItems fuel vs s = .ok (v, rest) →
    ∃ new t, s = t ++ endArray :: rest ∧ Spells parserReading (.items new) t ∧
      v = .array (vs ++ new)

theorem parseObject_sound {fuel : Nat} (ih : Sound fuel) {s rest : Bytes} {v : JsonValue}
    (h : parseObject (parseMembers fuel []) s = .ok (v, rest)) :
    ∃ t, beginObject :: s = t ++ rest ∧ Spells parserReading (.value v) t := by
  obtain ⟨w, hw, hs⟩ := exists_ws s
  unfold parseObject at h
  dsimp only at h
  split at h
  · next hend =>
    obtain ⟨t, ht⟩ := List.head?_eq_some_iff.mp hend
    cases h
    refine ⟨_, ?_, Spells.emptyObject hw⟩
    nth_rewrite 1 [hs]
    simp [ht]
  · obtain ⟨new, t, ht, hspells, rfl⟩ := ih.members [] _ _ _ h
    refine ⟨_, ?_, Spells.object hw hspells⟩
    rw [hs, ht]
    simp

theorem parseArray_sound {fuel : Nat} (ih : Sound fuel) {s rest : Bytes} {v : JsonValue}
    (h : parseArray (parseItems fuel []) s = .ok (v, rest)) :
    ∃ t, beginArray :: s = t ++ rest ∧ Spells parserReading (.value v) t := by
  obtain ⟨w, hw, hs⟩ := exists_ws s
  unfold parseArray at h
  dsimp only at h
  split at h
  · next hend =>
    obtain ⟨t, ht⟩ := List.head?_eq_some_iff.mp hend
    cases h
    refine ⟨_, ?_, Spells.emptyArray hw⟩
    nth_rewrite 1 [hs]
    simp [ht]
  · obtain ⟨new, t, ht, hspells, rfl⟩ := ih.items [] _ _ _ h
    refine ⟨_, ?_, Spells.array hw hspells⟩
    rw [hs, ht]
    simp

theorem map_eq_ok {α β : Type} {parsed : Parsed α} {f : α → β} {b : β} {rest : Bytes}
    (h : parsed.map (fun result => (f result.1, result.2)) = .ok (b, rest)) :
    ∃ a, parsed = .ok (a, rest) ∧ b = f a := by
  cases parsed with
  | error message => cases h
  | ok result =>
    cases h
    exact ⟨result.1, rfl, rfl⟩

theorem parseValue_sound {fuel : Nat} (ih : Sound fuel) {s rest : Bytes} {v : JsonValue}
    (h : parseValue (fuel + 1) s = .ok (v, rest)) :
    ∃ t, s = t ++ rest ∧ Spells parserReading (.value v) t := by
  cases s with
  | nil => cases h
  | cons c s =>
    rw [parseValue] at h
    split at h
    · next hc =>
      rw [hc]
      exact parseObject_sound ih h
    split at h
    · next hc =>
      rw [hc]
      exact parseArray_sound ih h
    split at h
    · obtain ⟨text, hstring, rfl⟩ := map_eq_ok h
      obtain ⟨ps, hs, hps⟩ := parseString_sound hstring
      exact ⟨_, hs, Spells.string hps⟩
    split at h
    · obtain ⟨hs, rfl⟩ := parseLiteral_sound h
      exact ⟨_, hs, Spells.true⟩
    split at h
    · obtain ⟨hs, rfl⟩ := parseLiteral_sound h
      exact ⟨_, hs, Spells.false⟩
    split at h
    · obtain ⟨hs, rfl⟩ := parseLiteral_sound h
      exact ⟨_, hs, Spells.null⟩
    split at h
    · obtain ⟨q, hnumber, rfl⟩ := map_eq_ok h
      obtain ⟨n, hs, hround⟩ := parseNumber_sound hnumber
      exact ⟨_, hs, Spells.number n ⟨q, hround, rfl⟩⟩
    · cases h

theorem parseMembers_sound {fuel : Nat} (ih : Sound fuel) {ms : List (Bytes × JsonValue)}
    {s rest : Bytes} {v : JsonValue} (h : parseMembers (fuel + 1) ms s = .ok (v, rest)) :
    ∃ new t, s = t ++ endObject :: rest ∧ Spells parserReading (.members new) t ∧
      v = .ofMembers (ms ++ new) := by
  cases s with
  | nil => cases h
  | cons c s =>
    rw [parseMembers] at h
    split at h
    · cases h
    · next key afterKey hkey =>
      obtain ⟨ps, hs, hps⟩ := parseString_sound hkey
      obtain ⟨w, hw, hafterKey⟩ := exists_ws afterKey
      dsimp only at h
      split at h
      · cases h
      · next hcolon =>
        obtain ⟨afterColon, hafterColon⟩ := List.head?_eq_some_iff.mp (not_not.mp hcolon)
        obtain ⟨w', hw', hbefore⟩ := exists_ws afterColon
        rw [hafterColon, List.tail_cons] at h
        split at h
        · cases h
        · next parsed afterValue hvalue =>
          obtain ⟨t, ht, hspells⟩ := ih.value _ _ _ hvalue
          obtain ⟨w'', hw'', hafterValue⟩ := exists_ws afterValue
          split at h
          · cases h
          · next d afterSeparator hseparator =>
            split at h
            · next hend =>
              cases h
              refine ⟨[(key, parsed)], _, ?_, Spells.lastMember hps hw hw' hspells hw'', rfl⟩
              rw [hs, hafterKey, hafterColon, hbefore, ht, hafterValue, hseparator, hend]
              simp
            · split at h
              · cases h
              · next hcomma =>
                obtain ⟨w₃, hw₃, hafterSeparator⟩ := exists_ws afterSeparator
                obtain ⟨new, t', ht', hrest, rfl⟩ := ih.members _ _ _ _ h
                refine ⟨(key, parsed) :: new, _, ?_,
                  Spells.member hps hw hw' hspells hw'' hw₃ hrest, ?_⟩
                · rw [hs, hafterKey, hafterColon, hbefore, ht, hafterValue, hseparator,
                    not_not.mp hcomma, hafterSeparator, ht']
                  simp
                · rw [List.append_assoc, List.singleton_append]

theorem parseItems_sound {fuel : Nat} (ih : Sound fuel) {vs : List JsonValue} {s rest : Bytes}
    {v : JsonValue} (h : parseItems (fuel + 1) vs s = .ok (v, rest)) :
    ∃ new t, s = t ++ endArray :: rest ∧ Spells parserReading (.items new) t ∧
      v = .array (vs ++ new) := by
  cases s with
  | nil => cases h
  | cons c s =>
    rw [parseItems] at h
    split at h
    · cases h
    · next parsed afterValue hvalue =>
      obtain ⟨t, ht, hspells⟩ := ih.value _ _ _ hvalue
      obtain ⟨w, hw, hafterValue⟩ := exists_ws afterValue
      dsimp only at h
      split at h
      · cases h
      · next d afterSeparator hseparator =>
        split at h
        · next hend =>
          cases h
          refine ⟨[parsed], _, ?_, Spells.lastItem hspells hw, rfl⟩
          rw [ht, hafterValue, hseparator, hend]
          simp
        · split at h
          · cases h
          · next hcomma =>
            obtain ⟨w', hw', hafterSeparator⟩ := exists_ws afterSeparator
            obtain ⟨new, t', ht', hrest, rfl⟩ := ih.items _ _ _ _ h
            refine ⟨parsed :: new, _, ?_, Spells.item hspells hw hw' hrest, ?_⟩
            · rw [ht, hafterValue, hseparator, not_not.mp hcomma, hafterSeparator, ht']
              simp
            · rw [List.append_assoc, List.singleton_append]

theorem parser_sound (fuel : Nat) : Sound fuel := by
  induction fuel with
  | zero =>
    constructor
    · intro s v rest h
      cases h
    · intro ms s v rest h
      cases h
    · intro vs s v rest h
      cases h
  | succ fuel ih =>
    constructor
    · intro s v rest h
      exact parseValue_sound ih h
    · intro ms s v rest h
      exact parseMembers_sound ih h
    · intro vs s v rest h
      exact parseItems_sound ih h

/-! ## 4. Every text of the grammar is read -/

/-- The parser reads this text, whatever admissible text follows, on fuel for its length. -/
def Reads : Part Bytes JsonValue → Bytes → Prop
  | .value v, t => ∀ fuel rest, t.length ≤ fuel + 1 → EndsNumber rest →
      parseValue (fuel + 1) (t ++ rest) = .ok (v, rest)
  | .items vs, t => ∀ fuel acc rest, t.length ≤ fuel →
      parseItems (fuel + 1) acc (t ++ endArray :: rest) = .ok (.array (acc ++ vs), rest)
  | .members ms, t => ∀ fuel acc rest, t.length ≤ fuel →
      parseMembers (fuel + 1) acc (t ++ endObject :: rest) = .ok (.ofMembers (acc ++ ms), rest)

theorem exists_fuel {p : Part Bytes JsonValue} {t : Bytes} (h : Spells parserReading p t)
    {fuel : Nat} (hfuel : t.length ≤ fuel) : ∃ k, fuel = k + 1 :=
  Nat.exists_eq_add_one.mpr (h.length_pos.trans_le hfuel)

theorem parseValue_literal {fuel : Nat} (rest : Bytes) :
    parseValue (fuel + 1) ([110, 117, 108, 108] ++ rest) = .ok (.null, rest) ∧
      parseValue (fuel + 1) ([116, 114, 117, 101] ++ rest) = .ok (.bool true, rest) ∧
      parseValue (fuel + 1) ([102, 97, 108, 115, 101] ++ rest) = .ok (.bool false, rest) := by
  refine ⟨?_, ?_, ?_⟩
  · exact parseLiteral_complete (bytes "null") rest .null
  · exact parseLiteral_complete (bytes "true") rest (.bool true)
  · exact parseLiteral_complete (bytes "false") rest (.bool false)

theorem parseValue_number {fuel : Nat} {c : Byte} (hc : c = 45 ∨ isDigit c = true) (s : Bytes) :
    parseValue (fuel + 1) (c :: s) =
      (parseNumber (c :: s)).map fun result => (.number result.1, result.2) := by
  have hne : ∀ d : Byte, ¬ (d = 45 ∨ isDigit d = true) → c ≠ d := by
    intro d hd heq
    rw [heq] at hc
    exact hd hc
  rw [parseValue, if_neg (hne 123 (by decide)), if_neg (hne 91 (by decide)),
    if_neg (hne 34 (by decide)), if_neg (hne 116 (by decide)), if_neg (hne 102 (by decide)),
    if_neg (hne 110 (by decide)), if_pos hc]

theorem parseValue_string {fuel : Nat} {ps : List Piece} {text : Bytes} (h : Decodes ps text)
    (rest : Bytes) : parseValue (fuel + 1) (quoted ps ++ rest) = .ok (.string text, rest) := by
  have hstring : parseString (34 :: (ps.flatMap Piece.text ++ [34] ++ rest)) = .ok (text, rest) :=
    parseString_complete h rest
  rw [quoted, List.cons_append, parseValue, if_neg (by decide), if_neg (by decide), if_pos rfl,
    hstring]
  rfl

theorem parseValue_array {fuel : Nat} (s : Bytes) :
    parseValue (fuel + 1) (beginArray :: s) = parseArray (parseItems fuel []) s := by
  rw [parseValue, if_neg (by decide), if_pos rfl]

theorem parseValue_object {fuel : Nat} (s : Bytes) :
    parseValue (fuel + 1) (beginObject :: s) = parseObject (parseMembers fuel []) s := by
  rw [parseValue, if_pos rfl]

theorem endsNumber_separator {w : Bytes} (hw : Ws w) {c : Byte}
    (hc : c = valueSeparator ∨ c = endArray ∨ c = endObject) (rest : Bytes) :
    EndsNumber (w ++ c :: rest) := by
  apply endsNumber_of_ws hw
  apply endsNumber_cons
  rcases hc with rfl | rfl | rfl
  · decide
  · decide
  · decide

/-- One round of `ParseArray`'s loop. -/
theorem parseItems_item {fuel : Nat} {v : JsonValue} {t : Bytes} (ht : t ≠ [])
    (h : ∀ rest, EndsNumber rest → parseValue fuel (t ++ rest) = .ok (v, rest)) {w : Bytes}
    (hw : Ws w) {c : Byte} (hc : c = valueSeparator ∨ c = endArray) (acc : List JsonValue)
    (rest : Bytes) :
    parseItems (fuel + 1) acc (t ++ (w ++ c :: rest)) =
      if c = endArray then .ok (.array (acc ++ [v]), rest)
      else parseItems fuel (acc ++ [v]) (skipWhitespace rest) := by
  obtain ⟨d, u, rfl⟩ := List.exists_cons_of_ne_nil ht
  have hvalue := h (w ++ c :: rest) (endsNumber_separator hw (hc.imp_right Or.inl) rest)
  have hnoWs : isWs c = false := by
    rcases hc with rfl | rfl
    · decide
    · decide
  rw [List.cons_append] at hvalue ⊢
  simp only [parseItems, hvalue, skipWhitespace_append hw (noWs_cons hnoWs rest)]
  rcases hc with rfl | rfl
  · rfl
  · rfl

/-- One round of `ParseObject`'s loop. -/
theorem parseMembers_member {fuel : Nat} {ps : List Piece} {key : Bytes} (hkey : Decodes ps key)
    {v : JsonValue} {t : Bytes} (hstart : ∀ rest, NoWs (t ++ rest))
    (h : ∀ rest, EndsNumber rest → parseValue fuel (t ++ rest) = .ok (v, rest)) {w w' w'' : Bytes}
    (hw : Ws w) (hw' : Ws w') (hw'' : Ws w'') {c : Byte}
    (hc : c = valueSeparator ∨ c = endObject) (acc : List (Bytes × JsonValue)) (rest : Bytes) :
    parseMembers (fuel + 1) acc
        (quoted ps ++ (w ++ nameSeparator :: (w' ++ (t ++ (w'' ++ c :: rest))))) =
      if c = endObject then .ok (.ofMembers (acc ++ [(key, v)]), rest)
      else parseMembers fuel (acc ++ [(key, v)]) (skipWhitespace rest) := by
  have hstring := parseString_complete hkey
    (w ++ nameSeparator :: (w' ++ (t ++ (w'' ++ c :: rest))))
  have hvalue := h (w'' ++ c :: rest) (endsNumber_separator hw'' (hc.imp_right Or.inr) rest)
  have hnoWs : isWs c = false := by
    rcases hc with rfl | rfl
    · decide
    · decide
  have hcolon : skipWhitespace (w ++ nameSeparator :: (w' ++ (t ++ (w'' ++ c :: rest)))) =
      nameSeparator :: (w' ++ (t ++ (w'' ++ c :: rest))) :=
    skipWhitespace_append hw (noWs_cons (by decide) _)
  have hname : ¬ (some nameSeparator ≠ some (58 : Byte)) := not_not_intro rfl
  rw [quoted, List.cons_append] at hstring ⊢
  simp only [parseMembers, hstring, hcolon, List.head?_cons, if_neg hname, List.tail_cons,
    skipWhitespace_append hw' (hstart _), hvalue, skipWhitespace_append hw'' (noWs_cons hnoWs rest)]
  rcases hc with rfl | rfl
  · rfl
  · rfl

theorem reads_of_spells {p : Part Bytes JsonValue} {t : Bytes} (h : Spells parserReading p t) :
    Reads p t := by
  induction h with
  | null =>
    intro fuel rest _ _
    exact (parseValue_literal rest).1
  | true =>
    intro fuel rest _ _
    exact (parseValue_literal rest).2.1
  | false =>
    intro fuel rest _ _
    exact (parseValue_literal rest).2.2
  | number n takes =>
    intro fuel rest _ hrest
    obtain ⟨q, hround, rfl⟩ := takes
    obtain ⟨c, u, htext, hc⟩ := n.head_text
    have hnumber := parseNumber_complete n hrest hround
    rw [htext, List.cons_append] at hnumber ⊢
    rw [parseValue_number hc, hnumber]
    rfl
  | string takes =>
    intro fuel rest _ _
    exact parseValue_string takes rest
  | emptyArray ws =>
    intro fuel rest _ _
    rw [List.cons_append, List.append_assoc, parseValue_array, parseArray,
      List.singleton_append, skipWhitespace_append ws (noWs_cons (by decide) rest)]
    rfl
  | @array w t vs ws inside ih =>
    intro fuel rest hfuel _
    have hlen : t.length ≤ fuel := by
      simp only [List.length_cons, List.length_append] at hfuel
      omega
    obtain ⟨k, rfl⟩ := exists_fuel inside hlen
    obtain ⟨c, u, htext, -, hc, -⟩ := inside.head
    have hnext := ih k [] rest (by
      simp only [List.length_cons, List.length_append] at hfuel
      omega)
    rw [List.cons_append, List.append_assoc, List.append_assoc, List.singleton_append,
      parseValue_array, parseArray, skipWhitespace_append ws (inside.noWs_append _)]
    have hhead : (t ++ endArray :: rest).head? ≠ some 93 := by
      rw [htext]
      intro heq
      exact hc (Option.some.inj heq)
    simp only [if_neg hhead]
    exact hnext
  | emptyObject ws =>
    intro fuel rest _ _
    rw [List.cons_append, List.append_assoc, parseValue_object, parseObject,
      List.singleton_append, skipWhitespace_append ws (noWs_cons (by decide) rest)]
    rfl
  | @object w t ms ws inside ih =>
    intro fuel rest hfuel _
    have hlen : t.length + 1 ≤ fuel := by
      simp only [List.length_cons, List.length_append] at hfuel
      omega
    obtain ⟨k, rfl⟩ := exists_fuel inside ((Nat.le_succ _).trans hlen)
    obtain ⟨c, u, htext, -, -, hc⟩ := inside.head
    have hnext := ih k [] rest (Nat.le_of_succ_le_succ hlen)
    rw [List.cons_append, List.append_assoc, List.append_assoc, List.singleton_append,
      parseValue_object, parseObject, skipWhitespace_append ws (inside.noWs_append _)]
    have hhead : (t ++ endObject :: rest).head? ≠ some 125 := by
      rw [htext]
      intro heq
      exact hc (Option.some.inj heq)
    simp only [if_neg hhead]
    exact hnext
  | @lastItem v t w item ws ih =>
    intro fuel acc rest hfuel
    rw [List.length_append] at hfuel
    have hlen : t.length ≤ fuel := by omega
    obtain ⟨k, rfl⟩ := exists_fuel item hlen
    rw [List.append_assoc, parseItems_item (List.ne_nil_of_length_pos item.length_pos)
      (fun rest => ih k rest (by omega)) ws (Or.inr rfl), if_pos rfl]
  | @item v vs t w w' t' item ws ws' more ihItem ihRest =>
    intro fuel acc rest hfuel
    simp only [List.length_append, List.length_cons] at hfuel
    have hlen : t.length ≤ fuel := by omega
    obtain ⟨k, rfl⟩ := exists_fuel item hlen
    have hnext := ihRest k (acc ++ [v]) rest (by omega)
    rw [List.append_assoc, List.append_assoc, List.cons_append, List.append_assoc,
      parseItems_item (List.ne_nil_of_length_pos item.length_pos)
        (fun rest => ihItem k rest (by omega)) ws (Or.inl rfl), if_neg (by decide),
      skipWhitespace_append ws' (more.noWs_append _), hnext, List.append_assoc,
      List.singleton_append]
  | @lastMember ps key v w w' t w'' hkey ws ws' value ws'' ih =>
    intro fuel acc rest hfuel
    simp only [List.length_append, List.length_cons] at hfuel
    have hlen : t.length ≤ fuel := by omega
    obtain ⟨k, rfl⟩ := exists_fuel value hlen
    rw [List.append_assoc, List.append_assoc, List.cons_append, List.append_assoc,
      List.append_assoc, parseMembers_member hkey value.noWs_append
        (fun rest => ih k rest (by omega)) ws ws' ws'' (Or.inr rfl), if_pos rfl]
  | @member ps key v ms w w' t w'' w₃ t' hkey ws ws' value ws'' ws₃ more ihValue ihRest =>
    intro fuel acc rest hfuel
    simp only [List.length_append, List.length_cons] at hfuel
    have hlen : t.length ≤ fuel := by omega
    obtain ⟨k, rfl⟩ := exists_fuel value hlen
    have hnext := ihRest k (acc ++ [(key, v)]) rest (by omega)
    rw [List.append_assoc, List.append_assoc, List.cons_append, List.append_assoc,
      List.append_assoc, List.append_assoc, List.cons_append, List.append_assoc,
      parseMembers_member hkey value.noWs_append (fun rest => ihValue k rest (by omega)) ws ws'
        ws'' (Or.inl rfl), if_neg (by decide), skipWhitespace_append ws₃ (more.noWs_append _),
      hnext, List.append_assoc, List.singleton_append]

/-! ## 5. The fuel -/

theorem length_skipWhitespace_le (s : Bytes) : (skipWhitespace s).length ≤ s.length :=
  List.length_dropWhile_le isWhitespace s

theorem length_of_parseString {s text rest : Bytes} (h : parseString s = .ok (text, rest)) :
    rest.length < s.length := by
  obtain ⟨ps, rfl, -⟩ := parseString_sound h
  rw [quoted, List.length_append, List.length_cons]
  omega

theorem length_of_parseValue {fuel : Nat} {s rest : Bytes} {v : JsonValue}
    (h : parseValue fuel s = .ok (v, rest)) : rest.length < s.length := by
  obtain ⟨t, rfl, hspells⟩ := (parser_sound fuel).value s v rest h
  have hpos := hspells.length_pos
  rw [List.length_append]
  omega

/-- More fuel than twice the length of the text changes nothing. -/
structure FuelFree (fuel : Nat) : Prop where
  value : ∀ fuel' s, 2 * s.length + 1 ≤ fuel → 2 * s.length + 1 ≤ fuel' →
    parseValue fuel s = parseValue fuel' s
  members : ∀ fuel' ms s, 2 * s.length + 2 ≤ fuel → 2 * s.length + 2 ≤ fuel' →
    parseMembers fuel ms s = parseMembers fuel' ms s
  items : ∀ fuel' vs s, 2 * s.length + 2 ≤ fuel → 2 * s.length + 2 ≤ fuel' →
    parseItems fuel vs s = parseItems fuel' vs s

theorem parseValue_fuelFree {fuel : Nat} (ih : FuelFree fuel) (fuel' : Nat) (s : Bytes)
    (hfuel : 2 * s.length + 1 ≤ fuel + 1) (hfuel' : 2 * s.length + 1 ≤ fuel' + 1) :
    parseValue (fuel + 1) s = parseValue (fuel' + 1) s := by
  cases s with
  | nil => rfl
  | cons c s =>
    have hlen := length_skipWhitespace_le s
    rw [List.length_cons] at hfuel hfuel'
    have hmembers := ih.members fuel' [] (skipWhitespace s) (by omega) (by omega)
    have hitems := ih.items fuel' [] (skipWhitespace s) (by omega) (by omega)
    have hobject : parseObject (parseMembers fuel []) s = parseObject (parseMembers fuel' []) s := by
      simp only [parseObject, hmembers]
    have harray : parseArray (parseItems fuel []) s = parseArray (parseItems fuel' []) s := by
      simp only [parseArray, hitems]
    rw [parseValue, parseValue, hobject, harray]

theorem parseMembers_fuelFree {fuel : Nat} (ih : FuelFree fuel) (fuel' : Nat)
    (ms : List (Bytes × JsonValue)) (s : Bytes) (hfuel : 2 * s.length + 2 ≤ fuel + 1)
    (hfuel' : 2 * s.length + 2 ≤ fuel' + 1) :
    parseMembers (fuel + 1) ms s = parseMembers (fuel' + 1) ms s := by
  cases s with
  | nil => rfl
  | cons c s =>
    rw [parseMembers, parseMembers]
    cases hkey : parseString (c :: s) with
    | error message => rfl
    | ok result =>
      obtain ⟨key, afterKey⟩ := result
      have hkeyLen := length_of_parseString hkey
      have hafterKey := length_skipWhitespace_le afterKey
      have htail : (skipWhitespace (skipWhitespace afterKey).tail).length ≤ afterKey.length := by
        apply (length_skipWhitespace_le _).trans
        rw [List.length_tail]
        omega
      have hvalue := ih.value fuel' (skipWhitespace (skipWhitespace afterKey).tail) (by omega)
        (by omega)
      dsimp only
      rw [hvalue]
      split
      · rfl
      · cases hparsed : parseValue fuel' (skipWhitespace (skipWhitespace afterKey).tail) with
        | error message => rfl
        | ok result =>
          obtain ⟨parsed, afterValue⟩ := result
          have hvalueLen := length_of_parseValue hparsed
          have hafterValue := length_skipWhitespace_le afterValue
          dsimp only
          cases hseparator : skipWhitespace afterValue with
          | nil => rfl
          | cons d afterSeparator =>
            rw [hseparator, List.length_cons] at hafterValue
            have hlen := length_skipWhitespace_le afterSeparator
            dsimp only
            rw [ih.members fuel' _ (skipWhitespace afterSeparator) (by omega) (by omega)]

theorem parseItems_fuelFree {fuel : Nat} (ih : FuelFree fuel) (fuel' : Nat)
    (vs : List JsonValue) (s : Bytes) (hfuel : 2 * s.length + 2 ≤ fuel + 1)
    (hfuel' : 2 * s.length + 2 ≤ fuel' + 1) :
    parseItems (fuel + 1) vs s = parseItems (fuel' + 1) vs s := by
  cases s with
  | nil => rfl
  | cons c s =>
    rw [parseItems, parseItems, ih.value fuel' (c :: s) (by omega) (by omega)]
    cases hparsed : parseValue fuel' (c :: s) with
    | error message => rfl
    | ok result =>
      obtain ⟨parsed, afterValue⟩ := result
      have hvalueLen := length_of_parseValue hparsed
      have hafterValue := length_skipWhitespace_le afterValue
      dsimp only
      cases hseparator : skipWhitespace afterValue with
      | nil => rfl
      | cons d afterSeparator =>
        rw [hseparator, List.length_cons] at hafterValue
        have hlen := length_skipWhitespace_le afterSeparator
        dsimp only
        rw [ih.items fuel' _ (skipWhitespace afterSeparator) (by omega) (by omega)]

/-- No run ends for lack of fuel: on fuel for its text the parser returns what it returns on any
more, its errors included. -/
theorem parser_fuelFree (fuel : Nat) : FuelFree fuel := by
  induction fuel with
  | zero =>
    constructor
    · intro fuel' s hfuel
      omega
    · intro fuel' ms s hfuel
      omega
    · intro fuel' vs s hfuel
      omega
  | succ fuel ih =>
    constructor
    · intro fuel' s hfuel hfuel'
      obtain ⟨k, rfl⟩ := Nat.exists_eq_add_one.mpr (Nat.lt_of_lt_of_le (Nat.succ_pos _) hfuel')
      exact parseValue_fuelFree ih k s hfuel hfuel'
    · intro fuel' ms s hfuel hfuel'
      obtain ⟨k, rfl⟩ := Nat.exists_eq_add_one.mpr (Nat.lt_of_lt_of_le (Nat.succ_pos _) hfuel')
      exact parseMembers_fuelFree ih k ms s hfuel hfuel'
    · intro fuel' vs s hfuel hfuel'
      obtain ⟨k, rfl⟩ := Nat.exists_eq_add_one.mpr (Nat.lt_of_lt_of_le (Nat.succ_pos _) hfuel')
      exact parseItems_fuelFree ih k vs s hfuel hfuel'

/-! ## 6. `ParseJson` -/

/-- `ParseJson` succeeds exactly on the JSON texts its reader takes, and returns what the reader
makes of them. -/
theorem parseJson_eq_ok_iff (s : Bytes) (v : JsonValue) :
    parseJson s = .ok v ↔ IsText parserReading v s := by
  constructor
  · intro h
    unfold parseJson at h
    split at h
    · cases h
    · next value rest hvalue =>
      split at h
      · next hend =>
        cases h
        obtain ⟨w, hw, hs⟩ := exists_ws s
        obtain ⟨t, ht, hspells⟩ := (parser_sound _).value _ _ _ hvalue
        obtain ⟨w', hw', hrest⟩ := exists_ws rest
        refine ⟨w, t, w', hw, hw', ?_, hspells⟩
        rw [hs, ht]
        nth_rewrite 1 [hrest]
        rw [List.isEmpty_iff.mp hend, List.append_nil]
      · cases h
  · rintro ⟨w, t, w', hw, hw', rfl, hspells⟩
    have hvalue := reads_of_spells hspells (2 * (w ++ (t ++ w')).length) w'
      (by simp only [List.length_append]; omega)
      (by simpa using endsNumber_of_ws hw' endsNumber_nil)
    have hend : skipWhitespace w' = [] := by
      simpa using skipWhitespace_append hw' (t := []) (by simp [NoWs])
    simp only [parseJson, skipWhitespace_append hw (hspells.noWs_append w'), hvalue, hend]
    rfl

end VirtualChime.Webd
