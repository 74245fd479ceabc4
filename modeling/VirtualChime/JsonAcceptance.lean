import VirtualChime.JsonParser

/-!
# What `ParseJson` accepts

JSON with finite numbers, and besides it the texts that would be JSON but for `\u`
escapes whose four bytes `strtol` takes: leading blanks, a sign, `0x`, or a NUL
(`parse_accepts_iff`).
-/

namespace VirtualChime.Webd

open JsonText

/-! ## 1. The accepted texts -/

/-- The number has a finite double: it is nearer to one than to infinity. -/
def FiniteDouble (n : Decimal) : Prop := |n.value| < 2 ^ 1024 - 2 ^ 970

/-- `strtol` takes the four bytes after `\u`. -/
def StrtolTakes (digits : Bytes) : Prop := (unicodeEscape digits).isSome = true

instance (digits : Bytes) : Decidable (StrtolTakes digits) :=
  inferInstanceAs (Decidable ((unicodeEscape digits).isSome = true))

/-- A text that would be JSON if every `\u` escape that `strtol` takes were one. -/
def IsLaxJson (s : Bytes) : Prop := IsText (.accepting StrtolTakes FiniteDouble) () s

theorem finiteDouble_iff (n : Decimal) :
    FiniteDouble n ↔ ∃ q, Binary64.round n.value = some q := by
  rw [FiniteDouble, ← Binary64.round_isSome_iff, Option.isSome_iff_exists]

theorem mem_longEscapes {ps : List Piece} {ds : Bytes} :
    ds ∈ longEscapes ps ↔ ∃ ok, Piece.unicode ds ok ∈ ps := by
  unfold longEscapes
  rw [List.mem_filterMap]
  constructor
  · rintro ⟨p, hp, heq⟩
    cases p with
    | byte c ok => cases heq
    | short c meaning ok => cases heq
    | unicode digits ok =>
      cases heq
      exact ⟨ok, hp⟩
  · rintro ⟨ok, hp⟩
    exact ⟨_, hp, rfl⟩

/-- The parser decodes a string exactly if `strtol` takes its long escapes. -/
theorem exists_decodes_iff (ps : List Piece) :
    (∃ text, Decodes ps text) ↔ ∀ ds ∈ longEscapes ps, StrtolTakes ds := by
  constructor
  · rintro ⟨text, h⟩ ds hds
    obtain ⟨ok, hmem⟩ := mem_longEscapes.mp hds
    induction h with
    | nil => cases hmem
    | @cons p c ps text hp _ ih =>
      rcases List.mem_cons.mp hmem with rfl | hmem
      · exact Option.isSome_iff_exists.mpr ⟨c, hp⟩
      · exact ih (mem_longEscapes.mpr ⟨ok, hmem⟩) hmem
  · intro h
    induction ps with
    | nil => exact ⟨[], List.Forall₂.nil⟩
    | cons p ps ih =>
      obtain ⟨text, htext⟩ := ih fun ds hds => by
        obtain ⟨ok, hp⟩ := mem_longEscapes.mp hds
        exact h ds (mem_longEscapes.mpr ⟨ok, List.mem_cons_of_mem _ hp⟩)
      cases p with
      | byte c ok => exact ⟨c :: text, .cons rfl htext⟩
      | short c meaning ok => exact ⟨meaning :: text, .cons rfl htext⟩
      | unicode digits ok =>
        obtain ⟨c, hc⟩ := Option.isSome_iff_exists.mp
          (h digits (mem_longEscapes.mpr ⟨ok, List.mem_cons_self ..⟩))
        exact ⟨c :: text, .cons hc htext⟩

theorem parse_accepts_lax (s : Bytes) : (∃ v, parseJson s = .ok v) ↔ IsLaxJson s := by
  constructor
  · rintro ⟨v, h⟩
    refine ((parseJson_eq_ok_iff s v).mp h).map (Reading.hom_accepting ?_ ?_)
    · rintro n v ⟨q, hround, -⟩
      exact (finiteDouble_iff n).mpr ⟨q, hround⟩
    · intro ps text hdecodes
      exact (exists_decodes_iff ps).mp ⟨text, hdecodes⟩
  · intro h
    have hcovers : parserReading.Covers (.accepting StrtolTakes FiniteDouble) := by
      constructor
      · intro n _ hn
        obtain ⟨q, hround⟩ := (finiteDouble_iff n).mp hn
        exact ⟨_, q, hround, rfl⟩
      · intro ps _ hps
        exact (exists_decodes_iff ps).mpr hps
    obtain ⟨v, hv⟩ := h.read hcovers
    exact ⟨v, (parseJson_eq_ok_iff s v).mpr hv⟩

/-! ## 2. The escapes of a text -/

/-- The four bytes after each `\u`, where every other byte after a reverse solidus is skipped. -/
def unicodeEscapes : Bytes → List Bytes
  | [] => []
  | 92 :: 117 :: d₁ :: d₂ :: d₃ :: d₄ :: rest => [d₁, d₂, d₃, d₄] :: unicodeEscapes rest
  | 92 :: _ :: rest => unicodeEscapes rest
  | _ :: rest => unicodeEscapes rest

theorem unicodeEscapes_cons {c : Byte} (hc : c ≠ 92) (s : Bytes) :
    unicodeEscapes (c :: s) = unicodeEscapes s := by
  rw [unicodeEscapes.eq_def]
  split
  · next h => cases h
  · next h => exact absurd (List.cons.inj h).1 hc
  · next h => exact absurd (List.cons.inj h).1 hc
  · next h => rw [(List.cons.inj h).2]

theorem unicodeEscapes_short {c : Byte} (hc : c ≠ 117) (s : Bytes) :
    unicodeEscapes (92 :: c :: s) = unicodeEscapes s := by
  rw [unicodeEscapes.eq_def]
  split
  · next h => cases h
  · next h => exact absurd (List.cons.inj (List.cons.inj h).2).1 hc
  · next h => rw [(List.cons.inj (List.cons.inj h).2).2]
  · next hnot h =>
    obtain ⟨hhead, htail⟩ := List.cons.inj h
    exact (hnot c s hhead.symm htail.symm).elim

/-- A text in which nothing is escaped. -/
def Unmarked (t : Bytes) : Prop := ∀ c ∈ t, c ≠ 92

instance (t : Bytes) : Decidable (Unmarked t) := inferInstanceAs (Decidable (∀ c ∈ t, c ≠ 92))

theorem unicodeEscapes_unmarked {t : Bytes} (ht : Unmarked t) (rest : Bytes) :
    unicodeEscapes (t ++ rest) = unicodeEscapes rest := by
  induction t with
  | nil => rfl
  | cons c t ih =>
    rw [List.cons_append, unicodeEscapes_cons (ht c (List.mem_cons_self ..)),
      ih fun d hd => ht d (List.mem_cons_of_mem _ hd)]

theorem unicodeEscapes_pieces (ps : List Piece) (rest : Bytes) :
    unicodeEscapes (ps.flatMap Piece.text ++ rest) = longEscapes ps ++ unicodeEscapes rest := by
  induction ps with
  | nil => rfl
  | cons p ps ih =>
    rw [List.flatMap_cons, List.append_assoc]
    cases p with
    | byte c ok =>
      rw [Piece.text, List.singleton_append, unicodeEscapes_cons ok.2.2, ih]
      rfl
    | short c meaning ok =>
      have hc : c ≠ 117 := by
        rintro rfl
        cases ok
      rw [Piece.text, List.cons_append, List.singleton_append, unicodeEscapes_short hc, ih]
      rfl
    | unicode digits ok =>
      obtain ⟨d₁, d₂, d₃, d₄, rfl⟩ := List.length_eq_four.mp ok
      exact congrArg ([d₁, d₂, d₃, d₄] :: ·) ih

theorem unicodeEscapes_quoted (ps : List Piece) (rest : Bytes) :
    unicodeEscapes (quoted ps ++ rest) = longEscapes ps ++ unicodeEscapes rest := by
  rw [quoted, List.cons_append, unicodeEscapes_cons (by decide), List.append_assoc,
    unicodeEscapes_pieces, List.singleton_append, unicodeEscapes_cons (by decide)]

theorem unmarked_ws {w : Bytes} (hw : Ws w) : Unmarked w := by
  intro c hc
  rintro rfl
  exact absurd (hw _ hc) (by decide)

theorem unmarked_text (n : Decimal) : Unmarked n.text := by
  intro c hc
  rintro rfl
  exact absurd (mem_text hc) (by decide)

/-- The escapes found in a text are those of its strings, so that they are such as the reader takes;
and a reader that takes only strings with such escapes reads the text alike. -/
theorem escapes_of_spells {K V : Type} {R : Reading K V} {p : Part K V} {t : Bytes}
    (h : Spells R p t) :
    ∃ es, (∀ rest, unicodeEscapes (t ++ rest) = es ++ unicodeEscapes rest) ∧
      (∀ digits : Bytes → Prop, (∀ ps k, R.string ps k → ∀ ds ∈ longEscapes ps, digits ds) →
        ∀ ds ∈ es, digits ds) ∧
      ∀ digits : Bytes → Prop, (∀ ds ∈ es, digits ds) → Spells (R.restrict digits) p t := by
  have hnil : ∀ {t : Bytes}, Unmarked t → ∀ rest, unicodeEscapes (t ++ rest) =
      [] ++ unicodeEscapes rest := fun ht rest => unicodeEscapes_unmarked ht rest
  have hskip : ∀ {c : Byte}, c ≠ 92 → ∀ {w : Bytes}, Ws w → ∀ rest,
      unicodeEscapes (c :: (w ++ rest)) = unicodeEscapes rest := by
    intro c hc w hw rest
    rw [unicodeEscapes_cons hc, unicodeEscapes_unmarked (unmarked_ws hw)]
  have hnone : ∀ digits : Bytes → Prop, ∀ ds ∈ ([] : List Bytes), digits ds := by
    intro digits ds hds
    cases hds
  induction h with
  | null =>
    exact ⟨[], hnil (by decide +kernel), fun digits _ => hnone digits, fun digits _ =>
      @Spells.null _ _ (R.restrict digits)⟩
  | true =>
    exact ⟨[], hnil (by decide +kernel), fun digits _ => hnone digits, fun digits _ =>
      @Spells.true _ _ (R.restrict digits)⟩
  | false =>
    exact ⟨[], hnil (by decide +kernel), fun digits _ => hnone digits, fun digits _ =>
      @Spells.false _ _ (R.restrict digits)⟩
  | number n takes =>
    exact ⟨[], hnil (unmarked_text n), fun digits _ => hnone digits, fun digits _ =>
      @Spells.number _ _ (R.restrict digits) _ n takes⟩
  | @string ps k takes =>
    exact ⟨longEscapes ps, unicodeEscapes_quoted ps, fun digits htakes => htakes ps k takes,
      fun digits hdigits => @Spells.string _ _ (R.restrict digits) ps k ⟨takes, hdigits⟩⟩
  | emptyArray ws =>
    refine ⟨[], ?_, fun digits _ => hnone digits, fun digits _ =>
      @Spells.emptyArray _ _ (R.restrict digits) _ ws⟩
    intro rest
    rw [List.cons_append, List.append_assoc, hskip (by decide) ws, List.singleton_append,
      unicodeEscapes_cons (by decide), List.nil_append]
  | array ws _ ih =>
    obtain ⟨es, hes, hdigits, hspells⟩ := ih
    refine ⟨es, ?_, hdigits, fun digits htakes => Spells.array ws (hspells digits htakes)⟩
    intro rest
    rw [List.cons_append, List.append_assoc, hskip (by decide) ws, List.append_assoc, hes,
      List.singleton_append, unicodeEscapes_cons (by decide)]
  | emptyObject ws =>
    refine ⟨[], ?_, fun digits _ => hnone digits, fun digits _ =>
      @Spells.emptyObject _ _ (R.restrict digits) _ ws⟩
    intro rest
    rw [List.cons_append, List.append_assoc, hskip (by decide) ws, List.singleton_append,
      unicodeEscapes_cons (by decide), List.nil_append]
  | object ws _ ih =>
    obtain ⟨es, hes, hdigits, hspells⟩ := ih
    refine ⟨es, ?_, hdigits, fun digits htakes => Spells.object ws (hspells digits htakes)⟩
    intro rest
    rw [List.cons_append, List.append_assoc, hskip (by decide) ws, List.append_assoc, hes,
      List.singleton_append, unicodeEscapes_cons (by decide)]
  | lastItem _ ws ih =>
    obtain ⟨es, hes, hdigits, hspells⟩ := ih
    refine ⟨es, ?_, hdigits, fun digits htakes => Spells.lastItem (hspells digits htakes) ws⟩
    intro rest
    rw [List.append_assoc, hes, unicodeEscapes_unmarked (unmarked_ws ws)]
  | item _ ws ws' _ ihItem ihRest =>
    obtain ⟨es, hes, hdigits, hspells⟩ := ihItem
    obtain ⟨es', hes', hdigits', hspells'⟩ := ihRest
    refine ⟨es ++ es', ?_, ?_, ?_⟩
    · intro rest
      rw [List.append_assoc, hes, List.append_assoc, unicodeEscapes_unmarked (unmarked_ws ws),
        List.cons_append, List.append_assoc, hskip (by decide) ws', hes', List.append_assoc]
    · intro digits htakes
      exact List.forall_mem_append.mpr ⟨hdigits digits htakes, hdigits' digits htakes⟩
    · intro digits htakes
      obtain ⟨htakes, htakes'⟩ := List.forall_mem_append.mp htakes
      exact Spells.item (hspells digits htakes) ws ws' (hspells' digits htakes')
  | @lastMember ps k v w w' t w'' key ws ws' _ ws'' ih =>
    obtain ⟨es, hes, hdigits, hspells⟩ := ih
    refine ⟨longEscapes ps ++ es, ?_, ?_, ?_⟩
    · intro rest
      rw [List.append_assoc, unicodeEscapes_quoted, List.append_assoc,
        unicodeEscapes_unmarked (unmarked_ws ws), List.cons_append, List.append_assoc,
        hskip (by decide) ws', List.append_assoc, hes, unicodeEscapes_unmarked (unmarked_ws ws''),
        List.append_assoc]
    · intro digits htakes
      exact List.forall_mem_append.mpr ⟨htakes ps k key, hdigits digits htakes⟩
    · intro digits htakes
      obtain ⟨htakes, htakes'⟩ := List.forall_mem_append.mp htakes
      exact @Spells.lastMember _ _ (R.restrict digits) ps k v w w' t w'' ⟨key, htakes⟩ ws ws'
        (hspells digits htakes') ws''
  | @member ps k v ms w w' t w'' w₃ t' key ws ws' _ ws'' ws₃ _ ihValue ihRest =>
    obtain ⟨es, hes, hdigits, hspells⟩ := ihValue
    obtain ⟨es', hes', hdigits', hspells'⟩ := ihRest
    refine ⟨longEscapes ps ++ (es ++ es'), ?_, ?_, ?_⟩
    · intro rest
      rw [List.append_assoc, unicodeEscapes_quoted, List.append_assoc,
        unicodeEscapes_unmarked (unmarked_ws ws), List.cons_append, List.append_assoc,
        hskip (by decide) ws', List.append_assoc, hes, List.append_assoc,
        unicodeEscapes_unmarked (unmarked_ws ws''), List.cons_append, List.append_assoc,
        hskip (by decide) ws₃, hes', List.append_assoc, List.append_assoc]
    · intro digits htakes
      exact List.forall_mem_append.mpr ⟨htakes ps k key,
        List.forall_mem_append.mpr ⟨hdigits digits htakes, hdigits' digits htakes⟩⟩
    · intro digits htakes
      obtain ⟨htakes, hrest⟩ := List.forall_mem_append.mp htakes
      obtain ⟨htakes', htakes''⟩ := List.forall_mem_append.mp hrest
      exact @Spells.member _ _ (R.restrict digits) ps k v ms w w' t w'' w₃ t' ⟨key, htakes⟩ ws
        ws' (hspells digits htakes') ws'' ws₃ (hspells' digits htakes'')

theorem escapes_of_isText {K V : Type} {R : Reading K V} {v : V} {s : Bytes} (h : IsText R v s) :
    (∀ digits : Bytes → Prop, (∀ ps k, R.string ps k → ∀ ds ∈ longEscapes ps, digits ds) →
        ∀ ds ∈ unicodeEscapes s, digits ds) ∧
      ∀ digits : Bytes → Prop, (∀ ds ∈ unicodeEscapes s, digits ds) →
        IsText (R.restrict digits) v s := by
  obtain ⟨w, t, w', hw, hw', rfl, hspells⟩ := h
  obtain ⟨es, hes, hdigits, hother⟩ := escapes_of_spells hspells
  have hend : unicodeEscapes w' = [] := by
    simpa [unicodeEscapes] using unicodeEscapes_unmarked (unmarked_ws hw') []
  have hall : unicodeEscapes (w ++ (t ++ w')) = es := by
    rw [unicodeEscapes_unmarked (unmarked_ws hw), hes, hend, List.append_nil]
  rw [hall]
  exact ⟨hdigits, fun digits htakes => ⟨w, t, w', hw, hw', rfl, hother digits htakes⟩⟩

theorem digits_of_isText {digits : Bytes → Prop} {number : Decimal → Prop} {s : Bytes}
    (h : IsText (.accepting digits number) () s) : ∀ ds ∈ unicodeEscapes s, digits ds :=
  (escapes_of_isText h).1 digits fun _ _ htakes => htakes

theorem isText_accepting {digits digits' : Bytes → Prop} {number : Decimal → Prop} {s : Bytes}
    (h : IsText (.accepting digits number) () s) (htakes : ∀ ds ∈ unicodeEscapes s, digits' ds) :
    IsText (.accepting digits' number) () s :=
  ((escapes_of_isText h).2 digits' htakes).map
    (Reading.hom_accepting (R := (Reading.accepting digits number).restrict digits')
      (fun _ _ hn => hn) fun _ _ hps => hps.2)

/-! ## 3. Four hexadecimal digits -/

theorem isHexDigit_eq (c : Byte) : JsonText.isHexDigit c = isHexDigit c := by
  unfold JsonText.isHexDigit JsonText.isDigit isHexDigit hexDigit
  split
  · next h => simp [h]
  · next h =>
    split
    · next h' => simp [h']
    · next h' =>
      split
      · next h'' => simp [h'']
      · next h'' =>
        simp only [Option.isSome_none, Bool.or_eq_false_iff, Bool.and_eq_false_iff,
          decide_eq_false_iff_not]
        omega

theorem hexDigit_lt {c : Byte} {d : Nat} (h : hexDigit c = some d) : d < 16 := by
  unfold hexDigit at h
  split at h
  · rw [← Option.some.inj h]
    omega
  · split at h
    · rw [← Option.some.inj h]
      omega
    · split at h
      · rw [← Option.some.inj h]
        omega
      · cases h

/-- A hexadecimal digit is no blank, no sign, no NUL and no prefix letter. -/
theorem not_isSpace_of_isHexDigit {c : Byte} (h : isHexDigit c = true) :
    isSpace c = false ∧ c ≠ 0 ∧ c ≠ 45 ∧ c ≠ 43 ∧ c ≠ 120 ∧ c ≠ 88 := by
  have hne : ∀ d : Byte, isHexDigit d = false → c ≠ d := by
    rintro d hd rfl
    rw [h] at hd
    cases hd
  refine ⟨?_, hne 0 (by decide), hne 45 (by decide), hne 43 (by decide), hne 120 (by decide),
    hne 88 (by decide)⟩
  simp [isSpace, hne 32 (by decide), hne 9 (by decide), hne 10 (by decide), hne 11 (by decide),
    hne 12 (by decide), hne 13 (by decide)]

theorem hexValue_lt (ds : Bytes) : hexValue ds < 16 ^ ds.length := by
  have hfold : ∀ n : Nat, ds.foldl (fun n d => 16 * n + (hexDigit d).getD 0) n <
      (n + 1) * 16 ^ ds.length := by
    induction ds with
    | nil =>
      intro n
      simp
    | cons c ds ih =>
      intro n
      have hdigit : (hexDigit c).getD 0 < 16 := by
        cases hc : hexDigit c with
        | none => decide
        | some d => exact hexDigit_lt hc
      calc ds.foldl (fun n d => 16 * n + (hexDigit d).getD 0) (16 * n + (hexDigit c).getD 0)
          < (16 * n + (hexDigit c).getD 0 + 1) * 16 ^ ds.length := ih _
        _ ≤ (16 * (n + 1)) * 16 ^ ds.length := Nat.mul_le_mul_right _ (by omega)
        _ = (n + 1) * 16 ^ (c :: ds).length := by rw [List.length_cons, pow_succ]; ring
  simpa [hexValue] using hfold 0

/-- `strtol` reads four hexadecimal digits as their value. -/
theorem strtolHex_of_hexDigits {ds : Bytes} (hhex : HexDigits ds) (hlen : ds.length = 4) :
    strtolHex ds = ((hexValue ds : Int), []) := by
  have hdigit : ∀ c ∈ ds, isHexDigit c = true := by
    intro c hc
    rw [← isHexDigit_eq]
    exact hhex c hc
  have hvalue := hexValue_lt ds
  rw [hlen] at hvalue
  obtain ⟨a, b, c, d, rfl⟩ := List.length_eq_four.mp hlen
  have ha := not_isSpace_of_isHexDigit (hdigit a (by simp))
  have hb := not_isSpace_of_isHexDigit (hdigit b (by simp))
  have hstr : cStr [a, b, c, d] = [a, b, c, d] := by
    apply List.takeWhile_eq_self_iff.mpr
    intro e he
    simp [(not_isSpace_of_isHexDigit (hdigit e he)).2.1]
  have hblank : [a, b, c, d].dropWhile isSpace = [a, b, c, d] :=
    List.dropWhile_cons_of_neg (by simp [ha.1])
  have hsign : splitSign [a, b, c, d] = (false, [a, b, c, d]) := by
    unfold splitSign
    split
    · next heq => exact absurd (List.cons.inj heq).1 ha.2.2.1
    · next heq => exact absurd (List.cons.inj heq).1 ha.2.2.2.1
    · rfl
  have hprefix : dropHexPrefix [a, b, c, d] = [a, b, c, d] := by
    unfold dropHexPrefix
    split
    · next heq =>
      obtain ⟨-, heq⟩ := List.cons.inj heq
      obtain ⟨hx, heq⟩ := List.cons.inj heq
      rw [← hx, if_neg fun h => h.1.elim hb.2.2.2.2.1 hb.2.2.2.2.2]
      simp_all
    · rfl
  have htake : [a, b, c, d].takeWhile isHexDigit = [a, b, c, d] :=
    List.takeWhile_eq_self_iff.mpr hdigit
  have hmax : ((hexValue [a, b, c, d] : Nat) : Int) ≤ longMax := by
    unfold longMax
    omega
  have hmin : longMin ≤ ((hexValue [a, b, c, d] : Nat) : Int) := by
    unfold longMin
    omega
  simp only [strtolHex, hstr, hblank, hsign, hprefix, htake]
  simp [min_eq_right hmax, max_eq_right hmin]

/-- What the parser makes of a `\u` escape of the grammar. -/
theorem unicodeEscape_of_hexDigits {ds : Bytes} (hhex : HexDigits ds) (hlen : ds.length = 4) :
    unicodeEscape ds = some (if hexValue ds < 128 then UInt8.ofNat (hexValue ds) else 63) := by
  rw [unicodeEscape, strtolHex_of_hexDigits hhex hlen]
  have hnonneg : ¬ ((hexValue ds : Nat) : Int) < 0 := by omega
  simp only [ne_eq, not_true_eq_false, hnonneg, or_self, if_false]
  norm_cast

/-! ## 4. The rule -/

theorem isLaxJson_of_isJson {s : Bytes} (h : IsJson FiniteDouble s) : IsLaxJson s := by
  refine h.map (Reading.hom_accepting (fun _ _ hn => hn) ?_)
  intro ps _ hps ds hds
  obtain ⟨ok, -⟩ := mem_longEscapes.mp hds
  rw [StrtolTakes, unicodeEscape_of_hexDigits (hps ds hds) ok]
  rfl

/-- `ParseJson` accepts a text exactly if it is JSON with finite numbers, unless the text would be
JSON but for `\u` escapes that `strtol` takes without their being four hexadecimal digits. -/
theorem parse_accepts_iff (s : Bytes) :
    ((∃ v, parseJson s = .ok v) ↔ IsJson FiniteDouble s) ↔
      (IsLaxJson s → ∀ digits ∈ unicodeEscapes s, HexDigits digits) := by
  rw [parse_accepts_lax]
  constructor
  · intro haccepts hlax
    exact digits_of_isText (haccepts.mp hlax)
  · intro hdigits
    constructor
    · intro hlax
      exact isText_accepting hlax (hdigits hlax)
    · exact isLaxJson_of_isJson

/-- The JSON text `"\u +1f"` is none, and `ParseJson` reads a control character from it. -/
theorem parse_accepts_signed_escape :
    (∃ v, parseJson (bytes "\"\\u +1f\"") = .ok v) ∧
      ¬ IsJson FiniteDouble (bytes "\"\\u +1f\"") := by
  constructor
  · have hok : (parseJson (bytes "\"\\u +1f\"")).isOk = true := by decide +kernel
    cases hparse : parseJson (bytes "\"\\u +1f\"") with
    | error message =>
      rw [hparse] at hok
      cases hok
    | ok v => exact ⟨v, rfl⟩
  · intro h
    have hdigits := digits_of_isText h (bytes " +1f") (by decide)
    exact absurd (hdigits 32 (by decide)) (by decide)

end VirtualChime.Webd
