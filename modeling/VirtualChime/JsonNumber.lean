import VirtualChime.WebdJson
import VirtualChime.Library.JsonText

/-!
# Number tokens

`ParseNumber` scans exactly the numbers of the JSON grammar (`scanNumber_sound`,
`scanNumber_complete`), and `strtod` reads the whole of such a token as the double
nearest to its decimal value (`strtod_text`).
-/

namespace VirtualChime.Webd

open JsonText (Decimal Digits Exponent)

/-! ## 1. Runs of digits -/

theorem isDigit_of_mem {ds : Bytes} (hds : Digits ds) {c : Byte} (hc : c ∈ ds) :
    isDigit c = true := hds.2 c hc

/-- What follows does not go on with a digit. -/
def NoDigit (s : Bytes) : Prop := ∀ c ∈ s.head?, isDigit c = false

theorem noDigit_nil : NoDigit [] := by
  intro c hc
  cases hc

theorem takeWhile_digits {ds rest : Bytes} (hds : Digits ds) (hrest : NoDigit rest) :
    (ds ++ rest).takeWhile isDigit = ds :=
  Scanner.takeWhile_run (fun _ hc => isDigit_of_mem hds hc) hrest

theorem dropWhile_digits {ds rest : Bytes} (hds : Digits ds) (hrest : NoDigit rest) :
    (ds ++ rest).dropWhile isDigit = rest :=
  Scanner.dropWhile_run (fun _ hc => isDigit_of_mem hds hc) hrest

theorem startsDigit_append {ds rest : Bytes} (hds : Digits ds) : startsDigit (ds ++ rest) = true := by
  obtain ⟨c, ds', rfl⟩ := List.exists_cons_of_ne_nil hds.1
  exact hds.2 c (List.mem_cons_self ..)

/-- A text that starts with a digit is a run of digits and what `isDigit` leaves. -/
theorem digits_of_startsDigit {s : Bytes} (h : startsDigit s = true) :
    Digits (s.takeWhile isDigit) ∧ s = s.takeWhile isDigit ++ s.dropWhile isDigit := by
  refine ⟨⟨?_, fun c hc => List.mem_takeWhile_imp hc⟩, List.takeWhile_append_dropWhile.symm⟩
  cases s with
  | nil => cases h
  | cons c s =>
    have hc : isDigit c = true := h
    rw [List.takeWhile_cons_of_pos hc]
    exact List.cons_ne_nil _ _

/-! ## 2. The scanner -/

/-- What follows a number: no digit, no point and no exponent letter. -/
def EndsNumber (s : Bytes) : Prop :=
  ∀ c ∈ s.head?, isDigit c = false ∧ c ≠ 46 ∧ c ≠ 101 ∧ c ≠ 69

theorem EndsNumber.noDigit {s : Bytes} (h : EndsNumber s) : NoDigit s := fun c hc => (h c hc).1

def IsWhole (ds : Bytes) : Prop := ds = [48] ∨ Digits ds ∧ ds.head? ≠ some 48

theorem scanWhole_sound {s rest : Bytes} (h : scanWhole s = some rest) :
    ∃ ds, IsWhole ds ∧ s = ds ++ rest := by
  unfold scanWhole at h
  split at h
  · next hzero =>
    obtain ⟨t, rfl⟩ := List.head?_eq_some_iff.mp hzero
    exact ⟨[48], Or.inl rfl, by rw [← Option.some.inj h]; rfl⟩
  · next hzero =>
    split at h
    · next hdigit =>
      obtain ⟨hds, hs⟩ := digits_of_startsDigit hdigit
      refine ⟨_, Or.inr ⟨hds, ?_⟩, by rw [← Option.some.inj h]; exact hs⟩
      intro hhead
      rw [hs, List.head?_append, hhead] at hzero
      exact hzero rfl
    · cases h

theorem scanWhole_complete {ds rest : Bytes} (hds : IsWhole ds) (hrest : NoDigit rest) :
    scanWhole (ds ++ rest) = some rest := by
  unfold scanWhole
  rcases hds with rfl | ⟨hds, hzero⟩
  · exact if_pos rfl
  · have hhead : (ds ++ rest).head? ≠ some 48 := by
      obtain ⟨c, ds', rfl⟩ := List.exists_cons_of_ne_nil hds.1
      exact hzero
    rw [if_neg hhead, if_pos (startsDigit_append hds), dropWhile_digits hds hrest]

theorem scanFraction_sound {s rest : Bytes} (h : scanFraction s = some rest) :
    ∃ fraction : Option Bytes, (∀ ds ∈ fraction, Digits ds) ∧
      s = (fraction.elim [] fun ds => 46 :: ds) ++ rest := by
  unfold scanFraction at h
  split at h
  · next hpoint =>
    obtain ⟨t, rfl⟩ := List.head?_eq_some_iff.mp hpoint
    split at h
    · next hdigit =>
      obtain ⟨hds, hs⟩ := digits_of_startsDigit hdigit
      refine ⟨some (t.takeWhile isDigit), ?_, ?_⟩
      · intro ds hmem
        rw [← Option.some.inj hmem]
        exact hds
      · rw [← Option.some.inj h]
        exact congrArg (46 :: ·) hs
    · cases h
  · refine ⟨none, ?_, by rw [← Option.some.inj h]; rfl⟩
    intro ds hmem
    cases hmem

theorem scanFraction_complete {fraction : Option Bytes} {rest : Bytes}
    (hfraction : ∀ ds ∈ fraction, Digits ds) (hrest : NoDigit rest) (hpoint : rest.head? ≠ some 46) :
    scanFraction ((fraction.elim [] fun ds => 46 :: ds) ++ rest) = some rest := by
  unfold scanFraction
  cases fraction with
  | none => exact if_neg hpoint
  | some ds =>
    have hds := hfraction ds rfl
    have hhead : ((46 : Byte) :: ds ++ rest).head? = some 46 := rfl
    have htail : ((46 : Byte) :: ds ++ rest).tail = ds ++ rest := rfl
    rw [Option.elim_some, if_pos hhead, htail, if_pos (startsDigit_append hds),
      dropWhile_digits hds hrest]

theorem scanExponent_sound {s rest : Bytes} (h : scanExponent s = some rest) :
    ∃ exponent : Option Exponent, s = exponent.elim [] Exponent.text ++ rest := by
  unfold scanExponent at h
  split at h
  · next hletter =>
    obtain ⟨letter, t, rfl, hcase⟩ : ∃ letter t, s = letter :: t ∧ (letter = 101 ∨ letter = 69) := by
      rcases hletter with hletter | hletter
      · obtain ⟨t, rfl⟩ := List.head?_eq_some_iff.mp hletter
        exact ⟨101, t, rfl, Or.inl rfl⟩
      · obtain ⟨t, rfl⟩ := List.head?_eq_some_iff.mp hletter
        exact ⟨69, t, rfl, Or.inr rfl⟩
    obtain ⟨sign, digits, hsign, ht, hunsigned⟩ : ∃ sign digits,
        (sign = [] ∨ sign = [43] ∨ sign = [45]) ∧ t = sign ++ digits ∧
          (if t.head? = some 43 ∨ t.head? = some 45 then t.tail else t) = digits := by
      by_cases hplus : t.head? = some 43
      · obtain ⟨u, rfl⟩ := List.head?_eq_some_iff.mp hplus
        exact ⟨[43], u, Or.inr (Or.inl rfl), rfl, if_pos (Or.inl rfl)⟩
      · by_cases hminus : t.head? = some 45
        · obtain ⟨u, rfl⟩ := List.head?_eq_some_iff.mp hminus
          exact ⟨[45], u, Or.inr (Or.inr rfl), rfl, if_pos (Or.inr rfl)⟩
        · exact ⟨[], t, Or.inl rfl, rfl, if_neg (not_or.mpr ⟨hplus, hminus⟩)⟩
    rw [List.tail_cons, hunsigned] at h
    dsimp only at h
    split at h
    · next hdigit =>
      obtain ⟨hds, hs⟩ := digits_of_startsDigit hdigit
      refine ⟨some ⟨letter, sign, _, hcase, hsign, hds⟩, ?_⟩
      rw [← Option.some.inj h, Option.elim_some, Exponent.text, List.cons_append, List.append_assoc,
        ← hs, ht]
    · cases h
  · exact ⟨none, by rw [← Option.some.inj h]; rfl⟩

theorem head_ne_of_digits {ds rest : Bytes} (hds : Digits ds) {c : Byte} (hc : isDigit c = false) :
    (ds ++ rest).head? ≠ some c := by
  obtain ⟨d, ds', rfl⟩ := List.exists_cons_of_ne_nil hds.1
  intro h
  have hd := isDigit_of_mem hds (List.mem_cons_self ..)
  rw [Option.some.inj h, hc] at hd
  cases hd

theorem scanExponent_complete {exponent : Option Exponent} {rest : Bytes} (hrest : EndsNumber rest) :
    scanExponent (exponent.elim [] Exponent.text ++ rest) = some rest := by
  unfold scanExponent
  cases exponent with
  | none =>
    apply if_neg
    rintro (h | h)
    · exact (hrest 101 h).2.2.1 rfl
    · exact (hrest 69 h).2.2.2 rfl
  | some e =>
    have hletter : (e.text ++ rest).head? = some 101 ∨ (e.text ++ rest).head? = some 69 := by
      rcases e.letter_ok with h | h
      · exact Or.inl (congrArg some h)
      · exact Or.inr (congrArg some h)
    have htail : (e.text ++ rest).tail = e.sign ++ (e.digits ++ rest) := by
      rw [Exponent.text, List.cons_append, List.tail_cons, List.append_assoc]
    have hunsigned : (if (e.sign ++ (e.digits ++ rest)).head? = some 43 ∨
        (e.sign ++ (e.digits ++ rest)).head? = some 45 then (e.sign ++ (e.digits ++ rest)).tail
        else e.sign ++ (e.digits ++ rest)) = e.digits ++ rest := by
      rcases e.sign_ok with h | h | h
      · rw [h]
        apply if_neg
        rintro (h | h)
        · exact head_ne_of_digits e.digits_ok (by decide) h
        · exact head_ne_of_digits e.digits_ok (by decide) h
      · rw [h]
        exact if_pos (Or.inl rfl)
      · rw [h]
        exact if_pos (Or.inr rfl)
    rw [Option.elim_some, if_pos hletter, htail, hunsigned, if_pos (startsDigit_append e.digits_ok),
      dropWhile_digits e.digits_ok hrest.noDigit]

theorem head?_exponentText (n : Decimal) {rest : Bytes} (hrest : EndsNumber rest) :
    NoDigit (n.exponentText ++ rest) ∧ (n.exponentText ++ rest).head? ≠ some 46 := by
  unfold Decimal.exponentText
  cases n.exponent with
  | none =>
    refine ⟨hrest.noDigit, ?_⟩
    intro h
    exact (hrest 46 h).2.1 rfl
  | some e =>
    have hhead : (Option.elim (some e) [] Exponent.text ++ rest).head? = some e.letter := rfl
    rw [hhead]
    constructor
    · intro c hc
      rw [hhead] at hc
      rw [← Option.some.inj hc]
      rcases e.letter_ok with h | h
      · rw [h]
        rfl
      · rw [h]
        rfl
    · intro h
      rcases e.letter_ok with h' | h'
      · rw [h'] at h
        cases h
      · rw [h'] at h
        cases h

theorem noDigit_fractionText (n : Decimal) {rest : Bytes} (hrest : EndsNumber rest) :
    NoDigit (n.fractionText ++ (n.exponentText ++ rest)) := by
  unfold Decimal.fractionText
  cases n.fraction with
  | none => exact (head?_exponentText n hrest).1
  | some ds =>
    intro c hc
    have hpoint : (46 : Byte) = c := Option.some.inj hc
    rw [← hpoint]
    rfl

theorem scanNumber_sound {s rest : Bytes} (h : scanNumber s = some rest) :
    ∃ n : Decimal, s = n.text ++ rest := by
  obtain ⟨afterWhole, hwhole, h⟩ := Option.bind_eq_some_iff.mp h
  obtain ⟨afterFraction, hfraction, hexponent⟩ := Option.bind_eq_some_iff.mp h
  obtain ⟨whole, hwholeOk, hs⟩ := scanWhole_sound hwhole
  obtain ⟨fraction, hfractionOk, hw⟩ := scanFraction_sound hfraction
  obtain ⟨exponent, hf⟩ := scanExponent_sound hexponent
  by_cases hminus : s.head? = some 45
  · rw [if_pos hminus] at hs
    obtain ⟨t, rfl⟩ := List.head?_eq_some_iff.mp hminus
    refine ⟨⟨true, whole, fraction, exponent, hwholeOk, hfractionOk⟩, ?_⟩
    rw [List.tail_cons] at hs
    simp [Decimal.text, Decimal.minusText, Decimal.fractionText, Decimal.exponentText, hs, hw, hf]
  · rw [if_neg hminus] at hs
    refine ⟨⟨false, whole, fraction, exponent, hwholeOk, hfractionOk⟩, ?_⟩
    simp [Decimal.text, Decimal.minusText, Decimal.fractionText, Decimal.exponentText, hs, hw, hf]

theorem scanNumber_complete (n : Decimal) {rest : Bytes} (hrest : EndsNumber rest) :
    scanNumber (n.text ++ rest) = some rest := by
  obtain ⟨hnoDigit, hnoPoint⟩ := head?_exponentText n hrest
  have hunsigned : (if (n.text ++ rest).head? = some 45 then (n.text ++ rest).tail
      else n.text ++ rest) = n.whole ++ (n.fractionText ++ (n.exponentText ++ rest)) := by
    have hassoc : n.text ++ rest =
        n.minusText ++ (n.whole ++ (n.fractionText ++ (n.exponentText ++ rest))) := by
      simp [Decimal.text]
    rw [hassoc, Decimal.minusText]
    cases n.negative with
    | true => rfl
    | false => exact if_neg (head_ne_of_digits n.digits_whole (by decide))
  rw [scanNumber, hunsigned, scanWhole_complete n.whole_ok (noDigit_fractionText n hrest),
    Option.bind_some, Decimal.fractionText, scanFraction_complete n.fraction_ok hnoDigit hnoPoint,
    Option.bind_some, Decimal.exponentText]
  exact scanExponent_complete hrest

/-! ## 3. `strtod` on a token -/

theorem endsNumber_nil : EndsNumber [] := by
  intro c hc
  cases hc

/-- The bytes of a number. -/
theorem mem_text {n : Decimal} {c : Byte} (h : c ∈ n.text) :
    isDigit c = true ∨ c ∈ ([45, 46, 101, 69, 43] : Bytes) := by
  simp only [Decimal.text, List.mem_append] at h
  rcases h with h | h | h | h
  · unfold Decimal.minusText at h
    split at h
    · rw [List.mem_singleton.mp h]
      exact Or.inr (by decide)
    · cases h
  · exact Or.inl (isDigit_of_mem n.digits_whole h)
  · have hok := n.fraction_ok
    unfold Decimal.fractionText at h
    cases hf : n.fraction with
    | none =>
      rw [hf] at h
      cases h
    | some ds =>
      rw [hf] at h
      rcases List.mem_cons.mp h with rfl | h
      · exact Or.inr (by decide)
      · exact Or.inl (isDigit_of_mem (hok ds hf) h)
  · unfold Decimal.exponentText at h
    cases he : n.exponent with
    | none =>
      rw [he] at h
      cases h
    | some e =>
      rw [he] at h
      rcases List.mem_cons.mp h with rfl | h
      · rcases e.letter_ok with hletter | hletter
        · rw [hletter]
          exact Or.inr (by decide)
        · rw [hletter]
          exact Or.inr (by decide)
      · rcases List.mem_append.mp h with h | h
        · rcases e.sign_ok with hsign | hsign | hsign
          · rw [hsign] at h
            cases h
          · rw [hsign] at h
            rw [List.mem_singleton.mp h]
            exact Or.inr (by decide)
          · rw [hsign] at h
            rw [List.mem_singleton.mp h]
            exact Or.inr (by decide)
        · exact Or.inl (isDigit_of_mem e.digits_ok h)

theorem cStr_text (n : Decimal) : cStr n.text = n.text := by
  apply List.takeWhile_eq_self_iff.mpr
  intro c hc
  simp only [bne_iff_ne, ne_eq]
  rintro rfl
  exact absurd (mem_text hc) (by decide)

theorem splitSign_text (n : Decimal) :
    splitSign (n.text.dropWhile isSpace) =
      (n.negative, n.whole ++ (n.fractionText ++ n.exponentText)) := by
  obtain ⟨hne, hdigits⟩ := n.digits_whole
  obtain ⟨c, ds, hwhole⟩ := List.exists_cons_of_ne_nil hne
  have hc : isDigit c = true := hdigits c (by rw [hwhole]; exact List.mem_cons_self ..)
  rw [Decimal.text, Decimal.minusText, hwhole]
  cases n.negative with
  | true => rfl
  | false =>
    have hspace : isSpace c = false := (not_isSpace_of_isDigit hc).1
    rw [if_neg Bool.false_ne_true, List.nil_append, List.cons_append,
      List.dropWhile_cons_of_neg (by simp [hspace])]
    exact splitSign_of_isDigit hc _

theorem splitFraction_text (n : Decimal) :
    splitFraction (n.fractionText ++ n.exponentText) = (n.fraction.getD [], n.exponentText) := by
  have hexponent := head?_exponentText n endsNumber_nil
  rw [List.append_nil] at hexponent
  have hok := n.fraction_ok
  unfold Decimal.fractionText
  cases hfraction : n.fraction with
  | none =>
    have hpoint := hexponent.2
    rw [Option.elim_none, List.nil_append]
    unfold splitFraction
    split
    · next heq =>
      rw [heq] at hpoint
      exact absurd rfl hpoint
    · rfl
  | some ds =>
    have hds := hok ds hfraction
    exact Prod.ext (takeWhile_digits hds hexponent.1) (dropWhile_digits hds hexponent.1)

theorem splitExponent_text (n : Decimal) :
    splitExponent n.exponentText = (n.exponent.elim 0 Exponent.value, []) := by
  unfold Decimal.exponentText
  cases n.exponent with
  | none => rfl
  | some e =>
    have htake : e.digits.takeWhile isDigit = e.digits := by
      simpa using takeWhile_digits e.digits_ok noDigit_nil
    have hdrop : e.digits.dropWhile isDigit = [] := by
      simpa using dropWhile_digits e.digits_ok noDigit_nil
    have hsplit : splitSign (e.sign ++ e.digits) = (decide (e.sign = [45]), e.digits) := by
      rcases e.sign_ok with h | h | h
      · obtain ⟨c, ds, hds⟩ := List.exists_cons_of_ne_nil e.digits_ok.1
        have hc : isDigit c = true := e.digits_ok.2 c (by rw [hds]; exact List.mem_cons_self ..)
        rw [h, List.nil_append, hds]
        exact splitSign_of_isDigit hc ds
      · rw [h]
        rfl
      · rw [h]
        rfl
    have hempty : e.digits.isEmpty = false := by simpa using e.digits_ok.1
    rw [Option.elim_some, Exponent.text, splitExponent, if_pos e.letter_ok, hsplit]
    simp only [htake, hdrop, hempty, Bool.false_eq_true, if_false, decide_eq_true_eq,
      Option.elim_some, Exponent.value]
    rfl

theorem strtod_text (n : Decimal) : strtod n.text = (Binary64.round n.value, []) := by
  have hends := noDigit_fractionText n endsNumber_nil
  rw [List.append_nil] at hends
  have hempty : (n.whole ++ n.fraction.getD []).isEmpty = false := by
    simp [n.digits_whole.1]
  simp only [strtod, cStr_text, splitSign_text, takeWhile_digits n.digits_whole hends,
    dropWhile_digits n.digits_whole hends, splitFraction_text, splitExponent_text, hempty,
    Bool.false_eq_true, if_false]
  rfl

/-! ## 4. `ParseNumber` -/

theorem take_of_append (token rest : Bytes) :
    (token ++ rest).take ((token ++ rest).length - rest.length) = token := by
  rw [List.length_append, Nat.add_sub_cancel, List.take_left']
  rfl

theorem parseNumber_sound {s rest : Bytes} {q : ℚ} (h : parseNumber s = .ok (q, rest)) :
    ∃ n : Decimal, s = n.text ++ rest ∧ Binary64.round n.value = some q := by
  unfold parseNumber at h
  split at h
  · cases h
  · next rest' hscan =>
    obtain ⟨n, hs⟩ := scanNumber_sound hscan
    rw [hs, take_of_append, strtod_text] at h
    cases hround : Binary64.round n.value with
    | none =>
      rw [hround] at h
      cases h
    | some value =>
      rw [hround] at h
      cases h
      exact ⟨n, hs, hround⟩

theorem parseNumber_complete (n : Decimal) {rest : Bytes} {q : ℚ} (hrest : EndsNumber rest)
    (hround : Binary64.round n.value = some q) : parseNumber (n.text ++ rest) = .ok (q, rest) := by
  rw [parseNumber, scanNumber_complete n hrest]
  simp only [take_of_append, strtod_text, hround]

end VirtualChime.Webd
