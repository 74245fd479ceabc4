import VirtualChime.Library.CharRuns
import VirtualChime.RingSounds

/-!
# The names of uploads

`buildUploadSoundName` of the web UI and the check that the server makes of its result.  A
name is cleaned until it is words of letters and digits with single separators between
them; nothing shortens it.
-/

namespace VirtualChime.WebUi

open CharRuns (replaceRuns)

/-! ## 1. The source -/

/-- A string of the UI, as its code units. -/
abbrev JsString := List UInt16

def units (s : String) : JsString := s.toList.map fun c => UInt16.ofNat c.toNat

/-- `[a-z0-9]` -/
def isWordUnit (u : UInt16) : Bool :=
  (decide (97 ≤ u.toNat) && decide (u.toNat ≤ 122)) ||
    (decide (48 ≤ u.toNat) && decide (u.toNat ≤ 57))

/-- `[-._]` -/
def isSeparator (u : UInt16) : Bool := u == 45 || u == 46 || u == 95

/-- `[^a-z0-9_.-]` -/
def isForeign (u : UInt16) : Bool := !(isWordUnit u || isSeparator u)

abbrev dash : UInt16 := 45

/-- `.replace(/[^a-z0-9_.-]+/g, "-").replace(/[-._]{2,}/g, "-")` -/
def collapse (s : JsString) : JsString :=
  replaceRuns isSeparator 2 dash (replaceRuns isForeign 1 dash s)

/-- `.replace(/^[._-]+/, "").replace(/[._-]+$/, "")` -/
def trimSeparators (s : JsString) : JsString := (s.dropWhile isSeparator).rdropWhile isSeparator

/-- `buildUploadSoundName` from `withExtension` on. -/
def withRingAndWav (normalized : JsString) : JsString :=
  let withExtension :=
    if (units ".wav").isSuffixOf normalized then normalized else normalized ++ units ".wav"
  let withoutPrefix :=
    if (units "ring-").isPrefixOf withExtension then withExtension.drop 5 else withExtension
  let candidate := units "ring-" ++ withoutPrefix
  let cleaned := trimSeparators (collapse candidate)
  if cleaned = [] ∨ cleaned = units "ring" ∨ cleaned = units "ring.wav" then
    units "ring-custom.wav"
  else if !(units ".wav").isSuffixOf cleaned then cleaned ++ units ".wav"
  else cleaned

/-- `buildUploadSoundName`, with `originalName.toLowerCase()` for its argument. -/
def buildUploadSoundName (lower : JsString) : JsString :=
  withRingAndWav (trimSeparators (collapse lower))

/-- A string of ASCII characters as the server gets it. -/
def asciiBytes (s : JsString) : Bytes := s.map fun u => UInt8.ofNat u.toNat

/-! ## 2. Clean names -/

/-- Words of letters and digits with single separators between them. -/
inductive Clean : JsString → Prop where
  | single {c : UInt16} (h : isWordUnit c = true) : Clean [c]
  | word {c : UInt16} {s : JsString} (h : isWordUnit c = true) (hs : Clean s) : Clean (c :: s)
  | separated {c d : UInt16} {s : JsString} (h : isWordUnit c = true)
      (hd : isSeparator d = true) (hs : Clean s) : Clean (c :: d :: s)

theorem not_isSeparator {u : UInt16} (h : isWordUnit u = true) : isSeparator u = false := by
  simp only [isSeparator, Bool.or_eq_false_iff, beq_eq_false_iff_ne, ne_eq]
  refine ⟨⟨?_, ?_⟩, ?_⟩ <;>
  · rintro rfl
    cases h

theorem not_isForeign_of_separator {u : UInt16} (h : isSeparator u = true) :
    isForeign u = false := by
  simp [isForeign, h]

theorem not_isForeign_of_word {u : UInt16} (h : isWordUnit u = true) : isForeign u = false := by
  simp [isForeign, h]

namespace Clean

theorem ne_nil {s : JsString} (h : Clean s) : s ≠ [] := by
  cases h <;> exact List.cons_ne_nil _ _

/-- A clean name begins with a letter or a digit, and ends with one. -/
theorem first {s : JsString} (h : Clean s) : ∃ c t, s = c :: t ∧ isWordUnit c = true := by
  cases h with
  | single h => exact ⟨_, _, rfl, h⟩
  | word h hs => exact ⟨_, _, rfl, h⟩
  | separated h hd hs => exact ⟨_, _, rfl, h⟩

theorem last {s : JsString} (h : Clean s) : ∃ t c, s = t ++ [c] ∧ isWordUnit c = true := by
  induction h with
  | single h => exact ⟨[], _, rfl, h⟩
  | word h hs ih =>
    obtain ⟨t, c, rfl, hc⟩ := ih
    exact ⟨_ :: t, c, rfl, hc⟩
  | separated h hd hs ih =>
    obtain ⟨t, c, rfl, hc⟩ := ih
    exact ⟨_ :: _ :: t, c, rfl, hc⟩

theorem not_foreign {s : JsString} (h : Clean s) : ∀ u ∈ s, isForeign u = false := by
  induction h with
  | single h => simpa using not_isForeign_of_word h
  | word h hs ih => exact List.forall_mem_cons.mpr ⟨not_isForeign_of_word h, ih⟩
  | separated h hd hs ih =>
    exact List.forall_mem_cons.mpr ⟨not_isForeign_of_word h,
      List.forall_mem_cons.mpr ⟨not_isForeign_of_separator hd, ih⟩⟩

theorem isChain {s : JsString} (h : Clean s) :
    s.IsChain fun a b => isSeparator a = false ∨ isSeparator b = false := by
  induction h with
  | single h => exact List.isChain_singleton _
  | word h hs ih =>
    obtain ⟨c, t, rfl, hc⟩ := hs.first
    exact List.isChain_cons_cons.mpr ⟨Or.inl (not_isSeparator h), ih⟩
  | separated h hd hs ih =>
    obtain ⟨c, t, rfl, hc⟩ := hs.first
    exact List.isChain_cons_cons.mpr ⟨Or.inl (not_isSeparator h),
      List.isChain_cons_cons.mpr ⟨Or.inr (not_isSeparator hc), ih⟩⟩

theorem append {s t : JsString} (hs : Clean s) (ht : Clean t) : Clean (s ++ t) := by
  induction hs with
  | single h => exact .word h ht
  | word h hs ih => exact .word h ih
  | separated h hd hs ih => exact .separated h hd ih

theorem append_separator {s t : JsString} {d : UInt16} (hs : Clean s)
    (hd : isSeparator d = true) (ht : Clean t) : Clean (s ++ d :: t) := by
  induction hs with
  | single h => exact .separated h hd ht
  | word h hs ih => exact .word h ih
  | separated h hd' hs ih => exact .separated h hd' ih

/-- Both sides of a separator are clean. -/
theorem of_append_separator {s t : JsString} {d : UInt16} (hd : isSeparator d = true)
    (h : Clean (s ++ d :: t)) : Clean s ∧ Clean t := by
  have hword : ∀ {c : UInt16}, isWordUnit c = true → d ≠ c := by
    rintro c hc rfl
    rw [not_isSeparator hc] at hd
    cases hd
  generalize hst : s ++ d :: t = st at h
  induction h generalizing s with
  | single h =>
    match s, hst with
    | [], hst => exact absurd (List.cons.inj hst).1 (hword h)
    | _ :: s, hst => simp at hst
  | word h hs ih =>
    match s, hst with
    | [], hst => exact absurd (List.cons.inj hst).1 (hword h)
    | a :: s, hst =>
      obtain ⟨rfl, hrest⟩ := List.cons.inj hst
      obtain ⟨hleft, hright⟩ := ih hrest
      exact ⟨.word h hleft, hright⟩
  | separated h hd' hs ih =>
    match s, hst with
    | [], hst => exact absurd (List.cons.inj hst).1 (hword h)
    | [a], hst =>
      obtain ⟨rfl, hrest⟩ := List.cons.inj hst
      obtain ⟨-, rfl⟩ := List.cons.inj hrest
      exact ⟨.single h, hs⟩
    | a :: b :: s, hst =>
      obtain ⟨rfl, htwo⟩ := List.cons.inj hst
      obtain ⟨rfl, hrest⟩ := List.cons.inj htwo
      obtain ⟨hleft, hright⟩ := ih hrest
      exact ⟨.separated h hd' hleft, hright⟩

theorem of_word {w : JsString} (hne : w ≠ []) (h : ∀ u ∈ w, isWordUnit u = true) : Clean w := by
  induction w with
  | nil => exact absurd rfl hne
  | cons c w ih =>
    obtain ⟨hc, hrest⟩ := List.forall_mem_cons.mp h
    cases w with
    | nil => exact .single hc
    | cons d w => exact .word hc (ih (List.cons_ne_nil _ _) hrest)

/-- Cleaning leaves a clean name as it is. -/
theorem collapse_eq_self {s : JsString} (h : Clean s) : collapse s = s := by
  rw [collapse, CharRuns.replaceRuns_eq_self h.not_foreign,
    CharRuns.replaceRuns_two_eq_self h.isChain]

theorem trimSeparators_append {s gap tail : JsString} (h : Clean s)
    (hgap : ∀ u ∈ gap, isSeparator u = true) (htail : ∀ u ∈ tail, isSeparator u = true) :
    trimSeparators (gap ++ (s ++ tail)) = s := by
  have hstart : (gap ++ (s ++ tail)).dropWhile isSeparator = s ++ tail := by
    obtain ⟨c, t, rfl, hc⟩ := h.first
    rw [List.dropWhile_append_of_pos hgap, List.cons_append,
      List.dropWhile_cons_of_neg (by simp [not_isSeparator hc])]
  obtain ⟨t, c, rfl, hc⟩ := h.last
  have hreverse : ∀ u ∈ tail.reverse, isSeparator u = true := by
    intro u hu
    exact htail u (List.mem_reverse.mp hu)
  rw [trimSeparators, hstart, List.rdropWhile, List.reverse_append,
    List.dropWhile_append_of_pos hreverse, List.reverse_append, List.reverse_singleton,
    List.singleton_append, List.dropWhile_cons_of_neg (by simp [not_isSeparator hc]),
    List.reverse_cons, List.reverse_reverse]

theorem trimSeparators_eq_self {s : JsString} (h : Clean s) : trimSeparators s = s := by
  have htrim : trimSeparators ([] ++ (s ++ [])) = s := h.trimSeparators_append nofun nofun
  rwa [List.nil_append, List.append_nil] at htrim

end Clean

/-! ## 3. What a name is collapsed to -/

/-- Where the separators and foreign characters between two words are brought to one character. -/
def separatorOf : JsString → UInt16
  | [c] => if isSeparator c then c else dash
  | _ => dash

def squeezed (gap : JsString) : JsString := if gap = [] then [] else [separatorOf gap]

theorem isSeparator_separatorOf (gap : JsString) : isSeparator (separatorOf gap) = true := by
  unfold separatorOf
  split
  · split
    · assumption
    · rfl
  · rfl

section Gap

variable {gap : JsString} (hgap : ∀ u ∈ gap, isWordUnit u = false)

include hgap

/-- Without the foreign characters there are separators only, and there is one if there was any
character. -/
theorem replaceForeign_gap :
    (∀ u ∈ replaceRuns isForeign 1 dash gap, isSeparator u = true) ∧
      (gap ≠ [] → replaceRuns isForeign 1 dash gap ≠ []) := by
  fun_induction replaceRuns isForeign 1 dash gap with
  | case1 => exact ⟨List.forall_mem_nil _, fun h => h⟩
  | case2 c s hc run ih =>
    obtain ⟨-, hrest⟩ := List.forall_mem_cons.mp hgap
    have hlong : 1 ≤ run.length := by simp [run]
    have hrest' : ∀ u ∈ s.dropWhile isForeign, isWordUnit u = false := by
      intro u hu
      exact hrest u ((List.dropWhile_sublist _).subset hu)
    rw [if_pos hlong]
    exact ⟨List.forall_mem_cons.mpr ⟨rfl, (ih hrest').1⟩, fun _ => List.cons_ne_nil _ _⟩
  | case3 c s hc ih =>
    obtain ⟨hword, hrest⟩ := List.forall_mem_cons.mp hgap
    have hsep : isSeparator c = true := by simpa [isForeign, hword] using hc
    exact ⟨List.forall_mem_cons.mpr ⟨hsep, (ih hrest).1⟩, fun _ => List.cons_ne_nil _ _⟩

theorem collapse_gap : collapse gap = squeezed gap := by
  cases gap with
  | nil =>
    rw [collapse, replaceRuns, replaceRuns]
    rfl
  | cons c s =>
    have hall := (replaceForeign_gap hgap).1
    obtain ⟨hword, hrest⟩ := List.forall_mem_cons.mp hgap
    rw [squeezed, if_neg (List.cons_ne_nil _ _), collapse]
    by_cases hc : isForeign c = true
    · -- the first run becomes a dash, which anything after it is added to
      have hsep : isSeparator c = false := by
        simp only [isForeign, Bool.not_eq_true', Bool.or_eq_false_iff] at hc
        exact hc.2
      have hseparator : separatorOf (c :: s) = dash := by
        cases s with
        | nil => simp [separatorOf, hsep]
        | cons d s => rfl
      have hone : replaceRuns isForeign 1 dash (c :: s) =
          dash :: replaceRuns isForeign 1 dash (s.dropWhile isForeign) := by
        rw [replaceRuns, if_pos hc]
        simp
      rw [hone] at hall ⊢
      rw [CharRuns.replaceRuns_run (List.cons_ne_nil _ _) hall, hseparator]
      split
      · rfl
      · next hshort =>
        have hnil : replaceRuns isForeign 1 dash (s.dropWhile isForeign) = [] := by
          rw [← List.length_eq_zero_iff]
          rw [List.length_cons] at hshort
          omega
        rw [hnil]
    · have hsep : isSeparator c = true := by simpa [isForeign, hword] using hc
      have hone : replaceRuns isForeign 1 dash (c :: s) = c :: replaceRuns isForeign 1 dash s := by
        rw [replaceRuns, if_neg hc]
      rw [hone] at hall ⊢
      rw [CharRuns.replaceRuns_run (List.cons_ne_nil _ _) hall]
      cases s with
      | nil =>
        have hnil : replaceRuns isForeign 1 dash [] = [] := by rw [replaceRuns]
        simp [hnil, separatorOf, hsep]
      | cons d s =>
        have hne := (replaceForeign_gap hrest).2 (List.cons_ne_nil _ _)
        have hlong : 2 ≤ (c :: replaceRuns isForeign 1 dash (d :: s)).length := by
          rw [List.length_cons]
          have hpos := List.length_pos_of_ne_nil hne
          omega
        rw [if_pos hlong]
        rfl

end Gap

theorem collapse_word {w : JsString} (hne : w ≠ []) (hw : ∀ u ∈ w, isWordUnit u = true)
    (s t : JsString) : collapse (s ++ (w ++ t)) = collapse s ++ (w ++ collapse t) := by
  have hforeign : ∀ u ∈ w, isForeign u = false := fun u hu => not_isForeign_of_word (hw u hu)
  have hseparator : ∀ u ∈ w, isSeparator u = false := fun u hu => not_isSeparator (hw u hu)
  cases w with
  | nil => exact absurd rfl hne
  | cons c w =>
    rw [collapse, CharRuns.replaceRuns_word hforeign, CharRuns.replaceRuns_word hseparator]
    rfl

/-! ## 4. The words of a name -/

/-- The words of a name, each with what stands before it. -/
def segments (s : JsString) : List (JsString × JsString) :=
  match _h : s.dropWhile (fun u => !isWordUnit u) with
  | [] => []
  | c :: rest =>
      (s.takeWhile (fun u => !isWordUnit u), c :: rest.takeWhile isWordUnit) ::
        segments (rest.dropWhile isWordUnit)
termination_by s.length
decreasing_by
  have hstart := (List.dropWhile_sublist (fun u => !isWordUnit u) (l := s)).length_le
  have hrest := (List.dropWhile_sublist isWordUnit (l := rest)).length_le
  rw [_h, List.length_cons] at hstart
  omega

/-- A gap and a word. -/
structure IsSegment (segment : JsString × JsString) : Prop where
  gap : ∀ u ∈ segment.1, isWordUnit u = false
  word_ne_nil : segment.2 ≠ []
  word : ∀ u ∈ segment.2, isWordUnit u = true

theorem takeWhile_not_word (s : JsString) :
    ∀ u ∈ s.takeWhile (fun u => !isWordUnit u), isWordUnit u = false := by
  intro u hu
  simpa using List.mem_takeWhile_imp hu

/-- A name is its segments and a last gap; only the first gap may be empty. -/
theorem segments_spec (s : JsString) :
    (∃ tail, s = (segments s).flatMap (fun segment => segment.1 ++ segment.2) ++ tail ∧
      ∀ u ∈ tail, isWordUnit u = false) ∧
    (∀ segment ∈ segments s, IsSegment segment) ∧
    (∀ segment ∈ (segments s).tail, segment.1 ≠ []) ∧
    (∀ c ∈ s.head?, isWordUnit c = false → ∀ segment ∈ (segments s).head?, segment.1 ≠ []) := by
  fun_induction segments s with
  | case1 s hnone =>
    refine ⟨⟨s, rfl, ?_⟩, nofun, nofun, nofun⟩
    intro u hu
    simpa using List.dropWhile_eq_nil_iff.mp hnone u hu
  | case2 s c rest hrest ih =>
    obtain ⟨⟨tail, htext, htail⟩, hsegments, hgaps, hfirst⟩ := ih
    have hc : isWordUnit c = true := by
      have hhead := List.head?_dropWhile_not (fun u => !isWordUnit u) s
      rw [hrest] at hhead
      simpa using hhead
    refine ⟨⟨tail, ?_, htail⟩, ?_, ?_, ?_⟩
    · rw [List.flatMap_cons, List.append_assoc, ← htext, List.append_assoc, List.cons_append,
        List.takeWhile_append_dropWhile, ← hrest, List.takeWhile_append_dropWhile]
    · refine List.forall_mem_cons.mpr ⟨⟨takeWhile_not_word s, List.cons_ne_nil _ _, ?_⟩, hsegments⟩
      refine List.forall_mem_cons.mpr ⟨hc, ?_⟩
      intro u hu
      exact List.mem_takeWhile_imp hu
    · have hnext : ∀ d ∈ (rest.dropWhile isWordUnit).head?, isWordUnit d = false := by
        intro d hd
        have hhead := List.head?_dropWhile_not isWordUnit rest
        rw [Option.mem_def.mp hd] at hhead
        simpa using hhead
      rw [List.tail_cons]
      intro segment hsegment
      cases hlater : segments (rest.dropWhile isWordUnit) with
      | nil =>
        rw [hlater] at hsegment
        cases hsegment
      | cons first later =>
        rw [hlater] at hsegment hgaps hfirst
        rcases List.mem_cons.mp hsegment with rfl | hmem
        · cases hhead : (rest.dropWhile isWordUnit).head? with
          | none =>
            rw [List.head?_eq_none_iff.mp hhead, segments] at hlater
            cases hlater
          | some d => exact hfirst d hhead (hnext d hhead) _ rfl
        · exact hgaps segment hmem
    · intro d hd hword segment hsegment
      obtain rfl := Option.some.inj hsegment
      cases s with
      | nil => cases hd
      | cons a s =>
        obtain rfl := Option.some.inj hd
        simp [hword]

/-- Some words with single separators between them. -/
def joinWords (word : JsString) (rest : List (JsString × JsString)) : JsString :=
  word ++ rest.flatMap fun segment => separatorOf segment.1 :: segment.2

theorem joinWords_cons (word gap next : JsString) (rest : List (JsString × JsString)) :
    joinWords word ((gap, next) :: rest) = word ++ separatorOf gap :: joinWords next rest := by
  simp [joinWords]

theorem clean_joinWords {word : JsString} {rest : List (JsString × JsString)}
    (hne : word ≠ []) (hword : ∀ u ∈ word, isWordUnit u = true)
    (hrest : ∀ segment ∈ rest, IsSegment segment) : Clean (joinWords word rest) := by
  induction rest generalizing word with
  | nil =>
    have hjoin : joinWords word [] = word := List.append_nil word
    rw [hjoin]
    exact .of_word hne hword
  | cons segment rest ih =>
    obtain ⟨gap, next⟩ := segment
    obtain ⟨hsegment, hlater⟩ := List.forall_mem_cons.mp hrest
    rw [joinWords_cons]
    exact Clean.append_separator (.of_word hne hword) (isSeparator_separatorOf gap)
      (ih hsegment.word_ne_nil hsegment.word hlater)

theorem collapse_segments {rest : List (JsString × JsString)} {tail : JsString}
    (hrest : ∀ segment ∈ rest, IsSegment segment) (hgaps : ∀ segment ∈ rest, segment.1 ≠ [])
    (htail : ∀ u ∈ tail, isWordUnit u = false) :
    collapse (rest.flatMap (fun segment => segment.1 ++ segment.2) ++ tail) =
      (rest.flatMap fun segment => separatorOf segment.1 :: segment.2) ++ squeezed tail := by
  induction rest with
  | nil => exact collapse_gap htail
  | cons segment rest ih =>
    obtain ⟨hsegment, hlater⟩ := List.forall_mem_cons.mp hrest
    obtain ⟨hgap, hgaps⟩ := List.forall_mem_cons.mp hgaps
    rw [List.flatMap_cons, List.append_assoc, List.append_assoc,
      collapse_word hsegment.word_ne_nil hsegment.word, collapse_gap hsegment.gap, squeezed,
      if_neg hgap, ih hlater hgaps, List.flatMap_cons]
    simp

theorem isSeparator_of_mem_squeezed {gap : JsString} :
    ∀ u ∈ squeezed gap, isSeparator u = true := by
  intro u hu
  unfold squeezed at hu
  split at hu
  · cases hu
  · rw [List.mem_singleton.mp hu]
    exact isSeparator_separatorOf gap

/-- A name is cleaned to its words with single separators between them. -/
theorem trimSeparators_collapse (s : JsString) :
    trimSeparators (collapse s) =
      match segments s with
      | [] => []
      | (_, word) :: rest => joinWords word rest := by
  obtain ⟨⟨tail, htext, htail⟩, hsegments, hgaps, -⟩ := segments_spec s
  cases hs : segments s with
  | nil =>
    rw [hs] at htext
    rw [htext, List.flatMap_nil, List.nil_append, collapse_gap htail, trimSeparators,
      List.dropWhile_eq_nil_iff.mpr isSeparator_of_mem_squeezed]
    rfl
  | cons segment rest =>
    obtain ⟨gap, word⟩ := segment
    rw [hs] at htext hsegments hgaps
    obtain ⟨hsegment, hlater⟩ := List.forall_mem_cons.mp hsegments
    have hcollapse : collapse s = squeezed gap ++ (joinWords word rest ++ squeezed tail) := by
      rw [htext, List.flatMap_cons, List.append_assoc, List.append_assoc,
        collapse_word hsegment.word_ne_nil hsegment.word, collapse_gap hsegment.gap,
        collapse_segments hlater hgaps htail, joinWords, List.append_assoc]
    have hclean := clean_joinWords hsegment.word_ne_nil hsegment.word hlater
    rw [hcollapse]
    exact hclean.trimSeparators_append isSeparator_of_mem_squeezed isSeparator_of_mem_squeezed

/-! ## 5. The name of an upload -/

/-- The last word is `wav`, and there is nothing but a dot before it. -/
def endsInWav (rest : List (JsString × JsString)) : Bool :=
  rest.getLast? == some (units ".", units "wav")

/-- The first word is `ring`, and there is a gap after it, not a dot or an underscore alone. -/
def startsWithRing (word : JsString) (rest : List (JsString × JsString)) : Bool :=
  word == units "ring" && rest.head?.any fun segment =>
    segment.1 != units "." && segment.1 != units "_"

/-- How long the name of an upload gets: the words, a separator between any two of them, and what
they lack of `ring-` and `.wav`. -/
def uploadNameLength : List (JsString × JsString) → ℕ
  | [] => 12
  | (_, word) :: rest =>
      word.length + (rest.map fun segment => 1 + segment.2.length).sum +
        (if endsInWav rest then 0 else 4) + (if startsWithRing word rest then 0 else 5)

theorem length_joinWords (word : JsString) (rest : List (JsString × JsString)) :
    (joinWords word rest).length =
      word.length + (rest.map fun segment => 1 + segment.2.length).sum := by
  rw [joinWords, List.length_append, List.length_flatMap]
  simp only [List.length_cons, Nat.add_comm]

theorem separatorOf_cases (gap : JsString) :
    gap = units "." ∧ separatorOf gap = 46 ∨ gap = units "_" ∧ separatorOf gap = 95 ∨
      (gap ≠ units "." ∧ gap ≠ units "_") ∧ separatorOf gap = dash := by
  have hdot : units "." = [46] := rfl
  have hunderscore : units "_" = [95] := rfl
  rw [hdot, hunderscore]
  match gap with
  | [] => exact Or.inr (Or.inr ⟨⟨nofun, nofun⟩, rfl⟩)
  | c :: d :: s => exact Or.inr (Or.inr ⟨⟨nofun, nofun⟩, rfl⟩)
  | [c] =>
    by_cases hc46 : c = 46
    · subst hc46
      exact Or.inl ⟨rfl, rfl⟩
    · by_cases hc95 : c = 95
      · subst hc95
        exact Or.inr (Or.inl ⟨rfl, rfl⟩)
      · have hsep : separatorOf [c] = dash := by
          simp only [separatorOf, isSeparator, hc46, hc95, Bool.or_eq_true, beq_iff_eq, or_false]
          split
          · assumption
          · rfl
        exact Or.inr (Or.inr ⟨⟨by simpa using hc46, by simpa using hc95⟩, hsep⟩)

/-- Where the first word of a name ends. -/
theorem word_append_inj {w w' t t' : JsString} {d d' : UInt16}
    (hw : ∀ u ∈ w, isWordUnit u = true) (hw' : ∀ u ∈ w', isWordUnit u = true)
    (hd : isWordUnit d = false) (hd' : isWordUnit d' = false) (h : w ++ d :: t = w' ++ d' :: t') :
    w = w' ∧ d = d' := by
  have htake := congrArg (List.takeWhile isWordUnit) h
  rw [CharRuns.takeWhile_append_stop hd, CharRuns.takeWhile_append_stop hd',
    List.takeWhile_eq_self_iff.mpr hw, List.takeWhile_eq_self_iff.mpr hw'] at htake
  rw [htake, List.append_right_inj, List.cons.injEq] at h
  exact ⟨htake, h.1⟩

theorem not_isWordUnit {d : UInt16} (h : isSeparator d = true) : isWordUnit d = false := by
  by_contra hword
  rw [Bool.not_eq_false] at hword
  rw [not_isSeparator hword] at h
  cases h

section Words

variable {word : JsString} {rest : List (JsString × JsString)}
  (hword : ∀ u ∈ word, isWordUnit u = true) (hrest : ∀ segment ∈ rest, IsSegment segment)

theorem isWordUnit_wav : ∀ u ∈ units "wav", isWordUnit u = true :=
  List.all_eq_true.mp (by decide)

theorem isWordUnit_ring : ∀ u ∈ units "ring", isWordUnit u = true :=
  List.all_eq_true.mp (by decide)

include hword hrest

theorem isSuffixOf_joinWords :
    (units ".wav").isSuffixOf (joinWords word rest) = endsInWav rest := by
  have hdot : isWordUnit 46 = false := rfl
  have hwav : units ".wav" = 46 :: units "wav" := rfl
  rw [Bool.eq_iff_iff, List.isSuffixOf_iff_suffix, endsInWav, beq_iff_eq, hwav]
  rcases List.eq_nil_or_concat' rest with rfl | ⟨init, ⟨gap, last⟩, rfl⟩
  · -- one word has no dot in it
    have hjoin : joinWords word [] = word := List.append_nil word
    rw [hjoin]
    constructor
    · intro hsuffix
      have hmem := hword 46 (hsuffix.subset (List.mem_cons_self ..))
      cases hmem
    · intro hnone
      cases hnone
  · have hlast := hrest (gap, last) (List.mem_append_right _ (List.mem_singleton_self _))
    have hseparator := not_isWordUnit (isSeparator_separatorOf gap)
    have hjoin : joinWords word (init ++ [(gap, last)]) =
        joinWords word init ++ separatorOf gap :: last := by
      simp [joinWords]
    have hreverse : ∀ {w : JsString}, (∀ u ∈ w, isWordUnit u = true) →
        ∀ u ∈ w.reverse, isWordUnit u = true := by
      intro w hw u hu
      exact hw u (List.mem_reverse.mp hu)
    rw [hjoin, List.getLast?_append_of_ne_nil _ (List.cons_ne_nil _ _),
      List.getLast?_singleton, Option.some.injEq, Prod.mk.injEq]
    constructor
    · rintro ⟨before, hbefore⟩
      have hends := congrArg List.reverse hbefore
      simp only [List.reverse_append, List.reverse_cons, List.append_assoc,
        List.singleton_append] at hends
      obtain ⟨hw, hd⟩ := word_append_inj (hreverse isWordUnit_wav) (hreverse hlast.word) hdot
        hseparator hends
      refine ⟨?_, (List.reverse_inj.mp hw).symm⟩
      rcases separatorOf_cases gap with ⟨hgap, -⟩ | ⟨-, h95⟩ | ⟨-, hdash⟩
      · exact hgap
      · rw [h95] at hd
        cases hd
      · rw [hdash] at hd
        cases hd
    · rintro ⟨rfl, rfl⟩
      exact ⟨joinWords word init, rfl⟩

omit hrest in
/-- A word that a separator follows begins with `ring-` in one case only. -/
theorem isPrefixOf_word {d : UInt16} (hd : isSeparator d = true) (t : JsString) :
    (units "ring-").isPrefixOf (word ++ d :: t) = true ↔ word = units "ring" ∧ d = dash := by
  have hring : ∀ x, units "ring-" ++ x = units "ring" ++ dash :: x := fun x => rfl
  rw [List.isPrefixOf_iff_prefix]
  constructor
  · rintro ⟨x, hx⟩
    rw [hring] at hx
    obtain ⟨hw, hd⟩ := word_append_inj isWordUnit_ring hword rfl (not_isWordUnit hd) hx
    exact ⟨hw.symm, hd.symm⟩
  · rintro ⟨rfl, rfl⟩
    exact ⟨t, rfl⟩

omit hrest in
theorem isPrefixOf_joinWords {e : JsString}
    (he : e = joinWords word rest ∧ endsInWav rest = true ∨
      e = joinWords word rest ++ units ".wav") :
    (units "ring-").isPrefixOf e = startsWithRing word rest := by
  rw [Bool.eq_iff_iff, startsWithRing, Bool.and_eq_true, beq_iff_eq]
  cases rest with
  | nil =>
    have hsplit : e = word ++ 46 :: units "wav" := by
      rcases he with ⟨-, hends⟩ | rfl
      · cases hends
      · rw [joinWords, List.flatMap_nil, List.append_nil]
        rfl
    rw [hsplit, isPrefixOf_word hword rfl]
    simp [dash]
  | cons segment rest =>
    obtain ⟨gap, next⟩ := segment
    obtain ⟨t, hsplit⟩ : ∃ t, e = word ++ separatorOf gap :: t := by
      rcases he with ⟨rfl, -⟩ | rfl
      · exact ⟨joinWords next rest, joinWords_cons ..⟩
      · exact ⟨joinWords next rest ++ units ".wav", by
          rw [joinWords_cons, List.append_assoc, List.cons_append]⟩
    rw [hsplit, isPrefixOf_word hword (isSeparator_separatorOf gap)]
    apply and_congr_right
    intro _
    rw [List.head?_cons, Option.any_some, Bool.and_eq_true, bne_iff_ne, bne_iff_ne]
    rcases separatorOf_cases gap with ⟨hgap, h46⟩ | ⟨hgap, h95⟩ | ⟨hgap, hdash⟩
    · rw [h46]
      simp [hgap, dash]
    · rw [h95]
      simp [hgap, dash]
    · exact iff_of_true hdash hgap

end Words

/-! ## 6. The check of the server -/

theorem ascii_of_not_foreign {u : UInt16} (h : isForeign u = false) :
    u.toNat < 128 ∧ (Webd.isAlnum (UInt8.ofNat u.toNat) || UInt8.ofNat u.toNat == 46 ||
      UInt8.ofNat u.toNat == 45 || UInt8.ofNat u.toNat == 95) = true := by
  simp only [isForeign, Bool.not_eq_false', Bool.or_eq_true] at h
  rcases h with hword | hseparator
  · have hrange : 97 ≤ u.toNat ∧ u.toNat ≤ 122 ∨ 48 ≤ u.toNat ∧ u.toNat ≤ 57 := by
      simpa [isWordUnit] using hword
    have hbyte : (UInt8.ofNat u.toNat).toNat = u.toNat := by
      rw [UInt8.toNat_ofNat']
      omega
    refine ⟨by omega, ?_⟩
    have halnum : Webd.isAlnum (UInt8.ofNat u.toNat) = true := by
      simp only [Webd.isAlnum, isDigit, hbyte, Bool.or_eq_true, Bool.and_eq_true,
        decide_eq_true_eq]
      omega
    rw [halnum, Bool.true_or, Bool.true_or, Bool.true_or]
  · have hcases : (u = 45 ∨ u = 46) ∨ u = 95 := by simpa [isSeparator] using hseparator
    rcases hcases with (rfl | rfl) | rfl <;> decide

theorem byte_eq_dot {u : UInt16} (h : isForeign u = false) (hdot : UInt8.ofNat u.toNat = 46) :
    u = 46 := by
  have hsmall := (ascii_of_not_foreign h).1
  have hnat := congrArg UInt8.toNat hdot
  rw [UInt8.toNat_ofNat'] at hnat
  apply UInt16.toNat_inj.mp
  have h46 : (46 : UInt8).toNat = 46 := rfl
  have h46' : (46 : UInt16).toNat = 46 := rfl
  omega

/-- A clean name has no two dots side by side. -/
theorem no_double_dot {c : JsString} (h : Clean c) : ¬ bytes ".." <:+: asciiBytes c := by
  rintro ⟨before, after, heq⟩
  obtain ⟨left, right, rfl, hleft, -⟩ := List.map_eq_append_iff.mp heq.symm
  obtain ⟨start, dots, rfl, -, hdots⟩ := List.map_eq_append_iff.mp hleft
  obtain ⟨a, tail, rfl, ha, htail⟩ := List.map_eq_cons_iff.mp hdots
  obtain ⟨b, tail, rfl, hb, -⟩ := List.map_eq_cons_iff.mp htail
  have hadjacent := (List.isChain_append.mp (List.isChain_append.mp h.isChain).1).2.1
  have hpair := (List.isChain_cons_cons.mp hadjacent).1
  have ha' := byte_eq_dot (h.not_foreign a (by simp)) ha
  have hb' := byte_eq_dot (h.not_foreign b (by simp)) hb
  rw [ha', hb'] at hpair
  exact absurd hpair (by decide)

/-- The server accepts a clean name with the prefix and the extension if it is not too long. -/
theorem isSafeSoundName_iff {z : JsString}
    (h : Clean (units "ring-" ++ z ++ units ".wav")) :
    Webd.isSafeSoundName (asciiBytes (units "ring-" ++ z ++ units ".wav")) = true ↔
      (units "ring-" ++ z ++ units ".wav").length ≤ 128 := by
  have hbytes : asciiBytes (units "ring-" ++ z ++ units ".wav") =
      bytes "ring-" ++ (asciiBytes z ++ bytes ".wav") := by
    rw [asciiBytes, List.map_append, List.map_append, List.append_assoc]
    rfl
  have hbegin : (bytes "ring-").isPrefixOf
      ((asciiBytes (units "ring-" ++ z ++ units ".wav")).map toLower) = true := by
    rw [hbytes, List.map_append, List.isPrefixOf_iff_prefix]
    exact ⟨_, rfl⟩
  have hsuffix : (bytes ".wav").isSuffixOf
      ((asciiBytes (units "ring-" ++ z ++ units ".wav")).map toLower) = true := by
    rw [hbytes, ← List.append_assoc, List.map_append, List.isSuffixOf_iff_suffix]
    exact ⟨_, rfl⟩
  have hdots := no_double_dot h
  have hlength : (asciiBytes (units "ring-" ++ z ++ units ".wav")).length =
      (units "ring-" ++ z ++ units ".wav").length := List.length_map ..
  have hne : asciiBytes (units "ring-" ++ z ++ units ".wav") ≠ [] := by
    rw [hbytes]
    exact List.cons_ne_nil _ _
  have hall : ∀ c ∈ asciiBytes (units "ring-" ++ z ++ units ".wav"),
      (Webd.isAlnum c || c == 46 || c == 45 || c == 95) = true := by
    intro c hc
    obtain ⟨u, hu, rfl⟩ := List.mem_map.mp hc
    exact (ascii_of_not_foreign (h.not_foreign u hu)).2
  have hslashes : ¬ (slash ∈ asciiBytes (units "ring-" ++ z ++ units ".wav") ∨
      92 ∈ asciiBytes (units "ring-" ++ z ++ units ".wav")) := by
    rintro (hmem | hmem)
    · exact absurd (hall _ hmem) (by decide)
    · exact absurd (hall _ hmem) (by decide)
  rw [← hlength]
  generalize asciiBytes (units "ring-" ++ z ++ units ".wav") = name at *
  rw [Webd.isSafeSoundName]
  by_cases hlong : name.length > 128
  · rw [if_pos (Or.inr hlong)]
    exact iff_of_false Bool.false_ne_true (by omega)
  · rw [if_neg (not_or.mpr ⟨hne, hlong⟩), if_neg hslashes, if_neg hdots]
    simp only [hbegin, hsuffix, Bool.not_true, Bool.or_false, Bool.false_eq_true, if_false]
    exact iff_of_true (List.all_eq_true.mpr hall) (by omega)

/-- A clean name with the extension that it has or is given. -/
theorem exists_stem {n : JsString} (h : Clean n) :
    ∃ y, Clean y ∧
      (if (units ".wav").isSuffixOf n then n else n ++ units ".wav") = y ++ units ".wav" ∧
      y.length + (if (units ".wav").isSuffixOf n then 4 else 0) = n.length := by
  by_cases hsuffix : (units ".wav").isSuffixOf n = true
  · obtain ⟨y, rfl⟩ := List.isSuffixOf_iff_suffix.mp hsuffix
    have hclean := (Clean.of_append_separator (d := 46) rfl h).1
    refine ⟨y, hclean, if_pos hsuffix, ?_⟩
    rw [if_pos hsuffix, List.length_append]
    rfl
  · exact ⟨n, h, if_neg hsuffix, by rw [if_neg hsuffix, Nat.add_zero]⟩

/-- A clean name without the prefix, and with it again. -/
theorem exists_middle {y : JsString} (h : Clean y) :
    ∃ z, (if (units "ring-").isPrefixOf (y ++ units ".wav") then (y ++ units ".wav").drop 5
        else y ++ units ".wav") = z ++ units ".wav" ∧
      Clean (units "ring-" ++ z ++ units ".wav") ∧
      z.length + (if (units "ring-").isPrefixOf (y ++ units ".wav") then 5 else 0) = y.length := by
  have hring : Clean (units "ring") := .of_word (List.cons_ne_nil _ _) isWordUnit_ring
  have hwav : Clean (units "wav") := .of_word (List.cons_ne_nil _ _) isWordUnit_wav
  by_cases hbegin : (units "ring-").isPrefixOf (y ++ units ".wav") = true
  · obtain ⟨t, ht⟩ := List.isPrefixOf_iff_prefix.mp hbegin
    obtain ⟨z, rfl, rfl⟩ : ∃ z, y = units "ring-" ++ z ∧ t = z ++ units ".wav" := by
      rcases List.append_eq_append_iff.mp ht with ⟨z, hz⟩ | ⟨overlap, hring', hwav'⟩
      · exact ⟨z, hz⟩
      · -- the prefix does not reach into the extension
        cases overlap with
        | nil =>
          rw [List.append_nil] at hring'
          obtain ⟨init, c, rfl, hc⟩ := h.last
          have hlast := congrArg List.getLast? hring'
          rw [List.getLast?_concat] at hlast
          rw [← Option.some.inj hlast] at hc
          cases hc
        | cons c overlap =>
          have hmem : c ∈ units "ring-" := hring' ▸ List.mem_append_right _ (List.mem_cons_self ..)
          rw [← (List.cons.inj hwav').1] at hmem
          exact absurd hmem (by decide)
    refine ⟨z, ?_, ?_, ?_⟩
    · rw [if_pos hbegin]
      rfl
    · exact h.append_separator (d := 46) rfl hwav
    · rw [if_pos hbegin, List.length_append, Nat.add_comm]
      rfl
  · refine ⟨y, if_neg hbegin, ?_, by rw [if_neg hbegin, Nat.add_zero]⟩
    exact (hring.append_separator (d := 45) rfl h).append_separator (d := 46) rfl hwav

/-- A clean name with the prefix and the extension that it lacks. -/
theorem withRingAndWav_of_clean {n : JsString} (h : Clean n) :
    ∃ y z, withRingAndWav n = units "ring-" ++ z ++ units ".wav" ∧
      Clean (units "ring-" ++ z ++ units ".wav") ∧
      (if (units ".wav").isSuffixOf n then n else n ++ units ".wav") = y ++ units ".wav" ∧
      z.length + (if (units "ring-").isPrefixOf (y ++ units ".wav") then 5 else 0) +
        (if (units ".wav").isSuffixOf n then 4 else 0) = n.length := by
  obtain ⟨y, hy, hstem, hylength⟩ := exists_stem h
  obtain ⟨z, hmiddle, hz, hzlength⟩ := exists_middle hy
  have hsuffix : (units ".wav").isSuffixOf (units "ring-" ++ z ++ units ".wav") = true :=
    List.isSuffixOf_iff_suffix.mpr ⟨_, rfl⟩
  have hspecial : ¬ (units "ring-" ++ z ++ units ".wav" = [] ∨
      units "ring-" ++ z ++ units ".wav" = units "ring" ∨
      units "ring-" ++ z ++ units ".wav" = units "ring.wav") := by
    rintro (h | h | h)
    · cases h
    · cases h
    · cases h
  refine ⟨y, z, ?_, hz, hstem, by rw [hzlength, hylength]⟩
  rw [withRingAndWav, hstem, hmiddle, ← List.append_assoc, hz.collapse_eq_self,
    hz.trimSeparators_eq_self, if_neg hspecial, hsuffix]
  rfl

/-- The name of an upload is `ring-`, some characters and `.wav`, and it is clean. -/
theorem buildUploadSoundName_spec (lower : JsString) :
    ∃ z, buildUploadSoundName lower = units "ring-" ++ z ++ units ".wav" ∧
      Clean (units "ring-" ++ z ++ units ".wav") ∧
      (buildUploadSoundName lower).length = uploadNameLength (segments lower) := by
  rw [buildUploadSoundName, trimSeparators_collapse]
  obtain ⟨-, hsegments, -⟩ := segments_spec lower
  cases hs : segments lower with
  | nil =>
    have hring : Clean (units "ring") := .of_word (List.cons_ne_nil _ _) isWordUnit_ring
    have hwav : Clean (units "wav") := .of_word (List.cons_ne_nil _ _) isWordUnit_wav
    have hname : Clean (units "ring-" ++ units "wav" ++ units ".wav") :=
      (hring.append_separator (d := 45) rfl hwav).append_separator (d := 46) rfl hwav
    have hempty : withRingAndWav [] = units "ring-" ++ units "wav" ++ units ".wav" := by
      decide +kernel
    refine ⟨units "wav", hempty, hname, ?_⟩
    rw [hempty]
    rfl
  | cons segment rest =>
    obtain ⟨gap, word⟩ := segment
    rw [hs] at hsegments
    obtain ⟨hsegment, hrest⟩ := List.forall_mem_cons.mp hsegments
    have hclean := clean_joinWords hsegment.word_ne_nil hsegment.word hrest
    obtain ⟨y, z, hname, hz, hstem, hlength⟩ := withRingAndWav_of_clean hclean
    have hextension : y ++ units ".wav" = joinWords word rest ∧ endsInWav rest = true ∨
        y ++ units ".wav" = joinWords word rest ++ units ".wav" := by
      rw [← hstem, isSuffixOf_joinWords hsegment.word hrest]
      split
      · next hends => exact Or.inl ⟨rfl, hends⟩
      · exact Or.inr rfl
    rw [isSuffixOf_joinWords hsegment.word hrest, isPrefixOf_joinWords hsegment.word hextension,
      length_joinWords] at hlength
    have hlengths : (units "ring-").length = 5 ∧ (units ".wav").length = 4 := ⟨rfl, rfl⟩
    refine ⟨z, hname, hz, ?_⟩
    dsimp only
    rw [hname, uploadNameLength, ← hlength, List.length_append, List.length_append, hlengths.1,
      hlengths.2]
    split <;> split <;> omega

theorem refused_for_name_iff (s : Webd.RingSounds) (request : Webd.HttpRequest)
    (io : Webd.SoundsIo) :
    (Webd.handleUploadRingSound s request io).2 = some Webd.invalidSoundName ↔
      Webd.isSafeSoundName (Webd.uploadName request) = false := by
  have hother : ∀ {status : ℕ} {body : Bytes}, status ≠ 400 →
      (⟨status, body⟩ : Webd.HttpResponse) ≠ Webd.invalidSoundName := by
    intro status body hne heq
    exact hne (congrArg Webd.HttpResponse.status heq)
  rw [Webd.handleUploadRingSound]
  by_cases hsafe : Webd.isSafeSoundName (Webd.uploadName request) = true
  · rw [hsafe]
    simp only [Bool.not_true, Bool.false_eq_true, if_false, iff_false, Bool.true_eq_false]
    intro heq
    split at heq
    · exact hother (by decide : 415 ≠ 400) (Option.some.inj heq)
    · split at heq
      · exact hother (by decide : 415 ≠ 400) (Option.some.inj heq)
      · split at heq
        · exact hother (by decide : 500 ≠ 400) (Option.some.inj heq)
        · split at heq
          · exact hother (by decide : 500 ≠ 400) (Option.some.inj heq)
          · split at heq
            · exact hother (by decide : 500 ≠ 400) (Option.some.inj heq)
            · split at heq
              · exact hother (by decide : 500 ≠ 400) (Option.some.inj heq)
              · exact hother (by decide : 200 ≠ 400) (Option.some.inj heq)
  · rw [Bool.not_eq_true] at hsafe
    rw [hsafe]
    exact iff_of_true rfl rfl

/-- The server accepts the name of an upload if the name is no longer than 128 characters, and
refuses a request for it for its name only if it is longer. -/
theorem upload_name_accepted_iff (toLowerCase : JsString → JsString) (originalName : JsString) :
    (Webd.isSafeSoundName (asciiBytes (buildUploadSoundName (toLowerCase originalName))) = true ↔
      uploadNameLength (segments (toLowerCase originalName)) ≤ 128) ∧
    ∀ (s : Webd.RingSounds) (request : Webd.HttpRequest) (io : Webd.SoundsIo),
      Webd.uploadName request = asciiBytes (buildUploadSoundName (toLowerCase originalName)) →
      ((Webd.handleUploadRingSound s request io).2 ≠ some Webd.invalidSoundName ↔
        uploadNameLength (segments (toLowerCase originalName)) ≤ 128) := by
  have haccepted :
      Webd.isSafeSoundName (asciiBytes (buildUploadSoundName (toLowerCase originalName))) = true ↔
        uploadNameLength (segments (toLowerCase originalName)) ≤ 128 := by
    obtain ⟨z, heq, hclean, hlength⟩ := buildUploadSoundName_spec (toLowerCase originalName)
    rw [← hlength, heq]
    exact isSafeSoundName_iff hclean
  refine ⟨haccepted, ?_⟩
  intro s request io hname
  rw [ne_eq, refused_for_name_iff, hname, Bool.not_eq_false, haccepted]

/-- A name of 120 letters and an extension is too long when it has got its prefix. -/
theorem long_upload_name_refused :
    let lower := List.replicate 120 97 ++ units ".wav"
    buildUploadSoundName lower = units "ring-" ++ lower ∧
      Webd.isSafeSoundName (asciiBytes (buildUploadSoundName lower)) = false := by
  decide +kernel

end VirtualChime.WebUi
