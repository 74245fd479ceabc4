import VirtualChime.Bytes
import VirtualChime.Library.SemVer

/-!
# The version gate

`check_version_bump.sh` takes a change only if the version goes up, which it finds out with
`semver_gt`.  Here its comparison is shown to be the precedence of Semantic Versioning.
-/

namespace VirtualChime.VersionGate

open SemVer

/-! ## 1. The source -/

abbrev dot : Byte := 46
abbrev hyphen : Byte := 45
abbrev plus : Byte := 43

/-- `[0-9A-Za-z-]`. -/
def isIdentifierChar (c : Byte) : Bool :=
  isDigit c || (decide (65 ≤ c.toNat) && decide (c.toNat ≤ 90)) ||
    (decide (97 ≤ c.toNat) && decide (c.toNat ≤ 122)) || c == hyphen

def isIdentifiersChar (c : Byte) : Bool := isIdentifierChar c || c == dot

/-- `[0-9]+`, and what follows it. -/
def scanDigits (s : Bytes) : Option (Bytes × Bytes) :=
  if s.takeWhile isDigit = [] then none else some (s.takeWhile isDigit, s.dropWhile isDigit)

def scanChar (c : Byte) (s : Bytes) : Option Bytes :=
  if s.head? = some c then some s.tail else none

/-- `(mark[0-9A-Za-z-]+(\.[0-9A-Za-z-]+)*)?`: what stands after the mark, and what follows it. -/
def scanIdentifiers (mark : Byte) (s : Bytes) : Option (Bytes × Bytes) :=
  if s.head? = some mark then
    if ((s.tail.takeWhile isIdentifiersChar).splitOn dot).any List.isEmpty then none
    else some (s.tail.takeWhile isIdentifiersChar, s.tail.dropWhile isIdentifiersChar)
  else some ([], s)

/-- The groups of the regular expression that `semver_parse` prints. -/
structure SemverMatch where
  major : Bytes := []
  minor : Bytes := []
  patch : Bytes := []
  prerelease : Bytes := []
deriving DecidableEq, Repr

/-- The match of the regular expression of `is_semver` and `semver_parse`: nothing that may follow a
part can be taken into it, so every part takes all it can. -/
def matchSemver (value : Bytes) : Option SemverMatch := do
  let (major, rest) ← scanDigits value
  let rest ← scanChar dot rest
  let (minor, rest) ← scanDigits rest
  let rest ← scanChar dot rest
  let (patch, rest) ← scanDigits rest
  let (prerelease, rest) ← scanIdentifiers hyphen rest
  let (_, rest) ← scanIdentifiers plus rest
  if rest = [] then some { major, minor, patch, prerelease } else none

def isSemver (value : Bytes) : Bool := (matchSemver value).isSome

def isInteger (value : Bytes) : Bool := decide (value ≠ []) && value.all isDigit

/-- What `read` gets from `semver_parse`; nothing if there is no match. -/
def semverParse (value : Bytes) : SemverMatch := (matchSemver value).getD {}

/-- The integer that `[` makes of digits; with any other it has no result but an error. -/
def testInteger (text : Bytes) : Option ℕ :=
  if isInteger text && decide (digitsValue text < 2 ^ 63) then some (digitsValue text) else none

/-- `[ "$a" -gt "$b" ]`; an error counts as no. -/
def testGt (a b : Bytes) : Bool :=
  match testInteger a, testInteger b with
  | some m, some n => decide (n < m)
  | _, _ => false

def testLt (a b : Bytes) : Bool := testGt b a

/-- `[[ "$a" < "$b" ]]` where strings are collated byte by byte. -/
def collatesBefore (a b : Bytes) : Bool := decide (a.map UInt8.toNat < b.map UInt8.toNat)

/-- The body of the loop of `semver_compare_prerelease`: what it prints before it returns, or none
if it goes on. -/
def comparePart (li ri : Bytes) : Option ℤ :=
  if li = [] ∧ ri = [] then none
  else if li = [] then some (-1)
  else if ri = [] then some 1
  else if isInteger li && isInteger ri then
    if testGt li ri then some 1 else if testLt li ri then some (-1) else none
  else if isInteger li && !isInteger ri then some (-1)
  else if !isInteger li && isInteger ri then some 1
  else if collatesBefore ri li then some 1
  else if collatesBefore li ri then some (-1)
  else none

def compareParts : List (Bytes × Bytes) → ℤ
  | [] => 0
  | (li, ri) :: parts => (comparePart li ri).getD (compareParts parts)

/-- `${lparts[i]:-}` and `${rparts[i]:-}` for each `i` that one of the two has. -/
def pairParts (lparts rparts : List Bytes) : List (Bytes × Bytes) :=
  List.zipWithAll (fun li ri => (li.getD [], ri.getD [])) lparts rparts

def semverComparePrerelease (lhs rhs : Bytes) : ℤ :=
  if lhs = [] ∧ rhs = [] then 0
  else if lhs = [] then 1
  else if rhs = [] then -1
  else compareParts (pairParts (lhs.splitOn dot) (rhs.splitOn dot))

def semverCompare (lhs rhs : Bytes) : ℤ :=
  let l := semverParse lhs
  let r := semverParse rhs
  if testGt l.major r.major then 1
  else if testLt l.major r.major then -1
  else if testGt l.minor r.minor then 1
  else if testLt l.minor r.minor then -1
  else if testGt l.patch r.patch then 1
  else if testLt l.patch r.patch then -1
  else semverComparePrerelease l.prerelease r.prerelease

def semverGt (a b : Bytes) : Bool := decide (0 < semverCompare a b)

/-- What the script checks of the version before and after a change that needs a new one. -/
def acceptsBump (base target : Bytes) : Bool :=
  isSemver base && isSemver target && semverGt target base

/-! ## 2. Version strings -/

def IsNumber (text : Bytes) : Prop := text ≠ [] ∧ ∀ c ∈ text, isDigit c = true

/-- Identifiers with dots between them. -/
def IsIdentifiers (text : Bytes) : Prop :=
  ∀ part ∈ text.splitOn dot, part ≠ [] ∧ ∀ c ∈ part, isIdentifierChar c = true

/-- The parts of a version string; the last two are empty where they are left out. -/
structure VersionText where
  major : Bytes
  minor : Bytes
  patch : Bytes
  prerelease : Bytes
  build : Bytes
  major_number : IsNumber major
  minor_number : IsNumber minor
  patch_number : IsNumber patch
  prerelease_identifiers : prerelease = [] ∨ IsIdentifiers prerelease
  build_identifiers : build = [] ∨ IsIdentifiers build

def marked (mark : Byte) (text : Bytes) : Bytes := if text = [] then [] else mark :: text

def VersionText.text (v : VersionText) : Bytes :=
  v.major ++ dot :: (v.minor ++ dot :: (v.patch ++
    (marked hyphen v.prerelease ++ marked plus v.build)))

/-- An identifier of digits is a number, and any other a text of ASCII characters. -/
def identifierOf (text : Bytes) : Identifier ℕ :=
  if isInteger text then .numeric (digitsValue text) else .alphanumeric (text.map UInt8.toNat)

def identifiers (text : Bytes) : List Bytes := if text = [] then [] else text.splitOn dot

/-- The version that the parts spell. -/
def VersionText.version (v : VersionText) : Version ℕ where
  major := digitsValue v.major
  minor := digitsValue v.minor
  patch := digitsValue v.patch
  prerelease := (identifiers v.prerelease).map identifierOf
  build := (identifiers v.build).map (·.map UInt8.toNat)

def Spells (value : Bytes) (v : Version ℕ) : Prop :=
  ∃ t : VersionText, t.text = value ∧ t.version = v

theorem scanDigits_run {ds rest : Bytes} (hds : IsNumber ds)
    (hrest : ∀ c ∈ rest.head?, isDigit c = false) :
    scanDigits (ds ++ rest) = some (ds, rest) := by
  rw [scanDigits, Scanner.takeWhile_run hds.2 hrest, Scanner.dropWhile_run hds.2 hrest,
    if_neg hds.1]

theorem isNumber_of_scanDigits {s ds rest : Bytes} (h : scanDigits s = some (ds, rest)) :
    s = ds ++ rest ∧ IsNumber ds := by
  rw [scanDigits] at h
  split at h
  · cases h
  · next hne =>
    cases h
    refine ⟨List.takeWhile_append_dropWhile.symm, hne, ?_⟩
    intro c hc
    exact List.mem_takeWhile_imp hc

@[simp] theorem scanChar_cons (c : Byte) (s : Bytes) : scanChar c (c :: s) = some s := if_pos rfl

theorem eq_cons_of_scanChar {c : Byte} {s rest : Bytes} (h : scanChar c s = some rest) :
    s = c :: rest := by
  rw [scanChar] at h
  split at h
  · next hhead =>
    cases h
    exact (List.cons_head?_tail hhead).symm
  · cases h

theorem isIdentifiersChar_of_mem {text : Bytes} (h : IsIdentifiers text) {c : Byte}
    (hc : c ∈ text) : isIdentifiersChar c = true := by
  rw [isIdentifiersChar, Bool.or_eq_true, beq_iff_eq]
  by_cases hdot : c = dot
  · exact Or.inr hdot
  · obtain ⟨part, hpart, hmem⟩ := Scanner.exists_mem_splitOn.mpr ⟨hc, hdot⟩
    exact Or.inl ((h part hpart).2 c hmem)

theorem ne_nil_of_isIdentifiers {text : Bytes} (h : IsIdentifiers text) : text ≠ [] := by
  rintro rfl
  exact (h [] (by simp)).1 rfl

/-- A group that is there is taken whole. -/
theorem scanIdentifiers_marked {mark : Byte} {text rest : Bytes}
    (htext : text = [] ∨ IsIdentifiers text) (hmark : rest.head? ≠ some mark)
    (hrest : ∀ c ∈ rest.head?, isIdentifiersChar c = false) :
    scanIdentifiers mark (marked mark text ++ rest) = some (text, rest) := by
  rcases htext with rfl | htext
  · exact if_neg hmark
  · have hne := ne_nil_of_isIdentifiers htext
    have hrun : ∀ c ∈ text, isIdentifiersChar c = true := fun c hc => isIdentifiersChar_of_mem htext hc
    have hnone : ¬ (text.splitOn dot).any List.isEmpty = true := by
      intro hany
      obtain ⟨part, hpart, hempty⟩ := List.any_eq_true.mp hany
      exact (htext part hpart).1 (List.isEmpty_iff.mp hempty)
    rw [marked, if_neg hne, List.cons_append, scanIdentifiers, if_pos List.head?_cons,
      List.tail_cons, Scanner.takeWhile_run hrun hrest, Scanner.dropWhile_run hrun hrest,
      if_neg hnone]

theorem marked_of_scanIdentifiers {mark : Byte} {s text rest : Bytes}
    (h : scanIdentifiers mark s = some (text, rest)) :
    s = marked mark text ++ rest ∧ (text = [] ∨ IsIdentifiers text) := by
  rw [scanIdentifiers] at h
  split at h
  · next hhead =>
    split at h
    · cases h
    · next hnone =>
      cases h
      have hidentifiers : IsIdentifiers (s.tail.takeWhile isIdentifiersChar) := by
        intro part hpart
        constructor
        · rintro rfl
          exact hnone (List.any_eq_true.mpr ⟨[], hpart, rfl⟩)
        · intro c hc
          obtain ⟨hall, hdot⟩ := Scanner.exists_mem_splitOn.mp ⟨part, hpart, hc⟩
          have hchar := List.mem_takeWhile_imp hall
          rw [isIdentifiersChar, Bool.or_eq_true, beq_iff_eq] at hchar
          exact hchar.resolve_right hdot
      refine ⟨?_, Or.inr hidentifiers⟩
      rw [marked, if_neg (ne_nil_of_isIdentifiers hidentifiers), List.cons_append,
        List.takeWhile_append_dropWhile]
      exact (List.cons_head?_tail hhead).symm
  · cases h
    exact ⟨by simp [marked], Or.inl rfl⟩

theorem head?_marked {mark : Byte} {text rest : Bytes} {c : Byte}
    (hc : c ∈ (marked mark text ++ rest).head?) : c = mark ∨ c ∈ rest.head? := by
  rw [marked] at hc
  split at hc
  · exact Or.inr hc
  · left
    simpa using hc.symm

/-- The regular expression takes a version string apart. -/
theorem matchSemver_text (v : VersionText) :
    matchSemver v.text =
      some { major := v.major, minor := v.minor, patch := v.patch, prerelease := v.prerelease } := by
  have hend : marked plus v.build = marked plus v.build ++ [] := (List.append_nil _).symm
  have hbuild : ∀ c ∈ (marked plus v.build).head?, c = plus := by
    intro c hc
    rw [hend] at hc
    rcases head?_marked hc with hplus | hnil
    · exact hplus
    · cases hnil
  have hpatch : ∀ c ∈ (marked hyphen v.prerelease ++ marked plus v.build).head?,
      isDigit c = false := by
    intro c hc
    rcases head?_marked hc with rfl | hc
    · decide
    · rw [hbuild c hc]
      decide
  have hdot : ∀ rest : Bytes, ∀ c ∈ (dot :: rest).head?, isDigit c = false := by
    intro rest c hc
    cases hc
    decide
  have hhyphen : (marked plus v.build).head? ≠ some hyphen := by
    intro hhead
    have heq := hbuild hyphen hhead
    revert heq
    decide
  have hplus : ∀ c ∈ (marked plus v.build).head?, isIdentifiersChar c = false := by
    intro c hc
    rw [hbuild c hc]
    decide
  have hprerelease := scanIdentifiers_marked v.prerelease_identifiers hhyphen hplus
  have hmetadata : scanIdentifiers plus (marked plus v.build ++ []) = some (v.build, []) :=
    scanIdentifiers_marked v.build_identifiers (by simp) (by simp)
  rw [← hend] at hmetadata
  simp [matchSemver, VersionText.text, scanDigits_run v.major_number (hdot _),
    scanDigits_run v.minor_number (hdot _), scanDigits_run v.patch_number hpatch, hprerelease,
    hmetadata]

/-- What matches is a version string. -/
theorem exists_of_matchSemver {value : Bytes} {m : SemverMatch} (h : matchSemver value = some m) :
    ∃ v : VersionText, v.text = value := by
  simp only [matchSemver, Option.bind_eq_bind, Option.bind_eq_some_iff, Prod.exists] at h
  obtain ⟨major, _, hscan, _, hdot, minor, _, hscan', _, hdot', patch, _, hscan'', prerelease, _,
    hgroup, build, _, hgroup', hend⟩ := h
  obtain ⟨rfl, hmajor⟩ := isNumber_of_scanDigits hscan
  obtain rfl := eq_cons_of_scanChar hdot
  obtain ⟨rfl, hminor⟩ := isNumber_of_scanDigits hscan'
  obtain rfl := eq_cons_of_scanChar hdot'
  obtain ⟨rfl, hpatch⟩ := isNumber_of_scanDigits hscan''
  obtain ⟨rfl, hprerelease⟩ := marked_of_scanIdentifiers hgroup
  obtain ⟨rfl, hbuild⟩ := marked_of_scanIdentifiers hgroup'
  split at hend
  · next hnil =>
    refine ⟨⟨major, minor, patch, prerelease, build, hmajor, hminor, hpatch, hprerelease, hbuild⟩, ?_⟩
    rw [VersionText.text, hnil, List.append_nil]
  · cases hend

/-- `is_semver` takes the version strings and nothing else. -/
theorem isSemver_iff {value : Bytes} : isSemver value = true ↔ ∃ v, Spells value v := by
  rw [isSemver, Option.isSome_iff_exists]
  constructor
  · rintro ⟨m, hm⟩
    obtain ⟨t, ht⟩ := exists_of_matchSemver hm
    exact ⟨t.version, t, ht, rfl⟩
  · rintro ⟨_, t, rfl, -⟩
    exact ⟨_, matchSemver_text t⟩

/-! ## 3. Comparisons -/

theorem isInteger_iff {text : Bytes} : isInteger text = true ↔ IsNumber text := by
  simp [isInteger, IsNumber]

theorem testInteger_of_isInteger {text : Bytes} (h : isInteger text = true)
    (hsmall : digitsValue text < 2 ^ 63) : testInteger text = some (digitsValue text) := by
  rw [testInteger, h, decide_eq_true hsmall]
  rfl

/-- `[` compares two numbers that it can read. -/
theorem testGt_iff {a b : Bytes} (ha : isInteger a = true) (hb : isInteger b = true)
    (hasmall : digitsValue a < 2 ^ 63) (hbsmall : digitsValue b < 2 ^ 63) :
    testGt a b = true ↔ digitsValue b < digitsValue a := by
  rw [testGt, testInteger_of_isInteger ha hasmall, testInteger_of_isInteger hb hbsmall]
  exact decide_eq_true_iff

/-- An identifier that `[` can read if it is a number. -/
def IsSmall (part : Bytes) : Prop := ∀ n, identifierOf part = .numeric n → n < 2 ^ 63

theorem digitsValue_lt_of_isSmall {part : Bytes} (h : IsSmall part)
    (hinteger : isInteger part = true) : digitsValue part < 2 ^ 63 := by
  apply h
  rw [identifierOf, if_pos hinteger]

/-- Two tests that each end the loop with a result. -/
theorem getD_decided (c d : Prop) [Decidable c] [Decidable d] (x y rest : ℤ) :
    (if c then some x else if d then some y else none).getD rest =
      if c then x else if d then y else rest := by
  split
  · rfl
  · split
    · rfl
    · rfl

/-- One pass of the loop decides as the precedence of the two identifiers does. -/
theorem comparePart_eq {li ri : Bytes} (hli : li ≠ []) (hri : ri ≠ []) (hl : IsSmall li)
    (hr : IsSmall ri) (rest : ℤ) :
    (comparePart li ri).getD rest =
      if (identifierOf ri).key < (identifierOf li).key then 1
      else if (identifierOf li).key < (identifierOf ri).key then -1 else rest := by
  have hnil : ¬ (li = [] ∧ ri = []) := fun h => hli h.1
  rw [comparePart, if_neg hnil, if_neg hli, if_neg hri]
  cases hlint : isInteger li with
  | true =>
    have hlsmall := digitsValue_lt_of_isSmall hl hlint
    cases hrint : isInteger ri with
    | true =>
      have hrsmall := digitsValue_lt_of_isSmall hr hrint
      have hgt := testGt_iff hlint hrint hlsmall hrsmall
      have hlt := testGt_iff hrint hlint hrsmall hlsmall
      simp only [identifierOf, hlint, hrint, Identifier.key, Sum.Lex.inl_lt_inl_iff, testLt, hgt,
        hlt, Bool.and_self, if_true]
      exact getD_decided ..
    | false => simp [identifierOf, hlint, hrint, Identifier.key]
  | false =>
    cases hrint : isInteger ri with
    | true => simp [identifierOf, hlint, hrint, Identifier.key]
    | false =>
      simp only [identifierOf, hlint, hrint, Identifier.key, Sum.Lex.inr_lt_inr_iff, collatesBefore,
        decide_eq_true_eq, Bool.and_self, Bool.false_and, Bool.and_false, Bool.false_eq_true,
        if_false]
      exact getD_decided ..

theorem comparePart_nil_left {ri : Bytes} (h : ri ≠ []) : comparePart [] ri = some (-1) := by
  simp [comparePart, h]

theorem comparePart_nil_right {li : Bytes} (h : li ≠ []) : comparePart li [] = some 1 := by
  simp [comparePart, h]

def partKey (part : Bytes) : ℕ ⊕ₗ List ℕ := (identifierOf part).key

/-- The loop compares two lists of identifiers. -/
theorem compareParts_eq {lparts rparts : List Bytes}
    (hl : ∀ part ∈ lparts, part ≠ [] ∧ IsSmall part)
    (hr : ∀ part ∈ rparts, part ≠ [] ∧ IsSmall part) :
    compareParts (pairParts lparts rparts) =
      threeWay (lparts.map partKey) (rparts.map partKey) := by
  induction lparts generalizing rparts with
  | nil =>
    cases rparts with
    | nil => simp [pairParts, compareParts]
    | cons ri rparts =>
      have hri := (hr ri (List.mem_cons_self ..)).1
      simp [pairParts, compareParts, comparePart_nil_left hri]
  | cons li lparts ih =>
    obtain ⟨hli, hlsmall⟩ := hl li (List.mem_cons_self ..)
    cases rparts with
    | nil => simp [pairParts, compareParts, comparePart_nil_right hli]
    | cons ri rparts =>
      obtain ⟨hri, hrsmall⟩ := hr ri (List.mem_cons_self ..)
      have hrest := ih (fun part h => hl part (List.mem_cons_of_mem _ h))
        fun part h => hr part (List.mem_cons_of_mem _ h)
      have hpairs : pairParts (li :: lparts) (ri :: rparts) = (li, ri) :: pairParts lparts rparts :=
        rfl
      rw [hpairs, compareParts, hrest, comparePart_eq hli hri hlsmall hrsmall, List.map_cons,
        List.map_cons, threeWay_cons]
      rfl

theorem identifiers_eq_nil_iff {text : Bytes} : identifiers text = [] ↔ text = [] := by
  rw [identifiers]
  split
  · next h => simp [h]
  · next h => simp [h, List.splitOn_ne_nil]

theorem semverComparePrerelease_eq {lhs rhs : Bytes} (hlhs : lhs = [] ∨ IsIdentifiers lhs)
    (hrhs : rhs = [] ∨ IsIdentifiers rhs) (hl : ∀ part ∈ identifiers lhs, IsSmall part)
    (hr : ∀ part ∈ identifiers rhs, IsSmall part) :
    semverComparePrerelease lhs rhs =
      threeWay (prereleaseKey ((identifiers lhs).map identifierOf))
        (prereleaseKey ((identifiers rhs).map identifierOf)) := by
  rw [threeWay_prereleaseKey, semverComparePrerelease]
  simp only [List.map_eq_nil_iff, identifiers_eq_nil_iff]
  by_cases hl' : lhs = []
  · simp [hl']
  · by_cases hr' : rhs = []
    · simp [hl', hr']
    · have hparts : ∀ {text : Bytes}, text ≠ [] → text = [] ∨ IsIdentifiers text →
          (∀ part ∈ identifiers text, IsSmall part) →
          ∀ part ∈ text.splitOn dot, part ≠ [] ∧ IsSmall part := by
        intro text hne htext hsmall part hpart
        rw [identifiers, if_neg hne] at hsmall
        exact ⟨(htext.resolve_left hne part hpart).1, hsmall part hpart⟩
      simp only [hl', hr', and_self, if_false]
      rw [compareParts_eq (hparts hl' hlhs hl) (hparts hr' hrhs hr), identifiers, if_neg hl',
        identifiers, if_neg hr', List.map_map, List.map_map]
      rfl

/-- Version strings are compared as the versions that they spell. -/
theorem semverCompare_eq {a b : Bytes} {v w : Version ℕ} (ha : Spells a v) (hb : Spells b w)
    (hv : v.NumbersBelow (2 ^ 63)) (hw : w.NumbersBelow (2 ^ 63)) :
    semverCompare a b = threeWay v.key w.key := by
  obtain ⟨s, rfl, rfl⟩ := ha
  obtain ⟨t, rfl, rfl⟩ := hb
  have hsmall : ∀ {u : VersionText}, u.version.NumbersBelow (2 ^ 63) →
      ∀ part ∈ identifiers u.prerelease, IsSmall part := by
    intro u hu part hpart n hn
    apply hu.prerelease
    rw [← hn]
    exact List.mem_map_of_mem hpart
  have htest : ∀ {x y : Bytes}, IsNumber x → IsNumber y → digitsValue x < 2 ^ 63 →
      digitsValue y < 2 ^ 63 → (testGt x y = true ↔ digitsValue y < digitsValue x) :=
    fun hx hy => testGt_iff (isInteger_iff.mpr hx) (isInteger_iff.mpr hy)
  rw [threeWay_key]
  simp only [semverCompare, semverParse, matchSemver_text, Option.getD_some, testLt,
    htest s.major_number t.major_number hv.major hw.major,
    htest t.major_number s.major_number hw.major hv.major,
    htest s.minor_number t.minor_number hv.minor hw.minor,
    htest t.minor_number s.minor_number hw.minor hv.minor,
    htest s.patch_number t.patch_number hv.patch hw.patch,
    htest t.patch_number s.patch_number hw.patch hv.patch,
    semverComparePrerelease_eq s.prerelease_identifiers t.prerelease_identifiers (hsmall hv)
      (hsmall hw)]
  rfl

/-! ## 4. The gate -/

/-- A string that `is_semver` takes, with numbers that `[` can read. -/
def IsReadable (value : Bytes) : Prop := ∃ v, Spells value v ∧ v.NumbersBelow (2 ^ 63)

theorem semverGt_iff {a b : Bytes} {v w : Version ℕ} (ha : Spells a v) (hb : Spells b w)
    (hv : v.NumbersBelow (2 ^ 63)) (hw : w.NumbersBelow (2 ^ 63)) :
    semverGt a b = true ↔ Precedes w v := by
  rw [semverGt, decide_eq_true_eq, semverCompare_eq ha hb hv hw, threeWay_pos_iff]
  rfl

/-- `semver_gt` in the rules of the scheme. -/
theorem semverGt_iff_rules {a b : Bytes} {v w : Version ℕ} (ha : Spells a v) (hb : Spells b w)
    (hv : v.NumbersBelow (2 ^ 63)) (hw : w.NumbersBelow (2 ^ 63)) :
    semverGt a b = true ↔ w.major < v.major ∨ w.major = v.major ∧
      (w.minor < v.minor ∨ w.minor = v.minor ∧
        (w.patch < v.patch ∨ w.patch = v.patch ∧ w.prerelease ≠ [] ∧
          (v.prerelease = [] ∨
            w.prerelease.map Identifier.key < v.prerelease.map Identifier.key))) := by
  rw [semverGt_iff ha hb hv hw, precedes_iff]

theorem semverGt_self {a : Bytes} (h : IsReadable a) : ¬ semverGt a a = true := by
  obtain ⟨v, ha, hv⟩ := h
  rw [semverGt_iff ha ha hv hv]
  exact not_precedes_self v

theorem semverGt_trans {a b c : Bytes} (ha : IsReadable a) (hb : IsReadable b) (hc : IsReadable c)
    (hab : semverGt a b = true) (hbc : semverGt b c = true) : semverGt a c = true := by
  obtain ⟨u, ha, hu⟩ := ha
  obtain ⟨v, hb, hv⟩ := hb
  obtain ⟨w, hc, hw⟩ := hc
  rw [semverGt_iff ha hb hu hv] at hab
  rw [semverGt_iff hb hc hv hw] at hbc
  rw [semverGt_iff ha hc hu hw]
  exact hbc.trans hab

/-- The second version is the higher one of two that can be read. -/
def GoesUp (base target : Bytes) : Prop :=
  IsReadable base ∧ IsReadable target ∧ semverGt target base = true

instance : IsTrans Bytes GoesUp where
  trans := by
    rintro a b c ⟨ha, hb, hab⟩ ⟨-, hc, hbc⟩
    exact ⟨ha, hc, semverGt_trans hc hb ha hbc hab⟩

/-- Of two versions one is higher, or `semver_compare` finds them equal. -/
theorem exactly_one {a b : Bytes} (ha : IsReadable a) (hb : IsReadable b) :
    (semverGt a b = true ∧ ¬ semverGt b a = true ∧ semverCompare a b ≠ 0) ∨
    (¬ semverGt a b = true ∧ semverGt b a = true ∧ semverCompare a b ≠ 0) ∨
    (¬ semverGt a b = true ∧ ¬ semverGt b a = true ∧ semverCompare a b = 0) := by
  obtain ⟨v, ha, hv⟩ := ha
  obtain ⟨w, hb, hw⟩ := hb
  rw [semverGt_iff ha hb hv hw, semverGt_iff hb ha hw hv, semverCompare_eq ha hb hv hw, Ne,
    threeWay_eq_zero_iff]
  rcases precedes_trichotomy v w with hlt | heq | hgt
  · exact Or.inr (Or.inl ⟨hlt.asymm, hlt, hlt.ne⟩)
  · refine Or.inr (Or.inr ⟨?_, ?_, heq⟩)
    · exact heq.not_gt
    · exact heq.not_lt
  · exact Or.inl ⟨hgt, hgt.asymm, hgt.ne'⟩

/-- The comparison of the gate is the precedence of versions, so it orders them, and a history of
accepted changes never comes back to a version that is not higher. -/
theorem gate_orders_versions :
    (∀ value, isSemver value = true ↔ ∃ v, Spells value v) ∧
    (∀ a b v w, Spells a v → Spells b w → v.NumbersBelow (2 ^ 63) → w.NumbersBelow (2 ^ 63) →
      semverCompare a b = threeWay v.key w.key ∧ (semverGt a b = true ↔ Precedes w v) ∧
        (semverCompare a b = 0 ↔ SamePrecedence v w)) ∧
    (∀ a, IsReadable a → ¬ semverGt a a = true) ∧
    (∀ a b c, IsReadable a → IsReadable b → IsReadable c → semverGt a b = true →
      semverGt b c = true → semverGt a c = true) ∧
    (∀ a b, IsReadable a → IsReadable b →
      (semverGt a b = true ∧ ¬ semverGt b a = true ∧ semverCompare a b ≠ 0) ∨
      (¬ semverGt a b = true ∧ semverGt b a = true ∧ semverCompare a b ≠ 0) ∨
      (¬ semverGt a b = true ∧ ¬ semverGt b a = true ∧ semverCompare a b = 0)) ∧
    ∀ history : List Bytes, (∀ value ∈ history, IsReadable value) →
      (history.IsChain fun base target => acceptsBump base target = true) →
      history.Pairwise fun earlier later => semverGt later earlier = true := by
  refine ⟨?_, ?_, ?_, ?_, ?_, ?_⟩
  · intro value
    exact isSemver_iff
  · intro a b v w ha hb hv hw
    refine ⟨semverCompare_eq ha hb hv hw, semverGt_iff ha hb hv hw, ?_⟩
    rw [semverCompare_eq ha hb hv hw, threeWay_eq_zero_iff]
    rfl
  · intro a ha
    exact semverGt_self ha
  · intro a b c ha hb hc hab hbc
    exact semverGt_trans ha hb hc hab hbc
  · intro a b ha hb
    exact exactly_one ha hb
  · intro history hreadable hchain
    have hup : history.IsChain GoesUp := by
      apply hchain.imp_of_mem_imp
      intro base target hbase htarget haccepted
      rw [acceptsBump, Bool.and_eq_true] at haccepted
      exact ⟨hreadable base hbase, hreadable target htarget, haccepted.2⟩
    exact hup.pairwise.imp fun h => h.2.2

example : (["1.0.0-alpha", "1.0.0-alpha.1", "1.0.0-alpha.beta", "1.0.0-beta", "1.0.0-beta.2",
    "1.0.0-beta.11", "1.0.0-rc.1", "1.0.0+5"].map bytes).IsChain (acceptsBump · ·) := by
  decide +kernel

/-- Numbers that `[` cannot read are not told apart. -/
example : semverCompare (bytes "9223372036854775809.0.0") (bytes "9223372036854775808.0.0") = 0 := by
  decide +kernel

end VirtualChime.VersionGate
