import Mathlib.Data.List.Lex
import Mathlib.Data.Prod.Lex
import Mathlib.Data.Sum.Order
import Mathlib.Order.WithBot
import Mathlib.Tactic

/-!
# Semantic versions

The precedence of Semantic Versioning 2.0.0, as the pull-back of a linear order: the three
numbers, then the pre-release identifiers, with a release above all its pre-releases and
build metadata left out.  The comparisons that programs make one component at a time are
put together by `threeWay`.
-/

namespace SemVer

/-! ## 1. Comparisons with three results -/

section ThreeWay

variable {α β : Type*} [LinearOrder α] [LinearOrder β]

/-- One if the first is greater, minus one if it is less, and zero otherwise. -/
def threeWay (a b : α) : ℤ := if b < a then 1 else if a < b then -1 else 0

theorem threeWay_of_lt {a b : α} (h : a < b) : threeWay a b = -1 := by
  rw [threeWay, if_neg h.asymm, if_pos h]

theorem threeWay_of_gt {a b : α} (h : b < a) : threeWay a b = 1 := if_pos h

@[simp] theorem threeWay_self (a : α) : threeWay a a = 0 := by simp [threeWay]

theorem threeWay_pos_iff {a b : α} : 0 < threeWay a b ↔ b < a := by
  rcases lt_trichotomy a b with h | rfl | h
  · simp [threeWay_of_lt h, h.le]
  · simp
  · simp [threeWay_of_gt h, h]

theorem threeWay_eq_zero_iff {a b : α} : threeWay a b = 0 ↔ a = b := by
  rcases lt_trichotomy a b with h | rfl | h
  · simp [threeWay_of_lt h, h.ne]
  · simp
  · simp [threeWay_of_gt h, h.ne']

/-- A comparison carries over along what keeps and reflects the order. -/
theorem threeWay_map {f : α → β} (hf : ∀ a b, f a < f b ↔ a < b) (a b : α) :
    threeWay (f a) (f b) = threeWay a b := by
  simp only [threeWay, hf]

/-- The first components decide, or the second do. -/
theorem threeWay_toLex (a a' : α) (b b' : β) :
    threeWay (toLex (a, b)) (toLex (a', b')) =
      if a' < a then 1 else if a < a' then -1 else threeWay b b' := by
  rcases lt_trichotomy a a' with h | rfl | h
  · simp [threeWay, Prod.Lex.toLex_lt_toLex, h, h.asymm, h.ne']
  · simp [threeWay, Prod.Lex.toLex_lt_toLex]
  · simp [threeWay, Prod.Lex.toLex_lt_toLex, h]

/-- So do the first elements of two lists. -/
theorem threeWay_cons (a a' : α) (s s' : List α) :
    threeWay (a :: s) (a' :: s') = if a' < a then 1 else if a < a' then -1 else threeWay s s' := by
  rcases lt_trichotomy a a' with h | rfl | h
  · rw [if_neg h.asymm, if_pos h]
    exact threeWay_of_lt (List.cons_lt_cons_iff.mpr (Or.inl h))
  · rw [if_neg (lt_irrefl a), if_neg (lt_irrefl a)]
    have hcons : ∀ s s' : List α, a :: s < a :: s' ↔ s < s' := by
      intro s s'
      simp
    exact threeWay_map hcons s s'
  · rw [if_pos h]
    exact threeWay_of_gt (List.cons_lt_cons_iff.mpr (Or.inl h))

@[simp] theorem threeWay_cons_nil (a : α) (s : List α) : threeWay (a :: s) [] = 1 :=
  threeWay_of_gt (List.nil_lt_cons a s)

@[simp] theorem threeWay_nil_cons (a : α) (s : List α) : threeWay [] (a :: s) = -1 :=
  threeWay_of_lt (List.nil_lt_cons a s)

end ThreeWay

/-! ## 2. Precedence -/

/-- An identifier of a pre-release: a number, or a text over an alphabet. -/
inductive Identifier (α : Type*) where
  | numeric (n : ℕ)
  | alphanumeric (text : List α)
deriving DecidableEq

/-- A version; one without pre-release identifiers is a release. -/
structure Version (α : Type*) where
  major : ℕ
  minor : ℕ
  patch : ℕ
  prerelease : List (Identifier α)
  build : List (List α)

/-- Every number of the version is below a bound; build metadata has none. -/
structure Version.NumbersBelow {α : Type*} (v : Version α) (bound : ℕ) : Prop where
  major : v.major < bound
  minor : v.minor < bound
  patch : v.patch < bound
  prerelease : ∀ n, .numeric n ∈ v.prerelease → n < bound

section Precedence

variable {α : Type*}

/-- Numbers come before texts. -/
def Identifier.key : Identifier α → ℕ ⊕ₗ List α
  | .numeric n => toLex (.inl n)
  | .alphanumeric text => toLex (.inr text)

/-- Where the pre-release stands: a release above all of them. -/
def prereleaseKey (prerelease : List (Identifier α)) : WithTop (List (ℕ ⊕ₗ List α)) :=
  if prerelease = [] then ⊤ else ↑(prerelease.map Identifier.key)

def Version.key (v : Version α) : ℕ ×ₗ ℕ ×ₗ ℕ ×ₗ WithTop (List (ℕ ⊕ₗ List α)) :=
  toLex (v.major, toLex (v.minor, toLex (v.patch, prereleaseKey v.prerelease)))

variable [LinearOrder α]

/-- The first version has the lower precedence. -/
def Precedes (v w : Version α) : Prop := v.key < w.key

def SamePrecedence (v w : Version α) : Prop := v.key = w.key

theorem prereleaseKey_lt_iff {s t : List (Identifier α)} :
    prereleaseKey s < prereleaseKey t ↔
      s ≠ [] ∧ (t = [] ∨ s.map Identifier.key < t.map Identifier.key) := by
  by_cases hs : s = []
  · simp [prereleaseKey, hs]
  · by_cases ht : t = []
    · simp [prereleaseKey, hs, ht]
    · simp [prereleaseKey, hs, ht]

/-- The rules of precedence, one after the other. -/
theorem precedes_iff {v w : Version α} :
    Precedes v w ↔ v.major < w.major ∨ v.major = w.major ∧
      (v.minor < w.minor ∨ v.minor = w.minor ∧
        (v.patch < w.patch ∨ v.patch = w.patch ∧ v.prerelease ≠ [] ∧
          (w.prerelease = [] ∨
            v.prerelease.map Identifier.key < w.prerelease.map Identifier.key))) := by
  simp [Precedes, Version.key, Prod.Lex.toLex_lt_toLex, prereleaseKey_lt_iff]

theorem Precedes.trans {u v w : Version α} (huv : Precedes u v) (hvw : Precedes v w) :
    Precedes u w := lt_trans huv hvw

theorem not_precedes_self (v : Version α) : ¬ Precedes v v := lt_irrefl _

/-- Of any two versions one precedes the other, or they have the same precedence. -/
theorem precedes_trichotomy (v w : Version α) :
    Precedes v w ∨ SamePrecedence v w ∨ Precedes w v := lt_trichotomy v.key w.key

/-- Two pre-releases of the same numbers are compared by their identifiers. -/
theorem threeWay_prereleaseKey {s t : List (Identifier α)} :
    threeWay (prereleaseKey s) (prereleaseKey t) =
      if s = [] ∧ t = [] then 0 else if s = [] then 1 else if t = [] then -1
      else threeWay (s.map Identifier.key) (t.map Identifier.key) := by
  by_cases hs : s = []
  · by_cases ht : t = []
    · simp [hs, ht]
    · simp [threeWay, prereleaseKey, hs, ht]
  · by_cases ht : t = []
    · simp [threeWay, prereleaseKey, hs, ht]
    · simp only [prereleaseKey, hs, ht, and_self, if_false]
      exact threeWay_map (fun _ _ => WithTop.coe_lt_coe) _ _

theorem threeWay_key (v w : Version α) :
    threeWay v.key w.key =
      if w.major < v.major then 1 else if v.major < w.major then -1
      else if w.minor < v.minor then 1 else if v.minor < w.minor then -1
      else if w.patch < v.patch then 1 else if v.patch < w.patch then -1
      else threeWay (prereleaseKey v.prerelease) (prereleaseKey w.prerelease) := by
  rw [Version.key, Version.key, threeWay_toLex, threeWay_toLex, threeWay_toLex]

end Precedence

end SemVer
