import Mathlib.Data.Int.Log
import Mathlib.Data.Rat.Floor
import Mathlib.Tactic

/-!
# The nearest double

`Binary64.round` takes an exact rational to the value of the nearest IEEE 754
double, ties to the even significand, or to nothing where the result is infinite.
Proved here: which rationals have a finite double (`round_isSome_iff`), and that
the integers up to `2^53` are their own doubles (`round_intCast`).
The sign of a zero is not represented.
-/

namespace Binary64

/-! ### The nearest integer -/

/-- The nearest integer, and the even one of two. -/
def roundEven (q : ℚ) : ℤ :=
  if q - ⌊q⌋ < 1 / 2 then ⌊q⌋
  else if 1 / 2 < q - ⌊q⌋ then ⌊q⌋ + 1
  else if ⌊q⌋ % 2 = 0 then ⌊q⌋
  else ⌊q⌋ + 1

theorem roundEven_intCast (n : ℤ) : roundEven n = n := by
  rw [roundEven, Int.floor_intCast, sub_self, if_pos (by norm_num)]

theorem floor_le_roundEven (q : ℚ) : ⌊q⌋ ≤ roundEven q := by
  unfold roundEven
  split
  · exact le_refl _
  · split
    · exact Int.le_add_one (le_refl _)
    · split
      · exact le_refl _
      · exact Int.le_add_one (le_refl _)

theorem roundEven_le_floor_add_one (q : ℚ) : roundEven q ≤ ⌊q⌋ + 1 := by
  unfold roundEven
  split
  · exact Int.le_add_one (le_refl _)
  · split
    · exact le_refl _
    · split
      · exact Int.le_add_one (le_refl _)
      · exact le_refl _

theorem le_roundEven {n : ℤ} {q : ℚ} (h : (n : ℚ) ≤ q) : n ≤ roundEven q :=
  (Int.le_floor.mpr h).trans (floor_le_roundEven q)

theorem roundEven_le {n : ℤ} {q : ℚ} (h : q ≤ n) : roundEven q ≤ n := by
  rcases h.eq_or_lt with heq | hlt
  · rw [heq, roundEven_intCast]
  · have hfloor : ⌊q⌋ < n := Int.floor_lt.mpr hlt
    have hle := roundEven_le_floor_add_one q
    omega

/-- Just below an even integer the rounding reaches it from the half on. -/
theorem roundEven_lt_iff {n : ℤ} {q : ℚ} (heven : n % 2 = 0) (hlow : (n : ℚ) - 1 ≤ q)
    (hhigh : q < n) : roundEven q < n ↔ q < (n : ℚ) - 1 / 2 := by
  have hfloor : ⌊q⌋ = n - 1 := by
    rw [Int.floor_eq_iff]
    push_cast
    exact ⟨hlow, by linarith⟩
  have hodd : (n - 1) % 2 ≠ 0 := by omega
  unfold roundEven
  rw [hfloor, if_neg hodd]
  push_cast
  split
  · next h =>
    constructor
    · intro _
      linarith
    · intro _
      omega
  · next h =>
    rw [ite_self]
    constructor
    · intro hlt
      omega
    · intro hlt
      exact absurd (by linarith) h

/-! ### The rounding -/

/-- The distance of the doubles about a positive rational. -/
def ulp (a : ℚ) : ℚ := 2 ^ (max (Int.log 2 a) (-1022) - 52)

/-- A magnitude rounded, with no bound on the exponent. -/
def magnitude (a : ℚ) : ℚ := roundEven (a / ulp a) * ulp a

/-- The double nearest to a rational, unless it is infinite. -/
def round (q : ℚ) : Option ℚ :=
  if magnitude |q| < 2 ^ 1024 then some (if q < 0 then -magnitude |q| else magnitude |q|) else none

theorem ulp_pos (a : ℚ) : 0 < ulp a := zpow_pos (by norm_num) _

theorem magnitude_of_multiple {a : ℚ} (m : ℤ) (h : a = m * ulp a) : magnitude a = a := by
  have hdiv : a / ulp a = m := by
    rw [div_eq_iff (ulp_pos a).ne']
    exact h
  rw [magnitude, hdiv, roundEven_intCast]
  exact h.symm

theorem log_le_of_lt {a : ℚ} (ha : 0 < a) {k : ℤ} (h : a < 2 ^ (k + 1)) : Int.log 2 a ≤ k := by
  have hlog : Int.log 2 a < k + 1 := (Int.lt_zpow_iff_log_lt Nat.one_lt_two ha).mp (by exact_mod_cast h)
  omega

theorem le_log_of_le {a : ℚ} (ha : 0 < a) {k : ℤ} (h : 2 ^ k ≤ a) : k ≤ Int.log 2 a :=
  (Int.zpow_le_iff_le_log Nat.one_lt_two ha).mp (by exact_mod_cast h)

/-- Below a power of two the rounding does not pass it. -/
theorem magnitude_le_zpow {a : ℚ} (ha : 0 < a) {k : ℤ} (hk : -1022 ≤ k) (h : a < 2 ^ (k + 1)) :
    magnitude a ≤ 2 ^ (k + 1) := by
  have hlog := log_le_of_lt ha h
  have hexp : 0 ≤ k + 1 - (max (Int.log 2 a) (-1022) - 52) := by
    have := max_le hlog hk
    omega
  obtain ⟨d, hd⟩ := Int.eq_ofNat_of_zero_le hexp
  have hsplit : ((2 : ℚ) ^ (k + 1)) = ((2 ^ d : ℤ) : ℚ) * ulp a := by
    have hsum : k + 1 = d + (max (Int.log 2 a) (-1022) - 52) := by omega
    rw [hsum, zpow_add₀ (by norm_num), zpow_natCast, ulp]
    push_cast
    rfl
  have hround : roundEven (a / ulp a) ≤ 2 ^ d := by
    apply roundEven_le
    rw [div_le_iff₀ (ulp_pos a), ← hsplit]
    exact h.le
  rw [magnitude, hsplit]
  exact mul_le_mul_of_nonneg_right (by exact_mod_cast hround) (ulp_pos a).le

/-- From a power of two on the rounding does not fall below it. -/
theorem zpow_le_magnitude {a : ℚ} (ha : 0 < a) {k : ℤ} (hk : -1022 ≤ k) (h : 2 ^ k ≤ a) :
    2 ^ k ≤ magnitude a := by
  have hlog := le_log_of_le ha h
  have hself : (2 : ℚ) ^ Int.log 2 a ≤ a := by
    exact_mod_cast Int.zpow_log_le_self Nat.one_lt_two ha
  have hulp : (2 : ℚ) ^ Int.log 2 a = ((2 ^ 52 : ℤ) : ℚ) * ulp a := by
    rw [ulp, max_eq_left (hk.trans hlog)]
    have hsum : Int.log 2 a = (52 : ℕ) + (Int.log 2 a - 52) := by
      push_cast
      ring
    nth_rewrite 1 [hsum]
    rw [zpow_add₀ (by norm_num), zpow_natCast]
    push_cast
    rfl
  have hround : 2 ^ 52 ≤ roundEven (a / ulp a) := by
    apply le_roundEven
    rw [le_div_iff₀ (ulp_pos a), ← hulp]
    exact hself
  calc (2 : ℚ) ^ k ≤ 2 ^ Int.log 2 a := zpow_le_zpow_right₀ (by norm_num) hlog
    _ = ((2 ^ 52 : ℤ) : ℚ) * ulp a := hulp
    _ ≤ magnitude a := mul_le_mul_of_nonneg_right (by exact_mod_cast hround) (ulp_pos a).le

/-! The powers of two about the largest double, in units of half its distance. -/

theorem two_pow_971 : (2 : ℚ) ^ 971 = 2 * 2 ^ 970 := pow_succ' 2 970

theorem two_pow_1023 : (2 : ℚ) ^ 1023 = 2 ^ 53 * 2 ^ 970 := pow_add 2 53 970

theorem two_pow_1024 : (2 : ℚ) ^ 1024 = 2 ^ 54 * 2 ^ 970 := pow_add 2 54 970

theorem two_pow_970_pos : (0 : ℚ) < 2 ^ 970 := by positivity

theorem two_pow_53_lt : (2 : ℚ) ^ 53 < 2 ^ 1024 := by
  have hunit : (1 : ℚ) ≤ 2 ^ 970 := one_le_pow₀ (by norm_num)
  rw [two_pow_1024]
  generalize (2 : ℚ) ^ 970 = u at hunit ⊢
  linarith

/-- In the last binade the rounding overflows from half a unit below its end. -/
theorem magnitude_lt_iff_of_last {a : ℚ} (hlow : 2 ^ 1023 ≤ a) (hhigh : a < 2 ^ 1024) :
    magnitude a < 2 ^ 1024 ↔ a < 2 ^ 1024 - 2 ^ 970 := by
  have ha : 0 < a := lt_of_lt_of_le (by positivity) hlow
  have hlog : Int.log 2 a = 1023 := by
    apply le_antisymm
    · exact log_le_of_lt ha hhigh
    · exact le_log_of_le ha hlow
  have hulp : ulp a = 2 * 2 ^ 970 := by
    rw [ulp, hlog]
    exact two_pow_971
  rw [two_pow_1024] at hhigh ⊢
  have hunit := two_pow_970_pos
  rw [magnitude, hulp]
  generalize (2 : ℚ) ^ 970 = u at hhigh hunit ⊢
  have hpos : 0 < 2 * u := by positivity
  have htop : (2 : ℚ) ^ 54 * u = ((2 ^ 53 : ℤ) : ℚ) * (2 * u) := by
    push_cast
    ring
  rw [htop, mul_lt_mul_iff_left₀ hpos, Int.cast_lt]
  by_cases hnear : ((2 ^ 53 : ℤ) : ℚ) - 1 ≤ a / (2 * u)
  · have hbelow : a / (2 * u) < ((2 ^ 53 : ℤ) : ℚ) := by
      rw [div_lt_iff₀ hpos, ← htop]
      exact hhigh
    have hhalf : (((2 ^ 53 : ℤ) : ℚ) - 1 / 2) * (2 * u) = ((2 ^ 53 : ℤ) : ℚ) * (2 * u) - u := by
      ring
    rw [roundEven_lt_iff (by norm_num) hnear hbelow, div_lt_iff₀ hpos, hhalf]
  · rw [not_le] at hnear
    have hfar : roundEven (a / (2 * u)) ≤ 2 ^ 53 - 1 := by
      apply roundEven_le
      rw [Int.cast_sub, Int.cast_one]
      exact hnear.le
    apply iff_of_true (by omega)
    rw [div_lt_iff₀ hpos, sub_mul, one_mul] at hnear
    linarith only [hnear, hunit]

/-- The rationals with a finite double. -/
theorem round_isSome_iff (q : ℚ) : (round q).isSome = true ↔ |q| < 2 ^ 1024 - 2 ^ 970 := by
  have hsome : (round q).isSome = true ↔ magnitude |q| < 2 ^ 1024 := by
    unfold round
    split
    · next h => exact iff_of_true rfl h
    · next h => exact iff_of_false Bool.false_ne_true h
  have hunit := two_pow_970_pos
  rw [hsome]
  rcases (abs_nonneg q).eq_or_lt with hzero | hpos
  · rw [← hzero, magnitude_of_multiple 0 (by simp), two_pow_1024]
    apply iff_of_true (by positivity)
    generalize (2 : ℚ) ^ 970 = u at hunit ⊢
    linarith only [hunit]
  rcases lt_or_ge |q| (2 ^ 1023) with hsmall | hlow
  · have hle : magnitude |q| ≤ 2 ^ 1023 := magnitude_le_zpow (k := 1022) hpos (by norm_num) hsmall
    rw [two_pow_1023] at hle hsmall
    rw [two_pow_1024]
    generalize (2 : ℚ) ^ 970 = u at hunit hle hsmall ⊢
    refine iff_of_true (hle.trans_lt ?_) (hsmall.trans ?_)
    · linarith only [hunit]
    · linarith only [hunit]
  rcases lt_or_ge |q| (2 ^ 1024) with hhigh | hhuge
  · exact magnitude_lt_iff_of_last hlow hhigh
  · have hge : 2 ^ 1024 ≤ magnitude |q| := zpow_le_magnitude (k := 1024) hpos (by norm_num) hhuge
    exact iff_of_false hge.not_gt (not_lt.mpr ((sub_le_self _ hunit.le).trans hhuge))

/-! ### Integers -/

theorem magnitude_natCast {n : ℕ} (h : n ≤ 2 ^ 53) : magnitude n = n := by
  rcases Nat.eq_zero_or_pos n with rfl | hpos
  · exact magnitude_of_multiple 0 (by simp)
  have ha : (0 : ℚ) < n := by exact_mod_cast hpos
  have hlow : 0 ≤ Int.log 2 (n : ℚ) := le_log_of_le ha (by exact_mod_cast hpos)
  have hulp : ulp n = 2 ^ (Int.log 2 (n : ℚ) - 52) := by
    rw [ulp, max_eq_left (by omega)]
  rcases h.eq_or_lt with heq | hlt
  · have hlog : Int.log 2 (n : ℚ) = 53 := by
      apply le_antisymm
      · apply log_le_of_lt ha
        rw [heq]
        norm_num
      · apply le_log_of_le ha
        rw [heq]
        norm_num
    apply magnitude_of_multiple (2 ^ 52)
    rw [hulp, hlog, heq]
    norm_num
  · have hlog : Int.log 2 (n : ℚ) ≤ 52 := by
      apply log_le_of_lt ha
      exact_mod_cast hlt
    obtain ⟨d, hd⟩ := Int.eq_ofNat_of_zero_le (sub_nonneg.mpr hlog)
    apply magnitude_of_multiple (n * 2 ^ d)
    have hneg : Int.log 2 (n : ℚ) - 52 = -(d : ℤ) := by omega
    rw [hulp, hneg, zpow_neg, zpow_natCast]
    push_cast
    rw [mul_assoc, mul_inv_cancel₀ (by positivity), mul_one]

theorem round_intCast {n : ℤ} (h : n.natAbs ≤ 2 ^ 53) : round n = some (n : ℚ) := by
  have habs : |(n : ℚ)| = (n.natAbs : ℚ) := by rw [Nat.cast_natAbs, Int.cast_abs]
  have hlt : (n.natAbs : ℚ) < 2 ^ 1024 := by
    have hle : (n.natAbs : ℚ) ≤ 2 ^ 53 := by exact_mod_cast h
    exact hle.trans_lt two_pow_53_lt
  rw [round, habs, magnitude_natCast h, if_pos hlt]
  split
  · next hneg =>
    rw [← habs, abs_of_neg hneg, neg_neg]
  · next hnonneg =>
    rw [← habs, abs_of_nonneg (not_lt.mp hnonneg)]

/-! ### The error of a rounding -/

theorem abs_roundEven_sub_le (q : ℚ) : |(roundEven q : ℚ) - q| ≤ 1 / 2 := by
  have hfloor := Int.floor_le q
  have hceil := Int.lt_floor_add_one q
  rw [abs_le]
  unfold roundEven
  split
  · constructor <;> linarith
  · split
    · push_cast
      constructor <;> linarith
    · split
      · constructor <;> linarith
      · push_cast
        constructor <;> linarith

/-- An integer less than a half away is the nearest one. -/
theorem roundEven_eq {n : ℤ} {q : ℚ} (h : |q - n| < 1 / 2) : roundEven q = n := by
  have hnear := abs_roundEven_sub_le q
  have hdist : |((roundEven q - n : ℤ) : ℚ)| < 1 := by
    push_cast
    calc |(roundEven q : ℚ) - n| ≤ |(roundEven q : ℚ) - q| + |q - n| := abs_sub_le ..
      _ < 1 := by linarith
  have hzero : roundEven q - n = 0 := Int.abs_lt_one_iff.mp (by exact_mod_cast hdist)
  omega

theorem abs_magnitude_sub_le (a : ℚ) : |magnitude a - a| ≤ ulp a / 2 := by
  have hulp := ulp_pos a
  have hscaled : magnitude a - a = (roundEven (a / ulp a) - a / ulp a) * ulp a := by
    rw [magnitude, sub_mul, div_mul_cancel₀ _ hulp.ne']
  rw [hscaled, abs_mul, abs_of_pos hulp]
  have hle := mul_le_mul_of_nonneg_right (abs_roundEven_sub_le (a / ulp a)) hulp.le
  linarith

theorem ulp_le_of_lt {a : ℚ} (ha : 0 < a) {k : ℤ} (hk : -1022 ≤ k) (h : a < 2 ^ (k + 1)) :
    ulp a ≤ 2 ^ (k - 52) := by
  have hlog := max_le (log_le_of_lt ha h) hk
  apply zpow_le_zpow_right₀ (by norm_num)
  omega

/-- A double has at most 53 binary places. -/
theorem lt_ulp (a : ℚ) : a < 2 ^ 53 * ulp a := by
  have hlog : a < (2 : ℚ) ^ (Int.log 2 a + 1) := by
    exact_mod_cast Int.lt_zpow_succ_log_self Nat.one_lt_two a
  have hulp : (2 : ℚ) ^ 53 * ulp a = 2 ^ (max (Int.log 2 a) (-1022) + 1) := by
    rw [ulp, ← zpow_natCast, ← zpow_add₀ (by norm_num)]
    congr 1
    push_cast
    ring
  rw [hulp]
  apply hlog.trans_le
  apply zpow_le_zpow_right₀ (by norm_num)
  have := le_max_left (Int.log 2 a) (-1022)
  omega

/-- The halves of the integers are doubles, and whole multiples of the distance, up to here. -/
theorem exists_half_eq {a : ℚ} (ha : 0 < a) (h : a < 2 ^ 52) (n : ℤ) :
    ∃ m : ℤ, (n : ℚ) / 2 = m * ulp a := by
  have hlog : Int.log 2 a ≤ 51 := log_le_of_lt ha (by exact_mod_cast h)
  have hexp : 0 ≤ 51 - max (Int.log 2 a) (-1022) := by
    have := max_le hlog (by norm_num : (-1022 : ℤ) ≤ 51)
    omega
  obtain ⟨d, hd⟩ := Int.eq_ofNat_of_zero_le hexp
  have hulp : max (Int.log 2 a) (-1022) - 52 = -1 + -(d : ℤ) := by omega
  refine ⟨n * 2 ^ d, ?_⟩
  rw [ulp, hulp, zpow_add₀ (by norm_num), zpow_neg, zpow_neg, zpow_natCast]
  push_cast
  have hpos : (2 : ℚ) ^ d ≠ 0 := by positivity
  field_simp

theorem le_magnitude_of_le {a t : ℚ} {m : ℤ} (ht : t = m * ulp a) (h : t ≤ a) :
    t ≤ magnitude a := by
  have hround : m ≤ roundEven (a / ulp a) := by
    apply le_roundEven
    rw [le_div_iff₀ (ulp_pos a), ← ht]
    exact h
  rw [ht, magnitude]
  exact mul_le_mul_of_nonneg_right (by exact_mod_cast hround) (ulp_pos a).le

theorem magnitude_eq_of_near {a t : ℚ} {m : ℤ} (ht : t = m * ulp a) (h : |a - t| < ulp a / 2) :
    magnitude a = t := by
  have hulp := ulp_pos a
  have hround : roundEven (a / ulp a) = m := by
    apply roundEven_eq
    have hdiv : a / ulp a - m = (a - t) / ulp a := by
      rw [ht, sub_div, mul_div_cancel_right₀ _ hulp.ne']
    rw [hdiv, abs_div, abs_of_pos hulp, div_lt_iff₀ hulp]
    linarith
  rw [magnitude, hround, ht]

/-- The double of a number that is not too large. -/
theorem round_eq {q : ℚ} (h : |q| < 2 ^ 1023) :
    round q = some (if q < 0 then -magnitude |q| else magnitude |q|) := by
  have hsome : (round q).isSome = true := by
    rw [round_isSome_iff]
    have hunit := two_pow_970_pos
    rw [two_pow_1023] at h
    rw [two_pow_1024]
    generalize (2 : ℚ) ^ 970 = u at h hunit ⊢
    linarith
  unfold round at hsome ⊢
  split
  · rfl
  · next hnot =>
    rw [if_neg hnot] at hsome
    cases hsome

end Binary64
