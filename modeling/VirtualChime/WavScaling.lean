import VirtualChime.PcmWav

/-!
# The scaled samples

What `ScalePcmWavInMemory` writes.  The product of a sample and the volume is taken in
doubles, which are near enough to the exact product that only one that is halfway between
two integers can be rounded to the other of them; that happens at ten volumes.
-/

namespace VirtualChime.AplayAudioPlayer

open Binary64 (magnitude ulp)
open Riff (Chunk encodeAll lastOf)

/-! ## 1. One sample -/

/-- The exact product of a sample and a volume, rounded to the nearest integer, and of two to the
one further from zero. -/
def exactlyScaled (volume sample : Int) : Int := lround (sample * volume / 100)

/-- A product halfway between two integers whose double is nearer to zero. -/
def FallsShort (volume sample : Int) : Prop :=
  sample * volume % 100 = 50 ∧
    |toDouble (sample * gainOf volume)| < |(sample * volume / 100 : ℚ)|

instance (volume sample : Int) : Decidable (FallsShort volume sample) :=
  inferInstanceAs (Decidable (_ ∧ _))

/-- The volumes whose double is too far below their hundredth. -/
def unevenVolumes : List Int := [29, 35, 41, 47, 57, 58, 69, 70, 82, 94]

theorem magnitude_nonneg {a : ℚ} (h : 0 ≤ a) : 0 ≤ magnitude a := by
  have hzero : (0 : ℚ) = (0 : ℤ) * ulp a := by simp
  exact Binary64.le_magnitude_of_le hzero h

theorem toDouble_of_nonneg {q : ℚ} (h0 : 0 ≤ q) (h : q < 2 ^ 1023) : toDouble q = magnitude q := by
  have habs : |q| < 2 ^ 1023 := by rwa [abs_of_nonneg h0]
  rw [toDouble, Binary64.round_eq habs, if_neg (not_lt.mpr h0), abs_of_nonneg h0]
  rfl

theorem toDouble_neg {q : ℚ} (h0 : 0 ≤ q) (h : q < 2 ^ 1023) : toDouble (-q) = -toDouble q := by
  rcases h0.eq_or_lt with rfl | hpos
  · have hzero : toDouble 0 = 0 := by decide +kernel
    rw [neg_zero, hzero, neg_zero]
  · have habs : |-q| < 2 ^ 1023 := by rwa [abs_neg, abs_of_pos hpos]
    have hneg : -q < 0 := by linarith
    rw [toDouble_of_nonneg h0 h, toDouble, Binary64.round_eq habs, if_pos hneg, abs_neg,
      abs_of_pos hpos]
    rfl

theorem lround_of_nonneg {q : ℚ} (h : 0 ≤ q) : lround q = ⌊q + 1 / 2⌋ := if_neg (not_lt.mpr h)

theorem lround_neg {q : ℚ} (h : 0 ≤ q) : lround (-q) = -lround q := by
  rcases h.eq_or_lt with rfl | hpos
  · decide +kernel
  · have hneg : -q < 0 := by linarith
    rw [lround_of_nonneg h, lround, if_pos hneg, neg_neg]

section Volume

variable {volume : ℕ} (hvolume : volume ≤ 100)

include hvolume

theorem gainOf_eq : gainOf volume = magnitude ((volume : ℚ) / 100) := by
  have hle : (volume : ℚ) ≤ 100 := by exact_mod_cast hvolume
  rw [gainOf, Int.cast_natCast, toDouble_of_nonneg (by positivity)]
  calc (volume : ℚ) / 100 ≤ 2 ^ 0 := by linarith
    _ < 2 ^ 1023 := pow_lt_pow_right₀ (by norm_num) (by norm_num)

theorem gainOf_nonneg : 0 ≤ gainOf volume := by
  rw [gainOf_eq hvolume]
  exact magnitude_nonneg (by positivity)

theorem abs_gainOf_sub_le : |gainOf volume - (volume : ℚ) / 100| ≤ 2 ^ (-53 : ℤ) := by
  rw [gainOf_eq hvolume]
  rcases Nat.eq_zero_or_pos volume with rfl | hpos
  · have hzero : magnitude (((0 : ℕ) : ℚ) / 100) = 0 := by decide +kernel
    rw [hzero]
    norm_num
  · have hle : (volume : ℚ) ≤ 100 := by exact_mod_cast hvolume
    have ha : (0 : ℚ) < (volume : ℚ) / 100 := by positivity
    have hlt : (volume : ℚ) / 100 < 2 ^ ((0 : ℤ) + 1) := by
      norm_num
      linarith
    have hulp := Binary64.ulp_le_of_lt ha (by norm_num) hlt
    have herror := Binary64.abs_magnitude_sub_le ((volume : ℚ) / 100)
    norm_num at hulp ⊢
    linarith

variable {n : ℕ} (hn : n ≤ 32768)

include hn

theorem product_lt : (n : ℚ) * gainOf volume < 2 ^ 16 := by
  have hle : (n : ℚ) ≤ 32768 := by exact_mod_cast hn
  have hvol : (volume : ℚ) ≤ 100 := by exact_mod_cast hvolume
  have hgain : gainOf volume ≤ 3 / 2 := by
    have hnear := (abs_le.mp (abs_gainOf_sub_le hvolume)).2
    norm_num at hnear
    linarith
  have hnonneg := gainOf_nonneg hvolume
  nlinarith

theorem product_finite : (n : ℚ) * gainOf volume < 2 ^ 1023 :=
  (product_lt hvolume hn).trans (pow_lt_pow_right₀ (by norm_num) (by norm_num))

theorem toDouble_product : toDouble (n * gainOf volume) = magnitude (n * gainOf volume) := by
  apply toDouble_of_nonneg (mul_nonneg (by positivity) (gainOf_nonneg hvolume))
  exact product_finite hvolume hn

/-- The double of the product is near the exact product. -/
theorem abs_toDouble_product_sub_lt :
    |toDouble (n * gainOf volume) - (n * volume : ℕ) / 100| < 1 / 100 := by
  have hle : (n : ℚ) ≤ 32768 := by exact_mod_cast hn
  have hgain := abs_gainOf_sub_le hvolume
  have hproduct : |(n : ℚ) * gainOf volume - (n * volume : ℕ) / 100| ≤ 2 ^ (-38 : ℤ) := by
    have hsplit : (n : ℚ) * gainOf volume - (n * volume : ℕ) / 100 =
        n * (gainOf volume - (volume : ℚ) / 100) := by
      push_cast
      ring
    rw [hsplit, abs_mul, Nat.abs_cast]
    calc (n : ℚ) * |gainOf volume - (volume : ℚ) / 100| ≤ 32768 * 2 ^ (-53 : ℤ) :=
          mul_le_mul hle hgain (abs_nonneg _) (by norm_num)
      _ = 2 ^ (-38 : ℤ) := by norm_num
  have hround : |toDouble (n * gainOf volume) - n * gainOf volume| ≤ 2 ^ (-38 : ℤ) := by
    rw [toDouble_product hvolume hn]
    have hnonneg : 0 ≤ (n : ℚ) * gainOf volume :=
      mul_nonneg (by positivity) (gainOf_nonneg hvolume)
    rcases hnonneg.eq_or_lt with hzero | hpos
    · have hself : magnitude 0 = 0 := by decide +kernel
      rw [← hzero, hself]
      norm_num
    · have hlt : (n : ℚ) * gainOf volume < 2 ^ ((15 : ℤ) + 1) := by
        have h16 : ((2 : ℚ) ^ ((15 : ℤ) + 1)) = 2 ^ 16 := by norm_num
        rw [h16]
        exact product_lt hvolume hn
      have hulp := Binary64.ulp_le_of_lt hpos (by norm_num) hlt
      have herror := Binary64.abs_magnitude_sub_le ((n : ℚ) * gainOf volume)
      norm_num at hulp ⊢
      linarith
  calc |toDouble (n * gainOf volume) - (n * volume : ℕ) / 100| ≤
        |toDouble (n * gainOf volume) - n * gainOf volume| +
          |(n : ℚ) * gainOf volume - (n * volume : ℕ) / 100| := abs_sub_le ..
    _ < 1 / 100 := by
      norm_num at hround hproduct ⊢
      linarith

/-- A product that is not halfway between two integers is rounded to the nearest one. -/
theorem scaleSample_of_not_half (hhalf : n * volume % 100 ≠ 50) :
    scaleSample (gainOf volume) n = ((n * volume + 50) / 100 : ℕ) := by
  have hnear := abs_lt.mp (abs_toDouble_product_sub_lt hvolume hn)
  have hnonneg : 0 ≤ toDouble (n * gainOf volume) := by
    rw [toDouble_product hvolume hn]
    exact magnitude_nonneg (mul_nonneg (by positivity) (gainOf_nonneg hvolume))
  rw [scaleSample, Int.cast_natCast, lround_of_nonneg hnonneg, Int.floor_eq_iff]
  generalize n * volume = m at hhalf hnear
  have hlow : 100 * ((m + 50) / 100) + 1 ≤ m + 50 := by omega
  have hhigh : m + 50 < 100 * ((m + 50) / 100) + 100 := by omega
  generalize (m + 50) / 100 = k at hlow hhigh
  have hlow' : (100 * k + 1 : ℚ) ≤ m + 50 := by exact_mod_cast hlow
  have hhigh' : (m + 50 + 1 : ℚ) ≤ 100 * k + 100 := by exact_mod_cast hhigh
  push_cast
  constructor <;> linarith

/-- A product halfway between two integers is rounded by its double. -/
theorem scaleSample_of_half (hhalf : n * volume % 100 = 50) :
    scaleSample (gainOf volume) n =
      if toDouble (n * gainOf volume) < ((n * volume : ℕ) : ℚ) / 100 then
        ((n * volume / 100 : ℕ) : ℤ)
      else ((n * volume / 100 + 1 : ℕ) : ℤ) := by
  have hnear := abs_lt.mp (abs_toDouble_product_sub_lt hvolume hn)
  have hnonneg : 0 ≤ toDouble (n * gainOf volume) := by
    rw [toDouble_product hvolume hn]
    exact magnitude_nonneg (mul_nonneg (by positivity) (gainOf_nonneg hvolume))
  have hm : n * volume = 100 * (n * volume / 100) + 50 := by omega
  have hm' : ((n * volume : ℕ) : ℚ) = 100 * (n * volume / 100 : ℕ) + 50 := by exact_mod_cast hm
  rw [scaleSample, Int.cast_natCast, lround_of_nonneg hnonneg]
  generalize n * volume / 100 = k at hm'
  split
  · next hshort =>
    rw [Int.floor_eq_iff]
    push_cast
    constructor <;> linarith
  · next hreaches =>
    rw [not_lt] at hreaches
    rw [Int.floor_eq_iff]
    push_cast
    constructor <;> linarith

/-- Where the gain is near enough, a product halfway between two integers does not fall short. -/
theorem le_toDouble_product (hhalf : n * volume % 100 = 50)
    (heven : ((volume : ℚ) / 100 - gainOf volume) * 2 ^ 54 ≤ gainOf volume) :
    ((n * volume : ℕ) : ℚ) / 100 ≤ toDouble (n * gainOf volume) := by
  have hlt := product_lt hvolume hn
  have hnzero : n ≠ 0 := by
    rintro rfl
    simp at hhalf
  have hvzero : volume ≠ 0 := by
    rintro rfl
    simp at hhalf
  have hnpos : (0 : ℚ) < n := by exact_mod_cast Nat.pos_of_ne_zero hnzero
  have hvpos : (0 : ℚ) < volume := by exact_mod_cast Nat.pos_of_ne_zero hvzero
  have hgain : 0 < gainOf volume := by
    rcases (gainOf_nonneg hvolume).eq_or_lt with hzero | hpos
    · rw [← hzero] at heven
      norm_num at heven
      linarith
    · exact hpos
  have hpos : 0 < (n : ℚ) * gainOf volume := mul_pos hnpos hgain
  -- the exact product is half an odd number
  obtain ⟨k, hk⟩ : ∃ k : ℤ, ((n * volume : ℕ) : ℚ) / 100 = (k : ℚ) / 2 := by
    refine ⟨2 * (n * volume / 100 : ℕ) + 1, ?_⟩
    have hm : n * volume = 100 * (n * volume / 100) + 50 := by omega
    have hm' : ((n * volume : ℕ) : ℚ) = 100 * (n * volume / 100 : ℕ) + 50 := by exact_mod_cast hm
    rw [hm']
    generalize n * volume / 100 = k
    push_cast
    ring
  obtain ⟨m, hmultiple⟩ := Binary64.exists_half_eq hpos (hlt.trans (by norm_num)) k
  rw [← hk] at hmultiple
  rw [toDouble_product hvolume hn]
  rcases le_or_gt (((n * volume : ℕ) : ℚ) / 100) (n * gainOf volume) with hle | hgt
  · exact Binary64.le_magnitude_of_le hmultiple hle
  · apply (Binary64.magnitude_eq_of_near hmultiple ?_).ge
    have hgap : ((n * volume : ℕ) : ℚ) / 100 - n * gainOf volume =
        n * ((volume : ℚ) / 100 - gainOf volume) := by
      push_cast
      ring
    have hscaled : n * (((volume : ℚ) / 100 - gainOf volume) * 2 ^ 54) ≤ n * gainOf volume :=
      mul_le_mul_of_nonneg_left heven hnpos.le
    have hulp := Binary64.lt_ulp ((n : ℚ) * gainOf volume)
    rw [abs_sub_comm, abs_of_pos (by linarith), hgap]
    norm_num at hscaled hulp ⊢
    linarith

end Volume

/-- Only the doubles of ten volumes are too far below. -/
theorem gain_near : ∀ volume : ℕ, volume < 101 → (volume : ℤ) ∉ unevenVolumes →
    ((volume : ℚ) / 100 - gainOf volume) * 2 ^ 54 ≤ gainOf volume := by
  decide +kernel

theorem exactlyScaled_natCast (volume n : ℕ) :
    exactlyScaled volume n = ((n * volume + 50) / 100 : ℕ) := by
  have hnonneg : (0 : ℚ) ≤ (n : ℚ) * volume / 100 := by positivity
  have hproduct : (n : ℚ) * volume = (n * volume : ℕ) := by push_cast; rfl
  rw [exactlyScaled, Int.cast_natCast, Int.cast_natCast, lround_of_nonneg hnonneg, hproduct,
    Int.floor_eq_iff]
  generalize n * volume = m
  have hlow : 100 * ((m + 50) / 100) ≤ m + 50 := by omega
  have hhigh : m + 50 + 1 ≤ 100 * ((m + 50) / 100) + 100 := by omega
  generalize (m + 50) / 100 = k at hlow hhigh
  have hlow' : (100 * k : ℚ) ≤ m + 50 := by exact_mod_cast hlow
  have hhigh' : (m + 50 + 1 : ℚ) ≤ 100 * k + 100 := by exact_mod_cast hhigh
  push_cast
  constructor <;> linarith

/-- What is written for a sample that is not negative. -/
theorem scaleSample_natCast {volume n : ℕ} (hvolume : volume ≤ 100) (hn : n ≤ 32768) :
    scaleSample (gainOf volume) n =
      if FallsShort volume n then Int.tdiv (n * volume) 100 else exactlyScaled volume n := by
  have hdouble : 0 ≤ toDouble (n * gainOf volume) := by
    rw [toDouble_product hvolume hn]
    exact magnitude_nonneg (mul_nonneg (by positivity) (gainOf_nonneg hvolume))
  have hfalls : FallsShort volume n ↔ n * volume % 100 = 50 ∧
      toDouble (n * gainOf volume) < ((n * volume : ℕ) : ℚ) / 100 := by
    have hproduct : (n : ℚ) * volume / 100 = ((n * volume : ℕ) : ℚ) / 100 := by push_cast; rfl
    have hpositive : (0 : ℚ) ≤ ((n * volume : ℕ) : ℚ) / 100 := by positivity
    rw [FallsShort, Int.cast_natCast, Int.cast_natCast, hproduct, abs_of_nonneg hdouble,
      abs_of_nonneg hpositive]
    apply and_congr_left
    intro _
    omega
  rw [exactlyScaled_natCast]
  by_cases hhalf : n * volume % 100 = 50
  · rw [scaleSample_of_half hvolume hn hhalf]
    by_cases hshort : toDouble (n * gainOf volume) < ((n * volume : ℕ) : ℚ) / 100
    · rw [if_pos hshort, if_pos (hfalls.mpr ⟨hhalf, hshort⟩), ← Nat.cast_mul]
      rfl
    · rw [if_neg hshort, if_neg fun h => hshort (hfalls.mp h).2]
      congr 1
      omega
  · rw [scaleSample_of_not_half hvolume hn hhalf, if_neg fun h => hhalf (hfalls.mp h).1]

theorem fallsShort_neg {volume n : ℕ} (hvolume : volume ≤ 100) (hn : n ≤ 32768) :
    FallsShort volume (-n) ↔ FallsShort volume n := by
  have hnonneg : 0 ≤ (n : ℚ) * gainOf volume := mul_nonneg (by positivity) (gainOf_nonneg hvolume)
  have hlt := product_finite hvolume hn
  rw [FallsShort, FallsShort, Int.cast_neg, Int.cast_natCast, neg_mul, neg_mul, neg_mul, neg_div,
    toDouble_neg hnonneg hlt, abs_neg, abs_neg]
  apply and_congr_left
  intro _
  omega

theorem scaleSample_neg {volume n : ℕ} (hvolume : volume ≤ 100) (hn : n ≤ 32768) :
    scaleSample (gainOf volume) (-n) = -scaleSample (gainOf volume) n := by
  have hnonneg : 0 ≤ (n : ℚ) * gainOf volume := mul_nonneg (by positivity) (gainOf_nonneg hvolume)
  have hdouble : 0 ≤ toDouble (n * gainOf volume) := by
    rw [toDouble_product hvolume hn]
    exact magnitude_nonneg hnonneg
  rw [scaleSample, scaleSample, Int.cast_neg, Int.cast_natCast, neg_mul,
    toDouble_neg hnonneg (product_finite hvolume hn), lround_neg hdouble]

theorem exactlyScaled_neg (volume n : ℕ) :
    exactlyScaled volume (-n) = -exactlyScaled volume n := by
  have hproduct : (0 : ℚ) ≤ (n : ℚ) * volume / 100 := by positivity
  rw [exactlyScaled, exactlyScaled, Int.cast_neg, Int.cast_natCast, Int.cast_natCast, neg_mul,
    neg_div, lround_neg hproduct]

/-- What is written for a sample: its product with the volume, rounded to the nearest integer. -/
theorem scaleSample_eq {volume : ℕ} (hvolume : volume ≤ 100) {sample : ℤ}
    (hsample : sample.natAbs ≤ 32768) :
    scaleSample (gainOf volume) sample =
      if FallsShort volume sample then Int.tdiv (sample * volume) 100
      else exactlyScaled volume sample := by
  obtain ⟨n, rfl | rfl⟩ := Int.eq_nat_or_neg sample
  · exact scaleSample_natCast hvolume (by simpa using hsample)
  · have hn : n ≤ 32768 := by simpa using hsample
    rw [scaleSample_neg hvolume hn, scaleSample_natCast hvolume hn, exactlyScaled_neg, neg_mul,
      Int.neg_tdiv]
    by_cases hfalls : FallsShort volume n
    · rw [if_pos hfalls, if_pos ((fallsShort_neg hvolume hn).mpr hfalls)]
    · rw [if_neg hfalls, if_neg fun h => hfalls ((fallsShort_neg hvolume hn).mp h)]

/-- No sample grows, and none changes its sign. -/
theorem scaleSample_bounds {volume : ℕ} (hvolume : volume ≤ 100) {sample : ℤ}
    (hsample : sample.natAbs ≤ 32768) :
    |scaleSample (gainOf volume) sample| ≤ |sample| ∧
      0 ≤ scaleSample (gainOf volume) sample * sample := by
  have hnat : ∀ n : ℕ, n ≤ 32768 →
      0 ≤ scaleSample (gainOf volume) n ∧ scaleSample (gainOf volume) n ≤ n := by
    intro n hn
    have hle : n * volume ≤ n * 100 := Nat.mul_le_mul_left n hvolume
    by_cases hhalf : n * volume % 100 = 50
    · rw [scaleSample_of_half hvolume hn hhalf]
      split <;> omega
    · rw [scaleSample_of_not_half hvolume hn hhalf]
      omega
  obtain ⟨n, rfl | rfl⟩ := Int.eq_nat_or_neg sample
  · obtain ⟨hnonneg, hle⟩ := hnat n (by simpa using hsample)
    rw [abs_of_nonneg hnonneg, Nat.abs_cast]
    exact ⟨hle, mul_nonneg hnonneg (Int.natCast_nonneg n)⟩
  · have hn : n ≤ 32768 := by simpa using hsample
    obtain ⟨hnonneg, hle⟩ := hnat n hn
    rw [scaleSample_neg hvolume hn, abs_neg, abs_neg, abs_of_nonneg hnonneg, Nat.abs_cast,
      neg_mul_neg]
    exact ⟨hle, mul_nonneg hnonneg (Int.natCast_nonneg n)⟩

theorem scaleSample_full {sample : ℤ} (hsample : sample.natAbs ≤ 32768) :
    scaleSample (gainOf (100 : ℕ)) sample = sample := by
  have hnat : ∀ n : ℕ, n ≤ 32768 → scaleSample (gainOf (100 : ℕ)) n = n := by
    intro n hn
    rw [scaleSample_of_not_half (le_refl 100) hn (by omega)]
    omega
  obtain ⟨n, rfl | rfl⟩ := Int.eq_nat_or_neg sample
  · exact hnat n (by simpa using hsample)
  · have hn : n ≤ 32768 := by simpa using hsample
    rw [scaleSample_neg (le_refl 100) hn, hnat n hn]

theorem scaleSample_silent {sample : ℤ} (hsample : sample.natAbs ≤ 32768) :
    scaleSample (gainOf (0 : ℕ)) sample = 0 := by
  have hnat : ∀ n : ℕ, n ≤ 32768 → scaleSample (gainOf (0 : ℕ)) n = 0 := by
    intro n hn
    rw [scaleSample_of_not_half (Nat.zero_le 100) hn (by omega)]
    omega
  obtain ⟨n, rfl | rfl⟩ := Int.eq_nat_or_neg sample
  · exact hnat n (by simpa using hsample)
  · have hn : n ≤ 32768 := by simpa using hsample
    rw [scaleSample_neg (Nat.zero_le 100) hn, hnat n hn, neg_zero]

/-- The volumes at which a product falls short. -/
theorem exists_fallsShort_iff {volume : ℕ} (hvolume : volume ≤ 100) :
    (∃ sample : ℤ, sample.natAbs ≤ 32768 ∧ FallsShort volume sample) ↔
      (volume : ℤ) ∈ unevenVolumes := by
  constructor
  · rintro ⟨sample, hsample, hfalls⟩
    have hnat : FallsShort volume sample.natAbs := by
      obtain ⟨n, rfl | rfl⟩ := Int.eq_nat_or_neg sample
      · simpa using hfalls
      · have hn : n ≤ 32768 := by simpa using hsample
        simpa using (fallsShort_neg hvolume hn).mp hfalls
    by_contra hmem
    have hhalf : sample.natAbs * volume % 100 = 50 := by
      have h := hnat.1
      omega
    have hle := le_toDouble_product hvolume hsample hhalf (gain_near volume (by omega) hmem)
    have hshort := hnat.2
    have hproduct : ((sample.natAbs : ℕ) : ℚ) * volume / 100 =
        ((sample.natAbs * volume : ℕ) : ℚ) / 100 := by push_cast; rfl
    rw [Int.cast_natCast, Int.cast_natCast, hproduct,
      abs_of_nonneg (by positivity : (0 : ℚ) ≤ ((sample.natAbs * volume : ℕ) : ℚ) / 100)] at hshort
    exact absurd ((le_abs_self _).trans_lt hshort) (not_lt.mpr hle)
  · have hsamples : ∀ v ∈ unevenVolumes,
        ∃ sample ∈ ([25, 45, 50, 75, 90, 150, 1075, 2150] : List ℤ), FallsShort v sample := by
      decide +kernel
    intro hmem
    obtain ⟨sample, hsample, hfalls⟩ := hsamples _ hmem
    refine ⟨sample, ?_, hfalls⟩
    have hbound : ∀ x ∈ ([25, 45, 50, 75, 90, 150, 1075, 2150] : List ℤ), x.natAbs ≤ 32768 := by
      decide
    exact hbound sample hsample

/-! ## 2. The samples of a data chunk -/

/-- The sample of 16 bits in two bytes, the low one first. -/
def read16 (low high : Byte) : Int := Int.bmod (low.toNat ||| high.toNat <<< 8 : ℕ) (2 ^ 16)

/-- Two bytes that hold a sample of 16 bits. -/
def put16 (sample : Int) : Bytes :=
  [UInt8.ofNat ((sample % 2 ^ 16).toNat &&& 255),
    UInt8.ofNat ((sample % 2 ^ 16).toNat >>> 8 &&& 255)]

theorem read16_eq (low high : Byte) :
    read16 low high = if high.toNat < 128 then (low.toNat + 256 * high.toNat : ℤ)
      else low.toNat + 256 * high.toNat - 65536 := by
  have hlow := low.toNat_lt
  have hhigh := high.toNat_lt
  have hor : low.toNat ||| high.toNat <<< 8 = low.toNat + 256 * high.toNat := by
    rw [Nat.or_comm, ← Nat.shiftLeft_add_eq_or_of_lt hlow, Nat.shiftLeft_eq]
    omega
  unfold read16
  rw [hor, Int.bmod_def]
  omega

theorem read16_range (low high : Byte) : -32768 ≤ read16 low high ∧ read16 low high ≤ 32767 := by
  have hlow := low.toNat_lt
  have hhigh := high.toNat_lt
  rw [read16_eq]
  omega

theorem put16_eq {sample : Int} {n : ℕ} (h : (sample % 65536).toNat = n) :
    put16 sample = [UInt8.ofNat n, UInt8.ofNat (n / 256)] := by
  have hlow : n &&& 255 = n % 256 := Nat.and_two_pow_sub_one_eq_mod n 8
  have hhigh : n >>> 8 &&& 255 = n / 256 % 256 := by
    rw [Nat.shiftRight_eq_div_pow]
    exact Nat.and_two_pow_sub_one_eq_mod (n / 256) 8
  have hsample : (sample % 2 ^ 16).toNat = n := h
  unfold put16
  rw [hsample, hlow, hhigh]
  simp only [List.cons.injEq, and_true]
  constructor
  · apply UInt8.toNat_inj.mp
    simp
  · apply UInt8.toNat_inj.mp
    simp

/-- A sample is read back. -/
theorem read16_put16 {sample : Int} (hlow : -32768 ≤ sample) (hhigh : sample ≤ 32767) :
    read16 ((put16 sample).getD 0 0) ((put16 sample).getD 1 0) = sample := by
  rw [put16_eq rfl]
  generalize hn : (sample % 65536).toNat = n
  have h0 : [UInt8.ofNat n, UInt8.ofNat (n / 256)].getD 0 0 = UInt8.ofNat n := rfl
  have h1 : [UInt8.ofNat n, UInt8.ofNat (n / 256)].getD 1 0 = UInt8.ofNat (n / 256) := rfl
  rw [h0, h1, read16_eq, UInt8.toNat_ofNat', UInt8.toNat_ofNat']
  omega

/-- A sample as it was is written as it was. -/
theorem put16_read16 (low high : Byte) : put16 (read16 low high) = [low, high] := by
  have hlow := low.toNat_lt
  have hhigh := high.toNat_lt
  have hn : (read16 low high % 65536).toNat = low.toNat + 256 * high.toNat := by
    rw [read16_eq]
    omega
  rw [put16_eq hn]
  simp only [List.cons.injEq, and_true]
  constructor
  · apply UInt8.toNat_inj.mp
    rw [UInt8.toNat_ofNat']
    omega
  · apply UInt8.toNat_inj.mp
    rw [UInt8.toNat_ofNat']
    omega

theorem length_put16 (sample : Int) : (put16 sample).length = 2 := rfl

/-- The bytes of a data chunk with each sample of 16 bits scaled. -/
def scaled16 (scale : Int → Int) : Bytes → Bytes
  | low :: high :: data =>
      put16 (clamp (scale (read16 low high)) (-32768) 32767) ++ scaled16 scale data
  | data => data

/-- The bytes of a data chunk with each sample of 8 bits scaled. -/
def scaled8 (scale : Int → Int) (data : Bytes) : Bytes :=
  data.map fun b => UInt8.ofNat (clamp (scale (b.toNat - 128)) (-128) 127 + 128).toNat

/-- What is left when there are no two bytes left. -/
theorem length_lt_two {data : Bytes}
    (h : ∀ (low high : Byte) (rest : Bytes), data = low :: high :: rest → False) :
    data.length < 2 := by
  match data, h with
  | [], _ => exact Nat.zero_lt_two
  | [_], _ => exact Nat.one_lt_two
  | low :: high :: rest, h => exact absurd rfl (h low high rest)

theorem length_scaled16 (scale : Int → Int) (data : Bytes) :
    (scaled16 scale data).length = data.length := by
  fun_induction scaled16 scale data with
  | case1 low high data ih =>
    rw [List.length_append, length_put16, ih, List.length_cons, List.length_cons, Nat.add_comm]
  | case2 data _ => rfl

theorem length_scaled8 (scale : Int → Int) (data : Bytes) :
    (scaled8 scale data).length = data.length := List.length_map ..

theorem set_append_cons (before : Bytes) (a b : Byte) (after : Bytes) :
    (before ++ a :: after).set before.length b = before ++ b :: after := by
  simp

theorem getD_append_cons (before : Bytes) (a : Byte) (after : Bytes) :
    (before ++ a :: after).getD before.length 0 = a := by
  simp [List.getD_eq_getElem?_getD]

theorem getD_append_cons_cons (before : Bytes) (a b : Byte) (after : Bytes) :
    (before ++ a :: b :: after).getD (before.length + 1) 0 = b := by
  simp [List.getD_eq_getElem?_getD]

/-- A sample is written over two bytes. -/
theorem writeLe16_append (before after : Bytes) (a b : Byte) (sample : Int) :
    writeLe16 (before ++ a :: b :: after) before.length (sample % 2 ^ 16).toNat =
      (before ++ put16 sample) ++ after := by
  rw [writeLe16, set_append_cons, put16]
  simp

/-- The loop over the samples of 16 bits: the induction is on the samples that are left. -/
theorem scaleSamples16_eq (gain : ℚ) (data before after : Bytes) {data_offset i : ℕ}
    (h : before.length = data_offset + i) :
    scaleSamples16 gain data_offset (i + data.length) i (before ++ (data ++ after)) =
      before ++ (scaled16 (scaleSample gain) data ++ after) := by
  fun_induction scaled16 (scaleSample gain) data generalizing before i with
  | case1 low high data ih =>
    have hmore : i + 1 < i + (low :: high :: data).length := by
      simp only [List.length_cons]
      omega
    have hsize : i + (low :: high :: data).length = i + 2 + data.length := by
      simp only [List.length_cons]
      omega
    have hread : Int.bmod (readLe16 (before ++ (low :: high :: data ++ after)) (data_offset + i))
        (2 ^ 16) = read16 low high := by
      rw [← h, readLe16, List.cons_append, List.cons_append, getD_append_cons,
        getD_append_cons_cons]
      rfl
    rw [scaleSamples16, if_pos hmore]
    dsimp only
    rw [hread]
    generalize clamp (scaleSample gain (read16 low high)) (-32768) 32767 = clamped
    have hwrite : writeLe16 (before ++ (low :: high :: data ++ after)) (data_offset + i)
        (clamped % 2 ^ 16).toNat = (before ++ put16 clamped) ++ (data ++ after) := by
      rw [← h, List.cons_append, List.cons_append, writeLe16_append]
    have hlength : (before ++ put16 clamped).length = data_offset + (i + 2) := by
      rw [List.length_append, h, length_put16, Nat.add_assoc]
    rw [hwrite, hsize, ih (before ++ put16 clamped) hlength]
    simp only [List.append_assoc]
  | case2 data hshort =>
    have hlength := length_lt_two hshort
    rw [scaleSamples16, if_neg (by omega)]

/-- The loop over the samples of 8 bits. -/
theorem scaleSamples8_eq (gain : ℚ) (data before after : Bytes) {data_offset i : ℕ}
    (h : before.length = data_offset + i) :
    scaleSamples8 gain data_offset (i + data.length) i (before ++ (data ++ after)) =
      before ++ (scaled8 (scaleSample gain) data ++ after) := by
  induction data generalizing before i with
  | nil => rw [scaleSamples8, if_neg (by simp), scaled8, List.map_nil]
  | cons b data ih =>
    have hmore : i < i + (b :: data).length := by
      simp only [List.length_cons]
      omega
    have hsize : i + (b :: data).length = i + 1 + data.length := by
      simp only [List.length_cons]
      omega
    rw [scaleSamples8, if_pos hmore, List.cons_append]
    dsimp only
    rw [← h, getD_append_cons]
    generalize hbyte : UInt8.ofNat
      (clamp (scaleSample gain (b.toNat - 128)) (-128) 127 + 128).toNat = byte
    have hstep := ih (before ++ [byte]) (i := i + 1) (by simp [h, Nat.add_assoc])
    rw [set_append_cons, hsize, ← List.singleton_append, ← List.append_assoc, hstep]
    simp only [scaled8, List.map_cons, hbyte, List.append_assoc, List.cons_append,
      List.nil_append]

/-! ## 3. The samples one by one -/

/-- The samples of `bits_per_sample` bits in some data: how many, and each of them. -/
def sampleCount (bits_per_sample : ℕ) (data : Bytes) : ℕ :=
  if bits_per_sample = 16 then data.length / 2 else data.length

def sampleAt (bits_per_sample : ℕ) (data : Bytes) (i : ℕ) : Int :=
  if bits_per_sample = 16 then read16 (data.getD (2 * i) 0) (data.getD (2 * i + 1) 0)
  else (data.getD i 0).toNat - 128

/-- The bytes of a data chunk with each sample scaled. -/
def scaledData (bits_per_sample : ℕ) (scale : Int → Int) (data : Bytes) : Bytes :=
  if bits_per_sample = 16 then scaled16 scale data else scaled8 scale data

theorem length_scaledData (bits_per_sample : ℕ) (scale : Int → Int) (data : Bytes) :
    (scaledData bits_per_sample scale data).length = data.length := by
  unfold scaledData
  split
  · exact length_scaled16 scale data
  · exact length_scaled8 scale data

theorem natAbs_sampleAt_le (bits_per_sample : ℕ) (data : Bytes) (i : ℕ) :
    (sampleAt bits_per_sample data i).natAbs ≤ 32768 := by
  unfold sampleAt
  split
  · have hrange := read16_range (data.getD (2 * i) 0) (data.getD (2 * i + 1) 0)
    omega
  · have hbyte := (data.getD i 0).toNat_lt
    omega

theorem read16_scaled16 (scale : Int → Int) (data : Bytes) {i : ℕ} (h : 2 * i + 1 < data.length) :
    read16 ((scaled16 scale data).getD (2 * i) 0) ((scaled16 scale data).getD (2 * i + 1) 0) =
      clamp (scale (read16 (data.getD (2 * i) 0) (data.getD (2 * i + 1) 0))) (-32768) 32767 := by
  fun_induction scaled16 scale data generalizing i with
  | case1 low high data ih =>
    cases i with
    | zero =>
      have hrange : -32768 ≤ clamp (scale (read16 low high)) (-32768) 32767 ∧
          clamp (scale (read16 low high)) (-32768) 32767 ≤ 32767 := by
        unfold clamp
        omega
      exact read16_put16 hrange.1 hrange.2
    | succ i =>
      simp only [List.length_cons] at h
      exact ih (by omega)
  | case2 data hshort =>
    have hlength := length_lt_two hshort
    omega

theorem getD_scaled8 (scale : Int → Int) (data : Bytes) {i : ℕ} (h : i < data.length) :
    (((scaled8 scale data).getD i 0).toNat : ℤ) - 128 =
      clamp (scale ((data.getD i 0).toNat - 128)) (-128) 127 := by
  have hget : (scaled8 scale data).getD i 0 = UInt8.ofNat
      (clamp (scale ((data.getD i 0).toNat - 128)) (-128) 127 + 128).toNat := by
    rw [List.getD_eq_getElem?_getD, List.getD_eq_getElem?_getD, scaled8, List.getElem?_map,
      List.getElem?_eq_getElem h]
    rfl
  rw [hget, UInt8.toNat_ofNat']
  unfold clamp
  omega

/-- A value between zero and a sample is not clamped. -/
theorem clamp_eq_self {value sample low high : Int} (hle : |value| ≤ |sample|)
    (hsign : 0 ≤ value * sample) (hlow : low ≤ sample) (hlow0 : low ≤ 0) (hhigh : sample ≤ high)
    (hhigh0 : 0 ≤ high) : clamp value low high = value := by
  rw [abs_le] at hle
  have hrange : low ≤ value ∧ value ≤ high := by
    rcases lt_trichotomy sample 0 with hneg | rfl | hpos
    · rw [abs_of_neg hneg] at hle
      have hvalue : value ≤ 0 := by
        by_contra hnot
        have hproduct := mul_neg_of_pos_of_neg (not_le.mp hnot) hneg
        omega
      omega
    · simp at hle
      omega
    · rw [abs_of_pos hpos] at hle
      have hvalue : 0 ≤ value := by
        by_contra hnot
        have hproduct := mul_neg_of_neg_of_pos (not_le.mp hnot) hpos
        omega
      omega
  unfold clamp
  rw [if_neg (by omega), if_neg (by omega)]

theorem sampleAt_scaledData {bits_per_sample : ℕ} {scale : Int → Int} {data : Bytes} {i : ℕ}
    (h : i < sampleCount bits_per_sample data)
    (hle : |scale (sampleAt bits_per_sample data i)| ≤ |sampleAt bits_per_sample data i|)
    (hsign : 0 ≤ scale (sampleAt bits_per_sample data i) * sampleAt bits_per_sample data i) :
    sampleAt bits_per_sample (scaledData bits_per_sample scale data) i =
      scale (sampleAt bits_per_sample data i) := by
  unfold sampleCount at h
  unfold sampleAt at hle hsign ⊢
  unfold scaledData
  by_cases h16 : bits_per_sample = 16
  · simp only [if_pos h16] at h hle hsign ⊢
    have hrange := read16_range (data.getD (2 * i) 0) (data.getD (2 * i + 1) 0)
    rw [read16_scaled16 scale data (by omega),
      clamp_eq_self hle hsign hrange.1 (by norm_num) hrange.2 (by norm_num)]
  · simp only [if_neg h16] at h hle hsign ⊢
    have hbyte := (data.getD i 0).toNat_lt
    rw [getD_scaled8 scale data h,
      clamp_eq_self hle hsign (by omega) (by norm_num) (by omega) (by norm_num)]

/-- At full volume the bytes are left as they are. -/
theorem scaledData_full (bits_per_sample : ℕ) (data : Bytes) :
    scaledData bits_per_sample (scaleSample (gainOf (100 : ℕ))) data = data := by
  unfold scaledData
  split
  · fun_induction scaled16 (scaleSample (gainOf (100 : ℕ))) data with
    | case1 low high data ih =>
      have hrange := read16_range low high
      have hclamp : clamp (read16 low high) (-32768) 32767 = read16 low high :=
        clamp_eq_self (le_refl _) (mul_self_nonneg _) hrange.1 (by norm_num) hrange.2 (by norm_num)
      rw [scaleSample_full (by omega), hclamp, put16_read16, ih]
      rfl
    | case2 data _ => rfl
  · rw [scaled8]
    have hself : ∀ b ∈ data, UInt8.ofNat
        (clamp (scaleSample (gainOf (100 : ℕ)) (b.toNat - 128)) (-128) 127 + 128).toNat = b := by
      intro b _
      have hbyte := b.toNat_lt
      have hclamp : clamp ((b.toNat : ℤ) - 128) (-128) 127 = (b.toNat : ℤ) - 128 :=
        clamp_eq_self (le_refl _) (mul_self_nonneg _) (by omega) (by norm_num) (by omega)
          (by norm_num)
      have hnat : ((b.toNat : ℤ) - 128 + 128).toNat = b.toNat := by omega
      rw [scaleSample_full (by omega), hclamp, hnat, UInt8.ofNat_toNat]
    rw [List.map_congr_left hself]
    exact List.map_id' data

/-! ## 4. The file -/

/-- Where the walk has found the last `data` chunk. -/
theorem recordAll_data_offset (cursor : ℕ) (s : WavChunks) (chunks : List Chunk) :
    (lastOf dataId chunks = none ∧ (recordAll cursor s chunks).data_offset = s.data_offset) ∨
    ∃ before data after, lastOf dataId chunks = some data ∧ chunks = before ++ data :: after ∧
      (recordAll cursor s chunks).data_offset = cursor + (encodeAll before).length + 8 := by
  induction chunks generalizing cursor s with
  | nil => exact Or.inl ⟨rfl, rfl⟩
  | cons c chunks ih =>
    have hlast := Riff.lastOf_cons_or dataId c chunks none
    rw [Option.or_none] at hlast
    rcases ih (cursor + c.encode.length) (s.record (cursor + 8) c) with
      ⟨hnone, hoffset⟩ | ⟨before, data, after, hsome, hchunks, hoffset⟩
    · rw [hnone, Option.none_or] at hlast
      by_cases hid : c.id = dataId
      · rw [if_pos hid] at hlast
        refine Or.inr ⟨[], c, chunks, hlast, rfl, ?_⟩
        have hfmt : c.id ≠ fmtId := by
          rw [hid]
          decide
        rw [recordAll, hoffset, WavChunks.record, if_neg hfmt, if_pos hid]
        rfl
      · rw [if_neg hid] at hlast
        refine Or.inl ⟨hlast, ?_⟩
        rw [recordAll, hoffset, WavChunks.record]
        split
        · rfl
        · rfl
    · rw [hsome, Option.some_or] at hlast
      refine Or.inr ⟨c :: before, data, after, hlast, ?_, ?_⟩
      · rw [hchunks, List.cons_append]
      · rw [recordAll, hoffset, Riff.encodeAll_cons, List.length_append]
        omega

theorem encodeAll_append (before after : List Chunk) :
    encodeAll (before ++ after) = encodeAll before ++ encodeAll after :=
  List.flatMap_append

/-- The scaling of a sound that can be scaled: only the bytes of its last `data` chunk change. -/
theorem scalePcmWavInMemory_eq {size rest : Bytes} {chunks : List Chunk} (hsize : size.length = 4)
    (hrest : rest.length < 8) (hpcm : PcmChunks chunks) (effective_volume : Int) :
    ∃ before fmt data after, chunks = before ++ data :: after ∧ lastOf fmtId chunks = some fmt ∧
      lastOf dataId chunks = some data ∧
      scalePcmWavInMemory (bytes "RIFF" ++ size ++ bytes "WAVE" ++ encodeAll chunks ++ rest)
          effective_volume =
        .ok (bytes "RIFF" ++ size ++ bytes "WAVE" ++ (encodeAll before ++ (data.id ++
          Riff.le32 data.data.length ++
          scaledData (readLe16 fmt.data 14) (scaleSample (gainOf effective_volume)) data.data ++
          data.pad) ++ encodeAll after) ++ rest) := by
  generalize hwav : bytes "RIFF" ++ size ++ bytes "WAVE" ++ encodeAll chunks ++ rest = wav
  have hlong := length_of_pcmChunks hpcm
  have hriffLength : (bytes "RIFF").length = 4 := rfl
  have hwaveLength : (bytes "WAVE").length = 4 := rfl
  have hlength : 44 ≤ wav.length := by
    simp only [← hwav, List.length_append]
    omega
  have hwav' := hwav.symm
  rw [List.append_assoc _ _ rest] at hwav'
  obtain ⟨hriff, hwave, hdrop⟩ := (riff_header_iff (by omega)).mpr ⟨size, hsize, hwav'⟩
  have hwalk : walkChunks wav 12 {} = .ok (recordAll 12 {} chunks) :=
    (walkChunks_ok_iff (by omega) (by omega)).mpr
      ⟨chunks, rest, hdrop, hrest, hpcm.fmtLong, rfl⟩
  have hstart : WavChunks.Describes {} none none := ⟨rfl, rfl, nofun, nofun, nofun⟩
  have hdescribes := hstart.recordAll 12 chunks
  rw [Option.or_none, Option.or_none] at hdescribes
  obtain ⟨fmt, data, hfmt, hdata, hformat, hbits⟩ := hpcm.last
  rw [hfmt, hdata] at hdescribes
  rcases recordAll_data_offset 12 {} chunks with
    ⟨hnone, -⟩ | ⟨before, data', after, hsome, hchunks, hoffset⟩
  · rw [hdata] at hnone
    cases hnone
  · obtain rfl : data = data' := Option.some.inj (hdata.symm.trans hsome)
    refine ⟨before, fmt, data, after, hchunks, hfmt, hdata, ?_⟩
    generalize hs : recordAll 12 {} chunks = s at hwalk hdescribes hoffset
    -- the bytes before the data, and those after them
    generalize hhead : bytes "RIFF" ++ size ++ bytes "WAVE" ++ encodeAll before ++ data.id ++
      Riff.le32 data.data.length = head
    generalize htail : data.pad ++ encodeAll after ++ rest = tail
    have hsplit : wav = head ++ (data.data ++ tail) := by
      rw [← hwav, hchunks, encodeAll_append, Riff.encodeAll_cons, Chunk.encode, ← hhead, ← htail]
      simp only [List.append_assoc]
    have hheadLength : head.length = s.data_offset + 0 := by
      rw [hoffset, ← hhead]
      simp only [List.length_append, data.id_length, Riff.length_le32]
      omega
    have hsizeEq : s.data_size = 0 + data.data.length := by
      rw [Nat.zero_add, hdescribes.size data rfl]
    have hscaled : scaleData wav effective_volume s = .ok (head ++
        (scaledData (readLe16 fmt.data 14) (scaleSample (gainOf effective_volume)) data.data ++
          tail)) := by
      rw [scaleData, hdescribes.have_fmt, hdescribes.have_data, hdescribes.format fmt rfl,
        hdescribes.bits fmt rfl, hsizeEq, if_neg (by simp), if_neg (by simp [hformat]), scaledData,
        hsplit]
      rcases hbits with ⟨h16, heven⟩ | h8
      · rw [if_pos h16, if_pos h16, if_neg (by simp [heven]),
          scaleSamples16_eq _ data.data head tail hheadLength]
      · have h16 : readLe16 fmt.data 14 ≠ 16 := by omega
        rw [if_neg h16, if_neg h16, if_pos h8,
          scaleSamples8_eq _ data.data head tail hheadLength]
    rw [scalePcmWavInMemory, if_neg (by omega), if_neg (by simp [hriff, hwave]), hwalk]
    rw [← hhead, ← htail] at hscaled
    simp only [hscaled, List.append_assoc]

/-- A file that the scaling is made for. -/
structure WavFile where
  riffSize : Bytes
  chunks : List Chunk
  fmt : Chunk
  data : Chunk
  riffSize_length : riffSize.length = 4
  only_fmt : chunks.filter (fun c => c.id = fmtId) = [fmt]
  only_data : chunks.filter (fun c => c.id = dataId) = [data]
  fmt_long : 16 ≤ fmt.data.length
  pcm : readLe16 fmt.data 0 = 1
  bits : readLe16 fmt.data 14 = 16 ∧ data.data.length % 2 = 0 ∨ readLe16 fmt.data 14 = 8

namespace WavFile

def header (f : WavFile) : Bytes :=
  VirtualChime.bytes "RIFF" ++ f.riffSize ++ VirtualChime.bytes "WAVE"

def bytes (f : WavFile) : Bytes := f.header ++ encodeAll f.chunks

def bits_per_sample (f : WavFile) : ℕ := readLe16 f.fmt.data 14

theorem pcmChunks (f : WavFile) : PcmChunks f.chunks := by
  refine ⟨?_, f.fmt, f.data, ?_, ?_, f.pcm, f.bits⟩
  · intro c hc hid
    have hmem : c ∈ f.chunks.filter (fun c => c.id = fmtId) :=
      List.mem_filter.mpr ⟨hc, decide_eq_true hid⟩
    rw [f.only_fmt, List.mem_singleton] at hmem
    rw [hmem]
    exact f.fmt_long
  · rw [lastOf, f.only_fmt]
    rfl
  · rw [lastOf, f.only_data]
    rfl

end WavFile

/-- A well-formed file is scaled at every volume.  Nothing but the samples changes, and of each of
them the product with the volume is written, rounded to the nearest integer; only at the ten
uneven volumes are some products halfway between two integers rounded towards zero. -/
theorem wellformed_wav_scaled (f : WavFile) {volume : ℕ} (hvolume : volume ≤ 100) :
    ∃ before after scaled, f.chunks = before ++ f.data :: after ∧
      scaled.length = f.data.data.length ∧
      scalePcmWavInMemory f.bytes volume =
        .ok (f.header ++ encodeAll before ++ (f.data.id ++ Riff.le32 f.data.data.length ++ scaled ++
          f.data.pad) ++ encodeAll after) ∧
      (∀ i < sampleCount f.bits_per_sample f.data.data,
        let sample := sampleAt f.bits_per_sample f.data.data i
        let written := sampleAt f.bits_per_sample scaled i
        (¬ FallsShort volume sample → written = exactlyScaled volume sample) ∧
        (FallsShort volume sample → (volume : ℤ) ∈ unevenVolumes ∧
          written = Int.tdiv (sample * volume) 100) ∧
        |written| ≤ |sample| ∧ 0 ≤ written * sample ∧ (volume = 0 → written = 0)) ∧
      (volume = 100 → scaled = f.data.data) := by
  have hnothing : ([] : Bytes).length < 8 := by simp
  obtain ⟨before, fmt, data, after, hchunks, hfmt, hdata, hscale⟩ :=
    scalePcmWavInMemory_eq f.riffSize_length hnothing f.pcmChunks volume
  have hlastFmt : lastOf fmtId f.chunks = some f.fmt := by
    rw [lastOf, f.only_fmt]
    rfl
  have hlastData : lastOf dataId f.chunks = some f.data := by
    rw [lastOf, f.only_data]
    rfl
  obtain rfl : f.fmt = fmt := Option.some.inj (hlastFmt.symm.trans hfmt)
  obtain rfl : f.data = data := Option.some.inj (hlastData.symm.trans hdata)
  refine ⟨before, after, scaledData f.bits_per_sample (scaleSample (gainOf volume)) f.data.data,
    hchunks, length_scaledData .., ?_, ?_, ?_⟩
  · rw [List.append_nil, List.append_nil] at hscale
    rw [WavFile.bytes, WavFile.header, hscale]
    simp only [List.append_assoc, WavFile.bits_per_sample]
  · intro i hi sample written
    have hrange := natAbs_sampleAt_le f.bits_per_sample f.data.data i
    obtain ⟨hle, hsign⟩ := scaleSample_bounds hvolume hrange
    have hwritten : written = scaleSample (gainOf volume) sample :=
      sampleAt_scaledData hi hle hsign
    rw [hwritten]
    refine ⟨?_, ?_, hle, hsign, ?_⟩
    · intro hnot
      rw [scaleSample_eq hvolume hrange, if_neg hnot]
    · intro hfalls
      constructor
      · exact (exists_fallsShort_iff hvolume).mp ⟨sample, hrange, hfalls⟩
      · rw [scaleSample_eq hvolume hrange, if_pos hfalls]
    · rintro rfl
      exact scaleSample_silent hrange
  · rintro rfl
    exact scaledData_full f.bits_per_sample f.data.data

/-- A file with one channel of 16 bits and two samples, 50 and -50. -/
def fiftyWav : WavFile where
  riffSize := Riff.le32 40
  chunks := [⟨fmtId, [1, 0, 1, 0, 0x40, 0x1f, 0, 0, 0x80, 0x3e, 0, 0, 2, 0, 16, 0], [], rfl,
    by decide, rfl⟩, ⟨dataId, [50, 0, 206, 255], [], rfl, by decide, rfl⟩]
  fmt := ⟨fmtId, [1, 0, 1, 0, 0x40, 0x1f, 0, 0, 0x80, 0x3e, 0, 0, 2, 0, 16, 0], [], rfl,
    by decide, rfl⟩
  data := ⟨dataId, [50, 0, 206, 255], [], rfl, by decide, rfl⟩
  riffSize_length := rfl
  only_fmt := rfl
  only_data := rfl
  fmt_long := by decide
  pcm := rfl
  bits := Or.inl ⟨rfl, rfl⟩

/-- At volume 29 a sample of 50 becomes 14, where the exact product is 14.5. -/
theorem fifty_is_scaled_to_fourteen :
    scalePcmWavInMemory fiftyWav.bytes 29 =
        .ok ((fiftyWav.bytes.take 44) ++ [14, 0, 242, 255]) ∧
      sampleAt 16 fiftyWav.data.data 0 = 50 ∧ sampleAt 16 [14, 0, 242, 255] 0 = 14 ∧
      exactlyScaled 29 50 = 15 := by
  decide +kernel

theorem wellformed_wav_scaled_fifty :
    ∃ scaled : Bytes, scaled.length = 4 ∧ sampleAt 16 scaled 0 = 15 ∧ sampleAt 16 scaled 1 = -15 := by
  have hvolume : 30 ≤ 100 := by decide
  obtain ⟨before, after, scaled, -, hlength, -, hsamples, -⟩ :=
    wellformed_wav_scaled fiftyWav hvolume
  have hfirst : ¬ FallsShort (30 : ℕ) 50 := by decide +kernel
  have hsecond : ¬ FallsShort (30 : ℕ) (-50) := by decide +kernel
  have hfifteen : exactlyScaled (30 : ℕ) 50 = 15 ∧ exactlyScaled (30 : ℕ) (-50) = -15 := by
    decide +kernel
  have hcount : sampleCount fiftyWav.bits_per_sample fiftyWav.data.data = 2 := rfl
  have hread : sampleAt fiftyWav.bits_per_sample fiftyWav.data.data 0 = 50 ∧
      sampleAt fiftyWav.bits_per_sample fiftyWav.data.data 1 = -50 := by
    decide +kernel
  have hbits : fiftyWav.bits_per_sample = 16 := rfl
  obtain ⟨hwritten0, -⟩ := hsamples 0 (by rw [hcount]; decide)
  obtain ⟨hwritten1, -⟩ := hsamples 1 (by rw [hcount]; decide)
  rw [hread.1, hbits, hfifteen.1] at hwritten0
  rw [hread.2, hbits, hfifteen.2] at hwritten1
  exact ⟨scaled, hlength, hwritten0 hfirst, hwritten1 hsecond⟩

end VirtualChime.AplayAudioPlayer
