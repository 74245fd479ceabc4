import Mathlib.Data.List.Basic
import Mathlib.Order.Basic

/-!
# The newest few of a sequence, on numbered places

A new item takes the first place after each of the others has moved to the next one, from the last
place down; what stood on the last place is gone.  Places may have names; where the numbers have
names of their own, moving between named places is moving between the numbered ones.
-/

namespace Shelves

variable {α ι κ : Type*} [DecidableEq ι] [DecidableEq κ]

/-- What stands at `source`, if anything does, goes to `target`. -/
def move (places : ι → Option α) (source target : ι) : ι → Option α :=
  match places source with
  | none => places
  | some a => fun n => if n = target then some a else if n = source then none else places n

def put (places : ι → Option α) (target : ι) (a : α) : ι → Option α :=
  fun n => if n = target then some a else places n

/-- Moving between places with names of their own. -/
theorem move_comp {name : κ → ι} (h : Function.Injective name) (places : ι → Option α)
    (source target : κ) :
    move places (name source) (name target) ∘ name = move (places ∘ name) source target := by
  funext n
  rw [Function.comp_apply, move, move, Function.comp_apply]
  cases places (name source) with
  | none => rfl
  | some a => simp only [h.eq_iff, Function.comp_apply]

theorem put_comp {name : κ → ι} (h : Function.Injective name) (places : ι → Option α)
    (target : κ) (a : α) : put places (name target) a ∘ name = put (places ∘ name) target a := by
  funext n
  simp only [Function.comp_apply, put, h.eq_iff]

/-- A place that holds something after a move held it before, or is the target. -/
theorem move_isSome {places : ι → Option α} {source target n : ι}
    (h : (move places source target n).isSome = true) :
    n = target ∨ (places n).isSome = true := by
  rw [move] at h
  cases hsource : places source with
  | none =>
    rw [hsource] at h
    exact Or.inr h
  | some a =>
    rw [hsource] at h
    dsimp only at h
    split at h
    · next heq => exact Or.inl heq
    · split at h
      · cases h
      · exact Or.inr h

theorem put_isSome {places : ι → Option α} {target n : ι} {a : α}
    (h : (put places target a n).isSome = true) : n = target ∨ (places n).isSome = true := by
  rw [put] at h
  split at h
  · next heq => exact Or.inl heq
  · exact Or.inr h

/-- The newest `keep` of the items stand at `1`, `2`, …; the list has the newest first. -/
structure Shelved (keep : ℕ) (places : ℕ → Option α) (items : List α) : Prop where
  inside : ∀ n, 1 ≤ n → n ≤ keep → places n = items[n - 1]?
  outside : ∀ n, n = 0 ∨ keep < n → places n = none

/-- Those above `index` have moved on by one, and `index` is free or, at the start, the last. -/
structure Shifting (keep index : ℕ) (places : ℕ → Option α) (items : List α) : Prop where
  below : ∀ n, 1 ≤ n → n < index → places n = items[n - 1]?
  here : places index = if index = keep then items[keep - 1]? else none
  above : ∀ n, index < n → n ≤ keep → places n = items[n - 2]?
  outside : ∀ n, n = 0 ∨ keep < n → places n = none

variable {keep index : ℕ} {places : ℕ → Option α} {items : List α}

theorem Shelved.shifting (h : Shelved keep places items) (hkeep : 1 ≤ keep) :
    Shifting keep keep places items where
  below := fun n hn hlt => h.inside n hn (Nat.le_of_lt hlt)
  here := by rw [if_pos rfl, h.inside keep hkeep (Nat.le_refl _)]
  above := fun n hlt hle => absurd hlt (Nat.not_lt.mpr hle)
  outside := h.outside

theorem Shifting.move (h : Shifting keep index places items) (hindex : 1 < index)
    (hle : index ≤ keep) :
    Shifting keep (index - 1) (Shelves.move places (index - 1) index) items := by
  have hprev : places (index - 1) = items[index - 2]? :=
    h.below (index - 1) (by omega) (by omega)
  cases hitem : items[index - 2]? with
  | none =>
    have hnext : items[keep - 1]? = none := by
      rw [List.getElem?_eq_none_iff] at hitem ⊢
      omega
    have hmove : Shelves.move places (index - 1) index = places := by
      simp [Shelves.move, hprev, hitem]
    rw [hmove]
    refine ⟨fun n hn hlt => h.below n hn (by omega), ?_, ?_, h.outside⟩
    · rw [if_neg (by omega), hprev, hitem]
    · intro n hlt hle'
      rcases Nat.lt_or_ge index n with hgt | hge
      · exact h.above n hgt hle'
      · obtain rfl : n = index := by omega
        rw [hitem, h.here, hnext, ite_self]
  | some a =>
    have hmove : Shelves.move places (index - 1) index =
        fun n => if n = index then some a else if n = index - 1 then none else places n := by
      simp [Shelves.move, hprev, hitem]
    rw [hmove]
    constructor
    · intro n hn hlt
      simp only [show n ≠ index by omega, show n ≠ index - 1 by omega, if_false]
      exact h.below n hn (by omega)
    · simp only [show index - 1 ≠ index by omega, show index - 1 ≠ keep by omega, if_false, if_true]
    · intro n hlt hle'
      by_cases hn : n = index
      · rw [if_pos hn, hn, hitem]
      · simp only [hn, show n ≠ index - 1 by omega, if_false]
        exact h.above n (by omega) hle'
    · intro n hn
      simp only [show n ≠ index by omega, show n ≠ index - 1 by omega, if_false]
      exact h.outside n hn

theorem Shifting.put (h : Shifting keep 1 places items) (hkeep : 1 ≤ keep) (a : α) :
    Shelved keep (Shelves.put places 1 a) (a :: items) where
  inside := by
    intro n hn hle
    by_cases h1 : n = 1
    · simp [Shelves.put, h1]
    · obtain ⟨m, rfl⟩ : ∃ m, n = m + 2 := ⟨n - 2, by omega⟩
      simp only [Shelves.put, h1, if_false]
      exact h.above (m + 2) (by omega) hle
  outside := by
    intro n hn
    simp only [Shelves.put, show n ≠ 1 by omega, if_false]
    exact h.outside n hn

theorem Shelved.mem (h : Shelved keep places items) {n : ℕ} {a : α} (ha : places n = some a) :
    1 ≤ n ∧ n ≤ keep ∧ a ∈ items := by
  by_cases hn : n = 0 ∨ keep < n
  · rw [h.outside n hn] at ha
    cases ha
  · have hin := h.inside n (by omega) (by omega)
    exact ⟨by omega, by omega, List.mem_of_getElem? (hin.symm.trans ha)⟩

/-- There are no gaps between them. -/
theorem Shelved.no_gap (h : Shelved keep places items) {n : ℕ} (hn : 1 ≤ n) {a : α}
    (ha : places (n + 1) = some a) : (places n).isSome = true := by
  obtain ⟨-, hle, -⟩ := h.mem ha
  have hnext := h.inside (n + 1) (by omega) hle
  obtain ⟨hlt, -⟩ := List.getElem?_eq_some_iff.mp (hnext.symm.trans ha)
  rw [h.inside n hn (by omega), List.getElem?_eq_getElem (by omega)]
  rfl

theorem Shifting.mem (h : Shifting keep index places items) {n : ℕ} {a : α}
    (ha : places n = some a) : 1 ≤ n ∧ n ≤ keep ∧ a ∈ items := by
  by_cases hn : n = 0 ∨ keep < n
  · rw [h.outside n hn] at ha
    cases ha
  · refine ⟨by omega, by omega, ?_⟩
    rcases Nat.lt_trichotomy n index with hlt | heq | hgt
    · exact List.mem_of_getElem? ((h.below n (by omega) hlt).symm.trans ha)
    · rw [heq, h.here] at ha
      split at ha
      · exact List.mem_of_getElem? ha
      · cases ha
    · exact List.mem_of_getElem? ((h.above n hgt (by omega)).symm.trans ha)

/-! ## The contents of the places, oldest first -/

section Contents

variable {β : Type*} {texts : ℕ → Option (List β)} {all : List (List β)}

def contents (texts : ℕ → Option (List β)) : ℕ → List β
  | 0 => []
  | n + 1 => (texts (n + 1)).getD [] ++ contents texts n

theorem flatten_reverse_take_succ (n : ℕ) :
    (all.take (n + 1)).reverse.flatten = (all[n]?).getD [] ++ (all.take n).reverse.flatten := by
  rw [List.take_add_one]
  cases all[n]? <;> simp

/-- Up to a number, the contents are those of the newest that many. -/
theorem contents_eq {n : ℕ} (h : ∀ m, 1 ≤ m → m ≤ n → texts m = all[m - 1]?) :
    contents texts n = (all.take n).reverse.flatten := by
  induction n with
  | zero => rfl
  | succ n ih =>
    rw [contents, flatten_reverse_take_succ, ih fun m h1 hle => h m h1 (by omega),
      h (n + 1) (by omega) (Nat.le_refl _)]
    rfl

theorem Shelved.contents (h : Shelved keep texts all) :
    Shelves.contents texts keep = (all.take keep).reverse.flatten :=
  contents_eq h.inside

/-- Above a free place they are those of the newest that many but one. -/
theorem contents_of_shift {n : ℕ} (hbelow : ∀ m, 1 ≤ m → m < index → texts m = all[m - 1]?)
    (hhere : texts index = none) (habove : ∀ m, index < m → m ≤ n → texts m = all[m - 2]?)
    (hindex : 1 ≤ index) (hle : index ≤ n) :
    Shelves.contents texts n = (all.take (n - 1)).reverse.flatten := by
  induction n with
  | zero => omega
  | succ n ih =>
    rw [Shelves.contents]
    rcases Nat.eq_or_lt_of_le hle with heq | hlt
    · obtain rfl : index = n + 1 := heq
      rw [hhere, contents_eq fun m h1 hm => hbelow m h1 (by omega)]
      rfl
    · obtain ⟨m, rfl⟩ : ∃ m, n = m + 1 := ⟨n - 1, by omega⟩
      rw [ih (fun m hm hle' => habove m hm (by omega)) (by omega),
        habove (m + 2) hlt (Nat.le_refl _)]
      exact (flatten_reverse_take_succ m).symm

/-- While they move, all are there up to the last place, or up to the one before it. -/
theorem Shifting.contents (h : Shifting keep index texts all) (hindex : 1 ≤ index)
    (hle : index ≤ keep) :
    ∃ n, keep ≤ n + 1 ∧ Shelves.contents texts keep = (all.take n).reverse.flatten := by
  rcases Nat.eq_or_lt_of_le hle with heq | hlt
  · refine ⟨keep, Nat.le_succ _, contents_eq ?_⟩
    intro m h1 hm
    rcases Nat.eq_or_lt_of_le hm with hlast | hbefore
    · rw [hlast, ← heq, h.here, if_pos heq, heq]
    · exact h.below m h1 (by omega)
  · refine ⟨keep - 1, by omega, ?_⟩
    have hhere := h.here
    rw [if_neg (by omega)] at hhere
    exact contents_of_shift h.below hhere h.above hindex hle

/-- The oldest of all texts, and the newest `n`. -/
theorem flatten_reverse_split (n : ℕ) :
    all.reverse.flatten = (all.drop n).reverse.flatten ++ (all.take n).reverse.flatten := by
  rw [← List.flatten_append, ← List.reverse_append, List.take_append_drop]

theorem le_length_flatten {least : ℕ} (h : ∀ text ∈ all, least ≤ text.length) :
    all.length * least ≤ all.flatten.length := by
  induction all with
  | nil => simp
  | cons text rest ih =>
    have hfirst := h text (List.mem_cons_self ..)
    have hrest := ih fun other hother => h other (List.mem_cons_of_mem _ hother)
    rw [List.length_cons, Nat.succ_mul, List.flatten_cons, List.length_append]
    omega

end Contents

end Shelves
