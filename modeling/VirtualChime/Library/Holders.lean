import Mathlib.Data.List.Basic
import Mathlib.Data.List.Count

/-!
# Processes that hold something

The processes of a system in a list, and how many of them hold a thing that only one may hold.
A process takes the thing, gives it back, or changes in other ways; what the rest holds stays.
-/

namespace Holders

variable {α : Type*} {H : α → Bool} {l : List α} {i j : ℕ} {a b : α}

theorem countP_set_add (h : l[i]? = some b) :
    (l.set i a).countP H + (if H b then 1 else 0) =
      l.countP H + if H a then 1 else 0 := by
  induction l generalizing i with
  | nil => cases h
  | cons x l ih =>
    cases i with
    | zero =>
      obtain rfl := Option.some.inj h
      rw [List.set_cons_zero, List.countP_cons, List.countP_cons]
      omega
    | succ i =>
      rw [List.getElem?_cons_succ] at h
      have hrest := ih h
      rw [List.set_cons_succ, List.countP_cons, List.countP_cons]
      omega

/-- A process that changes without taking or giving back anything. -/
theorem countP_set_of_eq (h : l[i]? = some b) (hsame : H a = H b) :
    (l.set i a).countP H = l.countP H := by
  have hcount := countP_set_add (H := H) (a := a) h
  rw [hsame] at hcount
  exact Nat.add_right_cancel hcount

theorem countP_set_of_takes (h : l[i]? = some b) (hbefore : H b = false)
    (hafter : H a = true) : (l.set i a).countP H = l.countP H + 1 := by
  have hcount := countP_set_add (H := H) (a := a) h
  rw [if_neg (by rw [hbefore]; decide), if_pos hafter] at hcount
  exact hcount

theorem countP_set_of_gives (h : l[i]? = some b) (hbefore : H b = true)
    (hafter : H a = false) : (l.set i a).countP H + 1 = l.countP H := by
  have hcount := countP_set_add (H := H) (a := a) h
  rw [if_pos hbefore, if_neg (by rw [hafter]; decide)] at hcount
  exact hcount

theorem countP_pos (h : l[i]? = some a) (ha : H a = true) : 0 < l.countP H :=
  List.countP_pos_iff.mpr ⟨a, List.mem_of_getElem? h, ha⟩

theorem getElem?_set (h : (l.set i a)[j]? = some b) :
    (i = j ∧ b = a) ∨ (i ≠ j ∧ l[j]? = some b) := by
  by_cases hij : i = j
  · subst hij
    left
    rw [List.getElem?_set_self'] at h
    obtain ⟨_, -, hb⟩ := Option.map_eq_some_iff.mp h
    exact ⟨rfl, hb.symm⟩
  · rw [List.getElem?_set_ne hij] at h
    exact Or.inr ⟨hij, h⟩

/-! ## Who holds it -/

/-- The process at `owner` holds something, and no other does. -/
structure Owns (H : α → Bool) (l : List α) (owner : Option ℕ) : Prop where
  owner_holds : ∀ i, owner = some i → ∃ a, l[i]? = some a ∧ H a = true
  eq_owner : ∀ i a, l[i]? = some a → H a = true → owner = some i

variable {owner : Option ℕ}

theorem owns_nil : Owns H ([] : List α) none where
  owner_holds := fun _ h => by cases h
  eq_owner := fun _ _ h => by cases h

/-- Two holders are the same. -/
theorem Owns.index_eq (h : Owns H l owner) (hi : l[i]? = some a) (ha : H a = true)
    (hj : l[j]? = some b) (hb : H b = true) : i = j :=
  Option.some.inj ((h.eq_owner i a hi ha).symm.trans (h.eq_owner j b hj hb))

theorem Owns.set_of_eq (h : Owns H l owner) (hi : l[i]? = some b)
    (hsame : H a = H b) : Owns H (l.set i a) owner := by
  constructor
  · intro k hk
    rcases h.owner_holds k hk with ⟨x, hx, hholds⟩
    by_cases hik : i = k
    · subst hik
      obtain rfl : b = x := Option.some.inj (hi.symm.trans hx)
      exact ⟨a, by rw [List.getElem?_set_self', hi]; rfl, hsame.trans hholds⟩
    · exact ⟨x, by rw [List.getElem?_set_ne hik]; exact hx, hholds⟩
  · intro k x hx hholds
    rcases getElem?_set hx with ⟨rfl, rfl⟩ | ⟨-, hold⟩
    · exact h.eq_owner i b hi (hsame ▸ hholds)
    · exact h.eq_owner k x hold hholds

theorem Owns.set_of_takes (h : Owns H l none) (hi : l[i]? = some b) (ha : H a = true) :
    Owns H (l.set i a) (some i) := by
  constructor
  · intro k hk
    obtain rfl := Option.some.inj hk
    exact ⟨a, by rw [List.getElem?_set_self', hi]; rfl, ha⟩
  · intro k x hx hholds
    rcases getElem?_set hx with ⟨rfl, -⟩ | ⟨-, hold⟩
    · rfl
    · cases h.eq_owner k x hold hholds

theorem Owns.set_of_gives (h : Owns H l owner) (hi : l[i]? = some b) (hb : H b = true)
    (ha : H a = false) : Owns H (l.set i a) none := by
  constructor
  · intro k hk
    cases hk
  · intro k x hx hholds
    rcases getElem?_set hx with ⟨rfl, rfl⟩ | ⟨hne, hold⟩
    · rw [ha] at hholds
      cases hholds
    · exact absurd (h.index_eq hi hb hold hholds) hne

theorem Owns.append (h : Owns H l owner) (ha : H a = false) :
    Owns H (l ++ [a]) owner := by
  constructor
  · intro k hk
    rcases h.owner_holds k hk with ⟨x, hx, hholds⟩
    exact ⟨x, List.getElem?_append_left (List.getElem?_eq_some_iff.mp hx).1 ▸ hx, hholds⟩
  · intro k x hx hholds
    rw [List.getElem?_append] at hx
    split at hx
    · exact h.eq_owner k x hx hholds
    · obtain rfl := List.mem_singleton.mp (List.mem_of_getElem? hx)
      rw [ha] at hholds
      cases hholds

/-- Where the others have none, what one of them has is what there is. -/
theorem findSome?_eq_of_others {β : Type*} {f : α → Option β} (h : l[i]? = some a)
    (hothers : ∀ (j : ℕ) (b : α), i ≠ j → l[j]? = some b → f b = none) :
    l.findSome? f = f a := by
  induction l generalizing i with
  | nil => cases h
  | cons x l ih =>
    rw [List.findSome?_cons]
    cases i with
    | zero =>
      obtain rfl := Option.some.inj h
      have hrest : l.findSome? f = none := by
        rw [List.findSome?_eq_none_iff]
        intro b hb
        obtain ⟨j, hj⟩ := List.mem_iff_getElem?.mp hb
        exact hothers (j + 1) b (by omega) hj
      cases hx : f x with
      | none => exact hrest
      | some b => rfl
    | succ i =>
      rw [hothers 0 x (by omega) rfl]
      exact ih h fun j b hij hj => hothers (j + 1) b (by omega) hj

end Holders
