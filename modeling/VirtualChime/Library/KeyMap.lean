import Mathlib.Data.List.Basic

/-!
# Maps as sorted lists of entries

`set lt k v m` is `m[k] = v` on an ordered map: the entry is replaced in its place,
or put before the first greater key.  `get` looks a key up.
-/

namespace KeyMap

variable {κ ν : Type*} [DecidableEq κ]

def get (k : κ) (m : List (κ × ν)) : Option ν := (m.find? fun e => e.1 = k).map (·.2)

def set (lt : κ → κ → Bool) (k : κ) (v : ν) : List (κ × ν) → List (κ × ν)
  | [] => [(k, v)]
  | e :: m =>
      if k = e.1 then (k, v) :: m
      else if lt k e.1 then (k, v) :: e :: m
      else e :: set lt k v m

/-- The map that a list of assignments, made in order, leaves. -/
def ofList (lt : κ → κ → Bool) (entries : List (κ × ν)) : List (κ × ν) :=
  entries.foldl (fun m e => set lt e.1 e.2 m) []

@[simp] theorem get_nil (k : κ) : get k ([] : List (κ × ν)) = none := rfl

theorem get_cons (k : κ) (e : κ × ν) (m : List (κ × ν)) :
    get k (e :: m) = if e.1 = k then some e.2 else get k m := by
  unfold get
  rw [List.find?_cons]
  by_cases h : e.1 = k
  · simp [h]
  · simp [h]

theorem get_of_mem {k : κ} {v : ν} {m : List (κ × ν)} (nodup : (m.map Prod.fst).Nodup)
    (h : (k, v) ∈ m) : get k m = some v := by
  induction m with
  | nil => cases h
  | cons e m ih =>
    rw [List.map_cons, List.nodup_cons] at nodup
    rw [get_cons]
    rcases List.mem_cons.mp h with rfl | hmem
    · rw [if_pos rfl]
    · have hne : e.1 ≠ k := by
        rintro rfl
        exact nodup.1 (List.mem_map.mpr ⟨_, hmem, rfl⟩)
      rw [if_neg hne, ih nodup.2 hmem]

theorem get_set (lt : κ → κ → Bool) (k k' : κ) (v : ν) (m : List (κ × ν)) :
    get k' (set lt k v m) = if k = k' then some v else get k' m := by
  induction m with
  | nil => rw [set, get_cons]
  | cons e m ih =>
    rw [set]
    split
    · next h =>
      rw [get_cons, get_cons, ← h]
      by_cases hk : k = k'
      · rw [if_pos hk, if_pos hk]
      · rw [if_neg hk, if_neg hk, if_neg hk]
    · next hne =>
      split
      · rw [get_cons]
      · rw [get_cons, get_cons, ih]
        by_cases hk : k = k'
        · rw [if_pos hk, if_pos hk, if_neg (fun h => hne (hk.trans h.symm))]
        · rw [if_neg hk, if_neg hk]

theorem get_foldl_set (lt : κ → κ → Bool) (k : κ) (entries m : List (κ × ν)) :
    get k (entries.foldl (fun m e => set lt e.1 e.2 m) m) =
      ((entries.reverse.find? fun e => e.1 = k).map (·.2)).or (get k m) := by
  induction entries generalizing m with
  | nil => rfl
  | cons e entries ih =>
    rw [List.foldl_cons, ih, get_set, List.reverse_cons, List.find?_append]
    cases hfind : entries.reverse.find? fun e => e.1 = k with
    | some found => rfl
    | none =>
      by_cases hk : e.1 = k
      · simp [hk]
      · simp [hk]

/-- A key keeps the last value that was assigned to it. -/
theorem get_ofList (lt : κ → κ → Bool) (k : κ) (entries : List (κ × ν)) :
    get k (ofList lt entries) = get k entries.reverse := by
  rw [ofList, get_foldl_set, get_nil, Option.or_none]
  rfl

variable {κ' ν' : Type*} [DecidableEq κ']

/-- Renaming the keys in an order-preserving way commutes with setting one. -/
theorem map_set {lt : κ → κ → Bool} {lt' : κ' → κ' → Bool} {f : κ → κ'} (g : ν → ν')
    (inj : Function.Injective f) (mono : ∀ a b, lt' (f a) (f b) = lt a b) (k : κ) (v : ν)
    (m : List (κ × ν)) :
    (set lt k v m).map (fun e => (f e.1, g e.2)) =
      set lt' (f k) (g v) (m.map fun e => (f e.1, g e.2)) := by
  induction m with
  | nil => rfl
  | cons e m ih =>
    rw [List.map_cons, set, set]
    by_cases hk : k = e.1
    · rw [if_pos hk, if_pos (congrArg f hk), List.map_cons]
    · rw [if_neg hk, if_neg (fun h => hk (inj h)), mono]
      split
      · rw [List.map_cons, List.map_cons]
      · rw [List.map_cons, ih]

theorem map_ofList {lt : κ → κ → Bool} {lt' : κ' → κ' → Bool} {f : κ → κ'} (g : ν → ν')
    (inj : Function.Injective f) (mono : ∀ a b, lt' (f a) (f b) = lt a b)
    (entries : List (κ × ν)) :
    (ofList lt entries).map (fun e => (f e.1, g e.2)) =
      ofList lt' (entries.map fun e => (f e.1, g e.2)) := by
  have hfold : ∀ m : List (κ × ν),
      (entries.foldl (fun m e => set lt e.1 e.2 m) m).map (fun e => (f e.1, g e.2)) =
        (entries.map fun e => (f e.1, g e.2)).foldl (fun m e => set lt' e.1 e.2 m)
          (m.map fun e => (f e.1, g e.2)) := by
    intro m
    induction entries generalizing m with
    | nil => rfl
    | cons e entries ih => rw [List.foldl_cons, ih, map_set g inj mono, List.map_cons, List.foldl_cons]
  exact hfold []

end KeyMap
