import VirtualChime.Library.KeyMap
import Mathlib.Data.List.MinMax
import Mathlib.Tactic

/-!
# The best of each key

A pass over some elements that keeps, in an ordered map, the best element of each key: a
later one takes the place of an earlier one only if it is better.  `get_keepBest` says what
the map holds in the end, `ordered_keepBest` that its keys stay in order, and
`argmax_eq_some_iff_first` which element is the best.
-/

namespace KeyMap

/-! ## 1. Ordered keys -/

section Ordered

variable {κ ν : Type*} [DecidableEq κ] {lt : κ → κ → Bool}

/-- The keys are in order, so no two of them are equal. -/
def Ordered (lt : κ → κ → Bool) (m : List (κ × ν)) : Prop :=
  m.Pairwise fun a b => lt a.1 b.1 = true

theorem mem_of_mem_set {k : κ} {v : ν} {m : List (κ × ν)} {e : κ × ν}
    (h : e ∈ set lt k v m) : e = (k, v) ∨ e ∈ m := by
  induction m with
  | nil => exact Or.inl (List.mem_singleton.mp h)
  | cons first m ih =>
    rw [set] at h
    split at h
    · exact (List.mem_cons.mp h).imp_right (List.mem_cons_of_mem _)
    · split at h
      · exact List.mem_cons.mp h
      · rcases List.mem_cons.mp h with rfl | hmem
        · exact Or.inr (List.mem_cons_self ..)
        · exact (ih hmem).imp_right (List.mem_cons_of_mem _)

theorem Ordered.set (trans : ∀ a b c, lt a b = true → lt b c = true → lt a c = true)
    (total : ∀ a b, a ≠ b → lt a b = false → lt b a = true) {m : List (κ × ν)}
    (h : Ordered lt m) (k : κ) (v : ν) : Ordered lt (set lt k v m) := by
  induction m with
  | nil => exact List.pairwise_singleton _ _
  | cons e m ih =>
    obtain ⟨hfirst, hrest⟩ := List.pairwise_cons.mp h
    rw [KeyMap.set]
    split
    · next heq =>
      rw [← heq] at hfirst
      exact List.pairwise_cons.mpr ⟨hfirst, hrest⟩
    · next hne =>
      split
      · next hlt =>
        refine List.pairwise_cons.mpr ⟨List.forall_mem_cons.mpr ⟨hlt, ?_⟩, h⟩
        intro later hlater
        exact trans _ _ _ hlt (hfirst later hlater)
      · next hlt =>
        refine List.pairwise_cons.mpr ⟨?_, ih hrest⟩
        intro later hlater
        rcases mem_of_mem_set hlater with rfl | hmem
        · exact total _ _ hne (by simpa using hlt)
        · exact hfirst later hmem

omit [DecidableEq κ] in
theorem Ordered.nodup (irrefl : ∀ a, lt a a = false) {m : List (κ × ν)} (h : Ordered lt m) :
    (m.map Prod.fst).Nodup := by
  rw [List.nodup_iff_pairwise_ne, List.pairwise_map]
  apply h.imp
  intro a b hlt heq
  rw [heq, irrefl] at hlt
  cases hlt

theorem mem_iff_get {m : List (κ × ν)} (nodup : (m.map Prod.fst).Nodup) (k : κ) (v : ν) :
    (k, v) ∈ m ↔ get k m = some v := by
  constructor
  · exact get_of_mem nodup
  · intro h
    obtain ⟨e, hfind, hvalue⟩ := Option.map_eq_some_iff.mp h
    have hkey : e.1 = k := by simpa using List.find?_some hfind
    rw [← hkey, ← hvalue]
    exact List.mem_of_find?_eq_some hfind

end Ordered

/-! ## 2. Keeping the best -/

section KeepBest

variable {κ α β : Type*} [DecidableEq κ] [LinearOrder β] (lt : κ → κ → Bool) (key : α → κ)
  (score : α → β)

/-- One element: it is kept if there is none with its key, or a worse one. -/
def keepOne (m : List (κ × α)) (a : α) : List (κ × α) :=
  match get (key a) m with
  | none => set lt (key a) a m
  | some kept => if score kept < score a then set lt (key a) a m else m

def keepBest (entries : List α) : List (κ × α) := entries.foldl (keepOne lt key score) []

theorem get_keepOne (k : κ) (m : List (κ × α)) (a : α) :
    get k (keepOne lt key score m a) =
      if key a = k then List.argAux (fun b c => score c < score b) (get k m) a else get k m := by
  rw [keepOne]
  by_cases hk : key a = k
  · subst hk
    rw [if_pos rfl]
    cases hget : get (key a) m with
    | none => exact (get_set ..).trans (if_pos rfl)
    | some kept =>
      dsimp only [List.argAux]
      split
      · exact (get_set ..).trans (if_pos rfl)
      · exact hget
  · rw [if_neg hk]
    cases get (key a) m with
    | none => exact (get_set ..).trans (if_neg hk)
    | some kept =>
      dsimp only
      split
      · exact (get_set ..).trans (if_neg hk)
      · rfl

/-- For each key the first of the best elements is kept. -/
theorem get_keepBest (k : κ) (entries : List α) :
    get k (keepBest lt key score entries) =
      (entries.filter fun a => key a = k).argmax score := by
  induction entries using List.reverseRecOn with
  | nil => rfl
  | append_singleton entries a ih =>
    rw [keepBest, List.foldl_append, List.foldl_cons, List.foldl_nil, get_keepOne, ← keepBest, ih,
      List.filter_append]
    by_cases hk : key a = k
    · rw [if_pos hk, List.filter_cons_of_pos (by simpa using hk), List.filter_nil,
        List.argmax_concat]
      rfl
    · rw [if_neg hk, List.filter_cons_of_neg (by simpa using hk), List.filter_nil,
        List.append_nil]

theorem ordered_keepBest {lt : κ → κ → Bool}
    (trans : ∀ a b c, lt a b = true → lt b c = true → lt a c = true)
    (total : ∀ a b, a ≠ b → lt a b = false → lt b a = true) (entries : List α) :
    Ordered lt (keepBest lt key score entries) := by
  induction entries using List.reverseRecOn with
  | nil => exact List.Pairwise.nil
  | append_singleton entries a ih =>
    rw [keepBest, List.foldl_append, List.foldl_cons, List.foldl_nil, ← keepBest, keepOne]
    split
    · exact ih.set trans total _ _
    · split
      · exact ih.set trans total _ _
      · exact ih

end KeepBest

/-! ## 3. The best element -/

section Argmax

variable {α β : Type*} [LinearOrder β] {score : α → β}

/-- The best element is better than those before it and no worse than those after it. -/
theorem argmax_eq_some_iff_first {entries : List α} {a : α} :
    entries.argmax score = some a ↔
      ∃ before after, entries = before ++ a :: after ∧ (∀ b ∈ before, score b < score a) ∧
        ∀ b ∈ after, score b ≤ score a := by
  constructor
  · intro h
    induction entries using List.reverseRecOn generalizing a with
    | nil => cases h
    | append_singleton entries last ih =>
      rw [List.argmax_concat] at h
      cases hbest : entries.argmax score with
      | none =>
        rw [List.argmax_eq_none.mp hbest]
        rw [hbest] at h
        cases h
        exact ⟨[], [], rfl, by simp, by simp⟩
      | some best =>
        rw [hbest] at h
        dsimp only at h
        split at h
        · next hlt =>
          cases h
          refine ⟨entries, [], rfl, ?_, by simp⟩
          intro b hb
          exact (List.le_of_mem_argmax hb hbest).trans_lt hlt
        · next hle =>
          cases h
          obtain ⟨before, after, rfl, hbefore, hafter⟩ := ih hbest
          refine ⟨before, after ++ [last], by simp, hbefore, ?_⟩
          intro b hb
          rcases List.mem_append.mp hb with hb | hb
          · exact hafter b hb
          · rw [List.mem_singleton.mp hb]
            exact not_lt.mp hle
  · rintro ⟨before, after, rfl, hbefore, hafter⟩
    induction after using List.reverseRecOn with
    | nil =>
      rw [List.argmax_concat]
      cases hbest : before.argmax score with
      | none => rfl
      | some best => exact if_pos (hbefore best (List.argmax_mem hbest))
    | append_singleton after last ih =>
      have hbest := ih fun b hb => hafter b (List.mem_append_left _ hb)
      have hlast : score last ≤ score a := hafter last (List.mem_append_right _ (by simp))
      have hassoc : before ++ a :: (after ++ [last]) = (before ++ a :: after) ++ [last] := by simp
      rw [hassoc, List.argmax_concat, hbest]
      exact if_neg (not_lt.mpr hlast)

end Argmax

end KeyMap
