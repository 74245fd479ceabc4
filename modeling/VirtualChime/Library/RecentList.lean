import Mathlib.Data.List.Nodup
import Mathlib.Data.List.Dedup

/-!
# Lists of the most recent elements

A list that keeps the newest `n` of the distinct elements noted so far, in the order in
which they were noted: an element that is in the list stays where it is, a new one goes
to the end, and the oldest ones fall out at the front.
-/

namespace RecentList

variable {α : Type*}

/-- The last `n` elements of a list. -/
def newest (n : Nat) (l : List α) : List α := l.drop (l.length - n)

theorem length_newest_le (n : Nat) (l : List α) : (newest n l).length ≤ n := by
  rw [newest, List.length_drop]
  omega

theorem newest_eq_self {n : Nat} {l : List α} (h : l.length ≤ n) : newest n l = l := by
  rw [newest, Nat.sub_eq_zero_of_le h, List.drop_zero]

theorem newest_cons_of_lt {n : Nat} {a : α} {l : List α} (h : n < (a :: l).length) :
    newest n (a :: l) = newest n l := by
  have hlen : (a :: l).length - n = (l.length - n) + 1 := by
    rw [List.length_cons] at h ⊢
    omega
  rw [newest, hlen, List.drop_succ_cons, newest]

theorem newest_sublist (n : Nat) (l : List α) : (newest n l).Sublist l := List.drop_sublist _ l

theorem getLast?_newest_concat {n : Nat} (hn : 0 < n) (l : List α) (a : α) :
    (newest n (l ++ [a])).getLast? = some a := by
  have hle : (l ++ [a]).length - n ≤ l.length := by
    rw [List.length_append, List.length_singleton]
    omega
  rw [newest, List.drop_append_of_le_length hle, List.getLast?_concat]

variable [DecidableEq α]

/-- The list with `a` at its end, unless it holds `a`. -/
def append (l : List α) (a : α) : List α := if a ∈ l then l else l ++ [a]

theorem nodup_append {l : List α} (h : l.Nodup) (a : α) : (append l a).Nodup := by
  rw [append]
  split
  · exact h
  · next hmem => simpa using h.concat hmem

/-- The elements of a list without the later copies of any of them. -/
def firsts (l : List α) : List α := l.foldl append []

theorem nodup_firsts (l : List α) : (firsts l).Nodup := by
  have hfold : ∀ (l seen : List α), seen.Nodup → (l.foldl append seen).Nodup := by
    intro l
    induction l with
    | nil => exact fun _ h => h
    | cons a l ih => exact fun seen h => ih _ (nodup_append h a)
  exact hfold l [] List.nodup_nil

theorem mem_of_mem_firsts {l : List α} {b : α} (h : b ∈ firsts l) : b ∈ l := by
  have hfold : ∀ (l seen : List α), b ∈ l.foldl append seen → b ∈ seen ∨ b ∈ l := by
    intro l
    induction l with
    | nil => exact fun _ h => Or.inl h
    | cons a l ih =>
      intro seen h
      rcases ih _ h with h | h
      · rw [append] at h
        split at h
        · exact Or.inl h
        · rcases List.mem_append.mp h with h | h
          · exact Or.inl h
          · exact Or.inr (List.mem_cons.mpr (Or.inl (List.mem_singleton.mp h)))
      · exact Or.inr (List.mem_cons_of_mem _ h)
  exact (hfold l [] h).resolve_left (List.not_mem_nil)

theorem firsts_eq_self {l : List α} (h : l.Nodup) : firsts l = l := by
  have hfold : ∀ (l seen : List α), (seen ++ l).Nodup → l.foldl append seen = seen ++ l := by
    intro l
    induction l with
    | nil => exact fun seen _ => (List.append_nil seen).symm
    | cons a l ih =>
      intro seen h
      have hmem : a ∉ seen := fun hmem =>
        (List.nodup_append.mp h).2.2 a hmem a (List.mem_cons_self ..) rfl
      rw [List.foldl_cons, append, if_neg hmem, ih _ (by simpa using h)]
      simp
  exact hfold l [] (by simpa using h)

/-- Noting `a` in a list that keeps `n` elements. -/
def note (n : Nat) (l : List α) (a : α) : List α :=
  if a ∈ l then l else newest n (l ++ [a])

theorem nodup_note {n : Nat} {l : List α} (h : l.Nodup) (a : α) : (note n l a).Nodup := by
  rw [note]
  split
  · exact h
  · next hmem =>
    apply (newest_sublist n _).nodup
    simpa using h.concat hmem

theorem length_note_le {n : Nat} {l : List α} (h : l.length ≤ n) (a : α) :
    (note n l a).length ≤ n := by
  rw [note]
  split
  · exact h
  · exact length_newest_le n _

theorem mem_of_mem_note {n : Nat} {l : List α} {a b : α} (h : b ∈ note n l a) : b ∈ l ∨ b = a := by
  rw [note] at h
  split at h
  · exact Or.inl h
  · simpa using (newest_sublist n _).subset h

theorem note_of_mem {n : Nat} {l : List α} {a : α} (h : a ∈ l) : note n l a = l := if_pos h

theorem note_of_not_mem {n : Nat} {l : List α} {a : α} (h : a ∉ l) :
    note n l a = newest n (l ++ [a]) := if_neg h

end RecentList
