import Mathlib.Data.List.DropRight
import Mathlib.Tactic

/-!
# Runs of characters

`replaceRuns` puts one character in the place of every long enough run of characters that
satisfy a predicate, as `replace(/[...]{n,}/g, "-")` does.  A character that does not
satisfy the predicate ends a run, so a text is rewritten piece by piece.
-/

namespace CharRuns

variable {α : Type*}

/-- Every longest run of `p` of at least `least` elements replaced by `mark`. -/
def replaceRuns (p : α → Bool) (least : ℕ) (mark : α) : List α → List α
  | [] => []
  | c :: s =>
      if p c then
        let run := c :: s.takeWhile p
        (if least ≤ run.length then [mark] else run) ++
          replaceRuns p least mark (s.dropWhile p)
      else c :: replaceRuns p least mark s
termination_by s => s.length
decreasing_by
  · have hle := (List.dropWhile_sublist p (l := s)).length_le
    simp only [List.length_cons]
    omega
  · simp

variable {p : α → Bool} {least : ℕ} {mark : α}

/-! ## 1. Pieces -/

theorem takeWhile_append_stop {c : α} (hc : p c = false) (s t : List α) :
    (s ++ c :: t).takeWhile p = s.takeWhile p := by
  induction s with
  | nil => simp [hc]
  | cons a s ih =>
    rw [List.cons_append, List.takeWhile_cons, List.takeWhile_cons, ih]

theorem dropWhile_append_stop {c : α} (hc : p c = false) (s t : List α) :
    (s ++ c :: t).dropWhile p = s.dropWhile p ++ c :: t := by
  induction s with
  | nil => simp [hc]
  | cons a s ih =>
    rw [List.cons_append, List.dropWhile_cons, List.dropWhile_cons, ih]
    split <;> rfl

/-- A character that ends a run cuts the text in two. -/
theorem replaceRuns_append_stop {c : α} (hc : p c = false) (s t : List α) :
    replaceRuns p least mark (s ++ c :: t) =
      replaceRuns p least mark s ++ c :: replaceRuns p least mark t := by
  fun_induction replaceRuns p least mark s with
  | case1 => rw [List.nil_append, replaceRuns, if_neg (by simp [hc])]; rfl
  | case2 a s ha run ih =>
    rw [List.cons_append, replaceRuns, if_pos ha, takeWhile_append_stop hc,
      dropWhile_append_stop hc, ih, List.append_assoc]
  | case3 a s ha ih => rw [List.cons_append, replaceRuns, if_neg ha, ih, List.cons_append]

/-- Characters that are in no run are left as they are. -/
theorem replaceRuns_append_left {w : List α} (hw : ∀ c ∈ w, p c = false) (s : List α) :
    replaceRuns p least mark (w ++ s) = w ++ replaceRuns p least mark s := by
  induction w with
  | nil => rfl
  | cons c w ih =>
    obtain ⟨hc, hrest⟩ := List.forall_mem_cons.mp hw
    rw [List.cons_append, replaceRuns, if_neg (by simp [hc]), ih hrest, List.cons_append]

theorem replaceRuns_word {c : α} {w : List α} (hw : ∀ d ∈ c :: w, p d = false) (s t : List α) :
    replaceRuns p least mark (s ++ (c :: w ++ t)) =
      replaceRuns p least mark s ++ (c :: w ++ replaceRuns p least mark t) := by
  obtain ⟨hc, hrest⟩ := List.forall_mem_cons.mp hw
  rw [List.cons_append, replaceRuns_append_stop hc, replaceRuns_append_left hrest,
    List.cons_append]

/-- A text that is one run. -/
theorem replaceRuns_run {s : List α} (hne : s ≠ []) (hs : ∀ c ∈ s, p c = true) :
    replaceRuns p least mark s = if least ≤ s.length then [mark] else s := by
  cases s with
  | nil => exact absurd rfl hne
  | cons c s =>
    obtain ⟨hc, hrest⟩ := List.forall_mem_cons.mp hs
    rw [replaceRuns, if_pos hc, List.takeWhile_eq_self_iff.mpr hrest,
      List.dropWhile_eq_nil_iff.mpr hrest, replaceRuns, List.append_nil]

/-! ## 2. Texts that are left as they are -/

/-- A text in which no two characters of a run stand side by side has no run of two. -/
theorem replaceRuns_two_eq_self {s : List α}
    (h : s.IsChain fun a b => p a = false ∨ p b = false) : replaceRuns p 2 mark s = s := by
  induction s with
  | nil => rw [replaceRuns]
  | cons c s ih =>
    have hrest := ih h.tail
    by_cases hc : p c = true
    · have hstop : s.takeWhile p = [] ∧ s.dropWhile p = s := by
        cases s with
        | nil => exact ⟨rfl, rfl⟩
        | cons d s =>
          have hd : p d = false := by
            have hpair := (List.isChain_cons_cons.mp h).1
            simpa [hc] using hpair
          simp [hd]
      rw [replaceRuns, if_pos hc, hstop.1, hstop.2, hrest]
      rfl
    · rw [replaceRuns, if_neg hc, hrest]

theorem replaceRuns_eq_self {s : List α} (h : ∀ c ∈ s, p c = false) :
    replaceRuns p least mark s = s := by
  have happend : replaceRuns p least mark (s ++ []) = s ++ replaceRuns p least mark [] :=
    replaceRuns_append_left h []
  rwa [List.append_nil, replaceRuns, List.append_nil] at happend

end CharRuns
