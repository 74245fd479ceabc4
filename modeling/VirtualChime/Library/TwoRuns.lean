import Mathlib.Data.List.Forall2

/-!
# Two runs that look alike

A machine answers each input with a response and a new state.  `Paired` runs feed two
machines inputs that are alike in the states they meet; if one such pair of steps
gives equal responses and related states again, so do whole runs (`Paired.responses`).
The second half carries related lists through functions that look at positions.
-/

namespace TwoRuns

section Runs

variable {σ α ρ : Type*}

/-- The responses to a list of inputs, and the state after them. -/
def run (step : σ → α → ρ × σ) : σ → List α → List ρ × σ
  | s, [] => ([], s)
  | s, a :: as =>
      let (response, s) := step s a
      let (responses, s) := run step s as
      (response :: responses, s)

@[simp] theorem run_nil (step : σ → α → ρ × σ) (s : σ) : run step s [] = ([], s) := rfl

theorem run_cons (step : σ → α → ρ × σ) (s : σ) (a : α) (as : List α) :
    run step s (a :: as) =
      ((step s a).1 :: (run step (step s a).2 as).1, (run step (step s a).2 as).2) := rfl

/-- Two runs whose inputs are alike, each pair in the states in which it is taken. -/
inductive Paired (step : σ → α → ρ × σ) (alike : σ → σ → α → α → Prop) :
    σ → σ → List α → List α → Prop where
  | nil {s s' : σ} : Paired step alike s s' [] []
  | cons {s s' : σ} {a a' : α} {as as' : List α} (first : alike s s' a a')
      (rest : Paired step alike (step s a).2 (step s' a').2 as as') :
      Paired step alike s s' (a :: as) (a' :: as')

/-- One pair of steps keeps the relation and answers alike. -/
def Unwinds (step : σ → α → ρ × σ) (alike : σ → σ → α → α → Prop) (R : σ → σ → Prop) : Prop :=
  ∀ s s' a a', R s s' → alike s s' a a' →
    (step s a).1 = (step s' a').1 ∧ R (step s a).2 (step s' a').2

theorem Paired.responses {step : σ → α → ρ × σ} {alike : σ → σ → α → α → Prop} {R : σ → σ → Prop}
    (unwinds : Unwinds step alike R) {s s' : σ} {as as' : List α}
    (h : Paired step alike s s' as as') (related : R s s') :
    (run step s as).1 = (run step s' as').1 ∧ R (run step s as).2 (run step s' as').2 := by
  induction h with
  | nil => exact ⟨rfl, related⟩
  | @cons s s' a a' as as' first _ ih =>
    obtain ⟨hresponse, hstate⟩ := unwinds s s' a a' related first
    obtain ⟨hresponses, hlast⟩ := ih hstate
    rw [run_cons, run_cons, hresponse, hresponses]
    exact ⟨rfl, hlast⟩

end Runs

section Lists

variable {α β γ δ : Type*} {R : α → β → Prop} {S : γ → δ → Prop}

theorem forall₂_mapIdx {xs : List α} {ys : List β} (h : List.Forall₂ R xs ys) {f : ℕ → α → γ}
    {g : ℕ → β → δ} (hfg : ∀ i x y, R x y → S (f i x) (g i y)) :
    List.Forall₂ S (xs.mapIdx f) (ys.mapIdx g) := by
  induction h generalizing f g with
  | nil => exact List.Forall₂.nil
  | cons hxy _ ih =>
    rw [List.mapIdx_cons, List.mapIdx_cons]
    exact List.Forall₂.cons (hfg 0 _ _ hxy) (ih fun i x y hR => hfg (i + 1) x y hR)

theorem forall₂_insertIdx {xs : List α} {ys : List β} (h : List.Forall₂ R xs ys) {a : α} {b : β}
    (hab : R a b) (n : ℕ) : List.Forall₂ R (xs.insertIdx n a) (ys.insertIdx n b) := by
  induction n generalizing xs ys with
  | zero => exact List.Forall₂.cons hab h
  | succ n ih =>
    cases h with
    | nil => exact List.Forall₂.nil
    | cons hxy hrest => exact List.Forall₂.cons hxy (ih hrest)

theorem any_zipIdx_congr {xs : List α} {ys : List β} (h : List.Forall₂ R xs ys) {k : ℕ}
    {p : α × ℕ → Bool} {q : β × ℕ → Bool} (hpq : ∀ i x y, R x y → p (x, i) = q (y, i)) :
    (xs.zipIdx k).any p = (ys.zipIdx k).any q := by
  induction h generalizing k with
  | nil => rfl
  | cons hxy _ ih =>
    rw [List.zipIdx_cons, List.zipIdx_cons, List.any_cons, List.any_cons, hpq k _ _ hxy, ih]

end Lists

end TwoRuns
