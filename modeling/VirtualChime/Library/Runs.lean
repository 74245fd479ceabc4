import Mathlib.Logic.Basic

/-!
# Runs of a transition system

A system is a partial step function on states and actions.  `Reaches` is the set
of states reached by steps that are all allowed, where what is allowed may depend
on the state the step is taken in; an invariant is proved for one allowed step and
holds along every run.  `exec` runs a list of actions, for concrete runs.
-/

namespace Runs

variable {σ α : Type*} {step : σ → α → Option σ} {allowed : σ → α → Prop}

/-- The states reached from `s` by allowed steps. -/
inductive Reaches (step : σ → α → Option σ) (allowed : σ → α → Prop) (s : σ) : σ → Prop where
  | refl : Reaches step allowed s s
  | tail {t u : σ} {a : α} (before : Reaches step allowed s t) (ok : allowed t a)
      (next : step t a = some u) : Reaches step allowed s u

namespace Reaches

theorem invariant {I : σ → Prop} {s t : σ} (h : Reaches step allowed s t) (start : I s)
    (keep : ∀ t a u, I t → allowed t a → step t a = some u → I u) : I t := by
  induction h with
  | refl => exact start
  | tail _ ok next ih => exact keep _ _ _ ih ok next

theorem head {s t u : σ} {a : α} (ok : allowed s a) (next : step s a = some t)
    (h : Reaches step allowed t u) : Reaches step allowed s u := by
  induction h with
  | refl => exact tail refl ok next
  | tail _ ok' next' ih => exact tail ih ok' next'

end Reaches

/-- The state after a list of actions, if each of them can be taken. -/
def exec (step : σ → α → Option σ) : σ → List α → Option σ
  | s, [] => some s
  | s, a :: as => (step s a).bind fun t => exec step t as

theorem Reaches.exec {s t u : σ} (h : Reaches step allowed s t) (as : List α)
    (hall : ∀ a ∈ as, ∀ s, allowed s a) (hexec : exec step t as = some u) :
    Reaches step allowed s u := by
  induction as generalizing t with
  | nil =>
    rw [Runs.exec, Option.some.injEq] at hexec
    rwa [← hexec]
  | cons a as ih =>
    obtain ⟨v, hstep, hrest⟩ := Option.bind_eq_some_iff.mp hexec
    exact ih (h.tail (hall a (List.mem_cons_self ..) t) hstep)
      (fun b hb => hall b (List.mem_cons_of_mem _ hb)) hrest

theorem reaches_of_exec (as : List α) (hall : ∀ a ∈ as, ∀ s, allowed s a) {s t : σ}
    (h : exec step s as = some t) : Reaches step allowed s t :=
  Reaches.refl.exec as hall h

/-- The same where what is allowed depends on the states on the way. -/
theorem reaches_of_exec_allowed [∀ s a, Decidable (allowed s a)] {as : List α} {s t : σ}
    (h : exec (fun s a => if allowed s a then step s a else none) s as = some t) :
    Reaches step allowed s t := by
  induction as generalizing s with
  | nil =>
    obtain rfl : s = t := Option.some.inj h
    exact Reaches.refl
  | cons a as ih =>
    obtain ⟨u, hstep, hrest⟩ := Option.bind_eq_some_iff.mp h
    dsimp only at hstep
    split at hstep
    · next hallowed => exact Reaches.head hallowed hstep (ih hrest)
    · cases hstep

/-- Where every step makes a rank smaller, a list of actions that can be taken is no longer than
the rank. -/
theorem length_le_of_exec {I : σ → Prop} {rank : σ → Nat}
    (keep : ∀ s a t, I s → allowed s a → step s a = some t → I t ∧ rank t < rank s)
    {as : List α} (hall : ∀ a ∈ as, ∀ s, allowed s a) {s t : σ} (hs : I s)
    (h : exec step s as = some t) : I t ∧ as.length + rank t ≤ rank s := by
  induction as generalizing s with
  | nil =>
    obtain rfl : s = t := Option.some.inj h
    exact ⟨hs, by simp⟩
  | cons a as ih =>
    obtain ⟨u, hstep, hrest⟩ := Option.bind_eq_some_iff.mp h
    obtain ⟨hu, hlt⟩ := keep s a u hs (hall a (List.mem_cons_self ..) s) hstep
    obtain ⟨ht, hle⟩ := ih (fun b hb => hall b (List.mem_cons_of_mem _ hb)) hu hrest
    rw [List.length_cons]
    exact ⟨ht, by omega⟩

end Runs
