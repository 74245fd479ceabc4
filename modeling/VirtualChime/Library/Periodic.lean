import Mathlib.Data.List.Chain
import Mathlib.Tactic.Ring

/-!
# Periodic tasks

A task that is looked at now and then and runs when a period has passed since it last ran.
`Ran` says when it has run; it holds whenever the task is looked at.
-/

namespace Periodic

variable {period start last now : ℤ} {log : List ℤ}

/-- The times in `log` at which a task ran, up to `last`, each a period after the one before. -/
structure Ran (period start : ℤ) (log : List ℤ) (last : ℤ) : Prop where
  spaced : (start :: log).IsChain fun a b => a + period ≤ b
  last_eq : (start :: log).getLast? = some last

theorem ran_nil : Ran period start [] start := ⟨.singleton start, rfl⟩

theorem Ran.append (h : Ran period start log last) (due : last + period ≤ now) :
    Ran period start (log ++ [now]) now := by
  constructor
  · rw [← List.cons_append, List.isChain_append]
    refine ⟨h.spaced, .singleton now, ?_⟩
    intro a ha b hb
    rw [h.last_eq] at ha
    obtain rfl := Option.some.inj ha
    obtain rfl := Option.some.inj hb
    exact due
  · rw [← List.cons_append, List.getLast?_append]
    rfl

/-- A task runs no more often than there are periods. -/
theorem Ran.length_mul_le (h : Ran period start log last) : log.length * period ≤ last - start := by
  obtain ⟨hspaced, hlast⟩ := h
  induction log generalizing start with
  | nil =>
    obtain rfl : start = last := Option.some.inj hlast
    simp
  | cons first log ih =>
    rcases List.isChain_cons_cons.mp hspaced with ⟨hfirst, hrest⟩
    have hle := ih hrest (by rw [← hlast, List.getLast?_cons_cons])
    rw [List.length_cons, Nat.cast_add, Nat.cast_one, add_mul, one_mul]
    omega

end Periodic
