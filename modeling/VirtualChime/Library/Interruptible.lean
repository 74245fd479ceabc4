import Mathlib.Logic.Basic

/-!
# Scripts that can be cut off

A script is a tree of commands, each an atomic change of a state, that looks at
the state to decide how to go on.  `cut n` runs at most `n` commands, as when a
process is killed or power is lost between two of them.  `Safe I Q` says that the
state satisfies `I` wherever the script is cut off and `Q` where it comes to its
end; its rules go through a script command by command.
-/

namespace Interruptible

variable {σ : Type*}

inductive Script (σ : Type*) where
  | done
  | run (effect : σ → σ) (rest : Script σ)
  | ask (decide : σ → Script σ)

namespace Script

/-- The state after at most `n` commands, and whether the script has come to its end. -/
def cut : Script σ → Nat → σ → σ × Bool
  | done, _, s => (s, true)
  | run _ _, 0, s => (s, false)
  | run f rest, n + 1, s => rest.cut n (f s)
  | ask k, n, s => (k s).cut n s

theorem cut_zero (script : Script σ) (s : σ) : (script.cut 0 s).1 = s := by
  induction script generalizing s with
  | done => rfl
  | run f rest => rfl
  | ask k ih => exact ih s s

def seq : Script σ → Script σ → Script σ
  | done, b => b
  | run f rest, b => run f (rest.seq b)
  | ask k, b => ask fun s => (k s).seq b

/-- The state after all commands. -/
def finish : Script σ → σ → σ
  | done, s => s
  | run f rest, s => rest.finish (f s)
  | ask k, s => (k s).finish s

theorem finish_seq (a b : Script σ) (s : σ) : (a.seq b).finish s = b.finish (a.finish s) := by
  induction a generalizing s with
  | done => rfl
  | run f rest ih => exact ih (f s)
  | ask k ih => exact ih s s

theorem cut_of_completed {script : Script σ} {n : Nat} {s : σ} (h : (script.cut n s).2 = true) :
    (script.cut n s).1 = script.finish s := by
  induction script generalizing n s with
  | done => rfl
  | run f rest ih =>
    cases n with
    | zero => cases h
    | succ n => exact ih h
  | ask k ih => exact ih s h

/-- `I` holds wherever the script, started in `s`, is cut off, and `Q` at its end. -/
def Safe (I Q : σ → Prop) (script : Script σ) (s : σ) : Prop :=
  ∀ n, if (script.cut n s).2 then Q (script.cut n s).1 else I (script.cut n s).1

variable {I Q : σ → Prop} {s : σ}

theorem safe_done (h : Q s) : Safe I Q done s := by
  intro n
  simpa [cut] using h

theorem safe_run {f : σ → σ} {rest : Script σ} (h : I s) (hrest : Safe I Q rest (f s)) :
    Safe I Q (run f rest) s := by
  intro n
  cases n with
  | zero => simpa [cut] using h
  | succ n => exact hrest n

theorem safe_ask {k : σ → Script σ} (h : Safe I Q (k s) s) : Safe I Q (ask k) s := h

/-- A script goes on where the one before it has ended. -/
theorem safe_seq {a b : Script σ} (h : Safe I (fun t => Safe I Q b t) a s) :
    Safe I Q (a.seq b) s := by
  induction a generalizing s with
  | done => exact h 0
  | run f rest ih =>
    have hI : I s := by simpa [cut] using h 0
    exact safe_run hI (ih fun n => h (n + 1))
  | ask k ih => exact ih s h

theorem Safe.mono {I' Q' : σ → Prop} {script : Script σ} (h : Safe I Q script s)
    (hI : ∀ t, I t → I' t) (hQ : ∀ t, Q t → Q' t) : Safe I' Q' script s := by
  intro n
  have := h n
  split at this
  · next hend => rw [if_pos hend]; exact hQ _ this
  · next hend => rw [if_neg hend]; exact hI _ this

theorem Safe.cut {script : Script σ} (h : Safe I I script s) (n : Nat) : I (script.cut n s).1 := by
  have := h n
  split at this <;> exact this

end Script

end Interruptible
