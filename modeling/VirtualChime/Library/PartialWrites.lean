import Mathlib.Data.List.Basic
import Mathlib.Tactic

/-!
# Writing in parts

A call that is offered elements may take fewer than it is offered.  `writeAll` calls
again with the rest until nothing is left, or until a call refuses or takes nothing.
What has been taken is at each moment the beginning of the data, and the loop succeeds
only when that is all of it (`writeAll_eq_true_iff`).
-/

namespace PartialWrites

variable {α : Type*}

/-- What a call answers that is offered elements. -/
inductive Reply where
  | took (n : ℕ)
  | again
  | refused
deriving DecidableEq, Repr

/-- What is taken of the data, and whether the loop succeeds: a call is offered at most `limit`
elements.  When there are no more answers the receiver is gone. -/
def writeAll (limit : ℕ) : List Reply → List α → List α × Bool
  | [], data => ([], data.isEmpty)
  | reply :: replies, data =>
      if data.isEmpty then ([], true)
      else
        match reply with
        | .refused => ([], false)
        | .again => writeAll limit replies data
        | .took 0 => ([], false)
        | .took (n + 1) =>
            let taken := min (n + 1) (min limit data.length)
            let (sent, success) := writeAll limit replies (data.drop taken)
            (data.take taken ++ sent, success)

variable {limit : ℕ} {data : List α}

theorem writeAll_took (n : ℕ) (replies : List Reply) (hne : data ≠ []) :
    writeAll limit (.took (n + 1) :: replies) data =
      (data.take (min (n + 1) (min limit data.length)) ++
          (writeAll limit replies (data.drop (min (n + 1) (min limit data.length)))).1,
        (writeAll limit replies (data.drop (min (n + 1) (min limit data.length)))).2) := by
  rw [writeAll, if_neg (by simpa using hne)]

/-- What has been taken is the beginning of the data. -/
theorem writeAll_prefix (limit : ℕ) (replies : List Reply) (data : List α) :
    (writeAll limit replies data).1 <+: data := by
  induction replies generalizing data with
  | nil => exact List.nil_prefix
  | cons reply replies ih =>
    by_cases hne : data = []
    · subst hne
      exact List.nil_prefix
    · rcases reply with (_ | n) | _ | _
      · rw [writeAll, if_neg (by simpa using hne)]
        exact List.nil_prefix
      · rw [writeAll_took n replies hne]
        obtain ⟨rest, hrest⟩ := ih (data.drop (min (n + 1) (min limit data.length)))
        refine ⟨rest, ?_⟩
        rw [List.append_assoc, hrest, List.take_append_drop]
      · rw [writeAll, if_neg (by simpa using hne)]
        exact ih data
      · rw [writeAll, if_neg (by simpa using hne)]
        exact List.nil_prefix

/-- The loop succeeds when all of the data has been taken, and only then. -/
theorem writeAll_eq_true_iff (limit : ℕ) (replies : List Reply) (data : List α) :
    (writeAll limit replies data).2 = true ↔ (writeAll limit replies data).1 = data := by
  induction replies generalizing data with
  | nil =>
    rw [writeAll, List.isEmpty_iff]
    exact eq_comm
  | cons reply replies ih =>
    by_cases hne : data = []
    · subst hne
      exact iff_of_true rfl rfl
    · have hstop : ([] : List α) ≠ data := Ne.symm hne
      rcases reply with (_ | n) | _ | _
      · rw [writeAll, if_neg (by simpa using hne)]
        exact iff_of_false Bool.false_ne_true hstop
      · rw [writeAll_took n replies hne, ih]
        constructor
        · intro h
          rw [h, List.take_append_drop]
        · intro h
          exact List.append_cancel_left (h.trans (List.take_append_drop _ data).symm)
      · rw [writeAll, if_neg (by simpa using hne)]
        exact ih data
      · rw [writeAll, if_neg (by simpa using hne)]
        exact iff_of_false Bool.false_ne_true hstop

end PartialWrites
