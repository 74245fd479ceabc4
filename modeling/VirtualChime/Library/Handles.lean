import Mathlib.Data.List.Basic
import Mathlib.Data.List.Count

/-!
# Handles that are opened, used and closed

A system gives out numbered handles.  `Owned` says that the handles that are open are those in a
list of holdings, each held once: nothing leaks, and nothing that is held was closed.
-/

namespace Handles

/-- For each handle that was ever given out, whether it is open. -/
abbrev Table := List Bool

def Table.isOpen (t : Table) (h : ℕ) : Bool := t[h]?.getD false

/-- The next handle is `t.length`. -/
def Table.openNew (t : Table) : Table := t ++ [true]

def Table.close (t : Table) (h : ℕ) : Table := t.set h false

def Owned (t : Table) (held : List ℕ) : Prop :=
  ∀ h, held.count h = if t.isOpen h then 1 else 0

variable {t : Table} {held : List ℕ} {h : ℕ}

theorem owned_nil : Owned [] [] := fun _ => rfl

theorem Owned.perm {held' : List ℕ} (ho : Owned t held) (hperm : held.Perm held') :
    Owned t held' := by
  intro h
  rw [← hperm.count_eq h]
  exact ho h

theorem Owned.isOpen_iff (ho : Owned t held) : t.isOpen h = true ↔ h ∈ held := by
  rw [← List.count_pos_iff, ho h]
  cases t.isOpen h <;> simp

theorem Owned.nodup (ho : Owned t held) : held.Nodup := by
  rw [List.nodup_iff_count]
  intro h
  rw [ho h]
  split <;> simp

theorem isOpen_openNew (t : Table) (h : ℕ) :
    t.openNew.isOpen h = (t.isOpen h || decide (h = t.length)) := by
  unfold Table.isOpen Table.openNew
  rcases Nat.lt_trichotomy h t.length with hlt | heq | hgt
  · rw [List.getElem?_append_left hlt]
    simp [Nat.ne_of_lt hlt]
  · subst heq
    simp
  · rw [List.getElem?_eq_none (by simp; omega), List.getElem?_eq_none (by omega)]
    simp [Nat.ne_of_gt hgt]

theorem isOpen_close (t : Table) (h i : ℕ) :
    (t.close h).isOpen i = (t.isOpen i && decide (i ≠ h)) := by
  unfold Table.isOpen Table.close
  by_cases hi : i = h
  · subst hi
    rw [List.getElem?_set_self']
    cases t[i]? <;> simp
  · rw [List.getElem?_set_ne (Ne.symm hi)]
    simp [hi]

theorem isOpen_length (t : Table) : t.isOpen t.length = false := by
  simp [Table.isOpen]

/-- A handle is opened and held. -/
theorem Owned.openNew (before after : List ℕ) (ho : Owned t (before ++ after)) :
    Owned t.openNew (before ++ t.length :: after) := by
  suffices hcons : Owned t.openNew (t.length :: (before ++ after)) from
    hcons.perm List.perm_middle.symm
  intro h
  rw [List.count_cons, ho h, isOpen_openNew]
  by_cases heq : h = t.length
  · subst heq
    simp [isOpen_length]
  · simp [heq, Ne.symm heq]

/-- A handle that is held is closed. -/
theorem Owned.close (before after : List ℕ) (ho : Owned t (before ++ h :: after)) :
    Owned (t.close h) (before ++ after) := by
  have hcons : Owned t (h :: (before ++ after)) := ho.perm List.perm_middle
  intro i
  have hi := hcons i
  rw [List.count_cons] at hi
  rw [isOpen_close]
  by_cases heq : i = h
  · subst heq
    have hopen := (ho.isOpen_iff (h := i)).mpr (by simp)
    simp only [hopen, beq_self_eq_true, if_true] at hi
    simp only [ne_eq, not_true_eq_false, decide_false, Bool.and_false, Bool.false_eq_true, if_false]
    omega
  · simpa [heq, Ne.symm heq] using hi

end Handles
