import Mathlib.Tactic

/-!
# Checked operations

What a program does to a vector and to machine words, where an index outside the vector,
a result that does not fit in a word and a loop that does not end are faults.  A program
written in these operations that ends without a fault has done none of them.
-/

namespace Checked

inductive Fault where
  | index
  | wrap
  | fuel
deriving DecidableEq, Repr

@[simp] theorem ok_bind {α β : Type} (a : α) (f : α → Except Fault β) :
    (Except.ok a >>= f) = f a := rfl

@[simp] theorem pure_eq {α : Type} (a : α) : (pure a : Except Fault α) = .ok a := rfl

/-! ## 1. Vectors -/

section Vector

variable {α : Type}

def get (data : List α) (i : ℕ) : Except Fault α :=
  match data[i]? with
  | some a => .ok a
  | none => .error .index

def set (data : List α) (i : ℕ) (a : α) : Except Fault (List α) :=
  if i < data.length then .ok (data.set i a) else .error .index

/-- The elements from `i` on, `n` of them. -/
def slice (data : List α) (i n : ℕ) : Except Fault (List α) :=
  if i + n ≤ data.length then .ok ((data.drop i).take n) else .error .index

variable {data : List α} {i : ℕ}

theorem get_ok (h : i < data.length) (default : α) : get data i = .ok (data.getD i default) := by
  simp [get, List.getD_eq_getElem?_getD, List.getElem?_eq_getElem h]

theorem get_of_some {a : α} (h : data[i]? = some a) : get data i = .ok a := by
  simp [get, h]

theorem set_ok (h : i < data.length) (a : α) : set data i a = .ok (data.set i a) := if_pos h

theorem slice_ok {n : ℕ} (h : i + n ≤ data.length) :
    slice data i n = .ok ((data.drop i).take n) := if_pos h

end Vector

/-! ## 2. Words of `w` bits -/

section Word

def add (w a b : ℕ) : Except Fault ℕ := if a + b < 2 ^ w then .ok (a + b) else .error .wrap

def sub (a b : ℕ) : Except Fault ℕ := if b ≤ a then .ok (a - b) else .error .wrap

variable {w a b : ℕ}

theorem add_ok (h : a + b < 2 ^ w) : add w a b = .ok (a + b) := if_pos h

theorem sub_ok (h : b ≤ a) : sub a b = .ok (a - b) := if_pos h

end Word

end Checked
