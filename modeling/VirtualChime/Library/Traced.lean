import Mathlib.Logic.Basic
import Mathlib.Data.Option.Basic

/-!
# Runs with their events

A computation together with the events on its way; an event that is not allowed stops it.
`Faithful` says that nothing else does, so that a run has a result exactly when all its
events are allowed.
-/

namespace Traced

/-- The events of a run, and its result unless one of them has stopped it. -/
structure Run (ε α : Type) where
  events : List ε
  result : Option α
deriving DecidableEq, Repr

namespace Run

variable {ε α β : Type}

def bind (p : Run ε α) (k : α → Run ε β) : Run ε β :=
  match p.result with
  | none => ⟨p.events, none⟩
  | some a => ⟨p.events ++ (k a).events, (k a).result⟩

instance : Monad (Run ε) where
  pure a := ⟨[], some a⟩
  bind := bind

/-- An event, and what comes of it. -/
def perform (e : ε) (outcome : Option α) : Run ε α := ⟨[e], outcome⟩

@[simp] theorem events_pure (a : α) : (pure a : Run ε α).events = [] := rfl

@[simp] theorem result_pure (a : α) : (pure a : Run ε α).result = some a := rfl

@[simp] theorem events_perform (e : ε) (outcome : Option α) : (perform e outcome).events = [e] := rfl

@[simp] theorem result_perform (e : ε) (outcome : Option α) :
    (perform e outcome).result = outcome := rfl

@[simp] theorem result_bind (p : Run ε α) (k : α → Run ε β) :
    (p >>= k).result = p.result.bind fun a => (k a).result := by
  change (p.bind k).result = _
  rw [bind]
  cases p.result with
  | none => rfl
  | some a => rfl

theorem events_bind {p : Run ε α} {a : α} (h : p.result = some a) (k : α → Run ε β) :
    (p >>= k).events = p.events ++ (k a).events := by
  change (p.bind k).events = _
  rw [bind, h]

theorem events_bind_of_none {p : Run ε α} (h : p.result = none) (k : α → Run ε β) :
    (p >>= k).events = p.events := by
  change (p.bind k).events = _
  rw [bind, h]

/-- What holds of the elements done so far and the state holds at the end of a loop. -/
theorem foldlM_invariant {f : β → α → Run ε β} {Inv : List α → β → Prop} {b r : β} {l : List α}
    (hfirst : Inv [] b)
    (hstep : ∀ done b a b', Inv done b → (f b a).result = some b' → Inv (done ++ [a]) b')
    (h : (l.foldlM f b).result = some r) : Inv l r := by
  suffices hrest : ∀ done b, Inv done b → (l.foldlM f b).result = some r → Inv (done ++ l) r from
    hrest [] b hfirst h
  clear hfirst h
  induction l with
  | nil =>
    intro done b hinv h
    obtain rfl : b = r := by simpa using h
    rwa [List.append_nil]
  | cons a l ih =>
    intro done b hinv h
    rw [List.foldlM_cons, result_bind, Option.bind_eq_some_iff] at h
    obtain ⟨b', ha, h⟩ := h
    have hl := ih (done ++ [a]) b' (hstep done b a b' hinv ha) h
    rwa [List.append_assoc] at hl

end Run

open Run

variable {ε α β : Type} {allowed : ε → Prop}

/-- The run has a result if and only if all its events are allowed. -/
def Faithful (allowed : ε → Prop) (p : Run ε α) : Prop :=
  p.result.isSome ↔ ∀ e ∈ p.events, allowed e

theorem faithful_pure (a : α) : Faithful allowed (pure a : Run ε α) := by simp [Faithful]

theorem faithful_perform {e : ε} {outcome : Option α} (h : outcome.isSome ↔ allowed e) :
    Faithful allowed (perform e outcome) := by simpa [Faithful] using h

theorem Faithful.bind {p : Run ε α} {k : α → Run ε β} (hp : Faithful allowed p)
    (hk : ∀ a, Faithful allowed (k a)) : Faithful allowed (p >>= k) := by
  unfold Faithful at hp ⊢
  cases h : p.result with
  | none =>
    rw [h] at hp
    simpa [h, events_bind_of_none h] using hp
  | some a =>
    have hnext := hk a
    unfold Faithful at hnext
    rw [h] at hp
    have hevents : ∀ e ∈ p.events, allowed e := by simpa using hp
    simp only [result_bind, h, Option.bind_some, hnext, events_bind h, List.mem_append]
    constructor
    · rintro hall e (he | he)
      · exact hevents e he
      · exact hall e he
    · intro hall e he
      exact hall e (Or.inr he)

/-- A loop is faithful if its body is. -/
theorem faithful_foldlM {f : β → α → Run ε β} (hf : ∀ b a, Faithful allowed (f b a)) (l : List α)
    (b : β) : Faithful allowed (l.foldlM f b) := by
  induction l generalizing b with
  | nil => exact faithful_pure b
  | cons a l ih =>
    rw [List.foldlM_cons]
    exact (hf b a).bind ih

end Traced
