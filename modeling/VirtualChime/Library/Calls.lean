import Mathlib.Logic.Basic

/-!
# Programs that make calls

A program is a tree: it ends with a result, or makes a call and goes on as the reply says.
What the calls do is not modelled; `Makes` quantifies over all runs whose replies are
possible ones, each of them perhaps given in another state of the system than the one
before, and the rules for `Always` go through a program call by call.
-/

namespace Calls

variable {Call : Type} {Reply : Call → Type} {α β : Type}

inductive Program (Call : Type) (Reply : Call → Type) (α : Type) where
  | done (result : α)
  | call (c : Call) (next : Reply c → Program Call Reply α)

namespace Program

def bind : Program Call Reply α → (α → Program Call Reply β) → Program Call Reply β
  | done result, k => k result
  | call c next, k => call c fun reply => (next reply).bind k

instance : Monad (Program Call Reply) where
  pure := done
  bind := bind

/-- One call, with its reply as the result. -/
def perform (c : Call) : Program Call Reply (Reply c) := call c done

/-- The result where each call has the reply that is given. -/
def run (answer : (c : Call) → Reply c) : Program Call Reply α → α
  | done result => result
  | call c next => (next (answer c)).run answer

@[simp] theorem run_pure (answer : (c : Call) → Reply c) (a : α) :
    run answer (pure a) = a := rfl

@[simp] theorem run_bind (answer : (c : Call) → Reply c) (p : Program Call Reply α)
    (k : α → Program Call Reply β) : run answer (p >>= k) = run answer (k (run answer p)) := by
  induction p with
  | done result => rfl
  | call c next ih => exact ih (answer c)

@[simp] theorem run_perform (answer : (c : Call) → Reply c) (c : Call) :
    run answer (perform c) = answer c := rfl

end Program

open Program

variable {Possible : (c : Call) → Reply c → Prop}

/-- The program makes the call in some run in which all replies are possible. -/
inductive Makes (Possible : (c : Call) → Reply c → Prop) : Program Call Reply α → Call → Prop
  | now {c : Call} (next : Reply c → Program Call Reply α) : Makes Possible (call c next) c
  | later {c : Call} {next : Reply c → Program Call Reply α} {reply : Reply c} {c' : Call}
      (possible : Possible c reply) (h : Makes Possible (next reply) c') :
      Makes Possible (call c next) c'

/-- Every call of every run satisfies `Q`. -/
def Always (Possible : (c : Call) → Reply c → Prop) (Q : Call → Prop)
    (p : Program Call Reply α) : Prop := ∀ c, Makes Possible p c → Q c

theorem makes_perform {c c' : Call} {k : Reply c → Program Call Reply α} (reply : Reply c)
    (possible : Possible c reply) (h : Makes Possible (k reply) c') :
    Makes Possible (perform c >>= k) c' := .later possible h

theorem Makes.bind {p : Program Call Reply α} {c : Call} (h : Makes Possible p c)
    (k : α → Program Call Reply β) : Makes Possible (p >>= k) c := by
  induction h with
  | now next => exact .now _
  | later possible _ ih => exact .later possible ih

variable {Q : Call → Prop}

theorem always_pure (a : α) : Always Possible Q (pure a : Program Call Reply α) := by
  intro c h
  cases h

theorem always_call {c : Call} {next : Reply c → Program Call Reply α} (hc : Q c)
    (hnext : ∀ reply, Possible c reply → Always Possible Q (next reply)) :
    Always Possible Q (call c next) := by
  intro c' h
  cases h with
  | now => exact hc
  | later possible h => exact hnext _ possible c' h

/-- A call, and what follows on each reply. -/
theorem always_perform {c : Call} {k : Reply c → Program Call Reply α} (hc : Q c)
    (hk : ∀ reply, Possible c reply → Always Possible Q (k reply)) :
    Always Possible Q (perform c >>= k) := always_call hc hk

theorem Always.bind {p : Program Call Reply α} {k : α → Program Call Reply β}
    (hp : Always Possible Q p) (hk : ∀ a, Always Possible Q (k a)) :
    Always Possible Q (p >>= k) := by
  induction p with
  | done result => exact hk result
  | call c next ih =>
    apply always_call (hp c (.now next))
    intro reply possible
    apply ih reply
    intro c' h
    exact hp c' (.later possible h)

end Calls
