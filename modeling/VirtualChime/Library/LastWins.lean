import Mathlib.Data.List.Induction

/-!
# Last-wins readings

A text of keyed entries is often read so that the last entry for a key wins and
an entry whose value is refused counts for nothing.  `readings` collects what the
entries for one key say, in order; the value in force is the last of them, or a
default.  `foldl_readings` is the rule for a loop that keeps the value in a
variable, and the `blocks` lemmas are the rules for a text put together from
parts.
-/

namespace LastWins

variable {κ ν β : Type*} [DecidableEq κ]

/-- What the entries for `key` say, in order, refused values left out. -/
def readings (key : κ) (read : ν → Option β) (entries : List (κ × ν)) : List β :=
  entries.filterMap fun e => if e.1 = key then read e.2 else none

/-- The value in force after the readings `rs`: the last one, or the default. -/
def settle (default : β) (rs : List β) : β := rs.getLast?.getD default

variable {key : κ} {read : ν → Option β}

@[simp] theorem readings_nil : readings key read [] = [] := rfl

@[simp] theorem readings_append (xs ys : List (κ × ν)) :
    readings key read (xs ++ ys) = readings key read xs ++ readings key read ys := by
  simp [readings]

theorem readings_cons (e : κ × ν) (es : List (κ × ν)) :
    readings key read (e :: es) = readings key read [e] ++ readings key read es := by
  rw [← readings_append, List.singleton_append]

@[simp] theorem readings_singleton_self (v : ν) :
    readings key read [(key, v)] = (read v).toList := by
  cases h : read v <;> simp [readings, h]

theorem readings_singleton_ne {key' : κ} (h : key' ≠ key) (v : ν) :
    readings key read [(key', v)] = [] := by
  simp [readings, h]

theorem mem_readings {r : β} {es : List (κ × ν)} :
    r ∈ readings key read es ↔ ∃ v, (key, v) ∈ es ∧ read v = some r := by
  simp only [readings]
  rw [List.mem_filterMap]
  constructor
  · rintro ⟨⟨k, v⟩, he, hr⟩
    by_cases hk : k = key
    · subst hk
      exact ⟨v, he, by simpa using hr⟩
    · simp [hk] at hr
  · rintro ⟨v, he, hr⟩
    exact ⟨(key, v), he, by simpa using hr⟩

theorem readings_eq_nil {es : List (κ × ν)} (h : ∀ e ∈ es, e.1 ≠ key) :
    readings key read es = [] := by
  simp only [readings]
  rw [List.filterMap_eq_nil_iff]
  intro e he
  rw [if_neg (h e he)]

theorem readings_eq_filterMap (es : List (κ × ν)) :
    readings key read es = (readings key some es).filterMap read := by
  rw [readings, readings, List.filterMap_filterMap]
  congr 1
  funext e
  split <;> rfl

theorem readings_flatMap {α : Type*} (xs : List α) (f : α → List (κ × ν)) :
    readings key read (xs.flatMap f) = (xs.map fun x => readings key read (f x)).flatten := by
  induction xs with
  | nil => rfl
  | cons x xs ih => rw [List.flatMap_cons, readings_append, ih]; rfl

/-- One more reading replaces the value in force. -/
theorem settle_filterMap_append {α : Type*} (say : α → Option β) (xs : List α) (x : α)
    (default : β) :
    settle default ((xs ++ [x]).filterMap say) =
      (say x).getD (settle default (xs.filterMap say)) := by
  rw [List.filterMap_append]
  cases hx : say x with
  | none => simp [settle, hx]
  | some v => simp [settle, hx]

/-- A loop that overwrites a variable with each reading ends with the settled value. -/
theorem foldl_settle {α : Type*} (say : α → Option β) (xs : List α) (default : β) :
    xs.foldl (fun acc x => (say x).getD acc) default = settle default (xs.filterMap say) := by
  induction xs using List.reverseRecOn with
  | nil => rfl
  | append_singleton xs x ih =>
    rw [List.foldl_append, List.foldl_cons, List.foldl_nil, ih, settle_filterMap_append]

theorem foldl_readings (entries : List (κ × ν)) (default : β) :
    entries.foldl (fun acc e => if e.1 = key then (read e.2).getD acc else acc) default =
      settle default (readings key read entries) := by
  rw [readings, ← foldl_settle]
  congr
  funext acc e
  split <;> rfl

/-! ## Texts put together from parts -/

/-- If every part is silent or ends with `x`, and one part speaks, the whole ends with `x`. -/
theorem getLast?_flatten_of_blocks {x : β} (blocks : List (List β))
    (hall : ∀ b ∈ blocks, b = [] ∨ b.getLast? = some x) (hsome : ∃ b ∈ blocks, b ≠ []) :
    blocks.flatten.getLast? = some x := by
  induction blocks with
  | nil =>
    obtain ⟨b, hb, -⟩ := hsome
    cases hb
  | cons b blocks ih =>
    rw [List.flatten_cons, List.getLast?_append]
    by_cases hrest : ∃ c ∈ blocks, c ≠ []
    · rw [ih (fun c hc => hall c (List.mem_cons_of_mem _ hc)) hrest]
      rfl
    · have hnil : blocks.flatten = [] := by
        rw [List.flatten_eq_nil_iff]
        intro c hc
        by_contra hne
        exact hrest ⟨c, hc, hne⟩
      have hb : b ≠ [] := by
        obtain ⟨c, hc, hne⟩ := hsome
        rcases List.mem_cons.mp hc with rfl | hc
        · exact hne
        · exact absurd ⟨c, hc, hne⟩ hrest
      rw [hnil]
      rcases hall b (List.mem_cons_self ..) with h | h
      · exact absurd h hb
      · simpa using h

/-- The last part that speaks decides. -/
theorem getLast?_append_of_last {x : β} (front : List β) {back : List β}
    (h : back.getLast? = some x) : (front ++ back).getLast? = some x := by
  rw [List.getLast?_append, h]
  rfl

theorem settle_of_getLast? {default x : β} {rs : List β} (h : rs.getLast? = some x) :
    settle default rs = x := by
  rw [settle, h, Option.getD_some]

theorem getLast?_of_ne_nil (default : β) {rs : List β} (h : rs ≠ []) :
    rs.getLast? = some (settle default rs) := by
  rw [settle, List.getLast?_eq_some_getLast h, Option.getD_some]

theorem getLast?_of_forall {x : β} {rs : List β} (hne : rs ≠ []) (hall : ∀ r ∈ rs, r = x) :
    rs.getLast? = some x := by
  rw [List.getLast?_eq_some_getLast hne, hall _ (List.getLast_mem hne)]

theorem settle_filterMap {default x : β} {vs : List ν} {v : ν} (hlast : vs.getLast? = some v)
    (hv : read v = some x) : settle default (vs.filterMap read) = x := by
  obtain ⟨front, rfl⟩ := List.getLast?_eq_some_iff.mp hlast
  rw [List.filterMap_append]
  apply settle_of_getLast?
  apply getLast?_append_of_last
  simp [hv]

theorem settle_append (default : β) (xs ys : List β) :
    settle default (xs ++ ys) = settle (settle default xs) ys := by
  rw [settle, settle, settle, List.getLast?_append]
  cases ys.getLast? <;> rfl

@[simp] theorem settle_nil (default : β) : settle default [] = default := rfl

end LastWins
