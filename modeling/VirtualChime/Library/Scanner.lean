import Mathlib.Data.List.DropRight

/-!
# Scanning lists

Three operations from which line-oriented text formats are read: `strip` removes
a class of elements from both ends, `cut` divides a list at the first separator,
and `lines`/`joinLines` pass between a text and its terminated lines.  Everything
is over an arbitrary element type; the lemmas say how the operations meet
concatenation, which is how a written text is read back.
-/

namespace Scanner

variable {α : Type*}

/-! ## Runs -/

section Run

variable {p : α → Bool} {run rest : List α} (hrun : ∀ c ∈ run, p c = true)
  (hrest : ∀ c ∈ rest.head?, p c = false)

include hrun hrest

/-- A run of a class ends where the next element is not of the class. -/
theorem takeWhile_run : (run ++ rest).takeWhile p = run := by
  rw [List.takeWhile_append_of_pos hrun]
  cases rest with
  | nil => simp
  | cons c rest => simp [hrest c rfl]

theorem dropWhile_run : (run ++ rest).dropWhile p = rest := by
  rw [List.dropWhile_append_of_pos hrun]
  cases rest with
  | nil => simp
  | cons c rest => simp [hrest c rfl]

end Run

/-! ## Stripping -/

section Strip

variable (p : α → Bool)

/-- The list without the elements of class `p` at its two ends. -/
def strip (s : List α) : List α := (s.dropWhile p).rdropWhile p

@[simp] theorem strip_nil : strip p ([] : List α) = [] := rfl

variable {p}

theorem mem_of_mem_strip {c : α} {s : List α} (h : c ∈ strip p s) : c ∈ s :=
  (List.dropWhile_sublist p).mem ((List.rdropWhile_prefix p _).mem h)

theorem length_strip_le (s : List α) : (strip p s).length ≤ s.length := by
  calc (strip p s).length ≤ (s.dropWhile p).length := (List.rdropWhile_prefix p _).length_le
    _ ≤ s.length := (List.dropWhile_sublist p).length_le

theorem mem_strip_of_mem {c : α} {s : List α} (h : c ∈ s) (hc : p c = false) : c ∈ strip p s := by
  have hdrop : ∀ {l : List α}, c ∈ l → c ∈ l.dropWhile p := by
    intro l hl
    rw [← List.takeWhile_append_dropWhile (p := p) (l := l), List.mem_append] at hl
    rcases hl with hl | hl
    · rw [List.mem_takeWhile_imp hl] at hc
      cases hc
    · exact hl
  exact List.mem_reverse.mpr (hdrop (List.mem_reverse.mpr (hdrop h)))

theorem strip_eq_nil_iff {s : List α} : strip p s = [] ↔ ∀ c ∈ s, p c = true := by
  unfold strip
  constructor
  · intro h c hc
    rw [List.rdropWhile_eq_nil_iff] at h
    by_contra hcp
    have hne : s.dropWhile p ≠ [] := by
      intro hnil
      exact hcp (List.dropWhile_eq_nil_iff.mp hnil c hc)
    have hhead := List.head_dropWhile_not p hne
    rw [h _ (List.head_mem hne)] at hhead
    exact Bool.noConfusion hhead
  · intro h
    rw [List.dropWhile_eq_nil_iff.mpr h]
    exact List.rdropWhile_nil p

/-- A list is its own strip exactly when neither end is of class `p`. -/
theorem strip_eq_self_iff {s : List α} :
    strip p s = s ↔
      (∀ h : s ≠ [], p (s.head h) = false) ∧ (∀ h : s ≠ [], p (s.getLast h) = false) := by
  unfold strip
  constructor
  · intro h
    have hlen : s.length ≤ (s.dropWhile p).length := by
      calc s.length = ((s.dropWhile p).rdropWhile p).length := by rw [h]
        _ ≤ (s.dropWhile p).length := (List.rdropWhile_prefix p _).length_le
    have hdrop : s.dropWhile p = s := (List.dropWhile_sublist p).eq_of_length_le hlen
    rw [hdrop] at h
    constructor
    · intro hne
      have hne' : s.dropWhile p ≠ [] := by rw [hdrop]; exact hne
      have := List.head_dropWhile_not p hne'
      simpa [hdrop] using this
    · intro hne
      simpa using List.rdropWhile_eq_self_iff.mp h hne
  · rintro ⟨hhead, hlast⟩
    have hdrop : s.dropWhile p = s := by
      cases s with
      | nil => rfl
      | cons c s =>
        have hc : p c = false := hhead (by simp)
        rw [List.dropWhile_cons, if_neg (by simp [hc])]
    rw [hdrop]
    exact List.rdropWhile_eq_self_iff.mpr fun hne => by simp [hlast hne]

theorem rdropWhile_append_cons {x : α} (hx : p x = false) (a b : List α) :
    (a ++ x :: b).rdropWhile p = a ++ x :: b.rdropWhile p := by
  induction b using List.reverseRecOn with
  | nil => rw [List.rdropWhile_concat, if_neg (by simp [hx]), List.rdropWhile_nil]
  | append_singleton b y ih =>
    by_cases hy : p y = true
    · rw [List.rdropWhile_concat_pos p b y hy, ← ih, ← List.cons_append, ← List.append_assoc,
        List.rdropWhile_concat_pos p _ y hy]
    · rw [List.rdropWhile_concat_neg p b y hy, ← List.cons_append, ← List.append_assoc,
        List.rdropWhile_concat_neg p _ y hy]

theorem rdropWhile_of_strip_eq_self {s : List α} (h : strip p s = s) : s.rdropWhile p = s :=
  List.rdropWhile_eq_self_iff.mpr fun hne => by simp [(strip_eq_self_iff.mp h).2 hne]

theorem strip_strip (s : List α) : strip p (strip p s) = strip p s := by
  by_cases hnil : strip p s = []
  · rw [hnil, strip_nil]
  · rw [strip_eq_self_iff]
    constructor
    · intro hne
      have hdrop : s.dropWhile p ≠ [] := fun h => hnil (by simp [strip, h])
      have hhead := List.head_dropWhile_not p hdrop
      have heq : (strip p s).head hne = (s.dropWhile p).head hdrop :=
        (List.rdropWhile_prefix p (s.dropWhile p)).head hne
      rw [heq, hhead]
    · intro hne
      exact Bool.not_eq_true _ ▸ List.rdropWhile_last_not p (s.dropWhile p) hne

theorem strip_rdropWhile (s : List α) : strip p (s.rdropWhile p) = strip p s := by
  by_cases hall : ∀ c ∈ s, p c = true
  · rw [List.rdropWhile_eq_nil_iff.mpr hall, strip_nil, eq_comm, strip_eq_nil_iff]
    exact hall
  · have hne : s.dropWhile p ≠ [] := fun h => hall (List.dropWhile_eq_nil_iff.mp h)
    obtain ⟨x, v, hxv⟩ := List.exists_cons_of_ne_nil hne
    have hx : p x = false := by
      have := List.head_dropWhile_not p hne
      simpa [hxv] using this
    have hs : s = s.takeWhile p ++ x :: v := by rw [← hxv, List.takeWhile_append_dropWhile]
    have hr : s.rdropWhile p = s.takeWhile p ++ x :: v.rdropWhile p := by
      conv_lhs => rw [hs]
      exact rdropWhile_append_cons hx _ _
    have hd : (s.rdropWhile p).dropWhile p = x :: v.rdropWhile p := by
      rw [hr, List.dropWhile_append_of_pos (fun c hc => List.mem_takeWhile_imp hc),
        List.dropWhile_cons, if_neg (by simp [hx])]
    have hv : (x :: v).rdropWhile p = x :: v.rdropWhile p := rdropWhile_append_cons hx [] v
    unfold strip
    rw [hd, hxv, hv, ← List.nil_append (x :: List.rdropWhile p v), rdropWhile_append_cons hx,
      List.rdropWhile_idempotent]

/-- A stripped head keeps everything after it but the right end. -/
theorem strip_append_cons {a : List α} {x : α} (hne : a ≠ []) (ha : strip p a = a)
    (hx : p x = false) (b : List α) : strip p (a ++ x :: b) = a ++ x :: b.rdropWhile p := by
  have hdrop : (a ++ x :: b).dropWhile p = a ++ x :: b := by
    cases a with
    | nil => exact absurd rfl hne
    | cons c a =>
      have hc : p c = false := (strip_eq_self_iff.mp ha).1 (by simp)
      simp [hc]
  unfold strip
  rw [hdrop]
  exact rdropWhile_append_cons hx a b

end Strip

/-! ## Cutting at the first separator -/

section Cut

variable [DecidableEq α]

/-- The parts before and after the first `sep`, if there is one. -/
def cut (sep : α) : List α → Option (List α × List α)
  | [] => none
  | c :: s => if c = sep then some ([], s) else (cut sep s).map fun ab => (c :: ab.1, ab.2)

theorem cut_eq_some_iff {sep : α} {s a b : List α} :
    cut sep s = some (a, b) ↔ s = a ++ sep :: b ∧ sep ∉ a := by
  induction s generalizing a with
  | nil => simp [cut]
  | cons c s ih =>
    by_cases hc : c = sep
    · subst hc
      cases a with
      | nil => simp [cut]
      | cons d a => simp [cut]; rintro rfl - h; exact absurd rfl h
    · cases a with
      | nil => simp [cut, hc]
      | cons d a =>
        rw [cut, if_neg hc, Option.map_eq_some_iff]
        constructor
        · rintro ⟨⟨a', b'⟩, hab, heq⟩
          simp only [Prod.mk.injEq, List.cons.injEq] at heq
          obtain ⟨⟨rfl, rfl⟩, rfl⟩ := heq
          obtain ⟨hs, hmem⟩ := ih.mp hab
          exact ⟨by rw [hs]; rfl, by simp [hmem, Ne.symm hc]⟩
        · rintro ⟨hs, hmem⟩
          rw [List.cons_append, List.cons.injEq] at hs
          obtain ⟨rfl, hs⟩ := hs
          exact ⟨(a, b), ih.mpr ⟨hs, fun h => hmem (List.mem_cons_of_mem _ h)⟩, rfl⟩

theorem cut_eq_none_iff {sep : α} {s : List α} : cut sep s = none ↔ sep ∉ s := by
  induction s with
  | nil => simp [cut]
  | cons c s ih =>
    by_cases hc : c = sep
    · subst hc
      simp [cut]
    · rw [cut, if_neg hc, Option.map_eq_none_iff, ih]
      simp [Ne.symm hc]

theorem cut_append {sep : α} {a : List α} (ha : sep ∉ a) (b : List α) :
    cut sep (a ++ sep :: b) = some (a, b) :=
  cut_eq_some_iff.mpr ⟨rfl, ha⟩

end Cut

/-! ## Lines -/

section Lines

variable [DecidableEq α] (nl : α)

/-- The lines of a text, each ended by `nl` or by the end of the text. -/
def lines (text : List α) : List (List α) :=
  if (text.splitOn nl).getLast? = some [] then (text.splitOn nl).dropLast else text.splitOn nl

/-- The text of the given lines, each followed by `nl`. -/
def joinLines (ls : List (List α)) : List α := ls.flatMap fun l => l ++ [nl]

variable {nl}

theorem splitOn_joinLines (ls : List (List α)) :
    (joinLines nl ls).splitOn nl = ls.flatMap (fun l => l.splitOn nl) ++ [[]] := by
  induction ls with
  | nil => simp [joinLines]
  | cons l ls ih =>
    have hcons : joinLines nl (l :: ls) = l ++ nl :: joinLines nl ls := by simp [joinLines]
    rw [hcons, List.splitOn_append_cons_self, ih, List.flatMap_cons, List.append_assoc]

/-- Reading back joined lines gives each of them, divided where it holds a line end itself. -/
theorem lines_joinLines (ls : List (List α)) :
    lines nl (joinLines nl ls) = ls.flatMap fun l => l.splitOn nl := by
  unfold lines
  rw [splitOn_joinLines, List.getLast?_concat, if_pos rfl, List.dropLast_concat]

theorem exists_mem_splitOn {s : List α} {c : α} :
    (∃ l ∈ s.splitOn nl, c ∈ l) ↔ c ∈ s ∧ c ≠ nl := by
  induction s with
  | nil => simp
  | cons d s ih =>
    obtain ⟨l, ls, hsplit⟩ := List.exists_cons_of_ne_nil (List.splitOn_ne_nil nl s)
    rw [List.splitOn_cons_eq_if_modifyHead]
    rw [hsplit] at ih ⊢
    by_cases hd : d = nl
    · subst hd
      simp only [beq_self_eq_true, if_true, List.mem_cons, exists_eq_or_imp, List.not_mem_nil,
        false_or] at ih ⊢
      rw [ih]
      constructor
      · rintro ⟨hmem, hne⟩
        exact ⟨Or.inr hmem, hne⟩
      · rintro ⟨rfl | hmem, hne⟩
        · exact absurd rfl hne
        · exact ⟨hmem, hne⟩
    · rw [if_neg (by simpa using hd), List.modifyHead_cons]
      simp only [List.mem_cons, exists_eq_or_imp] at ih ⊢
      rw [or_assoc, ih]
      constructor
      · rintro (rfl | ⟨hmem, hne⟩)
        · exact ⟨Or.inl rfl, hd⟩
        · exact ⟨Or.inr hmem, hne⟩
      · rintro ⟨rfl | hmem, hne⟩
        · exact Or.inl rfl
        · exact Or.inr ⟨hmem, hne⟩

theorem not_mem_of_mem_splitOn {s l : List α} (h : l ∈ s.splitOn nl) : nl ∉ l := by
  intro hmem
  exact (exists_mem_splitOn.mp ⟨l, h, hmem⟩).2 rfl

theorem length_le_of_mem_splitOn {s l : List α} (h : l ∈ s.splitOn nl) : l.length ≤ s.length := by
  induction s generalizing l with
  | nil => simp at h; simp [h]
  | cons c s ih =>
    rw [List.splitOn_cons_eq_if_modifyHead] at h
    by_cases hc : c = nl
    · simp only [hc, beq_self_eq_true, if_true, List.mem_cons] at h
      rcases h with rfl | h
      · exact Nat.zero_le _
      · exact Nat.le_succ_of_le (ih h)
    · rw [if_neg (by simpa using hc)] at h
      obtain ⟨d, ds, hd⟩ := List.exists_cons_of_ne_nil (List.splitOn_ne_nil nl s)
      rw [hd, List.modifyHead_cons, List.mem_cons] at h
      rcases h with rfl | h
      · exact Nat.succ_le_succ (ih (l := d) (by rw [hd]; exact List.mem_cons_self ..))
      · exact Nat.le_succ_of_le (ih (by rw [hd]; exact List.mem_cons_of_mem _ h))

theorem lines_joinLines_of_clean {ls : List (List α)} (h : ∀ l ∈ ls, nl ∉ l) :
    lines nl (joinLines nl ls) = ls := by
  have hsplit : ∀ l ∈ ls, l.splitOn nl = [l] := fun l hl => List.splitOn_eq_singleton (h l hl)
  rw [lines_joinLines, List.flatMap_def, List.map_congr_left hsplit, ← List.flatMap_def]
  exact List.flatMap_singleton' _

theorem not_mem_of_mem_lines {text l : List α} (h : l ∈ lines nl text) : nl ∉ l := by
  unfold lines at h
  split at h
  · exact not_mem_of_mem_splitOn (List.dropLast_subset _ h)
  · exact not_mem_of_mem_splitOn h

end Lines

end Scanner
