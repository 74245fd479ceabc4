import Mathlib.Data.List.Basic
import Mathlib.Tactic

/-!
# Streams in pieces

A stream arrives as reads of a bounded size: a `Delivery`.  `cutAt` looks for the first
occurrence of a marker; what it finds in a part of the stream is what it finds in the whole
stream as soon as the part is long enough (`cutAt_part`).
-/

namespace Streams

variable {α : Type*}

/-! ## 1. Deliveries -/

/-- One way in which a stream may arrive: successive non-empty reads, none above the limit. -/
structure Delivery (limit : ℕ) (stream : List α) where
  reads : List (List α)
  ne_nil : ∀ read ∈ reads, read ≠ []
  length_le : ∀ read ∈ reads, read.length ≤ limit
  flatten_eq : reads.flatten = stream

/-- Element by element. -/
def singles (a : List α) : List (List α) := a.map fun x => [x]

@[simp] theorem flatten_singles (a : List α) : (singles a).flatten = a := by
  induction a with
  | nil => rfl
  | cons x a ih => exact congrArg (List.cons x) ih

theorem singles_append (a b : List α) : singles (a ++ b) = singles a ++ singles b :=
  List.map_append

theorem length_of_mem_singles {a read : List α} (h : read ∈ singles a) : read.length = 1 := by
  obtain ⟨x, -, rfl⟩ := List.mem_map.mp h
  rfl

/-- Element by element, but for one read in the middle. -/
def oneRead {limit : ℕ} (a read b : List α) (hne : read ≠ []) (hle : read.length ≤ limit) :
    Delivery limit (a ++ read ++ b) where
  reads := singles a ++ read :: singles b
  ne_nil := by
    intro other hother
    rcases List.mem_append.mp hother with hmem | hmem
    · exact List.ne_nil_of_length_pos (by simp [length_of_mem_singles hmem])
    · rcases List.mem_cons.mp hmem with rfl | hmem
      · exact hne
      · exact List.ne_nil_of_length_pos (by simp [length_of_mem_singles hmem])
  length_le := by
    have hlimit : 1 ≤ limit := Nat.le_trans (List.length_pos_of_ne_nil hne) hle
    intro other hother
    rcases List.mem_append.mp hother with hmem | hmem
    · rwa [length_of_mem_singles hmem]
    · rcases List.mem_cons.mp hmem with rfl | hmem
      · exact hle
      · rwa [length_of_mem_singles hmem]
  flatten_eq := by simp

/-- A stream may arrive with a read of its own choice after any of its parts. -/
theorem exists_oneRead {limit : ℕ} {stream a read b : List α} (hstream : stream = a ++ read ++ b)
    (hne : read ≠ []) (hle : read.length ≤ limit) :
    ∃ delivery : Delivery limit stream, delivery.reads = singles a ++ read :: singles b := by
  subst hstream
  exact ⟨oneRead a read b hne hle, rfl⟩

/-- The longest read after the first `k` elements. -/
theorem exists_longest_read (limit k : ℕ) (s : List α) (hk : k < s.length) (hlimit : 0 < limit) :
    ∃ a read b, s = a ++ read ++ b ∧ a.length = k ∧ read ≠ [] ∧ read.length ≤ limit ∧
      (a ++ read).length = min (k + limit) s.length := by
  refine ⟨s.take k, (s.drop k).take limit, (s.drop k).drop limit, ?_, ?_, ?_, ?_, ?_⟩
  · rw [List.append_assoc, List.take_append_drop, List.take_append_drop]
  · rw [List.length_take]
    omega
  · apply List.ne_nil_of_length_pos
    rw [List.length_take, List.length_drop]
    omega
  · rw [List.length_take]
    exact Nat.min_le_left _ _
  · rw [List.length_append, List.length_take, List.length_take, List.length_drop]
    omega

/-! ## 2. The first occurrence of a marker -/

section Marker

variable [BEq α] [LawfulBEq α]

/-- What stands before the first occurrence of the marker, and what follows it. -/
def cutAt (marker : List α) : List α → Option (List α × List α)
  | [] => if marker.isPrefixOf [] then some ([], []) else none
  | x :: s =>
      if marker.isPrefixOf (x :: s) then some ([], (x :: s).drop marker.length)
      else (cutAt marker s).map fun (a, b) => (x :: a, b)

variable {marker s t a b : List α}

theorem append_of_cutAt (h : cutAt marker s = some (a, b)) : s = a ++ marker ++ b := by
  induction s generalizing a with
  | nil =>
    rw [cutAt] at h
    split at h
    · next hstart =>
      cases h
      simpa using List.prefix_nil.mp (List.isPrefixOf_iff_prefix.mp hstart)
    · cases h
  | cons x s ih =>
    rw [cutAt] at h
    split at h
    · next hstart =>
      cases h
      obtain ⟨rest, hrest⟩ := List.isPrefixOf_iff_prefix.mp hstart
      rw [← hrest]
      simp
    · obtain ⟨⟨a', b'⟩, hcut, heq⟩ := Option.map_eq_some_iff.mp h
      cases heq
      rw [ih hcut]
      rfl

/-- What comes later does not change what was found. -/
theorem cutAt_append (h : cutAt marker s = some (a, b)) (t : List α) :
    cutAt marker (s ++ t) = some (a, b ++ t) := by
  induction s generalizing a with
  | nil =>
    rw [cutAt] at h
    split at h
    · next hstart =>
      cases h
      obtain rfl := List.prefix_nil.mp (List.isPrefixOf_iff_prefix.mp hstart)
      cases t with
      | nil => rfl
      | cons y t => rfl
    · cases h
  | cons x s ih =>
    rw [cutAt] at h
    rw [List.cons_append, cutAt]
    split at h
    · next hstart =>
      cases h
      have hlonger : marker.isPrefixOf (x :: (s ++ t)) = true :=
        List.isPrefixOf_iff_prefix.mpr
          ((List.isPrefixOf_iff_prefix.mp hstart).trans (List.prefix_append (x :: s) t))
      have hlength := (List.isPrefixOf_iff_prefix.mp hstart).length_le
      rw [if_pos hlonger, ← List.cons_append, List.drop_append_of_le_length hlength]
    · next hstart =>
      obtain ⟨⟨a', b'⟩, hcut, heq⟩ := Option.map_eq_some_iff.mp h
      cases heq
      have hshorter : ¬ marker.isPrefixOf (x :: (s ++ t)) = true := by
        intro hlonger
        apply hstart
        rw [List.isPrefixOf_iff_prefix] at hlonger ⊢
        apply List.prefix_of_prefix_length_le hlonger (List.prefix_append (x :: s) t)
        have hlength := congrArg List.length (append_of_cutAt hcut)
        simp only [List.length_append, List.length_cons] at hlength ⊢
        omega
      rw [if_neg hshorter, ih hcut]
      rfl

theorem cutAt_ne_none (marker a c : List α) : cutAt marker (a ++ marker ++ c) ≠ none := by
  induction a with
  | nil =>
    have hstart : marker.isPrefixOf (marker ++ c) = true :=
      List.isPrefixOf_iff_prefix.mpr (List.prefix_append marker c)
    rw [List.nil_append]
    cases hs : marker ++ c with
    | nil =>
      rw [hs] at hstart
      simp [cutAt, hstart]
    | cons x s =>
      rw [hs] at hstart
      simp [cutAt, hstart]
  | cons x a ih =>
    rw [List.cons_append, List.cons_append, cutAt]
    split
    · exact Option.some_ne_none _
    · simpa using ih

/-- A part of the stream has the marker if it reaches to its end. -/
theorem cutAt_part (h : cutAt marker (s ++ t) = some (a, b)) :
    (s.length < a.length + marker.length → cutAt marker s = none) ∧
      (a.length + marker.length ≤ s.length →
        ∃ c, cutAt marker s = some (a, c) ∧ c ++ t = b) := by
  cases hcut : cutAt marker s with
  | none =>
    refine ⟨fun _ => rfl, ?_⟩
    intro hle
    have hs := append_of_cutAt h
    have hstart : a ++ marker <+: s :=
      List.prefix_of_prefix_length_le ⟨b, hs.symm⟩ ⟨t, rfl⟩ (by simpa using hle)
    obtain ⟨c, rfl⟩ := hstart
    exact absurd hcut (cutAt_ne_none marker a c)
  | some found =>
    obtain ⟨a', c⟩ := found
    have happend := cutAt_append hcut t
    rw [h] at happend
    cases happend
    have hlength := congrArg List.length (append_of_cutAt hcut)
    simp only [List.length_append] at hlength
    refine ⟨?_, fun _ => ⟨c, rfl, rfl⟩⟩
    intro hlt
    omega

theorem cutAt_eq_none_of_append (h : cutAt marker (s ++ t) = none) : cutAt marker s = none := by
  cases hcut : cutAt marker s with
  | none => rfl
  | some found =>
    rw [cutAt_append hcut t] at h
    cases h

/-- The marker is found after elements that are not its first one. -/
theorem cutAt_of_not_mem {first : α} {marker a : List α} (ha : first ∉ a) (b : List α) :
    cutAt (first :: marker) (a ++ first :: marker ++ b) = some (a, b) := by
  induction a with
  | nil =>
    rw [List.nil_append, List.cons_append, cutAt, if_pos (by simp)]
    simp
  | cons x a ih =>
    rw [List.mem_cons, not_or] at ha
    have hskip : ¬ (first :: marker).isPrefixOf (x :: (a ++ first :: marker ++ b)) = true := by
      rw [List.isPrefixOf_iff_prefix]
      intro hstart
      exact ha.1 (List.cons_prefix_cons.mp hstart).1
    rw [List.cons_append, List.cons_append, cutAt, if_neg hskip, ih ha.2]
    rfl

end Marker

end Streams
