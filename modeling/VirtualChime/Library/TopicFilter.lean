import VirtualChime.Library.Scanner

/-!
# Topic filters

Topic names are divided into levels by a separator; a filter denotes names level by
level.  A level of a filter that is the single-level wildcard stands for one level,
a last level that is the multi-level wildcard for the rest of the name, its parent
included.  A filter that starts with a wildcard denotes no name that starts with
the reserved character.
-/

namespace TopicFilter

variable {α : Type*}

/-- The characters with a meaning of their own, and the strings that can be sent at all. -/
structure Alphabet (α : Type*) where
  separator : α
  single : α
  multi : α
  reserved : α
  admits : List α → Prop

namespace Alphabet

variable (A : Alphabet α)

/-- `Matches fs ts`: the levels of a filter match those of a name. -/
inductive Matches : List (List α) → List (List α) → Prop
  | nil : Matches [] []
  | name {level : List α} {fs ts : List (List α)} (hsingle : level ≠ [A.single])
      (hmulti : level ≠ [A.multi]) (rest : Matches fs ts) : Matches (level :: fs) (level :: ts)
  | single {level : List α} {fs ts : List (List α)} (rest : Matches fs ts) :
      Matches ([A.single] :: fs) (level :: ts)
  | multi {ts : List (List α)} : Matches [[A.multi]] ts

variable {A} in
theorem Matches.self {levels : List (List α)}
    (h : ∀ level ∈ levels, A.single ∉ level ∧ A.multi ∉ level) : A.Matches levels levels := by
  induction levels with
  | nil => exact .nil
  | cons level levels ih =>
    obtain ⟨hsingle, hmulti⟩ := h level (List.mem_cons_self ..)
    refine .name ?_ ?_ (ih fun l hl => h l (List.mem_cons_of_mem _ hl))
    · rintro rfl
      exact hsingle (List.mem_singleton_self _)
    · rintro rfl
      exact hmulti (List.mem_singleton_self _)

variable [DecidableEq α]

def levels (s : List α) : List (List α) := s.splitOn A.separator

/-- A wildcard is a level of its own, and the multi-level one is the last. -/
structure WellFormed (filter : List α) : Prop where
  admitted : A.admits filter
  nonempty : filter ≠ []
  wildcards : ∀ level ∈ A.levels filter,
    level = [A.single] ∨ level = [A.multi] ∨ (A.single ∉ level ∧ A.multi ∉ level)
  multiLast : [A.multi] ∉ (A.levels filter).dropLast

/-- A name a message can be published on. -/
structure IsName (topic : List α) : Prop where
  admitted : A.admits topic
  nonempty : topic ≠ []
  noSingle : A.single ∉ topic
  noMulti : A.multi ∉ topic

/-- The first level is a wildcard. -/
def StartsWild (filter : List α) : Prop :=
  (A.levels filter).head? = some [A.single] ∨ (A.levels filter).head? = some [A.multi]

/-- The filter matches level by level, and a reserved name not by a wildcard in front. -/
def Selects (filter topic : List α) : Prop :=
  A.Matches (A.levels filter) (A.levels topic) ∧
    (topic.head? = some A.reserved → ¬ A.StartsWild filter)

/-- The filter is well formed and matches the name. -/
structure Denotes (filter topic : List α) : Prop where
  wellFormed : A.WellFormed filter
  isName : A.IsName topic
  levels : A.Matches (A.levels filter) (A.levels topic)
  reserved : topic.head? = some A.reserved →
    filter.head? ≠ some A.single ∧ filter.head? ≠ some A.multi

variable {A}

theorem Denotes.self {topic : List α} (h : A.IsName topic) : A.Denotes topic topic := by
  have hlevels : ∀ level ∈ A.levels topic, A.single ∉ level ∧ A.multi ∉ level := by
    intro level hlevel
    constructor
    · intro hmem
      exact h.noSingle (Scanner.exists_mem_splitOn.mp ⟨level, hlevel, hmem⟩).1
    · intro hmem
      exact h.noMulti (Scanner.exists_mem_splitOn.mp ⟨level, hlevel, hmem⟩).1
  refine ⟨⟨h.admitted, h.nonempty, fun level hlevel => Or.inr (Or.inr (hlevels level hlevel)), ?_⟩,
    h, Matches.self hlevels, fun _ => ⟨fun hhead => ?_, fun hhead => ?_⟩⟩
  · intro hmem
    exact (hlevels _ (List.dropLast_subset _ hmem)).2 (List.mem_singleton_self _)
  · exact h.noSingle (List.mem_of_head? hhead)
  · exact h.noMulti (List.mem_of_head? hhead)

theorem head?_of_levels {filter : List α} {c : α} (h : (A.levels filter).head? = some [c]) :
    filter.head? = some c := by
  have hjoin : [A.separator].intercalate (filter.splitOn A.separator) = filter :=
    List.intercalate_splitOn A.separator
  rw [levels] at h
  rcases hlevels : filter.splitOn A.separator with _ | ⟨level, rest⟩
  · rw [hlevels] at h
    cases h
  · rw [hlevels] at h hjoin
    rw [Option.some.inj h] at hjoin
    rw [← hjoin]
    cases rest with
    | nil => rfl
    | cons level rest => rfl

theorem Denotes.selects {filter topic : List α} (h : A.Denotes filter topic) :
    A.Selects filter topic := by
  refine ⟨h.levels, ?_⟩
  rintro hreserved (hsingle | hmulti)
  · exact (h.reserved hreserved).1 (head?_of_levels hsingle)
  · exact (h.reserved hreserved).2 (head?_of_levels hmulti)

end Alphabet

end TopicFilter
