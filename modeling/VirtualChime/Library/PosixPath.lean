import Mathlib.Data.List.Basic
import Mathlib.Tactic

/-!
# Paths

Paths as byte strings: their components, the path without its redundant components
(`normalNames`), joining a relative path to a directory, and the C string that a system call
sees of a path.  `isDescent_of_regular` says when a joined path stays in the directory.  File
systems are given by what `stat` answers; a tree of directories without links is one, and
there a path that stays in a directory by its text names something below it
(`Tree.below_of_isDescent`).
-/

namespace PosixPath

abbrev slash : UInt8 := 47

/-- `.` and `..` -/
abbrev dotName : List UInt8 := [46]
abbrev dotDot : List UInt8 := [46, 46]

/-! ## 1. Components -/

/-- What stands between the slashes; a slash at an end or next to another one leaves an empty
component. -/
def components (path : List UInt8) : List (List UInt8) := path.splitOn slash

/-- The components that name no entry of a directory. -/
def IsSpecial (c : List UInt8) : Prop := c = [] ∨ c = dotName ∨ c = dotDot

/-- The components that are more than a way to write the path before them. -/
def moves (c : List UInt8) : Bool := decide (c ≠ [] ∧ c ≠ dotName)

instance (c : List UInt8) : Decidable (IsSpecial c) := inferInstanceAs (Decidable (_ ∨ _))

def isAbsolute (path : List UInt8) : Bool := path.head? == some slash

/-- The path without its root. -/
def relativePath (path : List UInt8) : List UInt8 := path.dropWhile (· == slash)

/-- A path below a directory; an absolute path stays as it is. -/
def join (dir path : List UInt8) : List UInt8 :=
  if isAbsolute path then path
  else if dir = [] ∨ dir.getLast? = some slash then dir ++ path
  else dir ++ slash :: path

def filename (path : List UInt8) : List UInt8 := (components path).getLast?.getD []

/-- What follows the last dot of the file name, with the dot, unless the name begins with it. -/
def extension (path : List UInt8) : List UInt8 :=
  let name := filename path
  if name = dotName ∨ name = dotDot then []
  else
    match name.reverse.span (· != 46) with
    | (after, _ :: _ :: _) => 46 :: after.reverse
    | _ => []

/-- The part of a string that a system call sees. -/
def cString (path : List UInt8) : List UInt8 := path.takeWhile (· != 0)

theorem components_ne_nil (path : List UInt8) : components path ≠ [] :=
  List.splitOn_ne_nil slash path

@[simp] theorem components_nil : components [] = [[]] := rfl

theorem components_append_slash (a b : List UInt8) :
    components (a ++ slash :: b) = components a ++ components b :=
  List.splitOn_append_cons_self a b

/-- What follows can change no component but the last. -/
theorem prefix_of_dropLast_components (a b : List UInt8) :
    (components a).dropLast <+: components (a ++ b) := by
  unfold components
  induction a with
  | nil => exact List.nil_prefix
  | cons c a ih =>
    rw [List.cons_append, List.splitOn_cons_eq_if_modifyHead, List.splitOn_cons_eq_if_modifyHead]
    by_cases hc : (c == slash) = true
    · rw [if_pos hc, if_pos hc, List.dropLast_cons_of_ne_nil (List.splitOn_ne_nil _ _)]
      exact List.prefix_cons_inj [] |>.mpr ih
    · rw [if_neg hc, if_neg hc]
      cases hsplit : a.splitOn slash with
      | nil => exact absurd hsplit (List.splitOn_ne_nil _ _)
      | cons first rest =>
        cases rest with
        | nil => exact List.nil_prefix
        | cons second rest =>
          rw [hsplit, List.dropLast_cons_of_ne_nil (by simp)] at ih
          obtain ⟨after, hafter⟩ := ih
          rw [← hafter]
          exact ⟨after, rfl⟩

theorem isAbsolute_relativePath (path : List UInt8) : isAbsolute (relativePath path) = false := by
  rw [isAbsolute, relativePath]
  cases hrest : path.dropWhile (· == slash) with
  | nil => rfl
  | cons c rest =>
    have hc := List.head_dropWhile_not (· == slash) (l := path) (by simp [hrest])
    simpa [hrest] using hc

/-! ## 2. Normal form -/

/-- One component, on the names so far, the last one first. -/
def normalStep (absolute : Bool) (names : List (List UInt8)) (c : List UInt8) :
    List (List UInt8) :=
  if c = [] ∨ c = dotName then names
  else if c = dotDot then
    match names with
    | [] => if absolute then [] else [dotDot]
    | last :: earlier => if last = dotDot then dotDot :: names else earlier
  else c :: names

/-- The names of the lexically normal form of a path. -/
def normalNames (path : List UInt8) : List (List UInt8) :=
  ((components path).foldl (normalStep (isAbsolute path)) []).reverse

/-- The normal form of the path goes on from that of the directory, and not back up. -/
def Inside (dir path : List UInt8) : Prop :=
  isAbsolute path = isAbsolute dir ∧
    ∃ below, below ≠ [] ∧ dotDot ∉ below ∧ normalNames path = normalNames dir ++ below

/-- Without `..` the components are the names, but for the empty ones and `.`. -/
theorem foldl_normalStep {absolute : Bool} {cs : List (List UInt8)} (h : dotDot ∉ cs)
    (names : List (List UInt8)) :
    cs.foldl (normalStep absolute) names =
      (cs.filter moves).reverse ++ names := by
  induction cs generalizing names with
  | nil => rfl
  | cons c cs ih =>
    rw [List.mem_cons, not_or] at h
    rw [List.foldl_cons, ih h.2]
    by_cases hc : c = [] ∨ c = dotName
    · have hskip : ¬ moves c = true := by
        rw [moves, decide_eq_true_eq, not_and_or, not_not, not_not]
        exact hc
      have hstep : normalStep absolute names c = names := if_pos hc
      rw [hstep, List.filter_cons_of_neg hskip]
    · have hkeep : moves c = true := decide_eq_true (not_or.mp hc)
      have hstep : normalStep absolute names c = c :: names :=
        (if_neg hc).trans (if_neg (Ne.symm h.1))
      rw [hstep, List.filter_cons_of_pos hkeep, List.reverse_cons, List.append_assoc]
      rfl

theorem isAbsolute_append {a : List UInt8} (h : a ≠ []) (b : List UInt8) :
    isAbsolute (a ++ b) = isAbsolute a := by
  rw [isAbsolute, List.head?_append_of_ne_nil a h]
  rfl

theorem isAbsolute_join {dir path : List UInt8} (hdir : dir ≠ [])
    (hpath : isAbsolute path = false) : isAbsolute (join dir path) = isAbsolute dir := by
  rw [join, if_neg (by simp [hpath])]
  split
  · exact isAbsolute_append hdir path
  · exact isAbsolute_append hdir _

/-- A joined path is the components of the one and then of the other, perhaps without an empty
component between them. -/
theorem components_join {dir path : List UInt8} (hdir : dir ≠ [])
    (hpath : isAbsolute path = false) :
    ∃ cs, components (join dir path) = cs ++ components path ∧
      (components dir = cs ∨ components dir = cs ++ [[]]) := by
  rw [join, if_neg (by simp [hpath])]
  split
  · next h =>
    have hlast : dir.getLast? = some slash := h.resolve_left hdir
    obtain ⟨stem, rfl⟩ := List.getLast?_eq_some_iff.mp hlast
    refine ⟨components stem, ?_, Or.inr ?_⟩
    · rw [List.append_assoc]
      exact components_append_slash stem path
    · exact components_append_slash stem []
  · exact ⟨components dir, components_append_slash dir path, Or.inl rfl⟩

/-- The names of a path that starts with those components. -/
theorem normalNames_eq_append {dir path joined : List UInt8} {cs : List (List UInt8)}
    (habsolute : isAbsolute joined = isAbsolute dir)
    (hjoined : components joined = cs ++ components path)
    (hdir : components dir = cs ∨ components dir = cs ++ [[]]) (hup : dotDot ∉ components path) :
    normalNames joined = normalNames dir ++ (components path).filter moves := by
  have hstart : (components dir).foldl (normalStep (isAbsolute dir)) [] =
      cs.foldl (normalStep (isAbsolute dir)) [] := by
    rcases hdir with heq | heq
    · rw [heq]
    · rw [heq, List.foldl_append]
      rfl
  rw [normalNames, normalNames, habsolute, hjoined, List.foldl_append, foldl_normalStep hup, hstart,
    List.reverse_append, List.reverse_reverse]

theorem normalNames_join {dir path : List UInt8} (hdir : dir ≠ []) (hpath : isAbsolute path = false)
    (hup : dotDot ∉ components path) :
    normalNames (join dir path) = normalNames dir ++ (components path).filter moves := by
  obtain ⟨cs, hjoin, hcs⟩ := components_join hdir hpath
  exact normalNames_eq_append (isAbsolute_join hdir hpath) hjoin hcs hup

/-- The path is that of the directory and then components that lead down into it. -/
def IsDescent (dir path : List UInt8) : Prop :=
  ∃ rest, isAbsolute rest = false ∧ dotDot ∉ components rest ∧
    (∃ name ∈ components rest, ¬ IsSpecial name) ∧ path = join dir rest

theorem IsDescent.inside {dir path : List UInt8} (h : IsDescent dir path) (hdir : dir ≠ []) :
    Inside dir path := by
  obtain ⟨rest, hrest, hup, ⟨name, hname, hplain⟩, rfl⟩ := h
  refine ⟨isAbsolute_join hdir hrest, (components rest).filter moves, ?_, ?_,
    normalNames_join hdir hrest hup⟩
  · rw [IsSpecial, not_or, not_or] at hplain
    exact List.ne_nil_of_mem
      (List.mem_filter.mpr ⟨hname, decide_eq_true ⟨hplain.1, hplain.2.1⟩⟩)
  · intro hmem
    exact hup (List.mem_of_mem_filter hmem)

/-- The path names the entry of the directory with that name. -/
def IsEntry (dir name path : List UInt8) : Prop :=
  isAbsolute path = isAbsolute dir ∧ normalNames path = normalNames dir ++ [name]

theorem components_eq_singleton {name : List UInt8} (h : slash ∉ name) : components name = [name] :=
  List.splitOn_eq_singleton h

theorem isAbsolute_of_not_mem {name : List UInt8} (h : slash ∉ name) : isAbsolute name = false := by
  cases name with
  | nil => rfl
  | cons c name => simpa [isAbsolute] using fun hc : c = slash => h (hc ▸ List.mem_cons_self ..)

theorem filter_moves_singleton {name : List UInt8} (hplain : ¬ IsSpecial name) :
    [name].filter moves = [name] := by
  rw [IsSpecial, not_or, not_or] at hplain
  exact List.filter_cons_of_pos (decide_eq_true ⟨hplain.1, hplain.2.1⟩)

theorem not_mem_singleton_of_not_isSpecial {name : List UInt8} (hplain : ¬ IsSpecial name) :
    dotDot ∉ [name] := by
  intro hmem
  exact hplain (Or.inr (Or.inr (List.mem_singleton.mp hmem).symm))

theorem isEntry_join {dir name : List UInt8} (hdir : dir ≠ []) (hname : slash ∉ name)
    (hplain : ¬ IsSpecial name) : IsEntry dir name (join dir name) := by
  have hpath := isAbsolute_of_not_mem hname
  have hcs := components_eq_singleton hname
  refine ⟨isAbsolute_join hdir hpath, ?_⟩
  rw [normalNames_join hdir hpath (by rw [hcs]; exact not_mem_singleton_of_not_isSpecial hplain),
    hcs, filter_moves_singleton hplain]

/-- The same with a slash in any case. -/
theorem isEntry_append_slash {dir name : List UInt8} (hdir : dir ≠ []) (hname : slash ∉ name)
    (hplain : ¬ IsSpecial name) : IsEntry dir name (dir ++ slash :: name) := by
  have hcs := components_eq_singleton hname
  have hup : dotDot ∉ components name := by
    rw [hcs]
    exact not_mem_singleton_of_not_isSpecial hplain
  have habsolute : isAbsolute (dir ++ slash :: name) = isAbsolute dir := isAbsolute_append hdir _
  refine ⟨habsolute, ?_⟩
  rw [normalNames_eq_append habsolute (components_append_slash dir name) (Or.inl rfl) hup, hcs,
    filter_moves_singleton hplain]

theorem join_append {dir path : List UInt8} (hpath : isAbsolute path = false) (hne : path ≠ [])
    (suffix : List UInt8) : join dir path ++ suffix = join dir (path ++ suffix) := by
  have happend : isAbsolute (path ++ suffix) = false := by
    rwa [isAbsolute_append hne]
  simp only [join, hpath, happend, Bool.false_eq_true, if_false]
  split
  · exact List.append_assoc _ _ _
  · exact List.append_assoc _ _ _

/-! ## 3. File systems -/

inductive FileType where
  | regular
  | directory
  | other
deriving DecidableEq, Repr

/-- What `stat` answers for each path.  A path that ends in a slash, `.` or `..` names a directory
if it names anything. -/
structure FileSystem where
  stat : List UInt8 → Option FileType
  directory_of_isSpecial : ∀ path c, (components path).getLast? = some c → IsSpecial c →
    ∀ type, stat path = some type → type = .directory

theorem cString_prefix (path : List UInt8) : cString path <+: path := List.takeWhile_prefix _

theorem cString_append {a : List UInt8} (h : 0 ∉ a) (b : List UInt8) :
    cString (a ++ b) = a ++ cString b := by
  apply List.takeWhile_append_of_pos
  intro c hc
  simpa using fun hzero : c = 0 => h (hzero ▸ hc)

theorem cString_of_not_mem {path : List UInt8} (h : 0 ∉ path) : cString path = path := by
  have hnil : cString [] = [] := rfl
  have happend := cString_append h []
  rwa [List.append_nil, hnil, List.append_nil] at happend

theorem isAbsolute_cString {path : List UInt8} (h : isAbsolute path = false) :
    isAbsolute (cString path) = false := by
  cases path with
  | nil => rfl
  | cons c path =>
    rw [cString, List.takeWhile_cons]
    split
    · exact h
    · rfl

theorem cString_join {dir path : List UInt8} (hdir : 0 ∉ dir) (hpath : isAbsolute path = false) :
    cString (join dir path) = join dir (cString path) := by
  have hseen := isAbsolute_cString hpath
  simp only [join, hpath, hseen, Bool.false_eq_true, if_false]
  split
  · exact cString_append hdir path
  · rw [cString_append hdir]
    rfl

theorem getLast_components_join {dir path : List UInt8} (hdir : dir ≠ [])
    (hpath : isAbsolute path = false) :
    (components (join dir path)).getLast? = (components path).getLast? := by
  obtain ⟨cs, hjoin, -⟩ := components_join hdir hpath
  rw [hjoin, List.getLast?_append_of_ne_nil _ (components_ne_nil path)]

/-- A regular file whose path is that of a directory and then components other than `..` is in
the directory, even where the system call sees only the beginning of the path. -/
theorem isDescent_of_regular {fs : FileSystem} {dir path : List UInt8} (hdir : dir ≠ [])
    (hzero : 0 ∉ dir) (hpath : isAbsolute path = false) (hup : dotDot ∉ components path)
    (hregular : fs.stat (cString (join dir path)) = some .regular) :
    IsDescent dir (cString (join dir path)) := by
  rw [cString_join hzero hpath] at hregular ⊢
  have hseen := isAbsolute_cString hpath
  have hlast := getLast_components_join hdir hseen
  rw [List.getLast?_eq_getLast_of_ne_nil (components_ne_nil (cString path))] at hlast
  have hplain : ¬ IsSpecial ((components (cString path)).getLast (components_ne_nil _)) := by
    intro hspecial
    cases fs.directory_of_isSpecial _ _ hlast hspecial _ hregular
  refine ⟨cString path, hseen, ?_, ⟨_, List.getLast_mem (components_ne_nil _), hplain⟩, rfl⟩
  intro hmem
  rw [← List.dropLast_append_getLast (components_ne_nil (cString path)), List.mem_append] at hmem
  rcases hmem with hmem | hmem
  · -- the components before the last are components of the whole path
    obtain ⟨rest, hrest⟩ := cString_prefix path
    apply hup
    rw [← hrest]
    exact (prefix_of_dropLast_components _ _).subset hmem
  · exact hplain (Or.inr (Or.inr (List.mem_singleton.mp hmem).symm))

/-! ## 4. Trees without links -/

inductive Tree where
  | file (content : List UInt8)
  | directory (entries : List (List UInt8 × Tree))

namespace Tree

/-- A place in a tree: the entries of the directories above it, the nearest first, and what is
there. -/
abbrev Place := List (List (List UInt8 × Tree)) × Tree

/-- The root is its own parent. -/
def parent : List (List (List UInt8 × Tree)) → List (List UInt8 × Tree) → Place
  | [], entries => ([], .directory entries)
  | entries :: above, _ => (above, .directory entries)

def step : Place → List UInt8 → Option Place
  | (_, .file _), _ => none
  | (above, .directory entries), c =>
      if c = [] ∨ c = dotName then some (above, .directory entries)
      else if c = dotDot then some (parent above entries)
      else (entries.lookup c).map fun entry => (entries :: above, entry)

theorem step_directory (above : List (List (List UInt8 × Tree)))
    (entries : List (List UInt8 × Tree)) (c : List UInt8) :
    step (above, .directory entries) c =
      if c = [] ∨ c = dotName then some (above, .directory entries)
      else if c = dotDot then some (parent above entries)
      else (entries.lookup c).map fun entry => (entries :: above, entry) := rfl

def walk (place : Place) (cs : List (List UInt8)) : Option Place := cs.foldlM step place

/-- Path resolution; the root is also the working directory. -/
def resolve (root : Tree) (path : List UInt8) : Option Place :=
  if path = [] then none else walk ([], root) (components path)

def fileType : Tree → FileType
  | .file _ => .regular
  | .directory _ => .directory

theorem walk_append (place : Place) (cs ds : List (List UInt8)) :
    walk place (cs ++ ds) = (walk place cs).bind fun next => walk next ds :=
  List.foldlM_append

theorem walk_cons (place : Place) (c : List UInt8) (cs : List (List UInt8)) :
    walk place (c :: cs) = (step place c).bind fun next => walk next cs := rfl

theorem fileType_step_of_isSpecial {place next : Place} {c : List UInt8} (hc : IsSpecial c)
    (h : step place c = some next) : next.2.fileType = .directory := by
  obtain ⟨above, here⟩ := place
  cases here with
  | file content => cases h
  | directory entries =>
    rw [step_directory] at h
    split at h
    · cases h
      rfl
    · next hstay =>
      have hup : c = dotDot := by
        rcases hc with hc | hc | hc
        · exact absurd (Or.inl hc) hstay
        · exact absurd (Or.inr hc) hstay
        · exact hc
      rw [if_pos hup] at h
      cases h
      cases above with
      | nil => rfl
      | cons entries above => rfl

/-- The answers of `stat` on a tree. -/
def fileSystem (root : Tree) : FileSystem where
  stat path := (resolve root path).map fun place => place.2.fileType
  directory_of_isSpecial := by
    intro path c hlast hc type htype
    obtain ⟨place, hplace, rfl⟩ := Option.map_eq_some_iff.mp htype
    rw [resolve] at hplace
    split at hplace
    · cases hplace
    · obtain ⟨cs, hcs⟩ := List.getLast?_eq_some_iff.mp hlast
      rw [hcs, walk_append, Option.bind_eq_some_iff] at hplace
      obtain ⟨before, -, hstep⟩ := hplace
      rw [walk_cons, Option.bind_eq_some_iff] at hstep
      obtain ⟨after, hstep, hend⟩ := hstep
      cases hend
      exact fileType_step_of_isSpecial hc hstep

/-- A tree and what is in it. -/
inductive Below : Tree → Tree → Prop
  | here (tree : Tree) : Below tree tree
  | entry {name : List UInt8} {entries : List (List UInt8 × Tree)} {child tree : Tree}
      (hmem : (name, child) ∈ entries) (h : Below child tree) : Below (.directory entries) tree

/-- Without `..` a walk goes down. -/
theorem below_of_walk {place next : Place} {cs : List (List UInt8)} (hup : dotDot ∉ cs)
    (h : walk place cs = some next) : Below place.2 next.2 := by
  induction cs generalizing place with
  | nil =>
    cases h
    exact .here _
  | cons c cs ih =>
    rw [List.mem_cons, not_or] at hup
    rw [walk_cons, Option.bind_eq_some_iff] at h
    obtain ⟨middle, hstep, hrest⟩ := h
    have hbelow := ih hup.2 hrest
    obtain ⟨above, here⟩ := place
    cases here with
    | file content => cases hstep
    | directory entries =>
      rw [step_directory] at hstep
      split at hstep
      · cases hstep
        exact hbelow
      · rw [if_neg (Ne.symm hup.1), Option.map_eq_some_iff] at hstep
        obtain ⟨entry, hlookup, rfl⟩ := hstep
        obtain ⟨before, after, rfl, -⟩ := List.lookup_eq_some_iff.mp hlookup
        exact .entry (List.mem_append_right _ (List.mem_cons_self ..)) hbelow

/-- A path that leads down into a directory by its text names something in it. -/
theorem below_of_isDescent {root : Tree} {dir path : List UInt8} {directory place : Place}
    (h : IsDescent dir path) (hdirectory : resolve root dir = some directory)
    (hplace : resolve root path = some place) : Below directory.2 place.2 := by
  obtain ⟨rest, hrest, hup, -, rfl⟩ := h
  by_cases hdir : dir = []
  · rw [resolve, if_pos hdir] at hdirectory
    cases hdirectory
  obtain ⟨cs, hjoin, hcs⟩ := components_join hdir hrest
  rw [resolve, if_neg hdir] at hdirectory
  rw [resolve] at hplace
  split at hplace
  · cases hplace
  · have hstart : walk ([], root) cs = some directory := by
      rcases hcs with heq | heq
      · rwa [heq] at hdirectory
      · rw [heq, walk_append, Option.bind_eq_some_iff] at hdirectory
        obtain ⟨before, hbefore, hend⟩ := hdirectory
        rw [walk_cons, Option.bind_eq_some_iff] at hend
        obtain ⟨after, hstep, hend⟩ := hend
        cases hend
        obtain ⟨above, here⟩ := before
        cases here with
        | file content => cases hstep
        | directory entries =>
          cases hstep
          exact hbefore
    rw [hjoin, walk_append, hstart] at hplace
    exact below_of_walk hup hplace

end Tree

end PosixPath
