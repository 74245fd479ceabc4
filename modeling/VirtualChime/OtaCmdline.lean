import VirtualChime.OtaScripts

/-!
# The kernel command line

`set_next_root_device` and `current_root_device` on the text of `cmdline.txt`.  The writer
edits the first argument ` root=` and the reader takes the last one, so the two agree where
there is no more than one, or where the last one is right already.
-/

namespace VirtualChime.Ota

/-! ## 1. The source -/

/-- `OTA_ROOT_A_DEVICE` and `OTA_ROOT_B_DEVICE`. -/
def Slot.device : Slot → Bytes
  | .A => bytes "/dev/mmcblk0p2"
  | .B => bytes "/dev/mmcblk0p3"

def slotFromDevice (device : Bytes) : Option Slot :=
  if device = Slot.A.device then some .A else if device = Slot.B.device then some .B else none

abbrev blank : Byte := 32

def rootArg : Bytes := bytes " root="

def isNotBlank (c : Byte) : Bool := c != blank

/-- `grep -q ' root='` on a line. -/
def hasRootArg (line : Bytes) : Bool := decide (rootArg <:+: line)

/-- `sed "s# root=[^ ]*# root=$root_device#"` on a line: the leftmost match. -/
def replaceRootArg (root_device : Bytes) : Bytes → Bytes
  | [] => []
  | c :: line =>
      if rootArg.isPrefixOf (c :: line) then
        rootArg ++ root_device ++ ((c :: line).drop rootArg.length).dropWhile isNotBlank
      else c :: replaceRootArg root_device line

/-- `sed -n 's/.* root=\([^ ]*\).*/\1/p'` on a line: the leading `.*` takes all it can. -/
def lastRootArg : Bytes → Option Bytes
  | [] => none
  | c :: line =>
      match lastRootArg line with
      | some root_arg => some root_arg
      | none =>
          if rootArg.isPrefixOf (c :: line) then
            some (((c :: line).drop rootArg.length).takeWhile isNotBlank)
          else none

/-- `current_root_device`, where the root is mounted from the device `mounted`. -/
def currentRootDevice (cmdline mounted : Bytes) : Bytes :=
  let root_arg := (lastRootArg cmdline).getD []
  if root_arg = Slot.A.device ∨ root_arg = Slot.B.device then root_arg else mounted

def currentSlot (cmdline mounted : Bytes) : Option Slot :=
  slotFromDevice (currentRootDevice cmdline mounted)

/-- `$(cat ...)`: the newlines at the end are left out. -/
def capture (text : Bytes) : Bytes := text.rdropWhile (· == newline)

/-- `set_next_root_device`; none where there is no `cmdline.txt`. -/
def setNextRootDevice (root_device : Bytes) (cmdline : Option Bytes) : Option Bytes :=
  match cmdline with
  | none => none
  | some text =>
      let current_line := capture text
      let new_line :=
        if hasRootArg current_line then replaceRootArg root_device current_line
        else current_line ++ rootArg ++ root_device
      some (new_line ++ [newline])

/-! ## 2. Arguments -/

/-- A command line of one line. -/
structure CommandLine where
  text : Bytes
  one_line : newline ∉ text

/-- What blanks separate. -/
def separated (line : Bytes) : List Bytes := (line.splitOn blank).filter (· ≠ [])

def isRootArgument (argument : Bytes) : Bool := (bytes "root=").isPrefixOf argument

/-- White space other than a blank, a quote, or the end of the text: the kernel ends an argument
at the first, keeps one together with the second and stops at the third. -/
def isSpecial (c : Byte) : Bool := c == 0 || (9 ≤ c && c ≤ 13) || c == 34 || c == 160

/-- Nothing but blanks separates the arguments, and none of them ends those for the kernel. -/
structure Plain (line : Bytes) : Prop where
  special : ∀ c, isSpecial c = true → c ∉ line
  dashes : bytes "--" ∉ line.splitOn blank

theorem plain_of_not_any {line : Bytes} (hspecial : line.any isSpecial = false)
    (hdashes : bytes "--" ∉ line.splitOn blank) : Plain line where
  special := fun c hc hmem => List.any_eq_false.mp hspecial c hmem hc
  dashes := hdashes

/-- The kernel's own reading of its command line, as it is documented for plain lines; how it takes
the others is left open. -/
structure Kernel where
  arguments : Bytes → List Bytes
  root : Bytes → Option Bytes
  arguments_plain : ∀ line, Plain line → arguments line = separated line
  -- each `root=` replaces the one before it
  root_plain : ∀ line, Plain line →
    root line = (((arguments line).filter isRootArgument).getLast?).map (·.drop 5)

/-- All arguments other than `root=`. -/
def Kernel.otherArguments (kernel : Kernel) (line : Bytes) : List Bytes :=
  (kernel.arguments line).filter fun argument => !isRootArgument argument

/-- How many times a line has ` root=`. -/
def rootArgCount (line : Bytes) : ℕ := ((line.splitOn blank).tail.filter isRootArgument).length

/-! ## 3. Lines and their fields -/

/-- Fields put together, the first of them and then each after a blank. -/
def joined (first : Bytes) (fields : List Bytes) : Bytes :=
  first ++ fields.flatMap fun field => blank :: field

theorem joined_cons (first field : Bytes) (fields : List Bytes) :
    joined first (field :: fields) = first ++ blank :: joined field fields := by
  simp [joined]

theorem intercalate_eq_joined (first : Bytes) (fields : List Bytes) :
    [blank].intercalate (first :: fields) = joined first fields := by
  induction fields generalizing first with
  | nil => simp [joined]
  | cons field fields ih =>
    rw [List.intercalate_cons_cons, ih, joined_cons, List.append_assoc]
    rfl

theorem splitOn_joined {first : Bytes} {fields : List Bytes} (hfirst : blank ∉ first)
    (hfields : ∀ field ∈ fields, blank ∉ field) :
    (joined first fields).splitOn blank = first :: fields := by
  rw [← intercalate_eq_joined]
  apply List.splitOn_intercalate
  · exact List.forall_mem_cons.mpr ⟨hfirst, hfields⟩
  · exact List.cons_ne_nil _ _

theorem exists_fields (line : Bytes) :
    ∃ first fields, line = joined first fields ∧ blank ∉ first ∧
      ∀ field ∈ fields, blank ∉ field := by
  have hclean : ∀ field ∈ line.splitOn blank, blank ∉ field := by
    intro field hfield
    exact Scanner.not_mem_of_mem_splitOn hfield
  have hline : [blank].intercalate (line.splitOn blank) = line := List.intercalate_splitOn blank
  cases hsplit : line.splitOn blank with
  | nil => exact absurd hsplit (List.splitOn_ne_nil _ _)
  | cons first fields =>
    rw [hsplit] at hclean hline
    rw [intercalate_eq_joined] at hline
    obtain ⟨hfirst, hfields⟩ := List.forall_mem_cons.mp hclean
    exact ⟨first, fields, hline.symm, hfirst, hfields⟩

/-- The first argument `root=` replaced. -/
def replaceFirst (root_device : Bytes) : List Bytes → List Bytes
  | [] => []
  | field :: fields =>
      if isRootArgument field then (bytes "root=" ++ root_device) :: fields
      else field :: replaceFirst root_device fields

/-- Before the first blank there is no match. -/
theorem not_isPrefixOf_of_ne {c : Byte} (h : c ≠ blank) (line : Bytes) :
    rootArg.isPrefixOf (c :: line) = false := by
  have hbeq : (blank == c) = false := by simpa using h.symm
  have hcons : rootArg = blank :: bytes "root=" := rfl
  rw [hcons, List.isPrefixOf_cons_cons, hbeq, Bool.false_and]

section BeforeBlank

variable {first : Bytes} (hfirst : blank ∉ first) (line : Bytes)

include hfirst

theorem replaceRootArg_append (root_device : Bytes) :
    replaceRootArg root_device (first ++ line) = first ++ replaceRootArg root_device line := by
  induction first with
  | nil => rfl
  | cons c first ih =>
    simp only [List.mem_cons, not_or] at hfirst
    obtain ⟨hc, hrest⟩ := hfirst
    rw [List.cons_append, replaceRootArg, not_isPrefixOf_of_ne (Ne.symm hc), ih hrest]
    rfl

theorem lastRootArg_append : lastRootArg (first ++ line) = lastRootArg line := by
  induction first with
  | nil => rfl
  | cons c first ih =>
    simp only [List.mem_cons, not_or] at hfirst
    obtain ⟨hc, hrest⟩ := hfirst
    rw [List.cons_append, lastRootArg, not_isPrefixOf_of_ne (Ne.symm hc), ih hrest]
    cases lastRootArg line <;> rfl

theorem infix_append_iff : rootArg <:+: first ++ line ↔ rootArg <:+: line := by
  induction first with
  | nil => rfl
  | cons c first ih =>
    simp only [List.mem_cons, not_or] at hfirst
    obtain ⟨hc, hrest⟩ := hfirst
    rw [List.cons_append, List.infix_cons_iff, ih hrest, ← List.isPrefixOf_iff_prefix,
      not_isPrefixOf_of_ne (Ne.symm hc)]
    simp

end BeforeBlank

section Field

variable {field : Bytes} (hfield : blank ∉ field) (fields : List Bytes)

/-- At a blank there is a match if the next field is an argument `root=`. -/
theorem isPrefixOf_joined :
    rootArg.isPrefixOf (blank :: joined field fields) = isRootArgument field := by
  have hclean : blank ∉ bytes "root=" := by decide
  have hcons : rootArg = blank :: bytes "root=" := rfl
  rw [hcons, List.isPrefixOf_cons_cons, beq_self_eq_true, Bool.true_and, Bool.eq_iff_iff,
    isRootArgument, List.isPrefixOf_iff_prefix, List.isPrefixOf_iff_prefix, joined]
  constructor
  · intro h
    rcases List.prefix_or_prefix_of_prefix h (List.prefix_append field _) with hpre | hpre
    · exact hpre
    · obtain ⟨rest, hrest⟩ := hpre
      rw [← hrest] at h hclean ⊢
      have htail := (List.prefix_append_right_inj field).mp h
      cases rest with
      | nil => rw [List.append_nil]
      | cons c rest =>
        cases fields with
        | nil => cases List.prefix_nil.mp htail
        | cons next fields =>
          obtain ⟨rfl, -⟩ := List.cons_prefix_cons.mp htail
          simp at hclean
  · intro h
    exact h.trans (List.prefix_append _ _)

include hfield

theorem isNotBlank_of_mem : ∀ c ∈ field, isNotBlank c = true := by
  intro c hc
  have hne : c ≠ blank := fun heq => hfield (heq ▸ hc)
  simpa [isNotBlank] using hne

theorem takeWhile_joined : (joined field fields).takeWhile isNotBlank = field := by
  rw [joined, List.takeWhile_append_of_pos (isNotBlank_of_mem hfield)]
  cases fields with
  | nil => exact List.append_nil field
  | cons next fields =>
    rw [List.flatMap_cons, List.cons_append, List.takeWhile_cons]
    exact List.append_nil field

theorem dropWhile_joined :
    (joined field fields).dropWhile isNotBlank = fields.flatMap fun next => blank :: next := by
  rw [joined, List.dropWhile_append_of_pos (isNotBlank_of_mem hfield)]
  cases fields with
  | nil => rfl
  | cons next fields => rfl

end Field

theorem drop_joined {field : Bytes} (h : isRootArgument field = true) (fields : List Bytes) :
    (blank :: joined field fields).drop rootArg.length = joined (field.drop 5) fields := by
  have hlength : 5 ≤ field.length := (List.isPrefixOf_iff_prefix.mp h).length_le
  have hsix : rootArg.length = 5 + 1 := rfl
  rw [hsix, List.drop_succ_cons, joined, joined, List.drop_append_of_le_length hlength]

section Fields

variable {first : Bytes} {fields : List Bytes} (hfirst : blank ∉ first)
  (hfields : ∀ field ∈ fields, blank ∉ field)

include hfirst hfields

theorem replaceRootArg_joined (root_device : Bytes) :
    replaceRootArg root_device (joined first fields) =
      joined first (replaceFirst root_device fields) := by
  induction fields generalizing first with
  | nil =>
    have h := replaceRootArg_append hfirst [] root_device
    simpa [joined, replaceRootArg, replaceFirst] using h
  | cons field fields ih =>
    obtain ⟨hfield, hrest⟩ := List.forall_mem_cons.mp hfields
    have hvalue : blank ∉ field.drop 5 := fun h => hfield (List.mem_of_mem_drop h)
    rw [joined_cons, replaceRootArg_append hfirst, replaceRootArg, isPrefixOf_joined, replaceFirst]
    by_cases hroot : isRootArgument field = true
    · rw [if_pos hroot, if_pos hroot, drop_joined hroot, dropWhile_joined hvalue]
      simp only [joined, List.flatMap_cons, List.append_assoc]
      rfl
    · rw [if_neg hroot, if_neg hroot, ih hfield hrest, joined_cons]

theorem lastRootArg_joined :
    lastRootArg (joined first fields) =
      ((fields.filter isRootArgument).getLast?).map (·.drop 5) := by
  induction fields generalizing first with
  | nil =>
    have h := lastRootArg_append hfirst []
    simpa [joined, lastRootArg] using h
  | cons field fields ih =>
    obtain ⟨hfield, hrest⟩ := List.forall_mem_cons.mp hfields
    have hvalue : blank ∉ field.drop 5 := fun h => hfield (List.mem_of_mem_drop h)
    rw [joined_cons, lastRootArg_append hfirst, lastRootArg, ih hfield hrest, isPrefixOf_joined,
      List.filter_cons]
    by_cases hroot : isRootArgument field = true
    · rw [if_pos hroot, if_pos hroot, drop_joined hroot, takeWhile_joined hvalue,
        List.getLast?_cons]
      cases (fields.filter isRootArgument).getLast? <;> rfl
    · rw [if_neg hroot, if_neg hroot]
      cases (fields.filter isRootArgument).getLast? <;> rfl

theorem hasRootArg_joined : hasRootArg (joined first fields) = fields.any isRootArgument := by
  rw [Bool.eq_iff_iff, hasRootArg, decide_eq_true_iff]
  induction fields generalizing first with
  | nil =>
    have hnil : ¬ rootArg <:+: [] := by decide
    have hjoined : joined first [] = first ++ [] := rfl
    rw [hjoined, infix_append_iff hfirst]
    simpa using hnil
  | cons field fields ih =>
    obtain ⟨hfield, hrest⟩ := List.forall_mem_cons.mp hfields
    rw [joined_cons, infix_append_iff hfirst, List.infix_cons_iff, ih hfield hrest,
      ← List.isPrefixOf_iff_prefix, isPrefixOf_joined, List.any_cons, Bool.or_eq_true]

end Fields

/-! ## 4. The fields after the writer -/

/-- What the writer makes of the fields after the first. -/
def nextFields (root_device : Bytes) (fields : List Bytes) : List Bytes :=
  if fields.any isRootArgument then replaceFirst root_device fields
  else fields ++ [bytes "root=" ++ root_device]

theorem isRootArgument_append (root_device : Bytes) :
    isRootArgument (bytes "root=" ++ root_device) = true :=
  List.isPrefixOf_iff_prefix.mpr (List.prefix_append _ _)

theorem filter_eq_nil_of_not_any {fields : List Bytes} (h : ¬ fields.any isRootArgument = true) :
    fields.filter isRootArgument = [] := by
  rw [List.filter_eq_nil_iff]
  intro field hfield hroot
  exact h (List.any_eq_true.mpr ⟨field, hfield, hroot⟩)

/-- Of the arguments `root=` the writer changes the first. -/
theorem filter_replaceFirst (root_device : Bytes) (fields : List Bytes) :
    (replaceFirst root_device fields).filter isRootArgument =
      match fields.filter isRootArgument with
      | [] => []
      | _ :: roots => (bytes "root=" ++ root_device) :: roots := by
  induction fields with
  | nil => rfl
  | cons field fields ih =>
    rw [replaceFirst]
    by_cases hroot : isRootArgument field = true
    · rw [if_pos hroot, List.filter_cons_of_pos (isRootArgument_append root_device),
        List.filter_cons_of_pos hroot]
    · rw [if_neg hroot, List.filter_cons_of_neg hroot, List.filter_cons_of_neg hroot, ih]

theorem filter_nextFields (root_device : Bytes) (fields : List Bytes) :
    (nextFields root_device fields).filter isRootArgument =
      (bytes "root=" ++ root_device) :: (fields.filter isRootArgument).tail := by
  unfold nextFields
  split
  · next hany =>
    rw [filter_replaceFirst]
    cases hroots : fields.filter isRootArgument with
    | nil =>
      obtain ⟨field, hfield, hroot⟩ := List.any_eq_true.mp hany
      exact absurd hroot (List.filter_eq_nil_iff.mp hroots field hfield)
    | cons root roots => rfl
  · next hnone =>
    rw [List.filter_append, filter_eq_nil_of_not_any hnone,
      List.filter_cons_of_pos (isRootArgument_append root_device)]
    rfl

theorem filter_not_nextFields (root_device : Bytes) (fields : List Bytes) :
    (nextFields root_device fields).filter (fun field => !isRootArgument field) =
      fields.filter fun field => !isRootArgument field := by
  have hadded := isRootArgument_append root_device
  unfold nextFields
  split
  · clear * - hadded
    induction fields with
    | nil => rfl
    | cons field fields ih =>
      rw [replaceFirst]
      by_cases hroot : isRootArgument field = true
      · simp [hroot, hadded]
      · simp [hroot, ih]
  · simp [hadded]

/-- A line whose first argument `root=` is right is left as it is. -/
theorem replaceFirst_eq_self {root_device : Bytes} {fields roots : List Bytes}
    (h : fields.filter isRootArgument = (bytes "root=" ++ root_device) :: roots) :
    replaceFirst root_device fields = fields := by
  induction fields with
  | nil => rfl
  | cons field fields ih =>
    rw [replaceFirst]
    by_cases hroot : isRootArgument field = true
    · rw [List.filter_cons_of_pos hroot] at h
      rw [if_pos hroot, (List.cons.inj h).1]
    · rw [List.filter_cons_of_neg hroot] at h
      rw [if_neg hroot, ih h]

theorem nextFields_nextFields (root_device : Bytes) (fields : List Bytes) :
    nextFields root_device (nextFields root_device fields) = nextFields root_device fields := by
  have hroots := filter_nextFields root_device fields
  have hany : (nextFields root_device fields).any isRootArgument = true := by
    by_contra hnone
    rw [filter_eq_nil_of_not_any hnone] at hroots
    cases hroots
  have hself := replaceFirst_eq_self hroots
  generalize nextFields root_device fields = fields at hany hself
  rw [nextFields, if_pos hany, hself]

theorem not_mem_nextFields {root_device : Bytes} {c : Byte} (hdevice : c ∉ bytes "root=" ++ root_device)
    {fields : List Bytes} (hfields : ∀ field ∈ fields, c ∉ field) :
    ∀ field ∈ nextFields root_device fields, c ∉ field := by
  unfold nextFields
  split
  · clear * - hdevice hfields
    induction fields with
    | nil => nofun
    | cons field fields ih =>
      obtain ⟨hfield, hrest⟩ := List.forall_mem_cons.mp hfields
      rw [replaceFirst]
      split
      · exact List.forall_mem_cons.mpr ⟨hdevice, hrest⟩
      · exact List.forall_mem_cons.mpr ⟨hfield, ih hrest⟩
  · intro field hfield
    rcases List.mem_append.mp hfield with hold | hnew
    · exact hfields field hold
    · rw [List.mem_singleton.mp hnew]
      exact hdevice

theorem mem_nextFields {root_device : Bytes} {fields : List Bytes} {field : Bytes}
    (h : field ∈ nextFields root_device fields) :
    field = bytes "root=" ++ root_device ∨ field ∈ fields := by
  unfold nextFields at h
  split at h
  · clear * - h
    induction fields with
    | nil => cases h
    | cons first fields ih =>
      rw [replaceFirst] at h
      split at h
      · rcases List.mem_cons.mp h with rfl | hrest
        · exact Or.inl rfl
        · exact Or.inr (List.mem_cons_of_mem _ hrest)
      · rcases List.mem_cons.mp h with rfl | hrest
        · exact Or.inr (List.mem_cons_self ..)
        · exact (ih hrest).imp_right (List.mem_cons_of_mem _)
  · rcases List.mem_append.mp h with hold | hnew
    · exact Or.inr hold
    · exact Or.inl (List.mem_singleton.mp hnew)

theorem not_mem_joined_iff {c : Byte} (hc : c ≠ blank) {first : Bytes} {fields : List Bytes} :
    c ∉ joined first fields ↔ c ∉ first ∧ ∀ field ∈ fields, c ∉ field := by
  simp only [joined, List.mem_append, List.mem_flatMap, List.mem_cons, hc, false_or, not_or,
    not_exists, not_and]

/-! ## 5. The writer and the readers -/

theorem capture_newlines {line : Bytes} (h : newline ∉ line) (newlines : ℕ) :
    capture (line ++ List.replicate newlines newline) = line := by
  have hall : ∀ c ∈ List.replicate newlines newline, (c == newline) = true := by
    intro c hc
    rw [List.eq_of_mem_replicate hc]
    rfl
  rw [capture, List.rdropWhile, List.reverse_append, List.reverse_replicate,
    List.dropWhile_append_of_pos hall]
  cases hreverse : line.reverse with
  | nil => rw [List.reverse_eq_nil_iff.mp hreverse]; rfl
  | cons c rest =>
    have hc : c ≠ newline := by
      rintro rfl
      exact h (List.mem_reverse.mp (hreverse ▸ List.mem_cons_self ..))
    rw [List.dropWhile_cons_of_neg (by simpa using hc), ← hreverse, List.reverse_reverse]

section Joined

variable {first : Bytes} {fields : List Bytes} (hfirst : blank ∉ first)
  (hfields : ∀ field ∈ fields, blank ∉ field)

include hfirst hfields

theorem setNextRootDevice_joined {root_device text : Bytes}
    (htext : capture text = joined first fields) :
    setNextRootDevice root_device (some text) =
      some (joined first (nextFields root_device fields) ++ [newline]) := by
  rw [setNextRootDevice, htext, hasRootArg_joined hfirst hfields, nextFields]
  by_cases hany : fields.any isRootArgument = true
  · rw [if_pos hany, if_pos hany, replaceRootArg_joined hfirst hfields]
  · rw [if_neg hany, if_neg hany]
    have hcons : rootArg = blank :: bytes "root=" := rfl
    simp [joined, hcons]

theorem filter_separated_joined :
    (separated (joined first fields)).filter isRootArgument =
      [first].filter isRootArgument ++ fields.filter isRootArgument := by
  have hfull : ∀ argument, isRootArgument argument = true → decide (argument ≠ []) = true := by
    intro argument hroot
    have hlength := (List.isPrefixOf_iff_prefix.mp hroot).length_le
    apply decide_eq_true
    rintro rfl
    cases hlength
  rw [separated, splitOn_joined hfirst hfields, List.filter_filter, ← List.filter_append]
  apply List.filter_congr
  intro argument _
  rw [Bool.eq_iff_iff, Bool.and_eq_true]
  exact ⟨And.left, fun hroot => ⟨hroot, hfull argument hroot⟩⟩

theorem filter_not_separated_joined :
    (separated (joined first fields)).filter (fun argument => !isRootArgument argument) =
      ((first :: fields).filter fun argument => !isRootArgument argument).filter (· ≠ []) := by
  rw [separated, splitOn_joined hfirst hfields, List.filter_comm]

theorem plain_joined_iff : Plain (joined first fields) ↔
    (∀ c, isSpecial c = true → c ∉ first ∧ ∀ field ∈ fields, c ∉ field) ∧
      bytes "--" ≠ first ∧ bytes "--" ∉ fields := by
  have hblank : ∀ c, isSpecial c = true → c ≠ blank := by
    rintro c hc rfl
    cases hc
  have hsplit := splitOn_joined hfirst hfields
  constructor
  · rintro ⟨hspecial, hdashes⟩
    rw [hsplit, List.mem_cons, not_or] at hdashes
    exact ⟨fun c hc => (not_mem_joined_iff (hblank c hc)).mp (hspecial c hc), hdashes⟩
  · rintro ⟨hspecial, hdashes⟩
    refine ⟨fun c hc => (not_mem_joined_iff (hblank c hc)).mpr (hspecial c hc), ?_⟩
    rw [hsplit, List.mem_cons, not_or]
    exact hdashes

end Joined

/-- The writer leaves a plain line plain. -/
theorem plain_nextFields {first : Bytes} {fields : List Bytes} (hfirst : blank ∉ first)
    (hfields : ∀ field ∈ fields, blank ∉ field) {d : Slot} (h : Plain (joined first fields)) :
    Plain (joined first (nextFields d.device fields)) := by
  have hdevice : ∀ c, isSpecial c = true → c ∉ bytes "root=" ++ d.device := by
    have hnone : (bytes "root=" ++ d.device).any isSpecial = false := by cases d <;> decide
    exact fun c hc hmem => List.any_eq_false.mp hnone c hmem hc
  have hblank : blank ∉ bytes "root=" ++ d.device := by cases d <;> decide
  obtain ⟨hspecial, hne, hdashes⟩ := (plain_joined_iff hfirst hfields).mp h
  have hclean := not_mem_nextFields hblank hfields
  refine (plain_joined_iff hfirst hclean).mpr ⟨fun c hc => ?_, hne, fun hmem => ?_⟩
  · exact ⟨(hspecial c hc).1, not_mem_nextFields (hdevice c hc) (hspecial c hc).2⟩
  · rcases mem_nextFields hmem with hroot | hold
    · cases d <;> exact absurd hroot (by decide)
    · exact hdashes hold

/-- A kernel that takes blanks for all there is between arguments. -/
def blankKernel : Kernel where
  arguments := separated
  root line := (((separated line).filter isRootArgument).getLast?).map (·.drop 5)
  arguments_plain _ _ := rfl
  root_plain _ _ := rfl

end VirtualChime.Ota
