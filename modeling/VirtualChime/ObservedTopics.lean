import VirtualChime.ChimeService
import VirtualChime.CoreConfigApi
import VirtualChime.Library.RecentList
import Mathlib.Data.Finset.Dedup

/-!
# The observed topics

The daemon keeps the topics it has seen in a list, in a set and in a file.  The list is
the recent list of the topics noted so far, the set has the same elements, and the file
carries the list over a restart: a run that is interrupted between messages ends with
the list of the run that is not.
-/

namespace VirtualChime

open RecentList

/-! ## 1. What the file lists -/

/-- The topics of an observed topics file, with repetitions. -/
def listedTopics (file : Option Bytes) : List Bytes :=
  (((file.map getlines).getD []).map trim).filter (· ≠ [])

/-- A topic that is one line of text without blanks around it. -/
structure IsLineTopic (topic : Bytes) : Prop where
  nonempty : topic ≠ []
  one_line : newline ∉ topic
  trimmed : trim topic = topic

theorem isLineTopic_of_mem_listedTopics {file : Option Bytes} {topic : Bytes}
    (h : topic ∈ listedTopics file) : IsLineTopic topic := by
  obtain ⟨hmem, hne⟩ := List.mem_filter.mp h
  obtain ⟨line, hline, rfl⟩ := List.mem_map.mp hmem
  cases file with
  | none => simp at hline
  | some text =>
    have hclean : newline ∉ line := newline_not_mem_of_mem_getlines hline
    exact ⟨by simpa using hne, fun hnl => hclean (mem_of_mem_trim hnl), trim_trim line⟩

theorem listedTopics_joinLines {topics : List Bytes} (h : ∀ t ∈ topics, IsLineTopic t) :
    listedTopics (some (Scanner.joinLines newline topics)) = topics := by
  have hlines : getlines (Scanner.joinLines newline topics) = topics :=
    Scanner.lines_joinLines_of_clean fun t ht => (h t ht).one_line
  have htrim : topics.map trim = topics :=
    (List.map_congr_left fun t ht => (h t ht).trimmed).trans (List.map_id' topics)
  rw [listedTopics, Option.map_some, Option.getD_some, hlines, htrim, List.filter_eq_self]
  intro t ht
  simpa using (h t ht).nonempty

/-- The console lists each topic of the file once. -/
theorem readObservedTopics_eq (file : Option Bytes) :
    Webd.readObservedTopics file = firsts (listedTopics file) := by
  cases file with
  | none => rfl
  | some text =>
    have hfold : ∀ (lines : List Bytes) (seen : List Bytes),
        lines.foldl (fun topics line =>
          if (trim line).isEmpty ∨ trim line ∈ topics then topics else topics ++ [trim line]) seen =
          ((lines.map trim).filter (· ≠ [])).foldl append seen := by
      intro lines
      induction lines with
      | nil => exact fun _ => rfl
      | cons line lines ih =>
        intro seen
        rw [List.foldl_cons, List.map_cons, ih]
        by_cases hempty : trim line = []
        · simp [hempty]
        · rw [List.filter_cons_of_pos (by simpa using hempty), List.foldl_cons, append]
          by_cases hmem : trim line ∈ seen
          · rw [if_pos (Or.inr hmem), if_pos hmem]
          · rw [if_neg (by simp [hempty, hmem]), if_neg hmem]
    exact hfold (getlines text) []

namespace ChimeService

/-! ## 2. The list and the set -/

/-- The list and the set hold the same topics, no more than there may be. -/
structure Tracked (s : ChimeService) : Prop where
  distinct : s.observed_topics.Nodup
  bounded : s.observed_topics.length ≤ kMaxObservedTopics
  set_eq : s.observed_topics_set = s.observed_topics.toFinset

theorem Tracked.mem_set_iff {s : ChimeService} (h : s.Tracked) (topic : Bytes) :
    topic ∈ s.observed_topics_set ↔ topic ∈ s.observed_topics := by
  rw [h.set_eq, List.mem_toFinset]

theorem dropOldest_eq {topics : List Bytes} (h : topics.Nodup) :
    dropOldest topics topics.toFinset =
      (newest kMaxObservedTopics topics, (newest kMaxObservedTopics topics).toFinset) := by
  induction topics with
  | nil => rfl
  | cons oldest topics ih =>
    rw [dropOldest]
    split
    · next hlen =>
      have herase : (oldest :: topics).toFinset.erase oldest = topics.toFinset := by
        rw [List.toFinset_cons, Finset.erase_insert]
        simpa using (List.nodup_cons.mp h).1
      rw [herase, ih (List.nodup_cons.mp h).2, newest_cons_of_lt hlen]
    · next hlen => rw [newest_eq_self (Nat.le_of_not_gt hlen)]

theorem foldl_loadTopic (lines seen : List Bytes) :
    lines.foldl loadTopic (seen, seen.toFinset) =
      (((lines.map trim).filter (· ≠ [])).foldl append seen,
        (((lines.map trim).filter (· ≠ [])).foldl append seen).toFinset) := by
  induction lines generalizing seen with
  | nil => rfl
  | cons line lines ih =>
    have hstep : loadTopic (seen, seen.toFinset) line =
        if trim line = [] then (seen, seen.toFinset)
        else (append seen (trim line), (append seen (trim line)).toFinset) := by
      simp only [loadTopic, append, List.mem_toFinset]
      by_cases hempty : trim line = []
      · simp [hempty]
      · by_cases hmem : trim line ∈ seen
        · simp [hempty, hmem]
        · simp only [hempty, hmem, if_false, or_self, Prod.mk.injEq, true_and]
          ext topic
          simp [or_comm]
    rw [List.foldl_cons, hstep, List.map_cons]
    by_cases hempty : trim line = []
    · rw [if_pos hempty, ih]
      simp [hempty]
    · rw [if_neg hempty, ih]
      simp [hempty]

/-- The topics that a message is looked up in: the file is read at the first message. -/
def topicsInForce (s : ChimeService) : List Bytes :=
  if s.observed_topics_loaded then s.observed_topics
  else newest kMaxObservedTopics (firsts (listedTopics s.observedTopicsFile))

theorem loadObservedTopics_eq {s : ChimeService} (h : s.observed_topics_loaded = false) :
    s.loadObservedTopics =
      { s with
        observed_topics_loaded := true
        observed_topics := s.topicsInForce
        observed_topics_set := s.topicsInForce.toFinset } := by
  have hfold := foldl_loadTopic ((s.observedTopicsFile.map getlines).getD []) []
  have hkept := dropOldest_eq (nodup_firsts (listedTopics s.observedTopicsFile))
  rw [List.toFinset_nil] at hfold
  rw [topicsInForce, h, loadObservedTopics, hfold]
  simp only [Bool.false_eq_true, if_false]
  rw [firsts, listedTopics] at hkept ⊢
  rw [hkept]

theorem nodup_topicsInForce {s : ChimeService} (h : s.Tracked) : s.topicsInForce.Nodup := by
  rw [topicsInForce]
  split
  · exact h.distinct
  · exact (newest_sublist _ _).nodup (nodup_firsts _)

theorem length_topicsInForce_le {s : ChimeService} (h : s.Tracked) :
    s.topicsInForce.length ≤ kMaxObservedTopics := by
  rw [topicsInForce]
  split
  · exact h.bounded
  · exact length_newest_le _ _

/-! ## 3. Messages -/

/-- A message that discovers its topic: the insertion into the set takes place. -/
def Discovers (s : ChimeService) (topic : Bytes) : Prop :=
  topic ≠ [] ∧
    topic ∉ (if s.observed_topics_loaded then s else s.loadObservedTopics).observed_topics_set

instance (s : ChimeService) (topic : Bytes) : Decidable (s.Discovers topic) :=
  inferInstanceAs (Decidable (_ ∧ _))

theorem loaded_eq {s : ChimeService} (h : s.Tracked) :
    (if s.observed_topics_loaded then s else s.loadObservedTopics) =
      { s with
        observed_topics_loaded := true
        observed_topics := s.topicsInForce
        observed_topics_set := s.topicsInForce.toFinset } := by
  by_cases hloaded : s.observed_topics_loaded = true
  · rw [if_pos hloaded, topicsInForce, if_pos hloaded, ← h.set_eq, ← hloaded]
  · rw [if_neg hloaded, loadObservedTopics_eq (by simpa using hloaded)]

theorem discovers_iff {s : ChimeService} (h : s.Tracked) (topic : Bytes) :
    s.Discovers topic ↔ topic ≠ [] ∧ topic ∉ s.topicsInForce := by
  rw [Discovers, loaded_eq h, List.mem_toFinset]

/-- What recording a topic does: nothing, nothing but reading the file, or an insertion. -/
theorem recordObservedTopic_cases {s : ChimeService} (h : s.Tracked) (topic : Bytes)
    (persists : Bool) :
    (topic = [] ∧ s.recordObservedTopic topic persists = s) ∨
    (topic ≠ [] ∧ topic ∈ s.topicsInForce ∧ s.recordObservedTopic topic persists =
      { s with
        observed_topics_loaded := true
        observed_topics := s.topicsInForce
        observed_topics_set := s.topicsInForce.toFinset }) ∨
    (topic ≠ [] ∧ topic ∉ s.topicsInForce ∧ s.recordObservedTopic topic persists =
      { s with
        observed_topics_loaded := true
        observed_topics := note kMaxObservedTopics s.topicsInForce topic
        observed_topics_set := (note kMaxObservedTopics s.topicsInForce topic).toFinset
        observedTopicsFile :=
          if persists then
            some (Scanner.joinLines newline (note kMaxObservedTopics s.topicsInForce topic))
          else s.observedTopicsFile }) := by
  by_cases hempty : topic = []
  · left
    exact ⟨hempty, by rw [recordObservedTopic, if_pos hempty]⟩
  · right
    rw [recordObservedTopic, if_neg hempty, loaded_eq h]
    dsimp only
    by_cases hmem : topic ∈ s.topicsInForce
    · left
      exact ⟨hempty, hmem, by rw [if_pos (List.mem_toFinset.mpr hmem)]⟩
    · right
      have hnodup : (s.topicsInForce ++ [topic]).Nodup := by
        simpa using (nodup_topicsInForce h).concat hmem
      have hset : insert topic s.topicsInForce.toFinset = (s.topicsInForce ++ [topic]).toFinset := by
        ext other
        simp
      refine ⟨hempty, hmem, ?_⟩
      rw [if_neg (by simpa using hmem), hset, dropOldest_eq hnodup, note_of_not_mem hmem]

@[simp] theorem onMessage_observed_topics (s : ChimeService) (topic : Bytes) (persists : Bool) :
    (s.onMessage topic persists).observed_topics =
      (s.recordObservedTopic topic persists).observed_topics := by
  simp only [onMessage]
  split <;> rfl

@[simp] theorem onMessage_observed_topics_set (s : ChimeService) (topic : Bytes)
    (persists : Bool) : (s.onMessage topic persists).observed_topics_set =
      (s.recordObservedTopic topic persists).observed_topics_set := by
  simp only [onMessage]
  split <;> rfl

@[simp] theorem onMessage_observed_topics_loaded (s : ChimeService) (topic : Bytes)
    (persists : Bool) : (s.onMessage topic persists).observed_topics_loaded =
      (s.recordObservedTopic topic persists).observed_topics_loaded := by
  simp only [onMessage]
  split <;> rfl

@[simp] theorem onMessage_observedTopicsFile (s : ChimeService) (topic : Bytes)
    (persists : Bool) : (s.onMessage topic persists).observedTopicsFile =
      (s.recordObservedTopic topic persists).observedTopicsFile := by
  simp only [onMessage]
  split <;> rfl

theorem topicsInForce_onMessage_eq (s : ChimeService) (topic : Bytes) (persists : Bool) :
    (s.onMessage topic persists).topicsInForce =
      (s.recordObservedTopic topic persists).topicsInForce := by
  simp [topicsInForce]

/-- Every message keeps the list and the set in step. -/
theorem Tracked.onMessage {s : ChimeService} (h : s.Tracked) (topic : Bytes) (persists : Bool) :
    (s.onMessage topic persists).Tracked := by
  have hrecord : (s.recordObservedTopic topic persists).Tracked := by
    obtain ⟨-, heq⟩ | ⟨-, -, heq⟩ | ⟨-, -, heq⟩ := recordObservedTopic_cases h topic persists
    · rw [heq]
      exact h
    · rw [heq]
      exact ⟨nodup_topicsInForce h, length_topicsInForce_le h, rfl⟩
    · rw [heq]
      exact ⟨nodup_note (nodup_topicsInForce h) topic,
        length_note_le (length_topicsInForce_le h) topic, rfl⟩
  constructor
  · simpa using hrecord.distinct
  · simpa using hrecord.bounded
  · simpa using hrecord.set_eq

/-- The topics in force after a message are the recent list after noting its topic. -/
theorem topicsInForce_onMessage {s : ChimeService} (h : s.Tracked) {topic : Bytes}
    (hne : topic ≠ []) (persists : Bool) :
    (s.onMessage topic persists).topicsInForce =
      note kMaxObservedTopics s.topicsInForce topic := by
  rw [topicsInForce_onMessage_eq]
  obtain ⟨hempty, -⟩ | ⟨-, hmem, heq⟩ | ⟨-, -, heq⟩ := recordObservedTopic_cases h topic persists
  · exact absurd hempty hne
  · rw [heq, note_of_mem hmem]
    rfl
  · rw [heq]
    rfl

theorem onMessage_loaded {s : ChimeService} (h : s.Tracked) {topic : Bytes} (hne : topic ≠ [])
    (persists : Bool) : (s.onMessage topic persists).observed_topics_loaded = true := by
  rw [onMessage_observed_topics_loaded]
  obtain ⟨hempty, -⟩ | ⟨-, -, heq⟩ | ⟨-, -, heq⟩ := recordObservedTopic_cases h topic persists
  · exact absurd hempty hne
  · rw [heq]
  · rw [heq]

/-! ## 4. Runs -/

/-- A message, and whether the topics file can be written when it comes. -/
structure Message where
  topic : Bytes
  persists : Bool

/-- What happens to the daemon: a message, or it is killed and started again. -/
inductive Event where
  | message (m : Message)
  | restart

def start (config : ChimeConfig) (file : Option Bytes) : ChimeService :=
  { config, observedTopicsFile := file }

def step (s : ChimeService) : Event → ChimeService
  | .message m => s.onMessage m.topic m.persists
  | .restart => start s.config s.observedTopicsFile

def run (s : ChimeService) (events : List Event) : ChimeService := events.foldl step s

/-- The topics that are discovered in a run, in order. -/
def discoveries (s : ChimeService) : List Event → List Bytes
  | [] => []
  | .message m :: events =>
      if s.Discovers m.topic then m.topic :: discoveries (s.step (.message m)) events
      else discoveries (s.step (.message m)) events
  | .restart :: events => discoveries (s.step .restart) events

theorem run_cons (s : ChimeService) (e : Event) (events : List Event) :
    s.run (e :: events) = (s.step e).run events := rfl

theorem run_concat (s : ChimeService) (events : List Event) (e : Event) :
    s.run (events ++ [e]) = (s.run events).step e := by
  simp [run]

theorem tracked_start (config : ChimeConfig) (file : Option Bytes) : (start config file).Tracked :=
  ⟨List.nodup_nil, Nat.zero_le _, rfl⟩

theorem Tracked.step {s : ChimeService} (h : s.Tracked) (e : Event) : (s.step e).Tracked := by
  cases e with
  | message m => exact h.onMessage m.topic m.persists
  | restart => exact tracked_start s.config s.observedTopicsFile

theorem Tracked.run {s : ChimeService} (h : s.Tracked) (events : List Event) :
    (s.run events).Tracked := by
  induction events generalizing s with
  | nil => exact h
  | cons e events ih => exact ih (h.step e)

theorem getLast?_topicsInForce_onMessage {s : ChimeService} (h : s.Tracked) (topic : Bytes)
    (persists : Bool) :
    (s.onMessage topic persists).topicsInForce.getLast? =
      if s.Discovers topic then some topic else s.topicsInForce.getLast? := by
  by_cases hne : topic = []
  · subst hne
    have hsame : s.recordObservedTopic [] persists = s := if_pos rfl
    rw [topicsInForce_onMessage_eq, hsame, if_neg (fun hd => hd.1 rfl)]
  · rw [topicsInForce_onMessage h hne]
    by_cases hmem : topic ∈ s.topicsInForce
    · rw [note_of_mem hmem, if_neg]
      rw [discovers_iff h]
      intro hd
      exact hd.2 hmem
    · rw [note_of_not_mem hmem, if_pos ((discovers_iff h topic).mpr ⟨hne, hmem⟩)]
      exact getLast?_newest_concat (by decide) _ _

/-- Without restarts the last topic in force is the one that was discovered last. -/
theorem getLast?_topicsInForce_run {s : ChimeService} (h : s.Tracked) (messages : List Message) :
    (s.run (messages.map .message)).topicsInForce.getLast? =
      (s.discoveries (messages.map .message)).getLast?.or s.topicsInForce.getLast? := by
  induction messages generalizing s with
  | nil => rfl
  | cons m messages ih =>
    have hlast := getLast?_topicsInForce_onMessage h m.topic m.persists
    have hrest := ih (h.step (.message m))
    rw [List.map_cons, run_cons, hrest, discoveries, step, hlast]
    by_cases hd : s.Discovers m.topic
    · rw [if_pos hd, if_pos hd, List.getLast?_cons]
      cases (discoveries (s.onMessage m.topic m.persists) (messages.map .message)).getLast? <;> rfl
    · rw [if_neg hd, if_neg hd]

theorem loaded_onMessage {s : ChimeService} (h : s.Tracked) (topic : Bytes) (persists : Bool)
    (hread : s.observed_topics_loaded = true ∨ s.Discovers topic) :
    (s.onMessage topic persists).observed_topics_loaded = true := by
  by_cases hne : topic = []
  · subst hne
    have hsame : s.recordObservedTopic [] persists = s := if_pos rfl
    rw [onMessage_observed_topics_loaded, hsame]
    exact hread.resolve_right fun hd => hd.1 rfl
  · exact onMessage_loaded h hne persists

theorem loaded_run {s : ChimeService} (h : s.Tracked) (messages : List Message)
    (hread : s.observed_topics_loaded = true ∨ s.discoveries (messages.map .message) ≠ []) :
    (s.run (messages.map .message)).observed_topics_loaded = true := by
  induction messages generalizing s with
  | nil => exact hread.resolve_right fun hne => hne rfl
  | cons m messages ih =>
    apply ih (h.step (.message m))
    by_cases hnow : s.observed_topics_loaded = true ∨ s.Discovers m.topic
    · exact Or.inl (loaded_onMessage h m.topic m.persists hnow)
    · right
      rw [not_or] at hnow
      have hlater := hread.resolve_left hnow.1
      rwa [List.map_cons, discoveries, if_neg hnow.2] at hlater

/-- The topic that was discovered last is at the end of the list. -/
theorem getLast?_observed_topics_run {s : ChimeService} (h : s.Tracked) (messages : List Message)
    {topic : Bytes} (hlast : (s.discoveries (messages.map .message)).getLast? = some topic) :
    (s.run (messages.map .message)).observed_topics.getLast? = some topic := by
  have hne : s.discoveries (messages.map .message) ≠ [] := fun hnil => by simp [hnil] at hlast
  have hforce := getLast?_topicsInForce_run h messages
  rw [topicsInForce, if_pos (loaded_run h messages (Or.inr hne)), hlast] at hforce
  exact hforce

/-! ## 5. Restarts -/

/-- A topic that is one line, in a message that reaches the file; or a restart. -/
def Event.IsKept : Event → Prop
  | .message m => IsLineTopic m.topic ∧ m.persists = true
  | .restart => True

def Event.topic? : Event → Option Bytes
  | .message m => some m.topic
  | .restart => none

/-- The run without its restarts. -/
def uninterrupted (events : List Event) : List Event :=
  events.filter fun e => e.topic?.isSome

/-- The file gives the topics in force back. -/
structure Recoverable (s : ChimeService) : Prop where
  tracked : s.Tracked
  lines : ∀ t ∈ s.topicsInForce, IsLineTopic t
  file : newest kMaxObservedTopics (firsts (listedTopics s.observedTopicsFile)) = s.topicsInForce

/-- The file lists just the topics in force. -/
def Written (s : ChimeService) : Prop := firsts (listedTopics s.observedTopicsFile) = s.topicsInForce

theorem topicsInForce_start (config : ChimeConfig) (file : Option Bytes) :
    (start config file).topicsInForce =
      newest kMaxObservedTopics (firsts (listedTopics file)) := by
  rw [topicsInForce]
  exact if_neg (by simp [start])

theorem recoverable_start (config : ChimeConfig) (file : Option Bytes) :
    (start config file).Recoverable := by
  constructor
  · exact tracked_start config file
  · intro t ht
    rw [topicsInForce_start] at ht
    exact isLineTopic_of_mem_listedTopics (mem_of_mem_firsts ((newest_sublist _ _).subset ht))
  · exact (topicsInForce_start config file).symm

theorem Recoverable.restart {s : ChimeService} (h : s.Recoverable) :
    (s.step .restart).topicsInForce = s.topicsInForce :=
  (topicsInForce_start s.config s.observedTopicsFile).trans h.file

/-- A message that is written leaves a file that gives the list back, and nothing but the list
if the message discovers its topic or the file was so before. -/
theorem Recoverable.message {s : ChimeService} (h : s.Recoverable) {topic : Bytes}
    (hline : IsLineTopic topic) :
    (s.onMessage topic true).Recoverable ∧
      (s.Written ∨ s.Discovers topic → (s.onMessage topic true).Written) := by
  have htracked := h.tracked.onMessage topic true
  have hlines : ∀ t ∈ note kMaxObservedTopics s.topicsInForce topic, IsLineTopic t := by
    intro t ht
    rcases mem_of_mem_note ht with ht | rfl
    · exact h.lines t ht
    · exact hline
  have hforce := topicsInForce_onMessage h.tracked hline.nonempty true
  obtain ⟨hempty, -⟩ | ⟨-, hmem, heq⟩ | ⟨-, hmem, heq⟩ :=
    recordObservedTopic_cases h.tracked topic true
  · exact absurd hempty hline.nonempty
  · have hfile : (s.onMessage topic true).observedTopicsFile = s.observedTopicsFile := by
      rw [onMessage_observedTopicsFile, heq]
    rw [note_of_mem hmem] at hforce
    constructor
    · exact ⟨htracked, by rw [hforce]; exact h.lines, by rw [hfile, hforce, h.file]⟩
    · intro hwas
      rw [Written, hfile, hforce]
      apply hwas.resolve_right
      rw [discovers_iff h.tracked]
      intro hd
      exact hd.2 hmem
  · have hwritten : (s.onMessage topic true).Written := by
      rw [Written, hforce, onMessage_observedTopicsFile, heq, if_pos rfl,
        listedTopics_joinLines hlines]
      exact firsts_eq_self (nodup_note (nodup_topicsInForce h.tracked) topic)
    constructor
    · refine ⟨htracked, by rwa [hforce], ?_⟩
      rw [hwritten]
      exact newest_eq_self (length_topicsInForce_le htracked)
    · intro _
      exact hwritten

theorem Recoverable.step {s : ChimeService} (h : s.Recoverable) {e : Event} (he : e.IsKept) :
    (s.step e).Recoverable := by
  cases e with
  | message m =>
    rw [ChimeService.step, he.2]
    exact (h.message he.1).1
  | restart => exact recoverable_start s.config s.observedTopicsFile

theorem Recoverable.run {s : ChimeService} (h : s.Recoverable) {events : List Event}
    (he : ∀ e ∈ events, e.IsKept) : (s.run events).Recoverable := by
  induction events generalizing s with
  | nil => exact h
  | cons e events ih =>
    exact ih (h.step (he e (List.mem_cons_self ..))) fun e hmem => he e (List.mem_cons_of_mem _ hmem)

/-- The topics in force are those that noting the topics of the messages gives, whether the
daemon is restarted or not. -/
theorem Recoverable.topicsInForce_run {s : ChimeService} (h : s.Recoverable)
    {events : List Event} (he : ∀ e ∈ events, e.IsKept) :
    (s.run events).topicsInForce =
      (events.filterMap Event.topic?).foldl (note kMaxObservedTopics) s.topicsInForce := by
  induction events generalizing s with
  | nil => rfl
  | cons e events ih =>
    have hkept : e.IsKept := he e (List.mem_cons_self ..)
    rw [run_cons, ih (h.step hkept) fun e hmem => he e (List.mem_cons_of_mem _ hmem)]
    cases e with
    | message m =>
      rw [ChimeService.step, topicsInForce_onMessage h.tracked hkept.1.nonempty]
      rfl
    | restart =>
      rw [h.restart]
      rfl

theorem Recoverable.written_run {s : ChimeService} (h : s.Recoverable) {events : List Event}
    (he : ∀ e ∈ events, e.IsKept) (hw : s.Written ∨ s.discoveries events ≠ []) :
    (s.run events).Written := by
  induction events generalizing s with
  | nil => exact hw.resolve_right fun hne => hne rfl
  | cons e events ih =>
    have hkept : e.IsKept := he e (List.mem_cons_self ..)
    apply ih (h.step hkept) fun e hmem => he e (List.mem_cons_of_mem _ hmem)
    cases e with
    | message m =>
      by_cases hnow : s.Written ∨ s.Discovers m.topic
      · left
        rw [ChimeService.step, hkept.2]
        exact (h.message hkept.1).2 hnow
      · right
        rw [not_or] at hnow
        have hlater := hw.resolve_left hnow.1
        rwa [discoveries, if_neg hnow.2] at hlater
    | restart =>
      apply hw.imp_left
      intro hwritten
      exact hwritten.trans h.restart.symm

theorem filterMap_uninterrupted (events : List Event) :
    (uninterrupted events).filterMap Event.topic? = events.filterMap Event.topic? := by
  induction events with
  | nil => rfl
  | cons e events ih =>
    cases e with
    | message m => exact congrArg (m.topic :: ·) ih
    | restart => exact ih

theorem uninterrupted_concat (events : List Event) (m : Message) :
    uninterrupted (events ++ [.message m]) = uninterrupted events ++ [.message m] := by
  simp [uninterrupted, Event.topic?]

theorem observed_topics_run_concat {s : ChimeService} (h : s.Recoverable) {events : List Event}
    {m : Message} (he : ∀ e ∈ events ++ [.message m], e.IsKept) :
    (s.run (events ++ [.message m])).observed_topics =
      (s.run (events ++ [.message m])).topicsInForce := by
  have hbefore : (s.run events).Recoverable :=
    h.run fun e hmem => he e (List.mem_append_left _ hmem)
  have hline : IsLineTopic m.topic := (he (.message m) (by simp)).1
  rw [run_concat, topicsInForce]
  exact (if_pos (onMessage_loaded hbefore.tracked hline.nonempty m.persists)).symm

/-- The list has no repetitions, is bounded, agrees with the set and ends with the topic
discovered last.  Where the topics are lines and are written, restarts make no difference after
the next message, and the console reads the list itself once a topic has been discovered. -/
theorem observed_topics_kept (config : ChimeConfig) (file : Option Bytes) :
    (∀ messages : List Message,
      let s := (start config file).run (messages.map .message)
      s.observed_topics.Nodup ∧ s.observed_topics.length ≤ kMaxObservedTopics ∧
        (∀ topic, topic ∈ s.observed_topics_set ↔ topic ∈ s.observed_topics) ∧
        ∀ topic, ((start config file).discoveries (messages.map .message)).getLast? = some topic →
          s.observed_topics.getLast? = some topic) ∧
    ∀ (events : List Event) (m : Message), (∀ e ∈ events ++ [.message m], e.IsKept) →
      let s := (start config file).run (events ++ [.message m])
      s.observed_topics =
        ((start config file).run (uninterrupted (events ++ [.message m]))).observed_topics ∧
      ((start config file).discoveries (events ++ [.message m]) ≠ [] →
        Webd.readObservedTopics s.observedTopicsFile = s.observed_topics) := by
  constructor
  · intro messages s
    have htracked : s.Tracked := (tracked_start config file).run _
    exact ⟨htracked.distinct, htracked.bounded, htracked.mem_set_iff,
      fun _ => getLast?_observed_topics_run (tracked_start config file) messages⟩
  · intro events m he s
    have hstart := recoverable_start config file
    have hlist : s.observed_topics = s.topicsInForce := observed_topics_run_concat hstart he
    constructor
    · have he' : ∀ e ∈ uninterrupted events ++ [.message m], e.IsKept := by
        rw [← uninterrupted_concat]
        intro e hmem
        exact he e (List.mem_of_mem_filter hmem)
      rw [hlist, hstart.topicsInForce_run he, uninterrupted_concat,
        observed_topics_run_concat hstart he', hstart.topicsInForce_run he',
        ← uninterrupted_concat, filterMap_uninterrupted]
    · intro hd
      rw [hlist, readObservedTopics_eq]
      exact hstart.written_run he (Or.inr hd)

theorem observed_topics_kept_doorbell :
    let m : Message := ⟨bytes "home/bell", true⟩
    let s := (start {} none).run [.restart, .message m]
    s.observed_topics = [bytes "home/bell"] ∧
      Webd.readObservedTopics s.observedTopicsFile = [bytes "home/bell"] := by
  have hkept : ∀ e ∈ [Event.restart] ++ [.message ⟨bytes "home/bell", true⟩], e.IsKept := by
    intro e he
    rcases List.mem_cons.mp he with rfl | he
    · trivial
    · obtain rfl := List.mem_singleton.mp he
      exact ⟨⟨by decide, by decide, by decide +kernel⟩, rfl⟩
  obtain ⟨hsame, hread⟩ := (observed_topics_kept {} none).2 [.restart] ⟨bytes "home/bell", true⟩ hkept
  have hlist : ((start {} none).run (uninterrupted
      ([.restart] ++ [.message ⟨bytes "home/bell", true⟩]))).observed_topics =
        [bytes "home/bell"] := by decide +kernel
  intro m s
  refine ⟨hsame.trans hlist, (hread ?_).trans (hsame.trans hlist)⟩
  decide +kernel

end ChimeService

end VirtualChime
