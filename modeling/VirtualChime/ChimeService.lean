import VirtualChime.ChimeConfig
import VirtualChime.Library.TopicFilter
import Mathlib.Data.Finset.Basic

/-!
# The daemon's MQTT callbacks

`OnConnect`, `OnMessage` and the matching of `ring_topic`, with the list of observed
topics that `OnMessage` keeps.  What the daemon asks of the MQTT client and of the
audio player is recorded in the order of the calls.
-/

namespace VirtualChime

open TopicFilter

/-! ## 1. Topic filters -/

abbrev plus : Byte := 43

def mqtt : Alphabet Byte where
  separator := slash
  single := plus
  multi := hash
  reserved := 36
  admits s := 0 ∉ s ∧ s.length ≤ 65535 ∧ ByteArray.IsValidUTF8 ⟨s.toArray⟩

instance (s : Bytes) : Decidable (mqtt.admits s) := inferInstanceAs (Decidable (_ ∧ _ ∧ _))

def splitTopic (topic : Bytes) : List Bytes :=
  match _hcut : Scanner.cut slash topic with
  | none => [topic]
  | some (level, rest) => if rest = [] then [level, []] else level :: splitTopic rest
termination_by topic.length
decreasing_by
  rw [(Scanner.cut_eq_some_iff.mp _hcut).1, List.length_append, List.length_cons]
  omega

/-- The loop of `TopicMatchesFilter` over the levels that are left. -/
def matchLevels : List Bytes → List Bytes → Bool
  | [], topic_levels => topic_levels.isEmpty
  | filter_level :: filter_levels, topic_levels =>
      if filter_level = [hash] then filter_levels.isEmpty
      else match topic_levels with
        | [] => false
        | topic_level :: topic_levels =>
            if filter_level ≠ [plus] ∧ filter_level ≠ topic_level then false
            else matchLevels filter_levels topic_levels

def topicMatchesFilter (filter topic : Bytes) : Bool :=
  matchLevels (splitTopic filter) (splitTopic topic)

theorem splitTopic_eq (topic : Bytes) : splitTopic topic = mqtt.levels topic := by
  induction topic using splitTopic.induct with
  | case1 topic hcut =>
    rw [splitTopic.eq_def]
    split
    · exact (List.splitOn_eq_singleton (Scanner.cut_eq_none_iff.mp hcut)).symm
    · next hsome =>
      rw [hcut] at hsome
      cases hsome
  | case2 topic level hcut =>
    obtain ⟨rfl, hlevel⟩ := Scanner.cut_eq_some_iff.mp hcut
    have hlevels : mqtt.levels (level ++ [slash]) = [level, []] :=
      List.splitOn_append_cons_self_of_not_mem hlevel []
    rw [splitTopic, hcut]
    simp [hlevels]
  | case3 topic level rest hcut hrest ih =>
    obtain ⟨rfl, hlevel⟩ := Scanner.cut_eq_some_iff.mp hcut
    have hlevels : mqtt.levels (level ++ slash :: rest) = level :: mqtt.levels rest :=
      List.splitOn_append_cons_self_of_not_mem hlevel rest
    rw [splitTopic, hcut, hlevels, ← ih]
    simp [hrest]

theorem matchLevels_eq_true_iff {filter_levels topic_levels : List Bytes} :
    matchLevels filter_levels topic_levels = true ↔ mqtt.Matches filter_levels topic_levels := by
  induction filter_levels generalizing topic_levels with
  | nil =>
    rw [matchLevels, List.isEmpty_iff]
    constructor
    · rintro rfl
      exact .nil
    · intro h
      cases h
      rfl
  | cons filter_level filter_levels ih =>
    rw [matchLevels.eq_def]
    dsimp only
    split
    · next hmulti =>
      subst hmulti
      rw [List.isEmpty_iff]
      constructor
      · rintro rfl
        exact .multi
      · intro h
        cases h with
        | name _ hne => exact absurd rfl hne
        | multi => rfl
    · next hmulti =>
      cases topic_levels with
      | nil =>
        refine ⟨nofun, fun h => ?_⟩
        cases h
        exact absurd rfl hmulti
      | cons topic_level topic_levels =>
        dsimp only
        by_cases hsingle : filter_level = [plus]
        · subst hsingle
          rw [if_neg (by simp), ih]
          constructor
          · exact .single
          · intro h
            cases h with
            | name hne => exact absurd rfl hne
            | single rest => exact rest
        · by_cases hname : filter_level = topic_level
          · subst hname
            rw [if_neg (by simp), ih]
            constructor
            · exact .name hsingle hmulti
            · intro h
              cases h with
              | name _ _ rest => exact rest
              | single => exact absurd rfl hsingle
              | multi => exact absurd rfl hmulti
          · rw [if_pos ⟨hsingle, hname⟩]
            refine ⟨nofun, fun h => ?_⟩
            cases h with
            | name => exact absurd rfl hname
            | single => exact absurd rfl hsingle
            | multi => exact absurd rfl hmulti

instance (filter_levels topic_levels : List Bytes) :
    Decidable (mqtt.Matches filter_levels topic_levels) :=
  decidable_of_iff _ matchLevels_eq_true_iff

/-- The matcher compares level by level; it makes no exception for reserved names. -/
theorem topicMatchesFilter_iff {filter topic : Bytes} :
    topicMatchesFilter filter topic = true ↔
      mqtt.Matches (mqtt.levels filter) (mqtt.levels topic) := by
  rw [topicMatchesFilter, matchLevels_eq_true_iff, splitTopic_eq, splitTopic_eq]

/-- The matcher is right unless a wildcard in front of the filter meets a name that starts with
`$` and that the levels match. -/
theorem ring_topic_selects_iff (filter topic : Bytes) :
    (topicMatchesFilter filter topic = true ↔ mqtt.Selects filter topic) ↔
      ¬ (topic.head? = some mqtt.reserved ∧ mqtt.StartsWild filter ∧
        mqtt.Matches (mqtt.levels filter) (mqtt.levels topic)) := by
  rw [topicMatchesFilter_iff, Alphabet.Selects]
  constructor
  · rintro h ⟨hreserved, hwild, hmatches⟩
    exact (h.mp hmatches).2 hreserved hwild
  · intro h
    constructor
    · intro hmatches
      exact ⟨hmatches, fun hreserved hwild => h ⟨hreserved, hwild, hmatches⟩⟩
    · exact And.left

/-- The filter `#` takes a topic of the broker itself, which a broker does not send for it. -/
theorem ring_topic_reserved :
    mqtt.WellFormed (bytes "#") ∧ mqtt.IsName (bytes "$SYS/uptime") ∧
      topicMatchesFilter (bytes "#") (bytes "$SYS/uptime") = true ∧
      ¬ mqtt.Selects (bytes "#") (bytes "$SYS/uptime") ∧
      ¬ mqtt.Denotes (bytes "#") (bytes "$SYS/uptime") := by
  have hselects : ¬ mqtt.Selects (bytes "#") (bytes "$SYS/uptime") := by
    rintro ⟨-, hreserved⟩
    exact hreserved rfl (Or.inr rfl)
  refine ⟨⟨by decide +kernel, by decide, ?_, by decide +kernel⟩,
    ⟨by decide +kernel, by decide, by decide, by decide⟩, ?_, hselects, ?_⟩
  · decide +kernel
  · rw [topicMatchesFilter_iff]
    exact .multi
  · intro h
    exact hselects h.selects

/-! ## 2. The service -/

structure ChimeService where
  config : ChimeConfig
  mqtt_connected : Bool := false
  observed_topics : List Bytes := []
  observed_topics_set : Finset Bytes := ∅
  observed_topics_loaded : Bool := false
  -- the file at `kObservedTopicsPath`, if it can be opened
  observedTopicsFile : Option Bytes := none
  -- the calls of `mosquitto_subscribe`, with the quality of service asked for
  subscribed : List (Bytes × Int) := []
  -- the calls of `audio_player_.Play`, with the volume
  played : List (Bytes × Int) := []

namespace ChimeService

def kMaxObservedTopics : Nat := 256

/-- The loop that drops the oldest topics while there are too many. -/
def dropOldest : List Bytes → Finset Bytes → List Bytes × Finset Bytes
  | [], set => ([], set)
  | oldest :: topics, set =>
      if (oldest :: topics).length > kMaxObservedTopics then dropOldest topics (set.erase oldest)
      else (oldest :: topics, set)

def loadTopic (loaded : List Bytes × Finset Bytes) (line : Bytes) : List Bytes × Finset Bytes :=
  let topic := trim line
  if topic = [] ∨ topic ∈ loaded.2 then loaded
  else (loaded.1 ++ [topic], insert topic loaded.2)

def loadObservedTopics (s : ChimeService) : ChimeService :=
  let lines := (s.observedTopicsFile.map getlines).getD []
  let loaded := lines.foldl loadTopic ([], ∅)
  let kept := dropOldest loaded.1 loaded.2
  { s with
    observed_topics_loaded := true, observed_topics := kept.1, observed_topics_set := kept.2 }

/-- `RecordObservedTopic`; `persists` is whether `PersistObservedTopics` succeeds, which otherwise
leaves the file as it is. -/
def recordObservedTopic (s : ChimeService) (topic : Bytes) (persists : Bool) : ChimeService :=
  if topic = [] then s
  else
    let s := if s.observed_topics_loaded then s else s.loadObservedTopics
    if topic ∈ s.observed_topics_set then s
    else
      let kept := dropOldest (s.observed_topics ++ [topic]) (insert topic s.observed_topics_set)
      { s with
        observed_topics := kept.1
        observed_topics_set := kept.2
        observedTopicsFile :=
          if persists then some (Scanner.joinLines newline kept.1) else s.observedTopicsFile }

def onConnect (s : ChimeService) (rc : Int) : ChimeService :=
  if rc ≠ 0 then { s with mqtt_connected := false }
  else
    { s with
      mqtt_connected := true
      subscribed := s.subscribed ++
        s.config.topics.map fun topic => (cStr topic, s.config.mqtt_subscribe_qos) }

def ringTopicMatches (s : ChimeService) (message_topic : Bytes) : Bool :=
  topicMatchesFilter s.config.ring_topic message_topic

/-- `OnMessage`, for a message on `topic`. -/
def onMessage (s : ChimeService) (topic : Bytes) (persists : Bool) : ChimeService :=
  let s := s.recordObservedTopic topic persists
  if s.config.audio_enabled && s.ringTopicMatches topic then
    { s with played := s.played ++ [(s.config.sound_path, s.config.volume_bell)] }
  else s

/-- Recording a topic changes the record of observed topics only. -/
theorem recordObservedTopic_eq (s : ChimeService) (topic : Bytes) (persists : Bool) :
    ∃ topics set loaded file, s.recordObservedTopic topic persists =
      { s with
        observed_topics := topics
        observed_topics_set := set
        observed_topics_loaded := loaded
        observedTopicsFile := file } := by
  simp only [recordObservedTopic]
  split
  · exact ⟨_, _, _, _, rfl⟩
  · split
    · split
      · exact ⟨_, _, _, _, rfl⟩
      · exact ⟨_, _, _, _, rfl⟩
    · split
      · exact ⟨_, _, _, _, rfl⟩
      · exact ⟨_, _, _, _, rfl⟩

@[simp] theorem recordObservedTopic_config (s : ChimeService) (topic : Bytes) (persists : Bool) :
    (s.recordObservedTopic topic persists).config = s.config := by
  obtain ⟨_, _, _, _, h⟩ := s.recordObservedTopic_eq topic persists
  rw [h]

@[simp] theorem recordObservedTopic_subscribed (s : ChimeService) (topic : Bytes)
    (persists : Bool) : (s.recordObservedTopic topic persists).subscribed = s.subscribed := by
  obtain ⟨_, _, _, _, h⟩ := s.recordObservedTopic_eq topic persists
  rw [h]

@[simp] theorem recordObservedTopic_played (s : ChimeService) (topic : Bytes) (persists : Bool) :
    (s.recordObservedTopic topic persists).played = s.played := by
  obtain ⟨_, _, _, _, h⟩ := s.recordObservedTopic_eq topic persists
  rw [h]

@[simp] theorem onMessage_config (s : ChimeService) (topic : Bytes) (persists : Bool) :
    (s.onMessage topic persists).config = s.config := by
  simp only [onMessage]
  split <;> simp

@[simp] theorem onMessage_subscribed (s : ChimeService) (topic : Bytes) (persists : Bool) :
    (s.onMessage topic persists).subscribed = s.subscribed := by
  simp only [onMessage]
  split <;> simp

theorem onMessage_played (s : ChimeService) (topic : Bytes) (persists : Bool) :
    (s.onMessage topic persists).played =
      if s.config.audio_enabled = true ∧
        mqtt.Matches (mqtt.levels s.config.ring_topic) (mqtt.levels topic)
      then s.played ++ [(s.config.sound_path, s.config.volume_bell)] else s.played := by
  simp only [onMessage]
  rw [ringTopicMatches, recordObservedTopic_config]
  by_cases h : s.config.audio_enabled = true ∧
      mqtt.Matches (mqtt.levels s.config.ring_topic) (mqtt.levels topic)
  · rw [if_pos h, if_pos (by rw [Bool.and_eq_true, topicMatchesFilter_iff]; exact h),
      recordObservedTopic_played]
  · rw [if_neg h, if_neg (by rw [Bool.and_eq_true, topicMatchesFilter_iff]; exact h),
      recordObservedTopic_played]

end ChimeService

end VirtualChime
