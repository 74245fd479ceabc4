import VirtualChime.ChimeService
import VirtualChime.SaveRoundTrip

/-!
# When the bell rings

The daemon subscribes to `mqtt_topics` and rings on what `ring_topic` matches.  The
two are saved side by side and nothing compares them: a message rings the bell if
it matches `ring_topic` and also one of the subscribed filters
(`rings_on_denoted_topics`).  A ring topic outside the subscriptions is accepted and
never rings (`ring_topic_not_subscribed`).
-/

namespace VirtualChime

open Webd

namespace ChimeService

/-- The broker grants the well-formed filters and delivers what a granted one denotes. -/
def Receives (s : ChimeService) (topic : Bytes) : Prop :=
  ∃ call ∈ s.subscribed, mqtt.Denotes call.1 topic

/-- The daemon is started, the broker accepts its connection, and messages arrive. -/
def runsOn (config : ChimeConfig) (observedTopicsFile : Option Bytes)
    (messages : List (Bytes × Bool)) : ChimeService :=
  messages.foldl (fun s message => s.onMessage message.1 message.2)
    (onConnect { config, observedTopicsFile } 0)

variable {config : ChimeConfig} {file : Option Bytes} {messages : List (Bytes × Bool)}

/-- What a message leaves alone is after any messages what it was when they began. -/
theorem runsOn_keeps {β : Type} (part : ChimeService → β)
    (keeps : ∀ s topic persists, part (onMessage s topic persists) = part s) :
    part (runsOn config file messages) =
      part (onConnect { config, observedTopicsFile := file } 0) := by
  have hrun : ∀ s : ChimeService,
      part (messages.foldl (fun s message => s.onMessage message.1 message.2) s) = part s := by
    induction messages with
    | nil =>
      intro s
      rfl
    | cons message messages ih =>
      intro s
      exact (ih _).trans (keeps s _ _)
  exact hrun _

theorem runsOn_config : (runsOn config file messages).config = config :=
  runsOn_keeps ChimeService.config onMessage_config

theorem runsOn_subscribed : (runsOn config file messages).subscribed =
    config.topics.map fun topic => (cStr topic, config.mqtt_subscribe_qos) :=
  runsOn_keeps ChimeService.subscribed onMessage_subscribed

theorem receives_runsOn_iff {topic : Bytes} : (runsOn config file messages).Receives topic ↔
    ∃ filter ∈ config.topics, mqtt.Denotes (cStr filter) topic := by
  rw [Receives, runsOn_subscribed]
  simp

end ChimeService

open ChimeService

theorem cStr_of_wellFormed {filter : Bytes} (h : mqtt.WellFormed filter) : cStr filter = filter := by
  apply List.takeWhile_eq_self_iff.mpr
  intro c hc
  have hne : c ≠ 0 := by
    rintro rfl
    exact h.admitted.1 hc
  simpa using hne

/-- After a save that the daemon loads, with audio enabled: a message on a topic that `ring_topic`
denotes plays the bell sound, and arrives exactly when a saved topic is a filter for it, as it is
when `ring_topic` is one of them.  The saved topics are the requested ones, for requests in the
form the web page sends. -/
theorem rings_on_denoted_topics (store : ConfigStore) (request : SaveRequest) (faults : SaveFaults)
    (disk : Disk) (path : Bytes) (config : ChimeConfig)
    (saved : (saveCoreConfig store request faults disk).1.success = true)
    (loads : loadConfig path (saveCoreConfig store request faults disk).2.chime_config =
      { success := true, config := config, error := [] })
    (audio : config.audio_enabled = true) :
    (OneLineRequest request → config.topics = request.config.mqtt_topics ∧
      config.ring_topic = request.config.ring_topic) ∧
    ∀ file messages topic, mqtt.Denotes config.ring_topic topic →
      (∀ persists, ((runsOn config file messages).onMessage topic persists).played =
        (runsOn config file messages).played ++ [(config.sound_path, config.volume_bell)]) ∧
      ((runsOn config file messages).Receives topic ↔
        ∃ filter ∈ config.topics, mqtt.Denotes (cStr filter) topic) ∧
      (config.ring_topic ∈ config.topics → (runsOn config file messages).Receives topic) := by
  constructor
  · intro oneLine
    have hruns := daemonRuns_of_save oneLine saved path
    rw [loads] at hruns
    exact ⟨hruns.topics, hruns.ring_topic⟩
  · intro file messages topic hring
    refine ⟨fun persists => ?_, receives_runsOn_iff, fun hmem => ?_⟩
    · rw [onMessage_played, runsOn_config, if_pos ⟨audio, hring.levels⟩]
    · rw [receives_runsOn_iff]
      refine ⟨config.ring_topic, hmem, ?_⟩
      rw [cStr_of_wellFormed hring.wellFormed]
      exact hring

def requestA (ring_topic : Bytes) : SaveRequest :=
  { sampleRequest with
    config := { sampleRequest.config with mqtt_topics := [bytes "a"], ring_topic } }

def configA (ring_topic : Bytes) : ChimeConfig :=
  (loadConfig [] (saveCoreConfig {} (requestA ring_topic) {} sampleDisk).2.chime_config).config

theorem rings_on_denoted_topics_sample :
    (runsOn (configA (bytes "a")) none []).Receives (bytes "a") := by
  have hloaded : (saveCoreConfig {} (requestA (bytes "a")) {} sampleDisk).1.success = true ∧
      loadConfig [] (saveCoreConfig {} (requestA (bytes "a")) {} sampleDisk).2.chime_config =
        { success := true, config := configA (bytes "a"), error := [] } ∧
      (configA (bytes "a")).audio_enabled = true ∧ (configA (bytes "a")).ring_topic = bytes "a" ∧
      (configA (bytes "a")).topics = [bytes "a"] := by
    decide +kernel
  obtain ⟨hsaved, hloads, haudio, hring, htopics⟩ := hloaded
  have hname : mqtt.IsName (bytes "a") := ⟨by decide +kernel, by decide, by decide, by decide⟩
  obtain ⟨-, hrings⟩ := rings_on_denoted_topics {} (requestA (bytes "a")) {} sampleDisk []
    (configA (bytes "a")) hsaved hloads haudio
  obtain ⟨-, -, hlisted⟩ := hrings none [] (bytes "a")
    (by rw [hring]; exact TopicFilter.Alphabet.Denotes.self hname)
  exact hlisted (by rw [hring, htopics]; exact List.mem_singleton_self _)

/-- With the ring topic `b`, the request is accepted, saved and loaded, and no message on `b`
arrives. -/
theorem ring_topic_not_subscribed :
    validateRequest (requestA (bytes "b")) = [] ∧
      (saveCoreConfig {} (requestA (bytes "b")) {} sampleDisk).1.success = true ∧
      loadConfig [] (saveCoreConfig {} (requestA (bytes "b")) {} sampleDisk).2.chime_config =
        { success := true, config := configA (bytes "b"), error := [] } ∧
      (configA (bytes "b")).audio_enabled = true ∧
      mqtt.Denotes (configA (bytes "b")).ring_topic (bytes "b") ∧
      ∀ file messages, ¬ (runsOn (configA (bytes "b")) file messages).Receives (bytes "b") := by
  have hloaded : validateRequest (requestA (bytes "b")) = [] ∧
      (saveCoreConfig {} (requestA (bytes "b")) {} sampleDisk).1.success = true ∧
      loadConfig [] (saveCoreConfig {} (requestA (bytes "b")) {} sampleDisk).2.chime_config =
        { success := true, config := configA (bytes "b"), error := [] } ∧
      (configA (bytes "b")).audio_enabled = true ∧ (configA (bytes "b")).ring_topic = bytes "b" ∧
      (configA (bytes "b")).topics = [bytes "a"] := by
    decide +kernel
  obtain ⟨hvalid, hsaved, hloads, haudio, hring, htopics⟩ := hloaded
  have hname : mqtt.IsName (bytes "b") := ⟨by decide +kernel, by decide, by decide, by decide⟩
  refine ⟨hvalid, hsaved, hloads, haudio, ?_, ?_⟩
  · rw [hring]
    exact TopicFilter.Alphabet.Denotes.self hname
  · intro file messages h
    obtain ⟨filter, hmem, hdenotes⟩ := receives_runsOn_iff.mp h
    rw [htopics, List.mem_singleton] at hmem
    subst hmem
    have hlevels : ¬ mqtt.Matches (mqtt.levels (cStr (bytes "a"))) (mqtt.levels (bytes "b")) := by
      decide
    exact hlevels hdenotes.levels

end VirtualChime
