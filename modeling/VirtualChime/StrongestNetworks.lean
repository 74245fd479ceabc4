import VirtualChime.CoreConfigApi
import VirtualChime.Library.KeepBest
import Mathlib.Data.List.Sort

/-!
# One network for each SSID

`DeduplicateStrongest`: an access point with several radios shows up several times in a
scan, and of the entries with one SSID only the strongest is shown.
-/

namespace VirtualChime.Webd

/-! ## 1. The source -/

/-- `std::sort` with the comparison of the source.  Where equal signals end up is its own
affair. -/
structure SignalSort where
  run : List WifiNetwork → List WifiNetwork
  perm : ∀ networks, (run networks).Perm networks
  sorted : ∀ networks, (run networks).Pairwise fun a b => b.signal_dbm ≤ a.signal_dbm

/-- The loop of the source for one network. -/
def keepStrongest (deduped : List (Bytes × WifiNetwork)) (network : WifiNetwork) :
    List (Bytes × WifiNetwork) :=
  if network.ssid = [] then deduped
  else KeyMap.keepOne keyBefore WifiNetwork.ssid WifiNetwork.signal_dbm deduped network

def deduplicateStrongest (sort : SignalSort) (input : List WifiNetwork) : List WifiNetwork :=
  sort.run ((input.foldl keepStrongest []).map Prod.snd)

/-! ## 2. The order of the keys -/

theorem keyBefore_irrefl (a : Bytes) : keyBefore a a = false :=
  decide_eq_false (List.lt_irrefl a)

theorem keyBefore_trans (a b c : Bytes) (hab : keyBefore a b = true)
    (hbc : keyBefore b c = true) : keyBefore a c = true := by
  rw [keyBefore, decide_eq_true_eq] at hab hbc ⊢
  exact List.lt_trans hab hbc

theorem keyBefore_total (a b : Bytes) (hne : a ≠ b) (hab : keyBefore a b = false) :
    keyBefore b a = true := by
  rw [keyBefore, decide_eq_false_iff_not, List.not_lt] at hab
  rw [keyBefore, decide_eq_true_eq]
  exact (List.le_iff_lt_or_eq.mp hab).resolve_right hne.symm

/-! ## 3. What is kept -/

/-- The first of the strongest entries with its SSID. -/
def IsFirstStrongest (input : List WifiNetwork) (network : WifiNetwork) : Prop :=
  ∃ before after, input = before ++ network :: after ∧
    (∀ other ∈ before, other.ssid = network.ssid → other.signal_dbm < network.signal_dbm) ∧
    ∀ other ∈ after, other.ssid = network.ssid → other.signal_dbm ≤ network.signal_dbm

theorem IsFirstStrongest.mem {input : List WifiNetwork} {network : WifiNetwork}
    (h : IsFirstStrongest input network) : network ∈ input := by
  obtain ⟨before, after, rfl, -, -⟩ := h
  simp

theorem IsFirstStrongest.signal_le {input : List WifiNetwork} {network other : WifiNetwork}
    (h : IsFirstStrongest input network) (hother : other ∈ input)
    (hssid : other.ssid = network.ssid) : other.signal_dbm ≤ network.signal_dbm := by
  obtain ⟨before, after, rfl, hbefore, hafter⟩ := h
  rcases List.mem_append.mp hother with hmem | hmem
  · exact (hbefore other hmem hssid).le
  · rcases List.mem_cons.mp hmem with rfl | hmem
    · exact le_rfl
    · exact hafter other hmem hssid

/-- It is the best of the entries with its SSID. -/
theorem argmax_eq_some_iff {input : List WifiNetwork} {network : WifiNetwork} :
    (input.filter fun other => other.ssid = network.ssid).argmax WifiNetwork.signal_dbm
      = some network ↔ IsFirstStrongest input network := by
  rw [KeyMap.argmax_eq_some_iff_first]
  constructor
  · rintro ⟨kept, rest, heq, hkept, hrest⟩
    obtain ⟨l, tail, rfl, rfl, htail⟩ := List.filter_eq_append_iff.mp heq
    obtain ⟨skipped, after, rfl, hskipped, -, rfl⟩ := List.filter_eq_cons_iff.mp htail
    refine ⟨l ++ skipped, after, by simp, ?_, ?_⟩
    · intro other hother hssid
      rcases List.mem_append.mp hother with hmem | hmem
      · exact hkept other (List.mem_filter.mpr ⟨hmem, decide_eq_true hssid⟩)
      · exact absurd (decide_eq_true hssid) (hskipped other hmem)
    · intro other hother hssid
      exact hrest other (List.mem_filter.mpr ⟨hother, decide_eq_true hssid⟩)
  · rintro ⟨before, after, rfl, hbefore, hafter⟩
    refine ⟨before.filter fun other => other.ssid = network.ssid,
      after.filter fun other => other.ssid = network.ssid, ?_, ?_, ?_⟩
    · rw [List.filter_append, List.filter_cons_of_pos (by simp)]
    · intro other hother
      obtain ⟨hmem, hssid⟩ := List.mem_filter.mp hother
      exact hbefore other hmem (of_decide_eq_true hssid)
    · intro other hother
      obtain ⟨hmem, hssid⟩ := List.mem_filter.mp hother
      exact hafter other hmem (of_decide_eq_true hssid)

theorem foldl_keepStrongest (input : List WifiNetwork) :
    input.foldl keepStrongest [] =
      KeyMap.keepBest keyBefore WifiNetwork.ssid WifiNetwork.signal_dbm
        (input.filter fun network => network.ssid ≠ []) := by
  rw [KeyMap.keepBest, List.foldl_filter]
  congr 1
  funext deduped network
  by_cases h : network.ssid = []
  · simp [keepStrongest, h]
  · simp [keepStrongest, h]

theorem nodup_foldl_keepStrongest (input : List WifiNetwork) :
    ((input.foldl keepStrongest []).map Prod.fst).Nodup := by
  rw [foldl_keepStrongest]
  exact (KeyMap.ordered_keepBest _ _ keyBefore_trans keyBefore_total _).nodup keyBefore_irrefl

theorem filter_named {ssid : Bytes} (hne : ssid ≠ []) (input : List WifiNetwork) :
    ((input.filter fun network => network.ssid ≠ []).filter fun network => network.ssid = ssid)
      = input.filter fun network => network.ssid = ssid := by
  rw [List.filter_filter]
  apply List.filter_congr
  intro network _
  by_cases h : network.ssid = ssid
  · simp [h, hne]
  · simp [h]

/-- An SSID and the network that is kept for it. -/
theorem mem_foldl_keepStrongest {input : List WifiNetwork} {ssid : Bytes} {network : WifiNetwork} :
    (ssid, network) ∈ input.foldl keepStrongest [] ↔
      ssid ≠ [] ∧ network.ssid = ssid ∧ IsFirstStrongest input network := by
  rw [KeyMap.mem_iff_get (nodup_foldl_keepStrongest input), foldl_keepStrongest,
    KeyMap.get_keepBest]
  constructor
  · intro h
    obtain ⟨hnamed, hssid⟩ := List.mem_filter.mp (List.argmax_mem h)
    have hssid : network.ssid = ssid := of_decide_eq_true hssid
    subst hssid
    have hne : network.ssid ≠ [] := of_decide_eq_true (List.mem_filter.mp hnamed).2
    rw [filter_named hne] at h
    exact ⟨hne, rfl, argmax_eq_some_iff.mp h⟩
  · rintro ⟨hne, rfl, hfirst⟩
    rw [filter_named hne]
    exact argmax_eq_some_iff.mpr hfirst

theorem mem_deduplicateStrongest {sort : SignalSort} {input : List WifiNetwork}
    {network : WifiNetwork} :
    network ∈ deduplicateStrongest sort input ↔
      network.ssid ≠ [] ∧ IsFirstStrongest input network := by
  rw [deduplicateStrongest, (sort.perm _).mem_iff, List.mem_map]
  constructor
  · rintro ⟨⟨ssid, kept⟩, hmem, rfl⟩
    obtain ⟨hne, rfl, hfirst⟩ := mem_foldl_keepStrongest.mp hmem
    exact ⟨hne, hfirst⟩
  · rintro ⟨hne, hfirst⟩
    exact ⟨(network.ssid, network), mem_foldl_keepStrongest.mpr ⟨hne, rfl, hfirst⟩, rfl⟩

/-! ## 4. The list that is shown -/

/-- Every SSID has a strongest entry. -/
theorem exists_isFirstStrongest {input : List WifiNetwork} {network : WifiNetwork}
    (hmem : network ∈ input) : ∃ first, first.ssid = network.ssid ∧ IsFirstStrongest input first := by
  cases hbest :
      (input.filter fun other => other.ssid = network.ssid).argmax WifiNetwork.signal_dbm with
  | none =>
    have hkept : network ∈ input.filter fun other => other.ssid = network.ssid :=
      List.mem_filter.mpr ⟨hmem, decide_eq_true rfl⟩
    rw [List.argmax_eq_none.mp hbest] at hkept
    cases hkept
  | some first =>
    have hssid : first.ssid = network.ssid :=
      of_decide_eq_true (List.mem_filter.mp (List.argmax_mem hbest)).2
    rw [← hssid] at hbest
    exact ⟨first, hssid, argmax_eq_some_iff.mp hbest⟩

theorem nodup_ssid_deduplicateStrongest (sort : SignalSort) (input : List WifiNetwork) :
    ((deduplicateStrongest sort input).map WifiNetwork.ssid).Nodup := by
  have hkeys : ((input.foldl keepStrongest []).map Prod.snd).map WifiNetwork.ssid
      = (input.foldl keepStrongest []).map Prod.fst := by
    rw [List.map_map]
    apply List.map_congr_left
    intro e he
    exact (mem_foldl_keepStrongest.mp he).2.1
  have hperm := (sort.perm ((input.foldl keepStrongest []).map Prod.snd)).map WifiNetwork.ssid
  rw [hkeys] at hperm
  exact hperm.nodup_iff.mpr (nodup_foldl_keepStrongest input)

theorem mem_ssid_deduplicateStrongest (sort : SignalSort) (input : List WifiNetwork) (ssid : Bytes) :
    ssid ∈ (deduplicateStrongest sort input).map WifiNetwork.ssid ↔
      ssid ≠ [] ∧ ssid ∈ input.map WifiNetwork.ssid := by
  constructor
  · intro h
    obtain ⟨network, hmem, rfl⟩ := List.mem_map.mp h
    obtain ⟨hne, hfirst⟩ := mem_deduplicateStrongest.mp hmem
    exact ⟨hne, List.mem_map.mpr ⟨network, hfirst.mem, rfl⟩⟩
  · rintro ⟨hne, h⟩
    obtain ⟨network, hmem, rfl⟩ := List.mem_map.mp h
    obtain ⟨first, hssid, hfirst⟩ := exists_isFirstStrongest hmem
    rw [← hssid] at hne ⊢
    exact List.mem_map.mpr ⟨first, mem_deduplicateStrongest.mpr ⟨hne, hfirst⟩, rfl⟩

/-- Among entries with different SSIDs each is the strongest with its own. -/
theorem isFirstStrongest_of_nodup {networks : List WifiNetwork}
    (hnodup : (networks.map WifiNetwork.ssid).Nodup) {network : WifiNetwork}
    (hmem : network ∈ networks) : IsFirstStrongest networks network := by
  obtain ⟨before, after, rfl⟩ := List.append_of_mem hmem
  rw [List.map_append, List.map_cons, List.nodup_middle, List.nodup_cons, ← List.map_append] at hnodup
  refine ⟨before, after, rfl, ?_, ?_⟩
  · intro other hother hssid
    exact absurd (List.mem_map.mpr ⟨other, List.mem_append_left _ hother, hssid⟩) hnodup.1
  · intro other hother hssid
    exact absurd (List.mem_map.mpr ⟨other, List.mem_append_right _ hother, hssid⟩) hnodup.1

/-- What is shown has nothing left to deduplicate. -/
theorem mem_deduplicateStrongest_twice (sort again : SignalSort) (input : List WifiNetwork)
    (network : WifiNetwork) :
    network ∈ deduplicateStrongest again (deduplicateStrongest sort input) ↔
      network ∈ deduplicateStrongest sort input := by
  rw [mem_deduplicateStrongest]
  constructor
  · rintro ⟨-, hfirst⟩
    exact hfirst.mem
  · intro hmem
    exact ⟨(mem_deduplicateStrongest.mp hmem).1,
      isFirstStrongest_of_nodup (nodup_ssid_deduplicateStrongest sort input) hmem⟩

/-- Each SSID of the scan is shown once, with the first of its strongest entries, the strongest
network first; and doing it again changes nothing but the order of equals. -/
theorem scan_shows_strongest (sort again : SignalSort) (input : List WifiNetwork) :
    ((deduplicateStrongest sort input).map WifiNetwork.ssid).Nodup ∧
      (∀ ssid, ssid ∈ (deduplicateStrongest sort input).map WifiNetwork.ssid ↔
        ssid ≠ [] ∧ ssid ∈ input.map WifiNetwork.ssid) ∧
      (∀ network ∈ deduplicateStrongest sort input, network ∈ input ∧
        (∀ other ∈ input, other.ssid = network.ssid → other.signal_dbm ≤ network.signal_dbm) ∧
        IsFirstStrongest input network) ∧
      ((deduplicateStrongest sort input).Pairwise fun a b => b.signal_dbm ≤ a.signal_dbm) ∧
      (deduplicateStrongest again (deduplicateStrongest sort input)).Perm
        (deduplicateStrongest sort input) := by
  have hnodup := nodup_ssid_deduplicateStrongest sort input
  have htwice := nodup_ssid_deduplicateStrongest again (deduplicateStrongest sort input)
  refine ⟨hnodup, mem_ssid_deduplicateStrongest sort input, ?_, sort.sorted _, ?_⟩
  · intro network hmem
    obtain ⟨-, hfirst⟩ := mem_deduplicateStrongest.mp hmem
    refine ⟨hfirst.mem, ?_, hfirst⟩
    intro other hother hssid
    exact hfirst.signal_le hother hssid
  · apply (List.perm_ext_iff_of_nodup (htwice.of_map _) (hnodup.of_map _)).mpr
    exact mem_deduplicateStrongest_twice sort again input

/-- A sort that keeps equal signals as they are. -/
def stableSort : SignalSort where
  run := List.insertionSort fun a b => b.signal_dbm ≤ a.signal_dbm
  perm := List.perm_insertionSort _
  sorted networks := by
    have htotal : Std.Total fun a b : WifiNetwork => b.signal_dbm ≤ a.signal_dbm :=
      ⟨fun a b => le_total b.signal_dbm a.signal_dbm⟩
    have htrans : IsTrans WifiNetwork fun a b => b.signal_dbm ≤ a.signal_dbm :=
      ⟨fun _ _ _ hab hbc => hbc.trans hab⟩
    exact List.pairwise_insertionSort _ networks

/-- Of two equally strong entries the first is shown. -/
example :
    deduplicateStrongest stableSort
      [⟨bytes "a", -70, bytes "WPA2"⟩, ⟨[], -20, bytes "OPEN"⟩, ⟨bytes "b", -60, bytes "WEP"⟩,
        ⟨bytes "a", -50, bytes "WPA2"⟩, ⟨bytes "a", -50, bytes "WPA3"⟩] =
      [⟨bytes "a", -50, bytes "WPA2"⟩, ⟨bytes "b", -60, bytes "WEP"⟩] := by decide

end VirtualChime.Webd
