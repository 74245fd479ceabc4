import VirtualChime.MdnsAnswers

/-!
# Compressed names

`DecodeDnsName` against the compression scheme of RFC 1035: a name is decoded when no more
than eight pointers lead to its end, and what `EncodeDnsName` writes is decoded wherever it
stands in a packet.
-/

namespace VirtualChime.Webd.Mdns

open Dns

/-- The decoder reads a name of the scheme if no more than eight pointers lead to its end, and
refuses it otherwise. -/
theorem decodeDnsName_of_rfc1035 {packet : Bytes} {o pointers next : Nat} {labels : List Label}
    (h : NameAt rfc1035 packet o labels pointers next) :
    (pointers ≤ 8 → decodeDnsName packet o = some (dotted labels, next - o)) ∧
      (8 < pointers → decodeDnsName packet o = none) := by
  have hlenient : NameAt lenient packet o labels pointers next := h.mono (by decide) fun _ => rfl
  constructor
  · exact decodeDnsName_of_nameAt hlenient
  · intro hmany
    rw [Option.eq_none_iff_forall_ne_some]
    intro result hresult
    -- what the decoder accepts is a name with few pointers, and there is only one name here
    obtain ⟨labels', pointers', next', hname, hfew, -⟩ := nameAt_of_decodeDnsName hresult
    obtain ⟨-, hsame, -⟩ := hlenient.unique (by decide) hname
    omega

theorem dotted_hostLabels_of_no_dot {fqdn : Bytes} (h : fqdn.getLast? ≠ some dot) :
    dotted (hostLabels fqdn) = fqdn := by
  rcases dotted_hostLabels fqdn with heq | heq
  · exact heq.symm
  · rw [heq, List.getLast?_concat] at h
    exact absurd rfl h

/-- Names are decoded by the compression scheme, with up to eight jumps; the encoder's names are
decoded to what was encoded. -/
theorem names_decoded (packet : Bytes) :
    (∀ o labels jumps next, NameAt rfc1035 packet o labels jumps next →
      (jumps ≤ 8 → decodeDnsName packet o = some (dotted labels, next - o)) ∧
      (8 < jumps → decodeDnsName packet o = none)) ∧
    ∀ before fqdn after, packet = before ++ (encodeDnsName fqdn ++ after) →
      encodeDnsName fqdn ≠ [] → fqdn.getLast? ≠ some dot →
      decodeDnsName packet before.length = some (fqdn, (encodeDnsName fqdn).length) := by
  constructor
  · intro o labels jumps next h
    exact decodeDnsName_of_rfc1035 h
  · rintro before fqdn after rfl haccepted hdot
    obtain ⟨hlabels, hwire⟩ := encodeDnsName_eq haccepted
    have hname := nameAt_wireName rfc1035 (le_refl 63) hlabels before after
    have hdecoded := (decodeDnsName_of_rfc1035 hname).1 (Nat.zero_le 8)
    rw [dotted_hostLabels_of_no_dot hdot, Nat.add_sub_cancel_left, ← hwire] at hdecoded
    exact hdecoded

/-- `www.chime`, the last label through a pointer to the beginning. -/
theorem names_decoded_compressed :
    decodeDnsName (5 :: (bytes "chime" ++ 0 :: 3 :: (bytes "www" ++ [0xC0, 0]))) 7 =
      some (bytes "www.chime", 6) := by
  have hchime : NameAt rfc1035 (5 :: (bytes "chime" ++ 0 :: 3 :: (bytes "www" ++ [0xC0, 0]))) 0
      [bytes "chime"] 0 7 :=
    .label (n := 5) rfl (by decide) (by decide) rfl rfl (.root rfl)
  have hwww : NameAt rfc1035 (5 :: (bytes "chime" ++ 0 :: 3 :: (bytes "www" ++ [0xC0, 0]))) 7
      [bytes "www", bytes "chime"] 1 13 :=
    .label (n := 3) rfl (by decide) (by decide) rfl rfl
      (.pointer (rfl : _ = some (0xC0 : UInt8)) (by decide) (rfl : _ = some (0 : UInt8)) (by decide)
        hchime)
  exact ((names_decoded _).1 _ _ _ _ hwww).1 (by decide)

end VirtualChime.Webd.Mdns
