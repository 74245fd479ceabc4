import VirtualChime.Library.Checked
import VirtualChime.Mdns

/-!
# Reading any packet

`DecodeDnsName` and `QueryRequestsHost` in checked operations.  A name may jump back and
forth, so what ends the decoder is the count of its jumps, and between two of them the
bytes that are left.
-/

namespace VirtualChime.Webd.Mdns.Machine

open Dns
open Checked (Fault get slice)

/-! ## 1. The source -/

/-- The loop of `DecodeDnsName`; the name and how many bytes it takes, or a refusal, and how many
pointers were followed. -/
def decodeLoop (packet : Bytes) (fuel offset depth : ℕ) (jumped : Bool) (name : Bytes)
    (local_consumed followed : ℕ) : Except Fault (Option (Bytes × ℕ) × ℕ) :=
  match fuel with
  | 0 => .error .fuel
  | fuel + 1 => do
      if offset < packet.length then
        let length ← get packet offset
        if length = 0 then
          return (some (name, if jumped then local_consumed else local_consumed + 1), followed)
        else if length &&& 0xC0 = 0xC0 then
          if offset + 1 ≥ packet.length then return (none, followed)
          else
            let low ← get packet (offset + 1)
            let pointer := (length &&& 0x3F).toNat * 256 + low.toNat
            if pointer ≥ packet.length then return (none, followed)
            else if depth + 1 > 8 then return (none, followed)
            else
              decodeLoop packet fuel pointer (depth + 1) true name
                (if jumped then local_consumed else local_consumed + 2) (followed + 1)
        else if offset + 1 + length.toNat > packet.length then return (none, followed)
        else
          let label ← slice packet (offset + 1) length.toNat
          decodeLoop packet fuel (offset + 1 + length.toNat) depth jumped
            ((if name = [] then name else name ++ [dot]) ++ label)
            (if jumped then local_consumed else local_consumed + 1 + length.toNat) followed
      else return (some (name, local_consumed), followed)

def decodeDnsName (packet : Bytes) (fuel start : ℕ) : Except Fault (Option (Bytes × ℕ) × ℕ) :=
  decodeLoop packet fuel start 0 false [] 0 0

/-- The loop of `QueryRequestsHost` over the questions that are left. -/
def questionLoop (packet target : Bytes) (fuel : ℕ) : ℕ → ℕ → Except Fault Bool
  | 0, _ => .ok false
  | left + 1, offset => do
      match (← decodeDnsName packet fuel offset).1 with
      | none => return false
      | some (name, consumed) =>
          let offset := offset + consumed
          if offset + 4 > packet.length then return false
          else
            let qtype := read16 (← get packet offset) (← get packet (offset + 1))
            let qclass := read16 (← get packet (offset + 2)) (← get packet (offset + 3))
            let class_ok := qclass &&& 0x7FFF == 1
            let type_ok := qtype.toNat == kDnsTypeA || qtype.toNat == kDnsTypeAny
            if class_ok && type_ok && name.map toLower == target then return true
            else questionLoop packet target fuel left (offset + 4)

def queryRequestsHost (packet host_fqdn : Bytes) (fuel : ℕ) : Except Fault Bool := do
  if packet.length < 12 then return false
  else
    let qdcount := (read16 (← get packet 4) (← get packet 5)).toNat
    questionLoop packet (host_fqdn.map toLower) fuel qdcount 12

/-! ## 2. The decoder -/

/-- Enough passes for any name: eight jumps, and every byte once between two of them. -/
def passes (packet : Bytes) : ℕ := 9 * (packet.length + 1)

/-- The decoder stays inside the packet and follows no more than eight pointers. -/
theorem decodeLoop_eq {packet : Bytes} {fuel offset depth followed : ℕ} (jumped : Bool)
    (name : Bytes) (local_consumed : ℕ) (hdepth : depth ≤ 8) (hfollowed : followed = depth)
    (hfuel : (8 - depth) * (packet.length + 1) + (packet.length - offset) < fuel) :
    ∃ n ≤ 8, decodeLoop packet fuel offset depth jumped name local_consumed followed =
      .ok (Mdns.decodeLoop packet offset depth jumped name local_consumed, n) := by
  induction fuel generalizing offset depth followed jumped name local_consumed with
  | zero => omega
  | succ fuel ih =>
    subst hfollowed
    rw [decodeLoop, Mdns.decodeLoop]
    by_cases hinside : offset < packet.length
    · obtain ⟨length, hlength⟩ : ∃ length, packet[offset]? = some length :=
        ⟨packet[offset], List.getElem?_eq_getElem hinside⟩
      rw [if_pos hinside, hlength, Checked.get_of_some hlength, Checked.ok_bind]
      dsimp only
      by_cases hzero : length = 0
      · rw [if_pos hzero, if_pos hzero]
        exact ⟨followed, hdepth, rfl⟩
      rw [if_neg hzero, if_neg hzero]
      by_cases hpointer : length &&& 0xC0 = 0xC0
      · rw [if_pos hpointer, if_pos hpointer]
        by_cases hlast : offset + 1 ≥ packet.length
        · rw [if_pos hlast, List.getElem?_eq_none hlast]
          exact ⟨followed, hdepth, rfl⟩
        obtain ⟨low, hlow⟩ : ∃ low, packet[offset + 1]? = some low :=
          ⟨packet[offset + 1], List.getElem?_eq_getElem (Nat.not_le.mp hlast)⟩
        rw [if_neg hlast, hlow, Checked.get_of_some hlow, Checked.ok_bind]
        dsimp only
        generalize (length &&& 0x3F).toNat * 256 + low.toNat = pointer
        by_cases houtside : pointer ≥ packet.length
        · rw [if_pos houtside, if_pos houtside]
          exact ⟨followed, hdepth, rfl⟩
        rw [if_neg houtside, if_neg houtside]
        by_cases hdeep : followed + 1 > 8
        · rw [if_pos hdeep, if_pos hdeep]
          exact ⟨followed, hdepth, rfl⟩
        rw [if_neg hdeep, if_neg hdeep]
        -- a jump may go anywhere, but there is one fewer of them left
        have hjumps : 8 - followed = 8 - (followed + 1) + 1 := by omega
        rw [hjumps, Nat.add_mul, Nat.one_mul] at hfuel
        exact ih true name _ (by omega) rfl (by omega)
      rw [if_neg hpointer, if_neg hpointer]
      by_cases hlong : offset + 1 + length.toNat > packet.length
      · rw [if_pos hlong, if_pos hlong]
        exact ⟨followed, hdepth, rfl⟩
      rw [if_neg hlong, if_neg hlong, Checked.slice_ok (Nat.not_lt.mp hlong), Checked.ok_bind]
      exact ih jumped _ _ hdepth rfl (by omega)
    · have hnone : packet[offset]? = none := List.getElem?_eq_none (Nat.not_lt.mp hinside)
      rw [if_neg hinside, hnone]
      exact ⟨followed, hdepth, rfl⟩

theorem decodeDnsName_eq {packet : Bytes} {fuel : ℕ} (hfuel : passes packet ≤ fuel) (start : ℕ) :
    ∃ n ≤ 8, decodeDnsName packet fuel start = .ok (Mdns.decodeDnsName packet start, n) := by
  apply decodeLoop_eq false [] 0 (Nat.zero_le 8) rfl
  unfold passes at hfuel
  omega

/-- What the decoder has counted so far stays inside the packet, before and after a jump. -/
theorem decodeLoop_consumed {packet : Bytes} {start offset depth : ℕ} {jumped : Bool}
    {name name' : Bytes} {local_consumed consumed : ℕ}
    (hinside : start + local_consumed ≤ packet.length)
    (hoffset : jumped = false → offset = start + local_consumed)
    (h : Mdns.decodeLoop packet offset depth jumped name local_consumed =
      some (name', consumed)) :
    start + consumed ≤ packet.length := by
  fun_induction Mdns.decodeLoop packet offset depth jumped name local_consumed with
  | case1 offset depth jumped name local_consumed hnone =>
    obtain ⟨rfl, rfl⟩ := Prod.mk.inj (Option.some.inj h)
    exact hinside
  | case2 offset depth jumped name local_consumed hzero =>
    obtain ⟨rfl, rfl⟩ := Prod.mk.inj (Option.some.inj h)
    have hlt := (List.getElem?_eq_some_iff.mp hzero).1
    cases jumped with
    | true => exact hinside
    | false =>
      have heq := hoffset rfl
      simp only [Bool.false_eq_true, if_false]
      omega
  | case3 => cases h
  | case4 => cases h
  | case5 => cases h
  | case6 offset depth jumped name local_consumed high hhigh hne hpointer low hlow pointer hin hdeep ih =>
    apply ih _ nofun h
    have hlt := (List.getElem?_eq_some_iff.mp hlow).1
    cases jumped with
    | true => exact hinside
    | false =>
      have heq := hoffset rfl
      simp only [Bool.false_eq_true, ↓reduceDIte]
      omega
  | case7 => cases h
  | case8 offset depth jumped name local_consumed n hn hne hpointer hfits ih =>
    cases jumped with
    | true => exact ih hinside nofun h
    | false =>
      have heq := hoffset rfl
      simp only [Bool.false_eq_true, ↓reduceDIte] at ih h
      apply ih _ _ h
      · omega
      · intro _
        omega

/-! ## 3. The questions -/

theorem questionLoop_eq {packet target : Bytes} {fuel : ℕ} (hfuel : passes packet ≤ fuel)
    (left offset : ℕ) :
    questionLoop packet target fuel left offset =
      .ok (Mdns.questionLoop packet target left offset) := by
  induction left generalizing offset with
  | zero => rfl
  | succ left ih =>
    obtain ⟨n, -, hdecode⟩ := decodeDnsName_eq hfuel offset
    rw [questionLoop, Mdns.questionLoop, hdecode, Checked.ok_bind]
    cases Mdns.decodeDnsName packet offset with
    | none => rfl
    | some decoded =>
      obtain ⟨name, consumed⟩ := decoded
      dsimp only
      by_cases hlong : offset + consumed + 4 > packet.length
      · rw [if_pos hlong, if_pos hlong]
        rfl
      · have h0 : offset + consumed < packet.length := by omega
        have h1 : offset + consumed + 1 < packet.length := by omega
        have h2 : offset + consumed + 2 < packet.length := by omega
        have h3 : offset + consumed + 3 < packet.length := by omega
        rw [if_neg hlong, if_neg hlong]
        simp only [Checked.get_ok h0 0, Checked.get_ok h1 0, Checked.get_ok h2 0,
          Checked.get_ok h3 0, Checked.ok_bind]
        split
        · rfl
        · exact ih _

/-- Any packet is read without an index outside it, in finitely many passes, with no more than
eight pointers followed for a name, and a name never takes more bytes than there are. -/
theorem packet_reads_are_safe (packet host_fqdn : Bytes) {fuel : ℕ}
    (hfuel : passes packet ≤ fuel) :
    queryRequestsHost packet host_fqdn fuel = .ok (Mdns.queryRequestsHost packet host_fqdn) ∧
    ∀ start, ∃ followed ≤ 8,
      decodeDnsName packet fuel start = .ok (Mdns.decodeDnsName packet start, followed) ∧
      ∀ name consumed, start ≤ packet.length →
        Mdns.decodeDnsName packet start = some (name, consumed) →
        start + consumed ≤ packet.length := by
  constructor
  · rw [queryRequestsHost, Mdns.queryRequestsHost]
    by_cases hshort : packet.length < 12
    · rw [if_pos hshort, if_pos hshort]
      rfl
    · have h4 : 4 < packet.length := by omega
      have h5 : 5 < packet.length := by omega
      rw [if_neg hshort, if_neg hshort, Checked.get_ok h4 0, Checked.get_ok h5 0,
        Checked.ok_bind, Checked.ok_bind]
      exact questionLoop_eq hfuel _ _
  · intro start
    obtain ⟨n, hn, hdecode⟩ := decodeDnsName_eq hfuel start
    refine ⟨n, hn, hdecode, ?_⟩
    intro name consumed hstart hsome
    have hnothing : start + 0 ≤ packet.length := hstart
    exact decodeLoop_consumed hnothing (fun _ => rfl) hsome

/-- A packet whose question has a pointer to itself for a name. -/
def cyclicPacket : Bytes := [0, 0, 0, 0, 0, 1, 0, 0, 0, 0, 0, 0, 0xC0, 12, 0, 1, 0, 1]

theorem packet_reads_are_safe_cyclic :
    queryRequestsHost cyclicPacket (bytes "chime.local") (passes cyclicPacket) = .ok false ∧
      ∃ followed ≤ 8, decodeDnsName cyclicPacket (passes cyclicPacket) 12 = .ok (none, followed) := by
  have hrefused : Mdns.queryRequestsHost cyclicPacket (bytes "chime.local") = false ∧
      Mdns.decodeDnsName cyclicPacket 12 = none := by
    decide +kernel
  obtain ⟨hquery, hdecode⟩ :=
    packet_reads_are_safe cyclicPacket (bytes "chime.local") (le_refl (passes cyclicPacket))
  obtain ⟨followed, hfollowed, heq, -⟩ := hdecode 12
  rw [hrefused.1] at hquery
  rw [hrefused.2] at heq
  exact ⟨hquery, followed, hfollowed, heq⟩

end VirtualChime.Webd.Mdns.Machine
