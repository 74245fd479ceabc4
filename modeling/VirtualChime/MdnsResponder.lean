import VirtualChime.MdnsAnswers
import VirtualChime.Library.DnsRecord
import VirtualChime.Library.Holders
import VirtualChime.Library.Periodic
import VirtualChime.Library.Runs

/-!
# Responders on a network segment

`GetInterfaceIPv4`, `BuildAnswerPacket` and `MdnsResponder::Run`, with any number of responders
that hear each other's datagrams, late, more than once or cut off, and any others.  Every
datagram that a responder sends states the address of its own name; it announces itself at most
every two minutes, and replies only to questions that come from elsewhere (`segment_traffic`).
-/

namespace VirtualChime.Webd.Mdns

open Dns

/-! ## 1. The source -/

/-- `in_addr`, in network order. -/
structure InAddr where
  b0 : Byte
  b1 : Byte
  b2 : Byte
  b3 : Byte
  deriving DecidableEq, Repr

def InAddr.s_addr (ip : InAddr) : Bytes := [ip.b0, ip.b1, ip.b2, ip.b3]

/-- An entry of `getifaddrs`. -/
structure IfAddrs where
  ifa_name : Bytes
  /-- The address, if there is one and its family is `AF_INET`. -/
  ifa_addr : Option InAddr
  /-- `ifa_flags & IFF_LOOPBACK` -/
  loopback : Bool
  deriving DecidableEq, Repr

/-- The loop of `GetInterfaceIPv4` over the entries that are left. -/
def interfaceLoop (interface_name : Bytes) : List IfAddrs → Option InAddr → Option InAddr
  | [], fallback => fallback
  | it :: rest, fallback =>
      match it.ifa_addr with
      | none => interfaceLoop interface_name rest fallback
      | some sin_addr =>
          if it.loopback then interfaceLoop interface_name rest fallback
          else if interface_name ≠ [] ∧ interface_name ≠ it.ifa_name then
            interfaceLoop interface_name rest (fallback.or (some sin_addr))
          else some sin_addr

def getInterfaceIPv4 (interface_name : Bytes) (addrs : Option (List IfAddrs)) :
    Except Bytes InAddr :=
  match addrs with
  | none => .error (bytes "getifaddrs failed")
  | some addrs =>
      match interfaceLoop interface_name addrs none with
      | none => .error (bytes "no non-loopback IPv4 address available")
      | some address => .ok address

/-- The header of an answer: a response, authoritative, with one answer. -/
def answerHeader : Bytes := [0, 0, 0x84, 0, 0, 0, 0, 1, 0, 0, 0, 0]

def buildAnswerPacket (fqdn : Bytes) (ip : InAddr) : Bytes :=
  let name := encodeDnsName fqdn
  if name = [] then []
  else answerHeader ++ (name ++ ([0, 1, 0, 1, 0, 0, 0, 0x78, 0, 4] ++ ip.s_addr))

/-- 120 seconds of the steady clock. -/
def kAnnounceInterval : Int := 120000000000

/-- The size of the buffer that `recvfrom` fills. -/
def kRequestBufferSize : Nat := 1500

/-- Where a responder is in its loop. -/
inductive RunPoint where
  | head
  /-- It waits in `select`, with the answer of this pass and the entries it took it from. -/
  | waiting (answer : Bytes) (addrs : List IfAddrs)
  | stopped
  deriving DecidableEq, Repr

structure MdnsResponder where
  host_label : Bytes
  interface_name : Bytes
  running_ : Bool
  last_announce : Int
  point : RunPoint
  /-- The time of its start, which the source does not keep. -/
  started : Int
  deriving DecidableEq, Repr

def MdnsResponder.fqdn (r : MdnsResponder) : Bytes := r.host_label ++ bytes ".local"

/-- `Start`, where the socket can be had, and `Run` up to its loop. -/
def MdnsResponder.start (host_label interface_name : Bytes) (now : Int) : MdnsResponder :=
  ⟨host_label, interface_name, true, now - kAnnounceInterval, .head, now⟩

/-- What a responder hears: a datagram that a responder has sent, or another one. -/
inductive Heard where
  | sent (k : Nat)
  | outside (datagram : Bytes)
  deriving DecidableEq, Repr

inductive Occasion where
  | announcement (now : Int)
  | reply (heard : Heard)
  deriving DecidableEq, Repr

/-- A datagram that a responder has sent, why, and the entries it took the address from. -/
structure Sending where
  sender : Nat
  occasion : Occasion
  answer : Bytes
  addrs : List IfAddrs
  deriving DecidableEq, Repr

structure Segment where
  responders : List MdnsResponder := []
  sendings : List Sending := []
  deriving DecidableEq, Repr

namespace Segment

def setResponder (s : Segment) (i : Nat) (r : MdnsResponder) : Segment :=
  { s with responders := s.responders.set i r }

def send (s : Segment) (sending : Sending) : Segment :=
  { s with sendings := s.sendings ++ [sending] }

/-- A datagram that is heard. -/
def datagram (s : Segment) : Heard → Option Bytes
  | .sent k => s.sendings[k]?.map (·.answer)
  | .outside datagram => some datagram

/-- `Run` from the head of its loop to `select`. -/
def look (s : Segment) (i : Nat) (r : MdnsResponder) (addrs : Option (List IfAddrs)) (now : Int) :
    Segment :=
  if r.running_ = false then s.setResponder i { r with point := .stopped }
  else
    match getInterfaceIPv4 r.interface_name addrs with
    | .error _ => s
    | .ok ip_addr =>
        let answer := buildAnswerPacket r.fqdn ip_addr
        if answer = [] then s
        else
          let waiting := RunPoint.waiting answer (addrs.getD [])
          if now - r.last_announce ≥ kAnnounceInterval then
            (s.setResponder i { r with point := waiting, last_announce := now }).send
              ⟨i, .announcement now, answer, addrs.getD []⟩
          else s.setResponder i { r with point := waiting }

/-- `Run` from `select` back to the head of its loop. -/
def hear (s : Segment) (i : Nat) (r : MdnsResponder) (answer : Bytes) (addrs : List IfAddrs)
    (heard : Heard) (datagram : Bytes) : Segment :=
  let request := datagram.take kRequestBufferSize
  let s := s.setResponder i { r with point := .head }
  if request = [] then s
  else if queryRequestsHost request r.fqdn = false then s
  else s.send ⟨i, .reply heard, answer, addrs⟩

inductive Action where
  | start (host_label interface_name : Bytes) (now : Int)
  | look (i : Nat) (addrs : Option (List IfAddrs)) (now : Int)
  | hear (i : Nat) (heard : Heard)
  /-- `select` or `recvfrom` reports nothing. -/
  | quiet (i : Nat)
  | stop (i : Nat)
  deriving DecidableEq, Repr

def step (s : Segment) : Action → Option Segment
  | .start host_label interface_name now =>
      some { s with
        responders := s.responders ++ [MdnsResponder.start host_label interface_name now] }
  | .look i addrs now =>
      s.responders[i]?.bind fun r =>
        if r.point = .head then some (s.look i r addrs now) else none
  | .hear i heard =>
      s.responders[i]?.bind fun r =>
        match r.point with
        | .waiting answer addrs => (s.datagram heard).map (s.hear i r answer addrs heard)
        | _ => none
  | .quiet i =>
      s.responders[i]?.bind fun r =>
        match r.point with
        | .waiting _ _ => some (s.setResponder i { r with point := .head })
        | _ => none
  | .stop i => s.responders[i]?.map fun r => s.setResponder i { r with running_ := false }

abbrev Reachable (s : Segment) : Prop := Runs.Reaches step (fun _ _ => True) {} s

/-- When a responder has announced itself. -/
def announcements (s : Segment) (i : Nat) : List Int :=
  s.sendings.filterMap fun sending =>
    match sending.occasion with
    | .announcement now => if sending.sender = i then some now else none
    | .reply _ => none

end Segment

/-! ## 2. Which address -/

/-- An address that can be announced: that of an entry of the interface, or of any where there
is none. -/
def IsInterfaceAddress (interface_name : Bytes) (addrs : List IfAddrs) (ip : InAddr) : Prop :=
  ∃ it ∈ addrs, it.loopback = false ∧ it.ifa_addr = some ip ∧
    (interface_name = [] ∨ it.ifa_name = interface_name ∨
      ∀ other ∈ addrs, other.loopback = false → other.ifa_addr.isSome →
        other.ifa_name ≠ interface_name)

/-- The loop over the entries that are left, after some of which none is the interface's: the
first entry of the interface, else the address that those before it fall back to. -/
theorem interfaceLoop_cases {interface_name : Bytes} (hname : interface_name ≠ [])
    (addrs : List IfAddrs) (fallback : Option InAddr) {ip : InAddr}
    (h : interfaceLoop interface_name addrs fallback = some ip) :
    (∃ it ∈ addrs, it.loopback = false ∧ it.ifa_addr = some ip ∧ it.ifa_name = interface_name) ∨
    ((∀ other ∈ addrs, other.loopback = false → other.ifa_addr.isSome →
        other.ifa_name ≠ interface_name) ∧
      (fallback = some ip ∨ ∃ it ∈ addrs, it.loopback = false ∧ it.ifa_addr = some ip)) := by
  induction addrs generalizing fallback with
  | nil => exact Or.inr ⟨fun _ hmem => absurd hmem List.not_mem_nil, Or.inl h⟩
  | cons it rest ih =>
    -- an entry that is passed over changes nothing about the others
    have hpassed : ∀ fallback', interfaceLoop interface_name rest fallback' = some ip →
        (it.loopback = false → it.ifa_addr.isSome → it.ifa_name ≠ interface_name) →
        (fallback' = some ip → fallback = some ip ∨ (it.loopback = false ∧ it.ifa_addr = some ip)) →
        (∃ other ∈ it :: rest, other.loopback = false ∧ other.ifa_addr = some ip ∧
          other.ifa_name = interface_name) ∨
        ((∀ other ∈ it :: rest, other.loopback = false → other.ifa_addr.isSome →
            other.ifa_name ≠ interface_name) ∧
          (fallback = some ip ∨
            ∃ other ∈ it :: rest, other.loopback = false ∧ other.ifa_addr = some ip)) := by
      intro fallback' hrest hother hfallback
      rcases ih fallback' hrest with ⟨found, hmem, hfound⟩ | ⟨hnone, hfrom⟩
      · exact Or.inl ⟨found, List.mem_cons_of_mem _ hmem, hfound⟩
      · right
        refine ⟨?_, ?_⟩
        · intro other hmem
          rcases List.mem_cons.mp hmem with rfl | hmem
          · exact hother
          · exact hnone other hmem
        · rcases hfrom with hsame | ⟨found, hmem, hfound⟩
          · rcases hfallback hsame with hold | hnew
            · exact Or.inl hold
            · exact Or.inr ⟨it, List.mem_cons_self .., hnew⟩
          · exact Or.inr ⟨found, List.mem_cons_of_mem _ hmem, hfound⟩
    rw [interfaceLoop] at h
    cases haddr : it.ifa_addr with
    | none =>
      rw [haddr] at h
      exact hpassed fallback h (fun _ hsome => by simp [haddr] at hsome) Or.inl
    | some sin_addr =>
      rw [haddr] at h
      dsimp only at h
      split at h
      · next hloopback =>
        exact hpassed fallback h (fun hnot => by simp [hloopback] at hnot) Or.inl
      · next hloopback =>
        have hnot : it.loopback = false := Bool.eq_false_iff.mpr hloopback
        split at h
        · next hother =>
          refine hpassed _ h (fun _ _ => hother.2.symm) ?_
          intro hsame
          cases fallback with
          | none => exact Or.inr ⟨hnot, haddr.trans hsame⟩
          | some old => exact Or.inl hsame
        · next hsame =>
          left
          refine ⟨it, List.mem_cons_self .., hnot, haddr.trans h, ?_⟩
          by_contra hne
          exact hsame ⟨hname, fun heq => hne heq.symm⟩

/-- Without a name, the first entry that is not a loopback. -/
theorem interfaceLoop_nil (addrs : List IfAddrs) {ip : InAddr}
    (h : interfaceLoop [] addrs none = some ip) :
    ∃ it ∈ addrs, it.loopback = false ∧ it.ifa_addr = some ip := by
  induction addrs with
  | nil => cases h
  | cons it rest ih =>
    rw [interfaceLoop] at h
    have hpassed : interfaceLoop [] rest none = some ip →
        ∃ other ∈ it :: rest, other.loopback = false ∧ other.ifa_addr = some ip := by
      intro hrest
      rcases ih hrest with ⟨found, hmem, hfound⟩
      exact ⟨found, List.mem_cons_of_mem _ hmem, hfound⟩
    cases haddr : it.ifa_addr with
    | none =>
      rw [haddr] at h
      exact hpassed h
    | some sin_addr =>
      rw [haddr] at h
      dsimp only at h
      split at h
      · exact hpassed h
      · next hloopback =>
        rw [if_neg fun hother => hother.1 rfl] at h
        exact ⟨it, List.mem_cons_self .., Bool.eq_false_iff.mpr hloopback, haddr.trans h⟩

theorem isInterfaceAddress_of_ok {interface_name : Bytes} {addrs : Option (List IfAddrs)}
    {ip : InAddr} (h : getInterfaceIPv4 interface_name addrs = .ok ip) :
    IsInterfaceAddress interface_name (addrs.getD []) ip := by
  rcases addrs with _ | addrs
  · cases h
  rw [getInterfaceIPv4] at h
  cases hloop : interfaceLoop interface_name addrs none with
  | none =>
    rw [hloop] at h
    cases h
  | some address =>
    rw [hloop] at h
    obtain rfl := Except.ok.inj h
    by_cases hname : interface_name = []
    · subst hname
      rcases interfaceLoop_nil addrs hloop with ⟨it, hmem, hloopback, haddr⟩
      exact ⟨it, hmem, hloopback, haddr, Or.inl rfl⟩
    · rcases interfaceLoop_cases hname addrs none hloop with
        ⟨it, hmem, hloopback, haddr, hit⟩ | ⟨hnone, hnil | ⟨it, hmem, hloopback, haddr⟩⟩
      · exact ⟨it, hmem, hloopback, haddr, Or.inr (Or.inl hit)⟩
      · cases hnil
      · exact ⟨it, hmem, hloopback, haddr, Or.inr (Or.inr hnone)⟩

/-! ## 3. What an answer says -/

/-- The record of an answer: the address of the name, for two minutes. -/
def addressRecord (fqdn : Bytes) (ip : InAddr) : Record := ⟨hostLabels fqdn, 1, 1, 120, ip.s_addr⟩

/-- A response that asks nothing and whose one answer is, by RFC 1035, the address of the name. -/
structure Announces (fqdn : Bytes) (ip : InAddr) (packet : Bytes) : Prop where
  response : ¬ IsQuery packet
  qdcount_eq : qdcount packet = 0
  ancount_eq : ancount packet = 1
  recordAt_iff : ∀ r next, RecordAt rfc1035 packet headerSize r next ↔
    r = addressRecord fqdn ip ∧ next = packet.length

theorem buildAnswerPacket_eq {fqdn : Bytes} {ip : InAddr} (h : buildAnswerPacket fqdn ip ≠ []) :
    (∀ l ∈ hostLabels fqdn, IsLabel l) ∧
      buildAnswerPacket fqdn ip = answerHeader ++ wireRecord (addressRecord fqdn ip) := by
  rw [buildAnswerPacket] at h ⊢
  split at h
  · exact absurd rfl h
  · next hname =>
    obtain ⟨hlabels, hwire⟩ := encodeDnsName_eq hname
    have hfields : wireFields (addressRecord fqdn ip) = [0, 1, 0, 1, 0, 0, 0, 0x78, 0, 4] := by
      change wire16 1 ++ (wire16 1 ++ (wire32 120 ++ wire16 (UInt16.ofNat 4))) = _
      decide
    refine ⟨hlabels, ?_⟩
    rw [if_neg hname, hwire, wireRecord, hfields]
    rfl

theorem announces_buildAnswerPacket {fqdn : Bytes} {ip : InAddr}
    (h : buildAnswerPacket fqdn ip ≠ []) : Announces fqdn ip (buildAnswerPacket fqdn ip) := by
  obtain ⟨hlabels, heq⟩ := buildAnswerPacket_eq h
  have hread := recordAt_wireRecord rfc1035 (by decide) hlabels
    (r := addressRecord fqdn ip) (show (4 : Nat) < 65536 by decide) answerHeader []
  rw [List.append_nil, ← heq, ← List.length_append, ← heq] at hread
  have hheader : ∀ i < 12, (buildAnswerPacket fqdn ip).getD i 0 = answerHeader.getD i 0 := by
    intro i hi
    rw [heq]
    exact getD_append_of_lt (by exact hi) _
  constructor
  · rw [IsQuery, hheader 2 (by decide)]
    decide
  · rw [qdcount, hheader 4 (by decide), hheader 5 (by decide)]
    rfl
  · rw [ancount, hheader 6 (by decide), hheader 7 (by decide)]
    rfl
  · intro r next
    constructor
    · intro hr
      exact hr.unique (by decide) hread
    · rintro ⟨rfl, rfl⟩
      exact hread

/-- No one replies to an answer, or to the beginning of one. -/
theorem queryRequestsHost_answer {fqdn : Bytes} {ip : InAddr} (hne : buildAnswerPacket fqdn ip ≠ [])
    (n : Nat) (host_fqdn : Bytes) :
    queryRequestsHost ((buildAnswerPacket fqdn ip).take n) host_fqdn = false := by
  rw [queryRequestsHost]
  split
  · rfl
  · next hlong =>
    have htwelve : 12 ≤ n := by
      rw [List.length_take] at hlong
      omega
    have hheader : ∀ i < 12, ((buildAnswerPacket fqdn ip).take n).getD i 0 = answerHeader.getD i 0 := by
      intro i hi
      have hi' : i < answerHeader.length := hi
      rw [List.getD_eq_getElem?_getD, List.getElem?_take_of_lt (by omega),
        (buildAnswerPacket_eq hne).2, List.getElem?_append_left hi', List.getD_eq_getElem?_getD]
    dsimp only
    rw [hheader 4 (by decide), hheader 5 (by decide)]
    rfl

/-! ## 4. Every run -/

/-- The answer gives the name of the responder an address that the entries give its interface. -/
def Truthful (r : MdnsResponder) (answer : Bytes) (addrs : List IfAddrs) : Prop :=
  answer ≠ [] ∧ ∃ ip, IsInterfaceAddress r.interface_name addrs ip ∧
    answer = buildAnswerPacket r.fqdn ip

/-- What a run does not change about a responder. -/
structure SameHost (r r' : MdnsResponder) : Prop where
  host_label : r'.host_label = r.host_label
  interface_name : r'.interface_name = r.interface_name
  started : r'.started = r.started

theorem SameHost.fqdn {r r' : MdnsResponder} (h : SameHost r r') : r'.fqdn = r.fqdn :=
  congrArg (· ++ bytes ".local") h.host_label

theorem Truthful.congr {r r' : MdnsResponder} (h : SameHost r r') {answer : Bytes}
    {addrs : List IfAddrs} (ht : Truthful r answer addrs) : Truthful r' answer addrs := by
  rcases ht with ⟨hne, ip, hip, hanswer⟩
  exact ⟨hne, ip, h.interface_name ▸ hip, h.fqdn ▸ hanswer⟩

/-- What a responder hears makes it reply. -/
def AskedOutside (r : MdnsResponder) (heard : Heard) : Prop :=
  ∃ datagram, heard = .outside datagram ∧
    queryRequestsHost (datagram.take kRequestBufferSize) r.fqdn = true

/-- A datagram that a responder may send. -/
structure Sound (r : MdnsResponder) (sending : Sending) : Prop where
  truthful : Truthful r sending.answer sending.addrs
  replies : ∀ heard, sending.occasion = .reply heard → AskedOutside r heard

theorem Sound.congr {r r' : MdnsResponder} (h : SameHost r r') {sending : Sending}
    (hs : Sound r sending) : Sound r' sending where
  truthful := hs.truthful.congr h
  replies := by
    intro heard hreply
    rcases hs.replies heard hreply with ⟨datagram, hheard, hasks⟩
    exact ⟨datagram, hheard, h.fqdn ▸ hasks⟩

namespace Segment

/-- When a responder announced itself, in some of the datagrams. -/
def announcedIn (sendings : List Sending) (i : Nat) : List Int :=
  announcements ⟨[], sendings⟩ i

structure Invariant (s : Segment) : Prop where
  ran : ∀ (i : Nat) (r : MdnsResponder), s.responders[i]? = some r →
    Periodic.Ran kAnnounceInterval (r.started - kAnnounceInterval) (s.announcements i)
      r.last_announce
  waiting : ∀ (i : Nat) (r : MdnsResponder) (answer : Bytes) (addrs : List IfAddrs),
    s.responders[i]? = some r → r.point = .waiting answer addrs → Truthful r answer addrs
  sound : ∀ sending ∈ s.sendings, ∃ r, s.responders[sending.sender]? = some r ∧ Sound r sending

theorem invariant_init : Invariant {} where
  ran := fun _ _ h => by cases h
  waiting := fun _ _ _ _ h => by cases h
  sound := fun _ h => absurd h List.not_mem_nil

theorem announcedIn_append (before after : List Sending) (i : Nat) :
    announcedIn (before ++ after) i = announcedIn before i ++ announcedIn after i :=
  List.filterMap_append

theorem announcedIn_eq_nil {sendings : List Sending} {i : Nat}
    (h : ∀ sending ∈ sendings, sending.sender ≠ i) : announcedIn sendings i = [] := by
  apply List.filterMap_eq_nil_iff.mpr
  intro sending hmem
  cases sending.occasion with
  | announcement now => exact if_neg (h sending hmem)
  | reply heard => rfl

/-- A responder goes on, and may have sent something. -/
theorem Invariant.move {s : Segment} (h : Invariant s) {i : Nat} {r r' : MdnsResponder}
    (hr : s.responders[i]? = some r) (hsame : SameHost r r') (new : List Sending)
    (hran : Periodic.Ran kAnnounceInterval (r.started - kAnnounceInterval)
      (s.announcements i ++ announcedIn new i) r'.last_announce)
    (hwaiting : ∀ answer addrs, r'.point = .waiting answer addrs → Truthful r' answer addrs)
    (hnew : ∀ sending ∈ new, sending.sender = i ∧ Sound r sending) :
    Invariant ⟨s.responders.set i r', s.sendings ++ new⟩ := by
  have hself : (s.responders.set i r')[i]? = some r' := by
    rw [List.getElem?_set_self', hr]
    rfl
  constructor
  · intro j u hu
    have happend : announcements ⟨s.responders.set i r', s.sendings ++ new⟩ j =
        s.announcements j ++ announcedIn new j := announcedIn_append ..
    rw [happend]
    rcases Holders.getElem?_set hu with ⟨rfl, rfl⟩ | ⟨hne, hold⟩
    · rw [hsame.started]
      exact hran
    · have hnil : announcedIn new j = [] := by
        apply announcedIn_eq_nil
        intro sending hmem heq
        exact hne ((hnew sending hmem).1.symm.trans heq)
      rw [hnil, List.append_nil]
      exact h.ran j u hold
  · intro j u answer addrs hu hpoint
    rcases Holders.getElem?_set hu with ⟨-, rfl⟩ | ⟨-, hold⟩
    · exact hwaiting answer addrs hpoint
    · exact h.waiting j u answer addrs hold hpoint
  · intro sending hmem
    rcases List.mem_append.mp hmem with hold | hadded
    · rcases h.sound sending hold with ⟨u, hu, hsound⟩
      by_cases hi : i = sending.sender
      · subst hi
        obtain rfl : r = u := Option.some.inj (hr.symm.trans hu)
        exact ⟨r', hself, hsound.congr hsame⟩
      · exact ⟨u, (List.getElem?_set_ne hi).trans hu, hsound⟩
    · obtain ⟨rfl, hsound⟩ := hnew sending hadded
      exact ⟨r', hself, hsound.congr hsame⟩

/-- A responder goes on and has sent nothing. -/
theorem Invariant.setResponder {s : Segment} (h : Invariant s) {i : Nat} {r r' : MdnsResponder}
    (hr : s.responders[i]? = some r) (hsame : SameHost r r')
    (hlast : r'.last_announce = r.last_announce)
    (hwaiting : ∀ answer addrs, r'.point = .waiting answer addrs → Truthful r' answer addrs) :
    Invariant (s.setResponder i r') := by
  have hmoved := h.move hr hsame []
    (by
      rw [hlast]
      exact (List.append_nil (s.announcements i)).symm ▸ h.ran i r hr)
    hwaiting (fun _ hmem => absurd hmem List.not_mem_nil)
  rwa [List.append_nil] at hmoved

theorem Invariant.start {s : Segment} (h : Invariant s) (host_label interface_name : Bytes)
    (now : Int) :
    Invariant { s with
      responders := s.responders ++ [MdnsResponder.start host_label interface_name now] } := by
  have hinside : ∀ sending ∈ s.sendings, sending.sender < s.responders.length := by
    intro sending hmem
    rcases h.sound sending hmem with ⟨r, hr, -⟩
    exact (List.getElem?_eq_some_iff.mp hr).1
  constructor
  · intro i r hr
    rw [List.getElem?_append] at hr
    split at hr
    · exact h.ran i r hr
    · next houtside =>
      obtain rfl := List.mem_singleton.mp (List.mem_of_getElem? hr)
      have hnil : s.announcements i = [] := by
        apply announcedIn_eq_nil
        intro sending hmem heq
        have hlt := hinside sending hmem
        omega
      change Periodic.Ran _ _ (s.announcements i) _
      rw [hnil]
      exact Periodic.ran_nil
  · intro i r answer addrs hr hpoint
    rw [List.getElem?_append] at hr
    split at hr
    · exact h.waiting i r answer addrs hr hpoint
    · obtain rfl := List.mem_singleton.mp (List.mem_of_getElem? hr)
      cases hpoint
  · intro sending hmem
    rcases h.sound sending hmem with ⟨r, hr, hsound⟩
    exact ⟨r, (List.getElem?_append_left (hinside sending hmem)).trans hr, hsound⟩

/-- From the head of the loop to `select`. -/
theorem Invariant.look {s : Segment} (h : Invariant s) {i : Nat} {r : MdnsResponder}
    (hr : s.responders[i]? = some r) (addrs : Option (List IfAddrs)) (now : Int) :
    Invariant (s.look i r addrs now) := by
  rw [Segment.look]
  split
  · exact h.setResponder hr ⟨rfl, rfl, rfl⟩ rfl fun _ _ hpoint => by cases hpoint
  · split
    · exact h
    · next ip_addr hip =>
      dsimp only
      split
      · exact h
      · next hanswer =>
        have htruthful : Truthful r (buildAnswerPacket r.fqdn ip_addr) (addrs.getD []) :=
          ⟨hanswer, ip_addr, isInterfaceAddress_of_ok hip, rfl⟩
        split
        · next hdue =>
          have hsame : SameHost r { r with
              point := .waiting (buildAnswerPacket r.fqdn ip_addr) (addrs.getD [])
              last_announce := now } := ⟨rfl, rfl, rfl⟩
          refine h.move hr hsame [⟨i, .announcement now, _, _⟩] ?_ ?_ ?_
          · have hnow : announcedIn [⟨i, .announcement now, buildAnswerPacket r.fqdn ip_addr,
                addrs.getD []⟩] i = [now] := by
              simp [announcedIn, announcements]
            rw [hnow]
            exact (h.ran i r hr).append (by omega)
          · intro answer addrs' hpoint
            cases hpoint
            exact htruthful
          · intro sending hmem
            obtain rfl := List.mem_singleton.mp hmem
            exact ⟨rfl, htruthful, fun _ hreply => by cases hreply⟩
        · refine h.setResponder hr ⟨rfl, rfl, rfl⟩ rfl ?_
          intro answer addrs' hpoint
          cases hpoint
          exact htruthful

/-- What is replied to is not what a responder has sent. -/
theorem Invariant.askedOutside {s : Segment} (h : Invariant s) (r : MdnsResponder) {heard : Heard}
    {datagram : Bytes} (hdatagram : s.datagram heard = some datagram)
    (hasks : queryRequestsHost (datagram.take kRequestBufferSize) r.fqdn = true) :
    AskedOutside r heard := by
  cases heard with
  | sent k =>
    obtain ⟨sending, hsending, rfl⟩ := Option.map_eq_some_iff.mp hdatagram
    rcases h.sound sending (List.mem_of_getElem? hsending) with
      ⟨u, -, ⟨hne, ip, -, hanswer⟩, -⟩
    rw [hanswer] at hne hasks
    rw [queryRequestsHost_answer hne] at hasks
    cases hasks
  | outside outside =>
    obtain rfl := Option.some.inj hdatagram
    exact ⟨outside, rfl, hasks⟩

/-- From `select` back to the head of the loop. -/
theorem Invariant.hear {s : Segment} (h : Invariant s) {i : Nat} {r : MdnsResponder}
    {answer : Bytes} {addrs : List IfAddrs} (hr : s.responders[i]? = some r)
    (hpoint : r.point = .waiting answer addrs) {heard : Heard} {datagram : Bytes}
    (hdatagram : s.datagram heard = some datagram) :
    Invariant (s.hear i r answer addrs heard datagram) := by
  have hidle : Invariant (s.setResponder i { r with point := .head }) :=
    h.setResponder hr ⟨rfl, rfl, rfl⟩ rfl fun _ _ hhead => by cases hhead
  rw [Segment.hear]
  split
  · exact hidle
  · split
    · exact hidle
    · next hasks =>
      have houtside := h.askedOutside r hdatagram ((Bool.not_eq_false _).mp hasks)
      have hsame : SameHost r { r with point := .head } := ⟨rfl, rfl, rfl⟩
      refine h.move hr hsame [⟨i, .reply heard, answer, addrs⟩] ?_ ?_ ?_
      · change Periodic.Ran _ _ (s.announcements i ++ []) _
        rw [List.append_nil]
        exact h.ran i r hr
      · intro _ _ hhead
        cases hhead
      · intro sending hmem
        obtain rfl := List.mem_singleton.mp hmem
        refine ⟨rfl, h.waiting i r answer addrs hr hpoint, ?_⟩
        intro heard' hreply
        cases hreply
        exact houtside

theorem Invariant.step {s t : Segment} {a : Action} (h : Invariant s) (hstep : s.step a = some t) :
    Invariant t := by
  cases a with
  | start host_label interface_name now =>
    obtain rfl := Option.some.inj hstep
    exact h.start host_label interface_name now
  | look i addrs now =>
    rcases Option.bind_eq_some_iff.mp hstep with ⟨r, hr, hlook⟩
    split at hlook
    · obtain rfl := Option.some.inj hlook
      exact h.look hr addrs now
    · cases hlook
  | hear i heard =>
    rcases Option.bind_eq_some_iff.mp hstep with ⟨r, hr, hhear⟩
    split at hhear
    · next answer addrs hpoint =>
      obtain ⟨datagram, hdatagram, rfl⟩ := Option.map_eq_some_iff.mp hhear
      exact h.hear hr hpoint hdatagram
    · cases hhear
  | quiet i =>
    rcases Option.bind_eq_some_iff.mp hstep with ⟨r, hr, hquiet⟩
    split at hquiet
    · obtain rfl := Option.some.inj hquiet
      exact h.setResponder hr ⟨rfl, rfl, rfl⟩ rfl fun _ _ hhead => by cases hhead
    · cases hquiet
  | stop i =>
    rcases Option.map_eq_some_iff.mp hstep with ⟨r, hr, rfl⟩
    exact h.setResponder hr ⟨rfl, rfl, rfl⟩ rfl fun answer addrs hpoint =>
      (h.waiting i r answer addrs hr hpoint).congr ⟨rfl, rfl, rfl⟩

theorem invariant_of_reachable {s : Segment} (h : s.Reachable) : Invariant s :=
  h.invariant invariant_init fun _ _ _ hinv _ hstep => hinv.step hstep

end Segment

/-- However many responders there are, when they start and stop, and whatever they hear: each
announces itself at most every 120 seconds, first as soon as it has an address; every datagram
that one sends is a response that gives its own name an address of its interface; and it replies
only to a question for its name in a datagram that no responder has sent. -/
theorem segment_traffic {s : Segment} (h : s.Reachable) :
    (∀ (i : Nat) (r : MdnsResponder), s.responders[i]? = some r →
      Periodic.Ran kAnnounceInterval (r.started - kAnnounceInterval) (s.announcements i)
        r.last_announce) ∧
    ∀ sending ∈ s.sendings, ∃ r, s.responders[sending.sender]? = some r ∧
      (∃ ip, IsInterfaceAddress r.interface_name sending.addrs ip ∧
        Announces r.fqdn ip sending.answer) ∧
      ∀ heard, sending.occasion = .reply heard →
        ∃ datagram, heard = .outside datagram ∧
          ∃ q, Asked lenient (datagram.take kRequestBufferSize) q ∧ MatchesText q r.fqdn := by
  have hinv := Segment.invariant_of_reachable h
  refine ⟨hinv.ran, ?_⟩
  intro sending hmem
  rcases hinv.sound sending hmem with ⟨r, hr, ⟨hne, ip, hip, hanswer⟩, hreplies⟩
  refine ⟨r, hr, ⟨ip, hip, ?_⟩, ?_⟩
  · rw [hanswer] at hne ⊢
    exact announces_buildAnswerPacket hne
  · intro heard hreply
    rcases hreplies heard hreply with ⟨datagram, hheard, hasks⟩
    exact ⟨datagram, hheard, queryRequestsHost_iff.mp hasks⟩

/-- A responder that announces itself, replies to a question and hears its announcement. -/
def sampleRun : List Segment.Action := [
  .start (bytes "chime") (bytes "wlan0") 0,
  .look 0 (some [⟨bytes "lo", some ⟨127, 0, 0, 1⟩, true⟩,
    ⟨bytes "wlan0", some ⟨192, 168, 1, 20⟩, false⟩]) 0,
  .hear 0 (.outside (queryHeader ++ wireQuestion chimeQuestion)),
  .look 0 (some [⟨bytes "eth0", some ⟨10, 0, 0, 7⟩, false⟩]) 1000000000,
  .hear 0 (.sent 0)]

theorem segment_traffic_sample :
    ∃ s, Runs.exec Segment.step {} sampleRun = some s ∧ s.sendings.length = 2 ∧
      ∀ sending ∈ s.sendings, ∃ r, s.responders[sending.sender]? = some r ∧
        ∃ ip, Announces r.fqdn ip sending.answer := by
  have hlength : (Runs.exec Segment.step {} sampleRun).map (·.sendings.length) = some 2 := by
    decide +kernel
  obtain ⟨s, hexec, htwo⟩ := Option.map_eq_some_iff.mp hlength
  have htraffic := segment_traffic (Runs.reaches_of_exec sampleRun (fun _ _ _ => trivial) hexec)
  refine ⟨s, hexec, htwo, ?_⟩
  intro sending hmem
  rcases htraffic.2 sending hmem with ⟨r, hr, ⟨ip, -, hannounces⟩, -⟩
  exact ⟨r, hr, ip, hannounces⟩

end VirtualChime.Webd.Mdns
