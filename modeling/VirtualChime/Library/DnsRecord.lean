import VirtualChime.Library.DnsMessage

/-!
# Records of DNS messages

Records as they stand in the answers of a message: their form on the wire, and how a record is
read from a packet.  What is written is read (`recordAt_wireRecord`), and only one record is read
at an offset (`RecordAt.unique`).
-/

namespace Dns

structure Record where
  name : List Label
  rtype : UInt16
  rclass : UInt16
  ttl : UInt32
  data : List UInt8

def wire32 (n : UInt32) : List UInt8 :=
  wire16 (UInt16.ofNat (n.toNat / 65536)) ++ wire16 (UInt16.ofNat (n.toNat % 65536))

/-- What stands between the name of a record and its data. -/
def wireFields (r : Record) : List UInt8 :=
  wire16 r.rtype ++ (wire16 r.rclass ++ (wire32 r.ttl ++ wire16 (UInt16.ofNat r.data.length)))

def wireRecord (r : Record) : List UInt8 := wireName r.name ++ (wireFields r ++ r.data)

/-- The rules read a record at an offset, and end after it. -/
def RecordAt (rules : Rules) (packet : List UInt8) (o : Nat) (r : Record) (next : Nat) : Prop :=
  ∃ pointers stop, NameAt rules packet o r.name pointers stop ∧
    (∀ most ∈ rules.mostPointers, pointers ≤ most) ∧ r.data.length < 65536 ∧
    (packet.drop stop).take (10 + r.data.length) = wireFields r ++ r.data ∧
    next = stop + 10 + r.data.length

/-- The number of records that the header announces as answers. -/
def ancount (packet : List UInt8) : Nat := (read16 (packet.getD 6 0) (packet.getD 7 0)).toNat

theorem wire16_inj {m n : UInt16} (h : wire16 m = wire16 n) : m = n := by
  have hm := read16_wire16 m
  have hn := read16_wire16 n
  simp only [wire16, List.cons.injEq, and_true] at h
  rw [h.1, h.2] at hm
  exact hm.symm.trans hn

theorem wire16_ofNat_inj {m n : Nat} (hm : m < 65536) (hn : n < 65536)
    (h : wire16 (UInt16.ofNat m) = wire16 (UInt16.ofNat n)) : m = n := by
  have heq := congrArg UInt16.toNat (wire16_inj h)
  rwa [UInt16.toNat_ofNat_of_lt' hm, UInt16.toNat_ofNat_of_lt' hn] at heq

theorem wire32_inj {m n : UInt32} (h : wire32 m = wire32 n) : m = n := by
  have hm : m.toNat < 4294967296 := m.toNat_lt
  have hn : n.toNat < 4294967296 := n.toNat_lt
  obtain ⟨hhigh, hlow⟩ := List.append_inj h rfl
  have hquotient := wire16_ofNat_inj (by omega) (by omega) hhigh
  have hremainder := wire16_ofNat_inj (by omega) (by omega) hlow
  apply UInt32.toNat_inj.mp
  omega

@[simp] theorem length_wireFields (r : Record) : (wireFields r).length = 10 := rfl

theorem wireFields_inj {r r' : Record} (hr : r.data.length < 65536) (hr' : r'.data.length < 65536)
    (h : wireFields r = wireFields r') :
    r.rtype = r'.rtype ∧ r.rclass = r'.rclass ∧ r.ttl = r'.ttl ∧
      r.data.length = r'.data.length := by
  obtain ⟨htype, hrest⟩ := List.append_inj h rfl
  obtain ⟨hclass, hrest⟩ := List.append_inj hrest rfl
  obtain ⟨httl, hlength⟩ := List.append_inj hrest rfl
  exact ⟨wire16_inj htype, wire16_inj hclass, wire32_inj httl, wire16_ofNat_inj hr hr' hlength⟩

/-- There is no more than one record at an offset, if no label is as long as a pointer is high. -/
theorem RecordAt.unique {rules : Rules} (hlong : rules.longestLabel < 192) {packet : List UInt8}
    {o next next' : Nat} {r r' : Record} (h : RecordAt rules packet o r next)
    (h' : RecordAt rules packet o r' next') : r = r' ∧ next = next' := by
  obtain ⟨_, stop, hname, -, hdata, hbytes, rfl⟩ := h
  obtain ⟨_, stop', hname', -, hdata', hbytes', rfl⟩ := h'
  obtain ⟨hsame, -, rfl⟩ := hname.unique hlong hname'
  have hten : ∀ n, ((packet.drop stop).take (10 + n)).take 10 = (packet.drop stop).take 10 := by
    intro n
    rw [List.take_take, Nat.min_eq_left (Nat.le_add_right 10 n)]
  have hfields : wireFields r = wireFields r' := by
    have hfirst := hten r.data.length
    have hfirst' := hten r'.data.length
    rw [hbytes, List.take_left' (length_wireFields r)] at hfirst
    rw [hbytes', List.take_left' (length_wireFields r')] at hfirst'
    exact hfirst.trans hfirst'.symm
  obtain ⟨htype, hclass, httl, hlength⟩ := wireFields_inj hdata hdata' hfields
  rw [hlength, hbytes', hfields] at hbytes
  have hrdata : r'.data = r.data := List.append_cancel_left hbytes
  refine ⟨?_, by rw [hlength]⟩
  rcases r with ⟨name, rtype, rclass, ttl, data⟩
  rcases r' with ⟨name', rtype', rclass', ttl', data'⟩
  dsimp only at *
  rw [hsame, htype, hclass, httl, hrdata]

/-- A record on the wire is read back at its place in any packet. -/
theorem recordAt_wireRecord (rules : Rules) (hlong : 63 ≤ rules.longestLabel) {r : Record}
    (h : ∀ l ∈ r.name, IsLabel l) (hdata : r.data.length < 65536) (before after : List UInt8) :
    RecordAt rules (before ++ (wireRecord r ++ after)) before.length r
      (before.length + (wireRecord r).length) := by
  have hpacket : before ++ (wireRecord r ++ after) =
      before ++ (wireName r.name ++ ((wireFields r ++ r.data) ++ after)) := by
    simp [wireRecord]
  have hlength : (wireRecord r).length = (wireName r.name).length + 10 + r.data.length := by
    simp [wireRecord]
    omega
  have hname := nameAt_wireName rules hlong h before ((wireFields r ++ r.data) ++ after)
  rw [← hpacket] at hname
  refine ⟨0, _, hname, fun most _ => Nat.zero_le most, hdata, ?_, by omega⟩
  rw [hpacket, ← List.append_assoc, List.drop_left' (by simp)]
  exact List.take_left' (by simp)

end Dns
