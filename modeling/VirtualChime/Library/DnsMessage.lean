import Mathlib.Data.List.Basic

/-!
# Questions of DNS messages

Names as lists of labels, the text of a name, its form on the wire, and how a name and
the questions after a header are read from a packet.  A reading goes by rules: those of
RFC 1035, or laxer ones that allow longer labels, let the end of the packet end a name
or bound the number of compression pointers.
-/

namespace Dns

abbrev Label := List UInt8

/-! ## 1. Names -/

/-- What separates the labels in the text of a name. -/
abbrev dot : UInt8 := 46

/-- The text of a name. -/
def dotted (name : List Label) : List UInt8 := [dot].intercalate name

/-- The form of a name on the wire, without compression. -/
def wireName : List Label → List UInt8
  | [] => [0]
  | label :: name => UInt8.ofNat label.length :: (label ++ wireName name)

/-- A label of a legal length. -/
def IsLabel (label : Label) : Prop := 0 < label.length ∧ label.length ≤ 63

instance (label : Label) : Decidable (IsLabel label) := inferInstanceAs (Decidable (_ ∧ _))

@[simp] theorem dotted_nil : dotted [] = [] := rfl

@[simp] theorem dotted_singleton (label : Label) : dotted [label] = label :=
  List.intercalate_singleton

theorem dotted_cons_cons (label next : Label) (name : List Label) :
    dotted (label :: next :: name) = label ++ dot :: dotted (next :: name) := by
  simp [dotted, List.intercalate, List.intersperse]

theorem dotted_eq_nil_iff {name : List Label} (h : ∀ l ∈ name, l ≠ []) :
    dotted name = [] ↔ name = [] := by
  cases name with
  | nil => simp
  | cons label name =>
    have hlabel : label ≠ [] := h label (List.mem_cons_self ..)
    cases name with
    | nil => simpa using hlabel
    | cons next name => simp [dotted_cons_cons]

/-- The text of a name does not end in a dot, unless a label does. -/
theorem getLast?_dotted_ne {name : List Label} (h : ∀ l ∈ name, l ≠ [] ∧ dot ∉ l) :
    (dotted name).getLast? ≠ some dot := by
  induction name with
  | nil => simp
  | cons label name ih =>
    cases name with
    | nil =>
      rw [dotted_singleton]
      intro hlast
      exact (h label (List.mem_cons_self ..)).2 (List.mem_of_getLast? hlast)
    | cons next name =>
      have hrest : ∀ l ∈ next :: name, l ≠ [] ∧ dot ∉ l :=
        fun l hl => h l (List.mem_cons_of_mem _ hl)
      have hne : dotted (next :: name) ≠ [] := by
        rw [Ne, dotted_eq_nil_iff fun l hl => (hrest l hl).1]
        exact List.cons_ne_nil _ _
      rw [dotted_cons_cons, List.getLast?_append, List.getLast?_cons_of_ne_nil hne]
      have hlast := ih hrest
      obtain ⟨last, hsome⟩ : ∃ last, (dotted (next :: name)).getLast? = some last :=
        ⟨_, List.getLast?_eq_some_getLast hne⟩
      rw [hsome] at hlast ⊢
      exact hlast

/-- Names are told apart by their text where no label is empty or holds a dot. -/
theorem dotted_inj {name other : List Label} (h : ∀ l ∈ name, l ≠ [] ∧ dot ∉ l)
    (h' : ∀ l ∈ other, l ≠ [] ∧ dot ∉ l) (heq : dotted name = dotted other) : name = other := by
  by_cases hname : name = []
  · subst hname
    exact ((dotted_eq_nil_iff fun l hl => (h' l hl).1).mp heq.symm).symm
  · have hother : other ≠ [] := by
      rintro rfl
      exact hname ((dotted_eq_nil_iff fun l hl => (h l hl).1).mp heq)
    rw [← List.splitOn_intercalate dot (fun l hl => (h l hl).2) hname,
      ← List.splitOn_intercalate dot (fun l hl => (h' l hl).2) hother]
    exact congrArg (List.splitOn dot) heq

/-! ## 2. Readings -/

structure Rules where
  longestLabel : Nat
  endOfPacketEndsName : Bool
  mostPointers : Option Nat

def rfc1035 : Rules := ⟨63, false, none⟩

/-- The bytes of a pointer give an offset of 14 bits. -/
def pointerTarget (high low : UInt8) : Nat := (high.toNat - 192) * 256 + low.toNat

/-- The rules read a name at an offset of the packet: its labels, how many pointers are
followed, and the offset after the name. -/
inductive NameAt (rules : Rules) (packet : List UInt8) : Nat → List Label → Nat → Nat → Prop where
  | root {o : Nat} (h : packet[o]? = some 0) : NameAt rules packet o [] 0 (o + 1)
  | cut {o : Nat} (may : rules.endOfPacketEndsName = true) (h : packet.length ≤ o) :
      NameAt rules packet o [] 0 o
  | label {o pointers next : Nat} {n : UInt8} {label : Label} {name : List Label}
      (h : packet[o]? = some n) (pos : n ≠ 0) (short : n.toNat ≤ rules.longestLabel)
      (text : (packet.drop (o + 1)).take n.toNat = label) (inside : label.length = n.toNat)
      (rest : NameAt rules packet (o + 1 + n.toNat) name pointers next) :
      NameAt rules packet o (label :: name) pointers next
  | pointer {o pointers next : Nat} {high low : UInt8} {name : List Label}
      (hhigh : packet[o]? = some high) (isPointer : 192 ≤ high.toNat)
      (hlow : packet[o + 1]? = some low) (inside : pointerTarget high low < packet.length)
      (rest : NameAt rules packet (pointerTarget high low) name pointers next) :
      NameAt rules packet o name (pointers + 1) (o + 2)

/-- Laxer rules read what stricter ones read. -/
theorem NameAt.mono {rules laxer : Rules} (hlong : rules.longestLabel ≤ laxer.longestLabel)
    (hend : rules.endOfPacketEndsName = true → laxer.endOfPacketEndsName = true)
    {packet : List UInt8} {o pointers next : Nat} {name : List Label}
    (h : NameAt rules packet o name pointers next) : NameAt laxer packet o name pointers next := by
  induction h with
  | root h => exact .root h
  | cut may h => exact .cut (hend may) h
  | label h pos short text inside _ ih =>
    exact .label h pos (Nat.le_trans short hlong) text inside ih
  | pointer hhigh isPointer hlow inside _ ih => exact .pointer hhigh isPointer hlow inside ih

/-- There is no more than one name at an offset, if no label is as long as a pointer is high. -/
theorem NameAt.unique {rules : Rules} (hlong : rules.longestLabel < 192) {packet : List UInt8}
    {o pointers pointers' next next' : Nat} {name name' : List Label}
    (h : NameAt rules packet o name pointers next)
    (h' : NameAt rules packet o name' pointers' next') :
    name = name' ∧ pointers = pointers' ∧ next = next' := by
  induction h generalizing name' pointers' next' with
  | root h =>
    cases h' with
    | root => exact ⟨rfl, rfl, rfl⟩
    | cut _ hend => simp [List.getElem?_eq_none hend] at h
    | label hn pos =>
      obtain rfl := Option.some.inj (h.symm.trans hn)
      exact absurd rfl pos
    | pointer hhigh isPointer =>
      obtain rfl := Option.some.inj (h.symm.trans hhigh)
      exact absurd isPointer (by decide)
  | cut may hend =>
    cases h' with
    | root h => simp [List.getElem?_eq_none hend] at h
    | cut => exact ⟨rfl, rfl, rfl⟩
    | label hn => simp [List.getElem?_eq_none hend] at hn
    | pointer hhigh => simp [List.getElem?_eq_none hend] at hhigh
  | label hn pos short text _ _ ih =>
    cases h' with
    | root h =>
      obtain rfl := Option.some.inj (hn.symm.trans h)
      exact absurd rfl pos
    | cut _ hend => simp [List.getElem?_eq_none hend] at hn
    | label hn' _ _ text' _ rest =>
      obtain rfl := Option.some.inj (hn.symm.trans hn')
      obtain ⟨rfl, rfl, rfl⟩ := ih rest
      exact ⟨by rw [← text, text'], rfl, rfl⟩
    | pointer hhigh isPointer =>
      obtain rfl := Option.some.inj (hn.symm.trans hhigh)
      omega
  | pointer hhigh isPointer hlow _ _ ih =>
    cases h' with
    | root h =>
      obtain rfl := Option.some.inj (hhigh.symm.trans h)
      exact absurd isPointer (by decide)
    | cut _ hend => simp [List.getElem?_eq_none hend] at hhigh
    | label hn _ short =>
      obtain rfl := Option.some.inj (hhigh.symm.trans hn)
      omega
    | pointer hhigh' _ hlow' _ rest =>
      obtain rfl := Option.some.inj (hhigh.symm.trans hhigh')
      obtain rfl := Option.some.inj (hlow.symm.trans hlow')
      obtain ⟨rfl, rfl, -⟩ := ih rest
      exact ⟨rfl, rfl, rfl⟩

structure Question where
  name : List Label
  qtype : UInt16
  qclass : UInt16

/-- A number of 16 bits, the high byte first. -/
def wire16 (n : UInt16) : List UInt8 := [UInt8.ofNat (n.toNat / 256), UInt8.ofNat (n.toNat % 256)]

def read16 (high low : UInt8) : UInt16 := UInt16.ofNat (high.toNat * 256 + low.toNat)

def wireQuestion (q : Question) : List UInt8 := wireName q.name ++ wire16 q.qtype ++ wire16 q.qclass

/-- The rules read a question at an offset, and end after it. -/
def QuestionAt (rules : Rules) (packet : List UInt8) (o : Nat) (q : Question) (next : Nat) : Prop :=
  ∃ pointers stop, NameAt rules packet o q.name pointers stop ∧
    (∀ most ∈ rules.mostPointers, pointers ≤ most) ∧
    (packet.drop stop).take 4 = wire16 q.qtype ++ wire16 q.qclass ∧ next = stop + 4

/-- The rules read some questions one after the other. -/
inductive QuestionsAt (rules : Rules) (packet : List UInt8) : Nat → List Question → Nat → Prop where
  | nil {o : Nat} : QuestionsAt rules packet o [] o
  | cons {o mid next : Nat} {q : Question} {qs : List Question}
      (first : QuestionAt rules packet o q mid) (rest : QuestionsAt rules packet mid qs next) :
      QuestionsAt rules packet o (q :: qs) next

def headerSize : Nat := 12

/-- The number of questions that the header announces. -/
def qdcount (packet : List UInt8) : Nat := (read16 (packet.getD 4 0) (packet.getD 5 0)).toNat

/-- The bit that tells a query from a response. -/
def IsQuery (packet : List UInt8) : Prop := (packet.getD 2 0).toNat < 128

instance (packet : List UInt8) : Decidable (IsQuery packet) := inferInstanceAs (Decidable (_ < _))

/-- One of the announced questions, where the rules read it and those before it. -/
def Asked (rules : Rules) (packet : List UInt8) (q : Question) : Prop :=
  ∃ before start stop, before.length < qdcount packet ∧
    QuestionsAt rules packet headerSize before start ∧ QuestionAt rules packet start q stop

/-! ## 3. What is written is read -/

theorem read16_wire16 (n : UInt16) :
    read16 (UInt8.ofNat (n.toNat / 256)) (UInt8.ofNat (n.toNat % 256)) = n := by
  have hlt : n.toNat < 65536 := n.toNat_lt
  rw [read16, UInt8.toNat_ofNat_of_lt' (by rw [UInt8.size]; omega),
    UInt8.toNat_ofNat_of_lt' (by rw [UInt8.size]; omega)]
  have hsum : n.toNat / 256 * 256 + n.toNat % 256 = n.toNat := by omega
  rw [hsum]
  exact UInt16.ofNat_toNat

theorem wire16_read16 (high low : UInt8) : wire16 (read16 high low) = [high, low] := by
  have hhigh : high.toNat < 256 := high.toNat_lt
  have hlow : low.toNat < 256 := low.toNat_lt
  have hnat : (read16 high low).toNat = high.toNat * 256 + low.toNat := by
    apply UInt16.toNat_ofNat_of_lt'
    rw [UInt16.size]
    omega
  have hdiv : (high.toNat * 256 + low.toNat) / 256 = high.toNat := by omega
  have hmod : (high.toNat * 256 + low.toNat) % 256 = low.toNat := by omega
  rw [wire16, hnat, hdiv, hmod, UInt8.ofNat_toNat, UInt8.ofNat_toNat]

/-- The type and the class after a name, byte by byte. -/
theorem fields_iff {packet : List UInt8} {stop : Nat} {qtype qclass : UInt16} :
    (packet.drop stop).take 4 = wire16 qtype ++ wire16 qclass ↔
      stop + 4 ≤ packet.length ∧
        qtype = read16 (packet.getD stop 0) (packet.getD (stop + 1) 0) ∧
        qclass = read16 (packet.getD (stop + 2) 0) (packet.getD (stop + 3) 0) := by
  have hget : ∀ i, packet.getD (stop + i) 0 = (packet.drop stop).getD i 0 := by
    intro i
    rw [List.getD_eq_getElem?_getD, List.getD_eq_getElem?_getD, List.getElem?_drop]
  have hlength : stop + 4 ≤ packet.length ↔ 4 ≤ (packet.drop stop).length := by
    rw [List.length_drop]
    omega
  have hfirst : packet.getD stop 0 = (packet.drop stop).getD 0 0 := hget 0
  rw [hlength, hfirst, hget 1, hget 2, hget 3]
  constructor
  · intro h
    have hfour : ((packet.drop stop).take 4).length = 4 := by rw [h]; rfl
    rw [List.length_take] at hfour
    have hbytes : ∀ i < 4, (packet.drop stop).getD i 0 =
        (wire16 qtype ++ wire16 qclass).getD i 0 := by
      intro i hi
      rw [← h, List.getD_eq_getElem?_getD, List.getD_eq_getElem?_getD, List.getElem?_take_of_lt hi]
    rw [hbytes 0 (by omega), hbytes 1 (by omega), hbytes 2 (by omega), hbytes 3 (by omega)]
    exact ⟨by omega, (read16_wire16 qtype).symm, (read16_wire16 qclass).symm⟩
  · rintro ⟨hlen, rfl, rfl⟩
    rw [wire16_read16, wire16_read16]
    match hrest : packet.drop stop, hlen with
    | a :: b :: c :: d :: rest, _ => rfl

theorem getElem?_append_length {α : Type*} (before after : List α) (a : α) :
    (before ++ a :: after)[before.length]? = some a := by
  simp

/-- A name on the wire is read back at its place in any packet. -/
theorem nameAt_wireName (rules : Rules) {name : List Label}
    (hlong : 63 ≤ rules.longestLabel) (h : ∀ l ∈ name, IsLabel l)
    (before after : List UInt8) :
    NameAt rules (before ++ (wireName name ++ after)) before.length name 0
      (before.length + (wireName name).length) := by
  induction name generalizing before with
  | nil => exact .root (getElem?_append_length before after 0)
  | cons label name ih =>
    obtain ⟨hpos, hshort⟩ := h label (List.mem_cons_self ..)
    have hn : (UInt8.ofNat label.length).toNat = label.length :=
      UInt8.toNat_ofNat_of_lt' (by rw [UInt8.size]; omega)
    have hpacket : before ++ (wireName (label :: name) ++ after) =
        (before ++ UInt8.ofNat label.length :: label) ++ (wireName name ++ after) := by
      simp [wireName]
    have hrest := ih (fun l hl => h l (List.mem_cons_of_mem _ hl))
      (before ++ UInt8.ofNat label.length :: label)
    rw [← hpacket] at hrest
    have hnext : before.length + (wireName (label :: name)).length =
        (before ++ UInt8.ofNat label.length :: label).length + (wireName name).length := by
      simp [wireName]
      omega
    rw [hnext]
    refine .label (n := UInt8.ofNat label.length) ?_ ?_ ?_ ?_ hn.symm ?_
    · simp [wireName]
    · intro hzero
      rw [hzero] at hn
      simp at hn
      omega
    · rw [hn]
      exact Nat.le_trans hshort hlong
    · rw [hn]
      simp [wireName]
    · rw [hn]
      have hoffset : before.length + 1 + label.length =
          (before ++ UInt8.ofNat label.length :: label).length := by
        simp
        omega
      rw [hoffset]
      exact hrest

/-- A question on the wire is read back at its place in any packet. -/
theorem questionAt_wireQuestion (rules : Rules) (hlong : 63 ≤ rules.longestLabel) {q : Question}
    (h : ∀ l ∈ q.name, IsLabel l) (before after : List UInt8) :
    QuestionAt rules (before ++ (wireQuestion q ++ after)) before.length q
      (before.length + (wireQuestion q).length) := by
  have hpacket : before ++ (wireQuestion q ++ after) =
      before ++ (wireName q.name ++ (wire16 q.qtype ++ wire16 q.qclass ++ after)) := by
    simp [wireQuestion]
  have hlength : (wireQuestion q).length = (wireName q.name).length + 4 := by
    simp [wireQuestion, wire16]
  have hname := nameAt_wireName rules hlong h before (wire16 q.qtype ++ wire16 q.qclass ++ after)
  rw [← hpacket] at hname
  refine ⟨0, _, hname, fun most _ => Nat.zero_le most, ?_, by omega⟩
  rw [hpacket, ← List.append_assoc, List.drop_append_of_le_length (by simp),
    List.drop_eq_nil_of_le (by simp)]
  rfl

end Dns
