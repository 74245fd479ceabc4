import VirtualChime.Bytes
import VirtualChime.Library.DnsMessage

/-!
# The mDNS responder

`EncodeDnsName`, `DecodeDnsName` and `QueryRequestsHost`.  The decoder reads a name by
laxer rules than RFC 1035: label lengths up to 191, and the end of the packet ends a
name.  `queryRequestsHost_iff` says which packets are answered in terms of the questions
that these rules read.
-/

namespace VirtualChime.Webd.Mdns

open Dns

/-! ## 1. The source -/

def kDnsTypeA : Nat := 1
def kDnsTypeAny : Nat := 255

/-- The loop of `EncodeDnsName` on what is left of the name. -/
def encodeLabels (rest : Bytes) : Option Bytes :=
  if rest = [] then some [0]
  else
    match _hcut : Scanner.cut dot rest with
    | none =>
        if rest.length = 0 ∨ rest.length > 63 then none
        else some (UInt8.ofNat rest.length :: (rest ++ [0]))
    | some (label, rest) =>
        if label.length = 0 ∨ label.length > 63 then none
        else (encodeLabels rest).map fun output => UInt8.ofNat label.length :: (label ++ output)
termination_by rest.length
decreasing_by
  rw [(Scanner.cut_eq_some_iff.mp _hcut).1, List.length_append, List.length_cons]
  omega

def encodeDnsName (fqdn : Bytes) : Bytes := (encodeLabels fqdn).getD []

/-- The loop of `DecodeDnsName`; a name and how many bytes it takes, or a refusal. -/
def decodeLoop (packet : Bytes) (offset depth : Nat) (jumped : Bool) (name : Bytes)
    (local_consumed : Nat) : Option (Bytes × Nat) :=
  match packet[offset]? with
  | none => some (name, local_consumed)
  | some length =>
      if length = 0 then some (name, if jumped then local_consumed else local_consumed + 1)
      else if length &&& 0xC0 = 0xC0 then
        match packet[offset + 1]? with
        | none => none
        | some low =>
            -- `(length & 0x3F) << 8 | packet[offset + 1]`
            let pointer := (length &&& 0x3F).toNat * 256 + low.toNat
            if pointer ≥ packet.length then none
            else if depth + 1 > 8 then none
            else
              decodeLoop packet pointer (depth + 1) true name
                (if jumped then local_consumed else local_consumed + 2)
      else if offset + 1 + length.toNat > packet.length then none
      else
        decodeLoop packet (offset + 1 + length.toNat) depth jumped
          ((if name = [] then name else name ++ [dot]) ++ (packet.drop (offset + 1)).take length.toNat)
          (if jumped then local_consumed else local_consumed + 1 + length.toNat)
termination_by (8 - depth) * (packet.length + 1) + (packet.length - offset)
decreasing_by
  · have hdepth : 8 - depth = 8 - (depth + 1) + 1 := by omega
    rw [hdepth, Nat.add_mul, Nat.one_mul]
    omega
  · omega

def decodeDnsName (packet : Bytes) (start : Nat) : Option (Bytes × Nat) :=
  decodeLoop packet start 0 false [] 0

/-- The loop of `QueryRequestsHost` over the questions that are left. -/
def questionLoop (packet target : Bytes) : Nat → Nat → Bool
  | 0, _ => false
  | left + 1, offset =>
      match decodeDnsName packet offset with
      | none => false
      | some (name, consumed) =>
          let offset := offset + consumed
          if offset + 4 > packet.length then false
          else
            let qtype := read16 (packet.getD offset 0) (packet.getD (offset + 1) 0)
            let qclass := read16 (packet.getD (offset + 2) 0) (packet.getD (offset + 3) 0)
            let class_ok := qclass &&& 0x7FFF == 1
            let type_ok := qtype.toNat == kDnsTypeA || qtype.toNat == kDnsTypeAny
            if class_ok && type_ok && name.map toLower == target then true
            else questionLoop packet target left (offset + 4)

def queryRequestsHost (packet host_fqdn : Bytes) : Bool :=
  if packet.length < 12 then false
  else
    let qdcount := (read16 (packet.getD 4 0) (packet.getD 5 0)).toNat
    questionLoop packet (host_fqdn.map toLower) qdcount 12

/-! ## 2. What the decoder reads -/

/-- The rules of the decoder. -/
def lenient : Rules := ⟨191, true, some 8⟩

theorem isPointer_iff (length : UInt8) : length &&& 0xC0 = 0xC0 ↔ 192 ≤ length.toNat := by
  revert length
  apply byte_forall
  decide +kernel

theorem pointer_eq {high : UInt8} (h : 192 ≤ high.toNat) (low : UInt8) :
    (high &&& 0x3F).toNat * 256 + low.toNat = pointerTarget high low := by
  have hbits : ∀ b : UInt8, 192 ≤ b.toNat → (b &&& 0x3F).toNat = b.toNat - 192 := by
    apply byte_forall
    decide +kernel
  rw [pointerTarget, hbits high h]

/-- The name so far with a further label, and with all the labels that follow. -/
def addLabel (name : Bytes) (label : Label) : Bytes :=
  (if name = [] then name else name ++ [dot]) ++ label

def addLabels (name : Bytes) (labels : List Label) : Bytes := labels.foldl addLabel name

theorem addLabel_ne_nil {name : Bytes} {label : Label} (h : label ≠ []) : addLabel name label ≠ [] :=
  List.append_ne_nil_of_right_ne_nil _ h

theorem addLabels_of_ne_nil {labels : List Label} (h : ∀ l ∈ labels, l ≠ []) {name : Bytes}
    (hname : name ≠ []) : addLabels name labels = dotted (name :: labels) := by
  induction labels generalizing name with
  | nil => simp [addLabels]
  | cons label labels ih =>
    have hlabel : label ≠ [] := h label (List.mem_cons_self ..)
    have hadd : addLabel name label ≠ [] := addLabel_ne_nil hlabel
    have hrest := ih (fun l hl => h l (List.mem_cons_of_mem _ hl)) hadd
    rw [addLabels, List.foldl_cons, ← addLabels, hrest, addLabel, if_neg hname]
    cases labels with
    | nil => simp [dotted_cons_cons]
    | cons next labels => simp [dotted_cons_cons]

theorem addLabels_nil {labels : List Label} (h : ∀ l ∈ labels, l ≠ []) :
    addLabels [] labels = dotted labels := by
  cases labels with
  | nil => rfl
  | cons label labels =>
    have hlabel : label ≠ [] := h label (List.mem_cons_self ..)
    exact addLabels_of_ne_nil (fun l hl => h l (List.mem_cons_of_mem _ hl)) hlabel

/-- How far the decoder says a name goes, if it has not followed a pointer yet. -/
def consumedTo (jumped : Bool) (local_consumed o next : Nat) : Nat :=
  if jumped then local_consumed else local_consumed + (next - o)

theorem le_of_nameAt {rules : Rules} {packet : Bytes} {o pointers next : Nat} {name : List Label}
    (h : NameAt rules packet o name pointers next) : o ≤ next := by
  induction h with
  | root => omega
  | cut => omega
  | label _ _ _ _ _ _ ih => omega
  | pointer => omega

theorem inside_of_label {packet label : Bytes} {o : Nat} {n : UInt8}
    (text : (packet.drop (o + 1)).take n.toNat = label) (inside : label.length = n.toNat)
    (pos : n ≠ 0) : o + 1 + n.toNat ≤ packet.length := by
  have hpos : 0 < n.toNat := Nat.pos_of_ne_zero fun h => pos (UInt8.toNat_inj.mp h)
  rw [← text, List.length_take, List.length_drop] at inside
  omega

/-- The decoder decodes a name that its rules read. -/
theorem decodeLoop_of_nameAt {packet : Bytes} {o pointers next : Nat} {labels : List Label}
    (h : NameAt lenient packet o labels pointers next) {d : Nat} (hd : d + pointers ≤ 8)
    (jumped : Bool) (name : Bytes) (local_consumed : Nat) :
    decodeLoop packet o d jumped name local_consumed =
      some (addLabels name labels, consumedTo jumped local_consumed o next) := by
  induction h generalizing d jumped name local_consumed with
  | root h =>
    rw [decodeLoop, h]
    simp [addLabels, consumedTo]
  | cut may h =>
    rw [decodeLoop, List.getElem?_eq_none h]
    simp [addLabels, consumedTo]
  | @label o pointers next n label labels h pos short text inside rest ih =>
    have hpointer : ¬ n &&& 0xC0 = 0xC0 := by
      rw [isPointer_iff]
      have hle : n.toNat ≤ 191 := short
      omega
    have hend := inside_of_label text inside pos
    have hnext := le_of_nameAt rest
    rw [decodeLoop, h]
    dsimp only
    rw [if_neg pos, if_neg hpointer, if_neg (by omega), text, ih hd]
    have hsame : consumedTo jumped
        (if jumped = true then local_consumed else local_consumed + 1 + n.toNat)
        (o + 1 + n.toNat) next = consumedTo jumped local_consumed o next := by
      cases jumped with
      | true => rfl
      | false =>
        simp only [consumedTo, Bool.false_eq_true, if_false]
        omega
    rw [hsame]
    rfl
  | @pointer o pointers next high low labels hhigh isPointer hlow inside rest ih =>
    have hzero : high ≠ 0 := by
      rintro rfl
      simp at isPointer
    rw [decodeLoop, hhigh]
    dsimp only
    rw [if_neg hzero, if_pos ((isPointer_iff high).mpr isPointer), hlow]
    dsimp only
    rw [pointer_eq isPointer, if_neg (by omega), if_neg (by omega), ih (by omega)]
    cases jumped with
    | true => rfl
    | false => simp [consumedTo]

/-- The decoder decodes nothing else. -/
theorem nameAt_of_decodeLoop {packet : Bytes} {o d : Nat} (hd : d ≤ 8) {jumped : Bool}
    {name : Bytes} {local_consumed : Nat} {result : Bytes × Nat}
    (h : decodeLoop packet o d jumped name local_consumed = some result) :
    ∃ labels pointers next, NameAt lenient packet o labels pointers next ∧ d + pointers ≤ 8 := by
  induction o, d, jumped, name, local_consumed using decodeLoop.induct packet with
  | case1 o d jumped name local_consumed hnone =>
    exact ⟨[], 0, o, .cut rfl (List.getElem?_eq_none_iff.mp hnone), hd⟩
  | case2 o d jumped name local_consumed hzero => exact ⟨[], 0, o + 1, .root hzero, hd⟩
  | case3 o d jumped name local_consumed high hhigh hne hpointer hlow =>
    rw [decodeLoop, hhigh] at h
    simp [hne, hpointer, hlow] at h
  | case4 o d jumped name local_consumed high hhigh hne hpointer low hlow pointer houtside =>
    rw [decodeLoop, hhigh] at h
    simp only [hne, hpointer, hlow, if_false, if_true] at h
    rw [if_pos houtside] at h
    cases h
  | case5 o d jumped name local_consumed high hhigh hne hpointer low hlow pointer hinside hdeep =>
    rw [decodeLoop, hhigh] at h
    simp only [hne, hpointer, hlow, if_false, if_true] at h
    rw [if_neg hinside, if_pos hdeep] at h
    cases h
  | case6 o d jumped name local_consumed high hhigh hne hpointer low hlow pointer hinside hdeep ih =>
    rw [decodeLoop, hhigh] at h
    simp only [hne, hpointer, hlow, if_false, if_true] at h
    rw [if_neg hinside, if_neg hdeep] at h
    obtain ⟨labels, pointers, next, hname, hle⟩ := ih (by omega) h
    have his := (isPointer_iff high).mp hpointer
    rw [show pointer = pointerTarget high low from pointer_eq his low] at hname hinside
    exact ⟨labels, pointers + 1, o + 2, .pointer hhigh his hlow (by omega) hname, by omega⟩
  | case7 o d jumped name local_consumed n hn hne hpointer hlong =>
    rw [decodeLoop, hn] at h
    simp only [hne, hpointer, if_false] at h
    rw [if_pos hlong] at h
    cases h
  | case8 o d jumped name local_consumed n hn hne hpointer hinside ih =>
    rw [decodeLoop, hn] at h
    simp only [hne, hpointer, if_false] at h
    rw [if_neg hinside] at h
    obtain ⟨labels, pointers, next, hname, hle⟩ := ih hd h
    have hshort : n.toNat ≤ 191 := by
      rw [isPointer_iff] at hpointer
      omega
    have hlength : ((packet.drop (o + 1)).take n.toNat).length = n.toNat := by
      rw [List.length_take, List.length_drop]
      omega
    exact ⟨_ :: labels, pointers, next, .label hn hne hshort rfl hlength hname, hle⟩

theorem ne_nil_of_nameAt {rules : Rules} {packet : Bytes} {o pointers next : Nat}
    {name : List Label} (h : NameAt rules packet o name pointers next) : ∀ l ∈ name, l ≠ [] := by
  induction h with
  | root => exact nofun
  | cut => exact nofun
  | @label o pointers next n label name _ pos _ _ inside _ ih =>
    intro l hl
    rcases List.mem_cons.mp hl with rfl | hl
    · rintro rfl
      exact pos (UInt8.toNat_inj.mp inside.symm)
    · exact ih l hl
  | pointer _ _ _ _ _ ih => exact ih

theorem decodeDnsName_of_nameAt {packet : Bytes} {o pointers next : Nat} {labels : List Label}
    (h : NameAt lenient packet o labels pointers next) (hle : pointers ≤ 8) :
    decodeDnsName packet o = some (dotted labels, next - o) := by
  rw [decodeDnsName, decodeLoop_of_nameAt h (by omega), addLabels_nil (ne_nil_of_nameAt h)]
  simp [consumedTo]

theorem nameAt_of_decodeDnsName {packet : Bytes} {o : Nat} {result : Bytes × Nat}
    (h : decodeDnsName packet o = some result) :
    ∃ labels pointers next, NameAt lenient packet o labels pointers next ∧ pointers ≤ 8 ∧
      result = (dotted labels, next - o) := by
  obtain ⟨labels, pointers, next, hname, hle⟩ := nameAt_of_decodeLoop (by omega) h
  have hpointers : pointers ≤ 8 := by omega
  rw [decodeDnsName_of_nameAt hname hpointers] at h
  exact ⟨labels, pointers, next, hname, hpointers, (Option.some.inj h).symm⟩

/-! ## 3. Which packets are answered -/

/-- A question for an IPv4 address or for everything, of class IN whatever its top bit says. -/
def IsAddressQuestion (q : Question) : Prop :=
  q.qclass &&& 0x7FFF = 1 ∧ (q.qtype.toNat = kDnsTypeA ∨ q.qtype.toNat = kDnsTypeAny)

/-- A question that the text of the host name answers, in either case. -/
def MatchesText (q : Question) (host_fqdn : Bytes) : Prop :=
  IsAddressQuestion q ∧ (dotted q.name).map toLower = host_fqdn.map toLower

instance (q : Question) : Decidable (IsAddressQuestion q) :=
  inferInstanceAs (Decidable (_ ∧ (_ ∨ _)))

instance (q : Question) (host_fqdn : Bytes) : Decidable (MatchesText q host_fqdn) :=
  inferInstanceAs (Decidable (_ ∧ _))

/-- A question that the decoder's rules read is compared, and the loop goes on after it. -/
theorem questionLoop_of_questionAt {packet host_fqdn : Bytes} {o next : Nat} {q : Question}
    (h : QuestionAt lenient packet o q next) (left : Nat) :
    questionLoop packet (host_fqdn.map toLower) (left + 1) o =
      if MatchesText q host_fqdn then true
      else questionLoop packet (host_fqdn.map toLower) left next := by
  obtain ⟨pointers, stop, hname, hmost, hfields, rfl⟩ := h
  obtain ⟨hinside, htype, hclass⟩ := fields_iff.mp hfields
  have hstop : o + (stop - o) = stop := Nat.add_sub_cancel' (le_of_nameAt hname)
  rw [questionLoop, decodeDnsName_of_nameAt hname (hmost 8 rfl)]
  dsimp only
  rw [hstop, if_neg (by omega), ← htype, ← hclass]
  have hmatch : ((q.qclass &&& 0x7FFF == 1 &&
      (q.qtype.toNat == kDnsTypeA || q.qtype.toNat == kDnsTypeAny) &&
      (dotted q.name).map toLower == host_fqdn.map toLower) = true) ↔ MatchesText q host_fqdn := by
    rw [Bool.and_eq_true, Bool.and_eq_true, Bool.or_eq_true, beq_iff_eq, beq_iff_eq, beq_iff_eq,
      beq_iff_eq]
    exact Iff.rfl
  simp only [hmatch]

/-- Where the loop finds an answer it has read a question. -/
theorem questionAt_of_questionLoop {packet target : Bytes} {left o : Nat}
    (h : questionLoop packet target (left + 1) o = true) :
    ∃ q next, QuestionAt lenient packet o q next := by
  rw [questionLoop] at h
  cases hdecode : decodeDnsName packet o with
  | none => simp [hdecode] at h
  | some result =>
    obtain ⟨labels, pointers, next, hname, hle, rfl⟩ := nameAt_of_decodeDnsName hdecode
    have hnext : o + (next - o) = next := Nat.add_sub_cancel' (le_of_nameAt hname)
    rw [hdecode] at h
    dsimp only at h
    rw [hnext] at h
    split at h
    · cases h
    · next hinside =>
      refine ⟨⟨labels, _, _⟩, next + 4, pointers, next, hname, ?_, fields_iff.mpr ⟨by omega, rfl, rfl⟩,
        rfl⟩
      intro most hmost
      rwa [← Option.some.inj hmost]

theorem questionLoop_iff {packet host_fqdn : Bytes} {left o : Nat} :
    questionLoop packet (host_fqdn.map toLower) left o = true ↔
      ∃ q before start stop, before.length < left ∧ QuestionsAt lenient packet o before start ∧
        QuestionAt lenient packet start q stop ∧ MatchesText q host_fqdn := by
  induction left generalizing o with
  | zero => simp [questionLoop]
  | succ left ih =>
    constructor
    · intro h
      obtain ⟨q, next, hq⟩ := questionAt_of_questionLoop h
      rw [questionLoop_of_questionAt hq] at h
      by_cases hmatch : MatchesText q host_fqdn
      · exact ⟨q, [], o, next, Nat.succ_pos left, .nil, hq, hmatch⟩
      · rw [if_neg hmatch] at h
        obtain ⟨asked, before, start, stop, hlen, hbefore, hasked, htext⟩ := ih.mp h
        exact ⟨asked, q :: before, start, stop, Nat.succ_lt_succ hlen, .cons hq hbefore, hasked,
          htext⟩
    · rintro ⟨q, before, start, stop, hlen, hbefore, hq, hmatch⟩
      cases hbefore with
      | nil => rw [questionLoop_of_questionAt hq, if_pos hmatch]
      | cons first rest =>
        rw [questionLoop_of_questionAt first]
        split
        · rfl
        · exact ih.mpr ⟨q, _, start, stop, Nat.lt_of_succ_lt_succ hlen, rest, hq, hmatch⟩

theorem le_of_questionsAt {rules : Rules} {packet : Bytes} {o next : Nat} {qs : List Question}
    (h : QuestionsAt rules packet o qs next) : o ≤ next := by
  induction h with
  | nil => exact le_refl _
  | cons first _ ih =>
    obtain ⟨_, stop, hname, -, -, rfl⟩ := first
    have hstop := le_of_nameAt hname
    omega

/-- A packet with a question has more than a header. -/
theorem headerSize_lt_of_asked {rules : Rules} {packet : Bytes} {q : Question}
    (h : Asked rules packet q) : headerSize < packet.length := by
  obtain ⟨before, start, stop, -, hbefore, pointers, next, hname, -, hfields, -⟩ := h
  have hstart := le_of_questionsAt hbefore
  have hnext := le_of_nameAt hname
  have hinside := (fields_iff.mp hfields).1
  omega

/-- A packet is answered exactly when one of its announced questions, read by the decoder's
rules, asks for the text of the host name. -/
theorem queryRequestsHost_iff {packet host_fqdn : Bytes} :
    queryRequestsHost packet host_fqdn = true ↔
      ∃ q, Asked lenient packet q ∧ MatchesText q host_fqdn := by
  rw [queryRequestsHost]
  split
  · next hshort =>
    constructor
    · intro h
      cases h
    · rintro ⟨q, hasked, -⟩
      have hlong := headerSize_lt_of_asked hasked
      rw [headerSize] at hlong
      omega
  · rw [questionLoop_iff]
    constructor
    · rintro ⟨q, before, start, stop, hlen, hbefore, hq, hmatch⟩
      exact ⟨q, ⟨before, start, stop, hlen, hbefore, hq⟩, hmatch⟩
    · rintro ⟨q, ⟨before, start, stop, hlen, hbefore, hq⟩, hmatch⟩
      exact ⟨q, before, start, stop, hlen, hbefore, hq, hmatch⟩

end VirtualChime.Webd.Mdns
