import VirtualChime.Mdns

/-!
# Which queries are answered

Every packet that is written as RFC 1035 says, without compression, is answered exactly
when one of its questions asks for the host; a host name with a final dot gets no
answers.  The decoder reads more than such packets, so it also answers packets that ask
nothing (`response_answered`), but none that no decoder could read in another way
(`answers_genuine`).
-/

namespace VirtualChime.Webd.Mdns

open Dns

/-! ## 1. The labels of the host name -/

/-- The labels of a name: the parts that `EncodeDnsName` writes. -/
def hostLabels (fqdn : Bytes) : List Label :=
  if fqdn = [] then []
  else
    match _hcut : Scanner.cut dot fqdn with
    | none => [fqdn]
    | some (label, rest) => label :: hostLabels rest
termination_by fqdn.length
decreasing_by
  rw [(Scanner.cut_eq_some_iff.mp _hcut).1, List.length_append, List.length_cons]
  omega

theorem hostLabels_append {label : Label} (h : dot ∉ label) (rest : Bytes) :
    hostLabels (label ++ dot :: rest) = label :: hostLabels rest := by
  have hcut : Scanner.cut dot (label ++ dot :: rest) = some (label, rest) := Scanner.cut_append h rest
  rw [hostLabels, if_neg (by simp)]
  split
  · next hnone =>
    rw [hcut] at hnone
    cases hnone
  · next hsome =>
    rw [hcut] at hsome
    obtain ⟨rfl, rfl⟩ := Prod.mk.inj (Option.some.inj hsome)
    rfl

theorem hostLabels_of_not_mem {label : Label} (hne : label ≠ []) (h : dot ∉ label) :
    hostLabels label = [label] := by
  rw [hostLabels, if_neg hne]
  split
  · rfl
  · next hsome =>
    rw [Scanner.cut_eq_none_iff.mpr h] at hsome
    cases hsome

/-- A name is empty, a last label, or a label with a dot and what follows. -/
theorem name_cases (fqdn : Bytes) :
    fqdn = [] ∨ (fqdn ≠ [] ∧ dot ∉ fqdn) ∨
      ∃ label rest, dot ∉ label ∧ fqdn = label ++ dot :: rest := by
  by_cases hnil : fqdn = []
  · exact Or.inl hnil
  · cases hcut : Scanner.cut dot fqdn with
    | none => exact Or.inr (Or.inl ⟨hnil, Scanner.cut_eq_none_iff.mp hcut⟩)
    | some parts =>
      obtain ⟨heq, hlabel⟩ := Scanner.cut_eq_some_iff.mp (show _ = some (parts.1, parts.2) from hcut)
      exact Or.inr (Or.inr ⟨parts.1, parts.2, hlabel, heq⟩)

theorem plain_of_mem_hostLabels {fqdn : Bytes} : ∀ l ∈ hostLabels fqdn, dot ∉ l := by
  induction hlen : fqdn.length using Nat.strong_induction_on generalizing fqdn with
  | _ n ih =>
    obtain rfl | ⟨hne, hplain⟩ | ⟨label, rest, hlabel, rfl⟩ := name_cases fqdn
    · simp [hostLabels]
    · rw [hostLabels_of_not_mem hne hplain]
      simpa using hplain
    · rw [hostLabels_append hlabel]
      rw [List.length_append, List.length_cons] at hlen
      intro l hl
      rcases List.mem_cons.mp hl with rfl | hl
      · exact hlabel
      · exact ih rest.length (by omega) rfl l hl

/-- The text of the labels is the name without a final dot. -/
theorem dotted_hostLabels (fqdn : Bytes) :
    fqdn = dotted (hostLabels fqdn) ∨ fqdn = dotted (hostLabels fqdn) ++ [dot] := by
  induction hlen : fqdn.length using Nat.strong_induction_on generalizing fqdn with
  | _ n ih =>
    obtain rfl | ⟨hne, hplain⟩ | ⟨label, rest, hlabel, rfl⟩ := name_cases fqdn
    · left
      simp [hostLabels]
    · left
      rw [hostLabels_of_not_mem hne hplain, dotted_singleton]
    · rw [hostLabels_append hlabel]
      rw [List.length_append, List.length_cons] at hlen
      by_cases hrest : rest = []
      · right
        simp [hrest, hostLabels]
      · have hlabels : hostLabels rest ≠ [] := by
          intro hnil
          rw [hostLabels, if_neg hrest] at hnil
          split at hnil <;> cases hnil
        obtain ⟨next, labels, hcons⟩ := List.exists_cons_of_ne_nil hlabels
        have hdotted : dotted (label :: hostLabels rest) = label ++ dot :: dotted (hostLabels rest) := by
          rw [hcons, dotted_cons_cons]
        rw [hdotted]
        obtain heq | heq := ih rest.length (by omega) rest rfl
        · left
          rw [← heq]
        · right
          rw [List.append_assoc, List.cons_append, ← heq]

theorem encodeLabels_append {label : Label} (h : dot ∉ label) (rest : Bytes) :
    encodeLabels (label ++ dot :: rest) =
      if label.length = 0 ∨ label.length > 63 then none
      else (encodeLabels rest).map fun output => UInt8.ofNat label.length :: (label ++ output) := by
  have hcut : Scanner.cut dot (label ++ dot :: rest) = some (label, rest) := Scanner.cut_append h rest
  rw [encodeLabels, if_neg (by simp)]
  split
  · next hnone =>
    rw [hcut] at hnone
    cases hnone
  · next hsome =>
    rw [hcut] at hsome
    obtain ⟨rfl, rfl⟩ := Prod.mk.inj (Option.some.inj hsome)
    rfl

theorem encodeLabels_of_not_mem {label : Label} (hne : label ≠ []) (h : dot ∉ label) :
    encodeLabels label =
      if label.length = 0 ∨ label.length > 63 then none
      else some (UInt8.ofNat label.length :: (label ++ [0])) := by
  rw [encodeLabels, if_neg hne]
  split
  · rfl
  · next hsome =>
    rw [Scanner.cut_eq_none_iff.mpr h] at hsome
    cases hsome

/-- What `EncodeDnsName` writes is the labels of the name, each of a legal length. -/
theorem encodeLabels_eq_some {fqdn output : Bytes} (h : encodeLabels fqdn = some output) :
    (∀ l ∈ hostLabels fqdn, IsLabel l) ∧ output = wireName (hostLabels fqdn) := by
  induction hlen : fqdn.length using Nat.strong_induction_on generalizing fqdn output with
  | _ n ih =>
    obtain rfl | ⟨hne, hplain⟩ | ⟨label, rest, hlabel, rfl⟩ := name_cases fqdn
    · rw [encodeLabels, if_pos rfl] at h
      rw [hostLabels, if_pos rfl]
      exact ⟨nofun, (Option.some.inj h).symm⟩
    · rw [encodeLabels_of_not_mem hne hplain] at h
      rw [hostLabels_of_not_mem hne hplain]
      split at h
      · cases h
      · next hlength =>
        rw [not_or, not_lt] at hlength
        refine ⟨?_, (Option.some.inj h).symm⟩
        intro l hl
        rw [List.mem_singleton.mp hl]
        exact ⟨Nat.pos_of_ne_zero hlength.1, hlength.2⟩
    · rw [encodeLabels_append hlabel] at h
      rw [hostLabels_append hlabel]
      rw [List.length_append, List.length_cons] at hlen
      split at h
      · cases h
      · next hlength =>
        rw [not_or, not_lt] at hlength
        obtain ⟨written, hrest, rfl⟩ := Option.map_eq_some_iff.mp h
        obtain ⟨hlabels, hwritten⟩ := ih rest.length (by omega) hrest rfl
        rw [hwritten]
        refine ⟨?_, rfl⟩
        intro l hl
        rcases List.mem_cons.mp hl with rfl | hl
        · exact ⟨Nat.pos_of_ne_zero hlength.1, hlength.2⟩
        · exact hlabels l hl

theorem encodeDnsName_eq {fqdn : Bytes} (h : encodeDnsName fqdn ≠ []) :
    (∀ l ∈ hostLabels fqdn, IsLabel l) ∧ encodeDnsName fqdn = wireName (hostLabels fqdn) := by
  rw [encodeDnsName] at h ⊢
  cases hencode : encodeLabels fqdn with
  | none => simp [hencode] at h
  | some output => exact encodeLabels_eq_some hencode

/-! ## 2. Names up to case -/

/-- The same labels, whatever the case of their letters. -/
def SameName (name other : List Label) : Prop :=
  name.map (·.map toLower) = other.map (·.map toLower)

instance (name other : List Label) : Decidable (SameName name other) :=
  inferInstanceAs (Decidable (_ = _))

theorem toLower_eq_dot_iff (c : Byte) : toLower c = dot ↔ c = dot := by
  revert c
  apply byte_forall
  decide +kernel

theorem dotted_map_toLower (name : List Label) :
    dotted (name.map (·.map toLower)) = (dotted name).map toLower := by
  induction name with
  | nil => rfl
  | cons label name ih =>
    cases name with
    | nil => simp
    | cons next name =>
      rw [List.map_cons, List.map_cons, dotted_cons_cons, ← List.map_cons, ih, dotted_cons_cons,
        List.map_append, List.map_cons]
      rfl

theorem plain_map_toLower {name : List Label} (h : ∀ l ∈ name, l ≠ [] ∧ dot ∉ l) :
    ∀ l ∈ name.map (·.map toLower), l ≠ [] ∧ dot ∉ l := by
  intro l hl
  obtain ⟨label, hlabel, rfl⟩ := List.mem_map.mp hl
  obtain ⟨hne, hdot⟩ := h label hlabel
  refine ⟨by simpa using hne, ?_⟩
  intro hmem
  obtain ⟨c, hc, hlower⟩ := List.mem_map.mp hmem
  rw [toLower_eq_dot_iff] at hlower
  exact hdot (hlower ▸ hc)

/-- Names of plain labels are the same up to case when their texts are. -/
theorem sameName_iff {name other : List Label} (h : ∀ l ∈ name, l ≠ [] ∧ dot ∉ l)
    (h' : ∀ l ∈ other, l ≠ [] ∧ dot ∉ l) :
    SameName name other ↔ (dotted name).map toLower = (dotted other).map toLower := by
  rw [← dotted_map_toLower, ← dotted_map_toLower]
  constructor
  · exact congrArg dotted
  · exact dotted_inj (plain_map_toLower h) (plain_map_toLower h')

/-- The decoder's text of a question names the host exactly when the question has its labels and
the host name has no final dot. -/
theorem text_eq_iff {fqdn : Bytes} (hhost : ∀ l ∈ hostLabels fqdn, IsLabel l) {name : List Label}
    (hname : ∀ l ∈ name, l ≠ [] ∧ dot ∉ l) :
    (dotted name).map toLower = fqdn.map toLower ↔
      fqdn.getLast? ≠ some dot ∧ SameName name (hostLabels fqdn) := by
  have hlabels : ∀ l ∈ hostLabels fqdn, l ≠ [] ∧ dot ∉ l := fun l hl =>
    ⟨List.ne_nil_of_length_pos (hhost l hl).1, plain_of_mem_hostLabels l hl⟩
  obtain heq | heq := dotted_hostLabels fqdn
  · have hlast : fqdn.getLast? ≠ some dot := by
      rw [heq]
      exact getLast?_dotted_ne hlabels
    have htext : fqdn.map toLower = (dotted (hostLabels fqdn)).map toLower :=
      congrArg (List.map toLower) heq
    rw [htext, ← sameName_iff hname hlabels]
    exact ⟨fun hsame => ⟨hlast, hsame⟩, And.right⟩
  · have hlast : fqdn.getLast? = some dot := by
      rw [heq]
      exact List.getLast?_concat
    constructor
    · intro htext
      rw [← dotted_map_toLower] at htext
      have hlower := getLast?_dotted_ne (plain_map_toLower hname)
      rw [htext, List.getLast?_map, hlast] at hlower
      exact absurd rfl hlower
    · intro h
      exact absurd hlast h.1

/-! ## 3. Well-formed queries -/

theorem questionLoop_wire {questions : List Question}
    (h : ∀ q ∈ questions, ∀ l ∈ q.name, IsLabel l) (fqdn before after : Bytes) :
    questionLoop (before ++ (questions.flatMap wireQuestion ++ after)) (fqdn.map toLower)
      questions.length before.length = questions.any fun q => MatchesText q fqdn := by
  induction questions generalizing before with
  | nil => rfl
  | cons q questions ih =>
    have hpacket : before ++ ((q :: questions).flatMap wireQuestion ++ after) =
        before ++ (wireQuestion q ++ (questions.flatMap wireQuestion ++ after)) := by simp
    have hnext : before ++ ((q :: questions).flatMap wireQuestion ++ after) =
        (before ++ wireQuestion q) ++ (questions.flatMap wireQuestion ++ after) := by simp
    have hq := questionAt_wireQuestion lenient (by decide) (h q (List.mem_cons_self ..)) before
      (questions.flatMap wireQuestion ++ after)
    rw [← hpacket] at hq
    have hrest := ih (fun q hq => h q (List.mem_cons_of_mem _ hq)) (before ++ wireQuestion q)
    rw [← hnext, List.length_append] at hrest
    rw [List.length_cons, questionLoop_of_questionAt hq, hrest, List.any_cons]
    by_cases hmatch : MatchesText q fqdn
    · simp [hmatch]
    · simp [hmatch]

theorem getD_append_of_lt {header : Bytes} {i : Nat} (h : i < header.length) (rest : Bytes) :
    (header ++ rest).getD i 0 = header.getD i 0 := by
  rw [List.getD_eq_getElem?_getD, List.getD_eq_getElem?_getD, List.getElem?_append_left h]

/-- A query whose questions are written without compression is answered exactly when the host
name has no final dot and one of the questions asks for its labels. -/
theorem wellformed_query_answered_iff {fqdn : Bytes} (hname : encodeDnsName fqdn ≠ [])
    {header : Bytes} (hheader : header.length = headerSize) {questions : List Question}
    (hcount : qdcount header = questions.length)
    (hlabels : ∀ q ∈ questions, ∀ l ∈ q.name, IsLabel l ∧ dot ∉ l) (after : Bytes) :
    queryRequestsHost (header ++ (questions.flatMap wireQuestion ++ after)) fqdn = true ↔
      fqdn.getLast? ≠ some dot ∧
        ∃ q ∈ questions, IsAddressQuestion q ∧ SameName q.name (hostLabels fqdn) := by
  rw [headerSize] at hheader
  have hlong : ¬ (header ++ (questions.flatMap wireQuestion ++ after)).length < 12 := by
    rw [List.length_append]
    omega
  have hqdcount : (read16 ((header ++ (questions.flatMap wireQuestion ++ after)).getD 4 0)
      ((header ++ (questions.flatMap wireQuestion ++ after)).getD 5 0)).toNat = questions.length := by
    rw [getD_append_of_lt (by omega), getD_append_of_lt (by omega)]
    exact hcount
  have hloop := questionLoop_wire (fun q hq l hl => (hlabels q hq l hl).1) fqdn header after
  rw [hheader] at hloop
  rw [queryRequestsHost, if_neg hlong]
  dsimp only
  rw [hqdcount, hloop, List.any_eq_true]
  have htext : ∀ q ∈ questions, (dotted q.name).map toLower = fqdn.map toLower ↔
      fqdn.getLast? ≠ some dot ∧ SameName q.name (hostLabels fqdn) := by
    intro q hq
    apply text_eq_iff (encodeDnsName_eq hname).1
    intro l hl
    obtain ⟨hlabel, hplain⟩ := hlabels q hq l hl
    exact ⟨List.ne_nil_of_length_pos hlabel.1, hplain⟩
  constructor
  · rintro ⟨q, hq, hmatch⟩
    obtain ⟨haddress, hsame⟩ := of_decide_eq_true hmatch
    obtain ⟨hlast, hsame⟩ := (htext q hq).mp hsame
    exact ⟨hlast, q, hq, haddress, hsame⟩
  · rintro ⟨hlast, q, hq, haddress, hsame⟩
    exact ⟨q, hq, decide_eq_true ⟨haddress, (htext q hq).mpr ⟨hlast, hsame⟩⟩⟩

/-- The header of a query with one question. -/
def queryHeader : Bytes := [0, 0, 0, 0, 0, 1, 0, 0, 0, 0, 0, 0]

def chimeQuestion : Question := ⟨[bytes "Chime", bytes "local"], 1, 1⟩

/-- A host name with a final dot is never answered for, although it has the labels asked for. -/
theorem final_dot_unanswered :
    encodeDnsName (bytes "chime.local.") ≠ [] ∧
      SameName chimeQuestion.name (hostLabels (bytes "chime.local.")) ∧
      IsAddressQuestion chimeQuestion ∧
      queryRequestsHost (queryHeader ++ ([chimeQuestion].flatMap wireQuestion ++ []))
        (bytes "chime.local.") = false := by
  decide +kernel

theorem wellformed_query_answered_chime :
    queryRequestsHost (queryHeader ++ ([chimeQuestion].flatMap wireQuestion ++ []))
      (bytes "chime.local") = true := by
  apply (wellformed_query_answered_iff (by decide +kernel) (by rfl) (by rfl) (by decide +kernel)
    []).mpr
  exact ⟨by decide +kernel, chimeQuestion, List.mem_singleton.mpr rfl, by decide +kernel⟩

/-! ## 4. Packets that ask nothing -/

/-- The labels of a host name: the parts of its text between the dots. -/
def textLabels (host_fqdn : Bytes) : List Label :=
  if host_fqdn = [] then [] else host_fqdn.splitOn dot

theorem dotted_textLabels (host_fqdn : Bytes) : dotted (textLabels host_fqdn) = host_fqdn := by
  rw [textLabels]
  split
  · next hnil => rw [hnil, dotted_nil]
  · exact List.intercalate_splitOn dot

theorem plain_of_mem_textLabels {host_fqdn : Bytes} : ∀ l ∈ textLabels host_fqdn, dot ∉ l := by
  intro l hl
  rw [textLabels] at hl
  split at hl
  · cases hl
  · exact Scanner.not_mem_of_mem_splitOn hl

/-- A name has the labels of the host name when it has its text and no dot in a label. -/
theorem sameName_textLabels_iff {name : List Label} (hname : ∀ l ∈ name, l ≠ [])
    (host_fqdn : Bytes) :
    SameName name (textLabels host_fqdn) ↔
      (dotted name).map toLower = host_fqdn.map toLower ∧ ∀ l ∈ name, dot ∉ l := by
  have hlower : dotted ((textLabels host_fqdn).map (·.map toLower)) = host_fqdn.map toLower := by
    rw [dotted_map_toLower, dotted_textLabels]
  have hplain : ∀ {names : List Label}, (∀ l ∈ names, dot ∉ l) →
      ∀ l ∈ names.map (·.map toLower), dot ∉ l := by
    intro names hnames l hl hdot
    obtain ⟨label, hlabel, rfl⟩ := List.mem_map.mp hl
    obtain ⟨c, hc, hcdot⟩ := List.mem_map.mp hdot
    rw [toLower_eq_dot_iff] at hcdot
    exact hnames label hlabel (hcdot ▸ hc)
  constructor
  · intro hsame
    constructor
    · rw [← dotted_map_toLower, ← hlower]
      exact congrArg dotted hsame
    · intro l hl hdot
      have hmem : l.map toLower ∈ (textLabels host_fqdn).map (·.map toLower) := by
        rw [← hsame]
        exact List.mem_map_of_mem hl
      apply hplain plain_of_mem_textLabels _ hmem
      exact List.mem_map.mpr ⟨dot, hdot, (toLower_eq_dot_iff dot).mpr rfl⟩
  · rintro ⟨htext, hdots⟩
    rw [← dotted_map_toLower, ← hlower] at htext
    rw [SameName]
    by_cases hhost : host_fqdn = []
    · have hnil : dotted name = [] := by
        rw [dotted_map_toLower, hlower, hhost] at htext
        exact List.map_eq_nil_iff.mp htext
      rw [(dotted_eq_nil_iff hname).mp hnil, textLabels, if_pos hhost]
    · have hne : name ≠ [] := by
        rintro rfl
        rw [hlower] at htext
        exact hhost (List.map_eq_nil_iff.mp htext.symm)
      have hlabels : textLabels host_fqdn ≠ [] := by
        rw [textLabels, if_neg hhost]
        exact List.splitOn_ne_nil dot host_fqdn
      rw [← List.splitOn_intercalate dot (hplain hdots) (by simpa using hne),
        ← List.splitOn_intercalate dot (hplain plain_of_mem_textLabels) (by simpa using hlabels)]
      exact congrArg (List.splitOn dot) htext

/-- A query in which a question that RFC 1035 reads asks for the labels of the host name. -/
def Genuine (packet host_fqdn : Bytes) : Prop :=
  IsQuery packet ∧ ∃ q, Asked rfc1035 packet q ∧ IsAddressQuestion q ∧
    SameName q.name (textLabels host_fqdn)

/-- A packet that no decoder could read in another way.  Either none of its announced questions is
for an address; or it is a query, and every name that the lax rules read at the place of an announced
question has lengths up to 63, a zero byte inside the packet at its end and no dot in a label. -/
def PlainlyAsks (packet : Bytes) : Prop :=
  (∀ q, Asked lenient packet q → ¬ IsAddressQuestion q) ∨
  (IsQuery packet ∧ ∀ before start, before.length < qdcount packet →
    QuestionsAt lenient packet headerSize before start → ∀ name pointers next,
      NameAt lenient packet start name pointers next →
        NameAt rfc1035 packet start name pointers next ∧ ∀ l ∈ name, dot ∉ l)

theorem ne_nil_of_asked {rules : Rules} {packet : Bytes} {q : Question}
    (h : Asked rules packet q) : ∀ l ∈ q.name, l ≠ [] := by
  obtain ⟨before, start, stop, -, -, pointers, next, hname, -⟩ := h
  exact ne_nil_of_nameAt hname

/-- Questions whose names RFC 1035 reads are questions of RFC 1035. -/
theorem questionsAt_rfc1035 {packet : Bytes} {o next : Nat} {qs : List Question} {n : Nat}
    (hplain : ∀ before start, before.length < n → QuestionsAt lenient packet o before start →
      ∀ name pointers stop, NameAt lenient packet start name pointers stop →
        NameAt rfc1035 packet start name pointers stop)
    (hlen : qs.length ≤ n) (h : QuestionsAt lenient packet o qs next) :
    QuestionsAt rfc1035 packet o qs next := by
  induction h generalizing n with
  | nil => exact .nil
  | @cons o mid next q qs first rest ih =>
    rw [List.length_cons] at hlen
    have hfirst : QuestionAt rfc1035 packet o q mid := by
      obtain ⟨pointers, stop, hname, -, hfields, hmid⟩ := first
      exact ⟨pointers, stop, hplain [] o (by simpa using by omega) .nil _ _ _ hname, nofun, hfields,
        hmid⟩
    refine .cons hfirst (ih (n := n - 1) ?_ (by omega))
    intro before start hbefore hread
    exact hplain (q :: before) start (by rw [List.length_cons]; omega) (.cons first hread)

/-- A packet that asks plainly is answered only if it asks for the host name. -/
theorem answers_genuine {packet : Bytes} (h : PlainlyAsks packet) (host_fqdn : Bytes)
    (hanswered : queryRequestsHost packet host_fqdn = true) : Genuine packet host_fqdn := by
  obtain ⟨q, hasked, haddress, htext⟩ := queryRequestsHost_iff.mp hanswered
  rcases h with hnone | ⟨hquery, hplain⟩
  · exact absurd haddress (hnone q hasked)
  · obtain ⟨before, start, stop, hlen, hbefore, hq⟩ := hasked
    obtain ⟨pointers, next, hname, -, hfields, hstop⟩ := hq
    obtain ⟨hrfc, hdots⟩ := hplain before start hlen hbefore _ _ _ hname
    have hnames := questionsAt_rfc1035 (fun before start hbefore hread name pointers stop hname =>
      (hplain before start hbefore hread name pointers stop hname).1) (Nat.le_of_lt hlen) hbefore
    have hasked : Asked rfc1035 packet q :=
      ⟨before, start, stop, hlen, hnames, pointers, next, hrfc, nofun, hfields, hstop⟩
    have hsame := (sameName_textLabels_iff (ne_nil_of_asked hasked) host_fqdn).mpr ⟨htext, hdots⟩
    exact ⟨hquery, q, hasked, haddress, hsame⟩

/-- A query for the host that asks plainly. -/
theorem answers_genuine_chime :
    Genuine (queryHeader ++ wireQuestion chimeQuestion) (bytes "chime.local") := by
  refine answers_genuine (Or.inr ⟨by decide +kernel, ?_⟩) _ (by decide +kernel)
  intro before start hlen hbefore name pointers next hname
  have hnil : before = [] := List.length_eq_zero_iff.mp (Nat.lt_one_iff.mp hlen)
  subst hnil
  cases hbefore
  have hlabels : ∀ l ∈ chimeQuestion.name, IsLabel l := by decide +kernel
  have hread := nameAt_wireName rfc1035 (le_refl 63) hlabels queryHeader [0, 1, 0, 1]
  have hlax : NameAt lenient (queryHeader ++ (wireName chimeQuestion.name ++ [0, 1, 0, 1])) 12
      chimeQuestion.name 0 _ := hread.mono (by decide) fun _ => rfl
  obtain ⟨rfl, rfl, rfl⟩ := hlax.unique (by decide) hname
  exact ⟨hread, by decide +kernel⟩

/-- A response that repeats the question for the host is answered. -/
theorem response_answered :
    let packet := [0, 0, 0x84, 0, 0, 1, 0, 0, 0, 0, 0, 0] ++ wireQuestion chimeQuestion
    queryRequestsHost packet (bytes "chime.local") = true ∧ ¬ IsQuery packet ∧
      ¬ Genuine packet (bytes "chime.local") := by
  intro packet
  have hresponse : ¬ IsQuery packet := by decide +kernel
  exact ⟨by decide +kernel, hresponse, fun h => hresponse h.1⟩

end VirtualChime.Webd.Mdns
