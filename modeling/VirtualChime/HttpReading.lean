import VirtualChime.RingSounds
import VirtualChime.Library.Streams

/-!
# Reading a request

`ReadHttpRequest`: the loop that reads up to the blank line, the request line and the
header fields, and the loop that reads the body.  Both loops hold what they have read
against a limit, and a read may take them past the end of what they are to read:
`delivery_independent_iff` says for which streams the reads make a difference.
-/

namespace VirtualChime.Webd

open Streams

/-! ## 1. The source -/

def kMaxRequestBytes : Nat := 65536
def kMaxBodyBytes : Nat := 2 * 1024 * 1024

/-- The size of the buffer of both loops. -/
def readSize : Nat := 2048

abbrev RequestDelivery (stream : Bytes) := Delivery readSize stream

def blankLine : Bytes := [13, 10, 13, 10]

def requestTooLarge : Bytes := bytes "request too large"
def requestUnread : Bytes := bytes "failed to read request"
def missingRequestLine : Bytes := bytes "missing request line"
def invalidRequestLine : Bytes := bytes "invalid request line"
def invalidContentLength : Bytes := bytes "invalid Content-Length"
def bodyTooLarge : Bytes := bytes "request body too large"
def bodyUnread : Bytes := bytes "failed to read request body"

/-- The first loop: what stands before the blank line, what has been read after it, and the reads
to come. -/
def readHead (data : Bytes) : List Bytes → Except Bytes (Bytes × Bytes × List Bytes)
  | [] => if kMaxRequestBytes ≤ data.length then .error requestTooLarge else .error requestUnread
  | buffer :: reads =>
      if kMaxRequestBytes ≤ data.length then .error requestTooLarge
      else
        match cutAt blankLine (data ++ buffer) with
        | some (header_blob, body) => .ok (header_blob, body, reads)
        | none => readHead (data ++ buffer) reads

def withoutReturn (line : Bytes) : Bytes :=
  if line.getLast? = some carriageReturn then line.dropLast else line

/-- What `>>` reads one after the other. -/
def words (line : Bytes) : List Bytes := (line.splitOnP isSpace).filter (· ≠ [])

def headerField (header_line : Bytes) : Option (Bytes × Bytes) :=
  (Scanner.cut 58 (withoutReturn header_line)).map fun (key, value) =>
    ((trim key).map toLower, trim value)

def contentLength (headers : List (Bytes × Bytes)) : Except Bytes Nat :=
  match KeyMap.get (bytes "content-length") headers with
  | none => .ok 0
  | some value =>
      let (parsed, rest) := strtol value
      if rest ≠ [] ∨ parsed < 0 then .error invalidContentLength else .ok parsed.toNat

structure RequestHead where
  method : Bytes
  path : Bytes
  headers : List (Bytes × Bytes)
  content_length : Nat
deriving DecidableEq, Repr

/-- The part between the two loops. -/
def parseHead (header_blob : Bytes) : Except Bytes RequestHead :=
  match getlines header_blob with
  | [] => .error missingRequestLine
  | request_line :: header_lines =>
      match words (withoutReturn request_line) with
      | method :: path :: _ :: _ => do
          let headers := KeyMap.ofList keyBefore (header_lines.filterMap headerField)
          let content_length ← contentLength headers
          if kMaxBodyBytes < content_length then throw bodyTooLarge
          return { method, path, headers, content_length }
      | _ => .error invalidRequestLine

/-- The second loop. -/
def readBody (content_length : Nat) (body : Bytes) : List Bytes → Except Bytes Bytes
  | [] =>
      if body.length < content_length then .error bodyUnread else .ok (body.take content_length)
  | buffer :: reads =>
      if body.length < content_length then
        if kMaxBodyBytes < (body ++ buffer).length then .error bodyTooLarge
        else readBody content_length (body ++ buffer) reads
      else .ok (body.take content_length)

def requestOf (head : RequestHead) (body : Bytes) : HttpRequest where
  method := head.method
  path := head.path.takeWhile (· ≠ 63)
  body
  content_type := (KeyMap.get (bytes "content-type") head.headers).getD []
  has_content_type := (KeyMap.get (bytes "content-type") head.headers).isSome

/-- The request, or the error; after the last read `SSL_read` fails. -/
def readHttpRequest (reads : List Bytes) : Except Bytes HttpRequest := do
  let (header_blob, body, reads) ← readHead [] reads
  let head ← parseHead header_blob
  let body ← readBody head.content_length body reads
  return requestOf head body

/-! ## 2. The first loop -/

section Loops

variable {reads : List Bytes}

theorem length_blankLine : blankLine.length = 4 := rfl

theorem readHead_of_none {data : Bytes} (h : cutAt blankLine (data ++ reads.flatten) = none) :
    readHead data reads =
      .error (if kMaxRequestBytes ≤ (data ++ reads.flatten).length then requestTooLarge
        else requestUnread) := by
  induction reads generalizing data with
  | nil =>
    rw [readHead, List.flatten_nil, List.append_nil]
    split
    · rfl
    · rfl
  | cons buffer reads ih =>
    rw [List.flatten_cons, ← List.append_assoc] at h ⊢
    rw [readHead]
    split
    · next hfull =>
      rw [if_pos (by simp only [List.length_append]; omega)]
    · rw [cutAt_eq_none_of_append h]
      exact ih h

/-- What the first loop finds is the blank line of the stream, unless it gives up before. -/
theorem readHead_of_some {data header_blob rest : Bytes}
    (h : cutAt blankLine (data ++ reads.flatten) = some (header_blob, rest))
    (hdata : data.length < header_blob.length + 4) (hreads : ∀ read ∈ reads, read.length ≤ readSize) :
    (readHead data reads = .error requestTooLarge ∧ kMaxRequestBytes < header_blob.length + 4) ∨
      ∃ body later, readHead data reads = .ok (header_blob, body, later) ∧
        body ++ later.flatten = rest ∧ (∀ read ∈ later, read.length ≤ readSize) ∧
        header_blob.length + 4 < kMaxRequestBytes + readSize := by
  induction reads generalizing data with
  | nil =>
    rw [List.flatten_nil, List.append_nil] at h
    have hlength := congrArg List.length (append_of_cutAt h)
    simp only [List.length_append, length_blankLine] at hlength
    omega
  | cons buffer reads ih =>
    obtain ⟨hbuffer, hreads⟩ := List.forall_mem_cons.mp hreads
    rw [List.flatten_cons, ← List.append_assoc] at h
    rw [readHead]
    split
    · exact Or.inl ⟨rfl, by omega⟩
    · next hroom =>
      obtain ⟨hbefore, hreached⟩ := cutAt_part h
      by_cases hlt : (data ++ buffer).length < header_blob.length + 4
      · rw [hbefore hlt]
        exact ih h hlt hreads
      · obtain ⟨body, hcut, hrest⟩ := hreached (not_lt.mp hlt)
        rw [hcut]
        refine Or.inr ⟨body, reads, rfl, hrest, hreads, ?_⟩
        rw [List.length_append] at hlt
        omega

/-! ## 3. The second loop -/

theorem readBody_of_length_lt {content_length : Nat} {body : Bytes}
    (hlimit : content_length ≤ kMaxBodyBytes)
    (h : (body ++ reads.flatten).length < content_length) :
    readBody content_length body reads = .error bodyUnread := by
  induction reads generalizing body with
  | nil =>
    rw [List.flatten_nil, List.append_nil] at h
    exact if_pos h
  | cons buffer reads ih =>
    rw [List.flatten_cons, ← List.append_assoc] at h
    have hlength := h
    simp only [List.length_append] at hlength
    rw [readBody, if_pos (by omega), if_neg (by simp only [List.length_append]; omega)]
    exact ih h

/-- The second loop reads the body, unless a read reaches from before its end past the limit. -/
theorem readBody_of_le_length {content_length : Nat} {body : Bytes}
    (h : content_length ≤ (body ++ reads.flatten).length)
    (hreads : ∀ read ∈ reads, read.length ≤ readSize) :
    readBody content_length body reads = .ok ((body ++ reads.flatten).take content_length) ∨
      readBody content_length body reads = .error bodyTooLarge ∧
        kMaxBodyBytes < (body ++ reads.flatten).length ∧
        kMaxBodyBytes + 1 < content_length + readSize := by
  induction reads generalizing body with
  | nil =>
    rw [List.flatten_nil, List.append_nil] at h ⊢
    exact Or.inl (if_neg (not_lt.mpr h))
  | cons buffer reads ih =>
    obtain ⟨hbuffer, hreads⟩ := List.forall_mem_cons.mp hreads
    rw [List.flatten_cons, ← List.append_assoc] at h ⊢
    rw [readBody]
    split
    · next hshort =>
      split
      · next hover =>
        refine Or.inr ⟨rfl, ?_, ?_⟩
        · rw [List.length_append]
          omega
        · rw [List.length_append] at hover
          omega
      · exact ih h hreads
    · next hlong =>
      left
      rw [List.append_assoc, List.take_append_of_le_length (not_lt.mp hlong)]

end Loops

/-! ## 4. The request of a stream -/

theorem ok_bind {α β : Type} (a : α) (k : α → Except Bytes β) : (Except.ok a >>= k) = k a := rfl

theorem error_bind {α β : Type} (message : Bytes) (k : α → Except Bytes β) :
    ((Except.error message : Except Bytes α) >>= k) = .error message := rfl

theorem content_length_le {header_blob : Bytes} {head : RequestHead}
    (h : parseHead header_blob = .ok head) : head.content_length ≤ kMaxBodyBytes := by
  rw [parseHead] at h
  split at h
  · cases h
  · split at h
    · next header_lines _ _ _ _ _ _ _ =>
      dsimp only at h
      cases hlength : contentLength (KeyMap.ofList keyBefore (header_lines.filterMap headerField)) with
      | error message =>
        rw [hlength] at h
        cases h
      | ok content_length =>
        rw [hlength, ok_bind] at h
        split at h
        · cases h
        · next hle =>
          cases h
          exact not_lt.mp hle
    · cases h

/-- What a stream says, whatever its reads. -/
def requestOfStream (stream : Bytes) : Except Bytes HttpRequest :=
  match cutAt blankLine stream with
  | none => .error (if kMaxRequestBytes ≤ stream.length then requestTooLarge else requestUnread)
  | some (header_blob, rest) =>
      if kMaxRequestBytes < header_blob.length + 4 then .error requestTooLarge
      else do
        let head ← parseHead header_blob
        if rest.length < head.content_length then throw bodyUnread
        return requestOf head (rest.take head.content_length)

/-- The body is the `Content-Length` bytes after the first blank line. -/
def HasBodyOf (stream : Bytes) (request : HttpRequest) : Prop :=
  ∃ header_blob rest head, cutAt blankLine stream = some (header_blob, rest) ∧
    parseHead header_blob = .ok head ∧ head.content_length ≤ rest.length ∧
    request.body = rest.take head.content_length

theorem hasBodyOf_of_requestOfStream {stream : Bytes} {request : HttpRequest}
    (h : requestOfStream stream = .ok request) : HasBodyOf stream request := by
  rw [requestOfStream] at h
  split at h
  · cases h
  · next header_blob rest hcut =>
    split at h
    · cases h
    · cases hhead : parseHead header_blob with
      | error message =>
        rw [hhead] at h
        cases h
      | ok head =>
        rw [hhead, ok_bind] at h
        split at h
        · cases h
        · next hle =>
          cases h
          exact ⟨header_blob, rest, head, hcut, hhead, not_lt.mp hle, rfl⟩

/-- The head or the body ends so near to its limit that a read can reach from before its end past
the limit, and there is something to be read there. -/
def EndsAtLimit (stream : Bytes) : Prop :=
  ∃ header_blob rest, cutAt blankLine stream = some (header_blob, rest) ∧
    (kMaxRequestBytes < header_blob.length + 4 ∧
        header_blob.length + 4 < kMaxRequestBytes + readSize ∨
      header_blob.length + 4 ≤ kMaxRequestBytes ∧
        ∃ head, parseHead header_blob = .ok head ∧
          kMaxBodyBytes + 1 < head.content_length + readSize ∧ kMaxBodyBytes < rest.length)

theorem readHttpRequest_eq {stream : Bytes} (h : ¬ EndsAtLimit stream)
    (delivery : RequestDelivery stream) :
    readHttpRequest delivery.reads = requestOfStream stream := by
  obtain ⟨reads, -, hreads, rfl⟩ := delivery
  have hstart : ([] : Bytes) ++ reads.flatten = reads.flatten := List.nil_append _
  rw [requestOfStream, readHttpRequest]
  cases hcut : cutAt blankLine reads.flatten with
  | none =>
    rw [← hstart] at hcut
    rw [readHead_of_none hcut]
    rfl
  | some found =>
    obtain ⟨header_blob, rest⟩ := found
    have hnear : ¬ (kMaxRequestBytes < header_blob.length + 4 ∧
        header_blob.length + 4 < kMaxRequestBytes + readSize) := by
      intro hhead
      exact h ⟨header_blob, rest, hcut, Or.inl hhead⟩
    dsimp only
    rw [← hstart] at hcut
    obtain ⟨hlarge, hend⟩ | ⟨body, later, hfound, hrest, hlater, hend⟩ :=
      readHead_of_some hcut (Nat.succ_pos _) hreads
    · rw [hlarge, if_pos hend]
      rfl
    · have hle : header_blob.length + 4 ≤ kMaxRequestBytes := by
        by_contra hlt
        exact hnear ⟨not_le.mp hlt, hend⟩
      rw [hfound, if_neg (not_lt.mpr hle), ok_bind]
      cases hparsed : parseHead header_blob with
      | error message => rfl
      | ok head =>
        rw [ok_bind, ok_bind, ← hrest]
        split
        · next hshort =>
          rw [readBody_of_length_lt (content_length_le hparsed) hshort]
          rfl
        · next hlong =>
          obtain hbody | ⟨-, hover, hreach⟩ := readBody_of_le_length (not_lt.mp hlong) hlater
          · rw [hbody]
            rfl
          · rw [hrest] at hover
            exact absurd ⟨header_blob, rest, hcut, Or.inr ⟨hle, head, hparsed, hreach, hover⟩⟩ h

/-! ## 5. Reads that make a difference -/

theorem readHead_singles {data a : Bytes} (h : cutAt blankLine (data ++ a) = none)
    (hroom : data.length + a.length ≤ kMaxRequestBytes) (reads : List Bytes) :
    readHead data (singles a ++ reads) = readHead (data ++ a) reads := by
  induction a generalizing data with
  | nil => rw [List.append_nil]; rfl
  | cons x a ih =>
    have hassoc : data ++ x :: a = data ++ [x] ++ a := by simp
    rw [List.length_cons] at hroom
    rw [hassoc] at h ⊢
    have hstep : readHead data (singles (x :: a) ++ reads) =
        readHead (data ++ [x]) (singles a ++ reads) := by
      change readHead data ([x] :: (singles a ++ reads)) = _
      rw [readHead, if_neg (by omega), cutAt_eq_none_of_append h]
    rw [hstep]
    apply ih h
    rw [List.length_append, List.length_singleton]
    omega

theorem readBody_singles {content_length : Nat} (hlimit : content_length ≤ kMaxBodyBytes)
    {body a : Bytes} (hroom : body.length + a.length ≤ content_length) (reads : List Bytes) :
    readBody content_length body (singles a ++ reads) =
      readBody content_length (body ++ a) reads := by
  induction a generalizing body with
  | nil => rw [List.append_nil]; rfl
  | cons x a ih =>
    have hassoc : body ++ x :: a = body ++ [x] ++ a := by simp
    have hlength : (body ++ [x]).length = body.length + 1 := by simp
    rw [List.length_cons] at hroom
    have hstep : readBody content_length body (singles (x :: a) ++ reads) =
        readBody content_length (body ++ [x]) (singles a ++ reads) := by
      change readBody content_length body ([x] :: (singles a ++ reads)) = _
      rw [readBody, if_pos (by omega), if_neg (by omega)]
    rw [hassoc, hstep]
    apply ih
    omega

/-- The read that completes the head. -/
theorem readHead_found {data buffer header_blob body : Bytes} (hroom : data.length < kMaxRequestBytes)
    (h : cutAt blankLine (data ++ buffer) = some (header_blob, body)) (reads : List Bytes) :
    readHead data (buffer :: reads) = .ok (header_blob, body, reads) := by
  rw [readHead, if_neg (not_le.mpr hroom), h]

theorem error_ne_requestTooLarge {α : Type} {message : Bytes} (h : message ≠ requestTooLarge) :
    (Except.error message : Except Bytes α) ≠ .error requestTooLarge := by
  intro heq
  exact h (Except.error.inj heq)

theorem contentLength_ne_requestTooLarge (headers : List (Bytes × Bytes)) :
    contentLength headers ≠ .error requestTooLarge := by
  rw [contentLength]
  split
  · intro h
    cases h
  · dsimp only
    split
    · exact error_ne_requestTooLarge (by decide)
    · intro h
      cases h

theorem parseHead_ne_requestTooLarge (header_blob : Bytes) :
    parseHead header_blob ≠ .error requestTooLarge := by
  rw [parseHead]
  split
  · exact error_ne_requestTooLarge (by decide)
  · split
    · next header_lines _ _ _ _ _ _ _ =>
      dsimp only
      have hlength := contentLength_ne_requestTooLarge
        (KeyMap.ofList keyBefore (header_lines.filterMap headerField))
      cases hread : contentLength (KeyMap.ofList keyBefore (header_lines.filterMap headerField)) with
      | error message =>
        rw [hread] at hlength
        rw [error_bind]
        intro heq
        exact hlength (congrArg _ (Except.error.inj heq))
      | ok content_length =>
        rw [ok_bind]
        split
        · exact error_ne_requestTooLarge (by decide)
        · intro h
          cases h
    · exact error_ne_requestTooLarge (by decide)

theorem readBody_ne_requestTooLarge (content_length : Nat) (body : Bytes) (reads : List Bytes) :
    readBody content_length body reads ≠ .error requestTooLarge := by
  induction reads generalizing body with
  | nil =>
    rw [readBody]
    split
    · exact error_ne_requestTooLarge (by decide)
    · intro h
      cases h
  | cons buffer reads ih =>
    rw [readBody]
    split
    · split
      · exact error_ne_requestTooLarge (by decide)
      · exact ih _
    · intro h
      cases h

/-- A request whose head has been read is not refused for the size of its head. -/
theorem readHttpRequest_ne_requestTooLarge {reads later : List Bytes} {header_blob body : Bytes}
    (h : readHead [] reads = .ok (header_blob, body, later)) :
    readHttpRequest reads ≠ .error requestTooLarge := by
  rw [readHttpRequest, h, ok_bind]
  dsimp only
  cases hparsed : parseHead header_blob with
  | error message =>
    intro heq
    apply parseHead_ne_requestTooLarge header_blob
    rw [hparsed]
    exact congrArg _ (Except.error.inj heq)
  | ok head =>
    rw [ok_bind]
    cases hbody : readBody head.content_length body later with
    | error message =>
      intro heq
      apply readBody_ne_requestTooLarge head.content_length body later
      rw [hbody]
      exact congrArg _ (Except.error.inj heq)
    | ok content =>
      intro heq
      cases heq

/-- A head that ends just past the limit is refused where a read ends at the limit, and is read
where one reaches over it. -/
theorem differs_in_head {stream header_blob rest : Bytes}
    (hcut : cutAt blankLine stream = some (header_blob, rest))
    (hpast : kMaxRequestBytes < header_blob.length + 4)
    (hreach : header_blob.length + 4 < kMaxRequestBytes + readSize) :
    ∃ refused read : RequestDelivery stream,
      readHttpRequest refused.reads = .error requestTooLarge ∧
      readHttpRequest read.reads ≠ .error requestTooLarge := by
  have hlength := congrArg List.length (append_of_cutAt hcut)
  simp only [List.length_append, length_blankLine] at hlength
  have hpositive : 0 < kMaxRequestBytes := by decide
  obtain ⟨a, buffer, b, hstream, ha, hne, hle, -⟩ :=
    exists_longest_read readSize kMaxRequestBytes stream (by omega) (by decide)
  obtain ⟨refused, hrefused⟩ := exists_oneRead hstream hne hle
  obtain ⟨a', buffer', b', hstream', ha', hne', hle', hlength'⟩ :=
    exists_longest_read readSize (kMaxRequestBytes - 1) stream (by omega) (by decide)
  obtain ⟨read, hread⟩ := exists_oneRead hstream' hne' hle'
  refine ⟨refused, read, ?_, ?_⟩
  · rw [hstream, List.append_assoc] at hcut
    have hnone : cutAt blankLine ([] ++ a) = none := (cutAt_part hcut).1 (by rwa [ha])
    have hhead : readHead [] refused.reads = .error requestTooLarge := by
      rw [hrefused, readHead_singles hnone (by simp [ha]), List.nil_append, readHead,
        if_pos (le_of_eq ha.symm)]
    rw [readHttpRequest, hhead]
    rfl
  · rw [hstream'] at hcut
    have hlong : header_blob.length + blankLine.length ≤ (a' ++ buffer').length := by
      rw [hlength', length_blankLine]
      exact le_min (by omega) (by omega)
    obtain ⟨body, hfound, -⟩ := (cutAt_part hcut).2 hlong
    rw [List.append_assoc] at hcut
    have hnone : cutAt blankLine ([] ++ a') = none := by
      apply (cutAt_part hcut).1
      rw [ha', length_blankLine]
      omega
    have hhead : readHead [] read.reads = .ok (header_blob, body, singles b') := by
      rw [hread, readHead_singles hnone (by rw [ha']; simp)]
      exact readHead_found (by rw [ha']; decide) hfound _
    exact readHttpRequest_ne_requestTooLarge hhead

/-- Where a read ends with the blank line, nothing of the rest is read with it. -/
theorem readHead_exact {stream header_blob rest : Bytes}
    (hcut : cutAt blankLine stream = some (header_blob, rest))
    (hle : header_blob.length + 4 ≤ kMaxRequestBytes) (reads : List Bytes) :
    readHead [] (singles (header_blob ++ blankLine) ++ reads) = .ok (header_blob, [], reads) := by
  rw [append_of_cutAt hcut] at hcut
  obtain ⟨body, hfound, hbody⟩ := (cutAt_part hcut).2 (by rw [List.length_append])
  obtain rfl : body = [] := List.append_left_eq_self.mp hbody
  have hsplit : header_blob ++ blankLine = header_blob ++ [13, 10, 13] ++ [10] := by
    simp [blankLine]
  rw [hsplit] at hfound ⊢
  have hnone : cutAt blankLine ([] ++ (header_blob ++ [13, 10, 13])) = none := by
    apply (cutAt_part hfound).1
    simp [length_blankLine]
  rw [singles_append, List.append_assoc, readHead_singles hnone (by simp; omega)]
  apply readHead_found _ hfound
  simp
  omega

/-- A body that ends near the limit is read where a read ends with it, and refused where one
reaches from before its end past the limit. -/
theorem differs_in_body {stream header_blob rest : Bytes}
    (hcut : cutAt blankLine stream = some (header_blob, rest))
    (hle : header_blob.length + 4 ≤ kMaxRequestBytes) {head : RequestHead}
    (hhead : parseHead header_blob = .ok head)
    (hnear : kMaxBodyBytes + 1 < head.content_length + readSize)
    (hmore : kMaxBodyBytes < rest.length) :
    ∃ refused read : RequestDelivery stream,
      readHttpRequest refused.reads = .error bodyTooLarge ∧
      readHttpRequest read.reads = .ok (requestOf head (rest.take head.content_length)) := by
  have hlimit := content_length_le hhead
  have hsizes : readSize ≤ kMaxBodyBytes := by decide
  have hstream := append_of_cutAt hcut
  obtain ⟨c, buffer, b, hrest, hc, hne, hlen, hlength⟩ :=
    exists_longest_read readSize (head.content_length - 1) rest (by omega) (by decide)
  have hparts : stream = header_blob ++ blankLine ++ c ++ buffer ++ b := by
    rw [hstream, hrest]
    simp
  obtain ⟨refused, hrefused⟩ := exists_oneRead hparts hne hlen
  obtain ⟨c', buffer', b', hrest', hc', hne', hlen', -⟩ :=
    exists_longest_read readSize head.content_length rest (by omega) (by decide)
  have hparts' : stream = header_blob ++ blankLine ++ c' ++ buffer' ++ b' := by
    rw [hstream, hrest']
    simp
  obtain ⟨read, hread⟩ := exists_oneRead hparts' hne' hlen'
  refine ⟨refused, read, ?_, ?_⟩
  · rw [hrefused, singles_append, List.append_assoc, readHttpRequest, readHead_exact hcut hle,
      ok_bind]
    dsimp only
    rw [hhead, ok_bind, readBody_singles hlimit (by rw [hc]; simp), readBody, if_pos (by simp; omega),
      if_pos]
    · rfl
    · rw [List.nil_append, hlength]
      exact lt_min (by omega) hmore
  · rw [hread, singles_append, List.append_assoc, readHttpRequest, readHead_exact hcut hle,
      ok_bind]
    dsimp only
    rw [hhead, ok_bind, readBody_singles hlimit (by rw [hc']; simp), readBody, if_neg (by simp; omega),
      ok_bind]
    have htake : rest.take head.content_length = c' := by
      rw [hrest', List.append_assoc, ← hc', List.take_left]
    rw [htake, List.nil_append, ← hc', List.take_length]
    rfl

/-! ## 6. Which streams -/

/-- The reads make no difference, and the body is what it should be, for all streams but those
whose head or whose body ends so near to its limit that a read can reach over both. -/
theorem delivery_independent_iff (stream : Bytes) :
    (∀ one other : RequestDelivery stream,
      readHttpRequest one.reads = readHttpRequest other.reads ∧
        ∀ request, readHttpRequest one.reads = .ok request → HasBodyOf stream request) ↔
      ¬ EndsAtLimit stream := by
  constructor
  · rintro h ⟨header_blob, rest, hcut, ⟨hpast, hreach⟩ | ⟨hle, head, hhead, hnear, hmore⟩⟩
    · obtain ⟨refused, read, hrefused, hread⟩ := differs_in_head hcut hpast hreach
      exact hread ((h read refused).1.trans hrefused)
    · obtain ⟨refused, read, hrefused, hread⟩ := differs_in_body hcut hle hhead hnear hmore
      have hsame := (h refused read).1
      rw [hrefused, hread] at hsame
      cases hsame
  · intro h one other
    rw [readHttpRequest_eq h one, readHttpRequest_eq h other]
    refine ⟨rfl, ?_⟩
    intro request hrequest
    exact hasBodyOf_of_requestOfStream hrequest

/-- A request with a path of 65519 letters, whose head has one byte more than the limit. -/
def longRequest : Bytes :=
  bytes "GET /" ++ List.replicate 65519 97 ++ bytes " HTTP/1.1" ++ blankLine

theorem long_request_depends_on_reads :
    ∃ refused read : RequestDelivery longRequest,
      readHttpRequest refused.reads = .error requestTooLarge ∧
      readHttpRequest read.reads ≠ .error requestTooLarge := by
  have hclean : (13 : Byte) ∉ bytes "GET /" ++ List.replicate 65519 97 ++ bytes " HTTP/1.1" := by
    simp only [List.mem_append, not_or]
    refine ⟨⟨by decide, ?_⟩, by decide⟩
    rw [List.mem_replicate]
    decide
  have hcut : cutAt blankLine (longRequest ++ []) =
      some (bytes "GET /" ++ List.replicate 65519 97 ++ bytes " HTTP/1.1", []) :=
    cutAt_of_not_mem hclean []
  rw [List.append_nil] at hcut
  have hlength : (bytes "GET /" ++ List.replicate 65519 97 ++ bytes " HTTP/1.1").length = 65533 := by
    rw [List.length_append, List.length_append, List.length_replicate]
    rfl
  apply differs_in_head hcut
  · rw [hlength]
    decide
  · rw [hlength]
    decide

end VirtualChime.Webd
