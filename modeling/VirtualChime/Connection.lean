import VirtualChime.WebServer
import VirtualChime.HttpReading
import VirtualChime.Library.HttpMessage
import VirtualChime.Library.PartialWrites

/-!
# One connection

`HandleConnection` reads a request, has it routed and writes the response, in the parts
that the TLS layer takes.  What the client receives is the message of the response, and
it can tell whether that is complete: `connection_answers` holds for every stream of a
client, however it arrives and however the response leaves.
-/

namespace VirtualChime.Webd

open OnDisk

/-! ## 1. The source -/

def statusText (code : Nat) : Bytes :=
  match code with
  | 200 => bytes "OK"
  | 400 => bytes "Bad Request"
  | 404 => bytes "Not Found"
  | 405 => bytes "Method Not Allowed"
  | 500 => bytes "Internal Server Error"
  | 501 => bytes "Not Implemented"
  | 503 => bytes "Service Unavailable"
  | _ => bytes "Error"

def crlf : Bytes := [carriageReturn, newline]

/-- The text that `HandleConnection` puts together. -/
def rawResponse (response : PageResponse) : Bytes :=
  bytes "HTTP/1.1 " ++ natDecimal response.status ++ bytes " " ++ statusText response.status ++ crlf ++
    bytes "Content-Type: " ++ response.content_type ++ crlf ++
    bytes "Content-Length: " ++ natDecimal response.body.length ++ crlf ++
    bytes "Cache-Control: " ++ response.cache_control ++ crlf ++
    bytes "Connection: close" ++ crlf ++ crlf ++ response.body

/-- The largest part that `SSL_write` is offered. -/
def writeSize : Nat := 16384

/-- What a call of `SSL_write` that returns `written` means to the loop. -/
def sslReply (written : Int) : PartialWrites.Reply :=
  if written ≤ 0 then .refused else .took written.toNat

/-- `WriteAllSsl`, for the values that `SSL_write` returns one after the other. -/
def writeAllSsl (written : List Int) (data : Bytes) : Bytes × Bool :=
  PartialWrites.writeAll writeSize (written.map sslReply) data

def badRequest (read_error : Bytes) : PageResponse :=
  apiPage ⟨400, errorBody (bytes "bad_request") read_error⟩

/-- The response to what has been read. -/
def respond (server : WebServer) (s : WebState) (read : Except Bytes HttpRequest) (io : RequestIo) :
    WebState × Option PageResponse :=
  match read with
  | .error read_error => (s, some (badRequest read_error))
  | .ok request => route server s request io

/-- `HandleConnection` after the handshake: the state it leaves, and the bytes that the client
receives. -/
def handleConnection (server : WebServer) (s : WebState) (reads : List Bytes) (io : RequestIo)
    (written : List Int) : WebState × Bytes :=
  let (s, response) := respond server s (readHttpRequest reads) io
  match response with
  | none => (s, [])
  | some response => (s, (writeAllSsl written (rawResponse response)).1)

/-! ## 2. The message of a response -/

def startLine (status : Nat) : Bytes :=
  bytes "HTTP/1.1 " ++ natDecimal status ++ bytes " " ++ statusText status

def messageOf (response : PageResponse) : HttpMessage.Message where
  start := startLine response.status
  fields := [
    (bytes "Content-Type", response.content_type),
    (bytes "Content-Length", natDecimal response.body.length),
    (bytes "Cache-Control", response.cache_control),
    (bytes "Connection", bytes "close")]
  body := response.body

theorem encode_messageOf (response : PageResponse) :
    HttpMessage.encode (messageOf response) = rawResponse response := by
  have hcrlf : HttpMessage.crlf = crlf := rfl
  have hcolon : ∀ (name value : Bytes), HttpMessage.encodeField (name, value) =
      name ++ bytes ": " ++ value := by
    intro name value
    simp [HttpMessage.encodeField, bytes]
  have htype : bytes "Content-Type: " = bytes "Content-Type" ++ bytes ": " := by decide
  have hlength : bytes "Content-Length: " = bytes "Content-Length" ++ bytes ": " := by decide
  have hcache : bytes "Cache-Control: " = bytes "Cache-Control" ++ bytes ": " := by decide
  have hconnection : bytes "Connection: close" = bytes "Connection" ++ bytes ": " ++ bytes "close" := by
    decide
  rw [HttpMessage.encode, HttpMessage.headLines, messageOf, rawResponse, startLine, htype, hlength,
    hcache, hconnection, hcrlf]
  simp only [List.map_cons, List.map_nil, hcolon, List.flatMap_cons, List.flatMap_nil,
    List.append_assoc, List.append_nil]

/-- A value that a header line can carry. -/
def IsFieldValue (value : Bytes) : Prop :=
  carriageReturn ∉ value ∧ Scanner.strip HttpMessage.isBlank value = value

instance (value : Bytes) : Decidable (IsFieldValue value) := inferInstanceAs (Decidable (_ ∧ _))

theorem isDigit_http (c : Byte) : HttpMessage.isDigit c = isDigit c := by
  simp [HttpMessage.isDigit, isDigit, UInt8.le_iff_toNat_le]

theorem isFieldValue_natDecimal (n : Nat) : IsFieldValue (natDecimal n) := by
  constructor
  · intro hmem
    have hdigit := natDecimal_digits hmem
    revert hdigit
    decide
  · have hblank : ∀ c ∈ natDecimal n, HttpMessage.isBlank c = false := by
      intro c hc
      have hdigit := natDecimal_digits hc
      by_contra hblank
      rw [Bool.not_eq_false, HttpMessage.isBlank] at hblank
      simp only [Bool.or_eq_true, beq_iff_eq] at hblank
      rcases hblank with rfl | rfl
      · revert hdigit
        decide
      · revert hdigit
        decide
    exact Scanner.strip_eq_self_iff.mpr
      ⟨fun _ => hblank _ (List.head_mem _), fun _ => hblank _ (List.getLast_mem _)⟩

theorem decimal_natDecimal (n : Nat) : HttpMessage.decimal (natDecimal n) = some n := by
  have hall : (natDecimal n).all HttpMessage.isDigit = true := by
    rw [List.all_eq_true]
    intro c hc
    rw [isDigit_http]
    exact natDecimal_digits hc
  rw [HttpMessage.decimal, if_pos ⟨natDecimal_ne_nil n, hall⟩]
  exact congrArg some (digitsValue_natDecimal n)

theorem not_mem_startLine (status : Nat) : carriageReturn ∉ startLine status := by
  have hdigits := (isFieldValue_natDecimal status).1
  have htext : carriageReturn ∉ statusText status := by
    unfold statusText
    split
    all_goals decide
  have hversion : carriageReturn ∉ bytes "HTTP/1.1 " := by decide
  have hspace : carriageReturn ∉ bytes " " := by decide
  rw [startLine]
  simp [hdigits, htext, hversion, hspace]

theorem wellFormed_messageOf {response : PageResponse} (htype : IsFieldValue response.content_type)
    (hcache : IsFieldValue response.cache_control) :
    HttpMessage.WellFormed (messageOf response) where
  start := by
    refine ⟨?_, not_mem_startLine _⟩
    exact List.append_ne_nil_of_left_ne_nil (List.append_ne_nil_of_left_ne_nil
      (List.append_ne_nil_of_left_ne_nil (by decide) _) _) _
  name := by
    have hnames : ∀ name ∈ (messageOf response).fields.map Prod.fst, 58 ∉ name ∧ 13 ∉ name := by
      change ∀ name ∈ [bytes "Content-Type", bytes "Content-Length", bytes "Cache-Control",
        bytes "Connection"], 58 ∉ name ∧ 13 ∉ name
      decide
    intro f hf
    exact hnames f.1 (List.mem_map_of_mem hf)
  value := by
    simp only [messageOf, List.forall_mem_cons]
    exact ⟨htype, isFieldValue_natDecimal _, hcache, by decide,
      fun _ hnil => absurd hnil List.not_mem_nil⟩
  length := by
    have hfield : HttpMessage.field HttpMessage.contentLength (messageOf response).fields =
        some (natDecimal response.body.length) := rfl
    rw [HttpMessage.bodyLength, hfield, Option.bind_some, decimal_natDecimal]
    rfl

/-! ## 3. What a client makes of it -/

structure ClientView where
  status : Nat
  content_type : Bytes
  cache_control : Bytes
  body : Bytes
deriving DecidableEq, Repr

def clientView (m : HttpMessage.Message) : Option ClientView :=
  (HttpMessage.statusCode m.start).bind fun status =>
    (HttpMessage.field (bytes "content-type") m.fields).bind fun content_type =>
      (HttpMessage.field (bytes "cache-control") m.fields).map fun cache_control =>
        { status, content_type, cache_control, body := m.body }

theorem clientView_messageOf (response : PageResponse) :
    clientView (messageOf response) =
      some ⟨response.status, response.content_type, response.cache_control, response.body⟩ := by
  have hspace : 32 ∉ natDecimal response.status := by
    intro hmem
    have hdigit := natDecimal_digits hmem
    revert hdigit
    decide
  have hstart : (messageOf response).start =
      bytes "HTTP/1.1" ++ 32 :: (natDecimal response.status ++ 32 :: statusText response.status) := by
    have hversion : bytes "HTTP/1.1 " = bytes "HTTP/1.1" ++ [32] := by decide
    have hblank : bytes " " = [32] := by decide
    rw [messageOf, startLine, hversion, hblank]
    simp only [List.append_assoc, List.cons_append, List.nil_append]
  rw [clientView, hstart, HttpMessage.statusCode_line (by decide) hspace, decimal_natDecimal]
  rfl

/-- A client that has received a part of what is sent: the whole of it is read as the response, and
nothing is read from less. -/
def ReadAs (response : PageResponse) (part : Bytes) : Prop :=
  (part = rawResponse response ∧
    ((HttpMessage.decode part).bind fun (m, rest) => if rest = [] then clientView m else none) =
      some ⟨response.status, response.content_type, response.cache_control, response.body⟩) ∨
  (part ≠ rawResponse response ∧ HttpMessage.decode part = none)

theorem readAs_of_prefix {response : PageResponse} (htype : IsFieldValue response.content_type)
    (hcache : IsFieldValue response.cache_control) {part : Bytes}
    (hpart : part <+: rawResponse response) : ReadAs response part := by
  have hwell := wellFormed_messageOf htype hcache
  by_cases hwhole : part = rawResponse response
  · left
    refine ⟨hwhole, ?_⟩
    have hdecode := HttpMessage.decode_encode hwell []
    rw [List.append_nil, encode_messageOf] at hdecode
    rw [hwhole, hdecode, Option.bind_some]
    dsimp only
    rw [if_pos rfl, clientView_messageOf]
  · right
    rw [← encode_messageOf] at hpart hwhole
    rw [← encode_messageOf]
    exact ⟨hwhole, HttpMessage.decode_eq_none_of_prefix hwell hpart hwhole⟩

/-- The headers of every response can be sent. -/
theorem isFieldValue_of_route {server : WebServer} {s : WebState} {read : Except Bytes HttpRequest}
    {io : RequestIo} {response : PageResponse} (h : (respond server s read io).2 = some response) :
    IsFieldValue response.content_type ∧ IsFieldValue response.cache_control := by
  have hheaders : HasHeaders response := by
    rcases read with read_error | request
    · obtain rfl := Option.some.inj h
      exact hasHeaders_apiPage _
    · exact hasHeaders_route h
  have htypes : ∀ value ∈ bytes "application/json; charset=utf-8" ::
      bytes "text/html; charset=utf-8" :: pageContentTypes, IsFieldValue value := by decide
  have hcontrols : ∀ value ∈ pageCacheControls, IsFieldValue value := by decide
  exact ⟨htypes _ hheaders.content_type, hcontrols _ hheaders.cache_control⟩

/-- For every stream whose head and body do not end at a limit, however it arrives and however the
response is taken: the server does what the request of the stream asks for, and the client receives
the response to it or a part of it.  At every moment it can tell which, and what it reads once it
has all of it is the response. -/
theorem connection_answers (server : WebServer) (s : WebState) {stream : Bytes}
    (h : ¬ EndsAtLimit stream) (delivery : RequestDelivery stream) (io : RequestIo)
    (written : List Int) :
    let answered := respond server s (requestOfStream stream) io
    let handled := handleConnection server s delivery.reads io written
    handled.1 = answered.1 ∧
      (answered.2 = none → handled.2 = []) ∧
      ∀ response, answered.2 = some response →
        handled.2 <+: rawResponse response ∧
          (handled.2 = rawResponse response ↔
            (writeAllSsl written (rawResponse response)).2 = true) ∧
          ∀ part, part <+: handled.2 → ReadAs response part := by
  intro answered handled
  have hread := readHttpRequest_eq h delivery
  have hhandled : handled = match answered with
      | (s, none) => (s, [])
      | (s, some response) => (s, (writeAllSsl written (rawResponse response)).1) := by
    change handleConnection server s delivery.reads io written = _
    rw [handleConnection, hread]
    rcases hanswered : respond server s (requestOfStream stream) io with ⟨_, _ | _⟩
    · simp only [answered, hanswered]
    · simp only [answered, hanswered]
  rcases hanswered : answered with ⟨after, _ | response⟩
  · rw [hanswered] at hhandled
    rw [hhandled]
    refine ⟨rfl, fun _ => rfl, ?_⟩
    intro response hresponse
    cases hresponse
  · rw [hanswered] at hhandled
    rw [hhandled]
    refine ⟨rfl, fun hnone => absurd hnone (Option.some_ne_none _), ?_⟩
    intro response' hresponse
    obtain rfl := Option.some.inj hresponse
    have hsent : (writeAllSsl written (rawResponse response)).1 <+: rawResponse response :=
      PartialWrites.writeAll_prefix ..
    obtain ⟨htype, hcache⟩ := isFieldValue_of_route (congrArg Prod.snd hanswered)
    refine ⟨hsent, (PartialWrites.writeAll_eq_true_iff ..).symm, ?_⟩
    intro part hpart
    exact readAs_of_prefix htype hcache (hpart.trans hsent)

/-- A short stream ends before every limit. -/
theorem not_endsAtLimit_of_length_le {stream : Bytes} (h : stream.length ≤ kMaxRequestBytes) :
    ¬ EndsAtLimit stream := by
  rintro ⟨header_blob, rest, hcut, hlimit⟩
  have hlength := congrArg List.length (Streams.append_of_cutAt hcut)
  rw [List.length_append, List.length_append, length_blankLine] at hlength
  have hsizes : kMaxRequestBytes ≤ kMaxBodyBytes := by decide
  rcases hlimit with ⟨hpast, -⟩ | ⟨-, -, -, -, hmore⟩
  · omega
  · omega

def deviceStream : Bytes := bytes "GET /api/v1/device HTTP/1.1" ++ blankLine

theorem deviceStream_not_endsAtLimit : ¬ EndsAtLimit deviceStream :=
  not_endsAtLimit_of_length_le (by decide)

/-- The whole stream in one read. -/
def deviceDelivery : RequestDelivery deviceStream where
  reads := [deviceStream]
  ne_nil := by
    intro read hread
    rw [List.mem_singleton.mp hread]
    decide
  length_le := by
    intro read hread
    rw [List.mem_singleton.mp hread]
    decide
  flatten_eq := List.append_nil _

theorem connection_answers_cut_off :
    ReadAs (apiPage (reservedNotImplemented (bytes "/api/v1/device")))
      (bytes "HTTP/1.1 501 Not Implem") := by
  have hconnection := connection_answers {} ⟨⟨none, none⟩, {}, {}⟩
    deviceStream_not_endsAtLimit deviceDelivery
    { scan_signals := fun _ hnone => absurd hnone List.not_mem_nil, ui := noFiles } [23, -1]
  have hresponse := hconnection.2.2 (apiPage (reservedNotImplemented (bytes "/api/v1/device"))) (by rfl)
  exact hresponse.2.2 _ (List.isPrefixOf_iff_prefix.mp (by decide +kernel))

end VirtualChime.Webd
