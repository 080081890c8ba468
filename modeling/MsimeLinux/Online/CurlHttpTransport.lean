import Mathlib.Data.List.Induction
import MsimeLinux.Bytes
import MsimeLinux.Lib.Run
import MsimeLinux.Lib.SizeT

/-!
# The HTTP transport (`CurlHttpTransport.cpp`)

libcurl calls back for the bytes of a request and with those of the response, in pieces of
its own choosing; what reads and takes them belongs to the caller, and can do less than it is
asked, claim more, fail or throw. The callbacks only count and remember; the answer is made
of what they remember, once libcurl is done.

- `writeResponse_cases`, `readUpload_cases`: what one callback can have done.
- `Accounted`: the counters after any calls, and `run_accounted`.
- `stream_accounting`: the bounds, and what the report of a success means.
-/

namespace MsimeLinux

open Lib

namespace CurlHttpTransport

/-! ## Requests -/

/-- `HttpMethod` (HttpTransport.h:11). -/
inductive HttpMethod where
  | get
  | post
  | patch
  | put
  | delete
  deriving DecidableEq

/-- What a pointer points to. -/
abbrev Memory := Nat → UInt8

/-- The first bytes of it. -/
def Memory.bytes (data : Memory) (size : Nat) : Bytes := (List.range size).map data

/-- What a sink does with the bytes it is given. -/
inductive SinkAnswer where
  | accepted
  | refused
  | threw
  deriving DecidableEq

/-- What a source does: it says how many bytes it has written, or throws. -/
inductive SourceAnswer where
  | returned (read : UInt64) (data : Memory)
  | threw

/-- `HttpRequest` (HttpTransport.h:22), without the time-outs. What a source and a sink do
may depend on how many callbacks there have been. -/
structure HttpRequest where
  method : HttpMethod := .get
  url : Bytes
  headers : List Bytes := []
  body : Bytes := []
  maxResponseBytes : UInt64 := 256 * 1024
  bodySource : Option (Nat → UInt64 → UInt64 → SourceAnswer) := none
  bodySize : UInt64 := 0
  responseSink : Option (Nat → Bytes → SinkAnswer) := none

/-- `HttpResponse` (HttpTransport.h:39). -/
structure HttpResponse where
  statusCode : Int := 0
  body : Bytes := []
  error : String := ""
  deriving DecidableEq

/-! ## The callbacks -/

/-- `ResponseBuffer` (CurlHttpTransport.cpp:30), with the bytes that were handed on and the
chunks that were accepted. -/
structure ResponseBuffer where
  body : Bytes := []
  limit : UInt64
  exceeded : Bool := false
  failed : Bool := false
  received : UInt64 := 0
  handed : Bytes := []
  accepted : List Bytes := []

/-- What may still come. -/
def ResponseBuffer.room (buffer : ResponseBuffer) : UInt64 :=
  buffer.limit - min buffer.limit buffer.received

/-- `write_response` (CurlHttpTransport.cpp:40): what it returns, and the buffer. `appends`
tells whether there is the memory for the body. -/
def writeResponse (sink : Option (Bytes → SinkAnswer)) (appends : Bool)
    (buffer : ResponseBuffer) (data : Memory) (size count : UInt64) : UInt64 × ResponseBuffer :=
  if productWraps size count then (0, { buffer with exceeded := true })
  else
    let bytes := size * count
    if buffer.room < bytes then (0, { buffer with exceeded := true })
    else
      let text := data.bytes bytes.toNat
      match sink with
      | some sink =>
        let buffer := { buffer with handed := buffer.handed ++ text }
        match sink text with
        | .accepted =>
          (bytes, { buffer with
            received := buffer.received + bytes
            accepted := buffer.accepted ++ [text] })
        | .refused | .threw => (0, { buffer with failed := true })
      | none =>
        if appends then
          (bytes, { buffer with
            body := buffer.body ++ text
            received := buffer.received + bytes
            handed := buffer.handed ++ text
            accepted := buffer.accepted ++ [text] })
        else (0, { buffer with failed := true })

/-- `CURL_READFUNC_ABORT`. -/
def readfuncAbort : UInt64 := 0x10000000

/-- `UploadSource` (CurlHttpTransport.cpp:76), with what libcurl was given to send. -/
structure UploadSource where
  offset : UInt64 := 0
  failed : Bool := false
  sent : Bytes := []

/-- `read_upload` (CurlHttpTransport.cpp:82). -/
def readUpload (source : UInt64 → UInt64 → SourceAnswer) (bodySize : UInt64)
    (upload : UploadSource) (size count : UInt64) : UInt64 × UploadSource :=
  if productWraps size count then (readfuncAbort, { upload with failed := true })
  else
    let capacity := min (size * count) (bodySize - upload.offset)
    if capacity = 0 then (0, upload)
    else
      match source upload.offset capacity with
      | .returned read data =>
        if read = 0 ∨ capacity < read then (readfuncAbort, { upload with failed := true })
        else
          (read, { upload with
            offset := upload.offset + read
            sent := upload.sent ++ data.bytes read.toNat })
      | .threw => (readfuncAbort, { upload with failed := true })

/-! ## A transfer -/

/-- A call of libcurl. -/
inductive CurlCall where
  /-- a chunk of the response; whether there is the memory to append it -/
  | write (data : Memory) (size count : UInt64) (appends : Bool)
  /-- a buffer to be filled -/
  | read (size count : UInt64)

/-- The chunk that a call delivers. -/
def CurlCall.chunk : CurlCall → Option Bytes
  | .write data size count _ => some (data.bytes (size.toNat * count.toNat))
  | .read _ _ => none

/-- What the callbacks share: `response_buffer` and `upload`, the number of calls, and
whether one has told libcurl to stop. -/
structure Transfer where
  response : ResponseBuffer
  upload : UploadSource := {}
  time : Nat := 0
  stopped : Bool := false

/-- Before the first call. -/
def Transfer.start (request : HttpRequest) : Transfer where
  response := { limit := request.maxResponseBytes }

/-- One call. libcurl takes any other number than that of the bytes it has delivered for an
order to stop; without a source it does not know `read_upload`. -/
def Transfer.call (request : HttpRequest) (t : Transfer) : CurlCall → Transfer
  | .write data size count appends =>
    let (returned, response) :=
      writeResponse (request.responseSink.map (· t.time)) appends t.response data size count
    { t with
      response := response
      time := t.time + 1
      stopped := t.stopped || returned != size * count }
  | .read size count =>
    match request.bodySource with
    | none => t
    | some source =>
      let (returned, upload) := readUpload (source t.time) request.bodySize t.upload size count
      { t with
        upload := upload
        time := t.time + 1
        stopped := t.stopped || returned == readfuncAbort }

/-- Any calls. -/
def Transfer.run (request : HttpRequest) (calls : List CurlCall) : Transfer :=
  calls.foldl (Transfer.call request) (.start request)

/-- libcurl does not go on once it has been told to stop. -/
def Obedient (request : HttpRequest) (calls : List CurlCall) : Prop :=
  Guarded (Transfer.call request) (fun t _ => t.stopped = false) (.start request) calls

/-! ## The request -/

/-- What libcurl does with a request. -/
structure CurlEnv where
  /-- `curl_global_init`, `curl_easy_init` -/
  global : Bool := true
  handle : Bool := true
  /-- the options every request has, its headers, its method, its body -/
  configured : Bool := true
  headerAppended : Nat → Bool := fun _ => true
  headersSet : Bool := true
  methodSet : Bool := true
  bodySet : Bool := true
  calls : List CurlCall
  /-- `CURLE_OK` with a status, or what `curl_easy_strerror` says -/
  result : Except String Int
  cancelled : Bool := false

/-- `CURLOPT_CUSTOMREQUEST` is set (CurlHttpTransport.cpp:194). -/
def HttpMethod.custom : HttpMethod → Bool
  | .patch | .put | .delete => true
  | .get | .post => false

/-- The body is sent from memory (CurlHttpTransport.cpp:221). -/
def HttpRequest.sendsBody (request : HttpRequest) : Bool :=
  match request.method with
  | .get => false
  | .delete => !request.body.isEmpty
  | .post | .patch | .put => true

/-- A source that cannot be used (CurlHttpTransport.cpp:145). -/
def HttpRequest.invalidSource (request : HttpRequest) : Bool :=
  request.bodySource.isSome &&
    (!request.body.isEmpty || request.method = .get || 9223372036854775807 < request.bodySize)

/-- The status says that the server has done what it was asked. -/
def successStatus (status : Int) : Bool := 200 ≤ status && status < 300

/-- The server has taken a body it has not been sent. -/
def incomplete (E : CurlEnv) (request : HttpRequest) (t : Transfer) : Bool :=
  match E.result with
  | .ok status =>
    request.bodySource.isSome && successStatus status && t.upload.offset != request.bodySize
  | .error _ => false

/-- The answer, once libcurl is done (CurlHttpTransport.cpp:240). -/
def conclude (E : CurlEnv) (request : HttpRequest) (t : Transfer) : HttpResponse :=
  if t.upload.failed || incomplete E request t then
    { error := "HTTP request source incomplete or failed" }
  else if t.response.exceeded then { error := "HTTP response exceeded configured limit" }
  else if t.response.failed then { error := "HTTP response buffering failed" }
  else
    match E.result with
    | .error message => { error := if E.cancelled then "cancelled" else message }
    | .ok status => { statusCode := status, body := t.response.body }

/-- What keeps a request from libcurl, by the order of the checks (CurlHttpTransport.cpp:136). -/
def refusal (E : CurlEnv) (request : HttpRequest) : Option String :=
  if !E.global then some "libcurl initialization failed"
  else if !(ascii "https://").isPrefixOf request.url then some "only HTTPS URLs are allowed"
  else if request.invalidSource then some "invalid streaming request source"
  else if !E.handle then some "libcurl handle creation failed"
  else if !E.configured then some "libcurl request configuration failed"
  else if !(List.range request.headers.length).all E.headerAppended then
    some "libcurl header allocation failed"
  else if !request.headers.isEmpty && !E.headersSet then
    some "libcurl header configuration failed"
  else if request.method.custom && !E.methodSet then some "libcurl method configuration failed"
  else if request.bodySource.isSome && !E.bodySet then some "libcurl stream configuration failed"
  else if request.bodySource.isNone && request.sendsBody && !E.bodySet then
    some "libcurl POST configuration failed"
  else none

/-- `CurlHttpTransport::perform` (CurlHttpTransport.cpp:133). -/
def perform (E : CurlEnv) (request : HttpRequest) : HttpResponse :=
  match refusal E request with
  | some error => { error := error }
  | none => conclude E request (.run request E.calls)

/-! ## What one callback does -/

section

variable {sink : Option (Bytes → SinkAnswer)} {appends : Bool} {buffer : ResponseBuffer}
  {data : Memory} {size count bodySize : UInt64} {upload : UploadSource}
  {source : UInt64 → UInt64 → SourceAnswer}

theorem Memory.bytes_length (data : Memory) (size : Nat) : (data.bytes size).length = size := by
  rw [Memory.bytes, List.length_map, List.length_range]

theorem ResponseBuffer.room_toNat (buffer : ResponseBuffer) :
    buffer.room.toNat = buffer.limit.toNat - buffer.received.toNat :=
  toNat_sub_min _ _

/-- The buffer once a chunk has been accepted. -/
def ResponseBuffer.accept (buffer : ResponseBuffer) (sinks : Bool) (size : UInt64)
    (text : Bytes) : ResponseBuffer :=
  { buffer with
    body := if sinks then buffer.body else buffer.body ++ text
    received := buffer.received + size
    handed := buffer.handed ++ text
    accepted := buffer.accepted ++ [text] }

/-- **What `write_response` does**: it accepts the chunk, which is no larger than the room;
it finds the chunk too large, and hands nothing on; or whoever is to take the chunk fails,
and libcurl is told so if there was anything in it. -/
theorem writeResponse_cases (sink : Option (Bytes → SinkAnswer)) (appends : Bool)
    (buffer : ResponseBuffer) (data : Memory) (size count : UInt64) :
    let r := writeResponse sink appends buffer data size count
    (productWraps size count = false ∧ (size * count).toNat ≤ buffer.room.toNat ∧
      r = (size * count,
        buffer.accept sink.isSome (size * count) (data.bytes (size * count).toNat))) ∨
    r.2 = { buffer with exceeded := true } ∨
    ∃ text : Bytes, text.length ≤ buffer.room.toNat ∧ (text ≠ [] → r.1 ≠ size * count) ∧
      r.2 = { buffer with failed := true, handed := buffer.handed ++ text } := by
  dsimp only
  unfold writeResponse
  split
  · exact .inr (.inl rfl)
  next hfits =>
  rw [Bool.not_eq_true] at hfits
  dsimp only
  split
  · exact .inr (.inl rfl)
  next hroom =>
  have hle : (size * count).toNat ≤ buffer.room.toNat :=
    UInt64.le_iff_toNat_le.mp (UInt64.not_lt.mp hroom)
  -- a chunk with something in it is not of size zero, which is what is returned
  have hstop : data.bytes (size * count).toNat ≠ [] → (0 : UInt64) ≠ size * count := by
    intro hne hzero
    rw [← hzero] at hne
    exact hne rfl
  have hlength : (data.bytes (size * count).toNat).length ≤ buffer.room.toNat := by
    rw [Memory.bytes_length]
    exact hle
  cases sink with
  | none =>
    cases appends with
    | true => exact .inl ⟨hfits, hle, rfl⟩
    | false =>
      refine .inr (.inr ⟨[], Nat.zero_le _, fun hne => absurd rfl hne, ?_⟩)
      rw [List.append_nil]
      rfl
  | some sink =>
    dsimp only
    cases sink (data.bytes (size * count).toNat) with
    | accepted => exact .inl ⟨hfits, hle, rfl⟩
    | refused | threw => exact .inr (.inr ⟨_, hlength, hstop, rfl⟩)

/-- **What `read_upload` does**: nothing; it fails; or the source has written some of the
bytes that are left, and no more than the buffer takes. -/
theorem readUpload_cases (source : UInt64 → UInt64 → SourceAnswer) (bodySize : UInt64)
    (upload : UploadSource) (size count : UInt64) :
    let r := readUpload source bodySize upload size count
    r.2 = upload ∨ r.2 = { upload with failed := true } ∨
    ∃ capacity read data, source upload.offset capacity = .returned read data ∧
      read.toNat ≤ capacity.toNat ∧ capacity.toNat ≤ size.toNat * count.toNat ∧
      capacity.toNat ≤ (bodySize - upload.offset).toNat ∧
      r = (read, { upload with
        offset := upload.offset + read
        sent := upload.sent ++ data.bytes read.toNat }) := by
  dsimp only
  unfold readUpload
  split
  · exact .inr (.inl rfl)
  next hfits =>
  rw [Bool.not_eq_true] at hfits
  dsimp only
  split
  · exact .inl rfl
  cases hanswer : source upload.offset (min (size * count) (bodySize - upload.offset)) with
  | threw => exact .inr (.inl rfl)
  | returned read data =>
    dsimp only
    split
    · exact .inr (.inl rfl)
    · next hread =>
      rw [not_or, UInt64.not_lt] at hread
      -- the source was asked for the smaller of what fits and what is left
      have hmin := toNat_min (size * count) (bodySize - upload.offset)
      rw [toNat_mul_of_fits hfits] at hmin
      refine .inr (.inr ⟨_, read, data, hanswer, UInt64.le_iff_toNat_le.mp hread.2, ?_, ?_, rfl⟩)
      · omega
      · omega

end

/-! ## The counters -/

section

variable {request : HttpRequest} {before : List CurlCall} {t : Transfer}

/-- What the counters say, after any calls. -/
structure Accounted (request : HttpRequest) (before : List CurlCall) (t : Transfer) : Prop where
  limit : t.response.limit = request.maxResponseBytes
  received : t.response.accepted.flatten.length = t.response.received.toNat
  within : t.response.received.toNat ≤ request.maxResponseBytes.toNat
  body : request.responseSink = none → t.response.body = t.response.accepted.flatten
  /-- a chunk that is not accepted leaves a mark -/
  complete : t.response.exceeded = false → t.response.failed = false →
    t.response.accepted = before.filterMap CurlCall.chunk
  sent : t.upload.sent.length = t.upload.offset.toNat
  declared : t.upload.offset.toNat ≤ request.bodySize.toNat

theorem Accounted.start (request : HttpRequest) : Accounted request [] (.start request) where
  limit := rfl
  received := rfl
  within := Nat.zero_le _
  body _ := rfl
  complete _ _ := rfl
  sent := rfl
  declared := Nat.zero_le _

theorem Accounted.room (h : Accounted request before t) :
    t.response.room.toNat + t.response.received.toNat = request.maxResponseBytes.toNat := by
  have hwithin := h.within
  rw [ResponseBuffer.room_toNat, h.limit]
  omega

/-- The subtraction in `read_upload` does not wrap. -/
theorem Accounted.left (h : Accounted request before t) :
    (request.bodySize - t.upload.offset).toNat + t.upload.offset.toNat =
      request.bodySize.toNat := by
  have hdeclared := h.declared
  rw [UInt64.toNat_sub_of_le _ _ (UInt64.le_iff_toNat_le.mpr hdeclared)]
  omega

/-- A chunk that fits is counted. -/
theorem Accounted.received_add (h : Accounted request before t) {size : UInt64}
    (hsize : size.toNat ≤ t.response.room.toNat) :
    (t.response.received + size).toNat = t.response.received.toNat + size.toNat ∧
      t.response.received.toNat + size.toNat ≤ request.maxResponseBytes.toNat := by
  have hroom := h.room
  exact ⟨toNat_add_of_le request.maxResponseBytes h.within (by omega), by omega⟩

/-- And so are the bytes a source has written. -/
theorem Accounted.offset_add (h : Accounted request before t) {read : UInt64}
    (hread : read.toNat ≤ (request.bodySize - t.upload.offset).toNat) :
    (t.upload.offset + read).toNat = t.upload.offset.toNat + read.toNat ∧
      t.upload.offset.toNat + read.toNat ≤ request.bodySize.toNat := by
  have hleft := h.left
  exact ⟨toNat_add_of_le request.bodySize h.declared (by omega), by omega⟩

/-- A chunk that is not accepted changes no counter. -/
theorem Accounted.mark (h : Accounted request before t) (calls : List CurlCall)
    {t' : Transfer} (hupload : t'.upload = t.upload)
    (hsame : t'.response.limit = t.response.limit ∧ t'.response.received = t.response.received ∧
      t'.response.accepted = t.response.accepted ∧ t'.response.body = t.response.body)
    (hmarked : t'.response.exceeded = true ∨ t'.response.failed = true) :
    Accounted request calls t' := by
  obtain ⟨hlimit, hreceived, haccepted, hbody⟩ := hsame
  refine ⟨?_, ?_, ?_, fun hsink => ?_, fun hexceeded hfailed => ?_, ?_, ?_⟩
  · rw [hlimit, h.limit]
  · rw [haccepted, hreceived, h.received]
  · rw [hreceived]
    exact h.within
  · rw [hbody, haccepted, h.body hsink]
  · rw [hexceeded, hfailed] at hmarked
    rcases hmarked with hmarked | hmarked <;> cases hmarked
  · rw [hupload, h.sent]
  · rw [hupload]
    exact h.declared

theorem Accounted.write (h : Accounted request before t) (data : Memory) (size count : UInt64)
    (appends : Bool) : Accounted request (before ++ [.write data size count appends])
      (t.call request (.write data size count appends)) := by
  rcases writeResponse_cases (request.responseSink.map (· t.time)) appends t.response data size
    count with ⟨hfits, hle, hr⟩ | hr | ⟨text, -, -, hr⟩
  · -- the chunk fits: it is appended, and counted
    obtain ⟨hadd, hwithin⟩ := h.received_add hle
    have hlength := Memory.bytes_length data (size * count).toNat
    have hresponse : (t.call request (.write data size count appends)).response =
        t.response.accept (request.responseSink.map (· t.time)).isSome (size * count)
          (data.bytes (size * count).toNat) := congrArg Prod.snd hr
    refine ⟨?_, ?_, ?_, fun hsink => ?_, fun hexceeded hfailed => ?_, h.sent, h.declared⟩
    · rw [hresponse]
      exact h.limit
    · rw [hresponse]
      show (t.response.accepted ++ [_]).flatten.length = (t.response.received + _).toNat
      rw [List.flatten_append, List.length_append, h.received, hadd, List.flatten_singleton,
        hlength]
    · rw [hresponse]
      show (t.response.received + _).toNat ≤ _
      rw [hadd]
      exact hwithin
    · rw [hresponse]
      show (if (request.responseSink.map (· t.time)).isSome then t.response.body
        else t.response.body ++ _) = (t.response.accepted ++ [_]).flatten
      rw [hsink, List.flatten_append, List.flatten_singleton, ← h.body hsink]
      rfl
    · rw [hresponse] at hexceeded hfailed ⊢
      show t.response.accepted ++ [_] = _
      rw [List.filterMap_append, h.complete hexceeded hfailed, toNat_mul_of_fits hfits]
      rfl
  · -- it is too large: a flag says so, and nothing is counted
    have hresponse : (t.call request (.write data size count appends)).response =
        { t.response with exceeded := true } := hr
    refine h.mark _ rfl ?_ (.inl ?_)
    · rw [hresponse]
      exact ⟨rfl, rfl, rfl, rfl⟩
    · rw [hresponse]
  · -- the sink gave up: likewise
    have hresponse : (t.call request (.write data size count appends)).response =
        { t.response with failed := true, handed := t.response.handed ++ text } := hr
    refine h.mark _ rfl ?_ (.inr ?_)
    · rw [hresponse]
      exact ⟨rfl, rfl, rfl, rfl⟩
    · rw [hresponse]

/-- What a call for bytes does to the upload. -/
theorem Transfer.read_upload (request : HttpRequest) (t : Transfer) (size count : UInt64) :
    (t.call request (.read size count)).response = t.response ∧
      ((t.call request (.read size count)).upload = t.upload ∨
      (t.call request (.read size count)).upload = { t.upload with failed := true } ∨
      ∃ source capacity read data, request.bodySource = some source ∧
        source t.time t.upload.offset capacity = .returned read data ∧
        read.toNat ≤ capacity.toNat ∧
        capacity.toNat ≤ (request.bodySize - t.upload.offset).toNat ∧
        (t.call request (.read size count)).upload = { t.upload with
          offset := t.upload.offset + read
          sent := t.upload.sent ++ data.bytes read.toNat }) := by
  unfold Transfer.call
  cases hsource : request.bodySource with
  | none => exact ⟨rfl, .inl rfl⟩
  | some source =>
    refine ⟨rfl, ?_⟩
    rcases readUpload_cases (source t.time) request.bodySize t.upload size count with
      hr | hr | ⟨capacity, read, data, hanswer, hread, -, hleft, hr⟩
    · exact .inl hr
    · exact .inr (.inl hr)
    · exact .inr (.inr ⟨source, capacity, read, data, rfl, hanswer, hread, hleft,
        congrArg Prod.snd hr⟩)

theorem Accounted.read (h : Accounted request before t) (size count : UInt64) :
    Accounted request (before ++ [.read size count]) (t.call request (.read size count)) := by
  obtain ⟨hresponse, hupload⟩ := t.read_upload request size count
  have hchunks : (before ++ [CurlCall.read size count]).filterMap CurlCall.chunk =
      before.filterMap CurlCall.chunk := by
    rw [List.filterMap_append]
    exact List.append_nil _
  have hcounted : (t.call request (.read size count)).upload.sent.length =
      (t.call request (.read size count)).upload.offset.toNat ∧
      (t.call request (.read size count)).upload.offset.toNat ≤ request.bodySize.toNat := by
    rcases hupload with hu | hu | ⟨source, capacity, read, data, -, -, hread, hleft, hu⟩
    · rw [hu]
      exact ⟨h.sent, h.declared⟩
    · rw [hu]
      exact ⟨h.sent, h.declared⟩
    · obtain ⟨hadd, hwithin⟩ := h.offset_add (Nat.le_trans hread hleft)
      rw [hu]
      show (t.upload.sent ++ data.bytes read.toNat).length = (t.upload.offset + read).toNat ∧
        (t.upload.offset + read).toNat ≤ request.bodySize.toNat
      rw [List.length_append, h.sent, Memory.bytes_length, hadd]
      exact ⟨rfl, hwithin⟩
  refine ⟨?_, ?_, ?_, ?_, ?_, hcounted.1, hcounted.2⟩
  · rw [hresponse]
    exact h.limit
  · rw [hresponse]
    exact h.received
  · rw [hresponse]
    exact h.within
  · rw [hresponse]
    exact h.body
  · rw [hresponse, hchunks]
    exact h.complete

/-- **Any call** keeps the counters right. -/
theorem Accounted.call (h : Accounted request before t) (c : CurlCall) :
    Accounted request (before ++ [c]) (t.call request c) := by
  cases c with
  | write data size count appends => exact h.write data size count appends
  | read size count => exact h.read size count

/-- **The run lemma**, by induction on the calls from the last. -/
theorem run_accounted (request : HttpRequest) (calls : List CurlCall) :
    Accounted request calls (.run request calls) := by
  induction calls using List.reverseRecOn with
  | nil => exact .start request
  | append_singleton calls c ih =>
    rw [Transfer.run, List.foldl_append]
    exact ih.call c

/-! ## What is handed on -/

/-- Until libcurl is told to stop, what is handed on is what is accepted; what it is told to
stop for is one chunk that fits. -/
structure Handing (request : HttpRequest) (t : Transfer) : Prop where
  going : t.stopped = false → t.response.handed.length = t.response.received.toNat
  within : t.response.handed.length ≤ request.maxResponseBytes.toNat

theorem Handing.call (h : Handing request t) (haccounted : Accounted request before t)
    (hgoing : t.stopped = false) (c : CurlCall) : Handing request (t.call request c) := by
  have hhanded := h.going hgoing
  have hroom := haccounted.room
  cases c with
  | read size count =>
    have hresponse := (t.read_upload request size count).1
    refine ⟨fun _ => ?_, ?_⟩
    · rw [hresponse, hhanded]
    · rw [hresponse]
      exact h.within
  | write data size count appends =>
    rcases writeResponse_cases (request.responseSink.map (· t.time)) appends t.response data size
      count with ⟨-, hle, hr⟩ | hr | ⟨text, hle, hstop, hr⟩
    · obtain ⟨hadd, hwithin⟩ := haccounted.received_add hle
      have hresponse : (t.call request (.write data size count appends)).response =
          t.response.accept (request.responseSink.map (· t.time)).isSome (size * count)
            (data.bytes (size * count).toNat) := congrArg Prod.snd hr
      have hlength : (t.response.handed ++ data.bytes (size * count).toNat).length =
          t.response.received.toNat + (size * count).toNat := by
        rw [List.length_append, Memory.bytes_length, hhanded]
      refine ⟨fun _ => ?_, ?_⟩
      · rw [hresponse]
        exact hlength.trans hadd.symm
      · rw [hresponse]
        show (t.response.handed ++ _).length ≤ _
        rw [hlength]
        exact hwithin
    · -- it does not fit, and nothing of it is handed over
      have hresponse : (t.call request (.write data size count appends)).response =
          { t.response with exceeded := true } := hr
      refine ⟨fun _ => ?_, ?_⟩
      · rw [hresponse, hhanded]
      · rw [hresponse]
        exact h.within
    · -- the sink refused, or ran out of memory on the way
      have hresponse : (t.call request (.write data size count appends)).response =
          { t.response with failed := true, handed := t.response.handed ++ text } := hr
      refine ⟨fun hstopped => ?_, ?_⟩
      · -- libcurl goes on only if there was nothing in the chunk
        have hempty : text = [] := by
          by_contra hne
          have hreturned := hstop hne
          change (t.stopped || (writeResponse (request.responseSink.map (· t.time)) appends
            t.response data size count).1 != size * count) = false at hstopped
          rw [hgoing, Bool.false_or, bne_eq_false_iff_eq] at hstopped
          exact hreturned hstopped
        rw [hresponse, hempty]
        show (t.response.handed ++ []).length = _
        rw [List.append_nil, hhanded]
      · rw [hresponse]
        show (t.response.handed ++ text).length ≤ _
        rw [List.length_append]
        omega

/-- What is handed on stays within the limit. -/
theorem run_handing (request : HttpRequest) {calls : List CurlCall}
    (hobedient : Obedient request calls) :
    (Transfer.run request calls).response.handed.length ≤ request.maxResponseBytes.toNat := by
  have hrun := Guarded.run hobedient
  have hboth : (∃ before, Accounted request before (.run request calls)) ∧
      Handing request (.run request calls) := by
    refine hrun.invariant (I := fun t => (∃ before, Accounted request before t) ∧
      Handing request t) ?_ ⟨⟨[], .start request⟩, fun _ => rfl, Nat.zero_le _⟩
    rintro t c t' ⟨⟨before, haccounted⟩, h⟩ ⟨hgoing, rfl⟩
    exact ⟨⟨_, haccounted.call c⟩, h.call haccounted hgoing c⟩
  exact hboth.2.within

/-! ## What is sent -/

/-- A source supplies the content it is for, at any offset (HttpTransport.h:32). -/
structure HttpRequest.Addressable (request : HttpRequest) (content : Bytes) : Prop where
  length : content.length = request.bodySize.toNat
  supplied : ∀ source, request.bodySource = some source →
    ∀ time offset capacity read data, source time offset capacity = .returned read data →
      read.toNat ≤ capacity.toNat →
      data.bytes read.toNat = (content.drop offset.toNat).take read.toNat

/-- What has been sent is the beginning of the content, by induction on the calls. -/
theorem run_sent {content : Bytes} (haddressable : request.Addressable content)
    (calls : List CurlCall) : (Transfer.run request calls).upload.sent =
      content.take (Transfer.run request calls).upload.offset.toNat := by
  induction calls using List.reverseRecOn with
  | nil => rfl
  | append_singleton calls c ih =>
    have haccounted := run_accounted request calls
    rw [Transfer.run, List.foldl_append]
    change ((Transfer.run request calls).call request c).upload.sent =
      content.take ((Transfer.run request calls).call request c).upload.offset.toNat
    cases c with
    | write data size count appends => exact ih
    | read size count =>
      obtain ⟨-, hu | hu | ⟨source, capacity, read, data, hsource, hanswer, hread, hleft, hu⟩⟩ :=
        (Transfer.run request calls).read_upload request size count
      · rw [hu, ih]
      · rw [hu, ih]
      · have hadd := (haccounted.offset_add (Nat.le_trans hread hleft)).1
        have hsupplied := haddressable.supplied source hsource _ _ _ _ _ hanswer hread
        rw [hu]
        show _ ++ data.bytes read.toNat = content.take (_ + read).toNat
        rw [hadd, List.take_add, hsupplied, ih]

/-! ## The report -/

/-- A success is reported where nothing has failed, and everything was sent. -/
theorem conclude_success {E : CurlEnv}
    (hsuccess : successStatus (conclude E request t).statusCode = true) :
    (conclude E request t).error = "" ∧ (conclude E request t).body = t.response.body ∧
      (request.bodySource.isSome = true → t.upload.offset = request.bodySize) ∧
      t.response.exceeded = false ∧ t.response.failed = false := by
  unfold conclude at hsuccess ⊢
  split at hsuccess
  · cases hsuccess
  next hsent =>
  rw [if_neg hsent]
  split at hsuccess
  · cases hsuccess
  next hexceeded =>
  rw [if_neg hexceeded]
  split at hsuccess
  · cases hsuccess
  next hfailed =>
  rw [if_neg hfailed]
  cases hresult : E.result with
  | error message =>
    rw [hresult] at hsuccess
    cases hsuccess
  | ok status =>
    rw [hresult] at hsuccess
    refine ⟨rfl, rfl, fun hsource => ?_, by simpa using hexceeded, by simpa using hfailed⟩
    change successStatus status = true at hsuccess
    rw [Bool.or_eq_true, not_or, Bool.not_eq_true, Bool.not_eq_true] at hsent
    simpa [incomplete, hresult, hsource, hsuccess] using hsent.2

/-- Nothing else is a success. -/
theorem perform_success {E : CurlEnv}
    (hsuccess : successStatus (perform E request).statusCode = true) :
    perform E request = conclude E request (.run request E.calls) := by
  unfold perform at hsuccess ⊢
  cases hrefusal : refusal E request with
  | some error =>
    rw [hrefusal] at hsuccess
    cases hsuccess
  | none => rfl

/-- **HTTP stream accounting.** Whatever sizes libcurl calls back with, in whichever order,
and whatever a source or a sink does with them:

- a product that fits is exact, and of one that does not the callbacks make no use: all they do
  is to remember that it was too large, and to tell libcurl to stop;
- the bytes accepted, and those handed on to a sink until libcurl stops, stay within the
  limit; the offset of the upload counts the bytes sent, and stays within the declared size;
  the subtractions do not wrap;
- a status of success is reported only if the whole body was sent, and every chunk of the
  response was accepted. -/
theorem stream_accounting (request : HttpRequest) :
    (∀ size count : UInt64,
      (size.toNat * count.toNat ≤ maxSize.toNat →
        productWraps size count = false ∧
        (size * count).toNat = size.toNat * count.toNat) ∧
      (maxSize.toNat < size.toNat * count.toNat →
        (∀ sink appends buffer data, writeResponse sink appends buffer data size count =
          (0, { buffer with exceeded := true })) ∧
        ∀ source bodySize upload, readUpload source bodySize upload size count =
          (readfuncAbort, { upload with failed := true }))) ∧
    (∀ calls, ∀ t, t = Transfer.run request calls →
      t.response.accepted.flatten.length = t.response.received.toNat ∧
      t.response.received.toNat ≤ request.maxResponseBytes.toNat ∧
      (Obedient request calls → t.response.handed.length ≤ request.maxResponseBytes.toNat) ∧
      t.upload.sent.length = t.upload.offset.toNat ∧
      t.upload.offset.toNat ≤ request.bodySize.toNat ∧
      t.response.room.toNat + t.response.received.toNat = request.maxResponseBytes.toNat ∧
      (request.bodySize - t.upload.offset).toNat + t.upload.offset.toNat =
        request.bodySize.toNat) ∧
    ∀ E, successStatus (perform E request).statusCode = true →
      (perform E request).error = "" ∧
      (request.bodySource.isSome = true →
        (Transfer.run request E.calls).upload.offset = request.bodySize ∧
        ∀ content, request.Addressable content →
          (Transfer.run request E.calls).upload.sent = content) ∧
      (Transfer.run request E.calls).response.accepted = E.calls.filterMap CurlCall.chunk ∧
      (request.responseSink = none →
        (perform E request).body = (E.calls.filterMap CurlCall.chunk).flatten) := by
  refine ⟨fun size count => ⟨fun hfits => ?_, fun hlarge => ?_⟩, ?_, fun E hsuccess => ?_⟩
  · -- the product of the sizes
    have hwraps := productWraps_eq_false_iff.mpr hfits
    exact ⟨hwraps, toNat_mul_of_fits hwraps⟩
  · have hwraps : productWraps size count = true := by
      rw [← Bool.not_eq_false, productWraps_eq_false_iff]
      omega
    constructor
    · intro sink appends buffer data
      rw [writeResponse, if_pos hwraps]
    · intro source bodySize upload
      rw [readUpload, if_pos hwraps]
  · -- the counters, in every transfer
    rintro calls t rfl
    have h := run_accounted request calls
    exact ⟨h.received, h.within, run_handing request, h.sent, h.declared, h.room, h.left⟩
  · -- a success has neither failed nor exceeded its limit
    have h := run_accounted request E.calls
    have hconclude := perform_success hsuccess
    rw [hconclude] at hsuccess ⊢
    obtain ⟨herror, hbody, hoffset, hexceeded, hfailed⟩ := conclude_success hsuccess
    have haccepted := h.complete hexceeded hfailed
    refine ⟨herror, fun hsource => ⟨hoffset hsource, fun content haddressable => ?_⟩,
      haccepted, fun hsink => ?_⟩
    · rw [run_sent haddressable, hoffset hsource, ← haddressable.length, List.take_length]
    · rw [hbody, h.body hsink, haccepted]

end

/-- A body of three bytes, which its source writes two and one at a time. -/
def shortReader : HttpRequest where
  method := .post
  url := ascii "https://a"
  maxResponseBytes := 4
  bodySize := 3
  bodySource := some fun _ offset _ =>
    if offset = 0 then .returned 2 fun i => [97, 98].getD i 0
    else if offset = 2 then .returned 1 fun _ => 99
    else .returned 0 fun _ => 0

/-- The answer comes in two chunks. -/
def twoChunks : CurlEnv where
  calls := [.read 1 16, .read 4 4, .read 1 16, .write (fun _ => 111) 1 1 true,
    .write (fun _ => 107) 2 1 true]
  result := .ok 200

/-- Such a transfer. -/
theorem stream_accounting_short_reader :
    (Transfer.run shortReader twoChunks.calls).response.handed.length ≤ 4 ∧
      (Transfer.run shortReader twoChunks.calls).upload.sent = [97, 98, 99] ∧
      (perform twoChunks shortReader).body = [111, 107, 107] := by
  obtain ⟨-, hruns, hreport⟩ := stream_accounting shortReader
  have hobedient : Obedient shortReader twoChunks.calls := by
    refine ⟨rfl, rfl, rfl, rfl, rfl, trivial⟩
  have hsuccess : successStatus (perform twoChunks shortReader).statusCode = true := by decide
  obtain ⟨-, hsent, -, hbody⟩ := hreport twoChunks hsuccess
  refine ⟨(hruns _ _ rfl).2.2.1 hobedient, (hsent rfl).2 _ ?_, hbody rfl⟩
  refine ⟨rfl, fun source hsource time offset capacity read data hanswer hread => ?_⟩
  cases hsource
  dsimp only at hanswer
  split at hanswer
  · next hstart =>
    cases hanswer
    subst hstart
    rfl
  split at hanswer
  · next hmiddle =>
    cases hanswer
    subst hmiddle
    rfl
  · cases hanswer
    rfl

end CurlHttpTransport

end MsimeLinux
