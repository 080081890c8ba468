import MsimeLinux.Account.Session
import MsimeLinux.Lib.Ini
import MsimeLinux.Snapshot.Prepared

/-!
# Uploading a snapshot (`BackendAccountClient.cpp`, `CurlHttpTransport.cpp`)

A snapshot is uploaded from its file. The HTTP library asks for the bytes in pieces of
its own choosing, and answers when it likes; other processes do as they like meanwhile.

- `uploaded_content`: what has been read so far is the beginning of the content.
- `restoreSnapshot_ok`: an upload that is reported as done has transmitted it all.
-/

namespace MsimeLinux

open Lib

/-! ## The transport -/

/-- `HttpRequest` (HttpTransport.h), as far as an upload uses it. -/
structure HttpRequest where
  url : Bytes
  bodySize : Nat
  maxResponseBytes : Nat

/-- `HttpResponse`. -/
structure HttpResponse where
  statusCode : Nat := 0
  body : Bytes := []
  error : String := ""

/-- A call of `read_upload`: the buffer's size, the files there are by then, and what the
system answers. -/
structure UploadCall where
  size : Nat
  count : Nat
  fs : FileSystem
  answer : Except Failure Nat

/-- `UploadSource` (CurlHttpTransport.cpp:76), with what was handed to the library. -/
structure UploadSource where
  offset : Nat := 0
  failed : Bool := false
  sent : Bytes := []

/-- `ResponseBuffer` (CurlHttpTransport.cpp:30). -/
structure ResponseBuffer where
  body : Bytes := []
  exceeded : Bool := false

/-- What the HTTP library does with a request, while other processes leave the files
without a name alone. -/
structure CurlRun (fs : FileSystem) where
  /-- what it reports before the transfer -/
  setup : Option String := none
  calls : List UploadCall
  leaves : ∀ call ∈ calls, fs.Leaves call.fs
  response : List Bytes
  /-- `CURLE_OK` with a status, or what it reports -/
  result : Except String Nat
  cancelledBefore : Bool := false
  cancelledAfter : Bool := false

/-- `read_upload` (CurlHttpTransport.cpp:82). -/
def readUpload (p : PreparedSnapshot) (bodySize : Nat) (upload : UploadSource)
    (call : UploadCall) : UploadSource :=
  if call.size ≠ 0 ∧ (2 ^ 64 - 1) / call.size < call.count then { upload with failed := true }
  else
    let capacity := min (call.size * call.count) (bodySize - upload.offset)
    if capacity = 0 then upload
    else
      match p.read call.fs upload.offset capacity call.answer with
      | .error _ => { upload with failed := true }
      | .ok data =>
        if data.length = 0 ∨ capacity < data.length then { upload with failed := true }
        else
          { upload with
            offset := upload.offset + data.length
            sent := upload.sent ++ data }

/-- `write_response` (CurlHttpTransport.cpp:40). -/
def writeResponse (limit : Nat) (buffer : ResponseBuffer) (data : Bytes) : ResponseBuffer :=
  if limit - min limit buffer.body.length < data.length then { buffer with exceeded := true }
  else { buffer with body := buffer.body ++ data }

/-- The upload as far as it got. -/
def CurlRun.upload {fs : FileSystem} (run : CurlRun fs) (p : PreparedSnapshot)
    (bodySize : Nat) : UploadSource :=
  run.calls.foldl (readUpload p bodySize) {}

/-- The server has accepted a body it has not been sent (CurlHttpTransport.cpp:243). -/
def CurlRun.incomplete {fs : FileSystem} (run : CurlRun fs) (p : PreparedSnapshot)
    (bodySize : Nat) : Bool :=
  match run.result with
  | .ok status => 200 ≤ status && status < 300 && (run.upload p bodySize).offset != bodySize
  | .error _ => false

/-- `perform` (CurlHttpTransport.cpp:133), for a request with a body source. -/
def perform {fs : FileSystem} (p : PreparedSnapshot) (request : HttpRequest)
    (run : CurlRun fs) : HttpResponse :=
  if !(ascii "https://").isPrefixOf request.url then { error := "only HTTPS URLs are allowed" }
  else if int64Max < request.bodySize then { error := "invalid streaming request source" }
  else
    match run.setup with
    | some error => { error := error }
    | none =>
      let buffer := run.response.foldl (writeResponse request.maxResponseBytes) {}
      if (run.upload p request.bodySize).failed || run.incomplete p request.bodySize then
        { error := "HTTP request source incomplete or failed" }
      else if buffer.exceeded then { error := "HTTP response exceeded configured limit" }
      else
        match run.result with
        | .error error => { error := error }
        | .ok status => { statusCode := status, body := buffer.body }

/-! ## The client -/

/-- The request of `restore_snapshot`. -/
def restoreRequest (size : Nat) (revision : Int64) : HttpRequest where
  url := ascii "https://api.msime.app/v1/users/me/dictionary/snapshot?revision=" ++
    encodeInt revision.toInt
  bodySize := size
  maxResponseBytes := 65536

/-- `snapshot_request` (BackendAccountClient.cpp:786). -/
def snapshotRequest {fs : FileSystem} (p : PreparedSnapshot) (request : HttpRequest)
    (token : Bytes) (run : CurlRun fs) : Except Failure Bytes := do
  if !validAccountToken token then throw badRequest
  if run.cancelledBefore then throw { status := 0, cancelled := true }
  let response := perform p request run
  if run.cancelledAfter then throw { status := 0, cancelled := true }
  if response.error ≠ "" ∨ request.maxResponseBytes < response.body.length then
    throw { status := 0 }
  if response.statusCode ≠ 200 then throw { status := response.statusCode }
  return response.body

/-- What `restore_snapshot` makes of the answer (BackendAccountClient.cpp:848). -/
def restoredRevision (J : JsonLib) (revision : Int64) (body : Bytes) : Except Failure Int64 :=
  match J.parse body with
  | some (.object result) =>
    if (result.map Prod.fst).dedup.length ≠ 2 then .error { status := 0 }
    else
      match JsonObject.lastOf result (ascii "reset"),
        JsonObject.lastOf result (ascii "revision") with
      | some (.bool true), some (.int updated) =>
        if Int64.ofInt updated ≤ revision then .error { status := 0 }
        else .ok (Int64.ofInt updated)
      | _, _ => .error { status := 0 }
  | _ => .error { status := 0 }

/-- `BackendAccountClient::restore_snapshot` (BackendAccountClient.cpp:833), the body
being read from a prepared snapshot. -/
def restoreSnapshot {fs : FileSystem} (J : JsonLib) (p : PreparedSnapshot) (run : CurlRun fs)
    (size : Nat) (revision : Int64) (token : Bytes) : Except Failure Int64 := do
  if size = 0 ∨ 512 * 1024 * 1024 < size ∨ revision < 0 ∨ revision = Int64.maxValue then
    throw badRequest
  let body ← snapshotRequest p (restoreRequest size revision) token run
  restoredRevision J revision body

/-! ## What has been transmitted -/

variable {fs : FileSystem} {p : PreparedSnapshot} {content : Bytes}

/-- As long as nothing has failed, what was sent is the beginning of the content. -/
structure Uploaded (content : Bytes) (upload : UploadSource) : Prop where
  sent : upload.failed = false → upload.sent = content.take upload.offset
  bounded : upload.failed = false → upload.offset ≤ content.length

/-- One call hands over what comes next. -/
theorem Uploaded.read {upload : UploadSource} (h : Uploaded content upload) {call : UploadCall}
    (hintact : p.Intact call.fs content) (bodySize : Nat) :
    Uploaded content (readUpload p bodySize upload call) := by
  have hfailed : ∀ u : UploadSource, u.failed = true → Uploaded content u := by
    intro u hu
    refine ⟨fun hnot => ?_, fun hnot => ?_⟩
    · rw [hu] at hnot
      cases hnot
    · rw [hu] at hnot
      cases hnot
  unfold readUpload
  split
  · exact hfailed _ rfl
  dsimp only
  split
  · exact h
  split
  · exact hfailed _ rfl
  · next data hread =>
    split
    · exact hfailed _ rfl
    · next hfits =>
      -- a call that succeeds after a failure does not undo it
      by_cases hupload : upload.failed = true
      · exact hfailed _ hupload
      rw [Bool.not_eq_true] at hupload
      obtain ⟨count, hcount⟩ := PreparedSnapshot.exists_count hread
      obtain ⟨data', hread', ⟨rest, hrest⟩, -, -⟩ := hintact.read (h.bounded hupload)
        (min (call.size * call.count) (bodySize - upload.offset)) count
      obtain rfl : data' = data := Except.ok.inj (hread'.symm.trans hcount)
      have hlength := congrArg List.length hrest
      rw [List.length_append, List.length_drop] at hlength
      have hbounded := h.bounded hupload
      refine ⟨fun _ => ?_, fun _ => ?_⟩
      · show upload.sent ++ data' = content.take (upload.offset + data'.length)
        rw [List.take_add, ← hrest, List.take_left, h.sent hupload]
      · show upload.offset + data'.length ≤ content.length
        omega

/-- **What has been read** is the beginning of the content, by induction on the calls. -/
theorem uploaded_content (run : CurlRun fs) (hintact : p.Intact fs content)
    (hunnamed : fs.Unnamed p.descriptor) (bodySize : Nat) :
    Uploaded content (run.upload p bodySize) := by
  have hcalls : ∀ (calls : List UploadCall) (upload : UploadSource),
      (∀ call ∈ calls, p.Intact call.fs content) → Uploaded content upload →
        Uploaded content (calls.foldl (readUpload p bodySize) upload) := by
    intro calls
    induction calls with
    | nil => exact fun _ _ h => h
    | cons call calls ih =>
      intro upload hall h
      rw [List.foldl_cons]
      exact ih _ (fun c hc => hall c (List.mem_cons_of_mem _ hc))
        (h.read (hall call List.mem_cons_self) bodySize)
  refine hcalls run.calls {} (fun call hcall => ?_) ⟨fun _ => rfl, fun _ => Nat.zero_le _⟩
  exact ⟨((run.leaves call hcall).content _ hunnamed).trans hintact.bytes, hintact.length⟩

/-- A response that reports no error. -/
theorem perform_ok {request : HttpRequest} {run : CurlRun fs}
    (hok : (perform p request run).error = "")
    (hstatus : (perform p request run).statusCode = 200) :
    (run.upload p request.bodySize).failed = false ∧
      (run.upload p request.bodySize).offset = request.bodySize := by
  -- every check that fails sets the error; the branch left is the last
  unfold perform at hok hstatus
  split at hok
  · exact absurd hok (by decide)
  next hurl =>
  rw [if_neg hurl] at hstatus
  split at hok
  · exact absurd hok (by decide)
  next hsize =>
  rw [if_neg hsize] at hstatus
  cases hsetup : run.setup with
  | some error =>
    rw [hsetup] at hstatus
    cases hstatus
  | none =>
    rw [hsetup] at hok hstatus
    dsimp only at hok hstatus
    split at hok
    · exact absurd hok (by simp)
    next hcomplete =>
    rw [if_neg hcomplete] at hstatus
    rw [Bool.or_eq_true, not_or, Bool.not_eq_true, Bool.not_eq_true] at hcomplete
    refine ⟨hcomplete.1, ?_⟩
    split at hok
    · exact absurd hok (by simp)
    next hbuffer =>
    rw [if_neg hbuffer] at hstatus
    unfold CurlRun.incomplete at hcomplete
    cases hresult : run.result with
    | error error =>
      -- libcurl's own error leaves the status at zero
      rw [hresult] at hstatus
      cases hstatus
    | ok status =>
      rw [hresult] at hstatus hcomplete
      obtain rfl : status = 200 := hstatus
      simpa using hcomplete.2

/-- **An upload that is reported as done** has transmitted the content, all of it, and the
server has moved on to a later revision. -/
theorem restoreSnapshot_ok {J : JsonLib} {run : CurlRun fs} {size : Nat}
    {revision updated : Int64} {token : Bytes} (hintact : p.Intact fs content)
    (hunnamed : fs.Unnamed p.descriptor) (hsize : size = p.size)
    (h : restoreSnapshot J p run size revision token = .ok updated) :
    (run.upload p size).sent = content ∧ (run.upload p size).sent.length = size ∧
      revision < updated := by
  obtain ⟨-, h⟩ := guard_eq_ok_iff.mp h
  obtain ⟨body, hbody, hrevision⟩ := call_eq_ok_iff.mp h
  obtain ⟨-, hbody⟩ := guard_eq_ok_iff.mp hbody
  obtain ⟨-, hbody⟩ := guard_eq_ok_iff.mp hbody
  obtain ⟨-, hbody⟩ := guard_eq_ok_iff.mp hbody
  obtain ⟨herror, hbody⟩ := guard_eq_ok_iff.mp hbody
  obtain ⟨hstatus, -⟩ := guard_eq_ok_iff.mp hbody
  rw [not_or, not_not] at herror
  -- a success has not failed on the way, and has sent up to its size
  obtain ⟨hgood, hoffset⟩ := perform_ok herror.1 (not_not.mp hstatus)
  have hsent := (uploaded_content run hintact hunnamed size).sent hgood
  have hall : (run.upload p size).sent = content := by
    rw [hsent, show (run.upload p size).offset = size from hoffset, hsize, hintact.length,
      List.take_length]
  refine ⟨hall, by rw [hall, hsize, hintact.length], ?_⟩
  unfold restoredRevision at hrevision
  split at hrevision
  · split at hrevision
    · cases hrevision
    split at hrevision
    · split at hrevision
      · cases hrevision
      · next hlater =>
        rw [← Except.ok.inj hrevision]
        exact Int64.not_le.mp hlater
    · cases hrevision
  · cases hrevision

end MsimeLinux
