import MsimeLinux.Account.DictionaryTsv
import MsimeLinux.Account.Session
import MsimeLinux.Lib.Url
import MsimeLinux.Online.CurlHttpTransport

/-!
# The account client (`BackendAccountClient.cpp`)

Every operation of the client checks its arguments, sends one request to one server and
makes something of the answer. An operation is what it refuses with, or an `ApiCall`: the
request it sends and how it reads the answer. What the transport answers, and when the
caller cancels, is the environment's.

- `ApiCall.send`: `request` and `snapshot_request`, past the checks.
- `AccountRequest.operation`: the operation a session asks for.
-/

namespace MsimeLinux

open Lib

namespace BackendAccountClient

/-! ## Requests -/

/-- What goes through a callback of the caller: nothing, the body of the response, or that
of the request. -/
inductive ApiStream where
  | none
  | response
  | request (size : Nat)
  deriving DecidableEq

/-- `HttpRequest` (HttpTransport.h:22), as far as the client sets it; the time-out is in
milliseconds. -/
structure ApiRequest where
  method : CurlHttpTransport.HttpMethod := .get
  url : Bytes
  headers : List Bytes
  body : Bytes := []
  stream : ApiStream := .none
  totalTimeout : Nat := 8000
  maxResponseBytes : Nat
  deriving DecidableEq

/-- What the transport answers, with the pieces a callback was given before. -/
structure ApiAnswer where
  response : CurlHttpTransport.HttpResponse
  delivered : List Bytes := []

/-- What is checked, past the arguments: the request, which statuses count, and what the
answer is read as. -/
structure ApiCall (α : Type) where
  request : ApiRequest
  succeeds : Int → Bool := fun status => 200 ≤ status && status < 300
  decode : ApiAnswer → Except Failure α

/-- What is outside: the transport, and the answers of the cancellation check, one by one. -/
structure ClientEnv where
  perform : List ApiRequest → ApiRequest → ApiAnswer
  cancelled : Nat → Bool

structure ClientState where
  sent : List ApiRequest := []
  checks : Nat := 0

abbrev ClientM := Throwing Failure ClientState

/-- `Failure(0)`, `Failure(0, true)`. -/
def malformed : Failure := { status := 0 }
def cancelledFailure : Failure := { status := 0, cancelled := true }

/-- `if (cancelled && cancelled())`. -/
def checkCancelled (E : ClientEnv) : ClientM Unit := do
  let s ← get
  modify fun s => { s with checks := s.checks + 1 }
  if E.cancelled s.checks then throw cancelledFailure

/-- What becomes of an answer (BackendAccountClient.cpp:380). -/
def ApiCall.judge {α : Type} (call : ApiCall α) (answer : ApiAnswer) : Except Failure α :=
  if answer.response.error ≠ "" ∨ call.request.maxResponseBytes < answer.response.body.length then
    .error malformed
  else if call.succeeds answer.response.statusCode then call.decode answer
  else .error { status := answer.response.statusCode.toNat }

/-- `request` (BackendAccountClient.cpp:344) and `snapshot_request`
(BackendAccountClient.cpp:786), past their checks. -/
def ApiCall.send {α : Type} (E : ClientEnv) (call : ApiCall α) : ClientM α := do
  checkCancelled E
  let s ← get
  let answer := E.perform s.sent call.request
  modify fun s => { s with sent := s.sent ++ [call.request] }
  checkCancelled E
  match call.judge answer with
  | .ok value => pure value
  | .error failure => throw failure

/-- An operation: what it refuses with, or its call. -/
def perform {α : Type} (E : ClientEnv) (operation : Except Failure (ApiCall α)) : ClientM α :=
  match operation with
  | .ok call => call.send E
  | .error failure => throw failure

/-! ## Reading -/

/-- `boost::json`, with what preferences need of it besides: the number a member of
`settings` spells, if it is finite, and the text of an update. -/
structure ClientJson extends JsonLib where
  settingNumber : Bytes → Bytes → Option Rat
  preferencesText : Preferences → Bytes

variable (J : ClientJson)

/-- `object` (BackendAccountClient.cpp:20). -/
def object (text : Bytes) : Except Failure JsonObject :=
  match J.parse text with
  | some (.object members) => .ok members
  | _ => .error malformed

/-- `string` (BackendAccountClient.cpp:30), for a member that may be missing. -/
def optionalString (members : JsonObject) (key : Bytes) (limit : Nat) : Except Failure Bytes :=
  match members.lastOf key with
  | none | some .null => .ok []
  | some _ => accountString members key limit

/-- The keys of an object, once each. -/
def keysOf (members : JsonObject) : List Bytes := (members.map Prod.fst).reverse.dedup.reverse

/-- `is_int64`. -/
def int64Of : Json → Option Int64
  | .int value =>
    if -9223372036854775808 ≤ value ∧ value ≤ 9223372036854775807 then some (Int64.ofInt value)
    else none
  | _ => none

/-- `dictionary_number` (BackendAccountClient.cpp:199). -/
def dictionaryNumber (members : JsonObject) (key : Bytes) (minimum : Int64) :
    Except Failure Int64 :=
  match (members.lastOf key).bind int64Of with
  | some value => if value < minimum then .error malformed else .ok value
  | none => .error malformed

/-- A member that is an array, of some length at most. -/
def elementsOf (members : JsonObject) (key : Bytes) (limit : Nat) : Except Failure (List Json) :=
  match members.lastOf key with
  | some (.array elements) => if limit < elements.length then .error malformed else .ok elements
  | _ => .error malformed

/-- An element that must be an object; a loop reads each before it looks at the next. -/
def readElement {α : Type} (read : JsonObject → Except Failure α) : Json → Except Failure α
  | .object source => read source
  | _ => .error malformed

/-- `require_token` (BackendAccountClient.cpp:320). -/
def requireToken (token : Bytes) : Except Failure Unit :=
  if validAccountToken token then .ok () else .error badRequest

/-- `require_clipboard_text` (BackendAccountClient.cpp:89). -/
def requireClipboardText (text : Bytes) : Except Failure Unit := do
  DictionaryTsv.requireText J.toJsonLib text 16000
  if 4000 < DictionaryTsv.utf16Units text ∨ text.all DictionaryTsv.isBlank = true then
    throw badRequest
  return ()

/-- `clipboard_item` (BackendAccountClient.cpp:99). -/
def clipboardItem (source : JsonObject) : Except Failure ClipboardItem := do
  let id ← accountString source (ascii "id") 64
  let text ← accountString source (ascii "text") 16000
  let updatedAt ← accountString source (ascii "updated_at") 128
  if !validAccountToken id then throw malformed
  requireClipboardText J text
  return ⟨id, text, updatedAt⟩

/-- An entry, as a table has it. -/
def rowOf (entry : DictionaryEntry) : DictionaryTsv.DictionaryEntry :=
  ⟨entry.code, entry.word, entry.weight.toInt⟩

/-- `require_dictionary_entry` (BackendAccountClient.cpp:131). -/
def requireDictionaryEntry (entry : DictionaryEntry) (kind : Bytes) : Except Failure Unit :=
  DictionaryTsv.requireDictionaryEntry J.toJsonLib (rowOf entry) kind

/-- `catch (const Failure &) { throw Failure(0); }`. -/
def asMalformed {α : Type} : Except Failure α → Except Failure α
  | .ok value => .ok value
  | .error _ => .error malformed

/-- `dictionary_entry` (BackendAccountClient.cpp:206). -/
def dictionaryEntry (source : JsonObject) (kind : Bytes) : Except Failure DictionaryEntry := do
  let id ← accountString source (ascii "id") 64
  let kind' ← accountString source (ascii "kind") 16
  let code ← accountString source (ascii "code") 512
  let word ← accountString source (ascii "word") 2048
  let weight ← dictionaryNumber source (ascii "weight") 0
  let revision ← dictionaryNumber source (ascii "revision") 1
  let updatedAt ← accountString source (ascii "updated_at") 128
  if !validAccountToken id then throw malformed
  if kind' ≠ kind ∨ updatedAt = [] then throw malformed
  asMalformed (requireDictionaryEntry J ⟨id, kind', code, word, weight, revision, updatedAt⟩ kind)
  return ⟨id, kind', code, word, weight, revision, updatedAt⟩

/-- `optional_dictionary_entry` (BackendAccountClient.cpp:227). -/
def optionalDictionaryEntry (source : JsonObject) (key kind : Bytes) :
    Except Failure (Option DictionaryEntry) :=
  match source.lastOf key with
  | some .null => .ok none
  | some (.object entry) => do
    let entry ← dictionaryEntry J entry kind
    return some entry
  | _ => .error malformed

/-- `catalog_entry` (BackendAccountClient.cpp:239); the other fields are those of a new
entry. -/
def catalogEntry (source : JsonObject) (kind : Bytes) : Except Failure DictionaryEntry := do
  let kind' ← accountString source (ascii "kind") 16
  let code ← accountString source (ascii "code") 512
  let word ← accountString source (ascii "word") 2048
  let weight ← dictionaryNumber source (ascii "weight") 0
  if kind' ≠ kind then throw malformed
  asMalformed (requireDictionaryEntry J ⟨[], kind', code, word, weight, 0, []⟩ kind)
  return ⟨[], kind', code, word, weight, 0, []⟩

/-! ### Preferences -/

/-- The value of a setting (BackendAccountClient.cpp:270). -/
def settingValue (text key : Bytes) : Json → Except Failure PreferenceValue
  | .bool value => .ok (.bool value)
  | .int value =>
    if 0 ≤ value ∧ value ≤ 1000000 then .ok (.int64 (Int64.ofInt value)) else .error malformed
  | .double =>
    match J.settingNumber text key with
    | some value => if 0 ≤ value ∧ value ≤ 1000000 then .ok (.double value) else .error malformed
    | none => .error malformed
  | .string value => do
    DictionaryTsv.requireText J.toJsonLib value (1024 * 1024)
    return .string value
  | _ => .error malformed

/-- One setting more; `emplace` does not replace. -/
def readSetting (text : Bytes) (settings : JsonObject) (read : PreferenceSettings) (key : Bytes) :
    Except Failure PreferenceSettings := do
  DictionaryTsv.requireText J.toJsonLib key 256
  match settings.lastOf key with
  | some json =>
    let value ← settingValue J text key json
    return read.insert key value
  | none => return read

/-- `preferences_value` (BackendAccountClient.cpp:258), of the object a text spells. -/
def preferencesValue (text : Bytes) (source : JsonObject) : Except Failure Preferences :=
  match (source.lastOf (ascii "revision")).bind int64Of, source.lastOf (ascii "settings") with
  | some revision, some (.object settings) => do
    if revision < 0 ∨ 1024 < (keysOf settings).length then throw malformed
    let settings ← (keysOf settings).foldlM (readSetting J text settings) ∅
    return ⟨revision, settings⟩
  | _, _ => .error malformed

/-- The type of a field is that of the value (BackendAccountClient.cpp:301). -/
def typeMatches (field : PreferenceField) : PreferenceValue → Bool
  | .bool _ => field.type = ascii "boolean"
  | .int64 _ => field.type = ascii "integer" || field.type = ascii "number"
  | .double _ => field.type = ascii "number"
  | .string _ => field.type = ascii "string"

/-- A setting may be sent (BackendAccountClient.cpp:295). -/
def settingAllowed (schema : PreferencesSchema) (key : Bytes) (value : PreferenceValue) : Bool :=
  match schema.fields.lookup key with
  | none => false
  | some field =>
    typeMatches field value &&
      match value with
      | .bool _ => true
      | .int64 number => 0 ≤ number && number ≤ 1000000
      | .double number => 0 ≤ number && number ≤ 1000000
      | .string text => (DictionaryTsv.requireText J.toJsonLib text field.maximumLength).isOk

/-- `preference_settings` (BackendAccountClient.cpp:289): what is sent is all of it. -/
def preferenceSettings (value : Preferences) (schema : PreferencesSchema) : Except Failure Unit :=
  if value.revision < 0 ∨ value.revision = Int64.maxValue ∨ schema.maximumBytes = 0 ∨
      1024 * 1024 < schema.maximumBytes ∨ 1024 < value.settings.keys.card ∨
      ¬ ∀ key ∈ value.settings.keys,
        (value.settings.lookup key).any (settingAllowed J schema key) = true then
    .error badRequest
  else .ok ()

/-- `maxLength`, if it is there (BackendAccountClient.cpp:513). -/
def maximumLength (field : JsonObject) : Except Failure Nat :=
  match field.lastOf (ascii "maxLength") with
  | none => .ok 1024
  | some (.int limit) =>
    if limit ≤ 0 ∨ 1024 * 1024 < limit then .error malformed else .ok limit.toNat
  | some _ => .error malformed

/-- A field of a schema (BackendAccountClient.cpp:503). -/
def readField (fields : JsonObject) (read : Finmap fun _ : Bytes => PreferenceField) (key : Bytes) :
    Except Failure (Finmap fun _ : Bytes => PreferenceField) :=
  match fields.lastOf key with
  | some (.object field) => do
    DictionaryTsv.requireText J.toJsonLib key 256
    let type ← accountString field (ascii "type") 32
    if type ≠ ascii "boolean" ∧ type ≠ ascii "integer" ∧ type ≠ ascii "number" ∧
        type ≠ ascii "string" then throw malformed
    let length ← maximumLength field
    return read.insert key ⟨type, if ascii "prompt" <:+: key then 8192 else length⟩
  | _ => .error malformed

/-- What `preferences_schema` makes of an answer (BackendAccountClient.cpp:495). -/
def schemaValue (source : JsonObject) : Except Failure PreferencesSchema :=
  match source.lastOf (ascii "maximum_bytes"), source.lastOf (ascii "revision_required") with
  | some (.int maximum), some (.bool true) => do
    if maximum ≤ 0 ∨ 1024 * 1024 < maximum then throw malformed
    let mode ← accountString source (ascii "update_mode") 32
    if mode ≠ ascii "replace" then throw malformed
    match source.lastOf (ascii "fields") with
    | some (.object fields) =>
      if 1024 < (keysOf fields).length then throw malformed
      let read ← (keysOf fields).foldlM (readField J fields) ∅
      return ⟨maximum.toNat, read⟩
    | _ => throw malformed
  | _, _ => .error malformed

/-! ## Writing -/

/-- `std::string("https://api.msime.app") + path`. -/
def origin : Bytes := ascii "https://api.msime.app"

/-- `/v1/users/me`, below which everything of a user is. -/
def usersMe : Bytes := ascii "/v1/users/me"

/-- The request of an operation (BackendAccountClient.cpp:344). -/
def boundedRequest (method : CurlHttpTransport.HttpMethod) (path body token : Bytes)
    (responseLimit requestLimit : Nat) : Except Failure ApiRequest := do
  if token ≠ [] ∧ ¬ validAccountToken token = true then throw badRequest
  if requestLimit < body.length then throw badRequest
  return {
    method, body
    url := origin ++ path
    headers := [ascii "Accept: application/json", ascii "Cache-Control: no-store"] ++
      (if body = [] then [] else [ascii "Content-Type: application/json"]) ++
      (if token = [] then [] else [ascii "Authorization: Bearer " ++ token])
    totalTimeout := 30000
    maxResponseBytes := responseLimit }

/-- The same with the limits it has by default. -/
def apiRequest (method : CurlHttpTransport.HttpMethod) (path body token : Bytes) :
    Except Failure ApiRequest :=
  boundedRequest method path body token (1024 * 1024) 65536

/-- The request of an upload or a download (BackendAccountClient.cpp:786). -/
def snapshotRequest (request : ApiRequest) (token : Bytes) : Except Failure ApiRequest := do
  requireToken token
  return { request with
    totalTimeout := 120000
    headers := request.headers ++
      [ascii "Authorization: Bearer " ++ token, ascii "Cache-Control: no-store"] }

/-- An answer that is a JSON object. -/
def answered {α : Type} (request : ApiRequest) (decode : JsonObject → Except Failure α) :
    ApiCall α where
  request
  decode answer := do
    let source ← object J answer.response.body
    decode source

/-- An answer that only has to be a success. -/
def acknowledged (request : ApiRequest) : ApiCall Unit where
  request
  decode _ := .ok ()

/-! ## The account -/

/-- `providers_list` (BackendAccountClient.cpp:14). -/
def providersList : List Bytes :=
  [ascii "apple", ascii "google", ascii "wechat", ascii "phone", ascii "email"]

/-- `providers` (BackendAccountClient.cpp:391). -/
def providers : Except Failure (ApiCall (List (Bytes × Bool))) := do
  let request ← apiRequest .get (ascii "/v1/auth/providers") [] []
  return answered J request fun source =>
    match source.lastOf (ascii "providers") with
    | some (.object value) =>
      if 16 < (keysOf value).length then .error malformed
      else providersList.mapM fun provider =>
        match JsonObject.lastOf value provider with
        | some (.bool enabled) => .ok (provider, enabled)
        | _ => .error malformed
    | _ => .error malformed

/-- `challenge` (BackendAccountClient.cpp:411). -/
def challenge (provider target linkToken : Bytes) : Except Failure (ApiCall Challenge) := do
  if provider ∉ providersList ∨ 512 < target.length then throw badRequest
  let purpose := if linkToken = [] then ascii "login" else ascii "link"
  let body := J.serialize (.object [(ascii "provider", .string provider),
    (ascii "target", .string target), (ascii "purpose", .string purpose)])
  let request ← apiRequest .post (ascii "/v1/auth/challenges") body linkToken
  return answered J request fun source => do
    let id ← accountString source (ascii "challenge_id") 128
    let expiresIn ← lifetime source
    let nonce ← optionalString source (ascii "nonce") 256
    let authorizationUrl ← optionalString source (ascii "authorization_url") 4096
    if id = [] then throw malformed
    return ⟨id, expiresIn, nonce, authorizationUrl⟩

/-- `login` (BackendAccountClient.cpp:432). -/
def login (challengeId credential linkToken : Bytes) : Except Failure (ApiCall Tokens) := do
  if challengeId = [] ∨ 128 < challengeId.length ∨ credential = [] ∨ 16384 < credential.length then
    throw badRequest
  let body := J.serialize (.object [(ascii "challenge_id", .string challengeId),
    (ascii "credential", .string credential)])
  let request ← apiRequest .post (ascii "/v1/auth/login") body linkToken
  return answered J request decodeTokens

/-- `refresh` (BackendAccountClient.cpp:444). -/
def refresh (refreshToken : Bytes) : Except Failure (ApiCall Tokens) := do
  requireToken refreshToken
  let body := J.serialize (.object [(ascii "refresh_token", .string refreshToken)])
  let request ← apiRequest .post (ascii "/v1/auth/refresh") body []
  return answered J request decodeTokens

/-- An identity (BackendAccountClient.cpp:467). -/
def identityOf (source : JsonObject) : Except Failure Identity := do
  let provider ← accountString source (ascii "provider") 32
  let subject ← accountString source (ascii "subject") 512
  return ⟨provider, subject⟩

/-- `profile` (BackendAccountClient.cpp:451). -/
def profile (token : Bytes) : Except Failure (ApiCall Profile) := do
  requireToken token
  let request ← apiRequest .get usersMe [] token
  return answered J request fun source => do
    let user ← decodeUser source
    let elements ← elementsOf source (ascii "identities") 32
    let identities ← elements.mapM (readElement identityOf)
    return ⟨user, identities⟩

/-- `rename` (BackendAccountClient.cpp:472). -/
def rename (name token : Bytes) : Except Failure (ApiCall Unit) := do
  requireToken token
  if name = [] ∨ 128 < name.length then throw badRequest
  let body := J.serialize (.object [(ascii "display_name", .string name)])
  let request ← apiRequest .patch usersMe body token
  return acknowledged request

/-- `logout` (BackendAccountClient.cpp:854). -/
def logout (token : Bytes) (all : Bool) : Except Failure (ApiCall Unit) := do
  requireToken token
  let body := J.serialize (.object [(ascii "all", .bool all)])
  let request ← apiRequest .post (ascii "/v1/auth/logout") body token
  return acknowledged request

/-- `delete_account` (BackendAccountClient.cpp:860). -/
def deleteAccount (token : Bytes) : Except Failure (ApiCall Unit) := do
  requireToken token
  let request ← apiRequest .delete usersMe [] token
  return acknowledged request

/-! ## Preferences -/

/-- `preferences` (BackendAccountClient.cpp:483). -/
def preferences (token : Bytes) : Except Failure (ApiCall Preferences) := do
  requireToken token
  let request ← boundedRequest .get (usersMe ++ ascii "/preferences") [] token
    (2 * 1024 * 1024) 65536
  return { request, decode := fun answer => do
    let source ← object J answer.response.body
    preferencesValue J answer.response.body source }

/-- `preferences_schema` (BackendAccountClient.cpp:489). -/
def preferencesSchema (token : Bytes) : Except Failure (ApiCall PreferencesSchema) := do
  requireToken token
  let request ← apiRequest .get (usersMe ++ ascii "/preferences/schema") [] token
  return answered J request (schemaValue J)

/-- `put_preferences` (BackendAccountClient.cpp:526). -/
def putPreferences (value : Preferences) (schema : PreferencesSchema) (token : Bytes) :
    Except Failure (ApiCall Preferences) := do
  requireToken token
  preferenceSettings J value schema
  let body := J.preferencesText value
  if schema.maximumBytes < body.length then throw badRequest
  let request ← boundedRequest .put (usersMe ++ ascii "/preferences") body token
    (2 * 1024 * 1024) schema.maximumBytes
  return { request, decode := fun answer => do
    let source ← object J answer.response.body
    let result ← preferencesValue J answer.response.body source
    if result.revision ≠ value.revision + 1 then throw malformed
    return result }

/-! ## The clipboard -/

/-- `clipboard` (BackendAccountClient.cpp:540). -/
def clipboard (token query : Bytes) : Except Failure (ApiCall ClipboardSnapshot) := do
  requireToken token
  DictionaryTsv.requireText J.toJsonLib query 1024
  let path := usersMe ++ ascii "/clipboard?q=" ++ percentEncode query
  let request ← boundedRequest .get path [] token (2 * 1024 * 1024) 65536
  return answered J request fun source =>
    match source.lastOf (ascii "enabled") with
    | some (.bool enabled) => do
      let elements ← elementsOf source (ascii "items") 50
      let items ← elements.mapM (readElement (clipboardItem J))
      return ⟨enabled, items⟩
    | _ => .error malformed

/-- `set_clipboard_enabled` (BackendAccountClient.cpp:560). -/
def setClipboardEnabled (enabled : Bool) (token : Bytes) : Except Failure (ApiCall Unit) := do
  requireToken token
  let body := J.serialize (.object [(ascii "enabled", .bool enabled)])
  let request ← apiRequest .put (usersMe ++ ascii "/clipboard/settings") body token
  return answered J request fun source =>
    if source.lastOf (ascii "enabled") = some (.bool enabled) then .ok () else .error malformed

/-- `add_clipboard` (BackendAccountClient.cpp:571). -/
def addClipboard (text token : Bytes) : Except Failure (ApiCall ClipboardItem) := do
  requireToken token
  requireClipboardText J text
  let body := J.serialize (.object [(ascii "text", .string text)])
  let request ← apiRequest .post (usersMe ++ ascii "/clipboard") body token
  return answered J request (clipboardItem J)

/-- `delete_clipboard` (BackendAccountClient.cpp:580). -/
def deleteClipboard (id token : Bytes) : Except Failure (ApiCall Unit) := do
  requireToken token
  if id ≠ [] ∧ ¬ validAccountToken id = true then throw badRequest
  let path := usersMe ++ ascii "/clipboard" ++ if id = [] then [] else ascii "/" ++ id
  let request ← apiRequest .delete path [] token
  return acknowledged request

/-! ## Dictionaries -/

/-- `dictionary_path` (BackendAccountClient.cpp:125). -/
def dictionaryPath (kind : Bytes) : Except Failure Bytes :=
  if kind ≠ ascii "pinyin" ∧ kind ≠ ascii "wubi" ∧ kind ≠ ascii "english" ∧
      kind ≠ ascii "quick" then
    .error badRequest
  else .ok (usersMe ++ ascii "/dictionaries/" ++ kind)

/-- `dictionary_format` (BackendAccountClient.cpp:149). -/
def dictionaryFormat (format : Bytes) : Except Failure Unit :=
  if format ≠ ascii "standard" ∧ format ≠ ascii "windows" then .error badRequest else .ok ()

/-- One entry more; none may be there already (BackendAccountClient.cpp:606). -/
def addEntry (decode : JsonObject → Except Failure DictionaryEntry)
    (same : DictionaryEntry → DictionaryEntry → Bool) (page : List DictionaryEntry)
    (element : JsonObject) : Except Failure (List DictionaryEntry) := do
  let entry ← decode element
  if page.any fun old => same old entry then throw malformed
  return page ++ [entry]

/-- A page of a list (BackendAccountClient.cpp:599, BackendAccountClient.cpp:637). -/
def readPage (decode : JsonObject → Except Failure DictionaryEntry)
    (same : DictionaryEntry → DictionaryEntry → Bool) (offset limit : Int32) (revision : Int64)
    (source : JsonObject) : Except Failure DictionaryPage :=
  match source.lastOf (ascii "has_more") with
  | some (.bool more) => do
    let elements ← elementsOf source (ascii "entries") limit.toInt.toNat
    let answered ← dictionaryNumber source (ascii "offset") 0
    if answered ≠ offset.toInt64 then throw malformed
    let entries ← elements.foldlM (fun page => readElement (addEntry decode same page)) []
    if more ∧ entries.length ≠ limit.toInt.toNat then throw malformed
    return ⟨entries, more, offset, revision⟩
  | _ => .error malformed

/-- `?q=…&offset=…&limit=…`. -/
def pageQuery (query : Bytes) (offset limit : Int32) : Bytes :=
  ascii "?q=" ++ percentEncode query ++ ascii "&offset=" ++ encodeInt offset.toInt ++
    ascii "&limit=" ++ encodeInt limit.toInt

def offRange (offset limit : Int32) : Prop :=
  offset < 0 ∨ offset > 1000000 ∨ limit < 1 ∨ limit > 200

instance (offset limit : Int32) : Decidable (offRange offset limit) :=
  inferInstanceAs (Decidable (offset < 0 ∨ offset > 1000000 ∨ limit < 1 ∨ limit > 200))

/-- `dictionary` (BackendAccountClient.cpp:589). -/
def dictionary (kind query : Bytes) (offset limit : Int32) (token : Bytes) :
    Except Failure (ApiCall DictionaryPage) := do
  requireToken token
  let path ← dictionaryPath kind
  DictionaryTsv.requireText J.toJsonLib query 1024
  if offRange offset limit then throw badRequest
  let request ← boundedRequest .get (path ++ pageQuery query offset limit) [] token
    (4 * 1024 * 1024) 65536
  return answered J request
    (readPage (fun entry => dictionaryEntry J entry kind) (fun old entry => old.id = entry.id)
      offset limit 0)

/-- `dictionary_catalog` (BackendAccountClient.cpp:620). -/
def dictionaryCatalog (kind query : Bytes) (offset limit : Int32) (token : Bytes)
    (options : DictionaryCatalogOptions) : Except Failure (ApiCall DictionaryPage) := do
  requireToken token
  if options.scheme ∉ [ascii "pinyin", ascii "shuangpin"] ∨
      options.profile ∉ [ascii "xiaohe", ascii "ziranma", ascii "shoudao", ascii "microsoft"] then
    throw badRequest
  let path ← dictionaryPath kind
  DictionaryTsv.requireText J.toJsonLib query 1024
  if query = [] ∧ kind ≠ ascii "quick" then throw badRequest
  if offRange offset limit then throw badRequest
  let path := path ++ ascii "/catalog" ++ pageQuery query offset limit ++ ascii "&scheme=" ++
    options.scheme ++ ascii "&profile=" ++ options.profile
  let request ← boundedRequest .get path [] token (4 * 1024 * 1024) 65536
  return answered J request fun source => do
    let revision ← dictionaryNumber source (ascii "revision") 0
    readPage (fun entry => catalogEntry J entry kind)
      (fun old entry => old.code = entry.code && old.word = entry.word) offset limit revision source

/-- The members of an entry that are sent. -/
def entryMembers (entry : DictionaryEntry) : JsonObject :=
  [(ascii "code", .string entry.code), (ascii "word", .string entry.word),
    (ascii "weight", .int entry.weight.toInt)]

/-- `require_dictionary_entry`, for an entry that may be missing. -/
def requireReplacement (replacement : Option DictionaryEntry) (kind : Bytes) :
    Except Failure Unit :=
  match replacement with
  | some entry => requireDictionaryEntry J entry kind
  | none => .ok ()

/-- What `manage_dictionary` makes of an answer (BackendAccountClient.cpp:679). -/
def managedChange (kind : Bytes) (revision : Int64) (previous : DictionaryEntry)
    (replacement : Option DictionaryEntry) (source : JsonObject) :
    Except Failure DictionaryChange := do
  let changed ← dictionaryNumber source (ascii "revision") 1
  if changed ≠ revision + 1 then throw malformed
  match source.lastOf (ascii "previous"), source.lastOf (ascii "replacement"), replacement with
  | some (.object old), some (.object next), some _ => do
    let old ← catalogEntry J old kind
    if old.code ≠ previous.code ∨ old.word ≠ previous.word then throw malformed
    let next ← catalogEntry J next kind
    return ⟨changed, some old, some next⟩
  | some (.object old), some .null, none => do
    let old ← catalogEntry J old kind
    if old.code ≠ previous.code ∨ old.word ≠ previous.word then throw malformed
    return ⟨changed, some old, none⟩
  | _, _, _ => throw malformed

/-- `manage_dictionary` (BackendAccountClient.cpp:657). -/
def manageDictionary (kind : Bytes) (revision : Int64) (previous : DictionaryEntry)
    (replacement : Option DictionaryEntry) (token : Bytes) :
    Except Failure (ApiCall DictionaryChange) := do
  requireToken token
  let path ← dictionaryPath kind
  if revision < 0 ∨ revision = Int64.maxValue ∨ previous.kind ≠ kind then throw badRequest
  requireDictionaryEntry J previous kind
  requireReplacement J replacement kind
  let body := J.serialize (.object [(ascii "revision", .int revision.toInt),
    (ascii "previous", .object [(ascii "code", .string previous.code),
      (ascii "word", .string previous.word)]),
    (ascii "replacement", match replacement with
      | some entry => .object (entryMembers entry)
      | none => .null)])
  let request ← apiRequest .post (path ++ ascii "/edit") body token
  return answered J request (managedChange J kind revision previous replacement)

/-- The answer to `edit_dictionary` is about something else (BackendAccountClient.cpp:721). -/
def mismatched (id : Bytes) (revision : Int64) (replacement : Option DictionaryEntry)
    (change : DictionaryChange) : Bool :=
  (change.previous.isSome != !id.isEmpty) || (change.replacement.isSome != replacement.isSome) ||
    change.revision ≤ revision ||
    change.previous.any (fun old => old.id ≠ id || old.revision ≠ revision) ||
    change.replacement.any fun next =>
      next.revision ≠ change.revision || (!id.isEmpty && next.id ≠ id)

/-- `edit_dictionary` (BackendAccountClient.cpp:692). -/
def editDictionary (kind id : Bytes) (revision : Int64) (replacement : Option DictionaryEntry)
    (token : Bytes) : Except Failure (ApiCall DictionaryChange) := do
  requireToken token
  let path ← dictionaryPath kind
  if (id = [] ∧ (revision ≠ 0 ∨ replacement = none)) ∨
      (id ≠ [] ∧ (¬ validAccountToken id = true ∨ revision < 1 ∨ revision = Int64.maxValue)) then
    throw badRequest
  requireReplacement J replacement kind
  let body := J.serialize (.object
    ((if id = [] then [] else [(ascii "revision", .int revision.toInt)]) ++
      match replacement with
      | some entry => entryMembers entry
      | none => []))
  let method := if id = [] then .post else if replacement.isSome then .put else .delete
  let request ← apiRequest method (path ++ if id = [] then [] else ascii "/" ++ id) body token
  return answered J request fun source => do
    let changed ← dictionaryNumber source (ascii "revision") 1
    let old ← optionalDictionaryEntry J source (ascii "previous") kind
    let next ← optionalDictionaryEntry J source (ascii "replacement") kind
    if mismatched id revision replacement ⟨changed, old, next⟩ then throw malformed
    return ⟨changed, old, next⟩

/-- `import_dictionary` (BackendAccountClient.cpp:731). -/
def importDictionary (kind text format token : Bytes) :
    Except Failure (ApiCall DictionaryImportResult) := do
  requireToken token
  let path ← dictionaryPath kind
  dictionaryFormat format
  if 65536 < text.length then throw badRequest
  let count ← DictionaryTsv.dictionaryTsv J.toJsonLib text kind format 500 false
  if count = 0 then throw badRequest
  let body := J.serialize (.object [(ascii "text", .string text), (ascii "format", .string format)])
  let request ← apiRequest .post (path ++ ascii "/import") body token
  return answered J request fun source => do
    let imported ← dictionaryNumber source (ascii "imported") 1
    if imported.toInt ≠ count then throw malformed
    let revision ← dictionaryNumber source (ascii "revision") 1
    return ⟨imported.toInt32, revision⟩

/-- `import_han_dictionary` (BackendAccountClient.cpp:750). -/
def importHanDictionary (text : Bytes) (weight : Int64) (token : Bytes) :
    Except Failure (ApiCall DictionaryImportResult) := do
  requireToken token
  DictionaryTsv.requireText J.toJsonLib text 65536
  if text = [] ∨ weight < 0 then throw badRequest
  let body := J.serialize (.object [(ascii "text", .string text),
    (ascii "weight", .int weight.toInt)])
  let request ← apiRequest .post (usersMe ++ ascii "/dictionaries/pinyin/import-hans") body token
  return answered J request fun source => do
    let count ← dictionaryNumber source (ascii "imported") 1
    if count > 500 then throw malformed
    let revision ← dictionaryNumber source (ascii "revision") 1
    return ⟨count.toInt32, revision⟩

/-- `export_dictionary` (BackendAccountClient.cpp:768): the table is checked, not read. -/
def exportDictionary (kind format token : Bytes) : Except Failure (ApiCall Bytes) := do
  requireToken token
  let path ← dictionaryPath kind
  dictionaryFormat format
  let request ← boundedRequest .get (path ++ ascii "/export?format=" ++ format) [] token
    (256 * 1024 * 1024) 65536
  return { request, decode := fun answer => do
    let _ ← asMalformed (DictionaryTsv.dictionaryTsv J.toJsonLib answer.response.body kind format
      100000 true)
    return answer.response.body }

/-! ## Snapshots -/

/-- `512U * 1024U * 1024U`. -/
def maximumSnapshotBytes : Nat := 512 * 1024 * 1024

/-- The variables of `download_snapshot`, and how often the sink was called. -/
structure Provisional where
  received : Nat := 0
  failed : Bool := false
  calls : Nat := 0
  deriving DecidableEq

/-- `response_sink` (BackendAccountClient.cpp:815). -/
def Provisional.take (sink : Nat → Bytes → Bool) (p : Provisional) (data : Bytes) : Provisional :=
  if maximumSnapshotBytes - p.received < data.length then { p with failed := true }
  else if sink p.calls data then
    { p with received := p.received + data.length, calls := p.calls + 1 }
  else { p with failed := true, calls := p.calls + 1 }

/-- Only 200 counts. -/
def isOk (status : Int) : Bool := status = 200

/-- `download_snapshot` (BackendAccountClient.cpp:804). -/
def downloadSnapshot (sink : Option (Nat → Bytes → Bool)) (token : Bytes) :
    Except Failure (ApiCall Unit) :=
  match sink with
  | none => .error badRequest
  | some sink => do
    let request ← snapshotRequest {
      url := origin ++ usersMe ++ ascii "/dictionary/snapshot"
      headers := [ascii "Accept: application/x-ndjson"]
      stream := .response
      maxResponseBytes := maximumSnapshotBytes } token
    return { request, succeeds := isOk, decode := fun answer =>
      let taken := answer.delivered.foldl (Provisional.take sink) {}
      if taken.failed ∨ answer.response.body ≠ [] ∨ taken.received = 0 then .error malformed
      else .ok () }

/-- What `restore_snapshot` makes of an answer (BackendAccountClient.cpp:848). -/
def restoredRevision (revision : Int64) (source : JsonObject) : Except Failure Int64 :=
  match source.lastOf (ascii "reset"), (source.lastOf (ascii "revision")).bind int64Of with
  | some (.bool true), some updated =>
    if (keysOf source).length ≠ 2 ∨ updated ≤ revision then .error malformed else .ok updated
  | _, _ => .error malformed

/-- `restore_snapshot` (BackendAccountClient.cpp:833). -/
def restoreSnapshot (hasSource : Bool) (size : Nat) (revision : Int64) (token : Bytes) :
    Except Failure (ApiCall Int64) := do
  if hasSource = false ∨ size = 0 ∨ maximumSnapshotBytes < size ∨ revision < 0 ∨
      revision = Int64.maxValue then
    throw badRequest
  let request ← snapshotRequest {
    method := .put
    url := origin ++ usersMe ++ ascii "/dictionary/snapshot?revision=" ++
      encodeInt revision.toInt
    headers := [ascii "Accept: application/json", ascii "Content-Type: application/x-ndjson"]
    stream := .request size
    maxResponseBytes := 65536 } token
  return { answered J request (restoredRevision revision) with succeeds := isOk }

end BackendAccountClient

open BackendAccountClient in
/-- The operation that a session asks for. -/
def AccountRequest.operation (J : ClientJson) (sink : Option (Nat → Bytes → Bool)) :
    (request : AccountRequest) → Except Failure (ApiCall request.Response)
  | .challenge provider target linkToken =>
    BackendAccountClient.challenge J provider target linkToken
  | .login id credential linkToken => BackendAccountClient.login J id credential linkToken
  | .refresh token => BackendAccountClient.refresh J token
  | .profile token => BackendAccountClient.profile J token
  | .rename name token => BackendAccountClient.rename J name token
  | .preferences token => BackendAccountClient.preferences J token
  | .preferencesSchema token => BackendAccountClient.preferencesSchema J token
  | .putPreferences value schema token => BackendAccountClient.putPreferences J value schema token
  | .clipboard token query => BackendAccountClient.clipboard J token query
  | .setClipboardEnabled enabled token => BackendAccountClient.setClipboardEnabled J enabled token
  | .addClipboard text token => BackendAccountClient.addClipboard J text token
  | .deleteClipboard id token => BackendAccountClient.deleteClipboard id token
  | .dictionary kind query offset limit token =>
    BackendAccountClient.dictionary J kind query offset limit token
  | .dictionaryCatalog kind query offset limit token options =>
    BackendAccountClient.dictionaryCatalog J kind query offset limit token options
  | .manageDictionary kind revision previous replacement token =>
    BackendAccountClient.manageDictionary J kind revision previous replacement token
  | .editDictionary kind id revision replacement token =>
    BackendAccountClient.editDictionary J kind id revision replacement token
  | .importDictionary kind text format token =>
    BackendAccountClient.importDictionary J kind text format token
  | .importHanDictionary text weight token =>
    BackendAccountClient.importHanDictionary J text weight token
  | .exportDictionary kind format token => BackendAccountClient.exportDictionary J kind format token
  | .downloadSnapshot token => BackendAccountClient.downloadSnapshot sink token
  | .restoreSnapshot size revision token =>
    -- The reviews alone restore, and give the snapshot they hold.
    BackendAccountClient.restoreSnapshot J true size revision token
  | .logout token all => BackendAccountClient.logout J token all
  | .deleteAccount token => BackendAccountClient.deleteAccount token

end MsimeLinux
