import Mathlib.Data.Finmap
import MsimeLinux.Account.CredentialStore
import MsimeLinux.Lib.Throwing
import MsimeLinux.SecretStore

/-!
# The account session (`AccountSession.cpp`)

An `AccountSession` holds the tokens of the signed-in user. Every method takes its
mutex for the whole of its body, so a run is a sequence of calls; what a method
writes before it throws stays written. The backend client, the secret service and
the clock are an environment that answers as it likes (`AccountEnv`), and every
call to the first two is logged. A callback of the caller works on its own state,
`outside`.

The generation is a natural number: the 64-bit counter of the source would take
2^64 sign-ins to come round.
-/

namespace MsimeLinux

open Lib

/-! ## What the backend exchanges -/

/-- `Challenge` (BackendAccountClient.h:28). -/
structure Challenge where
  id : Bytes
  expiresIn : Int32
  nonce : Bytes
  authorizationUrl : Bytes

/-- `Identity` (BackendAccountClient.h:35). -/
structure Identity where
  provider : Bytes
  subject : Bytes

/-- `Profile` (BackendAccountClient.h:66). -/
structure Profile where
  user : User
  identities : List Identity

/-- `PreferenceValue` (BackendAccountClient.h:40); the doubles JSON can spell are
rational. -/
inductive PreferenceValue where
  | bool (value : Bool)
  | int64 (value : Int64)
  | double (value : Rat)
  | string (value : Bytes)
  deriving DecidableEq

/-- `std::map<std::string, PreferenceValue>`. -/
abbrev PreferenceSettings := Finmap fun _ : Bytes => PreferenceValue

/-- `Preferences` (BackendAccountClient.h:41). -/
structure Preferences where
  revision : Int64
  settings : PreferenceSettings
  deriving DecidableEq

/-- `PreferenceField` (BackendAccountClient.h:46). -/
structure PreferenceField where
  type : Bytes
  maximumLength : Nat
  deriving DecidableEq

/-- `PreferencesSchema` (BackendAccountClient.h:51). -/
structure PreferencesSchema where
  maximumBytes : Nat
  fields : Finmap fun _ : Bytes => PreferenceField
  deriving DecidableEq

/-- `ClipboardItem` and `ClipboardSnapshot` (BackendAccountClient.h:61). -/
structure ClipboardItem where
  id : Bytes
  text : Bytes
  updatedAt : Bytes

structure ClipboardSnapshot where
  enabled : Bool
  items : List ClipboardItem

/-- `DictionaryEntry` (BackendAccountClient.h:88). -/
structure DictionaryEntry where
  id : Bytes
  kind : Bytes
  code : Bytes
  word : Bytes
  weight : Int64
  revision : Int64
  updatedAt : Bytes
  deriving DecidableEq

/-- `DictionaryPage` (BackendAccountClient.h:94). -/
structure DictionaryPage where
  entries : List DictionaryEntry
  hasMore : Bool
  offset : Int32
  revision : Int64

/-- `DictionaryCatalogOptions`, `DictionaryImportResult` and `DictionaryChange`
(BackendAccountClient.h:110). -/
structure DictionaryCatalogOptions where
  scheme : Bytes
  profile : Bytes
  deriving DecidableEq

structure DictionaryImportResult where
  imported : Int32
  revision : Int64

structure DictionaryChange where
  revision : Int64
  previous : Option DictionaryEntry
  replacement : Option DictionaryEntry

/-- The calls of `BackendAccountClient` a session makes (BackendAccountClient.h:110). -/
inductive AccountRequest where
  | challenge (provider target linkToken : Bytes)
  | login (challenge credential linkToken : Bytes)
  | refresh (refreshToken : Bytes)
  | profile (token : Bytes)
  | rename (name token : Bytes)
  | preferences (token : Bytes)
  | preferencesSchema (token : Bytes)
  | putPreferences (value : Preferences) (schema : PreferencesSchema) (token : Bytes)
  | clipboard (token query : Bytes)
  | setClipboardEnabled (enabled : Bool) (token : Bytes)
  | addClipboard (text token : Bytes)
  | deleteClipboard (id token : Bytes)
  | dictionary (kind query : Bytes) (offset limit : Int32) (token : Bytes)
  | dictionaryCatalog (kind query : Bytes) (offset limit : Int32) (token : Bytes)
      (options : DictionaryCatalogOptions)
  | manageDictionary (kind : Bytes) (revision : Int64) (previous : DictionaryEntry)
      (replacement : Option DictionaryEntry) (token : Bytes)
  | editDictionary (kind id : Bytes) (revision : Int64) (replacement : Option DictionaryEntry)
      (token : Bytes)
  | importDictionary (kind text format token : Bytes)
  | importHanDictionary (text : Bytes) (weight : Int64) (token : Bytes)
  | exportDictionary (kind format token : Bytes)
  | downloadSnapshot (token : Bytes)
  | restoreSnapshot (size : Nat) (revision : Int64) (token : Bytes)
  | logout (token : Bytes) (all : Bool)
  | deleteAccount (token : Bytes)
  deriving DecidableEq

/-- What a call returns when it does not throw. -/
abbrev AccountRequest.Response : AccountRequest → Type
  | challenge .. => Challenge
  | login .. | refresh .. => Tokens
  | profile .. => Profile
  | rename .. => Unit
  | preferences .. | putPreferences .. => Preferences
  | preferencesSchema .. => PreferencesSchema
  | clipboard .. => ClipboardSnapshot
  | setClipboardEnabled .. => Unit
  | addClipboard .. => ClipboardItem
  | deleteClipboard .. => Unit
  | dictionary .. | dictionaryCatalog .. => DictionaryPage
  | manageDictionary .. | editDictionary .. => DictionaryChange
  | importDictionary .. | importHanDictionary .. => DictionaryImportResult
  | exportDictionary .. => Bytes
  | downloadSnapshot .. => Unit
  | restoreSnapshot .. => Int64
  | logout .. | deleteAccount .. => Unit

/-! ## The session and its surroundings -/

/-- How a save of the record ended; a text that cannot be read again is not stored. -/
inductive RecordSave where
  | stored
  | notStored
  | unreadable
  deriving DecidableEq

/-- A call a session made: a request with what it threw, if it threw, or an
operation of the credential store. -/
inductive AccountCall where
  | request (request : AccountRequest) (failure : Option Failure)
  | lookup (answer : SecretLookup)
  | save (text : Bytes) (outcome : RecordSave)
  | erase (erased : Bool)
  deriving DecidableEq

/-- What a session cannot foresee: what the backend answers, whether the secret
service works, the time, and whether the caller has cancelled. Everything may
depend on the calls made so far. An operation of the service that fails may leave
anything behind. -/
structure AccountEnv where
  respond : List AccountCall → (request : AccountRequest) → Except Failure request.Response
  reachable : List AccountCall → Bool
  storeFails : List AccountCall → Option (Option Bytes)
  eraseFails : List AccountCall → Option (Option Bytes)
  clock : List AccountCall → Int64
  cancelled : List AccountCall → Bool

/-- An `AccountSession` (AccountSession.h:87), the record in the secret store, the
calls so far, and the state callbacks work on. -/
structure AccountWorld (ω : Type) where
  restored : Bool := false
  generation : Nat := 0
  session : Option SavedSession := none
  record : Option Bytes
  calls : List AccountCall := []
  outside : ω

/-- `SessionSnapshot` (AccountSession.h:9). -/
structure AccountSnapshot where
  generation : Nat
  user : Option User

/-- `PreferencesReview` (AccountSession.h:15). -/
structure PreferencesReview where
  generation : Nat
  userId : Bytes
  remote : Preferences
  schema : PreferencesSchema

variable {ω : Type}

/-- Who is signed in. -/
def AccountWorld.userId (w : AccountWorld ω) : Option Bytes :=
  w.session.map fun session => session.tokens.user.id

/-- One more call. -/
def AccountWorld.log (w : AccountWorld ω) (call : AccountCall) : AccountWorld ω :=
  { w with calls := w.calls ++ [call] }

/-- A method of the session. -/
abbrev SessionM (ω : Type) := Throwing Failure (AccountWorld ω)

/-- A callback of the caller. -/
abbrev Callback (ω : Type) := Throwing Failure ω Unit

namespace AccountSession

variable (J : JsonLib) (E : AccountEnv)

/-! ## Calls -/

/-- A call to the backend client. -/
def call (request : AccountRequest) : SessionM ω request.Response := do
  let w ← get
  match E.respond w.calls request with
  | .ok response =>
    modify fun w => w.log (.request request none)
    pure response
  | .error failure =>
    modify fun w => w.log (.request request (some failure))
    throw failure

/-- `AccountCredentialStore::load` (AccountCredentialStore.cpp:34). -/
def storeLoad : SessionM ω (Option SavedSession) := do
  let w ← get
  if E.reachable w.calls then
    match w.record with
    | none =>
      modify fun w => w.log (.lookup .notFound)
      pure none
    | some text =>
      modify fun w => w.log (.lookup (.found text))
      match decodeSession J text with
      | .ok session => pure (some session)
      | .error failure => throw failure
  else
    modify fun w => w.log (.lookup .unavailable)
    throw { status := 0 }

/-- `AccountCredentialStore::save` (AccountCredentialStore.cpp:49). -/
def storeSave (session : SavedSession) : SessionM ω Unit := do
  let text := sessionText J session
  match decodeSession J text with
  | .error failure =>
    modify fun w => w.log (.save text .unreadable)
    throw failure
  | .ok _ =>
    let w ← get
    match E.storeFails w.calls with
    | none => modify fun w => { w with record := some text }.log (.save text .stored)
    | some left =>
      modify fun w => { w with record := left }.log (.save text .notStored)
      throw { status := 0 }

/-- `AccountCredentialStore::clear` (AccountCredentialStore.cpp:70). -/
def storeClear : SessionM ω Unit := do
  let w ← get
  match E.eraseFails w.calls with
  | none => modify fun w => { w with record := none }.log (.erase true)
  | some left =>
    modify fun w => { w with record := left }.log (.erase false)
    throw { status := 0 }

/-- A callback, run while the session waits. -/
def runCallback (callback : Callback ω) : SessionM ω Unit := do
  let w ← get
  let (result, outside) := callback.exec w.outside
  modify fun w => { w with outside }
  match result with
  | .ok () => pure ()
  | .error failure => throw failure

/-! ## The methods every other one goes through -/

/-- `current` (AccountSession.cpp:18). -/
def current : SessionM ω AccountSnapshot := do
  let w ← get
  pure ⟨w.generation, w.session.map fun session => session.tokens.user⟩

/-- `require_generation` (AccountSession.cpp:48). -/
def requireGeneration (generation : Nat) : SessionM ω Unit := do
  let w ← get
  if !w.restored || generation != w.generation then
    throw { status := 0, cancelled := true }

/-- The range of the clock (AccountSession.cpp:59, AccountSession.cpp:116). -/
def clockInRange (now : Int64) : Bool := 0 < now.toInt && now.toInt ≤ lastSignIn

/-- `saved` (AccountSession.cpp:56). -/
def saved (tokens : Tokens) : SessionM ω SavedSession := do
  let w ← get
  let now := E.clock w.calls
  if !clockInRange now then throw { status := 0 }
  pure ⟨tokens, now + tokens.expiresIn.toInt64⟩

/-- `discard` (AccountSession.cpp:96). -/
def discard : SessionM ω Unit := do
  modify fun w => { w with session := none, generation := w.generation + 1 }
  storeClear E

/-- `catch (const Failure &error) { if (error.status() == 401) discard(); throw; }`. -/
def discardRejected {α : Type} (body : SessionM ω α) : SessionM ω α :=
  tryCatch body fun failure => do
    if failure.status = 401 then discard E
    throw failure

/-- The session there is (AccountSession.cpp:111); where the source dereferences
`session_` without asking there is one. -/
def theSession : SessionM ω SavedSession := do
  let w ← get
  match w.session with
  | some session => pure session
  | none => throw { status := 401 }

/-- `authorized` (AccountSession.cpp:104). -/
def authorized (generation : Nat) : SessionM ω Bytes := do
  requireGeneration generation
  let w ← get
  if E.cancelled w.calls then throw { status := 0, cancelled := true }
  let session ← theSession
  let now := E.clock w.calls
  if !clockInRange now then throw { status := 0 }
  if session.expiresAt ≤ now + 60 then
    let refreshed ← discardRejected E (call E (.refresh session.tokens.refreshToken))
    if refreshed.user.id ≠ session.tokens.user.id then throw { status := 0 }
    let next ← saved E refreshed
    storeSave J E next
    modify fun w => { w with session := some next }
    pure next.tokens.accessToken
  else pure session.tokens.accessToken

/-- `read_profile` (AccountSession.cpp:150). -/
def readProfile (token : Bytes) : SessionM ω Profile := do
  let profile ← discardRejected E (call E (.profile token))
  let session ← theSession
  if profile.user.id ≠ session.tokens.user.id then throw { status := 0 }
  let next := { session with tokens.user := profile.user }
  storeSave J E next
  modify fun w => { w with session := some next }
  pure profile

/-- `reviewed_token` (AccountSession.cpp:184). -/
def reviewedToken (review : PreferencesReview) : SessionM ω Bytes := do
  requireGeneration review.generation
  let w ← get
  if w.userId ≠ some review.userId then throw { status := 0, cancelled := true }
  authorized J E review.generation

/-- The token first, then the request, whose rejection drops the session: the body
of `clipboard_operation` (AccountSession.cpp:251) and of every dictionary and
snapshot operation. -/
def withToken {α : Type} (generation : Nat) (operation : Bytes → SessionM ω α) :
    SessionM ω α := do
  let token ← authorized J E generation
  discardRejected E (operation token)

/-! ## The public methods -/

/-- `restore` (AccountSession.cpp:35). A failed lookup can be tried again. -/
def restore : SessionM ω AccountSnapshot := do
  let w ← get
  if !w.restored then
    let restored ← storeLoad J E
    modify fun w => { w with session := restored, restored := true, generation := w.generation + 1 }
  current

/-- `with_current_user` (AccountSession.cpp:27). -/
def withCurrentUser (generation : Nat) (userId : Bytes) (operation : Callback ω) :
    SessionM ω Unit := do
  requireGeneration generation
  let w ← get
  if w.userId ≠ some userId then throw { status := 0, cancelled := true }
  runCallback operation

/-- `login` (AccountSession.cpp:66). -/
def login (generation : Nat) (challenge credential : Bytes) : SessionM ω AccountSnapshot := do
  requireGeneration generation
  let tokens ← call E (.login challenge credential [])
  let next ← saved E tokens
  storeSave J E next
  modify fun w => { w with session := some next, generation := w.generation + 1 }
  current

/-- `begin_link` (AccountSession.cpp:77). -/
def beginLink (generation : Nat) (provider target : Bytes) : SessionM ω Challenge := do
  let token ← authorized J E generation
  call E (.challenge provider target token)

/-- `link` (AccountSession.cpp:83). -/
def link (generation : Nat) (challenge credential : Bytes) : SessionM ω AccountSnapshot := do
  let token ← authorized J E generation
  let tokens ← call E (.login challenge credential token)
  let next ← saved E tokens
  let session ← theSession
  if next.tokens.user.id ≠ session.tokens.user.id then throw { status := 0 }
  storeSave J E next
  modify fun w => { w with session := some next, generation := w.generation + 1 }
  current

/-- `access_token` (AccountSession.cpp:145). -/
def accessToken (generation : Nat) : SessionM ω Bytes := authorized J E generation

/-- `profile` (AccountSession.cpp:171). -/
def profile (generation : Nat) : SessionM ω Profile := do
  let token ← authorized J E generation
  readProfile J E token

/-- `rename` (AccountSession.cpp:176). -/
def rename (generation : Nat) (name : Bytes) : SessionM ω Profile := do
  let token ← authorized J E generation
  call E (.rename name token)
  readProfile J E token

/-- `review_preferences` (AccountSession.cpp:191). -/
def reviewPreferences (generation : Nat) : SessionM ω PreferencesReview := do
  let token ← authorized J E generation
  discardRejected E do
    let schema ← call E (.preferencesSchema token)
    let remote ← call E (.preferences token)
    -- `authorized` returned, so somebody is signed in
    let w ← get
    pure ⟨w.generation, w.userId.getD [], remote, schema⟩

/-- `upload_preferences` (AccountSession.cpp:209): every local setting is assigned
over the remote ones. -/
def uploadPreferences (review : PreferencesReview) (settings : PreferenceSettings) :
    SessionM ω Preferences := do
  let token ← reviewedToken J E review
  let replacement := { review.remote with settings := settings ∪ review.remote.settings }
  discardRejected E (call E (.putPreferences replacement review.schema token))

/-- `apply_preferences` (AccountSession.cpp:229). -/
def applyPreferences (review : PreferencesReview) (apply : Callback ω) : SessionM ω Unit := do
  let token ← reviewedToken J E review
  let current ← discardRejected E (call E (.preferences token))
  if current.revision ≠ review.remote.revision ∨ current.settings ≠ review.remote.settings then
    throw { status := 409 }
  let w ← get
  if E.cancelled w.calls then throw { status := 0, cancelled := true }
  runCallback apply

/-- `clipboard` (AccountSession.cpp:268) and its siblings. -/
def clipboard (generation : Nat) (query : Bytes) : SessionM ω ClipboardSnapshot :=
  withToken J E generation fun token => call E (.clipboard token query)

def setClipboardEnabled (generation : Nat) (enabled : Bool) : SessionM ω ClipboardSnapshot :=
  withToken J E generation fun token => do
    call E (.setClipboardEnabled enabled token)
    call E (.clipboard token [])

def addClipboard (generation : Nat) (text : Bytes) : SessionM ω ClipboardSnapshot :=
  withToken J E generation fun token => do
    let _ ← call E (.addClipboard text token)
    call E (.clipboard token [])

def deleteClipboard (generation : Nat) (id : Bytes) : SessionM ω ClipboardSnapshot :=
  withToken J E generation fun token => do
    call E (.deleteClipboard id token)
    call E (.clipboard token [])

/-- `dictionary` (AccountSession.cpp:298) and its siblings. -/
def dictionary (generation : Nat) (kind query : Bytes) (offset limit : Int32) :
    SessionM ω DictionaryPage :=
  withToken J E generation fun token => call E (.dictionary kind query offset limit token)

def dictionaryCatalog (generation : Nat) (kind query : Bytes) (offset limit : Int32)
    (options : DictionaryCatalogOptions) : SessionM ω DictionaryPage :=
  withToken J E generation fun token =>
    call E (.dictionaryCatalog kind query offset limit token options)

def manageDictionary (generation : Nat) (kind : Bytes) (revision : Int64)
    (previous : DictionaryEntry) (replacement : Option DictionaryEntry) :
    SessionM ω DictionaryChange :=
  withToken J E generation fun token =>
    call E (.manageDictionary kind revision previous replacement token)

def editDictionary (generation : Nat) (kind id : Bytes) (revision : Int64)
    (replacement : Option DictionaryEntry) : SessionM ω DictionaryChange :=
  withToken J E generation fun token =>
    call E (.editDictionary kind id revision replacement token)

def importDictionary (generation : Nat) (kind text format : Bytes) :
    SessionM ω DictionaryImportResult :=
  withToken J E generation fun token => call E (.importDictionary kind text format token)

def importHanDictionary (generation : Nat) (text : Bytes) (weight : Int64) :
    SessionM ω DictionaryImportResult :=
  withToken J E generation fun token => call E (.importHanDictionary text weight token)

def exportDictionary (generation : Nat) (kind format : Bytes) : SessionM ω Bytes :=
  withToken J E generation fun token => call E (.exportDictionary kind format token)

/-- `download_snapshot` (AccountSession.cpp:418) and `restore_snapshot`. The bytes
go through the caller's sink and source, which the session does not see. -/
def downloadSnapshot (generation : Nat) : SessionM ω Unit :=
  withToken J E generation fun token => call E (.downloadSnapshot token)

def restoreSnapshot (generation size : Nat) (revision : Int64) : SessionM ω Int64 :=
  withToken J E generation fun token => call E (.restoreSnapshot size revision token)

/-- `logout` (AccountSession.cpp:451). -/
def logout (generation : Nat) (all : Bool) : SessionM ω Unit := do
  let token ← authorized J E generation
  call E (.logout token all)
  discard E

/-- `delete_account` (AccountSession.cpp:458). -/
def deleteAccount (generation : Nat) : SessionM ω Unit := do
  let token ← authorized J E generation
  call E (.deleteAccount token)
  discard E

end AccountSession

end MsimeLinux
