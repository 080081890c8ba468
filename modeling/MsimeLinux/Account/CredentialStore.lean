import MsimeLinux.Lib.Except
import MsimeLinux.Snapshot.Json

/-!
# The record of a signed-in account (`AccountCredentialStore.cpp`)

A session is kept as one item of the secret store: a JSON text with both tokens,
their lifetime and the user. The decoder is the one the backend's answers go
through, with an envelope around it.

- `decode_serialize`: a text written for a session, if it can be read at all, is
  read as that session.
-/

namespace MsimeLinux

open Lib

/-! ## Sessions -/

/-- `User` (BackendAccountClient.h:15). -/
structure User where
  id : Bytes
  displayName : Bytes
  createdAt : Bytes
  deriving DecidableEq

/-- `Tokens` (BackendAccountClient.h:21). -/
structure Tokens where
  accessToken : Bytes
  refreshToken : Bytes
  expiresIn : Int32
  user : User
  deriving DecidableEq

/-- `SavedSession` (AccountCredentialStore.h:10). -/
structure SavedSession where
  tokens : Tokens
  expiresAt : Int64
  deriving DecidableEq

/-! ## Reading -/

/-- Objects and arrays are nested at most `depth` deep. -/
def Json.nestedWithin : Nat → Json → Bool
  | 0, .array _ | 0, .object _ => false
  | depth + 1, .array elements => elements.all fun e => Json.nestedWithin depth e
  | depth + 1, .object members => members.all fun m => Json.nestedWithin depth m.2
  | _, _ => true

/-- `boost::json::parse` with its default options: `max_depth` is 32. -/
def JsonLib.parse (J : JsonLib) (text : Bytes) : Option Json :=
  (J.tree text).filter (Json.nestedWithin 32)

/-- `if_contains` on a parsed object: of a key given twice the last value stays. -/
def JsonObject.lastOf (members : JsonObject) (key : Bytes) : Option Json :=
  members.reverse.lookup key

/-- `valid_token` (BackendAccountClient.cpp:15). -/
def validAccountToken (token : Bytes) : Bool :=
  token.length == 64 && token.all fun c => (48 ≤ c && c ≤ 57) || (97 ≤ c && c ≤ 102)

/-- `string` (BackendAccountClient.cpp:30), for a member that has to be there. -/
def accountString (members : JsonObject) (key : Bytes) (limit : Nat) : Except Failure Bytes :=
  match members.lastOf key with
  | some (.string text) =>
    if limit < text.length || text.contains 0 then .error { status := 0 } else .ok text
  | _ => .error { status := 0 }

/-- `lifetime` (BackendAccountClient.cpp:44). -/
def lifetime (members : JsonObject) : Except Failure Int32 :=
  match members.lastOf (ascii "expires_in") with
  | some (.int value) =>
    if value ≤ 0 ∨ 86400 < value then .error { status := 0 } else .ok (Int32.ofInt value)
  | _ => .error { status := 0 }

/-- `user` (BackendAccountClient.cpp:53). -/
def decodeUser (members : JsonObject) : Except Failure User :=
  match members.lastOf (ascii "user") with
  | some (.object source) => do
    let id ← accountString source (ascii "id") 128
    let displayName ← accountString source (ascii "display_name") 512
    let createdAt ← accountString source (ascii "created_at") 128
    if id = [] then throw { status := 0 }
    pure ⟨id, displayName, createdAt⟩
  | _ => .error { status := 0 }

/-- `tokens` (BackendAccountClient.cpp:68), of the object a text spells. -/
def decodeTokens (members : JsonObject) : Except Failure Tokens := do
  let accessToken ← accountString members (ascii "access_token") 64
  let refreshToken ← accountString members (ascii "refresh_token") 64
  let expiresIn ← lifetime members
  let user ← decodeUser members
  if !validAccountToken accessToken then throw { status := 0 }
  if !validAccountToken refreshToken then throw { status := 0 }
  let tokenType ← accountString members (ascii "token_type") 16
  if tokenType ≠ ascii "Bearer" then throw { status := 0 }
  pure ⟨accessToken, refreshToken, expiresIn, user⟩

/-- `maximum_bytes` (AccountCredentialStore.cpp:9). -/
def maximumRecordBytes : Nat := 4096

/-- The last second of the year 9999, and the last one a day's session may begin
in (AccountCredentialStore.cpp:26, AccountSession.cpp:58). -/
def lastExpiry : Int := 253402300799
def lastSignIn : Int := 253402214399

/-- `decode` (AccountCredentialStore.cpp:12), of the object a text spells. -/
def decodeRecord (members : JsonObject) : Except Failure SavedSession :=
  match members.lastOf (ascii "version"), members.lastOf (ascii "expires_at") with
  | some (.int version), some (.int expiry) => do
    if version ≠ 1 ∨ expiry ≤ 0 ∨ lastExpiry < expiry then throw { status := 0 }
    let tokens ← decodeTokens members
    pure ⟨tokens, Int64.ofInt expiry⟩
  | _, _ => .error { status := 0 }

/-- `decode` (AccountCredentialStore.cpp:12). -/
def decodeSession (J : JsonLib) (text : Bytes) : Except Failure SavedSession :=
  if text = [] ∨ maximumRecordBytes < text.length then .error { status := 0 }
  else
    match J.parse text with
    | some (.object members) => decodeRecord members
    | _ => .error { status := 0 }

/-! ## Writing -/

/-- The object `AccountCredentialStore::save` writes (AccountCredentialStore.cpp:50). -/
def sessionObject (session : SavedSession) : JsonObject :=
  [(ascii "version", .int 1), (ascii "expires_at", .int session.expiresAt.toInt),
    (ascii "token_type", .string (ascii "Bearer")),
    (ascii "access_token", .string session.tokens.accessToken),
    (ascii "refresh_token", .string session.tokens.refreshToken),
    (ascii "expires_in", .int session.tokens.expiresIn.toInt),
    (ascii "user", .object [(ascii "id", .string session.tokens.user.id),
      (ascii "display_name", .string session.tokens.user.displayName),
      (ascii "created_at", .string session.tokens.user.createdAt)])]

/-- The text of a record. -/
def sessionText (J : JsonLib) (session : SavedSession) : Bytes :=
  J.serialize (.object (sessionObject session))

/-! ## What is written is what is read -/

theorem sessionObject_plain (session : SavedSession) :
    (Json.object (sessionObject session)).Plain := by
  refine .object (by simp only [sessionObject, List.map]; decide) ?_
  intro m hm
  simp only [sessionObject, List.mem_cons, List.not_mem_nil, or_false] at hm
  rcases hm with rfl | rfl | rfl | rfl | rfl | rfl | rfl
  · exact .int (by decide) (by decide)
  · exact plain_int64 _
  · exact .string _
  · exact .string _
  · exact .string _
  · exact plain_int32 _
  · refine .object (by simp only [List.map]; decide) ?_
    intro m hm
    simp only [List.mem_cons, List.not_mem_nil, or_false] at hm
    rcases hm with rfl | rfl | rfl <;> exact .string _

/-- A string that is read is the one that is there. -/
theorem accountString_eq_ok {members : JsonObject} {key text text' : Bytes} {limit : Nat}
    (hlast : members.lastOf key = some (.string text))
    (h : accountString members key limit = .ok text') : text' = text := by
  unfold accountString at h
  rw [hlast] at h
  dsimp only at h
  split at h
  · cases h
  · exact (Except.ok.inj h).symm

theorem lifetime_eq_ok {members : JsonObject} {value value' : Int32}
    (hlast : members.lastOf (ascii "expires_in") = some (.int value.toInt))
    (h : lifetime members = .ok value') : value' = value := by
  unfold lifetime at h
  rw [hlast] at h
  dsimp only at h
  split at h
  · cases h
  · rw [← Except.ok.inj h, Int32.ofInt_toInt]

theorem decodeUser_eq_ok {members source : JsonObject} {user user' : User}
    (hlast : members.lastOf (ascii "user") = some (.object source))
    (hid : source.lastOf (ascii "id") = some (.string user.id))
    (hdisplayName : source.lastOf (ascii "display_name") = some (.string user.displayName))
    (hcreatedAt : source.lastOf (ascii "created_at") = some (.string user.createdAt))
    (h : decodeUser members = .ok user') : user' = user := by
  unfold decodeUser at h
  rw [hlast] at h
  simp only [call_eq_ok_iff, guard_eq_ok_iff, pure_eq_ok_iff] at h
  obtain ⟨_, h₁, _, h₂, _, h₃, _, rfl⟩ := h
  rw [accountString_eq_ok hid h₁, accountString_eq_ok hdisplayName h₂,
    accountString_eq_ok hcreatedAt h₃]

theorem decodeRecord_sessionObject {session session' : SavedSession}
    (h : decodeRecord (sessionObject session) = .ok session') : session' = session := by
  have hversion : (sessionObject session).lastOf (ascii "version") = some (.int 1) := rfl
  have hexpiry : (sessionObject session).lastOf (ascii "expires_at") =
      some (.int session.expiresAt.toInt) := rfl
  unfold decodeRecord at h
  rw [hversion, hexpiry] at h
  simp only [guard_eq_ok_iff, call_eq_ok_iff, pure_eq_ok_iff] at h
  obtain ⟨_, tokens, htokens, rfl⟩ := h
  simp only [decodeTokens, guard_eq_ok_iff, call_eq_ok_iff, pure_eq_ok_iff] at htokens
  obtain ⟨_, h₁, _, h₂, _, h₃, _, h₄, _, _, _, _, _, rfl⟩ := htokens
  obtain rfl : _ = session.tokens.accessToken := accountString_eq_ok rfl h₁
  obtain rfl : _ = session.tokens.refreshToken := accountString_eq_ok rfl h₂
  obtain rfl : _ = session.tokens.expiresIn := lifetime_eq_ok rfl h₃
  obtain rfl : _ = session.tokens.user := decodeUser_eq_ok rfl rfl rfl rfl h₄
  rw [Int64.ofInt_toInt]

/-- **What is written is what is read**, if it can be read: `save` tries that
before it stores a text. -/
theorem decode_serialize {J : JsonLib} (hJ : J.Lawful) {session session' : SavedSession}
    (h : decodeSession J (sessionText J session) = .ok session') : session' = session := by
  unfold decodeSession at h
  split at h
  · cases h
  · split at h
    · next members hparse =>
      obtain ⟨htree, _⟩ := Option.filter_eq_some_iff.mp hparse
      have hsame := hJ.roundTrip _ _ (sessionObject_plain session) htree
      obtain rfl : members = sessionObject session := Json.object.inj hsame
      exact decodeRecord_sessionObject h
    · cases h

end MsimeLinux
