import MsimeLinux.Account.Session

/-!
# What fits into a record

Tokens come in through `decodeTokens` and go out as a record, which is read again
before it is stored. The two agree on every bound but one: a record has at most 4096
bytes, and a text may take up to six bytes for one of its own.

- `issuedSession_storable`: which sessions are stored, and that those are read again.
- `longName_notStored`: a session the backend may issue that is not stored.
-/

namespace MsimeLinux

open Lib

/-! ## The compact spelling of a value -/

/-- A hexadecimal digit, as `boost::json::serialize` writes it. -/
def hexDigit (n : UInt8) : UInt8 := if n < 10 then 48 + n else 87 + n

/-- A byte of a string: quotes, backslashes and control characters are escaped. -/
def escapeByte (c : UInt8) : Bytes :=
  if c = 34 ∨ c = 92 then [92, c]
  else if c = 8 then [92, 98]
  else if c = 9 then [92, 116]
  else if c = 10 then [92, 110]
  else if c = 12 then [92, 102]
  else if c = 13 then [92, 114]
  else if c < 32 then [92, 117, 48, 48, hexDigit (c / 16), hexDigit (c % 16)]
  else [c]

/-- A string in quotes. -/
def quoted (text : Bytes) : Bytes := 34 :: text.flatMap escapeByte ++ [34]

/-! The spelling `boost::json::serialize` gives a value, without white space. Of a
double the tree keeps nothing; one digit stands for it. -/

mutual

def Json.compact : Json → Bytes
  | .null => ascii "null"
  | .bool value => if value then ascii "true" else ascii "false"
  | .int value => ascii (toString value)
  | .uint value => ascii (toString value)
  | .double => ascii "0"
  | .string value => quoted value
  | .array elements => 91 :: (Json.compactElements elements).drop 1 ++ [93]
  | .object members => 123 :: (Json.compactMembers members).drop 1 ++ [125]
termination_by structural value => value

/-- The elements, each with a comma in front of it. -/
def Json.compactElements : List Json → Bytes
  | [] => []
  | element :: elements => 44 :: element.compact ++ Json.compactElements elements
termination_by structural elements => elements

/-- The members, each with a comma in front of it. -/
def Json.compactMembers : List (Bytes × Json) → Bytes
  | [] => []
  | m :: members => 44 :: Json.compactMember m ++ Json.compactMembers members
termination_by structural members => members

def Json.compactMember : Bytes × Json → Bytes
  | (key, value) => quoted key ++ 58 :: value.compact
termination_by structural m => m

end

/-- `boost::json` writes a value compactly, and reads that as the value. -/
structure JsonLib.Spells (J : JsonLib) (value : Json) : Prop where
  writes : J.serialize value = value.compact
  reads : J.tree value.compact = some value

/-- No text spells a value in fewer bytes. -/
def JsonLib.Minimal (J : JsonLib) : Prop :=
  ∀ text value, J.tree text = some value → value.compact.length ≤ text.length

/-! ## Sizes -/

namespace JsonObject

/-- What the members take, with their commas. -/
def size : JsonObject → Nat
  | [] => 0
  | m :: members => 1 + (Json.compactMember m).length + size members

/-- The members of an object take one byte each for the comma or brace that follows. -/
theorem length_compactMembers (members : JsonObject) :
    (Json.compactMembers members).length = members.size := by
  induction members with
  | nil => rfl
  | cons m members ih =>
    rw [Json.compactMembers, List.length_append, List.length_cons, ih, size]
    omega

/-- And the object itself the brace that opens it. -/
theorem length_compact {members : JsonObject} (hne : members ≠ []) :
    (Json.object members).compact.length = members.size + 1 := by
  obtain ⟨m, members, rfl⟩ := List.exists_cons_of_ne_nil hne
  rw [Json.compact, List.length_append, List.length_cons, List.length_drop,
    length_compactMembers, List.length_singleton]
  have hpos : 1 ≤ size (m :: members) := by
    rw [size]
    omega
  omega

/-- A key that is given again later hides the first one. -/
theorem lastOf_cons (m : Bytes × Json) (members : JsonObject) (key : Bytes) :
    lastOf (m :: members) key = (members.lastOf key).or (if key = m.1 then some m.2 else none) := by
  unfold lastOf
  rw [List.reverse_cons, List.lookup_append, List.lookup_cons, List.lookup_nil]
  congr 1
  by_cases hkey : key = m.1
  · rw [if_pos hkey, beq_iff_eq.mpr hkey]
  · rw [if_neg hkey, beq_false_of_ne hkey]

theorem size_cons (m : Bytes × Json) (members : JsonObject) :
    size (m :: members) = 1 + (Json.compactMember m).length + members.size :=
  rfl

/-- Dropping members shortens an object. -/
theorem size_filter_le (p : Bytes × Json → Bool) (members : JsonObject) :
    size (members.filter p) ≤ members.size := by
  induction members with
  | nil => exact Nat.le_refl _
  | cons m members ih =>
    rw [List.filter_cons, size_cons]
    split
    · rw [size_cons]
      omega
    · omega

/-- A member, and the members of other keys. -/
theorem size_lastOf_le {members : JsonObject} {key : Bytes} {value : Json}
    (h : members.lastOf key = some value) :
    1 + (Json.compactMember (key, value)).length + size (members.filter (·.1 ≠ key)) ≤
      members.size := by
  induction members with
  | nil => cases h
  | cons m members ih =>
    rw [lastOf_cons] at h
    rw [List.filter_cons, size_cons]
    cases hlater : lastOf members key with
    | some later =>
      rw [hlater, Option.some_or] at h
      have hrest := ih (hlater.trans h)
      split
      · rw [size_cons]
        omega
      · omega
    | none =>
      rw [hlater, Option.none_or] at h
      split at h
      · next hkey =>
        subst hkey
        obtain rfl : m.2 = value := Option.some.inj h
        have hdropped : ¬ decide (m.1 ≠ m.1) = true := by simp
        have hrest := size_filter_le (fun m' => decide (m'.1 ≠ m.1)) members
        rw [if_neg hdropped]
        exact Nat.add_le_add_left hrest _
      · cases h

/-- The other keys keep their values. -/
theorem lastOf_filter {members : JsonObject} {key key' : Bytes} (hne : key' ≠ key) :
    lastOf (members.filter (·.1 ≠ key)) key' = members.lastOf key' := by
  induction members with
  | nil => rfl
  | cons m members ih =>
    rw [List.filter_cons, lastOf_cons]
    split
    · rw [lastOf_cons, ih]
    · next hkey =>
      have hother : ¬ key' = m.1 := by
        simp only [ne_eq, decide_not, Bool.not_eq_true', decide_eq_false_iff_not, not_not] at hkey
        exact fun hsame => hne (hsame.trans hkey)
      rw [ih, if_neg hother, Option.or_none]

/-- An object takes no less than the members read of it. -/
theorem size_le_of_lastOf {wanted members : JsonObject} (hdistinct : (wanted.map Prod.fst).Nodup)
    (h : ∀ m ∈ wanted, ∃ value, members.lastOf m.1 = some value ∧
      m.2.compact.length ≤ value.compact.length) : wanted.size ≤ members.size := by
  induction wanted generalizing members with
  | nil => exact Nat.zero_le _
  | cons m wanted ih =>
    obtain ⟨hkey, hdistinct⟩ := List.nodup_cons.mp hdistinct
    obtain ⟨value, hlast, hle⟩ := h m List.mem_cons_self
    have hrest : size wanted ≤ size (members.filter (·.1 ≠ m.1)) := by
      refine ih hdistinct fun m' hm' => ?_
      have hne : m'.1 ≠ m.1 := fun hsame => hkey (hsame ▸ List.mem_map_of_mem hm')
      rw [lastOf_filter hne]
      exact h m' (List.mem_cons_of_mem _ hm')
    have hsplit := size_lastOf_le hlast
    have hmember : (Json.compactMember m).length ≤ (Json.compactMember (m.1, value)).length := by
      rw [Json.compactMember, Json.compactMember, List.length_append, List.length_append,
        List.length_cons, List.length_cons]
      omega
    rw [size_cons]
    omega

end JsonObject

/-! ## What the decoder admits -/

/-- `string` takes a text within its limit that has no NUL in it. -/
theorem accountString_eq_ok_iff {members : JsonObject} {key text : Bytes} {limit : Nat} :
    accountString members key limit = .ok text ↔
      members.lastOf key = some (.string text) ∧ text.length ≤ limit ∧ 0 ∉ text := by
  unfold accountString
  split
  · next t hlast =>
    rw [hlast, Option.some_inj, Json.string.injEq]
    split
    · next hrefused =>
      refine iff_of_false (fun h => by cases h) ?_
      rintro ⟨rfl, hlength, hzero⟩
      simp only [Bool.or_eq_true, decide_eq_true_eq, List.contains_iff_mem] at hrefused
      exact hrefused.elim (fun h => absurd hlength (Nat.not_le.mpr h)) hzero
    · next hfits =>
      simp only [Bool.or_eq_true, decide_eq_true_eq, List.contains_iff_mem, not_or, not_lt]
        at hfits
      constructor
      · intro h
        obtain rfl := Except.ok.inj h
        exact ⟨rfl, hfits⟩
      · rintro ⟨rfl, -, -⟩
        rfl
  · next hother =>
    exact iff_of_false (fun h => by cases h) fun h => hother _ h.1

/-- A lifetime is a positive number of seconds, a day at most. -/
theorem lifetime_eq_ok_iff {members : JsonObject} {value : Int32} :
    lifetime members = .ok value ↔
      members.lastOf (ascii "expires_in") = some (.int value.toInt) ∧
        0 < value.toInt ∧ value.toInt ≤ 86400 := by
  unfold lifetime
  split
  · next n hlast =>
    rw [hlast, Option.some_inj, Json.int.injEq]
    split
    · next hrange =>
      refine iff_of_false (fun h => by cases h) ?_
      rintro ⟨rfl, hpos, hle⟩
      omega
    · next hrange =>
      have hint : (Int32.ofInt n).toInt = n :=
        Int32.toInt_ofInt_of_le (by omega) (by omega)
      constructor
      · intro h
        obtain rfl := Except.ok.inj h
        rw [hint]
        exact ⟨rfl, by omega, by omega⟩
      · rintro ⟨rfl, -, -⟩
        rw [Int32.ofInt_toInt]
  · next hother =>
    exact iff_of_false (fun h => by cases h) fun h => hother _ h.1

/-- Tokens within the bounds of the decoder. -/
structure TokensFit (tokens : Tokens) : Prop where
  accessToken : validAccountToken tokens.accessToken = true
  refreshToken : validAccountToken tokens.refreshToken = true
  expiresIn : 0 < tokens.expiresIn.toInt ∧ tokens.expiresIn.toInt ≤ 86400
  id : tokens.user.id ≠ [] ∧ tokens.user.id.length ≤ 128 ∧ 0 ∉ tokens.user.id
  displayName : tokens.user.displayName.length ≤ 512 ∧ 0 ∉ tokens.user.displayName
  createdAt : tokens.user.createdAt.length ≤ 128 ∧ 0 ∉ tokens.user.createdAt

/-- An object with the members of some tokens. -/
structure TokensMembers (members source : JsonObject) (tokens : Tokens) : Prop where
  tokenType : members.lastOf (ascii "token_type") = some (.string (ascii "Bearer"))
  accessToken : members.lastOf (ascii "access_token") = some (.string tokens.accessToken)
  refreshToken : members.lastOf (ascii "refresh_token") = some (.string tokens.refreshToken)
  expiresIn : members.lastOf (ascii "expires_in") = some (.int tokens.expiresIn.toInt)
  user : members.lastOf (ascii "user") = some (.object source)
  id : source.lastOf (ascii "id") = some (.string tokens.user.id)
  displayName : source.lastOf (ascii "display_name") = some (.string tokens.user.displayName)
  createdAt : source.lastOf (ascii "created_at") = some (.string tokens.user.createdAt)

/-- A valid token fits its limit. -/
theorem validAccountToken_fits {token : Bytes} (h : validAccountToken token = true) :
    token.length ≤ 64 ∧ 0 ∉ token := by
  simp only [validAccountToken, Bool.and_eq_true, beq_iff_eq, List.all_eq_true] at h
  refine ⟨h.1.le, fun hzero => ?_⟩
  exact absurd (h.2 0 hzero) (by decide)

/-- A user decodes exactly from the four members, each within its own limit. -/
theorem decodeUser_eq_ok_iff {members : JsonObject} {user : User} :
    decodeUser members = .ok user ↔ ∃ source : JsonObject,
      members.lastOf (ascii "user") = some (.object source) ∧
      (source.lastOf (ascii "id") = some (.string user.id) ∧ user.id.length ≤ 128 ∧
        0 ∉ user.id) ∧
      (source.lastOf (ascii "display_name") = some (.string user.displayName) ∧
        user.displayName.length ≤ 512 ∧ 0 ∉ user.displayName) ∧
      (source.lastOf (ascii "created_at") = some (.string user.createdAt) ∧
        user.createdAt.length ≤ 128 ∧ 0 ∉ user.createdAt) ∧ user.id ≠ [] := by
  unfold decodeUser
  split
  · next source hlast =>
    simp only [call_eq_ok_iff, guard_eq_ok_iff, pure_eq_ok_iff, accountString_eq_ok_iff, hlast,
      Option.some_inj, Json.object.injEq]
    constructor
    · rintro ⟨id, hid, displayName, hdisplayName, createdAt, hcreatedAt, hne, rfl⟩
      exact ⟨source, rfl, hid, hdisplayName, hcreatedAt, hne⟩
    · rintro ⟨_, rfl, hid, hdisplayName, hcreatedAt, hne⟩
      exact ⟨_, hid, _, hdisplayName, _, hcreatedAt, hne, rfl⟩
  · next hother =>
    exact iff_of_false (fun h => by cases h) fun ⟨source, h, _⟩ => hother source h

/-- **What the decoder admits.** -/
theorem decodeTokens_eq_ok_iff {members : JsonObject} {tokens : Tokens} :
    decodeTokens members = .ok tokens ↔
      TokensFit tokens ∧ ∃ source, TokensMembers members source tokens := by
  simp only [decodeTokens, call_eq_ok_iff, guard_eq_ok_iff, pure_eq_ok_iff,
    accountString_eq_ok_iff, lifetime_eq_ok_iff, decodeUser_eq_ok_iff, Bool.not_eq_true',
    Bool.not_eq_false]
  constructor
  · rintro ⟨accessToken, haccess, refreshToken, hrefresh, expiresIn, hexpires, user,
      ⟨source, huser, hid, hdisplayName, hcreatedAt, hne⟩, hvalidAccess, hvalidRefresh, type,
      htype, hbearer, rfl⟩
    rw [ne_eq, not_not] at hbearer
    subst hbearer
    exact ⟨⟨hvalidAccess, hvalidRefresh, hexpires.2, ⟨hne, hid.2⟩, hdisplayName.2, hcreatedAt.2⟩,
      source, htype.1, haccess.1, hrefresh.1, hexpires.1, huser, hid.1, hdisplayName.1,
      hcreatedAt.1⟩
  · rintro ⟨hfit, source, hmembers⟩
    have hbearer : (ascii "Bearer").length ≤ 16 ∧ 0 ∉ ascii "Bearer" := by decide
    exact ⟨_, ⟨hmembers.accessToken, validAccountToken_fits hfit.accessToken⟩,
      _, ⟨hmembers.refreshToken, validAccountToken_fits hfit.refreshToken⟩,
      _, ⟨hmembers.expiresIn, hfit.expiresIn⟩,
      _, ⟨source, hmembers.user, ⟨hmembers.id, hfit.id.2⟩, ⟨hmembers.displayName, hfit.displayName⟩,
        ⟨hmembers.createdAt, hfit.createdAt⟩, hfit.id.1⟩,
      hfit.accessToken, hfit.refreshToken, _, ⟨hmembers.tokenType, hbearer⟩, not_not.mpr rfl, rfl⟩

/-! ## Records -/

theorem sessionObject_members (session : SavedSession) :
    ∃ source, TokensMembers (sessionObject session) source session.tokens :=
  ⟨_, rfl, rfl, rfl, rfl, rfl, rfl, rfl, rfl⟩

/-- A record of tokens within the bounds is read again, whatever its size. -/
theorem decodeRecord_sessionObject_iff {session : SavedSession} :
    decodeRecord (sessionObject session) = .ok session ↔ TokensFit session.tokens ∧
      0 < session.expiresAt.toInt ∧ session.expiresAt.toInt ≤ lastExpiry := by
  have hversion : (sessionObject session).lastOf (ascii "version") = some (.int 1) := rfl
  have hexpiry : (sessionObject session).lastOf (ascii "expires_at") =
      some (.int session.expiresAt.toInt) := rfl
  unfold decodeRecord
  rw [hversion, hexpiry]
  simp only [guard_eq_ok_iff, call_eq_ok_iff, pure_eq_ok_iff, decodeTokens_eq_ok_iff]
  constructor
  · rintro ⟨hrange, tokens, ⟨hfit, -⟩, hsame⟩
    obtain rfl : tokens = session.tokens := congrArg SavedSession.tokens hsame
    refine ⟨hfit, ?_⟩
    simp only [not_or, not_le, not_lt] at hrange
    exact hrange.2
  · rintro ⟨hfit, hpos, hle⟩
    refine ⟨?_, session.tokens, ⟨hfit, sessionObject_members session⟩, ?_⟩
    · simp only [ne_eq, not_true_eq_false, false_or, not_or, not_le, not_lt]
      exact ⟨hpos, hle⟩
    · rw [Int64.ofInt_toInt]

/-- The bytes of a record. -/
def recordSize (session : SavedSession) : Nat :=
  (Json.object (sessionObject session)).compact.length

/-- The record is as long as its size says. -/
theorem length_sessionText {J : JsonLib} {session : SavedSession}
    (hspells : J.Spells (.object (sessionObject session))) :
    (sessionText J session).length = recordSize session := by
  unfold sessionText
  rw [hspells.writes, recordSize]

/-- A record over the limit is refused unread. -/
theorem decodeSession_long {J : JsonLib} {session : SavedSession}
    (hspells : J.Spells (.object (sessionObject session)))
    (hlong : maximumRecordBytes < recordSize session) :
    decodeSession J (sessionText J session) = .error { status := 0 } := by
  unfold decodeSession
  rw [length_sessionText hspells, if_pos (.inr hlong)]

/-- **Which records are read again.** -/
theorem decodeSession_sessionText_iff {J : JsonLib} {session : SavedSession}
    (hspells : J.Spells (.object (sessionObject session))) :
    decodeSession J (sessionText J session) = .ok session ↔
      recordSize session ≤ maximumRecordBytes ∧ TokensFit session.tokens ∧
        0 < session.expiresAt.toInt ∧ session.expiresAt.toInt ≤ lastExpiry := by
  have hparse : J.parse (sessionText J session) = some (.object (sessionObject session)) := by
    unfold JsonLib.parse sessionText
    rw [hspells.writes, hspells.reads]
    rfl
  have hne : sessionText J session ≠ [] := by
    unfold sessionText
    rw [hspells.writes, Json.compact]
    exact List.append_ne_nil_of_left_ne_nil (List.cons_ne_nil _ _) _
  unfold decodeSession
  rw [hparse, length_sessionText hspells, ← decodeRecord_sessionObject_iff]
  split
  · next hlong =>
    have hover := hlong.resolve_left hne
    exact iff_of_false (fun h => by cases h) fun h => absurd h.1 (Nat.not_le.mpr hover)
  · next hfits =>
    rw [not_or, not_lt] at hfits
    exact (and_iff_right hfits.2).symm

/-- A record takes no fewer bytes than the one its session is written as. -/
theorem recordSize_le {J : JsonLib} (hJ : J.Minimal) {text : Bytes} {session : SavedSession}
    (h : decodeSession J text = .ok session) : recordSize session ≤ text.length ∧
      text.length ≤ maximumRecordBytes ∧ TokensFit session.tokens ∧
      0 < session.expiresAt.toInt ∧ session.expiresAt.toInt ≤ lastExpiry := by
  unfold decodeSession at h
  split at h
  · cases h
  · next hfits =>
    rw [not_or, not_lt] at hfits
    split at h
    · next members hparse =>
      unfold decodeRecord at h
      split at h
      · next version expiry hversion hexpiry =>
        simp only [guard_eq_ok_iff, call_eq_ok_iff, pure_eq_ok_iff, decodeTokens_eq_ok_iff] at h
        obtain ⟨hrange, tokens, ⟨hfit, source, hmembers⟩, rfl⟩ := h
        simp only [ne_eq, not_or, not_not, not_le, not_lt] at hrange
        obtain ⟨rfl, hpos, hle⟩ := hrange
        -- the version and the expiry are in range
        have hint : (Int64.ofInt expiry).toInt = expiry :=
          Int64.toInt_ofInt_of_le (by omega) (by unfold lastExpiry at hle; omega)
        -- neither object is empty, so each has its commas
        have hsource : source ≠ [] := by
          rintro rfl
          exact absurd hmembers.id (by simp [JsonObject.lastOf])
        have hne : members ≠ [] := by
          rintro rfl
          exact absurd hmembers.user (by simp [JsonObject.lastOf])
        have huser : (Json.object [(ascii "id", .string tokens.user.id),
            (ascii "display_name", .string tokens.user.displayName),
            (ascii "created_at", .string tokens.user.createdAt)]).compact.length ≤
            (Json.object source).compact.length := by
          rw [JsonObject.length_compact hsource, JsonObject.length_compact (List.cons_ne_nil _ _)]
          have hdistinct : [ascii "id", ascii "display_name", ascii "created_at"].Nodup := by decide
          refine Nat.succ_le_succ (JsonObject.size_le_of_lastOf hdistinct ?_)
          simp only [List.forall_mem_cons, List.not_mem_nil, false_imp_iff, implies_true, and_true]
          exact ⟨⟨_, hmembers.id, le_rfl⟩, ⟨_, hmembers.displayName, le_rfl⟩,
            ⟨_, hmembers.createdAt, le_rfl⟩⟩
        have hrecord : recordSize ⟨tokens, Int64.ofInt expiry⟩ ≤
            (Json.object members).compact.length := by
          rw [recordSize, JsonObject.length_compact hne, sessionObject,
            JsonObject.length_compact (List.cons_ne_nil _ _)]
          have hdistinct : ((sessionObject ⟨tokens, Int64.ofInt expiry⟩).map Prod.fst).Nodup := by
            simp only [sessionObject, List.map]
            decide
          refine Nat.succ_le_succ (JsonObject.size_le_of_lastOf hdistinct ?_)
          simp only [List.forall_mem_cons, List.not_mem_nil, false_imp_iff, implies_true, and_true]
          exact ⟨⟨_, hversion, le_rfl⟩, ⟨_, hexpiry, by rw [hint]⟩, ⟨_, hmembers.tokenType, le_rfl⟩,
            ⟨_, hmembers.accessToken, le_rfl⟩, ⟨_, hmembers.refreshToken, le_rfl⟩,
            ⟨_, hmembers.expiresIn, le_rfl⟩, ⟨_, hmembers.user, huser⟩⟩
        have htree : J.tree text = some (.object members) := (Option.filter_eq_some_iff.mp hparse).1
        rw [hint]
        exact ⟨hrecord.trans (hJ _ _ htree), hfits.2, hfit, hpos, hle⟩
      · cases h
    · cases h

/-! ## Saving and loading -/

section

variable {ω : Type} {J : JsonLib} {E : AccountEnv}

/-- The secret service answers. -/
structure AccountEnv.Working (E : AccountEnv) : Prop where
  stores : ∀ calls, E.storeFails calls = none
  reachable : ∀ calls, E.reachable calls = true

open AccountSession

/-- A session whose record reads back is saved, and nothing else changes. -/
theorem storeSave_stored (hE : E.Working) {session read : SavedSession} (w : AccountWorld ω)
    (h : decodeSession J (sessionText J session) = .ok read) :
    Outcome (storeSave J E session) w fun result w' => result = .ok () ∧
      w' = { w with record := some (sessionText J session) }.log
        (.save (sessionText J session) .stored) := by
  unfold storeSave
  dsimp only
  rw [h]
  dsimp only
  rw [Outcome.get_bind_iff, hE.stores]
  exact Outcome.modify_iff.mpr ⟨rfl, rfl⟩

/-- A record that cannot be read again is not stored. -/
theorem storeSave_refused {session : SavedSession} (w : AccountWorld ω) {failure : Failure}
    (h : decodeSession J (sessionText J session) = .error failure) :
    Outcome (storeSave J E session) w fun result w' => result = .error failure ∧
      w' = w.log (.save (sessionText J session) .unreadable) := by
  unfold storeSave
  dsimp only
  rw [h]
  exact Outcome.modify_bind_iff.mpr (Outcome.throw_iff.mpr ⟨rfl, rfl⟩)

/-- A record that decodes is loaded. -/
theorem storeLoad_found (hE : E.Working) {text : Bytes} {session : SavedSession}
    (w : AccountWorld ω) (hrecord : w.record = some text)
    (h : decodeSession J text = .ok session) :
    Outcome (storeLoad J E) w fun result _ => result = .ok (some session) := by
  unfold storeLoad
  rw [Outcome.get_bind_iff, hE.reachable, if_pos rfl, hrecord]
  dsimp only
  rw [Outcome.modify_bind_iff, h]
  exact Outcome.pure_iff.mpr rfl

/-- Where the clock can be added to, the session keeps its expiry. -/
theorem saved_inRange {tokens : Tokens} (w : AccountWorld ω)
    (hclock : clockInRange (E.clock w.calls) = true) :
    Outcome (saved E tokens) w fun result w' =>
      result = .ok ⟨tokens, E.clock w.calls + tokens.expiresIn.toInt64⟩ ∧ w' = w := by
  unfold saved
  rw [Outcome.get_bind_iff]
  dsimp only
  rw [Outcome.guard_iff]
  exact ⟨fun h => absurd hclock (by simpa using h), fun _ => ⟨rfl, rfl⟩⟩

/-- A session of a day, begun in the range of the clock, ends in the range of a record. -/
theorem expiry_inRange {now : Int64} {expiresIn : Int32} (hclock : clockInRange now = true)
    (hpos : 0 < expiresIn.toInt) (hle : expiresIn.toInt ≤ 86400) :
    0 < (now + expiresIn.toInt64).toInt ∧ (now + expiresIn.toInt64).toInt ≤ lastExpiry := by
  simp only [clockInRange, Bool.and_eq_true, decide_eq_true_eq] at hclock
  have hlast : lastSignIn = 253402214399 := rfl
  have hlimit : lastExpiry = 253402300799 := rfl
  have hsum : (now + expiresIn.toInt64).toInt = now.toInt + expiresIn.toInt := by
    rw [Int64.toInt_add, Int32.toInt_toInt64]
    exact Int.bmod_eq_of_le (by omega) (by omega)
  rw [hsum]
  omega

/-- **Which sessions are stored.** Tokens the decoder admits, at a time in the range of
the clock, make a session; it is stored and read again if its record has at most 4096
bytes, and refused with nothing stored if it has more. A record that is read is one that
would be stored. -/
theorem issuedSession_storable (hJ : J.Minimal) (hE : E.Working) (w : AccountWorld ω)
    {members : JsonObject} {tokens : Tokens} (hissued : decodeTokens members = .ok tokens)
    (hclock : clockInRange (E.clock w.calls) = true)
    (hspells : J.Spells (.object (sessionObject
      ⟨tokens, E.clock w.calls + tokens.expiresIn.toInt64⟩))) :
    let session : SavedSession := ⟨tokens, E.clock w.calls + tokens.expiresIn.toInt64⟩
    Outcome (saved E tokens) w (fun result w' => result = .ok session ∧ w' = w) ∧
      (recordSize session ≤ maximumRecordBytes →
        Outcome (storeSave J E session) w fun result w' => result = .ok () ∧
          w'.record = some (sessionText J session) ∧
          ∀ later : AccountWorld ω, later.record = w'.record →
            Outcome (storeLoad J E) later fun result _ => result = .ok (some session)) ∧
      (maximumRecordBytes < recordSize session →
        Outcome (storeSave J E session) w fun result w' => result = .error { status := 0 } ∧
          w' = w.log (.save (sessionText J session) .unreadable)) ∧
      ∀ text read, decodeSession J text = .ok read →
        J.Spells (.object (sessionObject read)) →
        Outcome (storeSave J E read) w fun result _ => result = .ok () := by
  intro session
  obtain ⟨hfit, -⟩ := decodeTokens_eq_ok_iff.mp hissued
  have hexpiry := expiry_inRange hclock hfit.expiresIn.1 hfit.expiresIn.2
  -- what is stored is what would be read again: the size is all that may fail
  have hread : decodeSession J (sessionText J session) = .ok session ↔ _ :=
    decodeSession_sessionText_iff hspells
  refine ⟨saved_inRange w hclock, fun hsize => ?_, fun hsize => ?_, fun text read h hreads => ?_⟩
  · have hok := hread.mpr ⟨hsize, hfit, hexpiry⟩
    refine (storeSave_stored hE w hok).mono ?_
    rintro result w' ⟨hresult, rfl⟩
    exact ⟨hresult, rfl, fun later hlater => storeLoad_found hE later hlater hok⟩
  · exact storeSave_refused w (decodeSession_long hspells hsize)
  · obtain ⟨hsize, hbound, hfits⟩ := recordSize_le hJ h
    have hok := (decodeSession_sessionText_iff hreads).mpr ⟨hsize.trans hbound, hfits⟩
    exact (storeSave_stored hE w hok).mono fun _ _ hsaved => hsaved.1

end

/-! ## Two sessions -/

open AccountSession

/-- The tokens of a user with a given name. -/
def sampleTokens (id displayName createdAt : Bytes) : Tokens :=
  ⟨List.replicate 64 97, List.replicate 64 98, 3600, ⟨id, displayName, createdAt⟩⟩

/-- What the backend sends for them. -/
def sampleAnswer (tokens : Tokens) : JsonObject :=
  [(ascii "token_type", .string (ascii "Bearer")),
    (ascii "access_token", .string tokens.accessToken),
    (ascii "refresh_token", .string tokens.refreshToken),
    (ascii "expires_in", .int tokens.expiresIn.toInt),
    (ascii "user", .object [(ascii "id", .string tokens.user.id),
      (ascii "display_name", .string tokens.user.displayName),
      (ascii "created_at", .string tokens.user.createdAt)])]

/-- A library that reads one record. -/
def oneRecord (session : SavedSession) : JsonLib where
  tree text :=
    if text = (Json.object (sessionObject session)).compact then
      some (.object (sessionObject session))
    else none
  serialize := Json.compact

/-- The library of the example prints what it reads, -/
theorem oneRecord_spells (session : SavedSession) :
    (oneRecord session).Spells (.object (sessionObject session)) :=
  ⟨rfl, if_pos rfl⟩

/-- as short as it can. -/
theorem oneRecord_minimal (session : SavedSession) : (oneRecord session).Minimal := by
  intro text value h
  simp only [oneRecord] at h
  split at h
  · next htext =>
    rw [htext, Option.some.inj h]
  · cases h

/-- A backend that answers nothing, a secret service that works, and the first second
of the clock. -/
def quietAccount : AccountEnv where
  respond _ _ := .error { status := 0 }
  reachable _ := true
  storeFails _ := none
  eraseFails _ := none
  clock _ := 1
  cancelled _ := false

/-- The session they make. -/
def sampleSession (tokens : Tokens) : SavedSession :=
  ⟨tokens, quietAccount.clock [] + tokens.expiresIn.toInt64⟩

theorem quietAccount_working : quietAccount.Working :=
  ⟨fun _ => rfl, fun _ => rfl⟩

theorem quietAccount_clock : clockInRange (quietAccount.clock []) = true := by decide

/-- The answer of the example decodes to its own tokens. -/
theorem sampleAnswer_decodes {id displayName createdAt : Bytes}
    (hid : id ≠ [] ∧ id.length ≤ 128 ∧ 0 ∉ id)
    (hdisplayName : displayName.length ≤ 512 ∧ 0 ∉ displayName)
    (hcreatedAt : createdAt.length ≤ 128 ∧ 0 ∉ createdAt) :
    decodeTokens (sampleAnswer (sampleTokens id displayName createdAt)) =
      .ok (sampleTokens id displayName createdAt) := by
  have haccess : validAccountToken (List.replicate 64 97) = true := by decide
  have hrefresh : validAccountToken (List.replicate 64 98) = true := by decide
  have hexpires : 0 < (3600 : Int32).toInt ∧ (3600 : Int32).toInt ≤ 86400 := by decide
  exact decodeTokens_eq_ok_iff.mpr
    ⟨⟨haccess, hrefresh, hexpires, hid, hdisplayName, hcreatedAt⟩,
      _, rfl, rfl, rfl, rfl, rfl, rfl, rfl, rfl⟩

/-- A user with a short name. -/
theorem issuedSession_storable_ada :
    let session := sampleSession (sampleTokens (ascii "7") (ascii "Ada") [])
    let w : AccountWorld Unit := { record := none, outside := () }
    Outcome (storeSave (oneRecord session) quietAccount session) w fun result w' =>
      result = .ok () ∧ w'.record = some (sessionText (oneRecord session) session) ∧
        ∀ later : AccountWorld Unit, later.record = w'.record →
          Outcome (storeLoad (oneRecord session) quietAccount) later
            fun result _ => result = .ok (some session) := by
  intro session w
  have hissued : decodeTokens (sampleAnswer session.tokens) = .ok session.tokens :=
    sampleAnswer_decodes (by decide) (by decide) (by decide)
  have hsize : recordSize session ≤ maximumRecordBytes := by decide +kernel
  exact (issuedSession_storable (oneRecord_minimal session) quietAccount_working w hissued
    quietAccount_clock (oneRecord_spells session)).2.1 hsize

/-- A user whose texts are as long as the decoder admits, all of control characters. -/
theorem longName_notStored :
    let tokens := sampleTokens (List.replicate 128 1) (List.replicate 512 1) (List.replicate 128 1)
    let session := sampleSession tokens
    let w : AccountWorld Unit := { record := none, outside := () }
    decodeTokens (sampleAnswer tokens) = .ok tokens ∧
      Outcome (saved quietAccount tokens) w (fun result w' => result = .ok session ∧ w' = w) ∧
      (oneRecord session).Spells (.object (sessionObject session)) ∧
      Outcome (storeSave (oneRecord session) quietAccount session) w
        fun result w' => result = .error { status := 0 } ∧ w'.record = none := by
  intro tokens session w
  have hmem : ∀ {n : Nat}, 0 ∉ List.replicate n (1 : UInt8) :=
    fun h => absurd (List.eq_of_mem_replicate h) (by decide)
  have hissued : decodeTokens (sampleAnswer tokens) = .ok tokens := by
    refine sampleAnswer_decodes ⟨?_, ?_, hmem⟩ ⟨?_, hmem⟩ ⟨?_, hmem⟩
    · rw [Ne, List.replicate_eq_nil_iff]
      decide
    · exact List.length_replicate.le
    · exact List.length_replicate.le
    · exact List.length_replicate.le
  have hlong : maximumRecordBytes < recordSize session := by decide +kernel
  have hspells := oneRecord_spells session
  refine ⟨hissued, saved_inRange w quietAccount_clock, hspells, ?_⟩
  refine (storeSave_refused w (decodeSession_long hspells hlong)).mono ?_
  rintro result w' ⟨hresult, rfl⟩
  exact ⟨hresult, rfl⟩

end MsimeLinux
