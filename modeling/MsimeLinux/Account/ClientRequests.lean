import MsimeLinux.Account.Client
import MsimeLinux.Settings.InputSettings

/-!
# What the account client sends

The URL, the headers and the body of a request are put together from texts of the user and of
the server. Whatever these are, and whatever has been answered before, a request goes to the
one server there is, and says there what the operation was asked for.

- `perform_spec`: the ways an operation can go.
- `Confined`: what holds of the request of an operation; `operation_confines`.
- `client_confined`: the requests of any sequence of operations.
-/

namespace MsimeLinux

open Lib

namespace BackendAccountClient

/-! ## The ways an operation can go -/

section

variable {α : Type} (E : ClientEnv) (operation : Except Failure (ApiCall α)) (s : ClientState)

/-- What `perform` comes to: it refuses, or is cancelled before or after the one request, or
judges the answer. -/
inductive Performed : Except Failure α → ClientState → Prop
  | refused (failure : Failure) : operation = .error failure → Performed (.error failure) s
  | unsent (call : ApiCall α) : operation = .ok call → E.cancelled s.checks = true →
      Performed (.error cancelledFailure) { s with checks := s.checks + 1 }
  | discarded (call : ApiCall α) : operation = .ok call → E.cancelled s.checks = false →
      E.cancelled (s.checks + 1) = true →
      Performed (.error cancelledFailure) ⟨s.sent ++ [call.request], s.checks + 2⟩
  | judged (call : ApiCall α) : operation = .ok call → E.cancelled s.checks = false →
      E.cancelled (s.checks + 1) = false →
      Performed (call.judge (E.perform s.sent call.request))
        ⟨s.sent ++ [call.request], s.checks + 2⟩

/-- A check is counted, and throws if the caller has cancelled. -/
theorem checkCancelled_spec : Outcome (checkCancelled E) s fun result s' =>
    s' = { s with checks := s.checks + 1 } ∧
      result = if E.cancelled s.checks then .error cancelledFailure else .ok () := by
  unfold checkCancelled
  rw [Outcome.get_bind_iff, Outcome.modify_bind_iff, Outcome.ite_iff]
  refine ⟨fun h => ?_, fun h => ?_⟩
  · exact Outcome.throw_iff.mpr ⟨rfl, (if_pos h).symm⟩
  · exact Outcome.pure_iff.mpr ⟨rfl, (if_neg h).symm⟩

/-- **What an operation does**: nothing, or one request between two checks. -/
theorem perform_spec : Outcome (perform E operation) s (Performed E operation s) := by
  unfold perform
  cases hoperation : operation with
  | error failure => exact Outcome.throw_iff.mpr (.refused failure rfl)
  | ok call =>
    show Outcome (call.send E) s _
    unfold ApiCall.send
    -- the check before the request
    refine Outcome.call (checkCancelled_spec E s) ?_ ?_
    · rintro ⟨⟩ s₁ ⟨rfl, hbefore⟩
      have hgo : E.cancelled s.checks = false := by
        cases hcancelled : E.cancelled s.checks with
        | false => rfl
        | true =>
          rw [hcancelled, if_pos rfl] at hbefore
          cases hbefore
      rw [Outcome.get_bind_iff]
      rw [Outcome.modify_bind_iff]
      -- and the one after it
      refine Outcome.call (checkCancelled_spec E _) ?_ ?_
      · rintro ⟨⟩ s₂ ⟨rfl, hafter⟩
        have hkept : E.cancelled (s.checks + 1) = false := by
          cases hcancelled : E.cancelled (s.checks + 1) with
          | false => rfl
          | true =>
            rw [hcancelled, if_pos rfl] at hafter
            cases hafter
        have hjudged := Performed.judged (E := E) (s := s) call hoperation hgo hkept
        cases hjudge : call.judge (E.perform s.sent call.request) with
        | ok value =>
          rw [hjudge] at hjudged
          exact Outcome.pure_iff.mpr (hoperation ▸ hjudged)
        | error failure =>
          rw [hjudge] at hjudged
          exact Outcome.throw_iff.mpr (hoperation ▸ hjudged)
      · rintro failure s₂ ⟨rfl, hafter⟩
        split at hafter
        next hcancelled =>
          cases hafter
          exact .discarded call rfl hgo hcancelled
        · cases hafter
    · rintro failure s₁ ⟨rfl, hbefore⟩
      split at hbefore
      next hcancelled =>
        cases hbefore
        exact .unsent call rfl hcancelled
      · cases hbefore

end

/-! ## What a request says -/

/-- A method, the segments of a path and the fields of a query. -/
structure Target where
  method : CurlHttpTransport.HttpMethod
  segments : List Bytes
  fields : List (Bytes × Bytes) := []

/-- What stands behind the origin. -/
def Target.path (target : Target) : Bytes := targetText target.segments target.fields

/-- Lower-case letters, digits and the hyphen. -/
def isSegmentByte (c : UInt8) : Bool := (97 ≤ c && c ≤ 122) || (48 ≤ c && c ≤ 57) || c = 45

/-- A segment that is not empty and cannot go up. -/
def isSegment (segment : Bytes) : Bool := !segment.isEmpty && segment.all isSegmentByte

/-- The names of the fields. -/
def fieldNames : List Bytes :=
  [ascii "q", ascii "offset", ascii "limit", ascii "scheme", ascii "profile", ascii "format",
    ascii "revision"]

/-- Every segment is one, and the names of the fields are known ones. -/
structure Target.Plain (target : Target) : Prop where
  segments : ∀ segment ∈ target.segments, isSegment segment = true
  names : ∀ field ∈ target.fields, field.1 ∈ fieldNames

/-- `"Authorization: Bearer " + token`. -/
def bearer (token : Bytes) : Bytes := ascii "Authorization: Bearer " ++ token

/-- The other headers. -/
def plainHeaders : List Bytes :=
  [ascii "Accept: application/json", ascii "Cache-Control: no-store",
    ascii "Content-Type: application/json", ascii "Accept: application/x-ndjson",
    ascii "Content-Type: application/x-ndjson"]

/-- An `Authorization` header: names of headers are told apart without their case. -/
def isAuthorization (header : Bytes) : Bool :=
  (header.takeWhile (· ≠ 58)).map (fun c => if 65 ≤ c ∧ c ≤ 90 then c + 32 else c) ==
    ascii "authorization"

/-- The header of a token is an `Authorization`. -/
theorem isAuthorization_bearer (token : Bytes) : isAuthorization (bearer token) = true := by
  have hname : ascii "Authorization: Bearer " =
      ascii "Authorization" ++ 58 :: ascii " Bearer " := by decide +kernel
  have hplain : ∀ c ∈ ascii "Authorization", decide (c ≠ 58) = true :=
    List.all_eq_true.mp (by decide +kernel)
  unfold isAuthorization bearer
  rw [hname, List.append_assoc, List.takeWhile_append_of_pos hplain, List.cons_append,
    List.takeWhile_cons_of_neg (by simp), List.append_nil]
  decide +kernel

/-- None of the other headers is one. -/
theorem filter_plainHeaders {headers : List Bytes} (h : ∀ header ∈ headers, header ∈ plainHeaders) :
    headers.filter isAuthorization = [] := by
  have hall : (plainHeaders.any isAuthorization) = false := by decide +kernel
  rw [List.filter_eq_nil_iff]
  exact fun header hheader => List.any_eq_false.mp hall header (h header hheader)

/-- A request that says what `target` says, with a token or without one. -/
structure Confined (target : Target) (token : Bytes) (limit : Nat) (request : ApiRequest) :
    Prop where
  method : request.method = target.method
  url : request.url = origin ++ target.path
  plain : target.Plain
  valid : token = [] ∨ validAccountToken token = true
  headers : ∀ header ∈ request.headers,
    header ∈ plainHeaders ∨ (token ≠ [] ∧ header = bearer token)
  bears : request.headers.filter isAuthorization = if token = [] then [] else [bearer token]
  body : request.body.length ≤ limit

section

variable {target : Target} {token : Bytes} {limit : Nat}

theorem requireToken_eq_ok {result : Unit} (h : requireToken token = .ok result) :
    validAccountToken token = true := by
  unfold requireToken at h
  split at h
  next hvalid => exact hvalid
  · cases h

/-- **The request of an operation is confined to its target.** -/
theorem Confined.of_bounded {path body : Bytes} {responseLimit requestLimit : Nat}
    {request : ApiRequest}
    (h : boundedRequest target.method path body token responseLimit requestLimit = .ok request)
    (hpath : path = target.path) (hplain : target.Plain) :
    Confined target token requestLimit request := by
  unfold boundedRequest at h
  rw [guard_eq_ok_iff, guard_eq_ok_iff, pure_eq_ok_iff] at h
  obtain ⟨htoken, hbody, rfl⟩ := h
  -- the headers every request has, which name nobody
  have hfixed : ∀ header ∈ [ascii "Accept: application/json", ascii "Cache-Control: no-store"] ++
      (if body = [] then [] else [ascii "Content-Type: application/json"]),
      header ∈ plainHeaders := by
    intro header hheader
    rcases List.mem_append.mp hheader with hheader | hheader
    · simp only [List.mem_cons, List.not_mem_nil, or_false] at hheader
      rcases hheader with rfl | rfl
      · exact List.mem_cons_self
      · exact List.mem_cons_of_mem _ List.mem_cons_self
    · split at hheader
      · cases hheader
      · exact List.mem_singleton.mp hheader ▸ by simp [plainHeaders]
  refine ⟨rfl, by rw [hpath], hplain, ?_, ?_, ?_, Nat.le_of_not_lt hbody⟩
  · -- a token that is there is a valid one, and stands in one header
    by_cases hnone : token = []
    · exact .inl hnone
    · exact .inr (by_contra fun hinvalid => htoken ⟨hnone, hinvalid⟩)
  · intro header hheader
    rcases List.mem_append.mp hheader with hheader | hheader
    · exact .inl (hfixed header hheader)
    · split at hheader
      · cases hheader
      next hsome => exact .inr ⟨hsome, List.mem_singleton.mp hheader⟩
  · dsimp only
    rw [List.filter_append, filter_plainHeaders hfixed, List.nil_append]
    split
    · rfl
    · exact List.filter_cons_of_pos (isAuthorization_bearer token)

/-- A request without a query. -/
theorem Confined.of_path {method : CurlHttpTransport.HttpMethod} {segments : List Bytes}
    {path body : Bytes} {responseLimit requestLimit : Nat} {request : ApiRequest}
    (h : boundedRequest method path body token responseLimit requestLimit = .ok request)
    (hpath : path = pathText segments)
    (hsegments : ∀ segment ∈ segments, isSegment segment = true) :
    Confined ⟨method, segments, []⟩ token requestLimit request := by
  have htarget : path = Target.path ⟨method, segments, []⟩ :=
    hpath.trans (List.append_nil _).symm
  exact Confined.of_bounded h htarget ⟨hsegments, nofun⟩

/-- A snapshot is sent or fetched with a token. -/
theorem Confined.of_snapshot {request sent : ApiRequest}
    (h : snapshotRequest request token = .ok sent) (hmethod : request.method = target.method)
    (hurl : request.url = origin ++ target.path) (hplain : target.Plain)
    (hheaders : ∀ header ∈ request.headers, header ∈ plainHeaders) (hbody : request.body = []) :
    Confined target token 0 sent := by
  unfold snapshotRequest at h
  rw [call_eq_ok_iff] at h
  obtain ⟨_, hvalid, hsent⟩ := h
  obtain rfl := pure_eq_ok_iff.mp hsent
  have hvalid := requireToken_eq_ok hvalid
  have hsome : token ≠ [] := by
    rintro rfl
    cases hvalid
  refine ⟨hmethod, hurl, hplain, .inr hvalid, ?_, ?_, by simp [hbody]⟩
  · intro header hheader
    rcases List.mem_append.mp hheader with hheader | hheader
    · exact .inl (hheaders header hheader)
    · rcases List.mem_cons.mp hheader with rfl | hheader
      · exact .inr ⟨hsome, rfl⟩
      · exact .inl (List.mem_singleton.mp hheader ▸ by simp [plainHeaders])
  · have hlast : isAuthorization (ascii "Cache-Control: no-store") = false := by decide +kernel
    rw [List.filter_append, filter_plainHeaders hheaders, if_neg hsome, List.nil_append]
    show [bearer token, ascii "Cache-Control: no-store"].filter isAuthorization = _
    rw [List.filter_cons_of_pos (isAuthorization_bearer token),
      List.filter_cons_of_neg (by simp [hlast])]
    rfl

end

/-! ## The targets -/

/-- Below the user. -/
def ofUser (segments : List Bytes) : List Bytes :=
  [ascii "v1", ascii "users", ascii "me"] ++ segments

/-- A dictionary of the user. -/
def ofDictionary (kind : Bytes) (segments : List Bytes) : List Bytes :=
  ofUser (ascii "dictionaries" :: kind :: segments)

/-- The fields of a list request. -/
def pageFields (query : Bytes) (offset limit : Int32) : List (Bytes × Bytes) :=
  [(ascii "q", query), (ascii "offset", encodeInt offset.toInt),
    (ascii "limit", encodeInt limit.toInt)]

/-- What a request of a session says. -/
def target : AccountRequest → Target
  | .challenge .. => ⟨.post, [ascii "v1", ascii "auth", ascii "challenges"], []⟩
  | .login .. => ⟨.post, [ascii "v1", ascii "auth", ascii "login"], []⟩
  | .refresh .. => ⟨.post, [ascii "v1", ascii "auth", ascii "refresh"], []⟩
  | .logout .. => ⟨.post, [ascii "v1", ascii "auth", ascii "logout"], []⟩
  | .profile .. => ⟨.get, ofUser [], []⟩
  | .rename .. => ⟨.patch, ofUser [], []⟩
  | .deleteAccount .. => ⟨.delete, ofUser [], []⟩
  | .preferences .. => ⟨.get, ofUser [ascii "preferences"], []⟩
  | .preferencesSchema .. => ⟨.get, ofUser [ascii "preferences", ascii "schema"], []⟩
  | .putPreferences .. => ⟨.put, ofUser [ascii "preferences"], []⟩
  | .clipboard _ query => ⟨.get, ofUser [ascii "clipboard"], [(ascii "q", query)]⟩
  | .setClipboardEnabled .. => ⟨.put, ofUser [ascii "clipboard", ascii "settings"], []⟩
  | .addClipboard .. => ⟨.post, ofUser [ascii "clipboard"], []⟩
  | .deleteClipboard id _ =>
    ⟨.delete, ofUser (ascii "clipboard" :: if id = [] then [] else [id]), []⟩
  | .dictionary kind query offset limit _ =>
    ⟨.get, ofDictionary kind [], pageFields query offset limit⟩
  | .dictionaryCatalog kind query offset limit _ options =>
    ⟨.get, ofDictionary kind [ascii "catalog"], pageFields query offset limit ++
      [(ascii "scheme", options.scheme), (ascii "profile", options.profile)]⟩
  | .manageDictionary kind .. => ⟨.post, ofDictionary kind [ascii "edit"], []⟩
  | .editDictionary kind id _ replacement _ =>
    ⟨if id = [] then .post else if replacement.isSome then .put else .delete,
      ofDictionary kind (if id = [] then [] else [id]), []⟩
  | .importDictionary kind .. => ⟨.post, ofDictionary kind [ascii "import"], []⟩
  | .importHanDictionary .. => ⟨.post, ofDictionary (ascii "pinyin") [ascii "import-hans"], []⟩
  | .exportDictionary kind format _ =>
    ⟨.get, ofDictionary kind [ascii "export"], [(ascii "format", format)]⟩
  | .downloadSnapshot .. => ⟨.get, ofUser [ascii "dictionary", ascii "snapshot"], []⟩
  | .restoreSnapshot _ revision _ =>
    ⟨.put, ofUser [ascii "dictionary", ascii "snapshot"],
      [(ascii "revision", encodeInt revision.toInt)]⟩

/-- The token a request bears, if any. -/
def bearerToken : AccountRequest → Bytes
  | .challenge _ _ token | .login _ _ token | .profile token | .rename _ token
  | .preferences token | .preferencesSchema token | .putPreferences _ _ token
  | .clipboard token _ | .setClipboardEnabled _ token | .addClipboard _ token
  | .deleteClipboard _ token | .dictionary _ _ _ _ token | .dictionaryCatalog _ _ _ _ token _
  | .manageDictionary _ _ _ _ token | .editDictionary _ _ _ _ token
  | .importDictionary _ _ _ token | .importHanDictionary _ _ token | .exportDictionary _ _ token
  | .downloadSnapshot token | .restoreSnapshot _ _ token | .logout token _
  | .deleteAccount token => token
  | .refresh _ => []

/-- How long a body may be. -/
def bodyLimit : AccountRequest → Nat
  | .putPreferences _ schema _ => schema.maximumBytes
  | .downloadSnapshot .. | .restoreSnapshot .. => 0
  | _ => 65536

/-! ### Their paths -/

/-- Digits need no escape. -/
theorem isDecimal_unreserved {c : UInt8} (h : isDecimal c = true) : isUnreserved c = true := by
  unfold isDecimal at h
  unfold isUnreserved
  simp only [Bool.or_eq_true, Bool.and_eq_true, decide_eq_true_eq, UInt8.le_iff_toNat_le] at *
  simp at *
  omega

theorem encodeInt_unreserved {n : Int} : ∀ c ∈ encodeInt n, isUnreserved c = true := by
  intro c hc
  match n with
  | .ofNat n => exact isDecimal_unreserved (isDecimal_of_mem_encodeNat hc)
  | .negSucc n =>
    rcases List.mem_cons.mp hc with rfl | hc
    · decide
    · exact isDecimal_unreserved (isDecimal_of_mem_encodeNat hc)

/-- Identifiers are made of hexadecimal digits. -/
theorem isSegmentByte_hex {c : UInt8}
    (h : ((48 ≤ c && c ≤ 57) || (97 ≤ c && c ≤ 102)) = true) : isSegmentByte c = true := by
  unfold isSegmentByte
  simp only [Bool.or_eq_true, Bool.and_eq_true, decide_eq_true_eq, UInt8.le_iff_toNat_le] at *
  simp at *
  omega

/-- A token may be a segment. -/
theorem isSegment_of_valid {id : Bytes} (h : validAccountToken id = true) :
    isSegment id = true := by
  unfold validAccountToken at h
  rw [Bool.and_eq_true, beq_iff_eq, List.all_eq_true] at h
  rw [isSegment, Bool.and_eq_true, List.all_eq_true]
  refine ⟨?_, fun c hc => isSegmentByte_hex (h.2 c hc)⟩
  cases id with
  | nil => cases h.1
  | cons c id => rfl

theorem pathText_ofUser (segments : List Bytes) :
    pathText (ofUser segments) = usersMe ++ pathText segments := by
  rw [ofUser, pathText_append]
  exact congrArg (· ++ pathText segments) (by decide)

/-- Below the user, segments stay segments. -/
theorem ofUser_segments {segments : List Bytes}
    (h : ∀ segment ∈ segments, isSegment segment = true) :
    ∀ segment ∈ ofUser segments, isSegment segment = true := by
  intro segment hsegment
  rcases List.mem_append.mp hsegment with hsegment | hsegment
  · have hbase : ∀ segment ∈ [ascii "v1", ascii "users", ascii "me"],
        isSegment segment = true := by decide
    exact hbase segment hsegment
  · exact h segment hsegment

/-- A request below the user. -/
theorem Confined.of_user {method : CurlHttpTransport.HttpMethod} {segments : List Bytes}
    {suffix body token : Bytes} {responseLimit requestLimit : Nat} {request : ApiRequest}
    (h : boundedRequest method (usersMe ++ suffix) body token responseLimit requestLimit =
      .ok request)
    (hsuffix : suffix = pathText segments)
    (hsegments : ∀ segment ∈ segments, isSegment segment = true) :
    Confined ⟨method, ofUser segments, []⟩ token requestLimit request :=
  .of_path h (by rw [pathText_ofUser, hsuffix]) (ofUser_segments hsegments)

/-- A path is made for one of the four kinds only. -/
theorem dictionaryPath_eq_ok {kind path : Bytes} (h : dictionaryPath kind = .ok path) :
    path = usersMe ++ ascii "/dictionaries/" ++ kind ∧
      (kind = ascii "pinyin" ∨ kind = ascii "wubi" ∨ kind = ascii "english" ∨
        kind = ascii "quick") := by
  unfold dictionaryPath at h
  split at h
  · cases h
  next hkind =>
    cases h
    exact ⟨rfl, by_contra fun hne => hkind (by simpa only [not_or] using hne)⟩

/-- The kinds are segments. -/
theorem dictionary_segments {kind : Bytes} {segments : List Bytes}
    (hkind : kind = ascii "pinyin" ∨ kind = ascii "wubi" ∨ kind = ascii "english" ∨
      kind = ascii "quick")
    (hsegments : ∀ segment ∈ segments, isSegment segment = true) :
    ∀ segment ∈ ofDictionary kind segments, isSegment segment = true := by
  refine ofUser_segments fun segment hsegment => ?_
  have hkinds : ∀ kind ∈ [ascii "dictionaries", ascii "pinyin", ascii "wubi", ascii "english",
    ascii "quick"], isSegment kind = true := by decide
  rcases List.mem_cons.mp hsegment with rfl | hsegment
  · exact hkinds _ List.mem_cons_self
  · rcases List.mem_cons.mp hsegment with rfl | hsegment
    · refine hkinds segment ?_
      rcases hkind with rfl | rfl | rfl | rfl <;> simp
    · exact hsegments segment hsegment

theorem pathText_dictionary (kind : Bytes) (segments : List Bytes) :
    pathText (ofDictionary kind segments) =
      usersMe ++ ascii "/dictionaries/" ++ kind ++ pathText segments := by
  have hbase : ascii "/dictionaries/" = slash :: ascii "dictionaries" ++ [slash] := by decide
  rw [ofDictionary, pathText_ofUser, hbase]
  simp [pathText]

/-- The query of a page, field by field. -/
theorem queryText_page (query : Bytes) (offset limit : Int32) :
    questionMark :: queryText (pageFields query offset limit) = pageQuery query offset limit := by
  have hquery : ascii "?q=" = questionMark :: ascii "q" ++ [equalsSign] := by decide
  have hoffset : ascii "&offset=" = ampersand :: ascii "offset" ++ [equalsSign] := by decide
  have hlimit : ascii "&limit=" = ampersand :: ascii "limit" ++ [equalsSign] := by decide
  unfold pageFields pageQuery
  rw [queryText_cons_cons, queryText_cons_cons, queryText_singleton, hquery, hoffset, hlimit]
  unfold fieldText
  dsimp only
  rw [percentEncode_unreserved encodeInt_unreserved, percentEncode_unreserved encodeInt_unreserved]
  simp

/-! ## The operations -/

variable {J : ClientJson}

/-- The request of an operation says what the operation is. -/
def Confines {α : Type} (operation : Except Failure (ApiCall α)) (request : AccountRequest) :
    Prop :=
  ∀ call, operation = .ok call →
    Confined (target request) (bearerToken request) (bodyLimit request) call.request

/-- A challenge for a link carries the token of the session; one for a login carries none. -/
theorem challenge_confines (provider targetText linkToken : Bytes) :
    Confines (challenge J provider targetText linkToken)
      (.challenge provider targetText linkToken) := by
  intro call h
  simp only [challenge, guard_eq_ok_iff, call_eq_ok_iff, pure_eq_ok_iff] at h
  obtain ⟨-, request, hrequest, rfl⟩ := h
  exact .of_path hrequest (by decide) (by decide)

theorem login_confines (id credential linkToken : Bytes) :
    Confines (login J id credential linkToken) (.login id credential linkToken) := by
  intro call h
  simp only [login, guard_eq_ok_iff, call_eq_ok_iff, pure_eq_ok_iff] at h
  obtain ⟨-, request, hrequest, rfl⟩ := h
  exact .of_path hrequest (by decide) (by decide)

/-- A refresh sends its token in the body alone. -/
theorem refresh_confines (token : Bytes) : Confines (refresh J token) (.refresh token) := by
  intro call h
  simp only [refresh, call_eq_ok_iff, pure_eq_ok_iff] at h
  obtain ⟨_, -, request, hrequest, rfl⟩ := h
  exact .of_path hrequest (by decide) (by decide)

theorem profile_confines (token : Bytes) : Confines (profile J token) (.profile token) := by
  intro call h
  simp only [profile, call_eq_ok_iff, pure_eq_ok_iff] at h
  obtain ⟨_, -, request, hrequest, rfl⟩ := h
  exact .of_path hrequest (pathText_ofUser []).symm (ofUser_segments nofun)

theorem rename_confines (name token : Bytes) :
    Confines (rename J name token) (.rename name token) := by
  intro call h
  simp only [rename, guard_eq_ok_iff, call_eq_ok_iff, pure_eq_ok_iff] at h
  obtain ⟨_, -, -, request, hrequest, rfl⟩ := h
  exact .of_path hrequest (pathText_ofUser []).symm (ofUser_segments nofun)

theorem logout_confines (token : Bytes) (all : Bool) :
    Confines (logout J token all) (.logout token all) := by
  intro call h
  simp only [logout, call_eq_ok_iff, pure_eq_ok_iff] at h
  obtain ⟨_, -, request, hrequest, rfl⟩ := h
  exact .of_path hrequest (by decide) (by decide)

theorem deleteAccount_confines (token : Bytes) :
    Confines (deleteAccount token) (.deleteAccount token) := by
  intro call h
  simp only [deleteAccount, call_eq_ok_iff, pure_eq_ok_iff] at h
  obtain ⟨_, -, request, hrequest, rfl⟩ := h
  exact .of_path hrequest (pathText_ofUser []).symm (ofUser_segments nofun)

theorem preferences_confines (token : Bytes) :
    Confines (preferences J token) (.preferences token) := by
  intro call h
  simp only [preferences, call_eq_ok_iff, pure_eq_ok_iff] at h
  obtain ⟨_, -, request, hrequest, rfl⟩ := h
  exact .of_user hrequest (by decide) (by decide)

theorem preferencesSchema_confines (token : Bytes) :
    Confines (preferencesSchema J token) (.preferencesSchema token) := by
  intro call h
  simp only [preferencesSchema, call_eq_ok_iff, pure_eq_ok_iff] at h
  obtain ⟨_, -, request, hrequest, rfl⟩ := h
  exact .of_user hrequest (by decide) (by decide)

theorem putPreferences_confines (value : Preferences) (schema : PreferencesSchema) (token : Bytes) :
    Confines (putPreferences J value schema token) (.putPreferences value schema token) := by
  intro call h
  simp only [putPreferences, guard_eq_ok_iff, call_eq_ok_iff, pure_eq_ok_iff] at h
  obtain ⟨_, -, _, -, -, request, hrequest, rfl⟩ := h
  exact .of_user hrequest (by decide) (by decide)

theorem ofUser_clipboard : ∀ segment ∈ ofUser [ascii "clipboard"], isSegment segment = true :=
  ofUser_segments (by decide)

theorem clipboard_confines (token query : Bytes) :
    Confines (clipboard J token query) (.clipboard token query) := by
  intro call h
  simp only [clipboard, call_eq_ok_iff, pure_eq_ok_iff] at h
  obtain ⟨_, -, _, -, request, hrequest, rfl⟩ := h
  have hpath : ascii "/clipboard?q=" =
      slash :: ascii "clipboard" ++ questionMark :: ascii "q" ++ [equalsSign] := by decide
  refine .of_bounded hrequest ?_ ⟨ofUser_clipboard, ?_⟩
  · show _ = pathText (ofUser [ascii "clipboard"]) ++ questionMark ::
      queryText [(ascii "q", query)]
    rw [pathText_ofUser, queryText_singleton, fieldText, hpath]
    simp [pathText]
  · intro field hfield
    rw [List.mem_singleton.mp hfield]
    exact List.mem_cons_self

theorem setClipboardEnabled_confines (enabled : Bool) (token : Bytes) :
    Confines (setClipboardEnabled J enabled token) (.setClipboardEnabled enabled token) := by
  intro call h
  simp only [setClipboardEnabled, call_eq_ok_iff, pure_eq_ok_iff] at h
  obtain ⟨_, -, request, hrequest, rfl⟩ := h
  exact .of_user hrequest (by decide) (by decide)

theorem addClipboard_confines (text token : Bytes) :
    Confines (addClipboard J text token) (.addClipboard text token) := by
  intro call h
  simp only [addClipboard, call_eq_ok_iff, pure_eq_ok_iff] at h
  obtain ⟨_, -, _, -, request, hrequest, rfl⟩ := h
  exact .of_user hrequest (by decide) (by decide)

/-- One item, or all of them: the path without an identifier. -/
theorem deleteClipboard_confines (id token : Bytes) :
    Confines (deleteClipboard id token) (.deleteClipboard id token) := by
  intro call h
  simp only [deleteClipboard, guard_eq_ok_iff, call_eq_ok_iff, pure_eq_ok_iff] at h
  obtain ⟨_, -, hid, request, hrequest, rfl⟩ := h
  have hclipboard : ascii "/clipboard" = slash :: ascii "clipboard" := by decide
  refine .of_path hrequest ?_ (ofUser_segments ?_)
  · rw [pathText_ofUser, hclipboard]
    split <;> simp [pathText, show ascii "/" = [slash] by decide]
  · intro segment hsegment
    rcases List.mem_cons.mp hsegment with rfl | hsegment
    · exact ofUser_clipboard _ (by simp [ofUser])
    · split at hsegment
      · cases hsegment
      next hsome =>
        rw [List.mem_singleton.mp hsegment]
        exact isSegment_of_valid (by_contra fun hinvalid => hid ⟨hsome, hinvalid⟩)

theorem pageFields_names (query : Bytes) (offset limit : Int32) :
    ∀ field ∈ pageFields query offset limit, field.1 ∈ fieldNames := by
  intro field hfield
  simp only [pageFields, List.mem_cons, List.not_mem_nil, or_false] at hfield
  rcases hfield with rfl | rfl | rfl <;> simp [fieldNames]

theorem dictionary_confines (kind query : Bytes) (offset limit : Int32) (token : Bytes) :
    Confines (dictionary J kind query offset limit token)
      (.dictionary kind query offset limit token) := by
  intro call h
  simp only [dictionary, guard_eq_ok_iff, call_eq_ok_iff, pure_eq_ok_iff] at h
  obtain ⟨_, -, path, hpath, _, -, -, request, hrequest, rfl⟩ := h
  obtain ⟨rfl, hkind⟩ := dictionaryPath_eq_ok hpath
  refine .of_bounded hrequest ?_ ⟨dictionary_segments hkind nofun, pageFields_names _ _ _⟩
  show _ = pathText (ofDictionary kind []) ++ questionMark :: queryText (pageFields _ _ _)
  rw [pathText_dictionary, queryText_page]
  simp [pathText]

/-- Texts are checked byte by byte. -/
theorem forall_all {texts : List Bytes} {p : UInt8 → Bool}
    (h : (texts.all fun text => text.all p) = true) : ∀ text ∈ texts, ∀ c ∈ text, p c = true :=
  fun text htext => List.all_eq_true.mp (List.all_eq_true.mp h text htext)

/-- The names of the schemes and of the profiles need no encoding. -/
theorem options_unreserved : ∀ text ∈ [ascii "pinyin", ascii "shuangpin", ascii "xiaohe",
    ascii "ziranma", ascii "shoudao", ascii "microsoft", ascii "standard", ascii "windows"],
    ∀ c ∈ text, isUnreserved c = true :=
  forall_all (by decide +kernel)

/-- The query of the catalog: that of a page with the scheme and the profile. -/
theorem queryText_catalog (query scheme profile : Bytes) (offset limit : Int32)
    (hscheme : ∀ c ∈ scheme, isUnreserved c = true)
    (hprofile : ∀ c ∈ profile, isUnreserved c = true) :
    questionMark :: queryText (pageFields query offset limit ++
        [(ascii "scheme", scheme), (ascii "profile", profile)]) =
      pageQuery query offset limit ++ ascii "&scheme=" ++ scheme ++ ascii "&profile=" ++
        profile := by
  have hfirst : ascii "&scheme=" = ampersand :: ascii "scheme" ++ [equalsSign] := by decide
  have hsecond : ascii "&profile=" = ampersand :: ascii "profile" ++ [equalsSign] := by decide
  rw [← queryText_page, hfirst, hsecond]
  simp only [pageFields, List.cons_append, List.nil_append, queryText_cons_cons,
    queryText_singleton, fieldText, percentEncode_unreserved hscheme,
    percentEncode_unreserved hprofile, List.append_assoc]

theorem dictionaryCatalog_confines (kind query : Bytes) (offset limit : Int32) (token : Bytes)
    (options : DictionaryCatalogOptions) :
    Confines (dictionaryCatalog J kind query offset limit token options)
      (.dictionaryCatalog kind query offset limit token options) := by
  intro call h
  simp only [dictionaryCatalog, guard_eq_ok_iff, call_eq_ok_iff, pure_eq_ok_iff] at h
  obtain ⟨_, -, hoptions, path, hpath, _, -, -, -, request, hrequest, rfl⟩ := h
  obtain ⟨rfl, hkind⟩ := dictionaryPath_eq_ok hpath
  rw [not_or, not_not, not_not] at hoptions
  have hscheme : ∀ c ∈ options.scheme, isUnreserved c = true := by
    refine options_unreserved _ ?_
    rcases List.mem_cons.mp hoptions.1 with h | h
    · simp [h]
    · simp [List.mem_singleton.mp h]
  have hprofile : ∀ c ∈ options.profile, isUnreserved c = true := by
    refine options_unreserved _ ?_
    have h := hoptions.2
    simp only [List.mem_cons, List.not_mem_nil, or_false] at h
    rcases h with h | h | h | h <;> simp [h]
  refine .of_bounded hrequest ?_ ⟨dictionary_segments hkind (by decide), ?_⟩
  · show _ = pathText (ofDictionary kind [ascii "catalog"]) ++ questionMark ::
      queryText (pageFields query offset limit ++
        [(ascii "scheme", options.scheme), (ascii "profile", options.profile)])
    rw [pathText_dictionary, queryText_catalog _ _ _ _ _ hscheme hprofile]
    simp [pathText, show ascii "/catalog" = slash :: ascii "catalog" by decide]
  · intro field hfield
    rcases List.mem_append.mp hfield with hfield | hfield
    · exact pageFields_names _ _ _ field hfield
    · simp only [List.mem_cons, List.not_mem_nil, or_false] at hfield
      rcases hfield with rfl | rfl <;> simp [fieldNames]

/-- A dictionary, an operation on it, and no query. -/
theorem Confined.of_dictionary {method : CurlHttpTransport.HttpMethod}
    {kind path body token suffix segment : Bytes} {request : ApiRequest}
    (hpath : dictionaryPath kind = .ok path)
    (h : apiRequest method (path ++ suffix) body token = .ok request)
    (hsuffix : suffix = slash :: segment)
    (hsegment : isSegment segment = true) :
    Confined ⟨method, ofDictionary kind [segment], []⟩ token 65536 request := by
  obtain ⟨rfl, hkind⟩ := dictionaryPath_eq_ok hpath
  refine Confined.of_path h ?_ (dictionary_segments hkind ?_)
  · rw [pathText_dictionary, hsuffix]
    simp [pathText]
  · intro other hother
    rw [List.mem_singleton.mp hother]
    exact hsegment

theorem manageDictionary_confines (kind : Bytes) (revision : Int64) (previous : DictionaryEntry)
    (replacement : Option DictionaryEntry) (token : Bytes) :
    Confines (manageDictionary J kind revision previous replacement token)
      (.manageDictionary kind revision previous replacement token) := by
  intro call h
  simp only [manageDictionary, guard_eq_ok_iff, call_eq_ok_iff, pure_eq_ok_iff] at h
  obtain ⟨_, -, path, hpath, -, _, -, _, -, request, hrequest, rfl⟩ := h
  exact .of_dictionary hpath hrequest (by decide) (by decide)

theorem editDictionary_confines (kind id : Bytes) (revision : Int64)
    (replacement : Option DictionaryEntry) (token : Bytes) :
    Confines (editDictionary J kind id revision replacement token)
      (.editDictionary kind id revision replacement token) := by
  intro call h
  simp only [editDictionary, guard_eq_ok_iff, call_eq_ok_iff, pure_eq_ok_iff] at h
  obtain ⟨_, -, path, hpath, hid, _, -, request, hrequest, rfl⟩ := h
  by_cases hnone : id = []
  · subst hnone
    obtain ⟨rfl, hkind⟩ := dictionaryPath_eq_ok hpath
    refine .of_path hrequest ?_ (dictionary_segments hkind nofun)
    show _ = pathText (ofDictionary kind [])
    rw [pathText_dictionary]
    simp [pathText]
  · have hvalid : validAccountToken id = true :=
      by_contra fun hinvalid => hid (.inr ⟨hnone, .inl hinvalid⟩)
    rw [if_neg hnone, if_neg hnone] at hrequest
    have hconfined := Confined.of_dictionary hpath hrequest
      (show ascii "/" ++ id = slash :: id by rw [show ascii "/" = [slash] by decide]; rfl)
      (isSegment_of_valid hvalid)
    show Confined ⟨if id = [] then .post else if replacement.isSome then .put else .delete,
      ofDictionary kind (if id = [] then [] else [id]), []⟩ token 65536 request
    rw [if_neg hnone, if_neg hnone]
    exact hconfined

theorem importDictionary_confines (kind text format token : Bytes) :
    Confines (importDictionary J kind text format token)
      (.importDictionary kind text format token) := by
  intro call h
  simp only [importDictionary, guard_eq_ok_iff, call_eq_ok_iff, pure_eq_ok_iff] at h
  obtain ⟨_, -, path, hpath, _, -, -, count, -, -, request, hrequest, rfl⟩ := h
  exact .of_dictionary hpath hrequest (by decide) (by decide)

theorem importHanDictionary_confines (text : Bytes) (weight : Int64) (token : Bytes) :
    Confines (importHanDictionary J text weight token)
      (.importHanDictionary text weight token) := by
  intro call h
  simp only [importHanDictionary, guard_eq_ok_iff, call_eq_ok_iff, pure_eq_ok_iff] at h
  obtain ⟨_, -, _, -, -, request, hrequest, rfl⟩ := h
  exact .of_path hrequest (by decide +kernel) (by decide +kernel)

theorem exportDictionary_confines (kind format token : Bytes) :
    Confines (exportDictionary J kind format token) (.exportDictionary kind format token) := by
  intro call h
  simp only [exportDictionary, call_eq_ok_iff, pure_eq_ok_iff] at h
  obtain ⟨_, -, path, hpath, _, hformat, request, hrequest, rfl⟩ := h
  obtain ⟨rfl, hkind⟩ := dictionaryPath_eq_ok hpath
  have hplain : ∀ c ∈ format, isUnreserved c = true := by
    refine options_unreserved _ ?_
    unfold dictionaryFormat at hformat
    split at hformat
    · cases hformat
    next h =>
      rw [not_and_or, not_not, not_not] at h
      rcases h with rfl | rfl <;> decide
  refine .of_bounded hrequest ?_ ⟨dictionary_segments hkind (by decide), ?_⟩
  · show _ = pathText (ofDictionary kind [ascii "export"]) ++
      questionMark :: queryText [(ascii "format", format)]
    have hsuffix : ascii "/export?format=" =
        slash :: ascii "export" ++ questionMark :: ascii "format" ++ [equalsSign] := by
      decide +kernel
    rw [pathText_dictionary, queryText_singleton, fieldText, hsuffix]
    dsimp only
    rw [percentEncode_unreserved hplain]
    simp [pathText]
  · intro field hfield
    rw [List.mem_singleton.mp hfield]
    simp [fieldNames]

theorem ofUser_snapshot : ∀ segment ∈ ofUser [ascii "dictionary", ascii "snapshot"],
    isSegment segment = true :=
  ofUser_segments (by decide)

theorem pathText_snapshot : pathText (ofUser [ascii "dictionary", ascii "snapshot"]) =
    usersMe ++ ascii "/dictionary/snapshot" := by
  rw [pathText_ofUser]
  exact congrArg (usersMe ++ ·) (by decide)

/-- A download sends no body. -/
theorem downloadSnapshot_confines (sink : Option (Nat → Bytes → Bool)) (token : Bytes) :
    Confines (downloadSnapshot sink token) (.downloadSnapshot token) := by
  intro call h
  unfold downloadSnapshot at h
  cases sink with
  | none => cases h
  | some sink =>
    simp only [call_eq_ok_iff, pure_eq_ok_iff] at h
    obtain ⟨request, hrequest, rfl⟩ := h
    refine .of_snapshot hrequest rfl ?_ ⟨ofUser_snapshot, nofun⟩
      (fun header h => List.mem_singleton.mp h ▸ by simp [plainHeaders]) rfl
    show _ = origin ++ (pathText (ofUser [ascii "dictionary", ascii "snapshot"]) ++ [])
    rw [pathText_snapshot, List.append_nil, List.append_assoc]

/-- An upload streams its body; the revision is all of its query. -/
theorem restoreSnapshot_confines (size : Nat) (revision : Int64) (token : Bytes) :
    Confines (restoreSnapshot J true size revision token)
      (.restoreSnapshot size revision token) := by
  intro call h
  simp only [restoreSnapshot, guard_eq_ok_iff, call_eq_ok_iff, pure_eq_ok_iff] at h
  obtain ⟨-, request, hrequest, rfl⟩ := h
  refine .of_snapshot hrequest rfl ?_ ⟨ofUser_snapshot, ?_⟩ ?_ rfl
  · have hsuffix : ascii "/dictionary/snapshot?revision=" =
        ascii "/dictionary/snapshot" ++ questionMark :: ascii "revision" ++ [equalsSign] := by
      decide
    show origin ++ usersMe ++ ascii "/dictionary/snapshot?revision=" ++ encodeInt revision.toInt =
      origin ++ (pathText (ofUser [ascii "dictionary", ascii "snapshot"]) ++
        questionMark :: queryText [(ascii "revision", encodeInt revision.toInt)])
    rw [pathText_snapshot, queryText_singleton, fieldText, hsuffix]
    dsimp only
    rw [percentEncode_unreserved encodeInt_unreserved]
    simp
  · intro field hfield
    rw [List.mem_singleton.mp hfield]
    simp [fieldNames]
  · intro header hheader
    simp only [List.mem_cons, List.not_mem_nil, or_false] at hheader
    rcases hheader with rfl | rfl <;> simp [plainHeaders]

/-- **Every operation is confined**: origin, path, query, headers and body are what its request
says. -/
theorem operation_confines (sink : Option (Nat → Bytes → Bool)) (request : AccountRequest) :
    Confines (request.operation J sink) request := by
  cases request with
  | challenge provider targetText linkToken =>
    exact challenge_confines provider targetText linkToken
  | login id credential linkToken => exact login_confines id credential linkToken
  | refresh token => exact refresh_confines token
  | profile token => exact profile_confines token
  | rename name token => exact rename_confines name token
  | preferences token => exact preferences_confines token
  | preferencesSchema token => exact preferencesSchema_confines token
  | putPreferences value schema token => exact putPreferences_confines value schema token
  | clipboard token query => exact clipboard_confines token query
  | setClipboardEnabled enabled token => exact setClipboardEnabled_confines enabled token
  | addClipboard text token => exact addClipboard_confines text token
  | deleteClipboard id token => exact deleteClipboard_confines id token
  | dictionary kind query offset limit token =>
    exact dictionary_confines kind query offset limit token
  | dictionaryCatalog kind query offset limit token options =>
    exact dictionaryCatalog_confines kind query offset limit token options
  | manageDictionary kind revision previous replacement token =>
    exact manageDictionary_confines kind revision previous replacement token
  | editDictionary kind id revision replacement token =>
    exact editDictionary_confines kind id revision replacement token
  | importDictionary kind text format token =>
    exact importDictionary_confines kind text format token
  | importHanDictionary text weight token => exact importHanDictionary_confines text weight token
  | exportDictionary kind format token => exact exportDictionary_confines kind format token
  | downloadSnapshot token => exact downloadSnapshot_confines sink token
  | restoreSnapshot size revision token => exact restoreSnapshot_confines size revision token
  | logout token all => exact logout_confines token all
  | deleteAccount token => exact deleteAccount_confines token

/-! ## What a server reads -/

/-- Visible ASCII. -/
def isVisible (c : UInt8) : Bool := 33 ≤ c && c ≤ 126

/-- A request goes to the server, says what the operation is, and has no header that anybody
else could have put there: its token stands in the only `Authorization` header there is. -/
structure Addressed (request : AccountRequest) (sent : ApiRequest) : Prop where
  method : sent.method = (target request).method
  url : sent.url = origin ++ (target request).path
  read : readUrl (ascii "https://") sent.url =
    some (origin, (target request).segments, (target request).fields)
  visible : ∀ c ∈ sent.url, isVisible c = true
  segments : ∀ segment ∈ (target request).segments,
    isSegment segment = true
  headers : ∀ header ∈ sent.headers, header ∈ plainHeaders ∨
    (header = bearer (bearerToken request) ∧ validAccountToken (bearerToken request) = true)
  unbroken : ∀ header ∈ sent.headers, ∀ c ∈ header, isControl c = false
  bears : sent.headers.filter isAuthorization =
    if bearerToken request = [] then [] else [bearer (bearerToken request)]
  body : sent.body.length ≤ bodyLimit request

/-- What needs no escape can be seen. -/
theorem isUnreserved_visible {c : UInt8} (h : isUnreserved c = true) : isVisible c = true := by
  unfold isUnreserved at h
  unfold isVisible
  simp only [Bool.or_eq_true, Bool.and_eq_true, decide_eq_true_eq, UInt8.le_iff_toNat_le,
    ← UInt8.toNat_inj] at *
  simp at *
  omega

theorem isSegment_unreserved {segment : Bytes} (h : isSegment segment = true) :
    ∀ c ∈ segment, isUnreserved c = true := by
  rw [isSegment, Bool.and_eq_true, List.all_eq_true] at h
  intro c hc
  have hbyte := h.2 c hc
  unfold isSegmentByte at hbyte
  unfold isUnreserved
  simp only [Bool.or_eq_true, Bool.and_eq_true, decide_eq_true_eq, UInt8.le_iff_toNat_le,
    ← UInt8.toNat_inj] at *
  simp at *
  omega

theorem isHex_uncontrolled {c : UInt8}
    (h : ((48 ≤ c && c ≤ 57) || (97 ≤ c && c ≤ 102)) = true) : isControl c = false := by
  unfold isControl
  simp only [Bool.or_eq_true, Bool.and_eq_true, decide_eq_true_eq, UInt8.le_iff_toNat_le,
    Bool.or_eq_false_iff, decide_eq_false_iff_not, UInt8.lt_iff_toNat_lt, beq_eq_false_iff_ne,
    ne_eq, ← UInt8.toNat_inj] at *
  simp at *
  omega

/-- The check of the transport for control characters, said of each byte. -/
theorem unbroken_of_any {text : Bytes} (h : text.any isControl = false) :
    ∀ c ∈ text, isControl c = false :=
  fun c hc => Bool.not_eq_true _ ▸ List.any_eq_false.mp h c hc

/-- The headers that every request has cannot be broken into two. -/
theorem plainHeaders_unbroken : ∀ header ∈ plainHeaders, ∀ c ∈ header, isControl c = false := by
  have hall : (plainHeaders.any fun header => header.any isControl) = false := by decide +kernel
  intro header hheader
  exact unbroken_of_any (Bool.not_eq_true _ ▸ List.any_eq_false.mp hall header hheader)

/-- Nor can the header of a valid token. -/
theorem bearer_unbroken {token : Bytes} (h : validAccountToken token = true) :
    ∀ c ∈ bearer token, isControl c = false := by
  have hprefix : ∀ c ∈ ascii "Authorization: Bearer ", isControl c = false :=
    unbroken_of_any (by decide +kernel)
  unfold validAccountToken at h
  rw [Bool.and_eq_true, List.all_eq_true] at h
  intro c hc
  rcases List.mem_append.mp hc with hc | hc
  · exact hprefix c hc
  · exact isHex_uncontrolled (h.2 c hc)

/-- A confined request is read back as what was asked for: its text is unambiguous. -/
theorem Confined.addressed {request : AccountRequest} {sent : ApiRequest}
    (h : Confined (target request) (bearerToken request) (bodyLimit request) sent) :
    Addressed request sent := by
  have hsegments : ∀ segment ∈ (target request).segments, ∀ c ∈ segment, isUnreserved c = true :=
    fun segment hsegment => isSegment_unreserved (h.plain.segments segment hsegment)
  have hnames : ∀ field ∈ (target request).fields, ∀ c ∈ field.1, isUnreserved c = true := by
    have hknown : ∀ name ∈ fieldNames, ∀ c ∈ name, isUnreserved c = true :=
      forall_all (by decide +kernel)
    exact fun field hfield => hknown _ (h.plain.names field hfield)
  have hheaders : ∀ header ∈ sent.headers, header ∈ plainHeaders ∨
      (header = bearer (bearerToken request) ∧
        validAccountToken (bearerToken request) = true) := by
    intro header hheader
    rcases h.headers header hheader with hplain | ⟨hsome, hbearer⟩
    · exact .inl hplain
    · exact .inr ⟨hbearer, h.valid.resolve_left hsome⟩
  refine ⟨h.method, h.url, ?_, ?_, h.plain.segments, hheaders, ?_, h.bears, h.body⟩
  · -- the origin has no slash after its scheme, so it is read back whole
    have horigin : origin = ascii "https://" ++ ascii "api.msime.app" := by decide +kernel
    have hhost : ∀ c ∈ ascii "api.msime.app", inAuthority c = true :=
      List.all_eq_true.mp (by decide +kernel)
    rw [h.url, horigin]
    exact readUrl_targetText _ hhost hsegments hnames
  · -- no byte of the URL ends a line or a field
    intro c hc
    have horigin : ∀ c ∈ origin, isVisible c = true := List.all_eq_true.mp (by decide +kernel)
    have hseparators : ∀ c ∈ [slash, questionMark, percentSign, ampersand, equalsSign],
        isVisible c = true := List.all_eq_true.mp (by decide +kernel)
    rw [h.url, List.mem_append] at hc
    rcases hc with hc | hc
    · exact horigin c hc
    · rcases mem_targetText hsegments hnames hc with hc | hc
      · exact isUnreserved_visible hc
      · exact hseparators c hc
  · intro header hheader
    rcases hheaders header hheader with hplain | ⟨rfl, hvalid⟩
    · exact plainHeaders_unbroken header hplain
    · exact bearer_unbroken hvalid

/-! ## Runs -/

/-- One operation after the other, whatever comes of each. -/
def performAll (J : ClientJson) (sink : Option (Nat → Bytes → Bool)) (E : ClientEnv)
    (requests : List AccountRequest) (s : ClientState) : ClientState :=
  requests.foldl (fun s request => ((perform E (request.operation J sink)).exec s).2) s

/-- **Every request goes where it should**: of any operations, each sends one request at most,
in turn, and that says to the server, and to nobody else, what the operation was asked for. -/
theorem client_confined (J : ClientJson) (sink : Option (Nat → Bytes → Bool)) (E : ClientEnv)
    (requests : List AccountRequest) (s : ClientState) :
    ∃ made : List (AccountRequest × ApiRequest),
      (performAll J sink E requests s).sent = s.sent ++ made.map Prod.snd ∧
        (made.map Prod.fst).Sublist requests ∧ ∀ m ∈ made, Addressed m.1 m.2 := by
  induction requests generalizing s with
  | nil => exact ⟨[], by simp [performAll], .slnil, fun _ hm => absurd hm List.not_mem_nil⟩
  | cons request requests ih =>
    have hspec : Performed E (request.operation J sink) s _ _ :=
      perform_spec E (request.operation J sink) s
    obtain ⟨made, hsent, hsublist, hmade⟩ :=
      ih ((perform E (request.operation J sink)).exec s).2
    have hall : (performAll J sink E (request :: requests) s).sent =
        ((perform E (request.operation J sink)).exec s).2.sent ++ made.map Prod.snd := hsent
    -- a call that was sent is the first of the requests made
    have hone : ∀ call, request.operation J sink = .ok call →
        ((perform E (request.operation J sink)).exec s).2.sent = s.sent ++ [call.request] →
        ∃ made : List (AccountRequest × ApiRequest),
          (performAll J sink E (request :: requests) s).sent = s.sent ++ made.map Prod.snd ∧
            (made.map Prod.fst).Sublist (request :: requests) ∧
            ∀ m ∈ made, Addressed m.1 m.2 := by
      intro call hcall hstate
      have haddressed : Addressed request call.request :=
        Confined.addressed (operation_confines sink request call hcall)
      refine ⟨(request, call.request) :: made, ?_, hsublist.cons_cons request, ?_⟩
      · rw [hall, hstate, List.append_assoc]
        rfl
      · intro m hm
        rcases List.mem_cons.mp hm with rfl | hm
        · exact haddressed
        · exact hmade m hm
    -- one that was not is left out
    have hnone : ((perform E (request.operation J sink)).exec s).2.sent = s.sent →
        ∃ made : List (AccountRequest × ApiRequest),
          (performAll J sink E (request :: requests) s).sent = s.sent ++ made.map Prod.snd ∧
            (made.map Prod.fst).Sublist (request :: requests) ∧
            ∀ m ∈ made, Addressed m.1 m.2 :=
      fun hstate => ⟨made, by rw [hall, hstate], hsublist.cons request, hmade⟩
    generalize (perform E (request.operation J sink)).exec s = after at hspec hone hnone
    obtain ⟨result, s'⟩ := after
    -- cancelled before it was sent, or refused; or sent, and its answer kept or not
    cases hspec with
    | refused failure hoperation => exact hnone rfl
    | unsent call hoperation hcancelled => exact hnone rfl
    | discarded call hoperation hgo hcancelled => exact hone call hoperation rfl
    | judged call hoperation hgo hkept => exact hone call hoperation rfl

end BackendAccountClient

end MsimeLinux
