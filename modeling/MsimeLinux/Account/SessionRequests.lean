import MsimeLinux.Account.SessionRuns

/-!
# What the account session asks for, and when it cannot

- `SessionOperation.signedOut`: while nobody is signed in, only a login and a restore do
  anything.
- `SessionOperation.asks`: only a login and a link use a challenge.
- `login_tells`, `link_tells`: what these two return.
- `beginLink_tells`, `login_redeems`, `link_redeems`: what they ask for, and in which
  generation.
- `uploadPreferences_spec`, `applyPreferences_spec`: what the confirmed preferences do, for the
  user and the remote settings of their review.
-/

namespace MsimeLinux

open Lib AccountSession

variable {ω : Type} {J : JsonLib} {E : AccountEnv} {w : AccountWorld ω}

/-- The request that redeems a challenge. -/
def AccountRequest.isLogin : AccountRequest → Bool
  | login .. => true
  | _ => false

/-- The operations that redeem one. -/
def SessionOperation.isLogin : SessionOperation ω → Bool
  | login .. | link .. => true
  | _ => false

/-- The operations that sign somebody in who was not. -/
def SessionOperation.entersSession : SessionOperation ω → Bool
  | restore | login .. => true
  | _ => false

/-! ## Nobody is signed in -/

section

variable (h : w.session = none)
include h

/-- Without a session there is no token to be had. -/
theorem authorized_signedOut (g : Nat) : Refuses (authorized J E g) w := by
  unfold authorized
  refine Outcome.call (requireGeneration_spec g w) ?_ ?_
  swap
  · rintro e _ ⟨rfl, -⟩
    exact ⟨rfl, e, rfl⟩
  rintro ⟨⟩ _ ⟨rfl, -⟩
  rw [Outcome.get_bind_iff, Outcome.guard_iff]
  refine ⟨fun _ => ⟨rfl, _, rfl⟩, fun _ => ?_⟩
  refine Outcome.call (theSession_spec _) ?_ ?_
  · rintro session _ ⟨rfl, hsession⟩
    rw [h] at hsession
    cases hsession
  · rintro e _ ⟨rfl, -⟩
    exact ⟨rfl, e, rfl⟩

theorem userId_signedOut : w.userId = none := by
  rw [AccountWorld.userId, h]
  rfl

/-- Nor is there one for a review. -/
theorem reviewedToken_signedOut (review : PreferencesReview) :
    Refuses (reviewedToken J E review) w := by
  unfold reviewedToken
  refine Outcome.call (requireGeneration_spec _ w) ?_ ?_
  swap
  · rintro e _ ⟨rfl, -⟩
    exact ⟨rfl, e, rfl⟩
  rintro ⟨⟩ _ ⟨rfl, -⟩
  rw [Outcome.get_bind_iff, Outcome.guard_iff]
  refine ⟨fun _ => ⟨rfl, _, rfl⟩, fun hother => absurd ?_ hother⟩
  rw [userId_signedOut h]
  exact nofun

/-- And no callback is called. -/
theorem withCurrentUser_signedOut (g : Nat) (userId : Bytes) (operation : Callback ω) :
    Refuses (withCurrentUser g userId operation) w := by
  unfold withCurrentUser
  refine Outcome.call (requireGeneration_spec _ w) ?_ ?_
  swap
  · rintro e _ ⟨rfl, -⟩
    exact ⟨rfl, e, rfl⟩
  rintro ⟨⟩ _ ⟨rfl, -⟩
  rw [Outcome.get_bind_iff, Outcome.guard_iff]
  refine ⟨fun _ => ⟨rfl, _, rfl⟩, fun hother => absurd ?_ hother⟩
  rw [userId_signedOut h]
  exact nofun

/-- **Nobody is signed in**: every operation for a signed-in user fails at once. -/
theorem SessionOperation.signedOut {operation : SessionOperation ω}
    (hoperation : operation.entersSession = false) : Refuses (operation.perform J E) w := by
  cases operation <;> cases hoperation
  case withCurrentUser g userId operation => exact withCurrentUser_signedOut h g userId operation
  case beginLink g _ _ => exact (authorized_signedOut h g).bind.bind
  case link g _ _ => exact (authorized_signedOut h g).bind.bind
  case accessToken g => exact (authorized_signedOut h g).bind
  case profile g => exact (authorized_signedOut h g).bind.bind
  case rename g _ => exact (authorized_signedOut h g).bind.bind
  case reviewPreferences g => exact (authorized_signedOut h g).bind.bind
  case uploadPreferences review _ => exact (reviewedToken_signedOut h review).bind.bind
  case applyPreferences review _ => exact (reviewedToken_signedOut h review).bind
  case downloadSnapshot g => exact (authorized_signedOut h g).bind
  case logout g _ => exact (authorized_signedOut h g).bind
  case deleteAccount g => exact (authorized_signedOut h g).bind
  all_goals exact (authorized_signedOut h _).bind.bind

end

/-! ## Requests -/

section Asks

variable {P : AccountRequest → Prop}

/-- One part asks such requests, and so does the next. -/
theorem Asks.call {α β : Type} {m : SessionM ω α} {f : α → SessionM ω β}
    (hm : Outcome m w fun _ w' => Asks P w w')
    (hf : ∀ a w', Outcome (f a) w' fun _ w'' => Asks P w' w'') :
    Outcome (m >>= f) w fun _ w' => Asks P w w' :=
  Outcome.call hm (fun a w' h => (hf a w').mono fun _ _ h' => h.trans h') fun _ _ h => h

/-- What is returned does not matter for what is asked. -/
theorem forget_asks {α : Type} {m : SessionM ω α} (h : Outcome m w fun _ w' => Asks P w w') :
    Outcome (forget m) w fun _ w' => Asks P w w' :=
  Outcome.call h (fun _ _ h => h) fun _ _ h => h

/-- The parts of the methods that ask for nothing. -/
theorem requireGeneration_asks (g : Nat) (w : AccountWorld ω) :
    Outcome (requireGeneration g : SessionM ω Unit) w fun _ w' => Asks P w w' := by
  refine (requireGeneration_spec g w).mono ?_
  rintro _ _ ⟨rfl, -⟩
  exact .refl _

theorem theSession_unasking (w : AccountWorld ω) :
    Outcome (theSession : SessionM ω SavedSession) w fun _ w' => Asks P w w' := by
  refine (theSession_spec w).mono ?_
  rintro _ _ ⟨rfl, -⟩
  exact .refl _

theorem saved_asks (tokens : Tokens) (w : AccountWorld ω) :
    Outcome (saved E tokens) w fun _ w' => Asks P w w' := by
  refine (saved_part tokens w).mono ?_
  rintro _ _ ⟨rfl, -⟩
  exact .refl _

theorem runCallback_asks (callback : Callback ω) (w : AccountWorld ω) :
    Outcome (runCallback callback) w fun _ w' => Asks P w w' := by
  unfold runCallback
  rw [Outcome.get_bind_iff]
  rcases callback.exec w.outside with ⟨_ | _, outside⟩
  · exact Outcome.modify_bind_iff.mpr ⟨[], (List.append_nil _).symm, nofun⟩
  · exact Outcome.modify_bind_iff.mpr ⟨[], (List.append_nil _).symm, nofun⟩

/-- An operation with a token asks for a refresh, and for what it is made of. -/
theorem withToken_asks (hrefresh : ∀ token, P (.refresh token)) {α : Type} {g : Nat}
    {operation : Bytes → SessionM ω α}
    (hoperation : ∀ token w, Outcome (operation token) w fun _ w' => Asks P w w')
    (w : AccountWorld ω) :
    Outcome (withToken J E g operation) w fun _ w' => Asks P w w' :=
  Asks.call (authorized_asks hrefresh g w) fun token w' =>
    discardRejected_asks (hoperation token w')

/-- So does the token of a review. -/
theorem reviewedToken_asks (hrefresh : ∀ token, P (.refresh token)) (review : PreferencesReview)
    (w : AccountWorld ω) :
    Outcome (reviewedToken J E review) w fun _ w' => Asks P w w' := by
  unfold reviewedToken
  refine Asks.call (requireGeneration_asks _ w) ?_
  rintro ⟨⟩ w
  rw [Outcome.get_bind_iff, Outcome.guard_iff]
  exact ⟨fun _ => .refl w, fun _ => authorized_asks hrefresh _ w⟩

/-- A save of the session's record, and its publication. -/
theorem publish_asks {α : Type} {next : SavedSession} {f : AccountWorld ω → AccountWorld ω}
    {m : SessionM ω α} (hf : ∀ w : AccountWorld ω, (f w).calls = w.calls)
    (hm : ∀ w, Outcome m w fun _ w' => Asks P w w') (w : AccountWorld ω) :
    Outcome (do
      storeSave J E next
      modify f
      m) w fun _ w' => Asks P w w' := by
  refine Asks.call (storeSave_asks next w) ?_
  rintro ⟨⟩ w
  rw [Outcome.modify_bind_iff]
  refine (hm (f w)).mono ?_
  rintro _ w' ⟨new, hcalls, hnew⟩
  exact ⟨new, by rw [hcalls, hf], hnew⟩

theorem readProfile_asks (hprofile : ∀ token, P (.profile token)) (token : Bytes)
    (w : AccountWorld ω) :
    Outcome (readProfile J E token) w fun _ w' => Asks P w w' := by
  unfold readProfile
  refine Asks.call (discardRejected_asks (call_asks (hprofile token) w)) ?_
  intro profile w
  refine Asks.call (theSession_unasking w) ?_
  intro session w
  rw [Outcome.guard_iff]
  refine ⟨fun _ => .refl w, fun _ => publish_asks ?_ (fun w => ?_) w⟩
  · exact fun _ => rfl
  · exact Outcome.pure_iff.mpr (.refl w)

/-- It redeems no challenge. -/
def AccountRequest.Ordinary (request : AccountRequest) : Prop := request.isLogin = false

theorem call_ordinary {request : AccountRequest} (w : AccountWorld ω)
    (h : request.Ordinary := by rfl) :
    Outcome (AccountSession.call E request) w fun _ w' => Asks AccountRequest.Ordinary w w' :=
  call_asks h w

/-- A refresh is an ordinary request. -/
theorem authorized_ordinary (g : Nat) (w : AccountWorld ω) :
    Outcome (authorized J E g) w fun _ w' => Asks AccountRequest.Ordinary w w' :=
  authorized_asks (fun _ => Eq.refl false) g w

theorem withToken_ordinary {α : Type} {g : Nat} {operation : Bytes → SessionM ω α}
    (hoperation : ∀ token w, Outcome (operation token) w fun _ w' =>
      Asks AccountRequest.Ordinary w w') (w : AccountWorld ω) :
    Outcome (withToken J E g operation) w fun _ w' => Asks AccountRequest.Ordinary w w' :=
  withToken_asks (fun _ => Eq.refl false) hoperation w

/-- A change of the clipboard, and then the clipboard as it is. -/
theorem change_ordinary {request : AccountRequest} {token : Bytes} (w : AccountWorld ω)
    (h : request.Ordinary := by rfl) :
    Outcome (do
      let _ ← AccountSession.call E request
      AccountSession.call E (.clipboard token [])) w fun _ w' =>
        Asks AccountRequest.Ordinary w w' :=
  Asks.call (call_ordinary w h) fun _ w => call_ordinary w

/-- A request, after whose success the session is dropped. -/
theorem revoke_ordinary {request : AccountRequest} (w : AccountWorld ω)
    (h : request.Ordinary := by rfl) :
    Outcome (do
      let _ ← AccountSession.call E request
      discard E) w fun _ w' => Asks AccountRequest.Ordinary w w' :=
  Asks.call (call_ordinary w h) fun _ w => discard_asks w

/-- Reading the record asks for nothing. -/
theorem restore_ordinary (w : AccountWorld ω) :
    Outcome (restore J E) w fun _ w' => Asks AccountRequest.Ordinary w w' := by
  unfold AccountSession.restore storeLoad
  rw [Outcome.get_bind_iff]
  split
  · rw [Outcome.bind_iff, Outcome.get_bind_iff]
    split
    · split
      · exact Asks.logged nofun
      · rw [Outcome.modify_bind_iff]
        split
        · exact Asks.logged nofun
        · exact Asks.logged nofun
    · exact Asks.logged nofun
  · exact .refl w

/-- **Only a login and a link redeem a challenge.** -/
theorem SessionOperation.asks {operation : SessionOperation ω}
    (hoperation : operation.isLogin = false) (w : AccountWorld ω) :
    Outcome (operation.perform J E) w fun _ w' => Asks AccountRequest.Ordinary w w' := by
  have hprofile (token : Bytes) (w : AccountWorld ω) : Outcome (readProfile J E token) w
      fun _ w' => Asks AccountRequest.Ordinary w w' :=
    readProfile_asks (fun _ => Eq.refl false) token w
  have hreviewed (review : PreferencesReview) (w : AccountWorld ω) :
      Outcome (reviewedToken J E review) w fun _ w' => Asks AccountRequest.Ordinary w w' :=
    reviewedToken_asks (fun _ => Eq.refl false) review w
  cases operation <;> cases hoperation
  case restore => exact forget_asks (restore_ordinary w)
  case withCurrentUser g userId operation =>
    -- the callback asks for nothing itself
    refine Asks.call (requireGeneration_asks g w) fun _ w => ?_
    rw [Outcome.get_bind_iff, Outcome.guard_iff]
    exact ⟨fun _ => .refl w, fun _ => runCallback_asks operation w⟩
  case beginLink g _ _ =>
    refine forget_asks (Asks.call (authorized_ordinary g w) fun _ w => ?_)
    exact call_ordinary w
  case accessToken g => exact forget_asks (authorized_ordinary g w)
  case profile g =>
    exact forget_asks (Asks.call (authorized_ordinary g w) fun token w => hprofile token w)
  case rename g _ =>
    -- three requests: the token, the new name, the profile
    refine forget_asks (Asks.call (authorized_ordinary g w) fun token w => ?_)
    refine Asks.call (call_ordinary w) fun _ w => ?_
    exact hprofile token w
  case reviewPreferences g =>
    refine forget_asks (Asks.call (authorized_ordinary g w) fun token w => ?_)
    refine discardRejected_asks (Asks.call (call_ordinary w) fun schema w => ?_)
    refine Asks.call (call_ordinary w) fun remote w => ?_
    exact Outcome.get_bind_iff.mpr (.refl w)
  case uploadPreferences review _ =>
    refine forget_asks (Asks.call (hreviewed review w) fun _ w => ?_)
    exact discardRejected_asks (call_ordinary w)
  case applyPreferences review apply =>
    -- the page is asked for again before the callback
    refine Asks.call (hreviewed review w) fun _ w => ?_
    refine Asks.call (discardRejected_asks (call_ordinary w)) fun current w => ?_
    rw [Outcome.guard_iff]
    refine ⟨fun _ => .refl w, fun _ => ?_⟩
    rw [Outcome.get_bind_iff, Outcome.guard_iff]
    exact ⟨fun _ => .refl w, fun _ => runCallback_asks apply w⟩
  case setClipboardEnabled =>
    refine forget_asks (withToken_ordinary ?_ w)
    exact fun _ w => change_ordinary w
  case addClipboard =>
    refine forget_asks (withToken_ordinary ?_ w)
    exact fun _ w => change_ordinary w
  case deleteClipboard =>
    refine forget_asks (withToken_ordinary ?_ w)
    exact fun _ w => change_ordinary w
  case downloadSnapshot =>
    refine withToken_ordinary ?_ w
    exact fun _ w => call_ordinary w
  case logout g _ =>
    exact Asks.call (authorized_ordinary g w) fun _ w => revoke_ordinary w
  case deleteAccount g =>
    exact Asks.call (authorized_ordinary g w) fun _ w => revoke_ordinary w
  -- the rest is one request with a token
  all_goals
    refine forget_asks (withToken_ordinary ?_ w)
    exact fun _ w => call_ordinary w

end Asks

/-! ## Login and link -/

/-- `snapshot` (AccountSession.cpp:22). -/
def AccountWorld.snapshot (w : AccountWorld ω) : AccountSnapshot :=
  ⟨w.generation, w.session.map fun session => session.tokens.user⟩

/-- What it returns, if it does, is the session as it is then; and if it does not, the same
user is signed in as before, in the same generation. -/
def Tells (w : AccountWorld ω) (result : Except Failure AccountSnapshot) (w' : AccountWorld ω) :
    Prop :=
  match result with
  | .ok told => told = w'.snapshot
  | .error _ => w'.generation = w.generation ∧ w'.userId = w.userId

/-- Saving leaves memory alone. -/
theorem storeSave_keeps (next : SavedSession) (w : AccountWorld ω) :
    Outcome (storeSave J E next) w fun _ w' => w'.generation = w.generation ∧
      w'.session = w.session := by
  unfold storeSave
  dsimp only
  split
  · exact Outcome.modify_bind_iff.mpr ⟨rfl, rfl⟩
  · rw [Outcome.get_bind_iff]
    split
    · exact Outcome.modify_iff.mpr ⟨rfl, rfl⟩
    · exact Outcome.modify_bind_iff.mpr ⟨rfl, rfl⟩

/-- Whoever signs in is told of it by the generation. -/
theorem signIn_tells {next : SavedSession} (w : AccountWorld ω) :
    Outcome (do
      storeSave J E next
      modify fun w : AccountWorld ω =>
        { w with session := some next, generation := w.generation + 1 }
      current) w (Tells w) := by
  refine Outcome.call (storeSave_keeps next w) ?_ ?_
  · rintro ⟨⟩ w' -
    rw [Outcome.modify_bind_iff]
    exact rfl
  · rintro e w' ⟨hgeneration, hsession⟩
    exact ⟨hgeneration, by rw [AccountWorld.userId, hsession]; rfl⟩

theorem login_tells (g : Nat) (challenge credential : Bytes) (w : AccountWorld ω) :
    Outcome (login J E g challenge credential) w (Tells w) := by
  unfold login
  refine Outcome.call (requireGeneration_spec g w) ?_ ?_
  swap
  · rintro e _ ⟨rfl, -⟩
    exact ⟨rfl, rfl⟩
  rintro ⟨⟩ _ ⟨rfl, -⟩
  refine Outcome.call (call_spec _ _) ?_ ?_
  swap
  · rintro e _ rfl
    exact ⟨rfl, rfl⟩
  rintro tokens _ ⟨-, rfl⟩
  refine Outcome.call (saved_part tokens _) ?_ ?_
  swap
  · rintro e _ ⟨rfl, -⟩
    exact ⟨rfl, rfl⟩
  rintro next _ ⟨rfl, -⟩
  exact signIn_tells _

/-- A login redeems its challenge, without a token. -/
theorem login_asks (g : Nat) (challenge credential : Bytes) (w : AccountWorld ω) :
    Outcome (login J E g challenge credential) w fun _ w' =>
      Asks (fun request => request = .login challenge credential []) w w' := by
  unfold login
  refine Asks.call (requireGeneration_asks g w) fun _ w => ?_
  refine Asks.call (call_asks (P := (· = .login challenge credential [])) rfl w) fun tokens w => ?_
  refine Asks.call (saved_asks tokens w) fun next w => ?_
  refine publish_asks ?_ (fun w => ?_) w
  · exact fun _ => rfl
  · exact Outcome.get_bind_iff.mpr (.refl w)

/-- A link redeems it with a token of the session, refreshed if need be. -/
theorem link_asks (g : Nat) (challenge credential : Bytes) (w : AccountWorld ω) :
    Outcome (link J E g challenge credential) w fun _ w' =>
      Asks (fun request => (∃ token, request = .refresh token) ∨
        ∃ token, request = .login challenge credential token) w w' := by
  unfold link
  refine Asks.call (authorized_asks (fun token => .inl ⟨token, rfl⟩) g w) fun token w => ?_
  refine Asks.call (call_asks (.inr ⟨token, rfl⟩) w) fun tokens w => ?_
  refine Asks.call (saved_asks tokens w) fun next w => ?_
  refine Asks.call (theSession_unasking w) fun session w => ?_
  rw [Outcome.guard_iff]
  refine ⟨fun _ => .refl w, fun _ => ?_⟩
  refine publish_asks ?_ (fun w => ?_) w
  · exact fun _ => rfl
  · exact Outcome.get_bind_iff.mpr (.refl w)

/-- What a link returns is the session as it is then. -/
theorem link_tells (g : Nat) (challenge credential : Bytes) (w : AccountWorld ω) :
    Outcome (link J E g challenge credential) w fun result w' =>
      ∀ told, result = .ok told → told = w'.snapshot := by
  unfold link
  refine Outcome.call (P := fun _ _ => True) trivial (fun token w _ => ?_) fun _ _ _ _ h => by
    cases h
  refine Outcome.call (P := fun _ _ => True) trivial (fun tokens w _ => ?_) fun _ _ _ _ h => by
    cases h
  refine Outcome.call (P := fun _ _ => True) trivial (fun next w _ => ?_) fun _ _ _ _ h => by
    cases h
  refine Outcome.call (P := fun _ _ => True) trivial (fun session w _ => ?_) fun _ _ _ _ h => by
    cases h
  rw [Outcome.guard_iff]
  refine ⟨fun _ _ h => (by cases h), fun _ => (signIn_tells w).mono ?_⟩
  rintro result w' h told rfl
  exact h

theorem restore_tells (w : AccountWorld ω) : Outcome (restore J E) w (Tells w) := by
  unfold restore storeLoad
  rw [Outcome.get_bind_iff]
  split
  · rw [Outcome.bind_iff, Outcome.get_bind_iff]
    split
    · split
      · exact rfl
      · rw [Outcome.modify_bind_iff]
        split
        · exact rfl
        · exact ⟨rfl, rfl⟩
    · exact ⟨rfl, rfl⟩
  · exact rfl

/-- A link challenge that was obtained: it was asked for in the session's generation, for who
was signed in. -/
theorem beginLink_tells (g : Nat) (provider target : Bytes)
    (w : AccountWorld ω) : Outcome (beginLink J E g provider target) w fun result w' =>
      ∀ challenge, result = .ok challenge → g = w.generation ∧ w.session ≠ none ∧
        ∃ token, .request (.challenge provider target token) none ∈
          w'.calls.drop w.calls.length := by
  unfold beginLink
  by_cases hstale : w.Stale g
  · refine (authorized_refuses hstale).bind.mono ?_
    rintro _ _ ⟨-, e, rfl⟩ _ ⟨⟩
  by_cases hsession : w.session = none
  · refine (authorized_signedOut hsession g).bind.mono ?_
    rintro _ _ ⟨-, e, rfl⟩ _ ⟨⟩
  refine Outcome.call (authorized_asks (P := fun _ => True) (fun _ => trivial) g w) ?_ ?_
  swap
  · rintro e w' - _ ⟨⟩
  rintro token w' ⟨new, hcalls, -⟩
  refine (call_spec _ w').mono ?_
  rintro result w'' h challenge rfl
  obtain ⟨-, rfl⟩ := h
  refine ⟨(not_not.mp hstale).2, hsession, token, ?_⟩
  rw [AccountWorld.log, hcalls, List.append_assoc, List.drop_left]
  exact List.mem_append_right _ (List.mem_singleton_self _)

/-- What a login redeems is its challenge, in the session's generation. -/
theorem login_redeems (g : Nat) (challenge credential : Bytes) (w : AccountWorld ω) :
    Outcome (login J E g challenge credential) w fun _ w' => ∀ redeemed code token failure,
      .request (.login redeemed code token) failure ∈ w'.calls.drop w.calls.length →
        redeemed = challenge ∧ g = w.generation := by
  by_cases hstale : w.Stale g
  · unfold login
    refine (requireGeneration_refuses hstale).bind.mono ?_
    rintro _ _ ⟨rfl, -⟩ redeemed code token failure hmem
    rw [List.drop_length] at hmem
    cases hmem
  · refine (login_asks g challenge credential w).mono ?_
    rintro _ w' ⟨new, hcalls, hnew⟩ redeemed code token failure hmem
    rw [hcalls, List.drop_left] at hmem
    cases hnew _ _ hmem
    exact ⟨rfl, (not_not.mp hstale).2⟩

/-- And so it is for a link. -/
theorem link_redeems (g : Nat) (challenge credential : Bytes) (w : AccountWorld ω) :
    Outcome (link J E g challenge credential) w fun _ w' => ∀ redeemed code token failure,
      .request (.login redeemed code token) failure ∈ w'.calls.drop w.calls.length →
        redeemed = challenge ∧ g = w.generation := by
  by_cases hstale : w.Stale g
  · unfold link
    refine (authorized_refuses hstale).bind.mono ?_
    rintro _ _ ⟨rfl, -⟩ redeemed code token failure hmem
    rw [List.drop_length] at hmem
    cases hmem
  · refine (link_asks g challenge credential w).mono ?_
    rintro _ w' ⟨new, hcalls, hnew⟩ redeemed code token failure hmem
    rw [hcalls, List.drop_left] at hmem
    obtain ⟨_, h⟩ | ⟨_, h⟩ := hnew _ _ hmem
    · cases h
    · cases h
      exact ⟨rfl, (not_not.mp hstale).2⟩

/-! ## Reviewed preferences -/

/-- The token is of the user who is signed in: it is the session's, or that of the tokens the
session was refreshed with. -/
def Bears (E : AccountEnv) (w : AccountWorld ω) (token : Bytes) : Prop :=
  ∃ (session : SavedSession) (tokens : Tokens), w.session = some session ∧
    tokens.user.id = session.tokens.user.id ∧ tokens.accessToken = token ∧
    (tokens = session.tokens ∨
      E.respond w.calls (.refresh session.tokens.refreshToken) = .ok tokens)

/-- A part of a method that is no callback. -/
def Inside {α : Type} (w : AccountWorld ω) (_ : Except Failure α) (w' : AccountWorld ω) : Prop :=
  w'.outside = w.outside

/-- What happens inside a method after its test. -/
theorem discard_inside (w : AccountWorld ω) : Outcome (discard E) w (Inside w) := by
  refine (discard_spec w).mono ?_
  rintro _ _ ⟨_, _, _, rfl⟩
  rfl

theorem call_inside (request : AccountRequest) (w : AccountWorld ω) :
    Outcome (call E request) w (Inside w) := by
  refine (call_spec request w).mono ?_
  rintro (failure | response) w' h
  · obtain rfl := h
    rfl
  · obtain ⟨-, rfl⟩ := h
    rfl

/-- A rejection drops the session inside the method too. -/
theorem discardRejected_inside {α : Type} {body : SessionM ω α} {w : AccountWorld ω}
    (hbody : Outcome body w (Inside w)) : Outcome (discardRejected E body) w (Inside w) := by
  unfold discardRejected
  refine Outcome.tryCatch_iff.mpr (hbody.mono ?_)
  rintro (failure | a) w' h
  · show Outcome _ w' _
    split
    · refine Outcome.call (discard_inside w') (fun _ w₂ h₂ => ?_) fun _ w₂ h₂ => h₂.trans h
      exact Outcome.throw_iff.mpr (h₂.trans h)
    · exact Outcome.throw_iff.mpr h
  · exact h

theorem storeSave_inside (next : SavedSession) (w : AccountWorld ω) :
    Outcome (storeSave J E next) w (Inside w) := by
  unfold storeSave
  dsimp only
  split
  · exact Outcome.modify_bind_iff.mpr (Outcome.throw_iff.mpr rfl)
  · rw [Outcome.get_bind_iff]
    split
    · exact Outcome.modify_iff.mpr rfl
    · exact Outcome.modify_bind_iff.mpr (Outcome.throw_iff.mpr rfl)

/-- **The token a method goes on with** is of the user it is for. -/
theorem authorized_bears (g : Nat) (w : AccountWorld ω) :
    Outcome (authorized J E g) w fun result w' => Inside w result w' ∧
      ∀ token, result = .ok token → Bears E w token := by
  unfold authorized
  refine Outcome.call (requireGeneration_spec g w) ?_ ?_
  swap
  · rintro e _ ⟨rfl, -⟩
    exact ⟨rfl, nofun⟩
  rintro ⟨⟩ _ ⟨rfl, -⟩
  rw [Outcome.get_bind_iff, Outcome.guard_iff]
  refine ⟨fun _ => ⟨rfl, nofun⟩, fun _ => ?_⟩
  refine Outcome.call (theSession_spec _) ?_ ?_
  swap
  · rintro e _ ⟨rfl, -⟩
    exact ⟨rfl, nofun⟩
  rintro session w ⟨rfl, hsession⟩
  rw [Outcome.guard_iff]
  refine ⟨fun _ => ⟨rfl, nofun⟩, fun _ => ?_⟩
  rw [Outcome.ite_iff]
  refine ⟨fun _ => ?_, fun _ => Outcome.pure_iff.mpr ⟨rfl, ?_⟩⟩
  swap
  · rintro token heq
    obtain rfl := Except.ok.inj heq
    exact ⟨session, session.tokens, hsession, rfl, rfl, .inl rfl⟩
  -- what was refreshed is of the same user, or the method ends here
  have hrefresh : Outcome (discardRejected E (call E (.refresh session.tokens.refreshToken))) w
      fun result w' => Inside w result w' ∧ ∀ tokens, result = .ok tokens →
        E.respond w.calls (.refresh session.tokens.refreshToken) = .ok tokens := by
    refine (discardRejected_inside (call_inside _ w)).and (discardRejected_ok ?_)
    refine (call_spec _ w).mono ?_
    rintro result w' h tokens rfl
    exact h.1
  refine Outcome.call hrefresh ?_ fun _ _ h => ⟨h.1, nofun⟩
  rintro refreshed w₁ ⟨h₁, hanswer⟩
  rw [Outcome.guard_iff]
  refine ⟨fun _ => ⟨h₁, nofun⟩, fun huser => ?_⟩
  refine Outcome.call (saved_part refreshed w₁) ?_ ?_
  swap
  · rintro e _ ⟨rfl, -⟩
    exact ⟨h₁, nofun⟩
  rintro next _ ⟨rfl, hnext⟩
  refine Outcome.call (storeSave_inside next _) (fun _ w₂ h₂ => ?_)
    fun _ _ h₂ => ⟨h₂.trans h₁, nofun⟩
  rw [Outcome.modify_bind_iff]
  refine Outcome.pure_iff.mpr ⟨h₂.trans h₁, ?_⟩
  rintro token heq
  obtain rfl := Except.ok.inj heq
  rw [hnext next rfl]
  exact ⟨session, refreshed, hsession, not_not.mp huser, rfl, .inr (hanswer refreshed rfl)⟩

/-- The session is still the one of the review. -/
structure PreferencesReview.Current (review : PreferencesReview) (w : AccountWorld ω) : Prop where
  generation : review.generation = w.generation
  user : w.userId = some review.userId

instance PreferencesReview.Current.decidable (review : PreferencesReview) (w : AccountWorld ω) :
    Decidable (review.Current w) :=
  decidable_of_iff (review.generation = w.generation ∧ w.userId = some review.userId)
    ⟨fun h => ⟨h.1, h.2⟩, fun h => ⟨h.1, h.2⟩⟩

/-- **The token of a review** is one of the session that was reviewed. -/
theorem reviewedToken_bears (review : PreferencesReview) (w : AccountWorld ω) :
    Outcome (reviewedToken J E review) w fun result w' => Inside w result w' ∧
      ∀ token, result = .ok token → review.Current w ∧ Bears E w token := by
  unfold reviewedToken
  refine Outcome.call (requireGeneration_spec review.generation w) ?_ ?_
  swap
  · rintro e _ ⟨rfl, -⟩
    exact ⟨rfl, nofun⟩
  rintro ⟨⟩ _ ⟨rfl, hgeneration⟩
  rw [Outcome.get_bind_iff, Outcome.guard_iff]
  refine ⟨fun _ => ⟨rfl, nofun⟩, fun huser => (authorized_bears _ _).mono ?_⟩
  rintro result w' ⟨hinside, hbears⟩
  exact ⟨hinside, fun token htoken =>
    ⟨⟨(hgeneration.mp ⟨_, rfl⟩).2, not_not.mp huser⟩, hbears token htoken⟩⟩

/-- The remote settings were read again, last of all, and are those of the review. -/
def PreferencesReview.Reread (review : PreferencesReview) (E : AccountEnv)
    (calls : List AccountCall) : Prop :=
  ∃ log token current, calls = log ++ [.request (.preferences token) none] ∧
    E.respond log (.preferences token) = .ok current ∧
    current.revision = review.remote.revision ∧ current.settings = review.remote.settings

/-- **The callback of `apply_preferences` runs at most once**, and only if nothing has changed. -/
theorem applyPreferences_spec (review : PreferencesReview) (apply : Callback ω)
    (w : AccountWorld ω) :
    Outcome (applyPreferences J E review apply) w fun result w' =>
      w'.outside = w.outside ∧ (∃ e, result = .error e) ∨
        review.Current w ∧ review.Reread E w'.calls ∧
          apply.exec w.outside = (result, w'.outside) := by
  unfold applyPreferences
  -- a failure before the callback changes nothing outside
  refine Outcome.call (reviewedToken_bears review w) ?_ fun e _ h => .inl ⟨h.1, e, rfl⟩
  rintro token w₁ ⟨h₁, htoken⟩
  have hread : Outcome (discardRejected E (call E (.preferences token))) w₁
      fun result w' => Inside w₁ result w' ∧ ∀ current, result = .ok current →
        E.respond w₁.calls (.preferences token) = .ok current ∧
          w' = w₁.log (.request (.preferences token) none) := by
    refine (discardRejected_inside (call_inside _ w₁)).and (discardRejected_ok ?_)
    refine (call_spec _ w₁).mono ?_
    rintro result w' h current rfl
    exact h
  refine Outcome.call hread ?_ fun e _ h => .inl ⟨h.1.trans h₁, e, rfl⟩
  rintro current w₂ ⟨h₂, hcurrent⟩
  obtain ⟨hanswer, rfl⟩ := hcurrent current rfl
  rw [Outcome.guard_iff]
  refine ⟨fun _ => .inl ⟨h₁, _, rfl⟩, fun hsame => ?_⟩
  rw [Outcome.get_bind_iff, Outcome.guard_iff]
  refine ⟨fun _ => .inl ⟨h₁, _, rfl⟩, fun _ => ?_⟩
  obtain ⟨hrevision, hsettings⟩ := not_or.mp hsame
  -- the document was read again, and is the one reviewed
  have hreread : review.Reread E (w₁.calls ++ [.request (.preferences token) none]) :=
    ⟨w₁.calls, token, current, rfl, hanswer, not_not.mp hrevision, not_not.mp hsettings⟩
  unfold runCallback
  rw [Outcome.get_bind_iff]
  have houtside : (w₁.log (.request (.preferences token) none)).outside = w.outside := h₁
  rcases hexec : apply.exec w.outside with ⟨failure | ⟨⟩, outside⟩
  · rw [houtside, hexec]
    exact Outcome.modify_bind_iff.mpr (.inr ⟨(htoken token rfl).1, hreread, rfl⟩)
  · rw [houtside, hexec]
    exact Outcome.modify_bind_iff.mpr (.inr ⟨(htoken token rfl).1, hreread, rfl⟩)

/-- A replacement of the remote settings is the one of an upload, for the user of the review. -/
def PreferencesReview.Replaces (review : PreferencesReview) (settings : PreferenceSettings)
    (E : AccountEnv) (w : AccountWorld ω) (request : AccountRequest) : Prop :=
  ∀ value schema token, request = .putPreferences value schema token →
    review.Current w ∧ Bears E w token ∧ schema = review.schema ∧
      value = { review.remote with settings := settings ∪ review.remote.settings }

/-- **What an upload sends**: nothing but the replacement, and that last of all. -/
theorem uploadPreferences_spec (review : PreferencesReview) (settings : PreferenceSettings)
    (w : AccountWorld ω) :
    Outcome (uploadPreferences J E review settings) w fun result w' =>
      Asks (review.Replaces settings E w) w w' ∧
      (result.isOk → ∃ value schema token,
        w'.calls.getLast? = some (.request (.putPreferences value schema token) none)) := by
  unfold uploadPreferences
  refine Outcome.call ((reviewedToken_bears review w).and
    (reviewedToken_asks (P := review.Replaces settings E w) (fun _ => nofun) review w)) ?_
    fun e _ h => ⟨h.2, nofun⟩
  rintro token w₁ ⟨⟨-, htoken⟩, hasks⟩
  obtain ⟨hcurrent, hbears⟩ := htoken token rfl
  have hput : review.Replaces settings E w
      (.putPreferences { review.remote with settings := settings ∪ review.remote.settings }
        review.schema token) := by
    rintro value schema token ⟨⟩
    exact ⟨hcurrent, hbears, rfl, rfl⟩
  have hanswered : Outcome (call E (.putPreferences
      { review.remote with settings := settings ∪ review.remote.settings } review.schema token)) w₁
      fun result w' => ∀ current, result = .ok current → ∃ value schema token,
        w'.calls.getLast? = some (.request (.putPreferences value schema token) none) := by
    refine (call_spec _ w₁).mono ?_
    rintro result w' h current rfl
    obtain ⟨-, rfl⟩ := h
    exact ⟨_, _, _, List.getLast?_concat⟩
  refine ((discardRejected_asks (call_asks hput w₁)).and
    (discardRejected_ok hanswered)).mono ?_
  rintro (failure | current) w' ⟨hasks', hlast⟩
  · exact ⟨hasks.trans hasks', nofun⟩
  · exact ⟨hasks.trans hasks', fun _ => hlast current rfl⟩

end MsimeLinux
