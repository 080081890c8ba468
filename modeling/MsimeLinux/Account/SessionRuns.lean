import MsimeLinux.Account.SessionEffects
import MsimeLinux.Lib.Run

/-!
# Runs of the account session

A run is a sequence of method calls, each in an environment of its own.

- `SessionOperation.acts`: what a call does, whatever the method.
- `SessionOperation.stale`: a call for another generation does nothing.
- `generationBindsUser`: one generation, one user.
-/

namespace MsimeLinux

open Lib AccountSession

variable {ω : Type} {J : JsonLib} {E : AccountEnv}

/-! ## Operations -/

/-- A call of a method. -/
inductive SessionOperation (ω : Type) where
  | restore
  | withCurrentUser (generation : Nat) (userId : Bytes) (operation : Callback ω)
  | login (generation : Nat) (challenge credential : Bytes)
  | beginLink (generation : Nat) (provider target : Bytes)
  | link (generation : Nat) (challenge credential : Bytes)
  | accessToken (generation : Nat)
  | profile (generation : Nat)
  | rename (generation : Nat) (name : Bytes)
  | reviewPreferences (generation : Nat)
  | uploadPreferences (review : PreferencesReview) (settings : PreferenceSettings)
  | applyPreferences (review : PreferencesReview) (apply : Callback ω)
  | clipboard (generation : Nat) (query : Bytes)
  | setClipboardEnabled (generation : Nat) (enabled : Bool)
  | addClipboard (generation : Nat) (text : Bytes)
  | deleteClipboard (generation : Nat) (id : Bytes)
  | dictionary (generation : Nat) (kind query : Bytes) (offset limit : Int32)
  | dictionaryCatalog (generation : Nat) (kind query : Bytes) (offset limit : Int32)
      (options : DictionaryCatalogOptions)
  | manageDictionary (generation : Nat) (kind : Bytes) (revision : Int64)
      (previous : DictionaryEntry) (replacement : Option DictionaryEntry)
  | editDictionary (generation : Nat) (kind id : Bytes) (revision : Int64)
      (replacement : Option DictionaryEntry)
  | importDictionary (generation : Nat) (kind text format : Bytes)
  | importHanDictionary (generation : Nat) (text : Bytes) (weight : Int64)
  | exportDictionary (generation : Nat) (kind format : Bytes)
  | downloadSnapshot (generation : Nat)
  | restoreSnapshot (generation size : Nat) (revision : Int64)
  | logout (generation : Nat) (all : Bool)
  | deleteAccount (generation : Nat)

/-- A method, whatever it returns. -/
def forget {α : Type} (m : SessionM ω α) : SessionM ω Unit := do
  let _ ← m
  pure ()

namespace SessionOperation

/-- The generation a call is for; `restore` is for none. -/
def generation : SessionOperation ω → Option Nat
  | restore => none
  | withCurrentUser g .. | login g .. | beginLink g .. | link g .. | accessToken g | profile g
  | rename g .. | reviewPreferences g | clipboard g .. | setClipboardEnabled g ..
  | addClipboard g .. | deleteClipboard g .. | dictionary g .. | dictionaryCatalog g ..
  | manageDictionary g .. | editDictionary g .. | importDictionary g ..
  | importHanDictionary g .. | exportDictionary g .. | downloadSnapshot g
  | restoreSnapshot g .. | logout g .. | deleteAccount g => some g
  | uploadPreferences review .. | applyPreferences review .. => some review.generation

/-- Make the call. -/
def perform (J : JsonLib) (E : AccountEnv) : SessionOperation ω → SessionM ω Unit
  | restore => forget (AccountSession.restore J E)
  | withCurrentUser g userId operation => AccountSession.withCurrentUser g userId operation
  | login g challenge credential => forget (AccountSession.login J E g challenge credential)
  | beginLink g provider target => forget (AccountSession.beginLink J E g provider target)
  | link g challenge credential => forget (AccountSession.link J E g challenge credential)
  | accessToken g => forget (AccountSession.accessToken J E g)
  | profile g => forget (AccountSession.profile J E g)
  | rename g name => forget (AccountSession.rename J E g name)
  | reviewPreferences g => forget (AccountSession.reviewPreferences J E g)
  | uploadPreferences review settings =>
    forget (AccountSession.uploadPreferences J E review settings)
  | applyPreferences review apply => AccountSession.applyPreferences J E review apply
  | clipboard g query => forget (AccountSession.clipboard J E g query)
  | setClipboardEnabled g enabled => forget (AccountSession.setClipboardEnabled J E g enabled)
  | addClipboard g text => forget (AccountSession.addClipboard J E g text)
  | deleteClipboard g id => forget (AccountSession.deleteClipboard J E g id)
  | dictionary g kind query offset limit =>
    forget (AccountSession.dictionary J E g kind query offset limit)
  | dictionaryCatalog g kind query offset limit options =>
    forget (AccountSession.dictionaryCatalog J E g kind query offset limit options)
  | manageDictionary g kind revision previous replacement =>
    forget (AccountSession.manageDictionary J E g kind revision previous replacement)
  | editDictionary g kind id revision replacement =>
    forget (AccountSession.editDictionary J E g kind id revision replacement)
  | importDictionary g kind text format =>
    forget (AccountSession.importDictionary J E g kind text format)
  | importHanDictionary g text weight =>
    forget (AccountSession.importHanDictionary J E g text weight)
  | exportDictionary g kind format => forget (AccountSession.exportDictionary J E g kind format)
  | downloadSnapshot g => AccountSession.downloadSnapshot J E g
  | restoreSnapshot g size revision =>
    forget (AccountSession.restoreSnapshot J E g size revision)
  | logout g all => AccountSession.logout J E g all
  | deleteAccount g => AccountSession.deleteAccount J E g

/-- The world after a call, and the calls it made to the outside. -/
def after (J : JsonLib) (E : AccountEnv) (operation : SessionOperation ω) (w : AccountWorld ω) :
    AccountWorld ω :=
  ((operation.perform J E).exec w).2

def made (J : JsonLib) (E : AccountEnv) (operation : SessionOperation ω) (w : AccountWorld ω) :
    List AccountCall :=
  (operation.after J E w).calls.drop w.calls.length

end SessionOperation

/-! ## What an operation does -/

theorem forget_acts {α : Type} {m : SessionM ω α} {w : AccountWorld ω}
    (h : Outcome m w fun _ w' => Acts J w w') :
    Outcome (forget m) w fun _ w' => Acts J w w' :=
  Outcome.call h (fun _ _ h => h) fun _ _ h => h

theorem forget_part {α : Type} {m : SessionM ω α} {w : AccountWorld ω}
    (h : Outcome m w (Part J w)) : Outcome (forget m) w fun _ w' => Acts J w w' :=
  forget_acts (h.mono fun _ _ => Part.acts)

/-- A change of the clipboard, and then the clipboard as it is. -/
theorem clipboardChange_attempt {request : AccountRequest} {token : Bytes}
    (hhandled : request.handled = true) (hrevokes : request.revokes = false)
    (w : AccountWorld ω) :
    Outcome (do
      let _ ← call E request
      call E (.clipboard token [])) w (Attempt J w) :=
  Attempt.bind (call_attempt hhandled hrevokes w) fun _ w => call_attempt rfl rfl w

/-- Every operation acts on the session in one of the ways. -/
theorem SessionOperation.acts (operation : SessionOperation ω) (w : AccountWorld ω) :
    Outcome (operation.perform J E) w fun _ w' => Acts J w w' := by
  cases operation with
  | restore => exact forget_acts (restore_acts w)
  | withCurrentUser g userId operation => exact withCurrentUser_acts g userId operation w
  | login g challenge credential => exact forget_acts (login_acts g challenge credential w)
  | beginLink g provider target =>
    exact forget_part (Part.bind (authorized_part g w) fun _ w => call_part rfl rfl w)
  | link g challenge credential => exact forget_acts (link_acts g challenge credential w)
  | accessToken g => exact forget_part (authorized_part g w)
  | profile g =>
    exact forget_part (Part.bind (authorized_part g w) fun token w => readProfile_part token w)
  | rename g name =>
    -- the new name is sent, and the profile read again
    exact forget_part (Part.bind (authorized_part g w) fun token w =>
      Part.bind (call_part rfl rfl w) fun _ w => readProfile_part token w)
  | reviewPreferences g =>
    refine forget_part (Part.bind (authorized_part g w) fun token w => discardRejected_part ?_)
    refine Attempt.bind (call_attempt rfl rfl w) fun schema w => ?_
    refine Attempt.bind (call_attempt rfl rfl w) fun remote w => ?_
    exact Outcome.get_bind_iff.mpr .refl
  | uploadPreferences review settings =>
    exact forget_part (Part.bind (reviewedToken_part review w) fun _ w =>
      discardRejected_part (call_attempt rfl rfl w))
  | applyPreferences review apply =>
    -- the page must be the reviewed one, and the account too; then comes the callback
    refine Part.last (reviewedToken_part review w) fun token w => ?_
    refine Part.last (discardRejected_part (call_attempt rfl rfl w)) fun current w => ?_
    rw [Outcome.guard_iff]
    refine ⟨fun _ => .progress .refl, fun _ => ?_⟩
    rw [Outcome.get_bind_iff, Outcome.guard_iff]
    exact ⟨fun _ => .progress .refl, fun _ =>
      (runCallback_part apply w).mono fun _ _ => Part.acts⟩
  | clipboard g query =>
    -- one request with the token of the session
    refine forget_part (withToken_part ?_ w)
    exact fun _ w => call_attempt rfl rfl w
  | setClipboardEnabled g enabled =>
    refine forget_part (withToken_part ?_ w)
    exact fun _ w => clipboardChange_attempt rfl rfl w
  | addClipboard g text =>
    refine forget_part (withToken_part ?_ w)
    exact fun _ w => clipboardChange_attempt rfl rfl w
  | deleteClipboard g id =>
    refine forget_part (withToken_part ?_ w)
    exact fun _ w => clipboardChange_attempt rfl rfl w
  | dictionary g kind query offset limit =>
    refine forget_part (withToken_part ?_ w)
    exact fun _ w => call_attempt rfl rfl w
  | dictionaryCatalog g kind query offset limit options =>
    refine forget_part (withToken_part ?_ w)
    exact fun _ w => call_attempt rfl rfl w
  | manageDictionary g kind revision previous replacement =>
    refine forget_part (withToken_part ?_ w)
    exact fun _ w => call_attempt rfl rfl w
  | editDictionary g kind id revision replacement =>
    refine forget_part (withToken_part ?_ w)
    exact fun _ w => call_attempt rfl rfl w
  | importDictionary g kind text format =>
    refine forget_part (withToken_part ?_ w)
    exact fun _ w => call_attempt rfl rfl w
  | importHanDictionary g text weight =>
    refine forget_part (withToken_part ?_ w)
    exact fun _ w => call_attempt rfl rfl w
  | exportDictionary g kind format =>
    refine forget_part (withToken_part ?_ w)
    exact fun _ w => call_attempt rfl rfl w
  | downloadSnapshot g =>
    refine (withToken_part ?_ w).mono fun _ _ => Part.acts
    exact fun _ w => call_attempt rfl rfl w
  | restoreSnapshot g size revision =>
    refine forget_part (withToken_part ?_ w)
    exact fun _ w => call_attempt rfl rfl w
  -- the session is revoked
  | logout g all => exact Part.last (authorized_part g w) fun _ w => revoke_acts rfl rfl w
  | deleteAccount g => exact Part.last (authorized_part g w) fun _ w => revoke_acts rfl rfl w

/-! ## Stale calls -/

/-- `m` throws at once: nothing has happened. -/
def Refuses {α : Type} (m : SessionM ω α) (w : AccountWorld ω) : Prop :=
  Outcome m w fun result w' => w' = w ∧ ∃ e, result = .error e

/-- What refuses at once does not come to what follows. -/
theorem Refuses.bind {α β : Type} {m : SessionM ω α} {f : α → SessionM ω β} {w : AccountWorld ω}
    (h : Refuses m w) : Refuses (m >>= f) w := by
  refine Outcome.call h ?_ ?_
  · rintro a w' ⟨_, e, he⟩
    cases he
  · rintro e w' ⟨rfl, _⟩
    exact ⟨rfl, e, rfl⟩

/-- A call for another generation than the one there is. -/
def AccountWorld.Stale (w : AccountWorld ω) (generation : Nat) : Prop :=
  ¬ (w.restored = true ∧ generation = w.generation)

section Stale

variable {w : AccountWorld ω} {g : Nat}

/-- A stale generation is refused by each of the guards: the test itself, -/
theorem requireGeneration_refuses (h : w.Stale g) : Refuses (requireGeneration g) w := by
  refine (requireGeneration_spec g w).mono ?_
  rintro (e | a) w' ⟨rfl, hok⟩
  · exact ⟨rfl, e, rfl⟩
  · exact absurd (hok.mp ⟨a, rfl⟩) h

/-- the token, -/
theorem authorized_refuses (h : w.Stale g) : Refuses (authorized J E g) w :=
  (requireGeneration_refuses h).bind

/-- the token of a review, -/
theorem reviewedToken_refuses {review : PreferencesReview} (h : w.Stale review.generation) :
    Refuses (reviewedToken J E review) w :=
  (requireGeneration_refuses h).bind

/-- and all that needs one. -/
theorem withToken_refuses {α : Type} {operation : Bytes → SessionM ω α} (h : w.Stale g) :
    Refuses (withToken J E g operation) w :=
  (authorized_refuses h).bind

/-- **A stale call does nothing.** -/
theorem SessionOperation.stale {operation : SessionOperation ω}
    (hgeneration : operation.generation = some g) (h : w.Stale g) :
    Refuses (operation.perform J E) w := by
  cases operation <;> cases hgeneration
  case withCurrentUser => exact (requireGeneration_refuses h).bind
  case login => exact (requireGeneration_refuses h).bind.bind
  case beginLink => exact (authorized_refuses h).bind.bind
  case link => exact (authorized_refuses h).bind.bind
  case accessToken => exact (authorized_refuses h).bind
  case profile => exact (authorized_refuses h).bind.bind
  case rename => exact (authorized_refuses h).bind.bind
  case reviewPreferences => exact (authorized_refuses h).bind.bind
  case uploadPreferences => exact (reviewedToken_refuses h).bind.bind
  case applyPreferences => exact (reviewedToken_refuses h).bind
  case downloadSnapshot => exact withToken_refuses h
  case logout => exact (authorized_refuses h).bind
  case deleteAccount => exact (authorized_refuses h).bind
  all_goals exact (withToken_refuses h).bind

end Stale

/-! ## Generations -/

/-- What is benign keeps the user of a generation. -/
theorem Benign.binds {w w' : AccountWorld ω} (h : Benign J w w') :
    w'.generation = w.generation ∧ w'.userId = w.userId := by
  cases h with
  | answered request failure => exact ⟨rfl, rfl⟩
  | resaved session next read hsession huser =>
    refine ⟨rfl, ?_⟩
    show some next.tokens.user.id = w.session.map _
    rw [hsession, huser]
    rfl
  | outside outside => exact ⟨rfl, rfl⟩

/-- So does a refresh, -/
theorem Progress.binds {w w' : AccountWorld ω} (h : Progress J w w') :
    w'.generation = w.generation ∧ w'.userId = w.userId := by
  induction h with
  | refl => exact ⟨rfl, rfl⟩
  | tail _ hstep ih => exact ⟨hstep.binds.1.trans ih.1, hstep.binds.2.trans ih.2⟩

/-- and what ends a session starts a new generation. -/
theorem Ending.binds {w w' : AccountWorld ω} (h : Ending J w w') :
    w'.generation = w.generation ∧ w'.userId = w.userId ∨ w'.generation = w.generation + 1 := by
  cases h with
  | nothing => exact .inl ⟨rfl, rfl⟩
  | unsaved => exact .inl ⟨rfl, rfl⟩
  | signedIn => exact .inr rfl
  | rejected => exact .inr rfl
  | unnoticed => exact .inl ⟨rfl, rfl⟩
  | revoked => exact .inr rfl
  | unrestored => exact .inl ⟨rfl, rfl⟩
  | restoredNone => exact .inr rfl
  | restored => exact .inr rfl

/-- An operation keeps the generation and the user, or goes on to the next
generation. -/
theorem Acts.binds {w w' : AccountWorld ω} (h : Acts J w w') :
    w'.generation = w.generation ∧ w'.userId = w.userId ∨ w'.generation = w.generation + 1 := by
  obtain ⟨w₁, hprogress, hending⟩ := h
  obtain ⟨hgeneration, huser⟩ := hprogress.binds
  rcases hending.binds with ⟨hgeneration', huser'⟩ | hnext
  · exact .inl ⟨hgeneration'.trans hgeneration, huser'.trans huser⟩
  · exact .inr (by omega)

/-- A call of a method in an environment of its own. -/
def SessionStep (J : JsonLib) (w : AccountWorld ω) (call : AccountEnv × SessionOperation ω)
    (w' : AccountWorld ω) : Prop :=
  w' = call.2.after J call.1 w

/-- A step of a run is an operation. -/
theorem SessionStep.acts {w w' : AccountWorld ω} {call : AccountEnv × SessionOperation ω}
    (h : SessionStep J w call w') : Acts J w w' :=
  h ▸ call.2.acts w

/-- A session as it is built, over the record there is. -/
def AccountWorld.initial (record : Option Bytes) (outside : ω) : AccountWorld ω :=
  { record, outside }

/-- Generations only grow, and one of them has one user. -/
theorem run_binds {w w' : AccountWorld ω} {calls : List (AccountEnv × SessionOperation ω)}
    (h : Run (SessionStep J) w calls w') :
    w.generation < w'.generation ∨ w'.generation = w.generation ∧ w'.userId = w.userId := by
  refine h.invariant (I := fun v => w.generation < v.generation ∨
    v.generation = w.generation ∧ v.userId = w.userId) ?_ (.inr ⟨rfl, rfl⟩)
  intro v call v' hv hstep
  rcases hstep.acts.binds with ⟨hgeneration, huser⟩ | hnext
  · rw [hgeneration, huser]
    exact hv
  · exact .inl (by omega)

/-- `generation_` is a `std::uint64_t`: it tells the generations of a run apart while there are
fewer operations than it has values. -/
theorem generation_uint64 {record : Option Bytes} {outside : ω} {w w' : AccountWorld ω}
    {calls later : List (AccountEnv × SessionOperation ω)}
    (h : Run (SessionStep J) (.initial record outside) calls w)
    (h' : Run (SessionStep J) w later w') (hfew : calls.length + later.length < UInt64.size) :
    UInt64.ofNat w.generation = UInt64.ofNat w'.generation ↔ w.generation = w'.generation := by
  have hstart : (AccountWorld.initial record outside).generation = 0 := rfl
  refine h.counter_uint64 (fun w => w.generation) (fun v call v' hstep => ?_) h' (by omega)
  rcases hstep.acts.binds with ⟨hsame, -⟩ | hnext
  · exact hsame.le.trans (Nat.le_succ _)
  · exact hnext.le

/-- **A generation binds one user.** For every run of operations, with any answers
of the backend and of the secret service: at two moments with the same generation
the same user is signed in, or nobody is; and an operation called for another
generation than the one there is fails without a request, without touching the
store, and leaves everything as it was. -/
theorem generationBindsUser {calls : List (AccountEnv × SessionOperation ω)}
    {w w' : AccountWorld ω} (h : Run (SessionStep J) w calls w') :
    (w.generation = w'.generation → w.userId = w'.userId) ∧
      ∀ E operation g, operation.generation = some g → g ≠ w'.generation →
        ∃ e, (SessionOperation.perform J E operation).exec w' = (.error e, w') := by
  constructor
  · intro hsame
    rcases run_binds h with hlater | ⟨_, huser⟩
    · omega
    · exact huser.symm
  · intro E operation g hgeneration hother
    obtain ⟨hw, e, he⟩ := operation.stale (J := J) (E := E) (w := w') hgeneration
      fun h => hother h.2
    exact ⟨e, Prod.ext he hw⟩

/-! ## A sample session -/

/-- The text of a session of the user `guard`. -/
def guardText (access refresh : Char) (expiresAt : String) : Bytes :=
  ascii "\x7b\"version\":1,\"expires_at\":" ++ ascii expiresAt ++
    ascii ",\"token_type\":\"Bearer\"," ++
    ascii "\"access_token\":\"" ++ List.replicate 64 (UInt8.ofNat access.toNat) ++
    ascii "\",\"refresh_token\":\"" ++ List.replicate 64 (UInt8.ofNat refresh.toNat) ++
    ascii "\",\"expires_in\":900,\"user\":\x7b\"id\":\"guard\"," ++
    ascii "\"display_name\":\"Guard\",\"created_at\":\"now\"\x7d\x7d"

def guardTokens (access refresh : Char) : Tokens where
  accessToken := List.replicate 64 (UInt8.ofNat access.toNat)
  refreshToken := List.replicate 64 (UInt8.ofNat refresh.toNat)
  expiresIn := 900
  user := ⟨ascii "guard", ascii "Guard", ascii "now"⟩

/-- The sessions of the sample: the one on record, what it is refreshed to, and
what a link brings. -/
def guardSession : SavedSession := ⟨guardTokens 'a' 'b', 1900⟩
def refreshedSession : SavedSession := ⟨guardTokens 'c' 'd', 2800⟩
def linkedSession : SavedSession := ⟨guardTokens 'e' 'f', 2800⟩

def guardTexts : List (Json × Bytes) :=
  [(.object (sessionObject guardSession), guardText 'a' 'b' "1900"),
    (.object (sessionObject refreshedSession), guardText 'c' 'd' "2800"),
    (.object (sessionObject linkedSession), guardText 'e' 'f' "2800")]

/-- JSON, on the texts of the sample. -/
def guardJson : JsonLib := .ofTables (guardTexts.map Prod.swap) guardTexts

theorem guardJson_lawful : guardJson.Lawful := by
  refine JsonLib.GoodTables.lawful ⟨by decide +kernel, by decide +kernel, ?_, by decide +kernel⟩
  have hread : ∀ line ∈ guardTexts, (guardTexts.map Prod.swap).lookup line.2 = some line.1 := by
    decide +kernel
  intro line hline tree htree
  rw [hread line hline] at htree
  exact .inl (Option.some.inj htree).symm

/-- Nothing answers, everything works, and it is some moment `now`. -/
def quietEnv (now : Int64) : AccountEnv where
  respond _ _ := .error { status := 0 }
  reachable _ := true
  storeFails _ := none
  eraseFails _ := none
  clock _ := now
  cancelled _ := false

/-- The session of the record, restored. -/
def restoredWorld : AccountWorld Unit :=
  SessionOperation.after guardJson (quietEnv 1000) .restore
    (.initial (some (guardText 'a' 'b' "1900")) ())

/-- The record of the example is restored, -/
theorem restoredWorld_run : Run (SessionStep guardJson)
    (.initial (some (guardText 'a' 'b' "1900")) ()) [(quietEnv 1000, .restore)] restoredWorld := by
  refine .single ?_
  show restoredWorld = _
  unfold restoredWorld
  rfl

/-- which signs its user in. -/
theorem restoredWorld_signedIn :
    restoredWorld.restored = true ∧ restoredWorld.generation = 1 ∧
      restoredWorld.session = some guardSession := by
  decide +kernel

/-- The server refreshes tokens, at a moment when the restored ones have run out. -/
def refreshEnv : AccountEnv where
  respond _
    | .refresh _ => .ok (guardTokens 'c' 'd')
    | _ => .error { status := 0 }
  reachable _ := true
  storeFails _ := none
  eraseFails _ := none
  clock _ := 1900
  cancelled _ := false

/-- The restored session, with the tokens it was refreshed to. -/
def refreshedWorld : AccountWorld Unit :=
  SessionOperation.after guardJson refreshEnv (.accessToken 1) restoredWorld

/-- A call with an expired token renews it, -/
theorem refreshedWorld_run :
    Run (SessionStep guardJson) restoredWorld [(refreshEnv, .accessToken 1)] refreshedWorld := by
  refine .single ?_
  show refreshedWorld = _
  unfold refreshedWorld
  rfl

/-- in the same generation. -/
theorem refreshedWorld_signedIn :
    refreshedWorld.generation = 1 ∧ refreshedWorld.session = some refreshedSession := by
  decide +kernel

/-- The refresh has kept the generation, so the user is the same; a call for the generation
before reaches nothing. -/
theorem generationBindsUser_refreshed :
    refreshedWorld.session = some refreshedSession ∧ refreshedSession ≠ guardSession ∧
    restoredWorld.userId = refreshedWorld.userId ∧
    ∃ e, (SessionOperation.perform guardJson (quietEnv 1900) (.accessToken 0)).exec
      refreshedWorld = (.error e, refreshedWorld) := by
  obtain ⟨hgeneration, hsession⟩ := refreshedWorld_signedIn
  obtain ⟨hsame, hstale⟩ := generationBindsUser refreshedWorld_run
  refine ⟨hsession, by decide +kernel, hsame ?_, hstale (quietEnv 1900) (.accessToken 0) 0 rfl ?_⟩
  · rw [restoredWorld_signedIn.2.1, hgeneration]
  · rw [hgeneration]
    decide

end MsimeLinux
