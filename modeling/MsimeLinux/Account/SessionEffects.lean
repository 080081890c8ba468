import Mathlib.Logic.Relation
import MsimeLinux.Account.Session

/-!
# What a method of the account session can do

Every method makes some requests, may refresh the tokens or let a callback work,
and then does at most one thing that ends it: a save that fails, a new session, a
discarded one. `Progress` is the first part, `Ending` the second.

- `Acts`, `Part`: a method, and what it does before it ends.
- `authorized_part`, `withToken_part`: the two methods the others go through.
- `signIn_acts`, `login_acts`, `link_acts`, `revoke_acts`, `restore_acts`: the methods that
  change the session, for every environment.
- `authorized_asks`: the requests a method makes, one after the other.
-/

namespace MsimeLinux

open Lib

variable {ω : Type} {J : JsonLib} {E : AccountEnv}

/-! ## Requests -/

/-- The requests whose rejection a method notices: it drops the session then. -/
def AccountRequest.handled : AccountRequest → Bool
  | challenge .. | login .. | rename .. | logout .. | deleteAccount .. => false
  | _ => true

/-- The requests whose success revokes the session. -/
def AccountRequest.revokes : AccountRequest → Bool
  | logout .. | deleteAccount .. => true
  | _ => false

/-! ## Effects -/

/-- The world after `discard`. -/
def AccountWorld.discarded (w : AccountWorld ω) (erased : Bool) (left : Option Bytes) :
    AccountWorld ω :=
  { w with session := none, generation := w.generation + 1, record := left }.log (.erase erased)

/-- The world after a session was saved and published. -/
def AccountWorld.published (w : AccountWorld ω) (text : Bytes) (next : SavedSession) :
    AccountWorld ω :=
  { w with session := some next, record := some text }.log (.save text .stored)

/-- One effect after which a method goes on. -/
inductive Benign (J : JsonLib) : AccountWorld ω → AccountWorld ω → Prop
  | answered (w : AccountWorld ω) (request : AccountRequest) (failure : Option Failure) :
      (∀ f, failure = some f → f.status ≠ 401) → (failure = none → request.revokes = false) →
      Benign J w (w.log (.request request failure))
  | resaved (w : AccountWorld ω) (session next read : SavedSession) : w.session = some session →
      next.tokens.user.id = session.tokens.user.id →
      decodeSession J (sessionText J next) = .ok read →
      Benign J w (w.published (sessionText J next) next)
  | outside (w : AccountWorld ω) (outside : ω) : Benign J w { w with outside }

/-- Any number of such effects. -/
abbrev Progress (J : JsonLib) : AccountWorld ω → AccountWorld ω → Prop :=
  Relation.ReflTransGen (Benign J)

/-- The effect a method ends with. -/
inductive Ending (J : JsonLib) : AccountWorld ω → AccountWorld ω → Prop
  | nothing (w : AccountWorld ω) : Ending J w w
  | unsaved (w : AccountWorld ω) (text : Bytes) (outcome : RecordSave) (left : Option Bytes) :
      outcome ≠ .stored → (outcome = .unreadable → left = w.record) →
      Ending J w ({ w with record := left }.log (.save text outcome))
  | signedIn (w : AccountWorld ω) (next read : SavedSession) :
      decodeSession J (sessionText J next) = .ok read →
      Ending J w { w.published (sessionText J next) next with generation := w.generation + 1 }
  | rejected (w : AccountWorld ω) (request : AccountRequest) (failure : Failure) (erased : Bool)
      (left : Option Bytes) : failure.status = 401 → request.handled = true →
      (erased = true → left = none) →
      Ending J w ((w.log (.request request (some failure))).discarded erased left)
  | unnoticed (w : AccountWorld ω) (request : AccountRequest) (failure : Failure) :
      failure.status = 401 → request.handled = false →
      Ending J w (w.log (.request request (some failure)))
  | revoked (w : AccountWorld ω) (request : AccountRequest) (erased : Bool)
      (left : Option Bytes) : request.revokes = true → (erased = true → left = none) →
      Ending J w ((w.log (.request request none)).discarded erased left)
  | unrestored (w : AccountWorld ω) (answer : SecretLookup) : w.restored = false →
      Ending J w (w.log (.lookup answer))
  | restoredNone (w : AccountWorld ω) : w.restored = false → w.record = none →
      Ending J w { w.log (.lookup .notFound) with
        session := none, restored := true, generation := w.generation + 1 }
  | restored (w : AccountWorld ω) (text : Bytes) (session : SavedSession) : w.restored = false →
      w.record = some text → decodeSession J text = .ok session →
      Ending J w { w.log (.lookup (.found text)) with
        session := some session, restored := true, generation := w.generation + 1 }

/-- What a method does as a whole. -/
def Acts (J : JsonLib) (w w' : AccountWorld ω) : Prop :=
  ∃ w₁, Progress J w w₁ ∧ Ending J w₁ w'

theorem Acts.progress {w w' : AccountWorld ω} (h : Progress J w w') : Acts J w w' :=
  ⟨w', h, .nothing w'⟩

theorem Acts.ending {w w' : AccountWorld ω} (h : Ending J w w') : Acts J w w' :=
  ⟨w, .refl, h⟩

/-- Progress made first is part of what a call does. -/
theorem Acts.trans {w w₁ w' : AccountWorld ω} (h : Progress J w w₁) (h' : Acts J w₁ w') :
    Acts J w w' := by
  obtain ⟨w₂, hprogress, hending⟩ := h'
  exact ⟨w₂, h.trans hprogress, hending⟩

/-- What a part of a method does: it goes on while it returns. -/
def Part (J : JsonLib) (w : AccountWorld ω) {α : Type} :
    Except Failure α → AccountWorld ω → Prop
  | .ok _, w' => Progress J w w'
  | .error _, w' => Acts J w w'

/-- What a part does, a call may do. -/
theorem Part.acts {α : Type} {w w' : AccountWorld ω} {result : Except Failure α}
    (h : Part J w result w') : Acts J w w' := by
  cases result with
  | ok a => exact .progress h
  | error e => exact h

theorem Part.same {α : Type} (w : AccountWorld ω) (result : Except Failure α) :
    Part J w result w := by
  cases result with
  | ok a => exact .refl
  | error e => exact .progress .refl

/-- A part that starts further on. -/
theorem Part.after {α : Type} {w w' : AccountWorld ω} {m : SessionM ω α} (h : Progress J w w')
    (hm : Outcome m w' (Part J w')) : Outcome m w' (Part J w) := by
  refine hm.mono ?_
  rintro (failure | a) w'' h'
  · exact Acts.trans h h'
  · exact Relation.ReflTransGen.trans h h'

/-- Parts follow each other. -/
theorem Part.bind {α β : Type} {w : AccountWorld ω} {m : SessionM ω α} {f : α → SessionM ω β}
    (hm : Outcome m w (Part J w)) (hf : ∀ a w', Outcome (f a) w' (Part J w')) :
    Outcome (m >>= f) w (Part J w) :=
  Outcome.call hm (fun a w' h => Part.after h (hf a w')) fun _ _ h => h

/-- The last part of a method may do anything a method ends with. -/
theorem Part.last {α β : Type} {w : AccountWorld ω} {m : SessionM ω α} {f : α → SessionM ω β}
    (hm : Outcome m w (Part J w))
    (hf : ∀ a w', Outcome (f a) w' fun _ w'' => Acts J w' w'') :
    Outcome (m >>= f) w fun _ w' => Acts J w w' := by
  refine Outcome.call hm ?_ ?_
  · intro a w' h
    exact (hf a w').mono fun _ w'' h' => Acts.trans h h'
  · intro e w' h
    exact h

namespace AccountSession

/-! ## Calls -/

/-- A call to the client: its request is logged with what it threw. -/
theorem call_spec (request : AccountRequest) (w : AccountWorld ω) :
    Outcome (call E request) w fun result w' =>
      match result with
      | .ok response => E.respond w.calls request = .ok response ∧
          w' = w.log (.request request none)
      | .error failure => w' = w.log (.request request (some failure)) := by
  unfold call
  rw [Outcome.get_bind_iff]
  cases hanswer : E.respond w.calls request with
  | ok response => exact Outcome.modify_bind_iff.mpr ⟨rfl, rfl⟩
  | error failure => exact Outcome.modify_bind_iff.mpr rfl

/-- A call whose rejection nothing handles. -/
theorem call_part {request : AccountRequest} (hhandled : request.handled = false)
    (hrevokes : request.revokes = false) (w : AccountWorld ω) :
    Outcome (call E request) w (Part J w) := by
  refine (call_spec request w).mono ?_
  rintro (failure | response) w' h
  · obtain rfl := h
    by_cases hrejected : failure.status = 401
    · exact .ending (.unnoticed w request failure hrejected hhandled)
    · refine .progress (.single (.answered w request _ ?_ ?_))
      · intro f hf
        exact Option.some.inj hf ▸ hrejected
      · exact fun hnone => (by cases hnone)
  · obtain ⟨_, rfl⟩ := h
    exact .single (.answered w request none (fun _ h => (by cases h)) fun _ => hrevokes)

/-- Erasing the record: it may be left where the store fails. -/
theorem storeClear_spec (w : AccountWorld ω) :
    Outcome (storeClear E) w fun _ w' => ∃ erased left, (erased = true → left = none) ∧
      w' = { w with record := left }.log (.erase erased) := by
  unfold storeClear
  rw [Outcome.get_bind_iff]
  cases E.eraseFails w.calls with
  | none => exact Outcome.modify_iff.mpr ⟨true, none, fun _ => rfl, rfl⟩
  | some left =>
    exact Outcome.modify_bind_iff.mpr ⟨false, left, fun h => (by cases h), rfl⟩

/-- Dropping the session: memory forgets it, the record is erased if it can be. -/
theorem discard_spec (w : AccountWorld ω) :
    Outcome (discard E) w fun _ w' => ∃ erased left, (erased = true → left = none) ∧
      w' = w.discarded erased left := by
  unfold discard
  rw [Outcome.modify_bind_iff]
  exact storeClear_spec _

/-- Saving: what was saved can be read again, or nothing is known of the record. -/
theorem storeSave_spec (next : SavedSession) (w : AccountWorld ω) :
    Outcome (storeSave J E next) w fun result w' =>
      match result with
      | .ok _ => (∃ read, decodeSession J (sessionText J next) = .ok read) ∧
          w' = { w with record := some (sessionText J next) }.log
            (.save (sessionText J next) .stored)
      | .error _ => Ending J w w' := by
  unfold storeSave
  dsimp only
  cases hread : decodeSession J (sessionText J next) with
  | error failure =>
    exact Outcome.modify_bind_iff.mpr
      (.unsaved w _ .unreadable w.record (by simp) fun _ => rfl)
  | ok read =>
    dsimp only
    rw [Outcome.get_bind_iff]
    cases E.storeFails w.calls with
    | none => exact Outcome.modify_iff.mpr ⟨⟨read, rfl⟩, rfl⟩
    | some left =>
      exact Outcome.modify_bind_iff.mpr (.unsaved w _ .notStored left (by simp) (by simp))

/-- A save of another record of the same user, and then its publication. -/
theorem resave_part {α : Type} {session next : SavedSession} {a : α} {w : AccountWorld ω}
    (hsession : w.session = some session) (huser : next.tokens.user.id = session.tokens.user.id) :
    Outcome (do
      storeSave J E next
      modify fun w : AccountWorld ω => { w with session := some next }
      pure a) w (Part J w) := by
  refine Outcome.call (storeSave_spec next w) ?_ ?_
  · rintro ⟨⟩ w' ⟨⟨read, hread⟩, rfl⟩
    rw [Outcome.modify_bind_iff]
    exact Outcome.pure_iff.mpr
      (.single (.resaved w session next read hsession huser hread))
  · intro e w' h
    exact .ending h

/-- The session that is made of tokens has these tokens. -/
theorem saved_part (tokens : Tokens) (w : AccountWorld ω) :
    Outcome (saved E tokens) w fun result w' => w' = w ∧
      ∀ next, result = .ok next → next.tokens = tokens := by
  unfold saved
  rw [Outcome.get_bind_iff, Outcome.guard_iff]
  refine ⟨fun _ => ⟨rfl, fun _ h => (by cases h)⟩, fun _ => Outcome.pure_iff.mpr ⟨rfl, ?_⟩⟩
  intro next h
  cases h
  rfl

/-- Asking for the session that must be there. -/
theorem theSession_spec (w : AccountWorld ω) :
    Outcome (theSession : SessionM ω SavedSession) w fun result w' => w' = w ∧
      match result with
      | .ok session => w.session = some session
      | .error _ => w.session = none := by
  unfold theSession
  rw [Outcome.get_bind_iff]
  cases w.session with
  | none => exact Outcome.throw_iff.mpr ⟨rfl, rfl⟩
  | some session => exact Outcome.pure_iff.mpr ⟨rfl, rfl⟩

/-- The test that every method begins with. -/
theorem requireGeneration_spec (generation : Nat) (w : AccountWorld ω) :
    Outcome (requireGeneration generation : SessionM ω Unit) w fun result w' => w' = w ∧
      ((∃ a, result = .ok a) ↔ w.restored = true ∧ generation = w.generation) := by
  unfold requireGeneration
  rw [Outcome.get_bind_iff]
  by_cases hstale : (!w.restored || generation != w.generation) = true
  · rw [if_pos hstale]
    refine Outcome.throw_iff.mpr ⟨rfl, iff_of_false (fun h => (by obtain ⟨_, h⟩ := h; cases h)) ?_⟩
    rintro ⟨hrestored, rfl⟩
    simp [hrestored] at hstale
  · rw [if_neg hstale]
    refine Outcome.pure_iff.mpr ⟨rfl, iff_of_true ⟨_, rfl⟩ ?_⟩
    simpa using hstale

theorem requireGeneration_part (generation : Nat) (w : AccountWorld ω) :
    Outcome (requireGeneration generation : SessionM ω Unit) w (Part J w) := by
  refine (requireGeneration_spec generation w).mono ?_
  rintro result _ ⟨rfl, _⟩
  exact .same _ _

/-! ## Rejected requests -/

/-- A part of a method under the handler: where it throws a rejection, that was its
last request. -/
def Attempt (J : JsonLib) (w : AccountWorld ω) {α : Type} :
    Except Failure α → AccountWorld ω → Prop
  | .ok _, w' => Progress J w w'
  | .error failure, w' => ∃ w₁, Progress J w w₁ ∧
      if failure.status = 401 then ∃ request, request.handled = true ∧
        w' = w₁.log (.request request (some failure))
      else w' = w₁

/-- One request that is handled: its rejection drops the session. -/
theorem call_attempt {request : AccountRequest} (hhandled : request.handled = true)
    (hrevokes : request.revokes = false) (w : AccountWorld ω) :
    Outcome (call E request) w (Attempt J w) := by
  refine (call_spec request w).mono ?_
  rintro (failure | response) w' h
  · obtain rfl := h
    by_cases hrejected : failure.status = 401
    · exact ⟨w, .refl, by rw [if_pos hrejected]; exact ⟨request, hhandled, rfl⟩⟩
    · refine ⟨_, .single (.answered w request (some failure) ?_ ?_), by rw [if_neg hrejected]⟩
      · intro f hf
        exact Option.some.inj hf ▸ hrejected
      · exact fun hnone => (by cases hnone)
  · obtain ⟨_, rfl⟩ := h
    exact .single (.answered w request none (fun _ h => (by cases h)) fun _ => hrevokes)

/-- One attempt after another. -/
theorem Attempt.bind {α β : Type} {w : AccountWorld ω} {m : SessionM ω α}
    {f : α → SessionM ω β} (hm : Outcome m w (Attempt J w))
    (hf : ∀ a w', Outcome (f a) w' (Attempt J w')) : Outcome (m >>= f) w (Attempt J w) := by
  refine Outcome.call hm ?_ ?_
  · intro a w' h
    refine (hf a w').mono ?_
    rintro (failure | b) w'' h'
    · obtain ⟨w₁, hprogress, hlast⟩ := h'
      exact ⟨w₁, Relation.ReflTransGen.trans h hprogress, hlast⟩
    · exact Relation.ReflTransGen.trans h h'
  · intro e w' h
    exact h

/-- **The common handler**: a rejection discards the session. -/
theorem discardRejected_part {α : Type} {body : SessionM ω α} {w : AccountWorld ω}
    (hbody : Outcome body w (Attempt J w)) :
    Outcome (discardRejected E body) w (Part J w) := by
  unfold discardRejected
  refine Outcome.tryCatch_iff.mpr (hbody.mono ?_)
  rintro (failure | a) w' h
  · obtain ⟨w₁, hprogress, hlast⟩ := h
    show Outcome _ w' _
    by_cases hrejected : failure.status = 401
    · rw [if_pos hrejected] at hlast ⊢
      obtain ⟨request, hhandled, rfl⟩ := hlast
      have hacts : ∀ erased left, (erased = true → left = none) → Acts J w
          ((w₁.log (.request request (some failure))).discarded erased left) :=
        fun erased left hleft =>
          ⟨w₁, hprogress, .rejected w₁ request failure erased left hrejected hhandled hleft⟩
      refine Outcome.call (discard_spec _) ?_ ?_
      · rintro ⟨⟩ w'' ⟨erased, left, hleft, rfl⟩
        exact hacts erased left hleft
      · rintro e w'' ⟨erased, left, hleft, rfl⟩
        exact hacts erased left hleft
    · rw [if_neg hrejected] at hlast ⊢
      obtain rfl := hlast
      exact .progress hprogress
  · exact h

/-- Under the handler a body returns what it returns without. -/
theorem discardRejected_ok {α : Type} {body : SessionM ω α} {w : AccountWorld ω}
    {P : α → AccountWorld ω → Prop}
    (hbody : Outcome body w fun result w' => ∀ a, result = .ok a → P a w') :
    Outcome (discardRejected E body) w fun result w' => ∀ a, result = .ok a → P a w' := by
  unfold discardRejected
  refine Outcome.tryCatch_iff.mpr (hbody.mono ?_)
  rintro (failure | a) w' h
  · -- what the handler ends with is a failure, its own or the one it caught
    have hthrows : ∀ w : AccountWorld ω, Outcome (throw failure : SessionM ω α) w fun result w' =>
        ∀ a, result = .ok a → P a w' := fun w => Outcome.throw_iff.mpr fun _ h => (by cases h)
    show Outcome _ w' _
    by_cases hrejected : failure.status = 401
    · rw [if_pos hrejected]
      exact Outcome.call (discard_spec _) (fun _ w _ => hthrows w) fun _ _ _ _ h => (by cases h)
    · rw [if_neg hrejected]
      exact hthrows w'
  · exact h

/-! ## The methods the others go through -/

/-- A request whose rejection drops the session, and what it leaves where it is answered. -/
theorem refresh_spec {request : AccountRequest} (hhandled : request.handled = true)
    (hrevokes : request.revokes = false) (w : AccountWorld ω) :
    Outcome (discardRejected E (call E request)) w fun result w' => Part J w result w' ∧
      ∀ a, result = .ok a → w' = w.log (.request request none) := by
  refine (discardRejected_part (call_attempt hhandled hrevokes w)).and (discardRejected_ok ?_)
  refine (call_spec request w).mono ?_
  rintro result w' h response rfl
  exact h.2

/-- Getting a token that has not run out. -/
theorem authorized_part (generation : Nat) (w : AccountWorld ω) :
    Outcome (authorized J E generation) w (Part J w) := by
  unfold authorized
  refine Part.bind (requireGeneration_part generation w) ?_
  rintro ⟨⟩ w
  rw [Outcome.get_bind_iff, Outcome.guard_iff]
  refine ⟨fun _ => .same w _, fun _ => ?_⟩
  refine Outcome.call (theSession_spec w) ?_ ?_
  swap
  · rintro e _ ⟨rfl, _⟩
    exact .same _ _
  rintro session _ ⟨rfl, hsession⟩
  rw [Outcome.guard_iff]
  refine ⟨fun _ => .same _ _, fun _ => ?_⟩
  rw [Outcome.ite_iff]
  refine ⟨fun _ => ?_, fun _ => .same _ _⟩
  refine Outcome.call (refresh_spec rfl rfl _) ?_ fun e w' h => h.1
  rintro refreshed w' ⟨hprogress, hcall⟩
  obtain rfl := hcall refreshed rfl
  refine Part.after hprogress ?_
  rw [Outcome.guard_iff]
  refine ⟨fun _ => .same _ _, fun hsame => ?_⟩
  refine Outcome.call (saved_part refreshed _) ?_ ?_
  · -- the refreshed tokens are another record of the same user
    rintro next _ ⟨rfl, hnext⟩
    refine resave_part hsession ?_
    rw [hnext next rfl]
    exact not_not.mp hsame
  · rintro e _ ⟨rfl, _⟩
    exact .same _ _

theorem readProfile_part (token : Bytes) (w : AccountWorld ω) :
    Outcome (readProfile J E token) w (Part J w) := by
  unfold readProfile
  refine Part.bind (discardRejected_part (call_attempt rfl rfl w)) ?_
  rintro profile w
  refine Outcome.call (theSession_spec w) ?_ ?_
  swap
  · rintro e _ ⟨rfl, _⟩
    exact .same _ _
  rintro session _ ⟨rfl, hsession⟩
  rw [Outcome.guard_iff]
  exact ⟨fun _ => .same _ _, fun hsame => resave_part hsession (not_not.mp hsame)⟩

theorem reviewedToken_part (review : PreferencesReview) (w : AccountWorld ω) :
    Outcome (reviewedToken J E review) w (Part J w) := by
  unfold reviewedToken
  refine Part.bind (requireGeneration_part _ w) ?_
  rintro ⟨⟩ w
  rw [Outcome.get_bind_iff, Outcome.guard_iff]
  exact ⟨fun _ => .same w _, fun _ => authorized_part _ w⟩

/-- An operation with such a token. -/
theorem withToken_part {α : Type} {generation : Nat} {operation : Bytes → SessionM ω α}
    (hoperation : ∀ token w, Outcome (operation token) w (Attempt J w)) (w : AccountWorld ω) :
    Outcome (withToken J E generation operation) w (Part J w) := by
  unfold withToken
  exact Part.bind (authorized_part generation w) fun token w' =>
    discardRejected_part (hoperation token w')

theorem runCallback_part (callback : Callback ω) (w : AccountWorld ω) :
    Outcome (runCallback callback) w (Part J w) := by
  have houtside : Benign J w { w with outside := (callback.exec w.outside).2 } := .outside w _
  unfold runCallback
  rw [Outcome.get_bind_iff]
  rcases hexec : callback.exec w.outside with ⟨_ | _, outside⟩ <;> rw [hexec] at houtside
  · exact Outcome.modify_bind_iff.mpr (.progress (.single houtside))
  · exact Outcome.modify_bind_iff.mpr (.single houtside)

/-! ## The public methods -/

/-- A save that publishes another session, as `login` and `link` end. -/
theorem signIn_acts {next : SavedSession} {w : AccountWorld ω} :
    Outcome (do
      storeSave J E next
      modify fun w : AccountWorld ω =>
        { w with session := some next, generation := w.generation + 1 }
      current) w fun _ w' => Acts J w w' := by
  refine Outcome.call (storeSave_spec next w) ?_ ?_
  · rintro ⟨⟩ w' ⟨⟨read, hread⟩, rfl⟩
    rw [Outcome.modify_bind_iff]
    exact Acts.ending (.signedIn w next read hread)
  · intro e w' h
    exact .ending h

/-- Reading the record when the program starts. -/
theorem restore_acts (w : AccountWorld ω) :
    Outcome (restore J E) w fun _ w' => Acts J w w' := by
  unfold restore storeLoad
  rw [Outcome.get_bind_iff]
  cases hrestored : w.restored with
  | true => exact Acts.progress .refl
  | false =>
    simp only [Bool.not_false, if_true]
    rw [Outcome.bind_iff, Outcome.get_bind_iff]
    by_cases hreachable : E.reachable w.calls = true
    · rw [if_pos hreachable]
      cases hrecord : w.record with
      | none => exact Acts.ending (.restoredNone w hrestored hrecord)
      | some text =>
        dsimp only
        rw [Outcome.modify_bind_iff]
        cases hread : decodeSession J text with
        | ok session => exact Acts.ending (.restored w text session hrestored hrecord hread)
        | error failure => exact Acts.ending (.unrestored w _ hrestored)
    · rw [if_neg hreachable]
      exact Acts.ending (.unrestored w _ hrestored)

/-- A callback is called only for the user it is for. -/
theorem withCurrentUser_acts (generation : Nat) (userId : Bytes) (operation : Callback ω)
    (w : AccountWorld ω) :
    Outcome (withCurrentUser generation userId operation) w fun _ w' => Acts J w w' := by
  unfold withCurrentUser
  refine Part.last (requireGeneration_part generation w) ?_
  rintro ⟨⟩ w
  rw [Outcome.get_bind_iff, Outcome.guard_iff]
  exact ⟨fun _ => .progress .refl,
    fun _ => (runCallback_part operation w).mono fun _ _ => Part.acts⟩

/-- Signing in: another session, in another generation. -/
theorem login_acts (generation : Nat) (challenge credential : Bytes) (w : AccountWorld ω) :
    Outcome (login J E generation challenge credential) w fun _ w' => Acts J w w' := by
  unfold login
  refine Part.last (requireGeneration_part generation w) ?_
  rintro ⟨⟩ w
  refine Part.last (call_part rfl rfl w) ?_
  intro tokens w
  refine Outcome.call (saved_part tokens w) ?_ ?_
  · rintro next _ ⟨rfl, _⟩
    exact signIn_acts
  · rintro e _ ⟨rfl, _⟩
    exact .progress .refl

/-- Linking keeps the user. -/
theorem link_acts (generation : Nat) (challenge credential : Bytes) (w : AccountWorld ω) :
    Outcome (link J E generation challenge credential) w fun _ w' => Acts J w w' := by
  unfold link
  refine Part.last (authorized_part generation w) ?_
  intro token w
  refine Part.last (call_part rfl rfl w) ?_
  intro tokens w
  refine Outcome.call (saved_part tokens w) ?_ ?_
  swap
  · rintro e _ ⟨rfl, _⟩
    exact .progress .refl
  rintro next _ ⟨rfl, _⟩
  refine Outcome.call (theSession_spec _) ?_ ?_
  swap
  · rintro e _ ⟨rfl, _⟩
    exact .progress .refl
  rintro session _ ⟨rfl, _⟩
  rw [Outcome.guard_iff]
  exact ⟨fun _ => .progress .refl, fun _ => signIn_acts⟩

/-- The request that revokes the session, and what follows its success. -/
theorem revoke_acts {request : AccountRequest} (hrevokes : request.revokes = true)
    (hhandled : request.handled = false) (w : AccountWorld ω) :
    Outcome (do
      let _ ← call E request
      discard E) w fun _ w' => Acts J w w' := by
  refine Outcome.call (call_spec request w) ?_ ?_
  · rintro response w' ⟨_, rfl⟩
    refine (discard_spec _).mono ?_
    rintro _ w'' ⟨erased, left, hleft, rfl⟩
    exact Acts.ending (.revoked w request erased left hrevokes hleft)
  · intro failure w' h
    obtain rfl := h
    by_cases hrejected : failure.status = 401
    · exact .ending (.unnoticed w request failure hrejected hhandled)
    · refine .progress (.single (.answered w request _ ?_ fun h => (by cases h)))
      intro f hf
      exact Option.some.inj hf ▸ hrejected

end AccountSession

/-! ## What a method asks for -/

/-- Calls were made, and the requests among them are such. -/
def Asks (P : AccountRequest → Prop) (w w' : AccountWorld ω) : Prop :=
  ∃ new, w'.calls = w.calls ++ new ∧ ∀ request failure, .request request failure ∈ new → P request

section

variable {P : AccountRequest → Prop} {w w₁ w₂ : AccountWorld ω}

theorem Asks.refl (w : AccountWorld ω) : Asks P w w := by
  refine ⟨[], (List.append_nil _).symm, ?_⟩
  intro request failure h
  cases h

theorem Asks.trans (h : Asks P w w₁) (h' : Asks P w₁ w₂) : Asks P w w₂ := by
  obtain ⟨new, hcalls, hnew⟩ := h
  obtain ⟨new', hcalls', hnew'⟩ := h'
  refine ⟨new ++ new', by rw [hcalls', hcalls, List.append_assoc], ?_⟩
  intro request failure hmem
  rcases List.mem_append.mp hmem with hmem | hmem
  · exact hnew request failure hmem
  · exact hnew' request failure hmem

/-- One more call. -/
theorem Asks.logged {call : AccountCall} {record : Option Bytes}
    (h : ∀ request failure, call = .request request failure → P request) :
    Asks P w ({ w with record := record }.log call) := by
  refine ⟨[call], rfl, fun request failure hmem => h request failure ?_⟩
  exact (List.mem_singleton.mp hmem).symm

namespace AccountSession

/-- A request is asked for by itself. -/
theorem call_asks {request : AccountRequest} (hrequest : P request) (w : AccountWorld ω) :
    Outcome (call E request) w fun _ w' => Asks P w w' := by
  refine (call_spec request w).mono ?_
  rintro (failure | response) w' h
  · obtain rfl := h
    exact Asks.logged fun _ _ heq => by cases heq; exact hrequest
  · obtain ⟨-, rfl⟩ := h
    exact Asks.logged fun _ _ heq => by cases heq; exact hrequest

/-- Nothing is asked for where the session is dropped. -/
theorem discard_asks (w : AccountWorld ω) : Outcome (discard E) w fun _ w' => Asks P w w' := by
  refine (discard_spec w).mono ?_
  rintro result w' ⟨erased, left, -, rfl⟩
  refine ⟨[.erase erased], rfl, fun request failure hmem => ?_⟩
  cases List.mem_singleton.mp hmem

/-- Nor is anything where it is saved. -/
theorem storeSave_asks (next : SavedSession) (w : AccountWorld ω) :
    Outcome (storeSave J E next) w fun _ w' => Asks P w w' := by
  unfold storeSave
  dsimp only
  split
  · exact Outcome.modify_bind_iff.mpr (Outcome.throw_iff.mpr (Asks.logged nofun))
  · rw [Outcome.get_bind_iff]
    split
    · exact Outcome.modify_iff.mpr (Asks.logged nofun)
    · exact Outcome.modify_bind_iff.mpr (Outcome.throw_iff.mpr (Asks.logged nofun))

/-- The handler adds no request. -/
theorem discardRejected_asks {α : Type} {body : SessionM ω α}
    (hbody : Outcome body w fun _ w' => Asks P w w') :
    Outcome (discardRejected E body) w fun _ w' => Asks P w w' := by
  unfold discardRejected
  refine Outcome.tryCatch_iff.mpr (hbody.mono ?_)
  rintro (failure | a) w' h
  · show Outcome _ w' _
    split
    · refine Outcome.call (discard_asks w') (fun _ w₂ h₂ => ?_) fun _ w₂ h₂ => h.trans h₂
      exact Outcome.throw_iff.mpr (h.trans h₂)
    · exact Outcome.throw_iff.mpr h
  · exact h

theorem theSession_asks (w : AccountWorld ω) :
    Outcome (theSession : SessionM ω SavedSession) w fun _ w' => w' = w :=
  (theSession_spec w).mono fun _ _ h => h.1

/-- Getting a token asks for a refresh at most. -/
theorem authorized_asks (hrefresh : ∀ token, P (.refresh token)) (generation : Nat)
    (w : AccountWorld ω) :
    Outcome (authorized J E generation) w fun _ w' => Asks P w w' := by
  unfold authorized
  refine Outcome.call (requireGeneration_spec generation w) ?_ ?_
  swap
  · rintro e _ ⟨rfl, -⟩
    exact .refl _
  rintro ⟨⟩ _ ⟨rfl, -⟩
  rw [Outcome.get_bind_iff, Outcome.guard_iff]
  refine ⟨fun _ => .refl _, fun _ => ?_⟩
  refine Outcome.call (theSession_asks _) ?_ fun _ _ h => h ▸ .refl _
  rintro session _ rfl
  rw [Outcome.guard_iff]
  refine ⟨fun _ => .refl _, fun _ => ?_⟩
  rw [Outcome.ite_iff]
  refine ⟨fun _ => ?_, fun _ => Outcome.pure_iff.mpr (.refl _)⟩
  refine Outcome.call (discardRejected_asks (call_asks (hrefresh _) _)) ?_ fun _ _ h => h
  intro refreshed w₁ h₁
  rw [Outcome.guard_iff]
  refine ⟨fun _ => h₁, fun _ => ?_⟩
  refine Outcome.call (saved_part refreshed w₁) ?_ ?_
  swap
  · rintro e _ ⟨rfl, -⟩
    exact h₁
  rintro next _ ⟨rfl, -⟩
  refine Outcome.call (storeSave_asks next _) (fun _ w₂ h₂ => ?_) fun _ w₂ h₂ => h₁.trans h₂
  rw [Outcome.modify_bind_iff]
  exact Outcome.pure_iff.mpr (h₁.trans h₂)

/-- **What a restore asks for**: new tokens, and this restore. -/
theorem restoreSnapshot_asks (generation size : Nat) (revision : Int64) (w : AccountWorld ω) :
    Outcome (restoreSnapshot J E generation size revision) w fun _ w' =>
      Asks (fun request => (∃ token, request = .refresh token) ∨
        ∃ token, request = .restoreSnapshot size revision token) w w' := by
  unfold restoreSnapshot withToken
  refine Outcome.call (authorized_asks (fun token => .inl ⟨token, rfl⟩) generation w)
    (fun token w₁ h₁ => ?_) fun _ _ h => h
  exact (discardRejected_asks (call_asks (.inr ⟨token, rfl⟩) w₁)).mono fun _ _ h => h₁.trans h

/-- What a restore returns is what the client has returned, last of all. -/
theorem restoreSnapshot_answer (generation size : Nat) (revision : Int64) (w : AccountWorld ω) :
    Outcome (restoreSnapshot J E generation size revision) w fun result w' =>
      ∀ updated, result = .ok updated → ∃ log token,
        w'.calls = log ++ [.request (.restoreSnapshot size revision token) none] ∧
          E.respond log (.restoreSnapshot size revision token) = .ok updated := by
  unfold restoreSnapshot withToken
  refine Outcome.call (P := fun _ _ => True) trivial (fun token w₁ _ => ?_) fun _ _ _ _ h => by
    cases h
  refine discardRejected_ok (P := fun updated w' => ∃ log token,
    w'.calls = log ++ [.request (.restoreSnapshot size revision token) none] ∧
      E.respond log (.restoreSnapshot size revision token) = .ok updated) ?_
  refine (call_spec _ w₁).mono ?_
  rintro result w' h updated rfl
  obtain ⟨hanswer, rfl⟩ := h
  exact ⟨w₁.calls, token, rfl, hanswer⟩

/-- A download that returns was answered so, last of all, and it is the only one asked for. -/
theorem downloadSnapshot_answer (generation : Nat) (w : AccountWorld ω) :
    Outcome (downloadSnapshot J E generation) w fun result w' =>
      result = .ok () → ∃ new token,
        w'.calls = (w.calls ++ new) ++ [.request (.downloadSnapshot token) none] ∧
          ∀ token failure, .request (.downloadSnapshot token) failure ∉ new := by
  unfold downloadSnapshot withToken
  refine Outcome.call (authorized_asks (P := fun request => ∃ token, request = .refresh token)
    (fun token => ⟨token, rfl⟩) generation w) ?_ fun _ _ _ h => by cases h
  rintro token w₁ ⟨new, hcalls, hnew⟩
  refine (discardRejected_ok (P := fun _ w' => ∃ new token,
    w'.calls = (w.calls ++ new) ++ [.request (.downloadSnapshot token) none] ∧
      ∀ token failure, .request (.downloadSnapshot token) failure ∉ new) ?_).mono
    fun _ _ h hok => h () hok
  refine (call_spec _ w₁).mono ?_
  rintro result w' h ⟨⟩ rfl
  obtain ⟨-, rfl⟩ := h
  refine ⟨new, token, congrArg (· ++ _) hcalls, fun other failure hmem => ?_⟩
  obtain ⟨refreshed, heq⟩ := hnew _ _ hmem
  cases heq

end AccountSession

end

end MsimeLinux
