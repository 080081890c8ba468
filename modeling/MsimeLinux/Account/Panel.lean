import MsimeLinux.Account.SessionRequests

/-!
# The account panel (`AccountPanel.cpp`)

One worker at a time acts for the panel, on a thread of its own; what the main loop does
before and after it is in `click` and `finished`. A dictionary window shares the session of
the panel, so its operations come between any two calls of the worker. Time passes whenever
it likes. Every call is written down: who was signed in then, in which generation, what it
asked for, and whether it returned.

- `Backed`: the challenge on hand comes from a challenge request, for its purpose, generation
  and deadline; every step keeps it.
- `challenge_bound`: what a login or link redeems.
-/

namespace MsimeLinux

open Lib AccountSession

/-! ## The panel -/

/-- `Action` (AccountPanel.cpp:46). -/
inductive PanelAction where
  | restore
  | challenge
  | login
  | logout
  | delete
  | profile
  | rename
  | clipboardLoad
  | clipboardToggle
  | clipboardAdd
  | clipboardDelete
  | clipboardClear
  | settingsUploadReview
  | settingsDownloadReview
  | settingsUpload
  | settingsDownload
  deriving DecidableEq

/-- What a confirmed review goes on with (AccountPanel.cpp:310). -/
def PanelAction.confirmed : PanelAction → Option PanelAction
  | settingsUploadReview => some settingsUpload
  | settingsDownloadReview => some settingsDownload
  | _ => none

/-- `Work` (AccountPanel.cpp:66): what the widgets held at the click, and the review. -/
structure PanelWork where
  action : PanelAction
  provider : Bytes := []
  target : Bytes := []
  code : Bytes := []
  nickname : Bytes := []
  query : Bytes := []
  clipText : Bytes := []
  clipId : Bytes := []
  review : Option PreferencesReview := none
  hasChanges : Bool := false

/-- How far the worker is. A login goes on from `signingIn` once its checks have passed, at
`checked`. -/
inductive PanelStage where
  | begun
  | sending
  | signingIn (checked : Int)
  | profile
  | providers

/-- `ending` is the worker before it takes its last look at the session, `returned` is
before `finished` runs. -/
inductive PanelPhase where
  | idle
  | working (work : PanelWork) (stage : PanelStage)
  | ending (work : PanelWork) (success : Bool)
  | returned (work : PanelWork) (success : Bool)

def PanelPhase.isIdle : PanelPhase → Bool
  | idle => true
  | _ => false

def PanelPhase.isWorking : PanelPhase → Bool
  | working .. => true
  | _ => false

def PanelPhase.isEnding : PanelPhase → Bool
  | ending .. => true
  | _ => false

def PanelPhase.isReturned : PanelPhase → Bool
  | returned .. => true
  | _ => false

/-- A call: of the client, for a challenge to log in with, or of the session. -/
inductive PanelCall where
  | challenge (provider target : Bytes)
  | session (operation : SessionOperation Unit)

/-- `{}` (AccountPanel.cpp:156). -/
def noChallenge : Challenge := ⟨[], 0, [], []⟩

/-- One call, and what came of it: who was signed in when it was made, what it asked of the
backend, and the challenge it returned. A login or link was decided on at `checked`. -/
structure Exchange where
  call : PanelCall
  generation : Nat
  userId : Option Bytes
  now : Int
  checked : Option Int
  made : List AccountCall
  returned : Bool
  challenge : Challenge

/-- `Panel` (AccountPanel.cpp:14): the session, what the panel knows of it, the calls made so
far, and the time. -/
structure Panel where
  account : AccountWorld Unit
  snapshot : AccountSnapshot := ⟨0, none⟩
  profile : Option Profile := none
  challenge : Challenge := noChallenge
  challengeGeneration : Nat := 0
  challengeIsLink : Bool := false
  challengeDeadline : Int := 0
  cloudSnapshot : ClipboardSnapshot := ⟨false, []⟩
  cloudGeneration : Nat := 0
  cloudLoaded : Bool := false
  ready : Bool := false
  closed : Bool := false
  phase : PanelPhase
  now : Int := 0
  trace : List Exchange := []

/-- What the worker cannot foresee: the session's surroundings, the local settings, and
whether the providers are told. -/
structure PanelEnv where
  account : AccountEnv
  unreadable : Option Failure := none
  compared : PreferencesReview → Except Failure Bool := fun _ => .ok false
  exported : PreferenceSettings := ∅
  apply : Callback Unit := (pure () : Throwing Failure Unit Unit)
  unlisted : Option Failure := none

namespace Panel

variable (J : JsonLib)

/-- The panel as it is built, with the restore it begins with (AccountPanel.cpp:595). -/
def initial (record : Option Bytes) : Panel :=
  { account := .initial record (), phase := .working { action := .restore } .begun }

/-- Which buttons there are (AccountPanel.cpp:99). -/
def offers (p : Panel) : PanelAction → Bool
  | .restore => !p.ready
  | .challenge => p.ready
  | .login => p.ready && !p.challenge.id.isEmpty
  | .clipboardToggle => p.snapshot.user.isSome && p.cloudLoaded
  | .clipboardAdd => p.snapshot.user.isSome && p.cloudLoaded && p.cloudSnapshot.enabled
  | .settingsUpload | .settingsDownload => false
  | _ => p.snapshot.user.isSome

/-! ## The worker -/

def goesOn (p : Panel) (work : PanelWork) (stage : PanelStage) : Panel :=
  { p with phase := .working work stage }

def ends (p : Panel) (work : PanelWork) (success : Bool) : Panel :=
  { p with phase := .ending work success }

/-- A call as it is written down. -/
def exchange (p : Panel) (call : PanelCall) (checked : Option Int) (account : AccountWorld Unit)
    (returned : Bool) (challenge : Challenge) : Exchange where
  call := call
  generation := p.account.generation
  userId := p.account.userId
  now := p.now
  checked := checked
  made := account.calls.drop p.account.calls.length
  returned := returned
  challenge := challenge

/-- The panel after it. -/
def asked (p : Panel) (call : PanelCall) (checked : Option Int) (account : AccountWorld Unit)
    (returned : Bool) (challenge : Challenge) : Panel :=
  { p with
    account := account
    trace := p.trace ++ [p.exchange call checked account returned challenge] }

/-- A call of the worker; what it throws ends the work. -/
def perform {α : Type} (p : Panel) (work : PanelWork) (call : PanelCall) (checked : Option Int)
    (m : SessionM Unit α) (answer : α → Challenge) (go : α → Panel → Panel) : Panel :=
  match m.exec p.account with
  | (.ok a, account) => go a (p.asked call checked account true (answer a))
  | (.error _, account) => (p.asked call checked account false noChallenge).ends work false

/-- A call that is all there is to an action. -/
def only {α : Type} (p : Panel) (work : PanelWork) (operation : SessionOperation Unit)
    (m : SessionM Unit α) (go : α → Panel → Panel) : Panel :=
  p.perform work (.session operation) none m (fun _ => noChallenge) fun a p =>
    (go a p).ends work true

/-- What a clipboard operation leaves on display (AccountPanel.cpp:168). -/
def clipboardShown (loaded : Bool) (cloud : ClipboardSnapshot) (p : Panel) : Panel :=
  { p with
    cloudSnapshot := cloud
    cloudGeneration := p.snapshot.generation
    cloudLoaded := p.cloudLoaded || loaded }

/-- The local settings and the remote ones are compared (AccountPanel.cpp:186). -/
def reviewSettings (E : PanelEnv) (p : Panel) (work : PanelWork) : Panel :=
  if E.unreadable.isSome then p.ends work false
  else
    p.perform work (.session (.reviewPreferences p.snapshot.generation)) none
      (AccountSession.reviewPreferences J E.account p.snapshot.generation) (fun _ => noChallenge)
      fun review p =>
        match E.compared review with
        | .ok changes => p.ends { work with review := some review, hasChanges := changes } true
        | .error _ => p.ends work false

/-- The switch of `worker` (AccountPanel.cpp:130), up to the first call of the session where
there are several. -/
def begin (E : PanelEnv) (p : Panel) (work : PanelWork) : Panel :=
  let g := p.snapshot.generation
  match work.action with
  | .restore =>
    p.perform work (.session .restore) none (AccountSession.restore J E.account)
      (fun _ => noChallenge) fun snapshot p =>
        { p with snapshot := snapshot }.goesOn work
          (if snapshot.user.isSome then .profile else .providers)
  | .challenge =>
    { p with
      challengeIsLink := p.snapshot.user.isSome
      challengeGeneration := g }.goesOn work .sending
  | .login =>
    if p.challenge.id.isEmpty || p.now ≥ p.challengeDeadline || p.challengeGeneration != g ||
        p.challengeIsLink != p.snapshot.user.isSome then
      p.ends work false
    else p.goesOn work (.signingIn p.now)
  | .profile =>
    p.only work (.profile g) (AccountSession.profile J E.account g) fun profile p =>
      { p with profile := some profile }
  | .rename =>
    p.only work (.rename g work.nickname) (AccountSession.rename J E.account g work.nickname)
      fun profile p => { p with profile := some profile }
  | .clipboardLoad =>
    p.only work (.clipboard g work.query) (AccountSession.clipboard J E.account g work.query)
      (clipboardShown true)
  | .clipboardToggle =>
    p.only work (.setClipboardEnabled g !p.cloudSnapshot.enabled)
      (AccountSession.setClipboardEnabled J E.account g !p.cloudSnapshot.enabled)
      (clipboardShown false)
  | .clipboardAdd =>
    p.only work (.addClipboard g work.clipText)
      (AccountSession.addClipboard J E.account g work.clipText) (clipboardShown false)
  | .clipboardDelete | .clipboardClear =>
    p.only work (.deleteClipboard g work.clipId)
      (AccountSession.deleteClipboard J E.account g work.clipId) (clipboardShown false)
  | .settingsUploadReview | .settingsDownloadReview => p.reviewSettings J E work
  | .settingsUpload =>
    match E.unreadable, work.review with
    | none, some review =>
      p.only work (.uploadPreferences review E.exported)
        (AccountSession.uploadPreferences J E.account review E.exported) fun _ p => p
    | _, _ => p.ends work false
  | .settingsDownload =>
    match E.unreadable, work.review with
    | none, some review =>
      p.only work (.applyPreferences review E.apply)
        (AccountSession.applyPreferences J E.account review E.apply) fun _ p => p
    | _, _ => p.ends work false
  | .logout =>
    p.only work (.logout g false) (AccountSession.logout J E.account g false) fun _ p => p
  | .delete =>
    p.only work (.deleteAccount g) (AccountSession.deleteAccount J E.account g) fun _ p => p

/-- The challenge request of `worker` (AccountPanel.cpp:142). -/
def send (E : PanelEnv) (p : Panel) (work : PanelWork) : Panel :=
  let received (challenge : Challenge) (p : Panel) : Panel :=
    { p with
      challenge := challenge
      challengeDeadline := p.now + challenge.expiresIn.toInt * 1000000 }.ends work true
  if p.challengeIsLink then
    p.perform work (.session (.beginLink p.snapshot.generation work.provider work.target)) none
      (AccountSession.beginLink J E.account p.snapshot.generation work.provider work.target) id
      received
  else
    p.perform work (.challenge work.provider work.target) none
      (call E.account (.challenge work.provider work.target [])) id received

/-- Somebody has signed in (AccountPanel.cpp:156). -/
def entered (work : PanelWork) (snapshot : AccountSnapshot) (p : Panel) : Panel :=
  { p with
    snapshot := snapshot
    challenge := noChallenge
    profile := none }.goesOn work .profile

/-- The login or link of `worker` (AccountPanel.cpp:153). -/
def signIn (E : PanelEnv) (p : Panel) (work : PanelWork) (checked : Int) : Panel :=
  let g := p.snapshot.generation
  if p.challengeIsLink then
    p.perform work (.session (.link g p.challenge.id work.code)) (some checked)
      (AccountSession.link J E.account g p.challenge.id work.code) (fun _ => noChallenge)
      (entered work)
  else
    p.perform work (.session (.login g p.challenge.id work.code)) (some checked)
      (AccountSession.login J E.account g p.challenge.id work.code) (fun _ => noChallenge)
      (entered work)

/-- The profile after a restore or a login (AccountPanel.cpp:135, AccountPanel.cpp:158). -/
def askProfile (E : PanelEnv) (p : Panel) (work : PanelWork) : Panel :=
  p.perform work (.session (.profile p.snapshot.generation)) none
    (AccountSession.profile J E.account p.snapshot.generation) (fun _ => noChallenge)
    fun profile p =>
      if work.action = .restore then { p with profile := some profile }.goesOn work .providers
      else { p with profile := some profile }.ends work true

/-- The providers after a restore (AccountPanel.cpp:136). -/
def askProviders (E : PanelEnv) (p : Panel) (work : PanelWork) : Panel :=
  if E.unlisted.isSome then p.ends work false else { p with ready := true }.ends work true

/-- `worker` (AccountPanel.cpp:123), from one call to the next. -/
def worker (E : PanelEnv) (p : Panel) (work : PanelWork) : PanelStage → Panel
  | .begun => p.begin J E work
  | .sending => p.send J E work
  | .signingIn checked => p.signIn J E work checked
  | .profile => p.askProfile J E work
  | .providers => p.askProviders E work

/-! ## The main loop -/

/-- `finished` (AccountPanel.cpp:272), with the answer to its dialog. -/
def finished (p : Panel) (work : PanelWork) (success confirmed : Bool) : Panel :=
  if p.closed then { p with phase := .idle }
  else
    match work.action.confirmed, success && work.hasChanges && confirmed with
    | some action, true => p.goesOn { work with action := action } .begun
    | _, _ =>
      let stale := p.cloudGeneration != p.snapshot.generation || p.snapshot.user.isNone
      { p with
        profile := if p.snapshot.user.isNone then none else p.profile
        cloudSnapshot := if stale then ⟨false, []⟩ else p.cloudSnapshot
        cloudLoaded := !stale && p.cloudLoaded
        challenge :=
          if p.challengeGeneration ≠ p.snapshot.generation then noChallenge else p.challenge
        phase := .idle }

end Panel

/-- What can happen next. -/
inductive PanelEvent where
  | click (work : PanelWork)
  | worker (E : PanelEnv)
  | refresh
  | finished (confirmed : Bool)
  | changeAccount
  | close
  | dictionary (E : AccountEnv) (operation : SessionOperation Unit)
  | elapse (duration : Nat)

/-- What a dictionary window does with the session (DictionaryWindow.cpp, with the reviews it
prepares). -/
def SessionOperation.ofDictionary {ω : Type} : SessionOperation ω → Bool
  | withCurrentUser .. | dictionary .. | dictionaryCatalog .. | manageDictionary ..
  | editDictionary .. | importDictionary .. | importHanDictionary .. | exportDictionary ..
  | downloadSnapshot .. | restoreSnapshot .. => true
  | _ => false

namespace Panel

variable (J : JsonLib)

/-- When it can. While a worker runs the panel is insensitive (AccountPanel.cpp:432). -/
def Allowed (p : Panel) : PanelEvent → Prop
  | .click work => p.phase.isIdle ∧ p.closed = false ∧ p.offers work.action = true
  | .worker _ => p.phase.isWorking
  | .refresh => p.phase.isEnding
  | .finished _ => p.phase.isReturned
  | .changeAccount => p.phase.isIdle ∧ p.closed = false
  | .dictionary _ operation => operation.ofDictionary = true
  | .close | .elapse _ => True

/-- The worker goes on. -/
def workerNext (E : PanelEnv) (p : Panel) : Panel :=
  match p.phase with
  | .working work stage => p.worker J E work stage
  | _ => p

/-- `p.snapshot = p.session.snapshot()` (AccountPanel.cpp:269). -/
def refreshed (p : Panel) : Panel :=
  match p.phase with
  | .ending work success =>
    { p with snapshot := p.account.snapshot, phase := .returned work success }
  | _ => p

def finishedNext (confirmed : Bool) (p : Panel) : Panel :=
  match p.phase with
  | .returned work success => p.finished work success confirmed
  | _ => p

/-- What happens then. -/
def next (p : Panel) : PanelEvent → Panel
  | .click work => p.goesOn work .begun
  | .worker E => p.workerNext J E
  | .refresh => p.refreshed
  | .finished confirmed => p.finishedNext confirmed
  -- the button "更换登录账号" (AccountPanel.cpp:583)
  | .changeAccount => { p with challenge := noChallenge }
  | .close => { p with closed := true }
  | .dictionary E operation =>
    p.asked (.session operation) none (operation.after J E p.account)
      ((operation.perform J E).exec p.account).1.isOk noChallenge
  | .elapse duration => { p with now := p.now + duration }

/-- A step of the panel, of its worker, of a dictionary window or of time. -/
def Step (p : Panel) (e : PanelEvent) (q : Panel) : Prop := p.Allowed e ∧ q = p.next J e

end Panel

/-! ## Challenges and their use -/

/-- A session with a challenge of its own to redeem. -/
def Exchange.SignsIn (e : Exchange) : Prop :=
  (∃ operation, e.call = .session operation ∧ operation.isLogin = true) ∧ e.returned = true

/-- It asks the backend to redeem this challenge. -/
def Exchange.Redeems (e : Exchange) (challenge : Bytes) : Prop :=
  ∃ credential token failure,
    .request (.login challenge credential token) failure ∈ e.made

/-- The moment a challenge expires: it was counted from its arrival (AccountPanel.cpp:145). -/
def Exchange.deadline (e : Exchange) : Int := e.now + e.challenge.expiresIn.toInt * 1000000

/-- A challenge was asked for and obtained: to log in, while nobody was signed in, or to link,
for who was. -/
inductive Exchange.Issues (e : Exchange) : Prop
  | login (provider target : Bytes) : e.call = .challenge provider target → e.userId = none →
      e.made = [.request (.challenge provider target []) none] → Exchange.Issues e
  | link (provider target token : Bytes) :
      e.call = .session (.beginLink e.generation provider target) → e.userId ≠ none →
      .request (.challenge provider target token) none ∈ e.made → Exchange.Issues e

/-- A login with a challenge to log in, a link with a challenge to link that the same user has
obtained. -/
inductive Exchange.Serves (issue use : Exchange) : Prop
  | login (provider target code : Bytes) : issue.call = .challenge provider target →
      use.call = .session (.login use.generation issue.challenge.id code) →
      Exchange.Serves issue use
  | link (provider target code : Bytes) :
      issue.call = .session (.beginLink issue.generation provider target) →
      use.call = .session (.link use.generation issue.challenge.id code) →
      issue.userId = use.userId → use.userId ≠ none → Exchange.Serves issue use

/-- **What backs a redeemed challenge**: the last exchange that obtained it, in the generation
there still is, whose deadline had not passed at the panel's check; and nobody has signed in
since. -/
structure Backs (earlier : List Exchange) (issue use : Exchange) : Prop where
  issues : issue.Issues
  serves : issue.Serves use
  generation : issue.generation = use.generation
  checked : ∃ checked, use.checked = some checked ∧ checked < issue.deadline
  last : ∃ before between, earlier = before ++ issue :: between ∧ ∀ e ∈ between, ¬ e.SignsIn

/-- Every redeemed challenge is backed. -/
def Justified (trace : List Exchange) : Prop :=
  ∀ earlier use later challenge, trace = earlier ++ use :: later → use.Redeems challenge →
    challenge ≠ [] ∧ ∃ issue, Backs earlier issue use ∧ issue.challenge.id = challenge

/-- One exchange more: if it redeems a challenge, that challenge was issued before. -/
theorem Justified.snoc {trace : List Exchange} {e : Exchange} (h : Justified trace)
    (he : ∀ challenge, e.Redeems challenge →
      challenge ≠ [] ∧ ∃ issue, Backs trace issue e ∧ issue.challenge.id = challenge) :
    Justified (trace ++ [e]) := by
  intro earlier use later challenge hsplit huse
  rcases List.eq_nil_or_concat later with rfl | ⟨later', last, rfl⟩
  · obtain ⟨rfl, heq⟩ := List.append_inj' hsplit rfl
    cases heq
    exact he challenge huse
  · rw [List.concat_eq_append, ← List.cons_append, ← List.append_assoc] at hsplit
    exact h earlier use later' challenge (List.append_inj' hsplit rfl).1 huse

/-! ## Invariants -/

/-- Who was signed in, as the panel knows it. -/
def AccountSnapshot.userId (s : AccountSnapshot) : Option Bytes := s.user.map User.id

theorem AccountWorld.snapshot_userId {ω : Type} (w : AccountWorld ω) :
    w.snapshot.userId = w.userId := by
  unfold AccountWorld.snapshot AccountSnapshot.userId AccountWorld.userId
  rw [Option.map_map]
  rfl

theorem AccountSnapshot.userId_isSome (s : AccountSnapshot) :
    s.userId.isSome = s.user.isSome := Option.isSome_map

/-- The session stays in its generation with its user, or goes on to the next one. -/
def Proceeds (w w' : AccountWorld Unit) : Prop :=
  w'.generation = w.generation ∧ w'.userId = w.userId ∨ w'.generation = w.generation + 1

/-- And it does the latter only where somebody was signed in. -/
def Moves (w w' : AccountWorld Unit) : Prop :=
  w'.generation = w.generation ∧ w'.userId = w.userId ∨
    w'.generation = w.generation + 1 ∧ w.userId ≠ none

theorem Moves.proceeds {w w' : AccountWorld Unit} (h : Moves w w') : Proceeds w w' :=
  h.imp_right And.left

/-- Generations do not go back. -/
theorem Proceeds.le {w w' : AccountWorld Unit} (h : Proceeds w w') :
    w.generation ≤ w'.generation := by
  obtain ⟨hgeneration, -⟩ | hgeneration := h
  · exact hgeneration.ge
  · exact (Nat.le_succ _).trans_eq hgeneration.symm

/-- What is known of a generation there was is still known of it. -/
theorem Proceeds.user {w w' : AccountWorld Unit} (h : Proceeds w w') {g : Nat}
    {userId : Option Bytes} (hle : g ≤ w.generation) (huser : g = w.generation → userId = w.userId)
    (hsame : g = w'.generation) : userId = w'.userId := by
  obtain ⟨hgeneration, hkept⟩ | hgeneration := h
  · exact (huser (hsame.trans hgeneration)).trans hkept.symm
  · omega

namespace Panel

/-- The challenge on hand is that of an exchange, with its purpose, generation and deadline,
and nobody has signed in since. -/
structure Backed (p : Panel) (issue : Exchange) : Prop where
  issues : issue.Issues
  challenge : issue.challenge = p.challenge
  deadline : issue.deadline = p.challengeDeadline
  generation : issue.generation = p.challengeGeneration
  isLink : p.challengeIsLink = issue.userId.isSome
  last : ∃ before between, p.trace = before ++ issue :: between ∧ ∀ e ∈ between, ¬ e.SignsIn
  le : issue.generation ≤ p.account.generation
  user : issue.generation = p.account.generation → issue.userId = p.account.userId
  known : issue.generation = p.snapshot.generation → issue.userId = p.snapshot.userId

/-- What the fields of the panel mean, at any moment. -/
structure Known (p : Panel) : Prop where
  le : p.snapshot.generation ≤ p.account.generation
  user : p.snapshot.generation = p.account.generation → p.snapshot.userId = p.account.userId
  backed : p.challenge.id ≠ [] → ∃ issue, p.Backed issue
  justified : Justified p.trace

/-- And between two calls of the worker: nobody signs in behind the panel's back. -/
structure Bound (p : Panel) : Prop extends p.Known where
  signedOut : p.snapshot.user = none → p.snapshot.generation = p.account.generation

/-- The challenge on hand is for the generation the panel knows. -/
def Current (p : Panel) : Prop :=
  p.challenge.id ≠ [] → p.challengeGeneration = p.snapshot.generation

/-- And for what would be asked now. -/
def Fitting (p : Panel) : Prop :=
  p.challengeGeneration = p.snapshot.generation ∧ p.challengeIsLink = p.snapshot.user.isSome

/-- What the worker has made sure of. -/
def Ready (p : Panel) : Prop :=
  match p.phase with
  | .idle => p.closed = false → p.Current
  | .working work .begun => work.action = .challenge ∨ work.action = .login → p.Current
  | .working _ .sending => p.Fitting
  | .working _ (.signingIn checked) =>
    p.challenge.id ≠ [] ∧ checked < p.challengeDeadline ∧ p.Fitting
  | _ => True

variable {p : Panel} {call : PanelCall} {checked : Option Int} {account : AccountWorld Unit}
  {returned : Bool} {challenge : Challenge}

/-- It redeems a challenge successfully. -/
def Enters (call : PanelCall) (returned : Bool) : Prop :=
  (∃ operation, call = .session operation ∧ operation.isLogin = true) ∧ returned = true

/-- An issue that backs the challenge still does after another call, unless that call signs in. -/
theorem Backed.asked {issue : Exchange} (h : p.Backed issue)
    (hproceeds : Proceeds p.account account) (hcall : ¬ Enters call returned) :
    (p.asked call checked account returned challenge).Backed issue := by
  obtain ⟨before, between, htrace, hbetween⟩ := h.last
  refine { h with last := ?_, le := h.le.trans hproceeds.le, user := hproceeds.user h.le h.user }
  refine ⟨before, between ++ [p.exchange call checked account returned challenge], ?_, ?_⟩
  · show p.trace ++ _ = _
    rw [htrace, List.append_assoc, List.cons_append]
  · intro e he
    rcases List.mem_append.mp he with he | he
    · exact hbetween e he
    · rw [List.mem_singleton.mp he]
      exact hcall

/-- What the panel knows of its challenge outlives a call that does not sign in. -/
theorem Known.asked (h : p.Known) (hproceeds : Proceeds p.account account)
    (hcall : p.challenge.id ≠ [] → ¬ Enters call returned)
    (hjustified : Justified (p.asked call checked account returned challenge).trace) :
    (p.asked call checked account returned challenge).Known where
  le := h.le.trans hproceeds.le
  user := hproceeds.user h.le h.user
  backed := by
    intro hid
    obtain ⟨issue, hissue⟩ := h.backed hid
    exact ⟨issue, hissue.asked hproceeds (hcall hid)⟩
  justified := hjustified

/-- A call of the session, recorded. -/
theorem Bound.asked (h : p.Bound) (hmoves : Moves p.account account)
    (hcall : p.challenge.id ≠ [] → ¬ Enters call returned)
    (hjustified : Justified (p.asked call checked account returned challenge).trace) :
    (p.asked call checked account returned challenge).Bound where
  toKnown := h.toKnown.asked hmoves.proceeds hcall hjustified
  signedOut := by
    intro hnone
    obtain ⟨hgeneration, -⟩ | ⟨-, hsome⟩ := hmoves
    · exact (h.signedOut hnone).trans hgeneration.symm
    · -- the panel knows that nobody is signed in
      have huser := h.user (h.signedOut hnone)
      rw [AccountSnapshot.userId, show p.snapshot.user = none from hnone] at huser
      exact absurd huser.symm hsome

/-- The panel looks at the session. -/
theorem Known.told (h : p.Known) : { p with snapshot := p.account.snapshot }.Bound where
  le := Nat.le_refl _
  user _ := p.account.snapshot_userId
  backed := by
    intro hid
    obtain ⟨issue, hissue⟩ := h.backed hid
    refine ⟨issue, { hissue with known := fun hsame => ?_ }⟩
    exact (hissue.user hsame).trans p.account.snapshot_userId.symm
  justified := h.justified
  signedOut _ := rfl

/-- They hold the same of the session and of the challenge. -/
structure Alike (p q : Panel) : Prop where
  account : q.account = p.account
  snapshot : q.snapshot = p.snapshot
  challenge : q.challenge = p.challenge
  generation : q.challengeGeneration = p.challengeGeneration
  isLink : q.challengeIsLink = p.challengeIsLink
  deadline : q.challengeDeadline = p.challengeDeadline
  trace : q.trace = p.trace

/-- What the panel shows is no part of it. -/
theorem Bound.frame {q : Panel} (h : p.Bound) (hq : Alike p q) : q.Bound := by
  obtain ⟨account, snapshot, profile, challenge, generation, isLink, deadline⟩ := q
  obtain ⟨rfl, rfl, rfl, rfl, rfl, rfl, rfl⟩ := hq
  refine ⟨⟨h.le, h.user, fun hid => ?_, h.justified⟩, h.signedOut⟩
  obtain ⟨issue, hissue⟩ := h.backed hid
  exact ⟨issue, { hissue with }⟩

/-- The panel gives its challenge up. -/
theorem Bound.dropped (h : p.Bound) : { p with challenge := noChallenge }.Bound :=
  { h with backed := fun hid => absurd rfl hid }

/-! ## Calls that redeem nothing -/

/-- A call of the session that signs nobody in and redeems nothing. -/
def Quiet (w w' : AccountWorld Unit) : Prop :=
  Moves w w' ∧ Asks AccountRequest.Ordinary w w'

/-- A quiet stretch has made ordinary requests only. -/
theorem Quiet.made {w w' : AccountWorld Unit} (h : Asks AccountRequest.Ordinary w w')
    {request : AccountRequest} {failure : Option Failure}
    (hmem : .request request failure ∈ w'.calls.drop w.calls.length) : request.Ordinary := by
  obtain ⟨new, hcalls, hnew⟩ := h
  rw [hcalls, List.drop_left] at hmem
  exact hnew request failure hmem

section

variable {J : JsonLib} {E : AccountEnv}

/-- Every operation but a restore and a login moves on only from a signed-in user. -/
theorem operation_moves (operation : SessionOperation Unit)
    (henters : operation.entersSession = false) (w : AccountWorld Unit) :
    Outcome (operation.perform J E) w fun _ w' => Moves w w' := by
  by_cases hsession : w.session = none
  · refine (SessionOperation.signedOut hsession henters).mono ?_
    rintro result w' ⟨rfl, -⟩
    exact .inl ⟨rfl, rfl⟩
  · refine (operation.acts w).mono ?_
    intro result w' hacts
    refine hacts.binds.imp_right fun hnext => ⟨hnext, ?_⟩
    rw [AccountWorld.userId, Ne, Option.map_eq_none_iff]
    exact hsession

/-- All operations are quiet but for the two that sign in, and the link. -/
theorem operation_quiet (operation : SessionOperation Unit)
    (henters : operation.entersSession = false) (hlogin : operation.isLogin = false)
    (w : AccountWorld Unit) :
    Outcome (operation.perform J E) w fun _ w' => Quiet w w' :=
  (operation_moves operation henters w).and (SessionOperation.asks hlogin w)

/-- What holds after an operation holds after the method it is. -/
theorem of_forget {α : Type} {m : SessionM Unit α} {w : AccountWorld Unit}
    {P : AccountWorld Unit → Prop} (h : Outcome (forget m) w fun _ w' => P w') :
    Outcome m w fun _ w' => P w' := by
  refine (Outcome.bind_iff.mp h).mono ?_
  rintro (failure | a) w' h
  · exact h
  · exact h

end

/-- What every step keeps. -/
structure Sound (p : Panel) : Prop extends p.Bound where
  ready : p.Ready

/-- The worker returns. -/
theorem Bound.ends (h : p.Bound) (work : PanelWork) (success : Bool) :
    (p.ends work success).Sound :=
  ⟨h.frame ⟨rfl, rfl, rfl, rfl, rfl, rfl, rfl⟩, trivial⟩

/-- It goes on to its next stage. -/
theorem Bound.goesOn (h : p.Bound) {work : PanelWork} {stage : PanelStage}
    (hready : (p.goesOn work stage).Ready) : (p.goesOn work stage).Sound :=
  ⟨h.frame ⟨rfl, rfl, rfl, rfl, rfl, rfl, rfl⟩, hready⟩

/-- Ordinary requests redeem nothing. -/
theorem justified_quiet (h : Justified p.trace)
    (hasks : Asks AccountRequest.Ordinary p.account account) :
    Justified (p.asked call checked account returned challenge).trace := by
  refine h.snoc fun challenge huse => ?_
  obtain ⟨credential, token, failure, hmem⟩ := huse
  exact absurd (Quiet.made hasks hmem) nofun

/-- A call that redeems nothing: it is enough to go on soundly from what it returns. -/
theorem Bound.perform {α : Type} {m : SessionM Unit α} {work : PanelWork} {answer : α → Challenge}
    {go : α → Panel → Panel} (h : p.Bound) (hm : Outcome m p.account fun _ w' => Quiet p.account w')
    (hcall : ∀ operation, call = .session operation → operation.isLogin = false)
    (hgo : ∀ a account, m.exec p.account = (.ok a, account) → Quiet p.account account →
      (p.asked call checked account true (answer a)).Bound →
        (go a (p.asked call checked account true (answer a))).Sound) :
    (p.perform work call checked m answer go).Sound := by
  have hother (returned : Bool) : ¬ Enters call returned := by
    rintro ⟨⟨operation, hoperation, hlogin⟩, -⟩
    rw [hcall operation hoperation] at hlogin
    cases hlogin
  unfold Panel.perform
  unfold Outcome at hm
  rcases hexec : m.exec p.account with ⟨failure | a, account⟩
  · rw [hexec] at hm
    exact (h.asked hm.1 (fun _ => hother _) (justified_quiet h.justified hm.2)).ends work false
  · rw [hexec] at hm
    exact hgo a account hexec hm
      (h.asked hm.1 (fun _ => hother _) (justified_quiet h.justified hm.2))

/-- An action that is one such operation. -/
theorem Bound.only {α : Type} {m : SessionM Unit α} {work : PanelWork}
    {operation : SessionOperation Unit} {go : α → Panel → Panel} (h : p.Bound)
    (hm : Outcome m p.account fun _ w' => Quiet p.account w')
    (hlogin : operation.isLogin = false) (hgo : ∀ a (q : Panel), q.Bound → (go a q).Bound) :
    (p.only work operation m go).Sound := by
  refine h.perform hm ?_ fun a account _ _ hbound => (hgo a _ hbound).ends work true
  rintro _ ⟨⟩
  exact hlogin

/-! ## The worker -/

section

variable {J : JsonLib} {E : PanelEnv} {work : PanelWork}

/-- The first stage of a restore: the record is read. -/
theorem begin_restore (h : p.Bound) (haction : work.action = .restore) :
    (p.begin J E work).Sound := by
  unfold Panel.begin
  rw [haction]
  dsimp only
  have hm := ((restore_tells (J := J) (E := E.account) p.account).and
    (restore_acts (J := J) (E := E.account) p.account)).and
      (restore_ordinary (J := J) (E := E.account) p.account)
  unfold Panel.perform
  unfold Outcome at hm
  have hother (returned : Bool) : ¬ Enters (.session .restore) returned := by
    rintro ⟨⟨operation, hoperation, hlogin⟩, -⟩
    cases hoperation
    cases hlogin
  rcases hexec : (AccountSession.restore J E.account).exec p.account with ⟨failure | told, account⟩
  · rw [hexec] at hm
    obtain ⟨⟨hsame, -⟩, hasks⟩ := hm
    exact (h.asked (.inl hsame) (fun _ => hother _) (justified_quiet h.justified hasks)).ends _ _
  · rw [hexec] at hm
    obtain ⟨⟨htold, hacts⟩, hasks⟩ := hm
    have hknown : (p.asked (.session .restore) none account true noChallenge).Known :=
      h.toKnown.asked hacts.binds (fun _ => hother true) (justified_quiet h.justified hasks)
    have htold' : told = account.snapshot := htold
    subst htold'
    refine hknown.told.goesOn ?_
    cases account.snapshot.user.isSome
    · exact trivial
    · exact trivial

/-- That of a challenge: it is asked for. -/
theorem begin_challenge (h : p.Bound) (haction : work.action = .challenge)
    (hcurrent : p.Current) : (p.begin J E work).Sound := by
  unfold Panel.begin
  rw [haction]
  dsimp only
  suffices hbound : { p with
      challengeIsLink := p.snapshot.user.isSome
      challengeGeneration := p.snapshot.generation }.Bound from hbound.goesOn ⟨rfl, rfl⟩
  refine { h with backed := fun hid => ?_ }
  -- the challenge on hand was for the same generation, and so for the same purpose
  obtain ⟨issue, hissue⟩ := h.backed hid
  have hgeneration := hissue.generation.trans (hcurrent hid)
  refine ⟨issue, { hissue with generation := hgeneration, isLink := ?_ }⟩
  rw [hissue.known hgeneration, AccountSnapshot.userId_isSome]

/-- That of a login: the challenge on display is redeemed. -/
theorem begin_login (h : p.Bound) (haction : work.action = .login) :
    (p.begin J E work).Sound := by
  unfold Panel.begin
  rw [haction]
  dsimp only
  split
  · exact h.ends _ _
  · rename_i hcheck
    simp only [Bool.or_eq_true, not_or, List.isEmpty_iff, decide_eq_true_eq, bne_iff_ne, ne_eq,
      not_not] at hcheck
    obtain ⟨⟨⟨hid, hdeadline⟩, hgeneration⟩, hpurpose⟩ := hcheck
    exact h.goesOn ⟨hid, lt_of_not_ge hdeadline, hgeneration, hpurpose⟩

theorem Bound.withProfile (h : p.Bound) (profile : Profile) :
    { p with profile := some profile }.Bound := h.frame ⟨rfl, rfl, rfl, rfl, rfl, rfl, rfl⟩

theorem Bound.clipboardShown (h : p.Bound) (loaded : Bool) (cloud : ClipboardSnapshot) :
    (clipboardShown loaded cloud p).Bound := h.frame ⟨rfl, rfl, rfl, rfl, rfl, rfl, rfl⟩

/-- A review of the settings asks for the preferences and their schema. -/
theorem Bound.reviewSettings (h : p.Bound) : (p.reviewSettings J E work).Sound := by
  unfold Panel.reviewSettings
  split
  · exact h.ends _ _
  · refine h.perform (of_forget (operation_quiet (.reviewPreferences _) rfl rfl _)) ?_ ?_
    · rintro _ ⟨⟩
      rfl
    · intro review account _ _ hbound
      split
      · exact hbound.ends _ _
      · exact hbound.ends _ _

/-- The first call of an action. -/
theorem Bound.begin (h : p.Bound)
    (hready : work.action = .challenge ∨ work.action = .login → p.Current) :
    (p.begin J E work).Sound := by
  cases haction : work.action with
  | restore => exact begin_restore h haction
  | challenge => exact begin_challenge h haction (hready (.inl haction))
  | login => exact begin_login h haction
  | profile =>
    -- all the others are ordinary requests, which redeem nothing
    unfold Panel.begin
    rw [haction]
    exact h.only (of_forget (operation_quiet (.profile _) rfl rfl _)) rfl
      fun profile q hq => hq.withProfile profile
  | rename =>
    unfold Panel.begin
    rw [haction]
    exact h.only (of_forget (operation_quiet (.rename _ _) rfl rfl _)) rfl
      fun profile q hq => hq.withProfile profile
  | clipboardLoad =>
    unfold Panel.begin
    rw [haction]
    exact h.only (of_forget (operation_quiet (.clipboard _ _) rfl rfl _)) rfl
      fun cloud q hq => hq.clipboardShown _ cloud
  | clipboardToggle =>
    unfold Panel.begin
    rw [haction]
    exact h.only (of_forget (operation_quiet (.setClipboardEnabled _ _) rfl rfl _)) rfl
      fun cloud q hq => hq.clipboardShown _ cloud
  | clipboardAdd =>
    unfold Panel.begin
    rw [haction]
    exact h.only (of_forget (operation_quiet (.addClipboard _ _) rfl rfl _)) rfl
      fun cloud q hq => hq.clipboardShown _ cloud
  | clipboardDelete | clipboardClear =>
    unfold Panel.begin
    rw [haction]
    exact h.only (of_forget (operation_quiet (.deleteClipboard _ _) rfl rfl _)) rfl
      fun cloud q hq => hq.clipboardShown _ cloud
  | logout =>
    unfold Panel.begin
    rw [haction]
    exact h.only (operation_quiet (.logout _ _) rfl rfl _) rfl fun _ q hq => hq
  | delete =>
    unfold Panel.begin
    rw [haction]
    exact h.only (operation_quiet (.deleteAccount _) rfl rfl _) rfl fun _ q hq => hq
  | settingsUploadReview | settingsDownloadReview =>
    -- a review asks twice, for the page and for its schema
    unfold Panel.begin
    rw [haction]
    exact h.reviewSettings
  | settingsUpload =>
    unfold Panel.begin
    rw [haction]
    dsimp only
    -- without a review there is nothing to send
    split
    · exact h.only (of_forget (operation_quiet (.uploadPreferences _ _) rfl rfl _)) rfl
        fun _ q hq => hq
    · exact h.ends _ _
  | settingsDownload =>
    unfold Panel.begin
    rw [haction]
    dsimp only
    split
    · exact h.only (operation_quiet (.applyPreferences _ _) rfl rfl _) rfl fun _ q hq => hq
    · exact h.ends _ _

/-- A challenge has been obtained in the generation the panel knows, for its purpose. -/
theorem Bound.received (h : p.Bound) (hfitting : p.Fitting)
    (hsame : p.snapshot.generation = p.account.generation)
    (hbound : (p.asked call none account true challenge).Bound)
    (hproceeds : Proceeds p.account account)
    (hissues : (p.exchange call none account true challenge).Issues) :
    { p.asked call none account true challenge with
      challenge := challenge
      challengeDeadline := p.now + challenge.expiresIn.toInt * 1000000 }.Bound := by
  have huser := h.user hsame
  refine { hbound with backed := fun _ => ?_ }
  refine ⟨p.exchange call none account true challenge, hissues, rfl, rfl, ?_, ?_, ?_,
    hproceeds.le, ?_, fun _ => huser.symm⟩
  · exact hsame.symm.trans hfitting.1.symm
  · show p.challengeIsLink = p.account.userId.isSome
    rw [hfitting.2, ← huser, AccountSnapshot.userId_isSome]
  · refine ⟨p.trace, [], rfl, ?_⟩
    intro e he
    cases he
  · exact hproceeds.user (Nat.le_refl _) fun _ => rfl

/-- The challenge is sent for: the one on display is gone. -/
theorem Bound.send (h : p.Bound) (hfitting : p.Fitting) : (p.send J E work).Sound := by
  unfold Panel.send
  dsimp only
  split
  · -- signed in: the challenge is for a link to the user on display
    refine h.perform (of_forget (operation_quiet (.beginLink _ _ _) rfl rfl _)) ?_ ?_
    · rintro _ ⟨⟩
      rfl
    intro challenge account hexec hquiet hbound
    have htells := beginLink_tells (J := J) (E := E.account) p.snapshot.generation work.provider
      work.target p.account
    unfold Outcome at htells
    rw [hexec] at htells
    -- who asked was signed in, and the request carried a token of theirs
    obtain ⟨hsame, hsignedIn, token, hmem⟩ := htells challenge rfl
    refine (h.received hfitting hsame hbound hquiet.1.proceeds ?_).ends work true
    refine .link work.provider work.target token ?_ ?_ hmem
    · show PanelCall.session (.beginLink p.snapshot.generation _ _) = _
      rw [hsame]
      rfl
    · show p.account.userId ≠ none
      rw [AccountWorld.userId, Ne, Option.map_eq_none_iff]
      exact hsignedIn
  · -- signed out: the challenge is for a sign-in, and nothing else is touched
    rename_i hlogin
    have hnobody : p.snapshot.user = none := by
      rw [hfitting.2] at hlogin
      exact Option.not_isSome_iff_eq_none.mp hlogin
    have hsame := h.signedOut hnobody
    have huser : p.account.userId = none := by
      rw [← h.user hsame, AccountSnapshot.userId, hnobody]
      rfl
    have hspec := call_spec (E := E.account) (.challenge work.provider work.target []) p.account
    refine h.perform ?_ (fun _ h => by cases h) ?_
    · refine hspec.mono ?_
      rintro (failure | challenge) w' hw
      · obtain rfl := hw
        exact ⟨.inl ⟨rfl, rfl⟩, Asks.logged fun _ _ heq => by cases heq; rfl⟩
      · obtain ⟨-, rfl⟩ := hw
        exact ⟨.inl ⟨rfl, rfl⟩, Asks.logged fun _ _ heq => by cases heq; rfl⟩
    intro challenge account hexec hquiet hbound
    unfold Outcome at hspec
    rw [hexec] at hspec
    obtain ⟨-, rfl⟩ := hspec
    refine (h.received hfitting hsame hbound hquiet.1.proceeds ?_).ends work true
    refine .login work.provider work.target rfl huser ?_
    exact List.drop_left

/-- What a login or link redeems, if it redeems anything, is backed. -/
theorem Bound.backs (h : p.Bound) {t : Int}
    (hready : p.challenge.id ≠ [] ∧ t < p.challengeDeadline ∧ p.Fitting)
    (hsame : p.snapshot.generation = p.account.generation)
    (hcall : call = if p.challengeIsLink then
        .session (.link p.snapshot.generation p.challenge.id work.code)
      else .session (.login p.snapshot.generation p.challenge.id work.code)) :
    ∃ issue, Backs p.trace issue (p.exchange call (some t) account returned challenge) ∧
      issue.challenge.id = p.challenge.id := by
  obtain ⟨hid, hchecked, hfitting⟩ := hready
  obtain ⟨issue, hissue⟩ := h.backed hid
  have hgeneration : issue.generation = p.account.generation :=
    hissue.generation.trans (hfitting.1.trans hsame)
  refine ⟨issue, ⟨hissue.issues, ?_, hgeneration, ⟨t, rfl, ?_⟩, hissue.last⟩, ?_⟩
  · -- its purpose is that of the issue
    cases hissue.issues with
    | login provider target hcalled hnobody =>
      have hlogin : p.challengeIsLink = false := by
        rw [hissue.isLink, hnobody]
        rfl
      rw [hlogin, if_neg Bool.false_ne_true, hsame, ← hissue.challenge] at hcall
      exact .login provider target work.code hcalled hcall
    | link provider target token hcalled huser =>
      have hlink : p.challengeIsLink = true := by
        rw [hissue.isLink]
        exact Option.isSome_iff_ne_none.mpr huser
      rw [hlink, if_pos rfl, hsame, ← hissue.challenge] at hcall
      have hsameUser := hissue.user hgeneration
      exact .link provider target work.code hcalled hcall hsameUser
        fun hnobody => huser (hsameUser.trans hnobody)
  · rwa [hissue.deadline]
  · rw [hissue.challenge]

/-- A login or a link: what returns is the session as it is then, what throws has signed
nobody in, and what it redeems is backed. -/
theorem Bound.enter (h : p.Bound) {m : SessionM Unit AccountSnapshot} {t : Int}
    (hm : Outcome m p.account fun result w' =>
      (∀ told, result = .ok told → told = w'.snapshot ∧ Proceeds p.account w') ∧
      (∀ failure, result = .error failure → Moves p.account w') ∧
      ∀ redeemed code token failure,
        .request (.login redeemed code token) failure ∈ w'.calls.drop p.account.calls.length →
          redeemed = p.challenge.id ∧ p.snapshot.generation = p.account.generation)
    (hready : p.challenge.id ≠ [] ∧ t < p.challengeDeadline ∧ p.Fitting)
    (hcall : call = if p.challengeIsLink then
        .session (.link p.snapshot.generation p.challenge.id work.code)
      else .session (.login p.snapshot.generation p.challenge.id work.code)) :
    (p.perform work call (some t) m (fun _ => noChallenge) (entered work)).Sound := by
  unfold Panel.perform
  unfold Outcome at hm
  have hjustified (account : AccountWorld Unit) (returned : Bool)
      (hredeems : ∀ redeemed code token failure,
        .request (.login redeemed code token) failure ∈ account.calls.drop p.account.calls.length →
          redeemed = p.challenge.id ∧ p.snapshot.generation = p.account.generation) :
      Justified (p.asked call (some t) account returned noChallenge).trace := by
    refine h.justified.snoc ?_
    rintro redeemed ⟨code, token, failure, hmem⟩
    obtain ⟨rfl, hsame⟩ := hredeems _ _ _ _ hmem
    exact ⟨hready.1, h.backs hready hsame hcall⟩
  rcases hexec : m.exec p.account with ⟨failure | told, account⟩
  · rw [hexec] at hm
    obtain ⟨-, hmoves, hredeems⟩ := hm
    have hfails : ¬ Enters call false := fun henters => Bool.noConfusion henters.2
    exact (h.asked (hmoves failure rfl) (fun _ => hfails) (hjustified _ _ hredeems)).ends _ _
  · rw [hexec] at hm
    obtain ⟨htold, -, hredeems⟩ := hm
    obtain ⟨htold, hproceeds⟩ := htold told rfl
    have htold' : told = account.snapshot := htold
    subst htold'
    -- the challenge is given up before anybody can ask with it again
    have hknown : ({ p with challenge := noChallenge }.asked call (some t) account true
        noChallenge).Known :=
      h.dropped.toKnown.asked hproceeds (fun hid => absurd rfl hid) (hjustified _ _ hredeems)
    have hbound := hknown.told.frame (q := entered work account.snapshot
      (p.asked call (some t) account true noChallenge)) ⟨rfl, rfl, rfl, rfl, rfl, rfl, rfl⟩
    exact { hbound with ready := trivial }

/-- The challenge is redeemed, for the user and the generation it was issued to. -/
theorem Bound.signIn (h : p.Bound) {t : Int}
    (hready : p.challenge.id ≠ [] ∧ t < p.challengeDeadline ∧ p.Fitting) :
    (p.signIn J E work t).Sound := by
  unfold Panel.signIn
  dsimp only
  split
  · rename_i hlink
    refine h.enter ?_ hready (by rw [if_pos hlink])
    refine (((link_tells _ _ _ _).and (link_acts _ _ _ _)).and
      ((of_forget (operation_moves (.link _ _ _) rfl _)).and (link_redeems _ _ _ _))).mono ?_
    rintro result w' ⟨⟨htells, hacts⟩, hmoves, hredeems⟩
    exact ⟨fun told htold => ⟨htells told htold, hacts.binds⟩, fun _ _ => hmoves, hredeems⟩
  · rename_i hlogin
    refine h.enter ?_ hready (by rw [if_neg hlogin])
    refine (((login_tells _ _ _ _).and (login_acts _ _ _ _)).and (login_redeems _ _ _ _)).mono ?_
    rintro result w' ⟨⟨htells, hacts⟩, hredeems⟩
    refine ⟨?_, ?_, hredeems⟩
    · rintro told rfl
      exact ⟨htells, hacts.binds⟩
    · rintro failure rfl
      exact .inl htells

theorem Bound.askProfile (h : p.Bound) : (p.askProfile J E work).Sound := by
  refine h.perform (of_forget (operation_quiet (.profile _) rfl rfl _)) ?_ ?_
  · rintro _ ⟨⟩
    rfl
  intro profile account _ _ hbound
  split
  · exact (hbound.withProfile profile).goesOn trivial
  · exact (hbound.withProfile profile).ends _ _

theorem Bound.askProviders (h : p.Bound) : (p.askProviders E work).Sound := by
  unfold Panel.askProviders
  split
  · exact h.ends _ _
  · have hbound : { p with ready := true }.Bound := h.frame ⟨rfl, rfl, rfl, rfl, rfl, rfl, rfl⟩
    exact hbound.ends _ _

/-- **The worker**, from one call to the next. -/
theorem Bound.worker (h : p.Bound) {stage : PanelStage}
    (hready : (p.goesOn work stage).Ready) : (p.worker J E work stage).Sound := by
  cases stage with
  | begun => exact h.begin hready
  | sending => exact h.send hready
  | signingIn checked => exact h.signIn hready
  | profile => exact h.askProfile
  | providers => exact h.askProviders

end

/-! ## Runs -/

/-- The main loop takes over what the worker has found. -/
theorem Bound.finished (h : p.Bound) (work : PanelWork) (success confirmed : Bool) :
    (p.finished work success confirmed).Sound := by
  unfold Panel.finished
  split
  · rename_i hclosed
    refine ⟨h.frame ⟨rfl, rfl, rfl, rfl, rfl, rfl, rfl⟩, fun hopen => ?_⟩
    rw [show p.closed = false from hopen] at hclosed
    cases hclosed
  split
  · rename_i action hconfirmed _
    refine h.goesOn fun hother => ?_
    -- what goes on is about settings
    cases hwork : work.action <;> rw [hwork] at hconfirmed <;> cases hconfirmed <;>
      exact absurd hother (by simp)
  · dsimp only
    by_cases hgeneration : p.challengeGeneration ≠ p.snapshot.generation
    · rw [if_pos hgeneration]
      exact ⟨h.dropped.frame ⟨rfl, rfl, rfl, rfl, rfl, rfl, rfl⟩, fun _ hid => absurd rfl hid⟩
    · rw [if_neg hgeneration]
      exact ⟨h.frame ⟨rfl, rfl, rfl, rfl, rfl, rfl, rfl⟩, fun _ _ => not_not.mp hgeneration⟩

variable {J : JsonLib}

/-- **Every step keeps it.** -/
theorem Sound.step {q : Panel} {e : PanelEvent} (h : p.Sound) (hstep : Step J p e q) : q.Sound := by
  obtain ⟨hallowed, rfl⟩ := hstep
  have hready := h.ready
  unfold Ready at hready
  cases e with
  | click work =>
    obtain ⟨hidle, hopen, -⟩ := hallowed
    refine h.goesOn fun _ => ?_
    cases hphase : p.phase <;> rw [hphase] at hidle hready <;> cases hidle
    exact hready hopen
  | worker E =>
    show (p.workerNext J E).Sound
    unfold workerNext
    cases hphase : p.phase with
    | working work stage => exact h.worker (by unfold Ready; rw [hphase] at hready; exact hready)
    | _ => exact h
  | refresh =>
    -- the panel learns of the generation, which a challenge is tied to
    show p.refreshed.Sound
    unfold refreshed
    cases hphase : p.phase with
    | ending work success =>
      exact ⟨h.toKnown.told.frame ⟨rfl, rfl, rfl, rfl, rfl, rfl, rfl⟩, trivial⟩
    | _ => exact h
  | finished confirmed =>
    show (p.finishedNext confirmed).Sound
    unfold finishedNext
    cases hphase : p.phase with
    | returned work success => exact h.finished work success confirmed
    | _ => exact h
  | changeAccount =>
    -- another account: the challenge is dropped
    refine { h.dropped with ready := ?_ }
    show Ready { p with challenge := noChallenge }
    unfold Ready
    obtain ⟨hidle, -⟩ := hallowed
    cases hphase : p.phase <;> rw [hphase] at hidle <;> cases hidle
    exact fun _ hid => absurd rfl hid
  | close =>
    refine ⟨h.frame ⟨rfl, rfl, rfl, rfl, rfl, rfl, rfl⟩, ?_⟩
    show Ready { p with closed := true }
    unfold Ready
    cases hphase : p.phase with
    | idle => exact fun hopen => Bool.noConfusion hopen
    | working work stage =>
      rw [hphase] at hready
      cases stage <;> exact hready
    | ending | returned => exact trivial
  | dictionary E operation =>
    -- the other window works on the same session, with ordinary requests
    have hordinary : operation.entersSession = false ∧ operation.isLogin = false := by
      have hof : operation.ofDictionary = true := hallowed
      cases operation <;> first | exact ⟨rfl, rfl⟩ | cases hof
    have hquiet := operation_quiet (J := J) (E := E) operation hordinary.1 hordinary.2 p.account
    have hother (returned : Bool) : ¬ Enters (.session operation) returned := by
      rintro ⟨⟨_, ⟨⟩, hlogin⟩, -⟩
      rw [hordinary.2] at hlogin
      cases hlogin
    refine ⟨?_, h.ready⟩
    exact h.toBound.asked hquiet.1 (fun _ => hother _) (justified_quiet h.justified hquiet.2)
  | elapse duration =>
    exact ⟨h.frame ⟨rfl, rfl, rfl, rfl, rfl, rfl, rfl⟩, h.ready⟩

/-- A new panel has asked for nothing. -/
theorem Sound.initial (record : Option Bytes) : (initial record).Sound where
  le := Nat.le_refl _
  user _ := rfl
  signedOut _ := rfl
  backed hid := absurd rfl hid
  justified := by
    intro earlier use later challenge hsplit
    have hlength := congrArg List.length hsplit
    simp [Panel.initial] at hlength
  ready := fun _ hid => absurd rfl hid

end Panel

/-- **A challenge is redeemed only for what it was issued for.** In every run of the panel, of
its workers and of the dictionary windows that share its session, with any answers: whatever
asks the backend to redeem a challenge is a login with a challenge that was obtained to log
in, or a link with one that was obtained to link, for the same user; it was obtained in the
same generation of the session; the panel has found its deadline not passed before it called
the session; and nobody has signed in since it was obtained, so that a challenge with which
somebody has signed in is never redeemed again. -/
theorem challenge_bound {J : JsonLib} {record : Option Bytes} {events : List PanelEvent} {p : Panel}
    (h : Run (Panel.Step J) (Panel.initial record) events p) {earlier later : List Exchange}
    {use : Exchange} {challenge : Bytes} (htrace : p.trace = earlier ++ use :: later)
    (huse : use.Redeems challenge) :
    challenge ≠ [] ∧ ∃ issue, Backs earlier issue use ∧ issue.challenge.id = challenge := by
  have hsound := h.invariant (I := Panel.Sound) (fun _ _ _ => Panel.Sound.step) (.initial record)
  exact hsound.justified earlier use later challenge htrace huse

/-! ## A sample run -/

/-- One challenge, good for a second; nothing else is answered. -/
def sampleChallenge : Challenge := ⟨ascii "c", 1, [], []⟩

def challengeEnv : PanelEnv where
  account := { quietEnv 1000 with
    respond := fun _ request =>
      match request with
      | .challenge .. => .ok sampleChallenge
      | _ => .error { status := 0 } }

/-- Nobody is signed in, a challenge is obtained, and a login begins; `wait` passes between the
check and the request. -/
def loginEvents (wait : Nat) : List PanelEvent :=
  [.worker challengeEnv, .worker challengeEnv, .refresh, .finished false,
    .click { action := .challenge, provider := ascii "email", target := ascii "a@b" },
    .worker challengeEnv, .worker challengeEnv, .refresh, .finished false,
    .click { action := .login, code := ascii "123456" },
    .worker challengeEnv, .elapse wait, .worker challengeEnv]

def afterLogin (wait : Nat) : Panel :=
  (loginEvents wait).foldl (Panel.next guardJson) (.initial none)

def restoreExchange : Exchange where
  call := .session .restore
  generation := 0
  userId := none
  now := 0
  checked := none
  made := [.lookup .notFound]
  returned := true
  challenge := noChallenge

def challengeExchange : Exchange where
  call := .challenge (ascii "email") (ascii "a@b")
  generation := 1
  userId := none
  now := 0
  checked := none
  made := [.request (.challenge (ascii "email") (ascii "a@b") []) none]
  returned := true
  challenge := sampleChallenge

def loginExchange (wait : Nat) : Exchange where
  call := .session (.login 1 (ascii "c") (ascii "123456"))
  generation := 1
  userId := none
  now := 0 + wait
  checked := some 0
  made := [.request (.login (ascii "c") (ascii "123456") []) (some { status := 0 })]
  returned := false
  challenge := noChallenge

theorem afterLogin_trace (wait : Nat) :
    (afterLogin wait).trace = [restoreExchange, challengeExchange, loginExchange wait] :=
  rfl

theorem afterLogin_run (wait : Nat) :
    Run (Panel.Step guardJson) (.initial none) (loginEvents wait) (afterLogin wait) := by
  refine Guarded.run ?_
  refine ⟨rfl, rfl, rfl, rfl, ⟨rfl, rfl, rfl⟩, rfl, rfl, rfl, rfl, ⟨rfl, rfl, rfl⟩, rfl, trivial,
    rfl, trivial⟩

theorem loginExchange_redeems (wait : Nat) : (loginExchange wait).Redeems (ascii "c") :=
  ⟨ascii "123456", [], some { status := 0 }, List.mem_singleton_self _⟩

/-- The login of the sample redeems the challenge obtained before it. -/
theorem challenge_bound_login : ∃ issue,
    Backs [restoreExchange, challengeExchange] issue (loginExchange 0) ∧
      issue.challenge.id = ascii "c" :=
  (challenge_bound (afterLogin_run 0) (afterLogin_trace 0) (loginExchange_redeems 0)).2

/-- The deadline is checked before the session is called, which then waits its turn: the request
itself may come later than that. -/
theorem late_request : ¬ ∀ (J : JsonLib) (record : Option Bytes) (events : List PanelEvent)
    (p : Panel), Run (Panel.Step J) (Panel.initial record) events p →
      ∀ earlier use later challenge, p.trace = earlier ++ use :: later → use.Redeems challenge →
        ∃ issue ∈ earlier, issue.Issues ∧ issue.challenge.id = challenge ∧
          use.now < issue.deadline := by
  intro h
  obtain ⟨issue, hmem, -, hid, hearly⟩ := h guardJson none (loginEvents 2000000)
    (afterLogin 2000000) (afterLogin_run _) [restoreExchange, challengeExchange] _ [] (ascii "c")
    (afterLogin_trace _) (loginExchange_redeems _)
  rcases List.mem_cons.mp hmem with rfl | hmem
  · cases hid
  · cases List.mem_singleton.mp hmem
    exact absurd hearly (by decide)

end MsimeLinux
