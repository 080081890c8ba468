import MsimeLinux.Account.SessionRequests
import MsimeLinux.Settings.CredentialOrigin
import MsimeLinux.Settings.SettingsWriters

/-!
# Settings sync (`AccountPanel.cpp`)

A settings action of the panel has two halves. The review reads the version of `config.ini`,
loads the file with its credentials, reads the version again and asks for the remote settings;
a dialog shows what would change. What is confirmed is carried out on that: the fields of this
machine are uploaded, or the previewed settings are saved, if nothing of the review has changed.
Between any two steps other processes go on with their saves, and others use the session.

The version is that of the file. The credentials are not part of it, and the previewed settings
have them as they were at the review.

- `SettingsSync.Sound`: what is known of a review in every state.
- `settingsSync_exact`: what a step does that nobody has disturbed.
- `credential_reverted`: a credential that was replaced since the review comes back.
-/

namespace MsimeLinux

open Lib AccountSession

/-! ## The work -/

inductive SyncDirection where
  | upload
  | download
  deriving DecidableEq

/-- A line of the dialog (`w.diff`): a field, and what it is before and after. -/
structure SyncChange where
  field : Bytes
  before : Option PreferenceValue
  after : PreferenceValue
  deriving DecidableEq

/-- `Work` (AccountPanel.cpp:66): what was read, and what the dialog shows of it. -/
structure SyncWork where
  direction : SyncDirection
  /-- `local` -/
  loaded : InputSettings
  version : SettingsFileVersion
  review : PreferencesReview
  preview : SettingsPreview := { settings := {} }
  changes : List SyncChange

/-- How far an action is. -/
inductive SyncPhase where
  | idle
  | begun (direction : SyncDirection)
  /-- at the reading of the file -/
  | reading (direction : SyncDirection) (before : SettingsFileVersion)
  /-- at the lookup of a credential -/
  | hydrating (field : CredentialField) (direction : SyncDirection)
      (before : SettingsFileVersion) (loaded : InputSettings × String)
  /-- at the second reading of the version -/
  | rereading (direction : SyncDirection) (before : SettingsFileVersion)
      (loaded : InputSettings × String)
  /-- at the call of `review_preferences` -/
  | asking (direction : SyncDirection) (version : SettingsFileVersion) (loaded : InputSettings)
  /-- the dialog is open -/
  | showing (work : SyncWork)
  /-- at the reading of the version for the confirmed work -/
  | confirmed (work : SyncWork)
  /-- at the call of `upload_preferences` or `apply_preferences` -/
  | acting (work : SyncWork)

/-- The panel, the session it shares, and the files and credentials that every process
shares. -/
structure SettingsSync (ι : Type) where
  account : AccountWorld Unit
  stores : WriterState ι
  phase : SyncPhase := .idle
  /-- `p.snapshot.generation` -/
  known : Nat := 0

/-- What a step of the worker cannot foresee: the surroundings of the session, how a save goes,
and whether the secret service answers a lookup. -/
structure SyncEnv where
  account : AccountEnv
  writer : WriterIo := {}
  answered : Bool := true

/-- The session, with something for its callbacks to work on. -/
def AccountWorld.over {ω ω' : Type} (w : AccountWorld ω) (outside : ω') : AccountWorld ω' :=
  { w with outside }

/-! The order of the fields. -/

local instance fieldOrder_trans : IsTrans Bytes fun field other : Bytes => field ≤ other :=
  inferInstance

local instance fieldOrder_antisymm : Std.Antisymm fun field other : Bytes => field ≤ other :=
  inferInstance

local instance fieldOrder_total : Std.Total fun field other : Bytes => field ≤ other :=
  inferInstance

/-- What an upload shows: the fields that the document has otherwise (AccountPanel.cpp:212). -/
def uploadChanges (exported remote : PreferenceSettings) : List SyncChange :=
  (exported.keys.sort (· ≤ ·)).filterMap fun field =>
    (exported.lookup field).bind fun value =>
      if remote.lookup field = some value then none
      else some ⟨field, remote.lookup field, value⟩

/-- What is sent has what the dialog shows, over what was reviewed. -/
structure Overlaid (changes : List SyncChange) (remote sent : PreferenceSettings) : Prop where
  shown : ∀ c ∈ changes, remote.lookup c.field = c.before ∧ sent.lookup c.field = some c.after
  same : ∀ field, (∀ c ∈ changes, c.field ≠ field) → sent.lookup field = remote.lookup field

/-- The two sides are compared (AccountPanel.cpp:198). -/
def reviewWork [FrequencyEnum] (direction : SyncDirection) (version : SettingsFileVersion)
    (loaded : InputSettings) (review : PreferencesReview) : Except MapperError SyncWork :=
  match direction with
  | .upload => do
    let exported ← exportSettings loaded
    return { direction, loaded, version, review,
             changes := uploadChanges exported review.remote.settings }
  | .download => do
    let preview ← prepareDownload loaded review.remote
    return { direction, loaded, version, review, preview,
             changes := preview.changes.map fun c => ⟨c.field, some c.before, c.after⟩ }

/-- The callback of a download (AccountPanel.cpp:238). -/
def saveReviewed {ι : Type} (S : SettingsEnv) (io : WriterIo) (work : SyncWork) :
    Throwing Failure (WriterState ι) Unit := do
  let s ← get
  let result :=
    S.saveIfUnchanged io.io io.service work.preview.settings work.version s.disk s.secrets
  modify fun s => { s with disk := result.disk, secrets := result.secrets }
  if result.error.isSome then throw { status := 409 }

namespace SettingsSync

variable [FrequencyEnum] {ι : Type} (J : JsonLib) (S : SettingsEnv)

/-! ## The worker -/

def goto (s : SettingsSync ι) (phase : SyncPhase) : SettingsSync ι := { s with phase }

/-- A lookup of `load`, one of three (SettingsStore.cpp:1083). -/
def hydrate (E : SyncEnv) (s : SettingsSync ι) (direction : SyncDirection)
    (before : SettingsFileVersion) (loaded : InputSettings × String) :
    CredentialField → SettingsSync ι
  | .ai => s.goto (.hydrating .translation direction before
      (hydrateAi (s.stores.secrets.lookup E.answered) loaded))
  | .translation => s.goto (.hydrating .voice direction before
      (hydrateTranslation (s.stores.secrets.lookup E.answered) loaded))
  | .voice => s.goto (.rereading direction before
      (hydrateVoice (s.stores.secrets.lookup E.answered) loaded))

/-- The remote settings are asked for, and compared (AccountPanel.cpp:198). -/
def ask (E : SyncEnv) (s : SettingsSync ι) (direction : SyncDirection)
    (version : SettingsFileVersion) (loaded : InputSettings) : SettingsSync ι :=
  match (reviewPreferences J E.account s.known).exec s.account with
  | (.error _, account) => { s with account, phase := .idle }
  | (.ok review, account) =>
    match reviewWork direction version loaded review with
    | .error _ => { s with account, phase := .idle }
    | .ok work => { s with account, phase := .showing work }

/-- The upload (AccountPanel.cpp:233). -/
def upload (E : SyncEnv) (s : SettingsSync ι) (work : SyncWork) : Bool × SettingsSync ι :=
  match exportSettings work.loaded with
  | .error _ => (false, s.goto .idle)
  | .ok exported =>
    let (result, account) := (uploadPreferences J E.account work.review exported).exec s.account
    (result.isOk, { s with account, phase := .idle })

/-- The download (AccountPanel.cpp:235); whether it succeeds. -/
def download (E : SyncEnv) (s : SettingsSync ι) (work : SyncWork) : Bool × SettingsSync ι :=
  let (result, account) := (applyPreferences J E.account work.review
    (saveReviewed S E.writer work)).exec (s.account.over s.stores)
  (result.isOk, { s with
    account := account.over ()
    stores := account.outside
    phase := .idle })

/-- The worker (AccountPanel.cpp:186), from one reading to the next. -/
def worker (E : SyncEnv) (s : SettingsSync ι) : SettingsSync ι :=
  match s.phase with
  | .begun direction =>
    match S.version s.stores.disk.config with
    | none => s.goto .idle
    | some before => s.goto (.reading direction before)
  | .reading direction before =>
    s.goto (.hydrating .ai direction before (S.load s.stores.disk.config))
  | .hydrating field direction before loaded => s.hydrate E direction before loaded field
  | .rereading direction before loaded =>
    if loaded.2 ≠ "" then s.goto .idle
    else if S.version s.stores.disk.config = some before then
      s.goto (.asking direction before loaded.1)
    else s.goto .idle
  | .asking direction version loaded => s.ask J E direction version loaded
  | .confirmed work =>
    if S.version s.stores.disk.config = some work.version then s.goto (.acting work)
    else s.goto .idle
  | .acting work =>
    match work.direction with
    | .upload => (s.upload J E work).2
    | .download => (s.download J S E work).2
  | .idle | .showing _ => s

/-- The dialog is answered (AccountPanel.cpp:308). -/
def answered (s : SettingsSync ι) (confirmed : Bool) : SettingsSync ι :=
  match s.phase with
  | .showing work =>
    if !work.changes.isEmpty && confirmed then s.goto (.confirmed work) else s.goto .idle
  | _ => s

end SettingsSync

/-- What can happen next. -/
inductive SyncEvent (ι : Type) where
  | click (direction : SyncDirection)
  | worker (E : SyncEnv)
  | answer (confirmed : Bool)
  /-- the panel looks at the session (AccountPanel.cpp:269) -/
  | refresh
  /-- another use of the session: the account may change -/
  | session (E : AccountEnv) (operation : SessionOperation Unit)
  /-- a step of another process's save -/
  | writer (i : ι) (io : WriterIo)

namespace SettingsSync

variable [FrequencyEnum] {ι : Type} [DecidableEq ι] (J : JsonLib) (S : SettingsEnv)
  (calls : ι → SaveCall)

/-- When it can. A download waits for the lock of the file. -/
def Allowed (s : SettingsSync ι) : SyncEvent ι → Prop
  | .click _ => s.phase = .idle
  | .worker _ => ∀ work, s.phase = .acting work → work.direction = .download →
    s.stores.holder = none
  | .answer _ | .refresh | .session _ _ | .writer _ _ => True

/-- What happens then. -/
def next (s : SettingsSync ι) : SyncEvent ι → SettingsSync ι
  | .click direction => s.goto (.begun direction)
  | .worker E => s.worker J S E
  | .answer confirmed => s.answered confirmed
  | .refresh => { s with known := s.account.generation }
  | .session E operation => { s with account := operation.after J E s.account }
  | .writer i io => { s with stores := writerStep S calls s.stores i io }

def Step (s : SettingsSync ι) (e : SyncEvent ι) (t : SettingsSync ι) : Prop :=
  s.Allowed e ∧ t = s.next J S calls e

/-- Before the first click. -/
def initial (record : Option Bytes) (disk : Disk) (secrets : SecretSlots) : SettingsSync ι where
  account := .initial record ()
  stores := .initial disk secrets

/-! ## What a confirmed action is to do -/

/-- **A confirmed upload** sends the reviewed settings with the shown changes, for the reviewed
user and revision, and nothing else. -/
structure Uploaded (E : SyncEnv) (work : SyncWork) (s t : SettingsSync ι) (success : Bool) :
    Prop where
  stores : t.stores = s.stores
  sent : ∀ value schema token failure,
    .request (.putPreferences value schema token) failure ∈
      t.account.calls.drop s.account.calls.length →
    work.review.Current s.account ∧ Bears E.account s.account token ∧
      schema = work.review.schema ∧ value.revision = work.review.remote.revision ∧
      (∃ exported, exportSettings work.loaded = .ok exported ∧
        value.settings = exported ∪ work.review.remote.settings) ∧
      Overlaid work.changes work.review.remote.settings value.settings
  last : success = true → ∃ value schema token,
    t.account.calls.getLast? = some (.request (.putPreferences value schema token) none)

/-- What a download that succeeds has found, and what it leaves to be loaded. -/
structure Applied (E : SyncEnv) (work : SyncWork) (s t : SettingsSync ι) : Prop where
  current : work.review.Current s.account
  remote : work.review.Reread E.account t.account.calls
  version : S.version s.stores.disk.config = some work.version
  load_eq : S.load t.stores.disk.config = (work.preview.settings.persisted, "")

/-- **A confirmed download** does what was reviewed or nothing, and replaces no stored
credential by another one. -/
structure Downloaded (E : SyncEnv) (work : SyncWork) (s t : SettingsSync ι) (success : Bool) :
    Prop where
  applied : success = true → Applied S E work s t
  credentials : ∀ slot token token', s.stores.secrets slot = some token →
    t.stores.secrets slot = some token' → token' = token
  refused : success = false → t.stores.disk = s.stores.disk ∧ t.stores.secrets = s.stores.secrets

/-- What a step is to do: only a confirmed download, and the saves of others, change the stores. -/
def Exact (s : SettingsSync ι) (e : SyncEvent ι) (t : SettingsSync ι) : Prop :=
  match e with
  | .writer _ _ => True
  | .worker E =>
    match s.phase with
    | .acting work =>
      match work.direction with
      | .upload => Uploaded E work s t (s.upload J E work).1
      | .download => Downloaded S E work s t (s.download J S E work).1
    | _ => t.stores = s.stores
  | .click _ | .answer _ | .refresh | .session _ _ => t.stores = s.stores

/-! ## When it does -/

/-- The store still has the credentials that the download files, or none in their place. -/
def Fresh (s : SettingsSync ι) (work : SyncWork) : Prop :=
  KeepsCredentials s.stores.secrets
    (credentialUses (S.load s.stores.disk.config).1 work.preview.settings)

/-- The condition of a step: a download that finds its session and its file as they were also
finds the credentials so, and the secret service takes back what a save that fails has done. -/
def Undisturbed (s : SettingsSync ι) : SyncEvent ι → Prop
  | .worker E => ∀ work, s.phase = .acting work → work.direction = .download →
    work.review.Current s.account → S.version s.stores.disk.config = some work.version →
    s.Fresh S work ∧ E.writer.service.Restores
  | _ => True

end SettingsSync

/-! ## What is known of a review -/

/-- The file was read without a warning. -/
def SyncPhase.Loaded : SyncPhase → Prop
  | .hydrating _ _ _ loaded | .rereading _ _ loaded => loaded.2 = ""
  | .asking .. | .showing _ | .confirmed _ | .acting _ => True
  | .idle | .begun _ | .reading .. => False

/-- The work of a phase past the comparison. -/
def SyncPhase.HasWork (phase : SyncPhase) (work : SyncWork) : Prop :=
  phase = .showing work ∨ phase = .confirmed work ∨ phase = .acting work

/-- What is shown is the comparison of what was read. -/
def SyncWork.Reviewed [FrequencyEnum] (work : SyncWork) : Prop :=
  reviewWork work.direction work.version work.loaded work.review = .ok work

namespace SettingsSync

/-- The invariant. -/
structure Sound [FrequencyEnum] {ι : Type} (S : SettingsEnv) (s : SettingsSync ι) : Prop where
  serialized : s.stores.Serialized S
  file : s.phase.Loaded → ¬ s.stores.disk.config.Damaged S
  reviewed : ∀ work, s.phase.HasWork work → work.Reviewed

end SettingsSync

section

variable {ι : Type} {J : JsonLib} {S : SettingsEnv} {E : SyncEnv}

/-- A message that is empty in the end was empty before. -/
theorem appendMessage_eq_empty {destination message : String}
    (h : appendMessage destination message = "") : destination = "" := by
  unfold appendMessage at h
  split at h
  · exact h
  split at h
  · assumption
  · have hlength := congrArg String.length h
    simp [String.length_append] at hlength

/-- A lookup adds to the warning. -/
theorem hydrateAi_warning {lookup : SecretKind → Bytes → SecretLookup}
    {loaded : InputSettings × String} (h : (hydrateAi lookup loaded).2 = "") : loaded.2 = "" := by
  unfold hydrateAi at h
  dsimp only at h
  split at h
  · split at h
    · exact h
    · dsimp only at h
      exact appendMessage_eq_empty h
    · dsimp only at h
      exact appendMessage_eq_empty h
  · exact h

/-- A warning does not go away by filling in the tokens. -/
theorem hydrateTranslation_warning {lookup : SecretKind → Bytes → SecretLookup}
    {loaded : InputSettings × String} (h : (hydrateTranslation lookup loaded).2 = "") :
    loaded.2 = "" := by
  unfold hydrateTranslation at h
  dsimp only at h
  split at h
  · split at h
    · exact h
    · dsimp only at h
      exact appendMessage_eq_empty h
    · exact h
  · exact h

theorem hydrateVoice_warning {lookup : SecretKind → Bytes → SecretLookup}
    {loaded : InputSettings × String} (h : (hydrateVoice lookup loaded).2 = "") :
    loaded.2 = "" := by
  unfold hydrateVoice at h
  dsimp only at h
  split at h
  · split at h
    · exact h
    · dsimp only at h
      exact appendMessage_eq_empty h
    · dsimp only at h
      exact appendMessage_eq_empty h
  · exact h

/-- A file that is no key file is loaded with a warning. -/
theorem load_warning {config : ConfigFile} (h : (S.load config).2 = "") : ¬ config.Damaged S := by
  rintro ⟨contents, rfl, hparse⟩
  simp only [SettingsEnv.load, hparse] at h
  exact absurd h (by decide)

/-- The changes of an upload are the fields that differ at the service. -/
theorem mem_uploadChanges {exported remote : PreferenceSettings} {c : SyncChange} :
    c ∈ uploadChanges exported remote ↔ exported.lookup c.field = some c.after ∧
      remote.lookup c.field ≠ some c.after ∧ c.before = remote.lookup c.field := by
  unfold uploadChanges
  rw [List.mem_filterMap]
  constructor
  · rintro ⟨field, -, hc⟩
    obtain ⟨value, hvalue, hc⟩ := Option.bind_eq_some_iff.mp hc
    split at hc
    · cases hc
    · next hother =>
      cases hc
      exact ⟨hvalue, hother, rfl⟩
  · rintro ⟨hvalue, hother, hbefore⟩
    refine ⟨c.field, ?_, ?_⟩
    · rw [Finset.mem_sort, Finmap.mem_keys]
      exact Finmap.mem_of_lookup_eq_some hvalue
    · rw [hvalue, Option.bind_some, if_neg hother, ← hbefore]

/-- **What is sent has what is shown**, over the reviewed settings. -/
theorem uploadChanges_overlaid (exported remote : PreferenceSettings) :
    Overlaid (uploadChanges exported remote) remote (exported ∪ remote) where
  shown := by
    intro c hc
    obtain ⟨hvalue, -, hbefore⟩ := mem_uploadChanges.mp hc
    refine ⟨hbefore.symm, ?_⟩
    rw [Finmap.lookup_union_left (Finmap.mem_of_lookup_eq_some hvalue), hvalue]
  same := by
    intro field hfield
    cases hvalue : exported.lookup field with
    | none => exact Finmap.lookup_union_right (Finmap.lookup_eq_none.mp hvalue)
    | some value =>
      rw [Finmap.lookup_union_left (Finmap.mem_of_lookup_eq_some hvalue), hvalue]
      -- a field that is not shown has the value already
      by_contra hother
      exact hfield ⟨field, remote.lookup field, value⟩
        (mem_uploadChanges.mpr ⟨hvalue, fun heq => hother heq.symm, rfl⟩) rfl

variable [FrequencyEnum]

/-- What a review shows is computed from what it read. -/
theorem reviewWork_reviewed {direction : SyncDirection} {version : SettingsFileVersion}
    {loaded : InputSettings} {review : PreferencesReview} {work : SyncWork}
    (h : reviewWork direction version loaded review = .ok work) : work.Reviewed := by
  cases direction with
  | upload =>
    have h' := h
    obtain ⟨exported, -, hwork⟩ := call_eq_ok_iff.mp h
    cases hwork
    exact h'
  | download =>
    have h' := h
    obtain ⟨preview, -, hwork⟩ := call_eq_ok_iff.mp h
    cases hwork
    exact h'

/-- The changes of a reviewed upload. -/
theorem SyncWork.Reviewed.upload {work : SyncWork} (h : work.Reviewed)
    (hdirection : work.direction = .upload) {exported : PreferenceSettings}
    (hexported : exportSettings work.loaded = .ok exported) :
    work.changes = uploadChanges exported work.review.remote.settings := by
  unfold SyncWork.Reviewed at h
  rw [hdirection] at h
  obtain ⟨exported', hexported', hwork⟩ := call_eq_ok_iff.mp h
  obtain rfl := Except.ok.inj (hexported.symm.trans hexported')
  rw [← Except.ok.inj hwork]

/-! ## What the two actions do -/

namespace SettingsSync

omit [FrequencyEnum] in
/-- What the callback does. -/
theorem saveReviewed_exec (io : WriterIo) (work : SyncWork) (s : WriterState ι) :
    let result :=
      S.saveIfUnchanged io.io io.service work.preview.settings work.version s.disk s.secrets
    ((saveReviewed S io work).exec s).1.isOk = result.error.isNone ∧
      ((saveReviewed S io work).exec s).2 =
        { s with disk := result.disk, secrets := result.secrets } := by
  intro result
  have hexec : (saveReviewed S io work).exec s =
      (if result.error.isSome then throw { status := 409 } else pure () :
        Throwing Failure (WriterState ι) Unit).exec
          { s with disk := result.disk, secrets := result.secrets } := rfl
  rw [hexec]
  cases result.error with
  | none => exact ⟨rfl, rfl⟩
  | some message => exact ⟨rfl, rfl⟩

omit [FrequencyEnum] in
/-- **What a download does**: nothing to the stores, or a save where nothing has changed. -/
theorem download_cases (s : SettingsSync ι) (work : SyncWork) :
    (s.download J S E work).1 = false ∧ (s.download J S E work).2.stores = s.stores ∨
      work.review.Current s.account ∧
      work.review.Reread E.account (s.download J S E work).2.account.calls ∧
      let result := S.saveIfUnchanged E.writer.io E.writer.service work.preview.settings
        work.version s.stores.disk s.stores.secrets
      (s.download J S E work).1 = result.error.isNone ∧
        (s.download J S E work).2.stores =
          { s.stores with disk := result.disk, secrets := result.secrets } := by
  have hspec := applyPreferences_spec (J := J) (E := E.account) work.review
    (saveReviewed S E.writer work) (s.account.over s.stores)
  have hcallback := saveReviewed_exec (S := S) E.writer work s.stores
  unfold Outcome at hspec
  unfold download
  generalize (applyPreferences J E.account work.review (saveReviewed S E.writer work)).exec
    (s.account.over s.stores) = r at hspec ⊢
  obtain ⟨result, account⟩ := r
  dsimp only at hspec hcallback ⊢
  rcases hspec with ⟨houtside, e, rfl⟩ | ⟨hcurrent, hreread, hexec⟩
  · exact .inl ⟨rfl, houtside⟩
  · have hexec' : (saveReviewed S E.writer work).exec s.stores = (result, account.outside) := hexec
    rw [hexec'] at hcallback
    exact .inr ⟨⟨hcurrent.generation, hcurrent.user⟩, hreread, hcallback.1, hcallback.2⟩

/-- **A confirmed upload.** -/
theorem upload_uploaded {s : SettingsSync ι} {work : SyncWork} (hreviewed : work.Reviewed)
    (hdirection : work.direction = .upload) :
    Uploaded E work s (s.upload J E work).2 (s.upload J E work).1 := by
  unfold upload
  cases hexported : exportSettings work.loaded with
  | error e =>
    refine ⟨rfl, ?_, nofun⟩
    intro value schema token failure hmem
    rw [show (s.goto .idle).account = s.account from rfl, List.drop_length] at hmem
    cases hmem
  | ok exported =>
    have hspec := uploadPreferences_spec (J := J) (E := E.account) work.review exported s.account
    unfold Outcome at hspec
    dsimp only
    generalize (uploadPreferences J E.account work.review exported).exec s.account = r
      at hspec ⊢
    obtain ⟨result, account⟩ := r
    obtain ⟨⟨new, hcalls, hnew⟩, hlast⟩ := hspec
    refine ⟨rfl, ?_, hlast⟩
    intro value schema token failure hmem
    dsimp only at hmem hcalls
    rw [hcalls, List.drop_left] at hmem
    obtain ⟨hcurrent, hbears, hschema, rfl⟩ := hnew _ _ hmem value schema token rfl
    refine ⟨hcurrent, hbears, hschema, rfl, ⟨exported, hexported, rfl⟩, ?_⟩
    rw [hreviewed.upload hdirection hexported]
    exact uploadChanges_overlaid _ _

omit [FrequencyEnum] in
/-- A save that is asked for a version. -/
theorem saveIfUnchanged_cases (io : WriteOutcome) (service : SecretOutcome)
    (settings : InputSettings) (expected : SettingsFileVersion) (disk : Disk)
    (secrets : SecretSlots) :
    let result := S.saveIfUnchanged io service settings expected disk secrets
    result.error ≠ none ∧ result.disk = disk ∧ result.secrets = secrets ∨
      S.version disk.config = some expected ∧
        result = S.saveWithSecretsUnlocked io service settings disk secrets := by
  unfold SettingsEnv.saveIfUnchanged
  split
  · exact .inl ⟨nofun, rfl, rfl⟩
  split
  · exact .inl ⟨nofun, rfl, rfl⟩
  split
  · exact .inl ⟨nofun, rfl, rfl⟩
  · next hversion => exact .inr ⟨not_not.mp hversion, rfl⟩

omit [FrequencyEnum] in
/-- A download that succeeds has found its session and its file as they were. -/
theorem download_current {s : SettingsSync ι} {work : SyncWork}
    (hsuccess : (s.download J S E work).1 = true) :
    work.review.Current s.account ∧
      work.review.Reread E.account (s.download J S E work).2.account.calls ∧
      S.version s.stores.disk.config = some work.version ∧
      let result := S.saveWithSecretsUnlocked E.writer.io E.writer.service work.preview.settings
        s.stores.disk s.stores.secrets
      result.error = none ∧ (s.download J S E work).2.stores =
        { s.stores with disk := result.disk, secrets := result.secrets } := by
  rcases s.download_cases (J := J) (S := S) (E := E) work with
    ⟨hfailed, -⟩ | ⟨hcurrent, hreread, hresult, hstores⟩
  · rw [hsuccess] at hfailed
    cases hfailed
  rw [hsuccess] at hresult
  have herror := Option.isNone_iff_eq_none.mp hresult.symm
  rcases saveIfUnchanged_cases (S := S) E.writer.io E.writer.service work.preview.settings
    work.version s.stores.disk s.stores.secrets with ⟨hno, -⟩ | ⟨hversion, hsaved⟩
  · exact absurd herror hno
  · rw [hsaved] at herror hstores
    exact ⟨hcurrent, hreread, hversion, herror, hstores⟩

omit [FrequencyEnum] in
/-- **A confirmed download that succeeds** is exact if and only if it found the credentials of
the review. -/
theorem download_exact_iff (hS : S.Lawful) {s : SettingsSync ι} {work : SyncWork}
    (hsuccess : (s.download J S E work).1 = true) :
    Downloaded S E work s (s.download J S E work).2 true ↔ s.Fresh S work := by
  obtain ⟨hcurrent, hreread, hversion, herror, hstores⟩ := download_current hsuccess
  have hiff := saveWithSecretsUnlocked_keeps_iff herror
  have hload := (saveWithSecretsUnlocked_saved herror).load_eq hS
  constructor
  · intro h
    refine hiff.mp fun slot token token' htoken htoken' => h.credentials slot token token' htoken ?_
    rw [hstores]
    exact htoken'
  · intro hfresh
    refine ⟨fun _ => ⟨hcurrent, hreread, hversion, ?_⟩, fun slot token token' htoken htoken' => ?_,
      nofun⟩
    · rw [hstores]
      exact hload
    · rw [hstores] at htoken'
      exact hiff.mpr hfresh slot token token' htoken htoken'

omit [FrequencyEnum] in
/-- One that fails changes nothing, if it can take back what it did. -/
theorem download_refused {s : SettingsSync ι} {work : SyncWork}
    (hfile : ¬ s.stores.disk.config.Damaged S)
    (hrestores : work.review.Current s.account →
      S.version s.stores.disk.config = some work.version → E.writer.service.Restores)
    (hfailed : (s.download J S E work).1 = false) :
    Downloaded S E work s (s.download J S E work).2 false := by
  have hsame : (s.download J S E work).2.stores.disk = s.stores.disk ∧
      (s.download J S E work).2.stores.secrets = s.stores.secrets := by
    rcases s.download_cases (J := J) (S := S) (E := E) work with
      ⟨-, hstores⟩ | ⟨hcurrent, -, hresult, hstores⟩
    · rw [hstores]
      exact ⟨rfl, rfl⟩
    rw [hfailed] at hresult
    rw [hstores]
    rcases saveIfUnchanged_cases (S := S) E.writer.io E.writer.service work.preview.settings
      work.version s.stores.disk s.stores.secrets with ⟨-, hdisk, hsecrets⟩ | ⟨hversion, hsaved⟩
    · exact ⟨hdisk, hsecrets⟩
    · dsimp only
      rw [hsaved] at hresult ⊢
      refine saveWithSecretsUnlocked_refused hfile (hrestores hcurrent hversion) ?_
      intro hnone
      rw [hnone] at hresult
      cases hresult
  refine ⟨nofun, fun slot token token' htoken htoken' => ?_, fun _ => hsame⟩
  rw [hsame.2, htoken] at htoken'
  exact (Option.some.inj htoken').symm

/-! ## The invariant is kept -/

/-- Nothing has been stored at the start. -/
theorem Sound.initial (S : SettingsEnv) (record : Option Bytes) (disk : Disk)
    (secrets : SecretSlots) :
    (SettingsSync.initial record disk secrets : SettingsSync ι).Sound S where
  serialized _ _ _ _ hpc := nomatch hpc
  file h := h.elim
  reviewed work h := by rcases h with h | h | h <;> cases h

/-- The panel has gone on, and the stores are as they were. -/
theorem Sound.goesOn {s t : SettingsSync ι} (h : s.Sound S) (hstores : t.stores = s.stores)
    (hfile : t.phase.Loaded → ¬ s.stores.disk.config.Damaged S)
    (hreviewed : ∀ work, t.phase.HasWork work → work.Reviewed) : t.Sound S where
  serialized := hstores ▸ h.serialized
  file := hstores ▸ hfile
  reviewed := hreviewed

/-- It has ended. -/
theorem Sound.idle {s t : SettingsSync ι} (h : s.Sound S) (hstores : t.stores = s.stores)
    (hphase : t.phase = .idle) : t.Sound S := by
  refine h.goesOn hstores ?_ ?_
  · rw [hphase]
    exact False.elim
  · rw [hphase]
    rintro work (hwork | hwork | hwork) <;> cases hwork

omit [FrequencyEnum] in
/-- An upload stores nothing here. -/
theorem upload_idle (s : SettingsSync ι) (work : SyncWork) :
    (s.upload J E work).2.stores = s.stores ∧ (s.upload J E work).2.phase = .idle := by
  unfold upload
  split <;> exact ⟨rfl, rfl⟩

/-- A review leaves the stores alone, and so does the reading of a version. -/
theorem worker_stores {s : SettingsSync ι} (h : ∀ work, s.phase ≠ .acting work) :
    (s.worker J S E).stores = s.stores := by
  unfold worker
  split
  · split <;> rfl
  · rfl
  · next field _ _ _ _ => cases field <;> rfl
  · split
    · rfl
    · split <;> rfl
  · unfold ask
    split
    · rfl
    · split <;> rfl
  · split <;> rfl
  · next work hphase => exact absurd hphase (h work)
  · rfl
  · rfl

/-- A step of the worker. -/
theorem Sound.worker {s : SettingsSync ι} (h : s.Sound S) : (s.worker J S E).Sound S := by
  have hfile := h.file
  have hreviewed := h.reviewed
  unfold SettingsSync.worker
  cases hphase : s.phase with
  | idle => exact h
  | showing work => exact h
  | begun direction =>
    dsimp only
    split
    · exact h.idle rfl rfl
    · refine h.goesOn rfl False.elim ?_
      rintro work (hwork | hwork | hwork) <;> cases hwork
  | reading direction before =>
    refine h.goesOn rfl load_warning ?_
    rintro work (hwork | hwork | hwork) <;> cases hwork
  | hydrating field direction before loaded =>
    rw [hphase] at hfile
    cases field with
    | ai =>
      refine h.goesOn rfl (fun hwarning => hfile (hydrateAi_warning hwarning)) ?_
      rintro work (hwork | hwork | hwork) <;> cases hwork
    | translation =>
      refine h.goesOn rfl (fun hwarning => hfile (hydrateTranslation_warning hwarning)) ?_
      rintro work (hwork | hwork | hwork) <;> cases hwork
    | voice =>
      refine h.goesOn rfl (fun hwarning => hfile (hydrateVoice_warning hwarning)) ?_
      rintro work (hwork | hwork | hwork) <;> cases hwork
  | rereading direction before loaded =>
    rw [hphase] at hfile
    dsimp only
    split
    · exact h.idle rfl rfl
    split
    · next hwarning _ =>
      refine h.goesOn rfl (fun _ => hfile (not_not.mp hwarning)) ?_
      rintro work (hwork | hwork | hwork) <;> cases hwork
    · exact h.idle rfl rfl
  | asking direction version loaded =>
    rw [hphase] at hfile
    dsimp only [ask]
    split
    · exact h.idle rfl rfl
    · split
      · exact h.idle rfl rfl
      · next work hwork =>
        refine h.goesOn rfl (fun _ => hfile trivial) ?_
        rintro work' (hwork' | hwork' | hwork') <;> cases hwork'
        exact reviewWork_reviewed hwork
  | confirmed work =>
    rw [hphase] at hfile hreviewed
    dsimp only
    split
    · refine h.goesOn rfl (fun _ => hfile trivial) ?_
      rintro work' (hwork | hwork | hwork) <;> cases hwork
      exact hreviewed work (.inr (.inl rfl))
    · exact h.idle rfl rfl
  | acting work =>
    dsimp only
    cases work.direction with
    | upload => exact h.idle (s.upload_idle work).1 (s.upload_idle work).2
    | download =>
      -- the calls of the others stand where they stood
      have hpc : (s.download J S E work).2.stores.pc = s.stores.pc := by
        rcases s.download_cases (J := J) (S := S) (E := E) work with
          ⟨-, hstores⟩ | ⟨-, -, -, hstores⟩
        · rw [hstores]
        · rw [hstores]
      refine ⟨fun i made found data => ?_, False.elim, ?_⟩
      · show (s.download J S E work).2.stores.pc i = _ → _
        rw [hpc]
        exact h.serialized i made found data
      · rintro work' (hwork | hwork | hwork) <;> cases hwork

/-- **The step lemma.** -/
theorem Sound.step [DecidableEq ι] {calls : ι → SaveCall} (hS : S.Lawful) {s t : SettingsSync ι}
    {e : SyncEvent ι} (h : s.Sound S) (hstep : Step J S calls s e t) : t.Sound S := by
  obtain ⟨-, rfl⟩ := hstep
  cases e with
  | click direction =>
    refine h.goesOn rfl False.elim ?_
    rintro work (hwork | hwork | hwork) <;> cases hwork
  | worker E => exact h.worker
  | answer confirmed =>
    show (s.answered confirmed).Sound S
    unfold answered
    split
    · next work hphase =>
      split
      · refine h.goesOn rfl (fun _ => h.file (by rw [hphase]; trivial)) ?_
        rintro work' (hwork | hwork | hwork) <;> cases hwork
        exact h.reviewed work (.inl hphase)
      · exact h.idle rfl rfl
    · exact h
  | refresh => exact h.goesOn rfl h.file h.reviewed
  | session E operation => exact h.goesOn rfl h.file h.reviewed
  | writer i io =>
    have hwriter : (writerStep S calls s.stores i io).Serialized S ∧ _ :=
      h.serialized.step hS i io
    obtain ⟨hserialized, hkept⟩ := hwriter
    exact ⟨hserialized, fun hloaded => hkept (h.file hloaded), h.reviewed⟩

/-- **The run lemma.** -/
theorem run_sound [DecidableEq ι] {calls : ι → SaveCall} (hS : S.Lawful) {record : Option Bytes}
    {disk : Disk} {secrets : SecretSlots} {events : List (SyncEvent ι)} {s : SettingsSync ι}
    (hrun : Run (Step J S calls) (initial record disk secrets) events s) : s.Sound S := by
  refine hrun.invariant ?_ (.initial S record disk secrets)
  intro s e t h hstep
  exact h.step hS hstep

/-- What a confirmed action does. -/
theorem worker_acting {s : SettingsSync ι} {work : SyncWork} (hphase : s.phase = .acting work) :
    s.worker J S E = match work.direction with
      | .upload => (s.upload J E work).2
      | .download => (s.download J S E work).2 := by
  unfold SettingsSync.worker
  rw [hphase]

omit [FrequencyEnum] in
/-- The acting step of either direction does what that direction says. -/
theorem exact_acting {s t : SettingsSync ι} {work : SyncWork} (hphase : s.phase = .acting work) :
    Exact J S s (.worker E) t ↔ match work.direction with
      | .upload => Uploaded E work s t (s.upload J E work).1
      | .download => Downloaded S E work s t (s.download J S E work).1 := by
  unfold Exact
  dsimp only
  rw [hphase]

/-- **A step of the worker is exact**, if nobody has disturbed it. -/
theorem Sound.exact_worker (hS : S.Lawful) {s : SettingsSync ι} (h : s.Sound S)
    (hundisturbed : s.Undisturbed S (.worker E)) :
    Exact J S s (.worker E) (s.worker J S E) := by
  by_cases hacting : ∃ work, s.phase = .acting work
  · obtain ⟨work, hphase⟩ := hacting
    rw [exact_acting hphase, worker_acting hphase]
    cases hdirection : work.direction with
    | upload => exact upload_uploaded (h.reviewed work (.inr (.inr hphase))) hdirection
    | download =>
      have hcondition := hundisturbed work hphase hdirection
      dsimp only
      cases hsuccess : (s.download J S E work).1 with
      | true =>
        obtain ⟨hcurrent, -, hversion, -⟩ := download_current hsuccess
        exact (download_exact_iff hS hsuccess).mpr (hcondition hcurrent hversion).1
      | false =>
        exact download_refused (h.file (by rw [hphase]; trivial))
          (fun hcurrent hversion => (hcondition hcurrent hversion).2) hsuccess
  · have hstores := worker_stores (J := J) (S := S) (E := E) fun work hphase =>
      hacting ⟨work, hphase⟩
    unfold Exact
    dsimp only
    split
    · next work hphase => exact absurd ⟨work, hphase⟩ hacting
    · exact hstores

omit [FrequencyEnum] in
/-- An answer of the user stores nothing by itself. -/
theorem answered_stores (s : SettingsSync ι) (confirmed : Bool) :
    (s.answered confirmed).stores = s.stores := by
  unfold answered
  split
  · split <;> rfl
  · rfl

end SettingsSync

open SettingsSync

/-- **Settings sync does what was reviewed, or nothing**, whatever the others do between two of
its steps: at every step that finds the credentials of the review, if it finds the rest of it,
and whose service takes back what a failed save has changed. A download that succeeds is exact
only then. -/
theorem settingsSync_exact [DecidableEq ι] {calls : ι → SaveCall} (hS : S.Lawful)
    {record : Option Bytes} {disk : Disk} {secrets : SecretSlots} {events : List (SyncEvent ι)}
    {s t : SettingsSync ι} {e : SyncEvent ι}
    (hrun : Run (Step J S calls) (initial record disk secrets) events s)
    (hstep : Step J S calls s e t) :
    (s.Undisturbed S e → Exact J S s e t) ∧
    ∀ E work, e = .worker E → s.phase = .acting work → work.direction = .download →
      (s.download J S E work).1 = true → (Exact J S s e t ↔ s.Fresh S work) := by
  have hsound := run_sound hS hrun
  obtain ⟨-, rfl⟩ := hstep
  constructor
  · intro hundisturbed
    cases e with
    | worker E => exact hsound.exact_worker hS hundisturbed
    | writer i io => trivial
    | answer confirmed => exact s.answered_stores confirmed
    | click direction => rfl
    | refresh => rfl
    | session E operation => rfl
  · rintro E work rfl hphase hdirection hsuccess
    show Exact J S s (.worker E) (s.worker J S E) ↔ _
    rw [exact_acting hphase, worker_acting hphase, hdirection, ← download_exact_iff hS hsuccess,
      hsuccess]

end

/-! ## Runs that end well -/

namespace SettingsSync

section

variable [FrequencyEnum] {ι : Type} [DecidableEq ι] {J : JsonLib} {S : SettingsEnv}
  {calls : ι → SaveCall} {s : SettingsSync ι} {E : SyncEnv}

/-- The saves of the others go on. -/
theorem writer_run (s : SettingsSync ι) (labels : List (ι × WriterIo)) :
    Run (Step J S calls) s (labels.map fun label => .writer label.1 label.2)
      { s with stores := writerRun S calls s.stores labels } := by
  induction labels generalizing s with
  | nil => exact .nil s
  | cons label labels ih =>
    exact .cons ⟨trivial, rfl⟩ (ih { s with stores := writerStep S calls s.stores label.1 label.2 })

/-- What is shown is confirmed. -/
theorem answer_run (work : SyncWork) (hchanges : work.changes ≠ []) :
    Run (Step J S calls) (s.goto (.showing work)) [.answer true] (s.goto (.confirmed work)) := by
  refine .single ⟨trivial, ?_⟩
  show s.goto (.confirmed work) = if !work.changes.isEmpty && true then _ else _
  rw [if_pos (by simpa using hchanges)]
  rfl

/-- The version is read again for what was confirmed. -/
theorem confirmed_run (work : SyncWork)
    (hversion : S.version s.stores.disk.config = some work.version) :
    Run (Step J S calls) (s.goto (.confirmed work)) [.worker E] (s.goto (.acting work)) := by
  refine .single ⟨fun work hacting => absurd hacting (by simp [goto]), ?_⟩
  show s.goto (.acting work) = if S.version s.stores.disk.config = some work.version then _ else _
  rw [if_pos hversion]
  rfl

/-- A step of the worker, of a phase that changes no store. -/
theorem worker_step {phase : SyncPhase} {t : SettingsSync ι}
    (hphase : ∀ work, phase ≠ .acting work) (h : (s.goto phase).worker J S E = t) :
    Step J S calls (s.goto phase) (.worker E) t :=
  ⟨fun work hacting => absurd hacting (hphase work), h.symm⟩

/-- **A review that nobody disturbs** loads the file with its credentials. -/
theorem review_run {direction : SyncDirection} {version : SettingsFileVersion}
    {loaded : InputSettings} {review : PreferencesReview} {account : AccountWorld Unit}
    {work : SyncWork} (hidle : s.phase = .idle)
    (hversion : S.version s.stores.disk.config = some version)
    (hloaded : S.loadWithSecrets (s.stores.secrets.lookup E.answered) s.stores.disk.config =
      (loaded, ""))
    (hreview : (reviewPreferences J E.account s.known).exec s.account = (.ok review, account))
    (hwork : reviewWork direction version loaded review = .ok work) :
    Run (Step J S calls) s (.click direction :: List.replicate 7 (.worker E))
      { s with account, phase := .showing work } := by
  let secrets := s.stores.secrets.lookup E.answered
  let found := S.load s.stores.disk.config
  have hbegun : (s.goto (.begun direction)).worker J S E = s.goto (.reading direction version) := by
    show (match S.version s.stores.disk.config with
      | none => s.goto .idle
      | some before => s.goto (.reading direction before)) = _
    rw [hversion]
  -- the version is read twice, and is the same
  have hrereading : (s.goto (.rereading direction version (loaded, ""))).worker J S E =
      s.goto (.asking direction version loaded) := by
    show (if "" ≠ "" then s.goto .idle
      else if S.version s.stores.disk.config = some version then
        s.goto (.asking direction version loaded)
      else s.goto .idle) = _
    rw [if_neg (not_not.mpr rfl), if_pos hversion]
  have hasking : (s.goto (.asking direction version loaded)).worker J S E =
      { s with account, phase := .showing work } := by
    show s.ask J E direction version loaded = _
    unfold ask
    rw [hreview]
    dsimp only
    rw [hwork]
  -- the moments of the worker, one after another
  refine .cons (t := s.goto (.begun direction)) ⟨hidle, rfl⟩ ?_
  refine .cons (t := s.goto (.reading direction version)) (worker_step (by simp) hbegun) ?_
  refine .cons (t := s.goto (.hydrating .ai direction version found)) (worker_step (by simp) rfl) ?_
  refine .cons (t := s.goto (.hydrating .translation direction version (hydrateAi secrets found)))
    (worker_step (by simp) rfl) ?_
  refine .cons (t := s.goto (.hydrating .voice direction version
    (hydrateTranslation secrets (hydrateAi secrets found)))) (worker_step (by simp) rfl) ?_
  refine .cons (t := s.goto (.rereading direction version (loaded, "")))
    (worker_step (by simp) ?_) ?_
  · show s.goto (.rereading direction version _) = _
    rw [← hloaded]
    rfl
  exact .cons (worker_step (by simp) hrereading) (.single (worker_step (by simp) hasking))

end

end SettingsSync

/-! ## A credential comes back -/

/-- What is saved: AI suggestions are on. -/
def assistantSettings (pageSize : Nat) (token : Bytes) : InputSettings :=
  { pageSize, online := { ai := { enabled := true, token } } }

/-- The settings of the example are valid. -/
theorem assistantSettings_valid {pageSize : Nat} {token : Bytes}
    (hsize : 3 ≤ pageSize ∧ pageSize ≤ 9) (htoken : tokenAllowed token = true) :
    validInputSettings plainEnv.supportedHelpcodeSchema (assistantSettings pageSize token) = true :=
  validInputSettings_iff.mpr
    { validInputSettings_default plainEnv_lawful.lantian with
      pageSize := hsize
      aiToken := htoken }

def assistantSlot : SecretSlot := (.aiApiToken, AiProvider.deepSeek.name)

/-- A store with a token. -/
def assistantSecrets (token : Bytes) : SecretSlots :=
  Function.update (fun _ => none) assistantSlot (some token)

/-- The other process saves the same settings, with another token. -/
def otherToken (_ : Unit) : SaveCall := .saveWithSecrets (assistantSettings 9 (ascii "sk-2"))

/-- The file they are first saved to. -/
theorem assistantSettings_saved :
    plainEnv.Saved (assistantSettings 9 []) {} (plainEnv.save {} (assistantSettings 9 []) {}).disk
      (plainEnv.save {} (assistantSettings 9 []) {}).digest :=
  SettingsEnv.save_ok (save_missing (assistantSettings_valid (by decide) (by decide)))

/-- They read back once they are saved. -/
theorem assistantSettings_file {before disk : Disk} {digest : Option Bytes}
    (hsaved : plainEnv.Saved (assistantSettings 9 []) before disk digest) :
    ∃ data, data ≠ [] ∧ disk.config = .regular data ∧
      plainEnv.load (.regular data) = (assistantSettings 9 [], "") := by
  obtain ⟨data, file, hconfig, -, -⟩ := hsaved.file plainEnv_lawful
  have hload := hsaved.load_eq plainEnv_lawful
  rw [hconfig] at hload
  refine ⟨data, ?_, hconfig, hload⟩
  -- an empty file has the default settings
  rintro rfl
  exact absurd (congrArg (·.1.online.ai.enabled) hload) (by decide)

/-- One token is filed after the other. -/
theorem assistant_files {persisted : InputSettings}
    (hpersisted : persisted = assistantSettings 9 []) :
    (∃ made, fileSecrets {} (assistantSecrets (ascii "sk-1")) persisted
      (assistantSettings 9 (ascii "sk-2")) = (.ok made, assistantSecrets (ascii "sk-2"))) ∧
    ∃ made, fileSecrets {} (assistantSecrets (ascii "sk-2")) persisted
      (assistantSettings 5 (ascii "sk-1")) = (.ok made, assistantSecrets (ascii "sk-1")) := by
  have hupdate : ∀ token token', Function.update (assistantSecrets token) assistantSlot
      (some token') = assistantSecrets token' := fun token token' => Function.update_idem ..
  subst hpersisted
  constructor
  · rw [← hupdate (ascii "sk-1") (ascii "sk-2")]
    exact ⟨_, rfl⟩
  · rw [← hupdate (ascii "sk-2") (ascii "sk-1")]
    exact ⟨_, rfl⟩

/-- The remote settings: another page size. -/
def sharedPage : Preferences where
  revision := 5
  settings := Finmap.singleton (ascii "appearance.page_size") (.int64 5)

def sharedReview : PreferencesReview :=
  ⟨1, guardSession.tokens.user.id, sharedPage, ⟨1024, ∅⟩⟩

/-- What the backend answers. -/
def sharingEnv : SyncEnv where
  account := { quietEnv 1000 with
    respond := fun _ request =>
      match request with
      | .preferences _ => .ok sharedPage
      | .preferencesSchema _ => .ok ⟨1024, ∅⟩
      | _ => .error { status := 0 } }

/-- What is reviewed. -/
def sharedWork (data : Bytes) : SyncWork where
  direction := .download
  loaded := assistantSettings 9 (ascii "sk-1")
  version := ⟨false, data⟩
  review := sharedReview
  preview := {
    settings := assistantSettings 5 (ascii "sk-1")
    changes := [⟨ascii "appearance.page_size", .int64 9, .int64 5⟩] }
  changes := [⟨ascii "appearance.page_size", some (.int64 9), .int64 5⟩]

section

local instance sharedModes : FrequencyEnum := orderedModes

/-- Its remote page gives the preview that is shown. -/
theorem sharedPage_prepared :
    prepareDownload (assistantSettings 9 (ascii "sk-1")) sharedPage =
      .ok (sharedWork []).preview := by
  decide +kernel

theorem sharedWork_reviewed (data : Bytes) :
    reviewWork .download ⟨false, data⟩ (assistantSettings 9 (ascii "sk-1")) sharedReview =
      .ok (sharedWork data) := by
  show (prepareDownload (assistantSettings 9 (ascii "sk-1")) sharedPage >>= _) = _
  rw [sharedPage_prepared]
  rfl

/-- The session of the sample is there. -/
structure AccountWorld.SignedIn {ω : Type} (w : AccountWorld ω) : Prop where
  restored : w.restored = true
  generation : w.generation = 1
  session : w.session = some guardSession

theorem AccountWorld.SignedIn.review {ω : Type} {w : AccountWorld ω} (h : w.SignedIn) :
    ∃ calls, (reviewPreferences guardJson sharingEnv.account 1).exec w =
      (.ok sharedReview, { w with calls := calls }) := by
  obtain ⟨restored, generation, session, record, calls, outside⟩ := w
  obtain ⟨rfl, rfl, rfl⟩ := h
  exact ⟨_, rfl⟩

theorem AccountWorld.SignedIn.apply {ω ω' : Type} {w : AccountWorld ω'} (h : w.SignedIn)
    (callback : Callback ω) (outside : ω) :
    ((applyPreferences guardJson sharingEnv.account sharedReview callback).exec
      (w.over outside)).1 = (callback.exec outside).1 := by
  obtain ⟨restored, generation, session, record, calls, outside'⟩ := w
  obtain ⟨rfl, rfl, rfl⟩ := h
  have hexec : (applyPreferences guardJson sharingEnv.account sharedReview callback).exec
      ⟨true, 1, some guardSession, record, calls, outside⟩ = (runCallback callback).exec
        ⟨true, 1, some guardSession, record, calls ++
          [.request (.preferences guardSession.tokens.accessToken) none], outside⟩ := rfl
  have hcallback : ∀ w : AccountWorld ω,
      ((runCallback callback).exec w).1 = (callback.exec w.outside).1 := by
    intro w
    show Outcome (runCallback callback) w fun result _ => result = (callback.exec w.outside).1
    unfold runCallback
    rw [Outcome.get_bind_iff]
    rcases callback.exec w.outside with ⟨_ | _, outside⟩
    · exact Outcome.modify_bind_iff.mpr rfl
    · exact Outcome.modify_bind_iff.mpr rfl
  unfold AccountWorld.over
  rw [hexec, hcallback]

namespace SettingsSync

/-- A download succeeds whose save does, if the session runs it. -/
theorem download_succeeds {ι : Type} {J : JsonLib} {S : SettingsEnv} {s : SettingsSync ι}
    {E : SyncEnv} {work : SyncWork}
    (hruns : ((applyPreferences J E.account work.review (saveReviewed S E.writer work)).exec
      (s.account.over s.stores)).1 = ((saveReviewed S E.writer work).exec s.stores).1)
    (herror : (S.saveIfUnchanged E.writer.io E.writer.service work.preview.settings work.version
      s.stores.disk s.stores.secrets).error = none) : (s.download J S E work).1 = true := by
  show Except.isOk ((applyPreferences J E.account work.review
    (saveReviewed S E.writer work)).exec (s.account.over s.stores)).1 = true
  rw [hruns, (saveReviewed_exec E.writer work s.stores).1, herror]
  rfl

/-- What one that succeeds leaves in the store. -/
theorem download_secrets {ι : Type} {J : JsonLib} {S : SettingsEnv} {s : SettingsSync ι}
    {E : SyncEnv} {work : SyncWork} (hsuccess : (s.download J S E work).1 = true) :
    (s.download J S E work).2.stores.secrets =
      (S.saveWithSecretsUnlocked E.writer.io E.writer.service work.preview.settings s.stores.disk
        s.stores.secrets).secrets := by
  obtain ⟨-, -, -, -, hstores⟩ := download_current hsuccess
  rw [hstores]

/-- The download of the sample, if the file and the session are as they were. -/
theorem sharedWork_download {s : SettingsSync Unit} {data : Bytes}
    {made : List (Change SecretSlot Bytes)} {after : SecretSlots} (hsession : s.account.SignedIn)
    (hne : data ≠ []) (hconfig : s.stores.disk.config = .regular data)
    (hfiled : fileSecrets {} s.stores.secrets (plainEnv.load s.stores.disk.config).1
      (assistantSettings 5 (ascii "sk-1")) = (.ok made, after)) :
    let d := s.download guardJson plainEnv sharingEnv (sharedWork data)
    d.1 = true ∧ d.2.stores.secrets = after := by
  intro d
  have hvalid : validInputSettings plainEnv.supportedHelpcodeSchema
      (assistantSettings 5 (ascii "sk-1")) = true :=
    assistantSettings_valid (by decide) (by decide)
  have hversion : plainEnv.version s.stores.disk.config = some ⟨false, data⟩ := by
    rw [hconfig]
    exact if_neg hne
  obtain ⟨herror, hsecrets⟩ := saveWithSecretsUnlocked_regular hvalid hconfig hfiled
  rw [← saveIfUnchanged_found hvalid hversion] at herror
  have hsuccess : d.1 = true := download_succeeds (hsession.apply _ _) herror
  have hsame : plainEnv.saveWithSecretsUnlocked sharingEnv.writer.io sharingEnv.writer.service
      (sharedWork data).preview.settings s.stores.disk s.stores.secrets =
        plainEnv.saveWithSecretsUnlocked {} {} (assistantSettings 5 (ascii "sk-1")) s.stores.disk
          s.stores.secrets := rfl
  refine ⟨hsuccess, ?_⟩
  rw [download_secrets hsuccess, hsame, hsecrets]

/-- The store of the sample, when nobody saves. -/
def sharedStores (disk : Disk) : WriterState Unit := .initial disk (assistantSecrets (ascii "sk-1"))

/-- The review of the sample. -/
theorem sharedReview_run {account : AccountWorld Unit} (hsession : account.SignedIn) {disk : Disk}
    {data : Bytes} (hne : data ≠ []) (hconfig : disk.config = .regular data)
    (hload : plainEnv.load (.regular data) = (assistantSettings 9 [], "")) :
    ∃ account' : AccountWorld Unit, account'.SignedIn ∧
      Run (Step guardJson plainEnv otherToken)
        { account, stores := sharedStores disk, known := 1 }
        (.click .download :: List.replicate 7 (.worker sharingEnv))
        { account := account', stores := sharedStores disk, known := 1,
          phase := .showing (sharedWork data) } := by
  obtain ⟨calls, hreview⟩ := hsession.review
  have hversion : plainEnv.version disk.config = some ⟨false, data⟩ := by
    rw [hconfig]
    exact if_neg hne
  have hloaded : plainEnv.loadWithSecrets ((assistantSecrets (ascii "sk-1")).lookup true)
      disk.config = (assistantSettings 9 (ascii "sk-1"), "") := by
    unfold SettingsEnv.loadWithSecrets
    rw [hconfig, hload]
    rfl
  refine ⟨{ account with calls }, ⟨hsession.1, hsession.2, hsession.3⟩, ?_⟩
  exact review_run (s := { account, stores := sharedStores disk, known := 1 }) rfl hversion hloaded
    hreview (sharedWork_reviewed data)

/-- The session of the sample is restored, and looked at. -/
theorem restored_run (disk : Disk) :
    Run (Step guardJson plainEnv otherToken)
      (initial (some (guardText 'a' 'b' "1900")) disk (assistantSecrets (ascii "sk-1")))
      [.session (quietEnv 1000) .restore, .refresh]
      { account := restoredWorld, stores := sharedStores disk, known := 1 } := by
  have hgeneration := restoredWorld_signedIn.2.1
  have hrestored : restoredWorld = SessionOperation.after guardJson (quietEnv 1000) .restore
      (.initial (some (guardText 'a' 'b' "1900")) ()) := by
    unfold restoredWorld
    rfl
  generalize restoredWorld = account at hgeneration hrestored ⊢
  refine .cons (t := { account, stores := sharedStores disk }) ⟨trivial, ?_⟩
    (.single ⟨trivial, ?_⟩)
  · rw [hrestored]
    rfl
  · rw [← hgeneration]
    rfl

/-- The sample, up to its confirmation. -/
theorem sharedEvents_run {disk : Disk} {data : Bytes} (hne : data ≠ [])
    (hconfig : disk.config = .regular data)
    (hload : plainEnv.load (.regular data) = (assistantSettings 9 [], "")) :
    ∃ (events : List (SyncEvent Unit)) (account : AccountWorld Unit), account.SignedIn ∧
      Run (Step guardJson plainEnv otherToken)
        (initial (some (guardText 'a' 'b' "1900")) disk (assistantSecrets (ascii "sk-1"))) events
        { account, stores := sharedStores disk, known := 1,
          phase := .confirmed (sharedWork data) } := by
  obtain ⟨hrestored, hgeneration, hsession⟩ := restoredWorld_signedIn
  obtain ⟨account, haccount, hreviewed⟩ :=
    sharedReview_run ⟨hrestored, hgeneration, hsession⟩ hne hconfig hload
  have hshowing := (restored_run disk).append hreviewed
  exact ⟨_, account, haccount, hshowing.append (answer_run
    (s := { account, stores := sharedStores disk, known := 1 }) (sharedWork data) nofun)⟩

/-- The save of the other process leaves the file as it is. -/
theorem otherToken_run {before disk : Disk} {digest : Option Bytes}
    (hsaved : plainEnv.Saved (assistantSettings 9 []) before disk digest)
    (hmissing : before.config = .missing) :
    let w := writerRun plainEnv otherToken (sharedStores disk) (List.replicate 5 ((), {}))
    w.disk.config = disk.config ∧ w.secrets = assistantSecrets (ascii "sk-2") ∧
      w.holder = none := by
  intro w
  obtain ⟨data, file, hconfig, -, -⟩ := hsaved.file plainEnv_lawful
  have hpersisted : (plainEnv.load disk.config).1 = assistantSettings 9 [] := by
    rw [hsaved.load_eq plainEnv_lawful]
    rfl
  have hvalid : validInputSettings plainEnv.supportedHelpcodeSchema
      (assistantSettings 9 (ascii "sk-2")) = true := assistantSettings_valid (by decide) (by decide)
  obtain ⟨⟨made, hfiled⟩, -⟩ := assistant_files hpersisted
  obtain ⟨herror, hsecrets⟩ := saveWithSecretsUnlocked_regular hvalid hconfig hfiled
  have hperform : (otherToken ()).perform plainEnv {} disk (assistantSecrets (ascii "sk-1")) =
      plainEnv.saveWithSecretsUnlocked {} {} (assistantSettings 9 (ascii "sk-2")) disk
        (assistantSecrets (ascii "sk-1")) :=
    SaveCall.perform_valid (otherToken ()) hvalid rfl (by simp [otherToken])
  have hended : w.Ended () _ _ _ := writerRun_alone rfl rfl {}
  have hinv : w.Inv plainEnv otherToken _ := writerRun_inv plainEnv otherToken _ _ _
  refine ⟨?_, ?_, ?_⟩
  · refine (congrArg Disk.config (hended.disk.trans (congrArg _ hperform))).trans ?_
    exact hsaved.again hmissing (saveWithSecretsUnlocked_saved herror) rfl
  · exact hended.secrets.trans ((congrArg _ hperform).trans hsecrets)
  · have hholds := hinv.holds ()
    rw [hended.pc] at hholds
    cases hholder : w.holder with
    | none => rfl
    | some i => exact absurd (hholds.mp hholder) (by simp [WriterPc.isInside])

/-- The token of the review is the one that is stored. -/
theorem assistantSecrets_kept {persisted : InputSettings} {pageSize : Nat} {token : Bytes} :
    KeepsCredentials (assistantSecrets token)
      (credentialUses persisted (assistantSettings pageSize token)) := by
  intro use huse _ stored hstored
  have hslot : (use.kind, use.provider) = assistantSlot ∧ stored = token := by
    by_cases hslot : (use.kind, use.provider) = assistantSlot
    · rw [hslot, assistantSecrets, Function.update_self] at hstored
      exact ⟨hslot, (Option.some.inj hstored).symm⟩
    · rw [assistantSecrets, Function.update_of_ne hslot] at hstored
      cases hstored
  rw [hslot.2]
  have hkind := congrArg Prod.fst hslot.1
  simp only [credentialUses, List.mem_cons, List.not_mem_nil, or_false] at huse
  rcases huse with rfl | rfl | rfl
  · rfl
  · cases hkind
  · cases hkind

/-- What is confirmed is carried out, if the file is as it was. -/
theorem sharedConfirmed_run (account : AccountWorld Unit) (stores : WriterState Unit)
    {data : Bytes} (hne : data ≠ []) (hconfig : stores.disk.config = .regular data) :
    Run (Step guardJson plainEnv otherToken)
      { account, stores, known := 1, phase := .confirmed (sharedWork data) } [.worker sharingEnv]
      { account, stores, known := 1, phase := .acting (sharedWork data) } := by
  refine confirmed_run (s := { account, stores, known := 1 }) (sharedWork data) ?_
  show plainEnv.version stores.disk.config = some ⟨false, data⟩
  rw [hconfig]
  exact if_neg hne

/-- The download of the sample is a step. -/
theorem sharedWork_step {s : SettingsSync Unit} {data : Bytes}
    (hphase : s.phase = .acting (sharedWork data)) (hfree : s.stores.holder = none) :
    Step guardJson plainEnv otherToken s (.worker sharingEnv)
      (s.download guardJson plainEnv sharingEnv (sharedWork data)).2 :=
  ⟨fun _ _ _ => hfree, (worker_acting hphase).symm⟩

/-- The sample up to its download, if nobody saves. -/
theorem sharedActing_run {disk : Disk} {data : Bytes} (hne : data ≠ [])
    (hconfig : disk.config = .regular data)
    (hload : plainEnv.load (.regular data) = (assistantSettings 9 [], "")) :
    ∃ (events : List (SyncEvent Unit)) (s : SettingsSync Unit),
      Run (Step guardJson plainEnv otherToken)
        (initial (some (guardText 'a' 'b' "1900")) disk (assistantSecrets (ascii "sk-1")))
        events s ∧
      s.account.SignedIn ∧ s.phase = .acting (sharedWork data) ∧
      s.stores.disk.config = .regular data ∧ s.stores.secrets = assistantSecrets (ascii "sk-1") ∧
      s.stores.holder = none := by
  obtain ⟨events, account, haccount, hrun⟩ := sharedEvents_run hne hconfig hload
  exact ⟨_, _, hrun.append (sharedConfirmed_run account (sharedStores disk) hne hconfig), haccount,
    rfl, hconfig, rfl, rfl⟩

/-- And if the other process does, between the confirmation and the download. -/
theorem overtaken_run {before disk : Disk} {digest : Option Bytes} {data : Bytes} (hne : data ≠ [])
    (hsaved : plainEnv.Saved (assistantSettings 9 []) before disk digest)
    (hmissing : before.config = .missing) (hconfig : disk.config = .regular data)
    (hload : plainEnv.load (.regular data) = (assistantSettings 9 [], "")) :
    ∃ (events : List (SyncEvent Unit)) (s : SettingsSync Unit),
      Run (Step guardJson plainEnv otherToken)
        (initial (some (guardText 'a' 'b' "1900")) disk (assistantSecrets (ascii "sk-1")))
        events s ∧
      s.account.SignedIn ∧ s.phase = .acting (sharedWork data) ∧
      s.stores.disk.config = .regular data ∧ s.stores.secrets = assistantSecrets (ascii "sk-2") ∧
      s.stores.holder = none := by
  obtain ⟨events, account, haccount, hrun⟩ := sharedEvents_run hne hconfig hload
  obtain ⟨hsame, hsecrets, hfree⟩ := otherToken_run hsaved hmissing
  have hwriter : Run (Step guardJson plainEnv otherToken) _ _ _ := writer_run
    { account, stores := sharedStores disk, known := 1, phase := .confirmed (sharedWork data) }
    (List.replicate 5 ((), {}))
  dsimp only at hwriter
  generalize writerRun plainEnv otherToken (sharedStores disk) (List.replicate 5 ((), {})) = stores
    at hwriter hsame hsecrets hfree
  rw [hconfig] at hsame
  exact ⟨_, _, (hrun.append hwriter).append (sharedConfirmed_run account stores hne hsame),
    haccount, rfl, hsame, hsecrets, hfree⟩

end SettingsSync

open SettingsSync

/-- The confirmed download of the sample, if nobody saves: the settings are the reviewed ones. -/
theorem settingsSync_exact_shared : ∃ (events : List (SyncEvent Unit)) (s t : SettingsSync Unit),
    Run (Step guardJson plainEnv otherToken)
      (initial (some (guardText 'a' 'b' "1900"))
        (plainEnv.save {} (assistantSettings 9 []) {}).disk (assistantSecrets (ascii "sk-1")))
      events s ∧
    Step guardJson plainEnv otherToken s (.worker sharingEnv) t ∧
    Exact guardJson plainEnv s (.worker sharingEnv) t ∧
    plainEnv.load t.stores.disk.config = (assistantSettings 5 [], "") := by
  obtain ⟨data, hne, hconfig, hload⟩ := assistantSettings_file assistantSettings_saved
  obtain ⟨events, s, hrun, hsession, hphase, hdisk, hsecrets, hfree⟩ :=
    sharedActing_run hne hconfig hload
  have hstep := sharedWork_step hphase hfree
  have hexact := (settingsSync_exact plainEnv_lawful hrun hstep).1 fun work hwork _ _ _ => by
    obtain rfl : sharedWork data = work := SyncPhase.acting.inj (hphase.symm.trans hwork)
    refine ⟨?_, fun _ => rfl⟩
    unfold Fresh
    rw [hsecrets]
    exact assistantSecrets_kept
  refine ⟨events, s, _, hrun, hstep, hexact, ?_⟩
  obtain ⟨made, after, hfiled⟩ : ∃ made after, fileSecrets {} s.stores.secrets
      (plainEnv.load s.stores.disk.config).1 (assistantSettings 5 (ascii "sk-1")) =
        (.ok made, after) := by
    rw [hsecrets, hdisk, hload]
    exact ⟨_, _, rfl⟩
  rw [exact_acting hphase] at hexact
  exact (hexact.applied (sharedWork_download hsession hne hdisk hfiled).1).load_eq

/-- **A credential comes back.** The token is replaced after the review, without a change of the
file; the confirmed download finds everything as reviewed, and files the token of the review. -/
theorem credential_reverted : ∃ (events : List (SyncEvent Unit)) (s t : SettingsSync Unit),
    Run (Step guardJson plainEnv otherToken)
      (initial (some (guardText 'a' 'b' "1900"))
        (plainEnv.save {} (assistantSettings 9 []) {}).disk (assistantSecrets (ascii "sk-1")))
      events s ∧
    Step guardJson plainEnv otherToken s (.worker sharingEnv) t ∧
    s.stores.secrets assistantSlot = some (ascii "sk-2") ∧
    t.stores.secrets assistantSlot = some (ascii "sk-1") ∧
    ¬ Exact guardJson plainEnv s (.worker sharingEnv) t := by
  have hsaved := assistantSettings_saved
  obtain ⟨data, hne, hconfig, hload⟩ := assistantSettings_file hsaved
  obtain ⟨events, s, hrun, hsession, hphase, hdisk, hsecrets, hfree⟩ :=
    overtaken_run hne hsaved rfl hconfig hload
  obtain ⟨-, made, hfiled⟩ : _ ∧ ∃ made, fileSecrets {} (assistantSecrets (ascii "sk-2"))
      (plainEnv.load s.stores.disk.config).1 (assistantSettings 5 (ascii "sk-1")) = _ :=
    assistant_files (by rw [hdisk, hload])
  rw [← hsecrets] at hfiled
  obtain ⟨hsuccess, hstored⟩ := sharedWork_download hsession hne hdisk hfiled
  have hbefore : s.stores.secrets assistantSlot = some (ascii "sk-2") := by
    rw [hsecrets]
    exact Function.update_self ..
  have hafter : (s.download guardJson plainEnv sharingEnv (sharedWork data)).2.stores.secrets
      assistantSlot = some (ascii "sk-1") := by
    rw [hstored]
    exact Function.update_self ..
  refine ⟨events, s, _, hrun, sharedWork_step hphase hfree, hbefore, hafter, ?_⟩
  intro hexact
  rw [exact_acting hphase] at hexact
  exact absurd (hexact.credentials _ _ _ hbefore hafter) (by decide)

end

end MsimeLinux
