import MsimeLinux.Settings.SettingsWriters

/-!
# The credentials of the running engine (`IBusEngine.cpp`)

The engine must not wait for the secret service, so after its start it looks
credentials up on threads of their own. A reload of the settings carries the token
over that it has, if the provider is still the same, and starts a lookup for what it
lacks; the answer comes back to the main loop, at any time or never, and is
installed if no other reload came in between.

A callback of the main loop is one step here, and so is a lookup on its thread, and each
of the reads the engine makes before its main loop runs. Other processes save and edit
`config.ini` between any two steps.

- `CredentialEngine.Looked`: the AI token was found by a lookup for the selected
  provider, and so was what a lookup under way has found for its own;
- `runningToken_looked`: so it is in every state of every run, and no answer is
  installed that a later reload has replaced.
-/

namespace MsimeLinux

open Lib

/-! ## The state -/

/-- `CredentialDelivery` (IBusEngine.cpp:1095): a lookup under way, with the answers
its thread has got so far. -/
structure CredentialDelivery where
  generation : Nat
  aiRequested : Bool
  aiProvider : AiProvider
  aiResult : Option SecretLookup := none
  translationRequested : Bool
  translationResult : Option SecretLookup := none

/-- What the online service was last given. -/
structure OnlineSubmission where
  query : OnlineQuery
  ai : AiSuggestionConfig

/-- What `metasequoia_engine_init` does next, once it has read the settings
(IBusEngine.cpp:1321): it reads them again, with the credentials of the services that are
on, takes the digest of the file, and watches it. Each of these looks at a moment of its own,
and the secret service may keep it waiting. -/
inductive StartStage where
  | hydrating
  | askingAi (config : ConfigFile)
  | askingTranslation (config : ConfigFile) (ai : SecretLookup)
  | remembering
  | watching
  | running

/-- The engine, what it shares with other processes, and the values its lookups have
found. -/
structure CredentialEngine where
  stage : StartStage
  disk : Disk
  secrets : SecretSlots
  /-- an event of the file monitor is still to come -/
  changed : Bool := false
  online : OnlineSettings
  digest : Bytes
  generation : Nat := 0
  lookups : List CredentialDelivery := []
  /-- what the controller's composition asks -/
  query : Option OnlineQuery := none
  service : Option OnlineSubmission := none
  answers : List (SecretSlot × Bytes) := []

/-- The slot of the AI credential of a provider. -/
def AiProvider.slot (provider : AiProvider) : SecretSlot := (.aiApiToken, provider.name)

/-- The slot of the DeepLX credential. -/
def translationSlot : SecretSlot := (.translationApiToken, TranslationProvider.deepLX.name)

/-- The translation provider is one with a credential. -/
def OnlineSettings.usesTranslation (online : OnlineSettings) : Bool :=
  online.candidateTranslationsEnabled && online.translationProvider == .deepLX

/-- `settings_file_digest` (SettingsStore.cpp:399). -/
def SettingsEnv.fileDigest (E : SettingsEnv) : ConfigFile → Bytes
  | .regular contents => E.digestOf contents
  | .missing | .unreadable | .directory => []

namespace CredentialEngine

/-- The main loop runs, and changes of the file raise events. -/
def running (s : CredentialEngine) : Bool :=
  match s.stage with
  | .running => true
  | .hydrating | .askingAi _ | .askingTranslation _ _ | .remembering | .watching => false

/-- What only the main loop does. -/
def whenRunning (s next : CredentialEngine) : CredentialEngine :=
  if s.running then next else s

/-- `refresh_online` (IBusEngine.cpp:309). -/
def refreshOnline (s : CredentialEngine) : CredentialEngine :=
  match s.query with
  | none => { s with service := none }
  | some query =>
    let query : OnlineQuery :=
      { query with
        cloudEligible := query.cloudEligible && s.online.cloudCandidatesEnabled
        aiEligible := query.aiEligible && s.online.ai.enabled && s.online.aiCredentialAvailable }
    if !query.cloudEligible && !query.aiEligible then { s with service := none }
    else { s with service := some ⟨query, s.online.ai⟩ }

/-- The AI token is carried over by a reload (IBusEngine.cpp:1215). -/
def aiApplies (live online : OnlineSettings) : Bool :=
  live.ai.token ≠ [] && online.ai.provider == live.ai.provider

/-- The translation token is (IBusEngine.cpp:1222). -/
def translationApplies (live online : OnlineSettings) : Bool :=
  online.translationProvider == live.translationProvider

/-- The credentials a reload carries over from the running configuration. -/
def carryOver (live online : OnlineSettings) : OnlineSettings :=
  { online with
    ai.token := if aiApplies live online then live.ai.token else []
    aiCredentialAvailable := aiApplies live online && live.aiCredentialAvailable
    translationToken := if translationApplies live online then live.translationToken else []
    translationCredentialAvailable :=
      if translationApplies live online then live.translationCredentialAvailable else true }

/-- `needs_ai_credential`, `needs_translation_credential` (IBusEngine.cpp:1230). -/
def needsAi (online : OnlineSettings) : Bool := online.ai.enabled && online.ai.token == []

def needsTranslation (online : OnlineSettings) : Bool :=
  online.usesTranslation && online.translationToken == []

/-- `hydrate_credentials` (IBusEngine.cpp:1146), if its thread can be started. -/
def hydrateCredentials (s : CredentialEngine) (ai translation started : Bool) :
    CredentialEngine :=
  if started then
    { s with lookups := s.lookups ++
        [{ generation := s.generation
           aiRequested := ai
           aiProvider := s.online.ai.provider
           translationRequested := translation }] }
  else s

/-- `reload_settings` (IBusEngine.cpp:1193). The controller is a new one, without a
composition. -/
def reloadSettings (E : SettingsEnv) (s : CredentialEngine) (started : Bool) :
    CredentialEngine :=
  let online := carryOver s.online (E.load s.disk.config).1.online
  let ai := needsAi online
  let translation := needsTranslation online
  -- held down until the lookup answers
  let online := if translation then { online with translationCredentialAvailable := false }
    else online
  let s := { s with online, generation := s.generation + 1, query := none }
  let s := if ai || translation then s.hydrateCredentials ai translation started else s
  s.refreshOnline

/-- The engine does not adopt the file: it cannot be read at this instant, or it is
the one the engine knows (IBusEngine.cpp:1288). -/
def ignores (E : SettingsEnv) (s : CredentialEngine) : Bool :=
  E.fileDigest s.disk.config == [] || E.fileDigest s.disk.config == s.digest

/-- `settings_file_changed` (IBusEngine.cpp:1279). -/
def settingsFileChanged (E : SettingsEnv) (s : CredentialEngine) (started : Bool) :
    CredentialEngine :=
  if s.ignores E then { s with changed := false }
  else { s with changed := false, digest := E.fileDigest s.disk.config }.reloadSettings E started

/-- The AI part of an answer (IBusEngine.cpp:1120). -/
def installAi (online : OnlineSettings) (delivery : CredentialDelivery) : OnlineSettings :=
  if delivery.aiRequested && online.ai.enabled && online.ai.provider == delivery.aiProvider then
    match delivery.aiResult with
    | some (.found token) => { online with ai.token := token, aiCredentialAvailable := true }
    | _ => { online with ai.token := [], aiCredentialAvailable := false }
  else online

/-- The translation part (IBusEngine.cpp:1130). -/
def installTranslation (online : OnlineSettings) (delivery : CredentialDelivery) :
    OnlineSettings :=
  if delivery.translationRequested && online.usesTranslation then
    match delivery.translationResult with
    | some (.found token) =>
      { online with translationToken := token, translationCredentialAvailable := true }
    | some .notFound =>
      { online with translationToken := [], translationCredentialAvailable := true }
    | some .unavailable | none =>
      { online with translationToken := [], translationCredentialAvailable := false }
  else online

/-- The thread of a lookup is done. -/
def ready (delivery : CredentialDelivery) : Bool :=
  (!delivery.aiRequested || delivery.aiResult.isSome) &&
    (!delivery.translationRequested || delivery.translationResult.isSome)

/-- `deliver_credentials` (IBusEngine.cpp:1109). -/
def deliverCredentials (s : CredentialEngine) (n : Nat) : CredentialEngine :=
  match s.lookups[n]? with
  | none => s
  | some delivery =>
    if !ready delivery then s
    else
      let s := { s with lookups := s.lookups.eraseIdx n }
      if delivery.generation ≠ s.generation then s
      else
        { s with online := installTranslation (installAi s.online delivery) delivery }.refreshOnline

/-- A value that a lookup has found. -/
def found (slot : SecretSlot) : SecretLookup → List (SecretSlot × Bytes)
  | .found value => [(slot, value)]
  | .notFound | .unavailable => []

/-- The thread of a lookup asks the secret service: for the AI credential first. -/
def lookUp (s : CredentialEngine) (n : Nat) (answered : Bool) : CredentialEngine :=
  match s.lookups[n]? with
  | none => s
  | some delivery =>
    if delivery.aiRequested && delivery.aiResult.isNone then
      let result := s.secrets.lookup answered .aiApiToken delivery.aiProvider.name
      { s with
        lookups := s.lookups.set n { delivery with aiResult := some result }
        answers := s.answers ++ found delivery.aiProvider.slot result }
    else if delivery.translationRequested && delivery.translationResult.isNone then
      let result := s.secrets.lookup answered .translationApiToken TranslationProvider.deepLX.name
      { s with
        lookups := s.lookups.set n { delivery with translationResult := some result }
        answers := s.answers ++ found translationSlot result }
    else s

/-- What the lookups of `SettingsStore::load` come to; the engine has no use for the voice
credential. -/
def startLookup (ai translation : SecretLookup) : SecretKind → SecretLookup
  | .aiApiToken => ai
  | .translationApiToken => translation
  | .voiceApiToken | .accountSession => .notFound

/-- The lookup of the AI credential, if the service is on (SettingsStore.cpp:1083). -/
def askAi (E : SettingsEnv) (s : CredentialEngine) (config : ConfigFile) (answered : Bool) :
    SecretLookup :=
  if (E.load config).1.online.ai.enabled then
    s.secrets.lookup answered .aiApiToken (E.load config).1.online.ai.provider.name
  else .notFound

/-- And that of the DeepLX credential (SettingsStore.cpp:1112). -/
def askTranslation (E : SettingsEnv) (s : CredentialEngine) (config : ConfigFile)
    (answered : Bool) : SecretLookup :=
  if (E.load config).1.online.usesTranslation then
    s.secrets.lookup answered .translationApiToken TranslationProvider.deepLX.name
  else .notFound

/-- The next read of `metasequoia_engine_init` (IBusEngine.cpp:1335). Credentials are looked up
one after the other. -/
def startOn (E : SettingsEnv) (s : CredentialEngine) (answered : Bool) : CredentialEngine :=
  match s.stage with
  | .hydrating => { s with stage := .askingAi s.disk.config }
  | .askingAi config =>
    let ai := s.askAi E config answered
    { s with
      stage := .askingTranslation config ai
      answers := s.answers ++ found (E.load config).1.online.ai.provider.slot ai }
  | .askingTranslation config ai =>
    let translation := s.askTranslation E config answered
    { s with
      stage := .remembering
      online := (E.loadWithSecrets (fun kind _ => startLookup ai translation kind) config).1.online
      answers := s.answers ++ found translationSlot translation }
  | .remembering => { s with stage := .watching, digest := E.fileDigest s.disk.config }
  | .watching => { s with stage := .running }
  | .running => s

end CredentialEngine

/-! ## Steps -/

/-- What happens to the engine, and around it. -/
inductive EngineLabel where
  /-- a process saves settings -/
  | saved (call : SaveCall) (io : WriterIo)
  /-- somebody edits `config.ini` -/
  | edited (disk : Disk)
  /-- the engine starts: its next read, and whether the secret service answers it -/
  | started (answered : Bool)
  /-- an event of the file monitor; whether a thread can be started -/
  | fileChanged (started : Bool)
  /-- the thread of a lookup asks the secret service -/
  | lookedUp (n : Nat) (answered : Bool)
  /-- an answer comes back -/
  | delivered (n : Nat)
  /-- a key event; what the controller then has to ask -/
  | typed (query : Option OnlineQuery)
  /-- a dictionary is published: the controller is a new one (IBusEngine.cpp:1398) -/
  | rebuilt

/-- One step. -/
def engineStep (E : SettingsEnv) (s : CredentialEngine) : EngineLabel → CredentialEngine
  | .saved call io =>
    let result := call.perform E io s.disk s.secrets
    { s with
      disk := result.disk
      secrets := result.secrets
      changed := s.changed || s.running }
  | .edited disk => { s with disk, changed := s.changed || s.running }
  | .started answered => s.startOn E answered
  | .fileChanged started => s.whenRunning (s.settingsFileChanged E started)
  | .lookedUp n answered => s.whenRunning (s.lookUp n answered)
  | .delivered n => s.whenRunning (s.deliverCredentials n)
  | .typed query => s.whenRunning { s with query }.refreshOnline
  | .rebuilt => s.whenRunning { s with query := none, service := none }

def engineRun (E : SettingsEnv) (s : CredentialEngine) (labels : List EngineLabel) :
    CredentialEngine :=
  labels.foldl (engineStep E) s

/-- `metasequoia_engine_init` (IBusEngine.cpp:1313), when it has read the settings: it asks for
credentials if a service is on that needs them. -/
def startEngine (E : SettingsEnv) (disk : Disk) (secrets : SecretSlots) : CredentialEngine :=
  let online := (E.load disk.config).1.online
  { disk, secrets, online
    stage := if online.ai.enabled || online.usesTranslation then .hydrating else .remembering
    digest := [] }

/-! ## What a step keeps -/

namespace CredentialEngine

variable {E : SettingsEnv} {s : CredentialEngine}

/-- What holds before and after a step of the main loop holds whether it is taken or not. -/
theorem whenRunning_rule {P : CredentialEngine → Prop} {next : CredentialEngine} (hs : P s)
    (hnext : s.running = true → P next) : P (s.whenRunning next) := by
  unfold whenRunning
  split
  · next hrunning => exact hnext hrunning
  · exact hs

/-- A refresh gives the service the running configuration, or nothing. -/
theorem refreshOnline_eq (s : CredentialEngine) : ∃ service,
    s.refreshOnline = { s with service } ∧
      ∀ submission, service = some submission → submission.ai = s.online.ai := by
  unfold refreshOnline
  split
  · exact ⟨none, rfl, fun _ h => (by cases h)⟩
  dsimp only
  split
  · exact ⟨none, rfl, fun _ h => (by cases h)⟩
  · exact ⟨_, rfl, fun _ h => (by rw [← Option.some.inj h])⟩

/-- What a reload leaves: the next generation, with at most one lookup, for what is missing. -/
theorem reloadSettings_eq (E : SettingsEnv) (s : CredentialEngine) (started : Bool) :
    ∃ available more service,
      s.reloadSettings E started =
        { s with
          online := { carryOver s.online (E.load s.disk.config).1.online with
            translationCredentialAvailable := available }
          generation := s.generation + 1
          query := none
          lookups := s.lookups ++ more
          service } ∧
      more.length ≤ 1 ∧
      (∀ d ∈ more, d.generation = s.generation + 1 ∧
        d.aiProvider = (E.load s.disk.config).1.online.ai.provider ∧ d.aiResult = none ∧
        d.translationResult = none) ∧
      ∀ submission, service = some submission →
        submission.ai = (carryOver s.online (E.load s.disk.config).1.online).ai := by
  unfold reloadSettings
  set online := carryOver s.online (E.load s.disk.config).1.online with honline
  -- a token that is missing makes the translation unavailable until it is found
  obtain ⟨available, havailable⟩ : ∃ available, (if needsTranslation online then
      { online with translationCredentialAvailable := false } else online) =
      { online with translationCredentialAvailable := available } := by
    split
    · exact ⟨_, rfl⟩
    · exact ⟨online.translationCredentialAvailable, rfl⟩
  dsimp only
  rw [havailable]
  have hnone : ∀ d ∈ ([] : List CredentialDelivery), d.generation = s.generation + 1 ∧
      d.aiProvider = (E.load s.disk.config).1.online.ai.provider ∧ d.aiResult = none ∧
      d.translationResult = none := fun d hd => absurd hd List.not_mem_nil
  split
  · -- something is missing: the lookup is started, unless no thread can be
    cases started with
    | true =>
      obtain ⟨service, hrefresh, hservice⟩ := refreshOnline_eq (hydrateCredentials
        { s with
          online := { online with translationCredentialAvailable := available }
          generation := s.generation + 1
          query := none } (needsAi online) (needsTranslation online) true)
      refine ⟨available, _, service, hrefresh, Nat.le_refl 1, ?_, hservice⟩
      intro d hd
      rw [List.mem_singleton.mp hd]
      exact ⟨rfl, rfl, rfl, rfl⟩
    | false =>
      obtain ⟨service, hrefresh, hservice⟩ := refreshOnline_eq
        { s with
          online := { online with translationCredentialAvailable := available }
          generation := s.generation + 1
          query := none }
      refine ⟨available, [], service, ?_, Nat.zero_le 1, hnone, hservice⟩
      rw [List.append_nil]
      exact hrefresh
  · obtain ⟨service, hrefresh, hservice⟩ := refreshOnline_eq
      { s with
        online := { online with translationCredentialAvailable := available }
        generation := s.generation + 1
        query := none }
    refine ⟨available, [], service, ?_, Nat.zero_le 1, hnone, hservice⟩
    rw [List.append_nil]
    exact hrefresh

theorem installTranslation_ai (online : OnlineSettings) (d : CredentialDelivery) :
    (installTranslation online d).ai = online.ai := by
  unfold installTranslation
  split
  · split <;> rfl
  · rfl

/-- What the AI part of an answer does: nothing, or it installs the answer for the
selected provider, which it leaves selected. -/
theorem installAi_ai (online : OnlineSettings) (d : CredentialDelivery) :
    (installAi online d).ai = online.ai ∨
      online.ai.provider = d.aiProvider ∧ ∃ token, (installAi online d).ai =
        { online.ai with token } ∧ (token = [] ∨ d.aiResult = some (.found token)) := by
  unfold installAi
  split
  · next h =>
    refine .inr ⟨by simpa using (Bool.and_eq_true_iff.mp h).2, ?_⟩
    split
    · next token hresult => exact ⟨token, rfl, .inr hresult⟩
    · exact ⟨[], rfl, .inl rfl⟩
  · exact .inl rfl

/-- A delivery: nothing happens, or an answer is taken from the list, and installed if
it is of the running generation. -/
theorem deliverCredentials_eq (s : CredentialEngine) (n : Nat) :
    s.deliverCredentials n = s ∨ ∃ d, s.lookups[n]? = some d ∧
      (d.generation ≠ s.generation ∧
          s.deliverCredentials n = { s with lookups := s.lookups.eraseIdx n } ∨
        d.generation = s.generation ∧ ∃ service,
          s.deliverCredentials n =
            { s with
              lookups := s.lookups.eraseIdx n
              online := installTranslation (installAi s.online d) d
              service } ∧
          ∀ submission, service = some submission →
            submission.ai = (installAi s.online d).ai) := by
  unfold deliverCredentials
  split
  · exact .inl rfl
  next d hd =>
  split
  · exact .inl rfl
  refine .inr ⟨d, hd, ?_⟩
  dsimp only
  split
  · next hother => exact .inl ⟨hother, rfl⟩
  · next hsame =>
    obtain ⟨service, hrefresh, hservice⟩ := refreshOnline_eq
      { s with
        lookups := s.lookups.eraseIdx n
        online := installTranslation (installAi s.online d) d }
    refine .inr ⟨not_not.mp hsame, service, hrefresh, fun submission h => ?_⟩
    rw [hservice submission h, installTranslation_ai]

/-- The answer of a lookup that was added to the list. -/
theorem mem_found {slot : SecretSlot} {result : SecretLookup} {entry : SecretSlot × Bytes} :
    entry ∈ found slot result ↔ ∃ value, result = .found value ∧ entry = (slot, value) := by
  cases result <;> simp [found]

end CredentialEngine

/-! ## Whose token it is -/

/-- What is known of the AI credential in every state. -/
structure CredentialEngine.Looked (E : SettingsEnv) (s : CredentialEngine) : Prop where
  /-- the running token was found for the selected provider -/
  token : s.online.ai.token ≠ [] → (s.online.ai.provider.slot, s.online.ai.token) ∈ s.answers
  /-- so was the one that the engine has found and not installed yet, while it starts -/
  asked : ∀ config value, s.stage = .askingTranslation config (.found value) →
    ((E.load config).1.online.ai.provider.slot, value) ∈ s.answers
  /-- and that of every lookup under way, for its own -/
  result : ∀ d ∈ s.lookups, ∀ value, d.aiResult = some (.found value) →
    (d.aiProvider.slot, value) ∈ s.answers
  older : ∀ d ∈ s.lookups, d.generation ≤ s.generation
  service : ∀ submission, s.service = some submission → submission.ai = s.online.ai
  starting : s.running = false → s.service = none

variable {E : SettingsEnv} {s : CredentialEngine}

/-- The online part of what is loaded with credentials. -/
theorem loadWithSecrets_online (E : SettingsEnv) (lookup : SecretKind → Bytes → SecretLookup)
    (config : ConfigFile) : ∃ ai translation,
    (E.loadWithSecrets lookup config).1.online = { (E.load config).1.online with
      ai.token := if (E.load config).1.online.ai.enabled then
        (lookup .aiApiToken (E.load config).1.online.ai.provider.name).tokenOr [] else []
      translationToken := if (E.load config).1.online.usesTranslation then
        (lookup .translationApiToken (E.load config).1.online.translationProvider.name).tokenOr []
        else []
      aiCredentialAvailable := ai
      translationCredentialAvailable := translation } := by
  have hloaded := load_loadedAs E config
  obtain ⟨ai, translation, voice, hsettings⟩ := loadWithSecrets_fst E lookup config
  refine ⟨ai, translation, ?_⟩
  rw [hsettings]
  simp only [OnlineSettings.usesTranslation, hloaded.aiEnabled, hloaded.aiProvider,
    hloaded.translationsEnabled, hloaded.translationProvider]

/-- A token comes from a value that was found. -/
theorem SecretLookup.found_of_tokenOr {result : SecretLookup} (h : result.tokenOr [] ≠ []) :
    result = .found (result.tokenOr []) := by
  cases result with
  | found value => rfl
  | notFound => exact absurd rfl h
  | unavailable => exact absurd rfl h

/-- **The next read of the start** installs no token but the one found for the provider of the
file that was read. -/
theorem CredentialEngine.Looked.startOn (h : s.Looked E) (answered : Bool) :
    (s.startOn E answered).Looked E := by
  -- what was answered before stays answered
  have hmore : ∀ more entry, entry ∈ s.answers → entry ∈ s.answers ++ more :=
    fun more entry => List.mem_append_left more
  have hresult : ∀ more, ∀ d ∈ s.lookups, ∀ value, d.aiResult = some (.found value) →
      (d.aiProvider.slot, value) ∈ s.answers ++ more :=
    fun more d hd value hvalue => hmore _ _ (h.result d hd value hvalue)
  unfold CredentialEngine.startOn
  split
  · next hstage =>
    exact ⟨h.token, nofun, h.result, h.older, h.service, fun _ => h.starting (by
      simp [running, hstage])⟩
  · next config hstage =>
    have hidle : s.service = none := h.starting (by simp [running, hstage])
    refine ⟨fun hne => hmore _ _ (h.token hne), ?_, hresult _, h.older, h.service, fun _ => hidle⟩
    intro config' value hasking
    obtain ⟨rfl, hfound⟩ := StartStage.askingTranslation.inj hasking
    exact List.mem_append_right _ (mem_found.mpr ⟨value, hfound, rfl⟩)
  · next config ai hstage =>
    -- the last answer: the settings are hydrated from both
    have hidle : s.service = none := h.starting (by simp [running, hstage])
    refine ⟨?_, nofun, hresult _, h.older, ?_, fun _ => hidle⟩
    · obtain ⟨available, available', honline⟩ := loadWithSecrets_online E (fun kind _ =>
        startLookup ai (s.askTranslation E config answered) kind) config
      dsimp only
      rw [honline]
      dsimp only
      split
      · intro hne
        refine hmore _ _ (h.asked config _ ?_)
        rw [hstage]
        exact congrArg (StartStage.askingTranslation config) (SecretLookup.found_of_tokenOr hne)
      · exact fun hne => absurd rfl hne
    · intro submission hsubmission
      rw [hidle] at hsubmission
      cases hsubmission
  · next hstage =>
    exact ⟨h.token, nofun, h.result, h.older, h.service, fun _ => h.starting (by
      simp [running, hstage])⟩
  · exact ⟨h.token, nofun, h.result, h.older, h.service, nofun⟩
  · exact h

/-- **One step keeps the token that of the selected provider.** -/
theorem CredentialEngine.Looked.step (h : s.Looked E) (label : EngineLabel) :
    (engineStep E s label).Looked E := by
  cases label with
  -- other processes change the stores, which the answers already given outlive
  | saved call io => exact ⟨h.token, h.asked, h.result, h.older, h.service, h.starting⟩
  | edited disk => exact ⟨h.token, h.asked, h.result, h.older, h.service, h.starting⟩
  | started answered => exact h.startOn answered
  | rebuilt =>
    -- the new controller has no service yet, so nothing is submitted
    refine whenRunning_rule h fun _ => ?_
    exact ⟨h.token, h.asked, h.result, h.older, fun _ hnone => (by cases hnone), fun _ => rfl⟩
  | typed query =>
    refine whenRunning_rule h fun hrunning => ?_
    obtain ⟨service, hrefresh, hservice⟩ := refreshOnline_eq { s with query }
    rw [hrefresh]
    exact ⟨h.token, h.asked, h.result, h.older, hservice, fun hstarting =>
      absurd (show s.running = false from hstarting) (by rw [hrunning]; exact Bool.noConfusion)⟩
  | fileChanged started =>
    refine whenRunning_rule h fun hrunning => ?_
    unfold settingsFileChanged
    -- a digest that is the same is no change
    split
    · exact ⟨h.token, h.asked, h.result, h.older, h.service, h.starting⟩
    obtain ⟨available, more, service, hreload, -, hmore, hservice⟩ := reloadSettings_eq E
      { s with changed := false, digest := E.fileDigest s.disk.config } started
    rw [hreload]
    refine ⟨?_, h.asked, ?_, ?_, hservice, fun hstarting => ?_⟩
    · -- a token is carried over only for the same provider
      show (carryOver s.online (E.load s.disk.config).1.online).ai.token ≠ [] → _
      unfold carryOver
      dsimp only
      by_cases happlies : aiApplies s.online (E.load s.disk.config).1.online = true
      · rw [if_pos happlies]
        obtain ⟨-, hprovider⟩ := Bool.and_eq_true_iff.mp happlies
        rw [eq_of_beq hprovider]
        exact h.token
      · rw [if_neg happlies]
        exact fun hne => absurd rfl hne
    · -- a lookup that is under way keeps its result; a new one has none
      intro d hd value hvalue
      rcases List.mem_append.mp hd with hd | hd
      · exact h.result d hd value hvalue
      · rw [(hmore d hd).2.2.1] at hvalue
        cases hvalue
    · -- the generation goes up by one, and a new lookup has it
      intro d hd
      show d.generation ≤ s.generation + 1
      rcases List.mem_append.mp hd with hd | hd
      · have := h.older d hd
        omega
      · exact Nat.le_of_eq (hmore d hd).1
    · exact absurd (show s.running = false from hstarting)
        (by rw [hrunning]; exact Bool.noConfusion)
  | lookedUp n answered =>
    refine whenRunning_rule h fun _ => ?_
    unfold lookUp
    split
    · exact h
    next delivery hdelivery =>
    have hmem : delivery ∈ s.lookups := List.mem_of_getElem? hdelivery
    have hmore : ∀ more entry, entry ∈ s.answers → entry ∈ s.answers ++ more :=
      fun more entry => List.mem_append_left more
    -- the AI lookup first: what is found now is the newest answer
    split
    · refine ⟨fun hne => hmore _ _ (h.token hne), fun config value hasking =>
        hmore _ _ (h.asked config value hasking), ?_, ?_, h.service, h.starting⟩
      · intro d hd value hvalue
        rcases List.mem_or_eq_of_mem_set hd with hd | rfl
        · exact hmore _ _ (h.result d hd value hvalue)
        · refine List.mem_append_right _ (mem_found.mpr ⟨value, Option.some.inj hvalue, rfl⟩)
      · intro d hd
        rcases List.mem_or_eq_of_mem_set hd with hd | rfl
        · exact h.older d hd
        · exact h.older delivery hmem
    -- and then that of the translation, which leaves the AI answers alone
    split
    · refine ⟨fun hne => hmore _ _ (h.token hne), fun config value hasking =>
        hmore _ _ (h.asked config value hasking), ?_, ?_, h.service, h.starting⟩
      · intro d hd value hvalue
        rcases List.mem_or_eq_of_mem_set hd with hd | rfl
        · exact hmore _ _ (h.result d hd value hvalue)
        · exact hmore _ _ (h.result delivery hmem value hvalue)
      · intro d hd
        rcases List.mem_or_eq_of_mem_set hd with hd | rfl
        · exact h.older d hd
        · exact h.older delivery hmem
    · exact h
  | delivered n =>
    refine whenRunning_rule h fun hrunning => ?_
    -- nothing arrives, an old generation is dropped, or the tokens are put in place
    rcases deliverCredentials_eq s n with hsame | ⟨d, hd, ⟨-, hdropped⟩ | ⟨-, service, hinstalled,
      hservice⟩⟩
    · rwa [hsame]
    · rw [hdropped]
      exact ⟨h.token, h.asked, fun d hd => h.result d (List.mem_of_mem_eraseIdx hd),
        fun d hd => h.older d (List.mem_of_mem_eraseIdx hd), h.service, h.starting⟩
    · rw [hinstalled]
      refine ⟨?_, h.asked, fun d hd => h.result d (List.mem_of_mem_eraseIdx hd),
        fun d hd => h.older d (List.mem_of_mem_eraseIdx hd), ?_, fun hstarting => ?_⟩
      · show (installTranslation (installAi s.online d) d).ai.token ≠ [] →
          ((installTranslation (installAi s.online d) d).ai.provider.slot,
            (installTranslation (installAi s.online d) d).ai.token) ∈ s.answers
        rw [installTranslation_ai]
        -- the delivery is for this provider, or the token stays
        rcases installAi_ai s.online d with hsame | ⟨hprovider, token, hai, htoken⟩
        · rw [hsame]
          exact h.token
        · rw [hai]
          intro hne
          rcases htoken with hempty | hresult
          · exact absurd hempty hne
          · show (s.online.ai.provider.slot, token) ∈ s.answers
            rw [hprovider]
            exact h.result d (List.mem_of_getElem? hd) token hresult
      · intro submission hsubmission
        rw [hservice submission hsubmission]
        exact (installTranslation_ai ..).symm
      · exact absurd (show s.running = false from hstarting)
          (by rw [hrunning]; exact Bool.noConfusion)

/-- What is loaded without credentials has no token. -/
theorem load_token (E : SettingsEnv) (config : ConfigFile) :
    (E.load config).1.online.ai.token = [] ∧ (E.load config).1.online.translationToken = [] := by
  have hpersisted := load_persisted E config
  exact ⟨(congrArg (fun s => s.online.ai.token) hpersisted).symm,
    (congrArg (fun s => s.online.translationToken) hpersisted).symm⟩

theorem startEngine_looked (E : SettingsEnv) (disk : Disk) (secrets : SecretSlots) :
    (startEngine E disk secrets).Looked E where
  token hne := absurd (load_token E disk.config).1 hne
  asked config value h := by
    simp only [startEngine] at h
    split at h <;> cases h
  result d hd := absurd hd List.not_mem_nil
  older d hd := absurd hd List.not_mem_nil
  service submission h := by cases h
  starting _ := rfl

theorem CredentialEngine.Looked.run (h : s.Looked E) (labels : List EngineLabel) :
    (engineRun E s labels).Looked E := by
  induction labels generalizing s with
  | nil => exact h
  | cons label labels ih => exact ih (h.step label)

/-- No step goes back to an earlier generation. -/
theorem engineStep_generation (label : EngineLabel) :
    s.generation ≤ (engineStep E s label).generation := by
  -- an engine that is not running stands still
  have hrule : ∀ next : CredentialEngine, s.generation ≤ next.generation →
      s.generation ≤ (s.whenRunning next).generation := fun next hnext =>
    CredentialEngine.whenRunning_rule (P := fun t => s.generation ≤ t.generation)
      (Nat.le_refl _) fun _ => hnext
  cases label with
  | saved call io => exact Nat.le_refl _
  | edited disk => exact Nat.le_refl _
  | started answered =>
    show s.generation ≤ (s.startOn E answered).generation
    unfold CredentialEngine.startOn
    split <;> exact Nat.le_refl _
  | rebuilt => exact hrule _ (Nat.le_refl _)
  | typed query =>
    refine hrule _ ?_
    obtain ⟨service, hrefresh, -⟩ := CredentialEngine.refreshOnline_eq { s with query }
    rw [hrefresh]
  | fileChanged started =>
    -- a reload is the one step that raises it
    refine hrule _ ?_
    unfold CredentialEngine.settingsFileChanged
    split
    · exact Nat.le_refl _
    obtain ⟨available, more, service, hreload, -⟩ := CredentialEngine.reloadSettings_eq E
      { s with changed := false, digest := E.fileDigest s.disk.config } started
    rw [hreload]
    exact Nat.le_succ _
  | lookedUp n answered =>
    refine hrule _ ?_
    unfold CredentialEngine.lookUp
    split
    · exact Nat.le_refl _
    split
    · exact Nat.le_refl _
    split <;> exact Nat.le_refl _
  | delivered n =>
    refine hrule _ ?_
    rcases CredentialEngine.deliverCredentials_eq s n with hsame |
      ⟨d, -, ⟨-, hdropped⟩ | ⟨-, service, hinstalled, -⟩⟩
    · rw [hsame]
    · rw [hdropped]
    · rw [hinstalled]

theorem engineRun_generation (s : CredentialEngine) (labels : List EngineLabel) :
    s.generation ≤ (engineRun E s labels).generation := by
  induction labels generalizing s with
  | nil => exact Nat.le_refl _
  | cons label labels ih => exact (engineStep_generation label).trans (ih _)

/-- **The running token is the selected provider's.** In every state of every run of the
engine, from its first read on, the AI token is empty or was found by a lookup for the provider
that is selected, and it is the one the online service works with. An answer to a lookup that
was under way before a later reload of the settings is not installed. -/
theorem runningToken_looked (E : SettingsEnv) (disk : Disk) (secrets : SecretSlots)
    (labels : List EngineLabel) :
    let s := engineRun E (startEngine E disk secrets) labels
    (s.online.ai.token = [] ∨ (s.online.ai.provider.slot, s.online.ai.token) ∈ s.answers) ∧
    (∀ submission, s.service = some submission → submission.ai = s.online.ai) ∧
    ∀ before after, labels = before ++ after →
      let t := engineRun E (startEngine E disk secrets) before
      t.generation ≠ s.generation →
      ∀ d ∈ t.lookups, ∀ n d', s.lookups[n]? = some d' → d'.generation = d.generation →
        (engineStep E s (.delivered n)).online = s.online ∧
          (engineStep E s (.delivered n)).service = s.service := by
  intro s
  have hs : s.Looked E := (startEngine_looked E disk secrets).run labels
  refine ⟨?_, hs.service, ?_⟩
  · by_cases hempty : s.online.ai.token = []
    · exact .inl hempty
    · exact .inr (hs.token hempty)
  · intro before after hlabels t hreloaded d hd n d' hd' hsame
    have ht : t.Looked E := (startEngine_looked E disk secrets).run before
    have hrun : s = engineRun E t after := by
      show engineRun E _ labels = _
      rw [hlabels]
      exact List.foldl_append ..
    -- the engine has reloaded since, so this lookup is of an earlier generation
    have hle : t.generation ≤ s.generation := hrun ▸ engineRun_generation t after
    have holder := ht.older d hd
    have hold : d'.generation ≠ s.generation := by omega
    refine CredentialEngine.whenRunning_rule
      (P := fun u => u.online = s.online ∧ u.service = s.service) ⟨rfl, rfl⟩ fun _ => ?_
    rcases CredentialEngine.deliverCredentials_eq s n with hnothing |
      ⟨d'', hd'', ⟨-, hdropped⟩ | ⟨hcurrent, -⟩⟩
    · rw [hnothing]
      exact ⟨rfl, rfl⟩
    · rw [hdropped]
      exact ⟨rfl, rfl⟩
    · -- only a lookup of the running generation is installed
      obtain rfl : d' = d'' := Option.some.inj (hd'.symm.trans hd'')
      exact absurd hcurrent hold

end MsimeLinux
