import MsimeLinux.Lib.Except
import MsimeLinux.Lib.Journal
import MsimeLinux.Settings.Loading

/-!
# Saving settings together with their credentials

`save_with_secrets_unlocked` (SettingsStore.cpp:1379) changes two stores that have
no commit in common. It plans which credentials to file and which to remove, looks
up what their slots hold, makes the changes one after the other, and writes
`config.ini` last; whatever fails on the way, it writes the previous values back.
The changes are a journal of `Lib.Journal`.
-/

namespace MsimeLinux

open Lib

/-! ## The secret store during a save -/

/-- Where a credential is filed. -/
abbrev SecretSlot := SecretKind × Bytes

/-- What the secret store holds. -/
abbrev SecretSlots := Slots SecretSlot Bytes

/-- `SecretStore::lookup`. -/
def SecretSlots.lookup (secrets : SecretSlots) (answered : Bool) (kind : SecretKind)
    (provider : Bytes) : SecretLookup :=
  if answered then
    match secrets (kind, provider) with
    | some value => .found value
    | none => .notFound
  else .unavailable

/-- What the secret service makes of the calls of a save. No slot is changed twice,
so the outcomes of the changes go by slot; a lookup that is not answered is
`Unavailable`. -/
structure SecretOutcome where
  /-- the lookup of the provider a token may have come from -/
  compared : SecretKind → Bool := fun _ => true
  /-- the lookup that asks whether the selected provider has a credential -/
  checked : SecretKind → Bool := fun _ => true
  /-- the lookup of what a slot holds before it is changed -/
  looked : SecretSlot → Bool := fun _ => true
  changed : SecretSlot → Reply Bytes := fun _ => .done
  restored : SecretSlot → Reply Bytes := fun _ => .done

/-- `PendingSecret`: a value to file, or none for a removal. -/
structure PendingSecret where
  kind : SecretKind
  provider : Bytes
  value : Option Bytes
  deriving DecidableEq

def PendingSecret.slot (secret : PendingSecret) : SecretSlot := (secret.kind, secret.provider)

/-! ## The plan -/

section Plan

variable (service : SecretOutcome) (secrets : SecretSlots)

/-- The first half of `plan_credential` (SettingsStore.cpp:1422): the token, unless it
is still the one that is filed under the provider the user left. -/
def credentialValue (kind : SecretKind) (provider token previousProvider : Bytes) :
    Except String Bytes :=
  if token ≠ [] ∧ previousProvider ≠ [] ∧ previousProvider ≠ provider then
    match secrets.lookup (service.compared kind) kind previousProvider with
    | .unavailable =>
      throw "Unable to access credentials; the provider configuration was not saved."
    | .found hydrated => pure (if hydrated = token then [] else token)
    | .notFound => pure token
  else pure token

/-- `plan_credential`. Without a value, only a service that answers that nothing is
there proves that the credential is missing. -/
def planCredential (kind : SecretKind) (provider token previousProvider : Bytes)
    (missing : Option String) (pending : List PendingSecret) :
    Except String (List PendingSecret) := do
  let value ← credentialValue service secrets kind provider token previousProvider
  if value ≠ [] then return pending ++ [⟨kind, provider, some value⟩]
  match missing with
  | none => return pending
  | some message =>
    if secrets.lookup (service.checked kind) kind provider = .notFound then throw message
    return pending

/-- `plan_removal` (SettingsStore.cpp:1459): once for each slot. -/
def planRemoval (pending : List PendingSecret) (slot : SecretSlot) : List PendingSecret :=
  if slot.2 = [] ∨ ⟨slot.1, slot.2, none⟩ ∈ pending then pending
  else pending ++ [⟨slot.1, slot.2, none⟩]

/-- One of the services that use a credential, as a save sees it. -/
structure CredentialUse where
  kind : SecretKind
  enabled : Bool
  /-- the selected provider -/
  provider : Bytes
  token : Bytes
  cleared : Bool
  /-- the provider the service was saved with; none if it was off -/
  persisted : Bytes

/-- `persisted_ai_provider`, `selected_ai_provider`. -/
def aiUse (persisted settings : InputSettings) : CredentialUse where
  kind := .aiApiToken
  enabled := settings.online.ai.enabled
  provider := settings.online.ai.provider.name
  token := settings.online.ai.token
  cleared := settings.online.aiCredentialCleared
  persisted := if persisted.online.ai.enabled then persisted.online.ai.provider.name else []

/-- `translation_uses_credential`: only DeepLX authenticates. -/
def usesTranslationCredential (settings : InputSettings) : Bool :=
  settings.online.candidateTranslationsEnabled && settings.online.translationProvider == .deepLX

/-- `persisted_translation_provider`, `deeplx_provider`. -/
def translationUse (persisted settings : InputSettings) : CredentialUse where
  kind := .translationApiToken
  enabled := usesTranslationCredential settings
  provider := TranslationProvider.deepLX.name
  token := settings.online.translationToken
  cleared := settings.online.translationCredentialCleared
  persisted := if usesTranslationCredential persisted then TranslationProvider.deepLX.name else []

/-- `persisted_voice_provider`. -/
def voiceUse (persisted settings : InputSettings) : CredentialUse where
  kind := .voiceApiToken
  enabled := settings.voice.enabled
  provider := settings.voice.provider
  token := settings.voice.token
  cleared := settings.voiceCredentialCleared
  persisted := if persisted.voice.enabled then persisted.voice.provider else []

/-- The three of them. -/
def credentialUses (persisted settings : InputSettings) : List CredentialUse :=
  [aiUse persisted settings, translationUse persisted settings, voiceUse persisted settings]

/-- The call of `plan_credential` for an enabled service. A clear request outranks the
token, and makes a missing credential no reason to refuse the save. -/
def CredentialUse.plan (use : CredentialUse) (previousProvider : Bytes) (missing : Option String)
    (pending : List PendingSecret) : Except String (List PendingSecret) :=
  if use.enabled then
    planCredential service secrets use.kind use.provider (if use.cleared then [] else use.token)
      previousProvider (if use.cleared then none else missing) pending
  else pure pending

/-- The removals a save asks for (SettingsStore.cpp:1528): what the services that are
now off were using, then what is to be forgotten. -/
def removalSlots (uses : List CredentialUse) : List SecretSlot :=
  (uses.filter fun use => !use.enabled).map (fun use => (use.kind, use.persisted)) ++
    (uses.filter fun use => use.cleared).map fun use => (use.kind, use.provider)

/-- The plan of a save (SettingsStore.cpp:1482-1565). -/
def planSecrets (persisted settings : InputSettings) : Except String (List PendingSecret) := do
  let ai := aiUse persisted settings
  let pending ← ai.plan service secrets ai.persisted
    (some ("No AI credential is stored for the selected provider; the provider configuration " ++
      "was not saved.")) []
  -- a self-hosted DeepLX endpoint may accept unauthenticated requests
  let pending ← (translationUse persisted settings).plan service secrets [] none pending
  if settings.voice.enabled ∧ settings.voice.provider = [] then
    throw "Unable to store the voice credential; the provider configuration was not saved."
  let voice := voiceUse persisted settings
  let pending ← voice.plan service secrets voice.persisted
    (some ("No voice credential is stored for the selected provider; the provider " ++
      "configuration was not saved.")) pending
  return (removalSlots (credentialUses persisted settings)).foldl planRemoval pending

end Plan

/-! ## The changes -/

section Changes

variable (service : SecretOutcome) (secrets : SecretSlots)

/-- What a slot held when the changes were about to begin. -/
def PendingSecret.previous (secret : PendingSecret) : SecretLookup :=
  secrets.lookup (service.looked secret.slot) secret.kind secret.provider

/-- Whether a change is made at all: there is nothing to remove where nothing was
found (SettingsStore.cpp:1584). -/
def PendingSecret.isMade (secret : PendingSecret) : Bool :=
  match secret.value, secret.previous service secrets with
  | some _, _ => true
  | none, .found _ => true
  | none, .notFound | none, .unavailable => false

def PendingSecret.change (secret : PendingSecret) : Change SecretSlot Bytes where
  slot := secret.slot
  value := secret.value
  previous := match secret.previous service secrets with
    | .found value => some value
    | .notFound | .unavailable => none

/-- The changes, with what is needed to take them back. -/
def secretChanges (pending : List PendingSecret) : List (Change SecretSlot Bytes) :=
  (pending.filter (PendingSecret.isMade service secrets)).map
    (PendingSecret.change service secrets)

/-- What a save reports when it could not take its changes back. -/
def rollbackFailed : String :=
  "Unable to roll back credentials after a save failure; credential state may need repair."

/-- The first half of a save: the changes of the secret store
(SettingsStore.cpp:1393-1629). It returns the changes that were made. -/
def fileSecrets (persisted settings : InputSettings) :
    Except String (List (Change SecretSlot Bytes)) × SecretSlots :=
  match planSecrets service secrets persisted settings with
  | .error message => (.error message, secrets)
  | .ok pending =>
    if pending.any fun secret =>
        secret.value.isSome && secret.previous service secrets == .unavailable then
      (.error "Unable to access credentials; the provider configuration was not saved.", secrets)
    else
      let applied := applyChanges service.changed (secretChanges service secrets pending) secrets
      if applied.ok then (.ok applied.attempted, applied.slots)
      else
        let (slots, restored) := undoChanges service.restored applied.attempted applied.slots
        (.error (if restored then
            "Unable to update credentials; the provider configuration was not saved."
          else rollbackFailed), slots)

end Changes

/-- What a save of settings and credentials reports. -/
structure SecretSaveResult where
  disk : Disk
  secrets : SecretSlots
  error : Option String
  digest : Option Bytes

/-- `SettingsStore::save_with_secrets_unlocked` (SettingsStore.cpp:1379). -/
def SettingsEnv.saveWithSecretsUnlocked (E : SettingsEnv) (io : WriteOutcome)
    (service : SecretOutcome) (settings : InputSettings) (disk : Disk) (secrets : SecretSlots) :
    SecretSaveResult :=
  if !validInputSettings E.supportedHelpcodeSchema settings then
    ⟨disk, secrets, some "Input settings were outside the supported range.", none⟩
  else match fileSecrets service secrets (E.load disk.config).1 settings with
  | (.error message, secrets) => ⟨disk, secrets, some message, none⟩
  | (.ok made, secrets) =>
    let saved := E.saveUnlocked io settings disk
    match saved.error with
    | none => ⟨saved.disk, secrets, none, saved.digest⟩
    | some message =>
      let (slots, restored) := undoChanges service.restored made secrets
      ⟨saved.disk, slots, some (if restored then message else rollbackFailed), saved.digest⟩

/-- `SettingsStore::save` with a secret store (SettingsStore.cpp:1362). -/
def SettingsEnv.saveWithSecrets (E : SettingsEnv) (io : WriteOutcome)
    (service : SecretOutcome) (settings : InputSettings) (disk : Disk) (secrets : SecretSlots) :
    SecretSaveResult :=
  if !validInputSettings E.supportedHelpcodeSchema settings then
    ⟨disk, secrets, some "Input settings were outside the supported range.", none⟩
  else if !io.lock then ⟨disk, secrets, some "Unable to lock input settings.", none⟩
  else E.saveWithSecretsUnlocked io service settings disk secrets

/-! ## Versions -/

/-- `SettingsFileVersion` (SettingsStore.h:135). -/
structure SettingsFileVersion where
  missing : Bool
  digest : Bytes
  deriving DecidableEq

/-- `SettingsStore::version` (SettingsStore.cpp:1644). -/
def SettingsEnv.version (E : SettingsEnv) : ConfigFile → Option SettingsFileVersion
  | .missing => some ⟨true, []⟩
  | .regular contents =>
    if E.digestOf contents = [] then none else some ⟨false, E.digestOf contents⟩
  | .unreadable | .directory => none

/-- What a save reports that finds another version than it expects. -/
def versionConflict : String := "本机设置已变化或无法读取，请重新预览。"

/-- `SettingsStore::save_if_unchanged` (SettingsStore.cpp:1662). -/
def SettingsEnv.saveIfUnchanged (E : SettingsEnv) (io : WriteOutcome) (service : SecretOutcome)
    (settings : InputSettings) (expected : SettingsFileVersion) (disk : Disk)
    (secrets : SecretSlots) : SecretSaveResult :=
  if !validInputSettings E.supportedHelpcodeSchema settings then
    ⟨disk, secrets, some "Input settings were outside the supported range.", none⟩
  else if !io.lock then ⟨disk, secrets, some "Unable to lock input settings.", none⟩
  else if E.version disk.config ≠ some expected then ⟨disk, secrets, some versionConflict, none⟩
  else E.saveWithSecretsUnlocked io service settings disk secrets

end MsimeLinux
