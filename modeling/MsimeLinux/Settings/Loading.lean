import MsimeLinux.SecretStore
import MsimeLinux.Settings.RoundTrip

/-!
# Loading settings with their credentials

The credentials of the enabled services are not in `config.ini`; `load` asks the
secret store for them. Every field of the file is checked on its own, over its
default, so what is loaded passes every check `save` makes of one field. Two
checks of `save` are about two fields, and one about a value of the other store:

- `load_valid_iff`: the loaded settings can be saved exactly when the file does
  not turn a voice service on and empty its endpoint;
- `loadedSettings_saveable_iff`: with credentials, when the store's tokens are
  allowed as well.
-/

namespace MsimeLinux

open Lib

/-! ## Credentials -/

/-- `append_message` (SettingsStore.cpp:97). -/
def appendMessage (destination message : String) : String :=
  if message = "" then destination
  else if destination = "" then message
  else destination ++ " " ++ message

/-- The AI credential (SettingsStore.cpp:1086). -/
def hydrateAi (lookup : SecretKind → Bytes → SecretLookup) (loaded : InputSettings × String) :
    InputSettings × String :=
  let (settings, warning) := loaded
  if settings.online.ai.enabled then
    match lookup .aiApiToken settings.online.ai.provider.name with
    | .found value => ({ settings with online.ai.token := value }, warning)
    | .unavailable =>
      ({ settings with online.aiCredentialAvailable := false },
        appendMessage warning ("The AI credential could not be read; AI suggestions are " ++
          "inactive until the credential service is reachable."))
    | .notFound =>
      ({ settings with online.aiCredentialAvailable := false },
        appendMessage warning ("No AI credential is stored for the selected provider; AI " ++
          "suggestions are inactive until one is added."))
  else (settings, warning)

/-- The translation credential (SettingsStore.cpp:1111). A service without one is
a supported configuration. -/
def hydrateTranslation (lookup : SecretKind → Bytes → SecretLookup)
    (loaded : InputSettings × String) : InputSettings × String :=
  let (settings, warning) := loaded
  if settings.online.candidateTranslationsEnabled &&
      settings.online.translationProvider == .deepLX then
    match lookup .translationApiToken settings.online.translationProvider.name with
    | .found value => ({ settings with online.translationToken := value }, warning)
    | .unavailable =>
      ({ settings with online.translationCredentialAvailable := false },
        appendMessage warning ("The translation credential could not be read; translation is " ++
          "inactive until the credential service is reachable."))
    | .notFound => (settings, warning)
  else (settings, warning)

/-- The voice credential (SettingsStore.cpp:1136). -/
def hydrateVoice (lookup : SecretKind → Bytes → SecretLookup)
    (loaded : InputSettings × String) : InputSettings × String :=
  let (settings, warning) := loaded
  if settings.voice.enabled then
    match lookup .voiceApiToken settings.voice.provider with
    | .found value => ({ settings with voice.token := value }, warning)
    | .unavailable =>
      ({ settings with voiceCredentialAvailable := false },
        appendMessage warning ("The voice credential could not be read; voice input is " ++
          "inactive until the credential service is reachable."))
    | .notFound =>
      ({ settings with voiceCredentialAvailable := false },
        appendMessage warning ("No voice credential is stored for the selected provider; voice " ++
          "input is inactive until one is added."))
  else (settings, warning)

/-- `SettingsStore::load` with a secret store (SettingsStore.cpp:1083). -/
def SettingsEnv.loadWithSecrets (E : SettingsEnv) (lookup : SecretKind → Bytes → SecretLookup)
    (config : ConfigFile) : InputSettings × String :=
  hydrateVoice lookup (hydrateTranslation lookup (hydrateAi lookup (E.load config)))

/-! ## What a file says -/

/-- The key file at a path, if one can be read there. -/
def ConfigFile.keyFile (E : SettingsEnv) : ConfigFile → Option E.keyFiles.File
  | .regular contents => E.keyFiles.parse contents
  | .missing | .unreadable | .directory => none

/-- The value of a kind in a slot. -/
def ConfigFile.valueAt (E : SettingsEnv) (config : ConfigFile) (slot : Slot) (kind : Kind) :
    Option kind.Value :=
  (config.keyFile E).bind fun file =>
    if E.keyFiles.hasKey file slot then E.keyFiles.get file slot kind else none

/-- Whether AI suggestions are on, and whose. -/
def ConfigFile.aiEnabled (E : SettingsEnv) (config : ConfigFile) : Bool :=
  (config.valueAt E (aiGroup, ascii "enabled") .boolean).getD false

def ConfigFile.aiProvider (E : SettingsEnv) (config : ConfigFile) : AiProvider :=
  ((config.valueAt E (aiGroup, ascii "provider") .string).bind parseAiProvider).getD .deepSeek

/-- Whether translations are on, and whose. -/
def ConfigFile.translationsEnabled (E : SettingsEnv) (config : ConfigFile) : Bool :=
  (config.valueAt E (translationGroup, ascii "enabled") .boolean).getD true

def ConfigFile.translationProvider (E : SettingsEnv) (config : ConfigFile) :
    TranslationProvider :=
  ((config.valueAt E (translationGroup, ascii "provider") .string).bind
    parseTranslationProvider).getD .local

/-- Whether voice input is on, and whose. -/
def ConfigFile.voiceEnabled (E : SettingsEnv) (config : ConfigFile) : Bool :=
  (config.valueAt E (voiceGroup, ascii "enabled") .boolean).getD false

def ConfigFile.voiceProvider (E : SettingsEnv) (config : ConfigFile) : Bytes :=
  ((config.valueAt E (voiceGroup, ascii "provider") .string).filter (validVoiceText 64)).getD
    (ascii "openai")

/-- No voice service is on in the file with its endpoint emptied. -/
structure ConfigFile.EndpointsSet (E : SettingsEnv) (config : ConfigFile) : Prop where
  voice : config.voiceEnabled E = true →
    config.valueAt E (voiceGroup, ascii "endpoint") .string ≠ some []
  polish : config.valueAt E (voiceGroup, ascii "polish-enabled") .boolean = some true →
    config.valueAt E (voiceGroup, ascii "polish-endpoint") .string ≠ some []

/-- The tokens the store has for the enabled services can go into a header. -/
structure ConfigFile.TokensAllowed (E : SettingsEnv) (config : ConfigFile)
    (lookup : SecretKind → Bytes → SecretLookup) : Prop where
  ai : config.aiEnabled E = true → ∀ token,
    lookup .aiApiToken (config.aiProvider E).name = .found token → tokenAllowed token = true
  translation : config.translationsEnabled E = true → config.translationProvider E = .deepLX →
    ∀ token, lookup .translationApiToken TranslationProvider.deepLX.name = .found token →
      tokenAllowed token = true
  voice : config.voiceEnabled E = true → ∀ token,
    lookup .voiceApiToken (config.voiceProvider E) = .found token → tokenAllowed token = true

/-! ## What is loaded -/

section Load

variable {E : SettingsEnv} {config : ConfigFile}

/-- Every field decodes what it encodes. -/
theorem settingsFields_lawful (supportedSchema : Bytes → Bool) :
    ∀ f ∈ settingsFields supportedSchema, f.Lawful := by
  simp only [settingsFields, inputFields, utilityFields, onlineFields, voiceFields,
    List.forall_mem_append, List.forall_mem_cons, KeyField.Lawful, SettingsField.boolean,
    SettingsField.choice, SettingsField.text, SettingsField.integer, SettingsField.natural,
    SettingsField.fullWidth, and_true, List.not_mem_nil, false_implies, implies_true]

/-- The loaded fields the two conditions are about. -/
structure LoadedAs (E : SettingsEnv) (config : ConfigFile) (s : InputSettings) : Prop where
  aiEnabled : s.online.ai.enabled = config.aiEnabled E
  aiProvider : s.online.ai.provider = config.aiProvider E
  translationsEnabled :
    s.online.candidateTranslationsEnabled = config.translationsEnabled E
  translationProvider : s.online.translationProvider = config.translationProvider E
  voiceEnabled : s.voice.enabled = config.voiceEnabled E
  voiceProvider : s.voice.provider = config.voiceProvider E
  voiceEndpoint : s.voice.endpoint =
    ((config.valueAt E (voiceGroup, ascii "endpoint") .string).filter
      validHttpsEndpoint).getD ({} : VoiceInputConfig).endpoint
  polishEnabled : s.voice.polishEnabled =
    (config.valueAt E (voiceGroup, ascii "polish-enabled") .boolean).getD false
  polishEndpoint : s.voice.polishEndpoint =
    ((config.valueAt E (voiceGroup, ascii "polish-endpoint") .string).filter
      validHttpsEndpoint).getD ({} : VoiceInputConfig).polishEndpoint

/-- What a text field says is what the slot says, if the validator lets it pass. -/
theorem value_text {K : KeyFiles} {file : K.File} {slot : Slot} {valid : Bytes → Bool}
    {get : InputSettings → Bytes} {set : Bytes → InputSettings → InputSettings} :
    KeyField.value K file ⟨slot, .string, Bytes, .text valid, get, set⟩ =
      (if K.hasKey file slot then K.get file slot .string else none).filter valid := by
  unfold KeyField.value
  by_cases hkey : K.hasKey file slot = true
  · rw [if_pos hkey, if_pos hkey]
    cases K.get file slot .string with
    | none => rfl
    | some text => simp [Codec.text, Option.filter]
  · rw [if_neg hkey, if_neg hkey]
    rfl

/-- What a flag says. -/
theorem value_boolean {K : KeyFiles} {file : K.File} {slot : Slot}
    {get : InputSettings → Bool} {set : Bool → InputSettings → InputSettings} :
    KeyField.value K file ⟨slot, .boolean, Bool, .boolean, get, set⟩ =
      if K.hasKey file slot then K.get file slot .boolean else none := by
  unfold KeyField.value
  by_cases hkey : K.hasKey file slot = true
  · rw [if_pos hkey, if_pos hkey]
    exact Option.bind_fun_some _
  · rw [if_neg hkey, if_neg hkey]

/-- What a choice says. -/
theorem value_named {α : Type} {K : KeyFiles} {file : K.File} {slot : Slot} {name : α → Bytes}
    {parse : Bytes → Option α} {get : InputSettings → α}
    {set : α → InputSettings → InputSettings} :
    KeyField.value K file ⟨slot, .string, α, .named name parse, get, set⟩ =
      (if K.hasKey file slot then K.get file slot .string else none).bind parse := by
  unfold KeyField.value
  by_cases hkey : K.hasKey file slot = true
  · rw [if_pos hkey, if_pos hkey]
    rfl
  · rw [if_neg hkey, if_neg hkey]
    rfl

/-- Nothing is read where there is no key file. -/
theorem loadedAs_default (h : config.keyFile E = none) : LoadedAs E config {} := by
  have hvalue : ∀ slot kind, config.valueAt E slot kind = none := fun slot kind => by
    rw [ConfigFile.valueAt, h]
    rfl
  constructor <;>
    simp [ConfigFile.aiEnabled, ConfigFile.aiProvider, ConfigFile.translationsEnabled,
      ConfigFile.translationProvider, ConfigFile.voiceEnabled, ConfigFile.voiceProvider, hvalue]

/-- The local settings do not touch the services. -/
theorem loadFields_local {K : KeyFiles} {file : K.File} (supportedSchema : Bytes → Bool) :
    (loadFields K (inputFields supportedSchema ++ utilityFields) file {}).1.online = {} ∧
      (loadFields K (inputFields supportedSchema ++ utilityFields) file {}).1.voice = {} := by
  have hset : ∀ f ∈ inputFields supportedSchema ++ utilityFields, ∀ v t,
      (f.set v t).online = t.online ∧ (f.set v t).voice = t.voice := by
    simp only [inputFields, utilityFields, List.forall_mem_append, List.forall_mem_cons,
      SettingsField.boolean, SettingsField.choice, SettingsField.text, SettingsField.integer,
      SettingsField.natural, SettingsField.fullWidth, and_self, List.not_mem_nil,
      false_implies, implies_true]
  refine loadFields_invariant (P := fun s : InputSettings => s.online = {} ∧ s.voice = {}) file
    (fun f hf _ v _ t ht => ?_) ⟨rfl, rfl⟩
  rw [(hset f hf v t).1, (hset f hf v t).2]
  exact ht

/-- The services, over the defaults of the services. -/
theorem loadedAs_services {file : E.keyFiles.File} (h : config.keyFile E = some file)
    {t : InputSettings} (honline : t.online = {}) (hvoice : t.voice = {}) :
    LoadedAs E config (loadFields E.keyFiles (onlineFields ++ voiceFields) file t).1 := by
  have hvalue : ∀ slot kind, config.valueAt E slot kind =
      if E.keyFiles.hasKey file slot then E.keyFiles.get file slot kind else none :=
    fun slot kind => by
      rw [ConfigFile.valueAt, h]
      rfl
  have hlawful : ∀ f ∈ onlineFields ++ voiceFields, f.Lawful := fun f hf =>
    settingsFields_lawful E.supportedHelpcodeSchema f
      (List.mem_append_right _ (List.mem_append_right _ hf))
  have hloaded := loadFields_fst (K := E.keyFiles) hlawful file t
  generalize (loadFields E.keyFiles (onlineFields ++ voiceFields) file t).1 = s at hloaded ⊢
  simp only [onlineFields, voiceFields, List.foldl_append, List.foldl_cons, List.foldl_nil,
    SettingsField.boolean, SettingsField.choice, SettingsField.text, SettingsField.integer,
    SettingsField.natural, value_boolean, value_named, value_text, ← hvalue, honline,
    hvoice] at hloaded
  subst hloaded
  constructor
  all_goals rfl

theorem loadedAs_loadFields {file : E.keyFiles.File} (h : config.keyFile E = some file) :
    LoadedAs E config
      (loadFields E.keyFiles (settingsFields E.supportedHelpcodeSchema) file {}).1 := by
  have htable : settingsFields E.supportedHelpcodeSchema =
      (inputFields E.supportedHelpcodeSchema ++ utilityFields) ++ (onlineFields ++ voiceFields) :=
    (List.append_assoc _ _ _).symm
  have hlocal := @loadFields_local E.keyFiles file E.supportedHelpcodeSchema
  rw [htable, loadFields_append (htable ▸ settingsFields_lawful _)]
  exact loadedAs_services h hlocal.1 hlocal.2

/-- Loading reads every field of the file. -/
theorem load_loadedAs (E : SettingsEnv) (config : ConfigFile) :
    LoadedAs E config (E.load config).1 := by
  unfold SettingsEnv.load
  split
  · exact loadedAs_default rfl
  · exact loadedAs_default rfl
  · exact loadedAs_default rfl
  · next contents =>
    split
    · next hparse => exact loadedAs_default hparse
    · next file hparse => exact loadedAs_loadFields hparse

/-! ## Every field is valid -/

/-- A number that decodes is between the bounds of its field. -/
theorem natural_bounds {minimum maximum : Nat} {value : Int} {n : Nat}
    (h : (Codec.natural minimum maximum).decode value = some n) : minimum ≤ n ∧ n ≤ maximum := by
  simp only [Codec.natural, Option.ite_none_right_eq_some, Option.some.injEq] at h
  obtain ⟨⟨hmin, hmax⟩, rfl⟩ := h
  have hmin' : (minimum : Int) ≤ value := hmin
  have hmax' : value ≤ (maximum : Int) := hmax
  show minimum ≤ value.toNat ∧ value.toNat ≤ maximum
  omega

theorem integer_bounds {minimum maximum value n : Int}
    (h : (Codec.integer minimum maximum).decode value = some n) : minimum ≤ n ∧ n ≤ maximum := by
  simp only [Codec.integer, Option.ite_none_right_eq_some, Option.some.injEq] at h
  obtain ⟨hbounds, rfl⟩ := h
  exact hbounds

/-- A text that decodes passes the test of its field. -/
theorem text_valid {valid : Bytes → Bool} {value text : Bytes}
    (h : (Codec.text valid).decode value = some text) : valid text = true := by
  simp only [Codec.text, Option.ite_none_right_eq_some, Option.some.injEq] at h
  exact h.2 ▸ h.1

/-- What a field takes from a file keeps the record valid, field by field. -/
def KeepsValid (supportedSchema : Bytes → Bool) (f : KeyField InputSettings) : Prop :=
  ∀ value v, f.codec.decode value = some v → ∀ t : InputSettings,
    t.ValidFields supportedSchema → (f.set v t).ValidFields supportedSchema

/-- Reading a field keeps the settings valid: those of the input, -/
theorem keepsValid_inputFields (supportedSchema : Bytes → Bool) :
    ∀ f ∈ inputFields supportedSchema, KeepsValid supportedSchema f := by
  simp only [inputFields, List.forall_mem_cons]
  refine ⟨fun _ _ _ _ h => { h with }, fun _ _ _ _ h => { h with }, fun _ _ _ _ h => { h with },
    fun _ _ hv _ h => { h with pageSize := natural_bounds hv }, fun _ _ _ _ h => { h with },
    fun _ _ _ _ h => { h with }, fun _ _ _ _ h => { h with }, fun _ _ _ _ h => { h with },
    fun _ _ _ _ h => { h with }, fun _ _ _ _ h => { h with }, fun _ _ _ _ h => { h with },
    fun _ _ _ _ h => { h with }, fun _ _ _ _ h => { h with }, fun _ _ _ _ h => { h with },
    fun _ _ _ _ h => { h with }, fun _ _ _ _ h => { h with },
    fun _ _ hv _ h => { h with quanpinHelpcodeSchema := text_valid hv },
    fun _ _ _ _ h => { h with },
    fun _ _ hv _ h => { h with shuangpinHelpcodeSchema := text_valid hv },
    fun _ _ _ _ h => { h with },
    fun _ _ hv _ h => { h with frequencyTriggerCount := integer_bounds hv },
    fun _ _ hv _ h => { h with frequencyLinearStep := integer_bounds hv },
    fun _ _ _ _ h => { h with }, fun _ _ _ _ h => { h with }, fun _ _ _ _ h => { h with },
    fun _ _ _ _ h => { h with }, fun _ _ _ _ h => { h with },
    fun _ _ hv _ h => { h with mixedEnglishMinimumPrefix := natural_bounds hv },
    fun _ _ _ _ h => { h with }, fun _ _ _ _ h => { h with }, by simp⟩

/-- the utilities, -/
theorem keepsValid_utilityFields (supportedSchema : Bytes → Bool) :
    ∀ f ∈ utilityFields, KeepsValid supportedSchema f := by
  simp only [utilityFields, List.forall_mem_cons]
  refine ⟨?_, ?_, ?_, ?_, ?_, ?_, ?_, ?_, ?_, ?_, ?_, by simp⟩
  all_goals exact fun _ _ _ _ h => { h with }

/-- the online services, -/
theorem keepsValid_onlineFields (supportedSchema : Bytes → Bool) :
    ∀ f ∈ onlineFields, KeepsValid supportedSchema f := by
  simp only [onlineFields, List.forall_mem_cons]
  refine ⟨fun _ _ _ _ h => { h with },
    fun _ _ hv _ h => { h with connectTimeout := integer_bounds hv },
    fun _ _ hv _ h => { h with totalTimeout := integer_bounds hv },
    fun _ _ _ _ h => { h with }, fun _ _ _ _ h => { h with },
    fun _ _ hv _ h => { h with aiEndpoint := text_valid hv },
    fun _ _ hv _ h => { h with aiModel := text_valid hv },
    fun _ _ hv _ h => { h with aiPrompt := text_valid hv },
    fun _ _ hv _ h => { h with aiCandidateLimit := natural_bounds hv },
    fun _ _ _ _ h => { h with }, fun _ _ _ _ h => { h with },
    fun _ _ hv _ h => { h with translationTargetLanguage := text_valid hv },
    fun _ _ hv _ h => { h with translationEndpoint := text_valid hv }, by simp⟩

/-- and the voice input. -/
theorem keepsValid_voiceFields (supportedSchema : Bytes → Bool) :
    ∀ f ∈ voiceFields, KeepsValid supportedSchema f := by
  simp only [voiceFields, List.forall_mem_cons]
  exact ⟨fun _ _ _ _ h => { h with },
    fun _ _ hv _ h => { h with voiceProvider := text_valid hv },
    fun _ _ hv _ h => { h with voiceEndpoint := text_valid hv },
    fun _ _ hv _ h => { h with voiceModel := text_valid hv },
    fun _ _ hv _ h => { h with voiceLanguage := text_valid hv },
    fun _ _ _ _ h => { h with },
    fun _ _ hv _ h => { h with polishEndpoint := text_valid hv },
    fun _ _ hv _ h => { h with polishModel := text_valid hv },
    fun _ _ hv _ h => { h with polishPrompt := text_valid hv }, by simp⟩

/-- **Each field is repaired**: what a field takes from the file passes the check
of that field, and the others are left as they are. -/
theorem keepsValid_settingsFields (supportedSchema : Bytes → Bool) :
    ∀ f ∈ settingsFields supportedSchema, KeepsValid supportedSchema f := by
  simp only [settingsFields, List.forall_mem_append]
  exact ⟨keepsValid_inputFields supportedSchema, keepsValid_utilityFields supportedSchema,
    keepsValid_onlineFields supportedSchema, keepsValid_voiceFields supportedSchema⟩

/-- Every loaded field is valid. -/
theorem load_validFields (hE : E.KnowsSchemas) (config : ConfigFile) :
    (E.load config).1.ValidFields E.supportedHelpcodeSchema := by
  have hdefault := (validInputSettings_default hE.lantian).toValidFields
  unfold SettingsEnv.load
  split
  · exact hdefault
  · exact hdefault
  · exact hdefault
  · split
    · exact hdefault
    · exact loadFields_invariant _ (keepsValid_settingsFields _) hdefault

/-- An endpoint the file does not empty is not empty. -/
theorem getD_ne_nil_iff {text : Option Bytes} {fallback : Bytes} (hdefault : fallback ≠ []) :
    (text.filter validHttpsEndpoint).getD fallback ≠ [] ↔ text ≠ some [] := by
  cases text with
  | none => simpa using hdefault
  | some endpoint =>
    cases hvalid : validHttpsEndpoint endpoint with
    | true => simp [Option.filter, hvalid]
    | false =>
      have hne : endpoint ≠ [] := fun h => by simp [h, validHttpsEndpoint] at hvalid
      simpa [Option.filter, hvalid, hdefault] using hne

/-- **When loaded settings can be saved**: the file does not empty the endpoint of
a voice service it turns on. -/
theorem load_valid_iff (hE : E.KnowsSchemas) (config : ConfigFile) :
    validInputSettings E.supportedHelpcodeSchema (E.load config).1 = true ↔
      config.EndpointsSet E := by
  have hloaded := load_loadedAs E config
  have hvoice : (E.load config).1.voice.endpoint ≠ [] ↔
      config.valueAt E (voiceGroup, ascii "endpoint") .string ≠ some [] := by
    rw [hloaded.voiceEndpoint]
    exact getD_ne_nil_iff (by decide)
  have hpolish : (E.load config).1.voice.polishEndpoint ≠ [] ↔
      config.valueAt E (voiceGroup, ascii "polish-endpoint") .string ≠ some [] := by
    rw [hloaded.polishEndpoint]
    exact getD_ne_nil_iff (by decide)
  have henabled : (E.load config).1.voice.polishEnabled = true ↔
      config.valueAt E (voiceGroup, ascii "polish-enabled") .boolean = some true := by
    rw [hloaded.polishEnabled]
    rcases config.valueAt E (voiceGroup, ascii "polish-enabled") .boolean with _ | _ | _ <;> simp
  rw [validInputSettings_iff]
  constructor
  · intro h
    exact ⟨fun hon => hvoice.mp (h.voiceEnabled (hloaded.voiceEnabled.trans hon)),
      fun hon => hpolish.mp (h.polishEnabled (henabled.mpr hon))⟩
  · intro h
    exact { load_validFields hE config with
      voiceEnabled := fun hon => hvoice.mpr (h.voice (hloaded.voiceEnabled.symm.trans hon))
      polishEnabled := fun hon => hpolish.mpr (h.polish (henabled.mp hon)) }

/-! ## With credentials -/

variable {lookup : SecretKind → Bytes → SecretLookup}

/-- The token a lookup leaves: its own, or the one there was. -/
def SecretLookup.tokenOr (old : Bytes) : SecretLookup → Bytes
  | found value => value
  | notFound | unavailable => old

/-- What the AI lookup changes: the token, and whether there is one. -/
theorem hydrateAi_fst (lookup : SecretKind → Bytes → SecretLookup)
    (loaded : InputSettings × String) :
    ∃ available, (hydrateAi lookup loaded).1 = { loaded.1 with
      online.ai.token := if loaded.1.online.ai.enabled then
        (lookup .aiApiToken loaded.1.online.ai.provider.name).tokenOr loaded.1.online.ai.token
        else loaded.1.online.ai.token
      online.aiCredentialAvailable := available } := by
  obtain ⟨settings, warning⟩ := loaded
  unfold hydrateAi
  dsimp only
  by_cases henabled : settings.online.ai.enabled = true
  · rw [if_pos henabled, if_pos henabled]
    cases lookup .aiApiToken settings.online.ai.provider.name with
    | found token => exact ⟨_, rfl⟩
    | notFound => exact ⟨_, rfl⟩
    | unavailable => exact ⟨_, rfl⟩
  · rw [if_neg henabled, if_neg henabled]
    exact ⟨_, rfl⟩

/-- Filling in the credentials changes the tokens only, of the translation, -/
theorem hydrateTranslation_fst (lookup : SecretKind → Bytes → SecretLookup)
    (loaded : InputSettings × String) :
    ∃ available, (hydrateTranslation lookup loaded).1 = { loaded.1 with
      online.translationToken := if loaded.1.online.candidateTranslationsEnabled &&
          loaded.1.online.translationProvider == .deepLX then
        (lookup .translationApiToken loaded.1.online.translationProvider.name).tokenOr
          loaded.1.online.translationToken
        else loaded.1.online.translationToken
      online.translationCredentialAvailable := available } := by
  obtain ⟨settings, warning⟩ := loaded
  unfold hydrateTranslation
  dsimp only
  by_cases huses : (settings.online.candidateTranslationsEnabled &&
      settings.online.translationProvider == .deepLX) = true
  · rw [if_pos huses, if_pos huses]
    cases lookup .translationApiToken settings.online.translationProvider.name with
    | found token => exact ⟨_, rfl⟩
    | notFound => exact ⟨_, rfl⟩
    | unavailable => exact ⟨_, rfl⟩
  · rw [if_neg huses, if_neg huses]
    exact ⟨_, rfl⟩

/-- and of the voice input. -/
theorem hydrateVoice_fst (lookup : SecretKind → Bytes → SecretLookup)
    (loaded : InputSettings × String) :
    ∃ available, (hydrateVoice lookup loaded).1 = { loaded.1 with
      voice.token := if loaded.1.voice.enabled then
        (lookup .voiceApiToken loaded.1.voice.provider).tokenOr loaded.1.voice.token
        else loaded.1.voice.token
      voiceCredentialAvailable := available } := by
  obtain ⟨settings, warning⟩ := loaded
  unfold hydrateVoice
  dsimp only
  by_cases henabled : settings.voice.enabled = true
  · rw [if_pos henabled, if_pos henabled]
    cases lookup .voiceApiToken settings.voice.provider with
    | found token => exact ⟨_, rfl⟩
    | notFound => exact ⟨_, rfl⟩
    | unavailable => exact ⟨_, rfl⟩
  · rw [if_neg henabled, if_neg henabled]
    exact ⟨_, rfl⟩

/-- **Loading with credentials** changes the credentials and what is known about
them, and each token is the store's for the service the file selects. -/
theorem loadWithSecrets_fst (E : SettingsEnv) (lookup : SecretKind → Bytes → SecretLookup)
    (config : ConfigFile) :
    ∃ ai translation voice, (E.loadWithSecrets lookup config).1 = { (E.load config).1 with
      online := { (E.load config).1.online with
        ai.token := if config.aiEnabled E then
          (lookup .aiApiToken (config.aiProvider E).name).tokenOr [] else []
        translationToken := if config.translationsEnabled E &&
            config.translationProvider E == .deepLX then
          (lookup .translationApiToken (config.translationProvider E).name).tokenOr [] else []
        aiCredentialAvailable := ai
        translationCredentialAvailable := translation }
      voice.token := if config.voiceEnabled E then
        (lookup .voiceApiToken (config.voiceProvider E)).tokenOr [] else []
      voiceCredentialAvailable := voice } := by
  have hloaded := load_loadedAs E config
  have hpersisted := load_persisted E config
  -- what the file alone gives has no token, so hydrating fills in all of them
  have hai : (E.load config).1.online.ai.token = [] :=
    (congrArg (fun s => s.online.ai.token) hpersisted).symm
  have htranslation : (E.load config).1.online.translationToken = [] :=
    (congrArg (fun s => s.online.translationToken) hpersisted).symm
  have hvoice : (E.load config).1.voice.token = [] :=
    (congrArg (fun s => s.voice.token) hpersisted).symm
  obtain ⟨ai, hai'⟩ := hydrateAi_fst lookup (E.load config)
  obtain ⟨translation, htranslation'⟩ :=
    hydrateTranslation_fst lookup (hydrateAi lookup (E.load config))
  obtain ⟨voice, hvoice'⟩ :=
    hydrateVoice_fst lookup (hydrateTranslation lookup (hydrateAi lookup (E.load config)))
  refine ⟨ai, translation, voice, ?_⟩
  unfold SettingsEnv.loadWithSecrets
  rw [hvoice', htranslation', hai']
  simp only [hai, htranslation, hvoice, hloaded.aiEnabled, hloaded.aiProvider,
    hloaded.translationsEnabled, hloaded.translationProvider, hloaded.voiceEnabled,
    hloaded.voiceProvider]

/-- A token is allowed when the one the store has is. -/
theorem tokenAllowed_tokenOr_iff {enabled : Bool} {answer : SecretLookup} :
    tokenAllowed (if enabled then answer.tokenOr [] else []) = true ↔
      (enabled = true → ∀ token, answer = .found token → tokenAllowed token = true) := by
  have hempty : tokenAllowed [] = true := rfl
  cases enabled with
  | false => simp [hempty]
  | true => cases answer <;> simp [SecretLookup.tokenOr, hempty]

/-- **When settings loaded with their credentials can be saved.** -/
theorem loadWithSecrets_valid_iff (hE : E.KnowsSchemas)
    (lookup : SecretKind → Bytes → SecretLookup) (config : ConfigFile) :
    validInputSettings E.supportedHelpcodeSchema (E.loadWithSecrets lookup config).1 = true ↔
      config.EndpointsSet E ∧ config.TokensAllowed E lookup := by
  have hload := load_validFields hE config
  obtain ⟨ai, translation, voice, hfst⟩ := loadWithSecrets_fst E lookup config
  rw [hfst, validInputSettings_iff, ← load_valid_iff hE, validInputSettings_iff]
  constructor
  · intro h
    refine ⟨{ hload with voiceEnabled := h.voiceEnabled, polishEnabled := h.polishEnabled },
      tokenAllowed_tokenOr_iff.mp h.aiToken, fun hon hdeeplx => ?_,
      tokenAllowed_tokenOr_iff.mp h.voiceToken⟩
    have htoken := tokenAllowed_tokenOr_iff.mp h.translationToken
    rw [hdeeplx] at htoken
    exact htoken (by simp [hon])
  · rintro ⟨h, htokens⟩
    refine { h with
      aiToken := tokenAllowed_tokenOr_iff.mpr htokens.ai
      translationToken := tokenAllowed_tokenOr_iff.mpr fun hon => ?_
      voiceToken := tokenAllowed_tokenOr_iff.mpr htokens.voice }
    simp only [Bool.and_eq_true, beq_iff_eq] at hon
    rw [hon.2]
    exact htokens.translation hon.1 hon.2

/-! ## Saving what was loaded -/

/-- Settings in range are not refused as out of range. -/
theorem save_error_ne_range {settings : InputSettings}
    (h : validInputSettings E.supportedHelpcodeSchema settings = true) (io : WriteOutcome)
    (disk : Disk) :
    (E.save io settings disk).error ≠ some "Input settings were outside the supported range." := by
  unfold SettingsEnv.save SettingsEnv.saveUnlocked
  rw [h]
  simp only [Bool.not_true, Bool.false_eq_true, if_false]
  split
  · simp
  split
  · simp
  split
  · simp
  split
  · simp
  split
  · simp
  split
  · simp
  · simp

/-- Settings out of range are refused before anything is touched. -/
theorem save_error_range {settings : InputSettings}
    (h : validInputSettings E.supportedHelpcodeSchema settings = false) (io : WriteOutcome)
    (disk : Disk) :
    (E.save io settings disk).error = some "Input settings were outside the supported range." := by
  unfold SettingsEnv.save
  rw [h]
  rfl

end Load

/-- **Loading repairs everything but three pairs.** For every file and every
answer of the secret store: what is loaded, with or without the store, passes the
check of a save, and a valid change of it is not refused as out of range, exactly
when the file leaves no enabled voice service without an endpoint and the store's
tokens are allowed in a header. -/
theorem loadedSettings_saveable_iff {E : SettingsEnv} (hE : E.KnowsSchemas) (config : ConfigFile)
    (lookup : SecretKind → Bytes → SecretLookup) :
    (∀ settings ∈ [(E.load config).1, (E.loadWithSecrets lookup config).1],
      validInputSettings E.supportedHelpcodeSchema settings = true ∧
      ∀ changed, ValidChange E.supportedHelpcodeSchema settings changed → ∀ io disk,
        (E.save io changed disk).error ≠
          some "Input settings were outside the supported range.") ↔
      config.EndpointsSet E ∧ config.TokensAllowed E lookup := by
  constructor
  · intro h
    exact (loadWithSecrets_valid_iff hE lookup config).mp (h _ (by simp)).1
  · intro h settings hsettings
    have hvalid : validInputSettings E.supportedHelpcodeSchema settings = true := by
      rcases List.mem_cons.mp hsettings with rfl | hsettings
      · exact (load_valid_iff hE config).mpr h.1
      · obtain rfl := List.mem_singleton.mp hsettings
        exact (loadWithSecrets_valid_iff hE lookup config).mpr h
    exact ⟨hvalid, fun changed hchange io disk =>
      save_error_ne_range (hchange.valid hvalid) io disk⟩

/-- A file that turns voice input on and empties its endpoint. -/
def emptiedEndpoint : ConfigFile :=
  .regular (ascii "[voice]\nenabled=true\nendpoint=\n")

theorem emptiedEndpoint_valueAt :
    emptiedEndpoint.valueAt plainEnv (voiceGroup, ascii "enabled") .boolean = some true ∧
      emptiedEndpoint.valueAt plainEnv (voiceGroup, ascii "endpoint") .string = some [] := by
  decide +kernel

/-- Its settings are loaded, and then a save refuses them. -/
theorem emptiedEndpoint_unsaveable :
    validInputSettings plainEnv.supportedHelpcodeSchema (plainEnv.load emptiedEndpoint).1 = false ∧
      (plainEnv.save {} (plainEnv.load emptiedEndpoint).1 { config := emptiedEndpoint }).error =
        some "Input settings were outside the supported range." := by
  have hinvalid : validInputSettings plainEnv.supportedHelpcodeSchema
      (plainEnv.load emptiedEndpoint).1 = false := by
    rw [Bool.eq_false_iff]
    intro hvalid
    have hset := (load_valid_iff plainEnv_lawful.toKnowsSchemas emptiedEndpoint).mp hvalid
    obtain ⟨henabled, hendpoint⟩ := emptiedEndpoint_valueAt
    refine hset.voice ?_ hendpoint
    rw [ConfigFile.voiceEnabled, henabled]
    rfl
  exact ⟨hinvalid, save_error_range hinvalid {} _⟩

/-- A file with two services on, one with an endpoint of its own. -/
def servicesFile : ConfigFile := .regular
  (ascii "[ai]\nenabled=true\n\n[voice]\nenabled=true\nendpoint=https://voice.example/v1\n")

/-- The tokens that are stored for them. -/
def servicesLookup : SecretKind → Bytes → SecretLookup
  | .aiApiToken, _ => .found (ascii "sk-1")
  | .voiceApiToken, _ => .found (ascii "sk-2")
  | .translationApiToken, _ | .accountSession, _ => .notFound

/-- The file of the example has every endpoint it needs, -/
theorem servicesFile_set : servicesFile.EndpointsSet plainEnv where
  voice _ := by decide +kernel
  polish hon := absurd hon (by decide +kernel)

/-- and the tokens stored for it are allowed. -/
theorem servicesFile_tokens : servicesFile.TokensAllowed plainEnv servicesLookup where
  ai _ token htoken := by
    rw [← SecretLookup.found.inj htoken]
    decide
  translation _ _ token htoken := by cases htoken
  voice _ token htoken := by
    rw [← SecretLookup.found.inj htoken]
    decide

/-- Its settings, with the tokens, can be saved, also with another page size. -/
theorem loadedSettings_saveable_services :
    let loaded := (plainEnv.loadWithSecrets servicesLookup servicesFile).1
    loaded.voice.enabled = true ∧ loaded.voice.endpoint = ascii "https://voice.example/v1" ∧
      loaded.voice.token = ascii "sk-2" ∧ loaded.online.ai.token = ascii "sk-1" ∧
      validInputSettings plainEnv.supportedHelpcodeSchema loaded = true := by
  have hloaded := (loadedSettings_saveable_iff plainEnv_lawful.toKnowsSchemas servicesFile
    servicesLookup).mpr ⟨servicesFile_set, servicesFile_tokens⟩
  have hread : let loaded := (plainEnv.loadWithSecrets servicesLookup servicesFile).1
      loaded.voice.enabled = true ∧ loaded.voice.endpoint = ascii "https://voice.example/v1" ∧
        loaded.voice.token = ascii "sk-2" ∧ loaded.online.ai.token = ascii "sk-1" := by
    decide +kernel
  refine ⟨hread.1, hread.2.1, hread.2.2.1, hread.2.2.2, ?_⟩
  exact (hloaded _ (List.mem_cons_of_mem _ List.mem_cons_self)).1

end MsimeLinux
