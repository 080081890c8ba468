import MsimeLinux.Bytes
import MsimeLinux.Input.Controller

/-!
# The settings (`SettingsStore.h`, `VoiceInput.h`, `AiSuggestionProvider.h`)

`InputSettings` is one record with everything the user can choose, the
credentials, and a few facts about this run that no file keeps. This module has
the record with its defaults, the names its choices go by, and
`validInputSettings`, the check every save begins with.

- `plainText_of_validUtf8Text` and the lemmas after it: what the check accepts can
  be written to a key file.
- `InputSettings.persisted`: the part of the record a file keeps.
-/

namespace MsimeLinux

/-! ## The record -/

/-- `AiProvider` (AiSuggestionProvider.h:18). -/
inductive AiProvider where
  | deepSeek
  | openAI
  | siliconFlow
  | groq
  | custom
  deriving DecidableEq, Repr

/-- `TranslationProvider` (SettingsStore.h:16). -/
inductive TranslationProvider where
  | local
  | deepLX
  deriving DecidableEq, Repr

/-- `CandidateWindowLayout` (SettingsStore.h:22). -/
inductive CandidateWindowLayout where
  | vertical
  | horizontal
  deriving DecidableEq, Repr

/-- `AiSuggestionConfig` (AiSuggestionProvider.h:27). -/
structure AiSuggestionConfig where
  enabled : Bool := false
  provider : AiProvider := .deepSeek
  token : Bytes := []
  endpoint : Bytes := []
  model : Bytes := []
  prompt : Bytes := []
  candidateLimit : Nat := 3
  deriving DecidableEq

/-- `OnlineSettings` (SettingsStore.h:28). Durations are milliseconds. -/
structure OnlineSettings where
  cloudCandidatesEnabled : Bool := true
  ai : AiSuggestionConfig := {}
  candidateTranslationsEnabled : Bool := true
  translationProvider : TranslationProvider := .local
  translationTargetLanguage : Bytes := ascii "en"
  translationEndpoint : Bytes := []
  translationToken : Bytes := []
  connectTimeout : Int := 2500
  totalTimeout : Int := 8000
  aiCredentialAvailable : Bool := true
  translationCredentialAvailable : Bool := true
  aiCredentialCleared : Bool := false
  translationCredentialCleared : Bool := false
  deriving DecidableEq

/-- `VoiceInputConfig` (VoiceInput.h:15). -/
structure VoiceInputConfig where
  enabled : Bool := false
  provider : Bytes := ascii "openai"
  endpoint : Bytes := ascii "https://api.openai.com" ++ ascii "/v1/audio/transcriptions"
  model : Bytes := ascii "whisper-1"
  language : Bytes := ascii "zh"
  token : Bytes := []
  polishEnabled : Bool := false
  polishEndpoint : Bytes := ascii "https://api.openai.com" ++ ascii "/v1/chat/completions"
  polishModel : Bytes := ascii "gpt-4o-mini"
  polishPrompt : Bytes := utf8 "整理语音转写，修正明显错别字并补充标点，" ++ utf8 "只输出整理后的文本。"
  connectTimeout : Int := 2500
  totalTimeout : Int := 8000
  deriving DecidableEq

/-- `InputSettings` (SettingsStore.h:60). -/
structure InputSettings where
  mode : InputMode := .ime
  defaultMode : InputMode := .ime
  scheme : SchemeType := .quanpin
  pageSize : Nat := 9
  candidateWindowLayout : CandidateWindowLayout := .vertical
  punctuationMode : PunctuationMode := .chinese
  punctuationLock : PunctuationLock := .follow
  characterWidth : CharacterWidth := .half
  commaPeriodPaging : Bool := true
  wordToCharacter : Bool := true
  bracketPaging : Bool := false
  smartPunctuation : Bool := true
  smartPunctuationRepeatToChinese : Bool := true
  pairedPunctuation : Bool := true
  preeditStyle : PreeditStyle := .raw
  quanpinHelpcodeEnabled : Bool := true
  quanpinHelpcodeSchema : Bytes := ascii "lantian"
  shuangpinHelpcodeEnabled : Bool := true
  shuangpinHelpcodeSchema : Bytes := ascii "lantian"
  showQuanpinHelpcodeInCandidates : Bool := true
  showShuangpinHelpcodeInCandidates : Bool := true
  frequencyAdjustmentMode : FrequencyAdjustmentMode := .promote
  frequencyTriggerCount : Int := 1
  frequencyLinearStep : Int := 1
  unicodeModeEnabled : Bool := true
  superJianpinModeEnabled : Bool := true
  quickPhraseModeEnabled : Bool := true
  dateTimeModeEnabled : Bool := true
  emojiModeEnabled : Bool := true
  kaomojiModeEnabled : Bool := true
  temporaryEnglishModeEnabled : Bool := true
  temporaryJapaneseModeEnabled : Bool := true
  mixedEnglishCandidatesEnabled : Bool := true
  mixedEnglishMinimumPrefix : Nat := 2
  mixedEmojiCandidatesEnabled : Bool := true
  mixedKaomojiCandidatesEnabled : Bool := false
  clipboardHistoryEnabled : Bool := false
  floatingToolbarEnabled : Bool := true
  switchLanguageShift : Bool := true
  switchLanguageCtrl : Bool := false
  switchLanguageCtrlAltSpace : Bool := true
  voice : VoiceInputConfig := {}
  voiceCredentialAvailable : Bool := true
  voiceCredentialCleared : Bool := false
  online : OnlineSettings := {}
  deriving DecidableEq

/-! ## Names -/

/-- The value that goes by a name. -/
def parseName {α : Type} (name : α → Bytes) (all : List α) (value : Bytes) : Option α :=
  all.find? fun a => name a == value

/-- `mode_name` (SettingsStore.cpp:209). -/
def InputMode.name : InputMode → Bytes
  | ime => ascii "ime"
  | direct => ascii "direct"

/-- `scheme_name` (SettingsStore.cpp:221). -/
def SchemeType.name : SchemeType → Bytes
  | quanpin => ascii "quanpin"
  | shuangpin => ascii "shuangpin"
  | wubi => ascii "wubi"
  | japaneseRomaji => ascii "japanese"

/-- `punctuation_lock_name` (SettingsStore.cpp:237). -/
def PunctuationLock.name : PunctuationLock → Bytes
  | follow => ascii "follow"
  | chinese => ascii "chinese"
  | english => ascii "english"

/-- `punctuation_name` (SettingsStore.cpp:251). -/
def PunctuationMode.name : PunctuationMode → Bytes
  | chinese => ascii "chinese"
  | english => ascii "english"

/-- `preedit_style_name` (SettingsStore.cpp:263). -/
def PreeditStyle.name : PreeditStyle → Bytes
  | raw => ascii "raw"
  | pinyin => ascii "pinyin"
  | hidden => ascii "hidden"

/-- `candidate_window_layout_name` (SettingsStore.cpp:277). -/
def CandidateWindowLayout.name : CandidateWindowLayout → Bytes
  | vertical => ascii "vertical"
  | horizontal => ascii "horizontal"

/-- `frequency_adjustment_name` (SettingsStore.cpp:289). -/
def FrequencyAdjustmentMode.name : FrequencyAdjustmentMode → Bytes
  | disabled => ascii "disabled"
  | pin => ascii "pin"
  | halve => ascii "halve"
  | linear => ascii "linear"
  | promote => ascii "promote"

/-- `ai_provider_name` (SettingsStore.cpp:369). -/
def AiProvider.name : AiProvider → Bytes
  | deepSeek => ascii "deepseek"
  | openAI => ascii "openai"
  | siliconFlow => ascii "siliconflow"
  | groq => ascii "groq"
  | custom => ascii "custom"

/-- `translation_provider_name` (SettingsStore.cpp:387). -/
def TranslationProvider.name : TranslationProvider → Bytes
  | .local => ascii "local"
  | deepLX => ascii "deeplx"

/-- `parse_ai_provider` (SettingsStore.cpp:110). -/
def parseAiProvider : Bytes → Option AiProvider :=
  parseName AiProvider.name [.deepSeek, .openAI, .siliconFlow, .groq, .custom]

/-- `parse_translation_provider` (SettingsStore.cpp:136). -/
def parseTranslationProvider : Bytes → Option TranslationProvider :=
  parseName TranslationProvider.name [.local, .deepLX]

/-! ## The check -/

/-- A control character: below space, or DEL. -/
def isControl (c : UInt8) : Bool := c < 32 || c == 127

/-- `valid_utf8_text` (SettingsStore.cpp:149). -/
def validUtf8Text (value : Bytes) (maximumBytes : Nat) (allowNewlines : Bool) : Bool :=
  if value.length > maximumBytes || value.contains 0 || !utf8Validate value then false
  else !value.any fun c =>
    if allowNewlines && (c == newline || c == 13 || c == 9) then false else isControl c

/-- `kMaximumEndpointBytes`. -/
def maximumEndpointBytes : Nat := 2048

/-- `valid_https_endpoint` (SettingsStore.cpp:165). -/
def validHttpsEndpoint (endpoint : Bytes) : Bool :=
  endpoint.isEmpty ||
    (endpoint.length ≤ maximumEndpointBytes && (ascii "https://").isPrefixOf endpoint &&
      validUtf8Text endpoint maximumEndpointBytes false)

/-- `valid_translation_language` (SettingsStore.cpp:171). -/
def validTranslationLanguage (language : Bytes) : Bool :=
  [ascii "en", ascii "fr", ascii "ja", ascii "es", ascii "ru", ascii "de",
    ascii "ko"].contains language

/-- `token_allowed` (EndpointPolicy.cpp:46). -/
def tokenAllowed (token : Bytes) : Bool := token.length ≤ 4096 && !token.any isControl

/-- A text of at most `maximum` bytes on one line, not empty: what the voice
settings ask of a name. -/
def validVoiceText (maximum : Nat) (value : Bytes) : Bool :=
  validUtf8Text value maximum false && !value.isEmpty

/-- The same for the polish prompt, which may have several lines. -/
def validPolishPrompt (value : Bytes) : Bool := validUtf8Text value 8192 true && !value.isEmpty

/-- `kMaximumModelBytes`, `kMaximumPromptBytes`. -/
def validModel (value : Bytes) : Bool := validUtf8Text value 256 false

def validPrompt (value : Bytes) : Bool := validUtf8Text value 8192 true

/-- `valid_online_settings` (SettingsStore.cpp:177). The name checks are about
values outside the enumerations, which the types exclude. -/
def validOnlineSettings (s : OnlineSettings) : Bool :=
  validHttpsEndpoint s.ai.endpoint && validModel s.ai.model && validPrompt s.ai.prompt &&
    1 ≤ s.ai.candidateLimit && s.ai.candidateLimit ≤ 10 &&
    validTranslationLanguage s.translationTargetLanguage &&
    validHttpsEndpoint s.translationEndpoint &&
    100 ≤ s.connectTimeout && s.connectTimeout ≤ 10000 &&
    500 ≤ s.totalTimeout && s.totalTimeout ≤ 30000 &&
    tokenAllowed s.ai.token && tokenAllowed s.translationToken

/-- `valid_voice_settings` (SettingsStore.cpp:198). -/
def validVoiceSettings (s : VoiceInputConfig) : Bool :=
  validVoiceText 64 s.provider && validHttpsEndpoint s.endpoint &&
    validVoiceText 256 s.model && validVoiceText 32 s.language &&
    (!s.enabled || !s.endpoint.isEmpty) && validHttpsEndpoint s.polishEndpoint &&
    validVoiceText 256 s.polishModel && validPolishPrompt s.polishPrompt &&
    (!s.polishEnabled || !s.polishEndpoint.isEmpty) && tokenAllowed s.token

/-- `valid_input_settings` (SettingsStore.cpp:312). The schema check is the
engine's, `Session::is_supported_helpcode_schema`. -/
def validInputSettings (supportedSchema : Bytes → Bool) (s : InputSettings) : Bool :=
  3 ≤ s.pageSize && s.pageSize ≤ 9 &&
    supportedSchema s.quanpinHelpcodeSchema && supportedSchema s.shuangpinHelpcodeSchema &&
    1 ≤ s.frequencyTriggerCount && s.frequencyTriggerCount ≤ 10 &&
    1 ≤ s.frequencyLinearStep && s.frequencyLinearStep ≤ 10 &&
    1 ≤ s.mixedEnglishMinimumPrefix && s.mixedEnglishMinimumPrefix ≤ 8 &&
    validOnlineSettings s.online && validVoiceSettings s.voice

/-- The conditions of `validOnlineSettings`. -/
def onlineChecks : List (InputSettings → Bool) :=
  [fun s => validHttpsEndpoint s.online.ai.endpoint, fun s => validModel s.online.ai.model,
    fun s => validPrompt s.online.ai.prompt, fun s => 1 ≤ s.online.ai.candidateLimit,
    fun s => s.online.ai.candidateLimit ≤ 10,
    fun s => validTranslationLanguage s.online.translationTargetLanguage,
    fun s => validHttpsEndpoint s.online.translationEndpoint,
    fun s => 100 ≤ s.online.connectTimeout, fun s => s.online.connectTimeout ≤ 10000,
    fun s => 500 ≤ s.online.totalTimeout, fun s => s.online.totalTimeout ≤ 30000,
    fun s => tokenAllowed s.online.ai.token, fun s => tokenAllowed s.online.translationToken]

/-- The conditions of `validVoiceSettings`. -/
def voiceChecks : List (InputSettings → Bool) :=
  [fun s => validVoiceText 64 s.voice.provider, fun s => validHttpsEndpoint s.voice.endpoint,
    fun s => validVoiceText 256 s.voice.model, fun s => validVoiceText 32 s.voice.language,
    fun s => !s.voice.enabled || !s.voice.endpoint.isEmpty,
    fun s => validHttpsEndpoint s.voice.polishEndpoint,
    fun s => validVoiceText 256 s.voice.polishModel,
    fun s => validPolishPrompt s.voice.polishPrompt,
    fun s => !s.voice.polishEnabled || !s.voice.polishEndpoint.isEmpty,
    fun s => tokenAllowed s.voice.token]

/-- The conditions on the local settings. -/
def localChecks (supportedSchema : Bytes → Bool) : List (InputSettings → Bool) :=
  [fun s => 3 ≤ s.pageSize, fun s => s.pageSize ≤ 9,
    fun s => supportedSchema s.quanpinHelpcodeSchema,
    fun s => supportedSchema s.shuangpinHelpcodeSchema,
    fun s => 1 ≤ s.frequencyTriggerCount, fun s => s.frequencyTriggerCount ≤ 10,
    fun s => 1 ≤ s.frequencyLinearStep, fun s => s.frequencyLinearStep ≤ 10,
    fun s => 1 ≤ s.mixedEnglishMinimumPrefix, fun s => s.mixedEnglishMinimumPrefix ≤ 8]

/-- The conditions `validInputSettings` is made of, in its order. -/
def settingsChecks (supportedSchema : Bytes → Bool) : List (InputSettings → Bool) :=
  localChecks supportedSchema ++ (onlineChecks ++ voiceChecks)

theorem validInputSettings_eq_all (supportedSchema : Bytes → Bool) (s : InputSettings) :
    validInputSettings supportedSchema s =
      (settingsChecks supportedSchema).all fun check => check s := by
  simp only [validInputSettings, validOnlineSettings, validVoiceSettings, settingsChecks,
    localChecks, onlineChecks, voiceChecks, List.all_append, List.all_cons, List.all_nil,
    Bool.and_true, Bool.and_assoc]

/-- A change of settings that fails no check which reads what it changed: every
check passes, or gives what it gave before. -/
def ValidChange (supportedSchema : Bytes → Bool) (s t : InputSettings) : Prop :=
  ∀ check ∈ settingsChecks supportedSchema, check t = true ∨ check t = check s

theorem ValidChange.valid {supportedSchema : Bytes → Bool} {s t : InputSettings}
    (h : ValidChange supportedSchema s t) (hs : validInputSettings supportedSchema s = true) :
    validInputSettings supportedSchema t = true := by
  rw [validInputSettings_eq_all, List.all_eq_true] at hs ⊢
  intro check hcheck
  rcases h check hcheck with hpass | hsame
  · exact hpass
  · rw [hsame]
    exact hs check hcheck

/-! ## What the check says -/

/-- A text a key file can hold: UTF-8 without NUL. -/
def PlainText (value : Bytes) : Prop := ValidUtf8 value ∧ 0 ∉ value

theorem validUtf8Text_iff {value : Bytes} {maximum : Nat} {newlines : Bool} :
    validUtf8Text value maximum newlines = true ↔ value.length ≤ maximum ∧ PlainText value ∧
      ∀ c ∈ value, isControl c = true → newlines = true ∧ (c = newline ∨ c = 13 ∨ c = 9) := by
  have hcontrol : (!value.any fun c =>
      if newlines && (c == newline || c == 13 || c == 9) then false else isControl c) = true ↔
      ∀ c ∈ value, isControl c = true → newlines = true ∧ (c = newline ∨ c = 13 ∨ c = 9) := by
    rw [Bool.not_eq_true', List.any_eq_false]
    refine forall₂_congr fun c _ => ?_
    cases newlines with
    | false => simp
    | true => by_cases hc : c = newline ∨ c = 13 ∨ c = 9 <;> simp [hc, or_assoc]
  unfold validUtf8Text
  by_cases hbad :
    (decide (value.length > maximum) || value.contains 0 || !utf8Validate value) = true
  · rw [if_pos hbad]
    simp only [gt_iff_lt, Bool.or_eq_true, decide_eq_true_eq, List.contains_iff_mem,
      Bool.not_eq_true', Bool.eq_false_iff, ne_eq, utf8Validate_iff] at hbad
    refine ⟨fun h => absurd h Bool.false_ne_true, fun ⟨hlen, ⟨hutf8, hnul⟩, _⟩ => ?_⟩
    rcases hbad with (hbad | hbad) | hbad
    · exact absurd hlen (Nat.not_le.mpr hbad)
    · exact absurd hbad hnul
    · exact absurd hutf8 hbad
  · rw [if_neg hbad, hcontrol]
    simp only [gt_iff_lt, Bool.or_eq_true, decide_eq_true_eq, List.contains_iff_mem,
      Bool.not_eq_true', Bool.eq_false_iff, ne_eq, utf8Validate_iff, not_or, not_not,
      Nat.not_lt] at hbad
    exact ⟨fun h => ⟨hbad.1.1, ⟨hbad.2, hbad.1.2⟩, h⟩, fun h => h.2.2⟩

theorem plainText_of_validUtf8Text {value : Bytes} {maximum : Nat} {newlines : Bool}
    (h : validUtf8Text value maximum newlines = true) : PlainText value :=
  (validUtf8Text_iff.mp h).2.1

theorem plainText_of_validHttpsEndpoint {value : Bytes} (h : validHttpsEndpoint value = true) :
    PlainText value := by
  rcases value with _ | ⟨c, value⟩
  · exact ⟨⟨[], rfl⟩, List.not_mem_nil⟩
  · simp only [validHttpsEndpoint, List.isEmpty_cons, Bool.false_or, Bool.and_eq_true] at h
    exact plainText_of_validUtf8Text h.2

/-- An ASCII text without NUL. -/
theorem plainText_of_ascii {value : Bytes} (h : value.all fun c => 0 < c && c < 128) :
    PlainText value := by
  rw [List.all_eq_true] at h
  have hrange : ∀ c ∈ value, 0 < c ∧ c < 128 := fun c hc => by
    simpa only [Bool.and_eq_true, decide_eq_true_eq] using h c hc
  refine ⟨validUtf8_of_ascii fun c hc => (hrange c hc).2, fun h0 => ?_⟩
  exact absurd (hrange 0 h0).1 (by decide)

/-- Printable ASCII passes every text check. -/
theorem validUtf8Text_of_printable {value : Bytes} {maximum : Nat} {newlines : Bool}
    (hlen : value.length ≤ maximum) (h : value.all fun c => 32 ≤ c && c < 127) :
    validUtf8Text value maximum newlines = true := by
  rw [List.all_eq_true] at h
  have hrange : ∀ c ∈ value, 32 ≤ c ∧ c < 127 := fun c hc => by
    simpa only [Bool.and_eq_true, decide_eq_true_eq] using h c hc
  rw [validUtf8Text_iff]
  refine ⟨hlen, plainText_of_ascii (List.all_eq_true.mpr fun c hc => ?_), fun c hc hcontrol => ?_⟩
  · have := hrange c hc
    simp only [Bool.and_eq_true, decide_eq_true_eq]
    exact ⟨UInt8.lt_of_lt_of_le (by decide) this.1, UInt8.lt_trans this.2 (by decide)⟩
  · have := hrange c hc
    simp only [isControl, Bool.or_eq_true, decide_eq_true_eq, beq_iff_eq] at hcontrol
    rcases hcontrol with hcontrol | rfl
    · exact absurd this.1 (UInt8.not_le.mpr hcontrol)
    · exact absurd this.2 (UInt8.lt_irrefl _)

theorem plainText_of_validTranslationLanguage {value : Bytes}
    (h : validTranslationLanguage value = true) : PlainText value := by
  refine plainText_of_ascii ?_
  rw [validTranslationLanguage, List.contains_iff_mem] at h
  revert value
  decide

/-- The conditions of `validInputSettings` on one field each. -/
structure InputSettings.ValidFields (supportedSchema : Bytes → Bool) (s : InputSettings) :
    Prop where
  pageSize : 3 ≤ s.pageSize ∧ s.pageSize ≤ 9
  quanpinHelpcodeSchema : supportedSchema s.quanpinHelpcodeSchema = true
  shuangpinHelpcodeSchema : supportedSchema s.shuangpinHelpcodeSchema = true
  frequencyTriggerCount : 1 ≤ s.frequencyTriggerCount ∧ s.frequencyTriggerCount ≤ 10
  frequencyLinearStep : 1 ≤ s.frequencyLinearStep ∧ s.frequencyLinearStep ≤ 10
  mixedEnglishMinimumPrefix :
    1 ≤ s.mixedEnglishMinimumPrefix ∧ s.mixedEnglishMinimumPrefix ≤ 8
  aiEndpoint : validHttpsEndpoint s.online.ai.endpoint = true
  aiModel : validModel s.online.ai.model = true
  aiPrompt : validPrompt s.online.ai.prompt = true
  aiCandidateLimit : 1 ≤ s.online.ai.candidateLimit ∧ s.online.ai.candidateLimit ≤ 10
  translationTargetLanguage :
    validTranslationLanguage s.online.translationTargetLanguage = true
  translationEndpoint : validHttpsEndpoint s.online.translationEndpoint = true
  connectTimeout : 100 ≤ s.online.connectTimeout ∧ s.online.connectTimeout ≤ 10000
  totalTimeout : 500 ≤ s.online.totalTimeout ∧ s.online.totalTimeout ≤ 30000
  aiToken : tokenAllowed s.online.ai.token = true
  translationToken : tokenAllowed s.online.translationToken = true
  voiceProvider : validVoiceText 64 s.voice.provider = true
  voiceEndpoint : validHttpsEndpoint s.voice.endpoint = true
  voiceModel : validVoiceText 256 s.voice.model = true
  voiceLanguage : validVoiceText 32 s.voice.language = true
  polishEndpoint : validHttpsEndpoint s.voice.polishEndpoint = true
  polishModel : validVoiceText 256 s.voice.polishModel = true
  polishPrompt : validPolishPrompt s.voice.polishPrompt = true
  voiceToken : tokenAllowed s.voice.token = true

/-- `validInputSettings`: every field is valid, and an enabled service has an
endpoint. -/
structure InputSettings.Valid (supportedSchema : Bytes → Bool) (s : InputSettings) : Prop
    extends s.ValidFields supportedSchema where
  voiceEnabled : s.voice.enabled = true → s.voice.endpoint ≠ []
  polishEnabled : s.voice.polishEnabled = true → s.voice.polishEndpoint ≠ []

/-- An enabled service has an endpoint. -/
theorem enabled_endpoint_iff {enabled : Bool} {endpoint : Bytes} :
    (!enabled || !endpoint.isEmpty) = true ↔ (enabled = true → endpoint ≠ []) := by
  cases enabled <;> simp

theorem validInputSettings_iff {supportedSchema : Bytes → Bool} {s : InputSettings} :
    validInputSettings supportedSchema s = true ↔ s.Valid supportedSchema := by
  simp only [validInputSettings, validOnlineSettings, validVoiceSettings, Bool.and_eq_true,
    decide_eq_true_eq, enabled_endpoint_iff, and_assoc]
  constructor
  · rintro ⟨hpage, hpage', hquanpin, hshuangpin, htrigger, htrigger', hstep, hstep', hlength,
      hlength', hendpoint, hmodel, hprompt, hlimit, hlimit', hlanguage, htranslation, hconnect,
      hconnect', htotal, htotal', htoken, htranslationToken, hvoice⟩
    obtain ⟨hprovider, hvoiceEndpoint, hvoiceModel, hvoiceLanguage, henabled, hpolishEndpoint,
      hpolishModel, hpolishPrompt, hpolishEnabled, hvoiceToken⟩ := hvoice
    exact ⟨⟨⟨hpage, hpage'⟩, hquanpin, hshuangpin, ⟨htrigger, htrigger'⟩, ⟨hstep, hstep'⟩,
      ⟨hlength, hlength'⟩, hendpoint, hmodel, hprompt, ⟨hlimit, hlimit'⟩, hlanguage,
      htranslation, ⟨hconnect, hconnect'⟩, ⟨htotal, htotal'⟩, htoken, htranslationToken,
      hprovider, hvoiceEndpoint, hvoiceModel, hvoiceLanguage, hpolishEndpoint,
      hpolishModel, hpolishPrompt, hvoiceToken⟩, henabled, hpolishEnabled⟩
  · intro h
    exact ⟨h.pageSize.1, h.pageSize.2, h.quanpinHelpcodeSchema, h.shuangpinHelpcodeSchema,
      h.frequencyTriggerCount.1, h.frequencyTriggerCount.2, h.frequencyLinearStep.1,
      h.frequencyLinearStep.2, h.mixedEnglishMinimumPrefix.1, h.mixedEnglishMinimumPrefix.2,
      h.aiEndpoint, h.aiModel, h.aiPrompt, h.aiCandidateLimit.1, h.aiCandidateLimit.2,
      h.translationTargetLanguage, h.translationEndpoint, h.connectTimeout.1,
      h.connectTimeout.2, h.totalTimeout.1, h.totalTimeout.2, h.aiToken, h.translationToken,
      h.voiceProvider, h.voiceEndpoint, h.voiceModel, h.voiceLanguage, h.voiceEnabled,
      h.polishEndpoint, h.polishModel, h.polishPrompt, h.polishEnabled, h.voiceToken⟩

/-! ## Credentials and facts about this run -/

/-- The settings a file can keep: without the credentials and what this run
found out about them, and with the voice timeouts at their defaults, which the
online timeouts stand in for. -/
def InputSettings.persisted (s : InputSettings) : InputSettings :=
  { s with
    online := { s.online with
      ai := { s.online.ai with token := [] }
      translationToken := []
      aiCredentialAvailable := true
      translationCredentialAvailable := true
      aiCredentialCleared := false
      translationCredentialCleared := false }
    voice := { s.voice with token := [], connectTimeout := 2500, totalTimeout := 8000 }
    voiceCredentialAvailable := true
    voiceCredentialCleared := false }

theorem validHttpsEndpoint_of_printable {value : Bytes} (hlen : value.length ≤ 2048)
    (hhttps : (ascii "https://").isPrefixOf value = true)
    (h : value.all fun c => 32 ≤ c && c < 127) : validHttpsEndpoint value = true := by
  simp only [validHttpsEndpoint, Bool.or_eq_true, Bool.and_eq_true, decide_eq_true_eq]
  exact .inr ⟨⟨hlen, hhttps⟩, validUtf8Text_of_printable hlen h⟩

/-- The default polish prompt is a text without control characters. -/
theorem validPolishPrompt_default :
    validPolishPrompt ({} : VoiceInputConfig).polishPrompt = true := by
  have hutf8 : ValidUtf8 ({} : VoiceInputConfig).polishPrompt :=
    ⟨"整理语音转写，修正明显错别字并补充标点，".toList ++ "只输出整理后的文本。".toList,
      List.flatMap_append.symm⟩
  have hbytes : ({} : VoiceInputConfig).polishPrompt.all (fun c => 127 < c) = true := by
    decide +kernel
  have hlen : ({} : VoiceInputConfig).polishPrompt.length ≤ 8192 := by decide +kernel
  have hne : ({} : VoiceInputConfig).polishPrompt.isEmpty = false := by decide +kernel
  rw [List.all_eq_true] at hbytes
  have hlarge : ∀ c ∈ ({} : VoiceInputConfig).polishPrompt, 127 < c := fun c hc => by
    simpa only [decide_eq_true_eq] using hbytes c hc
  have hvalid : validUtf8Text ({} : VoiceInputConfig).polishPrompt 8192 true = true := by
    rw [validUtf8Text_iff]
    refine ⟨hlen, ⟨hutf8, fun h0 => ?_⟩, fun c hc hcontrol => ?_⟩
    · exact absurd (hlarge 0 h0) (by decide)
    · simp only [isControl, Bool.or_eq_true, decide_eq_true_eq, beq_iff_eq] at hcontrol
      rcases hcontrol with hcontrol | rfl
      · exact absurd (UInt8.lt_trans (hlarge c hc) hcontrol) (by decide)
      · exact absurd (hlarge 127 hc) (UInt8.lt_irrefl _)
  simp [validPolishPrompt, hvalid, hne]

/-- **Every default passes its own check.** -/
theorem validInputSettings_default {supportedSchema : Bytes → Bool}
    (hlantian : supportedSchema (ascii "lantian") = true) :
    ({} : InputSettings).Valid supportedSchema where
  pageSize := by decide
  quanpinHelpcodeSchema := hlantian
  shuangpinHelpcodeSchema := hlantian
  frequencyTriggerCount := by decide
  frequencyLinearStep := by decide
  mixedEnglishMinimumPrefix := by decide
  aiEndpoint := rfl
  aiModel := validUtf8Text_of_printable (by decide) rfl
  aiPrompt := validUtf8Text_of_printable (by decide) rfl
  aiCandidateLimit := by decide
  translationTargetLanguage := by decide
  translationEndpoint := rfl
  connectTimeout := by decide
  totalTimeout := by decide
  aiToken := rfl
  translationToken := rfl
  voiceProvider :=
    Bool.and_eq_true_iff.mpr ⟨validUtf8Text_of_printable (by decide) (by decide), rfl⟩
  voiceEndpoint := validHttpsEndpoint_of_printable (by decide) (by decide) (by decide)
  voiceModel := Bool.and_eq_true_iff.mpr ⟨validUtf8Text_of_printable (by decide) (by decide), rfl⟩
  voiceLanguage :=
    Bool.and_eq_true_iff.mpr ⟨validUtf8Text_of_printable (by decide) (by decide), rfl⟩
  voiceEnabled := by decide
  polishEndpoint := validHttpsEndpoint_of_printable (by decide) (by decide) (by decide)
  polishModel :=
    Bool.and_eq_true_iff.mpr ⟨validUtf8Text_of_printable (by decide) (by decide), rfl⟩
  polishPrompt := validPolishPrompt_default
  polishEnabled := by decide
  voiceToken := rfl

end MsimeLinux
