import MsimeLinux.Lib.Ini
import MsimeLinux.Lib.Run
import MsimeLinux.Settings.InputSettings

/-!
# The settings form

`SettingsUiModel` (SettingsUiModel.cpp) shows the settings as rows of text and takes
one row at a time back. `RowId` lists the rows; `RowId.row` is what a row shows and
`RowId.set` what becomes of a value entered in it, each kind of row by one rule with
the row's own bounds, choices and field.

- `settingsSet`, `settingsEdit`: an edit, by the id of its row.
- `validText_eq`, `validEndpointText_eq`: the form checks texts as the store does.
- `RowId.set_validFields`, `RowId.set_servicesHaveEndpoints`: what an accepted edit
  keeps, and `edits_validFields`, `edits_servicesHaveEndpoints` of any number of them.
-/

namespace MsimeLinux

open Lib

/-! ## Rows -/

/-- `SettingsControl` (SettingsUiModel.h:10). -/
inductive SettingsControl where
  | boolean
  | choice
  | integer
  | text
  | secret
  deriving DecidableEq, Repr

/-- `SettingsUiRow` (SettingsUiModel.h:51). -/
structure SettingsUiRow where
  id : Bytes
  label : String
  value : Bytes
  control : SettingsControl
  choices : List Bytes := []
  visible : Bool := true

/-- The rows, in the order of `rebuild_rows`. -/
inductive RowId where
  | mode | defaultMode | scheme | pageSize | candidateWindowLayout | punctuation
  | punctuationLock | width | preeditStyle | commaPeriodPaging | wordToCharacter
  | bracketPaging | smartPunctuation | smartPunctuationRepeatToChinese | pairedPunctuation
  | quanpinHelpcode | quanpinHelpcodeSchema | shuangpinHelpcode | shuangpinHelpcodeSchema
  | showQuanpinHelpcode | showShuangpinHelpcode | frequencyAdjustment | frequencyTriggerCount
  | frequencyLinearStep | unicodeMode | superJianpinMode | temporaryEnglishMode
  | temporaryJapaneseMode | switchLanguageShift | switchLanguageCtrl
  | switchLanguageCtrlAltSpace | mixedEnglishCandidates | mixedEnglishMinimumPrefix
  | mixedEmojiCandidates | mixedKaomojiCandidates | clipboardHistory | quickPhraseMode
  | dateTimeMode | emojiMode | kaomojiMode | floatingToolbar | voiceEnabled | voiceProvider
  | voiceCredentialClear | voiceCredential | voiceEndpoint | voiceModel | voiceLanguage
  | voicePolishEnabled | voicePolishEndpoint | voicePolishModel | voicePolishPrompt
  | cloudEnabled | connectTimeoutMs | totalTimeoutMs | aiEnabled | aiProvider
  | aiCredentialClear | aiCredential | aiEndpoint | aiModel | aiPrompt | aiCandidateLimit
  | translationEnabled | translationProvider | translationCredentialClear
  | translationCredential | translationTargetLanguage | translationEndpoint
  deriving DecidableEq, Repr

namespace RowId

/-- All rows, in order. -/
def all : List RowId :=
  [mode, defaultMode, scheme, pageSize, candidateWindowLayout, punctuation, punctuationLock,
    width, preeditStyle, commaPeriodPaging, wordToCharacter, bracketPaging, smartPunctuation,
    smartPunctuationRepeatToChinese, pairedPunctuation, quanpinHelpcode, quanpinHelpcodeSchema,
    shuangpinHelpcode, shuangpinHelpcodeSchema, showQuanpinHelpcode, showShuangpinHelpcode,
    frequencyAdjustment, frequencyTriggerCount, frequencyLinearStep, unicodeMode,
    superJianpinMode, temporaryEnglishMode, temporaryJapaneseMode, switchLanguageShift,
    switchLanguageCtrl, switchLanguageCtrlAltSpace, mixedEnglishCandidates,
    mixedEnglishMinimumPrefix, mixedEmojiCandidates, mixedKaomojiCandidates, clipboardHistory,
    quickPhraseMode, dateTimeMode, emojiMode, kaomojiMode, floatingToolbar, voiceEnabled,
    voiceProvider, voiceCredentialClear, voiceCredential, voiceEndpoint, voiceModel,
    voiceLanguage, voicePolishEnabled, voicePolishEndpoint, voicePolishModel,
    voicePolishPrompt, cloudEnabled, connectTimeoutMs, totalTimeoutMs, aiEnabled, aiProvider,
    aiCredentialClear, aiCredential, aiEndpoint, aiModel, aiPrompt, aiCandidateLimit,
    translationEnabled, translationProvider, translationCredentialClear,
    translationCredential, translationTargetLanguage, translationEndpoint]

/-- The id of a row. -/
def id : RowId → Bytes
  | mode => ascii "mode"
  | defaultMode => ascii "default-mode"
  | scheme => ascii "scheme"
  | pageSize => ascii "page-size"
  | candidateWindowLayout => ascii "candidate-window-layout"
  | punctuation => ascii "punctuation"
  | punctuationLock => ascii "punctuation-lock"
  | width => ascii "width"
  | preeditStyle => ascii "preedit-style"
  | commaPeriodPaging => ascii "comma-period-paging"
  | wordToCharacter => ascii "word-to-character"
  | bracketPaging => ascii "bracket-paging"
  | smartPunctuation => ascii "smart-punctuation"
  | smartPunctuationRepeatToChinese => ascii "smart-punctuation-repeat-to-chinese"
  | pairedPunctuation => ascii "paired-punctuation"
  | quanpinHelpcode => ascii "quanpin-helpcode"
  | quanpinHelpcodeSchema => ascii "quanpin-helpcode-schema"
  | shuangpinHelpcode => ascii "shuangpin-helpcode"
  | shuangpinHelpcodeSchema => ascii "shuangpin-helpcode-schema"
  | showQuanpinHelpcode => ascii "show-quanpin-helpcode"
  | showShuangpinHelpcode => ascii "show-shuangpin-helpcode"
  | frequencyAdjustment => ascii "frequency-adjustment"
  | frequencyTriggerCount => ascii "frequency-trigger-count"
  | frequencyLinearStep => ascii "frequency-linear-step"
  | unicodeMode => ascii "unicode-mode"
  | superJianpinMode => ascii "super-jianpin-mode"
  | temporaryEnglishMode => ascii "temporary-english-mode"
  | temporaryJapaneseMode => ascii "temporary-japanese-mode"
  | switchLanguageShift => ascii "switch-language-shift"
  | switchLanguageCtrl => ascii "switch-language-ctrl"
  | switchLanguageCtrlAltSpace => ascii "switch-language-ctrl-alt-space"
  | mixedEnglishCandidates => ascii "mixed-english-candidates"
  | mixedEnglishMinimumPrefix => ascii "mixed-english-minimum-prefix"
  | mixedEmojiCandidates => ascii "mixed-emoji-candidates"
  | mixedKaomojiCandidates => ascii "mixed-kaomoji-candidates"
  | clipboardHistory => ascii "clipboard-history"
  | quickPhraseMode => ascii "quick-phrase-mode"
  | dateTimeMode => ascii "date-time-mode"
  | emojiMode => ascii "emoji-mode"
  | kaomojiMode => ascii "kaomoji-mode"
  | floatingToolbar => ascii "floating-toolbar"
  | voiceEnabled => ascii "voice-enabled"
  | voiceProvider => ascii "voice-provider"
  | voiceCredentialClear => ascii "voice-credential-clear"
  | voiceCredential => ascii "voice-credential"
  | voiceEndpoint => ascii "voice-endpoint"
  | voiceModel => ascii "voice-model"
  | voiceLanguage => ascii "voice-language"
  | voicePolishEnabled => ascii "voice-polish-enabled"
  | voicePolishEndpoint => ascii "voice-polish-endpoint"
  | voicePolishModel => ascii "voice-polish-model"
  | voicePolishPrompt => ascii "voice-polish-prompt"
  | cloudEnabled => ascii "cloud-enabled"
  | connectTimeoutMs => ascii "connect-timeout-ms"
  | totalTimeoutMs => ascii "total-timeout-ms"
  | aiEnabled => ascii "ai-enabled"
  | aiProvider => ascii "ai-provider"
  | aiCredentialClear => ascii "ai-credential-clear"
  | aiCredential => ascii "ai-credential"
  | aiEndpoint => ascii "ai-endpoint"
  | aiModel => ascii "ai-model"
  | aiPrompt => ascii "ai-prompt"
  | aiCandidateLimit => ascii "ai-candidate-limit"
  | translationEnabled => ascii "translation-enabled"
  | translationProvider => ascii "translation-provider"
  | translationCredentialClear => ascii "translation-credential-clear"
  | translationCredential => ascii "translation-credential"
  | translationTargetLanguage => ascii "translation-target-language"
  | translationEndpoint => ascii "translation-endpoint"

/-- The row of an id. -/
def ofId (id : Bytes) : Option RowId := all.find? fun r => r.id == id

theorem mem_all (r : RowId) : r ∈ all := by
  cases r <;> decide

theorem ofId_id (r : RowId) : ofId r.id = some r := by
  have hall : (all.all fun r => ofId r.id == some r) = true := by decide +kernel
  exact beq_iff_eq.mp (List.all_eq_true.mp hall r r.mem_all)

end RowId

/-! ## What the rows show -/

/-- `bool_value` (SettingsUiModel.cpp:24). -/
def boolValue (value : Bool) : Bytes := if value then ascii "true" else ascii "false"

namespace RowId

/-- `credential_value` (SettingsUiModel.cpp:191): that there is a credential, not
which. -/
def credentialValue (token : Bytes) : Bytes :=
  if token.isEmpty then [] else ascii "stored"

/-- A flag. -/
def boolRow (r : RowId) (label : String) (value : Bool) (visible : Bool := true) :
    SettingsUiRow where
  id := r.id
  label := label
  value := boolValue value
  control := .boolean
  visible := visible

/-- A choice among names. -/
def choiceRow (r : RowId) (label : String) (value : Bytes) (choices : List String) :
    SettingsUiRow where
  id := r.id
  label := label
  value := value
  control := .choice
  choices := choices.map ascii

/-- A number. -/
def integerRow (r : RowId) (label : String) (value : Int) : SettingsUiRow where
  id := r.id
  label := label
  value := encodeInt value
  control := .integer

/-- A text. -/
def textRow (r : RowId) (label : String) (value : Bytes) : SettingsUiRow where
  id := r.id
  label := label
  value := value
  control := .text

/-- A credential. -/
def secretRow (r : RowId) (label : String) (token : Bytes) (visible : Bool) : SettingsUiRow where
  id := r.id
  label := label
  value := credentialValue token
  control := .secret
  visible := visible

/-- The helpcode schemas on offer. -/
def schemas : List String := ["lantian", "ziranma", "shouyou2_0", "shouyouplus", "xiaohe"]

/-- The voice providers on offer. -/
def voiceProviders : List String := ["openai", "siliconflow", "groq", "custom"]

/-- The translation languages on offer. -/
def languages : List String := ["en", "fr", "ja", "es", "ru", "de", "ko"]

/-- The modes of frequency adjustment on offer. -/
def frequencyModes : List String := ["disabled", "pin", "halve", "linear", "promote"]

/-- What a row shows (`rebuild_rows`, SettingsUiModel.cpp:310). -/
def row (s : InputSettings) : RowId → SettingsUiRow
  | mode => mode.choiceRow "Input mode" s.mode.name ["ime", "direct"]
  | defaultMode => defaultMode.choiceRow "Mode on activation" s.defaultMode.name ["ime", "direct"]
  | scheme =>
    scheme.choiceRow "Input scheme" s.scheme.name ["quanpin", "shuangpin", "wubi", "japanese"]
  | pageSize => pageSize.integerRow "Candidates per page" s.pageSize
  | candidateWindowLayout => candidateWindowLayout.choiceRow "Candidate window layout"
      s.candidateWindowLayout.name ["vertical", "horizontal"]
  | punctuation =>
    punctuation.choiceRow "Punctuation" s.punctuationMode.name ["chinese", "english"]
  | punctuationLock => punctuationLock.choiceRow "Punctuation lock" s.punctuationLock.name
      ["follow", "chinese", "english"]
  | width => width.choiceRow "Character width"
      (match s.characterWidth with
        | .full => ascii "full"
        | .half => ascii "half") ["half", "full"]
  | preeditStyle =>
    preeditStyle.choiceRow "Preedit style" s.preeditStyle.name ["raw", "pinyin", "hidden"]
  | commaPeriodPaging => commaPeriodPaging.boolRow "Comma/period paging" s.commaPeriodPaging
  | wordToCharacter => wordToCharacter.boolRow "Word to character" s.wordToCharacter
  | bracketPaging => bracketPaging.boolRow "Bracket paging" s.bracketPaging
  | smartPunctuation => smartPunctuation.boolRow "Smart punctuation" s.smartPunctuation
  | smartPunctuationRepeatToChinese => smartPunctuationRepeatToChinese.boolRow
      "Repeat punctuation to Chinese" s.smartPunctuationRepeatToChinese
  | pairedPunctuation => pairedPunctuation.boolRow "Paired punctuation" s.pairedPunctuation
  | quanpinHelpcode => quanpinHelpcode.boolRow "Quanpin helpcode" s.quanpinHelpcodeEnabled
  | quanpinHelpcodeSchema => quanpinHelpcodeSchema.choiceRow "Quanpin helpcode schema"
      s.quanpinHelpcodeSchema schemas
  | shuangpinHelpcode =>
    shuangpinHelpcode.boolRow "Shuangpin helpcode" s.shuangpinHelpcodeEnabled
  | shuangpinHelpcodeSchema => shuangpinHelpcodeSchema.choiceRow "Shuangpin helpcode schema"
      s.shuangpinHelpcodeSchema schemas
  | showQuanpinHelpcode => showQuanpinHelpcode.boolRow "Show Quanpin helpcode in candidates"
      s.showQuanpinHelpcodeInCandidates
  | showShuangpinHelpcode => showShuangpinHelpcode.boolRow
      "Show Shuangpin helpcode in candidates" s.showShuangpinHelpcodeInCandidates
  | frequencyAdjustment => frequencyAdjustment.choiceRow "Frequency adjustment"
      s.frequencyAdjustmentMode.name frequencyModes
  | frequencyTriggerCount =>
    frequencyTriggerCount.integerRow "Frequency trigger count" s.frequencyTriggerCount
  | frequencyLinearStep =>
    frequencyLinearStep.integerRow "Frequency linear step" s.frequencyLinearStep
  | unicodeMode => unicodeMode.boolRow "Unicode mode" s.unicodeModeEnabled
  | superJianpinMode => superJianpinMode.boolRow "Super jianpin mode" s.superJianpinModeEnabled
  | temporaryEnglishMode =>
    temporaryEnglishMode.boolRow "Temporary English mode" s.temporaryEnglishModeEnabled
  | temporaryJapaneseMode =>
    temporaryJapaneseMode.boolRow "Temporary Japanese mode" s.temporaryJapaneseModeEnabled
  | switchLanguageShift =>
    switchLanguageShift.boolRow "Switch language with Shift" s.switchLanguageShift
  | switchLanguageCtrl =>
    switchLanguageCtrl.boolRow "Switch language with Control" s.switchLanguageCtrl
  | switchLanguageCtrlAltSpace => switchLanguageCtrlAltSpace.boolRow
      "Switch language with Control+Alt+Space" s.switchLanguageCtrlAltSpace
  | mixedEnglishCandidates =>
    mixedEnglishCandidates.boolRow "Mixed English candidates" s.mixedEnglishCandidatesEnabled
  | mixedEnglishMinimumPrefix =>
    mixedEnglishMinimumPrefix.integerRow "English minimum prefix" s.mixedEnglishMinimumPrefix
  | mixedEmojiCandidates =>
    mixedEmojiCandidates.boolRow "Mixed Emoji candidates" s.mixedEmojiCandidatesEnabled
  | mixedKaomojiCandidates =>
    mixedKaomojiCandidates.boolRow "Mixed kaomoji candidates" s.mixedKaomojiCandidatesEnabled
  | clipboardHistory => clipboardHistory.boolRow "Clipboard history" s.clipboardHistoryEnabled
  | quickPhraseMode =>
    quickPhraseMode.boolRow "Quick phrase mode (Shift+K)" s.quickPhraseModeEnabled
  | dateTimeMode => dateTimeMode.boolRow "Date and time mode (Shift+T)" s.dateTimeModeEnabled
  | emojiMode => emojiMode.boolRow "Emoji mode (Shift+E)" s.emojiModeEnabled
  | kaomojiMode => kaomojiMode.boolRow "Kaomoji mode (Shift+M)" s.kaomojiModeEnabled
  | floatingToolbar => floatingToolbar.boolRow "Floating toolbar" s.floatingToolbarEnabled
  | voiceEnabled => voiceEnabled.boolRow "Voice input" s.voice.enabled
  | voiceProvider => voiceProvider.choiceRow "Voice provider" s.voice.provider voiceProviders
  | voiceCredentialClear => voiceCredentialClear.boolRow "Forget the stored voice credential"
      s.voiceCredentialCleared s.voice.enabled
  | voiceCredential =>
    voiceCredential.secretRow "Voice credential" s.voice.token s.voice.enabled
  | voiceEndpoint => voiceEndpoint.textRow "Voice endpoint" s.voice.endpoint
  | voiceModel => voiceModel.textRow "Voice model" s.voice.model
  | voiceLanguage => voiceLanguage.textRow "Voice language" s.voice.language
  | voicePolishEnabled => voicePolishEnabled.boolRow "Voice polish" s.voice.polishEnabled
  | voicePolishEndpoint =>
    voicePolishEndpoint.textRow "Voice polish endpoint" s.voice.polishEndpoint
  | voicePolishModel => voicePolishModel.textRow "Voice polish model" s.voice.polishModel
  | voicePolishPrompt => voicePolishPrompt.textRow "Voice polish prompt" s.voice.polishPrompt
  | cloudEnabled => cloudEnabled.boolRow "Cloud candidates" s.online.cloudCandidatesEnabled
  | connectTimeoutMs =>
    connectTimeoutMs.integerRow "Connect timeout (ms)" s.online.connectTimeout
  | totalTimeoutMs => totalTimeoutMs.integerRow "Total timeout (ms)" s.online.totalTimeout
  | aiEnabled => aiEnabled.boolRow "AI suggestions" s.online.ai.enabled
  | aiProvider => aiProvider.choiceRow "AI provider" s.online.ai.provider.name
      ["deepseek", "openai", "siliconflow", "groq", "custom"]
  | aiCredentialClear => aiCredentialClear.boolRow "Forget the stored AI credential"
      s.online.aiCredentialCleared s.online.ai.enabled
  | aiCredential => aiCredential.secretRow "AI credential" s.online.ai.token s.online.ai.enabled
  | aiEndpoint => aiEndpoint.textRow "AI endpoint" s.online.ai.endpoint
  | aiModel => aiModel.textRow "AI model" s.online.ai.model
  | aiPrompt => aiPrompt.textRow "AI prompt" s.online.ai.prompt
  | aiCandidateLimit => aiCandidateLimit.integerRow "AI candidate limit" s.online.ai.candidateLimit
  | translationEnabled => translationEnabled.boolRow "Candidate translations"
      s.online.candidateTranslationsEnabled
  | translationProvider => translationProvider.choiceRow "Translation provider"
      s.online.translationProvider.name ["local", "deeplx"]
  | translationCredentialClear => translationCredentialClear.boolRow
      "Forget the stored translation credential" s.online.translationCredentialCleared
      (s.online.candidateTranslationsEnabled && s.online.translationProvider = .deepLX)
  | translationCredential => translationCredential.secretRow "Translation credential"
      s.online.translationToken
      (s.online.candidateTranslationsEnabled && s.online.translationProvider = .deepLX)
  | translationTargetLanguage => translationTargetLanguage.choiceRow
      "Translation target language" s.online.translationTargetLanguage languages
  | translationEndpoint =>
    translationEndpoint.textRow "Translation endpoint" s.online.translationEndpoint

end RowId

/-- `rebuild_rows`: the rows of the form. -/
def settingsRows (s : InputSettings) : List SettingsUiRow := RowId.all.map fun r => r.row s

/-! ## Edits -/

/-- Why an edit is refused. -/
inductive Refusal where
  | invalid
  | credential
  | empty
  | emptyWhileEnabled
  deriving DecidableEq, Repr

/-- The message of a refusal (SettingsUiModel.cpp:447, 755, 808). -/
def Refusal.message : Refusal → String
  | invalid => "Invalid value for setting."
  | credential => "This credential contains characters that cannot be sent in a request header."
  | empty => "This setting cannot be empty."
  | emptyWhileEnabled => "This setting cannot be empty while the feature is enabled."

/-- `parse_bool` (SettingsUiModel.cpp:29). -/
def parseBool (value : Bytes) : Option Bool :=
  if value = ascii "true" ∨ value = ascii "1" ∨ value = ascii "yes" then some true
  else if value = ascii "false" ∨ value = ascii "0" ∨ value = ascii "no" then some false
  else none

/-- `parse_integer` (SettingsUiModel.cpp:44). -/
def parseInteger (minimum maximum : Int) (value : Bytes) : Option Int :=
  match decodeInt value with
  | some n => if minimum ≤ n ∧ n ≤ maximum then some n else none
  | none => none

/-- `set_choice` (SettingsUiModel.cpp:209), for a value that is kept as it is. -/
def parseChoice (choices : List String) (value : Bytes) : Option Bytes :=
  if value ∈ choices.map ascii then some value else none

/-- The place of a choice, as `set_choice` (SettingsUiModel.cpp:209) returns it. -/
def choiceIndex (choices : List String) (value : Bytes) : Option Nat :=
  (choices.map ascii).findIdx? (· == value)

/-- How a number is cast to the engine's `FrequencyAdjustmentMode`, whose declaration is not
among the sources. -/
class FrequencyEnum where
  ofIndex : Nat → FrequencyAdjustmentMode

/-- The engine declares its modes in the order the form offers them in. -/
def FrequencyEnum.Ordered [FrequencyEnum] : Prop :=
  (List.range 5).map FrequencyEnum.ofIndex = [.disabled, .pin, .halve, .linear, .promote]

/-- The modes in their order. -/
@[reducible] def orderedModes : FrequencyEnum where
  ofIndex index := [.disabled, .pin, .halve, .linear].getD index .promote

example : @FrequencyEnum.Ordered orderedModes := rfl

/-- `valid_text` (SettingsUiModel.cpp:61). -/
def validText (value : Bytes) (maximum : Nat) (allowNewlines : Bool) : Bool :=
  value.length ≤ maximum && utf8Validate value && value.all fun c =>
    !(c == 0 || c == 127 || (c < 32 && !(allowNewlines && (c == newline || c == 13 || c == 9))))

namespace RowId

/-- A value that has been parsed goes into the settings. -/
def choose {α : Type} (parsed : Option α) (put : α → InputSettings) :
    Except Refusal InputSettings :=
  match parsed with
  | some a => .ok (put a)
  | none => .error .invalid

/-- A credential entered in its row; an empty entry is an untouched one
(SettingsUiModel.cpp:745). -/
def enterCredential (s : InputSettings) (value : Bytes) (put : Bytes → InputSettings) :
    Except Refusal InputSettings :=
  if !tokenAllowed value then .error .credential
  else if value.isEmpty then .ok s
  else .ok (put value)

/-- A text entered in its row (SettingsUiModel.cpp:784). -/
def enterText (valid required requiredWhileEnabled : Bool) (value : Bytes)
    (put : Bytes → InputSettings) : Except Refusal InputSettings :=
  if !valid then .error .invalid
  else if value.isEmpty && (required || requiredWhileEnabled) then
    .error (if requiredWhileEnabled then .emptyWhileEnabled else .empty)
  else .ok (put value)

/-- The form's own check of an endpoint. -/
def validEndpointText (value : Bytes) : Bool :=
  validText value 2048 false && (value.isEmpty || (ascii "https://").isPrefixOf value)

/-- What becomes of the settings when a value is entered in a row (`set`,
SettingsUiModel.cpp:443). -/
def set [FrequencyEnum] (s : InputSettings) (value : Bytes) :
    RowId → Except Refusal InputSettings
  | mode => choose (parseName InputMode.name [.ime, .direct] value) fun v => { s with mode := v }
  | defaultMode => choose (parseName InputMode.name [.ime, .direct] value) fun v =>
      { s with defaultMode := v }
  | scheme => choose (parseName SchemeType.name [.quanpin, .shuangpin, .wubi, .japaneseRomaji]
      value) fun v => { s with scheme := v }
  | pageSize => choose (parseInteger 3 9 value) fun n => { s with pageSize := n.toNat }
  | candidateWindowLayout =>
    choose (parseName CandidateWindowLayout.name [.vertical, .horizontal] value) fun v =>
      { s with candidateWindowLayout := v }
  | punctuation => choose (parseName PunctuationMode.name [.chinese, .english] value) fun v =>
      { s with punctuationMode := v }
  | punctuationLock =>
    choose (parseName PunctuationLock.name [.follow, .chinese, .english] value) fun v =>
      { s with punctuationLock := v }
  | width => choose (if value = ascii "half" then some CharacterWidth.half
      else if value = ascii "full" then some CharacterWidth.full else none) fun v =>
      { s with characterWidth := v }
  | preeditStyle => choose (parseName PreeditStyle.name [.raw, .pinyin, .hidden] value) fun v =>
      { s with preeditStyle := v }
  | commaPeriodPaging => choose (parseBool value) fun v => { s with commaPeriodPaging := v }
  | wordToCharacter => choose (parseBool value) fun v => { s with wordToCharacter := v }
  | bracketPaging => choose (parseBool value) fun v => { s with bracketPaging := v }
  | smartPunctuation => choose (parseBool value) fun v => { s with smartPunctuation := v }
  | smartPunctuationRepeatToChinese => choose (parseBool value) fun v =>
      { s with smartPunctuationRepeatToChinese := v }
  | pairedPunctuation => choose (parseBool value) fun v => { s with pairedPunctuation := v }
  | quanpinHelpcode => choose (parseBool value) fun v => { s with quanpinHelpcodeEnabled := v }
  | quanpinHelpcodeSchema => choose (parseChoice schemas value) fun v =>
      { s with quanpinHelpcodeSchema := v }
  | shuangpinHelpcode => choose (parseBool value) fun v =>
      { s with shuangpinHelpcodeEnabled := v }
  | shuangpinHelpcodeSchema => choose (parseChoice schemas value) fun v =>
      { s with shuangpinHelpcodeSchema := v }
  | showQuanpinHelpcode => choose (parseBool value) fun v =>
      { s with showQuanpinHelpcodeInCandidates := v }
  | showShuangpinHelpcode => choose (parseBool value) fun v =>
      { s with showShuangpinHelpcodeInCandidates := v }
  | frequencyAdjustment => choose (choiceIndex frequencyModes value) fun index =>
      { s with frequencyAdjustmentMode := FrequencyEnum.ofIndex index }
  | frequencyTriggerCount => choose (parseInteger 1 10 value) fun n =>
      { s with frequencyTriggerCount := n }
  | frequencyLinearStep => choose (parseInteger 1 10 value) fun n =>
      { s with frequencyLinearStep := n }
  | unicodeMode => choose (parseBool value) fun v => { s with unicodeModeEnabled := v }
  | superJianpinMode => choose (parseBool value) fun v => { s with superJianpinModeEnabled := v }
  | temporaryEnglishMode => choose (parseBool value) fun v =>
      { s with temporaryEnglishModeEnabled := v }
  | temporaryJapaneseMode => choose (parseBool value) fun v =>
      { s with temporaryJapaneseModeEnabled := v }
  | switchLanguageShift => choose (parseBool value) fun v => { s with switchLanguageShift := v }
  | switchLanguageCtrl => choose (parseBool value) fun v => { s with switchLanguageCtrl := v }
  | switchLanguageCtrlAltSpace => choose (parseBool value) fun v =>
      { s with switchLanguageCtrlAltSpace := v }
  | mixedEnglishCandidates => choose (parseBool value) fun v =>
      { s with mixedEnglishCandidatesEnabled := v }
  | mixedEnglishMinimumPrefix => choose (parseInteger 1 8 value) fun n =>
      { s with mixedEnglishMinimumPrefix := n.toNat }
  | mixedEmojiCandidates => choose (parseBool value) fun v =>
      { s with mixedEmojiCandidatesEnabled := v }
  | mixedKaomojiCandidates => choose (parseBool value) fun v =>
      { s with mixedKaomojiCandidatesEnabled := v }
  | clipboardHistory => choose (parseBool value) fun v => { s with clipboardHistoryEnabled := v }
  | quickPhraseMode => choose (parseBool value) fun v => { s with quickPhraseModeEnabled := v }
  | dateTimeMode => choose (parseBool value) fun v => { s with dateTimeModeEnabled := v }
  | emojiMode => choose (parseBool value) fun v => { s with emojiModeEnabled := v }
  | kaomojiMode => choose (parseBool value) fun v => { s with kaomojiModeEnabled := v }
  | floatingToolbar => choose (parseBool value) fun v => { s with floatingToolbarEnabled := v }
  | voiceEnabled => choose (parseBool value) fun v =>
      { s with voice := { s.voice with enabled := v } }
  | voiceProvider => choose (parseChoice voiceProviders value) fun v =>
      -- a credential stays with the provider it was filed under
      { s with voice := { s.voice with
        provider := v, token := if v = s.voice.provider then s.voice.token else [] } }
  | voiceCredentialClear => choose (parseBool value) fun v =>
      { s with
        voice := { s.voice with token := if v then [] else s.voice.token }
        voiceCredentialCleared := v }
  | voiceCredential => enterCredential s value fun token =>
      { s with voice := { s.voice with token := token }, voiceCredentialCleared := false }
  | voiceEndpoint => enterText (validEndpointText value) false s.voice.enabled value fun v =>
      { s with voice := { s.voice with endpoint := v } }
  | voiceModel => enterText (validText value 256 false) true false value fun v =>
      { s with voice := { s.voice with model := v } }
  | voiceLanguage => enterText (validText value 32 false) true false value fun v =>
      { s with voice := { s.voice with language := v } }
  | voicePolishEnabled => choose (parseBool value) fun v =>
      { s with voice := { s.voice with polishEnabled := v } }
  | voicePolishEndpoint =>
    enterText (validEndpointText value) false s.voice.polishEnabled value fun v =>
      { s with voice := { s.voice with polishEndpoint := v } }
  | voicePolishModel => enterText (validText value 256 false) true false value fun v =>
      { s with voice := { s.voice with polishModel := v } }
  | voicePolishPrompt => enterText (validText value 8192 true) true false value fun v =>
      { s with voice := { s.voice with polishPrompt := v } }
  | cloudEnabled => choose (parseBool value) fun v =>
      { s with online := { s.online with cloudCandidatesEnabled := v } }
  | connectTimeoutMs => choose (parseInteger 100 10000 value) fun n =>
      { s with online := { s.online with connectTimeout := n } }
  | totalTimeoutMs => choose (parseInteger 500 30000 value) fun n =>
      { s with online := { s.online with totalTimeout := n } }
  | aiEnabled => choose (parseBool value) fun v =>
      { s with online := { s.online with ai := { s.online.ai with enabled := v } } }
  | aiProvider => choose (parseAiProvider value) fun v =>
      { s with online := { s.online with ai := { s.online.ai with
        provider := v, token := if v = s.online.ai.provider then s.online.ai.token else [] } } }
  | aiCredentialClear => choose (parseBool value) fun v =>
      { s with online := { s.online with
        ai := { s.online.ai with token := if v then [] else s.online.ai.token }
        aiCredentialCleared := v } }
  | aiCredential => enterCredential s value fun token =>
      { s with online := { s.online with
        ai := { s.online.ai with token := token }, aiCredentialCleared := false } }
  | aiEndpoint => enterText (validEndpointText value) false false value fun v =>
      { s with online := { s.online with ai := { s.online.ai with endpoint := v } } }
  | aiModel => enterText (validText value 256 false) false false value fun v =>
      { s with online := { s.online with ai := { s.online.ai with model := v } } }
  | aiPrompt => enterText (validText value 8192 true) false false value fun v =>
      { s with online := { s.online with ai := { s.online.ai with prompt := v } } }
  | aiCandidateLimit => choose (parseInteger 1 10 value) fun n =>
      { s with online := { s.online with ai := { s.online.ai with candidateLimit := n.toNat } } }
  | translationEnabled => choose (parseBool value) fun v =>
      { s with online := { s.online with candidateTranslationsEnabled := v } }
  | translationProvider => choose (parseTranslationProvider value) fun v =>
      { s with online := { s.online with
        translationProvider := v
        translationToken :=
          if v = s.online.translationProvider then s.online.translationToken else [] } }
  | translationCredentialClear => choose (parseBool value) fun v =>
      { s with online := { s.online with
        translationToken := if v then [] else s.online.translationToken
        translationCredentialCleared := v } }
  | translationCredential => enterCredential s value fun token =>
      { s with online := { s.online with
        translationToken := token, translationCredentialCleared := false } }
  | translationTargetLanguage => choose (parseChoice languages value) fun v =>
      { s with online := { s.online with translationTargetLanguage := v } }
  | translationEndpoint => enterText (validEndpointText value) false false value fun v =>
      { s with online := { s.online with translationEndpoint := v } }

end RowId

/-- `SettingsUiModel::set` (SettingsUiModel.cpp:443): an edit, by the id of its row.
Ids that only begin like the language switches are taken for flags without a field. -/
def settingsSet [FrequencyEnum] (s : InputSettings) (id value : Bytes) :
    Except Refusal InputSettings :=
  match RowId.ofId id with
  | some r => r.set s value
  | none =>
    if (ascii "switch-language-").isPrefixOf id then RowId.choose (parseBool value) fun _ => s
    else .error .invalid

/-! ## What the form accepts is what the store accepts -/

theorem validText_eq (value : Bytes) (maximum : Nat) (allowNewlines : Bool) :
    validText value maximum allowNewlines = validUtf8Text value maximum allowNewlines := by
  rw [Bool.eq_iff_iff, validUtf8Text_iff, validText]
  simp only [Bool.and_eq_true, decide_eq_true_eq, utf8Validate_iff, List.all_eq_true, PlainText,
    and_assoc]
  refine and_congr_right fun _ => and_congr_right fun _ => ?_
  have hchar : ∀ c : UInt8,
      (!(c == 0 || c == 127 ||
        (c < 32 && !(allowNewlines && (c == newline || c == 13 || c == 9))))) = true ↔
      c ≠ 0 ∧ (isControl c = true →
        allowNewlines = true ∧ (c = newline ∨ c = 13 ∨ c = 9)) := by
    intro c
    by_cases hnewline : c = newline ∨ c = 13 ∨ c = 9
    · have hother : c ≠ 0 ∧ c ≠ 127 ∧ c < 32 := by
        rcases hnewline with rfl | rfl | rfl <;> decide
      cases allowNewlines <;> simp [isControl, hother, hnewline, or_assoc]
    · by_cases hnul : c = 0
      · simp [hnul]
      · by_cases hdel : c = 127
        · simp [isControl, hdel, newline]
        · have hother : ¬ ((c = newline ∨ c = 13) ∨ c = 9) := fun h => hnewline (or_assoc.mp h)
          simp [isControl, hnewline, hother, hnul, hdel]
  constructor
  · intro h
    exact ⟨fun hmem => ((hchar 0).mp (h 0 hmem)).1 rfl, fun c hc => ((hchar c).mp (h c hc)).2⟩
  · rintro ⟨hnul, hcontrol⟩ c hc
    exact (hchar c).mpr ⟨fun h0 => hnul (h0 ▸ hc), hcontrol c hc⟩

theorem validEndpointText_eq (value : Bytes) :
    RowId.validEndpointText value = validHttpsEndpoint value := by
  unfold RowId.validEndpointText validHttpsEndpoint
  rw [validText_eq]
  cases hempty : value.isEmpty
  · rw [Bool.false_or, Bool.false_or, Bool.eq_iff_iff]
    simp only [Bool.and_eq_true, maximumEndpointBytes]
    constructor
    · rintro ⟨htext, hhttps⟩
      exact ⟨⟨decide_eq_true (validUtf8Text_iff.mp htext).1, hhttps⟩, htext⟩
    · rintro ⟨⟨-, hhttps⟩, htext⟩
      exact ⟨htext, hhttps⟩
  · obtain rfl : value = [] := List.isEmpty_iff.mp hempty
    decide

/-! ## What an accepted edit does -/

/-- The voice service and its polishing have an endpoint while they are on: what the
store asks of two fields together. -/
def InputSettings.ServicesHaveEndpoints (s : InputSettings) : Prop :=
  (s.voice.enabled = true → s.voice.endpoint ≠ []) ∧
    (s.voice.polishEnabled = true → s.voice.polishEndpoint ≠ [])

theorem InputSettings.valid_iff {supportedSchema : Bytes → Bool} {s : InputSettings} :
    s.Valid supportedSchema ↔ s.ValidFields supportedSchema ∧ s.ServicesHaveEndpoints :=
  ⟨fun h => ⟨h.toValidFields, h.voiceEnabled, h.polishEnabled⟩, fun h => ⟨h.1, h.2.1, h.2.2⟩⟩

theorem parseBool_boolValue (b : Bool) : parseBool (boolValue b) = some b := by
  cases b <;> decide

theorem parseInteger_encodeInt {minimum maximum n : Int} (h : minimum ≤ n ∧ n ≤ maximum) :
    parseInteger minimum maximum (encodeInt n) = some n := by
  rw [parseInteger, decodeInt_encodeInt]
  exact if_pos h

theorem parseInteger_bounds {minimum maximum n : Int} {value : Bytes}
    (h : parseInteger minimum maximum value = some n) : minimum ≤ n ∧ n ≤ maximum := by
  unfold parseInteger at h
  split at h
  · split at h
    · next hn =>
      obtain rfl := Option.some.inj h
      exact hn
    · cases h
  · cases h

theorem parseChoice_mem {choices : List String} {value v : Bytes}
    (h : parseChoice choices value = some v) :
    v = value ∧ ∃ name ∈ choices, ascii name = value := by
  unfold parseChoice at h
  split at h
  · next hmem =>
    obtain rfl := Option.some.inj h
    exact ⟨rfl, List.mem_map.mp hmem⟩
  · cases h

namespace RowId

theorem choose_ok {α : Type} {parsed : Option α} {put : α → InputSettings} {t : InputSettings}
    (h : choose parsed put = .ok t) : ∃ a, parsed = some a ∧ t = put a := by
  cases parsed with
  | none => cases h
  | some a => exact ⟨a, rfl, (Except.ok.inj h).symm⟩

theorem choose_some {α : Type} {parsed : Option α} {put : α → InputSettings} {a : α}
    (h : parsed = some a) : choose parsed put = .ok (put a) := by
  rw [h, choose]

theorem enterText_eq {valid required requiredWhileEnabled : Bool} {value : Bytes}
    {put : Bytes → InputSettings} (hvalid : valid = true)
    (hne : required = true ∨ requiredWhileEnabled = true → value ≠ []) :
    enterText valid required requiredWhileEnabled value put = .ok (put value) := by
  have hempty : ¬ (value.isEmpty && (required || requiredWhileEnabled)) = true := by
    rw [Bool.and_eq_true, Bool.or_eq_true, List.isEmpty_iff]
    rintro ⟨hnil, hrequired⟩
    exact hne hrequired hnil
  rw [enterText, hvalid, if_neg (by decide), if_neg hempty]

/-- What holds of the settings with any credential that may be sent holds after one is entered;
an empty entry leaves the settings as they were. -/
theorem enterCredential_keeps {I : InputSettings → Prop} {s t : InputSettings} {value : Bytes}
    {put : Bytes → InputSettings} (h : enterCredential s value put = .ok t) (hs : I s)
    (hput : tokenAllowed value = true → I (put value)) : I t := by
  unfold enterCredential at h
  split at h
  · cases h
  next hallowed =>
    rw [Bool.not_eq_true, Bool.not_eq_false'] at hallowed
    split at h
    · exact Except.ok.inj h ▸ hs
    · exact Except.ok.inj h ▸ hput hallowed

/-- What holds of the settings with any text that is valid, and there where one is asked for,
holds after one is entered. -/
theorem enterText_keeps {I : InputSettings → Prop} {valid required requiredWhileEnabled : Bool}
    {value : Bytes} {put : Bytes → InputSettings} {t : InputSettings}
    (h : enterText valid required requiredWhileEnabled value put = .ok t)
    (hput : valid = true → (required = true ∨ requiredWhileEnabled = true → value ≠ []) →
      I (put value)) : I t := by
  unfold enterText at h
  split at h
  · cases h
  next hvalid =>
    rw [Bool.not_eq_true, Bool.not_eq_false'] at hvalid
    split at h
    · cases h
    next hempty =>
      refine Except.ok.inj h ▸ hput hvalid ?_
      rintro hrequired rfl
      refine hempty ?_
      rw [Bool.and_eq_true, Bool.or_eq_true]
      exact ⟨rfl, hrequired⟩

/-- A credential that is dropped, or kept, may still be sent. -/
theorem tokenAllowed_ite {p : Prop} [Decidable p] {token : Bytes} (h : tokenAllowed token = true) :
    tokenAllowed (if p then token else []) = true ∧
      tokenAllowed (if p then [] else token) = true := by
  have hnone : tokenAllowed [] = true := by decide
  split
  · exact ⟨h, hnone⟩
  · exact ⟨hnone, h⟩

/-- A text the form accepts is one the store accepts, where it may not be empty. -/
theorem validVoiceText_of {value : Bytes} {maximum : Nat}
    (hvalid : validText value maximum false = true) (hne : value ≠ []) :
    validVoiceText maximum value = true := by
  rw [validText_eq] at hvalid
  simp [validVoiceText, hvalid, hne]

/-- A name the store accepts is one the form accepts, and it is not empty. -/
theorem validText_of_voiceText {maximum : Nat} {value : Bytes}
    (h : validVoiceText maximum value = true) :
    validText value maximum false = true ∧ value ≠ [] := by
  rw [validVoiceText, Bool.and_eq_true, Bool.not_eq_true'] at h
  rw [validText_eq]
  exact ⟨h.1, fun hnil => by simp [hnil] at h⟩

theorem validVoiceText_of_offered {name : String} (h : name ∈ voiceProviders) :
    validVoiceText 64 (ascii name) = true := by
  simp only [voiceProviders, List.mem_cons, List.not_mem_nil, or_false] at h
  rcases h with rfl | rfl | rfl | rfl <;>
    exact validVoiceText_of (by decide) (by decide)

theorem validTranslationLanguage_of_offered {name : String} (h : name ∈ languages) :
    validTranslationLanguage (ascii name) = true := by
  simp only [languages, List.mem_cons, List.not_mem_nil, or_false] at h
  rcases h with rfl | rfl | rfl | rfl | rfl | rfl | rfl <;> decide

section

variable [FrequencyEnum]

/-- **An accepted edit keeps every field valid.** -/
theorem set_validFields {supportedSchema : Bytes → Bool}
    (hschemas : ∀ name ∈ schemas, supportedSchema (ascii name) = true) {r : RowId}
    {s t : InputSettings} {value : Bytes} (h : r.set s value = .ok t)
    (hs : s.ValidFields supportedSchema) : t.ValidFields supportedSchema := by
  have hschema : ∀ {v : Bytes}, parseChoice schemas value = some v →
      supportedSchema v = true := by
    intro v hv
    obtain ⟨rfl, name, hmem, rfl⟩ := parseChoice_mem hv
    exact hschemas name hmem
  have hvoiceText : ∀ {maximum : Nat} {required : Bool}, validText value maximum false = true →
      (true = true ∨ required = true → value ≠ []) → validVoiceText maximum value = true :=
    fun hvalid hne => validVoiceText_of hvalid (hne (.inl rfl))
  cases r with
  -- numbers, within their bounds
  | pageSize =>
    obtain ⟨n, hn, rfl⟩ := choose_ok h
    have hbounds := parseInteger_bounds hn
    have hsize : 3 ≤ n.toNat ∧ n.toNat ≤ 9 := by omega
    exact { hs with pageSize := hsize }
  | mixedEnglishMinimumPrefix =>
    obtain ⟨n, hn, rfl⟩ := choose_ok h
    have hbounds := parseInteger_bounds hn
    have hprefix : 1 ≤ n.toNat ∧ n.toNat ≤ 8 := by omega
    exact { hs with mixedEnglishMinimumPrefix := hprefix }
  | aiCandidateLimit =>
    obtain ⟨n, hn, rfl⟩ := choose_ok h
    have hbounds := parseInteger_bounds hn
    have hlimit : 1 ≤ n.toNat ∧ n.toNat ≤ 10 := by omega
    exact { hs with aiCandidateLimit := hlimit }
  | frequencyTriggerCount =>
    obtain ⟨n, hn, rfl⟩ := choose_ok h
    exact { hs with frequencyTriggerCount := parseInteger_bounds hn }
  | frequencyLinearStep =>
    obtain ⟨n, hn, rfl⟩ := choose_ok h
    exact { hs with frequencyLinearStep := parseInteger_bounds hn }
  | connectTimeoutMs =>
    obtain ⟨n, hn, rfl⟩ := choose_ok h
    exact { hs with connectTimeout := parseInteger_bounds hn }
  | totalTimeoutMs =>
    obtain ⟨n, hn, rfl⟩ := choose_ok h
    exact { hs with totalTimeout := parseInteger_bounds hn }
  -- choices the store checks
  | quanpinHelpcodeSchema =>
    obtain ⟨v, hv, rfl⟩ := choose_ok h
    exact { hs with quanpinHelpcodeSchema := hschema hv }
  | shuangpinHelpcodeSchema =>
    obtain ⟨v, hv, rfl⟩ := choose_ok h
    exact { hs with shuangpinHelpcodeSchema := hschema hv }
  | translationTargetLanguage =>
    obtain ⟨v, hv, rfl⟩ := choose_ok h
    obtain ⟨rfl, name, hmem, rfl⟩ := parseChoice_mem hv
    exact { hs with translationTargetLanguage := validTranslationLanguage_of_offered hmem }
  -- another provider drops the credential, and so does clearing it
  | voiceProvider =>
    obtain ⟨v, hv, rfl⟩ := choose_ok h
    obtain ⟨rfl, name, hmem, rfl⟩ := parseChoice_mem hv
    exact { hs with
      voiceProvider := validVoiceText_of_offered hmem
      voiceToken := (tokenAllowed_ite hs.voiceToken).1 }
  | aiProvider =>
    obtain ⟨v, -, rfl⟩ := choose_ok h
    exact { hs with aiToken := (tokenAllowed_ite hs.aiToken).1 }
  | translationProvider =>
    obtain ⟨v, -, rfl⟩ := choose_ok h
    exact { hs with translationToken := (tokenAllowed_ite hs.translationToken).1 }
  | voiceCredentialClear =>
    obtain ⟨v, -, rfl⟩ := choose_ok h
    exact { hs with voiceToken := (tokenAllowed_ite hs.voiceToken).2 }
  | aiCredentialClear =>
    obtain ⟨v, -, rfl⟩ := choose_ok h
    exact { hs with aiToken := (tokenAllowed_ite hs.aiToken).2 }
  | translationCredentialClear =>
    obtain ⟨v, -, rfl⟩ := choose_ok h
    exact { hs with translationToken := (tokenAllowed_ite hs.translationToken).2 }
  | voiceCredential =>
    rw [set] at h
    exact enterCredential_keeps h hs fun hallowed => { hs with voiceToken := hallowed }
  | aiCredential =>
    rw [set] at h
    exact enterCredential_keeps h hs fun hallowed => { hs with aiToken := hallowed }
  | translationCredential =>
    rw [set] at h
    exact enterCredential_keeps h hs fun hallowed => { hs with translationToken := hallowed }
  -- texts
  | voiceEndpoint =>
    rw [set] at h
    exact enterText_keeps h fun hvalid _ =>
      { hs with voiceEndpoint := validEndpointText_eq value ▸ hvalid }
  | voicePolishEndpoint =>
    rw [set] at h
    exact enterText_keeps h fun hvalid _ =>
      { hs with polishEndpoint := validEndpointText_eq value ▸ hvalid }
  | aiEndpoint =>
    rw [set] at h
    exact enterText_keeps h fun hvalid _ =>
      { hs with aiEndpoint := validEndpointText_eq value ▸ hvalid }
  | translationEndpoint =>
    rw [set] at h
    exact enterText_keeps h fun hvalid _ =>
      { hs with translationEndpoint := validEndpointText_eq value ▸ hvalid }
  | voiceModel =>
    rw [set] at h
    exact enterText_keeps h fun hvalid hne => { hs with voiceModel := hvoiceText hvalid hne }
  | voiceLanguage =>
    rw [set] at h
    exact enterText_keeps h fun hvalid hne => { hs with voiceLanguage := hvoiceText hvalid hne }
  | voicePolishModel =>
    rw [set] at h
    exact enterText_keeps h fun hvalid hne => { hs with polishModel := hvoiceText hvalid hne }
  | voicePolishPrompt =>
    rw [set] at h
    refine enterText_keeps h fun hvalid hne => { hs with polishPrompt := ?_ }
    rw [validText_eq] at hvalid
    simp [validPolishPrompt, hvalid, hne (.inl rfl)]
  | aiModel =>
    rw [set] at h
    exact enterText_keeps h fun hvalid _ =>
      { hs with aiModel := (validText_eq _ _ _).symm.trans hvalid }
  | aiPrompt =>
    rw [set] at h
    exact enterText_keeps h fun hvalid _ =>
      { hs with aiPrompt := (validText_eq _ _ _).symm.trans hvalid }
  | _ =>
    -- the store checks nothing about the other fields one by one
    obtain ⟨v, -, rfl⟩ := choose_ok h
    exact { hs with }

end

/-- The edit switches a service on that has no endpoint. -/
def EnablesWithoutEndpoint (s : InputSettings) (value : Bytes) (r : RowId) : Prop :=
  parseBool value = some true ∧
    (r = .voiceEnabled ∧ s.voice.endpoint = [] ∨
      r = .voicePolishEnabled ∧ s.voice.polishEndpoint = [])

/-- **An accepted edit leaves no service on without its endpoint**, unless it
switches one on. -/
theorem set_servicesHaveEndpoints [FrequencyEnum] {r : RowId} {s t : InputSettings} {value : Bytes}
    (h : r.set s value = .ok t) (hs : s.ServicesHaveEndpoints)
    (hopen : ¬ r.EnablesWithoutEndpoint s value) : t.ServicesHaveEndpoints := by
  cases r with
  | voiceEnabled =>
    obtain ⟨v, hv, rfl⟩ := choose_ok h
    refine ⟨fun henabled hempty => hopen ?_, hs.2⟩
    obtain rfl : v = true := henabled
    exact ⟨hv, .inl ⟨rfl, hempty⟩⟩
  | voicePolishEnabled =>
    obtain ⟨v, hv, rfl⟩ := choose_ok h
    refine ⟨hs.1, fun henabled hempty => hopen ?_⟩
    obtain rfl : v = true := henabled
    exact ⟨hv, .inr ⟨rfl, hempty⟩⟩
  | voiceEndpoint =>
    rw [set] at h
    exact enterText_keeps h fun _ hne => ⟨fun henabled => hne (.inr henabled), hs.2⟩
  | voicePolishEndpoint =>
    rw [set] at h
    exact enterText_keeps h fun _ hne => ⟨hs.1, fun henabled => hne (.inr henabled)⟩
  | voiceCredential | aiCredential | translationCredential =>
    rw [set] at h
    exact enterCredential_keeps h hs fun _ => hs
  | voiceModel | voiceLanguage | voicePolishModel | voicePolishPrompt | aiEndpoint | aiModel
  | aiPrompt | translationEndpoint =>
    rw [set] at h
    exact enterText_keeps h fun _ _ => hs
  | _ =>
    -- no other row is about the services
    obtain ⟨v, -, rfl⟩ := choose_ok h
    exact hs

end RowId

/-! ## Any number of edits -/

section

variable [FrequencyEnum]

/-- An accepted edit is the edit of a row, or one without effect. -/
theorem settingsSet_ok {s t : InputSettings} {id value : Bytes}
    (h : settingsSet s id value = .ok t) :
    (∃ r, RowId.ofId id = some r ∧ r.set s value = .ok t) ∨ t = s := by
  unfold settingsSet at h
  split at h
  · next r hr => exact .inl ⟨r, hr, h⟩
  · split at h
    · obtain ⟨v, -, rfl⟩ := RowId.choose_ok h
      exact .inr rfl
    · cases h

/-- The settings of the form after an edit: a refused one changes nothing. -/
def settingsEdit (s : InputSettings) (edit : Bytes × Bytes) : InputSettings :=
  match settingsSet s edit.1 edit.2 with
  | .ok t => t
  | .error _ => s

/-- An edit a row accepts is carried out. -/
theorem settingsEdit_eq {s t : InputSettings} {id value : Bytes} {r : RowId}
    (hrow : RowId.ofId id = some r) (hset : r.set s value = .ok t) :
    settingsEdit s (id, value) = t := by
  have hok : settingsSet s id value = .ok t := by
    unfold settingsSet
    rw [hrow]
    exact hset
  unfold settingsEdit
  rw [hok]

/-- What accepted edits of rows preserve, any edits preserve. -/
theorem settingsEdit_invariant {I : InputSettings → Prop} {s : InputSettings}
    {edit : Bytes × Bytes}
    (hset : ∀ r t, RowId.ofId edit.1 = some r → r.set s edit.2 = .ok t → I t) (hs : I s) :
    I (settingsEdit s edit) := by
  unfold settingsEdit
  split
  · next t ht =>
    rcases settingsSet_ok ht with ⟨r, hr, hset'⟩ | rfl
    · exact hset r t hr hset'
    · exact hs
  · exact hs

/-- The edit is of a row, and switches a service on that has no endpoint. -/
def EnablesWithoutEndpoint (s : InputSettings) (edit : Bytes × Bytes) : Prop :=
  ∃ r, RowId.ofId edit.1 = some r ∧ r.EnablesWithoutEndpoint s edit.2

/-- Edits keep every field valid. -/
theorem edits_validFields {supportedSchema : Bytes → Bool}
    (hschemas : ∀ name ∈ RowId.schemas, supportedSchema (ascii name) = true)
    {s : InputSettings} (hs : s.ValidFields supportedSchema) (edits : List (Bytes × Bytes)) :
    (edits.foldl settingsEdit s).ValidFields supportedSchema := by
  induction edits generalizing s with
  | nil => exact hs
  | cons edit edits ih =>
    exact ih (settingsEdit_invariant (fun r t _ h => RowId.set_validFields hschemas h hs) hs)

/-- Edits none of which switches a service on without an endpoint leave none on. -/
theorem edits_servicesHaveEndpoints {s : InputSettings} {edits : List (Bytes × Bytes)}
    (h : Guarded settingsEdit (fun s edit => ¬ EnablesWithoutEndpoint s edit) s edits)
    (hs : s.ServicesHaveEndpoints) : (edits.foldl settingsEdit s).ServicesHaveEndpoints := by
  refine h.run.invariant ?_ hs
  rintro s edit _ hs ⟨hopen, rfl⟩
  exact settingsEdit_invariant (fun r t hr hset =>
    RowId.set_servicesHaveEndpoints hset hs fun henables => hopen ⟨r, hr, henables⟩) hs

end

end MsimeLinux
