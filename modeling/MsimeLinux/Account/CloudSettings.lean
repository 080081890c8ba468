import Mathlib.Data.Finset.Sort
import MsimeLinux.Account.Session
import MsimeLinux.Lib.Except
import MsimeLinux.Settings.UiModel

/-!
# Settings in the cloud (`CloudSettingsMapper.cpp`)

Some rows of the settings form are shared through the account. `exportSettings` reads
them off the form, `prepareUpload` puts them into the remote document and
`prepareDownload` enters a remote document into the form.

- `takeFields`: settings with some of the shared fields of others.
- `set_row`: the form takes over a field it shows of other settings.
- `download_upload`: what was uploaded comes down again.
- `form_keeps_validity`: what the form and a download leave of the store's check.
-/

namespace MsimeLinux

open Lib

/-! ## Shared rows -/

/-- The rows that are shared, with the names they have in the cloud
(CloudSettingsMapper.cpp:17). -/
def cloudBindings : List (RowId × Bytes) :=
  [(.pageSize, ascii "appearance.page_size"),
    (.candidateWindowLayout, ascii "appearance.candidate_window_layout"),
    (.commaPeriodPaging, ascii "general.paging_comma_period"),
    (.bracketPaging, ascii "general.paging_brackets"),
    (.wordToCharacter, ascii "input.word_to_character"),
    (.smartPunctuation, ascii "input.smart_punctuation"),
    (.smartPunctuationRepeatToChinese, ascii "input.smart_punctuation_repeat_to_chinese"),
    (.pairedPunctuation, ascii "input.paired_punctuation"),
    (.quanpinHelpcode, ascii "helpcode.quanpin_helpcode"),
    (.quanpinHelpcodeSchema, ascii "helpcode.quanpin_helpcode_schema"),
    (.shuangpinHelpcode, ascii "helpcode.shuangpin_helpcode"),
    (.shuangpinHelpcodeSchema, ascii "helpcode.shuangpin_helpcode_schema"),
    (.showQuanpinHelpcode, ascii "helpcode.show_qp_helpcode_in_candidate_window"),
    (.showShuangpinHelpcode, ascii "helpcode.show_sp_helpcode_in_candidate_window"),
    (.frequencyTriggerCount, ascii "frequency_adjustment.trigger_count"),
    (.frequencyLinearStep, ascii "frequency_adjustment.linear_step"),
    (.unicodeMode, ascii "utility.unicode_mode"),
    (.superJianpinMode, ascii "utility.jianpin_mode"),
    (.switchLanguageShift, ascii "keybindings.switch_language_shift"),
    (.switchLanguageCtrl, ascii "keybindings.switch_language_ctrl"),
    (.switchLanguageCtrlAltSpace, ascii "keybindings.switch_language_ctrl_alt_space"),
    (.mixedEnglishCandidates, ascii "general.cn_en_mixed_input"),
    (.mixedEnglishMinimumPrefix, ascii "general.cn_en_mixed_input_min_chars"),
    (.mixedEmojiCandidates, ascii "general.emoji_mixed_input"),
    (.mixedKaomojiCandidates, ascii "general.kaomoji_mixed_input"),
    (.quickPhraseMode, ascii "utility.quick_phrase"),
    (.dateTimeMode, ascii "utility.date_time_mode"),
    (.emojiMode, ascii "utility.emoji_mode"),
    (.kaomojiMode, ascii "utility.kaomoji_mode"),
    (.floatingToolbar, ascii "general.floating_toolbar"),
    (.voiceEnabled, ascii "voice_input.voice_input"),
    (.voiceProvider, ascii "voice_input.asr_provider"),
    (.voiceModel, ascii "voice_input.asr_model"),
    (.voiceLanguage, ascii "voice_input.language"),
    (.voicePolishEnabled, ascii "voice_input.polish_text"),
    (.voicePolishPrompt, ascii "voice_input.polish_prompt"),
    (.cloudEnabled, ascii "general.cloud_candidates"),
    (.aiEnabled, ascii "ai_assistant.enabled"),
    (.aiProvider, ascii "ai_assistant.provider"),
    (.aiModel, ascii "ai_assistant.model"),
    (.aiPrompt, ascii "ai_assistant.prompt"),
    (.aiCandidateLimit, ascii "ai_assistant.candidate_limit"),
    (.translationEnabled, ascii "general.candidate_translations")]

/-- The row a name of the cloud stands for. -/
def boundRow (key : Bytes) : Option RowId :=
  (cloudBindings.find? fun b => b.2 == key).map Prod.fst

/-- What the mapper throws: a failure of the account, or `std::logic_error`. -/
inductive MapperError where
  | failure (failure : Failure)
  | logicError (message : String)
  deriving DecidableEq

/-- `throw Failure(400)`. -/
def MapperError.badRequest : MapperError := .failure { status := 400 }

/-- `value` (CloudSettingsMapper.cpp:70): what a row shows, as a value of the cloud. -/
def SettingsUiRow.preference (row : SettingsUiRow) : Except MapperError PreferenceValue :=
  match row.control with
  | .boolean => .ok (.bool (row.value == ascii "true"))
  | .integer =>
    match decodeInt row.value with
    | some n =>
      if Int64.minValue.toInt ≤ n ∧ n ≤ Int64.maxValue.toInt then .ok (.int64 (.ofInt n))
      else .error (.failure { status := 0 })
    | none => .error (.failure { status := 0 })
  | .text | .choice => .ok (.string row.value)
  | .secret => .error (.logicError "Credential row cannot be synchronized")

/-- `local_value` (CloudSettingsMapper.cpp:86): a value of the cloud, as it is entered
in a row. -/
def SettingsUiRow.localValue (row : SettingsUiRow) (value : PreferenceValue) :
    Except MapperError Bytes :=
  match row.control, value with
  | .boolean, .bool b => .ok (boolValue b)
  | .integer, .int64 n => .ok (encodeInt n.toInt)
  | .text, .string text => .ok text
  | .choice, .string text => .ok text
  | _, _ => .error .badRequest

/-- One row exported: `emplace` keeps what is there. -/
def exportRow (s : InputSettings) (exported : PreferenceSettings) (b : RowId × Bytes) :
    Except MapperError PreferenceSettings := do
  let value ← (b.1.row s).preference
  return if b.2 ∈ exported then exported else exported.insert b.2 value

/-- `export_settings` (CloudSettingsMapper.cpp:106). -/
def exportSettings (s : InputSettings) : Except MapperError PreferenceSettings :=
  cloudBindings.foldlM (exportRow s) ∅

/-- `prepare_upload` (CloudSettingsMapper.cpp:114): what is exported replaces what the
document has. -/
def prepareUpload (s : InputSettings) (remote : Preferences) : Except MapperError Preferences := do
  let exported ← exportSettings s
  return { remote with settings := exported ∪ remote.settings }

/-- `SettingsChange` (CloudSettingsMapper.h:7). -/
structure SettingsChange where
  field : Bytes
  before : PreferenceValue
  after : PreferenceValue
  deriving DecidableEq

/-- `SettingsPreview` (CloudSettingsMapper.h:12). -/
structure SettingsPreview where
  settings : InputSettings
  changes : List SettingsChange := []
  unsupportedFields : List Bytes := []
  deriving DecidableEq

/-- The providers with the models that belong to them (CloudSettingsMapper.cpp:126). -/
def providerModels : List (Bytes × Bytes) :=
  [(ascii "ai_assistant.provider", ascii "ai_assistant.model"),
    (ascii "voice_input.asr_provider", ascii "voice_input.asr_model")]

/-- The document moves a credential to another provider, or brings a model of an
unknown one. -/
def redirects (exported remote : PreferenceSettings) (pair : Bytes × Bytes) : Bool :=
  match remote.lookup pair.1 with
  | some provider => exported.lookup pair.1 != some provider
  | none =>
    match remote.lookup pair.2 with
    | some model => exported.lookup pair.2 != some model
    | none => false

/-- An entry of the document is entered in the form (CloudSettingsMapper.cpp:140). -/
def downloadEntry [FrequencyEnum] (remote : PreferenceSettings) (preview : SettingsPreview)
    (key : Bytes) : Except MapperError SettingsPreview :=
  match remote.lookup key, boundRow key with
  | none, _ => .ok preview
  | some _, none =>
    .ok { preview with unsupportedFields := preview.unsupportedFields ++ [key] }
  | some value, some r => do
    let current := r.row preview.settings
    let before ← current.preference
    let text ← current.localValue value
    if before = value then return preview
    match settingsSet preview.settings r.id text with
    | .error _ => throw .badRequest
    | .ok settings =>
      return { preview with
        settings := settings, changes := preview.changes ++ [⟨key, before, value⟩] }

/-- `prepare_download` (CloudSettingsMapper.cpp:121). The entries come in the order of
their names. -/
def prepareDownload [FrequencyEnum] (s : InputSettings) (remote : Preferences) :
    Except MapperError SettingsPreview := do
  let exported ← exportSettings s
  if providerModels.any (redirects exported remote.settings) then throw .badRequest
  (remote.settings.keys.sort (· ≤ ·)).foldlM (downloadEntry remote.settings) { settings := s }

/-! ## The fields of the shared rows -/

/-- The settings `s` with the fields of some shared rows as they are in `s'`. -/
def takeFields (p : RowId → Bool) (s s' : InputSettings) : InputSettings :=
  { s with
    pageSize := bif p .pageSize then s'.pageSize else s.pageSize
    candidateWindowLayout :=
      bif p .candidateWindowLayout then s'.candidateWindowLayout else s.candidateWindowLayout
    commaPeriodPaging := bif p .commaPeriodPaging then s'.commaPeriodPaging else s.commaPeriodPaging
    bracketPaging := bif p .bracketPaging then s'.bracketPaging else s.bracketPaging
    wordToCharacter := bif p .wordToCharacter then s'.wordToCharacter else s.wordToCharacter
    smartPunctuation := bif p .smartPunctuation then s'.smartPunctuation else s.smartPunctuation
    smartPunctuationRepeatToChinese := bif p .smartPunctuationRepeatToChinese then
      s'.smartPunctuationRepeatToChinese else s.smartPunctuationRepeatToChinese
    pairedPunctuation := bif p .pairedPunctuation then s'.pairedPunctuation else s.pairedPunctuation
    quanpinHelpcodeEnabled :=
      bif p .quanpinHelpcode then s'.quanpinHelpcodeEnabled else s.quanpinHelpcodeEnabled
    quanpinHelpcodeSchema :=
      bif p .quanpinHelpcodeSchema then s'.quanpinHelpcodeSchema else s.quanpinHelpcodeSchema
    shuangpinHelpcodeEnabled :=
      bif p .shuangpinHelpcode then s'.shuangpinHelpcodeEnabled else s.shuangpinHelpcodeEnabled
    shuangpinHelpcodeSchema :=
      bif p .shuangpinHelpcodeSchema then s'.shuangpinHelpcodeSchema else s.shuangpinHelpcodeSchema
    showQuanpinHelpcodeInCandidates := bif p .showQuanpinHelpcode then
      s'.showQuanpinHelpcodeInCandidates else s.showQuanpinHelpcodeInCandidates
    showShuangpinHelpcodeInCandidates := bif p .showShuangpinHelpcode then
      s'.showShuangpinHelpcodeInCandidates else s.showShuangpinHelpcodeInCandidates
    frequencyTriggerCount :=
      bif p .frequencyTriggerCount then s'.frequencyTriggerCount else s.frequencyTriggerCount
    frequencyLinearStep :=
      bif p .frequencyLinearStep then s'.frequencyLinearStep else s.frequencyLinearStep
    unicodeModeEnabled := bif p .unicodeMode then s'.unicodeModeEnabled else s.unicodeModeEnabled
    superJianpinModeEnabled :=
      bif p .superJianpinMode then s'.superJianpinModeEnabled else s.superJianpinModeEnabled
    switchLanguageShift :=
      bif p .switchLanguageShift then s'.switchLanguageShift else s.switchLanguageShift
    switchLanguageCtrl :=
      bif p .switchLanguageCtrl then s'.switchLanguageCtrl else s.switchLanguageCtrl
    switchLanguageCtrlAltSpace := bif p .switchLanguageCtrlAltSpace then
      s'.switchLanguageCtrlAltSpace else s.switchLanguageCtrlAltSpace
    mixedEnglishCandidatesEnabled := bif p .mixedEnglishCandidates then
      s'.mixedEnglishCandidatesEnabled else s.mixedEnglishCandidatesEnabled
    mixedEnglishMinimumPrefix := bif p .mixedEnglishMinimumPrefix then
      s'.mixedEnglishMinimumPrefix else s.mixedEnglishMinimumPrefix
    mixedEmojiCandidatesEnabled := bif p .mixedEmojiCandidates then
      s'.mixedEmojiCandidatesEnabled else s.mixedEmojiCandidatesEnabled
    mixedKaomojiCandidatesEnabled := bif p .mixedKaomojiCandidates then
      s'.mixedKaomojiCandidatesEnabled else s.mixedKaomojiCandidatesEnabled
    quickPhraseModeEnabled :=
      bif p .quickPhraseMode then s'.quickPhraseModeEnabled else s.quickPhraseModeEnabled
    dateTimeModeEnabled :=
      bif p .dateTimeMode then s'.dateTimeModeEnabled else s.dateTimeModeEnabled
    emojiModeEnabled := bif p .emojiMode then s'.emojiModeEnabled else s.emojiModeEnabled
    kaomojiModeEnabled := bif p .kaomojiMode then s'.kaomojiModeEnabled else s.kaomojiModeEnabled
    floatingToolbarEnabled :=
      bif p .floatingToolbar then s'.floatingToolbarEnabled else s.floatingToolbarEnabled
    voice := { s.voice with
      enabled := bif p .voiceEnabled then s'.voice.enabled else s.voice.enabled
      provider := bif p .voiceProvider then s'.voice.provider else s.voice.provider
      model := bif p .voiceModel then s'.voice.model else s.voice.model
      language := bif p .voiceLanguage then s'.voice.language else s.voice.language
      polishEnabled :=
        bif p .voicePolishEnabled then s'.voice.polishEnabled else s.voice.polishEnabled
      polishPrompt :=
        bif p .voicePolishPrompt then s'.voice.polishPrompt else s.voice.polishPrompt }
    online := { s.online with
      cloudCandidatesEnabled := bif p .cloudEnabled then
        s'.online.cloudCandidatesEnabled else s.online.cloudCandidatesEnabled
      ai := { s.online.ai with
        enabled := bif p .aiEnabled then s'.online.ai.enabled else s.online.ai.enabled
        provider := bif p .aiProvider then s'.online.ai.provider else s.online.ai.provider
        model := bif p .aiModel then s'.online.ai.model else s.online.ai.model
        prompt := bif p .aiPrompt then s'.online.ai.prompt else s.online.ai.prompt
        candidateLimit :=
          bif p .aiCandidateLimit then s'.online.ai.candidateLimit else s.online.ai.candidateLimit }
      candidateTranslationsEnabled := bif p .translationEnabled then
        s'.online.candidateTranslationsEnabled else s.online.candidateTranslationsEnabled } }

/-- The settings `s` with all shared fields as they are in `s'`. -/
def withCloudFields (s s' : InputSettings) : InputSettings := takeFields (fun _ => true) s s'

/-- The row is shared. -/
def RowId.Shared (r : RowId) : Prop := r ∈ cloudBindings.map Prod.fst

instance (r : RowId) : Decidable r.Shared := inferInstanceAs (Decidable (r ∈ _))

theorem takeFields_takeFields (p q : RowId → Bool) (s s' : InputSettings) :
    takeFields q (takeFields p s s') s' = takeFields (fun r => q r || p r) s s' := by
  have hcond : ∀ {α : Type} (a b : Bool) (x y : α),
      (bif a then x else bif b then x else y) = bif a || b then x else y := by
    intro α a b x y
    cases a <;> rfl
  simp only [takeFields, hcond]

/-! ## The form takes over what it shows -/

/-- A row with choices shows one of them. -/
def RowId.Offered (r : RowId) (s : InputSettings) : Prop :=
  (r.row s).control = .choice → (r.row s).value ∈ (r.row s).choices

/-- The settings select the same providers. -/
structure SameProviders (s s' : InputSettings) : Prop where
  ai : s.online.ai.provider = s'.online.ai.provider
  voice : s.voice.provider = s'.voice.provider

namespace RowId

/-- **The form takes over a field it shows of other settings.** -/
theorem set_row [FrequencyEnum] {supportedSchema : Bytes → Bool} {r : RowId} (hr : r.Shared)
    {s s' : InputSettings} (hs' : s'.ValidFields supportedSchema) (hoffered : r.Offered s')
    (hsame : SameProviders s s') :
    r.set s (r.row s').value = .ok (takeFields (· == r) s s') := by
  cases r with
  | pageSize =>
    have hsize := hs'.pageSize
    exact choose_some (parseInteger_encodeInt (n := s'.pageSize) (by omega))
  | mixedEnglishMinimumPrefix =>
    have hprefix := hs'.mixedEnglishMinimumPrefix
    exact choose_some (parseInteger_encodeInt (n := s'.mixedEnglishMinimumPrefix) (by omega))
  | aiCandidateLimit =>
    have hlimit := hs'.aiCandidateLimit
    exact choose_some (parseInteger_encodeInt (n := s'.online.ai.candidateLimit) (by omega))
  | frequencyTriggerCount =>
    exact choose_some (parseInteger_encodeInt hs'.frequencyTriggerCount)
  | frequencyLinearStep =>
    exact choose_some (parseInteger_encodeInt hs'.frequencyLinearStep)
  | candidateWindowLayout =>
    refine choose_some (a := s'.candidateWindowLayout) ?_
    show parseName CandidateWindowLayout.name _ s'.candidateWindowLayout.name = _
    cases s'.candidateWindowLayout <;> decide
  | quanpinHelpcodeSchema => exact choose_some (if_pos (hoffered rfl))
  | shuangpinHelpcodeSchema => exact choose_some (if_pos (hoffered rfl))
  | voiceProvider =>
    refine (choose_some (if_pos (hoffered rfl))).trans (congrArg Except.ok ?_)
    -- the provider is the same, so its credential stays
    show { s with voice := { s.voice with
      provider := s'.voice.provider
      token := if s'.voice.provider = s.voice.provider then s.voice.token else [] } } = _
    rw [if_pos hsame.voice.symm]
    rfl
  | aiProvider =>
    have hname : parseAiProvider s'.online.ai.provider.name = some s'.online.ai.provider := by
      cases s'.online.ai.provider <;> decide
    refine (choose_some hname).trans (congrArg Except.ok ?_)
    show { s with online := { s.online with ai := { s.online.ai with
      provider := s'.online.ai.provider
      token := if s'.online.ai.provider = s.online.ai.provider then s.online.ai.token
        else [] } } } = _
    rw [if_pos hsame.ai.symm]
    rfl
  | voiceModel =>
    obtain ⟨hvalid, hne⟩ := validText_of_voiceText hs'.voiceModel
    rw [set]
    exact enterText_eq hvalid fun _ => hne
  | voiceLanguage =>
    obtain ⟨hvalid, hne⟩ := validText_of_voiceText hs'.voiceLanguage
    rw [set]
    exact enterText_eq hvalid fun _ => hne
  | voicePolishPrompt =>
    have hprompt := hs'.polishPrompt
    rw [validPolishPrompt, Bool.and_eq_true, Bool.not_eq_true'] at hprompt
    rw [set]
    refine enterText_eq ((validText_eq _ _ _).trans hprompt.1) fun _ hnil => ?_
    have hempty : s'.voice.polishPrompt.isEmpty = true := List.isEmpty_iff.mpr hnil
    rw [hempty] at hprompt
    cases hprompt.2
  | aiModel =>
    rw [set]
    exact enterText_eq ((validText_eq _ _ _).trans hs'.aiModel) (by simp)
  | aiPrompt =>
    rw [set]
    exact enterText_eq ((validText_eq _ _ _).trans hs'.aiPrompt) (by simp)
  | commaPeriodPaging | wordToCharacter | bracketPaging | smartPunctuation
  | smartPunctuationRepeatToChinese | pairedPunctuation | quanpinHelpcode | shuangpinHelpcode
  | showQuanpinHelpcode | showShuangpinHelpcode | unicodeMode | superJianpinMode
  | switchLanguageShift | switchLanguageCtrl | switchLanguageCtrlAltSpace
  | mixedEnglishCandidates | mixedEmojiCandidates | mixedKaomojiCandidates | quickPhraseMode
  | dateTimeMode | emojiMode | kaomojiMode | floatingToolbar | voiceEnabled
  | voicePolishEnabled | cloudEnabled | aiEnabled | translationEnabled =>
    exact choose_some (parseBool_boolValue _)
  | mode | defaultMode | scheme | punctuation | punctuationLock | width | preeditStyle
  | frequencyAdjustment | temporaryEnglishMode | temporaryJapaneseMode | clipboardHistory
  | voiceCredentialClear | voiceCredential | voiceEndpoint | voicePolishEndpoint
  | voicePolishModel | connectTimeoutMs | totalTimeoutMs | aiCredentialClear | aiCredential
  | aiEndpoint | translationProvider | translationCredentialClear | translationCredential
  | translationTargetLanguage | translationEndpoint =>
    exact absurd hr (by decide)

/-- A row with fields taken over shows those. -/
theorem row_takeFields {r : RowId} (hr : r.Shared) (p : RowId → Bool) (s s' : InputSettings) :
    (r.row (takeFields p s s')).value = bif p r then (r.row s').value else (r.row s).value := by
  cases hp : p r <;> cases r <;> first
    | exact absurd hr (by decide)
    | (simp only [row, boolRow, choiceRow, integerRow, textRow, takeFields, hp, cond_true,
        cond_false])

/-- What kind of row it is does not depend on the settings. -/
theorem control_row (r : RowId) (s s' : InputSettings) :
    (r.row s).control = (r.row s').control := by
  cases r <;> rfl

/-- A row that shows the same exports the same. -/
theorem preference_congr {r : RowId} {s s' : InputSettings}
    (h : (r.row s).value = (r.row s').value) : (r.row s).preference = (r.row s').preference := by
  unfold SettingsUiRow.preference
  rw [control_row r s s', h]

/-- **What a shared row exports is entered as what it shows.** -/
theorem preference_ok {supportedSchema : Bytes → Bool} {r : RowId} (hr : r.Shared)
    {s : InputSettings} (hs : s.ValidFields supportedSchema) (s' : InputSettings) :
    ∃ value, (r.row s).preference = .ok value ∧
      (r.row s').localValue value = .ok (r.row s).value := by
  have hint : ∀ n : Int, 0 ≤ n → n ≤ 10000 → Int64.minValue.toInt ≤ n ∧
      n ≤ Int64.maxValue.toInt ∧ (Int64.ofInt n).toInt = n := by
    intro n h0 h1
    have hmin : Int64.minValue.toInt = -2 ^ 63 := by decide
    have hmax : Int64.maxValue.toInt = 2 ^ 63 - 1 := by decide
    refine ⟨by omega, by omega, Int64.toInt_ofInt_of_le (by omega) (by omega)⟩
  -- the three kinds of shared rows: numbers,
  have hinteger : ∀ (current shown : SettingsUiRow) (n : Int), shown.control = .integer →
      shown.value = encodeInt n → current.control = .integer → 0 ≤ n → n ≤ 10000 →
      ∃ value, shown.preference = .ok value ∧ current.localValue value = .ok shown.value := by
    intro current shown n hcontrol hvalue hcurrent h0 h1
    obtain ⟨hmin, hmax, hn⟩ := hint n h0 h1
    refine ⟨.int64 (.ofInt n), ?_, ?_⟩
    · simp only [SettingsUiRow.preference, hcontrol, hvalue, decodeInt_encodeInt]
      exact if_pos ⟨hmin, hmax⟩
    · simp only [SettingsUiRow.localValue, hcurrent, hvalue, hn]
  -- switches,
  have hboolean : ∀ b : Bool, boolValue (boolValue b == ascii "true") = boolValue b := by
    intro b
    cases b <;> decide
  cases r with
  | pageSize =>
    have hsize := hs.pageSize
    exact hinteger _ _ s.pageSize rfl rfl rfl (by omega) (by omega)
  | mixedEnglishMinimumPrefix =>
    have hprefix := hs.mixedEnglishMinimumPrefix
    exact hinteger _ _ s.mixedEnglishMinimumPrefix rfl rfl rfl (by omega) (by omega)
  | aiCandidateLimit =>
    have hlimit := hs.aiCandidateLimit
    exact hinteger _ _ s.online.ai.candidateLimit rfl rfl rfl (by omega) (by omega)
  | frequencyTriggerCount =>
    have hcount := hs.frequencyTriggerCount
    exact hinteger _ _ s.frequencyTriggerCount rfl rfl rfl (by omega) (by omega)
  | frequencyLinearStep =>
    have hstep := hs.frequencyLinearStep
    exact hinteger _ _ s.frequencyLinearStep rfl rfl rfl (by omega) (by omega)
  -- and texts, which go through as they are
  | candidateWindowLayout | quanpinHelpcodeSchema | shuangpinHelpcodeSchema | voiceProvider
  | aiProvider | voiceModel | voiceLanguage | voicePolishPrompt | aiModel | aiPrompt =>
    exact ⟨_, rfl, rfl⟩
  | commaPeriodPaging | wordToCharacter | bracketPaging | smartPunctuation
  | smartPunctuationRepeatToChinese | pairedPunctuation | quanpinHelpcode | shuangpinHelpcode
  | showQuanpinHelpcode | showShuangpinHelpcode | unicodeMode | superJianpinMode
  | switchLanguageShift | switchLanguageCtrl | switchLanguageCtrlAltSpace
  | mixedEnglishCandidates | mixedEmojiCandidates | mixedKaomojiCandidates | quickPhraseMode
  | dateTimeMode | emojiMode | kaomojiMode | floatingToolbar | voiceEnabled
  | voicePolishEnabled | cloudEnabled | aiEnabled | translationEnabled =>
    exact ⟨_, rfl, congrArg Except.ok (hboolean _)⟩
  -- the rows that are not shared
  | mode | defaultMode | scheme | punctuation | punctuationLock | width | preeditStyle
  | frequencyAdjustment | temporaryEnglishMode | temporaryJapaneseMode | clipboardHistory
  | voiceCredentialClear | voiceCredential | voiceEndpoint | voicePolishEndpoint
  | voicePolishModel | connectTimeoutMs | totalTimeoutMs | aiCredentialClear | aiCredential
  | aiEndpoint | translationProvider | translationCredentialClear | translationCredential
  | translationTargetLanguage | translationEndpoint =>
    exact absurd hr (by decide)

end RowId

/-! ## What is exported -/

theorem boundRow_mem {key : Bytes} {r : RowId} (h : boundRow key = some r) :
    (r, key) ∈ cloudBindings := by
  obtain ⟨b, hb, rfl⟩ := Option.map_eq_some_iff.mp h
  have hkey : (b.2 == key) = true := List.find?_some (p := fun b : RowId × Bytes => b.2 == key) hb
  obtain rfl : b.2 = key := beq_iff_eq.mp hkey
  exact List.mem_of_find?_eq_some hb

theorem boundRow_shared {key : Bytes} {r : RowId} (h : boundRow key = some r) : r.Shared :=
  List.mem_map_of_mem (f := Prod.fst) (boundRow_mem h)

/-- Every row is shared under one name. -/
theorem boundRow_inj {key key' : Bytes} {r : RowId} (h : boundRow key = some r)
    (h' : boundRow key' = some r) : key = key' := by
  have hnodup : (cloudBindings.map Prod.fst).Nodup := by decide
  exact congrArg Prod.snd (List.inj_on_of_nodup_map hnodup (boundRow_mem h) (boundRow_mem h') rfl)

/-- The names are all different. -/
theorem boundRow_of_mem {key : Bytes} {r : RowId} (h : (r, key) ∈ cloudBindings) :
    boundRow key = some r := by
  have hall : (cloudBindings.all fun b => boundRow b.2 == some b.1) = true := by
    decide +kernel
  exact beq_iff_eq.mp (List.all_eq_true.mp hall (r, key) h)

/-- A shared row has a name. -/
theorem exists_boundRow {r : RowId} (h : r.Shared) : ∃ key, boundRow key = some r := by
  obtain ⟨b, hb, rfl⟩ := List.mem_map.mp h
  exact ⟨b.2, boundRow_of_mem hb⟩

/-- The entries of an exported part: those of the first row of each name. -/
theorem foldlM_exportRow {s : InputSettings} {bs : List (RowId × Bytes)}
    (hbs : ∀ b ∈ bs, ∃ value, (b.1.row s).preference = .ok value) (exported : PreferenceSettings) :
    ∃ result, bs.foldlM (exportRow s) exported = .ok result ∧ ∀ key value,
      result.lookup key = some value ↔ exported.lookup key = some value ∨
        exported.lookup key = none ∧ ∃ b, bs.find? (fun b => b.2 == key) = some b ∧
          (b.1.row s).preference = .ok value := by
  induction bs generalizing exported with
  | nil => exact ⟨exported, rfl, fun key value => by simp⟩
  | cons b bs ih =>
    obtain ⟨first, hfirst⟩ := hbs b List.mem_cons_self
    obtain ⟨result, hresult, hlookup⟩ := ih (fun c hc => hbs c (List.mem_cons_of_mem _ hc))
      (if b.2 ∈ exported then exported else exported.insert b.2 first)
    have hrow : exportRow s exported b =
        .ok (if b.2 ∈ exported then exported else exported.insert b.2 first) := by
      rw [exportRow, hfirst]
      rfl
    refine ⟨result, ?_, fun key value => ?_⟩
    · rw [List.foldlM_cons, hrow]
      exact hresult
    · rw [hlookup, List.find?_cons]
      by_cases hkey : b.2 = key
      · -- the first row of a name wins, as `emplace` has it
        obtain rfl := hkey
        by_cases hmem : b.2 ∈ exported
        · have hne : exported.lookup b.2 ≠ none := fun h => Finmap.lookup_eq_none.mp h hmem
          simp [hmem, hne]
        · have hnone : exported.lookup b.2 = none := Finmap.lookup_eq_none.mpr hmem
          simp [hmem, hnone, hfirst]
      · have hother : (if b.2 ∈ exported then exported else exported.insert b.2 first).lookup key =
            exported.lookup key := by
          split
          · rfl
          · exact Finmap.lookup_insert_of_ne _ (Ne.symm hkey)
        rw [hother, beq_false_of_ne hkey]

/-- `exported` is what the settings export. -/
def Exports (s : InputSettings) (exported : PreferenceSettings) : Prop :=
  ∀ key value, exported.lookup key = some value ↔
    ∃ r, boundRow key = some r ∧ (r.row s).preference = .ok value

/-- **The exported settings**: what each shared row shows, under its name. -/
theorem exportSettings_ok {supportedSchema : Bytes → Bool} {s : InputSettings}
    (hs : s.ValidFields supportedSchema) :
    ∃ exported, exportSettings s = .ok exported ∧ Exports s exported := by
  have hrows : ∀ b ∈ cloudBindings, ∃ value, (b.1.row s).preference = .ok value := by
    intro b hb
    have hshared : b.1.Shared := List.mem_map_of_mem (f := Prod.fst) hb
    obtain ⟨value, hvalue, -⟩ := RowId.preference_ok hshared hs s
    exact ⟨value, hvalue⟩
  obtain ⟨exported, hok, hlookup⟩ := foldlM_exportRow hrows ∅
  refine ⟨exported, hok, fun key value => ?_⟩
  rw [hlookup]
  simp [boundRow]

/-! ## Fields that are taken over -/

theorem takeFields_self (p : RowId → Bool) (s : InputSettings) : takeFields p s s = s := by
  simp only [takeFields, Bool.cond_self]

/-- The rows that are not shared have no field to take over. -/
theorem takeFields_unshared (s s' : InputSettings) :
    takeFields (fun r => !decide r.Shared) s s' = s := by
  rfl

theorem SameProviders.takeFields {s s' : InputSettings} (h : SameProviders s s')
    (p : RowId → Bool) : SameProviders (takeFields p s s') s' := by
  constructor
  · show (bif p .aiProvider then s'.online.ai.provider else s.online.ai.provider) = _
    rw [h.ai, Bool.cond_self]
  · show (bif p .voiceProvider then s'.voice.provider else s.voice.provider) = _
    rw [h.voice, Bool.cond_self]

theorem SameProviders.refl (s : InputSettings) : SameProviders s s := ⟨rfl, rfl⟩

/-- A row that shows the same in both has nothing to take over. -/
theorem takeFields_eq_self_iff {supportedSchema : Bytes → Bool} {r : RowId} (hr : r.Shared)
    {s s' : InputSettings} (hs : s.ValidFields supportedSchema)
    (hs' : s'.ValidFields supportedSchema) (hoffered : r.Offered s')
    (hsame : SameProviders s s') :
    takeFields (· == r) s s' = s ↔ (r.row s).value = (r.row s').value := by
  constructor
  · intro h
    have hvalue := RowId.row_takeFields hr (· == r) s s'
    rw [h, beq_self_eq_true, cond_true] at hvalue
    exact hvalue
  · intro h
    have hown : r.Offered s := by
      intro hcontrol
      rw [h]
      have hchoices : (r.row s).choices = (r.row s').choices := by
        cases r <;> rfl
      rw [hchoices]
      exact hoffered ((RowId.control_row r s' s).trans hcontrol)
    -- entering what is shown gives the same settings, whoever shows it
    have htake := @RowId.set_row orderedModes _ _ hr s _ hs' hoffered hsame
    have hkeep := @RowId.set_row orderedModes _ _ hr s _ hs hown (SameProviders.refl s)
    rw [h, htake, takeFields_self] at hkeep
    exact Except.ok.inj hkeep

/-- Fields of valid settings are valid wherever they stand. -/
theorem takeFields_validFields {supportedSchema : Bytes → Bool} {s s' : InputSettings}
    (hs : s.ValidFields supportedSchema) (hs' : s'.ValidFields supportedSchema)
    (p : RowId → Bool) : (takeFields p s s').ValidFields supportedSchema := by
  have hcond : ∀ {α : Type} (P : α → Prop) (b : Bool) (x y : α), P x → P y →
      P (bif b then x else y) := by
    intro α P b x y hx hy
    cases b
    · exact hy
    · exact hx
  exact
    { hs with
      pageSize := hcond (fun n => 3 ≤ n ∧ n ≤ 9) _ _ _ hs'.pageSize hs.pageSize
      quanpinHelpcodeSchema :=
        hcond (supportedSchema · = true) _ _ _ hs'.quanpinHelpcodeSchema hs.quanpinHelpcodeSchema
      shuangpinHelpcodeSchema := hcond (supportedSchema · = true) _ _ _
        hs'.shuangpinHelpcodeSchema hs.shuangpinHelpcodeSchema
      frequencyTriggerCount := hcond (fun n => 1 ≤ n ∧ n ≤ 10) _ _ _
        hs'.frequencyTriggerCount hs.frequencyTriggerCount
      frequencyLinearStep := hcond (fun n => 1 ≤ n ∧ n ≤ 10) _ _ _
        hs'.frequencyLinearStep hs.frequencyLinearStep
      mixedEnglishMinimumPrefix := hcond (fun n => 1 ≤ n ∧ n ≤ 8) _ _ _
        hs'.mixedEnglishMinimumPrefix hs.mixedEnglishMinimumPrefix
      aiModel := hcond (validModel · = true) _ _ _ hs'.aiModel hs.aiModel
      aiPrompt := hcond (validPrompt · = true) _ _ _ hs'.aiPrompt hs.aiPrompt
      aiCandidateLimit := hcond (fun n => 1 ≤ n ∧ n ≤ 10) _ _ _
        hs'.aiCandidateLimit hs.aiCandidateLimit
      voiceProvider := hcond (validVoiceText 64 · = true) _ _ _ hs'.voiceProvider hs.voiceProvider
      voiceModel := hcond (validVoiceText 256 · = true) _ _ _ hs'.voiceModel hs.voiceModel
      voiceLanguage :=
        hcond (validVoiceText 32 · = true) _ _ _ hs'.voiceLanguage hs.voiceLanguage
      polishPrompt := hcond (validPolishPrompt · = true) _ _ _ hs'.polishPrompt hs.polishPrompt }

/-! ## A download -/

/-- The change of an entry, if the settings differ there. -/
def fieldChange (exported exported' : PreferenceSettings) (key : Bytes) : Option SettingsChange :=
  match exported.lookup key, exported'.lookup key with
  | some before, some after => if before = after then none else some ⟨key, before, after⟩
  | _, _ => none

/-- The preview after some entries: the rows of `p` are taken over. -/
def previewOf (s s' : InputSettings) (exported exported' : PreferenceSettings)
    (p : RowId → Bool) (keys : List Bytes) : SettingsPreview where
  settings := takeFields p s s'
  changes := keys.filterMap (fieldChange exported exported')
  unsupportedFields := keys.filter fun key => boundRow key == none

section

variable {supportedSchema : Bytes → Bool} {s s' : InputSettings}
  {exported exported' : PreferenceSettings}

theorem Exports.lookup (h : Exports s exported) (hs : s.ValidFields supportedSchema)
    {key : Bytes} {r : RowId} (hr : boundRow key = some r) :
    ∃ value, exported.lookup key = some value ∧ (r.row s).preference = .ok value ∧
      ∀ t, (r.row t).localValue value = .ok (r.row s).value := by
  obtain ⟨value, hvalue, -⟩ := RowId.preference_ok (boundRow_shared hr) hs s
  refine ⟨value, (h key value).mpr ⟨r, hr, hvalue⟩, hvalue, fun t => ?_⟩
  obtain ⟨value', hvalue', htext⟩ := RowId.preference_ok (boundRow_shared hr) hs t
  obtain rfl := Except.ok.inj (hvalue.symm.trans hvalue')
  exact htext

/-- An unbound name is not exported. -/
theorem Exports.lookup_unbound (h : Exports s exported) {key : Bytes}
    (hkey : boundRow key = none) : exported.lookup key = none := by
  refine Option.eq_none_iff_forall_ne_some.mpr fun value hvalue => ?_
  obtain ⟨r, hr, -⟩ := (h key value).mp hvalue
  rw [hkey] at hr
  cases hr

/-- The entry of a shared row. -/
theorem downloadEntry_bound [FrequencyEnum] {remote : PreferenceSettings}
    {preview : SettingsPreview} {key text : Bytes} {value before : PreferenceValue} {r : RowId}
    (hvalue : remote.lookup key = some value) (hr : boundRow key = some r)
    (hcurrent : (r.row preview.settings).preference = .ok before)
    (htext : (r.row preview.settings).localValue value = .ok text) :
    downloadEntry remote preview key = if before = value then .ok preview else
      match r.set preview.settings text with
      | .error _ => .error .badRequest
      | .ok settings => .ok { preview with
          settings := settings, changes := preview.changes ++ [⟨key, before, value⟩] } := by
  have hset : settingsSet preview.settings r.id text = r.set preview.settings text := by
    rw [settingsSet, RowId.ofId_id]
  unfold downloadEntry
  rw [hvalue, hr]
  simp only [hcurrent, htext]
  show (if before = value then Except.ok preview else
    match settingsSet preview.settings r.id text with
    | .error _ => Except.error MapperError.badRequest
    | .ok settings => Except.ok _) = _
  rw [hset]

/-- **One entry**: its row is taken over, and a change noted if it was another. -/
theorem downloadEntry_eq [FrequencyEnum] (hs : s.ValidFields supportedSchema)
    (hs' : s'.ValidFields supportedSchema) (hoffered : ∀ r : RowId, r.Shared → r.Offered s')
    (hsame : SameProviders s s') (hE : Exports s exported) (hE' : Exports s' exported')
    {remote : PreferenceSettings} {p : RowId → Bool} {keys : List Bytes} {key : Bytes}
    (hmem : key ∈ remote)
    (hremote : ∀ r, boundRow key = some r → remote.lookup key = exported'.lookup key)
    (hp : ∀ r, boundRow key = some r → p r = false) :
    downloadEntry remote (previewOf s s' exported exported' p keys) key =
      .ok (previewOf s s' exported exported' (fun r => boundRow key == some r || p r)
        (keys ++ [key])) := by
  obtain ⟨value, hvalue⟩ := Option.ne_none_iff_exists'.mp
    fun h => Finmap.lookup_eq_none.mp h hmem
  cases hr : boundRow key with
  | none =>
    -- no row is bound to the key, and the entry is passed over
    unfold downloadEntry
    rw [hvalue, hr]
    have hchange : fieldChange exported exported' key = none := by
      rw [fieldChange, hE.lookup_unbound hr]
    simp [previewOf, hchange, hr, List.filterMap_append, List.filter_append]
  | some r =>
    obtain ⟨before, hbefore, hshown, -⟩ := hE.lookup hs hr
    obtain ⟨after, hafter, hshown', htext⟩ := hE'.lookup hs' hr
    have hshared := boundRow_shared hr
    obtain rfl : value = after := by
      have := hvalue.symm.trans ((hremote r hr).trans hafter)
      exact Option.some.inj this
    -- the row shows what the settings held at first, since its key has not come before
    have hcurrent : (r.row (takeFields p s s')).preference = .ok before := by
      rw [← hshown]
      refine RowId.preference_congr ?_
      rw [RowId.row_takeFields hshared, hp r hr, cond_false]
    have hrow : ∀ x, (some r == some x) = (x == r) := by
      intro x
      rw [Bool.eq_iff_iff, beq_iff_eq, beq_iff_eq, Option.some.injEq, eq_comm]
    have htaken : takeFields (fun x => some r == some x || p x) s s' =
        takeFields (· == r) (takeFields p s s') s' := by
      rw [takeFields_takeFields]
      simp only [hrow]
    have hkeys : (keys ++ [key]).filter (fun key => boundRow key == none) =
        keys.filter fun key => boundRow key == none := by
      simp [List.filter_append, hr]
    rw [downloadEntry_bound hvalue hr hcurrent (htext _)]
    by_cases hchanged : before = value
    · -- the rows show the same, and there is nothing to take over
      obtain rfl := hchanged
      have hsameText : (r.row s).value = (r.row s').value := by
        obtain ⟨value', hvalue', -, htext'⟩ := hE.lookup hs hr
        obtain rfl : before = value' := Option.some.inj (hbefore.symm.trans hvalue')
        exact Except.ok.inj ((htext' s).symm.trans (htext s))
      have hfields : takeFields (· == r) s s' = s :=
        (takeFields_eq_self_iff hshared hs hs' (hoffered r hshared) hsame).mpr hsameText
      have hchanges : (keys ++ [key]).filterMap (fieldChange exported exported') =
          keys.filterMap (fieldChange exported exported') := by
        have hchange : fieldChange exported exported' key = none := by
          rw [fieldChange, hbefore, hafter]
          exact if_pos rfl
        simp [List.filterMap_append, hchange]
      have hcomm : takeFields (fun x => some r == some x || p x) s s' = takeFields p s s' := by
        conv_rhs => rw [← hfields]
        rw [takeFields_takeFields]
        simp only [hrow, Bool.or_comm]
      rw [if_pos rfl]
      simp only [previewOf, hcomm, hchanges, hkeys]
    · -- the row is set to what the page shows, and the change is noted
      have hchanges : (keys ++ [key]).filterMap (fieldChange exported exported') =
          keys.filterMap (fieldChange exported exported') ++ [⟨key, before, value⟩] := by
        have hchange : fieldChange exported exported' key = some ⟨key, before, value⟩ := by
          rw [fieldChange, hbefore, hafter]
          exact if_neg hchanged
        simp [List.filterMap_append, hchange]
      have hset := RowId.set_row (s := takeFields p s s') hshared hs' (hoffered r hshared)
        (hsame.takeFields p)
      rw [if_neg hchanged]
      simp only [previewOf, hset, htaken, hchanges, hkeys]

/-- **The entries of a document** that has what `s'` exports, one after the other. -/
theorem foldlM_downloadEntry [FrequencyEnum] (hs : s.ValidFields supportedSchema)
    (hs' : s'.ValidFields supportedSchema) (hoffered : ∀ r : RowId, r.Shared → r.Offered s')
    (hsame : SameProviders s s') (hE : Exports s exported) (hE' : Exports s' exported')
    {remote : PreferenceSettings}
    (hremote : ∀ key r, boundRow key = some r → remote.lookup key = exported'.lookup key)
    (keys : List Bytes) (hkeys : keys.Nodup) (hmem : ∀ key ∈ keys, key ∈ remote)
    (p : RowId → Bool) (done : List Bytes)
    (hp : ∀ key ∈ keys, ∀ r, boundRow key = some r → p r = false) :
    keys.foldlM (downloadEntry remote) (previewOf s s' exported exported' p done) =
      .ok (previewOf s s' exported exported'
        (fun r => keys.any (fun key => boundRow key == some r) || p r) (done ++ keys)) := by
  induction keys generalizing p done with
  | nil => simp [previewOf, pure, Except.pure]
  | cons key keys ih =>
    obtain ⟨hnotMem, hnodup⟩ := List.nodup_cons.mp hkeys
    have hstep : downloadEntry remote (previewOf s s' exported exported' p done) key =
        .ok (previewOf s s' exported exported' (fun r => boundRow key == some r || p r)
          (done ++ [key])) :=
      downloadEntry_eq hs hs' hoffered hsame hE hE' (hmem key List.mem_cons_self)
        (fun r => hremote key r) (hp key List.mem_cons_self)
    rw [List.foldlM_cons, hstep]
    show keys.foldlM (downloadEntry remote) _ = _
    rw [ih hnodup (fun k hk => hmem k (List.mem_cons_of_mem _ hk)) _ _ ?_]
    · simp only [List.any_cons, List.append_assoc, List.singleton_append]
      refine congrArg (fun p => Except.ok (previewOf s s' exported exported' p _)) ?_
      funext r
      rw [← Bool.or_assoc, Bool.or_comm (keys.any _)]
    · intro k hk r hr
      rw [hp k (List.mem_cons_of_mem _ hk) r hr, Bool.or_false, beq_eq_false_iff_ne]
      intro hkey
      exact hnotMem (boundRow_inj hkey hr ▸ hk)

/-- **A download** of a document that has what `s'` exports. -/
theorem prepareDownload_eq [FrequencyEnum] (hs : s.ValidFields supportedSchema)
    (hs' : s'.ValidFields supportedSchema) (hoffered : ∀ r : RowId, r.Shared → r.Offered s')
    (hsame : SameProviders s s') (hE' : Exports s' exported') {remote : Preferences}
    (hremote : ∀ key r, boundRow key = some r →
      remote.settings.lookup key = exported'.lookup key) :
    ∃ exported, exportSettings s = .ok exported ∧ Exports s exported ∧
      prepareDownload s remote = .ok (previewOf s s' exported exported' (fun _ => true)
        (remote.settings.keys.sort (· ≤ ·))) := by
  obtain ⟨exported, hok, hE⟩ := exportSettings_ok hs
  refine ⟨exported, hok, hE, ?_⟩
  have hproviders : providerModels.any (redirects exported remote.settings) = false := by
    -- the document has the providers, and they are those of `s`
    have hpair : ∀ provider model : Bytes, ∀ r : RowId, boundRow provider = some r →
        (r.row s).value = (r.row s').value →
        redirects exported remote.settings (provider, model) = false := by
      intro provider model r hr hvalue
      obtain ⟨value, hlookup, hshown, -⟩ := hE.lookup hs hr
      obtain ⟨value', hlookup', hshown', -⟩ := hE'.lookup hs' hr
      obtain rfl : value = value' := by
        rw [RowId.preference_congr hvalue, hshown'] at hshown
        exact (Except.ok.inj hshown).symm
      rw [redirects, hremote provider r hr, hlookup', hlookup]
      exact bne_self_eq_false _
    rw [providerModels, List.any_cons, List.any_cons, List.any_nil,
      hpair _ _ .aiProvider (boundRow_of_mem (by simp [cloudBindings]))
        (congrArg AiProvider.name hsame.ai),
      hpair _ _ .voiceProvider (boundRow_of_mem (by simp [cloudBindings])) hsame.voice]
    rfl
  have hkeys := foldlM_downloadEntry hs hs' hoffered hsame hE hE' hremote
    (remote.settings.keys.sort (· ≤ ·)) (Finset.sort_nodup _ _)
    (fun key hkey => (Finset.mem_sort _).mp hkey) (fun r => !decide r.Shared) []
    (fun key _ r hr => by simp [boundRow_shared hr])
  have hstart : previewOf s s' exported exported' (fun r => !decide r.Shared) [] =
      { settings := s } := by
    rw [previewOf, takeFields_unshared]
    rfl
  have hall : (fun r => (remote.settings.keys.sort (· ≤ ·)).any
      (fun key => boundRow key == some r) || !decide r.Shared) = fun _ => true := by
    funext r
    by_cases hr : r.Shared
    · obtain ⟨key, hkey⟩ := exists_boundRow hr
      have hmem : key ∈ remote.settings := by
        obtain ⟨value, hlookup, -⟩ := hE'.lookup hs' hkey
        rw [← hremote key r hkey] at hlookup
        exact Finmap.mem_of_lookup_eq_some hlookup
      rw [Bool.or_eq_true]
      exact .inl (List.any_eq_true.mpr ⟨key, (Finset.mem_sort _).mpr hmem, beq_iff_eq.mpr hkey⟩)
    · simp [hr]
  rw [hstart, hall, List.nil_append] at hkeys
  rw [prepareDownload, hok]
  show (do
    if providerModels.any (redirects exported remote.settings) = true then
      throw MapperError.badRequest
    (remote.settings.keys.sort (· ≤ ·)).foldlM (downloadEntry remote.settings)
      { settings := s }) = _
  rw [hproviders, hkeys]
  rfl

/-- An upload has what is exported, and otherwise what the document had. -/
theorem prepareUpload_ok (hs' : s'.ValidFields supportedSchema) (remote : Preferences) :
    ∃ exported' upload, Exports s' exported' ∧ prepareUpload s' remote = .ok upload ∧
      upload = { remote with settings := exported' ∪ remote.settings } := by
  obtain ⟨exported', hok, hE'⟩ := exportSettings_ok hs'
  refine ⟨exported', _, hE', ?_, rfl⟩
  rw [prepareUpload, hok]
  rfl

theorem Exports.unique (h : Exports s exported) (h' : Exports s exported') :
    exported = exported' :=
  Finmap.ext_lookup fun key => Option.ext fun value => (h key value).trans (h' key value).symm

/-- Settings that show the same in the shared rows export the same. -/
theorem Exports.congr (h : Exports s exported)
    (hrows : ∀ r : RowId, r.Shared → (r.row s).value = (r.row s').value) :
    Exports s' exported := by
  intro key value
  rw [h key value]
  refine exists_congr fun r => and_congr_right fun hr => ?_
  rw [RowId.preference_congr (hrows r (boundRow_shared hr))]

theorem row_withCloudFields {r : RowId} (hr : r.Shared) (s s' : InputSettings) :
    (r.row (withCloudFields s s')).value = (r.row s').value := by
  rw [withCloudFields, RowId.row_takeFields hr, cond_true]

/-- A change is noted where the shared rows show something else. -/
theorem mem_fieldChange (hs : s.ValidFields supportedSchema)
    (hs' : s'.ValidFields supportedSchema) (hoffered : ∀ r : RowId, r.Shared → r.Offered s')
    (hsame : SameProviders s s') (hE : Exports s exported) (hE' : Exports s' exported')
    {key : Bytes} :
    (∃ change, fieldChange exported exported' key = some change) ↔
      ∃ r, boundRow key = some r ∧ takeFields (· == r) s s' ≠ s := by
  cases hr : boundRow key with
  | none =>
    rw [fieldChange, hE.lookup_unbound hr]
    simp
  | some r =>
    obtain ⟨before, hbefore, hshown, htext⟩ := hE.lookup hs hr
    obtain ⟨after, hafter, hshown', htext'⟩ := hE'.lookup hs' hr
    have hshared := boundRow_shared hr
    have hvalue : before = after ↔ (r.row s).value = (r.row s').value := by
      constructor
      · rintro rfl
        exact Except.ok.inj ((htext s).symm.trans (htext' s))
      · intro h
        rw [RowId.preference_congr h] at hshown
        exact Except.ok.inj (hshown.symm.trans hshown')
    simp only [fieldChange, hbefore, hafter, Option.some.injEq, exists_eq_left', ne_eq,
      takeFields_eq_self_iff hshared hs hs' (hoffered r hshared) hsame, ← hvalue]
    by_cases h : before = after <;> simp [h]

/-- The name of a change is the name of its entry. -/
theorem field_of_fieldChange {key : Bytes} {change : SettingsChange}
    (h : fieldChange exported exported' key = some change) :
    change.field = key ∧ exported.lookup key = some change.before ∧
      exported'.lookup key = some change.after := by
  unfold fieldChange at h
  split at h
  · next before after hbefore hafter =>
    split at h
    · cases h
    · obtain rfl := Option.some.inj h
      exact ⟨rfl, hbefore, hafter⟩
  · cases h

/-- The names of the changes are the names of their entries, in order. -/
theorem map_field_changes (keys : List Bytes) :
    (keys.filterMap (fieldChange exported exported')).map SettingsChange.field =
      keys.filter fun key => (fieldChange exported exported' key).isSome := by
  induction keys with
  | nil => rfl
  | cons key keys ih =>
    cases h : fieldChange exported exported' key with
    | none => simp [h, ih]
    | some change => simp [h, ih, (field_of_fieldChange h).1]

/-- Where the same is exported nothing changes. -/
theorem fieldChange_self (key : Bytes) : fieldChange exported exported key = none := by
  unfold fieldChange
  cases exported.lookup key with
  | none => rfl
  | some value => exact if_pos rfl

/-- Who exports what a document already has leaves it as it is. -/
theorem prepareUpload_again {t : InputSettings} (hok : exportSettings t = .ok exported)
    (remote : Preferences) :
    prepareUpload t { remote with settings := exported ∪ remote.settings } =
      .ok { remote with settings := exported ∪ remote.settings } := by
  have hunion : exported ∪ (exported ∪ remote.settings) = exported ∪ remote.settings := by
    refine Finmap.ext_lookup fun key => ?_
    by_cases hkey : key ∈ exported
    · rw [Finmap.lookup_union_left hkey, Finmap.lookup_union_left hkey]
    · rw [Finmap.lookup_union_right hkey]
  rw [prepareUpload, hok]
  exact congrArg (fun settings => Except.ok { remote with settings := settings }) hunion

/-- **Upload and download.** What one machine uploads, another with the same providers
takes over: its settings get the shared fields and keep all others, the preview names
the fields that differed, the document keeps what the mapper does not know, and doing
either again changes nothing. -/
theorem download_upload [FrequencyEnum] (hs : validInputSettings supportedSchema s = true)
    (hs' : validInputSettings supportedSchema s' = true) (hsame : SameProviders s s')
    (hoffered : ∀ r : RowId, r.Shared → r.Offered s') (remote : Preferences) :
    ∃ upload preview, prepareUpload s' remote = .ok upload ∧
      prepareDownload s upload = .ok preview ∧
      preview.settings = withCloudFields s s' ∧
      (preview.changes.map SettingsChange.field).Nodup ∧
      (∀ key, key ∈ preview.changes.map SettingsChange.field ↔
        ∃ r, boundRow key = some r ∧ takeFields (· == r) s s' ≠ s) ∧
      (∀ change ∈ preview.changes, ∃ r, boundRow change.field = some r ∧
        (r.row s).preference = .ok change.before ∧
        (r.row s').preference = .ok change.after) ∧
      upload.revision = remote.revision ∧
      (∀ key, boundRow key = none →
        upload.settings.lookup key = remote.settings.lookup key) ∧
      prepareUpload s' upload = .ok upload ∧
      prepareUpload preview.settings upload = .ok upload ∧
      prepareDownload preview.settings upload = .ok { preview with changes := [] } := by
  have hs := (validInputSettings_iff.mp hs).toValidFields
  have hs' := (validInputSettings_iff.mp hs').toValidFields
  obtain ⟨exported', upload, hE', hupload, rfl⟩ := prepareUpload_ok hs' remote
  have hbound : ∀ key r, boundRow key = some r →
      (exported' ∪ remote.settings).lookup key = exported'.lookup key := by
    intro key r hr
    obtain ⟨value, hvalue, -⟩ := hE'.lookup hs' hr
    exact Finmap.lookup_union_left (Finmap.mem_of_lookup_eq_some hvalue)
  have hunbound : ∀ key, boundRow key = none →
      (exported' ∪ remote.settings).lookup key = remote.settings.lookup key := by
    intro key hkey
    exact Finmap.lookup_union_right (Finmap.lookup_eq_none.mp (hE'.lookup_unbound hkey))
  let upload : Preferences := { remote with settings := exported' ∪ remote.settings }
  obtain ⟨exported, -, hE, hdownload⟩ :
      ∃ exported, exportSettings s = .ok exported ∧ Exports s exported ∧
        prepareDownload s upload = .ok (previewOf s s' exported exported' (fun _ => true)
          (upload.settings.keys.sort (· ≤ ·))) :=
    prepareDownload_eq hs hs' hoffered hsame hE' hbound
  -- the settings that come out have all shared fields of `s'`, and export the same
  have hresult : (withCloudFields s s').ValidFields supportedSchema :=
    takeFields_validFields hs hs' _
  have hrows : ∀ r : RowId, r.Shared →
      (r.row s').value = (r.row (withCloudFields s s')).value :=
    fun r hr => (row_withCloudFields hr s s').symm
  have hown : ∀ t : InputSettings, t.ValidFields supportedSchema → Exports t exported' →
      exportSettings t = .ok exported' := by
    intro t ht hexports
    obtain ⟨own, hok, hown⟩ := exportSettings_ok ht
    rw [hok, hown.unique hexports]
  obtain ⟨exported₂, -, hE₂, hagain⟩ :
      ∃ exported, exportSettings (withCloudFields s s') = .ok exported ∧
        Exports (withCloudFields s s') exported ∧
        prepareDownload (withCloudFields s s') upload =
          .ok (previewOf (withCloudFields s s') s' exported exported' (fun _ => true)
            (upload.settings.keys.sort (· ≤ ·))) :=
    prepareDownload_eq hresult hs' hoffered (hsame.takeFields _) hE' hbound
  obtain rfl := hE₂.unique (hE'.congr hrows)
  refine ⟨_, _, hupload, hdownload, rfl, ?_, fun key => ?_, fun change hchange => ?_, rfl,
    hunbound, prepareUpload_again (hown s' hs' hE') remote,
    prepareUpload_again (hown _ hresult (hE'.congr hrows)) remote, ?_⟩
  · show ((List.filterMap _ _).map SettingsChange.field).Nodup
    rw [map_field_changes]
    exact (Finset.sort_nodup _ _).filter _
  · show key ∈ (List.filterMap _ _).map SettingsChange.field ↔ _
    rw [map_field_changes, List.mem_filter, Option.isSome_iff_exists,
      mem_fieldChange hs hs' hoffered hsame hE hE']
    refine ⟨And.right, fun h => ⟨?_, h⟩⟩
    obtain ⟨r, hr, -⟩ := h
    obtain ⟨value, hvalue, -⟩ := hE'.lookup hs' hr
    rw [← hbound key r hr] at hvalue
    exact (Finset.mem_sort _).mpr (Finmap.mem_of_lookup_eq_some hvalue)
  · obtain ⟨key, -, hkey⟩ := List.mem_filterMap.mp hchange
    obtain ⟨rfl, hbefore, hafter⟩ := field_of_fieldChange hkey
    obtain ⟨r, hr, hshown⟩ := (hE _ _).mp hbefore
    obtain ⟨r', hr', hshown'⟩ := (hE' _ _).mp hafter
    obtain rfl : r = r' := Option.some.inj (hr.symm.trans hr')
    exact ⟨r, hr, hshown, hshown'⟩
  · refine hagain.trans (congrArg Except.ok ?_)
    have htwice : takeFields (fun _ => true) (withCloudFields s s') s' = withCloudFields s s' := by
      rw [withCloudFields, takeFields_takeFields]
      rfl
    have hnone : ∀ keys : List Bytes,
        keys.filterMap (fieldChange exported₂ exported₂) = [] := by
      intro keys
      rw [List.filterMap_eq_nil_iff]
      exact fun key _ => fieldChange_self key
    rw [previewOf, htwice, hnone]
    rfl

end

/-- A machine uploads its settings over a document with a field nobody here knows, and
a fresh one takes them over. -/
theorem download_upload_fresh :
    ∃ (_ : FrequencyEnum) (upload : Preferences) (preview : SettingsPreview),
      prepareUpload { frequencyTriggerCount := 7 }
        { revision := 5, settings := Finmap.singleton (ascii "x") (.bool true) } = .ok upload ∧
      prepareDownload {} upload = .ok preview ∧
      preview.settings = { frequencyTriggerCount := 7 } := by
  have hvalid : ({} : InputSettings).Valid fun _ => true := validInputSettings_default rfl
  have hvalid' : ({ frequencyTriggerCount := 7 } : InputSettings).Valid fun _ => true :=
    { hvalid with frequencyTriggerCount := by decide }
  obtain ⟨upload, preview, hupload, hdownload, hsettings, -⟩ :=
    @download_upload _ _ _ orderedModes (validInputSettings_iff.mpr hvalid)
      (validInputSettings_iff.mpr hvalid') ⟨rfl, rfl⟩
      (fun r hr hcontrol => by
        cases r <;> first
          | exact absurd hr (by decide)
          | exact List.mem_cons_self
          | cases hcontrol)
      { revision := 5, settings := Finmap.singleton (ascii "x") (.bool true) }
  exact ⟨orderedModes, upload, preview, hupload, hdownload, hsettings⟩

/-! ## What the form keeps valid -/

/-- A flag is on only where the document has it on. -/
theorem SettingsUiRow.localValue_true {row : SettingsUiRow} (hcontrol : row.control = .boolean)
    {value : PreferenceValue} {text : Bytes} (h : row.localValue value = .ok text)
    (htext : parseBool text = some true) : value = .bool true := by
  unfold SettingsUiRow.localValue at h
  rw [hcontrol] at h
  cases value with
  | bool b =>
    obtain rfl : boolValue b = text := Except.ok.inj h
    rw [parseBool_boolValue] at htext
    exact congrArg _ (Option.some.inj htext)
  | _ => cases h

section

variable [FrequencyEnum] {supportedSchema : Bytes → Bool} {s : InputSettings}

/-- What becomes of the settings at an entry that is not refused: it is entered in its row,
or they stay. -/
theorem downloadEntry_settings {remote : PreferenceSettings} {preview preview' : SettingsPreview}
    {key : Bytes} (h : downloadEntry remote preview key = .ok preview') :
    preview'.settings = preview.settings ∨ ∃ r value text, remote.lookup key = some value ∧
      boundRow key = some r ∧ (r.row preview.settings).localValue value = .ok text ∧
      r.set preview.settings text = .ok preview'.settings := by
  unfold downloadEntry at h
  split at h
  · cases h
    exact .inl rfl
  · cases h
    exact .inl rfl
  · next value r hvalue hr =>
    obtain ⟨before, -, h⟩ := call_eq_ok_iff.mp h
    obtain ⟨text, htext, h⟩ := call_eq_ok_iff.mp h
    split at h
    · cases h
      exact .inl rfl
    · split at h
      · cases h
      · next settings hset =>
        cases h
        rw [settingsSet, RowId.ofId_id] at hset
        exact .inr ⟨r, value, text, hvalue, hr, htext, hset⟩

/-- What every entry keeps, a download keeps. -/
theorem prepareDownload_invariant {I : InputSettings → Prop} {remote : Preferences}
    (hentry : ∀ {preview preview' : SettingsPreview} {key : Bytes},
      downloadEntry remote.settings preview key = .ok preview' → I preview.settings →
        I preview'.settings)
    {preview : SettingsPreview} (h : prepareDownload s remote = .ok preview) (hs : I s) :
    I preview.settings := by
  obtain ⟨exported, -, h⟩ := call_eq_ok_iff.mp h
  obtain ⟨-, h⟩ := guard_eq_ok_iff.mp h
  exact foldlM_invariant (I := fun preview => I preview.settings)
    (fun _ _ _ hstep => hentry hstep) h hs

/-- A download keeps every field valid. -/
theorem prepareDownload_validFields
    (hschemas : ∀ name ∈ RowId.schemas, supportedSchema (ascii name) = true)
    {remote : Preferences} {preview : SettingsPreview}
    (h : prepareDownload s remote = .ok preview) (hs : s.ValidFields supportedSchema) :
    preview.settings.ValidFields supportedSchema := by
  refine prepareDownload_invariant (I := (InputSettings.ValidFields supportedSchema ·))
    (fun hentry hfields => ?_) h hs
  rcases downloadEntry_settings hentry with heq | ⟨r, value, text, -, -, -, hset⟩
  · exact heq ▸ hfields
  · exact RowId.set_validFields hschemas hset hfields

/-- The endpoints are not shared. -/
theorem RowId.set_endpoints {r : RowId} (hr : r.Shared) {t : InputSettings} {value : Bytes}
    (h : r.set s value = .ok t) :
    t.voice.endpoint = s.voice.endpoint ∧ t.voice.polishEndpoint = s.voice.polishEndpoint := by
  cases r with
  | voiceEndpoint | voicePolishEndpoint | voiceCredential | aiCredential
  | translationCredential | voicePolishModel | aiEndpoint | translationEndpoint =>
    exact absurd hr (by decide)
  | voiceModel | voiceLanguage | voicePolishPrompt | aiModel | aiPrompt =>
    rw [set] at h
    exact enterText_keeps (I := fun t => t.voice.endpoint = s.voice.endpoint ∧
      t.voice.polishEndpoint = s.voice.polishEndpoint) h fun _ _ => ⟨rfl, rfl⟩
  | _ =>
    obtain ⟨v, -, rfl⟩ := choose_ok h
    exact ⟨rfl, rfl⟩

/-- The document has a voice service on that has no endpoint on this machine. The form
would ask for one where the endpoint is entered (SettingsUiModel.cpp:792). -/
def SwitchesServiceOn (s : InputSettings) (remote : PreferenceSettings) : Prop :=
  s.voice.endpoint = [] ∧
      remote.lookup (ascii "voice_input.voice_input") = some (.bool true) ∨
    s.voice.polishEndpoint = [] ∧
      remote.lookup (ascii "voice_input.polish_text") = some (.bool true)

/-- A download leaves no service on without its endpoint, unless the document has one on
that lacks it here. -/
theorem prepareDownload_servicesHaveEndpoints {remote : Preferences}
    (hopen : ¬ SwitchesServiceOn s remote.settings) {preview : SettingsPreview}
    (h : prepareDownload s remote = .ok preview) (hs : s.ServicesHaveEndpoints) :
    preview.settings.ServicesHaveEndpoints := by
  -- the endpoints stay, so what the document switches on is told by those of `s`
  refine (prepareDownload_invariant (I := fun t => t.ServicesHaveEndpoints ∧
    t.voice.endpoint = s.voice.endpoint ∧ t.voice.polishEndpoint = s.voice.polishEndpoint)
    ?_ h ⟨hs, rfl, rfl⟩).1
  rintro before after key hentry ⟨hservices, hvoice, hpolish⟩
  rcases downloadEntry_settings hentry with heq | ⟨r, value, text, hvalue, hr, htext, hset⟩
  · exact heq ▸ ⟨hservices, hvoice, hpolish⟩
  obtain ⟨hvoice', hpolish'⟩ := RowId.set_endpoints (boundRow_shared hr) hset
  refine ⟨RowId.set_servicesHaveEndpoints hset hservices ?_, hvoice'.trans hvoice,
    hpolish'.trans hpolish⟩
  rintro ⟨hparsed, ⟨rfl, hempty⟩ | ⟨rfl, hempty⟩⟩
  · obtain rfl := SettingsUiRow.localValue_true rfl htext hparsed
    have hkey : (RowId.voiceEnabled, ascii "voice_input.voice_input") ∈ cloudBindings := by
      simp [cloudBindings]
    obtain rfl := boundRow_inj hr (boundRow_of_mem hkey)
    exact hopen (.inl ⟨hvoice ▸ hempty, hvalue⟩)
  · obtain rfl := SettingsUiRow.localValue_true rfl htext hparsed
    have hkey : (RowId.voicePolishEnabled, ascii "voice_input.polish_text") ∈ cloudBindings := by
      simp [cloudBindings]
    obtain rfl := boundRow_inj hr (boundRow_of_mem hkey)
    exact hopen (.inr ⟨hpolish ▸ hempty, hvalue⟩)

/-- **What the form keeps of the store's check.** After any edits, and after any
download that is not refused, the settings pass every check of the store but the one
that relates a voice service to its endpoint; and edits none of which switches a
service on without an endpoint, or a document that does not, leave that one standing as
well. -/
theorem form_keeps_validity
    (hschemas : ∀ name ∈ RowId.schemas, supportedSchema (ascii name) = true)
    (hs : validInputSettings supportedSchema s = true) :
    (∀ edits : List (Bytes × Bytes),
      (validInputSettings supportedSchema (edits.foldl settingsEdit s) = true ↔
        (edits.foldl settingsEdit s).ServicesHaveEndpoints) ∧
      (Guarded settingsEdit (fun s edit => ¬ EnablesWithoutEndpoint s edit) s edits →
        validInputSettings supportedSchema (edits.foldl settingsEdit s) = true)) ∧
    ∀ remote preview, prepareDownload s remote = .ok preview →
      preview.settings.ValidFields supportedSchema ∧
      (¬ SwitchesServiceOn s remote.settings →
        validInputSettings supportedSchema preview.settings = true) := by
  obtain ⟨hfields, hservices⟩ := InputSettings.valid_iff.mp (validInputSettings_iff.mp hs)
  have hiff : ∀ {t : InputSettings}, t.ValidFields supportedSchema →
      (validInputSettings supportedSchema t = true ↔ t.ServicesHaveEndpoints) := by
    intro t ht
    rw [validInputSettings_iff, InputSettings.valid_iff]
    exact and_iff_right ht
  refine ⟨fun edits => ?_, fun remote preview h => ?_⟩
  · have hedits := edits_validFields hschemas hfields edits
    exact ⟨hiff hedits, fun hguarded =>
      (hiff hedits).mpr (edits_servicesHaveEndpoints hguarded hservices)⟩
  · have hdownload := prepareDownload_validFields hschemas h hfields
    exact ⟨hdownload, fun hopen =>
      (hiff hdownload).mpr (prepareDownload_servicesHaveEndpoints hopen h hservices)⟩

end

/-- A number in its range is entered in fresh settings, and one comes down into them. -/
theorem form_keeps_validity_pageSize :
    ∃ (_ : FrequencyEnum) (preview : SettingsPreview),
      validInputSettings (fun _ => true)
        ([(ascii "page-size", ascii "7")].foldl settingsEdit {}) = true ∧
      prepareDownload {}
        ⟨3, Finmap.singleton (ascii "appearance.page_size") (.int64 5)⟩ = .ok preview ∧
      preview.settings.pageSize = 5 ∧
      validInputSettings (fun _ => true) preview.settings = true := by
  have hvalid : ({} : InputSettings).Valid fun _ => true := validInputSettings_default rfl
  obtain ⟨hedits, hdownloads⟩ := @form_keeps_validity orderedModes (fun _ => true) {}
    (fun _ _ => rfl) (validInputSettings_iff.mpr hvalid)
  have hdownload : @prepareDownload orderedModes {}
      ⟨3, Finmap.singleton (ascii "appearance.page_size") (.int64 5)⟩ = .ok
        { settings := { pageSize := 5 }
          changes := [⟨ascii "appearance.page_size", .int64 9, .int64 5⟩] } := by
    decide +kernel
  have hopen : ¬ SwitchesServiceOn {} (Finmap.singleton (ascii "appearance.page_size")
      (.int64 5)) := by
    rintro (⟨h, -⟩ | ⟨h, -⟩)
    · exact absurd h (by decide)
    · exact absurd h (by decide)
  refine ⟨orderedModes, _, (hedits _).2 ⟨?_, trivial⟩, hdownload, rfl,
    (hdownloads _ _ hdownload).2 hopen⟩
  rintro ⟨r, -, hparsed, -⟩
  exact absurd hparsed (by decide)

/-- The voice endpoint is emptied while voice input is off, and voice input switched
on after it: both edits are accepted, and the store refuses the result. It refuses as well
what a download makes of settings without the endpoint, where the document has voice
input on. -/
theorem form_accepts_service_without_endpoint :
    ∃ (_ : FrequencyEnum) (preview : SettingsPreview), FrequencyEnum.Ordered ∧
      validInputSettings (fun _ => true) {} = true ∧
      validInputSettings (fun _ => true)
        ([(ascii "voice-endpoint", []), (ascii "voice-enabled", ascii "true")].foldl
          settingsEdit {}) = false ∧
      validInputSettings (fun _ => true) { voice := { endpoint := [] } } = true ∧
      prepareDownload { voice := { endpoint := [] } }
        ⟨3, Finmap.singleton (ascii "voice_input.voice_input") (.bool true)⟩ = .ok preview ∧
      validInputSettings (fun _ => true) preview.settings = false := by
  let _ := orderedModes
  have hvalid : ({} : InputSettings).Valid fun _ => true := validInputSettings_default rfl
  have hvalid' : ({ voice := { endpoint := [] } } : InputSettings).Valid fun _ => true :=
    { hvalid with voiceEndpoint := by decide, voiceEnabled := nofun }
  have hrefused : validInputSettings (fun _ => true)
      { voice := { endpoint := [], enabled := true } } = false := by
    rw [← Bool.not_eq_true, validInputSettings_iff]
    exact fun h => h.voiceEnabled rfl rfl
  -- the endpoint is emptied while the service is off, then the service is switched on
  have hendpoint : settingsEdit {} (ascii "voice-endpoint", []) =
      { voice := { endpoint := [] } } := by
    refine settingsEdit_eq (RowId.ofId_id .voiceEndpoint) ?_
    rw [RowId.set]
    exact RowId.enterText_eq (by decide) (by decide)
  have henabled : settingsEdit { voice := { endpoint := [] } }
      (ascii "voice-enabled", ascii "true") = { voice := { endpoint := [], enabled := true } } := by
    have hparsed : parseBool (ascii "true") = some true := parseBool_boolValue true
    refine settingsEdit_eq (RowId.ofId_id .voiceEnabled) ?_
    simp only [RowId.set, hparsed, RowId.choose]
  -- a download does the second of these by itself
  have hdownload : prepareDownload { voice := { endpoint := [] } }
      ⟨3, Finmap.singleton (ascii "voice_input.voice_input") (.bool true)⟩ = .ok
        { settings := { voice := { endpoint := [], enabled := true } }
          changes := [⟨ascii "voice_input.voice_input", .bool false, .bool true⟩] } := by
    decide +kernel
  refine ⟨orderedModes, _, rfl, validInputSettings_iff.mpr hvalid, ?_,
    validInputSettings_iff.mpr hvalid', hdownload, hrefused⟩
  rw [List.foldl_cons, hendpoint, List.foldl_cons, henabled, List.foldl_nil, hrefused]

end MsimeLinux
