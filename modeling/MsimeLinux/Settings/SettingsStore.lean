import MsimeLinux.Lib.Ini
import MsimeLinux.Settings.InputSettings

/-!
# The settings file (`SettingsStore.cpp`)

`config.ini` is a GLib key file. `load` reads it field by field, each over its
default; `save` reads the file again, sets every key it owns, drops the keys
older versions kept credentials under, and replaces the file. One table,
`settingsFields`, is behind both: a row is a key, how its value is written and
checked, and the field it stands for.

GLib and the engine's list of helpcode schemas are parameters, `SettingsEnv`,
with what the code relies on in `SettingsEnv.Lawful`. What the file system does
to a save is a `WriteOutcome`.

- `touchedSlots_plain_nodup`: the keys of the table, and those that are dropped.
- `saveUnlocked_ok`: what a save comes to.
-/

namespace MsimeLinux

open Lib

/-! ## The environment -/

/-- What the settings code takes from outside: GLib's key files and checksums,
and `Session::is_supported_helpcode_schema`. -/
structure SettingsEnv where
  keyFiles : KeyFiles
  supportedHelpcodeSchema : Bytes → Bool
  /-- `g_compute_checksum_for_data(G_CHECKSUM_SHA256, …)` -/
  digestOf : Bytes → Bytes

/-- What GLib can store under a key: UTF-8 without NUL, a `gint`, a flag. -/
def Storable : (kind : Kind) → kind.Value → Prop
  | .string, value => PlainText value
  | .integer, value => -2147483648 ≤ value ∧ value ≤ 2147483647
  | .boolean, _ => True

/-- What the settings code relies on for the schemas. -/
structure SettingsEnv.KnowsSchemas (E : SettingsEnv) : Prop where
  /-- schemas have plain names -/
  schemaText : ∀ name, E.supportedHelpcodeSchema name = true → PlainText name
  /-- the default schema is one -/
  lantian : E.supportedHelpcodeSchema (ascii "lantian") = true

/-- And for the key files. -/
structure SettingsEnv.Lawful (E : SettingsEnv) : Prop extends E.KnowsSchemas where
  keyFiles : E.keyFiles.Lawful Storable

/-- The schemas the settings window offers (SettingsUiModel.cpp:590). -/
def helpcodeSchemas : List Bytes :=
  [ascii "lantian", ascii "ziranma", ascii "shouyou2_0", ascii "shouyouplus", ascii "xiaohe"]

/-- Key files as text, the offered schemas, and a digest that is the text itself. -/
def plainEnv : SettingsEnv where
  keyFiles := iniFiles utf8Validate
  supportedHelpcodeSchema := helpcodeSchemas.contains
  digestOf := id

theorem plainEnv_lawful : plainEnv.Lawful where
  keyFiles := iniFiles_lawful fun _ htext => utf8Validate_iff.mpr htext.1
  schemaText := by
    have hplain : ∀ name ∈ helpcodeSchemas, name.all (fun c => 0 < c && c < 128) = true := by
      decide
    exact fun name hname => plainText_of_ascii (hplain name (List.contains_iff_mem.mp hname))
  lantian := by decide

/-! ## The table -/

/-- `kGroup`, `kOnlineGroup` and so on (SettingsStore.cpp:66). -/
def inputGroup : Bytes := ascii "input"
def onlineGroup : Bytes := ascii "online"
def aiGroup : Bytes := ascii "ai"
def translationGroup : Bytes := ascii "translation"
def utilityGroup : Bytes := ascii "utility"
def voiceGroup : Bytes := ascii "voice"
def keybindingsGroup : Bytes := ascii "keybindings"

namespace SettingsField

variable (group : Bytes) (key : String)

/-- A flag. -/
def boolean (get : InputSettings → Bool) (set : Bool → InputSettings → InputSettings) :
    KeyField InputSettings :=
  ⟨(group, ascii key), .boolean, Bool, .boolean, get, set⟩

/-- A number. -/
def integer (minimum maximum : Int) (get : InputSettings → Int)
    (set : Int → InputSettings → InputSettings) : KeyField InputSettings :=
  ⟨(group, ascii key), .integer, Int, .integer minimum maximum, get, set⟩

/-- A `std::size_t`, through `static_cast<gint>`. -/
def natural (minimum maximum : Int) (get : InputSettings → Nat)
    (set : Nat → InputSettings → InputSettings) : KeyField InputSettings :=
  ⟨(group, ascii key), .integer, Nat, .natural minimum maximum, get, set⟩

/-- A text, with its validator. -/
def text (valid : Bytes → Bool) (get : InputSettings → Bytes)
    (set : Bytes → InputSettings → InputSettings) : KeyField InputSettings :=
  ⟨(group, ascii key), .string, Bytes, .text valid, get, set⟩

/-- A choice, by its name. -/
def choice {α : Type} (name : α → Bytes) (all : List α) (get : InputSettings → α)
    (set : α → InputSettings → InputSettings) : KeyField InputSettings :=
  ⟨(group, ascii key), .string, α, .named name (parseName name all), get, set⟩

/-- A width, as whether it is full. -/
def fullWidth (get : InputSettings → CharacterWidth)
    (set : CharacterWidth → InputSettings → InputSettings) : KeyField InputSettings :=
  ⟨(group, ascii key), .boolean, CharacterWidth,
    ⟨fun width => width == .full, fun full => some (if full then .full else .half)⟩, get, set⟩

end SettingsField

open SettingsField in
/-- The keys of the input group that are written first (SettingsStore.cpp:1238). -/
def inputFields (supportedSchema : Bytes → Bool) : List (KeyField InputSettings) :=
  [choice inputGroup "mode" InputMode.name [.ime, .direct]
    (·.mode) fun v s => { s with mode := v },
  choice inputGroup "default-mode" InputMode.name [.ime, .direct]
    (·.defaultMode) fun v s => { s with defaultMode := v },
  choice inputGroup "scheme" SchemeType.name [.quanpin, .shuangpin, .wubi, .japaneseRomaji]
    (·.scheme) fun v s => { s with scheme := v },
  natural inputGroup "page-size" 3 9
    (·.pageSize) fun v s => { s with pageSize := v },
  choice inputGroup "candidate-window-layout" CandidateWindowLayout.name [.vertical, .horizontal]
    (·.candidateWindowLayout) fun v s => { s with candidateWindowLayout := v },
  choice inputGroup "punctuation" PunctuationMode.name [.chinese, .english]
    (·.punctuationMode) fun v s => { s with punctuationMode := v },
  choice inputGroup "punctuation-lock" PunctuationLock.name [.follow, .chinese, .english]
    (·.punctuationLock) fun v s => { s with punctuationLock := v },
  fullWidth inputGroup "full-width"
    (·.characterWidth) fun v s => { s with characterWidth := v },
  boolean inputGroup "comma-period-paging"
    (·.commaPeriodPaging) fun v s => { s with commaPeriodPaging := v },
  boolean inputGroup "word-to-character"
    (·.wordToCharacter) fun v s => { s with wordToCharacter := v },
  boolean inputGroup "bracket-paging"
    (·.bracketPaging) fun v s => { s with bracketPaging := v },
  boolean inputGroup "smart-punctuation"
    (·.smartPunctuation) fun v s => { s with smartPunctuation := v },
  boolean inputGroup "smart-punctuation-repeat-to-chinese"
    (·.smartPunctuationRepeatToChinese) fun v s => { s with smartPunctuationRepeatToChinese := v },
  boolean inputGroup "paired-punctuation"
    (·.pairedPunctuation) fun v s => { s with pairedPunctuation := v },
  choice inputGroup "preedit-style" PreeditStyle.name [.raw, .pinyin, .hidden]
    (·.preeditStyle) fun v s => { s with preeditStyle := v },
  boolean inputGroup "quanpin-helpcode"
    (·.quanpinHelpcodeEnabled) fun v s => { s with quanpinHelpcodeEnabled := v },
  text inputGroup "quanpin-helpcode-schema" supportedSchema
    (·.quanpinHelpcodeSchema) fun v s => { s with quanpinHelpcodeSchema := v },
  boolean inputGroup "shuangpin-helpcode"
    (·.shuangpinHelpcodeEnabled) fun v s => { s with shuangpinHelpcodeEnabled := v },
  text inputGroup "shuangpin-helpcode-schema" supportedSchema
    (·.shuangpinHelpcodeSchema) fun v s => { s with shuangpinHelpcodeSchema := v },
  choice inputGroup "frequency-adjustment" FrequencyAdjustmentMode.name
    [.disabled, .pin, .halve, .linear, .promote]
    (·.frequencyAdjustmentMode) fun v s => { s with frequencyAdjustmentMode := v },
  integer inputGroup "frequency-trigger-count" 1 10
    (·.frequencyTriggerCount) fun v s => { s with frequencyTriggerCount := v },
  integer inputGroup "frequency-linear-step" 1 10
    (·.frequencyLinearStep) fun v s => { s with frequencyLinearStep := v },
  boolean inputGroup "unicode-mode"
    (·.unicodeModeEnabled) fun v s => { s with unicodeModeEnabled := v },
  boolean inputGroup "super-jianpin-mode"
    (·.superJianpinModeEnabled) fun v s => { s with superJianpinModeEnabled := v },
  boolean inputGroup "temporary-english-mode"
    (·.temporaryEnglishModeEnabled) fun v s => { s with temporaryEnglishModeEnabled := v },
  boolean inputGroup "temporary-japanese-mode"
    (·.temporaryJapaneseModeEnabled) fun v s => { s with temporaryJapaneseModeEnabled := v },
  boolean inputGroup "mixed-english-candidates"
    (·.mixedEnglishCandidatesEnabled) fun v s => { s with mixedEnglishCandidatesEnabled := v },
  natural inputGroup "mixed-english-minimum-prefix" 1 8
    (·.mixedEnglishMinimumPrefix) fun v s => { s with mixedEnglishMinimumPrefix := v },
  boolean inputGroup "mixed-emoji-candidates"
    (·.mixedEmojiCandidatesEnabled) fun v s => { s with mixedEmojiCandidatesEnabled := v },
  boolean inputGroup "mixed-kaomoji-candidates"
    (·.mixedKaomojiCandidatesEnabled) fun v s => { s with mixedKaomojiCandidatesEnabled := v }]

open SettingsField in
/-- The desktop tools and the key bindings (SettingsStore.cpp:1278). -/
def utilityFields : List (KeyField InputSettings) :=
  [boolean utilityGroup "clipboard-history"
    (·.clipboardHistoryEnabled) fun v s => { s with clipboardHistoryEnabled := v },
  boolean utilityGroup "quick-phrase-mode"
    (·.quickPhraseModeEnabled) fun v s => { s with quickPhraseModeEnabled := v },
  boolean utilityGroup "date-time-mode"
    (·.dateTimeModeEnabled) fun v s => { s with dateTimeModeEnabled := v },
  boolean utilityGroup "emoji-mode"
    (·.emojiModeEnabled) fun v s => { s with emojiModeEnabled := v },
  boolean utilityGroup "kaomoji-mode"
    (·.kaomojiModeEnabled) fun v s => { s with kaomojiModeEnabled := v },
  boolean utilityGroup "floating-toolbar"
    (·.floatingToolbarEnabled) fun v s => { s with floatingToolbarEnabled := v },
  boolean inputGroup "show-quanpin-helpcode"
    (·.showQuanpinHelpcodeInCandidates) fun v s => { s with showQuanpinHelpcodeInCandidates := v },
  boolean inputGroup "show-shuangpin-helpcode"
    (·.showShuangpinHelpcodeInCandidates)
    fun v s => { s with showShuangpinHelpcodeInCandidates := v },
  boolean keybindingsGroup "switch-language-shift"
    (·.switchLanguageShift) fun v s => { s with switchLanguageShift := v },
  boolean keybindingsGroup "switch-language-ctrl"
    (·.switchLanguageCtrl) fun v s => { s with switchLanguageCtrl := v },
  boolean keybindingsGroup "switch-language-ctrl-alt-space"
    (·.switchLanguageCtrlAltSpace) fun v s => { s with switchLanguageCtrlAltSpace := v }]

open SettingsField in
/-- The online services (SettingsStore.cpp:1294). -/
def onlineFields : List (KeyField InputSettings) :=
  [boolean onlineGroup "cloud-enabled" (·.online.cloudCandidatesEnabled)
    fun v s => { s with online.cloudCandidatesEnabled := v },
  integer onlineGroup "connect-timeout-ms" 100 10000 (·.online.connectTimeout)
    fun v s => { s with online.connectTimeout := v },
  integer onlineGroup "total-timeout-ms" 500 30000 (·.online.totalTimeout)
    fun v s => { s with online.totalTimeout := v },
  boolean aiGroup "enabled" (·.online.ai.enabled)
    fun v s => { s with online.ai.enabled := v },
  choice aiGroup "provider" AiProvider.name [.deepSeek, .openAI, .siliconFlow, .groq, .custom]
    (·.online.ai.provider) fun v s => { s with online.ai.provider := v },
  text aiGroup "endpoint" validHttpsEndpoint (·.online.ai.endpoint)
    fun v s => { s with online.ai.endpoint := v },
  text aiGroup "model" validModel (·.online.ai.model)
    fun v s => { s with online.ai.model := v },
  text aiGroup "prompt" validPrompt (·.online.ai.prompt)
    fun v s => { s with online.ai.prompt := v },
  natural aiGroup "candidate-limit" 1 10 (·.online.ai.candidateLimit)
    fun v s => { s with online.ai.candidateLimit := v },
  boolean translationGroup "enabled" (·.online.candidateTranslationsEnabled)
    fun v s => { s with online.candidateTranslationsEnabled := v },
  choice translationGroup "provider" TranslationProvider.name [.local, .deepLX]
    (·.online.translationProvider) fun v s => { s with online.translationProvider := v },
  text translationGroup "target-language" validTranslationLanguage
    (·.online.translationTargetLanguage)
    fun v s => { s with online.translationTargetLanguage := v },
  text translationGroup "endpoint" validHttpsEndpoint (·.online.translationEndpoint)
    fun v s => { s with online.translationEndpoint := v }]

open SettingsField in
/-- The voice input (SettingsStore.cpp:1314). -/
def voiceFields : List (KeyField InputSettings) :=
  [boolean voiceGroup "enabled" (·.voice.enabled)
    fun v s => { s with voice.enabled := v },
  text voiceGroup "provider" (validVoiceText 64) (·.voice.provider)
    fun v s => { s with voice.provider := v },
  text voiceGroup "endpoint" validHttpsEndpoint (·.voice.endpoint)
    fun v s => { s with voice.endpoint := v },
  text voiceGroup "model" (validVoiceText 256) (·.voice.model)
    fun v s => { s with voice.model := v },
  text voiceGroup "language" (validVoiceText 32) (·.voice.language)
    fun v s => { s with voice.language := v },
  boolean voiceGroup "polish-enabled" (·.voice.polishEnabled)
    fun v s => { s with voice.polishEnabled := v },
  text voiceGroup "polish-endpoint" validHttpsEndpoint (·.voice.polishEndpoint)
    fun v s => { s with voice.polishEndpoint := v },
  text voiceGroup "polish-model" (validVoiceText 256) (·.voice.polishModel)
    fun v s => { s with voice.polishModel := v },
  text voiceGroup "polish-prompt" validPolishPrompt (·.voice.polishPrompt)
    fun v s => { s with voice.polishPrompt := v }]

/-- Every key the program owns, in the order `save_unlocked` writes them. `load`
reads the same keys in a slightly different order; each key is read once and
touches its own field only. -/
def settingsFields (supportedSchema : Bytes → Bool) : List (KeyField InputSettings) :=
  inputFields supportedSchema ++ (utilityFields ++ (onlineFields ++ voiceFields))

/-- The keys earlier versions kept credentials under (SettingsStore.cpp:1324). -/
def secretKeys : List Slot :=
  ([ascii "token", ascii "api-token", ascii "api-key"].flatMap fun key =>
    [(aiGroup, key), (translationGroup, key), (voiceGroup, key)]) ++
  [ascii "ai-token", ascii "translation-token", ascii "translation-api-key"].map fun key =>
    (onlineGroup, key)

/-- The slots of the table. They do not depend on the schemas. -/
theorem settingsFields_slots (supportedSchema : Bytes → Bool) :
    (settingsFields supportedSchema).map (·.slot) =
      (settingsFields fun _ => true).map (·.slot) := rfl

/-- The keys the program touches are all plain, and all different. -/
theorem touchedSlots_plain_nodup :
    (secretKeys ++ (settingsFields fun _ => true).map (·.slot)).all Slot.plain = true ∧
      (secretKeys ++ (settingsFields fun _ => true).map (·.slot)).Nodup := by
  decide +kernel

theorem settingsFields_wellNamed (supportedSchema : Bytes → Bool) :
    WellNamed (settingsFields supportedSchema) := by
  obtain ⟨hplain, hnodup⟩ := touchedSlots_plain_nodup
  rw [← settingsFields_slots supportedSchema] at hplain hnodup
  constructor
  · intro f hf
    exact List.all_eq_true.mp hplain _ (List.mem_append_right _ (List.mem_map_of_mem hf))
  · have hslots := (List.nodup_append.mp hnodup).2.1
    rw [List.nodup_iff_pairwise_ne, List.pairwise_map] at hslots
    exact hslots

theorem secretKeys_plain : ∀ slot ∈ secretKeys, slot.plain = true := fun slot hslot =>
  List.all_eq_true.mp touchedSlots_plain_nodup.1 slot (List.mem_append_left _ hslot)

/-- No field is kept under a credential key. -/
theorem secretKeys_not_owned {supportedSchema : Bytes → Bool} {slot : Slot}
    (hslot : slot ∈ secretKeys) : ¬ Owned (settingsFields supportedSchema) slot := by
  rintro ⟨f, hf, rfl⟩
  have hmem : f.slot ∈ (settingsFields fun _ => true).map (·.slot) := by
    rw [← settingsFields_slots supportedSchema]
    exact List.mem_map_of_mem hf
  exact (List.nodup_append.mp touchedSlots_plain_nodup.2).2.2 _ hslot _ hmem rfl

/-- The table covers what a file can keep. -/
theorem copyFields_settingsFields (supportedSchema : Bytes → Bool) (s : InputSettings) :
    copyFields (settingsFields supportedSchema) s {} = s.persisted := by
  simp only [copyFields, settingsFields, inputFields, utilityFields, onlineFields, voiceFields,
    List.foldl_append, List.foldl_cons, List.foldl_nil, KeyField.copy, SettingsField.boolean,
    SettingsField.choice, SettingsField.text, SettingsField.integer, SettingsField.natural,
    SettingsField.fullWidth, InputSettings.persisted]

/-! ## The file on disk -/

/-- What stands at the path of `config.ini`. -/
inductive ConfigFile where
  | missing
  | regular (contents : Bytes)
  /-- a file that cannot be read -/
  | unreadable
  /-- a directory -/
  | directory
  deriving DecidableEq

/-- `config.ini` and the `.corrupt` copy beside it. -/
structure Disk where
  config : ConfigFile := .missing
  corrupt : Option Bytes := none
  deriving DecidableEq

/-- Which system calls of a save succeed. -/
structure WriteOutcome where
  /-- `ConfigWriteLock` -/
  lock : Bool := true
  /-- `g_mkdir_with_parents` -/
  directory : Bool := true
  /-- the `g_rename` to `.corrupt` -/
  rescue : Bool := true
  /-- `g_mkstemp` -/
  temporary : Bool := true
  /-- `write_all`, `fsync`, `close` -/
  write : Bool := true
  /-- the `g_rename` over `config.ini` -/
  replace : Bool := true
  deriving DecidableEq, Repr

/-! ## Loading -/

/-- `SettingsStore::load` (SettingsStore.cpp:421): the settings and the warning. -/
def SettingsEnv.load (E : SettingsEnv) (config : ConfigFile) : InputSettings × String :=
  match config with
  | .missing => ({}, "")
  | .unreadable | .directory => ({}, "Unable to read input settings; defaults were used.")
  | .regular contents =>
    match E.keyFiles.parse contents with
    | none => ({}, "Unable to parse input settings; defaults were used.")
    | some file =>
      let (settings, invalid) :=
        loadFields E.keyFiles (settingsFields E.supportedHelpcodeSchema) file {}
      (settings, if invalid then
        "Some input settings were invalid; defaults were used for those fields." else "")

/-! ## Saving -/

/-- What a save reports: where it left the disk, the error if it failed, and the
digest of what it serialized, if it got that far. -/
structure SaveResult where
  disk : Disk
  error : Option String
  digest : Option Bytes

/-- The key file a save starts from, and the disk once a text that is none was
put aside (SettingsStore.cpp:1200). -/
def SettingsEnv.preserved (E : SettingsEnv) (io : WriteOutcome) (disk : Disk) :
    Option (E.keyFiles.File × Disk) :=
  match disk.config with
  | .missing => some (E.keyFiles.empty, disk)
  | .unreadable | .directory => none
  | .regular contents =>
    match E.keyFiles.parse contents with
    | some file => some (file, disk)
    | none =>
      some (E.keyFiles.empty,
        if io.rescue then { config := .missing, corrupt := some contents } else disk)

/-- Every owned key set, every credential key dropped (SettingsStore.cpp:1238). -/
def SettingsEnv.settingsFile (E : SettingsEnv) (settings : InputSettings)
    (file : E.keyFiles.File) : E.keyFiles.File :=
  removeKeys E.keyFiles secretKeys
    (saveFields E.keyFiles (settingsFields E.supportedHelpcodeSchema) settings file)

/-- `SettingsStore::save_unlocked` (SettingsStore.cpp:1174). -/
def SettingsEnv.saveUnlocked (E : SettingsEnv) (io : WriteOutcome) (settings : InputSettings)
    (disk : Disk) : SaveResult :=
  if !validInputSettings E.supportedHelpcodeSchema settings then
    ⟨disk, some "Input settings were outside the supported range.", none⟩
  else if !io.directory then
    ⟨disk, some "Unable to create the input settings directory.", none⟩
  else match E.preserved io disk with
    | none => ⟨disk, some "Unable to preserve the existing input settings.", none⟩
    | some (file, disk) =>
      match E.keyFiles.toData (E.settingsFile settings file) with
      | none => ⟨disk, some "Unable to serialize input settings.", none⟩
      | some data =>
        -- reported before the write: a failure past this point may come too late
        if !io.temporary then
          ⟨disk, some "Unable to create an atomic input settings file.", some (E.digestOf data)⟩
        else if !(io.write && io.replace) then
          ⟨disk, some "Unable to atomically replace input settings.", some (E.digestOf data)⟩
        else ⟨{ disk with config := .regular data }, none, some (E.digestOf data)⟩

/-- `SettingsStore::save` (SettingsStore.cpp:1158). -/
def SettingsEnv.save (E : SettingsEnv) (io : WriteOutcome) (settings : InputSettings)
    (disk : Disk) : SaveResult :=
  if !validInputSettings E.supportedHelpcodeSchema settings then
    ⟨disk, some "Input settings were outside the supported range.", none⟩
  else if !io.lock then ⟨disk, some "Unable to lock input settings.", none⟩
  else E.saveUnlocked io settings disk

/-! ## When a save succeeds -/

/-- What a successful save did. -/
structure SettingsEnv.Saved (E : SettingsEnv) (settings : InputSettings) (disk after : Disk)
    (digest : Option Bytes) : Prop where
  valid : validInputSettings E.supportedHelpcodeSchema settings = true
  written : ∃ io file before data, E.preserved io disk = some (file, before) ∧
    E.keyFiles.toData (E.settingsFile settings file) = some data ∧
    after = { before with config := .regular data } ∧ digest = some (E.digestOf data)

theorem SettingsEnv.saveUnlocked_ok {E : SettingsEnv} {io : WriteOutcome}
    {settings : InputSettings} {disk : Disk}
    (h : (E.saveUnlocked io settings disk).error = none) :
    E.Saved settings disk (E.saveUnlocked io settings disk).disk
      (E.saveUnlocked io settings disk).digest := by
  unfold saveUnlocked at h ⊢
  split at h
  · cases h
  next hvalid =>
  rw [if_neg hvalid]
  split at h
  · cases h
  next hdirectory =>
  rw [if_neg hdirectory]
  split at h
  · cases h
  next file before hpreserved =>
  split at h
  · cases h
  next data hdata =>
  split at h
  · cases h
  next htemporary =>
  rw [if_neg htemporary]
  split at h
  · cases h
  next hwritten =>
  rw [if_neg hwritten]
  exact ⟨by simpa using hvalid, io, file, before, data, hpreserved, hdata, rfl, rfl⟩

theorem SettingsEnv.save_ok {E : SettingsEnv} {io : WriteOutcome} {settings : InputSettings}
    {disk : Disk} (h : (E.save io settings disk).error = none) :
    E.Saved settings disk (E.save io settings disk).disk (E.save io settings disk).digest := by
  unfold save at h ⊢
  split at h
  · cases h
  next hvalid =>
  rw [if_neg hvalid]
  split at h
  · cases h
  next hlock =>
  rw [if_neg hlock]
  exact saveUnlocked_ok h

end MsimeLinux
