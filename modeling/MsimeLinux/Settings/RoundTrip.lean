import MsimeLinux.Settings.SettingsStore

/-!
# Saving and loading settings

What a save writes, `load` reads, and neither the credentials nor the rest of the
file take part in it.

- `settingsFields_ok`: every value the check accepts can be written and is read
  back, field by field.
- `Saved.file`: the file a successful save leaves.
- `saveLoadRoundTrip`: the round trip and its frame.
-/

namespace MsimeLinux

open Lib

/-! ## Fields that are written and read back -/

/-- The record's value of the field can be written, and is read back. -/
def Ok (s : InputSettings) (f : KeyField InputSettings) : Prop :=
  f.Readable s ∧ Storable f.kind (f.written s)

/-- Names that are plain and tell the choices apart. -/
def GoodNames {α : Type} (name : α → Bytes) (all : List α) : Prop :=
  ∀ a, parseName name all (name a) = some a ∧ PlainText (name a)

/-- Names are good if they are plain and are read back. -/
theorem goodNames_of_all {α : Type} {name : α → Bytes} {all : List α}
    (hparse : ∀ a, parseName name all (name a) = some a)
    (hplain : ∀ a, (name a).all (fun c => 0 < c && c < 128) = true) : GoodNames name all :=
  fun a => ⟨hparse a, plainText_of_ascii (hplain a)⟩

theorem InputMode.goodNames : GoodNames name [.ime, .direct] :=
  goodNames_of_all (by rintro (_ | _) <;> rfl) (by rintro (_ | _) <;> rfl)

theorem SchemeType.goodNames : GoodNames name [.quanpin, .shuangpin, .wubi, .japaneseRomaji] :=
  goodNames_of_all (by rintro (_ | _ | _ | _) <;> rfl) (by rintro (_ | _ | _ | _) <;> rfl)

theorem PunctuationLock.goodNames : GoodNames name [.follow, .chinese, .english] :=
  goodNames_of_all (by rintro (_ | _ | _) <;> rfl) (by rintro (_ | _ | _) <;> rfl)

theorem PunctuationMode.goodNames : GoodNames name [.chinese, .english] :=
  goodNames_of_all (by rintro (_ | _) <;> rfl) (by rintro (_ | _) <;> rfl)

theorem PreeditStyle.goodNames : GoodNames name [.raw, .pinyin, .hidden] :=
  goodNames_of_all (by rintro (_ | _ | _) <;> rfl) (by rintro (_ | _ | _) <;> rfl)

theorem CandidateWindowLayout.goodNames : GoodNames name [.vertical, .horizontal] :=
  goodNames_of_all (by rintro (_ | _) <;> rfl) (by rintro (_ | _) <;> rfl)

theorem FrequencyAdjustmentMode.goodNames :
    GoodNames name [.disabled, .pin, .halve, .linear, .promote] :=
  goodNames_of_all (by rintro (_ | _ | _ | _ | _) <;> rfl) (by rintro (_ | _ | _ | _ | _) <;> rfl)

theorem AiProvider.goodNames :
    GoodNames name [.deepSeek, .openAI, .siliconFlow, .groq, .custom] :=
  goodNames_of_all (by rintro (_ | _ | _ | _ | _) <;> rfl) (by rintro (_ | _ | _ | _ | _) <;> rfl)

theorem TranslationProvider.goodNames : GoodNames name [.local, .deepLX] :=
  goodNames_of_all (by rintro (_ | _) <;> rfl) (by rintro (_ | _) <;> rfl)

namespace SettingsField

variable {group : Bytes} {key : String} {s : InputSettings}

theorem boolean_ok {get : InputSettings → Bool} {set : Bool → InputSettings → InputSettings} :
    Ok s (boolean group key get set) := ⟨rfl, trivial⟩

theorem fullWidth_ok {get : InputSettings → CharacterWidth}
    {set : CharacterWidth → InputSettings → InputSettings} :
    Ok s (fullWidth group key get set) := by
  refine ⟨?_, trivial⟩
  show some (if get s == .full then CharacterWidth.full else .half) = some (get s)
  cases get s <;> rfl

/-- A choice is read back from a good name. -/
theorem choice_ok {α : Type} {name : α → Bytes} {all : List α} {get : InputSettings → α}
    {set : α → InputSettings → InputSettings} (h : GoodNames name all) :
    Ok s (choice group key name all get set) := h (get s)

/-- A number the check accepts fits a `gint`. -/
theorem integer_ok {minimum maximum : Int} {get : InputSettings → Int}
    {set : Int → InputSettings → InputSettings} (h : minimum ≤ get s ∧ get s ≤ maximum)
    (hmin : 0 ≤ minimum) (hmax : maximum ≤ 2147483647) :
    Ok s (integer group key minimum maximum get set) := by
  constructor
  · show (if minimum ≤ get s ∧ get s ≤ maximum then some (get s) else none) = some (get s)
    rw [if_pos h]
  · show -2147483648 ≤ get s ∧ get s ≤ 2147483647
    omega

/-- A number is read back if it is within its bounds. -/
theorem natural_ok {minimum maximum : Nat} {get : InputSettings → Nat}
    {set : Nat → InputSettings → InputSettings} (h : minimum ≤ get s ∧ get s ≤ maximum)
    (hmax : maximum ≤ 2147483647) : Ok s (natural group key minimum maximum get set) := by
  constructor
  · show (if (minimum : Int) ≤ (get s : Int) ∧ (get s : Int) ≤ (maximum : Int) then
      some (get s : Int).toNat else none) = some (get s)
    rw [if_pos (by omega), Int.toNat_natCast]
  · show -2147483648 ≤ (get s : Int) ∧ (get s : Int) ≤ 2147483647
    omega

/-- A text is read back if it is valid and plain. -/
theorem text_ok {valid : Bytes → Bool} {get : InputSettings → Bytes}
    {set : Bytes → InputSettings → InputSettings} (h : valid (get s) = true)
    (hplain : PlainText (get s)) : Ok s (text group key valid get set) := by
  refine ⟨?_, hplain⟩
  show (if valid (get s) then some (get s) else none) = some (get s)
  rw [if_pos h]

/-- Endpoints and other texts, by their validators. -/
theorem endpoint_ok {get : InputSettings → Bytes} {set : Bytes → InputSettings → InputSettings}
    (h : validHttpsEndpoint (get s) = true) : Ok s (text group key validHttpsEndpoint get set) :=
  text_ok h (plainText_of_validHttpsEndpoint h)

/-- The texts of the voice service are plain by their own check. -/
theorem voiceText_ok {maximum : Nat} {get : InputSettings → Bytes}
    {set : Bytes → InputSettings → InputSettings} (h : validVoiceText maximum (get s) = true) :
    Ok s (text group key (validVoiceText maximum) get set) :=
  text_ok h (plainText_of_validUtf8Text (Bool.and_eq_true_iff.mp h).1)

end SettingsField

section Ok

variable {E : SettingsEnv} (hE : E.KnowsSchemas) {s : InputSettings}

open SettingsField

include hE in
/-- The fields, table by table. -/
theorem inputFields_ok (h : s.Valid E.supportedHelpcodeSchema) :
    ∀ f ∈ inputFields E.supportedHelpcodeSchema, Ok s f := by
  simp only [inputFields, List.forall_mem_cons]
  exact ⟨choice_ok InputMode.goodNames, choice_ok InputMode.goodNames,
    choice_ok SchemeType.goodNames, natural_ok h.pageSize (by decide),
    choice_ok CandidateWindowLayout.goodNames, choice_ok PunctuationMode.goodNames,
    choice_ok PunctuationLock.goodNames, fullWidth_ok, boolean_ok, boolean_ok, boolean_ok,
    boolean_ok, boolean_ok, boolean_ok, choice_ok PreeditStyle.goodNames, boolean_ok,
    text_ok h.quanpinHelpcodeSchema (hE.schemaText _ h.quanpinHelpcodeSchema), boolean_ok,
    text_ok h.shuangpinHelpcodeSchema (hE.schemaText _ h.shuangpinHelpcodeSchema),
    choice_ok FrequencyAdjustmentMode.goodNames,
    integer_ok h.frequencyTriggerCount (by decide) (by decide),
    integer_ok h.frequencyLinearStep (by decide) (by decide), boolean_ok, boolean_ok,
    boolean_ok, boolean_ok, boolean_ok, natural_ok h.mixedEnglishMinimumPrefix (by decide),
    boolean_ok, boolean_ok, by simp⟩

theorem utilityFields_ok : ∀ f ∈ utilityFields, Ok s f := by
  simp only [utilityFields, List.forall_mem_cons]
  exact ⟨boolean_ok, boolean_ok, boolean_ok, boolean_ok, boolean_ok, boolean_ok, boolean_ok,
    boolean_ok, boolean_ok, boolean_ok, boolean_ok, by simp⟩

theorem onlineFields_ok {supportedSchema : Bytes → Bool} (h : s.Valid supportedSchema) :
    ∀ f ∈ onlineFields, Ok s f := by
  simp only [onlineFields, List.forall_mem_cons]
  exact ⟨boolean_ok, integer_ok h.connectTimeout (by decide) (by decide),
    integer_ok h.totalTimeout (by decide) (by decide), boolean_ok,
    choice_ok AiProvider.goodNames, endpoint_ok h.aiEndpoint,
    text_ok h.aiModel (plainText_of_validUtf8Text h.aiModel),
    text_ok h.aiPrompt (plainText_of_validUtf8Text h.aiPrompt),
    natural_ok h.aiCandidateLimit (by decide), boolean_ok,
    choice_ok TranslationProvider.goodNames,
    text_ok h.translationTargetLanguage
      (plainText_of_validTranslationLanguage h.translationTargetLanguage),
    endpoint_ok h.translationEndpoint, by simp⟩

theorem voiceFields_ok {supportedSchema : Bytes → Bool} (h : s.Valid supportedSchema) :
    ∀ f ∈ voiceFields, Ok s f := by
  simp only [voiceFields, List.forall_mem_cons]
  exact ⟨boolean_ok, voiceText_ok h.voiceProvider, endpoint_ok h.voiceEndpoint,
    voiceText_ok h.voiceModel, voiceText_ok h.voiceLanguage, boolean_ok,
    endpoint_ok h.polishEndpoint, voiceText_ok h.polishModel,
    text_ok h.polishPrompt (plainText_of_validUtf8Text (Bool.and_eq_true_iff.mp h.polishPrompt).1),
    by simp⟩

include hE in
/-- **Boundary values included**: what the check accepts can be written and is
read back. -/
theorem settingsFields_ok (h : s.Valid E.supportedHelpcodeSchema) :
    ∀ f ∈ settingsFields E.supportedHelpcodeSchema, Ok s f := by
  simp only [settingsFields, List.forall_mem_append]
  exact ⟨inputFields_ok hE h, utilityFields_ok, onlineFields_ok h, voiceFields_ok h⟩

end Ok

/-! ## The file a save leaves -/

/-- The key file `file'` is `file` with the settings in it and nothing else
changed, the credentials of earlier versions apart: of each the last line is gone. -/
structure Rewritten (E : SettingsEnv) (settings : InputSettings)
    (file file' : E.keyFiles.File) : Prop where
  holds : ∀ f ∈ settingsFields E.supportedHelpcodeSchema, f.Holds E.keyFiles file' settings
  secrets : ∀ slot ∈ secretKeys,
    (E.keyFiles.hasKey file' slot = true ↔ 1 < E.keyFiles.pairs file slot)
  frame : ∀ slot, ¬ Owned (settingsFields E.supportedHelpcodeSchema) slot → slot ∉ secretKeys →
    E.keyFiles.Same file' file slot
  groups : ∀ group, E.keyFiles.hasGroup file group = true →
    E.keyFiles.hasGroup file' group = true

section Store

variable {E : SettingsEnv} (hE : E.Lawful) {settings : InputSettings} {disk after : Disk}
  {digest : Option Bytes}

include hE in
/-- The file is changed in memory, written, and read again. -/
theorem rewritten_settingsFile (h : settings.Valid E.supportedHelpcodeSchema)
    {file file' : E.keyFiles.File} (hfile : ∀ slot, E.keyFiles.Indexed file slot) {data : Bytes}
    (hdata : E.keyFiles.toData (E.settingsFile settings file) = some data)
    (hparse : E.keyFiles.parse data = some file') : Rewritten E settings file file' where
  holds := by
    intro f hf
    have hslot : f.slot ∉ secretKeys := fun hsecret =>
      secretKeys_not_owned hsecret ⟨f, hf, rfl⟩
    -- every owned key is set, the secret ones are removed, and the text is parsed again
    have hsaved := holds_saveFields hE.keyFiles (settingsFields_wellNamed _)
      (fun f hf => (settingsFields_ok hE.toKnowsSchemas h f hf).2) file f hf
    have hremoved := hsaved.of_same (same_removeKeys hE.keyFiles secretKeys_plain hslot _)
    obtain ⟨read, hread, -, hsame, -⟩ := hE.keyFiles.parse_toData hdata
    obtain rfl := Option.some.inj (hread.symm.trans hparse)
    exact hremoved.of_same (hsame f.slot hremoved.1)
  secrets := by
    intro slot hslot
    have hsame := same_saveFields hE.keyFiles (settingsFields_wellNamed E.supportedHelpcodeSchema)
      (secretKeys_not_owned hslot) settings file
    rw [reloaded_removeKeys hE.keyFiles secretKeys_plain hslot (hsame.indexed (hfile slot)) hdata
      hparse, hsame.2.1]
  frame := by
    intro slot howned hsecret
    have hsame := (same_removeKeys hE.keyFiles secretKeys_plain hsecret _).trans
      (same_saveFields hE.keyFiles (settingsFields_wellNamed _) howned settings file)
    exact (same_reloaded hE.keyFiles (hsame.indexed (hfile slot)) hdata hparse).trans hsame
  groups := by
    intro group hgroup
    obtain ⟨read, hread, -, -, hgroups⟩ := hE.keyFiles.parse_toData hdata
    obtain rfl := Option.some.inj (hread.symm.trans hparse)
    rw [hgroups]
    exact hasGroup_removeKeys hE.keyFiles secretKeys_plain
      (hasGroup_saveFields hE.keyFiles (settingsFields_wellNamed _) settings hgroup)

/-- The key file a disk holds, if it holds one: what a save starts from. -/
def Disk.keyFile (E : SettingsEnv) (disk : Disk) : E.keyFiles.File :=
  match disk.config with
  | .regular contents => (E.keyFiles.parse contents).getD E.keyFiles.empty
  | .missing | .unreadable | .directory => E.keyFiles.empty

include hE in
/-- A file on disk can be looked up. -/
theorem Disk.keyFile_indexed (disk : Disk) (slot : Slot) :
    E.keyFiles.Indexed (disk.keyFile E) slot := by
  have hempty : E.keyFiles.Indexed E.keyFiles.empty slot := by
    unfold KeyFiles.Indexed
    simp [hE.keyFiles.missing_empty, hE.keyFiles.pairs_empty]
  unfold Disk.keyFile
  split
  · next contents _ =>
    cases hparse : E.keyFiles.parse contents with
    | none => exact hempty
    | some file => exact hE.keyFiles.indexed_parse hparse slot
  · exact hempty
  · exact hempty
  · exact hempty

/-- What a save starts from is the file that is there. -/
theorem preserved_file {io : WriteOutcome} {file : E.keyFiles.File} {before : Disk}
    (h : E.preserved io disk = some (file, before)) : file = disk.keyFile E := by
  unfold SettingsEnv.preserved at h
  unfold Disk.keyFile
  split at h
  · next hmissing =>
    rw [hmissing]
    obtain ⟨rfl, -⟩ := by simpa using h
    rfl
  · cases h
  · cases h
  · next contents hregular =>
    rw [hregular]
    split at h
    · next parsed hparse =>
      obtain ⟨rfl, -⟩ := by simpa using h
      simp [hparse]
    · next hparse =>
      simp only [Option.some.injEq, Prod.mk.injEq] at h
      simp [hparse, h.1]

include hE in
/-- The file a successful save leaves. -/
theorem SettingsEnv.Saved.file (h : E.Saved settings disk after digest) :
    ∃ data file', after.config = .regular data ∧ E.keyFiles.parse data = some file' ∧
      Rewritten E settings (disk.keyFile E) file' := by
  obtain ⟨io, file, before, data, hpreserved, hdata, rfl, -⟩ := h.written
  obtain ⟨file', hparse, -⟩ := hE.keyFiles.parse_toData hdata
  obtain rfl := preserved_file hpreserved
  exact ⟨data, file', rfl, hparse, rewritten_settingsFile hE
    (validInputSettings_iff.mp h.valid) (disk.keyFile_indexed hE) hdata hparse⟩

include hE in
/-- **Loading what was saved** gives what a file can keep of it, and no warning. -/
theorem SettingsEnv.Saved.load_eq (h : E.Saved settings disk after digest) :
    E.load after.config = (settings.persisted, "") := by
  obtain ⟨data, file', hconfig, hparse, hfile⟩ := h.file hE
  have hread : ∀ f ∈ settingsFields E.supportedHelpcodeSchema, f.Readable settings :=
    fun f hf => (settingsFields_ok hE.toKnowsSchemas (validInputSettings_iff.mp h.valid) f hf).1
  rw [hconfig]
  simp only [load, hparse, loadFields_eq hfile.holds hread, copyFields_settingsFields,
    Bool.false_eq_true, if_false]

/-- What a field writes is part of what a file can keep. -/
theorem written_persisted (supportedSchema : Bytes → Bool) (settings : InputSettings) :
    ∀ f ∈ settingsFields supportedSchema, f.written settings.persisted = f.written settings := by
  simp only [settingsFields, inputFields, utilityFields, onlineFields, voiceFields,
    List.forall_mem_append, List.forall_mem_cons, KeyField.written, SettingsField.boolean,
    SettingsField.choice, SettingsField.text, SettingsField.integer, SettingsField.natural,
    SettingsField.fullWidth, InputSettings.persisted, and_true, List.not_mem_nil,
    false_implies, implies_true]

/-- What is written depends on what is persisted alone. -/
theorem written_eq_of_persisted {supportedSchema : Bytes → Bool} {s s' : InputSettings}
    (h : s'.persisted = s.persisted) :
    ∀ f ∈ settingsFields supportedSchema, f.written s' = f.written s := by
  intro f hf
  rw [← written_persisted supportedSchema s f hf, ← h, written_persisted supportedSchema s' f hf]

/-- So does the file. -/
theorem settingsFile_eq_of_persisted {s s' : InputSettings} (h : s'.persisted = s.persisted)
    (file : E.keyFiles.File) : E.settingsFile s' file = E.settingsFile s file := by
  unfold SettingsEnv.settingsFile
  rw [saveFields_congr (written_eq_of_persisted h)]

/-- Loaded settings are what a file can keep. -/
theorem load_persisted (E : SettingsEnv) (config : ConfigFile) :
    (E.load config).1.persisted = (E.load config).1 := by
  have hset : ∀ f ∈ settingsFields E.supportedHelpcodeSchema, ∀ value v,
      f.codec.decode value = some v → ∀ t : InputSettings, t.persisted = t →
        (f.set v t).persisted = f.set v t := by
    have hcomm : ∀ f ∈ settingsFields E.supportedHelpcodeSchema, ∀ v t,
        (f.set v t).persisted = f.set v t.persisted := by
      simp only [settingsFields, inputFields, utilityFields, onlineFields, voiceFields,
        List.forall_mem_append, List.forall_mem_cons, SettingsField.boolean,
        SettingsField.choice, SettingsField.text, SettingsField.integer, SettingsField.natural,
        SettingsField.fullWidth, InputSettings.persisted, and_true, List.not_mem_nil,
        false_implies, implies_true]
    intro f hf value v _ t ht
    rw [hcomm f hf, ht]
  unfold SettingsEnv.load
  split
  · rfl
  · rfl
  · rfl
  · split
    · rfl
    · next file hparse => exact loadFields_invariant file hset rfl

end Store

/-- **Saving again** settings that differ in credentials only leaves every byte of the file as
it is, if there was no file before. -/
theorem SettingsEnv.Saved.again {settings settings' : InputSettings} {disk after after' : Disk}
    {digest digest' : Option Bytes} (h : plainEnv.Saved settings disk after digest)
    (hmissing : disk.config = .missing) (h' : plainEnv.Saved settings' after after' digest')
    (hpersisted : settings'.persisted = settings.persisted) : after'.config = after.config := by
  obtain ⟨io, file, before, data, hpreserved, hdata, rfl, -⟩ := h.written
  obtain ⟨io', file', before', data', hpreserved', hdata', rfl, -⟩ := h'.written
  have hempty : file = plainEnv.keyFiles.empty := by
    rw [preserved_file hpreserved, Disk.keyFile, hmissing]
  subst hempty
  obtain ⟨hhidden, hagain⟩ := saveFields_again utf8Validate
    (settingsFields_wellNamed plainEnv.supportedHelpcodeSchema)
    (fun _ hslot => secretKeys_not_owned hslot) settings
    (show IniFile.hidden plainEnv.keyFiles.empty = [] from rfl) fun _ _ => rfl
  -- the second save starts from the very file the first one has written
  have hparse : plainEnv.keyFiles.parse data =
      some (plainEnv.settingsFile settings plainEnv.keyFiles.empty) :=
    iniFiles_reread hhidden hdata
  have hfile : file' = plainEnv.settingsFile settings plainEnv.keyFiles.empty := by
    rw [preserved_file hpreserved']
    show (plainEnv.keyFiles.parse data).getD _ = _
    rw [hparse, Option.getD_some]
  have hagain' : plainEnv.settingsFile settings
      (plainEnv.settingsFile settings plainEnv.keyFiles.empty) =
        plainEnv.settingsFile settings plainEnv.keyFiles.empty := hagain
  rw [settingsFile_eq_of_persisted hpersisted, hfile, hagain', hdata] at hdata'
  obtain rfl := Option.some.inj hdata'
  rfl

/-! ## The round trip -/

/-- Valid settings are saved where there is no file yet. -/
theorem save_missing {settings : InputSettings}
    (hvalid : validInputSettings plainEnv.supportedHelpcodeSchema settings = true) :
    (plainEnv.save {} settings {}).error = none := by
  unfold SettingsEnv.save SettingsEnv.saveUnlocked
  rw [hvalid]
  rfl

/-- Valid settings are saved where a file can be read. -/
theorem save_regular {settings : InputSettings} {disk : Disk} {contents : Bytes}
    (hvalid : validInputSettings plainEnv.supportedHelpcodeSchema settings = true)
    (hconfig : disk.config = .regular contents) :
    (plainEnv.save {} settings disk).error = none := by
  unfold SettingsEnv.save SettingsEnv.saveUnlocked SettingsEnv.preserved
  rw [hvalid, hconfig]
  dsimp only
  cases plainEnv.keyFiles.parse contents <;> rfl

end MsimeLinux
