import MsimeLinux.Account.ClientRequests
import MsimeLinux.Account.DictionaryWindow
import MsimeLinux.Account.RecordLimits

/-!
# What the account client returns

A server may answer anything: any status, any text, any JSON. What an operation returns is
within the limits the callers rely on, whatever the answer was; and what it throws tells a
refusal of the server from everything else.

- `Sound`: what is returned of a request; `operation_returns`.
- `client_sound`, `client_failure`: an operation, over any transport.
- `ListingEnv.ofClient`: the pages are those the dictionary window relies on.
-/

namespace MsimeLinux

open Lib DictionaryTsv

namespace BackendAccountClient

/-! ## What is sound -/

/-- Bytes up to some length, without a zero byte; text is UTF-8 besides. -/
def Fits (limit : Nat) (text : Bytes) : Prop := text.length ≤ limit ∧ 0 ∉ text

def Worded (limit : Nat) (text : Bytes) : Prop := text.length ≤ limit ∧ 0 ∉ text ∧ ValidUtf8 text

structure SoundUser (user : User) : Prop where
  id : user.id ≠ [] ∧ Fits 128 user.id
  displayName : Fits 512 user.displayName
  createdAt : Fits 128 user.createdAt

structure SoundChallenge (challenge : Challenge) : Prop where
  id : challenge.id ≠ [] ∧ Fits 128 challenge.id
  expiresIn : 0 < challenge.expiresIn.toInt ∧ challenge.expiresIn.toInt ≤ 86400
  nonce : Fits 256 challenge.nonce
  authorizationUrl : Fits 4096 challenge.authorizationUrl

structure SoundProfile (profile : Profile) : Prop where
  user : SoundUser profile.user
  few : profile.identities.length ≤ 32
  identities : ∀ identity ∈ profile.identities,
    Fits 32 identity.provider ∧ Fits 512 identity.subject

/-- Numbers are in a range, texts are text. -/
def SoundSetting : PreferenceValue → Prop
  | .bool _ => True
  | .int64 value => 0 ≤ value.toInt ∧ value.toInt ≤ 1000000
  | .double value => 0 ≤ value ∧ value ≤ 1000000
  | .string value => Worded (1024 * 1024) value

structure SoundPreferences (preferences : Preferences) : Prop where
  revision : 0 ≤ preferences.revision.toInt
  few : preferences.settings.keys.card ≤ 1024
  settings : ∀ key value, preferences.settings.lookup key = some value →
    Worded 256 key ∧ SoundSetting value

structure SoundField (key : Bytes) (field : PreferenceField) : Prop where
  key : Worded 256 key
  type : field.type ∈ [ascii "boolean", ascii "integer", ascii "number", ascii "string"]
  length : 0 < field.maximumLength ∧ field.maximumLength ≤ 1024 * 1024

structure SoundSchema (schema : PreferencesSchema) : Prop where
  bytes : 0 < schema.maximumBytes ∧ schema.maximumBytes ≤ 1024 * 1024
  few : schema.fields.keys.card ≤ 1024
  fields : ∀ key field, schema.fields.lookup key = some field → SoundField key field

structure SoundItem (item : ClipboardItem) : Prop where
  id : validAccountToken item.id = true
  text : Worded 16000 item.text ∧ utf16Units item.text ≤ 4000
  notBlank : ∃ c ∈ item.text, isBlank c = false
  updatedAt : Fits 128 item.updatedAt

/-- An entry of a user, and one of the catalogue, which has neither an id nor a date. -/
structure SoundEntry (kind : Bytes) (entry : MsimeLinux.DictionaryEntry) : Prop where
  id : validAccountToken entry.id = true
  ofKind : entry.kind = kind
  valid : ValidEntry kind (rowOf entry)
  revision : 1 ≤ entry.revision.toInt
  updatedAt : entry.updatedAt ≠ [] ∧ Fits 128 entry.updatedAt

structure SoundCatalogEntry (kind : Bytes) (entry : MsimeLinux.DictionaryEntry) : Prop where
  ofKind : entry.kind = kind
  valid : ValidEntry kind (rowOf entry)
  bare : entry.id = [] ∧ entry.revision = 0 ∧ entry.updatedAt = []

/-- A page is the one asked for, and no entry is on it twice. -/
structure SoundPage (Entry : MsimeLinux.DictionaryEntry → Prop)
    (same : MsimeLinux.DictionaryEntry → MsimeLinux.DictionaryEntry → Bool)
    (offset limit : Int32) (page : DictionaryPage) : Prop where
  range : ¬ offRange offset limit
  few : page.entries.length ≤ limit.toInt.toNat
  entries : ∀ entry ∈ page.entries, Entry entry
  distinct : page.entries.Pairwise fun old entry => same old entry = false
  offset : page.offset = offset
  full : page.hasMore = true → page.entries.length = limit.toInt.toNat
  revision : 0 ≤ page.revision.toInt

/-- An edit of the catalogue: of the entry that was meant, and the next revision. -/
structure SoundManaged (kind : Bytes) (revision : Int64) (previous : MsimeLinux.DictionaryEntry)
    (replacement : Option MsimeLinux.DictionaryEntry) (change : DictionaryChange) : Prop where
  next : change.revision.toInt = revision.toInt + 1
  previous : ∃ old, change.previous = some old ∧ SoundCatalogEntry kind old ∧
    old.code = previous.code ∧ old.word = previous.word
  replacement : change.replacement.isSome = replacement.isSome
  entry : ∀ next, change.replacement = some next → SoundCatalogEntry kind next

/-- An edit of an entry: of the revision that was meant, or of none. -/
structure SoundEdit (kind id : Bytes) (revision : Int64)
    (replacement : Option MsimeLinux.DictionaryEntry) (change : DictionaryChange) : Prop where
  later : revision.toInt < change.revision.toInt
  previous : change.previous.isSome = true ↔ id ≠ []
  old : ∀ old, change.previous = some old →
    SoundEntry kind old ∧ old.id = id ∧ old.revision = revision
  replacement : change.replacement.isSome = replacement.isSome
  new : ∀ next, change.replacement = some next →
    SoundEntry kind next ∧ next.revision = change.revision ∧ (id ≠ [] → next.id = id)

/-- A table: every line of it that counts is a record. -/
structure SoundTable (kind format : Bytes) (maximum : Nat) (text : Bytes) : Prop where
  few : (countedLines (tsvBody text)).length ≤ maximum
  records : ∀ line ∈ countedLines (tsvBody text), ∃ entry, TsvRecord kind format line entry

/-- A file: the sink took every piece of it. -/
structure SoundDownload (sink : Nat → Bytes → Bool) (delivered : List Bytes) : Prop where
  taken : ∀ n, ∀ h : n < delivered.length, sink n delivered[n] = true
  size : 0 < delivered.flatten.length ∧ delivered.flatten.length ≤ maximumSnapshotBytes

/-- What is returned of a request. -/
def Sound (sink : Option (Nat → Bytes → Bool)) (answer : ApiAnswer) :
    (request : AccountRequest) → request.Response → Prop
  | .challenge .., response => SoundChallenge response
  | .login .., response => TokensFit response
  | .refresh .., response => TokensFit response
  | .profile .., response => SoundProfile response
  | .preferences .., response => SoundPreferences response
  | .preferencesSchema .., response => SoundSchema response
  | .putPreferences value .., response =>
    SoundPreferences response ∧ response.revision.toInt = value.revision.toInt + 1
  | .clipboard .., response =>
    response.items.length ≤ 50 ∧ ∀ item ∈ response.items, SoundItem item
  | .addClipboard .., response => SoundItem response
  | .dictionary kind _ offset limit _, response =>
    SoundPage (SoundEntry kind) DictionaryWindow.sameId offset limit response ∧
      response.revision = 0
  | .dictionaryCatalog kind _ offset limit .., response =>
    SoundPage (SoundCatalogEntry kind) DictionaryWindow.sameText offset limit response
  | .manageDictionary kind revision previous replacement _, response =>
    SoundManaged kind revision previous replacement response
  | .editDictionary kind id revision replacement _, response =>
    SoundEdit kind id revision replacement response
  | .importDictionary kind text format _, response =>
    SoundTable kind format 500 text ∧ 1 ≤ response.imported.toInt ∧ 1 ≤ response.revision.toInt ∧
      response.imported.toInt = (countedLines (tsvBody text)).length
  | .importHanDictionary .., response =>
    1 ≤ response.imported.toInt ∧ response.imported.toInt ≤ 500 ∧ 1 ≤ response.revision.toInt
  | .exportDictionary kind format _, response =>
    response.length ≤ 256 * 1024 * 1024 ∧ SoundTable kind format 100000 response ∧
      Ended (tsvBody response)
  | .downloadSnapshot _, _ => ∃ take, sink = some take ∧ SoundDownload take answer.delivered
  | .restoreSnapshot _ revision _, response => revision.toInt < response.toInt
  | .rename .., _ | .setClipboardEnabled .., _ | .deleteClipboard .., _ | .logout .., _
  | .deleteAccount .., _ => True

/-! ## Reading -/

variable {J : ClientJson}

/-- A string that was read is within the limit it was read with. -/
theorem accountString_fits {members : JsonObject} {key text : Bytes} {limit : Nat}
    (h : accountString members key limit = .ok text) : Fits limit text :=
  (accountString_eq_ok_iff.mp h).2

/-- So is one that may be missing, which reads as empty. -/
theorem optionalString_fits {members : JsonObject} {key text : Bytes} {limit : Nat}
    (h : optionalString members key limit = .ok text) : Fits limit text := by
  unfold optionalString at h
  split at h
  · cases h
    exact ⟨Nat.zero_le _, by simp⟩
  · cases h
    exact ⟨Nat.zero_le _, by simp⟩
  · exact accountString_fits h

/-- A number that was read is not below the minimum asked for. -/
theorem dictionaryNumber_le {members : JsonObject} {key : Bytes} {minimum value : Int64}
    (h : dictionaryNumber members key minimum = .ok value) : minimum.toInt ≤ value.toInt := by
  unfold dictionaryNumber at h
  split at h
  · split at h
    · cases h
    next hvalue =>
      cases h
      rwa [Int64.lt_iff_toInt_lt, Int.not_lt] at hvalue
  · cases h

/-- An array that was read is no longer than its limit. -/
theorem elementsOf_length {members : JsonObject} {key : Bytes} {limit : Nat}
    {elements : List Json} (h : elementsOf members key limit = .ok elements) :
    elements.length ≤ limit := by
  unfold elementsOf at h
  split at h
  · split at h
    · cases h
    next hlimit =>
      cases h
      exact Nat.le_of_not_lt hlimit
  · cases h

theorem readElement_eq_ok_iff {α : Type} {read : JsonObject → Except Failure α} {element : Json}
    {value : α} :
    readElement read element = .ok value ↔
      ∃ source, element = .object source ∧ read source = .ok value := by
  cases element <;> simp [readElement]

/-- A user that was read has an identifier, and texts within their limits. -/
theorem decodeUser_sound {members : JsonObject} {user : User}
    (h : decodeUser members = .ok user) : SoundUser user := by
  obtain ⟨_, -, hid, hdisplayName, hcreatedAt, hne⟩ := decodeUser_eq_ok_iff.mp h
  exact ⟨⟨hne, hid.2⟩, hdisplayName.2, hcreatedAt.2⟩

/-- Renaming failures does not change what is returned. -/
theorem asMalformed_eq_ok_iff {α : Type} {m : Except Failure α} {a : α} :
    asMalformed m = .ok a ↔ m = .ok a := by
  cases m with
  | error failure => simp [asMalformed]
  | ok b => exact Iff.rfl

/-- The length of a field is positive, and at most a MiB. -/
theorem maximumLength_sound {field : JsonObject} {length : Nat}
    (h : maximumLength field = .ok length) : 0 < length ∧ length ≤ 1024 * 1024 := by
  unfold maximumLength at h
  split at h
  · cases h
    decide
  · split at h
    · cases h
    next hrange =>
      cases h
      omega
  · cases h

/-- A map in the making: its keys are among those there are, and what it has is sound. -/
structure Gathered {β : Type} (P : Bytes → β → Prop) (keys : List Bytes)
    (read : Finmap fun _ : Bytes => β) : Prop where
  keys : ∀ key ∈ read.keys, key ∈ keys
  sound : ∀ key value, read.lookup key = some value → P key value

namespace Gathered

variable {β : Type} {P : Bytes → β → Prop} {keys : List Bytes} {read : Finmap fun _ : Bytes => β}

theorem empty : Gathered P keys ∅ :=
  ⟨by simp, fun key value hlookup => by simp at hlookup⟩

theorem insert {key : Bytes} {value : β} (hkey : key ∈ keys) (hvalue : P key value)
    (h : Gathered P keys read) : Gathered P keys (read.insert key value) := by
  refine ⟨fun other hother => ?_, fun other value' hlookup => ?_⟩
  · rw [Finmap.mem_keys, Finmap.mem_insert] at hother
    rcases hother with rfl | hother
    · exact hkey
    · exact h.keys other (Finmap.mem_keys.mpr hother)
  · by_cases hsame : other = key
    · subst hsame
      rw [Finmap.lookup_insert] at hlookup
      cases hlookup
      exact hvalue
    · rw [Finmap.lookup_insert_of_ne _ hsame] at hlookup
      exact h.sound other value' hlookup

/-- A map in the making has no more keys than there were members. -/
theorem card_le (h : Gathered P keys read) : read.keys.card ≤ keys.length :=
  (Finset.card_le_card fun key hkey => List.mem_toFinset.mpr (h.keys key hkey)).trans
    (List.toFinset_card_le keys)

end Gathered

section

variable (hJ : ChecksUtf8 J.toJsonLib)
include hJ

/-- A text for the clipboard: UTF-8 within both limits, and not blank. -/
theorem requireClipboardText_sound {text : Bytes} {u : Unit}
    (h : requireClipboardText J text = .ok u) :
    (Worded 16000 text ∧ utf16Units text ≤ 4000) ∧ ∃ c ∈ text, isBlank c = false := by
  simp only [requireClipboardText, call_eq_ok_iff, guard_eq_ok_iff,
    requireText_eq_ok_iff hJ] at h
  obtain ⟨-, hworded, hlimits, -⟩ := h
  obtain ⟨hfew, hblank⟩ := not_or.mp hlimits
  rw [List.all_eq_true] at hblank
  push Not at hblank
  obtain ⟨c, hc, hcblank⟩ := hblank
  exact ⟨⟨hworded, Nat.le_of_not_lt hfew⟩, c, hc, Bool.eq_false_iff.mpr hcblank⟩

theorem clipboardItem_sound {source : JsonObject} {item : ClipboardItem}
    (h : clipboardItem J source = .ok item) : SoundItem item := by
  simp only [clipboardItem, call_eq_ok_iff, guard_eq_ok_iff, pure_eq_ok_iff] at h
  obtain ⟨id, -, text, -, updatedAt, hupdatedAt, hvalid, _, htext, rfl⟩ := h
  obtain ⟨hworded, hblank⟩ := requireClipboardText_sound hJ htext
  exact ⟨by simpa using hvalid, hworded, hblank, accountString_fits hupdatedAt⟩

/-- The check of an entry is the one of a line of a table. -/
theorem requireDictionaryEntry_sound {entry : MsimeLinux.DictionaryEntry} {kind : Bytes} {u : Unit}
    (h : requireDictionaryEntry J entry kind = .ok u) : ValidEntry kind (rowOf entry) :=
  (requireDictionaryEntry_eq_ok_iff hJ (Int64.toInt_le _)).mp h

theorem dictionaryEntry_sound {source : JsonObject} {kind : Bytes}
    {entry : MsimeLinux.DictionaryEntry} (h : dictionaryEntry J source kind = .ok entry) :
    SoundEntry kind entry := by
  simp only [dictionaryEntry, call_eq_ok_iff, guard_eq_ok_iff, pure_eq_ok_iff,
    asMalformed_eq_ok_iff] at h
  obtain ⟨id, -, kind', -, code, -, word, -, weight, -, revision, hrevision, updatedAt,
    hupdatedAt, hvalid, hkind, _, hentry, rfl⟩ := h
  obtain ⟨hsame, hdated⟩ := not_or.mp hkind
  exact ⟨by simpa using hvalid, by simpa using hsame, requireDictionaryEntry_sound hJ hentry,
    dictionaryNumber_le hrevision, hdated, accountString_fits hupdatedAt⟩

/-- An entry of the catalog may lack what only the user's own entries have. -/
theorem catalogEntry_sound {source : JsonObject} {kind : Bytes}
    {entry : MsimeLinux.DictionaryEntry} (h : catalogEntry J source kind = .ok entry) :
    SoundCatalogEntry kind entry := by
  simp only [catalogEntry, call_eq_ok_iff, guard_eq_ok_iff, pure_eq_ok_iff,
    asMalformed_eq_ok_iff] at h
  obtain ⟨kind', -, code, -, word, -, weight, -, hkind, _, hentry, rfl⟩ := h
  exact ⟨by simpa using hkind, requireDictionaryEntry_sound hJ hentry, rfl, rfl, rfl⟩

theorem optionalDictionaryEntry_sound {source : JsonObject} {key kind : Bytes}
    {entry : Option MsimeLinux.DictionaryEntry}
    (h : optionalDictionaryEntry J source key kind = .ok entry) :
    ∀ old, entry = some old → SoundEntry kind old := by
  unfold optionalDictionaryEntry at h
  split at h
  · cases h
    nofun
  · simp only [call_eq_ok_iff, pure_eq_ok_iff] at h
    obtain ⟨old, hold, rfl⟩ := h
    intro _ heq
    cases heq
    exact dictionaryEntry_sound hJ hold
  · cases h

/-! ### Preferences -/

/-- A setting is a text within its limit, a flag, or a finite number. -/
theorem settingValue_sound {text key : Bytes} {json : Json} {value : PreferenceValue}
    (h : settingValue J text key json = .ok value) : SoundSetting value := by
  cases json with
  | bool value =>
    cases h
    trivial
  | int value =>
    simp only [settingValue] at h
    split at h
    next hrange =>
      cases h
      have hint : (Int64.ofInt value).toInt = value :=
        Int64.toInt_ofInt_of_le (by omega) (by omega)
      show 0 ≤ (Int64.ofInt value).toInt ∧ (Int64.ofInt value).toInt ≤ 1000000
      rw [hint]
      exact hrange
    · cases h
  | double =>
    simp only [settingValue] at h
    split at h
    · split at h
      next hrange =>
        cases h
        exact hrange
      · cases h
    · cases h
  | string value =>
    simp only [settingValue, call_eq_ok_iff, pure_eq_ok_iff, requireText_eq_ok_iff hJ] at h
    obtain ⟨_, hworded, rfl⟩ := h
    exact hworded
  | null | uint | array | object => cases h

/-- A setting that may be returned. -/
def SettingRead (key : Bytes) (value : PreferenceValue) : Prop :=
  Worded 256 key ∧ SoundSetting value

/-- One member more of `settings`. -/
theorem readSetting_sound {text : Bytes} {settings : JsonObject} {keys : List Bytes}
    {read read' : PreferenceSettings} {key : Bytes} (hkey : key ∈ keys)
    (h : readSetting J text settings read key = .ok read')
    (hread : Gathered SettingRead keys read) : Gathered SettingRead keys read' := by
  unfold readSetting at h
  rw [call_eq_ok_iff] at h
  obtain ⟨_, hworded, h⟩ := h
  rw [requireText_eq_ok_iff hJ] at hworded
  split at h
  · rw [call_eq_ok_iff] at h
    obtain ⟨value, hvalue, h⟩ := h
    obtain rfl := pure_eq_ok_iff.mp h
    exact hread.insert hkey ⟨hworded, settingValue_sound hJ hvalue⟩
  · obtain rfl := pure_eq_ok_iff.mp h
    exact hread

/-- Preferences that were read: the members by themselves, and how many there are. -/
theorem preferencesValue_sound {text : Bytes} {source : JsonObject} {preferences : Preferences}
    (h : preferencesValue J text source = .ok preferences) : SoundPreferences preferences := by
  unfold preferencesValue at h
  split at h
  · simp only [call_eq_ok_iff, guard_eq_ok_iff, pure_eq_ok_iff] at h
    obtain ⟨hlimits, read, hfold, rfl⟩ := h
    obtain ⟨hrevision, hfew⟩ := not_or.mp hlimits
    rw [Int64.lt_iff_toInt_lt, Int.not_lt] at hrevision
    have hread : Gathered SettingRead _ read := foldlM_invariant_mem
      (fun _ _ hkey _ hstep => readSetting_sound hJ hkey hstep) hfold .empty
    exact ⟨hrevision, hread.card_le.trans (Nat.le_of_not_lt hfew), hread.sound⟩
  · cases h

/-- One field more of the schema. -/
theorem readField_sound {fields : JsonObject} {keys : List Bytes}
    {read read' : Finmap fun _ : Bytes => PreferenceField} {key : Bytes} (hkey : key ∈ keys)
    (h : readField J fields read key = .ok read') (hread : Gathered SoundField keys read) :
    Gathered SoundField keys read' := by
  unfold readField at h
  split at h
  · simp only [call_eq_ok_iff, guard_eq_ok_iff, pure_eq_ok_iff, requireText_eq_ok_iff hJ] at h
    obtain ⟨_, hworded, type, -, htype, length, hlength, rfl⟩ := h
    refine hread.insert hkey ⟨hworded, ?_, ?_⟩
    · simp only [List.mem_cons, List.not_mem_nil, or_false]
      exact by_contra fun hne => htype (by simpa only [not_or] using hne)
    · dsimp only
      split
      · decide
      · exact maximumLength_sound hlength
  · cases h

/-- A schema that was read. -/
theorem schemaValue_sound {source : JsonObject} {schema : PreferencesSchema}
    (h : schemaValue J source = .ok schema) : SoundSchema schema := by
  unfold schemaValue at h
  split at h
  · simp only [call_eq_ok_iff, guard_eq_ok_iff] at h
    obtain ⟨hmaximum, mode, -, -, h⟩ := h
    split at h
    · simp only [call_eq_ok_iff, guard_eq_ok_iff, pure_eq_ok_iff] at h
      obtain ⟨hfew, read, hfold, rfl⟩ := h
      have hread : Gathered SoundField _ read := foldlM_invariant_mem
        (fun _ _ hkey _ hstep => readField_sound hJ hkey hstep) hfold .empty
      refine ⟨?_, hread.card_le.trans (Nat.le_of_not_lt hfew), hread.sound⟩
      dsimp only
      omega
    · cases h
  · cases h

end

/-! ### Pages -/

section

variable {Entry : MsimeLinux.DictionaryEntry → Prop}
  {same : MsimeLinux.DictionaryEntry → MsimeLinux.DictionaryEntry → Bool}
  {decode : JsonObject → Except Failure MsimeLinux.DictionaryEntry}

/-- An entry is put behind the others, if none of them is the same. -/
theorem addEntry_eq_ok_iff {page page' : List MsimeLinux.DictionaryEntry} {element : JsonObject} :
    addEntry decode same page element = .ok page' ↔ ∃ entry, decode element = .ok entry ∧
      (∀ old ∈ page, same old entry = false) ∧ page ++ [entry] = page' := by
  simp only [addEntry, call_eq_ok_iff, guard_eq_ok_iff, pure_eq_ok_iff, List.any_eq_true,
    not_exists, not_and, Bool.not_eq_true]

/-- Every element of the answer is an entry of the page, and no two are the same. -/
theorem addEntries_sound (hdecode : ∀ element entry, decode element = .ok entry → Entry entry)
    {elements : List Json} {page page' : List MsimeLinux.DictionaryEntry}
    (h : elements.foldlM (fun page => readElement (addEntry decode same page)) page = .ok page')
    (hentries : ∀ entry ∈ page, Entry entry)
    (hdistinct : page.Pairwise fun old entry => same old entry = false) :
    page'.length = page.length + elements.length ∧ (∀ entry ∈ page', Entry entry) ∧
      page'.Pairwise fun old entry => same old entry = false := by
  induction elements generalizing page with
  | nil =>
    obtain rfl := pure_eq_ok_iff.mp h
    exact ⟨rfl, hentries, hdistinct⟩
  | cons element elements ih =>
    rw [List.foldlM_cons, call_eq_ok_iff] at h
    obtain ⟨next, hnext, hrest⟩ := h
    obtain ⟨source, rfl, hadd⟩ := readElement_eq_ok_iff.mp hnext
    obtain ⟨entry, hentry, hnew, rfl⟩ := addEntry_eq_ok_iff.mp hadd
    have hentries' : ∀ other ∈ page ++ [entry], Entry other := by
      intro other hother
      rcases List.mem_append.mp hother with hother | hother
      · exact hentries other hother
      · exact List.mem_singleton.mp hother ▸ hdecode source entry hentry
    have hdistinct' : (page ++ [entry]).Pairwise fun old entry => same old entry = false := by
      rw [List.pairwise_append]
      refine ⟨hdistinct, List.pairwise_singleton _ _, fun old hold other hother => ?_⟩
      exact List.mem_singleton.mp hother ▸ hnew old hold
    obtain ⟨hlength, hall, hpairs⟩ := ih hrest hentries' hdistinct'
    refine ⟨?_, hall, hpairs⟩
    rw [hlength, List.length_append, List.length_cons, List.length_cons, List.length_nil]
    omega

/-- A page of a list, whichever way its entries are decoded and told apart. -/
theorem readPage_sound (hdecode : ∀ element entry, decode element = .ok entry → Entry entry)
    {offset limit : Int32} (hrange : ¬ offRange offset limit) {revision : Int64}
    (hrevision : 0 ≤ revision.toInt) {source : JsonObject} {page : DictionaryPage}
    (h : readPage decode same offset limit revision source = .ok page) :
    SoundPage Entry same offset limit page ∧ page.revision = revision := by
  unfold readPage at h
  split at h
  next more hmore =>
    simp only [call_eq_ok_iff, guard_eq_ok_iff, pure_eq_ok_iff] at h
    obtain ⟨elements, helements, answered, -, -, entries, hentries, hfull, rfl⟩ := h
    obtain ⟨hlength, hall, hpairs⟩ := addEntries_sound hdecode hentries (by simp) .nil
    refine ⟨⟨hrange, ?_, hall, hpairs, rfl, fun htrue => ?_, hrevision⟩, rfl⟩
    · dsimp only
      rw [hlength, List.length_nil, Nat.zero_add]
      exact elementsOf_length helements
    · exact by_contra fun hshort => hfull ⟨htrue, hshort⟩
  · cases h

/-- A sound page is one the dictionary window accepts. -/
theorem SoundPage.accepted {kind : Bytes} {offset limit : Int32} {page : DictionaryPage}
    (h : SoundPage Entry same offset limit page)
    (hkind : ∀ entry, Entry entry → entry.kind = kind) :
    DictionaryWindow.acceptPage same kind offset limit page.revision
      ⟨page.entries, page.hasMore, offset.toInt64⟩ = .ok page := by
  have hrange := h.range
  unfold offRange at hrange
  unfold DictionaryWindow.acceptPage
  rw [if_neg hrange, if_neg]
  · obtain ⟨entries, more, pageOffset, revision⟩ := page
    obtain rfl : pageOffset = offset := h.offset
    rfl
  · simp only [not_or, not_lt, not_and, not_not, List.any_eq_true, decide_eq_true_eq, not_exists]
    exact ⟨h.few, trivial, fun entry hentry => hkind entry (h.entries entry hentry),
      h.distinct, h.full⟩

end

/-! ## The operations -/

/-- The next revision, of one that has a next. -/
theorem toInt_next {revision next : Int64} (h : next = revision + 1)
    (hmax : revision ≠ Int64.maxValue) : next.toInt = revision.toInt + 1 := by
  have hle : revision.toInt ≤ 9223372036854775807 := revision.toInt_le
  have hge : -9223372036854775808 ≤ revision.toInt := revision.le_toInt
  have hne : revision.toInt ≠ 9223372036854775807 := fun heq =>
    hmax (Int64.toInt_inj.mp (heq.trans (by decide)))
  rw [h, Int64.toInt_add]
  refine Int.bmod_eq_of_le ?_ ?_ <;> simp <;> omega

/-- What an operation makes of an answer is sound. -/
def Returns (sink : Option (Nat → Bytes → Bool)) (request : AccountRequest)
    (operation : Except Failure (ApiCall request.Response)) : Prop :=
  ∀ call, operation = .ok call → ∀ answer response,
    answer.response.body.length ≤ call.request.maxResponseBytes →
      call.decode answer = .ok response → Sound sink answer request response

/-- What is decoded is an object. -/
theorem answered_decode {α : Type} {request : ApiRequest}
    {decode : JsonObject → Except Failure α} {answer : ApiAnswer} {value : α}
    (h : (answered J request decode).decode answer = .ok value) :
    ∃ source, decode source = .ok value := by
  obtain ⟨source, -, hvalue⟩ := call_eq_ok_iff.mp h
  exact ⟨source, hvalue⟩

variable {sink : Option (Nat → Bytes → Bool)}

theorem challenge_returns (provider targetText linkToken : Bytes) :
    Returns sink (.challenge provider targetText linkToken)
      (challenge J provider targetText linkToken) := by
  rintro call h answer response - hdecode
  simp only [challenge, guard_eq_ok_iff, call_eq_ok_iff, pure_eq_ok_iff] at h
  obtain ⟨-, request, -, rfl⟩ := h
  obtain ⟨source, hdecode⟩ := answered_decode hdecode
  simp only [call_eq_ok_iff, guard_eq_ok_iff, pure_eq_ok_iff] at hdecode
  obtain ⟨id, hid, expiresIn, hexpires, nonce, hnonce, url, hurl, hne, rfl⟩ := hdecode
  exact ⟨⟨hne, accountString_fits hid⟩, (lifetime_eq_ok_iff.mp hexpires).2,
    optionalString_fits hnonce, optionalString_fits hurl⟩

theorem login_returns (id credential linkToken : Bytes) :
    Returns sink (.login id credential linkToken) (login J id credential linkToken) := by
  rintro call h answer response - hdecode
  simp only [login, guard_eq_ok_iff, call_eq_ok_iff, pure_eq_ok_iff] at h
  obtain ⟨-, request, -, rfl⟩ := h
  obtain ⟨source, hdecode⟩ := answered_decode hdecode
  exact (decodeTokens_eq_ok_iff.mp hdecode).1

theorem refresh_returns (token : Bytes) : Returns sink (.refresh token) (refresh J token) := by
  rintro call h answer response - hdecode
  simp only [refresh, call_eq_ok_iff, pure_eq_ok_iff] at h
  obtain ⟨_, -, request, -, rfl⟩ := h
  obtain ⟨source, hdecode⟩ := answered_decode hdecode
  exact (decodeTokens_eq_ok_iff.mp hdecode).1

theorem profile_returns (token : Bytes) : Returns sink (.profile token) (profile J token) := by
  rintro call h answer response - hdecode
  simp only [profile, call_eq_ok_iff, pure_eq_ok_iff] at h
  obtain ⟨_, -, request, -, rfl⟩ := h
  obtain ⟨source, hdecode⟩ := answered_decode hdecode
  simp only [call_eq_ok_iff, pure_eq_ok_iff] at hdecode
  obtain ⟨user, huser, sources, hsources, identities, hidentities, rfl⟩ := hdecode
  obtain ⟨hlength, hall⟩ := mapM_returns hidentities
  refine ⟨decodeUser_sound huser, ?_, fun identity hidentity => ?_⟩
  · exact hlength.trans_le (elementsOf_length hsources)
  · obtain ⟨element, -, hread⟩ := hall identity hidentity
    obtain ⟨source, -, hread⟩ := readElement_eq_ok_iff.mp hread
    simp only [identityOf, call_eq_ok_iff, pure_eq_ok_iff] at hread
    obtain ⟨provider, hprovider, subject, hsubject, rfl⟩ := hread
    exact ⟨accountString_fits hprovider, accountString_fits hsubject⟩

theorem importHanDictionary_returns (text : Bytes) (weight : Int64) (token : Bytes) :
    Returns sink (.importHanDictionary text weight token)
      (importHanDictionary J text weight token) := by
  rintro call h answer response - hdecode
  simp only [importHanDictionary, guard_eq_ok_iff, call_eq_ok_iff, pure_eq_ok_iff] at h
  obtain ⟨_, -, _, -, -, request, -, rfl⟩ := h
  obtain ⟨source, hdecode⟩ := answered_decode hdecode
  simp only [guard_eq_ok_iff, call_eq_ok_iff, pure_eq_ok_iff] at hdecode
  obtain ⟨count, hcount, hfew, revision, hrevision, rfl⟩ := hdecode
  have hone : 1 ≤ count.toInt := dictionaryNumber_le hcount
  have hmany : count.toInt ≤ 500 := by
    rw [gt_iff_lt, Int64.lt_iff_toInt_lt, Int.not_lt] at hfew
    exact hfew
  have hint : count.toInt32.toInt = count.toInt := by
    rw [Int64.toInt_toInt32]
    refine Int.bmod_eq_of_le ?_ ?_ <;> omega
  exact ⟨hint ▸ hone, hint ▸ hmany, dictionaryNumber_le hrevision⟩

theorem restoreSnapshot_returns (size : Nat) (revision : Int64) (token : Bytes) :
    Returns sink (.restoreSnapshot size revision token)
      (restoreSnapshot J true size revision token) := by
  rintro call h answer response - hdecode
  simp only [restoreSnapshot, guard_eq_ok_iff, call_eq_ok_iff, pure_eq_ok_iff] at h
  obtain ⟨-, request, -, rfl⟩ := h
  obtain ⟨source, -, hdecode⟩ := call_eq_ok_iff.mp hdecode
  unfold restoredRevision at hdecode
  split at hdecode
  · split at hdecode
    · cases hdecode
    next hlater =>
      cases hdecode
      have hlater := (not_or.mp hlater).2
      rwa [Int64.le_iff_toInt_le, Int.not_le] at hlater
  · cases hdecode

/-! ### Snapshots -/

/-- How the sink was called while everything went well. -/
structure Taken (take : Nat → Bytes → Bool) (delivered : List Bytes) (p : Provisional) : Prop where
  calls : p.calls = delivered.length
  received : p.received = delivered.flatten.length
  bound : p.received ≤ maximumSnapshotBytes
  taken : ∀ n, ∀ h : n < delivered.length, take n delivered[n] = true

/-- A download that has failed stays failed. -/
theorem Provisional.take_failed {take : Nat → Bytes → Bool} {p : Provisional} (data : Bytes)
    (h : p.failed = true) : (p.take take data).failed = true := by
  unfold Provisional.take
  split
  · rfl
  · split
    · exact h
    · rfl

theorem takeAll_failed {take : Nat → Bytes → Bool} (delivered : List Bytes) {p : Provisional}
    (h : p.failed = true) : (delivered.foldl (Provisional.take take) p).failed = true := by
  induction delivered generalizing p with
  | nil => exact h
  | cons data delivered ih => exact ih (Provisional.take_failed data h)

/-- One piece more that the sink takes. -/
theorem Taken.next {take : Nat → Bytes → Bool} {delivered : List Bytes} {p : Provisional}
    {data : Bytes} (hp : Taken take delivered p) (h : (p.take take data).failed = false) :
    Taken take (delivered ++ [data]) (p.take take data) := by
  unfold Provisional.take at h ⊢
  split at h
  · cases h
  next hfits =>
    split at h
    next htaken =>
      rw [if_neg hfits, if_pos htaken]
      refine ⟨?_, ?_, ?_, fun n hn => ?_⟩
      · simp [hp.calls]
      · simp [hp.received]
      · have hbound := hp.bound
        dsimp only
        omega
      · rw [List.getElem_append]
        split
        next hearlier => exact hp.taken n hearlier
        next hlast =>
          rw [List.length_append, List.length_singleton] at hn
          obtain rfl : n = delivered.length := by omega
          rw [hp.calls] at htaken
          simpa using htaken
    · cases h

/-- A download that has not failed has handed over all pieces, within the limit. -/
theorem takeAll_taken {take : Nat → Bytes → Bool} (delivered before : List Bytes)
    {p : Provisional} (hp : Taken take before p)
    (h : (delivered.foldl (Provisional.take take) p).failed = false) :
    Taken take (before ++ delivered) (delivered.foldl (Provisional.take take) p) := by
  induction delivered generalizing before p with
  | nil =>
    rw [List.append_nil]
    exact hp
  | cons data delivered ih =>
    rw [List.foldl_cons] at h ⊢
    cases hnext : (p.take take data).failed with
    | true =>
      rw [takeAll_failed delivered hnext] at h
      cases h
    | false =>
      rw [List.append_cons]
      exact ih _ (hp.next hnext) h

theorem downloadSnapshot_returns (token : Bytes) :
    Returns sink (.downloadSnapshot token) (downloadSnapshot sink token) := by
  rintro call h answer response - hdecode
  unfold downloadSnapshot at h
  cases sink with
  | none => cases h
  | some take =>
    simp only [call_eq_ok_iff, pure_eq_ok_iff] at h
    obtain ⟨request, -, rfl⟩ := h
    dsimp only at hdecode
    split at hdecode
    · cases hdecode
    next hgood =>
      rw [not_or, not_or, Bool.not_eq_true] at hgood
      have htaken : Taken take answer.delivered _ := takeAll_taken answer.delivered []
        ⟨rfl, rfl, Nat.zero_le _, fun n hn => absurd hn (Nat.not_lt_zero n)⟩ hgood.1
      refine ⟨take, rfl, htaken.taken, ?_, htaken.received ▸ htaken.bound⟩
      exact htaken.received ▸ Nat.pos_of_ne_zero hgood.2.2

section

variable (hJ : ChecksUtf8 J.toJsonLib)
include hJ

theorem preferences_returns (token : Bytes) :
    Returns sink (.preferences token) (preferences J token) := by
  rintro call h answer response - hdecode
  simp only [preferences, call_eq_ok_iff, pure_eq_ok_iff] at h
  obtain ⟨_, -, request, -, rfl⟩ := h
  obtain ⟨source, -, hdecode⟩ := call_eq_ok_iff.mp hdecode
  exact preferencesValue_sound hJ hdecode

theorem preferencesSchema_returns (token : Bytes) :
    Returns sink (.preferencesSchema token) (preferencesSchema J token) := by
  rintro call h answer response - hdecode
  simp only [preferencesSchema, call_eq_ok_iff, pure_eq_ok_iff] at h
  obtain ⟨_, -, request, -, rfl⟩ := h
  obtain ⟨source, hdecode⟩ := answered_decode hdecode
  exact schemaValue_sound hJ hdecode

/-- The answer to an upload has the next revision. -/
theorem putPreferences_returns (value : Preferences) (schema : PreferencesSchema)
    (token : Bytes) :
    Returns sink (.putPreferences value schema token) (putPreferences J value schema token) := by
  rintro call h answer response - hdecode
  simp only [putPreferences, guard_eq_ok_iff, call_eq_ok_iff, pure_eq_ok_iff] at h
  obtain ⟨_, -, _, hsettings, -, request, -, rfl⟩ := h
  obtain ⟨source, -, hdecode⟩ := call_eq_ok_iff.mp hdecode
  simp only [call_eq_ok_iff, guard_eq_ok_iff, pure_eq_ok_iff] at hdecode
  obtain ⟨result, hresult, hrevision, rfl⟩ := hdecode
  refine ⟨preferencesValue_sound hJ hresult, toInt_next (not_not.mp hrevision) ?_⟩
  intro hmax
  unfold preferenceSettings at hsettings
  rw [if_pos (.inr (.inl hmax))] at hsettings
  cases hsettings

theorem clipboard_returns (token query : Bytes) :
    Returns sink (.clipboard token query) (clipboard J token query) := by
  rintro call h answer response - hdecode
  simp only [clipboard, call_eq_ok_iff, pure_eq_ok_iff] at h
  obtain ⟨_, -, _, -, request, -, rfl⟩ := h
  obtain ⟨source, hdecode⟩ := answered_decode hdecode
  split at hdecode
  · simp only [call_eq_ok_iff, pure_eq_ok_iff] at hdecode
    obtain ⟨sources, hsources, items, hitems, rfl⟩ := hdecode
    obtain ⟨hlength, hall⟩ := mapM_returns hitems
    refine ⟨hlength.trans_le (elementsOf_length hsources), fun item hitem => ?_⟩
    obtain ⟨element, -, hread⟩ := hall item hitem
    obtain ⟨source, -, hread⟩ := readElement_eq_ok_iff.mp hread
    exact clipboardItem_sound hJ hread
  · cases hdecode

theorem addClipboard_returns (text token : Bytes) :
    Returns sink (.addClipboard text token) (addClipboard J text token) := by
  rintro call h answer response - hdecode
  simp only [addClipboard, call_eq_ok_iff, pure_eq_ok_iff] at h
  obtain ⟨_, -, _, -, request, -, rfl⟩ := h
  obtain ⟨source, hdecode⟩ := answered_decode hdecode
  exact clipboardItem_sound hJ hdecode

theorem dictionary_returns (kind query : Bytes) (offset limit : Int32) (token : Bytes) :
    Returns sink (.dictionary kind query offset limit token)
      (dictionary J kind query offset limit token) := by
  rintro call h answer response - hdecode
  simp only [dictionary, guard_eq_ok_iff, call_eq_ok_iff, pure_eq_ok_iff] at h
  obtain ⟨_, -, _, -, _, -, hrange, request, -, rfl⟩ := h
  obtain ⟨source, hdecode⟩ := answered_decode hdecode
  exact readPage_sound (fun _ _ hentry => dictionaryEntry_sound hJ hentry) hrange
    (by decide) hdecode

theorem dictionaryCatalog_returns (kind query : Bytes) (offset limit : Int32) (token : Bytes)
    (options : DictionaryCatalogOptions) :
    Returns sink (.dictionaryCatalog kind query offset limit token options)
      (dictionaryCatalog J kind query offset limit token options) := by
  rintro call h answer response - hdecode
  simp only [dictionaryCatalog, guard_eq_ok_iff, call_eq_ok_iff, pure_eq_ok_iff] at h
  obtain ⟨_, -, -, _, -, _, -, -, hrange, request, -, rfl⟩ := h
  obtain ⟨source, hdecode⟩ := answered_decode hdecode
  obtain ⟨revision, hrevision, hpage⟩ := call_eq_ok_iff.mp hdecode
  have hsame : (fun old entry : MsimeLinux.DictionaryEntry =>
      old.code = entry.code && old.word = entry.word) = DictionaryWindow.sameText := by
    funext old entry
    simp [DictionaryWindow.sameText]
  have hsound := readPage_sound (fun _ _ hentry => catalogEntry_sound hJ hentry) hrange
    (dictionaryNumber_le hrevision) hpage
  rw [hsame] at hsound
  exact hsound.1

theorem manageDictionary_returns (kind : Bytes) (revision : Int64)
    (previous : MsimeLinux.DictionaryEntry) (replacement : Option MsimeLinux.DictionaryEntry)
    (token : Bytes) :
    Returns sink (.manageDictionary kind revision previous replacement token)
      (manageDictionary J kind revision previous replacement token) := by
  rintro call h answer response - hdecode
  simp only [manageDictionary, guard_eq_ok_iff, call_eq_ok_iff, pure_eq_ok_iff] at h
  obtain ⟨_, -, _, -, hlimits, _, -, _, -, request, -, rfl⟩ := h
  obtain ⟨source, hdecode⟩ := answered_decode hdecode
  have hmax : revision ≠ Int64.maxValue := fun hmax => hlimits (.inr (.inl hmax))
  simp only [managedChange, call_eq_ok_iff, guard_eq_ok_iff] at hdecode
  obtain ⟨changed, -, hchanged, hdecode⟩ := hdecode
  have hnext := toInt_next (not_not.mp hchanged) hmax
  split at hdecode
  · simp only [call_eq_ok_iff, guard_eq_ok_iff, pure_eq_ok_iff] at hdecode
    obtain ⟨old, hold, hsame, next, hnew, rfl⟩ := hdecode
    obtain ⟨hcode, hword⟩ := not_or.mp hsame
    refine ⟨hnext, ⟨old, rfl, catalogEntry_sound hJ hold, not_not.mp hcode, not_not.mp hword⟩,
      rfl, fun other hother => ?_⟩
    cases hother
    exact catalogEntry_sound hJ hnew
  · simp only [call_eq_ok_iff, guard_eq_ok_iff, pure_eq_ok_iff] at hdecode
    obtain ⟨old, hold, hsame, rfl⟩ := hdecode
    obtain ⟨hcode, hword⟩ := not_or.mp hsame
    exact ⟨hnext, ⟨old, rfl, catalogEntry_sound hJ hold, not_not.mp hcode, not_not.mp hword⟩,
      rfl, fun _ hother => absurd hother (Option.some_ne_none _).symm⟩
  · cases hdecode

theorem editDictionary_returns (kind id : Bytes) (revision : Int64)
    (replacement : Option MsimeLinux.DictionaryEntry) (token : Bytes) :
    Returns sink (.editDictionary kind id revision replacement token)
      (editDictionary J kind id revision replacement token) := by
  rintro call h answer response - hdecode
  simp only [editDictionary, guard_eq_ok_iff, call_eq_ok_iff, pure_eq_ok_iff] at h
  obtain ⟨_, -, _, -, -, _, -, request, -, rfl⟩ := h
  obtain ⟨source, hdecode⟩ := answered_decode hdecode
  simp only [guard_eq_ok_iff, call_eq_ok_iff, pure_eq_ok_iff] at hdecode
  obtain ⟨changed, -, old, hold, next, hnext, hmatch, rfl⟩ := hdecode
  simp only [mismatched, Bool.or_eq_true, bne_iff_ne, decide_eq_true_eq, Option.any_eq_true,
    not_or, not_not, not_exists, not_and, Int64.le_iff_toInt_le, Int.not_le, Bool.and_eq_true,
    Bool.not_eq_true', ne_eq, List.isEmpty_eq_false_iff] at hmatch
  obtain ⟨⟨⟨⟨hprevious, hreplacement⟩, hlater⟩, holds⟩, hnexts⟩ := hmatch
  refine ⟨hlater, ?_, fun entry hentry => ?_, hreplacement, fun entry hentry => ?_⟩
  · dsimp only
    rw [hprevious]
    cases id <;> simp
  · exact ⟨optionalDictionaryEntry_sound hJ hold entry hentry, holds entry hentry⟩
  · exact ⟨optionalDictionaryEntry_sound hJ hnext entry hentry, hnexts entry hentry⟩

theorem importDictionary_returns (kind text format token : Bytes) :
    Returns sink (.importDictionary kind text format token)
      (importDictionary J kind text format token) := by
  rintro call h answer response - hdecode
  simp only [importDictionary, guard_eq_ok_iff, call_eq_ok_iff, pure_eq_ok_iff,
    dictionaryTsv_eq_ok_iff hJ] at h
  obtain ⟨_, -, _, -, _, -, -, count, ⟨hcount, hfew, -, hlines⟩, -, request, -, rfl⟩ := h
  obtain ⟨source, hdecode⟩ := answered_decode hdecode
  simp only [guard_eq_ok_iff, call_eq_ok_iff, pure_eq_ok_iff] at hdecode
  obtain ⟨imported, himported, hsame, revision, hrevision, rfl⟩ := hdecode
  have hone : 1 ≤ imported.toInt := dictionaryNumber_le himported
  have hint : imported.toInt32.toInt = imported.toInt := by
    rw [Int64.toInt_toInt32]
    refine Int.bmod_eq_of_le ?_ ?_ <;> omega
  refine ⟨⟨hcount ▸ hfew, fun line hline => (hlines line hline).2⟩, hint ▸ hone,
    dictionaryNumber_le hrevision, ?_⟩
  dsimp only
  rw [hint, not_not.mp hsame, hcount]

theorem exportDictionary_returns (kind format token : Bytes) :
    Returns sink (.exportDictionary kind format token)
      (exportDictionary J kind format token) := by
  intro call h answer response hlength hdecode
  simp only [exportDictionary, call_eq_ok_iff, pure_eq_ok_iff] at h
  obtain ⟨_, -, path, -, _, -, request, hrequest, rfl⟩ := h
  simp only [boundedRequest, guard_eq_ok_iff, pure_eq_ok_iff] at hrequest
  obtain ⟨-, -, rfl⟩ := hrequest
  simp only [call_eq_ok_iff, pure_eq_ok_iff, asMalformed_eq_ok_iff,
    dictionaryTsv_eq_ok_iff hJ] at hdecode
  obtain ⟨count, ⟨hcount, hfew, hended, hlines⟩, rfl⟩ := hdecode
  exact ⟨hlength, ⟨hcount ▸ hfew, fun line hline => (hlines line hline).2⟩, hended trivial⟩

/-- **What is decoded of an answer is sound**, whatever the answer was. -/
theorem operation_returns (request : AccountRequest) :
    Returns sink request (request.operation J sink) := by
  cases request with
  | challenge provider targetText linkToken => exact challenge_returns provider targetText linkToken
  | login id credential linkToken => exact login_returns id credential linkToken
  | refresh token => exact refresh_returns token
  | profile token => exact profile_returns token
  | preferences token => exact preferences_returns hJ token
  | preferencesSchema token => exact preferencesSchema_returns hJ token
  | putPreferences value schema token => exact putPreferences_returns hJ value schema token
  | clipboard token query => exact clipboard_returns hJ token query
  | addClipboard text token => exact addClipboard_returns hJ text token
  | dictionary kind query offset limit token =>
    exact dictionary_returns hJ kind query offset limit token
  | dictionaryCatalog kind query offset limit token options =>
    exact dictionaryCatalog_returns hJ kind query offset limit token options
  | manageDictionary kind revision previous replacement token =>
    exact manageDictionary_returns hJ kind revision previous replacement token
  | editDictionary kind id revision replacement token =>
    exact editDictionary_returns hJ kind id revision replacement token
  | importDictionary kind text format token =>
    exact importDictionary_returns hJ kind text format token
  | importHanDictionary text weight token => exact importHanDictionary_returns text weight token
  | exportDictionary kind format token => exact exportDictionary_returns hJ kind format token
  | downloadSnapshot token => exact downloadSnapshot_returns token
  | restoreSnapshot size revision token => exact restoreSnapshot_returns size revision token
  | rename | setClipboardEnabled | deleteClipboard | logout | deleteAccount =>
    exact fun _ _ _ _ _ _ => trivial

end

/-! ## What is thrown -/

/-- What is thrown without a word of the server about it. -/
def Own (failure : Failure) : Prop := failure = malformed ∨ failure = badRequest

section

variable {P : Failure → Prop} (hbad : P badRequest)
include hbad

/-- The checks of the arguments throw one failure. -/
theorem requireText_throws (text : Bytes) (limit : Nat) :
    Throws P (requireText J.toJsonLib text limit) := by
  simp [requireText, hbad]

theorem requireToken_throws (token : Bytes) : Throws P (requireToken token) := by
  simp [requireToken, hbad]

theorem requireClipboardText_throws (text : Bytes) : Throws P (requireClipboardText J text) := by
  simp [requireClipboardText, requireText_throws hbad, hbad]

theorem requireDictionaryEntry_throws (entry : MsimeLinux.DictionaryEntry) (kind : Bytes) :
    Throws P (requireDictionaryEntry J entry kind) := by
  simp [requireDictionaryEntry, DictionaryTsv.requireDictionaryEntry, requireText_throws hbad, hbad]

theorem tsvEntry_throws (kind format line : Bytes) :
    Throws P (tsvEntry J.toJsonLib kind format line) := by
  have hrequire : ∀ entry : DictionaryTsv.DictionaryEntry,
      Throws P (DictionaryTsv.requireDictionaryEntry J.toJsonLib entry kind) := by
    simp [DictionaryTsv.requireDictionaryEntry, requireText_throws hbad, hbad]
  unfold tsvEntry
  split
  · simpa using hbad
  · split
    · simpa using hbad
    · split
      · simpa using hbad
      · split
        · simpa using hbad
        · split
          · simpa using hbad
          · simp [hrequire]

theorem dictionaryTsv_throws (text kind format : Bytes) (maximum : Nat) (exported : Bool) :
    Throws P (dictionaryTsv J.toJsonLib text kind format maximum exported) := by
  have hline : ∀ count line, Throws P (tsvLine J.toJsonLib kind format maximum count line) := by
    simp [tsvLine, tsvEntry_throws hbad, hbad]
  have hlines : ∀ count rest,
      Throws P (tsvLines J.toJsonLib kind format maximum exported count rest) := by
    intro count rest
    fun_induction tsvLines J.toJsonLib kind format maximum exported count rest with
    | case1 => simp
    | case2 => simpa using hbad
    | case3 count rest hrest more hmore failure hfailure =>
      exact Throws.error_iff.mpr (hline _ _ failure hfailure)
    | case4 count rest hrest more hmore count' hcount ih => exact ih
  exact hlines 0 (tsvBody text)

theorem boundedRequest_throws (method : CurlHttpTransport.HttpMethod) (path body token : Bytes)
    (responseLimit requestLimit : Nat) :
    Throws P (boundedRequest method path body token responseLimit requestLimit) := by
  simp [boundedRequest, hbad]

theorem snapshotRequest_throws (request : ApiRequest) (token : Bytes) :
    Throws P (snapshotRequest request token) := by
  simp [snapshotRequest, requireToken_throws hbad]

theorem dictionaryPath_throws (kind : Bytes) : Throws P (dictionaryPath kind) := by
  simp [dictionaryPath, hbad]

theorem dictionaryFormat_throws (format : Bytes) : Throws P (dictionaryFormat format) := by
  simp [dictionaryFormat, hbad]

theorem requireReplacement_throws (replacement : Option MsimeLinux.DictionaryEntry)
    (kind : Bytes) : Throws P (requireReplacement J replacement kind) := by
  cases replacement <;> simp [requireReplacement, requireDictionaryEntry_throws hbad]

theorem preferenceSettings_throws (value : Preferences) (schema : PreferencesSchema) :
    Throws P (preferenceSettings J value schema) := by
  unfold preferenceSettings
  split <;> simp [hbad]

end

/-- **An operation refuses with 400, and nothing else.** -/
theorem operation_refuses (sink : Option (Nat → Bytes → Bool)) (request : AccountRequest) :
    Throws (· = badRequest) (request.operation J sink) := by
  have htoken := requireToken_throws (P := (· = badRequest)) rfl
  have htext := requireText_throws (J := J) (P := (· = badRequest)) rfl
  have hrequest := boundedRequest_throws (P := (· = badRequest)) rfl
  have hsnapshot := snapshotRequest_throws (P := (· = badRequest)) rfl
  have hpath := dictionaryPath_throws (P := (· = badRequest)) rfl
  -- every operation is made of these
  cases request with
  | challenge => simp [AccountRequest.operation, challenge, apiRequest, hrequest]
  | login => simp [AccountRequest.operation, login, apiRequest, hrequest]
  | refresh => simp [AccountRequest.operation, refresh, apiRequest, hrequest, htoken]
  | profile => simp [AccountRequest.operation, profile, apiRequest, hrequest, htoken]
  | rename => simp [AccountRequest.operation, rename, apiRequest, hrequest, htoken]
  | preferences => simp [AccountRequest.operation, preferences, hrequest, htoken]
  | preferencesSchema =>
    simp [AccountRequest.operation, preferencesSchema, apiRequest, hrequest, htoken]
  | putPreferences =>
    simp [AccountRequest.operation, putPreferences, hrequest, htoken,
      preferenceSettings_throws (P := (· = badRequest)) rfl]
  | clipboard => simp [AccountRequest.operation, clipboard, hrequest, htoken, htext]
  | setClipboardEnabled =>
    simp [AccountRequest.operation, setClipboardEnabled, apiRequest, hrequest, htoken]
  | addClipboard =>
    simp [AccountRequest.operation, addClipboard, apiRequest, hrequest, htoken,
      requireClipboardText_throws (P := (· = badRequest)) rfl]
  | deleteClipboard =>
    simp [AccountRequest.operation, deleteClipboard, apiRequest, hrequest, htoken]
  | dictionary =>
    simp [AccountRequest.operation, dictionary, hrequest, htoken, htext, hpath]
  | dictionaryCatalog =>
    simp [AccountRequest.operation, dictionaryCatalog, hrequest, htoken, htext, hpath]
  | manageDictionary =>
    simp [AccountRequest.operation, manageDictionary, apiRequest, hrequest, htoken, hpath,
      requireDictionaryEntry_throws (P := (· = badRequest)) rfl,
      requireReplacement_throws (P := (· = badRequest)) rfl]
  | editDictionary =>
    simp [AccountRequest.operation, editDictionary, apiRequest, hrequest, htoken, hpath,
      requireReplacement_throws (P := (· = badRequest)) rfl]
  | importDictionary =>
    simp [AccountRequest.operation, importDictionary, apiRequest, hrequest, htoken, hpath,
      dictionaryFormat_throws (P := (· = badRequest)) rfl,
      dictionaryTsv_throws (P := (· = badRequest)) rfl]
  | importHanDictionary =>
    simp [AccountRequest.operation, importHanDictionary, apiRequest, hrequest, htoken, htext]
  | exportDictionary =>
    simp [AccountRequest.operation, exportDictionary, hrequest, htoken, hpath,
      dictionaryFormat_throws (P := (· = badRequest)) rfl]
  | downloadSnapshot => cases sink <;> simp [AccountRequest.operation, downloadSnapshot, hsnapshot]
  | restoreSnapshot => simp [AccountRequest.operation, restoreSnapshot, hsnapshot]
  | logout => simp [AccountRequest.operation, logout, apiRequest, hrequest, htoken]
  | deleteAccount => simp [AccountRequest.operation, deleteAccount, apiRequest, hrequest, htoken]

/-! ### What is read -/

@[simp] theorem own_malformed : Own malformed := .inl rfl

@[simp] theorem own_status : Own { status := 0 } := .inl rfl

@[simp] theorem own_badRequest : Own badRequest := .inr rfl

@[simp] theorem accountString_own (members : JsonObject) (key : Bytes) (limit : Nat) :
    Throws Own (accountString members key limit) := by
  unfold accountString
  split
  · split <;> simp
  · simp

@[simp] theorem optionalString_own (members : JsonObject) (key : Bytes) (limit : Nat) :
    Throws Own (optionalString members key limit) := by
  unfold optionalString
  split <;> simp

@[simp] theorem dictionaryNumber_own (members : JsonObject) (key : Bytes) (minimum : Int64) :
    Throws Own (dictionaryNumber members key minimum) := by
  unfold dictionaryNumber
  split
  · split <;> simp
  · simp

@[simp] theorem elementsOf_own (members : JsonObject) (key : Bytes) (limit : Nat) :
    Throws Own (elementsOf members key limit) := by
  unfold elementsOf
  split
  · split <;> simp
  · simp

/-- What reading an element throws is what reading the object throws, or that there is none. -/
theorem readElement_own {α : Type} {read : JsonObject → Except Failure α}
    (hread : ∀ source, Throws Own (read source)) (element : Json) :
    Throws Own (readElement read element) := by
  cases element <;> simp [readElement, hread]

@[simp] theorem lifetime_own (members : JsonObject) : Throws Own (lifetime members) := by
  unfold lifetime
  split
  · split <;> simp
  · simp

@[simp] theorem decodeUser_own (members : JsonObject) : Throws Own (decodeUser members) := by
  unfold decodeUser
  split <;> simp

@[simp] theorem decodeTokens_own (members : JsonObject) : Throws Own (decodeTokens members) := by
  simp [decodeTokens]

@[simp] theorem object_own (text : Bytes) : Throws Own (object J text) := by
  unfold object
  split <;> simp

@[simp] theorem requireText_own (text : Bytes) (limit : Nat) :
    Throws Own (requireText J.toJsonLib text limit) :=
  requireText_throws own_badRequest text limit

@[simp] theorem asMalformed_own {α : Type} (m : Except Failure α) : Throws Own (asMalformed m) := by
  cases m <;> simp [asMalformed]

@[simp] theorem clipboardItem_own (source : JsonObject) :
    Throws Own (clipboardItem J source) := by
  simp [clipboardItem, requireClipboardText_throws own_badRequest]

@[simp] theorem dictionaryEntry_own (source : JsonObject) (kind : Bytes) :
    Throws Own (dictionaryEntry J source kind) := by
  simp [dictionaryEntry]

@[simp] theorem optionalDictionaryEntry_own (source : JsonObject) (key kind : Bytes) :
    Throws Own (optionalDictionaryEntry J source key kind) := by
  unfold optionalDictionaryEntry
  split <;> simp

@[simp] theorem catalogEntry_own (source : JsonObject) (kind : Bytes) :
    Throws Own (catalogEntry J source kind) := by
  simp [catalogEntry]

@[simp] theorem settingValue_own (text key : Bytes) (json : Json) :
    Throws Own (settingValue J text key json) := by
  unfold settingValue
  split
  · simp
  · split <;> simp
  · split
    · split <;> simp
    · simp
  · simp
  · simp

@[simp] theorem preferencesValue_own (text : Bytes) (source : JsonObject) :
    Throws Own (preferencesValue J text source) := by
  have hsetting : ∀ settings read key, Throws Own (readSetting J text settings read key) := by
    intro settings read key
    unfold readSetting
    rw [Throws.bind_iff]
    refine ⟨requireText_own _ _, fun _ _ => ?_⟩
    split <;> simp
  unfold preferencesValue
  split
  · simp [Throws.foldlM (hsetting _)]
  · simp

@[simp] theorem schemaValue_own (source : JsonObject) : Throws Own (schemaValue J source) := by
  have hlength : ∀ field, Throws Own (maximumLength field) := by
    intro field
    unfold maximumLength
    split
    · simp
    · split <;> simp
    · simp
  have hfield : ∀ fields read key, Throws Own (readField J fields read key) := by
    intro fields read key
    unfold readField
    split <;> simp [hlength]
  unfold schemaValue
  split
  · simp only [Throws.bind_iff, Throws.ite_iff, Throws.throw_iff, throw_eq_ok_iff, own_malformed,
      accountString_own, false_implies, implies_true, true_and, and_true]
    intro _ _ _ _
    split <;> simp [Throws.foldlM (hfield _)]
  · simp

@[simp] theorem readPage_own {decode : JsonObject → Except Failure MsimeLinux.DictionaryEntry}
    {same : MsimeLinux.DictionaryEntry → MsimeLinux.DictionaryEntry → Bool} {offset limit : Int32}
    {revision : Int64} {source : JsonObject} (hdecode : ∀ element, Throws Own (decode element)) :
    Throws Own (readPage decode same offset limit revision source) := by
  have hadd : ∀ page element, Throws Own (readElement (addEntry decode same page) element) :=
    fun page => readElement_own (by simp [addEntry, hdecode])
  unfold readPage
  split
  · simp [Throws.foldlM hadd]
  · simp

@[simp] theorem managedChange_own (kind : Bytes) (revision : Int64)
    (previous : MsimeLinux.DictionaryEntry) (replacement : Option MsimeLinux.DictionaryEntry)
    (source : JsonObject) :
    Throws Own (managedChange J kind revision previous replacement source) := by
  unfold managedChange
  simp only [Throws.bind_iff, Throws.ite_iff, Throws.throw_iff, throw_eq_ok_iff, own_malformed,
    dictionaryNumber_own, false_implies, implies_true, true_and]
  intro _ _ _
  split <;> simp

@[simp] theorem restoredRevision_own (revision : Int64) (source : JsonObject) :
    Throws Own (restoredRevision revision source) := by
  unfold restoredRevision
  split
  · split <;> simp
  · simp

/-- An operation that takes nothing but 200 to 299 for a success, and then fails with 0 or 400. -/
def Judges {α : Type} (operation : Except Failure (ApiCall α)) : Prop :=
  Yields (fun call => (∀ status, call.succeeds status = true → 200 ≤ status ∧ status < 300) ∧
    ∀ answer, Throws Own (call.decode answer)) operation

/-- **Which statuses count, and what decoding throws**: 2xx or 200 alone, and failures of the
client's own. -/
theorem operation_judges (sink : Option (Nat → Bytes → Bool)) (request : AccountRequest) :
    Judges (request.operation J sink) := by
  have hidentity : ∀ element, Throws Own (readElement identityOf element) :=
    readElement_own (by simp [identityOf])
  unfold Judges
  cases request with
  | challenge => simp [AccountRequest.operation, challenge, answered]
  | login => simp [AccountRequest.operation, login, answered]
  | refresh => simp [AccountRequest.operation, refresh, answered]
  | profile => simp [AccountRequest.operation, profile, answered, Throws.mapM hidentity]
  | rename => simp [AccountRequest.operation, rename, acknowledged]
  | preferences => simp [AccountRequest.operation, preferences]
  | preferencesSchema => simp [AccountRequest.operation, preferencesSchema, answered]
  | putPreferences => simp [AccountRequest.operation, putPreferences]
  | clipboard =>
    -- an answer without the flag is malformed; else its items are read one after another
    simp only [AccountRequest.operation, clipboard, answered, Yields.bind_iff, Yields.pure_iff,
      Throws.bind_iff, object_own, true_and]
    rintro _ - _ - request -
    refine ⟨by simp, fun answer source _ => ?_⟩
    split
    · simp [Throws.mapM (readElement_own clipboardItem_own)]
    · simp
  | setClipboardEnabled => simp [AccountRequest.operation, setClipboardEnabled, answered]
  | addClipboard => simp [AccountRequest.operation, addClipboard, answered]
  | deleteClipboard => simp [AccountRequest.operation, deleteClipboard, acknowledged]
  | dictionary => simp [AccountRequest.operation, dictionary, answered]
  | dictionaryCatalog => simp [AccountRequest.operation, dictionaryCatalog, answered]
  | manageDictionary => simp [AccountRequest.operation, manageDictionary, answered]
  | editDictionary => simp [AccountRequest.operation, editDictionary, answered]
  | importDictionary => simp [AccountRequest.operation, importDictionary, answered]
  | importHanDictionary => simp [AccountRequest.operation, importHanDictionary, answered]
  | exportDictionary => simp [AccountRequest.operation, exportDictionary]
  | downloadSnapshot => cases sink <;> simp [AccountRequest.operation, downloadSnapshot, isOk]
  | restoreSnapshot => simp [AccountRequest.operation, restoreSnapshot, answered, isOk]
  | logout => simp [AccountRequest.operation, logout, acknowledged]
  | deleteAccount => simp [AccountRequest.operation, deleteAccount, acknowledged]

/-! ## Operations -/

/-- A request was sent, nothing was cancelled, and the answer to it has come. -/
structure Answered {α : Type} (E : ClientEnv) (call : ApiCall α) (s s' : ClientState) : Prop where
  state : s' = ⟨s.sent ++ [call.request], s.checks + 2⟩
  kept : E.cancelled s.checks = false ∧ E.cancelled (s.checks + 1) = false
  arrived : (E.perform s.sent call.request).response.error = ""
  fits : (E.perform s.sent call.request).response.body.length ≤ call.request.maxResponseBytes

/-- An answer that is accepted has arrived whole, counts as a success and can be decoded. -/
theorem judge_eq_ok_iff {α : Type} {call : ApiCall α} {answer : ApiAnswer} {value : α} :
    call.judge answer = .ok value ↔ answer.response.error = "" ∧
      answer.response.body.length ≤ call.request.maxResponseBytes ∧
      call.succeeds answer.response.statusCode = true ∧ call.decode answer = .ok value := by
  unfold ApiCall.judge
  constructor
  · intro h
    split at h
    · cases h
    next hcame =>
      obtain ⟨harrived, hfits⟩ := not_or.mp hcame
      split at h
      next hsuccess => exact ⟨not_not.mp harrived, Nat.le_of_not_lt hfits, hsuccess, h⟩
      · cases h
  · rintro ⟨harrived, hfits, hsuccess, hvalue⟩
    rw [if_neg (not_or.mpr ⟨not_not.mpr harrived, Nat.not_lt.mpr hfits⟩), if_pos hsuccess, hvalue]

/-- How an answer fails: with the status it has, or without one of the server. -/
theorem judge_eq_error {α : Type} {call : ApiCall α} {answer : ApiAnswer} {failure : Failure}
    (hown : Throws Own (call.decode answer)) (h : call.judge answer = .error failure) :
    Own failure ∨ (answer.response.error = "" ∧
      answer.response.body.length ≤ call.request.maxResponseBytes ∧
      call.succeeds answer.response.statusCode = false ∧
      failure = { status := answer.response.statusCode.toNat }) := by
  unfold ApiCall.judge at h
  split at h
  · cases h
    exact .inl own_malformed
  next hcame =>
    obtain ⟨harrived, hfits⟩ := not_or.mp hcame
    split at h
    · exact .inl (hown failure h)
    next hrefused =>
      cases h
      exact .inr ⟨not_not.mp harrived, Nat.le_of_not_lt hfits, Bool.eq_false_iff.mpr hrefused, rfl⟩

/-- A failure of the client's own does not tell of a cancellation. -/
theorem Own.cancelled {failure : Failure} (h : Own failure) : failure.cancelled = false := by
  rcases h with rfl | rfl <;> rfl

theorem Own.status {failure : Failure} (h : Own failure) :
    failure.status = 0 ∨ failure.status = 400 := by
  rcases h with rfl | rfl
  · exact .inl rfl
  · exact .inr rfl

/-- What is returned was made of the answer to one request, which was a success. -/
theorem perform_returns {E : ClientEnv} {request : AccountRequest}
    {sink : Option (Nat → Bytes → Bool)} {s s' : ClientState} {response : request.Response}
    (h : (perform E (request.operation J sink)).exec s = (.ok response, s')) :
    ∃ call, request.operation J sink = .ok call ∧ Answered E call s s' ∧
      call.succeeds (E.perform s.sent call.request).response.statusCode = true ∧
      call.decode (E.perform s.sent call.request) = .ok response := by
  have hspec : Performed E (request.operation J sink) s _ _ :=
    perform_spec E (request.operation J sink) s
  rw [h] at hspec
  obtain ⟨result, hresult⟩ : ∃ result, result = (Except.ok response : Except Failure _) :=
    ⟨_, rfl⟩
  rw [← hresult] at hspec
  cases hspec with
  | refused failure hoperation => cases hresult
  | unsent call hoperation hcancelled => cases hresult
  | discarded call hoperation hgo hcancelled => cases hresult
  | judged call hoperation hgo hkept =>
    obtain ⟨harrived, hfits, hsuccess, hvalue⟩ := judge_eq_ok_iff.mp hresult
    exact ⟨call, hoperation, ⟨rfl, ⟨hgo, hkept⟩, harrived, hfits⟩, hsuccess, hvalue⟩

/-- **What is returned is sound**: it is made of the answer to one request, which was a success,
and is within the limits there are for it, whatever the server says. -/
theorem client_sound {J : ClientJson} (hJ : ChecksUtf8 J.toJsonLib)
    {sink : Option (Nat → Bytes → Bool)} {E : ClientEnv} {request : AccountRequest}
    {s s' : ClientState} {response : request.Response}
    (h : (perform E (request.operation J sink)).exec s = (.ok response, s')) :
    ∃ call, request.operation J sink = .ok call ∧ Answered E call s s' ∧
      200 ≤ (E.perform s.sent call.request).response.statusCode ∧
      (E.perform s.sent call.request).response.statusCode < 300 ∧
      Sound sink (E.perform s.sent call.request) request response := by
  obtain ⟨call, hcall, hanswered, hsuccess, hvalue⟩ := perform_returns h
  obtain ⟨hrange, -⟩ := operation_judges sink request call hcall
  exact ⟨call, hcall, hanswered, (hrange _ hsuccess).1, (hrange _ hsuccess).2,
    operation_returns hJ request call hcall _ response hanswered.fits hvalue⟩

/-- A transport that answers everything alike. -/
def uniformAnswer (status : Int) (delivered : List Bytes) : ApiAnswer :=
  { response := { statusCode := status }, delivered }

def uniformClient (status : Int) (delivered : List Bytes) : ClientEnv where
  perform _ _ := uniformAnswer status delivered
  cancelled _ := false

/-- A library that only checks texts. -/
def textJson : ClientJson :=
  { plainJson with settingNumber := fun _ _ => none, preferencesText := fun _ => [] }

def sampleToken : Bytes := List.replicate 64 97

/-- A snapshot of one line is downloaded: one request, between two checks, answered with 200. -/
theorem client_sound_download :
    let request := AccountRequest.downloadSnapshot sampleToken
    let E := uniformClient 200 [[123, 125]]
    ∃ call s', request.operation textJson (some fun _ _ => true) = .ok call ∧
      Answered E call {} s' ∧ s'.checks = 2 ∧
      200 ≤ (E.perform [] call.request).response.statusCode ∧
      (E.perform [] call.request).response.statusCode < 300 ∧
      Sound (some fun _ _ => true) (uniformAnswer 200 [[123, 125]]) request () := by
  intro request E
  have h : (perform E (request.operation textJson (some fun _ _ => true))).exec {} =
      (.ok (), ⟨_, 2⟩) := rfl
  obtain ⟨call, hcall, hanswered, hlow, hhigh, hsound⟩ := client_sound plainJson_checks h
  exact ⟨call, _, hcall, hanswered, rfl, hlow, hhigh, hsound⟩

/-- **What a failure tells**: it is a cancellation exactly if one of the checks said so; without a
request, it is that or a refusal with 400; and any status but 0 and 400 is the one the server gave
the one request that was sent, which was not a success. -/
theorem client_failure (J : ClientJson) (sink : Option (Nat → Bytes → Bool)) (E : ClientEnv)
    (request : AccountRequest) {s s' : ClientState} {failure : Failure}
    (h : (perform E (request.operation J sink)).exec s = (.error failure, s')) :
    (failure.cancelled = true ↔ ∃ n, s.checks ≤ n ∧ n < s'.checks ∧ E.cancelled n = true) ∧
      (s'.sent = s.sent → failure = cancelledFailure ∨ failure = badRequest) ∧
      (failure.status ≠ 0 → failure.status ≠ 400 →
        ∃ call, request.operation J sink = .ok call ∧ Answered E call s s' ∧
          (E.perform s.sent call.request).response.statusCode.toNat = failure.status ∧
          call.succeeds (E.perform s.sent call.request).response.statusCode = false) := by
  have hspec : Performed E (request.operation J sink) s _ _ :=
    perform_spec E (request.operation J sink) s
  rw [h] at hspec
  generalize hresult : (Except.error failure : Except Failure request.Response) = result at hspec
  cases hspec with
  | refused failure' hoperation =>
    -- the four ways an operation goes: it is refused,
    cases hresult
    obtain rfl := operation_refuses sink request failure hoperation
    exact ⟨⟨nofun, fun ⟨n, hle, hlt, _⟩ => absurd hlt (Nat.not_lt.mpr hle)⟩, fun _ => .inr rfl,
      fun _ hne => absurd rfl hne⟩
  | unsent call hoperation hcancelled =>
    -- cancelled before its request,
    cases hresult
    exact ⟨⟨fun _ => ⟨s.checks, Nat.le_refl _, Nat.lt_succ_self _, hcancelled⟩, fun _ => rfl⟩,
      fun _ => .inl rfl, fun hne => absurd rfl hne⟩
  | discarded call hoperation hgo hcancelled =>
    -- cancelled after it,
    cases hresult
    exact ⟨⟨fun _ => ⟨s.checks + 1, Nat.le_succ _, Nat.lt_succ_self _, hcancelled⟩, fun _ => rfl⟩,
      fun _ => .inl rfl, fun hne => absurd rfl hne⟩
  | judged call hoperation hgo hkept =>
    -- or its answer is judged
    have hquiet : ¬ ∃ n, s.checks ≤ n ∧ n < s.checks + 2 ∧ E.cancelled n = true := by
      rintro ⟨n, hle, hlt, hcancelled⟩
      rcases Nat.eq_or_lt_of_le hle with rfl | hlater
      · rw [hgo] at hcancelled
        cases hcancelled
      · obtain rfl : n = s.checks + 1 := by omega
        rw [hkept] at hcancelled
        cases hcancelled
    have hsent : s.sent ++ [call.request] ≠ s.sent := by simp
    obtain ⟨-, hown⟩ := operation_judges sink request call hoperation
    rcases judge_eq_error (hown _) hresult.symm with hfailure | ⟨harrived, hfits, hrefused, rfl⟩
    · refine ⟨iff_of_false (by simp [hfailure.cancelled]) hquiet, fun h => absurd h hsent, ?_⟩
      intro hzero hbad
      rcases hfailure.status with hstatus | hstatus
      · exact absurd hstatus hzero
      · exact absurd hstatus hbad
    · exact ⟨iff_of_false (by simp) hquiet, fun h => absurd h hsent,
        fun _ _ => ⟨call, hoperation, ⟨rfl, ⟨hgo, hkept⟩, harrived, hfits⟩, rfl, hrefused⟩⟩

/-- A server that rejects a token is what a status of 401 means. -/
theorem client_failure_rejected :
    ∃ call, (AccountRequest.profile sampleToken).operation textJson none = .ok call ∧
      Answered (uniformClient 401 []) call {} ⟨[call.request], 2⟩ ∧
      ((uniformClient 401 []).perform [] call.request).response.statusCode = 401 := by
  have h : (perform (uniformClient 401 [])
      ((AccountRequest.profile sampleToken).operation textJson none)).exec {} =
      (.error { status := 401 }, ⟨_, 2⟩) := rfl
  obtain ⟨call, hcall, hanswered, -, -⟩ :=
    (client_failure textJson none (uniformClient 401 []) _ h).2.2 (by decide) (by decide)
  exact ⟨call, hcall, hanswered.state ▸ hanswered, rfl⟩

end BackendAccountClient

/-! ## The dictionary window -/

open BackendAccountClient

/-- A session's surroundings whose backend is the client, over any transport. -/
structure ClientBackend (J : ClientJson) where
  account : AccountEnv
  sink : List AccountCall → Option (Nat → Bytes → Bool)
  env : List AccountCall → ClientEnv
  state : List AccountCall → ClientState
  responds : ∀ log request, account.respond log request =
    ((perform (env log) (request.operation J (sink log))).exec (state log)).1

/-- What a session gets from its client is sound. -/
theorem ClientBackend.sound {J : ClientJson} (hJ : ChecksUtf8 J.toJsonLib) (B : ClientBackend J)
    {log : List AccountCall} {request : AccountRequest} {response : request.Response}
    (h : B.account.respond log request = .ok response) :
    ∃ answer, Sound (B.sink log) answer request response := by
  rw [B.responds] at h
  obtain ⟨call, hcall, hanswered, -, hvalue⟩ := perform_returns (s := B.state log) (Prod.ext h rfl)
  exact ⟨_, operation_returns hJ request call hcall _ response hanswered.fits hvalue⟩

/-- **The pages are those the dictionary window relies on.** -/
def DictionaryWindow.ListingEnv.ofClient {J : ClientJson} (hJ : ChecksUtf8 J.toJsonLib)
    (B : ClientBackend J) : DictionaryWindow.ListingEnv where
  account := B.account
  listed log kind query offset limit token page h := by
    obtain ⟨_, hsound⟩ := B.sound hJ h
    obtain ⟨hpage, hrevision⟩ := hsound
    exact ⟨_, hrevision ▸ hpage.accepted fun entry hentry => hentry.ofKind⟩
  catalogued log kind query offset limit token options page h := by
    obtain ⟨_, hsound⟩ := B.sound hJ h
    exact ⟨page.revision, _, SoundPage.accepted hsound fun entry hentry => hentry.ofKind⟩

end MsimeLinux
