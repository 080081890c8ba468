import MsimeLinux.Settings.UiModel

/-!
# A form nobody touched (`SettingsUi.cpp`, `SettingsUiModel.cpp`)

The settings window writes every editor on display back into the form before it saves or
turns the page, whether or not the user has been there. `flushEditors` is that pass.

- `RowId.set_untouched`: a row takes back what it shows and changes nothing.
- `untouched_form_kept`: neither does any number of them, and the window is not dirty.
-/

namespace MsimeLinux

open Lib

/-! ## The window -/

/-- What the editor of a row holds until the user touches it: the value of the row, and
nothing where the row is a credential (SettingsUi.cpp:209). -/
def SettingsUiRow.untouched (row : SettingsUiRow) : Bytes :=
  if row.control = .secret then [] else row.value

/-- The members of `AppState` the flush works on (SettingsUi.cpp:46). -/
structure FormState where
  settings : InputSettings
  dirty : Bool
  deriving DecidableEq

/-- The loop of `flush_editors`. `editors` are the editors on display, by the ids of their
rows, with what they hold; the row that refused its value is returned with the reason. -/
def flushRows [FrequencyEnum] (editors : Bytes → Option Bytes) :
    List SettingsUiRow → FormState → Option (SettingsUiRow × Refusal) × FormState
  | [], state => (none, state)
  | row :: rows, state =>
    match editors row.id with
    | none => flushRows editors rows state
    | some value =>
      let changed := if row.control = .secret then !value.isEmpty else value != row.value
      let dirty := state.dirty || changed
      match settingsSet state.settings row.id value with
      | .error refusal => (some (row, refusal), { state with dirty := dirty })
      | .ok settings => flushRows editors rows ⟨settings, dirty⟩

/-- `flush_editors` (SettingsUi.cpp:316): the rows are those from before the first edit. -/
def flushEditors [FrequencyEnum] (editors : Bytes → Option Bytes) (state : FormState) :
    Option (SettingsUiRow × Refusal) × FormState :=
  flushRows editors (settingsRows state.settings) state

/-! ## What is shown is taken back -/

/-- What the settings select is among the choices of the form. The other choices are
enumerations, all of whose values are offered. -/
structure InputSettings.Offered (s : InputSettings) : Prop where
  quanpinHelpcodeSchema : s.quanpinHelpcodeSchema ∈ RowId.schemas.map ascii
  shuangpinHelpcodeSchema : s.shuangpinHelpcodeSchema ∈ RowId.schemas.map ascii
  voiceProvider : s.voice.provider ∈ RowId.voiceProviders.map ascii

/-- No credential is to be forgotten. -/
structure InputSettings.KeepsCredentials (s : InputSettings) : Prop where
  voice : s.voiceCredentialCleared = false
  ai : s.online.aiCredentialCleared = false
  translation : s.online.translationCredentialCleared = false

namespace RowId

variable {s : InputSettings}

theorem row_id (r : RowId) : (r.row s).id = r.id := by
  cases r <;> rfl

/-- What a row takes back is the setting that was there. -/
theorem choose_same {α : Type} {parsed : Option α} {put : α → InputSettings} (a : α)
    (h : parsed = some a) (hput : put a = s) : choose parsed put = .ok s := by
  rw [choose_some h, hput]

/-- A flag takes back what it shows. -/
theorem choose_boolValue {put : Bool → InputSettings} (b : Bool) (hput : put b = s) :
    choose (parseBool (boolValue b)) put = .ok s :=
  choose_same b (parseBool_boolValue b) hput

/-- A number takes back what it shows. -/
theorem choose_encodeInt {minimum maximum : Int} {put : Int → InputSettings} {n : Int}
    (h : minimum ≤ n ∧ n ≤ maximum) (hput : put n = s) :
    choose (parseInteger minimum maximum (encodeInt n)) put = .ok s :=
  choose_same n (parseInteger_encodeInt h) hput

/-- A choice takes back what it shows. -/
theorem choose_offered {choices : List String} {put : Bytes → InputSettings} {value : Bytes}
    (h : value ∈ choices.map ascii) (hput : put value = s) :
    choose (parseChoice choices value) put = .ok s :=
  choose_same value (if_pos h) hput

/-- A text takes back what it shows. -/
theorem enterText_same {valid required requiredWhileEnabled : Bool} {value : Bytes}
    {put : Bytes → InputSettings} (hvalid : valid = true)
    (hne : required = true ∨ requiredWhileEnabled = true → value ≠ []) (hput : put value = s) :
    enterText valid required requiredWhileEnabled value put = .ok s := by
  rw [enterText_eq hvalid hne, hput]

/-- A text that may be empty. -/
theorem enterText_optional {valid : Bool} {value : Bytes} {put : Bytes → InputSettings}
    (hvalid : valid = true) (hput : put value = s) :
    enterText valid false false value put = .ok s :=
  enterText_same hvalid (fun h => by rcases h with h | h <;> cases h) hput

/-- A credential that was not entered is kept. -/
theorem enterCredential_nil (put : Bytes → InputSettings) :
    enterCredential s [] put = .ok s := by
  unfold enterCredential
  rw [if_neg (by decide)]
  exact if_pos rfl

/-- The modes of the engine stand in their order, so each has the place of its name. -/
theorem choose_frequency [FrequencyEnum] (hordered : FrequencyEnum.Ordered)
    (put : FrequencyAdjustmentMode → InputSettings) (mode : FrequencyAdjustmentMode)
    (hput : put mode = s) :
    choose (choiceIndex frequencyModes mode.name) (fun index => put (FrequencyEnum.ofIndex index)) =
      .ok s := by
  obtain ⟨hdisabled, hpin, hhalve, hlinear, hpromote⟩ :
      FrequencyEnum.ofIndex 0 = .disabled ∧ FrequencyEnum.ofIndex 1 = .pin ∧
        FrequencyEnum.ofIndex 2 = .halve ∧ FrequencyEnum.ofIndex 3 = .linear ∧
          FrequencyEnum.ofIndex 4 = .promote := by
    simpa [FrequencyEnum.Ordered, List.range_succ] using hordered
  cases mode with
  | disabled => exact choose_same 0 (by decide) (hdisabled ▸ hput)
  | pin => exact choose_same 1 (by decide) (hpin ▸ hput)
  | halve => exact choose_same 2 (by decide) (hhalve ▸ hput)
  | linear => exact choose_same 3 (by decide) (hlinear ▸ hput)
  | promote => exact choose_same 4 (by decide) (hpromote ▸ hput)

/-- An endpoint, which may be asked for while its service is on. -/
theorem enterText_endpoint {enabled : Bool} {value : Bytes} {put : Bytes → InputSettings}
    (hvalid : validHttpsEndpoint value = true) (henabled : enabled = true → value ≠ [])
    (hput : put value = s) :
    enterText (validEndpointText value) false enabled value put = .ok s := by
  refine enterText_same ((validEndpointText_eq _).trans hvalid) ?_ hput
  rintro (h | h)
  · cases h
  · exact henabled h

/-- A name, which is always asked for. -/
theorem enterText_name {maximum : Nat} {value : Bytes} {put : Bytes → InputSettings}
    (h : validVoiceText maximum value = true) (hput : put value = s) :
    enterText (validText value maximum false) true false value put = .ok s := by
  obtain ⟨hvalid, hne⟩ := validText_of_voiceText h
  exact enterText_same hvalid (fun _ => hne) hput

/-- **Every row** takes back what it shows and changes nothing. -/
theorem set_untouched [FrequencyEnum] (hordered : FrequencyEnum.Ordered)
    {supportedSchema : Bytes → Bool} (hs : s.Valid supportedSchema) (hoffered : s.Offered)
    (hkeeps : s.KeepsCredentials) (r : RowId) : r.set s (r.row s).untouched = .ok s := by
  cases r with
  -- enumerations, by the names of their values
  | mode =>
    refine choose_same s.mode ?_ rfl
    show parseName InputMode.name _ s.mode.name = _
    cases s.mode <;> decide
  | defaultMode =>
    refine choose_same s.defaultMode ?_ rfl
    show parseName InputMode.name _ s.defaultMode.name = _
    cases s.defaultMode <;> decide
  | scheme =>
    refine choose_same s.scheme ?_ rfl
    show parseName SchemeType.name _ s.scheme.name = _
    cases s.scheme <;> decide
  | candidateWindowLayout =>
    refine choose_same s.candidateWindowLayout ?_ rfl
    show parseName CandidateWindowLayout.name _ s.candidateWindowLayout.name = _
    cases s.candidateWindowLayout <;> decide
  | punctuation =>
    refine choose_same s.punctuationMode ?_ rfl
    show parseName PunctuationMode.name _ s.punctuationMode.name = _
    cases s.punctuationMode <;> decide
  | punctuationLock =>
    refine choose_same s.punctuationLock ?_ rfl
    show parseName PunctuationLock.name _ s.punctuationLock.name = _
    cases s.punctuationLock <;> decide
  | width =>
    refine choose_same s.characterWidth ?_ rfl
    cases hwidth : s.characterWidth with
    | half =>
      have hshown : (width.row s).untouched = ascii "half" := by
        simp [row, choiceRow, SettingsUiRow.untouched, hwidth]
      rw [hshown]
      decide
    | full =>
      have hshown : (width.row s).untouched = ascii "full" := by
        simp [row, choiceRow, SettingsUiRow.untouched, hwidth]
      rw [hshown]
      decide
  | preeditStyle =>
    refine choose_same s.preeditStyle ?_ rfl
    show parseName PreeditStyle.name _ s.preeditStyle.name = _
    cases s.preeditStyle <;> decide
  | frequencyAdjustment =>
    exact choose_frequency hordered (fun mode => { s with frequencyAdjustmentMode := mode })
      s.frequencyAdjustmentMode rfl
  -- numbers
  | pageSize =>
    have hsize := hs.pageSize
    exact choose_encodeInt (n := s.pageSize) (by omega) rfl
  | mixedEnglishMinimumPrefix =>
    have hprefix := hs.mixedEnglishMinimumPrefix
    exact choose_encodeInt (n := s.mixedEnglishMinimumPrefix) (by omega) rfl
  | aiCandidateLimit =>
    have hlimit := hs.aiCandidateLimit
    exact choose_encodeInt (n := s.online.ai.candidateLimit) (by omega) rfl
  | frequencyTriggerCount => exact choose_encodeInt hs.frequencyTriggerCount rfl
  | frequencyLinearStep => exact choose_encodeInt hs.frequencyLinearStep rfl
  | connectTimeoutMs => exact choose_encodeInt hs.connectTimeout rfl
  | totalTimeoutMs => exact choose_encodeInt hs.totalTimeout rfl
  -- choices
  | quanpinHelpcodeSchema => exact choose_offered hoffered.quanpinHelpcodeSchema rfl
  | shuangpinHelpcodeSchema => exact choose_offered hoffered.shuangpinHelpcodeSchema rfl
  | translationTargetLanguage =>
    refine choose_offered (List.contains_iff_mem.mp hs.translationTargetLanguage) rfl
  -- the provider is the one selected, so its credential stays
  | voiceProvider =>
    refine choose_offered hoffered.voiceProvider ?_
    show { s with voice := { s.voice with
      token := if s.voice.provider = s.voice.provider then s.voice.token else [] } } = s
    rw [if_pos rfl]
  | aiProvider =>
    refine choose_same s.online.ai.provider ?_ (by rw [if_pos rfl])
    show parseAiProvider s.online.ai.provider.name = _
    cases s.online.ai.provider <;> decide
  | translationProvider =>
    refine choose_same s.online.translationProvider ?_ (by rw [if_pos rfl])
    show parseTranslationProvider s.online.translationProvider.name = _
    cases s.online.translationProvider <;> decide
  | voiceCredentialClear =>
    refine choose_boolValue s.voiceCredentialCleared ?_
    show { s with voice := { s.voice with
      token := if s.voiceCredentialCleared then [] else s.voice.token } } = s
    rw [if_neg (by simp [hkeeps.voice])]
  | aiCredentialClear =>
    refine choose_boolValue s.online.aiCredentialCleared ?_
    show { s with online := { s.online with ai := { s.online.ai with
      token := if s.online.aiCredentialCleared then [] else s.online.ai.token } } } = s
    rw [if_neg (by simp [hkeeps.ai])]
  | translationCredentialClear =>
    refine choose_boolValue s.online.translationCredentialCleared ?_
    show { s with online := { s.online with
      translationToken := if s.online.translationCredentialCleared then []
        else s.online.translationToken } } = s
    rw [if_neg (by simp [hkeeps.translation])]
  | voiceCredential | aiCredential | translationCredential =>
    rw [set]
    exact enterCredential_nil _
  -- texts
  | voiceEndpoint =>
    rw [set]
    exact enterText_endpoint hs.voiceEndpoint hs.voiceEnabled rfl
  | voicePolishEndpoint =>
    rw [set]
    exact enterText_endpoint hs.polishEndpoint hs.polishEnabled rfl
  | aiEndpoint =>
    rw [set]
    exact enterText_endpoint hs.aiEndpoint (fun h => absurd h Bool.false_ne_true) rfl
  | translationEndpoint =>
    rw [set]
    exact enterText_endpoint hs.translationEndpoint (fun h => absurd h Bool.false_ne_true) rfl
  | voiceModel =>
    rw [set]
    exact enterText_name hs.voiceModel rfl
  | voiceLanguage =>
    rw [set]
    exact enterText_name hs.voiceLanguage rfl
  | voicePolishModel =>
    rw [set]
    exact enterText_name hs.polishModel rfl
  | voicePolishPrompt =>
    have hprompt := hs.polishPrompt
    rw [validPolishPrompt, Bool.and_eq_true, Bool.not_eq_true'] at hprompt
    rw [set]
    refine enterText_same ((validText_eq _ _ _).trans hprompt.1) (fun _ hnil => ?_) rfl
    change s.voice.polishPrompt = [] at hnil
    simp [hnil] at hprompt
  | aiModel =>
    rw [set]
    exact enterText_optional ((validText_eq _ _ _).trans hs.aiModel) rfl
  | aiPrompt =>
    rw [set]
    exact enterText_optional ((validText_eq _ _ _).trans hs.aiPrompt) rfl
  | _ => exact choose_boolValue _ rfl

end RowId

/-- Every editor on display holds what it was made with. -/
def Untouched (s : InputSettings) (editors : Bytes → Option Bytes) : Prop :=
  ∀ row ∈ settingsRows s, editors row.id = none ∨ editors row.id = some row.untouched

/-- Writing rows back that nobody touched: nothing is refused and nothing changes. -/
theorem flushRows_untouched [FrequencyEnum] {s : InputSettings}
    {editors : Bytes → Option Bytes} (dirty : Bool) {rows : List SettingsUiRow}
    (hrows : ∀ row ∈ rows, settingsSet s row.id row.untouched = .ok s)
    (huntouched : ∀ row ∈ rows, editors row.id = none ∨ editors row.id = some row.untouched) :
    flushRows editors rows ⟨s, dirty⟩ = (none, ⟨s, dirty⟩) := by
  induction rows with
  | nil => rfl
  | cons row rows ih =>
    have hrest := ih (fun r hr => hrows r (List.mem_cons_of_mem _ hr))
      fun r hr => huntouched r (List.mem_cons_of_mem _ hr)
    unfold flushRows
    rcases huntouched row List.mem_cons_self with habsent | hshown
    · rw [habsent]
      exact hrest
    · have hsame : (if row.control = .secret then !row.untouched.isEmpty
          else row.untouched != row.value) = false := by
        unfold SettingsUiRow.untouched
        split
        · rfl
        · simp
      rw [hshown]
      simp only [hsame, Bool.or_false, hrows row List.mem_cons_self]
      exact hrest

/-- **Saving an untouched form changes nothing.** Every row of valid settings takes back
what its editor was made with, and writing the editors on display back, whichever they are,
refuses no row, leaves the settings as they were and does not make the window dirty. One row
casts the place of a choice to a mode of the engine, which has to declare them in that order. -/
theorem untouched_form_kept [FrequencyEnum] (hordered : FrequencyEnum.Ordered)
    {supportedSchema : Bytes → Bool} {s : InputSettings}
    (hvalid : validInputSettings supportedSchema s = true) (hoffered : s.Offered)
    (hkeeps : s.KeepsCredentials) :
    (∀ row ∈ settingsRows s, settingsSet s row.id row.untouched = .ok s) ∧
    ∀ editors dirty, Untouched s editors →
      flushEditors editors ⟨s, dirty⟩ = (none, ⟨s, dirty⟩) := by
  have hvalid' := validInputSettings_iff.mp hvalid
  have hrows : ∀ row ∈ settingsRows s, settingsSet s row.id row.untouched = .ok s := by
    intro row hrow
    obtain ⟨r, -, rfl⟩ := List.mem_map.mp hrow
    unfold settingsSet
    rw [RowId.row_id, RowId.ofId_id]
    exact r.set_untouched hordered hvalid' hoffered hkeeps
  exact ⟨hrows, fun editors dirty huntouched => flushRows_untouched dirty hrows huntouched⟩

/-- A form with the voice service on and a credential in use, all of it on display: the
credential is still there when its own row and the row of its provider have been written
back. -/
theorem untouched_form_kept_voice :
    ∃ (_ : FrequencyEnum) (s : InputSettings) (editors : Bytes → Option Bytes),
      s.voice.token = ascii "secret" ∧
      editors RowId.voiceProvider.id = some s.voice.provider ∧
      editors RowId.voiceCredential.id = some [] ∧
      flushEditors editors ⟨s, false⟩ = (none, ⟨s, false⟩) := by
  let s : InputSettings := { voice := { enabled := true, token := ascii "secret" } }
  let editors : Bytes → Option Bytes := fun id =>
    (RowId.ofId id).map fun r => (r.row s).untouched
  have hshown : ∀ r : RowId, editors r.id = some (r.row s).untouched := by
    intro r
    show (RowId.ofId r.id).map _ = _
    rw [RowId.ofId_id]
    rfl
  have huntouched : Untouched s editors := by
    intro row hrow
    obtain ⟨r, -, rfl⟩ := List.mem_map.mp hrow
    rw [RowId.row_id]
    exact .inr (hshown r)
  have hdefault : ({} : InputSettings).Valid fun _ => true := validInputSettings_default rfl
  have hvalid : validInputSettings (fun _ => true) s = true :=
    validInputSettings_iff.mpr { hdefault with
      voiceToken := by decide
      voiceEnabled := fun _ => by decide }
  exact ⟨orderedModes, s, editors, rfl, hshown _, hshown _, (@untouched_form_kept orderedModes rfl
    _ _ hvalid ⟨by decide, by decide, by decide⟩ ⟨rfl, rfl, rfl⟩).2 editors false huntouched⟩

end MsimeLinux
