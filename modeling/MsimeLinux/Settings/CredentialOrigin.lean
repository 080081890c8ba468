import MsimeLinux.Account.CloudSettings
import MsimeLinux.Settings.CredentialSave

/-!
# Whose credential is in the form

A credential that was loaded belongs to the provider it was loaded for. The form
drops it when another provider is selected, a download never selects another one, and
so a save files it, if at all, where it came from.

- `RowId.set_token`: what an edit makes of a credential and of its provider.
- `formRun_origin`: after any edits and downloads a credential was typed, or it is the
  one that was loaded for the selected provider.
- `credential_not_refiled`: and so is what a save files.
-/

namespace MsimeLinux

open Lib

/-! ## The credentials of the form -/

/-- The credentials the form has rows for. -/
inductive CredentialField where
  | ai
  | translation
  | voice
  deriving DecidableEq

namespace CredentialField

def kind : CredentialField → SecretKind
  | ai => .aiApiToken
  | translation => .translationApiToken
  | voice => .voiceApiToken

/-- The row it is entered in. -/
def row : CredentialField → RowId
  | ai => .aiCredential
  | translation => .translationCredential
  | voice => .voiceCredential

def token (s : InputSettings) : CredentialField → Bytes
  | ai => s.online.ai.token
  | translation => s.online.translationToken
  | voice => s.voice.token

/-- The provider that is selected. -/
def provider (s : InputSettings) : CredentialField → Bytes
  | ai => s.online.ai.provider.name
  | translation => s.online.translationProvider.name
  | voice => s.voice.provider

end CredentialField

/-- A credential was left with its provider, or dropped. -/
def CredentialField.Kept (s t : InputSettings) (c : CredentialField) : Prop :=
  c.token t = [] ∨ c.token t = c.token s ∧ c.provider t = c.provider s

theorem CredentialField.Kept.refl (s : InputSettings) (c : CredentialField) : c.Kept s s :=
  .inr ⟨rfl, rfl⟩

theorem CredentialField.Kept.trans {s t u : InputSettings} {c : CredentialField}
    (hst : c.Kept s t) (htu : c.Kept t u) : c.Kept s u := by
  rcases htu with hempty | ⟨htoken, hprovider⟩
  · exact .inl hempty
  · rcases hst with hempty | ⟨htoken', hprovider'⟩
    · exact .inl (htoken.trans hempty)
    · exact .inr ⟨htoken.trans htoken', hprovider.trans hprovider'⟩

namespace RowId

/-- **An accepted edit keeps a credential with its provider.** -/
theorem set_token [FrequencyEnum] {r : RowId} {s t : InputSettings} {value : Bytes}
    (h : r.set s value = .ok t) (c : CredentialField) :
    c.Kept s t ∨ r = c.row ∧ c.token t = value := by
  have hkeep : c.token t = c.token s → c.provider t = c.provider s →
      c.Kept s t ∨ r = c.row ∧ c.token t = value :=
    fun htoken hprovider => .inl (.inr ⟨htoken, hprovider⟩)
  cases r with
  | aiProvider =>
    -- another provider clears the credential of its service, and of no other
    obtain ⟨v, -, rfl⟩ := choose_ok h
    cases c with
    | ai =>
      by_cases hsame : v = s.online.ai.provider
      · exact hkeep (if_pos hsame) (congrArg AiProvider.name hsame)
      · exact .inl (.inl (if_neg hsame))
    | translation | voice => exact hkeep rfl rfl
  | translationProvider =>
    obtain ⟨v, -, rfl⟩ := choose_ok h
    cases c with
    | translation =>
      by_cases hsame : v = s.online.translationProvider
      · exact hkeep (if_pos hsame) (congrArg TranslationProvider.name hsame)
      · exact .inl (.inl (if_neg hsame))
    | ai | voice => exact hkeep rfl rfl
  | voiceProvider =>
    obtain ⟨v, -, rfl⟩ := choose_ok h
    cases c with
    | voice =>
      by_cases hsame : v = s.voice.provider
      · exact hkeep (if_pos hsame) hsame
      · exact .inl (.inl (if_neg hsame))
    | ai | translation => exact hkeep rfl rfl
  | aiCredentialClear =>
    -- the row that forgets a credential
    obtain ⟨v, -, rfl⟩ := choose_ok h
    cases c with
    | ai =>
      cases v with
      | true => exact .inl (.inl rfl)
      | false => exact hkeep rfl rfl
    | translation | voice => exact hkeep rfl rfl
  | translationCredentialClear =>
    obtain ⟨v, -, rfl⟩ := choose_ok h
    cases c with
    | translation =>
      cases v with
      | true => exact .inl (.inl rfl)
      | false => exact hkeep rfl rfl
    | ai | voice => exact hkeep rfl rfl
  | voiceCredentialClear =>
    obtain ⟨v, -, rfl⟩ := choose_ok h
    cases c with
    | voice =>
      cases v with
      | true => exact .inl (.inl rfl)
      | false => exact hkeep rfl rfl
    | ai | translation => exact hkeep rfl rfl
  | aiCredential =>
    -- the row the credential is typed into
    rw [set] at h
    refine enterCredential_keeps (I := fun t => c.Kept s t ∨ aiCredential = c.row ∧
      c.token t = value) h (.inl (.refl s c)) fun _ => ?_
    cases c with
    | ai => exact .inr ⟨rfl, rfl⟩
    | translation | voice => exact .inl (.inr ⟨rfl, rfl⟩)
  | translationCredential =>
    rw [set] at h
    refine enterCredential_keeps (I := fun t => c.Kept s t ∨ translationCredential = c.row ∧
      c.token t = value) h (.inl (.refl s c)) fun _ => ?_
    cases c with
    | translation => exact .inr ⟨rfl, rfl⟩
    | ai | voice => exact .inl (.inr ⟨rfl, rfl⟩)
  | voiceCredential =>
    rw [set] at h
    refine enterCredential_keeps (I := fun t => c.Kept s t ∨ voiceCredential = c.row ∧
      c.token t = value) h (.inl (.refl s c)) fun _ => ?_
    cases c with
    | voice => exact .inr ⟨rfl, rfl⟩
    | ai | translation => exact .inl (.inr ⟨rfl, rfl⟩)
  -- all the others keep both
  | voiceModel | voiceLanguage | voicePolishModel | voicePolishPrompt | voiceEndpoint
  | voicePolishEndpoint | aiEndpoint | aiModel | aiPrompt | translationEndpoint =>
    rw [set] at h
    refine .inl (enterText_keeps (I := (c.Kept s ·)) h fun _ _ => ?_)
    cases c <;> exact .inr ⟨rfl, rfl⟩
  | _ =>
    obtain ⟨v, -, rfl⟩ := choose_ok h
    cases c <;> exact hkeep rfl rfl

end RowId

/-! ## A session with the form -/

/-- What is done to the form: an edit of a row, or a download whose preview replaces
the settings. -/
inductive FormAction where
  | edit (id value : Bytes)
  | download (remote : Preferences)

/-- What becomes of the settings. A refused edit and a refused download change nothing. -/
def FormAction.apply [FrequencyEnum] (s : InputSettings) : FormAction → InputSettings
  | edit id value => settingsEdit s (id, value)
  | download remote =>
    match prepareDownload s remote with
    | .ok preview => preview.settings
    | .error _ => s

namespace CredentialField

/-- The user enters the credential. -/
def Typed (actions : List FormAction) (c : CredentialField) (token : Bytes) : Prop :=
  .edit c.row.id token ∈ actions

theorem kind_injective : Function.Injective kind := by
  intro c d h
  cases c <;> cases d <;> first | rfl | cases h

/-- Credentials are not shared. -/
theorem row_not_shared (c : CredentialField) : ¬ c.row.Shared := by
  cases c <;> decide

/-- **An edit** keeps a credential with its provider, or enters one. -/
theorem settingsEdit_kept [FrequencyEnum] (c : CredentialField) (s : InputSettings)
    (id value : Bytes) : c.Kept s (settingsEdit s (id, value)) ∨
      id = c.row.id ∧ c.token (settingsEdit s (id, value)) = value := by
  refine settingsEdit_invariant (I := fun t => c.Kept s t ∨ id = c.row.id ∧ c.token t = value)
    (fun r t hr hset => ?_) (.inl (.refl s c))
  have hid : r.id = id := beq_iff_eq.mp (List.find?_some (p := fun r : RowId => r.id == id) hr)
  rcases RowId.set_token hset c with hkept | ⟨hrow, htoken⟩
  · exact .inl hkept
  · exact .inr ⟨by rw [← hid, hrow], htoken⟩

/-- **A download** keeps every credential with its provider: none of its entries is a
credential. -/
theorem prepareDownload_kept [FrequencyEnum] (c : CredentialField) {s : InputSettings}
    {remote : Preferences} {preview : SettingsPreview}
    (h : prepareDownload s remote = .ok preview) : c.Kept s preview.settings := by
  refine prepareDownload_invariant (I := (c.Kept s ·)) (fun hentry hkept => ?_) h (.refl s c)
  rcases downloadEntry_settings hentry with heq | ⟨r, value, text, -, hr, -, hset⟩
  · exact heq ▸ hkept
  · refine hkept.trans ((RowId.set_token hset c).resolve_right ?_)
    rintro ⟨hrow, -⟩
    exact c.row_not_shared (hrow ▸ boundRow_shared hr)

/-- What an action makes of a credential. -/
theorem apply_kept [FrequencyEnum] (c : CredentialField) (s : InputSettings) (action : FormAction) :
    c.Kept s (action.apply s) ∨ action = .edit c.row.id (c.token (action.apply s)) := by
  cases action with
  | edit id value =>
    rcases c.settingsEdit_kept s id value with hkept | ⟨hid, htoken⟩
    · exact .inl hkept
    · refine .inr ?_
      rw [FormAction.apply, htoken, hid]
  | download remote =>
    refine .inl ?_
    simp only [FormAction.apply]
    split
    · next preview hpreview => exact c.prepareDownload_kept hpreview
    · exact .refl s c

/-- **A credential of the form** was left where it was, or it was typed. -/
theorem formRun_origin [FrequencyEnum] (c : CredentialField) (s : InputSettings)
    (actions : List FormAction) : c.Kept s (actions.foldl FormAction.apply s) ∨
      c.Typed actions (c.token (actions.foldl FormAction.apply s)) := by
  induction actions generalizing s with
  | nil => exact .inl (.refl s c)
  | cons action actions ih =>
    rw [List.foldl_cons]
    rcases ih (action.apply s) with hlater | htyped
    · -- what the later actions kept is what this one left
      rcases c.apply_kept s action with hkept | hedit
      · exact .inl (hkept.trans hlater)
      · rcases hlater with hempty | ⟨htoken, hprovider⟩
        · exact .inl (.inl hempty)
        · refine .inr (List.mem_cons.mpr (.inl ?_))
          rw [htoken]
          exact hedit.symm
    · exact .inr (List.mem_cons_of_mem _ htyped)

/-- What is loaded is what the store has for the selected provider. -/
theorem loadWithSecrets_token (E : SettingsEnv) (lookup : SecretKind → Bytes → SecretLookup)
    (config : ConfigFile) (c : CredentialField)
    (h : c.token (E.loadWithSecrets lookup config).1 ≠ []) :
    lookup c.kind (c.provider (E.loadWithSecrets lookup config).1) =
      .found (c.token (E.loadWithSecrets lookup config).1) := by
  have hanswer : ∀ {enabled : Bool} {answer : SecretLookup},
      (if enabled then answer.tokenOr [] else []) ≠ [] →
        answer = .found (if enabled then answer.tokenOr [] else []) := by
    intro enabled answer hne
    cases enabled with
    | false => exact absurd rfl hne
    | true =>
      cases answer with
      | found token => rfl
      | notFound | unavailable => exact absurd rfl hne
  have hloaded := load_loadedAs E config
  obtain ⟨ai, translation, voice, hfst⟩ := loadWithSecrets_fst E lookup config
  rw [hfst] at h ⊢
  cases c with
  | ai =>
    show lookup .aiApiToken (E.load config).1.online.ai.provider.name = _
    rw [hloaded.aiProvider]
    exact hanswer h
  | translation =>
    show lookup .translationApiToken (E.load config).1.online.translationProvider.name = _
    rw [hloaded.translationProvider]
    exact hanswer h
  | voice =>
    show lookup .voiceApiToken (E.load config).1.voice.provider = _
    rw [hloaded.voiceProvider]
    exact hanswer h

end CredentialField

/-! ## The save -/

variable {service : SecretOutcome} {secrets : SecretSlots} {persisted settings : InputSettings}

/-- A call that failed has left this in the slot. -/
def SecretOutcome.Leaves (service : SecretOutcome) (slot : SecretSlot) (token : Bytes) : Prop :=
  service.changed slot = .failed (some token) ∨ service.restored slot = .failed (some token)

/-- The settings have the token for the slot. -/
def Holds (settings : InputSettings) (slot : SecretSlot) (token : Bytes) : Prop :=
  ∃ c : CredentialField, slot = (c.kind, c.provider settings) ∧ c.token settings = token

/-- What a save plans to store is what the settings hold. -/
theorem planSecrets_holds {pending : List PendingSecret} {secret : PendingSecret} {token : Bytes}
    (h : planSecrets service secrets persisted settings = .ok pending) (hsecret : secret ∈ pending)
    (hvalue : secret.value = some token) : Holds settings secret.slot token := by
  rw [planSecrets_ok h, mem_plan] at hsecret
  rcases hsecret with ⟨use, huse, hstores, rfl⟩ | ⟨hnone, -⟩
  · obtain rfl := Option.some.inj hvalue
    simp only [credentialUses, List.mem_cons, List.not_mem_nil, or_false] at huse
    rcases huse with rfl | rfl | rfl
    · exact ⟨.ai, rfl, rfl⟩
    · -- only DeepLX is stored for, and it is the one that is selected
      have hused : usesTranslationCredential settings = true := hstores.1
      have hprovider := eq_of_beq (Bool.and_eq_true_iff.mp hused).2
      exact ⟨.translation, congrArg (fun p => (SecretKind.translationApiToken, p.name))
        hprovider.symm, rfl⟩
    · exact ⟨.voice, rfl, rfl⟩
  · rw [hnone] at hvalue
    cases hvalue

/-- **What a slot holds after a save**: what it held, what the settings hold for it, or
what a failed call has left. -/
def Accounted (service : SecretOutcome) (secrets after : SecretSlots) (settings : InputSettings) :
    Prop :=
  ∀ slot token, after slot = some token →
    secrets slot = some token ∨ Holds settings slot token ∨ service.Leaves slot token

/-- The changes of a save, as far as they got. -/
theorem secretChanges_accounted {pending : List PendingSecret}
    (h : planSecrets service secrets persisted settings = .ok pending) :
    Accounted service secrets
      (applyChanges service.changed (secretChanges service secrets pending) secrets).slots
      settings := by
  intro slot token htoken
  rcases applyChanges_slot service.changed (secretChanges service secrets pending) secrets slot with
    hkept | ⟨change, hchange, rfl, hvalue⟩ | hfailed
  · exact .inl (hkept ▸ htoken)
  · obtain ⟨secret, hsecret, rfl⟩ := List.mem_map.mp hchange
    exact .inr (.inl (planSecrets_holds h (List.mem_filter.mp hsecret).1
      (hvalue.symm.trans htoken)))
  · exact .inr (.inr (.inl (htoken ▸ hfailed)))

/-- Taking changes back. -/
theorem Accounted.undo {after : SecretSlots} (h : Accounted service secrets after settings)
    {attempted : List (Change SecretSlot Bytes)}
    (hprevious : ∀ change ∈ attempted, change.previous = secrets change.slot) :
    Accounted service secrets (undoChanges service.restored attempted after).1 settings := by
  intro slot token htoken
  rcases undoChanges_slot_cases service.restored attempted after slot with
    hkept | ⟨change, hchange, rfl, hvalue⟩ | hfailed
  · exact h slot token (hkept ▸ htoken)
  · exact .inl (by rw [← hprevious change hchange, ← hvalue, htoken])
  · exact .inr (.inr (.inr (htoken ▸ hfailed)))

theorem Accounted.refl : Accounted service secrets secrets settings :=
  fun _ _ htoken => .inl htoken

theorem fileSecrets_accounted :
    Accounted service secrets (fileSecrets service secrets persisted settings).2 settings := by
  unfold fileSecrets
  split
  · exact .refl
  · next pending hplan =>
    split
    · exact .refl
    · next havailable =>
      dsimp only
      split
      · exact secretChanges_accounted hplan
      · exact (secretChanges_accounted hplan).undo fun change hchange =>
          secretChanges_previous (Bool.eq_false_iff.mpr havailable) change
            (applyChanges_attempted hchange)

variable (E : SettingsEnv) (io : WriteOutcome) (disk : Disk)

theorem saveWithSecretsUnlocked_accounted : Accounted service secrets
    (E.saveWithSecretsUnlocked io service settings disk secrets).secrets settings := by
  have hfiled : Accounted service secrets
      (fileSecrets service secrets (E.load disk.config).1 settings).2 settings :=
    fileSecrets_accounted
  unfold SettingsEnv.saveWithSecretsUnlocked
  split
  · exact .refl
  split
  · next message after hfile =>
    rw [hfile] at hfiled
    exact hfiled
  · next made after hfile =>
    rw [hfile] at hfiled
    dsimp only
    split
    · exact hfiled
    · -- the file was not written, and the changes are taken back
      obtain ⟨⟨pending, -, rfl, havailable⟩, -⟩ := fileSecrets_ok hfile
      exact hfiled.undo (secretChanges_previous havailable)

/-- A save of the form: the window's, or the one of a download that was confirmed for a
version of the file. -/
def SettingsEnv.saveForm (expected : Option SettingsFileVersion) (service : SecretOutcome)
    (settings : InputSettings) (secrets : SecretSlots) : SecretSaveResult :=
  match expected with
  | none => E.saveWithSecrets io service settings disk secrets
  | some version => E.saveIfUnchanged io service settings version disk secrets

theorem saveForm_accounted (expected : Option SettingsFileVersion) : Accounted service secrets
    (E.saveForm io disk expected service settings secrets).secrets settings := by
  unfold SettingsEnv.saveForm
  split
  · unfold SettingsEnv.saveWithSecrets
    split
    · exact .refl
    split
    · exact .refl
    · exact saveWithSecretsUnlocked_accounted E io disk
  · unfold SettingsEnv.saveIfUnchanged
    split
    · exact .refl
    split
    · exact .refl
    split
    · exact .refl
    · exact saveWithSecretsUnlocked_accounted E io disk

/-- The token is the one that was loaded from the store, for this provider. -/
structure LoadedFor (E : SettingsEnv) (lookup : SecretKind → Bytes → SecretLookup)
    (config : ConfigFile) (c : CredentialField) (provider token : Bytes) : Prop where
  loaded : c.token (E.loadWithSecrets lookup config).1 = token
  selected : c.provider (E.loadWithSecrets lookup config).1 = provider
  found : lookup c.kind provider = .found token

/-- **A stored credential is never refiled under another provider.** After any edits of
the form and any downloads, a token that was not typed is in the form only if it was
loaded for the provider that is selected; and a save, whatever the store has become and
however it fails, leaves such a token only where it was, where it was loaded for, or where
the store itself has left it. -/
theorem credential_not_refiled [FrequencyEnum] (E : SettingsEnv)
    (lookup : SecretKind → Bytes → SecretLookup) (config : ConfigFile)
    (actions : List FormAction) (c : CredentialField) {token : Bytes} (hsome : token ≠ [])
    (htyped : ¬ c.Typed actions token) :
    let form := actions.foldl FormAction.apply (E.loadWithSecrets lookup config).1
    (c.token form = token → LoadedFor E lookup config c (c.provider form) token) ∧
    ∀ io service disk secrets expected provider,
      (E.saveForm io disk expected service form secrets).secrets (c.kind, provider) = some token →
        secrets (c.kind, provider) = some token ∨ LoadedFor E lookup config c provider token ∨
          service.Leaves (c.kind, provider) token := by
  intro form
  have hform : ∀ d : CredentialField, d = c → d.token form = token →
      LoadedFor E lookup config c (d.provider form) token := by
    rintro d rfl htoken
    rcases d.formRun_origin (E.loadWithSecrets lookup config).1 actions with
      (hempty | ⟨hkept, hprovider⟩) | hentered
    · exact absurd (htoken.symm.trans hempty) hsome
    · have hloaded : d.token (E.loadWithSecrets lookup config).1 = token := hkept.symm.trans htoken
      refine ⟨hloaded, hprovider.symm, ?_⟩
      have hfound := CredentialField.loadWithSecrets_token E lookup config d
        (by rw [hloaded]; exact hsome)
      rwa [hloaded, ← hprovider] at hfound
    · exact absurd (htoken ▸ hentered) htyped
  refine ⟨hform c rfl, fun io service disk secrets expected provider htoken => ?_⟩
  rcases saveForm_accounted E io disk expected _ _ htoken with hkept | ⟨d, hslot, hheld⟩ | hleft
  · exact .inl hkept
  · obtain ⟨hkind, rfl⟩ := Prod.mk.inj hslot
    exact .inr (.inl (hform d (CredentialField.kind_injective hkind.symm) hheld))
  · exact .inr (.inr hleft)

/-- The AI service is on, for one of its providers. -/
def selectedProvider : ConfigFile :=
  .regular (ascii "[ai]\nenabled=true\nprovider=openai\n")

/-- The provider is changed and changed back. -/
def switched : List FormAction :=
  [.edit (ascii "ai-provider") (ascii "deepseek"), .edit (ascii "ai-provider") (ascii "openai")]

/-- The token that was loaded is not in the form any more, and no save files it. -/
theorem credential_not_refiled_switched : ∃ _ : FrequencyEnum,
    let loaded := (plainEnv.loadWithSecrets (formerSecrets.lookup true) selectedProvider).1
    let form := switched.foldl FormAction.apply loaded
    loaded.online.ai.token = ascii "sk-1" ∧ form.online.ai.token = [] ∧
      ∀ io service disk secrets expected provider,
        (plainEnv.saveForm io disk expected service form secrets).secrets (.aiApiToken, provider) =
          some (ascii "sk-1") →
        secrets (.aiApiToken, provider) = some (ascii "sk-1") ∨
          LoadedFor plainEnv (formerSecrets.lookup true) selectedProvider .ai provider
            (ascii "sk-1") ∨
          service.Leaves (.aiApiToken, provider) (ascii "sk-1") := by
  have htyped : ¬ CredentialField.ai.Typed switched (ascii "sk-1") := by
    intro h
    simp only [CredentialField.Typed, switched, List.mem_cons, FormAction.edit.injEq,
      List.not_mem_nil, or_false] at h
    rcases h with ⟨-, h⟩ | ⟨-, h⟩
    all_goals
      revert h
      decide
  let _ := orderedModes
  exact ⟨orderedModes, by decide +kernel, by decide +kernel,
    (credential_not_refiled plainEnv _ selectedProvider switched .ai (by decide) htyped).2⟩

end MsimeLinux
