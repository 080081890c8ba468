import Mathlib.Data.List.Nodup
import MsimeLinux.Settings.SecretTransaction

/-!
# What a save does to the credentials

A save files at most one credential for each service, and never files and removes
the same one, so no slot is changed twice and its changes can be taken back.

- `fileSecrets_error`, `SecretsFiled.undo`: a failed change, or a failed write of the
  file, leaves the secret store as it was, if the restoring writes succeed;
- `SecretsFiled.settled`, `SecretsFiled.frame`: what a save that does not fail makes
  of every slot;
- `credentialSave_atomic`: both, for the whole save.
-/

namespace MsimeLinux

open Lib

variable {service : SecretOutcome} {secrets : SecretSlots} {persisted settings : InputSettings}
  {use : CredentialUse} {uses : List CredentialUse} {pending : List PendingSecret}

/-! ## The plan -/

/-- The token is the one that is filed under the provider the service was saved with,
another one: it was loaded for that provider and is not meant for the selected one. -/
def CredentialUse.Hydrated (use : CredentialUse) (secrets : SecretSlots) : Prop :=
  use.persisted ≠ [] ∧ use.persisted ≠ use.provider ∧
    secrets (use.kind, use.persisted) = some use.token

instance : Decidable (use.Hydrated secrets) := inferInstanceAs (Decidable (_ ∧ _ ∧ _))

/-- The save files the token under the selected provider. -/
def CredentialUse.Stores (use : CredentialUse) (secrets : SecretSlots) : Prop :=
  use.enabled = true ∧ use.cleared = false ∧ use.token ≠ [] ∧ ¬ use.Hydrated secrets

instance : Decidable (use.Stores secrets) := inferInstanceAs (Decidable (_ ∧ _ ∧ _ ∧ _))

/-- What is planned for the token. -/
def CredentialUse.stored (secrets : SecretSlots) (use : CredentialUse) : List PendingSecret :=
  if use.Stores secrets then [⟨use.kind, use.provider, some use.token⟩] else []

theorem SecretSlots.lookup_found {answered : Bool} {kind : SecretKind} {provider value : Bytes}
    (h : secrets.lookup answered kind provider = .found value) :
    secrets (kind, provider) = some value := by
  unfold lookup at h
  split at h
  · split at h
    · next hsome => rw [hsome, SecretLookup.found.inj h]
    · cases h
  · cases h

theorem SecretSlots.lookup_notFound {answered : Bool} {kind : SecretKind} {provider : Bytes}
    (h : secrets.lookup answered kind provider = .notFound) : secrets (kind, provider) = none := by
  unfold lookup at h
  split at h
  · split at h
    · cases h
    · next hnone => exact hnone
  · cases h

theorem SecretSlots.lookup_answered {kind : SecretKind} {provider : Bytes}
    {answered : Bool} (h : answered = true) :
    secrets.lookup answered kind provider ≠ .unavailable := by
  unfold lookup
  rw [if_pos h]
  split <;> simp

theorem credentialValue_ok {kind : SecretKind} {provider token previous value : Bytes}
    (h : credentialValue service secrets kind provider token previous = .ok value) :
    value = if previous ≠ [] ∧ previous ≠ provider ∧ secrets (kind, previous) = some token
      then [] else token := by
  unfold credentialValue at h
  by_cases hcompare : token ≠ [] ∧ previous ≠ [] ∧ previous ≠ provider
  · rw [if_pos hcompare] at h
    split at h
    · cases h
    · next hydrated hfound =>
      have hslot := SecretSlots.lookup_found hfound
      rw [← pure_eq_ok_iff.mp h]
      simp [hslot, hcompare.2]
    · next hnotFound =>
      have hslot := SecretSlots.lookup_notFound hnotFound
      rw [← pure_eq_ok_iff.mp h]
      simp [hslot]
  · rw [if_neg hcompare] at h
    rw [← pure_eq_ok_iff.mp h]
    split
    · next hother =>
      -- there is nothing to compare: the token is empty
      by_contra htoken
      exact hcompare ⟨htoken, hother.1, hother.2.1⟩
    · rfl

/-- What `plan_credential` adds to the plan. -/
theorem planCredential_ok {kind : SecretKind} {provider token previous : Bytes}
    {missing : Option String} {pending' : List PendingSecret}
    (h : planCredential service secrets kind provider token previous missing pending =
      .ok pending') :
    pending' = pending ++ if token ≠ [] ∧ ¬ (previous ≠ [] ∧ previous ≠ provider ∧
      secrets (kind, previous) = some token) then [⟨kind, provider, some token⟩] else [] := by
  obtain ⟨value, hvalue, hrest⟩ := call_eq_ok_iff.mp h
  have hvalue := credentialValue_ok hvalue
  by_cases hempty : value = []
  · rw [if_neg (not_not_intro hempty)] at hrest
    have hsame : pending' = pending := by
      cases missing with
      | none => exact (pure_eq_ok_iff.mp hrest).symm
      | some message => exact (pure_eq_ok_iff.mp (guard_eq_ok_iff.mp hrest).2).symm
    rw [hsame, if_neg, List.append_nil]
    rintro ⟨htoken, hother⟩
    rw [if_neg hother] at hvalue
    exact htoken (hvalue ▸ hempty)
  · rw [if_pos hempty] at hrest
    split at hvalue
    · exact absurd hvalue hempty
    · next hother =>
      subst hvalue
      rw [if_pos ⟨hempty, hother⟩]
      exact (pure_eq_ok_iff.mp hrest).symm

/-- The same for a service. DeepLX, the only provider of translations with a
credential, has no other one to compare with. -/
theorem CredentialUse.plan_ok {previous : Bytes} {missing : Option String}
    {pending' : List PendingSecret}
    (hprevious : previous = use.persisted ∨
      previous = [] ∧ (use.persisted = [] ∨ use.persisted = use.provider))
    (h : use.plan service secrets previous missing pending = .ok pending') :
    pending' = pending ++ use.stored secrets := by
  unfold plan at h
  unfold stored
  by_cases henabled : use.enabled = true
  · rw [if_pos henabled] at h
    have hplan := planCredential_ok h
    unfold Stores Hydrated
    by_cases hcleared : use.cleared = true
    · simpa [hcleared] using hplan
    · rcases hprevious with rfl | ⟨rfl, hnone | hsame⟩
      · simpa [henabled, hcleared] using hplan
      · simpa [henabled, hcleared, hnone] using hplan
      · simpa [henabled, hcleared, hsame] using hplan
  · rw [if_neg henabled] at h
    have hstores : ¬ use.Stores secrets := fun hstores => henabled hstores.1
    rw [← pure_eq_ok_iff.mp h, if_neg hstores, List.append_nil]

/-- The whole plan: what is stored, then what is removed. -/
theorem planSecrets_ok
    (h : planSecrets service secrets persisted settings = .ok pending) :
    pending = (removalSlots (credentialUses persisted settings)).foldl planRemoval
      ((credentialUses persisted settings).flatMap (CredentialUse.stored secrets)) := by
  unfold planSecrets at h
  obtain ⟨withAi, hai, h⟩ := call_eq_ok_iff.mp h
  obtain ⟨withTranslation, htranslation, h⟩ := call_eq_ok_iff.mp h
  obtain ⟨-, h⟩ := guard_eq_ok_iff.mp h
  obtain ⟨withVoice, hvoice, h⟩ := call_eq_ok_iff.mp h
  have hnoOther : (translationUse persisted settings).persisted = [] ∨
      (translationUse persisted settings).persisted =
        (translationUse persisted settings).provider := by
    unfold translationUse
    by_cases hused : usesTranslationCredential persisted = true <;> simp [hused]
  rw [← pure_eq_ok_iff.mp h, CredentialUse.plan_ok (.inl rfl) hvoice,
    CredentialUse.plan_ok (.inr ⟨rfl, hnoOther⟩) htranslation,
    CredentialUse.plan_ok (.inl rfl) hai]
  simp [credentialUses]

/-! ## No slot is changed twice -/

theorem mem_planRemoval {slot : SecretSlot} {secret : PendingSecret} :
    secret ∈ planRemoval pending slot ↔
      secret ∈ pending ∨ slot.2 ≠ [] ∧ secret = ⟨slot.1, slot.2, none⟩ := by
  unfold planRemoval
  split
  · next h =>
    refine ⟨.inl, ?_⟩
    rintro (hmem | ⟨hslot, rfl⟩)
    · exact hmem
    · exact h.resolve_left hslot
  · next h =>
    have hslot : slot.2 ≠ [] := fun hnil => h (.inl hnil)
    simp [hslot]

/-- The removals of a plan. -/
theorem mem_planRemovals {slots : List SecretSlot} {secret : PendingSecret} :
    secret ∈ slots.foldl planRemoval pending ↔
      secret ∈ pending ∨ secret.value = none ∧ secret.provider ≠ [] ∧ secret.slot ∈ slots := by
  induction slots generalizing pending with
  | nil => simp
  | cons slot slots ih =>
    rw [List.foldl_cons, ih, mem_planRemoval, List.mem_cons, or_assoc]
    refine or_congr_right ⟨?_, ?_⟩
    · rintro (⟨hslot, rfl⟩ | ⟨hvalue, hprovider, hmem⟩)
      · exact ⟨rfl, hslot, .inl rfl⟩
      · exact ⟨hvalue, hprovider, .inr hmem⟩
    · obtain ⟨kind, provider, value⟩ := secret
      rintro ⟨rfl, hprovider, rfl | hmem⟩
      · exact .inl ⟨hprovider, rfl⟩
      · exact .inr ⟨rfl, hprovider, hmem⟩

theorem planRemovals_nodup {slots : List SecretSlot} (h : pending.Nodup) :
    (slots.foldl planRemoval pending).Nodup := by
  induction slots generalizing pending with
  | nil => exact h
  | cons slot slots ih =>
    refine ih ?_
    unfold planRemoval
    split
    · exact h
    · next hnew =>
      have hmem : ⟨slot.1, slot.2, none⟩ ∉ pending := fun hmem => hnew (.inr hmem)
      rw [List.nodup_append]
      refine ⟨h, List.nodup_singleton _, fun secret hsecret other hother hsame => hmem ?_⟩
      rwa [← List.mem_singleton.mp hother, ← hsame]

theorem mem_stored {secret : PendingSecret} :
    secret ∈ use.stored secrets ↔
      use.Stores secrets ∧ secret = ⟨use.kind, use.provider, some use.token⟩ := by
  unfold CredentialUse.stored
  split <;> simp [*]

theorem mem_removalSlots {slot : SecretSlot} :
    slot ∈ removalSlots uses ↔ ∃ use ∈ uses,
      use.enabled = false ∧ slot = (use.kind, use.persisted) ∨
        use.cleared = true ∧ slot = (use.kind, use.provider) := by
  unfold removalSlots
  simp only [List.mem_append, List.mem_map, List.mem_filter, Bool.not_eq_true']
  constructor
  · rintro (⟨use, ⟨huse, henabled⟩, rfl⟩ | ⟨use, ⟨huse, hcleared⟩, rfl⟩)
    · exact ⟨use, huse, .inl ⟨henabled, rfl⟩⟩
    · exact ⟨use, huse, .inr ⟨hcleared, rfl⟩⟩
  · rintro ⟨use, huse, ⟨henabled, rfl⟩ | ⟨hcleared, rfl⟩⟩
    · exact .inl ⟨use, ⟨huse, henabled⟩, rfl⟩
    · exact .inr ⟨use, ⟨huse, hcleared⟩, rfl⟩

/-- What is in a plan: each service's token, or a removal for it. -/
theorem mem_plan {secret : PendingSecret} :
    secret ∈ (removalSlots uses).foldl planRemoval (uses.flatMap (CredentialUse.stored secrets)) ↔
      (∃ use ∈ uses, use.Stores secrets ∧ secret = ⟨use.kind, use.provider, some use.token⟩) ∨
      (secret.value = none ∧ secret.provider ≠ [] ∧ secret.slot ∈ removalSlots uses) := by
  rw [mem_planRemovals, List.mem_flatMap]
  simp only [mem_stored]

/-- No two services have credentials of the same kind. -/
def DistinctKinds (uses : List CredentialUse) : Prop := (uses.map CredentialUse.kind).Nodup

theorem credentialUses_distinctKinds : DistinctKinds (credentialUses persisted settings) := by
  show [SecretKind.aiApiToken, .translationApiToken, .voiceApiToken].Nodup
  decide

theorem DistinctKinds.eq (h : DistinctKinds uses) {use use' : CredentialUse} (huse : use ∈ uses)
    (huse' : use' ∈ uses) (hkind : use.kind = use'.kind) : use = use' :=
  List.inj_on_of_nodup_map h huse huse' hkind

/-- What is stored for a service stands alone in its slots' kind. -/
theorem DistinctKinds.stored_ne_removal (h : DistinctKinds uses) {use : CredentialUse}
    (huse : use ∈ uses) (hstores : use.Stores secrets) {slot : SecretSlot}
    (hslot : slot ∈ removalSlots uses) : slot.1 ≠ use.kind := by
  obtain ⟨other, hother, hcase⟩ := mem_removalSlots.mp hslot
  intro hkind
  have hsame : other = use := by
    refine h.eq hother huse ?_
    rcases hcase with ⟨-, rfl⟩ | ⟨-, rfl⟩ <;> exact hkind
  subst hsame
  rcases hcase with ⟨henabled, -⟩ | ⟨hcleared, -⟩
  · exact absurd hstores.1 (by simp [henabled])
  · exact absurd hstores.2.1 (by simp [hcleared])

theorem stored_nodup (h : DistinctKinds uses) :
    (uses.flatMap (CredentialUse.stored secrets)).Nodup := by
  rw [List.nodup_flatMap]
  refine ⟨fun use _ => ?_, ?_⟩
  · unfold CredentialUse.stored
    split
    · exact List.nodup_singleton _
    · exact List.nodup_nil
  · refine (List.pairwise_map.mp h).imp ?_
    intro use use' hkind secret hsecret hsecret'
    obtain ⟨-, rfl⟩ := mem_stored.mp hsecret
    obtain ⟨-, heq⟩ := mem_stored.mp hsecret'
    exact hkind (PendingSecret.mk.inj heq).1

/-- **No slot is changed twice.** -/
theorem plan_slots_nodup (h : DistinctKinds uses) :
    (((removalSlots uses).foldl planRemoval
      (uses.flatMap (CredentialUse.stored secrets))).map PendingSecret.slot).Nodup := by
  refine List.Nodup.map_on ?_ (planRemovals_nodup (stored_nodup h))
  intro secret hsecret other hother hslot
  obtain ⟨hkind, hprovider⟩ := Prod.mk.inj hslot
  rcases mem_plan.mp hsecret with ⟨use, huse, hstores, rfl⟩ | ⟨hvalue, -, hremoved⟩
  · rcases mem_plan.mp hother with ⟨use', huse', -, rfl⟩ | ⟨-, -, hremoved⟩
    · rw [h.eq huse huse' hkind]
    · exact absurd hkind.symm (h.stored_ne_removal huse hstores hremoved)
  · rcases mem_plan.mp hother with ⟨use', huse', hstores, rfl⟩ | ⟨hvalue', -, -⟩
    · exact absurd hkind (h.stored_ne_removal huse' hstores hremoved)
    · cases secret
      cases other
      simp_all

/-! ## The changes -/

/-- The slots of a plan, and of the changes it leads to. -/
theorem planned_slots_nodup (h : planSecrets service secrets persisted settings = .ok pending) :
    (pending.map PendingSecret.slot).Nodup := by
  rw [planSecrets_ok h]
  exact plan_slots_nodup credentialUses_distinctKinds

theorem changed_slots_nodup (h : planSecrets service secrets persisted settings = .ok pending) :
    ((secretChanges service secrets pending).map Change.slot).Nodup := by
  unfold secretChanges
  rw [List.map_map]
  exact (List.filter_sublist.map _).nodup (planned_slots_nodup h)

/-- Nothing is changed whose previous value is not known. -/
theorem secretChanges_previous
    (havailable : pending.any (fun secret =>
      secret.value.isSome && secret.previous service secrets == .unavailable) = false) :
    ∀ c ∈ secretChanges service secrets pending, c.previous = secrets c.slot := by
  intro c hc
  obtain ⟨secret, hsecret, rfl⟩ := List.mem_map.mp hc
  obtain ⟨hmem, hmade⟩ := List.mem_filter.mp hsecret
  have hknown := List.any_eq_false.mp havailable secret hmem
  show (secret.change service secrets).previous = secrets secret.slot
  unfold PendingSecret.change
  cases hprevious : secret.previous service secrets with
  | found value => exact (SecretSlots.lookup_found hprevious).symm
  | notFound => exact (SecretSlots.lookup_notFound hprevious).symm
  | unavailable =>
    -- a removal is not made then, and a token makes the save fail
    cases hvalue : secret.value with
    | some value => simp [hvalue, hprevious] at hknown
    | none => simp [PendingSecret.isMade, hvalue, hprevious] at hmade

/-- What the first half of a save did, when it did not fail. -/
structure SecretsFiled (service : SecretOutcome) (secrets : SecretSlots)
    (persisted settings : InputSettings) (made : List (Change SecretSlot Bytes))
    (after : SecretSlots) : Prop where
  planned : ∃ pending, planSecrets service secrets persisted settings = .ok pending ∧
    made = secretChanges service secrets pending ∧
    pending.any (fun secret =>
      secret.value.isSome && secret.previous service secrets == .unavailable) = false
  applied : (applyChanges service.changed made secrets).ok = true ∧
    after = (applyChanges service.changed made secrets).slots

variable {made : List (Change SecretSlot Bytes)} {after : SecretSlots} {message : String}

theorem fileSecrets_ok (h : fileSecrets service secrets persisted settings = (.ok made, after)) :
    SecretsFiled service secrets persisted settings made after := by
  unfold fileSecrets at h
  split at h
  · cases h
  · next pending hplan =>
    split at h
    · cases h
    · next havailable =>
      dsimp only at h
      split at h
      · next hok =>
        obtain ⟨hmade, rfl⟩ := Prod.mk.inj h
        have hall := applyChanges_all hok
        rw [← Except.ok.inj hmade, hall]
        exact ⟨⟨pending, hplan, rfl, Bool.eq_false_iff.mpr havailable⟩, hok, rfl⟩
      · cases h

/-- **A change that fails is taken back with all that went before it.** -/
theorem fileSecrets_error
    (h : fileSecrets service secrets persisted settings = (.error message, after))
    (hrestored : message ≠ rollbackFailed) : after = secrets := by
  unfold fileSecrets at h
  split at h
  · exact (Prod.mk.inj h).2.symm
  · next pending hplan =>
    split at h
    · exact (Prod.mk.inj h).2.symm
    · next havailable =>
      have hprevious := secretChanges_previous (Bool.eq_false_iff.mpr havailable)
      dsimp only at h
      split at h
      · cases h
      · obtain ⟨hmessage, rfl⟩ := Prod.mk.inj h
        have hundone := undoChanges_restores service.changed service.restored hprevious
        refine hundone ?_
        by_contra hfailed
        rw [if_neg hfailed] at hmessage
        exact hrestored (Except.error.inj hmessage).symm

/-- What is undone after the write of the file failed. -/
theorem SecretsFiled.undo (h : SecretsFiled service secrets persisted settings made after)
    (hrestored : (undoChanges service.restored made after).2 = true) :
    (undoChanges service.restored made after).1 = secrets := by
  obtain ⟨⟨pending, hplan, rfl, havailable⟩, hok, rfl⟩ := h
  have hundone := undoChanges_restores service.changed service.restored
    (secretChanges_previous havailable)
  rw [applyChanges_all hok] at hundone
  exact hundone hrestored

/-! ## What becomes of every slot -/

/-- What a save makes of the credentials of a service. -/
structure CredentialUse.Settled (service : SecretOutcome) (before after : SecretSlots)
    (use : CredentialUse) : Prop where
  /-- the token is filed under the selected provider -/
  stored : use.enabled = true → use.cleared = false → use.token ≠ [] →
    ¬ use.Hydrated before → after (use.kind, use.provider) = some use.token
  /-- one that belongs to the provider of before is not -/
  kept : use.enabled = true → use.cleared = false → use.token ≠ [] → use.Hydrated before →
    after (use.kind, use.provider) = before (use.kind, use.provider)
  /-- a clear request leaves nothing -/
  forgotten : use.cleared = true → service.looked (use.kind, use.provider) = true →
    after (use.kind, use.provider) = none
  /-- turning the service off removes what it used -/
  dropped : use.enabled = false → use.persisted ≠ [] →
    service.looked (use.kind, use.persisted) = true → after (use.kind, use.persisted) = none

/-- The slots a save changes for a service. -/
def CredentialUse.Changes (before : SecretSlots) (use : CredentialUse) (slot : SecretSlot) : Prop :=
  slot = (use.kind, use.provider) ∧ (use.Stores before ∨ use.cleared = true) ∨
    slot = (use.kind, use.persisted) ∧ use.enabled = false

/-- A change of a service's slots is one of its own. -/
theorem SecretsFiled.mem_made (h : SecretsFiled service secrets persisted settings made after)
    {c : Change SecretSlot Bytes} (hc : c ∈ made) :
    ∃ use ∈ credentialUses persisted settings, use.Changes secrets c.slot := by
  obtain ⟨⟨pending, hplan, rfl, -⟩, -⟩ := h
  obtain ⟨secret, hsecret, rfl⟩ := List.mem_map.mp hc
  have hmem := (List.mem_filter.mp hsecret).1
  rw [planSecrets_ok hplan, mem_plan] at hmem
  rcases hmem with ⟨use, huse, hstores, rfl⟩ | ⟨-, -, hremoved⟩
  · exact ⟨use, huse, .inl ⟨rfl, .inl hstores⟩⟩
  · obtain ⟨use, huse, ⟨henabled, hslot⟩ | ⟨hcleared, hslot⟩⟩ := mem_removalSlots.mp hremoved
    · exact ⟨use, huse, .inr ⟨hslot, henabled⟩⟩
    · exact ⟨use, huse, .inl ⟨hslot, .inr hcleared⟩⟩

/-- **Every other slot is unchanged.** -/
theorem SecretsFiled.frame (h : SecretsFiled service secrets persisted settings made after)
    {slot : SecretSlot}
    (hslot : ∀ use ∈ credentialUses persisted settings, ¬ use.Changes secrets slot) :
    after slot = secrets slot := by
  rw [h.applied.2]
  refine applyChanges_frame ?_
  intro c hc hsame
  obtain ⟨use, huse, hchanges⟩ := h.mem_made (applyChanges_attempted hc)
  exact hslot use huse (hsame ▸ hchanges)

/-- A removal that was asked for leaves nothing, if the service said what was there. -/
theorem SecretsFiled.removed (h : SecretsFiled service secrets persisted settings made after)
    {slot : SecretSlot} (hslot : slot ∈ removalSlots (credentialUses persisted settings))
    (hprovider : slot.2 ≠ []) (hlooked : service.looked slot = true) : after slot = none := by
  obtain ⟨⟨pending, hplan, rfl, -⟩, hok, rfl⟩ := h
  have hmem : (⟨slot.1, slot.2, none⟩ : PendingSecret) ∈ pending := by
    rw [planSecrets_ok hplan]
    exact mem_planRemovals.mpr (.inr ⟨rfl, hprovider, hslot⟩)
  have hanswer : (⟨slot.1, slot.2, none⟩ : PendingSecret).previous service secrets ≠ .unavailable :=
    SecretSlots.lookup_answered hlooked
  cases hprevious : (⟨slot.1, slot.2, none⟩ : PendingSecret).previous service secrets with
  | unavailable => exact absurd hprevious hanswer
  | found value =>
    have hchange : (⟨slot.1, slot.2, none⟩ : PendingSecret).change service secrets ∈
        secretChanges service secrets pending := by
      refine List.mem_map_of_mem (List.mem_filter.mpr ⟨hmem, ?_⟩)
      simp [PendingSecret.isMade, hprevious]
    exact applyChanges_value (changed_slots_nodup hplan) hok hchange
  | notFound =>
    -- there is nothing to remove, and nothing is filed in this slot
    rw [applyChanges_frame]
    · exact SecretSlots.lookup_notFound hprevious
    intro c hc hsame
    obtain ⟨secret, hsecret, rfl⟩ := List.mem_map.mp (applyChanges_attempted hc)
    obtain ⟨hplanned, hmade⟩ := List.mem_filter.mp hsecret
    have heq := List.inj_on_of_nodup_map (planned_slots_nodup hplan) hplanned hmem hsame
    rw [heq] at hmade
    simp [PendingSecret.isMade, hprevious] at hmade

/-- **What a save makes of the credentials**: of every service. -/
theorem SecretsFiled.settled (h : SecretsFiled service secrets persisted settings made after)
    (huse : use ∈ credentialUses persisted settings) (hprovider : use.provider ≠ []) :
    use.Settled service secrets after where
  stored := by
    intro henabled hcleared htoken hother
    have hstores : use.Stores secrets := ⟨henabled, hcleared, htoken, hother⟩
    obtain ⟨⟨pending, hplan, rfl, -⟩, hok, rfl⟩ := h
    have hmem : (⟨use.kind, use.provider, some use.token⟩ : PendingSecret) ∈ pending := by
      rw [planSecrets_ok hplan]
      exact mem_plan.mpr (.inl ⟨use, huse, hstores, rfl⟩)
    have hchange : (⟨use.kind, use.provider, some use.token⟩ : PendingSecret).change service
        secrets ∈ secretChanges service secrets pending :=
      List.mem_map_of_mem (List.mem_filter.mpr ⟨hmem, rfl⟩)
    exact applyChanges_value (changed_slots_nodup hplan) hok hchange
  kept := by
    intro henabled hcleared _ hhydrated
    refine h.frame ?_
    intro other hother hchanges
    have hkind : other.kind = use.kind := by
      rcases hchanges with ⟨hslot, -⟩ | ⟨hslot, -⟩ <;> exact (Prod.mk.inj hslot).1.symm
    obtain rfl := credentialUses_distinctKinds.eq hother huse hkind
    rcases hchanges with ⟨-, hstores | hclear⟩ | ⟨-, hoff⟩
    · exact hstores.2.2.2 hhydrated
    · exact absurd hclear (by simp [hcleared])
    · exact absurd hoff (by simp [henabled])
  forgotten := by
    intro hcleared hlooked
    exact h.removed (mem_removalSlots.mpr ⟨use, huse, .inr ⟨hcleared, rfl⟩⟩) hprovider hlooked
  dropped := by
    intro henabled hpersisted hlooked
    exact h.removed (mem_removalSlots.mpr ⟨use, huse, .inl ⟨henabled, rfl⟩⟩) hpersisted hlooked

/-! ## The whole save -/

variable {E : SettingsEnv} {io : WriteOutcome} {disk : Disk}

/-- A save of the file that fails does not change what is loaded: all it may have done
is to put a text aside that is not a key file. -/
theorem SettingsEnv.saveUnlocked_load (h : (E.saveUnlocked io settings disk).error ≠ none) :
    (E.load (E.saveUnlocked io settings disk).disk.config).1 = (E.load disk.config).1 := by
  -- a text that is put aside gave the defaults, which a missing file gives too
  have hpreserved : ∀ file before, E.preserved io disk = some (file, before) →
      (E.load before.config).1 = (E.load disk.config).1 := by
    intro file before hbefore
    unfold preserved at hbefore
    split at hbefore
    · rw [← (Prod.mk.inj (Option.some.inj hbefore)).2]
    · cases hbefore
    · cases hbefore
    · next contents hcontents =>
      split at hbefore
      · rw [← (Prod.mk.inj (Option.some.inj hbefore)).2]
      · next hparse =>
        rw [← (Prod.mk.inj (Option.some.inj hbefore)).2]
        split
        · show ({} : InputSettings) = _
          simp only [load, hcontents, hparse]
        · rfl
  -- the ways a save fails, in their order
  unfold saveUnlocked at h ⊢
  split
  · rfl
  next hvalid =>
  rw [if_neg hvalid] at h
  split
  · rfl
  next hdirectory =>
  rw [if_neg hdirectory] at h
  split
  · rfl
  next file before hbefore =>
  rw [hbefore] at h
  dsimp only at h
  split
  · exact hpreserved file before hbefore
  next data hdata =>
  rw [hdata] at h
  dsimp only at h
  split
  · exact hpreserved file before hbefore
  next htemporary =>
  rw [if_neg htemporary] at h
  split
  · exact hpreserved file before hbefore
  next hwrite =>
  rw [if_neg hwrite] at h
  exact absurd rfl h

/-- Every service has a name to file its credential under. -/
theorem credentialUses_provider_ne_nil (hvalid : settings.Valid E.supportedHelpcodeSchema)
    (huse : use ∈ credentialUses persisted settings) : use.provider ≠ [] := by
  simp only [credentialUses, List.mem_cons, List.not_mem_nil, or_false] at huse
  rcases huse with rfl | rfl | rfl
  · show settings.online.ai.provider.name ≠ []
    cases settings.online.ai.provider <;> decide
  · show TranslationProvider.deepLX.name ≠ []
    decide
  · have hprovider := (Bool.and_eq_true_iff.mp hvalid.voiceProvider).2
    show settings.voice.provider ≠ []
    intro hnil
    simp [hnil] at hprovider

/-- What a save without a lock on the file does, when it succeeds. -/
theorem saveWithSecretsUnlocked_ok
    (h : (E.saveWithSecretsUnlocked io service settings disk secrets).error = none) :
    settings.Valid E.supportedHelpcodeSchema ∧
      ∃ made, SecretsFiled service secrets (E.load disk.config).1 settings made
        (E.saveWithSecretsUnlocked io service settings disk secrets).secrets := by
  unfold SettingsEnv.saveWithSecretsUnlocked at h ⊢
  split at h
  · cases h
  next hvalid =>
  rw [if_neg hvalid]
  refine ⟨validInputSettings_iff.mp (by simpa using hvalid), ?_⟩
  split at h
  · cases h
  next made after hfile =>
  dsimp only at h ⊢
  split at h
  · next hsaved => exact ⟨made, by simpa [hsaved] using fileSecrets_ok hfile⟩
  · cases h

/-- And of the file. -/
theorem saveWithSecretsUnlocked_saved
    (h : (E.saveWithSecretsUnlocked io service settings disk secrets).error = none) :
    E.Saved settings disk (E.saveWithSecretsUnlocked io service settings disk secrets).disk
      (E.saveWithSecretsUnlocked io service settings disk secrets).digest := by
  unfold SettingsEnv.saveWithSecretsUnlocked at h ⊢
  split at h
  · cases h
  next hvalid =>
  rw [if_neg hvalid]
  split at h
  · cases h
  dsimp only at h ⊢
  split at h
  · next hsaved => simpa only [hsaved] using SettingsEnv.saveUnlocked_ok hsaved
  · cases h

/-- What one does that fails and could take its changes back. -/
theorem saveWithSecretsUnlocked_error {message : String}
    (h : (E.saveWithSecretsUnlocked io service settings disk secrets).error = some message)
    (hrestored : message ≠ rollbackFailed) :
    (E.saveWithSecretsUnlocked io service settings disk secrets).secrets = secrets ∧
      (E.load (E.saveWithSecretsUnlocked io service settings disk secrets).disk.config).1 =
        (E.load disk.config).1 := by
  unfold SettingsEnv.saveWithSecretsUnlocked at h ⊢
  split at h
  · next hvalid =>
    rw [if_pos hvalid]
    exact ⟨rfl, rfl⟩
  next hvalid =>
  rw [if_neg hvalid]
  split at h
  · next failed after hfile =>
    exact ⟨fileSecrets_error hfile (Option.some.inj h ▸ hrestored), rfl⟩
  next made after hfile =>
  dsimp only at h ⊢
  split at h
  · cases h
  next hsaved =>
  -- the file was not written, and the changes were taken back
  have hload := SettingsEnv.saveUnlocked_load
    (show (E.saveUnlocked io settings disk).error ≠ none by simp [hsaved])
  dsimp only
  refine ⟨(fileSecrets_ok hfile).undo ?_, hload⟩
  by_contra hfailed
  rw [if_neg hfailed] at h
  exact hrestored (Option.some.inj h).symm

/-- **A save of settings and credentials is atomic.** If it fails, and does not
report that its changes could not be taken back, the secret store holds what it held
and the same settings are loaded as before. If it succeeds, each of the services has
its credential filed, left, forgotten or removed as the settings ask, and no other
slot is changed. -/
theorem credentialSave_atomic (E : SettingsEnv) (io : WriteOutcome) (service : SecretOutcome)
    (settings : InputSettings) (disk : Disk) (secrets : SecretSlots) :
    let result := E.saveWithSecrets io service settings disk secrets
    let uses := credentialUses (E.load disk.config).1 settings
    (∀ message, result.error = some message → message ≠ rollbackFailed →
      result.secrets = secrets ∧ (E.load result.disk.config).1 = (E.load disk.config).1) ∧
    (result.error = none →
      (∀ use ∈ uses, use.Settled service secrets result.secrets) ∧
      ∀ slot, (∀ use ∈ uses, ¬ use.Changes secrets slot) →
        result.secrets slot = secrets slot) := by
  intro result uses
  by_cases hvalid : (!validInputSettings E.supportedHelpcodeSchema settings) = true
  · have hresult : result = ⟨disk, secrets,
        some "Input settings were outside the supported range.", none⟩ := if_pos hvalid
    rw [hresult]
    exact ⟨fun _ _ _ => ⟨rfl, rfl⟩, fun h => (by cases h)⟩
  by_cases hlock : (!io.lock) = true
  · have hresult : result = ⟨disk, secrets, some "Unable to lock input settings.", none⟩ :=
      (if_neg hvalid).trans (if_pos hlock)
    rw [hresult]
    exact ⟨fun _ _ _ => ⟨rfl, rfl⟩, fun h => (by cases h)⟩
  have hresult : result = E.saveWithSecretsUnlocked io service settings disk secrets :=
    (if_neg hvalid).trans (if_neg hlock)
  rw [hresult]
  refine ⟨fun message h hrestored => saveWithSecretsUnlocked_error h hrestored, fun h => ?_⟩
  obtain ⟨hsettings, made, hfiled⟩ := saveWithSecretsUnlocked_ok h
  exact ⟨fun use huse => hfiled.settled huse (credentialUses_provider_ne_nil hsettings huse),
    fun slot hslot => hfiled.frame hslot⟩

/-! ## A save that is refused -/

/-- A file that is no key file. -/
def ConfigFile.Damaged (E : SettingsEnv) (config : ConfigFile) : Prop :=
  ∃ contents, config = .regular contents ∧ E.keyFiles.parse contents = none

/-- The service takes back what it is asked to take back. -/
def SecretOutcome.Restores (service : SecretOutcome) : Prop :=
  ∀ slot, (service.restored slot).isDone = true

theorem fileSecrets_refused (hrestores : service.Restores)
    (h : fileSecrets service secrets persisted settings = (.error message, after)) :
    after = secrets := by
  unfold fileSecrets at h
  split at h
  · exact (Prod.mk.inj h).2.symm
  · next pending hplan =>
    split at h
    · exact (Prod.mk.inj h).2.symm
    · next havailable =>
      dsimp only at h
      split at h
      · cases h
      · obtain ⟨-, rfl⟩ := Prod.mk.inj h
        exact undoChanges_restores service.changed service.restored
          (secretChanges_previous (Bool.eq_false_iff.mpr havailable))
          (undoChanges_done hrestores _ _)

/-- A save of the file that fails leaves one that is a key file as it was. -/
theorem SettingsEnv.saveUnlocked_refused (hfile : ¬ disk.config.Damaged E)
    (h : (E.saveUnlocked io settings disk).error ≠ none) :
    (E.saveUnlocked io settings disk).disk = disk := by
  -- only a damaged file is moved away before it is written
  have hpreserved : ∀ file before, E.preserved io disk = some (file, before) → before = disk := by
    intro file before hbefore
    unfold preserved at hbefore
    split at hbefore
    · exact (Prod.mk.inj (Option.some.inj hbefore)).2.symm
    · cases hbefore
    · cases hbefore
    · next contents hcontents =>
      split at hbefore
      · exact (Prod.mk.inj (Option.some.inj hbefore)).2.symm
      · next hparse => exact absurd ⟨contents, hcontents, hparse⟩ hfile
  -- each check that fails returns the disk it found; the last branch succeeds
  unfold saveUnlocked at h ⊢
  split
  · rfl
  next hvalid =>
  rw [if_neg hvalid] at h
  split
  · rfl
  next hdirectory =>
  rw [if_neg hdirectory] at h
  split
  · rfl
  next file before hbefore =>
  obtain rfl := hpreserved file before hbefore
  rw [hbefore] at h
  dsimp only at h
  split
  · rfl
  next data hdata =>
  rw [hdata] at h
  dsimp only at h
  split
  · rfl
  next htemporary =>
  rw [if_neg htemporary] at h
  split
  · rfl
  next hwrite =>
  rw [if_neg hwrite] at h
  exact absurd rfl h

/-- **A save that is refused changes nothing**, where the file is a key file and the changes of
the credentials could be taken back. -/
theorem saveWithSecretsUnlocked_refused (hfile : ¬ disk.config.Damaged E)
    (hrestores : service.Restores)
    (h : (E.saveWithSecretsUnlocked io service settings disk secrets).error ≠ none) :
    (E.saveWithSecretsUnlocked io service settings disk secrets).disk = disk ∧
      (E.saveWithSecretsUnlocked io service settings disk secrets).secrets = secrets := by
  unfold SettingsEnv.saveWithSecretsUnlocked at h ⊢
  split at h
  · next hvalid =>
    rw [if_pos hvalid]
    exact ⟨rfl, rfl⟩
  next hvalid =>
  rw [if_neg hvalid]
  split at h
  · next failed after hfiled => exact ⟨rfl, fileSecrets_refused hrestores hfiled⟩
  next made after hfiled =>
  dsimp only at h ⊢
  split at h
  · exact absurd rfl h
  next hsaved =>
  exact ⟨SettingsEnv.saveUnlocked_refused hfile (by rw [hsaved]; exact nofun),
    (fileSecrets_ok hfiled).undo (undoChanges_done hrestores _ _)⟩

/-- **What a slot holds after the changes**: what it held, or a token of the settings. -/
theorem SecretsFiled.held (h : SecretsFiled service secrets persisted settings made after)
    {slot : SecretSlot} {token : Bytes} (htoken : after slot = some token) :
    secrets slot = some token ∨ ∃ use ∈ credentialUses persisted settings,
      use.Stores secrets ∧ slot = (use.kind, use.provider) ∧ use.token = token := by
  obtain ⟨⟨pending, hplan, rfl, -⟩, hok, rfl⟩ := h
  by_cases hslot : slot ∈ (secretChanges service secrets pending).map Change.slot
  · right
    obtain ⟨change, hchange, rfl⟩ := List.mem_map.mp hslot
    rw [applyChanges_value (changed_slots_nodup hplan) hok hchange] at htoken
    obtain ⟨secret, hsecret, rfl⟩ := List.mem_map.mp hchange
    have hmem := (List.mem_filter.mp hsecret).1
    rw [planSecrets_ok hplan, mem_plan] at hmem
    rcases hmem with ⟨use, huse, hstores, rfl⟩ | ⟨hnone, -⟩
    · exact ⟨use, huse, hstores, rfl, Option.some.inj htoken⟩
    · exact absurd (hnone.symm.trans htoken) nofun
  · left
    rw [← htoken]
    refine (applyChanges_frame ?_).symm
    intro change hchange hsame
    exact hslot (hsame ▸ List.mem_map_of_mem (applyChanges_attempted hchange))

/-- No credential that a save files takes the place of another one. -/
def KeepsCredentials (secrets : SecretSlots) (uses : List CredentialUse) : Prop :=
  ∀ use ∈ uses, use.Stores secrets → ∀ token, secrets (use.kind, use.provider) = some token →
    token = use.token

/-- **When a save replaces a credential by another one.** -/
theorem saveWithSecretsUnlocked_keeps_iff
    (h : (E.saveWithSecretsUnlocked io service settings disk secrets).error = none) :
    (∀ slot token token', secrets slot = some token →
      (E.saveWithSecretsUnlocked io service settings disk secrets).secrets slot = some token' →
      token' = token) ↔
      KeepsCredentials secrets (credentialUses (E.load disk.config).1 settings) := by
  obtain ⟨hvalid, made, hfiled⟩ := saveWithSecretsUnlocked_ok h
  constructor
  · intro hkept use huse hstores token htoken
    obtain ⟨henabled, hcleared, hsome, hother⟩ := hstores
    have hstored := (hfiled.settled huse (credentialUses_provider_ne_nil hvalid huse)).stored
      henabled hcleared hsome hother
    exact (hkept _ _ _ htoken hstored).symm
  · intro hkeeps slot token token' htoken htoken'
    rcases hfiled.held htoken' with hsame | ⟨use, huse, hstores, rfl, rfl⟩
    · exact Option.some.inj (hsame.symm.trans htoken)
    · exact (hkeeps use huse hstores token htoken).symm

/-! ## A token of another provider -/

/-- The AI service was saved as off, with another provider selected. -/
def formerProvider : Disk := { config := .regular (ascii "[ai]\nprovider=openai\n") }

/-- Its credential is still there. -/
def formerSecrets : SecretSlots := fun slot =>
  if slot = (.aiApiToken, ascii "openai") then some (ascii "sk-1") else none

/-- The service is turned on for a provider, with the same token. -/
def formerSettings : InputSettings :=
  { online := { ai := { enabled := true, token := ascii "sk-1" } } }

/-- A token that equals the one filed under the provider that is on disk is stored
all the same, where that provider was not in use: nothing can have loaded it. -/
theorem formerToken_stored :
    let result := plainEnv.saveWithSecrets {} {} formerSettings formerProvider formerSecrets
    (plainEnv.load formerProvider.config).1.online.ai.provider = .openAI ∧
      formerSecrets (.aiApiToken, AiProvider.openAI.name) = some formerSettings.online.ai.token ∧
      result.error = none ∧
      formerSecrets (.aiApiToken, formerSettings.online.ai.provider.name) = none ∧
      result.secrets (.aiApiToken, formerSettings.online.ai.provider.name) =
        some (ascii "sk-1") := by
  decide +kernel

end MsimeLinux
