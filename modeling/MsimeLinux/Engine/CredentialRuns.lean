import MsimeLinux.Engine.CredentialDelivery
import MsimeLinux.Lib.Run

/-!
# Forgotten and replaced credentials

The engine learns of a save by a change of the bytes of `config.ini`, and a reload
keeps the token it has if the provider is the same. Neither says anything about the
secret store: a credential that is forgotten or replaced there stays in use.

The history of a run records the store as it was when a credential was found in it.

- `runningTokens_current`: the engine uses no credential that was forgotten or replaced, in
  every run in which a save that changes one, and leaves its service on, also selects another
  provider, before the event of that save (`Notices`);
- `forgottenToken_used`: a run in which it does.
-/

namespace MsimeLinux

open Lib

/-! ## Where the credentials are from -/

/-- The secret store as it was when the credential of a service was found in it. -/
structure CredentialOrigin where
  ai : Option SecretSlots := none
  translation : Option SecretSlots := none

/-- The engine, and the history of its credentials: of those in use, and of what the lookup of
the running generation has found. -/
structure CredentialFollower where
  engine : CredentialEngine
  inUse : CredentialOrigin := {}
  underWay : CredentialOrigin := {}

/-- The store, if a lookup has found a credential in it. -/
def SecretSlots.origin (secrets : SecretSlots) (result : SecretLookup) : Option SecretSlots :=
  if result.tokenOr [] = [] then none else some secrets

/-- A reload drops the credentials of a provider that is no more selected. -/
def CredentialOrigin.carried (origin : CredentialOrigin) (live online : OnlineSettings) :
    CredentialOrigin where
  ai := if online.ai.provider == live.ai.provider then origin.ai else none
  translation := if online.translationProvider == live.translationProvider then
    origin.translation else none

namespace CredentialFollower

/-- What a read of the start finds. Both credentials are in use from the last one on. -/
def startOn (E : SettingsEnv) (f : CredentialFollower) (answered : Bool) : CredentialFollower :=
  match f.engine.stage with
  | .askingAi config =>
    { f with underWay.ai := f.engine.secrets.origin (f.engine.askAi E config answered) }
  | .askingTranslation config _ =>
    { f with
      inUse.ai := f.underWay.ai
      inUse.translation := f.engine.secrets.origin (f.engine.askTranslation E config answered)
      underWay := {} }
  | .hydrating | .remembering | .watching | .running => f

/-- An event of the file: a reload keeps what it carries over, and starts over otherwise. -/
def fileChanged (E : SettingsEnv) (f : CredentialFollower) : CredentialFollower :=
  if f.engine.ignores E then f
  else
    { f with
      inUse := f.inUse.carried f.engine.online (E.load f.engine.disk.config).1.online
      underWay := {} }

/-- What a lookup of the running generation finds. -/
def lookUp (f : CredentialFollower) (n : Nat) (answered : Bool) : CredentialFollower :=
  match f.engine.lookups[n]? with
  | none => f
  | some delivery =>
    if delivery.generation ≠ f.engine.generation then f
    else if delivery.aiRequested && delivery.aiResult.isNone then
      let result := f.engine.secrets.lookup answered .aiApiToken delivery.aiProvider.name
      { f with underWay.ai := f.engine.secrets.origin result }
    else if delivery.translationRequested && delivery.translationResult.isNone then
      let result := f.engine.secrets.lookup answered .translationApiToken
        TranslationProvider.deepLX.name
      { f with underWay.translation := f.engine.secrets.origin result }
    else f

/-- Its answer is installed. -/
def deliver (f : CredentialFollower) (n : Nat) : CredentialFollower :=
  match f.engine.lookups[n]? with
  | none => f
  | some delivery =>
    if !CredentialEngine.ready delivery || delivery.generation ≠ f.engine.generation then f
    else
      { f with
        inUse.ai := if delivery.aiRequested && f.engine.online.ai.enabled then f.underWay.ai
          else f.inUse.ai
        inUse.translation :=
          if delivery.translationRequested && f.engine.online.usesTranslation then
            f.underWay.translation
          else f.inUse.translation }

/-- What a step adds to the history. -/
def remember (E : SettingsEnv) (f : CredentialFollower) : EngineLabel → CredentialFollower
  | .started answered => f.startOn E answered
  | .fileChanged _ => if f.engine.running then f.fileChanged E else f
  | .lookedUp n answered => if f.engine.running then f.lookUp n answered else f
  | .delivered n => if f.engine.running then f.deliver n else f
  | .saved _ _ | .edited _ | .typed _ | .rebuilt => f

/-- One step, with the history. -/
def step (E : SettingsEnv) (f : CredentialFollower) (label : EngineLabel) : CredentialFollower :=
  { f.remember E label with engine := engineStep E f.engine label }

end CredentialFollower

/-! ## What the saves may do -/

/-- The store holds what it held when the credential was found: no save has replaced it. -/
def Unreplaced (secrets : SecretSlots) (slot : SecretSlot) : Option SecretSlots → Prop
  | none => True
  | some store => secrets slot = store slot

instance (secrets : SecretSlots) (slot : SecretSlot) (origin : Option SecretSlots) :
    Decidable (Unreplaced secrets slot origin) := by
  unfold Unreplaced
  split <;> infer_instance

/-- So it is for the services that are on. -/
def CredentialOrigin.Unreplaced (secrets : SecretSlots) (online : OnlineSettings)
    (origin : CredentialOrigin) : Prop :=
  (online.ai.enabled = true →
    MsimeLinux.Unreplaced secrets online.ai.provider.slot origin.ai) ∧
  (online.usesTranslation = true →
    MsimeLinux.Unreplaced secrets translationSlot origin.translation)

instance (secrets : SecretSlots) (online : OnlineSettings) (origin : CredentialOrigin) :
    Decidable (origin.Unreplaced secrets online) := inferInstanceAs (Decidable (_ ∧ _))

/-- No save has replaced a credential that the engine goes on using after an event of the file:
if the engine does not adopt the file, none of a service that is on, if it does, none of a
service that is on there with the provider that was selected. -/
def CredentialFollower.Keeps (E : SettingsEnv) (f : CredentialFollower) : Prop :=
  if f.engine.ignores E then f.inUse.Unreplaced f.engine.secrets f.engine.online
  else (f.inUse.carried f.engine.online (E.load f.engine.disk.config).1.online).Unreplaced
    f.engine.secrets (E.load f.engine.disk.config).1.online

/-- The condition on a step. An event of the file is handled by the running engine; when it
starts to watch the file, the saves made since it looked its credentials up raise none. -/
def Notices (E : SettingsEnv) (f : CredentialFollower) : EngineLabel → Prop
  | .fileChanged _ => f.engine.running = true → f.Keeps E ∧
      (f.engine.ignores E = true → f.underWay.Unreplaced f.engine.secrets f.engine.online)
  | .started _ =>
    match f.engine.stage with
    | .watching => f.inUse.Unreplaced f.engine.secrets f.engine.online
    | .hydrating | .askingAi _ | .askingTranslation _ _ | .remembering | .running => True
  | .saved _ _ | .edited _ | .lookedUp _ _ | .delivered _ | .typed _ | .rebuilt => True

instance (E : SettingsEnv) (f : CredentialFollower) : Decidable (f.Keeps E) := by
  unfold CredentialFollower.Keeps
  infer_instance

instance (E : SettingsEnv) (f : CredentialFollower) (label : EngineLabel) :
    Decidable (Notices E f label) := by
  unfold Notices
  split
  · infer_instance
  · split <;> infer_instance
  all_goals infer_instance

/-- The steps that meet it. -/
def NoticesStep (E : SettingsEnv) (f : CredentialFollower) (label : EngineLabel)
    (f' : CredentialFollower) : Prop :=
  Notices E f label ∧ f' = f.step E label

/-! ## The invariant -/

/-- The token is what the store held in the history. -/
def Held (slot : SecretSlot) (token : Bytes) : Option SecretSlots → Prop
  | none => token = []
  | some store => token ≠ [] ∧ store slot = some token

/-- The token of an answer. -/
def answeredToken : Option SecretLookup → Bytes
  | some result => result.tokenOr []
  | none => []

/-- The history tells where every credential is from, and while no event is to come no save
has replaced one. -/
structure CredentialFollower.Tracks (E : SettingsEnv) (f : CredentialFollower) : Prop where
  looked : f.engine.Looked E
  ai : Held f.engine.online.ai.provider.slot f.engine.online.ai.token f.inUse.ai
  translation : Held translationSlot f.engine.online.translationToken f.inUse.translation
  asked : ∀ config result, f.engine.stage = .askingTranslation config result →
    Held (E.load config).1.online.ai.provider.slot
      (if (E.load config).1.online.ai.enabled then result.tokenOr [] else []) f.underWay.ai
  asking : f.engine.stage = .remembering ∨ f.engine.stage = .watching → f.underWay = {}
  /-- a generation has one lookup -/
  one : (f.engine.lookups.map (·.generation)).Nodup
  lookups : ∀ d ∈ f.engine.lookups, d.generation = f.engine.generation →
    d.aiProvider = f.engine.online.ai.provider ∧
      Held d.aiProvider.slot (answeredToken d.aiResult) f.underWay.ai ∧
      Held translationSlot (answeredToken d.translationResult) f.underWay.translation
  starting : f.engine.running = false → f.engine.lookups = []
  unreplaced : f.engine.running = true → f.engine.changed = false →
    f.inUse.Unreplaced f.engine.secrets f.engine.online ∧
      f.underWay.Unreplaced f.engine.secrets f.engine.online

variable {E : SettingsEnv} {f f' : CredentialFollower}

/-! ### What the history says of a token -/

theorem held_lookup (secrets : SecretSlots) (answered : Bool) (kind : SecretKind)
    (provider : Bytes) :
    Held (kind, provider) ((secrets.lookup answered kind provider).tokenOr [])
      (secrets.origin (secrets.lookup answered kind provider)) := by
  unfold SecretSlots.origin
  split
  · next hempty => exact hempty
  · next hfound =>
    exact ⟨hfound, SecretSlots.lookup_found (SecretLookup.found_of_tokenOr hfound)⟩

theorem unreplaced_origin (secrets : SecretSlots) (slot : SecretSlot) (result : SecretLookup) :
    Unreplaced secrets slot (secrets.origin result) := by
  unfold SecretSlots.origin
  split
  · trivial
  · exact (rfl : secrets slot = secrets slot)

/-- A token is the store's, or empty, if and only if no save has replaced it. -/
theorem Held.current_iff {secrets : SecretSlots} {slot : SecretSlot} {token : Bytes}
    {origin : Option SecretSlots} (h : Held slot token origin) :
    (token = [] ∨ secrets slot = some token) ↔ Unreplaced secrets slot origin := by
  cases origin with
  | none => exact iff_of_true (.inl h) trivial
  | some store =>
    obtain ⟨hfound, hstore⟩ := h
    refine ⟨fun hcurrent => ?_, fun hsame => .inr (Eq.trans hsame hstore)⟩
    exact (hcurrent.resolve_left hfound).trans hstore.symm

/-- A reload carries the token over with its history. -/
theorem Held.carried {live : OnlineSettings} (online : OnlineSettings) {inUse : CredentialOrigin}
    (hai : Held live.ai.provider.slot live.ai.token inUse.ai)
    (htranslation : Held translationSlot live.translationToken inUse.translation) :
    Held online.ai.provider.slot (CredentialEngine.carryOver live online).ai.token
        (inUse.carried live online).ai ∧
      Held translationSlot (CredentialEngine.carryOver live online).translationToken
        (inUse.carried live online).translation := by
  refine ⟨?_, ?_⟩
  · show Held _ (if CredentialEngine.aiApplies live online = true then live.ai.token else [])
      (if online.ai.provider == live.ai.provider then inUse.ai else none)
    by_cases hprovider : online.ai.provider = live.ai.provider
    · rw [if_pos (beq_iff_eq.mpr hprovider), hprovider]
      by_cases hempty : live.ai.token = []
      · rwa [if_neg (by simp [CredentialEngine.aiApplies, hempty]), ← hempty]
      · rwa [if_pos (by simp [CredentialEngine.aiApplies, hempty, hprovider])]
    · rw [if_neg (by simp [CredentialEngine.aiApplies, hprovider]),
        if_neg (by simpa using hprovider)]
      rfl
  · show Held _ (if CredentialEngine.translationApplies live online = true then
      live.translationToken else [])
      (if online.translationProvider == live.translationProvider then inUse.translation else none)
    unfold CredentialEngine.translationApplies
    split
    · exact htranslation
    · rfl

namespace CredentialEngine

/-- The AI part of an answer, for the provider that is selected. -/
theorem installAi_eq {online : OnlineSettings} {d : CredentialDelivery}
    (hprovider : d.aiProvider = online.ai.provider) : ∃ available,
    installAi online d = { online with
      ai.token := if d.aiRequested && online.ai.enabled then answeredToken d.aiResult
        else online.ai.token
      aiCredentialAvailable := available } := by
  unfold installAi
  rw [hprovider, beq_self_eq_true, Bool.and_true]
  split
  · split
    · next token hresult => exact ⟨true, by rw [hresult]; rfl⟩
    · next hother =>
      refine ⟨false, ?_⟩
      have hempty : answeredToken d.aiResult = [] := by
        unfold answeredToken
        split
        · next result hresult =>
          cases result with
          | found token => exact absurd hresult (hother token)
          | notFound => rfl
          | unavailable => rfl
        · rfl
      rw [hempty]
  · exact ⟨online.aiCredentialAvailable, rfl⟩

/-- And the translation part. -/
theorem installTranslation_eq (online : OnlineSettings) (d : CredentialDelivery) : ∃ available,
    installTranslation online d = { online with
      translationToken := if d.translationRequested && online.usesTranslation then
        answeredToken d.translationResult else online.translationToken
      translationCredentialAvailable := available } := by
  unfold installTranslation
  split
  · split
    · next token hresult => exact ⟨true, by rw [hresult]; rfl⟩
    · next hresult => exact ⟨true, by rw [hresult]; rfl⟩
    · next hresult => exact ⟨false, by rw [hresult]; rfl⟩
    · next hresult => exact ⟨false, by rw [hresult]; rfl⟩
  · exact ⟨online.translationCredentialAvailable, rfl⟩

end CredentialEngine

namespace CredentialFollower

/-- **A read of the start.** What it finds is from the store as it is; before the engine
watches the file nobody may have replaced it. -/
theorem Tracks.startOn (h : f.Tracks E) (answered : Bool)
    (hnotices : Notices E f (.started answered)) : (f.step E (.started answered)).Tracks E := by
  have hlooked := h.looked.startOn answered
  -- while the engine starts, no lookup is under way
  have hidle : f.engine.running = false → ∀ d ∈ f.engine.lookups,
      d.generation = f.engine.generation → False := by
    intro hstarting d hd
    rw [h.starting hstarting] at hd
    exact absurd hd List.not_mem_nil
  revert hlooked
  show (f.engine.startOn E answered).Looked E →
    Tracks E { f.startOn E answered with engine := f.engine.startOn E answered }
  unfold CredentialFollower.startOn CredentialEngine.startOn
  cases hstage : f.engine.stage with
  | hydrating =>
    have hstarting : f.engine.running = false := by simp [CredentialEngine.running, hstage]
    exact fun hlooked => ⟨hlooked, h.ai, h.translation, (by simp), (by simp), h.one, h.lookups,
      fun _ => h.starting hstarting, (by simp [CredentialEngine.running])⟩
  | askingAi config =>
    -- the service is asked, and what it gives is held as the origin of the token
    have hstarting : f.engine.running = false := by simp [CredentialEngine.running, hstage]
    refine fun hlooked => ⟨hlooked, h.ai, h.translation, ?_, (by simp), h.one,
      fun d hd hcurrent => (hidle hstarting d hd hcurrent).elim, fun _ => h.starting hstarting,
      (by simp [CredentialEngine.running])⟩
    intro config' result hasking
    obtain ⟨rfl, rfl⟩ := StartStage.askingTranslation.inj hasking
    show Held _ _ (f.engine.secrets.origin (f.engine.askAi E config answered))
    unfold CredentialEngine.askAi
    split
    · exact held_lookup ..
    · rfl
  | askingTranslation config result =>
    -- the second answer, with which the tokens are put in place
    have hstarting : f.engine.running = false := by simp [CredentialEngine.running, hstage]
    obtain ⟨available, available', honline⟩ := loadWithSecrets_online E (fun kind _ =>
      CredentialEngine.startLookup result (f.engine.askTranslation E config answered) kind) config
    dsimp only
    rw [honline]
    refine fun hlooked => ⟨hlooked, h.asked config result hstage, ?_, (by simp), fun _ => rfl,
      h.one, fun d hd hcurrent => (hidle hstarting d hd hcurrent).elim,
      fun _ => h.starting hstarting, (by simp [CredentialEngine.running])⟩
    show Held translationSlot (if _ then (f.engine.askTranslation E config answered).tokenOr []
      else []) (f.engine.secrets.origin (f.engine.askTranslation E config answered))
    unfold CredentialEngine.askTranslation
    split
    · exact held_lookup ..
    · rfl
  | remembering =>
    have hstarting : f.engine.running = false := by simp [CredentialEngine.running, hstage]
    exact fun hlooked => ⟨hlooked, h.ai, h.translation, (by simp),
      fun _ => h.asking (.inl hstage), h.one, h.lookups, fun _ => h.starting hstarting,
      (by simp [CredentialEngine.running])⟩
  | watching =>
    -- the step after which events can come: the condition is about what came before
    have hstarting : f.engine.running = false := by simp [CredentialEngine.running, hstage]
    have hunreplaced : f.inUse.Unreplaced f.engine.secrets f.engine.online := by
      unfold Notices at hnotices
      rwa [hstage] at hnotices
    have hnothing : f.underWay.Unreplaced f.engine.secrets f.engine.online := by
      rw [h.asking (.inr hstage)]
      exact ⟨fun _ => trivial, fun _ => trivial⟩
    exact fun hlooked => ⟨hlooked, h.ai, h.translation, (by simp), (by simp), h.one, h.lookups,
      fun _ => h.starting hstarting, fun _ _ => ⟨hunreplaced, hnothing⟩⟩
  | running => exact fun _ => h

/-- In the running engine the start is over. -/
theorem Tracks.ofRunning (hrunning : f.engine.running = true) (looked : f.engine.Looked E)
    (ai : Held f.engine.online.ai.provider.slot f.engine.online.ai.token f.inUse.ai)
    (translation : Held translationSlot f.engine.online.translationToken f.inUse.translation)
    (one : (f.engine.lookups.map (·.generation)).Nodup)
    (lookups : ∀ d ∈ f.engine.lookups, d.generation = f.engine.generation →
      d.aiProvider = f.engine.online.ai.provider ∧
        Held d.aiProvider.slot (answeredToken d.aiResult) f.underWay.ai ∧
        Held translationSlot (answeredToken d.translationResult) f.underWay.translation)
    (unreplaced : f.engine.changed = false →
      f.inUse.Unreplaced f.engine.secrets f.engine.online ∧
        f.underWay.Unreplaced f.engine.secrets f.engine.online) : f.Tracks E where
  looked := looked
  ai := ai
  translation := translation
  asked config result hasking := by simp [CredentialEngine.running, hasking] at hrunning
  asking hasking := by
    rcases hasking with hasking | hasking <;> simp [CredentialEngine.running, hasking] at hrunning
  one := one
  lookups := lookups
  starting hstarting := by simp [hrunning] at hstarting
  unreplaced _ := unreplaced

/-- **An event of the file.** A reload carries over what no save may have replaced, and its
lookup has found nothing yet. -/
theorem Tracks.fileChanged (h : f.Tracks E) (started : Bool) (hrunning : f.engine.running = true)
    (hkeeps : f.Keeps E)
    (hignored : f.engine.ignores E = true →
      f.underWay.Unreplaced f.engine.secrets f.engine.online)
    (hlooked : (f.engine.settingsFileChanged E started).Looked E) :
    Tracks E { f.fileChanged E with engine := f.engine.settingsFileChanged E started } := by
  revert hlooked
  unfold Keeps at hkeeps
  unfold CredentialFollower.fileChanged CredentialEngine.settingsFileChanged
  split
  · next hignores =>
    -- the digest is that of an earlier event, and nothing is read
    rw [if_pos hignores] at hkeeps
    exact fun hlooked => ⟨hlooked, h.ai, h.translation, h.asked, h.asking, h.one, h.lookups,
      h.starting, fun _ _ => ⟨hkeeps, hignored hignores⟩⟩
  · next hadopts =>
    rw [if_neg hadopts] at hkeeps
    obtain ⟨available, more, service, hreload, hone, hmore, -⟩ :=
      CredentialEngine.reloadSettings_eq E
        { f.engine with changed := false, digest := E.fileDigest f.engine.disk.config } started
    rw [hreload]
    -- the tokens that are carried over keep their origins
    obtain ⟨hai, htranslation⟩ := Held.carried
      (E.load f.engine.disk.config).1.online h.ai h.translation
    refine fun hlooked => .ofRunning hrunning hlooked hai htranslation ?_ ?_ ?_
    · -- the lookups of earlier generations have smaller tickets
      show ((f.engine.lookups ++ more).map (·.generation)).Nodup
      rw [List.map_append]
      refine List.nodup_append.mpr ⟨h.one, ?_, ?_⟩
      · rcases more with _ | ⟨d, _ | ⟨d', more⟩⟩
        · exact List.nodup_nil
        · exact List.nodup_singleton _
        · exact absurd hone (by simp)
      · intro before hbefore after hafter
        obtain ⟨d, hd, rfl⟩ := List.mem_map.mp hbefore
        obtain ⟨d', hd', rfl⟩ := List.mem_map.mp hafter
        have hle := h.looked.older d hd
        have hnext := (hmore d' hd').1
        exact fun hsame => absurd (hsame.symm.trans_le hle) (by
          rw [hnext]
          exact Nat.not_succ_le_self _)
    · intro d hd hcurrent
      rcases List.mem_append.mp hd with hd | hd
      · have hle := h.looked.older d hd
        have hnext : d.generation = f.engine.generation + 1 := hcurrent
        omega
      · obtain ⟨-, hprovider, hai, htranslation⟩ := hmore d hd
        rw [hai, htranslation]
        exact ⟨hprovider, rfl, rfl⟩
    · exact fun _ => ⟨hkeeps, fun _ => trivial, fun _ => trivial⟩

/-- A lookup gets an answer. If it is of the running generation, no other is. -/
theorem Tracks.answered (h : f.Tracks E) {n : Nat} {d d' : CredentialDelivery}
    {underWay : CredentialOrigin} {answers : List (SecretSlot × Bytes)}
    (hrunning : f.engine.running = true) (hd : f.engine.lookups[n]? = some d)
    (hgeneration : d'.generation = d.generation)
    (holder : d.generation ≠ f.engine.generation → underWay = f.underWay)
    (hcurrent : d.generation = f.engine.generation →
      (d'.aiProvider = f.engine.online.ai.provider ∧
        Held d'.aiProvider.slot (answeredToken d'.aiResult) underWay.ai ∧
        Held translationSlot (answeredToken d'.translationResult) underWay.translation) ∧
      (f.engine.changed = false → underWay.Unreplaced f.engine.secrets f.engine.online))
    (hlooked : { f.engine with lookups := f.engine.lookups.set n d', answers }.Looked E) :
    Tracks E { f with
      engine := { f.engine with lookups := f.engine.lookups.set n d', answers }
      underWay } := by
  obtain ⟨hn, hget⟩ := List.getElem?_eq_some_iff.mp hd
  have hmap : (f.engine.lookups.set n d').map (·.generation) =
      f.engine.lookups.map (·.generation) := by
    rw [List.map_set, hgeneration, ← hget]
    exact (congrArg _ (List.getElem_map ..).symm).trans
      (List.set_getElem_self (by rwa [List.length_map]))
  -- the generations of the lookups are those they were, all different
  have hone : ((f.engine.lookups.set n d').map (·.generation)).Nodup := by
    rw [hmap]
    exact h.one
  refine .ofRunning hrunning hlooked h.ai h.translation hone ?_ ?_
  · intro e he hecurrent
    by_cases hgen : d.generation = f.engine.generation
    · -- a lookup of the running generation is the one answered
      have hsame : e = d' := List.inj_on_of_nodup_map hone he (List.mem_set hn d')
        (hecurrent.trans (hgeneration.trans hgen).symm)
      rw [hsame]
      exact (hcurrent hgen).1
    · rcases List.mem_or_eq_of_mem_set he with he | rfl
      · show _ ∧ Held _ _ underWay.ai ∧ Held _ _ underWay.translation
        rw [holder hgen]
        exact h.lookups e he hecurrent
      · exact absurd (hgeneration.symm.trans hecurrent) hgen
  · -- nothing was replaced since, neither what runs nor what is under way
    intro hchanged
    refine ⟨(h.unreplaced hrunning hchanged).1, ?_⟩
    by_cases hgen : d.generation = f.engine.generation
    · exact (hcurrent hgen).2 hchanged
    · show underWay.Unreplaced f.engine.secrets f.engine.online
      rw [holder hgen]
      exact (h.unreplaced hrunning hchanged).2

/-- **A lookup.** What it finds is from the store as it is. -/
theorem Tracks.lookUp (h : f.Tracks E) (n : Nat) (answered : Bool)
    (hrunning : f.engine.running = true) (hlooked : (f.engine.lookUp n answered).Looked E) :
    Tracks E { f.lookUp n answered with engine := f.engine.lookUp n answered } := by
  revert hlooked
  unfold CredentialFollower.lookUp CredentialEngine.lookUp
  cases hdelivery : f.engine.lookups[n]? with
  | none => exact fun _ => h
  | some delivery =>
  have hmem : delivery ∈ f.engine.lookups := List.mem_of_getElem? hdelivery
  dsimp only
  -- the AI token is asked for first, the translation's after it
  by_cases hai : (delivery.aiRequested && delivery.aiResult.isNone) = true
  · rw [if_pos hai, if_pos hai]
    intro hlooked
    by_cases hcurrent : delivery.generation = f.engine.generation
    · rw [if_neg (not_not.mpr hcurrent)]
      obtain ⟨hprovider, -, htranslation⟩ := h.lookups delivery hmem hcurrent
      exact h.answered hrunning hdelivery rfl (absurd hcurrent) (fun _ =>
        ⟨⟨hprovider, held_lookup .., htranslation⟩, fun hchanged =>
          ⟨fun _ => unreplaced_origin .., (h.unreplaced hrunning hchanged).2.2⟩⟩) hlooked
    · rw [if_pos hcurrent]
      exact h.answered hrunning hdelivery rfl (fun _ => rfl) (absurd · hcurrent) hlooked
  rw [if_neg hai, if_neg hai]
  by_cases htranslation :
      (delivery.translationRequested && delivery.translationResult.isNone) = true
  · rw [if_pos htranslation, if_pos htranslation]
    intro hlooked
    by_cases hcurrent : delivery.generation = f.engine.generation
    · rw [if_neg (not_not.mpr hcurrent)]
      obtain ⟨hprovider, hai, -⟩ := h.lookups delivery hmem hcurrent
      exact h.answered hrunning hdelivery rfl (absurd hcurrent) (fun _ =>
        ⟨⟨hprovider, hai, held_lookup ..⟩, fun hchanged =>
          ⟨(h.unreplaced hrunning hchanged).2.1, fun _ => unreplaced_origin ..⟩⟩) hlooked
    · rw [if_pos hcurrent]
      exact h.answered hrunning hdelivery rfl (fun _ => rfl) (absurd · hcurrent) hlooked
  · -- both are answered: nothing is left to ask
    rw [if_neg htranslation, if_neg htranslation, ite_self]
    exact fun _ => h

/-- **An answer comes back.** It is installed with its history. -/
theorem Tracks.deliver (h : f.Tracks E) (n : Nat) (hrunning : f.engine.running = true)
    (hlooked : (f.engine.deliverCredentials n).Looked E) :
    Tracks E { f.deliver n with engine := f.engine.deliverCredentials n } := by
  revert hlooked
  unfold CredentialFollower.deliver CredentialEngine.deliverCredentials
  cases hdelivery : f.engine.lookups[n]? with
  | none => exact fun _ => h
  | some d =>
  dsimp only
  by_cases hready : CredentialEngine.ready d = true
  -- not both answers are there yet
  swap
  · simp only [hready]
    exact fun _ => h
  have hone : ((f.engine.lookups.eraseIdx n).map (·.generation)).Nodup :=
    h.one.sublist ((List.eraseIdx_sublist ..).map _)
  have hlookups : ∀ e ∈ f.engine.lookups.eraseIdx n, e ∈ f.engine.lookups :=
    fun e he => List.mem_of_mem_eraseIdx he
  simp only [hready, Bool.not_true, Bool.false_eq_true, if_false, Bool.false_or, decide_eq_true_eq]
  by_cases hcurrent : d.generation = f.engine.generation
  · rw [if_neg (not_not.mpr hcurrent), if_neg (not_not.mpr hcurrent)]
    -- the generation is the same, so the lookup was for what is selected now
    obtain ⟨hprovider, hai, htranslation⟩ :=
      h.lookups d (List.mem_of_getElem? hdelivery) hcurrent
    obtain ⟨available, hinstallAi⟩ := CredentialEngine.installAi_eq hprovider
    obtain ⟨available', hinstall⟩ := CredentialEngine.installTranslation_eq
      (CredentialEngine.installAi f.engine.online d) d
    obtain ⟨service, hrefresh, -⟩ := CredentialEngine.refreshOnline_eq
      { f.engine with
        lookups := f.engine.lookups.eraseIdx n
        online := CredentialEngine.installTranslation
          (CredentialEngine.installAi f.engine.online d) d }
    rw [hrefresh, hinstall, hinstallAi]
    refine fun hlooked => .ofRunning hrunning hlooked ?_ ?_ hone
      (fun e he => h.lookups e (hlookups e he)) fun hchanged => ?_
    · show Held _ (if (d.aiRequested && f.engine.online.ai.enabled) = true then _ else _)
        (if (d.aiRequested && f.engine.online.ai.enabled) = true then _ else _)
      split
      · rwa [← hprovider]
      · exact h.ai
    · show Held _
        (if (d.translationRequested && f.engine.online.usesTranslation) = true then _ else _)
        (if (d.translationRequested && f.engine.online.usesTranslation) = true then _ else _)
      split
      · exact htranslation
      · exact h.translation
    · -- what was unreplaced under way is so in use
      obtain ⟨hinUse, hunderWay⟩ := h.unreplaced hrunning hchanged
      refine ⟨⟨fun henabled => ?_, fun huses => ?_⟩, hunderWay⟩
      · show Unreplaced f.engine.secrets f.engine.online.ai.provider.slot
          (if (d.aiRequested && f.engine.online.ai.enabled) = true then _ else _)
        split
        · exact hunderWay.1 henabled
        · exact hinUse.1 henabled
      · show Unreplaced f.engine.secrets translationSlot
          (if (d.translationRequested && f.engine.online.usesTranslation) = true then _ else _)
        split
        · exact hunderWay.2 huses
        · exact hinUse.2 huses
  · -- an answer to an older lookup is dropped
    rw [if_pos hcurrent, if_pos hcurrent]
    exact fun hlooked => .ofRunning hrunning hlooked h.ai h.translation hone
      (fun e he => h.lookups e (hlookups e he)) (h.unreplaced hrunning)

/-- **One step that meets the condition keeps the invariant.** -/
theorem Tracks.step (h : f.Tracks E) {label : EngineLabel} (hstep : NoticesStep E f label f') :
    f'.Tracks E := by
  obtain ⟨hnotices, rfl⟩ := hstep
  have hlooked := h.looked.step label
  -- after a save there is an event to come, if the engine runs
  have hraised : ∀ changed, (changed || f.engine.running) = false →
      f.engine.running = true → False := by
    intro changed hchanged hrunning
    simp [hrunning] at hchanged
  by_cases hrunning : f.engine.running = true
  · revert hlooked
    cases label with
    | started answered => exact fun _ => h.startOn answered hnotices
    | saved call io | edited disk =>
      exact fun hlooked => ⟨hlooked, h.ai, h.translation, h.asked, h.asking, h.one, h.lookups,
        h.starting, fun hrunning hchanged => (hraised _ hchanged hrunning).elim⟩
    | fileChanged started =>
      simp only [CredentialFollower.step, remember, engineStep, CredentialEngine.whenRunning,
        if_pos hrunning]
      exact h.fileChanged started hrunning (hnotices hrunning).1 (hnotices hrunning).2
    | lookedUp n answered =>
      simp only [CredentialFollower.step, remember, engineStep, CredentialEngine.whenRunning,
        if_pos hrunning]
      exact h.lookUp n answered hrunning
    | delivered n =>
      simp only [CredentialFollower.step, remember, engineStep, CredentialEngine.whenRunning,
        if_pos hrunning]
      exact h.deliver n hrunning
    | typed query =>
      simp only [CredentialFollower.step, remember, engineStep, CredentialEngine.whenRunning,
        if_pos hrunning]
      obtain ⟨service, hrefresh, -⟩ := CredentialEngine.refreshOnline_eq { f.engine with query }
      rw [hrefresh]
      exact fun hlooked => .ofRunning hrunning hlooked h.ai h.translation h.one h.lookups
        (h.unreplaced hrunning)
    | rebuilt =>
      simp only [CredentialFollower.step, remember, engineStep, CredentialEngine.whenRunning,
        if_pos hrunning]
      exact fun hlooked => .ofRunning hrunning hlooked h.ai h.translation h.one h.lookups
        (h.unreplaced hrunning)
  · cases label with
    | started answered => exact h.startOn answered hnotices
    | saved call io | edited disk =>
      exact ⟨hlooked, h.ai, h.translation, h.asked, h.asking, h.one, h.lookups, h.starting,
        fun hrunning hchanged => (hraised _ hchanged hrunning).elim⟩
    | fileChanged _ | lookedUp _ _ | delivered _ | typed _ | rebuilt =>
      -- the main loop does not run yet
      simp only [CredentialFollower.step, remember, engineStep, CredentialEngine.whenRunning,
        if_neg hrunning]
      exact h

end CredentialFollower

/-- The engine starts, and nothing is looked up yet. -/
def startFollower (E : SettingsEnv) (disk : Disk) (secrets : SecretSlots) : CredentialFollower :=
  { engine := startEngine E disk secrets }

theorem startFollower_tracks (E : SettingsEnv) (disk : Disk) (secrets : SecretSlots) :
    (startFollower E disk secrets).Tracks E where
  looked := startEngine_looked E disk secrets
  ai := (load_token E disk.config).1
  translation := (load_token E disk.config).2
  asked config result hasking := by
    simp only [startFollower, startEngine] at hasking
    split at hasking <;> cases hasking
  asking _ := rfl
  one := List.nodup_nil
  lookups d hd := absurd hd List.not_mem_nil
  starting _ := rfl
  unreplaced hrunning := by
    simp only [startFollower, startEngine, CredentialEngine.running] at hrunning
    split at hrunning
    · next hstage => split at hstage <;> cases hstage
    all_goals cases hrunning

/-- The tokens of the services that are on are in the store, or empty. -/
def OnlineSettings.Current (secrets : SecretSlots) (online : OnlineSettings) : Prop :=
  (online.ai.enabled = true →
    online.ai.token = [] ∨ secrets online.ai.provider.slot = some online.ai.token) ∧
  (online.usesTranslation = true →
    online.translationToken = [] ∨ secrets translationSlot = some online.translationToken)

instance (secrets : SecretSlots) (online : OnlineSettings) : Decidable (online.Current secrets) :=
  inferInstanceAs (Decidable (_ ∧ _))

/-- The tokens are current if and only if no save has replaced one. -/
theorem current_iff {secrets : SecretSlots} {online : OnlineSettings} {origin : CredentialOrigin}
    (hai : Held online.ai.provider.slot online.ai.token origin.ai)
    (htranslation : Held translationSlot online.translationToken origin.translation) :
    online.Current secrets ↔ origin.Unreplaced secrets online :=
  and_congr (imp_congr_right fun _ => hai.current_iff)
    (imp_congr_right fun _ => htranslation.current_iff)

/-- **The running tokens are the store's**, in every run in which no save has replaced a
credential that the engine goes on using after an event: once the events of all saves are
handled, the token of a service that is on is empty or the one that is filed for its provider,
and the online service works with no other. An event leaves the engine with current tokens if
and only if it meets the condition. -/
theorem runningTokens_current {disk : Disk} {secrets : SecretSlots} {labels : List EngineLabel}
    (hrun : Run (NoticesStep E) (startFollower E disk secrets) labels f)
    (hrunning : f.engine.running = true) :
    (f.engine.changed = false → f.engine.online.Current f.engine.secrets) ∧
    (∀ submission, f.engine.service = some submission →
      submission.ai = f.engine.online.ai) ∧
    ∀ started, (engineStep E f.engine (.fileChanged started)).online.Current f.engine.secrets ↔
      f.Keeps E := by
  have hf : f.Tracks E := by
    refine hrun.invariant ?_ (startFollower_tracks E disk secrets)
    intro f label f' hf hstep
    exact hf.step hstep
  refine ⟨fun hhandled => ?_, hf.looked.service, fun started => ?_⟩
  · exact (current_iff hf.ai hf.translation).mpr (hf.unreplaced hrunning hhandled).1
  · show ((f.engine.whenRunning (f.engine.settingsFileChanged E started)).online.Current _) ↔ _
    unfold CredentialEngine.whenRunning CredentialEngine.settingsFileChanged
      CredentialFollower.Keeps
    rw [if_pos hrunning]
    split
    · exact current_iff hf.ai hf.translation
    · obtain ⟨available, more, service, hreload, -⟩ := CredentialEngine.reloadSettings_eq E
        { f.engine with changed := false, digest := E.fileDigest f.engine.disk.config } started
      obtain ⟨hai, htranslation⟩ := Held.carried
        (E.load f.engine.disk.config).1.online hf.ai hf.translation
      rw [hreload]
      exact current_iff hai htranslation

/-! ## A credential that is forgotten -/

/-- A reload that carries the AI token over looks nothing up for AI. -/
theorem CredentialEngine.reloadSettings_carried {s : CredentialEngine} {started : Bool}
    (hai : aiApplies s.online (E.load s.disk.config).1.online = true)
    (htranslation : (E.load s.disk.config).1.online.usesTranslation = false) :
    s.reloadSettings E started =
      { s with
        online := carryOver s.online (E.load s.disk.config).1.online
        generation := s.generation + 1
        query := none
        service := none } := by
  have htoken : (carryOver s.online (E.load s.disk.config).1.online).ai.token =
      s.online.ai.token := if_pos hai
  have hheld : s.online.ai.token ≠ [] := by simpa using (Bool.and_eq_true_iff.mp hai).1
  have hneedsAi : needsAi (carryOver s.online (E.load s.disk.config).1.online) = false := by
    unfold needsAi
    rw [htoken]
    simp [hheld]
  have hneedsTranslation :
      needsTranslation (carryOver s.online (E.load s.disk.config).1.online) = false := by
    have huses : (carryOver s.online (E.load s.disk.config).1.online).usesTranslation = false :=
      htranslation
    unfold needsTranslation
    rw [huses]
    rfl
  unfold reloadSettings
  simp only [hneedsAi, hneedsTranslation]
  rfl

/-- The defect in general: a save that leaves the AI service on with the provider the
engine runs with, whatever it does to the credential, and its event, leave the engine
with the token it had. -/
theorem savedToken_carried {s : CredentialEngine} (hE : E.Lawful) (settings : InputSettings)
    (io : WriterIo) (started : Bool) (hrunning : s.running = true) (hlock : io.io.lock = true)
    (henabled : s.online.ai.enabled = true) (htoken : s.online.ai.token ≠ [])
    (hon : settings.online.ai.enabled = true)
    (hprovider : settings.online.ai.provider = s.online.ai.provider)
    (hlocal : settings.online.usesTranslation = false)
    (hsaved : (E.saveWithSecretsUnlocked io.io io.service settings s.disk s.secrets).error = none) :
    let t := engineRun E s [.saved (.saveWithSecrets settings) io, .fileChanged started]
    t.changed = false ∧ t.lookups = s.lookups ∧ t.online.ai.enabled = true ∧
      t.online.ai.provider = s.online.ai.provider ∧ t.online.ai.token = s.online.ai.token ∧
      t.secrets =
        (E.saveWithSecretsUnlocked io.io io.service settings s.disk s.secrets).secrets := by
  have hload := (saveWithSecretsUnlocked_saved hsaved).load_eq hE
  have hvalid := validInputSettings_iff.mpr (saveWithSecretsUnlocked_ok hsaved).1
  have hperform : (SaveCall.saveWithSecrets settings).perform E io s.disk s.secrets =
      E.saveWithSecretsUnlocked io.io io.service settings s.disk s.secrets :=
    SaveCall.perform_valid _ hvalid hlock fun _ _ h => (by cases h)
  -- from here on the save is what it returned, and is not evaluated
  generalize E.saveWithSecretsUnlocked io.io io.service settings s.disk s.secrets = result
    at hload hperform ⊢
  have hrun : engineRun E s [.saved (.saveWithSecrets settings) io, .fileChanged started] =
      { s with
        disk := result.disk
        secrets := result.secrets
        changed := s.changed || s.running }.settingsFileChanged E started := by
    rw [← hperform]
    exact if_pos hrunning
  rw [hrun]
  unfold CredentialEngine.settingsFileChanged
  split
  · -- the event is ignored: nothing changes
    exact ⟨rfl, rfl, henabled, rfl, rfl, rfl⟩
  · have honline : (E.load result.disk.config).1.online = settings.persisted.online := by
      rw [hload]
    -- the provider is the same and there is a token, so it is carried over
    have happlies : CredentialEngine.aiApplies s.online
        (E.load result.disk.config).1.online = true := by
      rw [honline]
      exact Bool.and_eq_true_iff.mpr ⟨by simpa using htoken, beq_iff_eq.mpr hprovider⟩
    rw [CredentialEngine.reloadSettings_carried happlies (by rw [honline]; exact hlocal)]
    refine ⟨rfl, rfl, ?_, ?_, if_pos happlies, rfl⟩
    · show (E.load result.disk.config).1.online.ai.enabled = true
      rw [honline]
      exact hon
    · show (E.load result.disk.config).1.online.ai.provider = _
      rw [honline]
      exact hprovider

/-- AI suggestions are on. -/
def aiFile : ConfigFile := .regular (ascii "[ai]\nenabled=true\n")

/-- Their provider has a credential. -/
def aiSecrets : SecretSlots := fun slot =>
  if slot = (.aiApiToken, ascii "deepseek") then some (ascii "sk-1") else none

/-- The same, with the request to forget it. -/
def forgetSettings : InputSettings :=
  { online := { ai := { enabled := true }, aiCredentialCleared := true } }

/-- The engine finds the credential while it starts. -/
def aiEngine : CredentialEngine :=
  engineRun plainEnv (startEngine plainEnv { config := aiFile } aiSecrets)
    (List.replicate 5 (.started true))

theorem aiEngine_online : aiEngine.running = true ∧ aiEngine.online.ai.enabled = true ∧
    aiEngine.online.ai.provider = .deepSeek ∧ aiEngine.online.ai.token = ascii "sk-1" ∧
    aiEngine.lookups = [] := by
  decide +kernel

theorem forgetSettings_saved :
    let result := plainEnv.saveWithSecretsUnlocked {} {} forgetSettings aiEngine.disk
      aiEngine.secrets
    result.error = none ∧ result.secrets AiProvider.deepSeek.slot = none := by
  decide +kernel

/-- **A forgotten credential stays in use.** The user forgets the credential of the AI
service, which stays on. The event of that save is handled and no lookup is under way;
the engine goes on with a token that is in no store any more. -/
theorem forgottenToken_used :
    let s := engineRun plainEnv aiEngine
      [.saved (.saveWithSecrets forgetSettings) {}, .fileChanged true]
    s.changed = false ∧ s.lookups = [] ∧ s.online.ai.enabled = true ∧
      s.online.ai.token = ascii "sk-1" ∧ s.secrets s.online.ai.provider.slot = none := by
  obtain ⟨hrunning, henabled, hprovider, htoken, hlookups⟩ := aiEngine_online
  obtain ⟨herror, hforgotten⟩ := forgetSettings_saved
  obtain ⟨hchanged, hlookups', henabled', hprovider', htoken', hsecrets⟩ :=
    savedToken_carried (s := aiEngine) plainEnv_lawful forgetSettings {} true hrunning
      rfl henabled
      (by rw [htoken]; decide) rfl hprovider.symm rfl herror
  exact ⟨hchanged, hlookups'.trans hlookups, henabled', htoken'.trans htoken,
    by rw [hsecrets, hprovider', hprovider]; exact hforgotten⟩

/-- The user selects another provider, and enters a credential for it. -/
def otherSettings : InputSettings :=
  { online := { ai := { enabled := true, provider := .openAI, token := ascii "sk-2" } } }

/-- The start, a save that selects another provider, and its event. -/
def otherProvider : List EngineLabel :=
  List.replicate 5 (.started true) ++
    [.saved (.saveWithSecrets otherSettings) {}, .fileChanged true, .lookedUp 0 true, .delivered 0]

theorem otherProvider_notices :
    let start := startFollower plainEnv { config := aiFile } aiSecrets
    let s := (otherProvider.foldl (CredentialFollower.step plainEnv) start).engine
    Guarded (CredentialFollower.step plainEnv) (Notices plainEnv) start otherProvider ∧
      s.running = true ∧ s.changed = false ∧ s.online.ai.token = ascii "sk-2" := by
  decide +kernel

/-- The engine drops the token of the provider it leaves, and finds the new one. -/
theorem runningTokens_current_otherProvider :
    let s := (otherProvider.foldl (CredentialFollower.step plainEnv)
      (startFollower plainEnv { config := aiFile } aiSecrets)).engine
    s.online.ai.token = ascii "sk-2" ∧ s.online.Current s.secrets := by
  obtain ⟨hguarded, hrunning, hhandled, htoken⟩ := otherProvider_notices
  exact ⟨htoken, (runningTokens_current hguarded.run hrunning).1 hhandled⟩

end MsimeLinux
