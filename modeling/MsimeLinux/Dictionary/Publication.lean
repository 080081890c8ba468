import MsimeLinux.Dictionary.Marker
import MsimeLinux.Input.Session
import MsimeLinux.Lib.Throwing

/-!
# Publishing a restored dictionary (`IBusEngine.cpp`, `NativeInstallation.cpp`)

The engine switches to a dictionary that was restored: under the exclusive lease it
compares what is there with what was reviewed, opens every context on the new paths, and
replaces the marker. Every call on the way can fail. No other process changes the marker
meanwhile: whoever does needs the exclusive lease, and the engine holds its own.

- `recover_outcome`, `exclusively_outcome`: the ways back.
- `publication_atomic`: all or nothing.
-/

namespace MsimeLinux

open Lib

namespace Publication

open NativeInstallation

/-- What `decode` returns, where it does not throw. -/
def decodeMarker (value : Bytes) : Option (Bytes × Bytes) := (decode value).toOption

/-- A marker names what it was written for. -/
theorem decodeMarker_markerText {name content : Bytes} (hname : identifier name = true)
    (hcontent : identifier content = true) :
    decodeMarker (markerText name content) = some (name, content) := by
  rw [decodeMarker, decode_markerText hname hcontent]
  rfl

/-! ## The engine -/

/-- An engine context: its paths, and what its controller and its translation service
were opened on. -/
structure EngineContext where
  paths : RuntimePaths
  controller : Option RuntimePaths
  translation : Option RuntimePaths
  composing : Bool
  deriving DecidableEq

/-- Opened on these paths. -/
def EngineContext.opened (p : RuntimePaths) : EngineContext := ⟨p, some p, some p, false⟩

/-- Both are deleted. -/
def EngineContext.closed (c : EngineContext) : EngineContext :=
  { c with controller := none, translation := none }

/-- What a lock call answers. -/
inductive LockAnswer where
  | granted
  | busy
  | failed
  deriving DecidableEq

/-- What cannot be foreseen, by the time it happens. -/
structure PublicationEnv where
  fails : Nat → Bool
  lock : Nat → LockAnswer
  revision : Nat → RuntimePaths → Bytes
  synced : Nat → Bool

/-- The marker and the engine, with the locals of a publication. -/
structure DictionaryWorld where
  marker : Option Bytes
  contexts : List EngineContext
  paths : RuntimePaths
  legacyPaths : RuntimePaths
  legacy : Bool
  /-- `publishing_` of the lease, and whether the session lock is exclusive -/
  publishing : Bool := false
  exclusive : Bool := false
  quitting : Bool := false
  /-- `published` with `durable` -/
  published : Option Bool := none
  /-- under which lock which token and revision were compared -/
  compared : Option (Bool × Bytes × Bytes) := none
  time : Nat := 0

/-- An exception, or the end of the process. -/
inductive PublicationError where
  | thrown
  | exited
  deriving DecidableEq

/-- What `Publish` reports. -/
inductive PublicationStatus where
  | published
  | busy
  | conflict
  deriving DecidableEq

abbrev PublicationM := Throwing PublicationError DictionaryWorld

/-- The directories of a generation (NativeInstallation.cpp:118). -/
def generationPaths (legacyPaths : RuntimePaths) (name content : Bytes) : RuntimePaths :=
  let root := legacyPaths.userData ++ "/runtime"
  let text (value : Bytes) := String.ofList (value.map fun c => Char.ofNat c.toNat)
  { resources := root ++ "/resources/" ++ text content
    userData := root ++ "/generations/" ++ text name ++ "/user"
    cache := root ++ "/generations/" ++ text name ++ "/cache"
    dictionaries := root ++ "/generations/" ++ text name ++ "/user/dictionaries/" ++ text content }

section

variable (E : PublicationEnv)

/-- Time passes. -/
def tick : PublicationM Nat := do
  let w ← get
  modify fun w => { w with time := w.time + 1 }
  return w.time

/-- A call that may fail. -/
def mayThrow : PublicationM Unit := do
  let t ← tick
  if E.fails t then throw .thrown

/-! ## The installation -/

/-- `prepared_paths` (NativeInstallation.cpp:121). -/
def preparedPaths (name content : Bytes) : PublicationM RuntimePaths := do
  if !identifier name || !identifier content then throw .thrown
  mayThrow E
  let w ← get
  return generationPaths w.legacyPaths name content

/-- `active` (NativeInstallation.cpp:141): the paths, and the token. -/
def active : PublicationM (RuntimePaths × Bytes) := do
  mayThrow E
  let w ← get
  match w.marker with
  | none => return (w.legacyPaths, [])
  | some value =>
    match decodeMarker value with
    | none => throw .thrown
    | some (name, content) =>
      let paths ← preparedPaths E name content
      return (paths, value)

/-- The steps of `publish` before it replaces the marker (NativeInstallation.cpp:162): a
temporary file is opened, written and synced. -/
def writeTemporary : PublicationM Unit := do
  mayThrow E
  mayThrow E
  mayThrow E

/-- `NativeInstallation::publish` (NativeInstallation.cpp:150). -/
def publishMarker (name content expected : Bytes) : PublicationM (Option Bool) := do
  let _ ← preparedPaths E name content
  mayThrow E
  let w ← get
  if w.marker.any fun value => (decodeMarker value).isNone then throw .thrown
  if w.marker.getD [] ≠ expected then return none
  writeTemporary E
  -- `renameat`
  mayThrow E
  modify fun w => { w with marker := some (markerText name content) }
  let t ← tick
  return some (E.synced t)

/-! ## The lease -/

def lockCall : PublicationM LockAnswer := do
  let t ← tick
  return E.lock t

/-- `restore` in `exclusively` (DictionaryLease.cpp:89). -/
def restoreLease : PublicationM Unit := do
  mayThrow E
  modify fun w => { w with exclusive := false }
  mayThrow E
  modify fun w => { w with publishing := false }

/-- The conversion of the session lock, and what is done under it; whether it was. -/
def underLock (operation : PublicationM Unit) : PublicationM Bool := do
  mayThrow E
  match ← lockCall E with
  | .busy => do
    restoreLease E
    return false
  | .failed => throw .thrown
  | .granted => do
    modify fun w => { w with exclusive := true }
    operation
    return true

/-- `exclusively` (DictionaryLease.cpp:80). -/
def exclusively (operation : PublicationM Unit) : PublicationM Bool := do
  let w ← get
  if w.publishing then throw .thrown
  match ← lockCall E with
  | .busy => return false
  | .failed => throw .thrown
  | .granted => do
    modify fun w => { w with publishing := true }
    let done ← tryCatch (underLock E operation) fun error => do
      restoreLease E
      throw error
    if !done then return false
    restoreLease E
    return true

/-! ## The publication -/

/-- `build` (IBusEngine.cpp:1430): a controller and a translation service for every
context, or a controller to see that one can be opened. -/
def build : PublicationM Unit := do
  let w ← get
  if w.contexts.isEmpty then mayThrow E
  else
    w.contexts.forM fun _ => do
      mayThrow E
      mayThrow E

/-- `install` (IBusEngine.cpp:1440), of what was built last. -/
def install (paths : RuntimePaths) : PublicationM Unit :=
  modify fun w => { w with contexts := w.contexts.map fun _ => .opened paths }

/-- `recover` (IBusEngine.cpp:1460). -/
def recover : PublicationM Unit := do
  let w ← get
  tryCatch (do
    build E
    install w.paths) fun _ => throw .exited

/-- What is done under the lease (IBusEngine.cpp:1478). -/
def replaceDictionary (generation content token revision : Bytes) (target : RuntimePaths) :
    PublicationM Unit := do
  let (paths, value) ← active E
  if value ≠ token then return
  mayThrow E
  let t ← tick
  modify fun w => { w with compared := some (w.exclusive, value, E.revision t paths) }
  if E.revision t paths ≠ revision then return
  -- every context opens before the marker is changed
  build E
  match ← publishMarker E generation content token with
  | none => return
  | some durable => do
    modify fun w => { w with published := some durable }
    install target
    modify fun w => { w with paths := target, legacy := false }

/-- `revision.size() != 64` and so on (IBusEngine.cpp:1404). -/
def validRequest (token revision : Bytes) : Bool :=
  revision.length == 64 && token.length ≤ 512 &&
    revision.all fun c => (48 ≤ c && c ≤ 57) || (97 ≤ c && c ≤ 102)

/-- `publish_native_dictionary` (IBusEngine.cpp:1398). -/
def publishNativeDictionary (generation content token revision : Bytes) :
    PublicationM (PublicationStatus × Bool) := do
  modify fun w => { w with published := none, compared := none }
  if !validRequest token revision then throw .thrown
  let w ← get
  if w.contexts.any EngineContext.composing then return (.busy, false)
  mayThrow E
  let target ← preparedPaths E generation content
  -- `save_settings`
  w.contexts.forM fun _ => mayThrow E
  modify fun w => { w with contexts := w.contexts.map EngineContext.closed }
  let exclusive ← tryCatch (some <$> exclusively E
    (replaceDictionary E generation content token revision target)) fun _ => return none
  let w ← get
  match w.published, exclusive with
  | some durable, some _ => return (.published, durable)
  | some durable, none => do
    -- the marker was replaced, even if the lease could not be restored
    modify fun w => { w with quitting := true }
    return (.published, durable)
  | none, some exclusive => do
    recover E
    return (if exclusive then .conflict else .busy, false)
  | none, none => do
    recover E
    throw .thrown

end

/-! ## What stays -/

/-- Time has passed. -/
def Still (w w' : DictionaryWorld) : Prop := ∃ time, w' = { w with time := time }

/-- Locks have been taken or given back. -/
def Kept (w w' : DictionaryWorld) : Prop :=
  ∃ time publishing exclusive, w' = { w with
    time := time, publishing := publishing, exclusive := exclusive }

section

variable {E : PublicationEnv} {w w₁ w₂ w' : DictionaryWorld}

theorem Still.refl (w : DictionaryWorld) : Still w w := ⟨w.time, rfl⟩

theorem Still.trans (h : Still w w₁) (h' : Still w₁ w₂) : Still w w₂ := by
  obtain ⟨time, rfl⟩ := h
  obtain ⟨time', rfl⟩ := h'
  exact ⟨time', rfl⟩

theorem Still.kept (h : Still w w') : Kept w w' := by
  obtain ⟨time, rfl⟩ := h
  exact ⟨time, w.publishing, w.exclusive, rfl⟩

theorem Kept.refl (w : DictionaryWorld) : Kept w w := (Still.refl w).kept

theorem Kept.trans (h : Kept w w₁) (h' : Kept w₁ w₂) : Kept w w₂ := by
  obtain ⟨time, publishing, exclusive, rfl⟩ := h
  obtain ⟨time', publishing', exclusive', rfl⟩ := h'
  exact ⟨time', publishing', exclusive', rfl⟩

/-- A computation in which only time passes, and which does not end the process. -/
def Waits {α : Type} (m : PublicationM α) : Prop :=
  ∀ w, Outcome m w fun result w' => Still w w' ∧ result ≠ .error .exited

/-- What is thrown on is what was thrown. -/
theorem error_ne_exited {α β : Type} {e : PublicationError}
    (h : (.error e : Except PublicationError α) ≠ .error .exited) :
    (.error e : Except PublicationError β) ≠ .error .exited := by
  intro heq
  cases heq
  exact h rfl

theorem Waits.pure {α : Type} (a : α) : Waits (pure a : PublicationM α) :=
  fun w => Outcome.pure_iff.mpr ⟨.refl w, nofun⟩

theorem Waits.thrown {α : Type} : Waits (throw .thrown : PublicationM α) :=
  fun w => Outcome.throw_iff.mpr ⟨.refl w, nofun⟩

/-- Waits one after another. -/
theorem Waits.bind {α β : Type} {m : PublicationM α} {f : α → PublicationM β} (hm : Waits m)
    (hf : ∀ a, Waits (f a)) : Waits (m >>= f) := by
  intro w
  refine Outcome.call (hm w) (fun a w₁ h₁ => ?_) fun _ _ h₁ => ⟨h₁.1, error_ne_exited h₁.2⟩
  exact (hf a w₁).mono fun _ _ h₂ => ⟨h₁.1.trans h₂.1, h₂.2⟩

theorem tick_waits : Waits tick := by
  intro w
  unfold tick
  rw [Outcome.get_bind_iff, Outcome.modify_bind_iff]
  exact Outcome.pure_iff.mpr ⟨⟨_, rfl⟩, nofun⟩

theorem mayThrow_waits : Waits (mayThrow E) := by
  refine tick_waits.bind fun t w => ?_
  rw [Outcome.ite_iff]
  exact ⟨fun _ => Waits.thrown w, fun _ => Waits.pure () w⟩

/-- Directories are made, and that is all. -/
theorem preparedPaths_waits (name content : Bytes) : Waits (preparedPaths E name content) := by
  intro w
  unfold preparedPaths
  rw [Outcome.guard_iff]
  refine ⟨fun _ => ⟨.refl w, nofun⟩, fun _ => mayThrow_waits.bind (fun _ w₁ => ?_) w⟩
  rw [Outcome.get_bind_iff]
  exact Waits.pure _ w₁

/-- And what it returns. -/
theorem preparedPaths_outcome (name content : Bytes) (w : DictionaryWorld) :
    Outcome (preparedPaths E name content) w fun result _ => ∀ paths, result = .ok paths →
      identifier name = true ∧ identifier content = true ∧
        paths = generationPaths w.legacyPaths name content := by
  unfold preparedPaths
  rw [Outcome.guard_iff]
  refine ⟨fun _ _ h => (nomatch h), fun hnames => ?_⟩
  rw [Bool.or_eq_true, not_or, Bool.not_eq_true, Bool.not_eq_true, Bool.not_eq_false',
    Bool.not_eq_false'] at hnames
  refine Outcome.call (mayThrow_waits w) (fun _ w₁ h₁ => ?_) fun _ _ _ _ h => nomatch h
  obtain ⟨⟨time, rfl⟩, -⟩ := h₁
  rw [Outcome.get_bind_iff]
  refine Outcome.pure_iff.mpr fun paths h => ?_
  cases h
  exact ⟨hnames.1, hnames.2, rfl⟩

/-- The paths the marker stands for. -/
def activePaths (w : DictionaryWorld) : Option RuntimePaths :=
  match w.marker with
  | none => some w.legacyPaths
  | some value => (decodeMarker value).map fun names =>
      generationPaths w.legacyPaths names.1 names.2

/-- What the marker stands for is looked up. -/
theorem active_outcome (w : DictionaryWorld) :
    Outcome (active E) w fun result w' => (Still w w' ∧ result ≠ .error .exited) ∧
      ∀ paths value, result = .ok (paths, value) →
        activePaths w = some paths ∧ value = w.marker.getD [] := by
  unfold active
  refine Outcome.call (mayThrow_waits w) (fun _ w₁ h₁ => ?_) fun _ _ h₁ =>
    ⟨⟨h₁.1, error_ne_exited h₁.2⟩, fun _ _ h => nomatch h⟩
  have hstill := h₁.1
  have hsame : w₁.marker = w.marker ∧ w₁.legacyPaths = w.legacyPaths := by
    obtain ⟨time, rfl⟩ := hstill
    exact ⟨rfl, rfl⟩
  rw [Outcome.get_bind_iff, hsame.1]
  cases hmarker : w.marker with
  | none =>
    -- no marker: the directories of the installation
    refine Outcome.pure_iff.mpr ⟨⟨hstill, nofun⟩, fun paths value h => ?_⟩
    cases h
    rw [activePaths, hmarker, hsame.2]
    exact ⟨rfl, rfl⟩
  | some value =>
    dsimp only
    cases hdecode : decodeMarker value with
    | none => exact Outcome.throw_iff.mpr ⟨⟨hstill, nofun⟩, fun _ _ h => nomatch h⟩
    | some names =>
      -- the marker names a generation, whose files are checked
      obtain ⟨name, content⟩ := names
      refine Outcome.call ((preparedPaths_waits (E := E) name content _).and
        (preparedPaths_outcome name content _)) (fun paths w₂ h₂ => ?_) fun _ w₂ h₂ =>
          ⟨⟨hstill.trans h₂.1.1, error_ne_exited h₂.1.2⟩, fun _ _ h => nomatch h⟩
      obtain ⟨⟨hstill₂, -⟩, hpaths⟩ := h₂
      refine Outcome.pure_iff.mpr ⟨⟨hstill.trans hstill₂, nofun⟩, fun paths' value' h => ?_⟩
      cases h
      rw [activePaths, hmarker, (hpaths _ rfl).2.2, hsame.2]
      exact ⟨by simp [hdecode], rfl⟩

theorem Waits.forM {α : Type} {f : α → PublicationM PUnit} (hf : ∀ a, Waits (f a))
    (l : List α) : Waits (l.forM f) := by
  induction l with
  | nil => exact Waits.pure ()
  | cons a l ih =>
    show Waits (f a >>= fun _ => l.forM f)
    exact (hf a).bind fun _ => ih

/-- Opening contexts changes none of those there are. -/
theorem build_waits : Waits (build E) := by
  intro w
  unfold build
  rw [Outcome.get_bind_iff, Outcome.ite_iff]
  exact ⟨fun _ => mayThrow_waits w, fun _ =>
    Waits.forM (fun _ => mayThrow_waits.bind fun _ => mayThrow_waits) w.contexts w⟩

/-! ## The marker is replaced -/

/-- What `publishMarker` has done. -/
theorem publishMarker_outcome (name content expected : Bytes) (w : DictionaryWorld) :
    Outcome (publishMarker E name content expected) w fun result w' =>
      (Still w w' ∧ ∀ durable, result ≠ .ok (some durable)) ∧ result ≠ .error .exited ∨
      (∃ durable, result = .ok (some durable)) ∧ w.marker.getD [] = expected ∧
        Still { w with marker := some (markerText name content) } w' := by
  -- every failure leaves the marker, and none of them ends the process
  have hfailed : ∀ {α : Type} {w' : DictionaryWorld} {e : PublicationError}, Still w w' ∧
      (.error e : Except PublicationError α) ≠ .error .exited →
      (Still w w' ∧ ∀ durable, (.error e : Except PublicationError (Option Bool)) ≠
        .ok (some durable)) ∧
        (.error e : Except PublicationError (Option Bool)) ≠ .error .exited :=
    fun h => ⟨⟨h.1, fun _ => nofun⟩, error_ne_exited h.2⟩
  unfold publishMarker
  refine Outcome.call (preparedPaths_waits name content w) (fun _ w₁ h₁ => ?_) fun _ _ h₁ =>
    .inl (hfailed h₁)
  refine Outcome.call (mayThrow_waits w₁) (fun _ w₂ h₂ => ?_) fun _ _ h₂ =>
    .inl (hfailed ⟨h₁.1.trans h₂.1, h₂.2⟩)
  have hread := h₁.1.trans h₂.1
  rw [Outcome.get_bind_iff, Outcome.guard_iff]
  refine ⟨fun _ => .inl ⟨⟨hread, fun _ => nofun⟩, nofun⟩, fun _ => ?_⟩
  rw [Outcome.ite_iff]
  refine ⟨fun _ => Outcome.pure_iff.mpr (.inl ⟨⟨hread, fun _ => nofun⟩, nofun⟩),
    fun hexpected => ?_⟩
  have hwritten : Waits (writeTemporary E) :=
    mayThrow_waits.bind fun _ => mayThrow_waits.bind fun _ => mayThrow_waits
  refine Outcome.call (hwritten w₂) (fun _ w₃ h₃ => ?_) fun _ _ h₃ =>
    .inl (hfailed ⟨hread.trans h₃.1, h₃.2⟩)
  refine Outcome.call (mayThrow_waits w₃) (fun _ w₄ h₄ => ?_) fun _ _ h₄ =>
    .inl (hfailed ⟨(hread.trans h₃.1).trans h₄.1, h₄.2⟩)
  have hall := (hread.trans h₃.1).trans h₄.1
  rw [Outcome.modify_bind_iff]
  -- the rename comes after the marker was found to be the expected one
  have htoken : w.marker.getD [] = expected := by
    obtain ⟨time, rfl⟩ := hread
    exact not_not.mp hexpected
  obtain ⟨time, rfl⟩ := hall
  unfold tick
  rw [bind_assoc, Outcome.get_bind_iff, bind_assoc, Outcome.modify_bind_iff]
  exact .inr ⟨⟨_, rfl⟩, htoken, ⟨_, rfl⟩⟩

/-! ## Under the lease -/

theorem lockCall_waits : Waits (lockCall E) := tick_waits.bind fun _ => .pure _

/-- Giving locks back changes nothing else. -/
theorem restoreLease_outcome (w : DictionaryWorld) :
    Outcome (restoreLease E) w fun result w' => Kept w w' ∧ result ≠ .error .exited := by
  unfold restoreLease
  refine Outcome.call (mayThrow_waits w) (fun _ w₁ h₁ => ?_) fun _ _ h₁ => ⟨h₁.1.kept, h₁.2⟩
  rw [Outcome.modify_bind_iff]
  have hshared : Kept w { w₁ with exclusive := false } :=
    h₁.1.kept.trans ⟨_, _, false, rfl⟩
  refine Outcome.call (mayThrow_waits _) (fun _ w₂ h₂ => ?_) fun _ _ h₂ =>
    ⟨hshared.trans h₂.1.kept, h₂.2⟩
  exact Outcome.modify_iff.mpr ⟨(hshared.trans h₂.1.kept).trans ⟨_, false, _, rfl⟩, nofun⟩

/-- What is done under the lease is done while the lock is exclusive; the lock calls around
it change nothing else, and what they throw does not undo it. -/
theorem exclusively_outcome {operation : PublicationM Unit} {Q : DictionaryWorld → Prop}
    (hstart : Q w) (hkept : ∀ {w₁ w₂}, Q w₁ → Kept w₁ w₂ → Q w₂)
    (hoperation : ∀ w₁, Kept w w₁ → w₁.exclusive = true →
      Outcome operation w₁ fun result w₂ => Q w₂ ∧ result ≠ .error .exited) :
    Outcome (exclusively E operation) w fun result w' => Q w' ∧ result ≠ .error .exited := by
  have hrestored : ∀ w₁, Q w₁ →
      Outcome (restoreLease E) w₁ fun result w₂ => Q w₂ ∧ result ≠ .error .exited :=
    fun w₁ h₁ => (restoreLease_outcome w₁).mono fun _ _ h₂ => ⟨hkept h₁ h₂.1, h₂.2⟩
  -- the two locks, with the operation inside of both
  have hunder : ∀ w₁, Kept w w₁ →
      Outcome (underLock E operation) w₁ fun result w₂ => Q w₂ ∧ result ≠ .error .exited := by
    intro w₁ h₁
    unfold underLock
    refine Outcome.call (mayThrow_waits w₁) (fun _ w₂ h₂ => ?_) fun _ _ h₂ =>
      ⟨hkept hstart (h₁.trans h₂.1.kept), error_ne_exited h₂.2⟩
    refine Outcome.call (lockCall_waits w₂) (fun answer w₃ h₃ => ?_) fun _ _ h₃ =>
      ⟨hkept hstart (h₁.trans (h₂.1.trans h₃.1).kept), error_ne_exited h₃.2⟩
    have hlocked := h₁.trans (h₂.1.trans h₃.1).kept
    cases answer with
    | busy =>
      -- somebody else holds a lease: the shared lock is taken back
      refine Outcome.call (hrestored w₃ (hkept hstart hlocked)) (fun _ w₄ h₄ => ?_) fun _ _ h₄ =>
        ⟨h₄.1, error_ne_exited h₄.2⟩
      exact Outcome.pure_iff.mpr ⟨h₄.1, nofun⟩
    | failed => exact Outcome.throw_iff.mpr ⟨hkept hstart hlocked, nofun⟩
    | granted =>
      dsimp only
      rw [Outcome.modify_bind_iff]
      refine Outcome.call (hoperation _ (hlocked.trans ⟨_, _, true, rfl⟩) rfl)
        (fun _ w₄ h₄ => ?_) fun _ _ h₄ => ⟨h₄.1, error_ne_exited h₄.2⟩
      exact Outcome.pure_iff.mpr ⟨h₄.1, nofun⟩
  unfold exclusively
  rw [Outcome.get_bind_iff, Outcome.guard_iff]
  refine ⟨fun _ => ⟨hstart, nofun⟩, fun _ => ?_⟩
  refine Outcome.call (lockCall_waits w) (fun answer w₁ h₁ => ?_) fun _ _ h₁ =>
    ⟨hkept hstart h₁.1.kept, error_ne_exited h₁.2⟩
  cases answer with
  | busy => exact Outcome.pure_iff.mpr ⟨hkept hstart h₁.1.kept, nofun⟩
  | failed => exact Outcome.throw_iff.mpr ⟨hkept hstart h₁.1.kept, nofun⟩
  | granted =>
    dsimp only
    rw [Outcome.modify_bind_iff]
    -- the `catch` of the source restores the lease and throws on
    have htried : Outcome (tryCatch (underLock E operation) fun error => do
        restoreLease E
        throw error) { w₁ with publishing := true } fun result w₂ =>
          Q w₂ ∧ result ≠ .error .exited := by
      rw [Outcome.tryCatch_iff]
      refine (hunder _ (h₁.1.kept.trans ⟨_, true, _, rfl⟩)).mono fun result w₂ h₂ => ?_
      cases result with
      | ok done => exact ⟨h₂.1, nofun⟩
      | error e =>
        refine Outcome.call (hrestored w₂ h₂.1) (fun _ w₃ h₃ => ?_) fun _ _ h₃ =>
          ⟨h₃.1, error_ne_exited h₃.2⟩
        exact Outcome.throw_iff.mpr ⟨h₃.1, h₂.2⟩
    refine Outcome.call htried (fun done w₂ h₂ => ?_) fun _ _ h₂ => h₂
    rw [Outcome.ite_iff]
    refine ⟨fun _ => Outcome.pure_iff.mpr ⟨h₂.1, nofun⟩, fun _ => ?_⟩
    refine Outcome.call (hrestored w₂ h₂.1) (fun _ w₃ h₃ => ?_) fun _ _ h₃ =>
      ⟨h₃.1, error_ne_exited h₃.2⟩
    exact Outcome.pure_iff.mpr ⟨h₃.1, nofun⟩

/-- The installation has been looked at. -/
def Looked (w w' : DictionaryWorld) : Prop :=
  ∃ compared time publishing exclusive, w' = { w with
    compared := compared, time := time, publishing := publishing, exclusive := exclusive }

theorem Kept.looked (h : Kept w w') : Looked w w' := by
  obtain ⟨time, publishing, exclusive, rfl⟩ := h
  exact ⟨w.compared, time, publishing, exclusive, rfl⟩

theorem Looked.trans (h : Looked w w₁) (h' : Looked w₁ w₂) : Looked w w₂ := by
  obtain ⟨_, _, _, _, rfl⟩ := h
  obtain ⟨compared, time, publishing, exclusive, rfl⟩ := h'
  exact ⟨compared, time, publishing, exclusive, rfl⟩

/-- The engine has gone from `w` to the paths `target`, and what it compared before that
under the exclusive lock was what had been reviewed. -/
structure Switched (E : PublicationEnv) (generation content token revision : Bytes)
    (target : RuntimePaths) (w w' : DictionaryWorld) : Prop where
  replaced : w'.marker = some (markerText generation content)
  reopened : w'.contexts = w.contexts.map fun _ => .opened target
  adopted : w'.paths = target
  reported : w'.published.isSome
  checked : w'.compared = some (true, token, revision)
  expected : w.marker.getD [] = token
  reviewed : ∃ t paths, activePaths w = some paths ∧ E.revision t paths = revision

variable {generation content token revision : Bytes} {target : RuntimePaths}

/-- A switch is not undone by lock calls behind it. -/
theorem Switched.kept (h : Switched E generation content token revision target w w₁)
    (hkept : Kept w₁ w₂) : Switched E generation content token revision target w w₂ := by
  obtain ⟨time, publishing, exclusive, rfl⟩ := hkept
  exact ⟨h.replaced, h.reopened, h.adopted, h.reported, h.checked, h.expected, h.reviewed⟩

/-- Nor does it matter that there were some before. -/
theorem Switched.of_looked (hkept : Kept w w₁)
    (h : Switched E generation content token revision target w₁ w₂) :
    Switched E generation content token revision target w w₂ := by
  obtain ⟨time, publishing, exclusive, rfl⟩ := hkept
  exact ⟨h.replaced, h.reopened, h.adopted, h.reported, h.checked, h.expected, h.reviewed⟩

/-- Nothing is done before everything has been compared and opened; past the marker nothing
can fail. -/
theorem replaceDictionary_outcome (generation content token revision : Bytes)
    (target : RuntimePaths) (hexclusive : w.exclusive = true) :
    Outcome (replaceDictionary E generation content token revision target) w fun result w' =>
      (Looked w w' ∨ Switched E generation content token revision target w w') ∧
        result ≠ .error .exited := by
  unfold replaceDictionary
  refine Outcome.call (active_outcome w) (fun found w₁ h₁ => ?_) fun _ _ h₁ =>
    ⟨.inl h₁.1.1.kept.looked, error_ne_exited h₁.1.2⟩
  obtain ⟨paths, value⟩ := found
  obtain ⟨⟨hstill₁, -⟩, hfound⟩ := h₁
  obtain ⟨hpaths, hvalue⟩ := hfound paths value rfl
  dsimp only
  rw [Outcome.ite_iff]
  refine ⟨fun _ => Outcome.pure_iff.mpr ⟨.inl hstill₁.kept.looked, nofun⟩, fun htoken => ?_⟩
  have htoken := not_not.mp htoken
  refine Outcome.call (mayThrow_waits w₁) (fun _ w₂ h₂ => ?_) fun _ _ h₂ =>
    ⟨.inl (hstill₁.trans h₂.1).kept.looked, error_ne_exited h₂.2⟩
  refine Outcome.call (tick_waits w₂) (fun t w₃ h₃ => ?_) fun _ _ h₃ =>
    ⟨.inl (hstill₁.trans (h₂.1.trans h₃.1)).kept.looked, error_ne_exited h₃.2⟩
  have hstill₃ := hstill₁.trans (h₂.1.trans h₃.1)
  rw [Outcome.modify_bind_iff]
  have hlooked : Looked w
      { w₃ with compared := some (w₃.exclusive, value, E.revision t paths) } :=
    hstill₃.kept.looked.trans ⟨_, _, _, _, rfl⟩
  rw [Outcome.ite_iff]
  refine ⟨fun _ => Outcome.pure_iff.mpr ⟨.inl hlooked, nofun⟩, fun hrevision => ?_⟩
  have hrevision := not_not.mp hrevision
  refine Outcome.call (build_waits _) (fun _ w₄ h₄ => ?_) fun _ _ h₄ =>
    ⟨.inl (hlooked.trans h₄.1.kept.looked), error_ne_exited h₄.2⟩
  have hlooked₄ := hlooked.trans h₄.1.kept.looked
  refine Outcome.call (publishMarker_outcome generation content token w₄)
    (fun durable w₅ h₅ => ?_) fun e w₅ h₅ => ?_
  · cases durable with
    | none =>
      obtain ⟨⟨hstill₅, -⟩, -⟩ | ⟨⟨durable, heq⟩, -⟩ := h₅
      · exact Outcome.pure_iff.mpr ⟨.inl (hlooked₄.trans hstill₅.kept.looked), nofun⟩
      · cases heq
    | some durable =>
      obtain ⟨⟨-, hnot⟩, -⟩ | ⟨-, hexpected, hstill₅⟩ := h₅
      · exact absurd rfl (hnot durable)
      -- the rest only assigns
      dsimp only [install]
      rw [Outcome.modify_bind_iff, Outcome.modify_bind_iff, Outcome.modify_iff]
      obtain ⟨time₃, rfl⟩ := hstill₃
      obtain ⟨time₄, rfl⟩ := h₄.1
      obtain ⟨time₅, rfl⟩ := hstill₅
      refine ⟨.inr ⟨rfl, rfl, rfl, rfl, ?_, hexpected, t, paths, hpaths, hrevision⟩, nofun⟩
      show some (w.exclusive, value, E.revision t paths) = some (true, token, revision)
      rw [hexclusive, htoken, hrevision]
  · obtain ⟨⟨hstill₅, -⟩, hnot⟩ | ⟨⟨durable, heq⟩, -⟩ := h₅
    · exact ⟨.inl (hlooked₄.trans hstill₅.kept.looked), error_ne_exited hnot⟩
    · cases heq

/-- The old paths come back, or the process ends, for they cannot be opened. -/
theorem recover_outcome (w : DictionaryWorld) :
    Outcome (recover E) w fun result w' =>
      result = .ok () ∧ Still { w with contexts := w.contexts.map fun _ => .opened w.paths } w' ∨
      result = .error .exited ∧ Still w w' ∧ ∃ e, (build E).exec w = (.error e, w') := by
  have hbuild : Outcome (build E) w fun result w' => (build E).exec w = (result, w') := rfl
  unfold recover
  rw [Outcome.get_bind_iff, Outcome.tryCatch_iff]
  refine Outcome.call ((build_waits w).and hbuild) (fun _ w₁ h₁ => ?_) fun e _ h₁ =>
    Outcome.throw_iff.mpr (.inr ⟨rfl, h₁.1.1, e, h₁.2⟩)
  obtain ⟨⟨⟨time, rfl⟩, -⟩, -⟩ := h₁
  exact Outcome.modify_iff.mpr (.inl ⟨rfl, ⟨time, rfl⟩⟩)

/-! ## All or nothing -/

/-- The marker names the pair, and every context and the runtime are on its paths. -/
structure OnTarget (generation content : Bytes) (target : RuntimePaths)
    (w : DictionaryWorld) : Prop where
  named : w.marker.bind decodeMarker = some (generation, content)
  opened : ∀ c ∈ w.contexts, c = .opened target
  runtime : w.paths = target

/-- The installation is what it was, and so is the engine, or its contexts have been opened
again on the paths it has. -/
structure Untouched (w w' : DictionaryWorld) : Prop where
  sameMarker : w'.marker = w.marker
  samePaths : w'.paths = w.paths
  sameLegacy : w'.legacy = w.legacy
  reopened : w'.contexts = w.contexts ∨
    w'.contexts = w.contexts.map fun _ => .opened w.paths

/-- The process has ended, since the contexts that were closed could not be opened again on the
paths the engine has. -/
def ReopeningFailed (E : PublicationEnv) (w w' : DictionaryWorld) : Prop :=
  ∃ start e, start.contexts = w.contexts.map EngineContext.closed ∧ start.paths = w.paths ∧
    (build E).exec start = (.error e, w')

/-- It says that it has published. -/
def SaysPublished (result : Except PublicationError (PublicationStatus × Bool)) : Prop :=
  ∃ durable, result = .ok (.published, durable)

/-- What a publication does. -/
def AllOrNothing (E : PublicationEnv) (generation content token revision : Bytes)
    (w : DictionaryWorld) (result : Except PublicationError (PublicationStatus × Bool))
    (w' : DictionaryWorld) : Prop :=
  let target := generationPaths w.legacyPaths generation content
  SaysPublished result ∧ OnTarget generation content target w' ∧
      Switched E generation content token revision target w w' ∨
    ¬ SaysPublished result ∧ w'.marker = w.marker ∧
      (result = .error .exited ∧ ReopeningFailed E w w' ∨ Untouched w w')

/-- What a look leaves as it was. -/
theorem Looked.untouched {contexts : List EngineContext}
    (h : Looked { w with contexts := contexts, published := none, compared := none } w') :
    w'.marker = w.marker ∧ w'.paths = w.paths ∧ w'.legacy = w.legacy ∧
      w'.contexts = contexts ∧ w'.published = none := by
  obtain ⟨_, _, _, _, rfl⟩ := h
  exact ⟨rfl, rfl, rfl, rfl, rfl⟩

/-- Nothing has been done. -/
theorem AllOrNothing.of_still
    {result : Except PublicationError (PublicationStatus × Bool)}
    (h : Still { w with published := none, compared := none } w')
    (hresult : ¬ SaysPublished result) :
    AllOrNothing E generation content token revision w result w' := by
  obtain ⟨time, rfl⟩ := h
  exact .inr ⟨hresult, rfl, .inr ⟨rfl, rfl, rfl, .inl rfl⟩⟩

/-- What was closed is opened again, if it can be. -/
theorem recover_untouched
    (h : Looked { w with
      contexts := w.contexts.map EngineContext.closed
      published := none
      compared := none } w₁)
    {m : PublicationM (PublicationStatus × Bool)}
    (hm : ∀ w₂, Outcome m w₂ fun result w₃ => w₃ = w₂ ∧ ¬ SaysPublished result) :
    Outcome (recover E >>= fun _ => m) w₁
      (AllOrNothing E generation content token revision w) := by
  obtain ⟨hmarker, hpaths, hlegacy, hcontexts, -⟩ := h.untouched
  refine Outcome.call (recover_outcome w₁) (fun _ w₂ h₂ => ?_) fun e w₂ h₂ => ?_
  · obtain ⟨-, time, rfl⟩ | ⟨heq, -⟩ := h₂
    · refine (hm _).mono fun result w₃ h₃ => ?_
      obtain ⟨rfl, hresult⟩ := h₃
      refine .inr ⟨hresult, hmarker, .inr ⟨hmarker, hpaths, hlegacy, .inr ?_⟩⟩
      show w₁.contexts.map (fun _ => EngineContext.opened w₁.paths) = _
      rw [hcontexts, hpaths, List.map_const', List.map_const', List.length_map]
    · cases heq
  · obtain ⟨heq, -⟩ | ⟨heq, ⟨time, rfl⟩, failure, hfailure⟩ := h₂
    · cases heq
    · cases heq
      refine .inr ⟨fun hok => ?_, hmarker, .inl ⟨rfl, w₁, failure, hcontexts, hpaths, hfailure⟩⟩
      obtain ⟨_, hok⟩ := hok
      cases hok

/-- What a look changes, or a switch: what happens under the lease, the calls around it, and
the handler that tells a failure of the lease by `none`. -/
theorem leased_outcome (generation content token revision : Bytes) (target : RuntimePaths)
    (closed : DictionaryWorld) :
    Outcome (tryCatch (some <$> exclusively E
      (replaceDictionary E generation content token revision target)) fun _ => return none)
      closed fun result w' => (Looked closed w' ∨
        Switched E generation content token revision target closed w') ∧
        ∀ e, result ≠ .error e := by
  have hoperation : ∀ w₁, Kept closed w₁ → w₁.exclusive = true →
      Outcome (replaceDictionary E generation content token revision target) w₁ fun result w₂ =>
        (Looked closed w₂ ∨ Switched E generation content token revision target closed w₂) ∧
          result ≠ .error .exited := fun w₁ hkept hexclusive =>
    (replaceDictionary_outcome generation content token revision target hexclusive).mono
      fun _ _ h => ⟨h.1.imp (hkept.looked.trans ·) (.of_looked hkept), h.2⟩
  have hexclusively := exclusively_outcome (E := E) (Q := fun w' => Looked closed w' ∨
      Switched E generation content token revision target closed w') (.inl ⟨_, _, _, _, rfl⟩)
    (fun hQ hkept => hQ.imp (·.trans hkept.looked) (·.kept hkept)) hoperation
  rw [Outcome.tryCatch_iff, map_eq_pure_bind, Outcome.bind_iff]
  refine hexclusively.mono fun result w' hQ => ?_
  cases result with
  | ok exclusive => exact ⟨hQ.1, fun _ h => by cases h⟩
  | error e => exact ⟨hQ.1, fun _ h => by cases h⟩

/-- Past a switch the engine is on its target, and stays so whatever is put off to its end. -/
theorem Switched.allOrNothing {time : Nat} (hgeneration : identifier generation = true)
    (hcontent : identifier content = true) (htarget : target = generationPaths w.legacyPaths
      generation content)
    (h : Switched E generation content token revision target
      { w with
        contexts := w.contexts.map EngineContext.closed
        published := none
        compared := none
        time := time } w') (quitting : Bool) (durable : Bool) :
    AllOrNothing E generation content token revision w (.ok (.published, durable))
      { w' with quitting := quitting } := by
  have hreopened : w'.contexts = w.contexts.map fun _ => .opened target := by
    rw [h.reopened]
    exact List.map_map
  subst htarget
  refine .inl ⟨⟨durable, rfl⟩, ⟨?_, fun c hc => ?_, h.adopted⟩, h.replaced, hreopened, h.adopted,
    h.reported, h.checked, h.expected, h.reviewed⟩
  · show w'.marker.bind decodeMarker = _
    rw [h.replaced]
    exact decodeMarker_markerText hgeneration hcontent
  · rw [show ({ w' with quitting := quitting } : DictionaryWorld).contexts = w'.contexts from rfl,
      hreopened, List.mem_map] at hc
    obtain ⟨-, -, rfl⟩ := hc
    rfl

/-- **The publication**, up to the lease, under it and behind it. -/
theorem publishNativeDictionary_outcome (E : PublicationEnv) (w : DictionaryWorld)
    (generation content token revision : Bytes) :
    Outcome (publishNativeDictionary E generation content token revision) w
      (AllOrNothing E generation content token revision w) := by
  have hfailed : ∀ {α : Type} {e : PublicationError} {w' : DictionaryWorld},
      Still { w with published := none, compared := none } w' ∧
        (.error e : Except PublicationError α) ≠ .error .exited →
      AllOrNothing E generation content token revision w (.error e) w' :=
    fun h => .of_still h.1 fun ⟨_, h⟩ => nomatch h
  unfold publishNativeDictionary
  rw [Outcome.modify_bind_iff, Outcome.guard_iff]
  refine ⟨fun _ => .of_still (.refl _) fun ⟨_, h⟩ => (nomatch h), fun _ => ?_⟩
  rw [Outcome.get_bind_iff, Outcome.ite_iff]
  refine ⟨fun _ => Outcome.pure_iff.mpr (.of_still (.refl _) fun ⟨_, h⟩ => (nomatch h)),
    fun _ => ?_⟩
  refine Outcome.call (mayThrow_waits _) (fun _ w₁ h₁ => ?_) fun _ _ h₁ => hfailed h₁
  refine Outcome.call ((preparedPaths_waits generation content w₁).and
    (preparedPaths_outcome generation content w₁)) (fun target w₂ h₂ => ?_) fun _ _ h₂ =>
      hfailed ⟨h₁.1.trans h₂.1.1, h₂.1.2⟩
  obtain ⟨hgeneration, hcontent, htarget⟩ := h₂.2 target rfl
  have hlegacy : w₁.legacyPaths = w.legacyPaths := by
    obtain ⟨time, rfl⟩ := h₁.1
    rfl
  rw [hlegacy] at htarget
  have hstill₂ := h₁.1.trans h₂.1.1
  refine Outcome.call (Waits.forM (fun _ => mayThrow_waits) _ w₂) (fun _ w₃ h₃ => ?_)
    fun _ _ h₃ => hfailed ⟨hstill₂.trans h₃.1, h₃.2⟩
  have hstill₃ := hstill₂.trans h₃.1
  rw [Outcome.modify_bind_iff]
  -- every context is closed
  obtain ⟨time, rfl⟩ := hstill₃
  set closed : DictionaryWorld :=
    { w with
      contexts := w.contexts.map EngineContext.closed
      published := none
      compared := none
      time := time }
  refine Outcome.call (leased_outcome generation content token revision target closed)
    (fun exclusive w₄ h₄ => ?_) fun e _ h₄ => absurd rfl (h₄.2 e)
  rw [Outcome.get_bind_iff]
  obtain hlooked | hswitched := h₄.1
  · -- nothing was published
    have hlooked₄ : Looked
        { w with
          contexts := w.contexts.map EngineContext.closed
          published := none
          compared := none } w₄ :=
      Looked.trans ⟨none, time, w.publishing, w.exclusive, rfl⟩ hlooked
    rw [hlooked₄.untouched.2.2.2.2]
    cases exclusive with
    | some exclusive =>
      refine recover_untouched hlooked₄ fun w₅ =>
        Outcome.pure_iff.mpr ⟨rfl, fun ⟨_, h⟩ => ?_⟩
      cases exclusive <;> cases h
    | none =>
      exact recover_untouched hlooked₄ fun w₅ =>
        Outcome.throw_iff.mpr ⟨rfl, fun ⟨_, h⟩ => nomatch h⟩
  · obtain ⟨durable, hdurable⟩ := Option.isSome_iff_exists.mp hswitched.reported
    have hdone := hswitched.allOrNothing hgeneration hcontent htarget
    rw [hdurable]
    cases exclusive with
    | some exclusive => exact Outcome.pure_iff.mpr (hdone w₄.quitting durable)
    | none =>
      -- the engine quits, since the lease could not be restored
      dsimp only
      rw [Outcome.modify_bind_iff]
      exact Outcome.pure_iff.mpr (hdone true durable)

/-- **A publication is done entirely or not at all.** It says that it has published exactly
if the marker names what was asked for and the engine is on its paths (where the marker did
not name it before); then what had been reviewed was found under the exclusive lock.
Otherwise the marker is as it was, and so is the engine, or the process has ended because the
contexts could not be opened again on the old paths. -/
theorem publication_atomic (E : PublicationEnv) (w : DictionaryWorld)
    (generation content token revision : Bytes) :
    Outcome (publishNativeDictionary E generation content token revision) w fun result w' =>
      let target := generationPaths w.legacyPaths generation content
      (SaysPublished result → OnTarget generation content target w' ∧
        w'.compared = some (true, token, revision) ∧ w.marker.getD [] = token ∧
        ∃ t paths, activePaths w = some paths ∧ E.revision t paths = revision) ∧
      (¬ SaysPublished result → w'.marker = w.marker ∧
        (result = .error .exited ∧ ReopeningFailed E w w' ∨ Untouched w w')) ∧
      (w.marker.bind decodeMarker ≠ some (generation, content) →
        (SaysPublished result ↔ OnTarget generation content target w')) := by
  refine (publishNativeDictionary_outcome E w generation content token revision).mono
    fun result w' h => ?_
  obtain ⟨hholds, htarget, hswitched⟩ | ⟨hnot, hmarker, huntouched⟩ := h
  · exact ⟨fun _ => ⟨htarget, hswitched.checked, hswitched.expected, hswitched.reviewed⟩,
      fun hnot => absurd hholds hnot, fun _ => ⟨fun _ => htarget, fun _ => hholds⟩⟩
  · refine ⟨fun hholds => absurd hholds hnot, fun _ => ⟨hmarker, huntouched⟩, fun hother => ?_⟩
    refine ⟨fun hholds => absurd hholds hnot, fun htarget => absurd ?_ hother⟩
    rw [← hmarker]
    exact htarget.named

end

/-! ### A second request -/

/-- Nothing fails, and nobody else is there. -/
def quietEnv : PublicationEnv where
  fails _ := false
  lock _ := .granted
  revision _ _ := List.replicate 64 48
  synced _ := true

def legacyRuntimePaths : RuntimePaths := ⟨"/r", "/u", "/c", "/d"⟩

/-- The engine has switched to `g`, and has one context. -/
def switchedWorld : DictionaryWorld where
  marker := some (markerText (ascii "g") (ascii "c"))
  contexts := [.opened (generationPaths legacyRuntimePaths (ascii "g") (ascii "c"))]
  paths := generationPaths legacyRuntimePaths (ascii "g") (ascii "c")
  legacyPaths := legacyRuntimePaths
  legacy := false

/-- Who did not get the reply asks again, for what was reviewed before. -/
theorem published_again_conflict :
    ¬ ∀ (E : PublicationEnv) (w : DictionaryWorld) (generation content token revision : Bytes),
      Outcome (publishNativeDictionary E generation content token revision) w fun result w' =>
        (SaysPublished result ↔
          OnTarget generation content (generationPaths w.legacyPaths generation content) w') := by
  intro h
  have hrun := h quietEnv switchedWorld (ascii "g") (ascii "c") [] (List.replicate 64 48)
  have hconflict : (publishNativeDictionary quietEnv (ascii "g") (ascii "c") []
      (List.replicate 64 48)).exec switchedWorld =
      (.ok (.conflict, false), { switchedWorld with time := 12 }) := by
    rfl
  unfold Outcome at hrun
  rw [hconflict] at hrun
  have hnamed : decodeMarker (markerText (ascii "g") (ascii "c")) = some (ascii "g", ascii "c") :=
    decodeMarker_markerText (by decide) (by decide)
  have htarget : OnTarget (ascii "g") (ascii "c")
      (generationPaths legacyRuntimePaths (ascii "g") (ascii "c"))
      { switchedWorld with time := 12 } :=
    ⟨hnamed, fun c hc => List.mem_singleton.mp hc, rfl⟩
  obtain ⟨durable, hpublished⟩ := hrun.mpr htarget
  cases hpublished

end Publication

end MsimeLinux
