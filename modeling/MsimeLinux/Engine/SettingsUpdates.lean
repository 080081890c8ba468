import MsimeLinux.Engine.ControllerValues
import MsimeLinux.Engine.CredentialDelivery
import MsimeLinux.Lib.Run
import MsimeLinux.Lib.WriteBack
import MsimeLinux.Settings.RoundTrip

/-!
# The settings of the running engine (`IBusEngine.cpp`)

The engine keeps the settings as they were on disk when it last read them. What the user
turns with a key or on the panel goes to the controller first; `save_settings` takes it over
from there and leaves the file for half a second. The settings window is another process: the
engine learns of its saves from events of the file monitor, and knows its own by their digest.
It starts with the file as it read it first, and with the digest of the file as it is last.

To each field of the record the file and the engine are two copies of one value. A field is
any function of the record.

- `Sound`: the copies of a field and the file the engine knows, in every state.
- `lastWriter_kept`: what holds when nothing is pending any more.
- `window_save_reverted`: a save of the window that is lost.
-/

namespace MsimeLinux

open Lib CredentialEngine

/-! ## The engine -/

/-- The engine with the settings it retains. -/
structure SettingsEngine extends CredentialEngine where
  settings : InputSettings
  controller : ControllerValues
  /-- `adopt_engine_settings` (IBusEngine.cpp:1081) -/
  defaultMode : InputMode
  /-- `settings_save_source` -/
  pending : Bool := false

/-- What happens to the settings. -/
inductive SettingsLabel where
  /-- the settings window saves -/
  | saved (call : SaveCall) (io : WriterIo)
  /-- the next read of the start -/
  | started (answered : Bool)
  /-- the user turns something, with a key or on the panel -/
  | turned (turn : Turn)
  /-- `enable`: the input method is switched to (IBusEngine.cpp:819) -/
  | enabled
  /-- a dictionary is published (IBusEngine.cpp:1400) -/
  | published
  /-- the delay is over, or `flush_pending_settings` does not wait for it -/
  | flushed (io : WriteOutcome)
  /-- an event of the file monitor -/
  | fileChanged (started : Bool)

namespace SettingsEngine

/-- What only the main loop does. -/
def whenRunning (s next : SettingsEngine) : SettingsEngine :=
  if s.running then next else s

/-- The start. The record that is retained was read first; the controller is made of the one
that is read again, with credentials (IBusEngine.cpp:1342). -/
def startOn (E : SettingsEnv) (s : SettingsEngine) (answered : Bool) : SettingsEngine :=
  let core := engineStep E s.toCredentialEngine (.started answered)
  match s.stage with
  | .askingTranslation config _ =>
    let hydrated := (E.load config).1
    { s with
      toCredentialEngine := core
      controller := .create hydrated
      defaultMode := hydrated.defaultMode }
  | .hydrating | .askingAi _ | .remembering | .watching | .running =>
    { s with toCredentialEngine := core }

/-- `save_settings` (IBusEngine.cpp:488). -/
def saveSettings (s : SettingsEngine) : SettingsEngine :=
  { s with settings := s.settings.capture s.controller, pending := true }

/-- The user turns something (IBusEngine.cpp:733, 775 and 885). -/
def turn (s : SettingsEngine) (turn : Turn) : SettingsEngine :=
  let turned := s.controller.turn turn
  let s := { s with controller := turned.1 }
  if turned.2 then s.saveSettings else s

/-- `write_settings` (IBusEngine.cpp:436). -/
def writeSettings (E : SettingsEnv) (s : SettingsEngine) (io : WriteOutcome) : SettingsEngine :=
  let result := E.save io s.settings s.disk
  { s with
    disk := result.disk
    changed := true
    digest := result.digest.getD (E.fileDigest result.disk.config) }

/-- `flush_settings` and `flush_pending_settings` (IBusEngine.cpp:459). -/
def flush (E : SettingsEnv) (s : SettingsEngine) (io : WriteOutcome) : SettingsEngine :=
  if s.pending then { s with pending := false }.writeSettings E io else s

/-- `settings_file_changed` and `reload_settings` (IBusEngine.cpp:1193): what they do for the
credentials, and the record and the controller that are read anew. -/
def fileChanged (E : SettingsEnv) (s : SettingsEngine) (started : Bool) : SettingsEngine :=
  let core := engineStep E s.toCredentialEngine (.fileChanged started)
  if s.ignores E then { s with toCredentialEngine := core }
  else
    let settings := (E.load s.disk.config).1
    { s with
      toCredentialEngine := core
      settings
      controller := .create settings
      defaultMode := settings.defaultMode }

end SettingsEngine

/-- One step. -/
def settingsStep (E : SettingsEnv) (s : SettingsEngine) : SettingsLabel → SettingsEngine
  | .saved call io =>
    { s with toCredentialEngine := engineStep E s.toCredentialEngine (.saved call io) }
  | .started answered => s.startOn E answered
  | .turned turn => s.whenRunning (s.turn turn)
  | .enabled => s.whenRunning { s with controller := s.controller.setMode s.defaultMode }
  | .published =>
    let saved := s.saveSettings
    s.whenRunning { saved with
      toCredentialEngine := engineStep E s.toCredentialEngine .rebuilt
      controller := .create saved.settings }
  | .flushed io => s.flush E io
  | .fileChanged started => s.whenRunning (s.fileChanged E started)

/-- `metasequoia_engine_init` (IBusEngine.cpp:1313), when it has read the settings. -/
def startSettings (E : SettingsEnv) (disk : Disk) (secrets : SecretSlots) : SettingsEngine :=
  let settings := (E.load disk.config).1
  { startEngine E disk secrets with
    settings
    controller := .create settings
    defaultMode := settings.defaultMode }

/-! ## The copies of a field -/

section

variable {α : Type}

/-- The engine, the file whose record it has, and the two copies of a field. -/
structure Followed (α : Type) where
  engine : SettingsEngine
  known : ConfigFile
  copies : Copies α

/-- What a step does to the copies of a field. The user changes it by turning something only if
a save would take over another value than before. -/
def fieldStep [DecidableEq α] (E : SettingsEnv) (get : InputSettings → α) (s : SettingsEngine)
    (label : SettingsLabel) : Option (CopyStep α) :=
  let t := settingsStep E s label
  match label with
  | .saved _ _ => some (.share (get (E.load t.disk.config).1))
  | .turned _ =>
    if get (s.settings.capture t.controller) = get (s.settings.capture s.controller) then none
    else some (.write (get (s.settings.capture t.controller)))
  | .started _ | .enabled | .published => none
  | .flushed _ => if s.pending then some .writeBack else none
  | .fileChanged _ => if s.running && !s.ignores E then some .adopt else none

/-- A step that makes the copies the same leaves the engine with the record of the file. -/
def knows : CopyStep α → Bool
  | .writeBack | .adopt => true
  | .share _ | .write _ => false

namespace Followed

/-- The engine has taken a step, which does this to the copies. -/
def advance (w : Followed α) (engine : SettingsEngine) [DecidableEq α] :
    Option (CopyStep α) → Followed α
  | none => { w with engine }
  | some copy =>
    { engine
      known := if knows copy then engine.disk.config else w.known
      copies := w.copies.step copy }

/-- One step, followed. -/
def step [DecidableEq α] (E : SettingsEnv) (get : InputSettings → α) (w : Followed α)
    (label : SettingsLabel) : Followed α :=
  w.advance (settingsStep E w.engine label) (fieldStep E get w.engine label)

/-- When the engine has read the settings. -/
def start (E : SettingsEnv) (get : InputSettings → α) (disk : Disk) (secrets : SecretSlots) :
    Followed α where
  engine := startSettings E disk secrets
  known := disk.config
  copies := .same (get (E.load disk.config).1)

/-- The file has the field as the one whose record the engine has. -/
def Unchanged (E : SettingsEnv) (get : InputSettings → α) (w : Followed α) : Prop :=
  get (E.load w.engine.disk.config).1 = get (E.load w.known).1

/-- The condition of a step. A save of the engine succeeds, and does not write over a field
that the window has changed and that the engine does not know of; a reload does not read over
one that the engine has changed and not saved. An event that is ignored is about a file without
a change of the field; so is the file that the engine starts to watch. Before a save takes over
from the controller, that has the field as the engine has it. -/
def Orderly (E : SettingsEnv) (get : InputSettings → α) (w : Followed α) :
    SettingsLabel → Prop
  | .saved _ _ | .enabled => True
  | .started _ =>
    match w.engine.stage with
    | .watching => w.Unchanged E get
    | .hydrating | .askingAi _ | .askingTranslation _ _ | .remembering | .running => True
  | .turned _ | .published => w.engine.running = true →
    get (w.engine.settings.capture w.engine.controller) = get w.engine.settings
  | .flushed io => w.engine.pending = true →
    (E.save io w.engine.settings w.engine.disk).error = none ∧ w.copies.Safe .writeBack
  | .fileChanged _ => w.engine.running = true →
    if w.engine.ignores E then w.Unchanged E get else w.copies.Safe .adopt

/-- An orderly step. -/
def OrderlyStep [DecidableEq α] (E : SettingsEnv) (get : InputSettings → α) (w : Followed α)
    (label : SettingsLabel) (w' : Followed α) : Prop :=
  w.Orderly E get label ∧ w' = w.step E get label

/-- What is known of the copies in every state. -/
structure Sound (E : SettingsEnv) (get : InputSettings → α) (w : Followed α) : Prop where
  kept : w.copies.Kept
  shared : w.copies.shared = get (E.load w.engine.disk.config).1
  own : w.copies.own = get w.engine.settings
  persisted : w.engine.settings.persisted = w.engine.settings
  known : w.engine.pending = false → w.engine.settings = (E.load w.known).1
  idle : w.engine.pending = false → w.copies.ahead ≠ some .own
  quiet : w.engine.running = true → w.engine.changed = false → w.Unchanged E get

end Followed

/-! ## What one step does -/

variable {E : SettingsEnv} {get : InputSettings → α} {w w' : Followed α}

/-- A plain save of the window, on disk. -/
theorem SettingsEngine.saved_disk (s : SettingsEngine) (settings : InputSettings) (io : WriterIo) :
    (settingsStep E s (.saved (.save settings) io)).disk = (E.save io.io settings s.disk).disk := by
  simp only [settingsStep, engineStep, SaveCall.perform]

/-- What an event does to the file, and to the record. -/
theorem CredentialEngine.settingsFileChanged_disk (E : SettingsEnv) (s : CredentialEngine)
    (started : Bool) : (s.settingsFileChanged E started).disk = s.disk ∧
      (s.settingsFileChanged E started).changed = false ∧
      (s.settingsFileChanged E started).stage = s.stage := by
  unfold settingsFileChanged
  split
  · exact ⟨rfl, rfl, rfl⟩
  · obtain ⟨available, more, service, hreload, -⟩ := reloadSettings_eq E
      { s with changed := false, digest := E.fileDigest s.disk.config } started
    rw [hreload]
    exact ⟨rfl, rfl, rfl⟩

theorem SettingsEngine.flush_disk {s : SettingsEngine} (hpending : s.pending = true)
    (io : WriteOutcome) : (s.flush E io).disk = (E.save io s.settings s.disk).disk := by
  simp only [SettingsEngine.flush, SettingsEngine.writeSettings, hpending, if_true]

theorem SettingsEngine.fileChanged_idle (s : SettingsEngine) (hrunning : s.running = true)
    (started : Bool) : (s.fileChanged E started).pending = s.pending ∧
      (s.fileChanged E started).changed = false ∧
      (s.fileChanged E started).running = true := by
  obtain ⟨-, hchanged, hstage⟩ := settingsFileChanged_disk E s.toCredentialEngine started
  have hcore : engineStep E s.toCredentialEngine (.fileChanged started) =
      s.settingsFileChanged E started := if_pos hrunning
  have hrunning' : (s.settingsFileChanged E started).running = true := by
    unfold CredentialEngine.running
    rw [hstage]
    exact hrunning
  unfold SettingsEngine.fileChanged
  rw [hcore]
  dsimp only
  split
  · exact ⟨rfl, hchanged, hrunning'⟩
  · exact ⟨rfl, hchanged, hrunning'⟩

/-- An event that is ignored, and one whose file is read. -/
theorem SettingsEngine.fileChanged_ignored {s : SettingsEngine} (hrunning : s.running = true)
    (hignores : s.ignores E = true) (started : Bool) :
    s.fileChanged E started = { s with
      toCredentialEngine := s.settingsFileChanged E started } := by
  rw [← show engineStep E s.toCredentialEngine (.fileChanged started) = _ from if_pos hrunning]
  exact if_pos hignores

theorem SettingsEngine.fileChanged_read {s : SettingsEngine} (hrunning : s.running = true)
    (hignores : ¬ s.ignores E = true) (started : Bool) :
    s.fileChanged E started = { s with
      toCredentialEngine := s.settingsFileChanged E started
      settings := (E.load s.disk.config).1
      controller := .create (E.load s.disk.config).1
      defaultMode := (E.load s.disk.config).1.defaultMode } := by
  rw [← show engineStep E s.toCredentialEngine (.fileChanged started) = _ from if_pos hrunning]
  exact if_neg hignores

theorem SettingsEngine.turn_unsaved {s : SettingsEngine} {turn : Turn}
    (h : (s.controller.turn turn).2 = false) : s.turn turn = s := by
  simp only [SettingsEngine.turn, h, ControllerValues.turn_unsaved h]
  rfl

theorem SettingsEngine.turn_saved {s : SettingsEngine} {turn : Turn}
    (h : (s.controller.turn turn).2 = true) :
    s.turn turn = { s with controller := (s.controller.turn turn).1 }.saveSettings := by
  simp only [SettingsEngine.turn, h]
  rfl

/-- A save that succeeds leaves the engine with the digest of the file. -/
theorem SettingsEnv.save_digest {io : WriteOutcome} {settings : InputSettings} {disk : Disk}
    (h : (E.save io settings disk).error = none) :
    (E.save io settings disk).digest =
      some (E.fileDigest (E.save io settings disk).disk.config) := by
  obtain ⟨-, file, before, data, -, -, hafter, hdigest⟩ := (SettingsEnv.save_ok h).written
  rw [hdigest, hafter]
  rfl

/-- A read of the start leaves the retained record and the file as they are. -/
theorem SettingsEngine.started_settings (s : SettingsEngine) (answered : Bool) :
    (settingsStep E s (.started answered)).settings = s.settings ∧
      (settingsStep E s (.started answered)).pending = s.pending ∧
      (settingsStep E s (.started answered)).disk = s.disk := by
  simp only [settingsStep, SettingsEngine.startOn, engineStep, CredentialEngine.startOn]
  cases hstage : s.stage <;> exact ⟨rfl, rfl, rfl⟩

namespace Followed

theorem advance_engine [DecidableEq α] (w : Followed α) (engine : SettingsEngine)
    (copy : Option (CopyStep α)) : (w.advance engine copy).engine = engine := by
  cases copy <;> rfl

theorem step_engine [DecidableEq α] (w : Followed α) (label : SettingsLabel) :
    (w.step E get label).engine = settingsStep E w.engine label :=
  w.advance_engine _ _

/-- Neither a flush nor an event is a write. -/
theorem step_last [DecidableEq α] (w : Followed α) {label : SettingsLabel}
    (hlabel : (∃ io, label = .flushed io) ∨ ∃ started, label = .fileChanged started) :
    (w.step E get label).copies.last = w.copies.last := by
  rcases hlabel with ⟨io, rfl⟩ | ⟨started, rfl⟩
  · unfold Followed.step fieldStep
    dsimp only
    split <;> rfl
  · unfold Followed.step fieldStep
    dsimp only
    split <;> rfl

/-- The main loop does nothing before it runs. -/
theorem step_starting [DecidableEq α] (hstarting : w.engine.running = false)
    {label : SettingsLabel} (hlabel : (∃ turn, label = .turned turn) ∨ label = .enabled ∨
      label = .published ∨ ∃ started, label = .fileChanged started) :
    w.step E get label = w := by
  have hstays : ∀ next, w.engine.whenRunning next = w.engine := fun next =>
    if_neg (by rw [hstarting]; exact Bool.false_ne_true)
  rcases hlabel with ⟨turn, rfl⟩ | rfl | rfl | ⟨started, rfl⟩
  · have hsame : settingsStep E w.engine (.turned turn) = w.engine := hstays _
    have hfield : fieldStep E get w.engine (.turned turn) = none := if_pos (by rw [hsame])
    rw [Followed.step, hsame, hfield]
    rfl
  · exact congrArg (Followed.mk · w.known w.copies) (hstays _)
  · exact congrArg (Followed.mk · w.known w.copies) (hstays _)
  · have hfield : fieldStep E get w.engine (.fileChanged started) = none :=
      if_neg (by rw [hstarting]; exact Bool.false_ne_true)
    rw [Followed.step, hfield]
    exact congrArg (Followed.mk · w.known w.copies) (hstays _)

theorem Sound.start (E : SettingsEnv) (get : InputSettings → α) (disk : Disk)
    (secrets : SecretSlots) : (Followed.start E get disk secrets).Sound E get where
  kept := .same _
  shared := rfl
  own := rfl
  persisted := load_persisted E disk.config
  known _ := rfl
  idle _ := nofun
  quiet _ _ := rfl

/-- A save of the window. -/
theorem Sound.saved [DecidableEq α] (h : w.Sound E get) (call : SaveCall) (io : WriterIo) :
    (w.step E get (.saved call io)).Sound E get where
  kept := (h.kept.step_iff (.share _)).mpr trivial
  shared := Copies.step_share_shared _ _
  own := (Copies.step_share_own _ _).trans h.own
  persisted := h.persisted
  known := h.known
  idle hpending := Copies.step_share_ahead _ _ (h.idle hpending)
  quiet hrunning hchanged := by
    have hraised : (w.engine.changed || w.engine.running) = false := hchanged
    rw [show w.engine.running = true from hrunning, Bool.or_true] at hraised
    cases hraised

/-- The start reads the file. -/
theorem Sound.started [DecidableEq α] (h : w.Sound E get) {answered : Bool}
    (horderly : w.Orderly E get (.started answered)) :
    (w.step E get (.started answered)).Sound E get := by
  obtain ⟨hsettings, hpending, hdisk⟩ := w.engine.started_settings (E := E) answered
  have hquiet : (settingsStep E w.engine (.started answered)).running = true →
      (settingsStep E w.engine (.started answered)).changed = false → w.Unchanged E get := by
    dsimp only [Followed.Orderly] at horderly
    intro hrunning hchanged
    cases hstage : w.engine.stage with
    | watching => rwa [hstage] at horderly
    | running =>
      refine h.quiet (by simp [CredentialEngine.running, hstage]) ?_
      simpa [settingsStep, SettingsEngine.startOn, engineStep, CredentialEngine.startOn, hstage]
        using hchanged
    | hydrating | askingAi _ | askingTranslation _ _ | remembering =>
      simp [settingsStep, SettingsEngine.startOn, engineStep, CredentialEngine.startOn, hstage,
        CredentialEngine.running] at hrunning
  show Followed.Sound E get
    { engine := settingsStep E w.engine (.started answered), known := w.known, copies := w.copies }
  refine ⟨h.kept, ?_, h.own.trans (congrArg get hsettings.symm), ?_, fun hidle => ?_,
    fun hidle => h.idle (hpending.symm.trans hidle), fun hrunning hchanged => ?_⟩
  · exact h.shared.trans (congrArg (fun disk => get (E.load (Disk.config disk)).1) hdisk.symm)
  · show (settingsStep E w.engine (.started answered)).settings.persisted = _
    rw [hsettings]
    exact h.persisted
  · exact hsettings.trans (h.known (hpending.symm.trans hidle))
  · exact (congrArg (fun disk => get (E.load (Disk.config disk)).1) hdisk).trans
      (hquiet hrunning hchanged)

/-- A step that changes the record only by what it takes over from the controller, and then
waits for the flush. -/
theorem Sound.captured (h : w.Sound E get) (engine : SettingsEngine) (c : ControllerValues)
    (hdisk : engine.disk = w.engine.disk) (hstage : engine.stage = w.engine.stage)
    (hchanged : engine.changed = w.engine.changed)
    (hsettings : engine.settings = w.engine.settings.capture c)
    (hpending : engine.pending = true) {copies : Copies α} (hkept : copies.Kept)
    (hshared : copies.shared = w.copies.shared)
    (hown : copies.own = get (w.engine.settings.capture c)) :
    Followed.Sound E get { engine, known := w.known, copies } where
  kept := hkept
  shared := by
    rw [hshared, h.shared]
    exact congrArg (fun disk => get (E.load (Disk.config disk)).1) hdisk.symm
  own := by
    rw [hown]
    exact congrArg get hsettings.symm
  persisted := by
    show engine.settings.persisted = engine.settings
    rw [hsettings, InputSettings.capture_persisted, h.persisted]
  known hidle := by
    rw [show engine.pending = false from hidle] at hpending
    cases hpending
  idle hidle := by
    rw [show engine.pending = false from hidle] at hpending
    cases hpending
  quiet hrunning hquiet := by
    have hrunning' : w.engine.running = true := by
      unfold CredentialEngine.running
      rw [← hstage]
      exact hrunning
    show get (E.load engine.disk.config).1 = get (E.load w.known).1
    rw [hdisk]
    exact h.quiet hrunning' (hchanged.symm.trans hquiet)

/-- The user turns something. -/
theorem Sound.turned [DecidableEq α] (h : w.Sound E get) {turn : Turn}
    (horderly : w.Orderly E get (.turned turn)) : (w.step E get (.turned turn)).Sound E get := by
  cases hrunning : w.engine.running with
  | false => rwa [step_starting hrunning (.inl ⟨turn, rfl⟩)]
  | true =>
  have hview := horderly hrunning
  have htakes : ∀ next, w.engine.whenRunning next = next := fun next => if_pos hrunning
  cases hsaves : (w.engine.controller.turn turn).2 with
  | false =>
    -- the engine is the one it was
    have hsame : settingsStep E w.engine (.turned turn) = w.engine :=
      (htakes _).trans (SettingsEngine.turn_unsaved hsaves)
    have hfield : fieldStep E get w.engine (.turned turn) = none :=
      if_pos (by rw [hsame])
    rw [Followed.step, hsame, hfield]
    exact h
  | true =>
    let turned : SettingsEngine :=
      { w.engine with controller := (w.engine.controller.turn turn).1 }
    have hturned : settingsStep E w.engine (.turned turn) = turned.saveSettings :=
      (htakes _).trans (SettingsEngine.turn_saved hsaves)
    by_cases hsame : get (w.engine.settings.capture (w.engine.controller.turn turn).1) =
        get (w.engine.settings.capture w.engine.controller)
    · have hfield : fieldStep E get w.engine (.turned turn) = none :=
        if_pos (by rw [hturned]; exact hsame)
      rw [Followed.step, hturned, hfield]
      exact h.captured turned.saveSettings turned.controller rfl rfl rfl rfl rfl h.kept rfl
        (h.own.trans (hview.symm.trans hsame.symm))
    · have hfield : fieldStep E get w.engine (.turned turn) =
          some (.write (get (w.engine.settings.capture (w.engine.controller.turn turn).1))) := by
        refine (if_neg ?_).trans ?_
        · rw [hturned]
          exact hsame
        · rw [hturned]
          rfl
      rw [Followed.step, hturned, hfield]
      exact h.captured turned.saveSettings turned.controller rfl rfl rfl rfl rfl
        ((h.kept.step_iff (.write _)).mpr trivial) (Copies.step_write_shared _ _)
        (Copies.step_write_own _ _)

/-- A dictionary is published. -/
theorem Sound.published [DecidableEq α] (h : w.Sound E get)
    (horderly : w.Orderly E get .published) : (w.step E get .published).Sound E get := by
  cases hrunning : w.engine.running with
  | false => rwa [step_starting hrunning (.inr (.inr (.inl rfl)))]
  | true =>
    let published : SettingsEngine := { w.engine.saveSettings with
      toCredentialEngine := { w.engine.toCredentialEngine with query := none, service := none }
      controller := .create w.engine.saveSettings.settings }
    have hpublished : settingsStep E w.engine .published = published := by
      refine (if_pos hrunning).trans ?_
      rw [show engineStep E w.engine.toCredentialEngine .rebuilt = _ from if_pos hrunning]
    rw [Followed.step, hpublished]
    exact h.captured published w.engine.controller rfl rfl rfl rfl rfl h.kept rfl
      (h.own.trans (horderly hrunning).symm)

/-- What is pending is written. -/
theorem Sound.flushed [DecidableEq α] (hE : E.Lawful) (h : w.Sound E get) {io : WriteOutcome}
    (horderly : w.Orderly E get (.flushed io)) : (w.step E get (.flushed io)).Sound E get := by
  cases hpending : w.engine.pending with
  | false =>
    have hsame : settingsStep E w.engine (.flushed io) = w.engine :=
      if_neg (by rw [hpending]; exact Bool.false_ne_true)
    have hfield : fieldStep E get w.engine (.flushed io) = none :=
      if_neg (by rw [hpending]; exact Bool.false_ne_true)
    rw [Followed.step, hsame, hfield]
    exact h
  | true =>
    obtain ⟨hsaved, hsafe⟩ := horderly hpending
    have hflushed : settingsStep E w.engine (.flushed io) =
        { w.engine with pending := false }.writeSettings E io := if_pos hpending
    have hfield : fieldStep E get w.engine (.flushed io) = some .writeBack := if_pos hpending
    have hdisk : (E.load (E.save io w.engine.settings w.engine.disk).disk.config).1 =
        w.engine.settings := by
      rw [(E.save_ok hsaved).load_eq hE]
      exact h.persisted
    rw [Followed.step, hflushed, hfield]
    exact
      { kept := (h.kept.step_iff .writeBack).mpr hsafe
        shared := h.own.trans (congrArg get hdisk.symm)
        own := h.own
        persisted := h.persisted
        known := fun _ => hdisk.symm
        idle := fun _ => nofun
        quiet := fun _ _ => rfl }

/-- An event of the file monitor. -/
theorem Sound.fileChanged [DecidableEq α] (h : w.Sound E get) {started : Bool}
    (horderly : w.Orderly E get (.fileChanged started)) :
    (w.step E get (.fileChanged started)).Sound E get := by
  cases hrunning : w.engine.running with
  | false => rwa [step_starting hrunning (.inr (.inr (.inr ⟨started, rfl⟩)))]
  | true =>
  replace horderly := horderly hrunning
  obtain ⟨hdisk, -, -⟩ := settingsFileChanged_disk E w.engine.toCredentialEngine started
  have hevent : settingsStep E w.engine (.fileChanged started) =
      w.engine.fileChanged E started := if_pos hrunning
  -- the file is the engine's own, or it is read
  by_cases hignores : w.engine.ignores E = true
  · rw [if_pos hignores] at horderly
    have hfield : fieldStep E get w.engine (.fileChanged started) = none :=
      if_neg (by rw [hignores, Bool.not_true, Bool.and_false]; exact Bool.false_ne_true)
    rw [Followed.step, hevent, SettingsEngine.fileChanged_ignored hrunning hignores, hfield]
    refine ⟨h.kept, ?_, h.own, h.persisted, h.known, h.idle, fun _ _ => ?_⟩
    · show _ = get (E.load (w.engine.settingsFileChanged E started).disk.config).1
      rw [hdisk]
      exact h.shared
    · show get (E.load (w.engine.settingsFileChanged E started).disk.config).1 = _
      rw [hdisk]
      exact horderly
  · rw [if_neg hignores] at horderly
    have hfield : fieldStep E get w.engine (.fileChanged started) = some .adopt :=
      if_pos (by rw [hrunning, Bool.eq_false_iff.mpr hignores]; rfl)
    rw [Followed.step, hevent, SettingsEngine.fileChanged_read hrunning hignores, hfield]
    refine ⟨(h.kept.step_iff .adopt).mpr horderly, ?_, h.shared, load_persisted E _, fun _ => ?_,
      fun _ => nofun, fun _ _ => rfl⟩
    · show w.copies.shared = get (E.load (w.engine.settingsFileChanged E started).disk.config).1
      rw [hdisk]
      exact h.shared
    · show _ = (E.load (w.engine.settingsFileChanged E started).disk.config).1
      rw [hdisk]
      rfl

/-- **The step lemma.** -/
theorem Sound.step [DecidableEq α] (hE : E.Lawful) (h : w.Sound E get) {label : SettingsLabel}
    (horderly : w.Orderly E get label) : (w.step E get label).Sound E get := by
  cases label with
  | saved call io => exact h.saved call io
  | started answered => exact h.started horderly
  | turned turn => exact h.turned horderly
  | enabled =>
    cases hrunning : w.engine.running with
    | false => rwa [step_starting hrunning (.inr (.inl rfl))]
    | true =>
      have henabled : settingsStep E w.engine .enabled =
          { w.engine with controller := w.engine.controller.setMode w.engine.defaultMode } :=
        if_pos hrunning
      rw [Followed.step, henabled]
      exact ⟨h.kept, h.shared, h.own, h.persisted, h.known, h.idle, h.quiet⟩
  | published => exact h.published horderly
  | flushed io => exact h.flushed hE horderly
  | fileChanged started => exact h.fileChanged horderly

end Followed

/-- **The run lemma.** -/
theorem Followed.run_sound [DecidableEq α] (hE : E.Lawful) {disk : Disk} {secrets : SecretSlots}
    {labels : List SettingsLabel}
    (hrun : Run (Followed.OrderlyStep E get) (.start E get disk secrets) labels w) :
    w.Sound E get := by
  refine hrun.invariant ?_ (.start E get disk secrets)
  rintro w label w' h ⟨horderly, rfl⟩
  exact h.step hE horderly

/-- **When a flush reverts a save of the window**: the file does not have the last writer's value
afterwards, if that was the window's and the engine has another. -/
theorem Followed.Sound.flushed_iff [DecidableEq α] (hE : E.Lawful) (h : w.Sound E get)
    {io : WriteOutcome} (hpending : w.engine.pending = true)
    (hsaved : (E.save io w.engine.settings w.engine.disk).error = none) :
    get (E.load (settingsStep E w.engine (.flushed io)).disk.config).1 = w.copies.last ↔
      w.copies.Safe .writeBack := by
  rw [settingsStep, SettingsEngine.flush_disk hpending, (E.save_ok hsaved).load_eq hE, h.persisted,
    ← h.own]
  exact h.kept.own_eq_last_iff

/-- **When a reload reverts what the user has turned**: if that is still pending. -/
theorem Followed.Sound.reloaded_iff [DecidableEq α] (h : w.Sound E get) {started : Bool}
    (hrunning : w.engine.running = true) (hread : w.engine.ignores E = false) :
    get (settingsStep E w.engine (.fileChanged started)).settings = w.copies.last ↔
      w.copies.Safe .adopt := by
  have hsettings : (settingsStep E w.engine (.fileChanged started)).settings =
      (E.load w.engine.disk.config).1 :=
    (congrArg SettingsEngine.settings (if_pos hrunning)).trans
      (congrArg SettingsEngine.settings (if_neg (by rw [hread]; exact Bool.false_ne_true)))
  rw [hsettings, ← h.shared]
  exact h.kept.shared_eq_last_iff

/-- **No settings update is lost** in an orderly run, from the first read of the engine on:
whenever no save of the engine is pending, the file has the field as its last writer left it; and
so has the running engine, once it has heard of every change of the file. Where the order of a
flush or of an event is not the one asked for, its last writer's value is lost, and so it is if
the engine starts to watch a file with another value of the field than it has read. -/
theorem lastWriter_kept [DecidableEq α] (hE : E.Lawful) {disk : Disk} {secrets : SecretSlots}
    {labels : List SettingsLabel}
    (hrun : Run (Followed.OrderlyStep E get) (.start E get disk secrets) labels w) :
    (w.engine.pending = false →
      get (E.load w.engine.disk.config).1 = w.copies.last ∧
      (w.engine.running = true → w.engine.changed = false →
        get w.engine.settings = w.copies.last)) ∧
    (∀ io, w.engine.pending = true →
      (E.save io w.engine.settings w.engine.disk).error = none →
      (get (E.load (settingsStep E w.engine (.flushed io)).disk.config).1 = w.copies.last ↔
        w.copies.Safe .writeBack)) ∧
    (∀ started, w.engine.running = true → w.engine.ignores E = false →
      (get (settingsStep E w.engine (.fileChanged started)).settings = w.copies.last ↔
        w.copies.Safe .adopt)) ∧
    ∀ answered, w.engine.pending = false →
      (get (settingsStep E w.engine (.started answered)).settings = w.copies.last ↔
        w.Unchanged E get) := by
  have h := Followed.run_sound hE hrun
  refine ⟨fun hpending => ?_, fun io hpending hsaved => h.flushed_iff hE hpending hsaved,
    fun started hrunning hread => h.reloaded_iff hrunning hread, fun answered hpending => ?_⟩
  · have hlast : get (E.load w.engine.disk.config).1 = w.copies.last :=
      h.shared.symm.trans (h.kept.shared (h.idle hpending))
    refine ⟨hlast, fun hrunning hchanged => ?_⟩
    rw [h.known hpending, ← h.quiet hrunning hchanged, hlast]
  · rw [(w.engine.started_settings answered).1, h.known hpending, Followed.Unchanged,
      ← h.kept.shared (h.idle hpending), ← h.shared]
    exact eq_comm

/-- The event of the window's save that follows a flush is ignored: what the engine knows is
its own file, and that has the engine's record. -/
theorem Followed.flushed_fileChanged [DecidableEq α] (w : Followed α) (get : InputSettings → α)
    (hE : E.Lawful) {io : WriteOutcome} (hrunning : w.engine.running = true)
    (hpending : w.engine.pending = true)
    (hpersisted : w.engine.settings.persisted = w.engine.settings)
    (hsaved : (E.save io w.engine.settings w.engine.disk).error = none) (started : Bool) :
    let t := (w.step E get (.flushed io)).step E get (.fileChanged started)
    t.engine.pending = false ∧ t.engine.changed = false ∧ t.copies.last = w.copies.last ∧
      get (E.load t.engine.disk.config).1 = get w.engine.settings ∧
      get t.engine.settings = get w.engine.settings := by
  have hlast : ((w.step E get (.flushed io)).step E get (.fileChanged started)).copies.last =
      w.copies.last :=
    (step_last _ (.inr ⟨_, rfl⟩)).trans (step_last _ (.inl ⟨_, rfl⟩))
  have hflush : w.engine.flush E io = { w.engine with pending := false }.writeSettings E io :=
    if_pos hpending
  have hrunning' : (w.engine.flush E io).running = true := by
    rw [hflush]
    exact hrunning
  have hengine : ((w.step E get (.flushed io)).step E get (.fileChanged started)).engine =
      (w.engine.flush E io).fileChanged E started := by
    rw [step_engine, step_engine]
    exact if_pos hrunning'
  -- the file holds the engine's record, and its digest is the one the engine knows
  have hload : (E.load (w.engine.flush E io).disk.config).1 = w.engine.settings := by
    rw [SettingsEngine.flush_disk hpending, (E.save_ok hsaved).load_eq hE]
    exact hpersisted
  have hignores : (w.engine.flush E io).ignores E = true := by
    rw [hflush]
    show (E.fileDigest (E.save io w.engine.settings w.engine.disk).disk.config == [] ||
      E.fileDigest (E.save io w.engine.settings w.engine.disk).disk.config ==
        (E.save io w.engine.settings w.engine.disk).digest.getD _) = true
    rw [SettingsEnv.save_digest hsaved, Option.getD_some, beq_self_eq_true, Bool.or_true]
  obtain ⟨hdisk, hchanged, -⟩ :=
    settingsFileChanged_disk E (w.engine.flush E io).toCredentialEngine started
  dsimp only
  rw [hengine, SettingsEngine.fileChanged_ignored hrunning' hignores]
  refine ⟨by rw [hflush]; rfl, hchanged, hlast, ?_, by rw [hflush]; rfl⟩
  -- so the event changes nothing
  show get (E.load ((w.engine.flush E io).settingsFileChanged E started).disk.config).1 = _
  rw [hdisk, hload]

end

/-! ## One order, and another -/

/-- The page size, followed from the first start. -/
def pageSizeStart : Followed Nat :=
  .start plainEnv InputSettings.pageSize {} fun _ => none

/-- No service is on: the engine takes the digest, and watches the file. -/
def pageSizeStarted : List SettingsLabel := [.started true, .started true]

def pageSizeRun (w : Followed Nat) (labels : List SettingsLabel) : Followed Nat :=
  labels.foldl (Followed.step plainEnv InputSettings.pageSize) w

theorem pageSizeRun_pair (w : Followed Nat) (a b : SettingsLabel) :
    pageSizeRun w [a, b] = (w.step plainEnv InputSettings.pageSize a).step plainEnv
      InputSettings.pageSize b := by
  rw [pageSizeRun, List.foldl_cons, List.foldl_cons, List.foldl_nil]

theorem pageSizeRun_append (w : Followed Nat) (before after : List SettingsLabel) :
    pageSizeRun w (before ++ after) = pageSizeRun (pageSizeRun w before) after :=
  List.foldl_append

/-- What the settings window saves. -/
def smallPage : InputSettings := { pageSize := 5 }

theorem smallPage_valid : validInputSettings plainEnv.supportedHelpcodeSchema smallPage = true :=
  validInputSettings_iff.mpr
    { validInputSettings_default plainEnv_lawful.lantian with pageSize := by decide }

/-- The first save of the window. -/
theorem smallPage_saved : ∃ data,
    (plainEnv.save {} smallPage {}).disk.config = .regular data ∧
    plainEnv.load (.regular data) = (smallPage, "") := by
  have hsaved := SettingsEnv.save_ok (save_missing smallPage_valid)
  obtain ⟨data, file, hconfig, -, -⟩ := hsaved.file plainEnv_lawful
  have hload := hsaved.load_eq plainEnv_lawful
  rw [hconfig] at hload
  exact ⟨data, hconfig, hload⟩

/-- Turning the width of the default settings. -/
theorem turnedWidth : ({} : InputSettings).capture
    ((ControllerValues.create {}).turn .toggleWidth).1 = { characterWidth := .full } := by
  show { ({} : InputSettings).capture (.create {}) with characterWidth :=
    if (ControllerValues.create {}).characterWidth = CharacterWidth.half then CharacterWidth.full
      else CharacterWidth.half } = _
  rw [InputSettings.capture_create rfl]
  rfl

theorem turnedWidth_valid : validInputSettings plainEnv.supportedHelpcodeSchema
    { characterWidth := .full } = true :=
  validInputSettings_iff.mpr { validInputSettings_default plainEnv_lawful.lantian with }

/-- The engine starts, and the width is turned. -/
theorem turnedWidth_run : ∃ w,
    pageSizeRun pageSizeStart (pageSizeStarted ++ [.turned .toggleWidth]) = w ∧
    Run (Followed.OrderlyStep plainEnv InputSettings.pageSize) pageSizeStart
      (pageSizeStarted ++ [.turned .toggleWidth]) w ∧
    w.engine.running = true ∧ w.engine.pending = true ∧
    w.engine.settings = { characterWidth := .full } ∧ w.engine.disk = {} ∧
    w.copies = .same 9 :=
  ⟨_, rfl, .cons ⟨trivial, rfl⟩ (.cons ⟨rfl, rfl⟩ (.single ⟨fun _ => rfl, rfl⟩)), rfl, rfl,
    turnedWidth, rfl, rfl⟩

/-- Before that is written, the settings window saves another page size. -/
theorem saved_meanwhile :
    let w := pageSizeRun pageSizeStart
      (pageSizeStarted ++ [.turned .toggleWidth] ++ [.saved (.save smallPage) {}])
    w.engine.running = true ∧ w.engine.pending = true ∧
      w.engine.settings = { characterWidth := .full } ∧
      w.engine.disk = (plainEnv.save {} smallPage {}).disk ∧ w.copies.last = 5 := by
  obtain ⟨data, hconfig, hload⟩ := smallPage_saved
  obtain ⟨w, hrun, -, hrunning, hpending, hsettings, hdisk, hcopies⟩ := turnedWidth_run
  rw [pageSizeRun_append, hrun]
  have hsaved : (settingsStep plainEnv w.engine (.saved (.save smallPage) {})).disk =
      (plainEnv.save {} smallPage {}).disk := by
    rw [SettingsEngine.saved_disk, hdisk]
  refine ⟨hrunning, hpending, hsettings, hsaved, ?_⟩
  show (w.copies.step (.share (plainEnv.load (settingsStep plainEnv w.engine
    (.saved (.save smallPage) {})).disk.config).1.pageSize)).last = 5
  rw [hsaved, hcopies, hconfig, hload]
  rfl

/-- **A save of the window is lost.** The engine hears of the window's save only after the
flush. Then nothing is pending any more; the window was the last to change the page size, and
neither the file nor the engine has it. -/
theorem window_save_reverted :
    let w := pageSizeRun pageSizeStart (pageSizeStarted ++ [.turned .toggleWidth] ++
      [.saved (.save smallPage) {}] ++ [.flushed {}, .fileChanged true])
    w.engine.pending = false ∧ w.engine.changed = false ∧ w.copies.last = 5 ∧
      (plainEnv.load w.engine.disk.config).1.pageSize = 9 ∧ w.engine.settings.pageSize = 9 := by
  obtain ⟨data, hconfig, -⟩ := smallPage_saved
  obtain ⟨hrunning, hpending, hsettings, hdisk, hlast⟩ := saved_meanwhile
  rw [pageSizeRun_append, pageSizeRun_pair]
  generalize pageSizeRun pageSizeStart
    (pageSizeStarted ++ [.turned .toggleWidth] ++ [.saved (.save smallPage) {}]) = w at *
  have hflushed : (plainEnv.save {} w.engine.settings w.engine.disk).error = none := by
    rw [hsettings, hdisk]
    exact save_regular turnedWidth_valid hconfig
  obtain ⟨hidle, hchanged, hkept, hfile, hvalue⟩ := w.flushed_fileChanged InputSettings.pageSize
    plainEnv_lawful hrunning hpending (by rw [hsettings]; rfl) hflushed true
  rw [hsettings] at hfile hvalue
  exact ⟨hidle, hchanged, hkept.trans hlast, hfile, hvalue⟩

/-- An empty file has the default page size. -/
theorem ne_nil_of_smallPage {data : Bytes}
    (hload : plainEnv.load (.regular data) = (smallPage, "")) : data ≠ [] := by
  rintro rfl
  have hpage := congrArg (fun r => r.1.pageSize) hload
  exact absurd hpage (by decide)

/-- What is known after a flush, and after a save of the window. -/
theorem flushed_saved {w : Followed Nat} (hrunning : w.engine.running = true)
    (hpending : w.engine.pending = true)
    (hsaved : (plainEnv.save {} w.engine.settings w.engine.disk).error = none) :
    let v := (w.step plainEnv InputSettings.pageSize (.flushed {})).step plainEnv
      InputSettings.pageSize (.saved (.save smallPage) {})
    v.engine.running = true ∧ v.engine.pending = false ∧
      v.engine.digest = plainEnv.fileDigest v.known ∧
      ∃ data, v.engine.disk.config = .regular data ∧
        plainEnv.load (.regular data) = (smallPage, "") := by
  have hflush : w.engine.flush plainEnv {} =
      { w.engine with pending := false }.writeSettings plainEnv {} := if_pos hpending
  have hfield : fieldStep plainEnv InputSettings.pageSize w.engine (.flushed {}) =
      some .writeBack := if_pos hpending
  have hflushed : w.step plainEnv InputSettings.pageSize (.flushed {}) =
      { engine := { w.engine with pending := false }.writeSettings plainEnv {}
        known := (plainEnv.save {} w.engine.settings w.engine.disk).disk.config
        copies := w.copies.step .writeBack } := by
    rw [Followed.step, hfield, settingsStep, hflush]
    rfl
  have hdigest := SettingsEnv.save_digest hsaved
  obtain ⟨written, -, hwritten, -, -⟩ := (SettingsEnv.save_ok hsaved).file plainEnv_lawful
  have hsaved' := SettingsEnv.save_ok (save_regular smallPage_valid hwritten)
  obtain ⟨data, -, hconfig, -, -⟩ := hsaved'.file plainEnv_lawful
  have hload := hsaved'.load_eq plainEnv_lawful
  rw [hconfig] at hload
  rw [hflushed]
  refine ⟨hrunning, rfl, ?_, data, hconfig, hload⟩
  show (plainEnv.save {} w.engine.settings w.engine.disk).digest.getD _ = _
  rw [hdigest]
  rfl

/-- The same, when the engine has written before the window saves. -/
theorem lastWriter_kept_pageSize : ∃ w, Run
    (Followed.OrderlyStep plainEnv InputSettings.pageSize) pageSizeStart
      (pageSizeStarted ++ [.turned .toggleWidth] ++ [.flushed {}] ++
        [.saved (.save smallPage) {}] ++ [.fileChanged true]) w ∧
    (plainEnv.load w.engine.disk.config).1.pageSize = w.copies.last ∧
    w.engine.settings.pageSize = w.copies.last := by
  obtain ⟨w, -, hturned, hrunning, hpending, hsettings, hdisk, hcopies⟩ := turnedWidth_run
  have hsaved : (plainEnv.save {} w.engine.settings w.engine.disk).error = none := by
    rw [hsettings, hdisk]
    exact save_missing turnedWidth_valid
  have hflushed := hturned.snoc (l := SettingsLabel.flushed {})
    ⟨fun _ => ⟨hsaved, fun hahead => by rw [hcopies] at hahead; cases hahead⟩, rfl⟩
  have hwindow := hflushed.snoc (l := SettingsLabel.saved (.save smallPage) {}) ⟨trivial, rfl⟩
  have hsound := Followed.run_sound plainEnv_lawful hwindow
  obtain ⟨hrunning', hidle, hdigest, data, hconfig, hload⟩ :=
    flushed_saved hrunning hpending hsaved
  generalize (w.step plainEnv InputSettings.pageSize (.flushed {})).step plainEnv
    InputSettings.pageSize (.saved (.save smallPage) {}) = v at *
  have horderly : v.Orderly plainEnv InputSettings.pageSize (.fileChanged true) := by
    intro _
    split
    · next hignores =>
      -- the digest is that of the engine's file, since it is of some text
      have hne := ne_nil_of_smallPage hload
      have hsame : v.engine.disk.config = v.known := by
        unfold CredentialEngine.ignores at hignores
        rw [hdigest, hconfig] at hignores
        cases hknown : v.known with
        | regular contents =>
          simpa [hknown, SettingsEnv.fileDigest, plainEnv, hne, hconfig] using hignores
        | missing | unreadable | directory =>
          simp [hknown, SettingsEnv.fileDigest, plainEnv, hne] at hignores
      rw [Followed.Unchanged, hsame]
    · exact fun hahead => absurd hahead (hsound.idle hidle)
  have hevent := hwindow.snoc (l := SettingsLabel.fileChanged true) ⟨horderly, rfl⟩
  have hengine : (v.step plainEnv InputSettings.pageSize (.fileChanged true)).engine =
      v.engine.fileChanged plainEnv true := by
    rw [Followed.step_engine]
    exact if_pos hrunning'
  obtain ⟨hpending', hchanged', hruns⟩ := v.engine.fileChanged_idle (E := plainEnv) hrunning' true
  obtain ⟨hfile, hvalue⟩ := (lastWriter_kept plainEnv_lawful hevent).1
    (by rw [hengine]; exact hpending'.trans hidle)
  exact ⟨_, hevent, hfile, hvalue (by rw [hengine]; exact hruns)
    (by rw [hengine]; exact hchanged')⟩

end MsimeLinux
