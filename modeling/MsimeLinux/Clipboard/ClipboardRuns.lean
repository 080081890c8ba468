import MsimeLinux.Clipboard.ClipboardHistory
import MsimeLinux.Lib.Run
import MsimeLinux.Lib.Serial

/-!
# Concurrent calls on one clipboard history

Any number of calls are under way at once; a run is a sequence of their steps.

- `disabledHistory_staysEmpty`: after `set_enabled(false)` the store is empty, and
  stays empty, if no `add` writes once it has been cleared. `add` tests the setting
  before it takes the lock, and such an `add` brings a text back (`lateAdd_keeps`).
- `clipboardUpdates_serializable`: updates take effect one after the other, if what
  `remove` has read is still there when it writes. It does not hold the lock in
  between, and an `add` in that gap is lost (`lostAdd`).
-/

namespace MsimeLinux

open Lib

variable {ι : Type} {E : ClipboardEnv} {calls : ι → ClipboardCall}

/-! ## Accesses -/

theorem stored_good (file : Option Bytes) : GoodItems (E.stored file) := by
  cases file with
  | none => exact ⟨by simp [ClipboardEnv.stored], Nat.zero_le _⟩
  | some payload => exact parseItems_good payload

/-- A failed write leaves the store as it was. -/
theorem writeFile_failed {io : ClipboardIo} {file : Option Bytes} {payload : Bytes}
    (h : (E.writeFile io file payload).2 = false) : (E.writeFile io file payload).1 = file := by
  unfold ClipboardEnv.writeFile at h ⊢
  split
  · next hwrites =>
    rw [if_pos hwrites] at h
    cases h
  · rfl

/-- A successful write leaves what was written. -/
theorem writeFile_ok {io : ClipboardIo} {file : Option Bytes} {payload : Bytes}
    (h : (E.writeFile io file payload).2 = true) :
    E.directory = true ∧ (E.writeFile io file payload).1 = some payload := by
  unfold ClipboardEnv.writeFile at h ⊢
  split
  · next hwrites =>
    simp only [Bool.and_eq_true] at hwrites
    exact ⟨hwrites.1, rfl⟩
  · next hno =>
    rw [if_neg hno] at h
    cases h

/-- A clear that returns true has emptied the store, unless the system could not
tell whether there was one. -/
theorem clearItems_ok (hJ : E.json.ReadsStrings) {io : ClipboardIo} {file : Option Bytes}
    (hfound : io.found = true ∨ file = none) (h : (E.clearItems io file).2 = true) :
    E.directory = true ∧ E.stored (E.clearItems io file).1 = [] := by
  unfold ClipboardEnv.clearItems at h ⊢
  split
  · next hno =>
    rw [if_pos hno] at h
    cases h
  next hdirectory =>
  rw [if_neg hdirectory] at h
  have hdir : E.directory = true := by simpa using hdirectory
  split
  · next hmissing =>
    refine ⟨hdir, ?_⟩
    have hnone : file = none := by
      rcases hmissing with hnone | hnotFound
      · exact hnone
      · exact hfound.resolve_left (by simp [hnotFound])
    rw [hnone]
    rfl
  · next hthere =>
    rw [if_neg hthere] at h
    rw [(writeFile_ok h).2]
    exact ⟨hdir, parseItems_empty hJ⟩

theorem clearItems_failed {io : ClipboardIo} {file : Option Bytes}
    (h : (E.clearItems io file).2 = false) : (E.clearItems io file).1 = file := by
  unfold ClipboardEnv.clearItems at h ⊢
  split
  · rfl
  next hdirectory =>
  rw [if_neg hdirectory] at h
  split
  · rfl
  · next hthere =>
    rw [if_neg hthere] at h
    exact writeFile_failed h

/-- The flag a save leaves is the one that was saved. -/
theorem enabled_save (hE : E.settings.Lawful) {io : WriteOutcome} {settings : InputSettings}
    {disk : Disk} (h : (E.settings.save io settings disk).error = none) :
    E.enabled (E.settings.save io settings disk).disk = settings.clipboardHistoryEnabled := by
  unfold ClipboardEnv.enabled
  rw [(SettingsEnv.save_ok h).load_eq hE]
  rfl

/-! ## Turning the history off -/

section Disable

variable [DecidableEq ι] {d : ι}

/-- `set_enabled(false)` has cleared the store and not failed since. -/
def ClipboardPc.hasCleared : ClipboardPc → Bool
  | saving _ | returned true => true
  | waiting | adding _ | removing _ | clearing _ | returned false => false

/-- `add` is about to take the lock. -/
def ClipboardPc.isAdding : ClipboardPc → Bool
  | adding _ => true
  | waiting | removing _ | clearing _ | saving _ | returned _ => false

/-- A step of a call that is not late: no `add` writes once the call `d` has cleared the
store, and the system can tell `d` whether there is a store. -/
def InTime (d : ι) (s : ClipboardState ι) (label : ι × ClipboardIo) : Prop :=
  ((s.pc d).hasCleared = true → (s.pc label.1).isAdding = false) ∧
    (label.1 = d → label.2.found = true ∨ s.file = none)

instance (d : ι) (s : ClipboardState ι) (label : ι × ClipboardIo) :
    Decidable (InTime d s label) :=
  inferInstanceAs (Decidable (_ ∧ _))

/-- The steps in time. -/
def InTimeStep (E : ClipboardEnv) (calls : ι → ClipboardCall) (d : ι) (s : ClipboardState ι)
    (label : ι × ClipboardIo) (s' : ClipboardState ι) : Prop :=
  InTime d s label ∧ s' = clipboardStep E calls s label.1 label.2

/-- Where the calls of a run may stand: one turns the history off, the others add. -/
structure Disabling (E : ClipboardEnv) (calls : ι → ClipboardCall) (d : ι)
    (s : ClipboardState ι) : Prop where
  call : ∀ i, i ≠ d → s.pc i = .waiting ∨ (∃ text, s.pc i = .adding text) ∨
    ∃ result, s.pc i = .returned result
  disable : s.pc d = .waiting ∨ (∃ current, s.pc d = .clearing current) ∨
    (∃ current, s.pc d = .saving current ∧ current.clipboardHistoryEnabled = false) ∨
    ∃ result, s.pc d = .returned result
  cleared : (s.pc d).hasCleared = true → E.stored s.file = []
  off : s.pc d = .returned true → E.enabled s.disk = false
  intent : ∀ current, s.pc d = .clearing current → current.clipboardHistoryEnabled = false

/-- A step of another call: it may write only before the store is cleared. -/
theorem Disabling.other {s s' : ClipboardState ι} {i : ι} {pc : ClipboardPc}
    (hs : Disabling E calls d s) (hi : i ≠ d) (hpc : s'.pc = Function.update s.pc i pc)
    (hshape : pc = .waiting ∨ (∃ text, pc = .adding text) ∨ ∃ result, pc = .returned result)
    (hdisk : s'.disk = s.disk) (hfile : s'.file = s.file ∨ (s.pc d).hasCleared = false) :
    Disabling E calls d s' := by
  have hsame : s'.pc d = s.pc d := by rw [hpc, Function.update_of_ne hi.symm]
  constructor
  · intro j hj
    rw [hpc]
    by_cases hji : j = i
    · rw [hji, Function.update_self]
      exact hshape
    · rw [Function.update_of_ne hji]
      exact hs.call j hj
  · rw [hsame]
    exact hs.disable
  · intro hcleared
    rw [hsame] at hcleared
    rcases hfile with hfile | hnot
    · rw [hfile]
      exact hs.cleared hcleared
    · rw [hcleared] at hnot
      cases hnot
  · intro hreturned
    rw [hdisk]
    exact hs.off (hsame ▸ hreturned)
  · intro current hclearing
    exact hs.intent current (hsame ▸ hclearing)

/-- A step of the call itself. -/
theorem Disabling.self {s s' : ClipboardState ι} {pc : ClipboardPc}
    (hs : Disabling E calls d s) (hpc : s'.pc = Function.update s.pc d pc)
    (hshape : (∃ current, pc = .clearing current ∧ current.clipboardHistoryEnabled = false) ∨
      (∃ current, pc = .saving current ∧ current.clipboardHistoryEnabled = false) ∨
      ∃ result, pc = .returned result)
    (hcleared : pc.hasCleared = true → E.stored s'.file = [])
    (hoff : pc = .returned true → E.enabled s'.disk = false) : Disabling E calls d s' := by
  have hd : s'.pc d = pc := by rw [hpc, Function.update_self]
  constructor
  · intro j hj
    rw [hpc, Function.update_of_ne hj]
    exact hs.call j hj
  · rw [hd]
    rcases hshape with ⟨current, hc, _⟩ | hsaving | hreturned
    · exact .inr (.inl ⟨current, hc⟩)
    · exact .inr (.inr (.inl hsaving))
    · exact .inr (.inr (.inr hreturned))
  · intro h
    exact hcleared (hd ▸ h)
  · intro h
    exact hoff (hd ▸ h)
  · intro current h
    rw [hd] at h
    rcases hshape with ⟨current', hc, hflag⟩ | ⟨current', hc, _⟩ | ⟨result, hc⟩
    · obtain rfl : current' = current := by simpa [hc] using h
      exact hflag
    · simp [hc] at h
    · simp [hc] at h

theorem Disabling.step (hE : E.settings.Lawful) (hJ : E.json.ReadsStrings)
    (hd : calls d = .setEnabled false) (hadds : ∀ i, i ≠ d → ∃ text, calls i = .add text)
    {s s' : ClipboardState ι} {label : ι × ClipboardIo} (hs : Disabling E calls d s)
    (hstep : InTimeStep E calls d s label s') : Disabling E calls d s' := by
  obtain ⟨i, io⟩ := label
  obtain ⟨htime, rfl⟩ := hstep
  show Disabling E calls d (clipboardStep E calls s i io)
  by_cases hi : i = d
  · -- a step of the call that turns the history off
    obtain rfl := hi.symm
    rcases hs.disable with hpc | ⟨current, hpc⟩ | ⟨current, hpc, hflag⟩ | ⟨result, hpc⟩
    · simp only [clipboardStep, hpc, hd]
      exact hs.self rfl (.inl ⟨_, rfl, rfl⟩) (fun h => (by cases h)) fun h => (by cases h)
    · -- the items are cleared before the setting is written
      simp only [clipboardStep, hpc]
      by_cases haccess : (E.clearItems io s.file).2 = true
      · rw [if_pos haccess]
        exact hs.self rfl (.inr (.inl ⟨current, rfl, hs.intent current hpc⟩))
          (fun _ => (clearItems_ok hJ (htime.2 rfl) haccess).2) fun h => (by cases h)
      · rw [if_neg haccess]
        have hfailed : (E.clearItems io s.file).2 = false := Bool.eq_false_iff.mpr haccess
        refine hs.self rfl (.inr (.inr ⟨_, rfl⟩)) ?_ ?_
        · rw [hfailed]
          exact fun h => (by cases h)
        · rw [hfailed]
          exact fun h => (by cases h)
    · simp only [clipboardStep, hpc]
      refine hs.self rfl (.inr (.inr ⟨_, rfl⟩)) (fun _ => ?_) fun hsaved => ?_
      · exact hs.cleared (by rw [hpc]; rfl)
      · have herror : (E.settings.save io.save current s.disk).error = none := by
          simpa using hsaved
        show E.enabled (E.settings.save io.save current s.disk).disk = false
        rw [enabled_save hE herror, hflag]
    · simp only [clipboardStep, hpc]
      exact hs
  · -- a step of an `add`
    obtain ⟨text, hcall⟩ := hadds i hi
    rcases hs.call i hi with hpc | ⟨text', hpc⟩ | ⟨result, hpc⟩
    · simp only [clipboardStep, hpc, hcall]
      split
      · exact hs.other hi rfl (.inr (.inr ⟨_, rfl⟩)) rfl (.inl rfl)
      · exact hs.other hi rfl (.inr (.inl ⟨_, rfl⟩)) rfl (.inl rfl)
    · simp only [clipboardStep, hpc]
      -- an `add` that has passed its test is over before the items are cleared
      have hnot : (s.pc d).hasCleared = false := by
        rw [Bool.eq_false_iff]
        intro hcleared
        have hadding := htime.1 hcleared
        rw [hpc] at hadding
        cases hadding
      exact hs.other hi rfl (.inr (.inr ⟨_, rfl⟩)) rfl (.inr hnot)
    · simp only [clipboardStep, hpc]
      exact hs

/-- **Turning the history off empties it, if no `add` is late.** In every run of one
`set_enabled(false)` and any number of `add` whose steps are all in time: once
`set_enabled(false)` has returned true, the store is empty and the history is off,
whatever is still under way, and an `add` that begins now is refused. -/
theorem disabledHistory_staysEmpty (hE : E.settings.Lawful) (hJ : E.json.ReadsStrings)
    (hd : calls d = .setEnabled false) (hadds : ∀ i, i ≠ d → ∃ text, calls i = .add text)
    {file : Option Bytes} {disk : Disk} {labels : List (ι × ClipboardIo)}
    {s : ClipboardState ι} (hrun : Run (InTimeStep E calls d) (.initial file disk) labels s)
    (hreturned : s.pc d = .returned true) :
    E.stored s.file = [] ∧ E.enabled s.disk = false ∧
      ∀ i io, i ≠ d → s.pc i = .waiting →
        (clipboardStep E calls s i io).pc i = .returned false := by
  have hs : Disabling E calls d s := by
    refine hrun.invariant (I := Disabling E calls d) ?_ ?_
    · intro s label s' hs hstep
      exact hs.step hE hJ hd hadds hstep
    · exact ⟨fun _ _ => .inl rfl, .inl rfl, fun h => (by cases h), fun h => (by cases h),
        fun _ h => (by cases h)⟩
  have hoff := hs.off hreturned
  refine ⟨hs.cleared (by rw [hreturned]; rfl), hoff, ?_⟩
  intro i io hi hwaiting
  obtain ⟨text, hcall⟩ := hadds i hi
  simp only [clipboardStep, hwaiting, hcall, hoff, or_true, if_true]
  exact Function.update_self ..

/-- A history that is on, in working order. -/
def sampleClipboard : ClipboardEnv := ⟨stringsJson, plainEnv, true⟩
def historyOn : Disk := { config := .regular (ascii "[utility]\nclipboard-history=true\n") }

def lateCalls : Bool → ClipboardCall
  | true => .setEnabled false
  | false => .add (ascii "secret")

/-- An `add` tests the setting, the history is turned off, and then the `add` takes
the lock: both return true, and the text is in the store. -/
theorem lateAdd_keeps :
    let s := clipboardRun sampleClipboard lateCalls (.initial none historyOn)
      [(false, {}), (true, {}), (true, {}), (true, {}), (false, {})]
    (s.pc true).result = some true ∧ (s.pc false).result = some true ∧
      sampleClipboard.stored s.file = [ascii "secret"] := by
  decide +kernel

/-- The same calls in time: the store ends up empty. -/
theorem disabledHistory_staysEmpty_inTime :
    sampleClipboard.stored (clipboardRun sampleClipboard lateCalls (.initial none historyOn)
      [(false, {}), (false, {}), (true, {}), (true, {}), (true, {})]).file = [] := by
  have hadds : ∀ i, i ≠ true → ∃ text, lateCalls i = .add text := by
    intro i hi
    cases i with
    | true => exact absurd rfl hi
    | false => exact ⟨_, rfl⟩
  have hguarded : Guarded (fun s l => clipboardStep sampleClipboard lateCalls s l.1 l.2)
      (InTime true) (.initial none historyOn)
      [(false, {}), (false, {}), (true, {}), (true, {}), (true, {})] := by
    decide +kernel
  have hd : lateCalls true = .setEnabled false := rfl
  refine (disabledHistory_staysEmpty plainEnv_lawful stringsJson_reads hd hadds hguarded.run
    (ClipboardPc.result_eq_some.mp ?_)).1
  decide +kernel

end Disable

/-! ## Updates -/

/-- What a call makes of the list, on its own. -/
def ClipboardCall.effect : ClipboardCall → List Bytes → List Bytes
  | add text, items =>
    let text := normalize text
    if text = [] ∨ items.head? = some text then items
    else (text :: items.filter (· ≠ text)).take maxItems
  | remove text, items => if text = [] then items else items.filter (· ≠ text)
  | clear, _ => []
  | setEnabled _, items => items

/-- A call that updates the list. -/
def ClipboardCall.updates : ClipboardCall → Bool
  | add _ | remove _ | clear => true
  | setEnabled _ => false

section Update

variable {s s' : ClipboardState ι} {i : ι} {io : ClipboardIo}

/-- The items of an `add` can be written and read again. -/
theorem addItems_good {items : List Bytes} {text : Bytes} (hitems : GoodItems items)
    (htext : validItem text = true) :
    GoodItems ((text :: items.filter (· ≠ text)).take maxItems) := by
  constructor
  · intro t ht
    rcases List.mem_cons.mp (List.mem_of_mem_take ht) with rfl | ht
    · exact htext
    · exact hitems.1 t (List.mem_filter.mp ht).1
  · rw [List.length_take]
    exact Nat.min_le_left ..

theorem filter_good {items : List Bytes} {text : Bytes} (hitems : GoodItems items) :
    GoodItems (items.filter (· ≠ text)) :=
  ⟨fun t ht => hitems.1 t (List.mem_filter.mp ht).1,
    (List.length_filter_le _ _).trans hitems.2⟩

/-- A good list that was written is the one that is stored. -/
theorem stored_writeFile (hJ : E.json.ReadsStrings) {file : Option Bytes} {items : List Bytes}
    (hgood : GoodItems items)
    (h : (E.writeFile io file (serializeItems E.json items)).2 = true) :
    E.directory = true ∧
      E.stored (E.writeFile io file (serializeItems E.json items)).1 = items := by
  obtain ⟨hdirectory, hwritten⟩ := writeFile_ok h
  rw [hwritten]
  exact ⟨hdirectory, parseItems_serializeItems hJ hgood⟩

theorem readItems_eq {file : Option Bytes} (hreadable : io.readable = true ∨ file = none) :
    E.readItems io file = E.stored file := by
  unfold ClipboardEnv.readItems
  rcases hreadable with hreadable | rfl
  · rw [if_pos hreadable]
  · rw [show E.stored none = [] from rfl, ite_self]

/-- What an access of call `i` to the store may be: it has the effect of the call, or
fails and has none. -/
structure Access (E : ClipboardEnv) (calls : ι → ClipboardCall) (i : ι) (file : Option Bytes)
    (access : Option Bytes × Bool) : Prop where
  ok : access.2 = true →
    E.directory = true ∧ E.stored access.1 = (calls i).effect (E.stored file)
  failed : access.2 = false → access.1 = file

/-- The locked part of `add`. -/
theorem addItem_access (hJ : E.json.ReadsStrings) {file : Option Bytes} {text : Bytes}
    (hcall : calls i = .add text) (hreadable : io.readable = true ∨ file = none)
    (htext : normalize text ≠ []) :
    Access E calls i file (E.addItem io file (normalize text)) := by
  have hread : E.readItems io file = E.stored file := readItems_eq hreadable
  unfold ClipboardEnv.addItem
  rw [hread]
  dsimp only
  by_cases hfront : (E.stored file).head? = some (normalize text)
  · rw [if_pos hfront]
    exact ⟨fun h => (by cases h), fun _ => rfl⟩
  · rw [if_neg hfront]
    refine ⟨fun h => ?_, writeFile_failed⟩
    rw [hcall, ClipboardCall.effect, if_neg (by simp [htext, hfront])]
    exact stored_writeFile hJ (addItems_good (stored_good file) (normalize_valid htext)) h

/-! ## Steps that nothing disturbs -/

variable [DecidableEq ι]

/-- A step that nothing disturbs: the store can be read if there is one, and `remove`
writes the list it would make of the store now. -/
def Undisturbed (E : ClipboardEnv) (calls : ι → ClipboardCall) (s : ClipboardState ι)
    (label : ι × ClipboardIo) : Prop :=
  (label.2.readable = true ∧ label.2.found = true ∨ s.file = none) ∧
    match s.pc label.1 with
    | .removing items => items = (calls label.1).effect (E.stored s.file)
    | _ => True

instance (s : ClipboardState ι) (label : ι × ClipboardIo) :
    Decidable (Undisturbed E calls s label) := by
  unfold Undisturbed
  split <;> infer_instance

def UndisturbedStep (E : ClipboardEnv) (calls : ι → ClipboardCall) (s : ClipboardState ι)
    (label : ι × ClipboardIo) (s' : ClipboardState ι) : Prop :=
  Undisturbed E calls s label ∧ s' = clipboardStep E calls s label.1 label.2

/-- Where an update may stand. -/
inductive Stands (calls : ι → ClipboardCall) (i : ι) : ClipboardPc → Prop
  | waiting : Stands calls i .waiting
  | adding (text : Bytes) : calls i = .add text → Stands calls i (.adding (normalize text))
  | removing (text : Bytes) (items : List Bytes) : calls i = .remove text →
      Stands calls i (.removing items)
  | returned (result : Bool) : Stands calls i (.returned result)

/-- The state of a run of updates: those that returned true have taken effect, one
after the other. -/
structure Updated (E : ClipboardEnv) (calls : ι → ClipboardCall) (file : Option Bytes)
    (disk : Disk) (s : ClipboardState ι) : Prop where
  config : s.disk = disk
  stands : ∀ i, Stands calls i (s.pc i)
  /-- an `add` that went on had a text, and the history was on -/
  add : ∀ i text, calls i = .add text → s.pc i = .adding (normalize text) ∨
    s.pc i = .returned true → normalize text ≠ [] ∧ E.enabled disk = true
  directory : ∀ i, s.pc i = .returned true → E.directory = true
  serial : Serial (fun i => (calls i).effect) (E.stored file)
    (fun i => s.pc i = .returned true) (E.stored s.file)

/-- A call from its beginning to its end, with nothing in between; two steps are
enough for an update. -/
def runAlone (E : ClipboardEnv) (calls : ι → ClipboardCall) (i : ι) (s : ClipboardState ι) :
    ClipboardState ι :=
  clipboardRun E calls s [(i, {}), (i, {})]

variable {file : Option Bytes} {disk : Disk}

/-- A call goes on without an effect. -/
theorem Updated.move {pc : ClipboardPc} (hs : Updated E calls file disk s)
    (hrunning : s.pc i ≠ .returned true) (hpc : pc ≠ .returned true) (hstands : Stands calls i pc)
    (hadd : ∀ text, calls i = .add text → pc = .adding (normalize text) →
      normalize text ≠ [] ∧ E.enabled disk = true) :
    Updated E calls file disk (s.at i pc) := by
  have hsame : ∀ j, (s.at i pc).pc j = if j = i then pc else s.pc j :=
    fun j => Function.update_apply ..
  refine ⟨hs.config, fun j => ?_, fun j text hcall => ?_, fun j => ?_, hs.serial.same fun j => ?_⟩
  · rw [hsame]
    split
    · next hj => exact hj ▸ hstands
    · exact hs.stands j
  · rw [hsame]
    split
    · next hj =>
      rintro (hadding | hreturned)
      · exact hadd text (hj ▸ hcall) hadding
      · exact absurd hreturned hpc
    · exact hs.add j text hcall
  · rw [hsame]
    split
    · exact fun h => absurd h hpc
    · exact hs.directory j
  · rw [hsame]
    split
    · next hj => exact iff_of_false hpc (hj ▸ hrunning)
    · exact Iff.rfl

/-- A call returns after an access to the store. -/
theorem Updated.finish {access : Option Bytes × Bool} (hs : Updated E calls file disk s)
    (hrunning : s.pc i ≠ .returned true) (haccess : Access E calls i s.file access)
    (hadd : ∀ text, calls i = .add text → normalize text ≠ [] ∧ E.enabled disk = true) :
    Updated E calls file disk (s.finish i access) := by
  obtain ⟨left, result⟩ := access
  cases result with
  | false =>
    obtain rfl : left = s.file := haccess.failed rfl
    exact hs.move hrunning (by simp) (.returned false) fun text _ h => (by cases h)
  | true =>
    obtain ⟨hdirectory, hstored⟩ := haccess.ok rfl
    have hsame : ∀ j, (s.finish i (left, true)).pc j =
        if j = i then .returned true else s.pc j := fun j => Function.update_apply ..
    refine ⟨hs.config, fun j => ?_, fun j text hcall => ?_, fun _ _ => hdirectory, ?_⟩
    · rw [hsame]
      split
      · exact .returned true
      · exact hs.stands j
    · rw [hsame]
      split
      · next hj => exact fun _ => hadd text (hj ▸ hcall)
      · exact hs.add j text hcall
    · show Serial _ _ _ (E.stored left)
      rw [show E.stored left = _ from hstored]
      refine hs.serial.commit hrunning fun j => ?_
      rw [hsame]
      split
      · next hj => simp [hj]
      · next hj => simp [hj]

theorem Updated.step (hJ : E.json.ReadsStrings) (hcalls : ∀ i, (calls i).updates = true)
    {label : ι × ClipboardIo} (hs : Updated E calls file disk s)
    (hstep : UndisturbedStep E calls s label s') : Updated E calls file disk s' := by
  obtain ⟨i, io⟩ := label
  obtain ⟨⟨hio, hpc⟩, rfl⟩ := hstep
  have hreadable : io.readable = true ∨ s.file = none := hio.imp_left And.left
  have hfound : io.found = true ∨ s.file = none := hio.imp_left And.right
  have hupdates := hcalls i
  show Updated E calls file disk (clipboardStep E calls s i io)
  dsimp only at hpc
  cases hstands : s.pc i with
  | waiting =>
    -- the call begins: it returns at once, takes effect at once, or has the store to write still
    have hrunning : s.pc i ≠ .returned true := by simp [hstands]
    cases hcall : calls i with
    | add text =>
      simp only [clipboardStep, hstands, hcall]
      split
      · exact hs.move hrunning (by simp) (.returned false) fun _ _ h => (by cases h)
      · next hgo =>
        -- the test of the source, on the setting as it was at the start of the run
        refine hs.move hrunning (by simp) (.adding text hcall) fun text' hcall' _ => ?_
        obtain rfl : text = text' := by simpa [hcall] using hcall'
        rw [hs.config] at hgo
        exact ⟨fun h => hgo (.inl h), by simpa using fun h => hgo (.inr h)⟩
    | remove text =>
      simp only [clipboardStep, hstands, hcall]
      split
      · exact hs.move hrunning (by simp) (.returned false) fun _ h _ => (by simp [hcall] at h)
      · split
        · exact hs.move hrunning (by simp) (.returned false) fun _ h _ => (by simp [hcall] at h)
        · exact hs.move hrunning (by simp) (.removing text _ hcall)
            fun _ h _ => (by simp [hcall] at h)
    | clear =>
      simp only [clipboardStep, hstands, hcall]
      refine hs.finish hrunning ⟨fun h => ?_, clearItems_failed⟩ fun _ h => (by simp [hcall] at h)
      rw [hcall]
      exact clearItems_ok hJ hfound h
    | setEnabled value => simp [hcall, ClipboardCall.updates] at hupdates
  | adding text =>
    -- the second step of `add`, which reads the store and replaces it
    have hrunning : s.pc i ≠ .returned true := by simp [hstands]
    have hstand := hs.stands i
    rw [hstands] at hstand
    cases hstand with
    | adding text hcall =>
      have hadd := hs.add i text hcall (.inl hstands)
      simp only [clipboardStep, hstands]
      refine hs.finish hrunning (addItem_access hJ hcall hreadable hadd.1) fun text' hcall' => ?_
      obtain rfl : text = text' := by simpa [hcall] using hcall'
      exact hadd
  | removing items =>
    have hrunning : s.pc i ≠ .returned true := by simp [hstands]
    have hstand := hs.stands i
    rw [hstands] at hstand hpc
    cases hstand with
    | removing text _ hcall =>
      simp only [clipboardStep, hstands]
      -- nobody has written since: what is written back is the effect of the call
      have hgood : GoodItems items := by
        rw [show items = _ from hpc, hcall, ClipboardCall.effect]
        split
        · exact stored_good s.file
        · exact filter_good (stored_good s.file)
      refine hs.finish hrunning ⟨fun h => ?_, writeFile_failed⟩ fun _ h => (by simp [hcall] at h)
      rw [← show items = _ from hpc]
      exact stored_writeFile hJ hgood h
  | clearing current =>
    -- only `setEnabled` comes here, and the calls are updates
    have hstand := hs.stands i
    rw [hstands] at hstand
    cases hstand
  | saving current =>
    have hstand := hs.stands i
    rw [hstands] at hstand
    cases hstand
  | returned result =>
    simp only [clipboardStep, hstands]
    exact hs

/-! ## One after the other -/

/-- The calls of a list, one after the other. -/
def runSequentially (E : ClipboardEnv) (calls : ι → ClipboardCall) (order : List ι)
    (s : ClipboardState ι) : ClipboardState ι :=
  order.foldl (fun s i => runAlone E calls i s) s

/-- What a call leaves when it ran alone: its effect, and nothing else. -/
structure Alone (E : ClipboardEnv) (calls : ι → ClipboardCall) (i : ι)
    (s s' : ClipboardState ι) : Prop where
  stored : E.stored s'.file = (calls i).effect (E.stored s.file)
  disk : s'.disk = s.disk
  others : ∀ j, j ≠ i → s'.pc j = s.pc j

/-- The second step of a call that has returned is none. -/
theorem Alone.returned (hfirst : ∃ result, (clipboardStep E calls s i {}).pc i = .returned result)
    (h : Alone E calls i s (clipboardStep E calls s i {})) :
    Alone E calls i s (runAlone E calls i s) := by
  obtain ⟨result, hfirst⟩ := hfirst
  have hsecond : runAlone E calls i s = clipboardStep E calls s i {} := by
    show clipboardStep E calls (clipboardStep E calls s i {}) i {} = _
    rw [clipboardStep, hfirst]
  rw [hsecond]
  exact h

/-- An access that took effect. -/
theorem Alone.finish {s₁ : ClipboardState ι} {access : Option Bytes × Bool}
    (hstored : E.stored access.1 = (calls i).effect (E.stored s.file)) (hdisk : s₁.disk = s.disk)
    (hothers : ∀ j, j ≠ i → s₁.pc j = s.pc j) : Alone E calls i s (s₁.finish i access) where
  stored := hstored
  disk := hdisk
  others j hj := (ClipboardState.at_pc_of_ne _ hj _).trans (hothers j hj)

theorem runAlone_alone (hJ : E.json.ReadsStrings) (hdirectory : E.directory = true)
    (hupdates : (calls i).updates = true) (hwaiting : s.pc i = .waiting)
    (hadd : ∀ text, calls i = .add text → normalize text ≠ [] ∧ E.enabled s.disk = true) :
    Alone E calls i s (runAlone E calls i s) := by
  have hwrite : ∀ payload, E.writeFile {} s.file payload = (some payload, true) := fun payload => by
    rw [ClipboardEnv.writeFile, if_pos (by simp [hdirectory])]
  have hread : E.readItems {} s.file = E.stored s.file := readItems_eq (.inl rfl)
  have hgood := stored_good (E := E) s.file
  have hunchanged : ∀ pc, (calls i).effect (E.stored s.file) = E.stored s.file →
      Alone E calls i s (s.at i pc) :=
    fun pc h => ⟨h.symm, rfl, fun j hj => s.at_pc_of_ne hj pc⟩
  cases hcall : calls i with
  | add text =>
    obtain ⟨htext, henabled⟩ := hadd text hcall
    have hfirst : clipboardStep E calls s i {} = s.at i (.adding (normalize text)) := by
      simp [clipboardStep, hwaiting, hcall, htext, henabled]
    show Alone E calls i s (clipboardStep E calls (clipboardStep E calls s i {}) i {})
    rw [hfirst]
    simp only [clipboardStep, ClipboardState.at_pc]
    refine .finish ?_ rfl fun j hj => s.at_pc_of_ne hj _
    show E.stored (E.addItem {} s.file (normalize text)).1 = _
    rw [hcall, ClipboardCall.effect, ClipboardEnv.addItem, hread]
    dsimp only
    -- the text that is first already is not written again
    by_cases hfront : (E.stored s.file).head? = some (normalize text)
    · rw [if_pos hfront, if_pos (.inr hfront)]
    · rw [if_neg hfront, if_neg (by simp [htext, hfront]), hwrite]
      exact parseItems_serializeItems hJ (addItems_good hgood (normalize_valid htext))
  | remove text =>
    by_cases hempty : text = []
    · have hfirst : clipboardStep E calls s i {} = s.at i (.returned false) := by
        simp [clipboardStep, hwaiting, hcall, hempty]
      refine .returned ⟨false, by rw [hfirst, ClipboardState.at_pc]⟩ ?_
      rw [hfirst]
      exact hunchanged _ (by rw [hcall, ClipboardCall.effect, if_pos hempty])
    have heffect : (calls i).effect (E.stored s.file) = (E.stored s.file).filter (· ≠ text) := by
      rw [hcall, ClipboardCall.effect, if_neg hempty]
    -- the text is not there, and the store is not written
    by_cases hlength : ((E.stored s.file).filter (· ≠ text)).length = (E.stored s.file).length
    · have hfirst : clipboardStep E calls s i {} = s.at i (.returned false) := by
        simp only [clipboardStep, hwaiting, hcall, if_neg hempty, hread]
        exact if_pos hlength
      refine .returned ⟨false, by rw [hfirst, ClipboardState.at_pc]⟩ ?_
      rw [hfirst]
      exact hunchanged _ (heffect.trans (List.filter_sublist.eq_of_length hlength))
    · have hfirst : clipboardStep E calls s i {} =
          s.at i (.removing ((E.stored s.file).filter (· ≠ text))) := by
        simp only [clipboardStep, hwaiting, hcall, if_neg hempty, hread]
        exact if_neg hlength
      show Alone E calls i s (clipboardStep E calls (clipboardStep E calls s i {}) i {})
      rw [hfirst]
      simp only [clipboardStep, ClipboardState.at_pc]
      refine .finish ?_ rfl fun j hj => s.at_pc_of_ne hj _
      show E.stored (E.writeFile {} s.file _).1 = _
      rw [hwrite, heffect]
      exact parseItems_serializeItems hJ (filter_good hgood)
  | clear =>
    have hfirst : clipboardStep E calls s i {} = s.finish i (E.clearItems {} s.file) := by
      simp only [clipboardStep, hwaiting, hcall]
    refine .returned ⟨_, by rw [hfirst]; exact ClipboardState.at_pc ..⟩ ?_
    rw [hfirst]
    refine .finish ?_ rfl fun _ _ => rfl
    have hok : (E.clearItems {} s.file).2 = true := by
      unfold ClipboardEnv.clearItems
      rw [if_neg (by simp [hdirectory])]
      split
      · rfl
      · rw [hwrite]
    rw [hcall]
    exact (clearItems_ok hJ (.inl rfl) hok).2
  | setEnabled value => simp [hcall, ClipboardCall.updates] at hupdates

/-- The calls of a list, one after the other, have their effects in that order. -/
theorem runSequentially_stored (hJ : E.json.ReadsStrings) (hdirectory : E.directory = true)
    (hupdates : ∀ i, (calls i).updates = true) {order : List ι} (hnodup : order.Nodup)
    (hwaiting : ∀ i ∈ order, s.pc i = .waiting)
    (hadd : ∀ i ∈ order, ∀ text, calls i = .add text →
      normalize text ≠ [] ∧ E.enabled s.disk = true) :
    E.stored (runSequentially E calls order s).file =
      runSerial (fun i => (calls i).effect) order (E.stored s.file) := by
  induction order generalizing s with
  | nil => rfl
  | cons i order ih =>
    have hfirst := runAlone_alone hJ hdirectory (hupdates i) (hwaiting i List.mem_cons_self)
      (hadd i List.mem_cons_self)
    have hother : ∀ j ∈ order, j ≠ i := by
      intro j hj hji
      exact (List.nodup_cons.mp hnodup).1 (hji ▸ hj)
    show E.stored (runSequentially E calls order (runAlone E calls i s)).file =
      runSerial _ order ((calls i).effect (E.stored s.file))
    rw [← hfirst.stored]
    refine ih (List.nodup_cons.mp hnodup).2 (fun j hj => ?_) fun j hj => ?_
    · rw [hfirst.others j (hother j hj)]
      exact hwaiting j (List.mem_cons_of_mem _ hj)
    · rw [hfirst.disk]
      exact hadd j (List.mem_cons_of_mem _ hj)

/-- **Updates are serializable, if nothing disturbs a `remove`.** Any number of `add`,
`remove` and `clear` are under way, `threads` lists them, and in every step the store
can be read and a `remove` writes what it would make of the store now. If all of them
return true, the list that is stored in the end is the one they leave when they run one
after the other, in some order. -/
theorem clipboardUpdates_serializable (hJ : E.json.ReadsStrings)
    (hupdates : ∀ i, (calls i).updates = true) {threads : List ι} (hnodup : threads.Nodup)
    (hall : ∀ i, i ∈ threads) {labels : List (ι × ClipboardIo)}
    (hrun : Run (UndisturbedStep E calls) (.initial file disk) labels s)
    (hreturned : ∀ i, s.pc i = .returned true) :
    ∃ order : List ι, order.Perm threads ∧
      E.stored s.file = E.stored (runSequentially E calls order (.initial file disk)).file := by
  have hs : Updated E calls file disk s := by
    refine hrun.invariant (I := Updated E calls file disk) ?_ ?_
    · intro s label s' hs hstep
      exact hs.step hJ hupdates hstep
    · refine ⟨rfl, fun _ => .waiting, fun i text _ h => ?_, fun i h => (by cases h),
        .none fun i h => (by cases h)⟩
      rcases h with h | h <;> cases h
  obtain ⟨order, hperm, hvalue⟩ := hs.serial.perm hnodup fun i =>
    iff_of_true (hreturned i) (hall i)
  refine ⟨order, hperm, hvalue.trans ?_⟩
  cases order with
  | nil => rfl
  | cons i order =>
    have hsequential := runSequentially_stored (s := .initial file disk) hJ
      (hs.directory i (hreturned i)) hupdates (hperm.nodup_iff.mpr hnodup) (fun _ _ => rfl)
      fun j _ text hcall => hs.add j text hcall (.inr (hreturned j))
    exact hsequential.symm

/-! ## A disturbed removal -/

def lostCalls : Bool → ClipboardCall
  | true => .remove (ascii "a")
  | false => .add (ascii "b")

/-- A store with one text. -/
def oneText : Option Bytes := some (serializeItems stringsJson [ascii "a"])

/-- A `remove` reads the list, an `add` puts a text in front, and then the `remove`
writes what it had read: both return true and the added text is lost, which it is in
neither order of the two calls. -/
theorem lostAdd :
    let s := clipboardRun sampleClipboard lostCalls (.initial oneText historyOn)
      [(true, {}), (false, {}), (false, {}), (true, {})]
    ((s.pc true).result = some true ∧ (s.pc false).result = some true ∧
      sampleClipboard.stored s.file = []) ∧
    ∀ order ∈ [[true, false], [false, true]],
      sampleClipboard.stored (runSequentially sampleClipboard lostCalls order
        (.initial oneText historyOn)).file = [ascii "b"] := by
  decide +kernel

/-- The same calls, undisturbed. -/
theorem clipboardUpdates_serializable_twoCalls :
    ∃ order : List Bool, order.Perm [true, false] ∧
      sampleClipboard.stored (clipboardRun sampleClipboard lostCalls (.initial oneText historyOn)
        [(false, {}), (true, {}), (true, {}), (false, {})]).file =
      sampleClipboard.stored (runSequentially sampleClipboard lostCalls order
        (.initial oneText historyOn)).file := by
  have hupdates : ∀ i, (lostCalls i).updates = true := by decide
  have hguarded : Guarded (fun s l => clipboardStep sampleClipboard lostCalls s l.1 l.2)
      (Undisturbed sampleClipboard lostCalls) (.initial oneText historyOn)
      [(false, {}), (true, {}), (true, {}), (false, {})] := by
    decide +kernel
  refine clipboardUpdates_serializable stringsJson_reads hupdates (by decide) (by decide)
    hguarded.run fun i => ClipboardPc.result_eq_some.mp ?_
  revert i
  decide +kernel

end Update

end MsimeLinux
