import MsimeLinux.Settings.CredentialSave

/-!
# Processes that save the settings

Every writer of `config.ini` holds the lock of `ConfigWriteLock` from before it
reads the file until after it has replaced it. A writer here is one call of `save`
or `save_if_unchanged` of any process; the check of the version, the changes of the
secret store, the reading of the file and the rename over it are steps of their
own, and the writers' steps come in any order.

- `WriterState.Inv`: the writes form a chain, and what a `save_if_unchanged` finds
  past its check has the version it expects; `writerRun_inv`;
- `writerStep_moves`: all that a step may do;
- `saveIfUnchanged_compareAndSwap`: so a success replaced exactly the expected
  version, and a reported conflict changed nothing.
-/

namespace MsimeLinux

open Lib

/-! ## The machine -/

/-- A call of a writer. -/
inductive SaveCall where
  | save (settings : InputSettings)
  | saveWithSecrets (settings : InputSettings)
  | saveIfUnchanged (settings : InputSettings) (expected : SettingsFileVersion)

def SaveCall.settings : SaveCall → InputSettings
  | save settings | saveWithSecrets settings | saveIfUnchanged settings _ => settings

/-- Where a call stands. -/
inductive WriterPc where
  /-- at `ConfigWriteLock` -/
  | waiting
  /-- the lock is held, at the check of the version -/
  | locked
  /-- at the changes of the secret store -/
  | planning
  /-- in `save_unlocked`, at the reading of the file -/
  | preserving (made : List (Change SecretSlot Bytes))
  /-- at the replacing of the file it found -/
  | replacing (made : List (Change SecretSlot Bytes)) (found : ConfigFile) (data : Bytes)
  | returned (error : Option String)

/-- The call holds the lock. -/
def WriterPc.isInside : WriterPc → Bool
  | waiting | returned _ => false
  | locked | planning | preserving _ | replacing _ _ _ => true

/-- The file as the writes left it, for the call that holds the lock: it may have put
aside the one it is to replace. -/
def WriterPc.standing (config : ConfigFile) : WriterPc → ConfigFile
  | replacing _ found _ => found
  | waiting | locked | planning | preserving _ | returned _ => config

/-- A file that was put in the place of another. -/
structure SettingsWrite (ι : Type) where
  writer : ι
  found : ConfigFile
  written : ConfigFile

/-- The two stores, the lock file, which everyone locks exclusively, the calls, and
the writes so far. -/
structure WriterState (ι : Type) where
  disk : Disk
  secrets : SecretSlots
  holder : Option ι
  pc : ι → WriterPc
  writes : List (SettingsWrite ι)

variable {ι : Type} [DecidableEq ι]

namespace WriterState

def initial (disk : Disk) (secrets : SecretSlots) : WriterState ι :=
  ⟨disk, secrets, none, fun _ => .waiting, []⟩

/-- The call goes on to `pc`. -/
def goto (s : WriterState ι) (i : ι) (pc : WriterPc) : WriterState ι :=
  { s with pc := Function.update s.pc i pc }

/-- The call returns; its lock is released. -/
def finish (s : WriterState ι) (i : ι) (error : Option String) : WriterState ι :=
  { s with holder := none }.goto i (.returned error)

/-- The rename over the file. -/
def replace (s : WriterState ι) (i : ι) (found : ConfigFile) (data : Bytes) : WriterState ι :=
  { s with
    disk := { s.disk with config := .regular data }
    writes := s.writes ++ [⟨i, found, .regular data⟩] }

/-- `rollback`, and the end of a call whose write failed; the file it found may have
been put aside. -/
def abandon (s : WriterState ι) (i : ι) (service : SecretOutcome)
    (made : List (Change SecretSlot Bytes)) (found : ConfigFile) (message : String) :
    WriterState ι :=
  let (secrets, restored) := undoChanges service.restored made s.secrets
  let writes := if s.disk.config = found then s.writes
    else s.writes ++ [⟨i, found, s.disk.config⟩]
  { s with secrets, writes }.finish i (some (if restored then message else rollbackFailed))

/-- The file as the writes left it. -/
def standing (s : WriterState ι) : ConfigFile :=
  match s.holder with
  | some i => (s.pc i).standing s.disk.config
  | none => s.disk.config

end WriterState

/-- What the system and the secret service do in a step. -/
structure WriterIo where
  io : WriteOutcome := {}
  service : SecretOutcome := {}

/-- The next step of a call. One that finds the lock taken waits. -/
def writerStep (E : SettingsEnv) (calls : ι → SaveCall) (s : WriterState ι) (i : ι)
    (io : WriterIo) : WriterState ι :=
  match s.pc i with
  | .waiting =>
    if !validInputSettings E.supportedHelpcodeSchema (calls i).settings then
      s.goto i (.returned (some "Input settings were outside the supported range."))
    else if !io.io.lock then s.goto i (.returned (some "Unable to lock input settings."))
    else if s.holder = none then { s with holder := some i }.goto i .locked
    else s
  | .locked =>
    match calls i with
    | .saveIfUnchanged _ expected =>
      if E.version s.disk.config = some expected then s.goto i .planning
      else s.finish i (some versionConflict)
    | .save _ | .saveWithSecrets _ => s.goto i .planning
  | .planning =>
    match calls i with
    | .save _ => s.goto i (.preserving [])
    | .saveWithSecrets settings | .saveIfUnchanged settings _ =>
      match fileSecrets io.service s.secrets (E.load s.disk.config).1 settings with
      | (.error message, secrets) => { s with secrets }.finish i (some message)
      | (.ok made, secrets) => { s with secrets }.goto i (.preserving made)
  | .preserving made =>
    if !io.io.directory then
      s.abandon i io.service made s.disk.config "Unable to create the input settings directory."
    else match E.preserved io.io s.disk with
      | none =>
        s.abandon i io.service made s.disk.config "Unable to preserve the existing input settings."
      | some (file, disk) =>
        match E.keyFiles.toData (E.settingsFile (calls i).settings file) with
        | none =>
          { s with disk }.abandon i io.service made s.disk.config
            "Unable to serialize input settings."
        | some data => { s with disk }.goto i (.replacing made s.disk.config data)
  | .replacing made found data =>
    if !io.io.temporary then
      s.abandon i io.service made found "Unable to create an atomic input settings file."
    else if !(io.io.write && io.io.replace) then
      s.abandon i io.service made found "Unable to atomically replace input settings."
    else (s.replace i found data).finish i none
  | .returned _ => s

/-- The steps of a schedule. -/
def writerRun (E : SettingsEnv) (calls : ι → SaveCall) (s : WriterState ι)
    (labels : List (ι × WriterIo)) : WriterState ι :=
  labels.foldl (fun s label => writerStep E calls s label.1 label.2) s

/-- What a call does by itself, once it has the lock and the version it expects. -/
def SaveCall.performUnlocked (E : SettingsEnv) (call : SaveCall) (io : WriterIo) (disk : Disk)
    (secrets : SecretSlots) : SecretSaveResult :=
  match call with
  | .save settings =>
    let saved := E.saveUnlocked io.io settings disk
    ⟨saved.disk, secrets, saved.error, saved.digest⟩
  | .saveWithSecrets settings | .saveIfUnchanged settings _ =>
    E.saveWithSecretsUnlocked io.io io.service settings disk secrets

/-- What a call does by itself. -/
def SaveCall.perform (E : SettingsEnv) (call : SaveCall) (io : WriterIo) (disk : Disk)
    (secrets : SecretSlots) : SecretSaveResult :=
  match call with
  | .save settings =>
    let saved := E.save io.io settings disk
    ⟨saved.disk, secrets, saved.error, saved.digest⟩
  | .saveWithSecrets settings => E.saveWithSecrets io.io io.service settings disk secrets
  | .saveIfUnchanged settings expected =>
    E.saveIfUnchanged io.io io.service settings expected disk secrets

/-! ## The chain of the writes -/

/-- Every write found what the one before it had left. -/
def Chained : ConfigFile → List (SettingsWrite ι) → ConfigFile → Prop
  | start, [], last => start = last
  | start, w :: writes, last => w.found = start ∧ Chained w.written writes last

omit [DecidableEq ι] in
/-- One more write, computed from the last. -/
theorem Chained.snoc {start last : ConfigFile} {writes : List (SettingsWrite ι)}
    (h : Chained start writes last) (writer : ι) (written : ConfigFile) :
    Chained start (writes ++ [⟨writer, last, written⟩]) written := by
  induction writes generalizing start with
  | nil => exact ⟨Eq.symm h, rfl⟩
  | cons w writes ih => exact ⟨h.1, ih h.2⟩

omit [DecidableEq ι] in
/-- A write found what one of those before it had left: the last of them. -/
theorem Chained.found {start last : ConfigFile} {before after : List (SettingsWrite ι)}
    {first later : SettingsWrite ι}
    (h : Chained start (first :: (before ++ later :: after)) last) :
    ∃ w ∈ first :: before, w.written = later.found := by
  induction before generalizing start first with
  | nil => exact ⟨first, List.mem_cons_self, h.2.1.symm⟩
  | cons w before ih =>
    obtain ⟨v, hv, hwritten⟩ := ih h.2
    exact ⟨v, List.mem_cons_of_mem _ hv, hwritten⟩

omit [DecidableEq ι] in
/-- Later writes are chained too. -/
theorem Chained.drop {start last : ConfigFile} {before writes : List (SettingsWrite ι)}
    (h : Chained start (before ++ writes) last) : ∃ start', Chained start' writes last := by
  induction before generalizing start with
  | nil => exact ⟨start, h⟩
  | cons w before ih => exact ih h.2

/-! ## The invariant -/

variable {E : SettingsEnv} {calls : ι → SaveCall} {start : ConfigFile} {s s' : WriterState ι}
  {i j : ι}

/-- What a call knows of the file past the check of its version, and what there is to
show for its success. -/
def WriterState.Checked (E : SettingsEnv) (calls : ι → SaveCall) (s : WriterState ι) (i : ι) :
    Prop :=
  match s.pc i with
  | .waiting | .locked | .returned (some _) => True
  | .planning | .preserving _ => ∀ settings expected,
    calls i = .saveIfUnchanged settings expected → E.version s.disk.config = some expected
  | .replacing _ found _ => ∀ settings expected,
    calls i = .saveIfUnchanged settings expected → E.version found = some expected
  | .returned none => ∃ w ∈ s.writes, w.writer = i ∧ ∃ data, w.written = .regular data

/-- The invariant of the machine. -/
structure WriterState.Inv (E : SettingsEnv) (calls : ι → SaveCall) (start : ConfigFile)
    (s : WriterState ι) : Prop where
  holds : ∀ i, s.holder = some i ↔ (s.pc i).isInside = true
  checked : ∀ i, s.Checked E calls i
  found : ∀ w ∈ s.writes, ∀ settings expected,
    calls w.writer = .saveIfUnchanged settings expected → E.version w.found = some expected
  chain : Chained start s.writes s.standing

omit [DecidableEq ι] in
@[simp] theorem WriterState.initial_disk (disk : Disk) (secrets : SecretSlots) :
    (WriterState.initial disk secrets : WriterState ι).disk = disk := rfl

omit [DecidableEq ι] in
@[simp] theorem WriterState.initial_secrets (disk : Disk) (secrets : SecretSlots) :
    (WriterState.initial disk secrets : WriterState ι).secrets = secrets := rfl

omit [DecidableEq ι] in
/-- At the start nobody holds the lock and nothing is written. -/
theorem WriterState.initial_inv (disk : Disk) (secrets : SecretSlots) :
    (WriterState.initial disk secrets : WriterState ι).Inv E calls disk.config where
  holds _ := ⟨fun h => (by cases h), fun h => (by cases h)⟩
  checked _ := trivial
  found w hw := absurd hw List.not_mem_nil
  chain := rfl

@[simp] theorem WriterState.goto_pc (s : WriterState ι) (i : ι) (pc : WriterPc) :
    (s.goto i pc).pc i = pc := Function.update_self ..

@[simp] theorem WriterState.goto_disk (s : WriterState ι) (i : ι) (pc : WriterPc) :
    (s.goto i pc).disk = s.disk := rfl

@[simp] theorem WriterState.goto_secrets (s : WriterState ι) (i : ι) (pc : WriterPc) :
    (s.goto i pc).secrets = s.secrets := rfl

theorem WriterState.goto_pc_of_ne (s : WriterState ι) (h : j ≠ i) (pc : WriterPc) :
    (s.goto i pc).pc j = s.pc j := Function.update_of_ne h ..

/-- What a step of the call `i` may do to the state: it keeps the others where they
are, and their lock. -/
structure WriterState.Advances (E : SettingsEnv) (calls : ι → SaveCall) (start : ConfigFile)
    (i : ι) (s s' : WriterState ι) : Prop where
  others : ∀ j, j ≠ i → s'.pc j = s.pc j
  -- no other call is inside
  alone : s.holder = none ∨ s.holder = some i
  holder : s'.holder = if (s'.pc i).isInside then some i else none
  writes : s.writes ⊆ s'.writes
  checked : s'.Checked E calls i
  found : ∀ w ∈ s'.writes, ∀ settings expected,
    calls w.writer = .saveIfUnchanged settings expected → E.version w.found = some expected
  chain : Chained start s'.writes s'.standing

/-- A step of one writer keeps the invariant of all. -/
theorem WriterState.Inv.advance (h : s.Inv E calls start)
    (ha : s.Advances E calls start i s') : s'.Inv E calls start where
  holds j := by
    by_cases hj : j = i
    · subst hj
      rw [ha.holder]
      by_cases hinside : (s'.pc j).isInside = true <;> simp [hinside]
    · rw [ha.others j hj, ← h.holds j, ha.holder]
      refine iff_of_false ?_ ?_
      · split <;> simp [Ne.symm hj]
      · rcases ha.alone with hnone | hsome
        · simp [hnone]
        · simp [hsome, Ne.symm hj]
  checked j := by
    by_cases hj : j = i
    · exact hj ▸ ha.checked
    · -- whatever another call knows, it knows without the lock
      have hj' := h.checked j
      have houtside : (s.pc j).isInside = false := by
        by_contra hinside
        have hholder := (h.holds j).mpr (by simpa using hinside)
        rcases ha.alone with hnone | hsome
        · simp [hnone] at hholder
        · exact hj (Option.some.inj (hholder.symm.trans hsome))
      unfold WriterState.Checked at hj' ⊢
      rw [ha.others j hj]
      cases hpc : s.pc j with
      | waiting => trivial
      | locked => simp [hpc, WriterPc.isInside] at houtside
      | planning => simp [hpc, WriterPc.isInside] at houtside
      | preserving _ => simp [hpc, WriterPc.isInside] at houtside
      | replacing _ _ _ => simp [hpc, WriterPc.isInside] at houtside
      | returned error =>
        cases error with
        | some _ => trivial
        | none =>
          rw [hpc] at hj'
          obtain ⟨w, hw, hrest⟩ := hj'
          exact ⟨w, ha.writes hw, hrest⟩
  found := ha.found
  chain := ha.chain

omit [DecidableEq ι] in
/-- A writer inside the lock sees the file as the last write left it. -/
theorem WriterState.Inv.standing_eq (h : s.Inv E calls start)
    (hinside : (s.pc i).isInside = true) : s.standing = (s.pc i).standing s.disk.config := by
  unfold standing
  rw [(h.holds i).mpr hinside]

/-- A step within the locked section. -/
theorem WriterState.Inv.goto (h : s.Inv E calls start) (hinside : (s.pc i).isInside = true)
    {disk : Disk} {secrets : SecretSlots} {pc : WriterPc} (hpc : pc.isInside = true)
    (hstanding : pc.standing disk.config = (s.pc i).standing s.disk.config)
    (hchecked : ({ s with disk, secrets }.goto i pc).Checked E calls i) :
    ({ s with disk, secrets }.goto i pc).Inv E calls start := by
  have hholder := (h.holds i).mpr hinside
  refine h.advance ⟨fun j hj => goto_pc_of_ne _ hj pc, .inr hholder, ?_, fun _ => id, hchecked,
    h.found, ?_⟩
  · rw [goto_pc, if_pos hpc]
    exact hholder
  · have hsame : ({ s with disk, secrets }.goto i pc).standing = s.standing := by
      rw [h.standing_eq hinside, ← hstanding]
      show (match s.holder with
        | some j => (Function.update s.pc i pc j).standing disk.config
        | none => disk.config) = _
      rw [hholder]
      show (Function.update s.pc i pc i).standing disk.config = _
      rw [Function.update_self]
    rw [hsame]
    exact h.chain

/-- The end of the locked section, after the writes `t` has. -/
theorem WriterState.Inv.finish (h : s.Inv E calls start) (hinside : (s.pc i).isInside = true)
    (t : WriterState ι) (hpc : t.pc = s.pc) (hwrites : s.writes ⊆ t.writes)
    (hfound : ∀ w ∈ t.writes, ∀ settings expected,
      calls w.writer = .saveIfUnchanged settings expected → E.version w.found = some expected)
    (hchain : Chained start t.writes t.disk.config) {error : Option String}
    (hsaved : error = none → ∃ w ∈ t.writes, w.writer = i ∧ ∃ data, w.written = .regular data) :
    (t.finish i error).Inv E calls start := by
  have hpc' : (t.finish i error).pc i = .returned error := goto_pc ..
  refine h.advance ⟨fun j hj => ?_, .inr ((h.holds i).mpr hinside), ?_, hwrites, ?_, hfound, hchain⟩
  · rw [← hpc]
    exact goto_pc_of_ne _ hj _
  · rw [hpc']
    rfl
  · unfold Checked
    rw [hpc']
    cases error with
    | some _ => trivial
    | none => exact hsaved rfl

/-- A call that fails and has not replaced the file. -/
theorem WriterState.Inv.fail (h : s.Inv E calls start) (hinside : (s.pc i).isInside = true)
    (hchain : Chained start s.writes s.disk.config) (secrets : SecretSlots) (message : String) :
    ({ s with secrets }.finish i (some message)).Inv E calls start := by
  refine h.finish hinside { s with secrets } rfl (fun _ => id) h.found hchain ?_
  intro herror
  cases herror

/-- The end of a call whose write failed. -/
theorem WriterState.Inv.abandon (h : s.Inv E calls start) (hinside : (s.pc i).isInside = true)
    (disk : Disk) (hversion : ∀ settings expected, calls i = .saveIfUnchanged settings expected →
      E.version ((s.pc i).standing s.disk.config) = some expected)
    (service : SecretOutcome) (made : List (Change SecretSlot Bytes)) (message : String) :
    ({ s with disk }.abandon i service made ((s.pc i).standing s.disk.config) message).Inv
      E calls start := by
  have hchain := h.chain
  rw [h.standing_eq hinside] at hchain
  unfold WriterState.abandon
  -- the file is written or it is not; either way its holder leaves with the secrets put back
  refine h.finish hinside
    { s with
      disk
      secrets := (undoChanges service.restored made s.secrets).1
      writes := if disk.config = (s.pc i).standing s.disk.config then s.writes
        else s.writes ++ [⟨i, (s.pc i).standing s.disk.config, disk.config⟩] } rfl ?_ ?_ ?_ ?_
  · dsimp only
    split
    · exact fun _ => id
    · exact List.subset_append_left ..
  · intro w hw settings expected hcall
    dsimp only at hw
    split at hw
    · exact h.found w hw settings expected hcall
    · rcases List.mem_append.mp hw with hw | hw
      · exact h.found w hw settings expected hcall
      · rw [List.mem_singleton.mp hw] at hcall ⊢
        exact hversion settings expected hcall
  · dsimp only
    split
    · next hsame =>
      rw [hsame]
      exact hchain
    · exact hchain.snoc i disk.config
  · intro herror
    cases herror

/-- A call that returns without the lock. -/
theorem WriterState.Inv.refuse (h : s.Inv E calls start) (hwaiting : s.pc i = .waiting)
    (message : String) : (s.goto i (.returned (some message))).Inv E calls start := by
  -- who waits does not hold the lock
  have hother : s.holder ≠ some i := by
    intro hholder
    have hinside := (h.holds i).mp hholder
    rw [hwaiting] at hinside
    cases hinside
  have hpc : ∀ j, j ≠ i → (s.goto i (.returned (some message))).pc j = s.pc j :=
    fun j hj => goto_pc_of_ne _ hj _
  refine ⟨fun j => ?_, fun j => ?_, h.found, ?_⟩
  · by_cases hj : j = i
    · subst hj
      rw [goto_pc]
      exact iff_of_false hother (by simp [WriterPc.isInside])
    · rw [hpc j hj]
      exact h.holds j
  · by_cases hj : j = i
    · subst hj
      unfold Checked
      rw [goto_pc]
      trivial
    · have hj' := h.checked j
      unfold Checked at hj' ⊢
      rw [hpc j hj]
      exact hj'
  · -- what stands in the file is the holder's affair, which is another writer
    have hsame : (s.goto i (.returned (some message))).standing = s.standing := by
      unfold standing
      show (match s.holder with
        | some j => ((s.goto i (.returned (some message))).pc j).standing s.disk.config
        | none => s.disk.config) = _
      cases hholder : s.holder with
      | none => rfl
      | some j =>
        show ((s.goto i (.returned (some message))).pc j).standing s.disk.config = _
        rw [hpc j (fun hj => hother (hj ▸ hholder))]
    rw [hsame]
    exact h.chain

/-! ## Steps and runs -/

/-- The call asks for the lock. -/
theorem writerStep_waiting (h : s.Inv E calls start) (hpc : s.pc i = .waiting) (io : WriterIo) :
    (writerStep E calls s i io).Inv E calls start := by
  unfold writerStep
  rw [hpc]
  dsimp only
  split
  next hinvalid => exact h.refuse hpc _
  split
  next hlock => exact h.refuse hpc _
  split
  next hfree =>
    -- the lock is granted
    refine h.advance ⟨fun j hj => WriterState.goto_pc_of_ne _ hj _, .inl hfree, ?_, fun _ => id,
      ?_, h.found, ?_⟩
    · rw [WriterState.goto_pc]
      rfl
    · unfold WriterState.Checked
      rw [WriterState.goto_pc]
      trivial
    · have hchain := h.chain
      unfold WriterState.standing at hchain ⊢
      rw [hfree] at hchain
      show Chained start s.writes
        ((Function.update s.pc i .locked i).standing s.disk.config)
      rwa [Function.update_self]
  next hheld => exact h

/-- It compares the version; past the check, a `save_if_unchanged` knows it. -/
theorem writerStep_locked (h : s.Inv E calls start) (hpc : s.pc i = .locked) (io : WriterIo) :
    (writerStep E calls s i io).Inv E calls start := by
  have hinside : (s.pc i).isInside = true := by rw [hpc]; rfl
  have hchain := h.chain
  rw [h.standing_eq hinside, hpc] at hchain
  have hgo : (∀ settings expected, calls i = .saveIfUnchanged settings expected →
      E.version s.disk.config = some expected) → (s.goto i .planning).Inv E calls start := by
    intro hversion
    refine h.goto hinside rfl (by rw [hpc]; rfl) ?_
    unfold WriterState.Checked
    rw [WriterState.goto_pc]
    exact hversion
  unfold writerStep
  rw [hpc]
  dsimp only
  cases hcall : calls i with
  | saveIfUnchanged settings expected =>
    dsimp only
    split
    next hversion =>
      refine hgo fun settings' expected' hcall' => ?_
      rw [hcall] at hcall'
      rw [hversion, (SaveCall.saveIfUnchanged.inj hcall').2]
    next hother => exact h.fail hinside hchain s.secrets _
  | save settings | saveWithSecrets settings =>
    refine hgo fun _ _ hcall' => ?_
    rw [hcall] at hcall'
    cases hcall'

/-- It changes the secret store, or fails to. -/
theorem writerStep_planning (h : s.Inv E calls start) (hpc : s.pc i = .planning)
    (io : WriterIo) : (writerStep E calls s i io).Inv E calls start := by
  have hinside : (s.pc i).isInside = true := by rw [hpc]; rfl
  have hchecked := h.checked i
  unfold WriterState.Checked at hchecked
  rw [hpc] at hchecked
  have hchain := h.chain
  rw [h.standing_eq hinside, hpc] at hchain
  have hgo : ∀ secrets made,
      ({ s with secrets }.goto i (.preserving made)).Inv E calls start := by
    intro secrets made
    refine h.goto hinside rfl (by rw [hpc]; rfl) ?_
    unfold WriterState.Checked
    rw [WriterState.goto_pc]
    exact hchecked
  unfold writerStep
  rw [hpc]
  dsimp only
  cases hcall : calls i with
  | save settings => exact hgo s.secrets []
  | saveWithSecrets settings | saveIfUnchanged settings expected =>
    dsimp only
    split
    next message secrets hfiled => exact h.fail hinside hchain _ _
    next made secrets hfiled => exact hgo _ _

/-- It reads the file, and puts it aside where it cannot be parsed. -/
theorem writerStep_preserving {made : List (Change SecretSlot Bytes)} (h : s.Inv E calls start)
    (hpc : s.pc i = .preserving made) (io : WriterIo) :
    (writerStep E calls s i io).Inv E calls start := by
  have hinside : (s.pc i).isInside = true := by rw [hpc]; rfl
  have hchecked := h.checked i
  unfold WriterState.Checked at hchecked
  rw [hpc] at hchecked
  have hfail : ∀ disk message, ({ s with disk }.abandon i io.service made s.disk.config
      message).Inv E calls start := by
    intro disk message
    have habandon := h.abandon hinside disk (by rw [hpc]; exact hchecked) io.service made
      message
    rwa [hpc] at habandon
  unfold writerStep
  rw [hpc]
  dsimp only
  split
  next hdirectory => exact hfail s.disk _
  split
  next hpreserved => exact hfail s.disk _
  next file disk hpreserved =>
  split
  next hdata => exact hfail _ _
  next data hdata =>
    refine h.goto hinside rfl (by rw [hpc]; rfl) ?_
    unfold WriterState.Checked
    rw [WriterState.goto_pc]
    exact hchecked

/-- It renames its file over the other one: the chain of the writes grows. -/
theorem writerStep_renames {made : List (Change SecretSlot Bytes)} {found : ConfigFile}
    {data : Bytes} (h : s.Inv E calls start) (hpc : s.pc i = .replacing made found data)
    (io : WriterIo) : (writerStep E calls s i io).Inv E calls start := by
  have hinside : (s.pc i).isInside = true := by rw [hpc]; rfl
  have hchecked := h.checked i
  unfold WriterState.Checked at hchecked
  rw [hpc] at hchecked
  have hchain := h.chain
  rw [h.standing_eq hinside, hpc] at hchain
  -- a write that fails puts the secrets back and leaves the file
  have hfail : ∀ message, (s.abandon i io.service made found message).Inv E calls start := by
    intro message
    have habandon := h.abandon hinside s.disk (by rw [hpc]; exact hchecked) io.service made
      message
    rwa [hpc] at habandon
  unfold writerStep
  rw [hpc]
  dsimp only
  split
  next htemporary => exact hfail _
  split
  next hwrite => exact hfail _
  next hwritten =>
    refine h.finish hinside (s.replace i found data) rfl (List.subset_append_left ..) ?_
      (hchain.snoc i _) ?_
    · intro w hw settings expected hcall
      rcases List.mem_append.mp hw with hw | hw
      · exact h.found w hw settings expected hcall
      · rw [List.mem_singleton.mp hw] at hcall ⊢
        exact hchecked settings expected hcall
    · intro _
      exact ⟨⟨i, found, .regular data⟩, List.mem_append_right _ (List.mem_singleton.mpr rfl),
        rfl, data, rfl⟩

/-- **One step of any call keeps the invariant.** -/
theorem writerStep_inv (h : s.Inv E calls start) (i : ι) (io : WriterIo) :
    (writerStep E calls s i io).Inv E calls start := by
  cases hpc : s.pc i with
  | waiting => exact writerStep_waiting h hpc io
  | locked => exact writerStep_locked h hpc io
  | planning => exact writerStep_planning h hpc io
  | preserving made => exact writerStep_preserving h hpc io
  | replacing made found data => exact writerStep_renames h hpc io
  | returned error =>
    unfold writerStep
    rw [hpc]
    exact h

/-- **The run lemma.** -/
theorem writerRun_inv (E : SettingsEnv) (calls : ι → SaveCall) (disk : Disk)
    (secrets : SecretSlots) (labels : List (ι × WriterIo)) :
    (writerRun E calls (.initial disk secrets) labels).Inv E calls disk.config := by
  suffices hrun : ∀ s : WriterState ι, s.Inv E calls disk.config →
      (writerRun E calls s labels).Inv E calls disk.config from
    hrun _ (WriterState.initial_inv disk secrets)
  induction labels with
  | nil => exact fun s h => h
  | cons label labels ih => exact fun s h => ih _ (writerStep_inv h label.1 label.2)

/-! ## Conflicts -/

section Messages

variable {service : SecretOutcome} {secrets : SecretSlots} {message : String}

/-- What a save reports whose changes of the secret store fail. -/
def credentialErrors : List String :=
  ["Unable to access credentials; the provider configuration was not saved.",
    "No AI credential is stored for the selected provider; the provider configuration " ++
      "was not saved.",
    "Unable to store the voice credential; the provider configuration was not saved.",
    "No voice credential is stored for the selected provider; the provider " ++
      "configuration was not saved.",
    "Unable to update credentials; the provider configuration was not saved.", rollbackFailed]

/-- A plan of a credential fails with one of the messages of the service, -/
theorem planCredential_error {kind : SecretKind} {provider token previous : Bytes}
    {missing : Option String} {pending : List PendingSecret}
    (h : planCredential service secrets kind provider token previous missing pending =
      .error message) :
    message = "Unable to access credentials; the provider configuration was not saved." ∨
      missing = some message := by
  rcases call_eq_error_iff.mp h with hvalue | ⟨value, -, hrest⟩
  · unfold credentialValue at hvalue
    split at hvalue
    · split at hvalue
      · exact .inl (Except.error.inj hvalue).symm
      · cases hvalue
      · cases hvalue
    · cases hvalue
  · split at hrest
    · cases hrest
    cases missing with
    | none => cases hrest
    | some missing =>
      dsimp only at hrest
      split at hrest
      · exact .inr (congrArg some (Except.error.inj hrest))
      · cases hrest

/-- or with that of a token that is missing, -/
theorem CredentialUse.plan_error {use : CredentialUse} {previous : Bytes}
    {missing : Option String} {pending : List PendingSecret}
    (h : use.plan service secrets previous missing pending = .error message)
    (hmissing : ∀ text, missing = some text → text ∈ credentialErrors) :
    message ∈ credentialErrors := by
  unfold plan at h
  split at h
  · rcases planCredential_error h with rfl | hsome
    · exact List.mem_cons_self
    · split at hsome
      · cases hsome
      · exact hmissing message hsome
  · cases h

/-- so the whole plan fails with a message about credentials. -/
theorem planSecrets_error {persisted settings : InputSettings}
    (h : planSecrets service secrets persisted settings = .error message) :
    message ∈ credentialErrors := by
  unfold planSecrets at h
  rcases call_eq_error_iff.mp h with hai | ⟨_, -, h⟩
  · refine CredentialUse.plan_error hai fun text htext => ?_
    rw [← Option.some.inj htext]
    exact List.mem_cons_of_mem _ List.mem_cons_self
  rcases call_eq_error_iff.mp h with htranslation | ⟨_, -, h⟩
  · exact CredentialUse.plan_error htranslation fun _ htext => (by cases htext)
  split at h
  · rw [← Except.error.inj h]
    simp [credentialErrors]
  rcases call_eq_error_iff.mp h with hvoice | ⟨_, -, h⟩
  · refine CredentialUse.plan_error hvoice fun text htext => ?_
    rw [← Option.some.inj htext]
    simp [credentialErrors]
  · cases h

/-- Every failure of the changes reports one of these. -/
theorem fileSecrets_message {persisted settings : InputSettings} {after : SecretSlots}
    (h : fileSecrets service secrets persisted settings = (.error message, after)) :
    message ∈ credentialErrors := by
  unfold fileSecrets at h
  split at h
  · next hplan =>
    rw [← Except.error.inj (Prod.mk.inj h).1]
    exact planSecrets_error hplan
  split at h
  · rw [← Except.error.inj (Prod.mk.inj h).1]
    exact List.mem_cons_self
  dsimp only at h
  split at h
  · cases h
  · rw [← Except.error.inj (Prod.mk.inj h).1]
    split <;> simp [credentialErrors]

/-- A conflict of versions is not one of them. -/
theorem versionConflict_not_mem : versionConflict ∉ credentialErrors := by
  decide

end Messages

/-- The call is past the check of the version, or returned something else than a
conflict. -/
def WriterPc.PastCheck : WriterPc → Prop
  | waiting | locked => False
  | planning | preserving _ | replacing _ _ _ => True
  | returned error => error ≠ some versionConflict

/-- What a step may do, and where. -/
inductive WriterMoves (E : SettingsEnv) (calls : ι → SaveCall) (s : WriterState ι) (i : ι)
    (io : WriterIo) : WriterState ι → Prop
  | refuse (hpc : s.pc i = .waiting) (message : String) :
    WriterMoves E calls s i io (s.goto i (.returned (some message)))
  | lock (hpc : s.pc i = .waiting) :
    WriterMoves E calls s i io ({ s with holder := some i }.goto i .locked)
  | check (hpc : s.pc i = .locked) : WriterMoves E calls s i io (s.goto i .planning)
  | conflict (hpc : s.pc i = .locked) :
    WriterMoves E calls s i io (s.finish i (some versionConflict))
  | file (hpc : s.pc i = .planning) (made : List (Change SecretSlot Bytes))
    (secrets : SecretSlots) :
    WriterMoves E calls s i io ({ s with secrets }.goto i (.preserving made))
  | fail (hpc : s.pc i = .planning) (message : String) (secrets : SecretSlots)
    (hmessage : message ≠ versionConflict) :
    WriterMoves E calls s i io ({ s with secrets }.finish i (some message))
  | read (made : List (Change SecretSlot Bytes)) (hpc : s.pc i = .preserving made)
    {file : E.keyFiles.File} {disk : Disk} {data : Bytes}
    (hpreserved : E.preserved io.io s.disk = some (file, disk))
    (hdata : E.keyFiles.toData (E.settingsFile (calls i).settings file) = some data) :
    WriterMoves E calls s i io ({ s with disk }.goto i (.replacing made s.disk.config data))
  | giveUp (hpc : (s.pc i).PastCheck) (disk : Disk)
    (hdisk : disk = s.disk ∨ ∃ file, E.preserved io.io s.disk = some (file, disk))
    (made : List (Change SecretSlot Bytes)) (found : ConfigFile) (message : String)
    (hmessage : message ≠ versionConflict) :
    WriterMoves E calls s i io ({ s with disk }.abandon i io.service made found message)
  | rename (made : List (Change SecretSlot Bytes)) (found : ConfigFile) (data : Bytes)
    (hpc : s.pc i = .replacing made found data) :
    WriterMoves E calls s i io ((s.replace i found data).finish i none)
  | stay (hpc : (s.pc i).isInside = false) : WriterMoves E calls s i io s

/-- **The step lemma**: the calls and their answers decide which of these it is. -/
theorem writerStep_moves (E : SettingsEnv) (calls : ι → SaveCall) (s : WriterState ι) (i : ι)
    (io : WriterIo) : WriterMoves E calls s i io (writerStep E calls s i io) := by
  have hgiveUp : ∀ made found message, (s.pc i).PastCheck → message ≠ versionConflict →
      WriterMoves E calls s i io (s.abandon i io.service made found message) :=
    fun made found message hpc => .giveUp hpc s.disk (.inl rfl) made found message
  unfold writerStep
  cases hpc : s.pc i with
  | waiting =>
    dsimp only
    split
    next hinvalid => exact .refuse hpc _
    split
    next hlock => exact .refuse hpc _
    split
    next hfree => exact .lock hpc
    next hheld => exact .stay (by rw [hpc]; rfl)
  | locked =>
    dsimp only
    cases calls i with
    | saveIfUnchanged settings expected =>
      dsimp only
      split
      next hversion => exact .check hpc
      next hother => exact .conflict hpc
    | save settings | saveWithSecrets settings => exact .check hpc
  | planning =>
    dsimp only
    cases calls i with
    | save settings => exact .file hpc [] s.secrets
    | saveWithSecrets settings | saveIfUnchanged settings expected =>
      dsimp only
      split
      next message secrets hfiled =>
        -- the message is about a credential
        refine .fail hpc message secrets ?_
        rintro rfl
        exact versionConflict_not_mem (fileSecrets_message hfiled)
      next made secrets hfiled => exact .file hpc made secrets
  | preserving made =>
    have hpast : (s.pc i).PastCheck := by rw [hpc]; trivial
    dsimp only
    split
    next hdirectory => exact hgiveUp _ _ _ hpast (by decide)
    split
    next hpreserved => exact hgiveUp _ _ _ hpast (by decide)
    next file disk hpreserved =>
    split
    next hdata => exact .giveUp hpast disk (.inr ⟨file, hpreserved⟩) _ _ _ (by decide)
    next data hdata => exact .read made hpc hpreserved hdata
  | replacing made found data =>
    have hpast : (s.pc i).PastCheck := by rw [hpc]; trivial
    dsimp only
    split
    next htemporary => exact hgiveUp _ _ _ hpast (by decide)
    split
    next hwrite => exact hgiveUp _ _ _ hpast (by decide)
    next hwritten => exact .rename made found data hpc
  | returned error => exact .stay (by rw [hpc]; rfl)

theorem WriterState.abandon_error (s : WriterState ι) (i : ι)
    (service : SecretOutcome) (made : List (Change SecretSlot Bytes)) (found : ConfigFile)
    {message : String} (h : message ≠ versionConflict) :
    ∃ error, (s.abandon i service made found message).pc i = .returned (some error) ∧
      error ≠ versionConflict := by
  refine ⟨_, WriterState.goto_pc .., ?_⟩
  split
  · exact h
  · decide

/-- A step moves its own writer only. -/
theorem writerStep_pc_of_ne (io : WriterIo) (h : j ≠ i) :
    (writerStep E calls s i io).pc j = s.pc j := by
  have hgoto : ∀ (t : WriterState ι) pc, t.pc = s.pc → (t.goto i pc).pc j = s.pc j :=
    fun t pc ht => (t.goto_pc_of_ne h pc).trans (congrFun ht j)
  have hmoves := writerStep_moves E calls s i io
  generalize writerStep E calls s i io = t at hmoves
  cases hmoves with
  | stay => rfl
  | _ => exact hgoto _ _ rfl

/-- A call does not come back to the check, and reports no conflict without it. -/
theorem writerStep_pastCheck (h : (s.pc i).PastCheck) (j : ι) (io : WriterIo) :
    ((writerStep E calls s j io).pc i).PastCheck := by
  by_cases hij : i = j
  · subst hij
    have hmoves := writerStep_moves E calls s i io
    generalize writerStep E calls s i io = t at hmoves
    cases hmoves with
    | refuse hpc | lock hpc | check hpc | conflict hpc =>
      rw [hpc] at h
      cases h
    | file =>
      rw [WriterState.goto_pc]
      trivial
    | fail _ message _ hmessage =>
      show ((WriterState.goto _ i (.returned (some message))).pc i).PastCheck
      rw [WriterState.goto_pc]
      exact fun hsame => hmessage (Option.some.inj hsame)
    | read =>
      rw [WriterState.goto_pc]
      trivial
    | giveUp _ disk _ made found message hmessage =>
      -- it reports what went wrong, or that the rollback failed
      obtain ⟨error, herror, hother⟩ :=
        WriterState.abandon_error { s with disk } i io.service made found hmessage
      rw [herror]
      exact fun hsame => hother (Option.some.inj hsame)
    | rename =>
      show ((WriterState.goto _ i (.returned none)).pc i).PastCheck
      rw [WriterState.goto_pc]
      exact Option.some_ne_none _ ∘ Eq.symm
    | stay => exact h
  · rwa [writerStep_pc_of_ne io hij]

/-- Up to the check, and after a conflict, a call changes nothing. -/
theorem writerStep_unchanged (h : ¬ (s.pc i).PastCheck) (io : WriterIo) :
    (writerStep E calls s i io).disk = s.disk ∧
      (writerStep E calls s i io).secrets = s.secrets := by
  have hpast : ∀ pc, s.pc i = pc → ¬ pc.PastCheck := by
    rintro _ rfl
    exact h
  have hmoves := writerStep_moves E calls s i io
  generalize writerStep E calls s i io = t at hmoves
  cases hmoves with
  | refuse | lock | check | conflict | stay => exact ⟨rfl, rfl⟩
  | file hpc | fail hpc => exact absurd trivial (hpast _ hpc)
  | read made hpc => exact absurd trivial (hpast _ hpc)
  | giveUp hpc => exact absurd hpc h
  | rename made found data hpc => exact absurd trivial (hpast _ hpc)

/-- **A conflict that is reported changed nothing**: neither did any earlier step of
the call. -/
theorem conflict_unchanged {before after : List (ι × WriterIo)} {io : WriterIo}
    (h : (writerRun E calls s (before ++ (i, io) :: after)).pc i =
      .returned (some versionConflict)) :
    (writerStep E calls (writerRun E calls s before) i io).disk =
        (writerRun E calls s before).disk ∧
      (writerStep E calls (writerRun E calls s before) i io).secrets =
        (writerRun E calls s before).secrets := by
  refine writerStep_unchanged (fun hpast => ?_) io
  have hrun : ∀ labels t, (t.pc i).PastCheck → ((writerRun E calls t labels).pc i).PastCheck := by
    intro labels
    induction labels with
    | nil => exact fun t ht => ht
    | cons label labels ih => exact fun t ht => ih _ (writerStep_pastCheck ht label.1 label.2)
  have hend := hrun ((i, io) :: after) _ hpast
  have happend : writerRun E calls s (before ++ (i, io) :: after) =
      writerRun E calls (writerRun E calls s before) ((i, io) :: after) := List.foldl_append ..
  rw [happend] at h
  rw [h] at hend
  exact hend rfl

/-! ## Compare and swap -/

/-- The files that stood at the path of `config.ini`, before and after each write. -/
def WriterState.files (s : WriterState ι) : List ConfigFile :=
  s.writes.flatMap fun w => [w.found, w.written]

/-- No two of the texts have the same digest. -/
def NoCollision (E : SettingsEnv) (files : List ConfigFile) : Prop :=
  ∀ a b, .regular a ∈ files → .regular b ∈ files → E.digestOf a = E.digestOf b → a = b

/-- What has a version. -/
theorem version_eq_some {file : ConfigFile} {version : SettingsFileVersion}
    (h : E.version file = some version) :
    file = .missing ∧ version.missing = true ∨
      ∃ contents, file = .regular contents ∧ version = ⟨false, E.digestOf contents⟩ := by
  cases file with
  | missing => exact .inl ⟨rfl, by rw [← Option.some.inj h]⟩
  | regular contents =>
    simp only [SettingsEnv.version] at h
    split at h
    · cases h
    · exact .inr ⟨contents, rfl, (Option.some.inj h).symm⟩
  | unreadable => cases h
  | directory => cases h

/-- Files of one version are the same. -/
theorem NoCollision.version_inj {files : List ConfigFile} (h : NoCollision E files)
    {a b : ConfigFile} {version : SettingsFileVersion} (ha : a ∈ files) (hb : b ∈ files)
    (hversion : E.version a = some version) (hversion' : E.version b = some version) : a = b := by
  rcases version_eq_some hversion with ⟨rfl, hmissing⟩ | ⟨text, rfl, rfl⟩
  · rcases version_eq_some hversion' with ⟨rfl, -⟩ | ⟨text', rfl, rfl⟩
    · rfl
    · cases hmissing
  · rcases version_eq_some hversion' with ⟨rfl, hmissing⟩ | ⟨text', rfl, hsame⟩
    · cases hmissing
    · rw [h text text' ha hb (SettingsFileVersion.mk.inj hsame).2]

omit [DecidableEq ι] in
/-- Two members of a list, in the order they stand in it. -/
theorem mem_split_two {writes : List (SettingsWrite ι)} {a b : SettingsWrite ι}
    (ha : a ∈ writes) (hb : b ∈ writes) (hne : a ≠ b) :
    ∃ before between after, writes = before ++ a :: (between ++ b :: after) ∨
      writes = before ++ b :: (between ++ a :: after) := by
  obtain ⟨before, rest, rfl⟩ := List.append_of_mem ha
  rcases List.mem_append.mp hb with hb | hb
  · obtain ⟨start, between, rfl⟩ := List.append_of_mem hb
    exact ⟨start, between, rest, .inr (by simp)⟩
  · rcases List.mem_cons.mp hb with rfl | hb
    · exact absurd rfl hne
    · obtain ⟨between, after, rfl⟩ := List.append_of_mem hb
      exact ⟨before, between, after, .inl rfl⟩

/-- **`save_if_unchanged` is a compare-and-swap.** Any calls of `save` and
`save_if_unchanged` are under way, and their steps come in any order.

* A `save_if_unchanged` that succeeded has replaced a file of the version it expects.
* If two of them expect the same version and both succeeded, then before the second
  one replaced the file, one of the writes since (the first one's own among them) had
  put back the bytes that the first one found.
* One that reports a conflict has not, in any of its steps, changed the file or the
  secret store. -/
theorem saveIfUnchanged_compareAndSwap (E : SettingsEnv) (calls : ι → SaveCall) (disk : Disk)
    (secrets : SecretSlots) (labels : List (ι × WriterIo))
    (hdigest : NoCollision E (writerRun E calls (.initial disk secrets) labels).files) :
    let s := writerRun E calls (.initial disk secrets) labels
    (∀ i settings expected, calls i = .saveIfUnchanged settings expected →
      s.pc i = .returned none →
      ∃ w ∈ s.writes, w.writer = i ∧ E.version w.found = some expected ∧
        ∃ data, w.written = .regular data) ∧
    (∀ i j settings settings' expected, i ≠ j → calls i = .saveIfUnchanged settings expected →
      calls j = .saveIfUnchanged settings' expected → s.pc i = .returned none →
      s.pc j = .returned none →
      ∃ before first between second after,
        s.writes = before ++ first :: (between ++ second :: after) ∧
        (first.writer = i ∧ second.writer = j ∨ first.writer = j ∧ second.writer = i) ∧
        ∃ w ∈ first :: between, w.written = first.found) ∧
    ∀ i, s.pc i = .returned (some versionConflict) →
      ∀ before io after, labels = before ++ (i, io) :: after →
        let t := writerRun E calls (.initial disk secrets) before
        (writerStep E calls t i io).disk = t.disk ∧
          (writerStep E calls t i io).secrets = t.secrets := by
  intro s
  have hs : s.Inv E calls disk.config := writerRun_inv E calls disk secrets labels
  have hsuccess : ∀ i settings expected, calls i = .saveIfUnchanged settings expected →
      s.pc i = .returned none →
      ∃ w ∈ s.writes, w.writer = i ∧ E.version w.found = some expected ∧
        ∃ data, w.written = .regular data := by
    intro i settings expected hcall hreturned
    have hchecked := hs.checked i
    unfold WriterState.Checked at hchecked
    rw [hreturned] at hchecked
    obtain ⟨w, hw, rfl, hwritten⟩ := hchecked
    exact ⟨w, hw, rfl, hs.found w hw settings expected hcall, hwritten⟩
  refine ⟨hsuccess, ?_, ?_⟩
  · intro i j settings settings' expected hij hi hj hi' hj'
    obtain ⟨wi, hwi, hwriter, hfound, -⟩ := hsuccess i settings expected hi hi'
    obtain ⟨wj, hwj, hwriter', hfound', -⟩ := hsuccess j settings' expected hj hj'
    have hne : wi ≠ wj := fun h => hij (by rw [← hwriter, ← hwriter', h])
    -- whichever comes first, what the second one found was written since
    have hrestored : ∀ before first between second after,
        s.writes = before ++ first :: (between ++ second :: after) →
        E.version first.found = some expected → E.version second.found = some expected →
        ∃ w ∈ first :: between, w.written = first.found := by
      intro before first between second after hwrites hfirst hsecond
      have hchain := hs.chain
      rw [hwrites] at hchain
      obtain ⟨start, hchain⟩ := hchain.drop
      obtain ⟨w, hw, hwritten⟩ := hchain.found
      have hfiles : ∀ w ∈ s.writes, w.found ∈ s.files := fun w hw =>
        List.mem_flatMap.mpr ⟨w, hw, by simp⟩
      refine ⟨w, hw, hwritten.trans ?_⟩
      exact hdigest.version_inj (hfiles _ (by rw [hwrites]; simp))
        (hfiles _ (by rw [hwrites]; simp)) hsecond hfirst
    obtain ⟨before, between, after, hwrites | hwrites⟩ := mem_split_two hwi hwj hne
    · exact ⟨before, wi, between, wj, after, hwrites, .inl ⟨hwriter, hwriter'⟩,
        hrestored _ _ _ _ _ hwrites hfound hfound'⟩
    · exact ⟨before, wj, between, wi, after, hwrites, .inr ⟨hwriter', hwriter⟩,
        hrestored _ _ _ _ _ hwrites hfound' hfound⟩
  · intro i hconflict before io after hlabels
    subst hlabels
    exact conflict_unchanged hconflict

/-! ## A call by itself -/

/-- What a call ends with. -/
structure WriterState.Ended (i : ι) (t : WriterState ι) (disk : Disk) (secrets : SecretSlots)
    (error : Option String) : Prop where
  disk : t.disk = disk
  secrets : t.secrets = secrets
  pc : t.pc i = .returned error

/-- A call that has returned takes no more steps. -/
theorem writerStep_returned {error : Option String} (h : s.pc i = .returned error)
    (io : WriterIo) : writerStep E calls s i io = s := by
  simp only [writerStep, h]

theorem WriterState.finish_ended (s : WriterState ι) (i : ι) (error : Option String) :
    (s.finish i error).Ended i s.disk s.secrets error :=
  ⟨rfl, rfl, goto_pc ..⟩

/-- The two steps of `save_unlocked`. -/
theorem writerStep_saveUnlocked {made : List (Change SecretSlot Bytes)} (io : WriterIo)
    (hpc : s.pc i = .preserving made)
    (hvalid : validInputSettings E.supportedHelpcodeSchema (calls i).settings = true) :
    let saved := E.saveUnlocked io.io (calls i).settings s.disk
    let undone := undoChanges io.service.restored made s.secrets
    (writerStep E calls (writerStep E calls s i io) i io).Ended i saved.disk
      (if saved.error = none then s.secrets else undone.1)
      (saved.error.map fun message => if undone.2 then message else rollbackFailed) := by
  intro saved undone
  -- a failure of the first step is the end of the call
  have hfailed : ∀ (t : WriterState ι) found message, t.secrets = s.secrets →
      writerStep E calls s i io = t.abandon i io.service made found message →
      saved.disk = t.disk → saved.error = some message →
      (writerStep E calls (writerStep E calls s i io) i io).Ended i saved.disk
        (if saved.error = none then s.secrets else undone.1)
        (saved.error.map fun message => if undone.2 then message else rollbackFailed) := by
    intro t found message hsecrets hstep hdisk herror
    have hreturned : (writerStep E calls s i io).pc i =
        .returned (some (if undone.2 then message else rollbackFailed)) := by
      rw [hstep]
      show (WriterState.abandon t i io.service made found message).pc i = _
      unfold WriterState.abandon WriterState.finish
      rw [WriterState.goto_pc, hsecrets]
    rw [writerStep_returned hreturned]
    refine ⟨?_, ?_, ?_⟩
    · rw [hstep, hdisk]
      rfl
    · rw [hstep, herror, if_neg (Option.some_ne_none _)]
      show (undoChanges io.service.restored made t.secrets).1 = _
      rw [hsecrets]
    · rw [hreturned, herror]
      rfl
  have hsaved : saved = E.saveUnlocked io.io (calls i).settings s.disk := rfl
  unfold SettingsEnv.saveUnlocked at hsaved
  rw [if_neg (by simp [hvalid])] at hsaved
  obtain ⟨next, hnext⟩ : ∃ next, next = writerStep E calls s i io := ⟨_, rfl⟩
  rw [← hnext] at hfailed ⊢
  have hstep := hnext
  rw [writerStep, hpc] at hstep
  dsimp only at hstep
  by_cases hdirectory : (!io.io.directory) = true
  · rw [if_pos hdirectory] at hsaved hstep
    exact hfailed s _ _ rfl hstep (by rw [hsaved]) (by rw [hsaved])
  rw [if_neg hdirectory] at hsaved hstep
  cases hpreserved : E.preserved io.io s.disk with
  | none =>
    simp only [hpreserved] at hsaved hstep
    exact hfailed s _ _ rfl hstep (by rw [hsaved]) (by rw [hsaved])
  | some result =>
    obtain ⟨file, before⟩ := result
    simp only [hpreserved] at hsaved hstep
    cases hdata : E.keyFiles.toData (E.settingsFile (calls i).settings file) with
    | none =>
      simp only [hdata] at hsaved hstep
      exact hfailed { s with disk := before } _ _ rfl hstep (by rw [hsaved]) (by rw [hsaved])
    | some data =>
      simp only [hdata] at hsaved hstep
      -- the second step
      rw [hstep]
      have hlater : ({ s with disk := before }.goto i
          (.replacing made s.disk.config data)).pc i = .replacing made s.disk.config data :=
        WriterState.goto_pc ..
      simp only [writerStep, hlater]
      by_cases htemporary : (!io.io.temporary) = true
      · rw [if_pos htemporary] at hsaved
        simp only [htemporary, if_true, hsaved]
        exact WriterState.finish_ended ..
      rw [if_neg htemporary] at hsaved
      by_cases hwrite : (!(io.io.write && io.io.replace)) = true
      · rw [if_pos hwrite] at hsaved
        simp only [htemporary, hwrite, if_true, hsaved]
        exact WriterState.finish_ended ..
      · rw [if_neg hwrite] at hsaved
        simp only [htemporary, hwrite, hsaved]
        exact WriterState.finish_ended ..

/-- A writer that has returned does nothing more. -/
theorem writerRun_returned {error : Option String} (h : s.pc i = .returned error)
    (io : WriterIo) (n : Nat) : writerRun E calls s (List.replicate n (i, io)) = s := by
  induction n with
  | zero => rfl
  | succ n ih =>
    show writerRun E calls (writerStep E calls s i io) (List.replicate n (i, io)) = s
    rw [writerStep_returned h, ih]

/-- The steps of a call that changes the secret store as well. -/
theorem writerRun_withSecrets {io : WriterIo} {settings : InputSettings}
    (hsettings : (calls i).settings = settings)
    (hvalid : validInputSettings E.supportedHelpcodeSchema settings = true)
    (hstep : writerStep E calls s i io =
      match fileSecrets io.service s.secrets (E.load s.disk.config).1 settings with
      | (.error message, secrets) => { s with secrets }.finish i (some message)
      | (.ok made, secrets) => { s with secrets }.goto i (.preserving made)) :
    let result := E.saveWithSecretsUnlocked io.io io.service settings s.disk s.secrets
    (writerRun E calls s (List.replicate 3 (i, io))).Ended i result.disk result.secrets
      result.error := by
  intro result
  have hresult : result = E.saveWithSecretsUnlocked io.io io.service settings s.disk s.secrets :=
    rfl
  unfold SettingsEnv.saveWithSecretsUnlocked at hresult
  rw [if_neg (by simp [hvalid])] at hresult
  show (writerRun E calls (writerStep E calls s i io) (List.replicate 2 (i, io))).Ended ..
  -- the secret store refuses, or has been changed and the file is next
  rcases hchanged : fileSecrets io.service s.secrets (E.load s.disk.config).1 settings with
    ⟨message | made, secrets⟩
  · simp only [hchanged] at hstep hresult
    rw [hstep, hresult, writerRun_returned (WriterState.finish_ended ..).pc]
    exact WriterState.finish_ended ..
  · simp only [hchanged] at hstep hresult
    -- the two steps that are left are those of a save of the file
    have htail := writerStep_saveUnlocked (s := { s with secrets }.goto i (.preserving made)) io
      (WriterState.goto_pc ..) (hsettings ▸ hvalid)
    obtain ⟨hdisk, hkept, herror⟩ := htail
    simp only [WriterState.goto_disk, WriterState.goto_secrets, hsettings] at hdisk hkept herror
    rw [hstep]
    -- a file that was not saved has its credentials put back
    cases hsaved : (E.saveUnlocked io.io settings s.disk).error with
    | none =>
      simp only [hsaved] at hresult herror hkept
      rw [hresult]
      exact ⟨hdisk, hkept, herror⟩
    | some message =>
      simp only [hsaved] at hresult herror hkept
      rw [hresult]
      exact ⟨hdisk, hkept, herror⟩

/-- The steps from the changes of the secret store on. -/
theorem writerRun_planning {io : WriterIo} (hpc : s.pc i = .planning)
    (hvalid : validInputSettings E.supportedHelpcodeSchema (calls i).settings = true) :
    let result := (calls i).performUnlocked E io s.disk s.secrets
    (writerRun E calls s (List.replicate 3 (i, io))).Ended i result.disk result.secrets
      result.error := by
  cases hcall : calls i with
  | save settings =>
    have hfirst : writerStep E calls s i io = s.goto i (.preserving []) := by
      simp only [writerStep, hpc, hcall]
    have htail := writerStep_saveUnlocked (s := s.goto i (.preserving [])) io
      (WriterState.goto_pc ..) hvalid
    rw [hcall] at htail
    obtain ⟨hdisk, hkept, herror⟩ := htail
    show (writerRun E calls (writerStep E calls s i io) (List.replicate 2 (i, io))).Ended ..
    rw [hfirst]
    -- nothing was changed that could be taken back
    refine ⟨hdisk, hkept.trans (ite_self _), herror.trans ?_⟩
    exact congrArg WriterPc.returned Option.map_id'
  | saveWithSecrets settings =>
    refine writerRun_withSecrets (by rw [hcall]; rfl) (by rw [hcall] at hvalid; exact hvalid) ?_
    simp only [writerStep, hpc, hcall]
  | saveIfUnchanged settings expected =>
    refine writerRun_withSecrets (by rw [hcall]; rfl) (by rw [hcall] at hvalid; exact hvalid) ?_
    simp only [writerStep, hpc, hcall]

/-- What a call does that gets the lock. -/
theorem SaveCall.perform_valid (call : SaveCall) {io : WriterIo} {disk : Disk}
    {secrets : SecretSlots}
    (hvalid : validInputSettings E.supportedHelpcodeSchema call.settings = true)
    (hlock : io.io.lock = true)
    (hversion : ∀ settings expected, call = .saveIfUnchanged settings expected →
      E.version disk.config = some expected) :
    call.perform E io disk secrets = call.performUnlocked E io disk secrets := by
  cases call with
  | save settings =>
    have hvalid' : validInputSettings E.supportedHelpcodeSchema settings = true := hvalid
    simp [perform, performUnlocked, SettingsEnv.save, hvalid', hlock]
  | saveWithSecrets settings =>
    have hvalid' : validInputSettings E.supportedHelpcodeSchema settings = true := hvalid
    simp [perform, performUnlocked, SettingsEnv.saveWithSecrets, hvalid', hlock]
  | saveIfUnchanged settings expected =>
    have hvalid' : validInputSettings E.supportedHelpcodeSchema settings = true := hvalid
    simp [perform, performUnlocked, SettingsEnv.saveIfUnchanged, hvalid', hlock,
      hversion settings expected rfl]

/-- A call takes the lock if it is free. -/
theorem writerStep_locks {io : WriterIo} (hwaiting : s.pc i = .waiting)
    (hvalid : validInputSettings E.supportedHelpcodeSchema (calls i).settings = true)
    (hlock : io.io.lock = true) (hfree : s.holder = none) :
    writerStep E calls s i io = { s with holder := some i }.goto i .locked := by
  simp [writerStep, hwaiting, hvalid, hlock, hfree]

/-- One that finds it taken waits. -/
theorem writerStep_waits {io : WriterIo} (hwaiting : s.pc i = .waiting)
    (hvalid : validInputSettings E.supportedHelpcodeSchema (calls i).settings = true)
    (hlock : io.io.lock = true) (hheld : s.holder ≠ none) : writerStep E calls s i io = s := by
  simp [writerStep, hwaiting, hvalid, hlock, hheld]

/-- **The machine refines the functions**: a call that no other one disturbs does, in
its five steps, what the source's function does. -/
theorem writerRun_alone (hwaiting : s.pc i = .waiting) (hfree : s.holder = none)
    (io : WriterIo) :
    let result := (calls i).perform E io s.disk s.secrets
    (writerRun E calls s (List.replicate 5 (i, io))).Ended i result.disk result.secrets
      result.error := by
  show (writerRun E calls (writerStep E calls s i io) (List.replicate 4 (i, io))).Ended ..
  -- the tests come in the order of the source: the range, the lock, the version
  by_cases hvalid : validInputSettings E.supportedHelpcodeSchema (calls i).settings = true
  · by_cases hlock : io.io.lock = true
    · rw [writerStep_locks hwaiting hvalid hlock hfree]
      show (writerRun E calls (writerStep E calls _ i io) (List.replicate 3 (i, io))).Ended ..
      have hpc : ({ s with holder := some i }.goto i .locked : WriterState ι).pc i = .locked :=
        WriterState.goto_pc ..
      by_cases hversion : ∀ settings expected, calls i = .saveIfUnchanged settings expected →
          E.version s.disk.config = some expected
      · rw [SaveCall.perform_valid (calls i) hvalid hlock hversion]
        have hsecond : writerStep E calls ({ s with holder := some i }.goto i .locked) i io =
            ({ s with holder := some i }.goto i .locked : WriterState ι).goto i .planning := by
          cases hcall : calls i with
          | save settings => simp only [writerStep, hpc, hcall]
          | saveWithSecrets settings => simp only [writerStep, hpc, hcall]
          | saveIfUnchanged settings expected =>
            simp only [writerStep, hpc, hcall]
            exact if_pos (hversion settings expected hcall)
        rw [hsecond]
        exact writerRun_planning (WriterState.goto_pc ..) hvalid
      · simp only [not_forall] at hversion
        -- another version: the call ends with its second step, and three are left over
        obtain ⟨settings, expected, hcall, hother⟩ := hversion
        have hsecond : writerStep E calls ({ s with holder := some i }.goto i .locked) i io =
            ({ s with holder := some i }.goto i .locked).finish i (some versionConflict) := by
          simp only [writerStep, hpc, hcall]
          exact if_neg hother
        rw [hsecond, writerRun_returned (WriterState.finish_ended ..).pc, hcall]
        rw [hcall] at hvalid
        have hvalid' : validInputSettings E.supportedHelpcodeSchema settings = true := hvalid
        simp only [SaveCall.perform, SettingsEnv.saveIfUnchanged, hvalid', hlock]
        rw [if_neg (by decide), if_neg (by decide), if_pos hother]
        exact WriterState.finish_ended ..
    · have hfirst : writerStep E calls s i io =
          s.goto i (.returned (some "Unable to lock input settings.")) := by
        simp [writerStep, hwaiting, hvalid, hlock]
      rw [hfirst, writerRun_returned (WriterState.goto_pc ..)]
      cases hcall : calls i <;> rw [hcall] at hvalid <;>
        simp only [SaveCall.settings] at hvalid <;>
        simp [SaveCall.perform, SettingsEnv.save, SettingsEnv.saveWithSecrets,
          SettingsEnv.saveIfUnchanged, hvalid, hlock] <;>
        exact ⟨rfl, rfl, WriterState.goto_pc ..⟩
  · have hfirst : writerStep E calls s i io = s.goto i
        (.returned (some "Input settings were outside the supported range.")) := by
      simp [writerStep, hwaiting, hvalid]
    rw [hfirst, writerRun_returned (WriterState.goto_pc ..)]
    cases hcall : calls i <;> rw [hcall] at hvalid <;>
      simp only [SaveCall.settings] at hvalid <;>
      simp [SaveCall.perform, SettingsEnv.save, SettingsEnv.saveWithSecrets,
        SettingsEnv.saveIfUnchanged, hvalid] <;>
      exact ⟨rfl, rfl, WriterState.goto_pc ..⟩

/-! ## What the steps leave of the file -/

/-- What is about to be written is a key file. -/
def WriterState.Serialized (E : SettingsEnv) (s : WriterState ι) : Prop :=
  ∀ i made found data, s.pc i = .replacing made found data → E.keyFiles.parse data ≠ none

/-- Before the rename the file is as it was, or has been put aside. -/
theorem SettingsEnv.preserved_config {io : WriteOutcome} {disk before : Disk}
    {file : E.keyFiles.File} (h : E.preserved io disk = some (file, before)) :
    before.config = disk.config ∨ before.config = .missing := by
  unfold preserved at h
  split at h
  · exact .inl (congrArg Disk.config (Prod.mk.inj (Option.some.inj h)).2.symm)
  · cases h
  · cases h
  · split at h
    · exact .inl (congrArg Disk.config (Prod.mk.inj (Option.some.inj h)).2.symm)
    · rw [← (Prod.mk.inj (Option.some.inj h)).2]
      split
      · exact .inr rfl
      · exact .inl rfl

/-- **What a step leaves of the file**: it is put aside, or replaced by what was serialized. -/
theorem writerStep_config (io : WriterIo) :
    (writerStep E calls s i io).disk.config = s.disk.config ∨
      (writerStep E calls s i io).disk.config = .missing ∨
        ∃ made found data, s.pc i = .replacing made found data ∧
          (writerStep E calls s i io).disk.config = .regular data := by
  have hmoves := writerStep_moves E calls s i io
  generalize writerStep E calls s i io = t at hmoves ⊢
  cases hmoves with
  | refuse | lock | check | conflict | file | fail | stay => exact .inl rfl
  | read made hpc hpreserved =>
    -- a damaged file is put aside before the new one is written
    exact (SettingsEnv.preserved_config hpreserved).imp id .inl
  | giveUp hpc disk hdisk =>
    rcases hdisk with rfl | ⟨file, hpreserved⟩
    · exact .inl rfl
    · exact (SettingsEnv.preserved_config hpreserved).imp id .inl
  | rename made found data hpc => exact .inr (.inr ⟨made, found, data, hpc, rfl⟩)

/-- What a call is about to write was serialized. -/
theorem writerStep_replacing (io : WriterIo) {made : List (Change SecretSlot Bytes)}
    {found : ConfigFile} {data : Bytes}
    (h : (writerStep E calls s i io).pc i = .replacing made found data) :
    ∃ file, E.keyFiles.toData file = some data := by
  have hmoves := writerStep_moves E calls s i io
  generalize writerStep E calls s i io = t at h hmoves
  -- every step but one goes to a state that is not this one
  have hgoto : ∀ (u : WriterState ι) {pc : WriterPc}, t = u.goto i pc →
      pc = .replacing made found data := by
    rintro u pc rfl
    rwa [WriterState.goto_pc] at h
  cases hmoves with
  | read made' hpc hpreserved hdata =>
    cases hgoto _ rfl
    exact ⟨_, hdata⟩
  | refuse | lock | check | conflict | file | fail | giveUp | rename => cases hgoto _ rfl
  | stay hpc =>
    rw [h] at hpc
    cases hpc

/-- **A step leaves a key file, if there is one.** -/
theorem WriterState.Serialized.step (hE : E.Lawful) (h : s.Serialized E) (i : ι) (io : WriterIo) :
    (writerStep E calls s i io).Serialized E ∧
      (¬ s.disk.config.Damaged E → ¬ (writerStep E calls s i io).disk.config.Damaged E) := by
  constructor
  · intro j made found data hpc
    by_cases hj : j = i
    · subst hj
      obtain ⟨file, hdata⟩ := writerStep_replacing io hpc
      obtain ⟨file', hparse, -⟩ := hE.keyFiles.parse_toData hdata
      rw [hparse]
      exact nofun
    · rw [writerStep_pc_of_ne io hj] at hpc
      exact h j made found data hpc
  · rintro hfile ⟨contents, hcontents, hparse⟩
    have hconfig : (writerStep E calls s i io).disk.config = s.disk.config ∨ _ :=
      writerStep_config io
    rcases hconfig with
      hsame | hmissing | ⟨made, found, data, hpc, hwritten⟩
    · exact hfile ⟨contents, hsame ▸ hcontents, hparse⟩
    · rw [hmissing] at hcontents
      cases hcontents
    · rw [hwritten] at hcontents
      cases hcontents
      exact h i made found _ hpc hparse

/-! ## Two writers -/

/-- A save with credentials, over a file. -/
theorem saveWithSecretsUnlocked_regular {settings : InputSettings} {disk : Disk}
    {secrets after : SecretSlots} {data : Bytes} {made : List (Change SecretSlot Bytes)}
    (hvalid : validInputSettings plainEnv.supportedHelpcodeSchema settings = true)
    (hconfig : disk.config = .regular data)
    (hfiled : fileSecrets {} secrets (plainEnv.load disk.config).1 settings = (.ok made, after)) :
    let result := plainEnv.saveWithSecretsUnlocked {} {} settings disk secrets
    result.error = none ∧ result.secrets = after := by
  have hsaved : (plainEnv.saveUnlocked {} settings disk).error = none := by
    unfold SettingsEnv.saveUnlocked SettingsEnv.preserved
    rw [hvalid, hconfig]
    dsimp only
    cases plainEnv.keyFiles.parse data <;> rfl
  unfold SettingsEnv.saveWithSecretsUnlocked
  rw [hvalid, hfiled]
  dsimp only
  rw [hsaved]
  exact ⟨rfl, rfl⟩

/-- A save that finds its version. -/
theorem saveIfUnchanged_found {S : SettingsEnv} {service : SecretOutcome}
    {settings : InputSettings} {expected : SettingsFileVersion} {disk : Disk}
    (hvalid : validInputSettings S.supportedHelpcodeSchema settings = true)
    (hversion : S.version disk.config = some expected) (secrets : SecretSlots) :
    S.saveIfUnchanged {} service settings expected disk secrets =
      S.saveWithSecretsUnlocked {} service settings disk secrets := by
  unfold SettingsEnv.saveIfUnchanged
  rw [hvalid, hversion]
  simp

/-- Settings with a page size of their own. -/
def shortPages : InputSettings := { pageSize := 5 }

/-- The file that a save of them has left. -/
def shortDisk : Disk := (plainEnv.save {} shortPages {}).disk

/-- Its version. -/
def shortVersion : SettingsFileVersion := (plainEnv.version shortDisk.config).getD ⟨true, []⟩

/-- Two processes that have seen it. -/
def twoWriters (_ : Bool) : SaveCall := .saveIfUnchanged {} shortVersion

theorem shortPages_file : ∃ data, shortDisk.config = .regular data ∧
    plainEnv.load shortDisk.config = (shortPages, "") ∧
    plainEnv.version shortDisk.config = some ⟨false, data⟩ := by
  have hvalid : validInputSettings plainEnv.supportedHelpcodeSchema shortPages = true :=
    validInputSettings_iff.mpr
      { validInputSettings_default plainEnv_lawful.lantian with pageSize := by decide }
  have hsaved : plainEnv.Saved shortPages {} shortDisk _ :=
    SettingsEnv.save_ok (save_missing hvalid)
  obtain ⟨data, file, hconfig, -, -⟩ := hsaved.file plainEnv_lawful
  have hload : plainEnv.load shortDisk.config = (shortPages, "") := hsaved.load_eq plainEnv_lawful
  refine ⟨data, hconfig, hload, ?_⟩
  rw [hconfig] at hload ⊢
  refine if_neg fun hempty => ?_
  -- an empty file has the default settings
  obtain rfl : data = [] := hempty
  exact absurd (congrArg (·.1.pageSize) hload) (by decide)

/-- The first save succeeds, and a save after it finds another version. -/
theorem twoWriters_perform :
    let first := (twoWriters true).perform plainEnv {} shortDisk fun _ => none
    first.error = none ∧
      ((twoWriters false).perform plainEnv {} first.disk first.secrets).error =
        some versionConflict := by
  intro first
  have hvalid : validInputSettings plainEnv.supportedHelpcodeSchema {} = true :=
    validInputSettings_iff.mpr (validInputSettings_default plainEnv_lawful.lantian)
  obtain ⟨data, hconfig, hload, hversion⟩ := shortPages_file
  have hseen : shortVersion = ⟨false, data⟩ := congrArg (·.getD ⟨true, []⟩) hversion
  have hfirst : first = plainEnv.saveWithSecretsUnlocked {} {} {} shortDisk fun _ => none :=
    saveIfUnchanged_found hvalid (hseen ▸ hversion) _
  obtain ⟨made, after, hfiled⟩ : ∃ made after, fileSecrets {} (fun _ => none)
      (plainEnv.load shortDisk.config).1 {} = (.ok made, after) := by
    rw [hload]
    exact ⟨_, _, rfl⟩
  have herror : first.error = none := by
    rw [hfirst]
    exact (saveWithSecretsUnlocked_regular hvalid hconfig hfiled).1
  refine ⟨herror, ?_⟩
  rw [hfirst] at herror ⊢
  have hafter := (saveWithSecretsUnlocked_saved herror).load_eq plainEnv_lawful
  generalize plainEnv.saveWithSecretsUnlocked {} {} {} shortDisk (fun _ => none) = saved at hafter
  -- the two files load as different settings, so their texts differ
  have hother : plainEnv.version saved.disk.config ≠ some shortVersion := by
    intro hsame
    rcases version_eq_some hsame with ⟨-, hmissing⟩ | ⟨contents, hcontents, hexpected⟩
    · rw [hseen] at hmissing
      cases hmissing
    · obtain rfl : data = contents :=
        (SettingsFileVersion.mk.inj (hseen.symm.trans hexpected)).2
      rw [hcontents, ← hconfig, hload] at hafter
      exact absurd (congrArg (·.1.pageSize) hafter) (by decide)
  show (plainEnv.saveIfUnchanged {} {} {} shortVersion saved.disk saved.secrets).error = _
  unfold SettingsEnv.saveIfUnchanged
  rw [hvalid, if_neg (by decide), if_neg (by decide), if_pos hother]

/-- The second process waits for the lock of the first. -/
def twoWritersLabels : List (Bool × WriterIo) :=
  (true, {}) :: (false, {}) ::
    (List.replicate 4 (true, ({} : WriterIo)) ++ List.replicate 5 (false, ({} : WriterIo)))

/-- The steps of a call leave another one where it is. -/
theorem writerRun_pc_of_ne (h : j ≠ i) (io : WriterIo) (n : Nat) (s : WriterState ι) :
    (writerRun E calls s (List.replicate n (i, io))).pc j = s.pc j := by
  induction n generalizing s with
  | zero => rfl
  | succ n ih => exact (ih _).trans (writerStep_pc_of_ne io h)

theorem writerRun_cons (s : WriterState ι) (i : ι) (io : WriterIo)
    (labels : List (ι × WriterIo)) : writerRun E calls s ((i, io) :: labels) =
      writerRun E calls (writerStep E calls s i io) labels := rfl

theorem writerRun_append (s : WriterState ι) (labels more : List (ι × WriterIo)) :
    writerRun E calls s (labels ++ more) = writerRun E calls (writerRun E calls s labels) more :=
  List.foldl_append

/-- So the first writer saves, and the second one comes after it. -/
theorem twoWriters_run :
    writerRun plainEnv twoWriters (.initial shortDisk fun _ => none) twoWritersLabels =
      writerRun plainEnv twoWriters
        (writerRun plainEnv twoWriters (.initial shortDisk fun _ => none)
          (List.replicate 5 (true, {})))
        (List.replicate 5 (false, {})) := by
  have hvalid : ∀ i, validInputSettings plainEnv.supportedHelpcodeSchema
      (twoWriters i).settings = true :=
    fun _ => validInputSettings_iff.mpr (validInputSettings_default plainEnv_lawful.lantian)
  generalize hinitial : (WriterState.initial shortDisk fun _ => none : WriterState Bool) = s
  have hwaiting : ∀ i, s.pc i = .waiting := fun i => hinitial ▸ rfl
  have hfree : s.holder = none := hinitial ▸ rfl
  -- the second one waits while the first one holds the lock
  have hwaits : writerStep plainEnv twoWriters (writerStep plainEnv twoWriters s true {}) false {} =
      writerStep plainEnv twoWriters s true {} := by
    refine writerStep_waits ((writerStep_pc_of_ne {} (by decide)).trans (hwaiting false))
      (hvalid false) rfl ?_
    rw [writerStep_locks (hwaiting true) (hvalid true) rfl hfree]
    exact Option.some_ne_none true
  rw [twoWritersLabels, writerRun_cons, writerRun_cons, hwaits, writerRun_append,
    show List.replicate 5 (true, ({} : WriterIo)) = (true, {}) :: List.replicate 4 (true, {})
      from rfl, writerRun_cons]

/-- One of them saves, and the other one reports a conflict and has changed nothing. -/
theorem saveIfUnchanged_compareAndSwap_twoWriters :
    let s := writerRun plainEnv twoWriters (.initial shortDisk fun _ => none) twoWritersLabels
    s.pc true = .returned none ∧ s.pc false = .returned (some versionConflict) ∧
    (∃ w ∈ s.writes, w.writer = true ∧ plainEnv.version w.found = some shortVersion ∧
      ∃ data, w.written = .regular data) ∧
    ∀ before io after, twoWritersLabels = before ++ (false, io) :: after →
      let t := writerRun plainEnv twoWriters (.initial shortDisk fun _ => none) before
      (writerStep plainEnv twoWriters t false io).disk = t.disk ∧
        (writerStep plainEnv twoWriters t false io).secrets = t.secrets := by
  obtain ⟨hsuccess, -, hunchanged⟩ := saveIfUnchanged_compareAndSwap plainEnv twoWriters shortDisk
    (fun _ => none) twoWritersLabels fun a b _ _ hsame => hsame
  have hrun := twoWriters_run
  dsimp only
  generalize writerRun plainEnv twoWriters (.initial shortDisk fun _ => none) twoWritersLabels = s
    at hsuccess hunchanged hrun ⊢
  obtain ⟨hsaved, hconflict⟩ := twoWriters_perform
  have hinv := writerRun_inv plainEnv twoWriters shortDisk (fun _ => none)
    (List.replicate 5 (true, {}))
  have hfirst : (writerRun plainEnv twoWriters (.initial shortDisk fun _ => none)
      (List.replicate 5 (true, {}))).Ended true _ _ _ := writerRun_alone rfl rfl {}
  have hwaiting : (writerRun plainEnv twoWriters (.initial shortDisk fun _ => none)
      (List.replicate 5 (true, {}))).pc false = .waiting :=
    writerRun_pc_of_ne (by decide) {} 5 _
  generalize writerRun plainEnv twoWriters (.initial shortDisk fun _ => none)
    (List.replicate 5 (true, {})) = t at hinv hrun hfirst hwaiting
  rw [WriterState.initial_disk, WriterState.initial_secrets] at hfirst
  -- the lock is free again: neither of the two is inside
  have hfree : t.holder = none := by
    cases hholder : t.holder with
    | none => rfl
    | some i =>
      have hinside := (hinv.holds i).mp hholder
      cases i with
      | true => rw [hfirst.pc] at hinside; cases hinside
      | false => rw [hwaiting] at hinside; cases hinside
  have hsecond : (writerRun plainEnv twoWriters t (List.replicate 5 (false, {}))).Ended false
      _ _ _ := writerRun_alone hwaiting hfree {}
  rw [hfirst.disk, hfirst.secrets, ← hrun] at hsecond
  have htrue : s.pc true = .returned none := by
    rw [hrun, writerRun_pc_of_ne (by decide), hfirst.pc]
    exact congrArg _ hsaved
  have hfalse : s.pc false = .returned (some versionConflict) :=
    hsecond.pc.trans (congrArg _ hconflict)
  exact ⟨htrue, hfalse, hsuccess true {} shortVersion rfl htrue, hunchanged false hfalse⟩

end MsimeLinux
