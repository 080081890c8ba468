import Mathlib.Logic.Function.Basic
import MsimeLinux.Lib.Script

/-!
# The swap of the databases (`scripts/install.sh`)

Three databases are staged beside the live ones and then moved over them, one after the other.
What was live gets a second name before; `cleanup`, which runs however the script exits, moves it
back unless the swap is complete. A file cannot be moved over its own second name, though, so one
that was not swapped yet keeps it. Any command may fail, and anything may be interrupted.

- `on_triple`: what a command does to one database says what it does to all of them.
- `script_triple`, `cleanup_triple`: what holds wherever the script and `cleanup` stop.
- `install_all_or_nothing`: all databases are the new ones, or all are the old ones, and which
  backups are left.
-/

namespace MsimeLinux

universe u

open Lib

namespace Install

/-! ## The script -/

/-- The databases that are swapped together. -/
inductive Database where
  | main
  | others
  | english
  deriving DecidableEq

/-- What there is of a database: the live file, the staged one and the backup, whether the backup
is a link to the live file, whether variables of the script name the last two, and
`had_live_…_database` (install.sh:39). A file is what it holds; the engine, which could write to
it, does not run. -/
structure Slot (File : Type u) where
  live : Option File
  staged : Option File := none
  backup : Option File := none
  linked : Bool := false
  stagedNamed : Bool := false
  backupNamed : Bool := false
  hadLive : Bool := false

/-- All databases, `database_swap_started` and `database_swap_complete`. -/
structure State (File : Type u) where
  slot : Database → Slot File
  started : Bool := false
  complete : Bool := false

/-- What the script finds: the databases of the repository, whether there are learned words, what
replaying them makes of a database, and which moves back `cleanup` can make, of those that are
not over the same file. -/
structure Machine (File : Type u) where
  vendor : Database → File
  learned : Bool
  replayed : Database → File
  restores : Database → Bool

variable {File : Type u}

/-- What is installed. The words are replayed into two of the databases. -/
def Machine.new (M : Machine File) (d : Database) : File :=
  if M.learned = true ∧ d ≠ .others then M.replayed d else M.vendor d

/-- The commands about one database, of the script (install.sh:198) and of `cleanup`
(install.sh:43). -/
inductive SlotCommand where
  | makeStaged
  | fillStaged
  | testLive
  | makeBackup
  | freeBackup
  | linkBackup
  | swap
  | forgetStaged
  | dropBackup
  | forgetBackup
  | restore
  | removeStaged
  | removeBackup

/-- A command that ends well: `mktemp` makes `file`, and a variable names it; a move of `cleanup`
that fails is passed over, and `mv` does not move a link over the file it is a link to. -/
def SlotCommand.perform (file vendor : File) (restores : Bool) :
    SlotCommand → Slot File → Option (Slot File)
  | .makeStaged, x => some { x with staged := some file, stagedNamed := true }
  | .fillStaged, x => some { x with staged := some vendor }
  | .testLive, x => some { x with hadLive := x.live.isSome }
  | .makeBackup, x =>
    some (if x.hadLive then { x with backup := some file, backupNamed := true } else x)
  | .freeBackup, x => some (if x.hadLive then { x with backup := none } else x)
  | .linkBackup, x => some (if x.hadLive then { x with backup := x.live, linked := true } else x)
  | .swap, x =>
    x.staged.map fun file => { x with live := some file, staged := none, linked := false }
  | .forgetStaged, x => some { x with stagedNamed := false }
  | .dropBackup, x => some (if x.backupNamed then { x with backup := none } else x)
  | .forgetBackup, x => some { x with backupNamed := false }
  | .restore, x =>
    some (if x.hadLive = true ∧ x.backup.isSome = true then
      if restores = true ∧ x.linked = false then
        { x with live := x.backup, backup := none, backupNamed := false }
      else { x with backupNamed := false }
    else { x with live := none })
  | .removeStaged, x => some (if x.stagedNamed then { x with staged := none } else x)
  | .removeBackup, x => some (if x.backupNamed then { x with backup := none } else x)

/-- A command that fails. A copy may have begun. -/
def SlotFailed : SlotCommand → Slot File → Slot File → Prop
  | .makeStaged, x, y => y = x
  | .fillStaged, x, y => ∃ staged, y = { x with staged }
  | .makeBackup, x, y => y = x
  | .freeBackup, x, y => y = x
  | .linkBackup, x, y => y = x
  | .swap, x, y => y = x
  | .dropBackup, x, y => y = x
  | .restore, x, y => y = x
  | .removeStaged, x, y => y = x
  | .removeBackup, x, y => y = x
  | .testLive, _, _ => False
  | .forgetStaged, _, _ => False
  | .forgetBackup, _, _ => False

/-- A command that is interrupted. A file may have been made that no variable names yet, and one
may have been moved back while a variable still does. -/
def SlotInterrupted : SlotCommand → Slot File → Slot File → Prop
  | .makeStaged, x, y => ∃ file, y = { x with staged := some file }
  | .makeBackup, x, y => x.hadLive = true ∧ ∃ file, y = { x with backup := some file }
  | .restore, x, y => x.hadLive = true ∧ x.backup.isSome = true ∧ x.linked = false ∧
      y = { x with live := x.backup, backup := none }
  | c, x, y => SlotFailed c x y

def slotShell (vendor : File) (restores : Bool) : Shell SlotCommand (Slot File) where
  done c x y := ∃ file, c.perform file vendor restores x = some y
  failed := SlotFailed
  interrupted := SlotInterrupted

/-- The commands: `other` is any that is not about the databases. -/
inductive Command where
  | on (d : Database) (c : SlotCommand)
  | replay
  | begin
  | finish
  | other

/-- A database is changed. -/
def State.put (s : State File) (d : Database) (x : Slot File) : State File :=
  { s with slot := Function.update s.slot d x }

/-- The replay writes to two staged databases (install.sh:213). -/
def State.replay (s : State File) (main english : Option File) : State File :=
  (s.put .main { s.slot .main with staged := main }).put .english
    { s.slot .english with staged := english }

def Command.perform (M : Machine File) (file : File) : Command → State File → Option (State File)
  | .on d c, s => (c.perform file (M.vendor d) (M.restores d) (s.slot d)).map (s.put d)
  | .replay, s =>
    some (if M.learned then s.replay (some (M.replayed .main)) (some (M.replayed .english)) else s)
  | .begin, s => some { s with started := true }
  | .finish, s => some { s with complete := true }
  | .other, s => some s

def shell (M : Machine File) : Shell Command (State File) where
  done c s t := ∃ file, c.perform M file s = some t
  failed
    | .on d c, s, t => ∃ x, SlotFailed c (s.slot d) x ∧ t = s.put d x
    | .replay, s, t => ∃ main english, t = s.replay main english
    | .begin, _, _ => False
    | .finish, _, _ => False
    | .other, s, t => t = s
  interrupted
    | .on d c, s, t => ∃ x, SlotInterrupted c (s.slot d) x ∧ t = s.put d x
    | .replay, s, t => ∃ main english, t = s.replay main english
    | .begin, _, _ => False
    | .finish, _, _ => False
    | .other, s, t => t = s

def databases : List Database := [.main, .others, .english]

/-- The same commands for each of some databases. -/
def each (ds : List Database) (cs : List SlotCommand) : List Command :=
  ds.flatMap fun d => cs.map (.on d)

/-- The script, from where the staged databases are made (install.sh:198). -/
def script : List Command :=
  .other :: (each databases [.makeStaged] ++ (each databases [.fillStaged] ++
    (.other :: .replay ::
      (each databases [.testLive, .makeBackup, .freeBackup, .linkBackup] ++
        (.begin :: (each [.others, .english, .main] [.swap, .forgetStaged] ++
          (.finish :: (each databases [.dropBackup, .forgetBackup] ++ [.other]))))))))

/-- `cleanup` (install.sh:43). -/
def cleanup (s : State File) : List Command :=
  .other ::
    ((if s.started = true ∧ s.complete = false then each databases [.restore] else []) ++
      (each databases [.removeStaged] ++ (each databases [.removeBackup] ++ [.other])))

/-- How the script starts. -/
def fresh (old : Database → Option File) : State File := { slot := fun d => { live := old d } }

/-! ## One database and all of them -/

variable {M : Machine File} {started complete : Bool}

/-- Every database is in a state of its own kind. -/
structure At (P : Database → Slot File → Prop) (started complete : Bool) (s : State File) :
    Prop where
  slot : ∀ d, P d (s.slot d)
  started : s.started = started
  complete : s.complete = complete

/-- What is known of all databases may be weakened. -/
theorem At.imp {P Q : Database → Slot File → Prop} {s : State File} (h : At P started complete s)
    (himp : ∀ d x, P d x → Q d x) : At Q started complete s :=
  ⟨fun d => himp d _ (h.slot d), h.started, h.complete⟩

/-- A change of one database leaves what is known of the others. -/
theorem At.put {P Q : Database → Slot File → Prop} {s : State File} (h : At P started complete s)
    {d : Database} {x : Slot File} (hd : Q d x) (hother : ∀ e, e ≠ d → ∀ y, P e y → Q e y) :
    At Q started complete (s.put d x) := by
  refine ⟨fun e => ?_, h.started, h.complete⟩
  by_cases he : e = d
  · subst he
    simpa [State.put] using hd
  · have hslot : (s.put d x).slot e = s.slot e := by simp [State.put, he]
    rw [hslot]
    exact hother e he _ (h.slot e)

/-- Some databases are through, the others are not. -/
def Through (ds : List Database) (A B : Database → Slot File → Prop) (d : Database)
    (x : Slot File) : Prop :=
  if d ∈ ds then A d x else B d x

/-- Commands about one database change this one only. -/
theorem on_script {d : Database} {cs : List SlotCommand} {s t : State File} {e : ScriptEnd}
    (h : Script (shell M) (cs.map (.on d)) s e t) :
    ∃ x, Script (slotShell (M.vendor d) (M.restores d)) cs (s.slot d) e x ∧ t = s.put d x := by
  have hself : s = s.put d (s.slot d) := by simp [State.put]
  induction cs generalizing s with
  | nil =>
    cases h with
    | nil => exact ⟨_, .nil _, hself⟩
    | stop => exact ⟨_, .stop _ _, hself⟩
  | cons c cs ih =>
    cases h with
    | stop => exact ⟨_, .stop _ _, hself⟩
    | failed _ hfailed =>
      obtain ⟨x, hx, rfl⟩ := hfailed
      exact ⟨x, .failed _ hx, rfl⟩
    | interrupted _ hinterrupted =>
      obtain ⟨x, hx, rfl⟩ := hinterrupted
      exact ⟨x, .interrupted _ hx, rfl⟩
    | step hdone hrun =>
      obtain ⟨file, hperform⟩ := hdone
      obtain ⟨x, hx, rfl⟩ := Option.map_eq_some_iff.mp hperform
      obtain ⟨y, hy, rfl⟩ := ih hrun (by simp [State.put])
      have hslot : (s.put d x).slot d = x := by simp [State.put]
      rw [hslot] at hy
      exact ⟨y, .step ⟨file, hx⟩ hy, by simp [State.put]⟩

/-- The same commands for one database after the other: what holds of one of them when it stops
there has to hold of those that are through and of those whose turn is to come. -/
theorem on_triple {A B : Database → Slot File → Prop} {E : ScriptEnd → Database → Slot File → Prop}
    {ds : List Database} (hnodup : ds.Nodup) {cs : List SlotCommand}
    (hA : ∀ e d x, A d x → E e d x) (hB : ∀ e d x, B d x → E e d x)
    (h : ∀ d, Triple (slotShell (M.vendor d) (M.restores d)) (B d) cs (A d) fun e => E e d) :
    Triple (shell M) (At B started complete) (each ds cs) (At (Through ds A B) started complete)
      fun e => At (E e) started complete := by
  -- a database that is through or still to come is as the ending asks
  have hthrough : ∀ before e d x, Through before A B d x → E e d x := by
    intro before e d x hx
    unfold Through at hx
    split at hx
    · exact hA e d x hx
    · exact hB e d x hx
  have hall : Triple (shell M) (At (Through [] A B) started complete) (each ds cs)
      (At (Through ds A B) started complete) fun e => At (E e) started complete := by
    refine Triple.forEach (I := fun before => At (Through before A B) started complete)
      (fun before s hs => hs.imp fun d x => hthrough before _ d x) ?_ hnodup
    intro before d hd s hs e t hrun
    obtain ⟨x, hx, rfl⟩ := on_script hrun
    have hslot := hs.slot d
    rw [Through, if_neg hd] at hslot
    have hend := h d _ hslot e x hx
    -- the commands go on to the next database, or stop at this one
    split at hend
    next he =>
      rw [if_pos he]
      refine hs.put ?_ fun other hne y hy => ?_
      · rw [Through, if_pos (by simp)]
        exact hend
      · have hmem : other ∈ before ++ [d] ↔ other ∈ before := by simp [hne]
        unfold Through at hy ⊢
        rwa [if_congr hmem rfl rfl]
    next he =>
      rw [if_neg he]
      exact hs.put hend fun other _ y hy => hthrough before e other y hy
  exact hall.mono_pre fun s hs => hs.imp fun d x hx => by simpa [Through] using hx

/-- All databases are through. -/
theorem At.through {A B : Database → Slot File → Prop} {ds : List Database} {s : State File}
    (h : At (Through ds A B) started complete s) (hall : ∀ d, d ∈ ds) :
    At A started complete s :=
  h.imp fun d x hx => by
    rwa [Through, if_pos (hall d)] at hx

/-! ## The states of a database -/

section Slots

variable {old : Option File} {new vendor : File} {restores : Bool} {e : ScriptEnd} {x y : Slot File}

/-- What a database is like where the script stops. -/
structure Rest (started complete : Bool) (old : Option File) (new : File) (e : ScriptEnd)
    (x : Slot File) : Prop where
  before : started = false → x.live = old
  swapping : started = true → complete = false → x.hadLive = old.isSome ∧ x.backup = old ∧
    (x.linked = old.isSome ∧ x.live = old ∨ x.linked = false ∧ x.live = some new)
  complete : complete = true → x.live = some new
  staged : e ≠ .interrupted → x.staged ≠ none → x.stagedNamed = true
  backup : e ≠ .interrupted → x.backup ≠ none → x.backupNamed = true

/-- Nothing has been made. -/
structure Fresh (old : Option File) (x : Slot File) : Prop where
  live : x.live = old
  staged : x.staged = none
  backup : x.backup = none
  linked : x.linked = false

/-- There is a staged file, and it holds what is given. -/
structure Made (old : Option File) (x : Slot File) : Prop where
  live : x.live = old
  backup : x.backup = none
  linked : x.linked = false
  stagedNamed : x.stagedNamed = true

structure Filled (old : Option File) (content : File) (x : Slot File) : Prop
    extends Made old x where
  staged : x.staged = some content

/-- What was live has a backup. -/
structure Saved (old : Option File) (new : File) (x : Slot File) : Prop where
  live : x.live = old
  staged : x.staged = some new
  stagedNamed : x.stagedNamed = true
  hadLive : x.hadLive = old.isSome
  backup : x.backup = old
  linked : x.linked = old.isSome
  backupNamed : old.isSome = true → x.backupNamed = true

/-- What was staged is live. -/
structure Swapped (old : Option File) (new : File) (x : Slot File) : Prop where
  live : x.live = some new
  staged : x.staged = none
  hadLive : x.hadLive = old.isSome
  backup : x.backup = old
  linked : x.linked = false
  backupNamed : old.isSome = true → x.backupNamed = true

/-- Nothing is left but the live file. -/
structure Released (new : File) (x : Slot File) : Prop where
  live : x.live = some new
  staged : x.staged = none
  backup : x.backup = none

/-- Wherever the script stops, what it knows of a database is what the cleanup needs. -/
theorem Fresh.rest (h : Fresh old x) : Rest false false old new e x :=
  ⟨fun _ => h.live, by simp, by simp, fun _ hne => absurd h.staged hne,
    fun _ hne => absurd h.backup hne⟩

theorem Made.rest (h : Made old x) : Rest false false old new e x :=
  ⟨fun _ => h.live, by simp, by simp, fun _ _ => h.stagedNamed, fun _ hne => absurd h.backup hne⟩

/-- A copy to the staged file may have got anywhere. -/
theorem Made.copying (h : Made old x) (staged : Option File) : Made old { x with staged } :=
  ⟨h.live, h.backup, h.linked, h.stagedNamed⟩

theorem isSome_of_ne_none {o : Option File} (h : o ≠ none) : o.isSome = true :=
  Option.isSome_iff_ne_none.mpr h

theorem Saved.rest (h : Saved old new x) : Rest started false old new e x :=
  ⟨fun _ => h.live, fun _ _ => ⟨h.hadLive, h.backup, .inl ⟨h.linked, h.live⟩⟩, by simp,
    fun _ _ => h.stagedNamed, fun _ hne => h.backupNamed (h.backup ▸ isSome_of_ne_none hne)⟩

theorem Swapped.rest (h : Swapped old new x) : Rest true complete old new e x :=
  ⟨by simp, fun _ _ => ⟨h.hadLive, h.backup, .inr ⟨h.linked, h.live⟩⟩, fun _ => h.live,
    fun _ hne => absurd h.staged hne, fun _ hne => h.backupNamed (h.backup ▸ isSome_of_ne_none hne)⟩

theorem Released.rest (h : Released new x) : Rest true true old new e x :=
  ⟨by simp, by simp, fun _ => h.live, fun _ hne => absurd h.staged hne,
    fun _ hne => absurd h.backup hne⟩

/-- The commands on one database: a staged file is made. -/
theorem make_triple : Triple (slotShell vendor restores) (Fresh old) [.makeStaged] (Made old)
    (Rest false false old new) := by
  refine Triple.cons (fun x hx => hx.rest) ?_ ?_ ?_ (Triple.nil fun x hx => hx.rest)
  · rintro x y hx rfl
    exact hx.rest
  · rintro x y hx ⟨file, rfl⟩
    exact ⟨fun _ => hx.live, by simp, by simp, by simp, by simp⟩
  · rintro x y hx ⟨file, ⟨⟩⟩
    exact ⟨hx.live, hx.backup, hx.linked, rfl⟩

/-- It is filled. -/
theorem fill_triple : Triple (slotShell vendor restores) (Made old) [.fillStaged]
    (Filled old vendor) (Rest false false old new) := by
  refine Triple.cons (fun x hx => hx.rest) ?_ ?_ ?_ (Triple.nil fun x hx => hx.rest)
  · rintro x y hx ⟨staged, rfl⟩
    exact (hx.copying staged).rest
  · rintro x y hx ⟨staged, rfl⟩
    exact (hx.copying staged).rest
  · rintro x y hx ⟨-, ⟨⟩⟩
    exact ⟨⟨hx.live, hx.backup, hx.linked, hx.stagedNamed⟩, rfl⟩

/-- Between the commands that make a backup. -/
structure Saving (old : Option File) (new : File) (named : Bool) (x : Slot File) : Prop where
  live : x.live = old
  staged : x.staged = some new
  stagedNamed : x.stagedNamed = true
  hadLive : x.hadLive = old.isSome
  linked : x.linked = false
  backupNamed : (named && old.isSome) = true → x.backupNamed = true
  backup : named = false ∨ old = none → x.backup = none

theorem Saving.rest {named : Bool} (h : Saving old new named x) :
    Rest false false old new e x := by
  refine ⟨fun _ => h.live, by simp, by simp, fun _ _ => h.stagedNamed, fun _ hne => ?_⟩
  by_contra hnot
  refine hne (h.backup ?_)
  by_contra hor
  rw [not_or] at hor
  refine hnot (h.backupNamed ?_)
  simp [Bool.not_eq_false _ ▸ hor.1, isSome_of_ne_none hor.2]

/-- What is interrupted may leave a file that no variable names. -/
theorem Rest.interrupted (hlive : x.live = old) : Rest false false old new .interrupted x :=
  ⟨fun _ => hlive, by simp, by simp, by simp, by simp⟩

/-- The live one is linked as a backup. -/
theorem save_triple : Triple (slotShell vendor restores) (Filled old new)
    [.testLive, .makeBackup, .freeBackup, .linkBackup] (Saved old new)
    (Rest false false old new) := by
  -- the commands are taken from the last one back
  have hlink : Triple (slotShell vendor restores)
      (fun x => Saving old new true x ∧ x.backup = none) [.linkBackup] (Saved old new)
      (Rest false false old new) := by
    refine Triple.cons (fun x hx => hx.1.rest) ?_ ?_ ?_ (Triple.nil fun x hx => hx.rest)
    · rintro x y hx rfl
      exact hx.1.rest
    · rintro x y hx rfl
      exact hx.1.rest
    · rintro x y ⟨hx, hnone⟩ ⟨-, ⟨⟩⟩
      have hnamed : old.isSome = true → x.backupNamed = true := by simpa using hx.backupNamed
      -- `ln` is skipped for a database that is not installed
      split
      next hhad =>
        exact ⟨hx.live, hx.staged, hx.stagedNamed, hx.hadLive, hx.live,
          hhad.symm.trans hx.hadLive, hnamed⟩
      next hnot =>
        have hold : old = none := by
          rw [hx.hadLive] at hnot
          simpa using hnot
        subst hold
        exact ⟨hx.live, hx.staged, hx.stagedNamed, hx.hadLive, hnone, hx.linked, hnamed⟩
  have hfree : Triple (slotShell vendor restores) (Saving old new true)
      [.freeBackup, .linkBackup] (Saved old new) (Rest false false old new) := by
    refine Triple.cons (fun x hx => hx.rest) ?_ ?_ ?_ hlink
    · rintro x y hx rfl
      exact hx.rest
    · rintro x y hx rfl
      exact hx.rest
    · rintro x y hx ⟨-, ⟨⟩⟩
      -- `mktemp` has made a file, and `ln` wants the name free
      split
      · exact ⟨⟨hx.live, hx.staged, hx.stagedNamed, hx.hadLive, hx.linked, hx.backupNamed,
          fun _ => rfl⟩, rfl⟩
      next hnot =>
        have hold : old = none := by
          rw [hx.hadLive] at hnot
          simpa using hnot
        exact ⟨hx, hx.backup (.inr hold)⟩
  have hmake : Triple (slotShell vendor restores) (Saving old new false)
      [.makeBackup, .freeBackup, .linkBackup] (Saved old new) (Rest false false old new) := by
    refine Triple.cons (fun x hx => hx.rest) ?_ ?_ ?_ hfree
    · rintro x y hx rfl
      exact hx.rest
    · rintro x y hx ⟨-, file, rfl⟩
      -- the file is made and its name not yet stored
      exact .interrupted hx.live
    · rintro x y hx ⟨file, ⟨⟩⟩
      split
      next hlive =>
        refine ⟨hx.live, hx.staged, hx.stagedNamed, hx.hadLive, hx.linked, fun _ => rfl, ?_⟩
        rintro (hnot | rfl)
        · cases hnot
        · rw [hx.hadLive] at hlive
          cases hlive
      next hnot =>
        have hold : old = none := by
          rw [hx.hadLive] at hnot
          simpa using hnot
        exact ⟨hx.live, hx.staged, hx.stagedNamed, hx.hadLive, hx.linked, by simp [hold],
          fun _ => hx.backup (.inl rfl)⟩
  refine Triple.cons (fun x hx => hx.rest) ?_ ?_ ?_ hmake
  · rintro x y hx ⟨⟩
  · rintro x y hx ⟨⟩
  · rintro x y hx ⟨-, ⟨⟩⟩
    exact ⟨hx.live, hx.staged, hx.stagedNamed, by rw [← hx.live], hx.linked, by simp,
      fun _ => hx.backup⟩

/-- The staged file takes the place of the live one. -/
theorem exchange_triple : Triple (slotShell vendor restores) (Saved old new)
    [.swap, .forgetStaged] (Swapped old new) (Rest true false old new) := by
  have hforget : Triple (slotShell vendor restores) (Swapped old new) [.forgetStaged]
      (Swapped old new) (Rest true false old new) := by
    refine Triple.cons (fun x hx => hx.rest) ?_ ?_ ?_ (Triple.nil fun x hx => hx.rest)
    · rintro x y hx ⟨⟩
    · rintro x y hx ⟨⟩
    · rintro x y hx ⟨-, ⟨⟩⟩
      exact ⟨hx.live, hx.staged, hx.hadLive, hx.backup, hx.linked, hx.backupNamed⟩
  refine Triple.cons (fun x hx => hx.rest) ?_ ?_ ?_ hforget
  · rintro x y hx rfl
    exact hx.rest
  · rintro x y hx rfl
    exact hx.rest
  · rintro x y hx ⟨_, hperform⟩
    obtain ⟨file, hfile, rfl⟩ := Option.map_eq_some_iff.mp hperform
    have hnew : new = file := Option.some.inj (hx.staged ▸ hfile)
    exact ⟨by rw [hnew], rfl, hx.hadLive, hx.backup, rfl, hx.backupNamed⟩

/-- The backup is dropped. -/
theorem release_triple : Triple (slotShell vendor restores) (Swapped old new)
    [.dropBackup, .forgetBackup] (Released new) (Rest true true old new) := by
  have hforget : Triple (slotShell vendor restores) (Released new) [.forgetBackup]
      (Released new) (Rest true true old new) := by
    refine Triple.cons (fun x hx => hx.rest) ?_ ?_ ?_ (Triple.nil fun x hx => hx.rest)
    · rintro x y hx ⟨⟩
    · rintro x y hx ⟨⟩
    · rintro x y hx ⟨-, ⟨⟩⟩
      exact ⟨hx.live, hx.staged, hx.backup⟩
  refine Triple.cons (fun x hx => hx.rest) ?_ ?_ ?_ hforget
  · rintro x y hx rfl
    exact hx.rest
  · rintro x y hx rfl
    exact hx.rest
  · rintro x y hx ⟨-, ⟨⟩⟩
    split
    · exact ⟨hx.live, hx.staged, rfl⟩
    next hnot =>
      refine ⟨hx.live, hx.staged, ?_⟩
      by_contra hne
      exact hnot (hx.backupNamed (hx.backup ▸ isSome_of_ne_none hne))

end Slots

/-! ## The script -/

variable {old : Database → Option File}

/-- What the script leaves wherever it stops. -/
def Left (M : Machine File) (old : Database → Option File) (e : ScriptEnd) (s : State File) :
    Prop :=
  (s.complete = true → s.started = true) ∧
    ∀ d, Rest s.started s.complete (old d) (M.new d) e (s.slot d)

/-- The end of the script, in all databases. -/
theorem At.left {P : Database → Slot File → Prop} {s : State File} {e : ScriptEnd}
    (h : At P started complete s) (hflags : complete = true → started = true)
    (hP : ∀ d x, P d x → Rest started complete (old d) (M.new d) e x) : Left M old e s := by
  obtain ⟨hslot, rfl, rfl⟩ := h
  exact ⟨hflags, fun d => hP d _ (hslot d)⟩

/-- The same commands for every database, from one kind of state to another. -/
theorem each_triple {A B : Database → Slot File → Prop} {ds : List Database}
    {cs : List SlotCommand} (hflags : complete = true → started = true) (hnodup : ds.Nodup)
    (hall : ∀ d, d ∈ ds)
    (hA : ∀ e d x, A d x → Rest started complete (old d) (M.new d) e x)
    (hB : ∀ e d x, B d x → Rest started complete (old d) (M.new d) e x)
    (h : ∀ d, Triple (slotShell (M.vendor d) (M.restores d)) (B d) cs (A d)
      (Rest started complete (old d) (M.new d))) :
    Triple (shell M) (At B started complete) (each ds cs) (At A started complete)
      (Left M old) := by
  intro s hs e t hrun
  have hend := on_triple hnodup hA hB h s hs e t hrun
  split at hend
  next he =>
    rw [if_pos he]
    exact hend.through hall
  next he =>
    rw [if_neg he]
    exact hend.left hflags fun _ _ hx => hx

theorem mem_databases (d : Database) : d ∈ databases := by
  cases d <;> decide

/-- A command that is not about the databases. -/
theorem other_triple {P : State File → Prop} {Q : State File → Prop} {cs : List Command}
    {E : ScriptEnd → State File → Prop} (hP : ∀ e s, P s → E e s)
    (h : Triple (shell M) P cs Q E) : Triple (shell M) P (.other :: cs) Q E := by
  refine Triple.cons (hP .interrupted) ?_ ?_ ?_ h
  · rintro s t hs rfl
    exact hP .failed _ hs
  · rintro s t hs rfl
    exact hP .interrupted _ hs
  · rintro s t hs ⟨-, ⟨⟩⟩
    exact hs

/-- The journals are replayed into the staged files. -/
theorem replay_at {P Q : Database → Slot File → Prop} {s : State File}
    (h : At P started complete s) (main english : Option File)
    (hmain : ∀ x, P .main x → Q .main { x with staged := main })
    (hothers : ∀ x, P .others x → Q .others x)
    (henglish : ∀ x, P .english x → Q .english { x with staged := english }) :
    At Q started complete (s.replay main english) := by
  refine ⟨fun d => ?_, h.started, h.complete⟩
  cases d with
  | main => exact hmain _ (h.slot .main)
  | others => exact hothers _ (h.slot .others)
  | english => exact henglish _ (h.slot .english)

/-- The replay ends where every staged file is the new one. -/
theorem replay_triple {Q : State File → Prop} {cs : List Command}
    (h : Triple (shell M) (At (fun d => Filled (old d) (M.new d)) false false) cs Q (Left M old)) :
    Triple (shell M) (At (fun d => Filled (old d) (M.vendor d)) false false) (.replay :: cs) Q
      (Left M old) := by
  have hleft : ∀ e s, At (fun d => Made (old d)) false false s → Left M old e s := fun e s hs =>
    hs.left (by simp) fun _ _ hx => hx.rest
  have hmade : ∀ s, At (fun d => Filled (old d) (M.vendor d)) false false s →
      At (fun d => Made (old d)) false false s := fun s hs => hs.imp fun _ _ hx => hx.toMade
  refine Triple.cons (fun s hs => hleft _ s (hmade s hs)) ?_ ?_ ?_ h
  · rintro s t hs ⟨main, english, rfl⟩
    exact hleft _ _ (replay_at (hmade s hs) main english (fun _ hx => hx.copying main)
      (fun _ hx => hx) fun _ hx => hx.copying english)
  · rintro s t hs ⟨main, english, rfl⟩
    exact hleft _ _ (replay_at (hmade s hs) main english (fun _ hx => hx.copying main)
      (fun _ hx => hx) fun _ hx => hx.copying english)
  · rintro s t hs ⟨-, ⟨⟩⟩
    split
    next hlearned =>
      refine replay_at hs _ _ (fun x hx => ⟨hx.toMade.copying _, ?_⟩)
        (fun x hx => ⟨hx.toMade, ?_⟩) fun x hx => ⟨hx.toMade.copying _, ?_⟩
      · simp [Machine.new, hlearned]
      · simpa [Machine.new] using hx.staged
      · simp [Machine.new, hlearned]
    next hlearned =>
      refine hs.imp fun d x hx => ⟨hx.toMade, ?_⟩
      simpa [Machine.new, hlearned] using hx.staged

/-- **The script** ends where every database is the new one and nothing else is left. -/
theorem script_triple (M : Machine File) (old : Database → Option File) :
    Triple (shell M) (At (fun d => Fresh (old d)) false false) script
      (At (fun d => Released (M.new d)) true true) (Left M old) := by
  have hfresh : ∀ e s, At (fun d => Fresh (old d)) false false s → Left M old e s :=
    fun e s hs => hs.left (by simp) fun _ _ hx => hx.rest
  have hfilled : ∀ e s, At (fun d => Filled (old d) (M.vendor d)) false false s →
      Left M old e s := fun e s hs => hs.left (by simp) fun _ _ hx => hx.rest
  have hreleased : ∀ e s, At (fun d => Released (M.new d)) true true s → Left M old e s :=
    fun e s hs => hs.left (by simp) fun _ _ hx => hx.rest
  -- one triple for each stretch of the script
  have hmake : Triple (shell M) (At (fun d => Fresh (old d)) false false)
      (each databases [.makeStaged]) (At (fun d => Made (old d)) false false) (Left M old) :=
    each_triple (by simp) (by decide) mem_databases (fun _ _ _ hx => hx.rest)
      (fun _ _ _ hx => hx.rest) fun _ => make_triple
  have hfill : Triple (shell M) (At (fun d => Made (old d)) false false)
      (each databases [.fillStaged]) (At (fun d => Filled (old d) (M.vendor d)) false false)
      (Left M old) :=
    each_triple (by simp) (by decide) mem_databases (fun _ _ _ hx => hx.rest)
      (fun _ _ _ hx => hx.rest) fun _ => fill_triple
  have hsave : Triple (shell M) (At (fun d => Filled (old d) (M.new d)) false false)
      (each databases [.testLive, .makeBackup, .freeBackup, .linkBackup])
      (At (fun d => Saved (old d) (M.new d)) false false) (Left M old) :=
    each_triple (by simp) (by decide) mem_databases (fun _ _ _ hx => hx.rest)
      (fun _ _ _ hx => hx.rest) fun _ => save_triple
  have hexchange : Triple (shell M) (At (fun d => Saved (old d) (M.new d)) true false)
      (each [.others, .english, .main] [.swap, .forgetStaged])
      (At (fun d => Swapped (old d) (M.new d)) true false) (Left M old) :=
    each_triple (by simp) (by decide) (fun d => by cases d <;> decide)
      (fun _ _ _ hx => hx.rest) (fun _ _ _ hx => hx.rest) fun _ => exchange_triple
  have hrelease : Triple (shell M) (At (fun d => Swapped (old d) (M.new d)) true true)
      (each databases [.dropBackup, .forgetBackup])
      (At (fun d => Released (M.new d)) true true) (Left M old) :=
    each_triple (by simp) (by decide) mem_databases (fun _ _ _ hx => hx.rest)
      (fun _ _ _ hx => hx.rest) fun _ => release_triple
  -- the two flags of the swap are set in between
  have hfinish : Triple (shell M) (At (fun d => Swapped (old d) (M.new d)) true false)
      (.finish :: (each databases [.dropBackup, .forgetBackup] ++ [.other]))
      (At (fun d => Released (M.new d)) true true) (Left M old) := by
    refine Triple.cons (fun s hs => hs.left (by simp) fun _ _ hx => hx.rest) ?_ ?_ ?_
      (hrelease.append (other_triple hreleased (Triple.nil (hreleased .interrupted))))
    · rintro s t hs ⟨⟩
    · rintro s t hs ⟨⟩
    · rintro s t hs ⟨-, ⟨⟩⟩
      exact ⟨hs.slot, hs.started, rfl⟩
  have hbegin : Triple (shell M) (At (fun d => Saved (old d) (M.new d)) false false)
      (.begin :: (each [.others, .english, .main] [.swap, .forgetStaged] ++
        (.finish :: (each databases [.dropBackup, .forgetBackup] ++ [.other]))))
      (At (fun d => Released (M.new d)) true true) (Left M old) := by
    refine Triple.cons (fun s hs => hs.left (by simp) fun _ _ hx => hx.rest) ?_ ?_ ?_
      (hexchange.append hfinish)
    · rintro s t hs ⟨⟩
    · rintro s t hs ⟨⟩
    · rintro s t hs ⟨-, ⟨⟩⟩
      exact ⟨hs.slot, rfl, hs.complete⟩
  exact other_triple hfresh (hmake.append (hfill.append
    (other_triple hfilled (replay_triple (hsave.append hbegin)))))

/-! ## The cleanup -/

section Cleanup

variable {old : Option File} {new vendor : File} {restores stuck : Bool} {e : ScriptEnd}
  {x : Slot File}

/-- Nothing is lost of a database: it is one or the other, and the old one is there as long as
the swap is not complete. -/
structure Kept (complete : Bool) (old : Option File) (new : File) (x : Slot File) : Prop where
  either : x.live = old ∨ x.live = some new
  kept : complete = false → x.live = old ∨ x.backup = old
  complete : complete = true → x.live = some new

/-- The live file is the one it shall be, if it can be moved back; what is left has a name. The
backup of a database that was not swapped is stuck: no variable names it any more. -/
structure Settled (complete restores stuck : Bool) (old : Option File) (new : File)
    (e : ScriptEnd) (x : Slot File) : Prop where
  either : x.live = old ∨ x.live = some new
  restored : complete = false → restores = true → x.live = old
  kept : complete = false → x.live = old ∨ x.backup = old ∧ x.backupNamed = false
  complete : complete = true → x.live = some new
  staged : e ≠ .interrupted → x.staged ≠ none → x.stagedNamed = true
  backup : e ≠ .interrupted → restores = true → x.backup ≠ none →
    x.backupNamed = true ∨ stuck = true
  unnamed : stuck = true → x.backup ≠ none ∧ x.backupNamed = false

theorem Rest.kept (h : Rest started complete old new e x) (hflags : complete = true →
    started = true) : Kept complete old new x := by
  cases started with
  | false =>
    have hlive := h.before rfl
    exact ⟨.inl hlive, fun _ => .inl hlive, h.complete⟩
  | true =>
    cases complete with
    | false =>
      obtain ⟨-, hbackup, hlive⟩ := h.swapping rfl rfl
      exact ⟨hlive.imp And.right And.right, fun _ => .inr hbackup, h.complete⟩
    | true => exact ⟨.inr (h.complete rfl), by simp, h.complete⟩

theorem Settled.toKept (h : Settled complete restores stuck old new e x) :
    Kept complete old new x :=
  ⟨h.either, fun hnot => (h.kept hnot).imp_right And.left, h.complete⟩

/-- Before and after the swap there is nothing to move back. -/
theorem Rest.settled (h : Rest started complete old new e x)
    (hflags : ¬ (started = true ∧ complete = false)) (hcomplete : complete = true →
    started = true) : Settled complete restores false old new e x := by
  have hbefore : complete = false → x.live = old := by
    rintro rfl
    exact h.before (by simpa using hflags)
  exact ⟨(h.kept hcomplete).either, fun hnot _ => hbefore hnot, fun hnot => .inl (hbefore hnot),
    h.complete, h.staged, fun hend _ hne => .inl (h.backup hend hne), by simp⟩

/-- The cleanup: a backup is moved back, unless it is still the live file itself. -/
theorem restore_triple : Triple (slotShell vendor restores)
    (fun x => Rest true false old new e x ∧ x.linked = stuck) [.restore]
    (Settled false restores stuck old new e) fun _ => Kept false old new := by
  refine Triple.cons (fun x hx => hx.1.kept (by simp)) ?_ ?_ ?_
    (Triple.nil fun x hx => hx.toKept)
  · rintro x y hx rfl
    exact hx.1.kept (by simp)
  · rintro x y ⟨hx, -⟩ ⟨-, -, -, rfl⟩
    obtain ⟨-, hbackup, -⟩ := hx.swapping rfl rfl
    exact ⟨.inl hbackup, fun _ => .inl hbackup, by simp⟩
  · rintro x y ⟨hx, rfl⟩ ⟨-, ⟨⟩⟩
    obtain ⟨hhad, hbackup, hlive⟩ := hx.swapping rfl rfl
    split
    next hthere =>
      have hsome : x.backup ≠ none := Option.isSome_iff_ne_none.mp hthere.2
      split
      next hmoved =>
        -- the file the backup names is another one than the live file
        refine ⟨.inl hbackup, fun _ _ => hbackup, fun _ => .inl hbackup, by simp, hx.staged,
          fun _ _ hne => absurd rfl hne, fun hlinked => ?_⟩
        rw [hmoved.2] at hlinked
        cases hlinked
      next hnot =>
        refine ⟨hlive.imp And.right And.right, fun _ hrestores => ?_,
          fun _ => .inr ⟨hbackup, rfl⟩, by simp, hx.staged, fun _ hrestores _ => .inr ?_,
          fun _ => ⟨hsome, rfl⟩⟩
        · obtain ⟨-, hold⟩ | ⟨hunlinked, -⟩ := hlive
          · exact hold
          · exact absurd ⟨hrestores, hunlinked⟩ hnot
        · by_contra hunlinked
          exact hnot ⟨hrestores, by simpa using hunlinked⟩
    next hnot =>
      have hold : old = none := by
        rw [hhad, hbackup, and_self] at hnot
        simpa using hnot
      subst hold
      have hunlinked : x.linked = false := hlive.elim And.left And.left
      exact ⟨.inl rfl, fun _ _ => rfl, fun _ => .inl rfl, by simp, hx.staged,
        fun _ _ hne => absurd hbackup hne, by simp [hunlinked]⟩

/-- The staged file is removed. -/
theorem removeStaged_triple : Triple (slotShell vendor restores)
    (Settled complete restores stuck old new e) [.removeStaged]
    (fun x => Settled complete restores stuck old new e x ∧ (e ≠ .interrupted → x.staged = none))
    fun _ => Kept complete old new := by
  refine Triple.cons (fun x hx => hx.toKept) ?_ ?_ ?_ (Triple.nil fun x hx => hx.1.toKept)
  · rintro x y hx rfl
    exact hx.toKept
  · rintro x y hx rfl
    exact hx.toKept
  · rintro x y hx ⟨-, ⟨⟩⟩
    split
    · exact ⟨⟨hx.either, hx.restored, hx.kept, hx.complete, fun _ hne => absurd rfl hne, hx.backup,
        hx.unnamed⟩, fun _ => rfl⟩
    next hnot => exact ⟨hx, fun hend => by_contra fun hne => hnot (hx.staged hend hne)⟩

/-- What is left of a database after `cleanup`. -/
structure Cleaned (complete restores stuck : Bool) (old : Option File) (new : File)
    (e : ScriptEnd) (x : Slot File) : Prop extends Settled complete restores stuck old new e x where
  noStaged : e ≠ .interrupted → x.staged = none
  noBackup : e ≠ .interrupted → restores = true → (x.backup ≠ none ↔ stuck = true)

/-- So is the backup, if its variable still names it. -/
theorem removeBackup_triple : Triple (slotShell vendor restores)
    (fun x => Settled complete restores stuck old new e x ∧ (e ≠ .interrupted → x.staged = none))
    [.removeBackup] (Cleaned complete restores stuck old new e) fun _ => Kept complete old new := by
  refine Triple.cons (fun x hx => hx.1.toKept) ?_ ?_ ?_ (Triple.nil fun x hx => hx.toKept)
  · rintro x y hx rfl
    exact hx.1.toKept
  · rintro x y hx rfl
    exact hx.1.toKept
  · rintro x y ⟨hx, hstaged⟩ ⟨-, ⟨⟩⟩
    split
    next hnamed =>
      have hfree : stuck ≠ true := fun hstuck => by
        have hunnamed := (hx.unnamed hstuck).2
        rw [hnamed] at hunnamed
        cases hunnamed
      refine ⟨⟨hx.either, hx.restored, fun hnot => ?_, hx.complete, hx.staged,
        fun _ _ hne => absurd rfl hne, fun hstuck => absurd hstuck hfree⟩, hstaged,
        fun _ _ => iff_of_false (not_not_intro rfl) hfree⟩
      refine (hx.kept hnot).imp_right fun hkept => ?_
      rw [hnamed] at hkept
      cases hkept.2
    next hnot =>
      exact ⟨hx, hstaged, fun hend hrestores =>
        ⟨fun hne => (hx.backup hend hrestores hne).resolve_left hnot, fun hstuck =>
          (hx.unnamed hstuck).1⟩⟩

end Cleanup

/-- The swap was broken off before it came to this database, which has a backup. -/
def State.stuck (s : State File) (d : Database) : Bool :=
  s.started && !s.complete && (s.slot d).linked

/-- **The cleanup** settles every database, and loses nothing wherever it stops. -/
theorem cleanup_triple {s : State File} {e : ScriptEnd} (h : Left M old e s) :
    Triple (shell M) (fun t => t = s) (cleanup s)
      (At (fun d => Cleaned s.complete (M.restores d) (s.stuck d) (old d) (M.new d) e) s.started
        s.complete)
      fun _ => At (fun d => Kept s.complete (old d) (M.new d)) s.started s.complete := by
  obtain ⟨hflags, hslots⟩ := h
  have hrest : At (fun d x => Rest s.started s.complete (old d) (M.new d) e x ∧
      x.linked = (s.slot d).linked) s.started s.complete s :=
    ⟨fun d => ⟨hslots d, rfl⟩, rfl, rfl⟩
  -- the backups are moved back only in the middle of the swap
  have hrestore : Triple (shell M) (fun t => t = s)
      (if s.started = true ∧ s.complete = false then each databases [.restore] else [])
      (At (fun d => Settled s.complete (M.restores d) (s.stuck d) (old d) (M.new d) e)
        s.started s.complete)
      fun _ => At (fun d => Kept s.complete (old d) (M.new d)) s.started s.complete := by
    split
    next hswapping =>
      have hstuck : ∀ d, s.stuck d = (s.slot d).linked := fun d => by
        rw [State.stuck, hswapping.1, hswapping.2]
        rfl
      simp only [hstuck]
      rw [hswapping.1, hswapping.2] at hrest ⊢
      refine ((on_triple (by decide) (fun _ _ _ hx => hx.toKept)
        (fun _ _ _ hx => hx.1.kept (by simp)) fun _ => restore_triple).mono_post
          fun t ht => ht.through mem_databases).mono_pre ?_
      rintro t rfl
      exact hrest
    next hnot =>
      have hstuck : ∀ d, s.stuck d = false := fun d => by
        by_contra hstuck
        rw [Bool.not_eq_false, State.stuck, Bool.and_eq_true, Bool.and_eq_true,
          Bool.not_eq_true'] at hstuck
        exact hnot hstuck.1
      simp only [hstuck]
      refine Triple.mono_pre (Triple.nil fun t ht => ht.imp fun _ _ hx => hx.toKept) ?_
      rintro t rfl
      exact hrest.imp fun _ _ hx => hx.1.settled hnot hflags
  -- then what was staged goes, and what is left of the backups
  have hremoveStaged : Triple (shell M)
      (At (fun d => Settled s.complete (M.restores d) (s.stuck d) (old d) (M.new d) e)
        s.started s.complete)
      (each databases [.removeStaged])
      (At (fun d x => Settled s.complete (M.restores d) (s.stuck d) (old d) (M.new d) e x ∧
        (e ≠ .interrupted → x.staged = none)) s.started s.complete)
      fun _ => At (fun d => Kept s.complete (old d) (M.new d)) s.started s.complete :=
    (on_triple (by decide) (fun _ _ _ hx => hx.1.toKept) (fun _ _ _ hx => hx.toKept)
      fun _ => removeStaged_triple).mono_post fun t ht => ht.through mem_databases
  have hremoveBackup : Triple (shell M)
      (At (fun d x => Settled s.complete (M.restores d) (s.stuck d) (old d) (M.new d) e x ∧
        (e ≠ .interrupted → x.staged = none)) s.started s.complete)
      (each databases [.removeBackup])
      (At (fun d => Cleaned s.complete (M.restores d) (s.stuck d) (old d) (M.new d) e)
        s.started s.complete)
      fun _ => At (fun d => Kept s.complete (old d) (M.new d)) s.started s.complete :=
    (on_triple (by decide) (fun _ _ _ hx => hx.toKept) (fun _ _ _ hx => hx.1.toKept)
      fun _ => removeBackup_triple).mono_post fun t ht => ht.through mem_databases
  have hkept : ∀ t, At (fun d => Cleaned s.complete (M.restores d) (s.stuck d) (old d) (M.new d) e)
      s.started s.complete t → At (fun d => Kept s.complete (old d) (M.new d)) s.started
      s.complete t := fun t ht => ht.imp fun _ _ hx => hx.toKept
  -- around them stand commands that touch none of the databases
  refine other_triple ?_ (hrestore.append (hremoveStaged.append (hremoveBackup.append
    (other_triple (fun _ t ht => hkept t ht) (Triple.nil hkept)))))
  rintro - t rfl
  exact hrest.imp fun _ _ hx => hx.1.kept hflags

/-- **All or nothing**: wherever the script stops, nothing is lost, and when `cleanup` has come
to its end and could move the databases back, all of them are the new ones if the script came to
the end of its swap, and else all are the old ones. If the script was not interrupted, no staged
file is left, and a backup of just those databases that had one and were still to be swapped. -/
theorem install_all_or_nothing (M : Machine File) (old : Database → Option File)
    {s t : State File} {e e' : ScriptEnd} (hrun : Script (shell M) script (fresh old) e s)
    (hcleanup : Script (shell M) (cleanup s) s e' t) :
    (∀ d, Kept s.complete (old d) (M.new d) (s.slot d)) ∧
    (∀ d, Kept s.complete (old d) (M.new d) (t.slot d)) ∧
    (e = .done → s.complete = true) ∧
    (e' = .done → (∀ d, M.restores d = true) → ∀ d, (t.slot d).live =
      if s.complete then some (M.new d) else old d) ∧
    (e' = .done → e ≠ .interrupted → ∀ d, (t.slot d).staged = none ∧
      (M.restores d = true → ((t.slot d).backup ≠ none ↔
        s.started = true ∧ s.complete = false ∧ (s.slot d).linked = true))) := by
  have hfresh : At (fun d => Fresh (old d)) false false (fresh old) :=
    ⟨fun _ => ⟨rfl, rfl, rfl, rfl⟩, rfl, rfl⟩
  -- what the script leaves, however it ends, is what its cleanup finds
  have hend := script_triple M old _ hfresh e s hrun
  have hleft : Left M old e s ∧ (e = .done → s.complete = true) := by
    split at hend
    · exact ⟨hend.left (by simp) fun _ _ hx => hx.rest, fun _ => hend.complete⟩
    next he => exact ⟨hend, fun hdone => absurd hdone he⟩
  obtain ⟨hleft, hcomplete⟩ := hleft
  have hclean := cleanup_triple hleft _ rfl e' t hcleanup
  refine ⟨fun d => (hleft.2 d).kept hleft.1, fun d => ?_, hcomplete, ?_, ?_⟩
  · split at hclean
    · exact (hclean.slot d).toKept
    · exact hclean.slot d
  · rintro rfl hrestores d
    rw [if_pos rfl] at hclean
    split
    next hdone => exact (hclean.slot d).complete hdone
    next hnot => exact (hclean.slot d).restored (by simpa using hnot) (hrestores d)
  · rintro rfl hnot d
    rw [if_pos rfl] at hclean
    refine ⟨(hclean.slot d).noStaged hnot, fun hrestores => ?_⟩
    rw [(hclean.slot d).noBackup hnot hrestores, State.stuck, Bool.and_eq_true,
      Bool.and_eq_true, Bool.not_eq_true', and_assoc]

/-- All of some commands, each with the same file from `mktemp`. -/
def performAll (M : Machine File) (file : File) (cs : List Command) (s : State File) :
    Option (State File) :=
  cs.foldlM (fun s c => c.perform M file s) s

/-- Commands that succeed come before what happens next. -/
theorem performAll_script (M : Machine File) (file : File) (cs ds : List Command)
    {s t u : State File} {e : ScriptEnd} (h : performAll M file cs s = some t)
    (hrun : Script (shell M) ds t e u) : Script (shell M) (cs ++ ds) s e u := by
  induction cs generalizing s with
  | nil =>
    cases h
    exact hrun
  | cons c cs ih =>
    obtain ⟨r, hperform, hrest⟩ := Option.bind_eq_some_iff.mp h
    exact .step ⟨file, hperform⟩ (ih hrest)

/-- Over the first databases, the second move fails. -/
def secondInstall : Machine Nat where
  vendor
    | .main => 1
    | .others => 2
    | .english => 3
  learned := true
  replayed
    | .main => 11
    | .others => 12
    | .english => 13
  restores _ := true

def oneMoved : State Nat :=
  (performAll secondInstall 0 (script.take 24) (fresh fun _ => some 7)).get rfl

def movedBack : State Nat := (performAll secondInstall 0 (cleanup oneMoved) oneMoved).get rfl

theorem oneMoved_run : Script (shell secondInstall) script (fresh fun _ => some 7) .failed
    oneMoved := by
  refine performAll_script secondInstall 0 (script.take 24) (script.drop 24)
    (Option.some_get _).symm (.failed _ ⟨oneMoved.slot .english, rfl, ?_⟩)
  show oneMoved = oneMoved.put .english (oneMoved.slot .english)
  rw [State.put, Function.update_eq_self]

theorem movedBack_run : Script (shell secondInstall) (cleanup oneMoved) oneMoved .done
    movedBack := by
  have hrun := performAll_script secondInstall 0 (cleanup oneMoved) []
    (Option.some_get _).symm (.nil movedBack)
  rwa [List.append_nil] at hrun

/-- One database was swapped: it is moved back. The others keep their backups. -/
theorem install_all_or_nothing_interrupted :
    (oneMoved.slot .others).live = some 2 ∧
      (∀ d, (movedBack.slot d).live = some 7 ∧ (movedBack.slot d).staged = none) ∧
      ((movedBack.slot .others).backup = none ∧ (movedBack.slot .english).backup ≠ none) := by
  obtain ⟨-, -, -, hlive, hleft⟩ :=
    install_all_or_nothing secondInstall (fun _ => some 7) oneMoved_run movedBack_run
  have hothers := ((hleft rfl (by simp) .others).2 rfl).not
  refine ⟨rfl, fun d => ⟨hlive rfl (fun _ => rfl) d, (hleft rfl (by simp) d).1⟩, ?_, ?_⟩
  · exact not_not.mp (hothers.mpr fun h => by cases h.2.2)
  · exact ((hleft rfl (by simp) .english).2 rfl).mpr ⟨rfl, rfl, rfl⟩

end Install

end MsimeLinux
