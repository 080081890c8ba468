import Mathlib.Logic.Function.Basic
import MsimeLinux.Lib.Throwing
import MsimeLinux.Snapshot.Json

/-!
# Saving an exported dictionary (`DictionaryExport.cpp`)

The export is written to a temporary file beside its destination and linked to it when
it is whole; the link is never made over a file that is there. What the source, the
system and other processes do is an environment that answers as it likes, by the calls
made so far. Other processes may change any file but the temporary one, whose name only
this call knows.

- `saveDictionaryExport_allOrNothing`: the destination gets all the source produced, or
  nothing is changed.
-/

namespace MsimeLinux

open Lib

namespace DictionaryExport

/-! ## The surroundings -/

/-- What ends a save that fails: a failure of its own, or what the source threw. -/
inductive SaveError where
  | failure (failure : Failure)
  | thrown
  deriving DecidableEq

/-- What a source does: it fills the front of the buffer, says it has filled more than
there is, or throws. -/
inductive SourceAnswer where
  | produced (data : Bytes)
  | overrun
  | thrown
  deriving DecidableEq

/-- A call that `save_dictionary_export` makes. -/
inductive ExportCall where
  | check (cancelled : Bool)
  | make (path : Option Bytes)
  | source (offset capacity : Nat) (answer : SourceAnswer)
  | interrupted (data : Bytes)
  | write (data : Bytes) (amount : Nat)
  | sync (done : Bool)
  | link (done : Bool)
  | unlink
  deriving DecidableEq

/-- What a save cannot foresee. A path names an entry of some directory, and `others`
is what other processes have made of the entries before a call. -/
structure ExportEnv (κ : Type) where
  resolve : Bytes → κ
  hasSource : Bool
  cancelled : List ExportCall → Bool
  make : List ExportCall → Bytes → Option Bytes
  source : List ExportCall → Nat → Nat → SourceAnswer
  /-- a signal interrupts a write so many times before it does something -/
  interruptions : List ExportCall → Nat
  write : List ExportCall → Nat
  sync : List ExportCall → Bool
  linkFails : List ExportCall → Bool
  others : List ExportCall → κ → Option (Option Bytes)

/-- The files there are, and those there would be without the save. -/
structure ExportWorld (κ : Type) where
  files : κ → Option Bytes
  elsewhere : κ → Option Bytes
  calls : List ExportCall := []

variable {κ : Type} [DecidableEq κ]

abbrev ExportM (κ : Type) := Throwing SaveError (ExportWorld κ)

omit [DecidableEq κ] in
/-- One more call. -/
def ExportWorld.log (w : ExportWorld κ) (call : ExportCall) : ExportWorld κ :=
  { w with calls := w.calls ++ [call] }

/-- A file is created, written, linked or removed. -/
def ExportWorld.set (w : ExportWorld κ) (entry : κ) (content : Option Bytes) : ExportWorld κ :=
  { w with files := Function.update w.files entry content }

/-- What the source has produced. -/
def produced (calls : List ExportCall) : Bytes :=
  calls.flatMap fun
    | .source _ _ (.produced data) => data
    | _ => []

/-! ## Saving -/

section

variable (E : ExportEnv κ)

/-- Other processes change what they like, but the temporary file. -/
def ExportWorld.interfere (w : ExportWorld κ) (temporary : Option κ) : ExportWorld κ :=
  let change (files : κ → Option Bytes) (entry : κ) : Option Bytes :=
    if temporary = some entry then files entry else (E.others w.calls entry).getD (files entry)
  { w with files := change w.files, elsewhere := change w.elsewhere }

/-- A failure with a status. -/
def fail {α : Type} (status : Nat) : ExportM κ α := throw (.failure { status })

/-- `check` (DictionaryExport.cpp:45). -/
def checkCancelled : ExportM κ Unit := do
  let w ← get
  modify fun w => w.log (.check (E.cancelled w.calls))
  if E.cancelled w.calls then throw (.failure { status := 0, cancelled := true })

/-- The last component of a path is empty. -/
def emptyFilename (path : Bytes) : Bool := path.getLast? = some 47

/-- `parent_path`, or `.` (DictionaryExport.cpp:55). -/
def parentPath (path : Bytes) : Bytes :=
  match path.reverse.dropWhile (· ≠ 47) with
  | [] => [46]
  | rest =>
    let parent := (rest.dropWhile (· = 47)).reverse
    if parent = [] then [47] else parent

/-- `parent / ".msime-export-XXXXXX"`: the root ends in the separator. -/
def temporaryTemplate (destination : Bytes) : Bytes :=
  let parent := parentPath destination
  (if parent.getLast? = some 47 then parent else parent ++ [47]) ++ ascii ".msime-export-XXXXXX"

/-- `mkstemp`: a file of a new name. -/
def makeTemporary (template : Bytes) : ExportM κ (Option Bytes) := do
  modify fun w => w.interfere E none
  let w ← get
  match (E.make w.calls template).filter fun path => w.files (E.resolve path) = none with
  | some path =>
    modify fun w => (w.set (E.resolve path) (some [])).log (.make (some path))
    pure (some path)
  | none =>
    modify fun w => w.log (.make none)
    pure none

/-- The attempts a signal interrupts (DictionaryExport.cpp:82). -/
def retries (data : Bytes) : Nat → ExportM κ Unit
  | 0 => pure ()
  | n + 1 => do
    checkCancelled E
    modify fun w => w.log (.interrupted data)
    retries data n

/-- Writing a buffer (DictionaryExport.cpp:78). -/
def writeAll (temporary : κ) (data : Bytes) : ExportM κ Unit :=
  if data = [] then pure ()
  else do
    let w ← get
    retries E data (E.interruptions w.calls)
    checkCancelled E
    modify fun w => w.interfere E (some temporary)
    let w ← get
    let amount := min (E.write w.calls) data.length
    if _hamount : amount = 0 then fail 0
    else
      modify fun w => (w.set temporary ((w.files temporary).map (· ++ data.take amount))).log
        (.write data amount)
      writeAll temporary (data.drop amount)
termination_by data.length
decreasing_by
  rw [List.length_drop]
  have hle : amount ≤ data.length := Nat.min_le_right _ _
  omega

/-- Reading the source (DictionaryExport.cpp:69). -/
def copySource (temporary : κ) (size offset : Nat) : ExportM κ Unit :=
  if offset < size then do
    checkCancelled E
    let w ← get
    let capacity := min 16384 (size - offset)
    let answer := E.source w.calls offset capacity
    modify fun w => w.log (.source offset capacity answer)
    match answer with
    | .thrown => throw .thrown
    | .overrun => fail 400
    | .produced data =>
      if _hdata : data = [] ∨ capacity < data.length then fail 400
      else
        writeAll E temporary data
        copySource temporary size (offset + data.length)
  else pure ()
termination_by size - offset
decreasing_by
  have hpos : data.length ≠ 0 := fun hzero => _hdata (.inl (List.length_eq_zero_iff.mp hzero))
  omega

/-- `fsync` (DictionaryExport.cpp:90). -/
def syncFile : ExportM κ Unit := do
  let w ← get
  modify fun w => w.log (.sync (E.sync w.calls))
  if !E.sync w.calls then fail 0

/-- `link` (DictionaryExport.cpp:94): never over what is there. -/
def linkFile (temporary destination : κ) : ExportM κ Unit := do
  modify fun w => w.interfere E (some temporary)
  let w ← get
  if E.linkFails w.calls then
    modify fun w => w.log (.link false)
    fail 0
  else if w.files destination ≠ none then
    modify fun w => w.log (.link false)
    fail 409
  else
    modify fun w => (w.set destination (w.files temporary)).log (.link true)

/-- `~Temporary` (DictionaryExport.cpp:18): however the body ends. -/
def withTemporary (temporary : κ) (body : ExportM κ Unit) : ExportM κ Unit := do
  let cleanup : ExportM κ Unit := modify fun w => (w.set temporary none).log .unlink
  tryCatch body fun error => do
    cleanup
    throw error
  cleanup

/-- `save_dictionary_export` (DictionaryExport.cpp:39). -/
def saveDictionaryExport (destination : Bytes) (size : Nat) : ExportM κ Unit := do
  if E.hasSource = false ∨ 512 * 1024 * 1024 < size then throw (.failure { status := 400 })
  checkCancelled E
  if destination = [] ∨ 0 ∈ destination then throw (.failure { status := 400 })
  if emptyFilename destination = true then throw (.failure { status := 400 })
  match ← makeTemporary E (temporaryTemplate destination) with
  | none => fail 0
  | some path =>
    let temporary := E.resolve path
    withTemporary temporary do
      copySource E temporary size 0
      syncFile E
      checkCancelled E
      linkFile E temporary (E.resolve destination)

end

/-! ## The temporary file -/

/-- The save has changed nothing but its temporary file, which holds what was written. -/
structure Holds (w : ExportWorld κ) (temporary : κ) (written : Bytes) : Prop where
  files : w.files = Function.update w.elsewhere temporary (some written)
  absent : w.elsewhere temporary = none

section

variable {E : ExportEnv κ} {w : ExportWorld κ} {temporary : κ} {written : Bytes}

theorem Holds.log (h : Holds w temporary written) (call : ExportCall) :
    Holds (w.log call) temporary written :=
  ⟨h.files, h.absent⟩

/-- Other processes leave it alone. -/
theorem Holds.interfere (h : Holds w temporary written) :
    Holds (w.interfere E (some temporary)) temporary written := by
  constructor
  · funext entry
    show (if some temporary = some entry then _ else _) = _
    by_cases hentry : entry = temporary
    · subst hentry
      rw [if_pos rfl, Function.update_self, h.files, Function.update_self]
    · have hother : ¬ some temporary = some entry :=
        fun hsame => hentry (Option.some.inj hsame).symm
      rw [if_neg hother, Function.update_of_ne hentry, h.files, Function.update_of_ne hentry]
      exact (if_neg hother).symm
  · show (if some temporary = some temporary then _ else _) = none
    rw [if_pos rfl]
    exact h.absent

theorem Holds.append (h : Holds w temporary written) (chunk : Bytes) :
    Holds (w.set temporary ((w.files temporary).map (· ++ chunk))) temporary
      (written ++ chunk) := by
  refine ⟨?_, h.absent⟩
  show Function.update w.files temporary _ = _
  rw [h.files, Function.update_idem, Function.update_self, Option.map_some]
  rfl

/-- Without it nothing has been changed. -/
theorem Holds.removed (h : Holds w temporary written) :
    (w.set temporary none).files = w.elsewhere := by
  show Function.update w.files temporary none = w.elsewhere
  rw [h.files, Function.update_idem, ← h.absent, Function.update_eq_self]

/-! ## Calls -/

/-- Nothing has been changed, or produced. -/
structure Quiet (w w' : ExportWorld κ) : Prop where
  files : w'.files = w.files
  elsewhere : w'.elsewhere = w.elsewhere
  production : produced w'.calls = produced w.calls

theorem Holds.quiet {w' : ExportWorld κ} (h : Holds w temporary written) (hquiet : Quiet w w') :
    Holds w' temporary written := by
  refine ⟨?_, ?_⟩
  · rw [hquiet.files, hquiet.elsewhere, h.files]
  · rw [hquiet.elsewhere, h.absent]

omit [DecidableEq κ] in
theorem Quiet.trans {w₁ w₂ : ExportWorld κ} (h : Quiet w w₁) (h' : Quiet w₁ w₂) : Quiet w w₂ :=
  ⟨h'.files.trans h.files, h'.elsewhere.trans h.elsewhere, h'.production.trans h.production⟩

theorem produced_append (calls calls' : List ExportCall) :
    produced (calls ++ calls') = produced calls ++ produced calls' :=
  List.flatMap_append

omit [DecidableEq κ] in
/-- A call that produces nothing is logged. -/
theorem Quiet.log {call : ExportCall} (h : produced [call] = []) : Quiet w (w.log call) := by
  refine ⟨rfl, rfl, ?_⟩
  show produced (w.calls ++ [call]) = _
  rw [produced_append, h, List.append_nil]

omit [DecidableEq κ] in
theorem checkCancelled_outcome :
    Outcome (checkCancelled E) w fun _ w' => Quiet w w' := by
  have hquiet : Quiet w (w.log (.check (E.cancelled w.calls))) := .log rfl
  unfold checkCancelled
  rw [Outcome.get_bind_iff, Outcome.modify_bind_iff, Outcome.ite_iff]
  exact ⟨fun _ => Outcome.throw_iff.mpr hquiet, fun _ => Outcome.pure_iff.mpr hquiet⟩

omit [DecidableEq κ] in
theorem retries_outcome (data : Bytes) (n : Nat) :
    Outcome (retries E data n) w fun _ w' => Quiet w w' := by
  induction n generalizing w with
  | zero => exact Outcome.pure_iff.mpr ⟨rfl, rfl, rfl⟩
  | succ n ih =>
    unfold retries
    refine Outcome.call checkCancelled_outcome (fun _ w₁ h₁ => ?_) fun _ _ h => h
    rw [Outcome.modify_bind_iff]
    refine ih.mono fun _ w₂ h₂ => ?_
    exact (h₁.trans (.log rfl)).trans h₂

/-- A buffer is written, or part of it. -/
theorem writeAll_outcome (data : Bytes) (h : Holds w temporary written) :
    Outcome (writeAll E temporary data) w fun result w' =>
      produced w'.calls = produced w.calls ∧ ∃ more, Holds w' temporary (written ++ more) ∧
        (result = .ok () → more = data) := by
  induction hn : data.length using Nat.strongRecOn generalizing data w written with
  | ind n ih =>
    rw [writeAll]
    split
    · next hempty =>
      refine Outcome.pure_iff.mpr ⟨rfl, [], ?_, fun _ => hempty.symm⟩
      rw [List.append_nil]
      exact h
    · next hne =>
      rw [Outcome.get_bind_iff]
      -- whatever fails first, what was written before stays
      have hfailed : ∀ (e : SaveError) w', Quiet w w' → produced w'.calls = produced w.calls ∧
          ∃ more, Holds w' temporary (written ++ more) ∧
            ((.error e : Except SaveError PUnit) = .ok () → more = data) := by
        intro e w' hquiet
        refine ⟨hquiet.production, [], ?_, fun herror => by cases herror⟩
        rw [List.append_nil]
        exact h.quiet hquiet
      refine Outcome.call (retries_outcome data _) (fun _ w₁ h₁ => ?_) hfailed
      refine Outcome.call checkCancelled_outcome (fun _ w₂ h₂ => ?_) fun e w₂ h₂ =>
        hfailed e w₂ (h₁.trans h₂)
      have hholds : Holds (w₂.interfere E (some temporary)) temporary written :=
        (h.quiet (h₁.trans h₂)).interfere
      rw [Outcome.modify_bind_iff, Outcome.get_bind_iff]
      dsimp only
      have hproduced : produced (w₂.interfere E (some temporary)).calls = produced w.calls :=
        (h₁.trans h₂).production
      generalize w₂.interfere E (some temporary) = w₃ at hholds hproduced
      split
      · refine Outcome.throw_iff.mpr ⟨hproduced, [], ?_, fun herror => by cases herror⟩
        rw [List.append_nil]
        exact hholds
      · next hamount =>
        rw [Outcome.modify_bind_iff]
        generalize min (E.write w₃.calls) data.length = amount at hamount
        have hlog := (hholds.append (data.take amount)).log (.write data amount)
        have hrest : (data.drop amount).length < n := by
          have hpos : data.length ≠ 0 := fun hzero => hne (List.length_eq_zero_iff.mp hzero)
          rw [List.length_drop]
          omega
        refine (ih _ hrest _ hlog rfl).mono ?_
        rintro result w' ⟨hproduced', more, hholds', hmore⟩
        refine ⟨?_, data.take amount ++ more, ?_, fun hok => ?_⟩
        · rw [hproduced', ← hproduced]
          show produced (w₃.calls ++ [_]) = _
          rw [produced_append]
          exact List.append_nil _
        · rw [← List.append_assoc]
          exact hholds'
        · rw [hmore hok, List.take_append_drop]

/-- The source is read to its end, or part of it. -/
theorem copySource_outcome (size offset : Nat) (h : Holds w temporary (produced w.calls))
    (hlength : (produced w.calls).length = offset) (hle : offset ≤ size) :
    Outcome (copySource E temporary size offset) w fun result w' =>
      ∃ written, Holds w' temporary written ∧
        (result = .ok () → written = produced w'.calls ∧ written.length = size) := by
  induction hn : size - offset using Nat.strongRecOn generalizing w offset with
  | ind n ih =>
    rw [copySource]
    split
    · next hmore =>
      refine Outcome.call checkCancelled_outcome (fun _ w₁ h₁ => ?_) fun e w₁ h₁ =>
        ⟨_, h.quiet h₁, fun herror => by cases herror⟩
      rw [Outcome.get_bind_iff]
      dsimp only
      rw [Outcome.modify_bind_iff]
      generalize hcapacity : min 16384 (size - offset) = capacity
      have hholds := (h.quiet h₁).log
        (.source offset capacity (E.source w₁.calls offset capacity))
      cases hanswer : E.source w₁.calls offset capacity with
      | thrown => exact Outcome.throw_iff.mpr ⟨_, hanswer ▸ hholds, fun herror => by cases herror⟩
      | overrun => exact Outcome.throw_iff.mpr ⟨_, hanswer ▸ hholds, fun herror => by cases herror⟩
      | produced data =>
        -- the source has produced something: it is written before the loop goes on
        rw [hanswer] at hholds
        dsimp only
        split
        · exact Outcome.throw_iff.mpr ⟨_, hholds, fun herror => by cases herror⟩
        · next hdata =>
          rw [not_or, Nat.not_lt] at hdata
          refine Outcome.call (writeAll_outcome data hholds) ?_ ?_
          · rintro ⟨⟩ w₂ ⟨hproduced, more, hholds', hmore⟩
            obtain rfl : more = data := hmore rfl
            have hsofar : produced w₂.calls = produced w.calls ++ more := by
              rw [hproduced]
              show produced (w₁.calls ++ [_]) = _
              rw [produced_append, h₁.production]
              exact congrArg _ (List.append_nil more)
            have hpos : more.length ≠ 0 := fun hzero =>
              hdata.1 (List.length_eq_zero_iff.mp hzero)
            rw [← hsofar] at hholds'
            refine ih (size - (offset + more.length)) (by omega) (offset + more.length) hholds'
              ?_ (by omega) rfl
            rw [hsofar, List.length_append, hlength]
          · rintro e w₂ ⟨-, more, hholds', -⟩
            exact ⟨_, hholds', fun herror => by cases herror⟩
    · next hend =>
      exact Outcome.pure_iff.mpr ⟨_, h, fun _ => ⟨rfl, by omega⟩⟩

/-! ## The whole save -/

/-- The save has taken effect: it has put all the source produced where nothing was. -/
structure Saved (w : ExportWorld κ) (destination : κ) (size : Nat) : Prop where
  files : w.files = Function.update w.elsewhere destination (some (produced w.calls))
  fresh : w.elsewhere destination = none
  length : (produced w.calls).length = size

theorem Saved.log {destination : κ} {size : Nat} (h : Saved w destination size)
    {call : ExportCall} (hcall : produced [call] = []) : Saved (w.log call) destination size := by
  have hsame : produced (w.calls ++ [call]) = produced w.calls := by
    rw [produced_append, hcall, List.append_nil]
  exact ⟨hsame.symm ▸ h.files, h.fresh, hsame.symm ▸ h.length⟩

omit [DecidableEq κ] in
theorem syncFile_outcome : Outcome (syncFile E) w fun _ w' => Quiet w w' := by
  unfold syncFile
  rw [Outcome.get_bind_iff, Outcome.modify_bind_iff, Outcome.ite_iff]
  exact ⟨fun _ => Outcome.throw_iff.mpr (.log rfl), fun _ => Outcome.pure_iff.mpr (.log rfl)⟩

/-- The link is made over nothing, and then of all that was written. -/
theorem linkFile_outcome {destination : κ} {size : Nat}
    (h : Holds w temporary (produced w.calls)) (hsize : (produced w.calls).length = size) :
    Outcome (linkFile E temporary destination) w fun result w' =>
      match result with
      | .ok () => Saved (w'.set temporary none) destination size
      | .error _ => (w'.set temporary none).files = w'.elsewhere := by
  unfold linkFile
  rw [Outcome.modify_bind_iff, Outcome.get_bind_iff]
  -- others may act before the link, but not on the temporary file
  have hholds : Holds (w.interfere E (some temporary)) temporary (produced w.calls) := h.interfere
  have hproduced : produced (w.interfere E (some temporary)).calls = produced w.calls := rfl
  generalize w.interfere E (some temporary) = w₁ at hholds hproduced
  rw [Outcome.ite_iff, Outcome.ite_iff]
  refine ⟨fun _ => ?_, fun _ => ⟨fun _ => ?_, fun hfresh => ?_⟩⟩
  · exact Outcome.modify_bind_iff.mpr (Outcome.throw_iff.mpr (hholds.log _).removed)
  · exact Outcome.modify_bind_iff.mpr (Outcome.throw_iff.mpr (hholds.log _).removed)
  · refine Outcome.modify_iff.mpr ?_
    rw [not_not] at hfresh
    -- the destination was not there, so it is another file
    have hother : destination ≠ temporary := by
      rintro rfl
      rw [hholds.files, Function.update_self] at hfresh
      cases hfresh
    have hcontent : w₁.files temporary = some (produced w.calls) := by
      rw [hholds.files, Function.update_self]
    have hsame : produced (w₁.calls ++ [.link true]) = produced w.calls := by
      rw [produced_append, ← hproduced]
      exact List.append_nil _
    refine ⟨?_, ?_, ?_⟩
    · show Function.update (Function.update w₁.files destination _) temporary none =
        Function.update w₁.elsewhere destination (some (produced (w₁.calls ++ [_])))
      rw [hsame, hcontent, Function.update_comm hother]
      exact congrArg (Function.update · destination _) hholds.removed
    · rw [hholds.files, Function.update_of_ne hother] at hfresh
      exact hfresh
    · show (produced (w₁.calls ++ [_])).length = size
      rw [hsame, hsize]

theorem withTemporary_iff {body : ExportM κ Unit}
    {Q : Except SaveError Unit → ExportWorld κ → Prop} :
    Outcome (withTemporary temporary body) w Q ↔ Outcome body w fun result w' =>
      Q result ((w'.set temporary none).log .unlink) := by
  unfold withTemporary
  dsimp only
  rw [Outcome.bind_iff, Outcome.tryCatch_iff]
  unfold Outcome
  cases (body.exec w).1 with
  | ok a => exact Iff.rfl
  | error e => exact Iff.rfl

/-- Other processes do the same with and without the save. -/
theorem interfere_files (h : w.files = w.elsewhere) :
    (w.interfere E none).files = (w.interfere E none).elsewhere := by
  unfold ExportWorld.interfere
  rw [h]

/-- A new file, or none. -/
theorem makeTemporary_outcome (template : Bytes) (h : w.files = w.elsewhere) :
    Outcome (makeTemporary E template) w fun result w' => produced w'.calls = produced w.calls ∧
      match result with
      | .ok (some path) => Holds w' (E.resolve path) []
      | .ok none => w'.files = w'.elsewhere
      | .error _ => False := by
  unfold makeTemporary
  rw [Outcome.modify_bind_iff, Outcome.get_bind_iff]
  have hsame : (w.interfere E none).files = (w.interfere E none).elsewhere := interfere_files h
  have hproduced : produced (w.interfere E none).calls = produced w.calls := rfl
  generalize w.interfere E none = w₁ at hsame hproduced
  cases hpath : (E.make w₁.calls template).filter fun path => w₁.files (E.resolve path) = none with
  | none =>
    refine Outcome.modify_bind_iff.mpr (Outcome.pure_iff.mpr ⟨?_, hsame⟩)
    exact (Quiet.log rfl).production.trans hproduced
  | some path =>
    obtain ⟨-, hnew⟩ := Option.filter_eq_some_iff.mp hpath
    rw [decide_eq_true_eq] at hnew
    refine Outcome.modify_bind_iff.mpr (Outcome.pure_iff.mpr ⟨?_, ?_, ?_⟩)
    · exact (Quiet.log rfl).production.trans hproduced
    · show Function.update w₁.files _ _ = Function.update w₁.elsewhere _ _
      rw [hsame]
    · show w₁.elsewhere _ = none
      rw [← hsame, hnew]

theorem saveDictionaryExport_outcome (destination : Bytes) (size : Nat)
    (h : w.files = w.elsewhere) (hcalls : produced w.calls = []) :
    Outcome (saveDictionaryExport E destination size) w fun result w' =>
      match result with
      | .ok () => Saved w' (E.resolve destination) size
      | .error _ => w'.files = w'.elsewhere := by
  unfold saveDictionaryExport
  rw [Outcome.guard_iff]
  refine ⟨fun _ => h, fun _ => ?_⟩
  have hquiet : ∀ {w' : ExportWorld κ}, Quiet w w' → w'.files = w'.elsewhere := by
    intro w' hquiet
    rw [hquiet.files, hquiet.elsewhere, h]
  refine Outcome.call checkCancelled_outcome (fun _ w₁ h₁ => ?_) fun _ _ => hquiet
  rw [Outcome.guard_iff, Outcome.guard_iff]
  refine ⟨fun _ => hquiet h₁, fun _ => ⟨fun _ => hquiet h₁, fun _ => ?_⟩⟩
  refine Outcome.call (makeTemporary_outcome _ (hquiet h₁)) ?_ fun e w₂ h₂ => h₂.2.elim
  rintro (_ | path) w₂ ⟨hproduced, hmade⟩
  · -- no temporary file was made
    exact Outcome.throw_iff.mpr hmade
  · rw [h₁.production, hcalls] at hproduced
    have hholds : Holds w₂ (E.resolve path) (produced w₂.calls) := hproduced.symm ▸ hmade
    -- from here on the temporary file is removed however the call ends
    refine withTemporary_iff.mpr ?_
    refine Outcome.call (copySource_outcome size 0 hholds (by rw [hproduced]; rfl) (Nat.zero_le _))
      ?_ ?_
    · rintro ⟨⟩ w₃ ⟨written, hwritten, hall⟩
      obtain ⟨rfl, hsize⟩ := hall rfl
      refine Outcome.call syncFile_outcome (fun _ w₄ h₄ => ?_) fun _ _ h₄ =>
        (hwritten.quiet h₄).removed
      refine Outcome.call checkCancelled_outcome (fun _ w₅ h₅ => ?_) fun _ _ h₅ =>
        (hwritten.quiet (h₄.trans h₅)).removed
      have hlast := (h₄.trans h₅).production
      have hlinked := hwritten.quiet (h₄.trans h₅)
      rw [← hlast] at hlinked hsize
      -- written whole, synced and not cancelled: the link is what publishes it
      refine (linkFile_outcome hlinked hsize).mono fun result w₆ h₆ => ?_
      cases result with
      | ok a => exact h₆.log rfl
      | error e => exact h₆
    · rintro e w₃ ⟨written, hwritten, -⟩
      exact hwritten.removed

end

/-- **All or nothing.** If the save returns, it has put all the source produced, as many
bytes as were announced, where nothing was; if it throws, the files are those there would
be without it. In both cases the temporary file is gone with everything else. -/
theorem saveDictionaryExport_allOrNothing (E : ExportEnv κ) (files : κ → Option Bytes)
    (destination : Bytes) (size : Nat) :
    Outcome (saveDictionaryExport E destination size) { files := files, elsewhere := files }
      fun result w => match result with
        | .ok () => Saved w (E.resolve destination) size
        | .error _ => w.files = w.elsewhere :=
  saveDictionaryExport_outcome destination size rfl rfl

end DictionaryExport

end MsimeLinux
