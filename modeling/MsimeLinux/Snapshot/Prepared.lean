import Mathlib.Logic.Function.Basic
import MsimeLinux.Lib.Throwing
import MsimeLinux.Snapshot.EnvelopeFormat

/-!
# Prepared snapshots (`PreparedSnapshot.cpp`)

A snapshot is copied into a file without a name before anything is made of it. The
producer hands its bytes to a sink, in chunks of its own choosing, and may go on after
a refusal. What the system and other processes do is an environment that decides at
every tick; it can do anything to files that have a name, and nothing to the others.

- `receive_exact`: a snapshot that is returned is all the producer has handed over, and
  stays so; if none is returned, none is left.
-/

namespace MsimeLinux

open Lib

/-! ## Files -/

/-- Names lead to files that exist, and a file may have none. -/
structure FileSystem where
  names : Bytes → Option Nat
  content : Nat → Bytes
  /-- files from here on do not exist -/
  fresh : Nat
  exist : ∀ path file, names path = some file → file < fresh

namespace FileSystem

variable {fs fs₁ fs₂ : FileSystem} {file : Nat}

/-- A file only those who have it open can reach. -/
structure Unnamed (fs : FileSystem) (file : Nat) : Prop where
  existing : file < fs.fresh
  nameless : ∀ path, fs.names path ≠ some file

/-- What other processes can do: a file without a name keeps its content, and stays
without one. -/
structure Leaves (fs fs' : FileSystem) : Prop where
  unnamed : ∀ file, fs.Unnamed file → fs'.Unnamed file
  content : ∀ file, fs.Unnamed file → fs'.content file = fs.content file

/-- Doing nothing leaves the files. -/
theorem Leaves.refl (fs : FileSystem) : fs.Leaves fs := ⟨fun _ h => h, fun _ _ => rfl⟩

/-- One leaving after the other. -/
theorem Leaves.trans (h : fs.Leaves fs₁) (h' : fs₁.Leaves fs₂) : fs.Leaves fs₂ :=
  ⟨fun file hfile => h'.unnamed file (h.unnamed file hfile), fun file hfile =>
    (h'.content file (h.unnamed file hfile)).trans (h.content file hfile)⟩

/-- A write at the end of a file. -/
def append (fs : FileSystem) (file : Nat) (data : Bytes) : FileSystem :=
  { fs with content := Function.update fs.content file (fs.content file ++ data) }

/-- `mkstemp`: a new file with a name. -/
def create (fs : FileSystem) (path : Bytes) : FileSystem :=
  { names := Function.update fs.names path (some fs.fresh)
    content := Function.update fs.content fs.fresh []
    fresh := fs.fresh + 1
    exist := by
      intro other file hother
      by_cases hpath : other = path
      · rw [hpath, Function.update_self] at hother
        have hfile : fs.fresh = file := Option.some.inj hother
        omega
      · rw [Function.update_of_ne hpath] at hother
        exact Nat.lt_succ_of_lt (fs.exist other file hother) }

/-- `unlink`: the name goes, the file stays open. -/
def unlink (fs : FileSystem) (path : Bytes) : FileSystem :=
  { fs with
    names := Function.update fs.names path none
    exist := by
      intro other file hother
      by_cases hpath : other = path
      · rw [hpath, Function.update_self] at hother
        cases hother
      · rw [Function.update_of_ne hpath] at hother
        exact fs.exist other file hother }

/-- A new file whose name is gone again. -/
theorem unnamed_create_unlink (fs : FileSystem) (path : Bytes) :
    ((fs.create path).unlink path).Unnamed fs.fresh := by
  refine ⟨Nat.lt_succ_self _, fun other => ?_⟩
  show Function.update (Function.update fs.names path (some fs.fresh)) path none other ≠ _
  rw [Function.update_idem]
  by_cases hpath : other = path
  · rw [hpath, Function.update_self]
    exact nofun
  · rw [Function.update_of_ne hpath]
    exact fun hother => Nat.lt_irrefl _ (fs.exist other _ hother)

end FileSystem

/-! ## Reading a snapshot -/

/-- `PreparedSnapshot` (PreparedSnapshot.h:8). -/
structure PreparedSnapshot where
  descriptor : Nat
  size : Nat := 0
  envelope : SnapshotEnvelope := {}

namespace PreparedSnapshot

/-- `maximum_size` (PreparedSnapshot.cpp:15). -/
def maximumSize : Nat := 512 * 1024 * 1024

/-- `read` (PreparedSnapshot.cpp:69). A call of `pread` fails, or is cancelled before, or
returns so many bytes and one more, if there are as many. -/
def read (p : PreparedSnapshot) (fs : FileSystem) (offset capacity : Nat)
    (answer : Except Failure Nat) : Except Failure Bytes :=
  if p.size < offset then .error badRequest
  else
    let capacity := min capacity (p.size - offset)
    if capacity = 0 then .ok []
    else
      match answer with
      | .error e => .error e
      | .ok count =>
        let data := ((fs.content p.descriptor).drop offset).take (min (count + 1) capacity)
        if data = [] then .error { status := 0 } else .ok data

/-- What is read lies before the end. -/
theorem read_lt {p : PreparedSnapshot} {fs : FileSystem} {offset capacity : Nat}
    {answer : Except Failure Nat} {data : Bytes}
    (h : p.read fs offset capacity answer = .ok data) (hdata : data ≠ []) : offset < p.size := by
  unfold read at h
  split at h
  · cases h
  · dsimp only at h
    split at h
    · exact absurd (Except.ok.inj h).symm hdata
    · omega

/-- What `SnapshotBuffer::underflow` (PreparedSnapshot.cpp:41) delivers from an offset
on, the `n`th call being the next one. -/
def source (p : PreparedSnapshot) (fs : FileSystem) (answers : Nat → Except Failure Nat)
    (offset n : Nat) : Except Failure (Source UInt8) :=
  match _hread : p.read fs offset 16384 (answers n) with
  | .error e => .error e
  | .ok data =>
    if hdata : data = [] then .ok []
    else (source p fs answers (offset + data.length) (n + 1)).map (⟨data, hdata⟩ :: ·)
termination_by p.size - offset
decreasing_by
  have hlt := read_lt _hread hdata
  have hpos := List.length_pos_iff.mpr hdata
  omega

section

variable {ν : Type} (J : JsonLib) (sha256 : Bytes → Bytes)
  (visitor : ν → Bytes → Int → Except Failure ν)

/-- `inspect_records` (PreparedSnapshot.cpp:57). A read that fails ends the inspection, if
no line before has ended it. -/
def inspectRecords (p : PreparedSnapshot) (fs : FileSystem) (answers : Nat → Except Failure Nat)
    (visited : ν) : Except Failure (SnapshotEnvelope × ν) := do
  let input ← p.source fs answers 0 0
  inspectSnapshotEnvelope J sha256 visitor visited input

end

/-- One call of `read` by whoever has the snapshot: the files there are by then, the
capacity of the buffer, and how much is returned. -/
structure ReadCall where
  fs : FileSystem
  capacity : Nat
  count : Nat

/-- Reading on from an offset. -/
def readBack (p : PreparedSnapshot) (offset : Nat) : List ReadCall → Except Failure (List Bytes)
  | [] => .ok []
  | call :: calls => do
    let data ← p.read call.fs offset call.capacity (.ok call.count)
    let rest ← p.readBack (offset + data.length) calls
    return data :: rest

/-- The snapshot is all there. -/
structure Intact (p : PreparedSnapshot) (fs : FileSystem) (content : Bytes) : Prop where
  bytes : fs.content p.descriptor = content
  length : p.size = content.length

section

variable {p : PreparedSnapshot} {fs : FileSystem} {content : Bytes}

/-- A read of an intact snapshot returns the next bytes, and at least one if it may. -/
theorem Intact.read (h : p.Intact fs content) {offset : Nat} (hoffset : offset ≤ content.length)
    (capacity count : Nat) : ∃ data, p.read fs offset capacity (.ok count) = .ok data ∧
      data <+: content.drop offset ∧ data.length ≤ capacity ∧
      (data = [] → capacity = 0 ∨ offset = content.length) := by
  unfold PreparedSnapshot.read
  rw [h.length, h.bytes, if_neg (Nat.not_lt.mpr hoffset)]
  dsimp only
  split
  · next hzero => exact ⟨[], rfl, List.nil_prefix, Nat.zero_le _, fun _ => by omega⟩
  · next hpos =>
    have hlength : ((content.drop offset).take
        (min (count + 1) (min capacity (content.length - offset)))).length =
        min (count + 1) (min capacity (content.length - offset)) := by
      rw [List.length_take, List.length_drop]
      omega
    have hne : (content.drop offset).take
        (min (count + 1) (min capacity (content.length - offset))) ≠ [] := by
      intro hnil
      rw [hnil, List.length_nil] at hlength
      omega
    rw [if_neg hne]
    refine ⟨_, rfl, List.take_prefix .., ?_, fun hnil => absurd hnil hne⟩
    rw [hlength]
    omega

/-- **Reading back**, by induction on the calls: the pieces are the content, as far as
they get, and each call that may return something gets further until the end. -/
theorem readBack_spec {offset : Nat} {calls : List ReadCall}
    (h : ∀ call ∈ calls, p.Intact call.fs content) (hoffset : offset ≤ content.length) :
    ∃ pieces, p.readBack offset calls = .ok pieces ∧ pieces.flatten <+: content.drop offset ∧
      List.Forall₂ (fun call piece => piece.length ≤ call.capacity) calls pieces ∧
      min (calls.filter fun call => call.capacity ≠ 0).length (content.length - offset) ≤
        pieces.flatten.length := by
  induction calls generalizing offset with
  | nil => exact ⟨[], rfl, List.nil_prefix, .nil, by simp⟩
  | cons call calls ih =>
    obtain ⟨data, hread, ⟨rest, hrest⟩, hcapacity, hprogress⟩ :=
      (h call List.mem_cons_self).read hoffset call.capacity call.count
    have hlength := congrArg List.length hrest
    rw [List.length_append, List.length_drop] at hlength
    have hnext : offset + data.length ≤ content.length := by omega
    obtain ⟨pieces, hback, hprefix, hpieces, hmore⟩ :=
      ih (fun c hc => h c (List.mem_cons_of_mem _ hc)) hnext
    refine ⟨data :: pieces, ?_, ?_, .cons hcapacity hpieces, ?_⟩
    · rw [readBack, hread]
      show (p.readBack (offset + data.length) calls >>= fun rest => pure (data :: rest)) = _
      rw [hback]
      rfl
    · -- the next piece begins where this one ended
      have hdrop : content.drop (offset + data.length) = rest := by
        rw [← List.drop_drop, ← hrest, List.drop_left]
      rw [List.flatten_cons, ← hrest, List.prefix_append_right_inj, ← hdrop]
      exact hprefix
    · rw [List.flatten_cons, List.length_append]
      -- a call without room may return nothing, and does not count
      by_cases hzero : call.capacity = 0
      · rw [List.filter_cons_of_neg (by simp [hzero])]
        omega
      · rw [List.filter_cons_of_pos (by simp [hzero]), List.length_cons]
        by_cases hnil : data = []
        · have := (hprogress hnil).resolve_left hzero
          omega
        · have := List.length_pos_iff.mpr hnil
          omega

/-- What a read has returned, it might have returned without any trouble. -/
theorem exists_count {offset capacity : Nat} {answer : Except Failure Nat} {data : Bytes}
    (h : p.read fs offset capacity answer = .ok data) :
    ∃ count, p.read fs offset capacity (.ok count) = .ok data := by
  cases answer with
  | ok count => exact ⟨count, h⟩
  | error e =>
    refine ⟨0, ?_⟩
    unfold PreparedSnapshot.read at h ⊢
    split at h
    · cases h
    · next hoffset =>
      rw [if_neg hoffset]
      dsimp only at h ⊢
      split at h
      · next hzero => rwa [if_pos hzero]
      · cases h

/-- The blocks a buffer gets are the content, however they are cut. -/
theorem Intact.source_symbols (h : p.Intact fs content) {answers : Nat → Except Failure Nat}
    {offset n : Nat} {input : Source UInt8} (hoffset : offset ≤ content.length)
    (hsource : p.source fs answers offset n = .ok input) :
    input.symbols = content.drop offset := by
  induction hn : content.length - offset using Nat.strongRecOn generalizing offset n input with
  | ind m ih =>
    rw [PreparedSnapshot.source] at hsource
    split at hsource
    · cases hsource
    · next data hread =>
      obtain ⟨count, hcount⟩ := exists_count hread
      obtain ⟨data', hread', ⟨rest, hrest⟩, -, hprogress⟩ := h.read hoffset 16384 count
      obtain rfl : data' = data := Except.ok.inj (hread'.symm.trans hcount)
      split at hsource
      · next hnil =>
        -- an empty block stands at the end of the content only
        have hend : offset = content.length := (hprogress hnil).resolve_left (by omega)
        rw [← Except.ok.inj hsource, hend, List.drop_length]
        rfl
      · next hne =>
        -- any other brings the reader closer to it
        have hlength := congrArg List.length hrest
        rw [List.length_append, List.length_drop] at hlength
        have hpos := List.length_pos_iff.mpr hne
        cases hmore : p.source fs answers (offset + data'.length) (n + 1) with
        | error e =>
          rw [hmore] at hsource
          cases hsource
        | ok more =>
          rw [hmore] at hsource
          have hsymbols := ih (content.length - (offset + data'.length)) (by omega) (by omega)
            hmore rfl
          rw [← Except.ok.inj hsource]
          show data' ++ more.symbols = _
          rw [hsymbols, ← List.drop_drop, ← hrest, List.drop_left]

/-- Without trouble there are such blocks. -/
theorem Intact.source_ok (h : p.Intact fs content) (counts : Nat → Nat) {offset : Nat} (n : Nat)
    (hoffset : offset ≤ content.length) :
    ∃ input, p.source fs (fun n => .ok (counts n)) offset n = .ok input := by
  induction hn : content.length - offset using Nat.strongRecOn generalizing offset n with
  | ind m ih =>
    obtain ⟨data, hread, ⟨rest, hrest⟩, -, -⟩ := h.read hoffset 16384 (counts n)
    rw [PreparedSnapshot.source]
    split
    · next e he =>
      rw [hread] at he
      cases he
    · next d hd =>
      obtain rfl : data = d := Except.ok.inj (hread.symm.trans hd)
      split
      · exact ⟨[], rfl⟩
      · next hne =>
        have hlength := congrArg List.length hrest
        rw [List.length_append, List.length_drop] at hlength
        have hpos := List.length_pos_iff.mpr hne
        have hnext : offset + data.length ≤ content.length := by omega
        obtain ⟨input, hinput⟩ :=
          ih (content.length - (offset + data.length)) (by omega) (n + 1) hnext rfl
        exact ⟨_, by rw [hinput]; rfl⟩

/-- **An inspection** depends on the content alone. -/
theorem Intact.inspectRecords {ν : Type} {J : JsonLib} {sha256 : Bytes → Bytes}
    (h : p.Intact fs content) (visitor : ν → Bytes → Int → Except Failure ν) (visited : ν)
    (counts : Nat → Nat) :
    p.inspectRecords J sha256 visitor fs (fun n => .ok (counts n)) visited =
      inspectSnapshotEnvelope J sha256 visitor visited (.ofSymbols content) := by
  obtain ⟨input, hinput⟩ := h.source_ok counts 0 (Nat.zero_le _)
  have hsymbols := h.source_symbols (Nat.zero_le _) hinput
  rw [List.drop_zero] at hsymbols
  unfold PreparedSnapshot.inspectRecords
  rw [hinput]
  show inspectSnapshotEnvelope J sha256 visitor visited input = _
  simp only [inspectSnapshotEnvelope, Source.foldLines_eq, hsymbols, Source.symbols_ofSymbols]

end

end PreparedSnapshot

/-! ## Receiving -/

namespace PreparedSnapshot

/-- What ends a call of `receive`: a failure of its own, or what the producer threw. -/
inductive ReceiveError where
  | failure (failure : Failure)
  | thrown
  deriving DecidableEq

/-- What a producer hands over: a pointer, maybe a null one, and the bytes there. -/
structure Chunk where
  bytes : Bytes
  null : Bool := false

/-- A producer, by what it does next: it has done, throws, or calls the sink and goes on
as the sink has answered. -/
inductive Producer where
  | done
  | thrown
  | chunk (chunk : Chunk) (next : Bool → Producer)

/-- A run of a producer that returns: what it hands over, and how that is answered. -/
inductive Producer.Returns : Producer → List (Bytes × Bool) → Prop
  | done : Returns .done []
  | chunk {chunk : Chunk} {next : Bool → Producer} {accepted : Bool}
      {rest : List (Bytes × Bool)} : Returns (next accepted) rest →
      Returns (.chunk chunk next) ((chunk.bytes, accepted) :: rest)

/-- What cannot be foreseen, by the time it happens. -/
structure ReceiveEnv where
  cancelled : Nat → Bool
  make : Nat → Option Bytes
  unlinkFails : Nat → Bool
  /-- a signal interrupts a write so many times before it does something -/
  interruptions : Nat → Nat
  /-- how much a write takes; nothing stands for a failure too -/
  amount : Nat → Nat
  answers : Nat → Except Failure Nat
  others : Nat → FileSystem → FileSystem
  others_leave : ∀ n fs, FileSystem.Leaves fs (others n fs)

/-- The files and the locals of `receive`. `offered` is what the sink was called with, and
what it has answered; `made` is the file that was made. -/
structure ReceiveWorld where
  fs : FileSystem
  time : Nat := 0
  size : Nat := 0
  failure : Option ReceiveError := none
  offered : List (Bytes × Bool) := []
  made : Option Nat := none

abbrev ReceiveM := Throwing ReceiveError ReceiveWorld

section

variable (E : ReceiveEnv)

/-- Time passes, and other processes act. -/
def ReceiveWorld.pass (w : ReceiveWorld) : ReceiveWorld :=
  { w with time := w.time + 1, fs := E.others w.time w.fs }

/-- A failure with a status. -/
def fail {α : Type} (status : Nat) : ReceiveM α := throw (.failure { status })

/-- `check_cancelled` (PreparedSnapshot.cpp:16). -/
def checkCancelled : ReceiveM Unit := do
  modify fun w => w.pass E
  let w ← get
  if E.cancelled w.time then throw (.failure { status := 0, cancelled := true })

/-- The attempts a signal interrupts (PreparedSnapshot.cpp:162). -/
def retries : Nat → ReceiveM Unit
  | 0 => pure ()
  | n + 1 => do
    checkCancelled E
    retries n

/-- The loop of writes (PreparedSnapshot.cpp:158). -/
def writeChunk (file : Nat) (data : Bytes) : ReceiveM Unit :=
  if data = [] then pure ()
  else do
    let w ← get
    retries E (E.interruptions w.time)
    checkCancelled E
    let w ← get
    let amount := min (E.amount w.time) data.length
    if _hamount : amount = 0 then fail 0
    else
      modify fun w => { w with fs := w.fs.append file (data.take amount) }
      writeChunk file (data.drop amount)
termination_by data.length
decreasing_by
  rw [List.length_drop]
  have hle : amount ≤ data.length := Nat.min_le_right _ _
  omega

/-- What the sink tries (PreparedSnapshot.cpp:152). -/
def acceptChunk (file : Nat) (chunk : Chunk) : ReceiveM Unit := do
  checkCancelled E
  let w ← get
  if chunk.bytes ≠ [] ∧ chunk.null = true ∨ maximumSize - w.size < chunk.bytes.length then
    throw (.failure badRequest)
  writeChunk E file chunk.bytes
  modify fun w => { w with size := w.size + chunk.bytes.length }

/-- The sink (PreparedSnapshot.cpp:149): after a failure it refuses everything. -/
def sink (file : Nat) (chunk : Chunk) : ReceiveM Bool := do
  let w ← get
  if w.failure ≠ none then
    modify fun w => { w with offered := w.offered ++ [(chunk.bytes, false)] }
    return false
  else
    tryCatch (do
      acceptChunk E file chunk
      modify fun w => { w with offered := w.offered ++ [(chunk.bytes, true)] }
      return true)
      fun error => do
        modify fun w => { w with failure := some error,
                                 offered := w.offered ++ [(chunk.bytes, false)] }
        return false

/-- The producer's run. -/
def produce (file : Nat) : Producer → ReceiveM Unit
  | .done => pure ()
  | .thrown => throw .thrown
  | .chunk chunk next => do
    let accepted ← sink E file chunk
    produce file (next accepted)

/-- `if (failure) std::rethrow_exception(failure)`. -/
def rethrow : ReceiveM Unit := do
  let w ← get
  match w.failure with
  | some error => throw error
  | none => pure ()

/-- The file, without its name (PreparedSnapshot.cpp:127). Nobody else knows the name
while it is there. -/
def makeFile : ReceiveM Nat := do
  let w ← get
  match (E.make w.time).filter fun path => w.fs.names path = none with
  | none => fail 0
  | some path =>
    let file := w.fs.fresh
    modify fun w => { w with fs := w.fs.create path, made := some file }
    if E.unlinkFails w.time then throw (.failure { status := 0 })
    modify fun w => { w with fs := w.fs.unlink path }
    return file

/-- `receive` (PreparedSnapshot.cpp:121). -/
def receive (J : JsonLib) (sha256 : Bytes → Bytes) (producer : Option Producer) :
    ReceiveM PreparedSnapshot := do
  checkCancelled E
  match producer with
  | none => throw (.failure badRequest)
  | some producer =>
    let file ← makeFile E
    tryCatch (produce E file producer) fun error => do
      rethrow
      throw error
    rethrow
    checkCancelled E
    let w ← get
    let result : PreparedSnapshot := { descriptor := file, size := w.size }
    match result.inspectRecords J sha256 (fun v _ _ => .ok v) w.fs E.answers () with
    | .error e => throw (.failure e)
    | .ok (envelope, ()) => return { result with envelope := envelope }

end

/-! ## What the sink has stored -/

/-- All the chunks, one after the other. -/
def allBytes (offered : List (Bytes × Bool)) : Bytes := offered.flatMap Prod.fst

/-- The file is this call's own; as long as nothing has failed, it holds what was offered
so far, and every chunk was accepted. -/
structure Stored (file : Nat) (w : ReceiveWorld) : Prop where
  unnamed : w.fs.Unnamed file
  content : w.failure = none → w.fs.content file = allBytes w.offered
  accepted : w.failure = none → ∀ c ∈ w.offered, c.2 = true
  size : w.failure = none → w.size = (allBytes w.offered).length
  bounded : w.size ≤ maximumSize
  made : w.made = some file

/-- Nothing but time has passed, as far as this call can see. -/
structure Steady (w w' : ReceiveWorld) : Prop where
  leaves : w.fs.Leaves w'.fs
  size : w'.size = w.size
  failure : w'.failure = w.failure
  offered : w'.offered = w.offered
  made : w'.made = w.made

/-- Two steady steps are one. -/
theorem Steady.trans {w₁ w₂ w₃ : ReceiveWorld} (h : Steady w₁ w₂) (h' : Steady w₂ w₃) :
    Steady w₁ w₃ :=
  ⟨h.leaves.trans h'.leaves, h'.size.trans h.size, h'.failure.trans h.failure,
    h'.offered.trans h.offered, h'.made.trans h.made⟩

section

variable {E : ReceiveEnv} {w w' : ReceiveWorld} {file : Nat}

/-- What is stored stays so over a steady step. -/
theorem Stored.steady (h : Stored file w) (hsteady : Steady w w') : Stored file w' := by
  refine ⟨hsteady.leaves.unnamed file h.unnamed, fun hf => ?_, fun hf => ?_, fun hf => ?_, ?_,
    hsteady.made.trans h.made⟩
  · rw [hsteady.leaves.content file h.unnamed, hsteady.offered]
    exact h.content (hsteady.failure ▸ hf)
  · rw [hsteady.offered]
    exact h.accepted (hsteady.failure ▸ hf)
  · rw [hsteady.offered, hsteady.size]
    exact h.size (hsteady.failure ▸ hf)
  · exact hsteady.size ▸ h.bounded

/-- Asking whether the work is cancelled changes nothing that counts, -/
theorem checkCancelled_outcome : Outcome (checkCancelled E) w fun _ w' => Steady w w' := by
  have hsteady : Steady w (w.pass E) := ⟨E.others_leave _ _, rfl, rfl, rfl, rfl⟩
  unfold checkCancelled
  rw [Outcome.modify_bind_iff, Outcome.get_bind_iff, Outcome.ite_iff]
  exact ⟨fun _ => Outcome.throw_iff.mpr hsteady, fun _ => Outcome.pure_iff.mpr hsteady⟩

/-- nor do interrupted calls. -/
theorem retries_outcome (n : Nat) : Outcome (retries E n) w fun _ w' => Steady w w' := by
  induction n generalizing w with
  | zero => exact Outcome.pure_iff.mpr ⟨.refl _, rfl, rfl, rfl, rfl⟩
  | succ n ih =>
    unfold retries
    refine Outcome.call checkCancelled_outcome (fun _ w₁ h₁ => ?_) fun _ _ h => h
    exact ih.mono fun _ w₂ h₂ => h₁.trans h₂

/-- A write to a file without a name gives it none. -/
theorem unnamed_append {fs : FileSystem} (h : fs.Unnamed file) (data : Bytes) :
    (fs.append file data).Unnamed file :=
  ⟨h.existing, h.nameless⟩

/-- The chunk is written, or part of it; nothing else changes. -/
theorem writeChunk_outcome (data : Bytes) (h : w.fs.Unnamed file) :
    Outcome (writeChunk E file data) w fun result w' =>
      (w'.size = w.size ∧ w'.made = w.made ∧ w'.offered = w.offered) ∧
      w'.fs.Unnamed file ∧
      (result = .ok () → w'.fs.content file = w.fs.content file ++ data) := by
  -- by induction on what is left to write
  induction hn : data.length using Nat.strongRecOn generalizing data w with
  | ind n ih =>
    rw [writeChunk]
    split
    · next hempty =>
      refine Outcome.pure_iff.mpr ⟨⟨rfl, rfl, rfl⟩, h, fun _ => ?_⟩
      rw [hempty, List.append_nil]
    · next hne =>
      rw [Outcome.get_bind_iff]
      -- what the failures leave
      have hfailed : ∀ (e : ReceiveError) w', Steady w w' →
          (w'.size = w.size ∧ w'.made = w.made ∧ w'.offered = w.offered) ∧
          w'.fs.Unnamed file ∧ ((.error e : Except ReceiveError PUnit) = .ok () →
            w'.fs.content file = w.fs.content file ++ data) := by
        intro e w' hsteady
        exact ⟨⟨hsteady.size, hsteady.made, hsteady.offered⟩,
          hsteady.leaves.unnamed file h, fun herror => by cases herror⟩
      refine Outcome.call (retries_outcome _) (fun _ w₁ h₁ => ?_) hfailed
      refine Outcome.call checkCancelled_outcome (fun _ w₂ h₂ => ?_) fun e w₂ h₂ =>
        hfailed e w₂ (h₁.trans h₂)
      have hsteady := h₁.trans h₂
      rw [Outcome.get_bind_iff]
      dsimp only
      split
      · exact Outcome.throw_iff.mpr (hfailed _ w₂ hsteady)
      · next hamount =>
        rw [Outcome.modify_bind_iff]
        -- a short write: the rest is written next
        generalize min (E.amount w₂.time) data.length = amount at hamount
        have hunnamed := hsteady.leaves.unnamed file h
        have hrest : (data.drop amount).length < n := by
          have hpos := List.length_pos_iff.mpr hne
          rw [List.length_drop]
          omega
        refine (ih _ hrest _ (unnamed_append hunnamed (data.take amount)) rfl).mono ?_
        rintro result w' ⟨⟨hsize, hmade, hoffered⟩, hunnamed', hcontent⟩
        refine ⟨⟨hsize.trans hsteady.size, hmade.trans hsteady.made,
          hoffered.trans hsteady.offered⟩, hunnamed', fun hok => ?_⟩
        rw [hcontent hok]
        show Function.update w₂.fs.content file _ file ++ _ = _
        rw [Function.update_self, List.append_assoc, List.take_append_drop,
          hsteady.leaves.content file h]

/-- The sink answers, and does not throw. -/
theorem sink_outcome (chunk : Chunk) (h : Stored file w) :
    Outcome (sink E file chunk) w fun result w' => Stored file w' ∧
      ∃ b, result = .ok b ∧ w'.offered = w.offered ++ [(chunk.bytes, b)] := by
  have hrefused : ∀ (w' : ReceiveWorld) (error : ReceiveError), w'.fs.Unnamed file →
      w'.size ≤ maximumSize → w'.made = some file →
      Stored file { w' with
        failure := some error
        offered := w'.offered ++ [(chunk.bytes, false)] } := by
    intro w' error hunnamed hbounded hmade
    exact ⟨hunnamed, (by simp), (by simp), (by simp), hbounded, hmade⟩
  unfold sink
  rw [Outcome.get_bind_iff, Outcome.ite_iff]
  refine ⟨fun hfailed => ?_, fun hgood => ?_⟩
  · refine Outcome.modify_bind_iff.mpr (Outcome.pure_iff.mpr ⟨?_, _, rfl, rfl⟩)
    exact ⟨h.unnamed, fun hf => absurd hf hfailed, fun hf => absurd hf hfailed,
      fun hf => absurd hf hfailed, h.bounded, h.made⟩
  rw [not_not] at hgood
  rw [Outcome.tryCatch_iff]
  -- what the handler does with an error
  have hhandler : ∀ (error : ReceiveError) (w' : ReceiveWorld), w'.fs.Unnamed file →
      w'.size ≤ maximumSize → w'.made = some file → w'.offered = w.offered → Outcome (do
        modify fun w => { w with failure := some error,
                                 offered := w.offered ++ [(chunk.bytes, false)] }
        return false : ReceiveM Bool) w' fun result w' => Stored file w' ∧
          ∃ b, result = .ok b ∧ w'.offered = w.offered ++ [(chunk.bytes, b)] := by
    intro error w' hunnamed hbounded hmade hoffered
    exact Outcome.modify_bind_iff.mpr (Outcome.pure_iff.mpr
      ⟨hrefused w' error hunnamed hbounded hmade, _, rfl, congrArg (· ++ _) hoffered⟩)
  unfold acceptChunk
  rw [bind_assoc]
  refine Outcome.call checkCancelled_outcome (fun _ w₁ h₁ => ?_) fun e w₁ h₁ =>
    hhandler e w₁ (h₁.leaves.unnamed file h.unnamed) (h₁.size ▸ h.bounded)
      (h₁.made.trans h.made) h₁.offered
  have hstored := h.steady h₁
  simp only [bind_assoc]
  rw [Outcome.get_bind_iff]
  split
  · exact Outcome.throw_iff.mpr
      (hhandler _ w₁ hstored.unnamed hstored.bounded hstored.made h₁.offered)
  · next hfits =>
    rw [not_or, Nat.not_lt] at hfits
    rw [bind_assoc]
    refine Outcome.call (writeChunk_outcome chunk.bytes hstored.unnamed) ?_ ?_
    · rintro ⟨⟩ w₂ ⟨⟨hsize, hmade, hoffered⟩, hunnamed, hcontent⟩
      rw [Outcome.modify_bind_iff, Outcome.modify_bind_iff]
      refine Outcome.pure_iff.mpr ⟨⟨hunnamed, fun _ => ?_, fun _ c hc => ?_, fun _ => ?_, ?_,
        hmade.trans hstored.made⟩, _, rfl,
        congrArg (· ++ [(chunk.bytes, true)]) (hoffered.trans h₁.offered)⟩
      all_goals have hnone : w₁.failure = none := h₁.failure.trans hgood
      · show w₂.fs.content file = allBytes (w₂.offered ++ [(chunk.bytes, true)])
        rw [hcontent rfl, hoffered, hstored.content hnone]
        simp [allBytes]
      · have hc : c ∈ w₂.offered ++ [(chunk.bytes, true)] := hc
        rw [hoffered] at hc
        rcases List.mem_append.mp hc with hold | hnew
        · exact hstored.accepted hnone c hold
        · rw [List.mem_singleton.mp hnew]
      · show w₂.size + chunk.bytes.length = (allBytes (w₂.offered ++ [(chunk.bytes, true)])).length
        rw [hsize, hoffered, hstored.size hnone]
        simp [allBytes]
      · show w₂.size + chunk.bytes.length ≤ maximumSize
        have hbounded := hstored.bounded
        omega
    · rintro e w₂ ⟨⟨hsize, hmade, hoffered⟩, hunnamed, -⟩
      exact hhandler e w₂ hunnamed (hsize ▸ hstored.bounded) (hmade.trans hstored.made)
        (hoffered.trans h₁.offered)

/-- The producer's run, by induction on what it does. -/
theorem produce_outcome (producer : Producer) (h : Stored file w) :
    Outcome (produce E file producer) w fun result w' => Stored file w' ∧
      (result = .ok () → ∃ handed, w'.offered = w.offered ++ handed ∧
        producer.Returns handed) := by
  induction producer generalizing w with
  | done => exact Outcome.pure_iff.mpr ⟨h, fun _ => ⟨[], (List.append_nil _).symm, .done⟩⟩
  | thrown => exact Outcome.throw_iff.mpr ⟨h, fun hok => by cases hok⟩
  | chunk chunk next ih =>
    unfold produce
    refine Outcome.call (sink_outcome chunk h) ?_ ?_
    · rintro accepted w₁ ⟨h₁, b, hb, hoffered⟩
      obtain rfl : accepted = b := Except.ok.inj hb
      refine (ih accepted h₁).mono fun result w' h' => ⟨h'.1, fun hok => ?_⟩
      obtain ⟨handed, hhanded, hreturns⟩ := h'.2 hok
      refine ⟨(chunk.bytes, accepted) :: handed, ?_, .chunk hreturns⟩
      rw [hhanded, hoffered, List.append_assoc, List.singleton_append]
    · rintro e w₁ ⟨-, b, hb, -⟩
      cases hb

end

/-! ## What is returned -/

/-- No file made by this call is left that has a name and anything in it. -/
def NothingLeft (w : ReceiveWorld) : Prop :=
  ∀ file, w.made = some file → w.fs.content file = [] ∨ ∀ path, w.fs.names path ≠ some file

/-- A stored file has no name, so nothing of it is left. -/
theorem Stored.nothingLeft {w : ReceiveWorld} {file : Nat} (h : Stored file w) :
    NothingLeft w := by
  intro other hmade
  obtain rfl : file = other := Option.some.inj (h.made.symm.trans hmade)
  exact .inr h.unnamed.nameless

/-- What is promised of a snapshot that is returned: the producer has returned, every chunk
it handed over was accepted, and the chunks together are an envelope, and all there is in
the file. -/
structure Received (J : JsonLib) (sha256 : Bytes → Bytes) (producer : Option Producer)
    (p : PreparedSnapshot) (w : ReceiveWorld) (s : SnapshotLines) : Prop where
  produced : ∃ run, producer = some run ∧ run.Returns w.offered
  accepted : ∀ c ∈ w.offered, c.2 = true
  intact : p.Intact w.fs (allBytes w.offered)
  bounded : (allBytes w.offered).length ≤ maximumSize
  unnamed : w.fs.Unnamed p.descriptor
  envelope : Envelope J sha256 (allBytes w.offered) s
  result : p.envelope = s.envelope sha256

section

variable {E : ReceiveEnv} {w : ReceiveWorld} {file : Nat} {J : JsonLib}
  {sha256 : Bytes → Bytes}

/-- Whatever other processes do, the snapshot stays what it is. -/
theorem Received.intact_later {producer : Option Producer} {p : PreparedSnapshot}
    {s : SnapshotLines} (h : Received J sha256 producer p w s) {fs : FileSystem}
    (hfs : w.fs.Leaves fs) :
    p.Intact fs (allBytes w.offered) :=
  ⟨(hfs.content _ h.unnamed).trans h.intact.bytes, h.intact.length⟩

/-- The file is made without leaving a name behind. -/
theorem makeFile_outcome (hoffered : w.offered = [])
    (hsize : w.size = 0) (hmade : w.made = none) :
    Outcome (makeFile E) w fun result w' => match result with
      | .ok file => Stored file w' ∧ w'.offered = []
      | .error _ => NothingLeft w' := by
  unfold makeFile
  rw [Outcome.get_bind_iff]
  cases hpath : (E.make w.time).filter fun path => w.fs.names path = none with
  | none =>
    refine Outcome.throw_iff.mpr fun file hfile => ?_
    rw [hmade] at hfile
    cases hfile
  | some path =>
    dsimp only
    rw [Outcome.modify_bind_iff, Outcome.guard_iff, Outcome.modify_bind_iff]
    refine ⟨fun _ file hfile => .inl ?_, fun _ => Outcome.pure_iff.mpr ?_⟩
    · -- the name stays, but there is nothing in the file
      obtain rfl : w.fs.fresh = file := Option.some.inj hfile
      exact Function.update_self ..
    · refine ⟨⟨FileSystem.unnamed_create_unlink w.fs path, fun _ => ?_, fun _ c hc => ?_,
        fun _ => ?_, ?_, rfl⟩, hoffered⟩
      · show Function.update w.fs.content w.fs.fresh [] w.fs.fresh = allBytes w.offered
        rw [Function.update_self, hoffered]
        rfl
      · have hc : c ∈ w.offered := hc
        rw [hoffered] at hc
        cases hc
      · show w.size = (allBytes w.offered).length
        rw [hsize, hoffered]
        rfl
      · show w.size ≤ maximumSize
        omega

/-- Rethrowing fails exactly when a failure was kept. -/
theorem rethrow_outcome (w : ReceiveWorld) : Outcome rethrow w fun result w' =>
    w' = w ∧ (result = .ok () → w.failure = none) := by
  unfold rethrow
  rw [Outcome.get_bind_iff]
  cases hfailure : w.failure with
  | some error => exact Outcome.throw_iff.mpr ⟨rfl, fun herror => by cases herror⟩
  | none => exact Outcome.pure_iff.mpr ⟨rfl, fun _ => rfl⟩

/-- The inspection of the copy accepts envelopes only. -/
theorem inspectRecords_ok (hJ : J.StringsFit) {p : PreparedSnapshot} {fs : FileSystem}
    {content : Bytes} (h : p.Intact fs content) {answers : Nat → Except Failure Nat}
    {envelope : SnapshotEnvelope}
    (hinspect : p.inspectRecords J sha256 (fun v _ _ => .ok v) fs answers () =
      .ok (envelope, ())) :
    ∃ s, Envelope J sha256 content s ∧ envelope = s.envelope sha256 := by
  unfold PreparedSnapshot.inspectRecords at hinspect
  rw [call_eq_ok_iff] at hinspect
  obtain ⟨input, hinput, hinspect⟩ := hinspect
  obtain ⟨s, henvelope, -, hresult⟩ := (inspectSnapshotEnvelope_eq_ok_iff hJ).mp hinspect
  rw [h.source_symbols (Nat.zero_le _) hinput, List.drop_zero] at henvelope
  exact ⟨s, henvelope, hresult⟩

/-- What is received is the snapshot, or nothing is left. -/
theorem receive_outcome (hJ : J.StringsFit) (producer : Option Producer)
    (hoffered : w.offered = []) (hsize : w.size = 0)
    (hmade : w.made = none) :
    Outcome (receive E J sha256 producer) w fun result w' => match result with
      | .ok p => ∃ s, Received J sha256 producer p w' s
      | .error _ => NothingLeft w' := by
  have hnothing : ∀ w', Steady w w' → NothingLeft w' := by
    intro w' hsteady file hfile
    rw [hsteady.made, hmade] at hfile
    cases hfile
  unfold receive
  refine Outcome.call checkCancelled_outcome (fun _ w₁ h₁ => ?_) fun e w₁ h₁ => hnothing w₁ h₁
  cases producer with
  | none => exact Outcome.throw_iff.mpr (hnothing w₁ h₁)
  | some producer =>
    dsimp only
    refine Outcome.call (makeFile_outcome (h₁.offered.trans hoffered)
      (h₁.size.trans hsize) (h₁.made.trans hmade)) ?_ ?_
    rotate_left
    · exact fun _ _ hleft => hleft
    rintro file w₂ ⟨h₂, hempty⟩
    -- what the producer throws comes second to what the sink has found
    have hproduced : Outcome (tryCatch (produce E file producer) fun error => do
        rethrow
        throw error) w₂ fun result w₃ => Stored file w₃ ∧
          (result = .ok () → producer.Returns w₃.offered) := by
      rw [Outcome.tryCatch_iff]
      refine (produce_outcome producer h₂).mono ?_
      rintro (e | ⟨⟩) w₃ ⟨h₃, hreturns⟩
      · refine Outcome.call (rethrow_outcome w₃) ?_ ?_
        · rintro ⟨⟩ _ ⟨rfl, -⟩
          exact Outcome.throw_iff.mpr ⟨h₃, fun hok => by cases hok⟩
        · rintro _ _ ⟨rfl, -⟩
          exact ⟨h₃, fun hok => by cases hok⟩
      · refine ⟨h₃, fun _ => ?_⟩
        obtain ⟨handed, hhanded, hreturns⟩ := hreturns rfl
        rw [hhanded, hempty]
        exact hreturns
    refine Outcome.call hproduced ?_ fun _ w₃ h₃ => h₃.1.nothingLeft
    rintro ⟨⟩ w₃ ⟨h₃, hreturns⟩
    refine Outcome.call (rethrow_outcome w₃) ?_ ?_
    swap
    · rintro _ _ ⟨rfl, -⟩
      exact h₃.nothingLeft
    rintro ⟨⟩ _ ⟨rfl, hgood⟩
    refine Outcome.call checkCancelled_outcome (fun _ w₅ h₅ => ?_) fun _ w₅ h₅ =>
      (h₃.steady h₅).nothingLeft
    have hstored := h₃.steady h₅
    have hnone : w₅.failure = none := h₅.failure.trans (hgood rfl)
    have hproduced : producer.Returns w₅.offered := h₅.offered ▸ hreturns rfl
    rw [Outcome.get_bind_iff]
    have hlength := hstored.size hnone
    have hintact : Intact { descriptor := file, size := w₅.size } w₅.fs (allBytes w₅.offered) :=
      ⟨hstored.content hnone, hlength⟩
    split
    · exact Outcome.throw_iff.mpr hstored.nothingLeft
    · next envelope hinspect =>
      obtain ⟨s, henvelope, hresult⟩ := inspectRecords_ok hJ hintact hinspect
      exact Outcome.pure_iff.mpr ⟨s, ⟨producer, rfl, hproduced⟩, hstored.accepted hnone,
        ⟨hintact.bytes, hlength⟩, hlength ▸ hstored.bounded, hstored.unnamed, henvelope,
        hresult⟩

/-- A visitor that keeps the lines sees all of them. -/
theorem collect_lines (lines kept : List Bytes) :
    lines.foldlM (fun kept line => .ok (kept ++ [line])) kept =
      (.ok (kept ++ lines) : Except Failure (List Bytes)) := by
  induction lines generalizing kept with
  | nil => rw [List.append_nil]; rfl
  | cons line lines ih =>
    rw [List.foldlM_cons]
    show List.foldlM _ (kept ++ [line]) lines = _
    rw [ih, List.append_assoc, List.singleton_append]

/-- **All that was produced, or nothing.** If `receive` returns a snapshot, the producer has
returned, every chunk was accepted, and the chunks together are an envelope and the content
of a file without a name. Later reads return that content piece by piece up to its end, and
later inspections see its lines, whatever other processes do. If `receive` throws, nothing is
left. -/
theorem receive_exact (hJ : J.StringsFit) (sha256 : Bytes → Bytes) (E : ReceiveEnv)
    (producer : Option Producer) (fs : FileSystem) :
    Outcome (receive E J sha256 producer) { fs := fs } fun result w => match result with
      | .ok p => ∃ s, Received J sha256 producer p w s ∧
        (∀ calls : List ReadCall, (∀ call ∈ calls, w.fs.Leaves call.fs) →
          ∃ pieces, p.readBack 0 calls = .ok pieces ∧ pieces.flatten <+: allBytes w.offered ∧
            List.Forall₂ (fun call piece => piece.length ≤ call.capacity) calls pieces ∧
            min (calls.filter fun call => call.capacity ≠ 0).length
              (allBytes w.offered).length ≤ pieces.flatten.length) ∧
        ∀ fs', w.fs.Leaves fs' → ∀ counts : Nat → Nat,
          p.inspectRecords J sha256 (fun kept line _ => .ok (kept ++ [line])) fs'
            (fun n => .ok (counts n)) [] = .ok (p.envelope, s.data)
      | .error _ => NothingLeft w := by
  refine (receive_outcome hJ producer rfl rfl rfl).mono fun result w h => ?_
  cases result with
  | error e => exact h
  | ok p =>
    obtain ⟨s, hreceived⟩ := h
    refine ⟨s, hreceived, fun calls hcalls => ?_, fun fs' hfs counts => ?_⟩
    · exact readBack_spec (fun call hcall => hreceived.intact_later (hcalls call hcall))
        (Nat.zero_le _)
    · rw [(hreceived.intact_later hfs).inspectRecords, hreceived.result]
      refine (inspectSnapshotEnvelope_eq_ok_iff hJ).mpr ⟨s, ?_, collect_lines s.data [], rfl⟩
      rw [Source.symbols_ofSymbols]
      exact hreceived.envelope

end

/-! ## Copies leave other copies alone -/

section

variable {E : ReceiveEnv} {fs₀ : FileSystem} {w : ReceiveWorld} {file : Nat}

/-- A file without a name is spared: the one that is written to is another one. -/
theorem leaves_append {fs : FileSystem} (h : fs₀.Leaves fs) (hother : ¬ fs₀.Unnamed file)
    (data : Bytes) : fs₀.Leaves (fs.append file data) := by
  refine ⟨fun f hf => ⟨(h.unnamed f hf).existing, (h.unnamed f hf).nameless⟩, fun f hf => ?_⟩
  have hne : f ≠ file := fun heq => hother (heq ▸ hf)
  show Function.update fs.content file _ f = _
  rw [Function.update_of_ne hne]
  exact h.content f hf

theorem checkCancelled_leaves (h : fs₀.Leaves w.fs) :
    Outcome (checkCancelled E) w fun _ w' => fs₀.Leaves w'.fs :=
  checkCancelled_outcome.mono fun _ _ hsteady => h.trans hsteady.leaves

theorem retries_leaves (h : fs₀.Leaves w.fs) (n : Nat) :
    Outcome (retries E n) w fun _ w' => fs₀.Leaves w'.fs :=
  (retries_outcome n).mono fun _ _ hsteady => h.trans hsteady.leaves

/-- The files of others are left alone by each step: a write, -/
theorem writeChunk_leaves (h : fs₀.Leaves w.fs) (hother : ¬ fs₀.Unnamed file) (data : Bytes) :
    Outcome (writeChunk E file data) w fun _ w' => fs₀.Leaves w'.fs := by
  induction hn : data.length using Nat.strongRecOn generalizing data w with
  | ind n ih =>
    rw [writeChunk]
    split
    · exact Outcome.pure_iff.mpr h
    · next hne =>
      rw [Outcome.get_bind_iff]
      refine Outcome.call (retries_leaves h _) (fun _ w₁ h₁ => ?_) fun _ _ h₁ => h₁
      refine Outcome.call (checkCancelled_leaves h₁) (fun _ w₂ h₂ => ?_) fun _ _ h₂ => h₂
      rw [Outcome.get_bind_iff]
      dsimp only
      split
      · exact Outcome.throw_iff.mpr h₂
      · next hamount =>
        rw [Outcome.modify_bind_iff]
        refine ih _ ?_ (leaves_append h₂ hother _) _ rfl
        have hpos := List.length_pos_iff.mpr hne
        rw [List.length_drop]
        omega

/-- a chunk that arrives, -/
theorem sink_leaves (h : fs₀.Leaves w.fs) (hother : ¬ fs₀.Unnamed file) (chunk : Chunk) :
    Outcome (sink E file chunk) w fun _ w' => fs₀.Leaves w'.fs := by
  unfold sink
  rw [Outcome.get_bind_iff, Outcome.ite_iff]
  refine ⟨fun _ => Outcome.modify_bind_iff.mpr (Outcome.pure_iff.mpr h), fun _ => ?_⟩
  rw [Outcome.tryCatch_iff]
  unfold acceptChunk
  rw [bind_assoc]
  refine Outcome.call (checkCancelled_leaves h) (fun _ w₁ h₁ => ?_) fun _ w₁ h₁ =>
    Outcome.modify_bind_iff.mpr (Outcome.pure_iff.mpr h₁)
  simp only [bind_assoc]
  rw [Outcome.get_bind_iff]
  split
  · exact Outcome.throw_iff.mpr (Outcome.modify_bind_iff.mpr (Outcome.pure_iff.mpr h₁))
  · rw [bind_assoc]
    refine Outcome.call (writeChunk_leaves h₁ hother chunk.bytes) (fun _ w₂ h₂ => ?_)
      fun _ w₂ h₂ => Outcome.modify_bind_iff.mpr (Outcome.pure_iff.mpr h₂)
    rw [Outcome.modify_bind_iff, Outcome.modify_bind_iff]
    exact Outcome.pure_iff.mpr h₂

/-- the whole production, -/
theorem produce_leaves (h : fs₀.Leaves w.fs) (hother : ¬ fs₀.Unnamed file)
    (producer : Producer) :
    Outcome (produce E file producer) w fun _ w' => fs₀.Leaves w'.fs := by
  induction producer generalizing w with
  | done => exact Outcome.pure_iff.mpr h
  | thrown => exact Outcome.throw_iff.mpr h
  | chunk chunk next ih =>
    unfold produce
    exact Outcome.call (sink_leaves h hother chunk) (fun accepted w₁ h₁ => ih accepted h₁)
      fun _ _ h₁ => h₁

/-- and the failure at its end. -/
theorem rethrow_leaves (h : fs₀.Leaves w.fs) :
    Outcome rethrow w fun _ w' => fs₀.Leaves w'.fs := by
  unfold rethrow
  rw [Outcome.get_bind_iff]
  split
  · exact Outcome.throw_iff.mpr h
  · exact Outcome.pure_iff.mpr h

/-- The file that is made is a new one. -/
theorem makeFile_leaves (h : fs₀.Leaves w.fs) :
    Outcome (makeFile E) w fun result w' => fs₀.Leaves w'.fs ∧
      ∀ file, result = .ok file → ¬ fs₀.Unnamed file := by
  have hcreate : ∀ path, fs₀.Leaves (w.fs.create path) ∧
      fs₀.Leaves ((w.fs.create path).unlink path) := by
    intro path
    -- the file is new, so it is none of the old ones
    have hold : ∀ f, fs₀.Unnamed f → f ≠ w.fs.fresh := by
      intro f hf heq
      have := (h.unnamed f hf).existing
      omega
    have hcontent : ∀ f, fs₀.Unnamed f →
        Function.update w.fs.content w.fs.fresh [] f = fs₀.content f := by
      intro f hf
      rw [Function.update_of_ne (hold f hf)]
      exact h.content f hf
    have hnames : ∀ f, fs₀.Unnamed f → ∀ other,
        Function.update w.fs.names path (some w.fs.fresh) other ≠ some f := by
      intro f hf other
      by_cases hpath : other = path
      · rw [hpath, Function.update_self]
        intro heq
        exact hold f hf (Option.some.inj heq).symm
      · rw [Function.update_of_ne hpath]
        exact (h.unnamed f hf).nameless other
    refine ⟨⟨fun f hf => ⟨?_, hnames f hf⟩, hcontent⟩,
      ⟨fun f hf => ⟨?_, fun other => ?_⟩, hcontent⟩⟩
    · exact Nat.lt_succ_of_lt (h.unnamed f hf).existing
    · exact Nat.lt_succ_of_lt (h.unnamed f hf).existing
    · show Function.update (Function.update w.fs.names path (some w.fs.fresh)) path none other ≠ _
      by_cases hpath : other = path
      · rw [hpath, Function.update_self]
        exact nofun
      · rw [Function.update_of_ne hpath]
        exact hnames f hf other
  -- the name is taken away at once, whether or not that succeeds
  unfold makeFile
  rw [Outcome.get_bind_iff]
  split
  · exact Outcome.throw_iff.mpr ⟨h, fun _ hfile => by cases hfile⟩
  · next path _ =>
    dsimp only
    rw [Outcome.modify_bind_iff, Outcome.guard_iff, Outcome.modify_bind_iff]
    refine ⟨fun _ => ⟨(hcreate path).1, fun _ hfile => by cases hfile⟩, fun _ =>
      Outcome.pure_iff.mpr ⟨(hcreate path).2, fun file hfile hunnamed => ?_⟩⟩
    obtain rfl : w.fs.fresh = file := Except.ok.inj hfile
    exact Nat.lt_irrefl _ (h.unnamed _ hunnamed).existing

/-- **`receive` leaves the files without a name alone** that were there before. -/
theorem receive_leaves {J : JsonLib} {sha256 : Bytes → Bytes} (producer : Option Producer)
    (fs : FileSystem) :
    Outcome (receive E J sha256 producer) { fs := fs } fun _ w' => fs.Leaves w'.fs := by
  unfold receive
  refine Outcome.call (checkCancelled_leaves (.refl fs)) (fun _ w₁ h₁ => ?_) fun _ _ h₁ => h₁
  cases producer with
  | none => exact Outcome.throw_iff.mpr h₁
  | some producer =>
    dsimp only
    refine Outcome.call (makeFile_leaves h₁) ?_ fun _ _ h₂ => h₂.1
    rintro file w₂ ⟨h₂, hother⟩
    have hproduced : Outcome (tryCatch (produce E file producer) fun error => do
        rethrow
        throw error) w₂ fun _ w₃ => fs.Leaves w₃.fs := by
      rw [Outcome.tryCatch_iff]
      refine (produce_leaves h₂ (hother file rfl) producer).mono fun result w₃ h₃ => ?_
      cases result with
      | ok a => exact h₃
      | error e =>
        exact Outcome.call (rethrow_leaves h₃) (fun _ _ h₄ => Outcome.throw_iff.mpr h₄)
          fun _ _ h₄ => h₄
    refine Outcome.call hproduced (fun _ w₃ h₃ => ?_) fun _ _ h₃ => h₃
    refine Outcome.call (rethrow_leaves h₃) (fun _ w₄ h₄ => ?_) fun _ _ h₄ => h₄
    refine Outcome.call (checkCancelled_leaves h₄) (fun _ w₅ h₅ => ?_) fun _ _ h₅ => h₅
    rw [Outcome.get_bind_iff]
    split
    · exact Outcome.throw_iff.mpr h₅
    · exact Outcome.pure_iff.mpr h₅

end

/-! ## The empty snapshot, received -/

/-- Nothing goes wrong, and writes take three bytes at a time. -/
def calmEnv : ReceiveEnv where
  cancelled _ := false
  make _ := some (ascii "/tmp/msime-snapshot-000000")
  unlinkFails _ := false
  interruptions _ := 0
  amount _ := 3
  answers _ := .ok 99
  others _ fs := fs
  others_leave _ fs := .refl fs

/-- The header, and the footer if the header was accepted. -/
def emptyProducer : Producer :=
  .chunk { bytes := emptyHeader ++ [newline] } fun accepted =>
    if accepted then .chunk { bytes := emptyFooter } fun _ => .done else .done

/-- The call, in a system without files. -/
def emptyReceived : Except ReceiveError PreparedSnapshot × ReceiveWorld :=
  (receive calmEnv emptyJson (fun _ => ascii "00") (some emptyProducer)).exec
    { fs := ⟨fun _ => none, fun _ => [], 0, nofun⟩ }

/-- It returns, with both chunks accepted. -/
theorem receive_exact_empty : ∃ p w s, emptyReceived = (.ok p, w) ∧
    Received emptyJson (fun _ => ascii "00") (some emptyProducer) p w s := by
  have hreturns : emptyReceived.1.toOption.isSome = true := by decide +kernel
  have hexact := receive_exact emptyJson_lawful.stringsFit (fun _ => ascii "00") calmEnv
    (some emptyProducer) ⟨fun _ => none, fun _ => [], 0, nofun⟩
  rcases hrun : emptyReceived with ⟨e | p, w⟩
  · simp [hrun, Except.toOption] at hreturns
  · unfold emptyReceived at hrun
    unfold Outcome at hexact
    rw [hrun] at hexact
    obtain ⟨s, hreceived, -⟩ := hexact
    exact ⟨p, w, s, rfl, hreceived⟩

end PreparedSnapshot

end MsimeLinux
