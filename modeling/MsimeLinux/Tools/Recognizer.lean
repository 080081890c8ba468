import MsimeLinux.Bytes
import MsimeLinux.Lib.Run
import MsimeLinux.Lib.Utf8
import MsimeLinux.Tools.Handwriting

/-!
# The child of the handwriting backend (`HandwritingRecognizer.cpp`)

A picture of the strokes goes to a child process, whose output is read until it ends, is too
long, or time is up; then the child is waited for, and killed if it does not end in time. The
kernel answers every system call as it likes, after some time.

- `Watched`: what holds between any two system calls; every answer keeps it.
- `InTime`, `Supervisor.left`: how late it is, and how many calls are left.
- `child_supervised`: how long a recognition lasts, and what becomes of the child.
-/

namespace MsimeLinux

open Lib

namespace HandwritingRecognizer

/-! ## The child -/

/-- `kMaximumOutputBytes`, `kChildPollIntervalMilliseconds` and `kKillGrace`
(HandwritingRecognizer.cpp:33). The steady clock counts nanoseconds. -/
def maximumOutputBytes : Nat := 64 * 1024
def millisecond : Nat := 1000000
def childPollInterval : Nat := 5 * millisecond
def killGrace : Nat := 500 * millisecond

/-- The limit of `int`. -/
def maximumWait : Nat := 2147483647

/-- `remaining_milliseconds` (HandwritingRecognizer.cpp:228): whole ones, as `duration_cast`
drops the rest. -/
def remainingMilliseconds (deadline now : Nat) : Nat :=
  min ((deadline - now) / millisecond) maximumWait

/-- Nothing remains already in the last millisecond. -/
theorem remainingMilliseconds_eq_zero {deadline now : Nat} :
    remainingMilliseconds deadline now = 0 ↔ deadline < now + millisecond := by
  unfold remainingMilliseconds maximumWait millisecond
  omega

/-- What `waitpid` says of a child that has ended: `WEXITSTATUS`, if `WIFEXITED`. -/
inductive ExitStatus where
  | exited (code : Nat)
  | signaled
  deriving DecidableEq

/-- `BackendOutcome` (HandwritingRecognizer.cpp:52). -/
inductive BackendOutcome where
  | ok
  | spawnFailed
  | missing
  | failed
  | timedOut
  deriving DecidableEq

/-- What an exit status means (HandwritingRecognizer.cpp:361). -/
def outcomeOf : ExitStatus → BackendOutcome
  | .exited 0 => .ok
  | .exited 127 => .missing
  | .exited _ => .failed
  | .signaled => .failed

/-- The system call that is made: `poll` and `read` on the pipe, `waitpid`, and the `poll` of
nothing between two of these. -/
inductive Phase where
  | polling
  | reading
  | waiting
  | pausing
  | returned (outcome : BackendOutcome)
  deriving DecidableEq

/-- The answers of the kernel. -/
inductive PollAnswer where
  | ready
  | nothing
  | interrupted
  | failed
  deriving DecidableEq

inductive ReadAnswer where
  | data (bytes : Bytes)
  | ended
  | again
  | failed
  deriving DecidableEq

inductive WaitAnswer where
  | ended (status : ExitStatus)
  | running
  | interrupted
  | lost
  deriving DecidableEq

/-- A system call comes back, some nanoseconds after it was made. -/
inductive Answer where
  | poll (elapsed : Nat) (answer : PollAnswer)
  | read (elapsed : Nat) (answer : ReadAnswer)
  | wait (elapsed : Nat) (answer : WaitAnswer)
  | pause (elapsed : Nat)
  deriving DecidableEq

/-- `run_tesseract` past the fork (HandwritingRecognizer.cpp:304), with what has become of the
child: whether it was waited for or is nowhere to be found, and when it was killed. -/
structure Supervisor where
  now : Nat
  deadline : Nat
  output : Bytes := []
  pipe : Bool := true
  reaped : Option ExitStatus := none
  lost : Bool := false
  killed : Option Nat := none
  phase : Phase := .polling
  deriving DecidableEq

namespace Supervisor

/-- Time goes by; bytes come. -/
def pass (s : Supervisor) (elapsed : Nat) : Supervisor := { s with now := s.now + elapsed }

def receive (s : Supervisor) (bytes : Bytes) : Supervisor := { s with output := s.output ++ bytes }

/-- How long `poll` may wait. -/
def remaining (s : Supervisor) : Nat := remainingMilliseconds s.deadline s.now

/-- The pipe is closed, and the child is waited for. -/
def finishReading (s : Supervisor) : Supervisor := { s with pipe := false, phase := .waiting }

/-- `terminate_child` (HandwritingRecognizer.cpp:269). -/
def terminateChild (s : Supervisor) : Supervisor :=
  { s with pipe := false, killed := some s.now, phase := .waiting }

/-- The head of the loop (HandwritingRecognizer.cpp:308). -/
def readOn (s : Supervisor) : Supervisor :=
  if s.output.length < maximumOutputBytes then
    if s.remaining = 0 then s.terminateChild else { s with phase := .polling }
  else s.finishReading

/-- The deadline of `reap_child`: for a child that was killed, one of its own. -/
def reapDeadline (s : Supervisor) : Nat :=
  match s.killed with
  | none => s.deadline
  | some time => time + killGrace

/-- `run_tesseract` returns; what was killed has timed out. -/
def finish (s : Supervisor) (outcome : BackendOutcome) : Supervisor :=
  { s with phase := .returned (if s.killed.isSome then .timedOut else outcome) }

/-- A call of `waitpid` in `reap_child` (HandwritingRecognizer.cpp:243). -/
def afterWait (s : Supervisor) : WaitAnswer → Supervisor
  | .ended status => { s with reaped := some status }.finish (outcomeOf status)
  | .lost => { s with lost := true }.finish .failed
  | .interrupted => s
  | .running =>
    if remainingMilliseconds s.reapDeadline s.now = 0 then
      if s.killed.isSome then s.finish .timedOut else s.terminateChild
    else { s with phase := .pausing }

/-- The answer to the call that is made. -/
def next (s : Supervisor) : Answer → Option Supervisor
  | .poll elapsed answer =>
    if s.phase = .polling then
      match answer with
      | .ready => some { s.pass elapsed with phase := .reading }
      | .nothing => some (s.pass elapsed).terminateChild
      | .interrupted => some (s.pass elapsed).readOn
      | .failed => some (s.pass elapsed).finishReading
    else none
  | .read elapsed answer =>
    if s.phase = .reading then
      match answer with
      | .data bytes => some ((s.pass elapsed).receive bytes).readOn
      | .again => some (s.pass elapsed).readOn
      | .ended => some (s.pass elapsed).finishReading
      | .failed => some (s.pass elapsed).finishReading
    else none
  | .wait elapsed answer =>
    if s.phase = .waiting then some ((s.pass elapsed).afterWait answer) else none
  | .pause elapsed =>
    if s.phase = .pausing then some { s.pass elapsed with phase := .waiting } else none

/-- The child has just been forked; the timeout is one of milliseconds. -/
def spawned (now timeout : Nat) : Supervisor :=
  ({ now, deadline := now + timeout * millisecond } : Supervisor).readOn

end Supervisor

/-- What the kernel promises of the calls: `poll` finds nothing only when its time is over, and
`read` fills 1024 bytes at most. -/
def Answer.Lawful (s : Supervisor) : Answer → Prop
  | .poll elapsed .nothing => s.remaining * millisecond ≤ elapsed
  | .read _ (.data bytes) => bytes ≠ [] ∧ bytes.length ≤ 1024
  | _ => True

/-- No call takes longer than it was told to, but for some slack. `waitpid` is told not to wait,
so nothing interrupts it. -/
def Answer.Timely (slack : Nat) (s : Supervisor) : Answer → Prop
  | .poll elapsed _ => elapsed ≤ s.remaining * millisecond + slack
  | .read elapsed _ => elapsed ≤ slack
  | .wait elapsed answer => elapsed ≤ slack ∧ answer ≠ .interrupted
  | .pause elapsed => elapsed ≤ childPollInterval + slack

/-- Nothing interrupts the calls, and a pause takes some milliseconds. -/
def Answer.Brisk : Answer → Prop
  | .poll _ answer => answer ≠ .interrupted
  | .read _ answer => answer ≠ .again
  | .wait _ answer => answer ≠ .interrupted
  | .pause elapsed => millisecond ≤ elapsed

def Step (s : Supervisor) (answer : Answer) (t : Supervisor) : Prop :=
  answer.Lawful s ∧ s.next answer = some t

/-! ## One call after the other -/

variable {start timeout slack : Nat} {s t : Supervisor} {answer : Answer}

/-- What an answer leads to: each call goes on in one of few ways. -/
inductive Moves (s : Supervisor) : Answer → Supervisor → Prop
  | ready (elapsed : Nat) : s.phase = .polling →
      Moves s (.poll elapsed .ready) { s.pass elapsed with phase := .reading }
  | nothing (elapsed : Nat) : s.phase = .polling → s.remaining * millisecond ≤ elapsed →
      Moves s (.poll elapsed .nothing) (s.pass elapsed).terminateChild
  | pollAgain (elapsed : Nat) : s.phase = .polling →
      Moves s (.poll elapsed .interrupted) (s.pass elapsed).readOn
  | pollFailed (elapsed : Nat) : s.phase = .polling →
      Moves s (.poll elapsed .failed) (s.pass elapsed).finishReading
  | data (elapsed : Nat) (bytes : Bytes) : s.phase = .reading → bytes ≠ [] →
      bytes.length ≤ 1024 →
      Moves s (.read elapsed (.data bytes)) ((s.pass elapsed).receive bytes).readOn
  | readAgain (elapsed : Nat) : s.phase = .reading →
      Moves s (.read elapsed .again) (s.pass elapsed).readOn
  | ended (elapsed : Nat) (answer : ReadAnswer) : s.phase = .reading →
      answer = .ended ∨ answer = .failed →
      Moves s (.read elapsed answer) (s.pass elapsed).finishReading
  | wait (elapsed : Nat) (answer : WaitAnswer) : s.phase = .waiting →
      Moves s (.wait elapsed answer) ((s.pass elapsed).afterWait answer)
  | pause (elapsed : Nat) : s.phase = .pausing →
      Moves s (.pause elapsed) { s.pass elapsed with phase := .waiting }

/-- **The step lemma**: what every answer of the system does to the supervisor. -/
theorem Step.moves (h : Step s answer t) : Moves s answer t := by
  obtain ⟨hlawful, hnext⟩ := h
  cases answer with
  | poll elapsed answer =>
    simp only [Supervisor.next] at hnext
    split at hnext
    next hphase =>
      cases answer with
      | ready =>
        cases hnext
        exact .ready elapsed hphase
      | nothing =>
        cases hnext
        exact .nothing elapsed hphase hlawful
      | interrupted =>
        cases hnext
        exact .pollAgain elapsed hphase
      | failed =>
        cases hnext
        exact .pollFailed elapsed hphase
    · cases hnext
  | read elapsed answer =>
    simp only [Supervisor.next] at hnext
    split at hnext
    next hphase =>
      cases answer with
      | data bytes =>
        cases hnext
        exact .data elapsed bytes hphase hlawful.1 hlawful.2
      | again =>
        cases hnext
        exact .readAgain elapsed hphase
      | ended =>
        cases hnext
        exact .ended elapsed _ hphase (.inl rfl)
      | failed =>
        cases hnext
        exact .ended elapsed _ hphase (.inr rfl)
    · cases hnext
  | wait elapsed answer =>
    simp only [Supervisor.next] at hnext
    split at hnext
    next hphase =>
      cases hnext
      exact .wait elapsed answer hphase
    · cases hnext
  | pause elapsed =>
    simp only [Supervisor.next] at hnext
    split at hnext
    next hphase =>
      cases hnext
      exact .pause elapsed hphase
    · cases hnext

/-- The ways the head of the loop goes. -/
theorem readOn_cases (s : Supervisor) :
    (s.output.length < maximumOutputBytes ∧ s.now + millisecond ≤ s.deadline ∧
      s.readOn = { s with phase := .polling }) ∨
    (s.output.length < maximumOutputBytes ∧ s.deadline < s.now + millisecond ∧
      s.readOn = s.terminateChild) ∨
    (maximumOutputBytes ≤ s.output.length ∧ s.readOn = s.finishReading) := by
  unfold Supervisor.readOn
  have hwait : s.remaining = 0 ↔ s.deadline < s.now + millisecond := remainingMilliseconds_eq_zero
  split
  next hshort =>
    split
    next hover => exact .inr (.inl ⟨hshort, hwait.mp hover, rfl⟩)
    next hgoing => exact .inl ⟨hshort, Nat.le_of_not_lt (hwait.not.mp hgoing), rfl⟩
  next hlong => exact .inr (.inr ⟨Nat.le_of_not_lt hlong, rfl⟩)

/-- The ways a call of `waitpid` goes. -/
theorem afterWait_cases (s : Supervisor) (answer : WaitAnswer) :
    (∃ status, answer = .ended status ∧
      s.afterWait answer = { s with reaped := some status }.finish (outcomeOf status)) ∨
    (answer = .lost ∧ s.afterWait answer = { s with lost := true }.finish .failed) ∨
    (answer = .interrupted ∧ s.afterWait answer = s) ∨
    (answer = .running ∧ s.now + millisecond ≤ s.reapDeadline ∧
      s.afterWait answer = { s with phase := .pausing }) ∨
    (answer = .running ∧ s.deadline < s.now + millisecond ∧ s.killed = none ∧
      s.afterWait answer = s.terminateChild) ∨
    ∃ time, answer = .running ∧ s.killed = some time ∧ time + killGrace < s.now + millisecond ∧
      s.afterWait answer = s.finish .timedOut := by
  cases answer with
  | ended status => exact .inl ⟨status, rfl, rfl⟩
  | lost => exact .inr (.inl ⟨rfl, rfl⟩)
  | interrupted => exact .inr (.inr (.inl ⟨rfl, rfl⟩))
  | running =>
    simp only [Supervisor.afterWait]
    split
    next hover =>
      rw [remainingMilliseconds_eq_zero] at hover
      unfold Supervisor.reapDeadline at hover
      cases hkilled : s.killed with
      | none =>
        rw [hkilled] at hover
        exact .inr (.inr (.inr (.inr (.inl ⟨trivial, hover, rfl, rfl⟩))))
      | some time =>
        rw [hkilled] at hover
        exact .inr (.inr (.inr (.inr (.inr ⟨time, trivial, rfl, hover, rfl⟩))))
    next hgoing =>
      rw [remainingMilliseconds_eq_zero] at hgoing
      exact .inr (.inr (.inr (.inl ⟨trivial, Nat.le_of_not_lt hgoing, rfl⟩)))

/-! ## What holds between two calls -/

/-- What `run_tesseract` has come to once it returns: a child that was waited for tells the
outcome, unless it was killed; else nothing is known of it, or it outlived its grace. -/
structure Settled (s : Supervisor) (outcome : BackendOutcome) : Prop where
  timedOut : outcome = .timedOut ↔ s.killed.isSome = true
  told : s.killed = none → ∀ status, s.reaped = some status → outcome = outcomeOf status
  untold : s.killed = none → s.reaped = none → outcome = .failed
  child : s.reaped.isSome = true ∨ s.lost = true ∨
    ∃ time, s.killed = some time ∧ time + killGrace < s.now + millisecond

theorem outcomeOf_ne (status : ExitStatus) : outcomeOf status ≠ .timedOut := by
  unfold outcomeOf
  split <;> simp

/-- A child that was killed has timed out, whatever comes of it. -/
theorem Settled.finish {outcome : BackendOutcome} (hne : outcome ≠ .timedOut)
    (htold : ∀ status, s.reaped = some status → outcome = outcomeOf status)
    (huntold : s.reaped = none → outcome = .failed)
    (hchild : s.reaped.isSome = true ∨ s.lost = true ∨
      ∃ time, s.killed = some time ∧ time + killGrace < s.now + millisecond) :
    Settled s (if s.killed.isSome then .timedOut else outcome) := by
  cases hkilled : s.killed with
  | none =>
    refine ⟨?_, fun _ status hstatus => ?_, fun _ hnone => ?_, hchild⟩
    · simp [hkilled, hne]
    · simpa using htold status hstatus
    · simpa using huntold hnone
  | some time => exact ⟨by simp [hkilled], by simp [hkilled], by simp [hkilled], hchild⟩

/-- What holds between any two calls. -/
structure Watched (start timeout : Nat) (s : Supervisor) : Prop where
  started : start ≤ s.now
  deadline : s.deadline = start + timeout * millisecond
  output : s.output.length < maximumOutputBytes + 1024
  short : s.phase = .polling ∨ s.phase = .reading → s.output.length < maximumOutputBytes
  pipe : s.pipe = true ↔ s.phase = .polling ∨ s.phase = .reading
  alive : s.pipe = true → s.killed = none
  killed : ∀ time, s.killed = some time →
    time ≤ s.now ∧ (timeout ≤ maximumWait → s.deadline < time + millisecond)
  paused : s.phase = .pausing → s.now + millisecond ≤ s.reapDeadline
  unsettled : (∀ outcome, s.phase ≠ .returned outcome) → s.reaped = none ∧ s.lost = false
  settled : ∀ outcome, s.phase = .returned outcome → Settled s outcome

/-- The same inside the loop, between a call and the head. -/
structure Looping (start timeout : Nat) (s : Supervisor) : Prop where
  started : start ≤ s.now
  deadline : s.deadline = start + timeout * millisecond
  output : s.output.length < maximumOutputBytes + 1024
  killed : s.killed = none
  reaped : s.reaped = none
  lost : s.lost = false

namespace Looping

/-- The output is at its end, or as long as it may get. -/
theorem finishReading (h : Looping start timeout s) : Watched start timeout s.finishReading where
  started := h.started
  deadline := h.deadline
  output := h.output
  short := by simp [Supervisor.finishReading]
  pipe := by simp [Supervisor.finishReading]
  alive := by simp [Supervisor.finishReading]
  killed := by simp [Supervisor.finishReading, h.killed]
  paused := by simp [Supervisor.finishReading]
  unsettled _ := ⟨h.reaped, h.lost⟩
  settled := by simp [Supervisor.finishReading]

/-- The time is over, and the child is killed. -/
theorem terminateChild (h : Looping start timeout s)
    (hover : timeout ≤ maximumWait → s.deadline < s.now + millisecond) :
    Watched start timeout s.terminateChild where
  started := h.started
  deadline := h.deadline
  output := h.output
  short := by simp [Supervisor.terminateChild]
  pipe := by simp [Supervisor.terminateChild]
  alive := by simp [Supervisor.terminateChild]
  killed time htime := by
    cases htime
    exact ⟨Nat.le_refl _, hover⟩
  paused := by simp [Supervisor.terminateChild]
  unsettled _ := ⟨h.reaped, h.lost⟩
  settled := by simp [Supervisor.terminateChild]

/-- The loop goes on. -/
theorem ofPhase (h : Looping start timeout s) {phase : Phase} (hpipe : s.pipe = true)
    (hphase : phase = .polling ∨ phase = .reading)
    (hshort : s.output.length < maximumOutputBytes) :
    Watched start timeout { s with phase } where
  started := h.started
  deadline := h.deadline
  output := h.output
  short _ := hshort
  pipe := iff_of_true hpipe hphase
  alive _ := h.killed
  killed := by simp [h.killed]
  paused := by rcases hphase with rfl | rfl <;> simp
  unsettled _ := ⟨h.reaped, h.lost⟩
  settled outcome hreturned := by rcases hphase with rfl | rfl <;> cases hreturned

/-- The output is read as long as there is time and room. -/
theorem readOn (h : Looping start timeout s) (hpipe : s.pipe = true) :
    Watched start timeout s.readOn := by
  rcases readOn_cases s with ⟨hshort, -, heq⟩ | ⟨-, hover, heq⟩ | ⟨-, heq⟩
  · rw [heq]
    exact h.ofPhase hpipe (.inl rfl) hshort
  · rw [heq]
    exact h.terminateChild fun _ => hover
  · rw [heq]
    exact h.finishReading

/-- A piece of output has come. -/
theorem receive (h : Looping start timeout s) {bytes : Bytes}
    (hshort : s.output.length < maximumOutputBytes) (hbytes : bytes.length ≤ 1024) :
    Looping start timeout (s.receive bytes) :=
  { h with
    output := by
      show (s.output ++ bytes).length < _
      rw [List.length_append]
      omega }

end Looping

namespace Watched

/-- A child that was started is watched. -/
theorem spawned (start timeout : Nat) : Watched start timeout (.spawned start timeout) := by
  have hloop : Looping start timeout { now := start, deadline := start + timeout * millisecond } :=
    ⟨Nat.le_refl _, rfl, by simp [maximumOutputBytes], rfl, rfl, rfl⟩
  exact hloop.readOn rfl

/-- A call on the pipe comes back. -/
theorem looping (h : Watched start timeout s) (hreading : s.phase = .polling ∨ s.phase = .reading)
    (elapsed : Nat) : Looping start timeout (s.pass elapsed) := by
  have hpipe := h.pipe.mpr hreading
  obtain ⟨hreaped, hlost⟩ := h.unsettled (by rcases hreading with hp | hp <;> simp [hp])
  exact ⟨Nat.le_trans h.started (Nat.le_add_right _ _), h.deadline, h.output, h.alive hpipe,
    hreaped, hlost⟩

/-- Nobody waits for the child while its pipe is open. -/
theorem closed (h : Watched start timeout s) (hphase : s.phase = .waiting ∨ s.phase = .pausing) :
    s.pipe = false := by
  rw [← Bool.not_eq_true, h.pipe]
  rcases hphase with hp | hp <;> simp [hp]

/-- The child has ended, or is given up. -/
theorem finish (h : Watched start timeout s) (hphase : s.phase = .waiting)
    {reaped : Option ExitStatus} {lost : Bool} {outcome : BackendOutcome}
    (hsettled : Settled { s with reaped, lost } (if s.killed.isSome then .timedOut else outcome)) :
    Watched start timeout ({ s with reaped, lost }.finish outcome) where
  started := h.started
  deadline := h.deadline
  output := h.output
  short := by simp [Supervisor.finish]
  pipe := by simp [Supervisor.finish, h.closed (.inl hphase)]
  alive := by simp [Supervisor.finish, h.closed (.inl hphase)]
  killed := h.killed
  paused := by simp [Supervisor.finish]
  unsettled hgoing := absurd rfl (hgoing _)
  settled outcome' hreturned := by
    cases hreturned
    exact ⟨hsettled.timedOut, hsettled.told, hsettled.untold, hsettled.child⟩

/-- From one call of `waitpid` to the next. -/
theorem betweenWaits (h : Watched start timeout s)
    (hphase : s.phase = .waiting ∨ s.phase = .pausing) {phase : Phase} (elapsed : Nat)
    (hnext : phase = .waiting ∨
      phase = .pausing ∧ s.now + elapsed + millisecond ≤ s.reapDeadline) :
    Watched start timeout { s.pass elapsed with phase } where
  started := Nat.le_trans h.started (Nat.le_add_right _ _)
  deadline := h.deadline
  output := h.output
  short := by rcases hnext with rfl | ⟨rfl, -⟩ <;> simp
  pipe := by rcases hnext with rfl | ⟨rfl, -⟩ <;> simp [Supervisor.pass, h.closed hphase]
  alive := by simp [Supervisor.pass, h.closed hphase]
  killed time htime :=
    ⟨Nat.le_trans (h.killed time htime).1 (Nat.le_add_right _ _), (h.killed time htime).2⟩
  paused hpausing := by
    rcases hnext with rfl | ⟨-, hgoing⟩
    · cases hpausing
    · exact hgoing
  unsettled _ := h.unsettled (by rcases hphase with hp | hp <;> simp [hp])
  settled := by rcases hnext with rfl | ⟨rfl, -⟩ <;> simp

/-- What `waitpid` has answered. -/
theorem afterWait (h : Watched start timeout s) (hphase : s.phase = .waiting)
    (answer : WaitAnswer) : Watched start timeout (s.afterWait answer) := by
  obtain ⟨hreaped, hlost⟩ := h.unsettled (by simp [hphase])
  rcases afterWait_cases s answer with ⟨status, -, heq⟩ | ⟨-, heq⟩ | ⟨-, heq⟩ |
    ⟨-, hgoing, heq⟩ | ⟨-, hover, hnone, heq⟩ | ⟨time, -, htime, hgrace, heq⟩
  · rw [heq]
    refine h.finish hphase (Settled.finish (outcomeOf_ne status) ?_ nofun (.inl rfl))
    intro status' hstatus
    cases hstatus
    rfl
  · rw [heq]
    refine h.finish hphase (Settled.finish (by simp) ?_ (fun _ => rfl) (.inr (.inl rfl)))
    intro status hstatus
    rw [hreaped] at hstatus
    cases hstatus
  · rw [heq]
    exact h
  · rw [heq]
    exact h.betweenWaits (.inl hphase) 0 (.inr ⟨rfl, hgoing⟩)
  · rw [heq]
    have hloop : Looping start timeout s :=
      ⟨h.started, h.deadline, h.output, hnone, hreaped, hlost⟩
    exact hloop.terminateChild fun _ => hover
  · rw [heq]
    refine h.finish hphase ?_
    rw [htime]
    exact ⟨by simp, by simp, by simp, .inr (.inr ⟨time, rfl, hgrace⟩)⟩

/-- **Every answer keeps it.** -/
theorem step (h : Watched start timeout s) (hstep : Step s answer t) :
    Watched start timeout t := by
  cases hstep.moves with
  | ready elapsed hphase =>
    exact (h.looping (.inl hphase) elapsed).ofPhase (h.pipe.mpr (.inl hphase)) (.inr rfl)
      (h.short (.inl hphase))
  | nothing elapsed hphase hremaining =>
    refine (h.looping (.inl hphase) elapsed).terminateChild fun htimeout => ?_
    have hdeadline := h.deadline
    have hstarted := h.started
    show s.deadline < s.now + elapsed + millisecond
    unfold Supervisor.remaining remainingMilliseconds at hremaining
    unfold millisecond at *
    omega
  | pollAgain elapsed hphase =>
    exact (h.looping (.inl hphase) elapsed).readOn (h.pipe.mpr (.inl hphase))
  | pollFailed elapsed hphase => exact (h.looping (.inl hphase) elapsed).finishReading
  | data elapsed bytes hphase hne hbytes =>
    exact ((h.looping (.inr hphase) elapsed).receive (h.short (.inr hphase)) hbytes).readOn
      (h.pipe.mpr (.inr hphase))
  | readAgain elapsed hphase =>
    exact (h.looping (.inr hphase) elapsed).readOn (h.pipe.mpr (.inr hphase))
  | ended elapsed answer hphase hended => exact (h.looping (.inr hphase) elapsed).finishReading
  | wait elapsed answer hphase =>
    have hlater : Watched start timeout (s.pass elapsed) := by
      have hnext := h.betweenWaits (.inl hphase) elapsed (.inl rfl)
      rwa [← hphase] at hnext
    exact hlater.afterWait hphase answer
  | pause elapsed hphase => exact h.betweenWaits (.inr hphase) elapsed (.inl rfl)

end Watched

/-! ## Time -/

/-- How late it may be in a phase, after `reapDeadline`. -/
def Phase.lateness (slack : Nat) : Phase → Nat
  | .polling | .pausing => 0
  | .reading => slack
  | .waiting => childPollInterval + 2 * slack
  | .returned _ => childPollInterval + 3 * slack

/-- It is not much later than the deadline there is, and the child was not killed much later
than the deadline there was. -/
structure InTime (slack : Nat) (s : Supervisor) : Prop where
  now : s.now ≤ s.reapDeadline + s.phase.lateness slack
  killed : ∀ time, s.killed = some time → time ≤ s.deadline + childPollInterval + 3 * slack

namespace InTime

theorem finishReading (hkilled : s.killed = none) (hnow : s.now ≤ s.deadline + 2 * slack) :
    InTime slack s.finishReading := by
  refine ⟨?_, by simp [Supervisor.finishReading, hkilled]⟩
  simp only [Supervisor.finishReading, Supervisor.reapDeadline, hkilled, Phase.lateness]
  omega

theorem terminateChild (hnow : s.now ≤ s.deadline + childPollInterval + 3 * slack) :
    InTime slack s.terminateChild := by
  refine ⟨?_, fun time htime => ?_⟩
  · simp only [Supervisor.terminateChild, Supervisor.reapDeadline, Phase.lateness]
    omega
  · cases htime
    exact hnow

theorem readOn (hkilled : s.killed = none) (hnow : s.now ≤ s.deadline + 2 * slack) :
    InTime slack s.readOn := by
  rcases readOn_cases s with ⟨-, hgoing, heq⟩ | ⟨-, -, heq⟩ | ⟨-, heq⟩
  · rw [heq]
    refine ⟨?_, by simp [hkilled]⟩
    simp only [Supervisor.reapDeadline, hkilled, Phase.lateness]
    omega
  · rw [heq]
    exact terminateChild (by omega)
  · rw [heq]
    exact finishReading hkilled hnow

theorem spawned (start timeout : Nat) : InTime slack (.spawned start timeout) :=
  readOn rfl (by simp only; omega)

theorem afterWait (h : ∀ time, s.killed = some time →
      time ≤ s.deadline + childPollInterval + 3 * slack)
    (hnow : s.now ≤ s.reapDeadline + childPollInterval + 3 * slack) {answer : WaitAnswer}
    (hanswer : answer ≠ .interrupted) : InTime slack (s.afterWait answer) := by
  have hfinish : s.now ≤ s.reapDeadline + (childPollInterval + 3 * slack) := by omega
  rcases afterWait_cases s answer with ⟨status, -, heq⟩ | ⟨-, heq⟩ | ⟨hinterrupted, -⟩ |
    ⟨-, hgoing, heq⟩ | ⟨-, -, hnone, heq⟩ | ⟨time, -, -, -, heq⟩
  · rw [heq]
    exact ⟨hfinish, h⟩
  · rw [heq]
    exact ⟨hfinish, h⟩
  · exact absurd hinterrupted hanswer
  · rw [heq]
    exact ⟨Nat.le_trans (Nat.le_add_right _ _) hgoing, h⟩
  · rw [heq]
    refine terminateChild ?_
    simpa [Supervisor.reapDeadline, hnone] using hnow
  · rw [heq]
    exact ⟨hfinish, h⟩

/-- A poll that is on time ends before the deadline, but for the slack. -/
theorem polled {elapsed : Nat} (hnow : s.now ≤ s.deadline + Phase.polling.lateness slack)
    (htimely : elapsed ≤ s.remaining * millisecond + slack) :
    s.now + elapsed ≤ s.deadline + slack := by
  have hremaining : s.remaining * millisecond ≤ s.deadline - s.now :=
    Nat.le_trans (Nat.mul_le_mul_right _ (Nat.min_le_left _ _)) (Nat.div_mul_le_self _ _)
  simp only [Phase.lateness] at hnow
  omega

/-- So does the read that follows. -/
theorem read {elapsed : Nat} (hnow : s.now ≤ s.deadline + Phase.reading.lateness slack)
    (htimely : elapsed ≤ slack) : s.now + elapsed ≤ s.deadline + 2 * slack := by
  simp only [Phase.lateness] at hnow
  omega

/-- Every answer that comes in time keeps it. -/
theorem step (h : InTime slack s) (hw : Watched start timeout s) (hstep : Step s answer t)
    (htimely : answer.Timely slack s) : InTime slack t := by
  have hreading : s.phase = .polling ∨ s.phase = .reading →
      s.killed = none ∧ s.now ≤ s.deadline + s.phase.lateness slack := by
    intro hphase
    have hkilled := hw.alive (hw.pipe.mpr hphase)
    have hnow := h.now
    simp only [Supervisor.reapDeadline, hkilled] at hnow
    exact ⟨hkilled, hnow⟩
  cases hstep.moves with
  | ready elapsed hphase =>
    -- while the output is read, nothing is killed: the deadline is the one of the request
    obtain ⟨hkilled, hnow⟩ := hreading (.inl hphase)
    rw [hphase] at hnow
    refine ⟨?_, h.killed⟩
    show s.now + elapsed ≤ s.reapDeadline + slack
    simp only [Supervisor.reapDeadline, hkilled]
    exact polled hnow htimely
  | nothing elapsed hphase hover =>
    -- the child is killed here, one poll after the deadline at the latest
    obtain ⟨-, hnow⟩ := hreading (.inl hphase)
    rw [hphase] at hnow
    have hlate := polled hnow htimely
    refine terminateChild ?_
    show s.now + elapsed ≤ s.deadline + childPollInterval + 3 * slack
    omega
  | pollAgain elapsed hphase =>
    obtain ⟨hkilled, hnow⟩ := hreading (.inl hphase)
    rw [hphase] at hnow
    have hlate := polled hnow htimely
    refine readOn hkilled ?_
    show s.now + elapsed ≤ s.deadline + 2 * slack
    omega
  | pollFailed elapsed hphase =>
    obtain ⟨hkilled, hnow⟩ := hreading (.inl hphase)
    rw [hphase] at hnow
    have hlate := polled hnow htimely
    refine finishReading hkilled ?_
    show s.now + elapsed ≤ s.deadline + 2 * slack
    omega
  | data elapsed bytes hphase hne hbytes =>
    obtain ⟨hkilled, hnow⟩ := hreading (.inr hphase)
    rw [hphase] at hnow
    exact readOn hkilled (read hnow htimely)
  | readAgain elapsed hphase =>
    obtain ⟨hkilled, hnow⟩ := hreading (.inr hphase)
    rw [hphase] at hnow
    exact readOn hkilled (read hnow htimely)
  | ended elapsed answer hphase hended =>
    obtain ⟨hkilled, hnow⟩ := hreading (.inr hphase)
    rw [hphase] at hnow
    exact finishReading hkilled (read hnow htimely)
  | wait elapsed answer hphase =>
    -- the wait has a deadline of its own, that of the reaping
    have hnow := h.now
    rw [hphase] at hnow
    have helapsed := htimely.1
    simp only [Phase.lateness] at hnow
    have hlate : s.now + elapsed ≤ s.reapDeadline + childPollInterval + 3 * slack := by omega
    exact afterWait (s := s.pass elapsed) h.killed hlate htimely.2
  | pause elapsed hphase =>
    have hnow := h.now
    rw [hphase] at hnow
    refine ⟨?_, h.killed⟩
    have helapsed : elapsed ≤ childPollInterval + slack := htimely
    show s.now + elapsed ≤ s.reapDeadline + (childPollInterval + 2 * slack)
    simp only [Phase.lateness] at hnow
    omega

end InTime

/-! ## How many calls there are -/

/-- More calls than are left, unless one is interrupted. -/
def Supervisor.left (s : Supervisor) : Nat :=
  let room := maximumOutputBytes - s.output.length
  match s.phase with
  | .polling => 2 * room + 2 * ((s.deadline - s.now) / millisecond) + 1004
  | .reading => 2 * room + 2 * ((s.deadline - s.now) / millisecond) + 1003
  | .waiting => 2 * ((s.reapDeadline - s.now) / millisecond) + if s.killed.isSome then 1 else 1002
  | .pausing => 2 * ((s.reapDeadline - s.now) / millisecond) + if s.killed.isSome then 0 else 1001
  | .returned _ => 0

/-- Time that goes by leaves no more of it. -/
theorem milliseconds_pass (deadline now elapsed : Nat) :
    (deadline - (now + elapsed)) / millisecond ≤ (deadline - now) / millisecond :=
  Nat.div_le_div_right (by omega)

/-- How many answers a supervisor can still get, phase by phase. -/
theorem left_finishReading (hkilled : s.killed = none) :
    s.finishReading.left = 2 * ((s.deadline - s.now) / millisecond) + 1002 := by
  simp [Supervisor.finishReading, Supervisor.left, Supervisor.reapDeadline, hkilled]

theorem left_terminateChild (s : Supervisor) : s.terminateChild.left = 1001 := by
  simp [Supervisor.terminateChild, Supervisor.left, Supervisor.reapDeadline, killGrace,
    millisecond]

theorem left_readOn (hkilled : s.killed = none) : s.readOn.left ≤
    2 * (maximumOutputBytes - s.output.length) + 2 * ((s.deadline - s.now) / millisecond) +
      1004 := by
  rcases readOn_cases s with ⟨-, -, heq⟩ | ⟨-, -, heq⟩ | ⟨-, heq⟩
  · rw [heq]
    exact Nat.le_refl _
  · rw [heq, left_terminateChild]
    omega
  · rw [heq, left_finishReading hkilled]
    omega

theorem left_afterWait {answer : WaitAnswer} (hanswer : answer ≠ .interrupted) :
    (s.afterWait answer).left <
      2 * ((s.reapDeadline - s.now) / millisecond) + if s.killed.isSome then 1 else 1002 := by
  have hpos : 0 <
      2 * ((s.reapDeadline - s.now) / millisecond) + if s.killed.isSome then 1 else 1002 := by
    split <;> omega
  rcases afterWait_cases s answer with ⟨status, -, heq⟩ | ⟨-, heq⟩ | ⟨hinterrupted, -⟩ |
    ⟨-, hgoing, heq⟩ | ⟨-, -, hnone, heq⟩ | ⟨time, -, -, -, heq⟩
  · rw [heq]
    exact hpos
  · rw [heq]
    exact hpos
  · exact absurd hinterrupted hanswer
  · rw [heq]
    show 2 * ((s.reapDeadline - s.now) / millisecond) + (if s.killed.isSome then 0 else 1001) < _
    split <;> omega
  · rw [heq, left_terminateChild, hnone]
    simp only [Option.isSome_none, Bool.false_eq_true, if_false]
    omega
  · rw [heq]
    exact hpos

/-- Every call that is not interrupted is one less. -/
theorem left_step (h : Watched start timeout s) (hstep : Step s answer t)
    (hbrisk : answer.Brisk) : t.left < s.left := by
  have hkilled : s.phase = .polling ∨ s.phase = .reading → s.killed = none := fun hphase =>
    h.alive (h.pipe.mpr hphase)
  cases hstep.moves with
  | ready elapsed hphase =>
    have hpass := milliseconds_pass s.deadline s.now elapsed
    simp only [Supervisor.left, hphase, Supervisor.pass]
    omega
  | nothing elapsed hphase hover =>
    rw [left_terminateChild]
    simp only [Supervisor.left, hphase]
    omega
  | pollAgain elapsed hphase => exact absurd rfl hbrisk
  | pollFailed elapsed hphase =>
    have hpass := milliseconds_pass s.deadline s.now elapsed
    rw [left_finishReading (s := s.pass elapsed) (hkilled (.inl hphase))]
    simp only [Supervisor.left, hphase, Supervisor.pass]
    omega
  | data elapsed bytes hphase hne hbytes =>
    have hpass := milliseconds_pass s.deadline s.now elapsed
    have hshort := h.short (.inr hphase)
    have hpos := List.length_pos_iff.mpr hne
    have hleft := left_readOn (s := (s.pass elapsed).receive bytes) (hkilled (.inr hphase))
    refine Nat.lt_of_le_of_lt hleft ?_
    simp only [Supervisor.left, hphase, Supervisor.pass, Supervisor.receive, List.length_append]
    omega
  | readAgain elapsed hphase => exact absurd rfl hbrisk
  | ended elapsed answer hphase hended =>
    have hpass := milliseconds_pass s.deadline s.now elapsed
    rw [left_finishReading (s := s.pass elapsed) (hkilled (.inr hphase))]
    simp only [Supervisor.left, hphase, Supervisor.pass]
    omega
  | wait elapsed answer hphase =>
    have hpass := milliseconds_pass s.reapDeadline s.now elapsed
    refine Nat.lt_of_lt_of_le (left_afterWait hbrisk) ?_
    simp only [Supervisor.left, hphase]
    show 2 * ((s.reapDeadline - (s.now + elapsed)) / millisecond) + _ ≤ _
    exact Nat.add_le_add_right (by omega) _
  | pause elapsed hphase =>
    -- a pause begins only while there is a millisecond left, and takes it away
    have hless : (s.reapDeadline - (s.now + elapsed)) / millisecond <
        (s.reapDeadline - s.now) / millisecond := by
      have hlong : millisecond ≤ elapsed := hbrisk
      have hgoing := h.paused hphase
      unfold millisecond at *
      omega
    simp only [Supervisor.left, hphase]
    show 2 * ((s.reapDeadline - (s.now + elapsed)) / millisecond) +
      (if s.killed.isSome then 1 else 1002) < _
    split <;> omega

/-! ## Runs -/

variable {answers : List Answer}

theorem Watched.run (h : Run Step (.spawned start timeout) answers s) :
    Watched start timeout s :=
  h.invariant (fun _ _ _ hwatched hstep => hwatched.step hstep) (.spawned start timeout)

/-- A step that comes in time. -/
def TimelyStep (slack : Nat) (s : Supervisor) (answer : Answer) (t : Supervisor) : Prop :=
  Step s answer t ∧ answer.Timely slack s

theorem InTime.run (h : Run (TimelyStep slack) (.spawned start timeout) answers s) :
    InTime slack s := by
  have hboth : Watched start timeout s ∧ InTime slack s :=
    h.invariant (I := fun s => Watched start timeout s ∧ InTime slack s)
      (fun _ _ _ hI hstep => ⟨hI.1.step hstep.1, hI.2.step hI.1 hstep.1 hstep.2⟩)
      ⟨.spawned start timeout, .spawned start timeout⟩
  exact hboth.2

/-- Every answer that is brisk uses one of them up. -/
theorem left_run {u : Supervisor} (h : Run Step u answers s) (hwatched : Watched start timeout u)
    (hbrisk : ∀ answer ∈ answers, answer.Brisk) : answers.length + s.left ≤ u.left := by
  induction h with
  | nil u => simp
  | cons hstep _ ih =>
    have hless := left_step hwatched hstep (hbrisk _ List.mem_cons_self)
    have hrest := ih (hwatched.step hstep) fun answer hanswer =>
      hbrisk answer (List.mem_cons_of_mem _ hanswer)
    rw [List.length_cons]
    omega

/-- **The child is supervised**: when `run_tesseract` returns, the pipe is closed, and the child
was waited for, or cannot be found, or was killed and outlived its grace; it was killed in the
last millisecond of its time or later, and the outcome is that of its exit status unless it was. A
recognition lasts half a second longer than its time at most, and makes no more calls than can be
told beforehand. -/
theorem child_supervised (start timeout : Nat)
    (h : Run Step (.spawned start timeout) answers s) :
    (∀ outcome, s.phase = .returned outcome →
      s.pipe = false ∧ s.output.length < maximumOutputBytes + 1024 ∧ Settled s outcome) ∧
    (∀ time, s.killed = some time → timeout ≤ maximumWait →
      start + timeout * millisecond < time + millisecond) ∧
    (∀ slack, Run (TimelyStep slack) (.spawned start timeout) answers s →
      s.now ≤ start + (timeout + 510) * millisecond + 6 * slack) ∧
    ((∀ answer ∈ answers, answer.Brisk) →
      answers.length ≤ 2 * maximumOutputBytes + 2 * timeout + 1004) := by
  have hwatched := Watched.run h
  refine ⟨fun outcome hphase => ⟨?_, hwatched.output, hwatched.settled outcome hphase⟩,
    fun time htime htimeout => hwatched.deadline ▸ (hwatched.killed time htime).2 htimeout,
    fun slack htimely => ?_, fun hbrisk => ?_⟩
  · rw [← Bool.not_eq_true, hwatched.pipe, hphase]
    simp
  · have hin := InTime.run htimely
    have hdeadline := hwatched.deadline
    have hnow := hin.now
    -- a phase is never later than the interval of the poll and three delays
    have hlate : s.phase.lateness slack ≤ childPollInterval + 3 * slack := by
      cases s.phase <;> simp only [Phase.lateness] <;> omega
    unfold Supervisor.reapDeadline at hnow
    rw [Nat.add_mul]
    -- a child that was killed gets half a second more
    cases hkilled : s.killed with
    | none =>
      simp only [hkilled] at hnow
      unfold childPollInterval at hlate
      omega
    | some time =>
      have htime := hin.killed time hkilled
      simp only [hkilled] at hnow
      unfold childPollInterval at hlate htime
      unfold killGrace at hnow
      omega
  · -- each brisk answer uses up some of what is left
    have hleft := left_run h (.spawned start timeout) hbrisk
    have hspawned : (Supervisor.spawned start timeout).left ≤ _ := left_readOn rfl
    simp only [List.length_nil, Nat.sub_zero] at hspawned
    unfold millisecond at hspawned
    omega

/-- A child that writes one character and ends. -/
def shortAnswers : List Answer :=
  [.poll 900000000 .ready, .read 0 (.data (utf8 "你")), .poll 20000000 .ready, .read 0 .ended,
    .wait 0 .running, .pause 5000000, .wait 0 (.ended (.exited 0))]

def afterShort : Supervisor :=
  { now := 925000000, deadline := 4000000000, output := utf8 "你", pipe := false,
    reaped := some (.exited 0), phase := .returned .ok }

theorem shortAnswers_run : Run Step (.spawned 0 4000) shortAnswers afterShort := by
  refine .cons ⟨trivial, rfl⟩ (.cons ⟨?_, rfl⟩ (.cons ⟨trivial, rfl⟩ (.cons ⟨trivial, rfl⟩
    (.cons ⟨trivial, rfl⟩ (.cons ⟨trivial, rfl⟩ (.cons ⟨trivial, rfl⟩ (.nil _)))))))
  exact ⟨by decide, by decide⟩

theorem child_supervised_short :
    afterShort.pipe = false ∧ afterShort.output.length < maximumOutputBytes + 1024 ∧
      Settled afterShort .ok :=
  (child_supervised 0 4000 shortAnswers_run).1 .ok rfl

end HandwritingRecognizer

end MsimeLinux
