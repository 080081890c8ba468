import MsimeLinux.Bytes
import MsimeLinux.Lib.Run

/-!
# The handwriting tab (`DesktopToolsUi.cpp`)

Strokes are recognized by a pass on a thread of its own, which hands its outcome to the main
loop; what the user does in between is remembered in three flags. The strokes a pass was
started with are kept with it here, and how often the canvas had been cleared by then.

- `Sound`: what the flags mean; every event keeps it.
- `Covered`: what becomes of a request, until its result is shown.
- `recognition_covers`: the results match the strokes.
-/

namespace MsimeLinux

open Lib

namespace Handwriting

universe u

/-- `HandwritingOutcome`. -/
structure HandwritingOutcome where
  candidates : List Bytes := []
  error : Bytes := []
  deriving DecidableEq

/-- A pass over the strokes there were, when the canvas had been cleared `epoch` times. -/
structure Pass (Point : Type u) where
  number : Nat
  epoch : Nat
  strokes : List (List Point)
  deriving DecidableEq

/-- `ToolState` (DesktopToolsUi.cpp:24), of the handwriting tab. -/
structure ToolState (Point : Type u) where
  /-- the widgets exist -/
  canvas : Bool := true
  strokes : List (List Point) := []
  drawing : Bool := false
  debounce : Bool := false
  running : Bool := false
  restart : Bool := false
  stale : Bool := false
  shuttingDown : Bool := false
  outcome : Option (Pass Point × HandwritingOutcome) := none
  candidates : List Bytes := []
  status : Bytes := utf8 "请在画板上书写，松开鼠标后自动识别。"
  /-- the passes that are being made -/
  workers : List (Pass Point) := []
  /-- how many calls of `deliver_handwriting_result` the main loop has to make -/
  idles : Nat := 0
  /-- what has happened: clears, passes, and whose candidates are shown -/
  clears : Nat := 0
  started : List (Pass Point) := []
  shown : Option (Pass Point) := none
  deriving DecidableEq

/-- What can happen next. -/
inductive ToolEvent (Point : Type u) where
  | press (button : Nat) (point : Point)
  | motion (point : Point)
  | release (button : Nat)
  | clear
  | clicked
  | elapsed
  | finish (pass : Pass Point) (outcome : HandwritingOutcome)
  | deliver
  | destroy
  deriving DecidableEq

variable {Point : Type u} {near : Point → Point → Bool}

namespace ToolState

/-! ## The handlers -/

/-- `set_handwriting_status` (DesktopToolsUi.cpp:282). -/
def setStatus (s : ToolState Point) (message : Bytes) : ToolState Point :=
  if s.canvas then { s with status := message } else s

/-- `refresh_handwriting_candidates` (DesktopToolsUi.cpp:253), with the pass they are from. -/
def refresh (s : ToolState Point) (pass : Option (Pass Point)) (candidates : List Bytes) :
    ToolState Point :=
  if s.canvas then { s with candidates := candidates, shown := pass } else s

/-- `start_handwriting_recognition` (DesktopToolsUi.cpp:339). -/
def startRecognition (s : ToolState Point) : ToolState Point :=
  if s.running then { s with restart := true }
  else if !s.canvas || s.strokes.isEmpty then s.setStatus (utf8 "请先在画板上书写。")
  else
    let pass : Pass Point := ⟨s.started.length, s.clears, s.strokes⟩
    { s.setStatus (utf8 "正在识别…") with
      running := true
      workers := s.workers ++ [pass]
      started := s.started ++ [pass] }

/-- The first lines of `deliver_handwriting_result` (DesktopToolsUi.cpp:303). -/
def taken (s : ToolState Point) : ToolState Point :=
  { s with outcome := none, running := false, stale := false, idles := s.idles - 1 }

/-- The outcome that is taken. -/
def landed (s : ToolState Point) : HandwritingOutcome := (s.outcome.map Prod.snd).getD {}

/-- It is put on display, unless it is stale (DesktopToolsUi.cpp:325). -/
def displayed (s : ToolState Point) : ToolState Point :=
  if s.stale then s.taken
  else
    (s.taken.refresh (s.outcome.map Prod.fst) s.landed.candidates).setStatus
      (if s.landed.error.isEmpty then utf8 "点击候选字即可复制到剪贴板。" else s.landed.error)

/-- `deliver_handwriting_result` (DesktopToolsUi.cpp:303). -/
def deliverResult (s : ToolState Point) : ToolState Point :=
  if s.shuttingDown then s.taken
  else if s.restart then { s.displayed with restart := false }.startRecognition
  else s.displayed

/-- `handwriting_motion` (DesktopToolsUi.cpp:403). -/
def motion (near : Point → Point → Bool) (s : ToolState Point) (point : Point) :
    ToolState Point :=
  if !s.drawing then s
  else match s.strokes.getLast? with
    | none => s
    | some stroke =>
      if stroke.getLast?.any fun last => near last point then s
      else { s with strokes := s.strokes.dropLast ++ [stroke ++ [point]] }

/-- `handwriting_clear` (DesktopToolsUi.cpp:433). -/
def clear (s : ToolState Point) : ToolState Point :=
  let s := { s with
    debounce := false
    strokes := []
    drawing := false
    restart := false
    stale := s.running
    clears := s.clears + 1 }
  (s.refresh none []).setStatus (utf8 "已清空，请重新书写。")

/-- One event. -/
def next (near : Point → Point → Bool) (s : ToolState Point) : ToolEvent Point → ToolState Point
  | .press button point =>
    if button = 1 then { s with drawing := true, strokes := s.strokes ++ [[point]] } else s
  | .motion point => s.motion near point
  | .release button => if button = 1 then { s with drawing := false, debounce := true } else s
  | .clear => s.clear
  | .clicked => { s with debounce := false }.startRecognition
  | .elapsed => { s with debounce := false }.startRecognition
  | .finish pass outcome =>
    { s with
      workers := s.workers.filter fun other => other.number ≠ pass.number
      outcome := some (pass, outcome)
      idles := s.idles + 1 }
  | .deliver => s.deliverResult
  | .destroy => { s with shuttingDown := true, debounce := false, canvas := false }

/-- When it can happen: the widgets call only while they exist. -/
def Enabled (s : ToolState Point) : ToolEvent Point → Prop
  | .press .. | .motion .. | .release .. | .clear | .clicked | .destroy => s.shuttingDown = false
  | .elapsed => s.debounce = true
  | .finish pass _ => pass ∈ s.workers
  | .deliver => 0 < s.idles

end ToolState

open ToolState

/-- A step of the program, its threads and its user. -/
def Step (near : Point → Point → Bool) (s : ToolState Point) (e : ToolEvent Point)
    (t : ToolState Point) : Prop :=
  s.Enabled e ∧ t = s.next near e

/-! ## What the flags mean -/

/-- A pass that is being made, or whose outcome waits for the main loop. -/
def InFlight (s : ToolState Point) (pass : Pass Point) : Prop :=
  pass ∈ s.workers ∨ ∃ outcome, s.outcome = some (pass, outcome)

/-- **The invariant.** -/
structure Sound (s : ToolState Point) : Prop where
  widgets : s.canvas = !s.shuttingDown
  single : s.workers.length + s.idles = s.running.toNat
  waiting : s.idles = s.outcome.isSome.toNat
  staleRunning : s.stale = true → s.running = true
  fresh : ∀ pass, InFlight s pass → pass ∈ s.started ∧ (s.stale = false → pass.epoch = s.clears)
  shownFresh : ∀ pass, s.shown = some pass → pass ∈ s.started ∧ pass.epoch = s.clears
  blank : s.shown = none → s.candidates = []

section

variable {s t : ToolState Point} {pass : Pass Point}

theorem Sound.initial : Sound ({} : ToolState Point) where
  widgets := rfl
  single := rfl
  waiting := rfl
  staleRunning := nofun
  fresh := by
    rintro pass (hpass | ⟨_, hpass⟩)
    · cases hpass
    · cases hpass
  shownFresh := nofun
  blank := fun _ => rfl

/-- Without a pass, nobody is at work. -/
theorem Sound.idle (h : Sound s) (hrunning : s.running = false) :
    s.workers = [] ∧ s.idles = 0 ∧ s.outcome = none ∧ s.stale = false := by
  have hsingle := h.single
  have hwaiting := h.waiting
  rw [hrunning, Bool.toNat_false] at hsingle
  have hoff : s.outcome.isSome = false := by
    rw [← Bool.toNat_eq_zero]
    omega
  refine ⟨List.length_eq_zero_iff.mp (by omega), by omega, Option.not_isSome_iff_eq_none.mp ?_, ?_⟩
  · rw [hoff]
    exact Bool.false_ne_true
  · exact Bool.eq_false_iff.mpr fun hstale => by simp [h.staleRunning hstale] at hrunning

theorem setStatus_eq (s : ToolState Point) (message : Bytes) :
    ∃ status, s.setStatus message = { s with status := status } := by
  unfold setStatus
  split
  · exact ⟨_, rfl⟩
  · exact ⟨s.status, rfl⟩

/-- The label is no part of it. -/
theorem Sound.setStatus (h : Sound s) (message : Bytes) : Sound (s.setStatus message) := by
  obtain ⟨status, heq⟩ := setStatus_eq s message
  rw [heq]
  exact ⟨h.widgets, h.single, h.waiting, h.staleRunning, h.fresh, h.shownFresh, h.blank⟩

/-- What `start_handwriting_recognition` does. -/
theorem startRecognition_cases (s : ToolState Point) :
    s.running = true ∧ s.startRecognition = { s with restart := true } ∨
    s.running = false ∧ (s.canvas = false ∨ s.strokes = []) ∧
      (∃ message, s.startRecognition = s.setStatus message) ∨
    s.running = false ∧ s.canvas = true ∧ s.strokes ≠ [] ∧
      ∃ pass status, pass.epoch = s.clears ∧ pass.strokes = s.strokes ∧
        s.startRecognition = { s with
          status := status
          running := true
          workers := s.workers ++ [pass]
          started := s.started ++ [pass] } := by
  unfold startRecognition
  cases hrunning : s.running with
  | true => exact .inl ⟨rfl, rfl⟩
  | false =>
    refine .inr ?_
    cases hcanvas : s.canvas with
    | false => exact .inl ⟨rfl, .inl rfl, _, rfl⟩
    | true =>
      by_cases hstrokes : s.strokes = []
      · refine .inl ⟨rfl, .inr hstrokes, utf8 "请先在画板上书写。", ?_⟩
        simp [hstrokes]
      · obtain ⟨status, heq⟩ := setStatus_eq s (utf8 "正在识别…")
        refine .inr ⟨rfl, rfl, hstrokes, ⟨s.started.length, s.clears, s.strokes⟩, status, rfl,
          rfl, ?_⟩
        simp [hstrokes, heq, hcanvas]

/-- A pass is started if there is none. -/
theorem Sound.startRecognition (h : Sound s) : Sound s.startRecognition := by
  obtain ⟨hrunning, heq⟩ | ⟨-, -, message, heq⟩ | ⟨hrunning, -, -, pass, status, hepoch, -, heq⟩ :=
    startRecognition_cases s
  · rw [heq]
    exact ⟨h.widgets, h.single, h.waiting, h.staleRunning, h.fresh, h.shownFresh, h.blank⟩
  · rw [heq]
    exact h.setStatus message
  · rw [heq]
    obtain ⟨hworkers, hidles, houtcome, -⟩ := h.idle hrunning
    refine ⟨h.widgets, ?_, h.waiting, fun _ => rfl, ?_, ?_, h.blank⟩
    · simp [hworkers, hidles]
    · rintro other (hother | ⟨outcome, hother⟩)
      · simp only [hworkers, List.nil_append, List.mem_singleton] at hother
        rw [hother]
        exact ⟨List.mem_append_right _ List.mem_cons_self, fun _ => hepoch⟩
      · exact absurd hother (by simp [houtcome])
    · intro other hother
      obtain ⟨hmem, hshown⟩ := h.shownFresh other hother
      exact ⟨List.mem_append_left _ hmem, hshown⟩

/-- The outcome is taken, and its pass is over. -/
theorem Sound.taken (h : Sound s) (hidles : 0 < s.idles) : Sound s.taken := by
  have hsingle := h.single
  have hwaiting := h.waiting
  have hle := s.running.toNat_le
  have hworkers : s.workers = [] := List.length_eq_zero_iff.mp (by omega)
  refine ⟨h.widgets, ?_, ?_, nofun, ?_, h.shownFresh, h.blank⟩
  · show s.workers.length + (s.idles - 1) = 0
    rw [hworkers, List.length_nil]
    omega
  · show s.idles - 1 = 0
    omega
  · rintro other (hother | ⟨outcome, hother⟩)
    · rw [show s.taken.workers = [] from hworkers] at hother
      cases hother
    · cases hother

/-- An outcome is shown, unless it is stale. -/
theorem Sound.displayed (h : Sound s) (hidles : 0 < s.idles) : Sound s.displayed := by
  unfold ToolState.displayed
  split
  · exact h.taken hidles
  · rename_i hstale
    obtain ⟨⟨pass, outcome⟩, houtcome⟩ : ∃ o, s.outcome = some o := by
      refine Option.isSome_iff_exists.mp ?_
      have hwaiting := h.waiting
      cases hsome : s.outcome.isSome with
      | true => rfl
      | false => rw [hsome, Bool.toNat_false] at hwaiting; omega
    obtain ⟨hmem, hepoch⟩ := h.fresh pass (.inr ⟨outcome, houtcome⟩)
    have htaken := h.taken hidles
    refine Sound.setStatus ?_ _
    unfold refresh
    split
    · refine ⟨htaken.widgets, htaken.single, htaken.waiting, htaken.staleRunning, htaken.fresh,
        ?_, ?_⟩
      · rintro other hother
        rw [houtcome] at hother
        obtain rfl : pass = other := Option.some.inj hother
        exact ⟨hmem, hepoch (by simpa using hstale)⟩
      · intro hnone
        rw [houtcome] at hnone
        cases hnone
    · exact htaken

/-- The main loop takes an outcome, and starts another pass if one was asked for. -/
theorem Sound.deliverResult (h : Sound s) (hidles : 0 < s.idles) : Sound s.deliverResult := by
  have hdisplayed := h.displayed hidles
  unfold ToolState.deliverResult
  split
  · exact h.taken hidles
  · split
    · exact Sound.startRecognition ⟨hdisplayed.widgets, hdisplayed.single, hdisplayed.waiting,
        hdisplayed.staleRunning, hdisplayed.fresh, hdisplayed.shownFresh, hdisplayed.blank⟩
    · exact hdisplayed

/-- What is shown is from before a clear no longer, and a pass from before it is stale. -/
theorem Sound.clear (h : Sound s) (hshutting : s.shuttingDown = false) : Sound s.clear := by
  have hcanvas : s.canvas = true := by
    rw [h.widgets, hshutting]
    rfl
  unfold ToolState.clear
  refine Sound.setStatus ?_ _
  rw [refresh, if_pos hcanvas]
  refine ⟨h.widgets, h.single, h.waiting, id, fun other hother => ?_, nofun, fun _ => rfl⟩
  refine ⟨(h.fresh other hother).1, fun hstale => ?_⟩
  obtain ⟨hworkers, -, houtcome, -⟩ := h.idle hstale
  obtain hother | ⟨outcome, hother⟩ := hother
  · rw [show s.workers = [] from hworkers] at hother
    cases hother
  · exact absurd hother (by simp [houtcome])

/-- A pass ends, and its outcome waits for the main loop. -/
theorem Sound.finish (h : Sound s) {pass : Pass Point} (outcome : HandwritingOutcome)
    (hpass : pass ∈ s.workers) : Sound (s.next near (.finish pass outcome)) := by
  have hsingle := h.single
  have hwaiting := h.waiting
  have hle := s.running.toNat_le
  have hlength := List.length_pos_of_mem hpass
  have hworkers : s.workers = [pass] := by
    obtain ⟨other, hother⟩ := List.length_eq_one_iff.mp (show s.workers.length = 1 by omega)
    rw [hother] at hpass ⊢
    rw [List.mem_singleton.mp hpass]
  have hnobody : (s.next near (.finish pass outcome)).workers = [] := by
    simp [next, hworkers]
  refine ⟨h.widgets, ?_, ?_, h.staleRunning, ?_, h.shownFresh, h.blank⟩
  · rw [hnobody]
    show 0 + (s.idles + 1) = s.running.toNat
    omega
  · show s.idles + 1 = 1
    omega
  · rintro other (hother | ⟨_, hother⟩)
    · rw [hnobody] at hother
      cases hother
    · obtain ⟨rfl, -⟩ := Prod.mk.inj (Option.some.inj hother)
      exact h.fresh pass (.inl hpass)

/-- Events that touch the strokes only. -/
theorem Sound.of_strokes (h : Sound s) (strokes : List (List Point)) (drawing debounce : Bool) :
    Sound { s with strokes := strokes, drawing := drawing, debounce := debounce } :=
  ⟨h.widgets, h.single, h.waiting, h.staleRunning, h.fresh, h.shownFresh, h.blank⟩

/-- The pen makes the last stroke longer, or is too near to its last point. -/
theorem motion_cases (near : Point → Point → Bool) (s : ToolState Point) (point : Point) :
    s.motion near point = s ∨ ∃ stroke, s.strokes.getLast? = some stroke ∧
      s.motion near point =
        { s with strokes := s.strokes.dropLast ++ [stroke ++ [point]] } := by
  unfold ToolState.motion
  split
  · exact .inl rfl
  · split
    · exact .inl rfl
    · rename_i stroke hstroke
      split
      · exact .inl rfl
      · exact .inr ⟨stroke, hstroke, rfl⟩

/-- **Every event keeps the invariant.** -/
theorem Sound.step (h : Sound s) {e : ToolEvent Point} (hstep : Step near s e t) : Sound t := by
  obtain ⟨henabled, rfl⟩ := hstep
  cases e with
  | press button point =>
    by_cases hbutton : button = 1
    · rw [next, if_pos hbutton]
      exact h.of_strokes _ _ _
    · rwa [next, if_neg hbutton]
  | motion point =>
    rw [next]
    obtain heq | ⟨stroke, -, heq⟩ := motion_cases near s point
    · rwa [heq]
    · rw [heq]
      exact h.of_strokes _ _ _
  | release button =>
    by_cases hbutton : button = 1
    · rw [next, if_pos hbutton]
      exact h.of_strokes _ _ _
    · rwa [next, if_neg hbutton]
  | clear => exact h.clear henabled
  | clicked => exact (h.of_strokes _ _ _).startRecognition
  | elapsed => exact (h.of_strokes _ _ _).startRecognition
  | finish pass outcome => exact h.finish outcome henabled
  | deliver => exact h.deliverResult henabled
  | destroy =>
    exact ⟨rfl, h.single, h.waiting, h.staleRunning, h.fresh, h.shownFresh, h.blank⟩

theorem Sound.run {events : List (ToolEvent Point)} (h : Sound s)
    (hrun : Run (Step near) s events t) : Sound t :=
  hrun.invariant (fun _ _ _ hs hstep => hs.step hstep) h

/-! ## What becomes of a request -/

/-- Strokes have been drawn on. -/
def Grown (strokes strokes' : List (List Point)) : Prop :=
  ∀ (i : Nat) (stroke : List Point), strokes[i]? = some stroke →
    ∃ stroke', strokes'[i]? = some stroke' ∧ stroke <+: stroke'

theorem Grown.refl (strokes : List (List Point)) : Grown strokes strokes :=
  fun _ stroke h => ⟨stroke, h, List.prefix_refl _⟩

/-- Strokes grow and grow further. -/
theorem Grown.trans {a b c : List (List Point)} (h : Grown a b) (h' : Grown b c) :
    Grown a c := by
  intro i stroke hi
  obtain ⟨stroke', hi', hprefix⟩ := h i stroke hi
  obtain ⟨stroke'', hi'', hprefix'⟩ := h' i stroke' hi'
  exact ⟨stroke'', hi'', hprefix.trans hprefix'⟩

/-- A new stroke is growth. -/
theorem Grown.append (strokes more : List (List Point)) : Grown strokes (strokes ++ more) := by
  intro i stroke hi
  obtain ⟨hlt, -⟩ := List.getElem?_eq_some_iff.mp hi
  exact ⟨stroke, by rwa [List.getElem?_append_left hlt], List.prefix_refl _⟩

/-- The last stroke goes on. -/
theorem Grown.last {strokes : List (List Point)} {stroke : List Point}
    (h : strokes.getLast? = some stroke) (point : Point) :
    Grown strokes (strokes.dropLast ++ [stroke ++ [point]]) := by
  obtain ⟨before, rfl⟩ := List.getLast?_eq_some_iff.mp h
  rw [List.dropLast_concat]
  intro i other hi
  by_cases hlt : i < before.length
  · rw [List.getElem?_append_left hlt] at hi ⊢
    exact ⟨other, hi, List.prefix_refl _⟩
  · rw [List.getElem?_append_right (Nat.le_of_not_lt hlt)] at hi ⊢
    cases hindex : i - before.length with
    | zero =>
      rw [hindex] at hi
      obtain rfl : stroke = other := Option.some.inj hi
      exact ⟨_, rfl, List.prefix_append _ _⟩
    | succ n =>
      rw [hindex] at hi
      cases hi

theorem Grown.ne_nil {a b : List (List Point)} (h : Grown a b) (hne : a ≠ []) : b ≠ [] := by
  cases a with
  | nil => exact absurd rfl hne
  | cons stroke a =>
    obtain ⟨stroke', hzero, -⟩ := h 0 stroke rfl
    rintro rfl
    cases hzero

/-- The strokes of a request will be, are being or have been recognized. -/
inductive Attended (strokes : List (List Point)) (s : ToolState Point) : Prop
  | flight (pass : Pass Point) (hflight : InFlight s pass) (hstale : s.stale = false)
      (hgrown : Grown strokes pass.strokes)
  | again (hrunning : s.running = true) (hrestart : s.restart = true)
  | done (pass : Pass Point) (hrunning : s.running = false) (hshown : s.shown = some pass)
      (hgrown : Grown strokes pass.strokes)

/-- **What a request comes to**, while the window is open and nothing is cleared. -/
structure Covered (strokes : List (List Point)) (s : ToolState Point) : Prop where
  open_ : s.shuttingDown = false
  drawn : Grown strokes s.strokes
  attended : Attended strokes s

variable {strokes : List (List Point)}

/-- What the label, the strokes and the timer do not matter to. -/
theorem Attended.congr (h : Attended strokes s) (hworkers : t.workers = s.workers)
    (houtcome : t.outcome = s.outcome) (hrunning : t.running = s.running)
    (hrestart : t.restart = s.restart) (hstale : t.stale = s.stale)
    (hshown : t.shown = s.shown) : Attended strokes t := by
  cases h with
  | flight pass hflight hfresh hgrown =>
    refine .flight pass ?_ (hstale ▸ hfresh) hgrown
    rw [InFlight, hworkers, houtcome]
    exact hflight
  | again hrun hagain => exact .again (hrunning ▸ hrun) (hrestart ▸ hagain)
  | done pass hrun hdone hgrown => exact .done pass (hrunning ▸ hrun) (hshown ▸ hdone) hgrown

/-- A request is attended to, if there is anything to recognize. -/
theorem Covered.start (h : Sound s) (hshutting : s.shuttingDown = false)
    (hdrawn : Grown strokes s.strokes) (hne : strokes ≠ []) :
    Covered strokes s.startRecognition := by
  obtain ⟨hrunning, heq⟩ | ⟨-, hnothing, -⟩ | ⟨hrunning, -, -, pass, status, -, hpass, heq⟩ :=
    startRecognition_cases s
  · rw [heq]
    exact ⟨hshutting, hdrawn, .again hrunning rfl⟩
  · have hcanvas := h.widgets
    rw [hshutting] at hcanvas
    obtain hcanvas' | hstrokes := hnothing
    · rw [hcanvas'] at hcanvas
      cases hcanvas
    · exact absurd hstrokes (hdrawn.ne_nil hne)
  · rw [heq]
    refine ⟨hshutting, hdrawn, .flight pass (.inl ?_) (h.idle hrunning).2.2.2 ?_⟩
    · exact List.mem_append_right _ List.mem_cons_self
    · rwa [hpass]

/-- What is shown has no influence on what is recognised. -/
theorem displayed_fields (s : ToolState Point) : s.displayed.strokes = s.strokes ∧
    s.displayed.shuttingDown = s.shuttingDown ∧ s.displayed.canvas = s.canvas ∧
    s.displayed.running = false ∧ s.displayed.started = s.started ∧
    s.displayed.workers = s.workers := by
  unfold ToolState.displayed
  split
  · exact ⟨rfl, rfl, rfl, rfl, rfl, rfl⟩
  · obtain ⟨status, heq⟩ := setStatus_eq (s.taken.refresh (s.outcome.map Prod.fst)
      s.landed.candidates) (if s.landed.error.isEmpty then
        utf8 "点击候选字即可复制到剪贴板。" else s.landed.error)
    rw [heq, refresh]
    split <;> exact ⟨rfl, rfl, rfl, rfl, rfl, rfl⟩

/-- A pass that is not stale is shown. -/
theorem displayed_shown (hcanvas : s.canvas = true) (hstale : s.stale = false)
    {outcome : HandwritingOutcome} (houtcome : s.outcome = some (pass, outcome)) :
    s.displayed.shown = some pass := by
  unfold ToolState.displayed
  rw [hstale, if_neg Bool.false_ne_true]
  obtain ⟨status, heq⟩ := setStatus_eq (s.taken.refresh (s.outcome.map Prod.fst)
    s.landed.candidates) (if s.landed.error.isEmpty then
      utf8 "点击候选字即可复制到剪贴板。" else s.landed.error)
  rw [heq, refresh, if_pos (show s.taken.canvas = true from hcanvas), houtcome]
  rfl

/-- The main loop has an outcome to take, and no pass is being made. -/
theorem Sound.landing (h : Sound s) (hidles : 0 < s.idles) : s.workers = [] ∧
    s.running = true ∧ ∃ pass outcome, s.outcome = some (pass, outcome) := by
  have hsingle := h.single
  have hwaiting := h.waiting
  have hle := s.running.toNat_le
  refine ⟨List.length_eq_zero_iff.mp (by omega), ?_, ?_⟩
  · cases hrunning : s.running with
    | true => rfl
    | false => rw [hrunning, Bool.toNat_false] at hsingle; omega
  · cases houtcome : s.outcome with
    | some o => exact ⟨o.1, o.2, rfl⟩
    | none => rw [houtcome, Option.isSome_none, Bool.toNat_false] at hwaiting; omega

/-- An outcome that is taken: what is shown covers the strokes, or another pass will. -/
theorem Covered.deliver (h : Covered strokes s) (hs : Sound s) (hne : strokes ≠ [])
    (hidles : 0 < s.idles) : Covered strokes s.deliverResult := by
  obtain ⟨hworkers, hrunning, -⟩ := hs.landing hidles
  obtain ⟨hstrokes, hshutting, -, hstopped, -, -⟩ := displayed_fields s
  have hopen : s.displayed.shuttingDown = false := hshutting.trans h.open_
  have hdrawn : Grown strokes s.displayed.strokes := hstrokes ▸ h.drawn
  have hcanvas : s.canvas = true := by
    rw [hs.widgets, h.open_]
    rfl
  unfold ToolState.deliverResult
  rw [h.open_, if_neg Bool.false_ne_true]
  by_cases hrestart : s.restart = true
  · rw [if_pos hrestart]
    have hdisplayed := hs.displayed hidles
    exact Covered.start ⟨hdisplayed.widgets, hdisplayed.single, hdisplayed.waiting,
      hdisplayed.staleRunning, hdisplayed.fresh, hdisplayed.shownFresh, hdisplayed.blank⟩
      hopen hdrawn hne
  · rw [if_neg hrestart]
    cases h.attended with
    | flight pass hflight hstale hgrown =>
      obtain hpass | ⟨outcome, houtcome⟩ := hflight
      · rw [hworkers] at hpass
        cases hpass
      · exact ⟨hopen, hdrawn, .done pass hstopped (displayed_shown hcanvas hstale houtcome) hgrown⟩
    | again _ hagain => exact absurd hagain hrestart
    | done _ hidle =>
      rw [hrunning] at hidle
      cases hidle

/-- A pass that ends still covers them. -/
theorem Covered.finish (h : Covered strokes s) (hs : Sound s) (outcome : HandwritingOutcome)
    (hpass : pass ∈ s.workers) : Covered strokes (s.next near (.finish pass outcome)) := by
  refine ⟨h.open_, h.drawn, ?_⟩
  have hsingle := hs.single
  have hwaiting := hs.waiting
  have hle := s.running.toNat_le
  have hlength := List.length_pos_of_mem hpass
  cases h.attended with
  | flight other hflight hstale hgrown =>
    obtain hother | ⟨o, hother⟩ := hflight
    · obtain ⟨only, honly⟩ := List.length_eq_one_iff.mp (show s.workers.length = 1 by omega)
      rw [honly, List.mem_singleton] at hpass hother
      rw [hother, ← hpass] at hgrown
      exact .flight pass (.inr ⟨outcome, rfl⟩) hstale hgrown
    · rw [hother, Option.isSome_some, Bool.toNat_true] at hwaiting
      omega
  | again hrunning hrestart => exact .again hrunning hrestart
  | done _ hidle =>
    rw [hidle, Bool.toNat_false] at hsingle
    omega

/-- **A request stays covered** by every event but a clear, while the window is open. -/
theorem Covered.step (h : Covered strokes s) (hs : Sound s) (hne : strokes ≠ [])
    {e : ToolEvent Point} (hstep : Step near s e t) (hclear : e ≠ .clear)
    (hopen : t.shuttingDown = false) : Covered strokes t := by
  obtain ⟨henabled, rfl⟩ := hstep
  cases e with
  | press button point =>
    by_cases hbutton : button = 1
    · rw [next, if_pos hbutton]
      exact ⟨h.open_, h.drawn.trans (.append _ _), h.attended.congr rfl rfl rfl rfl rfl rfl⟩
    · rwa [next, if_neg hbutton]
  | motion point =>
    rw [next]
    obtain heq | ⟨stroke, hstroke, heq⟩ := motion_cases near s point
    · rwa [heq]
    · rw [heq]
      exact ⟨h.open_, h.drawn.trans (.last hstroke point),
        h.attended.congr rfl rfl rfl rfl rfl rfl⟩
  | release button =>
    by_cases hbutton : button = 1
    · rw [next, if_pos hbutton]
      exact ⟨h.open_, h.drawn, h.attended.congr rfl rfl rfl rfl rfl rfl⟩
    · rwa [next, if_neg hbutton]
  | clear => exact absurd rfl hclear
  | clicked => exact Covered.start (hs.of_strokes _ _ _) h.open_ h.drawn hne
  | elapsed => exact Covered.start (hs.of_strokes _ _ _) h.open_ h.drawn hne
  | finish pass outcome => exact h.finish hs outcome henabled
  | deliver => exact h.deliver hs hne henabled
  | destroy => cases hopen

theorem startRecognition_shuttingDown (s : ToolState Point) :
    s.startRecognition.shuttingDown = s.shuttingDown := by
  obtain ⟨-, heq⟩ | ⟨-, -, message, heq⟩ | ⟨-, -, -, pass, status, -, -, heq⟩ :=
    startRecognition_cases s
  · rw [heq]
  · obtain ⟨status, hstatus⟩ := setStatus_eq s message
    rw [heq, hstatus]
  · rw [heq]

/-- A window that is open has been. -/
theorem open_of_step {e : ToolEvent Point} (hstep : Step near s e t)
    (hopen : t.shuttingDown = false) : s.shuttingDown = false := by
  obtain ⟨henabled, rfl⟩ := hstep
  cases e with
  | press => exact henabled
  | motion => exact henabled
  | release => exact henabled
  | clear => exact henabled
  | clicked => exact henabled
  | elapsed => rwa [next, startRecognition_shuttingDown] at hopen
  | finish => exact hopen
  | deliver =>
    by_contra hclosed
    rw [next, ToolState.deliverResult, if_pos (by simpa using hclosed)] at hopen
    exact hclosed hopen
  | destroy => exact henabled

/-- **The run lemma**: without a clear, and while the window is open, the strokes stay covered. -/
theorem Covered.run {events : List (ToolEvent Point)} (hrun : Run (Step near) s events t)
    (h : s.shuttingDown = false → Covered strokes s) (hs : Sound s) (hne : strokes ≠ [])
    (hclear : .clear ∉ events) (hopen : t.shuttingDown = false) : Covered strokes t := by
  induction hrun with
  | nil => exact h hopen
  | cons hstep hrest ih =>
    refine ih (fun hmiddle => ?_) (hs.step hstep)
      (fun hmem => hclear (List.mem_cons_of_mem _ hmem)) hopen
    exact (h (open_of_step hstep hmiddle)).step hs hne hstep
      (fun heq => hclear (heq ▸ List.mem_cons_self)) hmiddle

/-! ## Once more -/

/-- A request during a pass is remembered. -/
theorem startRecognition_running (h : s.running = true) :
    s.startRecognition.running = true ∧ s.startRecognition.restart = true := by
  rw [startRecognition, if_pos h]
  exact ⟨h, rfl⟩

/-- A request that finds a pass under way is remembered until the pass is over. -/
theorem remembered_step {e : ToolEvent Point} (hstep : Step near s e t)
    (hclear : e ≠ .clear) (hdeliver : e ≠ .deliver)
    (h : s.running = true ∧ s.restart = true) : t.running = true ∧ t.restart = true := by
  obtain ⟨-, rfl⟩ := hstep
  cases e with
  | press button =>
    by_cases hbutton : button = 1
    · rwa [next, if_pos hbutton]
    · rwa [next, if_neg hbutton]
  | motion point =>
    rw [next]
    obtain heq | ⟨stroke, -, heq⟩ := motion_cases near s point
    · rwa [heq]
    · rwa [heq]
  | release button =>
    by_cases hbutton : button = 1
    · rwa [next, if_pos hbutton]
    · rwa [next, if_neg hbutton]
  | clear => exact absurd rfl hclear
  | clicked => exact startRecognition_running h.1
  | elapsed => exact startRecognition_running h.1
  | finish => exact h
  | deliver => exact absurd rfl hdeliver
  | destroy => exact h

/-- And then there is another one, over the strokes there are. -/
theorem deliver_again (h : Sound s) (hidles : 0 < s.idles) (hopen : s.shuttingDown = false)
    (hrestart : s.restart = true) (hne : s.strokes ≠ []) : ∃ pass,
      s.deliverResult.started = s.started ++ [pass] ∧ pass.strokes = s.strokes ∧
        s.deliverResult.workers = [pass] := by
  obtain ⟨hworkers, -, -⟩ := h.landing hidles
  obtain ⟨hstrokes, -, hcanvas, hstopped, hstarted, hsame⟩ := displayed_fields s
  have hwidgets := h.widgets
  rw [hopen] at hwidgets
  rw [ToolState.deliverResult, hopen, if_neg Bool.false_ne_true, if_pos hrestart]
  obtain ⟨hrunning, -⟩ | ⟨-, hnothing, -⟩ | ⟨-, -, -, pass, status, -, hpass, heq⟩ :=
    startRecognition_cases { s.displayed with restart := false }
  · rw [show s.displayed.running = true from hrunning] at hstopped
    cases hstopped
  · obtain hnone | hempty := hnothing
    · rw [show s.displayed.canvas = false from hnone, hwidgets] at hcanvas
      cases hcanvas
    · exact absurd (hstrokes.symm.trans hempty) hne
  · rw [heq]
    refine ⟨pass, congrArg (· ++ [pass]) hstarted, hpass.trans hstrokes, ?_⟩
    show s.displayed.workers ++ [pass] = [pass]
    rw [hsame, hworkers, List.nil_append]

/-- **The results match the strokes.** At any time there is at most one pass, and what is
shown is from a pass that was started after the last clear. A request that finds a pass under
way leads, if nothing is cleared and the window stays open, to another one when that is over,
if there are strokes then; and once no pass is left, what is shown covers the strokes there
were at the request. -/
theorem recognition_covers (near : Point → Point → Bool) (s : ToolState Point)
    (events : List (ToolEvent Point)) (hrun : Run (Step near) {} events s) :
    (s.workers.length + s.idles ≤ 1 ∧ (s.candidates ≠ [] →
      ∃ pass ∈ s.started, s.shown = some pass ∧ pass.epoch = s.clears)) ∧
    ∀ request, request = .clicked ∨ request = .elapsed → s.Enabled request →
      ∀ more t, Run (Step near) (s.next near request) more t → .clear ∉ more →
        t.shuttingDown = false →
        (s.running = true → .deliver ∉ more → t.Enabled .deliver → t.strokes ≠ [] →
          ∃ pass, (t.next near .deliver).started = t.started ++ [pass] ∧
            pass.strokes = t.strokes ∧ (t.next near .deliver).workers = [pass]) ∧
        (s.strokes ≠ [] → t.workers = [] → t.idles = 0 →
          ∃ pass ∈ t.started, t.shown = some pass ∧ Grown s.strokes pass.strokes) := by
  have hs : Sound s := Sound.initial.run hrun
  refine ⟨⟨hs.single ▸ s.running.toNat_le, fun hcandidates => ?_⟩, ?_⟩
  · cases hshown : s.shown with
    | none => exact absurd (hs.blank hshown) hcandidates
    | some pass =>
      obtain ⟨hmem, hepoch⟩ := hs.shownFresh pass hshown
      exact ⟨pass, hmem, rfl, hepoch⟩
  · intro request hrequest henabled more t hmore hclear hopen
    -- both kinds of request start a recognition
    have hnext : s.next near request = { s with debounce := false }.startRecognition := by
      obtain rfl | rfl := hrequest <;> rfl
    have hs' : Sound (s.next near request) := hs.step ⟨henabled, rfl⟩
    have ht : Sound t := hs'.run hmore
    constructor
    · -- a pass is under way: the request is remembered until it returns
      intro hrunning hdeliver hidles hne
      have hremembered : t.running = true ∧ t.restart = true := by
        refine hmore.invariantOn (P := fun e => e ≠ .clear ∧ e ≠ .deliver)
          (fun _ _ _ h hP hstep => remembered_step hstep hP.1 hP.2 h) ?_ ?_
        · intro e he
          exact ⟨fun heq => hclear (heq ▸ he), fun heq => hdeliver (heq ▸ he)⟩
        · rw [hnext]
          exact startRecognition_running hrunning
      exact deliver_again ht hidles hopen hremembered.2 hne
    · -- a covered state without a worker shows what covers it
      intro hne hworkers hidles
      have hcovered : Covered s.strokes t := by
        refine Covered.run hmore (fun hnow => ?_) hs' hne hclear hopen
        rw [hnext, startRecognition_shuttingDown] at hnow
        rw [hnext]
        exact Covered.start (hs.of_strokes _ _ _) hnow (.refl _) hne
      have hrunning : t.running = false := by
        have hsingle := ht.single
        rw [hworkers, hidles] at hsingle
        exact Bool.toNat_eq_zero.mp hsingle.symm
      cases hcovered.attended with
      | flight pass hflight =>
        obtain ⟨-, -, houtcome, -⟩ := ht.idle hrunning
        obtain hpass | ⟨outcome, hpass⟩ := hflight
        · rw [hworkers] at hpass
          cases hpass
        · rw [houtcome] at hpass
          cases hpass
      | again hstill =>
        rw [hrunning] at hstill
        cases hstill
      | done pass _ hshown hgrown => exact ⟨pass, (ht.shownFresh pass hshown).1, hshown, hgrown⟩

end

/-! ### A stroke, and an empty canvas -/

/-- A stroke is drawn, and a pass is started. -/
def firstEvents : List (ToolEvent Nat) := [.press 1 0, .release 1, .clicked]

/-- Where these events lead. -/
def first : ToolState Nat := firstEvents.foldl (next fun _ _ => false) {}

/-- The pass. -/
def firstPass : Pass Nat := ⟨0, 0, [[0]]⟩

theorem first_run : Run (Step fun _ _ => false) {} firstEvents first :=
  .cons ⟨rfl, rfl⟩ (.cons ⟨rfl, rfl⟩ (.cons ⟨rfl, rfl⟩ (.nil _)))

/-- Another stroke is drawn while the pass is under way. -/
def second : ToolState Nat := [.press 1 5, .release 1].foldl (next fun _ _ => false) first

theorem second_run : Run (Step fun _ _ => false) {} (firstEvents ++ [.press 1 5, .release 1])
    second :=
  first_run.append (.cons ⟨rfl, rfl⟩ (.single ⟨rfl, rfl⟩))

/-- Recognition has been asked for, and the pass ends. -/
def firstOver : List (ToolEvent Nat) := [.finish firstPass { candidates := [ascii "a"] }]

/-- So does the one that follows, over both strokes. -/
def secondOver : List (ToolEvent Nat) :=
  firstOver ++ [.deliver, .finish ⟨1, 0, [[0], [5]]⟩ { candidates := [ascii "b"] }, .deliver]

/-- Recognition of both strokes is asked for while the first is being recognised: another pass
follows, and what is shown in the end is from it. -/
theorem recognition_covers_second :
    let asked := second.next (fun _ _ => false) .clicked
    let ended := firstOver.foldl (next fun _ _ => false) asked
    let shown := secondOver.foldl (next fun _ _ => false) asked
    second.running = true ∧ second.workers.length + second.idles ≤ 1 ∧
    (∃ pass, (ended.next (fun _ _ => false) .deliver).started = ended.started ++ [pass] ∧
      pass.strokes = [[0], [5]]) ∧
    shown.candidates = [ascii "b"] ∧
    ∃ pass ∈ shown.started, shown.shown = some pass ∧ Grown second.strokes pass.strokes := by
  intro asked ended shown
  have hended : Run (Step fun _ _ => false) asked firstOver ended :=
    .single ⟨List.mem_singleton.mpr rfl, rfl⟩
  have hshown : Run (Step fun _ _ => false) asked secondOver shown :=
    .cons ⟨List.mem_singleton.mpr rfl, rfl⟩ (.cons ⟨Nat.one_pos, rfl⟩
      (.cons ⟨List.mem_singleton.mpr rfl, rfl⟩ (.single ⟨Nat.one_pos, rfl⟩)))
  obtain ⟨⟨hsingle, -⟩, hrequest⟩ := recognition_covers (fun _ _ => false) second _ second_run
  obtain ⟨pass, hstarted, hstrokes, -⟩ := (hrequest .clicked (.inl rfl) rfl _ _ hended
    (by simp [firstOver]) rfl).1 rfl (by simp [firstOver]) Nat.one_pos (by decide)
  refine ⟨rfl, hsingle, ⟨pass, hstarted, hstrokes⟩, rfl, ?_⟩
  exact (hrequest .clicked (.inl rfl) rfl _ _ hshown (by simp [secondOver, firstOver]) rfl).2
    (by decide) rfl rfl

/-- It is erased while the pass is under way. -/
def erased : ToolState Nat := first.next (fun _ _ => false) .clear

theorem erased_run : Run (Step fun _ _ => false) {} (firstEvents ++ [.clear]) erased :=
  first_run.snoc ⟨rfl, rfl⟩

/-- The stroke is erased, and recognition is asked for again: when the pass is over there is
no other one, though nothing has been cleared since. -/
theorem erased_not_again :
    ¬ ∀ (s : ToolState Nat) (events : List (ToolEvent Nat)),
      Run (Step fun _ _ => false) {} events s → s.running = true →
      ∀ more t, Run (Step fun _ _ => false) (s.next (fun _ _ => false) .clicked) more t →
        .clear ∉ more → .deliver ∉ more → t.shuttingDown = false → t.Enabled .deliver →
        ∃ pass, (t.next (fun _ _ => false) .deliver).started = t.started ++ [pass] ∧
          pass.strokes = t.strokes := by
  intro h
  have hmore : Run (Step fun _ _ => false) (erased.next (fun _ _ => false) .clicked)
      [.finish firstPass {}]
      ((erased.next (fun _ _ => false) .clicked).next (fun _ _ => false)
        (.finish firstPass {})) :=
    .single ⟨List.mem_singleton.mpr rfl, rfl⟩
  obtain ⟨pass, hstarted, -⟩ := h erased (firstEvents ++ [.clear]) erased_run rfl _ _ hmore
    (by simp) (by simp) rfl Nat.one_pos
  have hlength := congrArg List.length hstarted
  rw [List.length_append, List.length_singleton] at hlength
  revert hlength
  decide

end Handwriting

end MsimeLinux
