import Mathlib.Data.List.Induction
import MsimeLinux.Input.KeyMapper

/-!
# Tapping a modifier (`IBusModeToggleTracker`)

Shift and Ctrl toggle the mode when they are tapped alone. The tracker learns of the
other modifiers only from the masks, which say what was down before the event.

- `modeToggle_loneTap`: a release toggles exactly when it ends a lone tap, if no key
  is bound whose overlap with another modifier the masks do not show; a chord toggles
  once, and its release does not.
- `modeToggle_shiftHeld`: Ctrl toggles although Shift is held.
-/

namespace MsimeLinux

/-! ## Keys -/

/-- The modifiers whose tap can be bound (IBusKeyMapper.h:31). -/
inductive TapModifier where
  | shift
  | control
  deriving DecidableEq

namespace TapModifier

def mask : TapModifier → Nat
  | shift => shiftMask
  | control => controlMask

/-- `others` (IBusKeyMapper.cpp:124): the modifiers that must not be down with it. -/
def others : TapModifier → Nat
  | shift => hostModifierMask
  | control => mod1Mask ||| mod4Mask ||| superMask ||| metaMask

/-- `enabled` (IBusKeyMapper.cpp:126). -/
def bound (bindings : ModeToggleBindings) : TapModifier → Bool
  | shift => bindings.shift
  | control => bindings.ctrl

end TapModifier

/-- `armed` (IBusKeyMapper.cpp:125). -/
def ModeToggleTracker.armed (t : ModeToggleTracker) : TapModifier → Bool
  | .shift => t.shiftArmed
  | .control => t.ctrlArmed

/-- What a key of the keyboard is: any other modifier sets bits of its own while it
is down. -/
inductive KeyRole where
  | tap (modifier : TapModifier)
  | modifier (mask : Nat)
  | plain
  deriving DecidableEq

/-- A keyboard. The symbol of a key depends on the modifiers, but the Shift and
Control keys always give theirs, and no other key does. -/
structure Keyboard (κ : Type) where
  role : κ → KeyRole
  symbol : κ → Nat → Nat
  shift_iff : ∀ k state, isShiftKey (symbol k state) = true ↔ role k = .tap .shift
  control_iff : ∀ k state, isControlKey (symbol k state) = true ↔ role k = .tap .control
  mask_release : ∀ k mask, role k = .modifier mask → mask &&& releaseMask = 0

/-- A key goes down, goes down again by auto-repeat, or goes up; `locks` are the bits
of Caps Lock and the like. -/
structure KeyStroke (κ : Type) where
  key : κ
  release : Bool := false
  locks : Nat := 0

section

variable {κ : Type}

namespace Keyboard

variable (kb : Keyboard κ)

def mask (k : κ) : Nat :=
  match kb.role k with
  | .tap m => m.mask
  | .modifier mask => mask
  | .plain => 0

/-- The modifiers that are down. -/
def downMask (down : List κ) : Nat := down.foldr (fun k mask => kb.mask k ||| mask) 0

/-- The mask of an event: X reports the modifiers as they were before it. -/
def reported (down : List κ) (s : KeyStroke κ) : Nat :=
  kb.downMask down ||| s.locks ||| if s.release then releaseMask else 0

/-- The keys that are down, with the tracker. -/
structure Watched (κ : Type) where
  down : List κ
  tracker : ModeToggleTracker

def observe (w : Watched κ) (s : KeyStroke κ) : Bool × ModeToggleTracker :=
  w.tracker.observe (kb.symbol s.key (kb.reported w.down s)) (kb.reported w.down s)

/-- Ctrl+Alt+Space goes down, or is repeated. -/
def ChordPress (down : List κ) (s : KeyStroke κ) : Prop :=
  s.release = false ∧ kb.symbol s.key (kb.reported down s) = keySpace ∧
    kb.reported down s &&& hotkeyModifierMask = controlMask ||| mod1Mask

end Keyboard

/-! ## Masks of events -/

/-- A modifier is not among its own others. -/
theorem TapModifier.mask_others (m : TapModifier) : m.mask &&& m.others = 0 := by
  cases m <;> decide

/-- Watching keys does not change what is bound. -/
theorem ModeToggleTracker.observe_bindings (t : ModeToggleTracker) (keyval state : Nat) :
    (t.observe keyval state).2.bindings = t.bindings := by
  unfold observe
  split
  · rfl
  · split
    · rfl
    · split <;> rfl

namespace Keyboard

variable {kb : Keyboard κ} {down : List κ} {s : KeyStroke κ} {m : TapModifier} {k : κ}

theorem mask_tap (h : kb.role k = .tap m) : kb.mask k = m.mask := by
  rw [mask, h]

theorem mask_plain (h : kb.role k = .plain) : kb.mask k = 0 := by
  rw [mask, h]

/-- No key carries the release bit. -/
theorem mask_releaseMask (k : κ) : kb.mask k &&& releaseMask = 0 := by
  unfold mask
  split
  · next m _ => cases m <;> decide
  · next mask hrole => exact kb.mask_release k mask hrole
  · exact Nat.zero_and _

/-- Bits are clear in what is down exactly when every key down leaves them clear. -/
theorem downMask_and_eq_zero {bits : Nat} :
    kb.downMask down &&& bits = 0 ↔ ∀ k ∈ down, kb.mask k &&& bits = 0 := by
  induction down with
  | nil => simp [downMask]
  | cons k down ih =>
    have hcons : kb.downMask (k :: down) = kb.mask k ||| kb.downMask down := rfl
    rw [hcons, Nat.and_or_distrib_right, Nat.or_eq_zero_iff, ih, List.forall_mem_cons]

/-- Of the modifiers, an event reports those that are down. -/
theorem reported_and {bits : Nat} (hlocks : s.locks &&& (hotkeyModifierMask ||| releaseMask) = 0)
    (hbits : (hotkeyModifierMask ||| releaseMask) &&& bits = bits)
    (hrelease : releaseMask &&& bits = 0) :
    kb.reported down s &&& bits = kb.downMask down &&& bits := by
  have hnolocks : s.locks &&& bits = 0 := by
    rw [← hbits, ← Nat.and_assoc, hlocks, Nat.zero_and]
  unfold reported
  rw [Nat.and_or_distrib_right, Nat.and_or_distrib_right, hnolocks, Nat.or_zero]
  split
  · rw [hrelease, Nat.or_zero]
  · rw [Nat.zero_and, Nat.or_zero]

/-- The locks do not hide the other modifiers. -/
theorem reported_others (hlocks : s.locks &&& (hotkeyModifierMask ||| releaseMask) = 0)
    (m : TapModifier) : kb.reported down s &&& m.others = kb.downMask down &&& m.others :=
  reported_and hlocks (by cases m <;> decide) (by cases m <;> decide)

/-- Nor whether the stroke is a release. -/
theorem isRelease_reported (hlocks : s.locks &&& (hotkeyModifierMask ||| releaseMask) = 0) :
    isRelease (kb.reported down s) = s.release := by
  have hnolocks : s.locks &&& releaseMask = 0 := by
    have hbits : (hotkeyModifierMask ||| releaseMask) &&& releaseMask = releaseMask := by decide
    rw [← hbits, ← Nat.and_assoc, hlocks, Nat.zero_and]
  have hdown : kb.downMask down &&& releaseMask = 0 :=
    downMask_and_eq_zero.mpr fun k _ => mask_releaseMask k
  unfold isRelease reported
  rw [Nat.and_or_distrib_right, Nat.and_or_distrib_right, hnolocks, hdown]
  cases s.release <;> decide

/-! ## One event -/

/-- A modifier toggles at its release, when it is armed and bound and nothing else is held. -/
theorem observeModifier_toggle {armed enabled : Bool} {others state : Nat} :
    (ModeToggleTracker.observeModifier armed enabled others state).1 = true ↔
      isRelease state = true ∧ armed = true ∧ enabled = true ∧ state &&& others = 0 := by
  unfold ModeToggleTracker.observeModifier
  cases isRelease state with
  | true => simp [and_assoc]
  | false => simp

/-- It is armed by a press, when it is bound and nothing else is held. -/
theorem observeModifier_armed {armed enabled : Bool} {others state : Nat} :
    (ModeToggleTracker.observeModifier armed enabled others state).2 = true ↔
      isRelease state = false ∧ enabled = true ∧ state &&& others = 0 := by
  unfold ModeToggleTracker.observeModifier
  cases isRelease state with
  | true => simp
  | false => simp

/-- The chord is seen exactly at a press of it, when it is bound. -/
theorem isChord_iff (hlocks : s.locks &&& (hotkeyModifierMask ||| releaseMask) = 0)
    (t : ModeToggleTracker) :
    t.isChord (kb.symbol s.key (kb.reported down s)) (kb.reported down s) = true ↔
      t.bindings.ctrlAltSpace = true ∧ kb.ChordPress down s := by
  simp only [ModeToggleTracker.isChord, Bool.and_eq_true, Bool.not_eq_true', decide_eq_true_eq,
    isRelease_reported hlocks, ChordPress, and_assoc]

/-- The chord's key is no modifier. -/
theorem ChordPress.notTap (h : kb.ChordPress down s) (m : TapModifier) :
    kb.role s.key ≠ .tap m := by
  intro hrole
  obtain ⟨-, hsymbol, -⟩ := h
  cases m with
  | shift =>
    have hshift := (kb.shift_iff s.key (kb.reported down s)).mpr hrole
    rw [hsymbol] at hshift
    exact absurd hshift (by decide)
  | control =>
    have hcontrol := (kb.control_iff s.key (kb.reported down s)).mpr hrole
    rw [hsymbol] at hcontrol
    exact absurd hcontrol (by decide)

/-- What the tracker makes of an event of a Shift or Control key. -/
structure TapObserved (kb : Keyboard κ) (w : Watched κ) (s : KeyStroke κ) (m : TapModifier) :
    Prop where
  toggle : (kb.observe w s).1 = true ↔ s.release = true ∧ w.tracker.armed m = true ∧
    m.bound w.tracker.bindings = true ∧ kb.downMask w.down &&& m.others = 0
  armed : (kb.observe w s).2.armed m = true ↔ s.release = false ∧
    m.bound w.tracker.bindings = true ∧ kb.downMask w.down &&& m.others = 0
  other : ∀ m', m' ≠ m → ((kb.observe w s).2.armed m' = true ↔
    w.tracker.armed m' = true ∧ s.release = true)
  chordHeld : (kb.observe w s).2.chordHeld = false
  bindings : (kb.observe w s).2.bindings = w.tracker.bindings

/-- What the tracker makes of a stroke of a tap modifier. -/
theorem observe_tap (hlocks : s.locks &&& (hotkeyModifierMask ||| releaseMask) = 0)
    (hrole : kb.role s.key = .tap m) (w : Watched κ) : TapObserved kb w s m := by
  have hrelease : isRelease (kb.reported w.down s) = s.release := isRelease_reported hlocks
  have hothers : kb.reported w.down s &&& m.others = kb.downMask w.down &&& m.others :=
    reported_others hlocks m
  -- a tap modifier is no chord, so the tracker comes to the modifiers
  have hchord : ¬ w.tracker.isChord (kb.symbol s.key (kb.reported w.down s))
      (kb.reported w.down s) = true :=
    fun h => ((isChord_iff hlocks _).mp h).2.notTap m hrole
  have hshift := kb.shift_iff s.key (kb.reported w.down s)
  have hcontrol := kb.control_iff s.key (kb.reported w.down s)
  rw [hrole] at hshift hcontrol
  cases m with
  | shift =>
    let state := kb.reported w.down s
    let seen := ModeToggleTracker.observeModifier w.tracker.shiftArmed w.tracker.bindings.shift
      hostModifierMask state
    have hobserve : kb.observe w s = (seen.1, { w.tracker with
        shiftArmed := seen.2
        ctrlArmed := w.tracker.ctrlArmed && isRelease state
        chordHeld := false }) := by
      unfold observe ModeToggleTracker.observe
      rw [if_neg hchord, if_pos (hshift.mpr rfl)]
    refine ⟨?_, ?_, fun m' hm' => ?_, ?_, ?_⟩
    · rw [hobserve, ← hothers, ← hrelease]
      exact observeModifier_toggle
    · rw [hobserve, ← hothers, ← hrelease]
      exact observeModifier_armed
    · obtain rfl : m' = .control := by cases m' <;> simp_all
      rw [hobserve, ← hrelease]
      exact Bool.and_eq_true_iff
    · rw [hobserve]
    · rw [hobserve]
  | control =>
    -- the tracker looks for a Shift key first
    have hnot : isShiftKey (kb.symbol s.key (kb.reported w.down s)) = false := by
      rw [← Bool.not_eq_true, hshift]
      decide
    let state := kb.reported w.down s
    let seen := ModeToggleTracker.observeModifier w.tracker.ctrlArmed w.tracker.bindings.ctrl
      (mod1Mask ||| mod4Mask ||| superMask ||| metaMask) state
    have hobserve : kb.observe w s = (seen.1, { w.tracker with
        shiftArmed := w.tracker.shiftArmed && isRelease state
        ctrlArmed := seen.2
        chordHeld := false }) := by
      unfold observe ModeToggleTracker.observe
      rw [if_neg hchord, hnot, if_neg Bool.false_ne_true, if_pos (hcontrol.mpr rfl)]
    refine ⟨?_, ?_, fun m' hm' => ?_, ?_, ?_⟩
    · rw [hobserve, ← hothers, ← hrelease]
      exact observeModifier_toggle
    · rw [hobserve, ← hothers, ← hrelease]
      exact observeModifier_armed
    · obtain rfl : m' = .shift := by cases m' <;> simp_all
      rw [hobserve, ← hrelease]
      exact Bool.and_eq_true_iff
    · rw [hobserve]
    · rw [hobserve]

/-- The chord changes nothing else. -/
theorem observe_chord (hlocks : s.locks &&& (hotkeyModifierMask ||| releaseMask) = 0)
    {w : Watched κ} (hbound : w.tracker.bindings.ctrlAltSpace = true)
    (hchord : kb.ChordPress w.down s) :
    kb.observe w s = (!w.tracker.chordHeld, { w.tracker with chordHeld := true }) := by
  unfold observe ModeToggleTracker.observe
  rw [if_pos ((isChord_iff hlocks _).mpr ⟨hbound, hchord⟩)]

/-- Any other event disarms. -/
theorem observe_plain (hlocks : s.locks &&& (hotkeyModifierMask ||| releaseMask) = 0)
    {w : Watched κ} (hrole : ∀ m, kb.role s.key ≠ .tap m)
    (hchord : ¬ (w.tracker.bindings.ctrlAltSpace = true ∧ kb.ChordPress w.down s)) :
    kb.observe w s = (false, { w.tracker with
      shiftArmed := false, ctrlArmed := false, chordHeld := false }) := by
  have hshift : ¬ isShiftKey (kb.symbol s.key (kb.reported w.down s)) = true :=
    fun h => hrole .shift ((kb.shift_iff _ _).mp h)
  have hcontrol : ¬ isControlKey (kb.symbol s.key (kb.reported w.down s)) = true :=
    fun h => hrole .control ((kb.control_iff _ _).mp h)
  unfold observe ModeToggleTracker.observe
  rw [if_neg (fun h => hchord ((isChord_iff hlocks _).mp h)), if_neg hshift, if_neg hcontrol]

end Keyboard

end

/-! ## Runs -/

section

variable {κ : Type} [DecidableEq κ]

/-- The keys that are down after a stroke. -/
def KeyStroke.apply (down : List κ) (s : KeyStroke κ) : List κ :=
  if s.release then down.filter (· ≠ s.key) else s.key :: down

/-- The keys that are down after some strokes. -/
def keysDown (start : List κ) (strokes : List (KeyStroke κ)) : List κ :=
  strokes.foldl KeyStroke.apply start

/-- Only a key that is down goes up, and locks are no held modifiers. -/
def PossibleStroke (start : List κ) (before : List (KeyStroke κ)) (s : KeyStroke κ) : Prop :=
  s.locks &&& (hotkeyModifierMask ||| releaseMask) = 0 ∧
    (s.release = true → s.key ∈ keysDown start before)

/-- Something holds of every stroke and those before it. -/
def EachStroke (P : List (KeyStroke κ) → KeyStroke κ → Prop) (strokes : List (KeyStroke κ)) :
    Prop :=
  ∀ before s after, strokes = before ++ s :: after → P before s

namespace Keyboard

variable (kb : Keyboard κ)

def next (w : Watched κ) (s : KeyStroke κ) : Watched κ :=
  ⟨s.apply w.down, (kb.observe w s).2⟩

/-- The tracker of a new engine, after some strokes; `start` were down before. -/
def watch (bindings : ModeToggleBindings) (start : List κ) (strokes : List (KeyStroke κ)) :
    Watched κ :=
  strokes.foldl kb.next ⟨start, ({} : ModeToggleTracker).configure bindings⟩

/-- A stroke toggles the mode. -/
def toggles (bindings : ModeToggleBindings) (start : List κ) (before : List (KeyStroke κ))
    (s : KeyStroke κ) : Bool :=
  (kb.observe (kb.watch bindings start before) s).1

/-- The key has been pressed and is still down, no other modifier was down with it and
there was no other event since, but its own auto-repeat. -/
def LoneTap (start : List κ) (before : List (KeyStroke κ)) (k : κ) : Prop :=
  ∃ quiet taps, before = quiet ++ taps ∧ taps ≠ [] ∧
    (∀ s ∈ taps, s.key = k ∧ s.release = false) ∧
    k ∉ keysDown start quiet ∧ ∀ k' ∈ keysDown start quiet, kb.role k' = .plain

/-- When a bound modifier goes down and the mask shows none of the modifiers it must
not be tapped with, then no other modifier is down; and it is repeated only right
after it went down. -/
def TapsApart (bindings : ModeToggleBindings) (start : List κ) (before : List (KeyStroke κ))
    (s : KeyStroke κ) : Prop :=
  ∀ m, s.release = false → kb.role s.key = .tap m → m.bound bindings = true →
    kb.reported (keysDown start before) s &&& m.others = 0 →
    (∀ k ∈ keysDown start before, k ≠ s.key → kb.role k = .plain) ∧
      (s.key ∈ keysDown start before →
        ∃ quiet p, before = quiet ++ [p] ∧ p.key = s.key ∧ p.release = false)

end Keyboard

omit [DecidableEq κ] in
/-- What holds of each stroke holds of each earlier one. -/
theorem EachStroke.of_append {P : List (KeyStroke κ) → KeyStroke κ → Prop}
    {before after : List (KeyStroke κ)} (h : EachStroke P (before ++ after)) :
    EachStroke P before := by
  intro quiet s rest hsplit
  refine h quiet s (rest ++ after) ?_
  rw [hsplit, List.append_assoc]
  rfl

omit [DecidableEq κ] in
theorem eachStroke_nil {P : List (KeyStroke κ) → KeyStroke κ → Prop} : EachStroke P [] := by
  intro before s after hsplit
  exact absurd hsplit.symm (by simp)

omit [DecidableEq κ] in
/-- One more stroke. -/
theorem EachStroke.snoc {P : List (KeyStroke κ) → KeyStroke κ → Prop}
    {before : List (KeyStroke κ)} {s : KeyStroke κ} (h : EachStroke P before) (hs : P before s) :
    EachStroke P (before ++ [s]) := by
  intro quiet t rest hsplit
  rcases List.eq_nil_or_concat' rest with rfl | ⟨rest, r, rfl⟩
  · obtain ⟨rfl, rfl⟩ := List.append_singleton_inj.mp hsplit
    exact hs
  · rw [← List.cons_append, ← List.append_assoc] at hsplit
    obtain ⟨hbefore, -⟩ := List.append_singleton_inj.mp hsplit
    exact h quiet t rest hbefore

theorem keysDown_append_singleton (start : List κ) (before : List (KeyStroke κ))
    (s : KeyStroke κ) : keysDown start (before ++ [s]) = s.apply (keysDown start before) := by
  simp [keysDown]

/-- Keys go down. -/
theorem mem_keysDown_presses {start : List κ} {before taps : List (KeyStroke κ)} {k : κ}
    (hpress : ∀ s ∈ taps, s.release = false) :
    k ∈ keysDown start (before ++ taps) ↔
      k ∈ keysDown start before ∨ ∃ s ∈ taps, s.key = k := by
  induction taps generalizing before with
  | nil => simp
  | cons s taps ih =>
    have hs : s.release = false := hpress s List.mem_cons_self
    have hdown : keysDown start (before ++ [s]) = s.key :: keysDown start before := by
      rw [keysDown_append_singleton, KeyStroke.apply, hs]
      rfl
    rw [List.append_cons, ih fun s' hs' => hpress s' (List.mem_cons_of_mem _ hs'), hdown]
    simp only [List.mem_cons, exists_eq_or_imp]
    constructor
    · rintro ((rfl | hold) | hlater)
      · exact .inr (.inl rfl)
      · exact .inl hold
      · exact .inr (.inr hlater)
    · rintro (hold | rfl | hlater)
      · exact .inl (.inr hold)
      · exact .inl (.inl rfl)
      · exact .inr hlater

namespace Keyboard

variable {kb : Keyboard κ} {bindings : ModeToggleBindings} {start : List κ}
  {before strokes : List (KeyStroke κ)} {s : KeyStroke κ} {m : TapModifier} {k : κ}

theorem watch_append_singleton : kb.watch bindings start (before ++ [s]) =
    kb.next (kb.watch bindings start before) s := by
  simp [watch]

/-- The watch keeps the keys that are down. -/
theorem watch_down : (kb.watch bindings start before).down = keysDown start before := by
  induction before using List.reverseRecOn with
  | nil => rfl
  | append_singleton before s ih =>
    rw [watch_append_singleton, keysDown_append_singleton, next, ih]

/-- The bindings stay. -/
theorem watch_bindings : (kb.watch bindings start before).tracker.bindings = bindings := by
  induction before using List.reverseRecOn with
  | nil => rfl
  | append_singleton before s ih =>
    rw [watch_append_singleton, next, observe, ModeToggleTracker.observe_bindings, ih]

/-! ## Taps -/

/-- A tap goes on from a press of its key. -/
theorem LoneTap.last (h : kb.LoneTap start before k) :
    ∃ quiet p, before = quiet ++ [p] ∧ p.key = k ∧ p.release = false := by
  obtain ⟨quiet, taps, rfl, hne, htaps, -, -⟩ := h
  refine ⟨quiet ++ taps.dropLast, taps.getLast hne, ?_, htaps _ (List.getLast_mem hne)⟩
  rw [List.append_assoc, List.dropLast_concat_getLast hne]

theorem LoneTap.of_append (h : kb.LoneTap start (before ++ [s]) k) :
    s.key = k ∧ s.release = false := by
  obtain ⟨quiet, p, hsplit, hkey, hpress⟩ := h.last
  obtain ⟨-, rfl⟩ := List.append_singleton_inj.mp hsplit
  exact ⟨hkey, hpress⟩

/-- No other modifier is down. -/
theorem LoneTap.down (h : kb.LoneTap start before k) :
    k ∈ keysDown start before ∧
      ∀ k' ∈ keysDown start before, k' = k ∨ kb.role k' = .plain := by
  obtain ⟨quiet, taps, rfl, hne, htaps, -, hplain⟩ := h
  have hpress : ∀ s ∈ taps, s.release = false := fun s hs => (htaps s hs).2
  constructor
  · rw [mem_keysDown_presses hpress]
    obtain ⟨s, hs⟩ := List.exists_mem_of_ne_nil taps hne
    exact .inr ⟨s, hs, (htaps s hs).1⟩
  · intro k' hk'
    rcases (mem_keysDown_presses hpress).mp hk' with hquiet | ⟨s, hs, rfl⟩
    · exact .inr (hplain k' hquiet)
    · exact .inl (htaps s hs).1

/-- A tap begins. -/
theorem LoneTap.first (hpress : s.release = false) (hup : s.key ∉ keysDown start before)
    (hplain : ∀ k ∈ keysDown start before, kb.role k = .plain) :
    kb.LoneTap start (before ++ [s]) s.key :=
  ⟨before, [s], rfl, List.cons_ne_nil _ _, by simp [hpress], hup, hplain⟩

/-- The key is repeated. -/
theorem LoneTap.repeated (h : kb.LoneTap start before s.key) (hpress : s.release = false) :
    kb.LoneTap start (before ++ [s]) s.key := by
  obtain ⟨quiet, taps, rfl, hne, htaps, hup, hplain⟩ := h
  refine ⟨quiet, taps ++ [s], List.append_assoc .., List.append_ne_nil_of_left_ne_nil hne _,
    fun t ht => ?_, hup, hplain⟩
  rcases List.mem_append.mp ht with ht | ht
  · exact htaps t ht
  · obtain rfl := List.mem_singleton.mp ht
    exact ⟨rfl, hpress⟩

/-- How a tap that has gone on until now began or went on. -/
theorem LoneTap.cases_append (h : kb.LoneTap start (before ++ [s]) s.key) :
    (s.key ∉ keysDown start before ∧ ∀ k ∈ keysDown start before, kb.role k = .plain) ∨
      kb.LoneTap start before s.key := by
  obtain ⟨quiet, taps, hsplit, hne, htaps, hup, hplain⟩ := h
  obtain ⟨taps, t, rfl⟩ := (List.eq_nil_or_concat' taps).resolve_left hne
  rw [← List.append_assoc] at hsplit
  obtain ⟨rfl, -⟩ := List.append_singleton_inj.mp hsplit
  by_cases hfirst : taps = []
  · subst hfirst
    rw [List.append_nil]
    exact .inl ⟨hup, hplain⟩
  · exact .inr ⟨quiet, taps, rfl, hfirst, fun s hs => htaps s (List.mem_append_left _ hs), hup,
      hplain⟩

/-- The mask of a lone tap shows none of the other modifiers. -/
theorem LoneTap.downMask (h : kb.LoneTap start before k) (hrole : kb.role k = .tap m) :
    kb.downMask (keysDown start before) &&& m.others = 0 := by
  refine downMask_and_eq_zero.mpr fun k' hk' => ?_
  rcases h.down.2 k' hk' with rfl | hplain
  · rw [mask_tap hrole]
    exact m.mask_others
  · rw [mask_plain hplain, Nat.zero_and]

/-! ## What the tracker knows -/

/-- The tracker after some strokes: what is armed is a lone tap under way, and the chord
is held right after its press. -/
structure Tracks (kb : Keyboard κ) (bindings : ModeToggleBindings) (start : List κ)
    (before : List (KeyStroke κ)) (t : ModeToggleTracker) : Prop where
  configured : t.bindings = bindings
  armed : ∀ m, t.armed m = true ↔
    m.bound bindings = true ∧ ∃ k, kb.role k = .tap m ∧ kb.LoneTap start before k
  chordHeld : t.chordHeld = true ↔ bindings.ctrlAltSpace = true ∧
    ∃ quiet p, before = quiet ++ [p] ∧ kb.ChordPress (keysDown start quiet) p

/-- A lone tap under way ends with its key, of all modifiers. -/
theorem Tracks.armed_key {t : ModeToggleTracker} (h : Tracks kb bindings start before t)
    {m' : TapModifier} (harmed : t.armed m = true) (hdown : k ∈ keysDown start before)
    (hrole : kb.role k = .tap m') : m = m' ∧ kb.LoneTap start before k := by
  obtain ⟨-, k', hrole', hlone⟩ := (h.armed m).mp harmed
  rcases hlone.down.2 k hdown with rfl | hplain
  · rw [hrole] at hrole'
    exact ⟨(KeyRole.tap.inj hrole').symm, hlone⟩
  · rw [hrole] at hplain
    cases hplain

/-- While a tap is under way the chord cannot be pressed. -/
theorem Tracks.not_armed_of_chord {t : ModeToggleTracker}
    (h : Tracks kb bindings start before t) (hpossible : PossibleStroke start before s)
    (hchord : kb.ChordPress (keysDown start before) s) (m : TapModifier) : ¬ t.armed m = true := by
  intro harmed
  obtain ⟨-, k, hrole, hlone⟩ := (h.armed m).mp harmed
  -- its masks are those of one modifier, and the chord needs two
  have hnone := hlone.downMask hrole
  rw [← reported_others (s := s) hpossible.1] at hnone
  have hmasked : hotkeyModifierMask &&& m.others = m.others := by cases m <;> decide
  have hboth : (controlMask ||| mod1Mask) &&& m.others = 0 := by
    rw [← hchord.2.2, Nat.and_assoc, hmasked, hnone]
  cases m <;> exact absurd hboth (by decide)

/-- Before the first stroke nothing is armed. -/
theorem tracks_nil : Tracks kb bindings start [] (kb.watch bindings start []).tracker := by
  refine ⟨rfl, fun m => ?_, ?_⟩
  · have hnot : ¬ (kb.watch bindings start []).tracker.armed m = true := by
      cases m <;> exact Bool.false_ne_true
    refine iff_of_false hnot fun ⟨_, k, _, hlone⟩ => ?_
    obtain ⟨quiet, p, hsplit, -⟩ := hlone.last
    exact absurd hsplit.symm (by simp)
  · refine iff_of_false Bool.false_ne_true fun ⟨_, quiet, p, hsplit, _⟩ => ?_
    exact absurd hsplit.symm (by simp)

/-- A key that is pressed with the mask clear of what is checked begins a lone tap, or
goes on with one. -/
theorem Tracks.lone_of_apart (h : Tracks kb bindings start before
      (kb.watch bindings start before).tracker)
    (hpossible : EachStroke (PossibleStroke start) (before ++ [s]))
    (hapart : kb.TapsApart bindings start before s) (hpress : s.release = false)
    (hrole : kb.role s.key = .tap m) (hbound : m.bound bindings = true)
    (hclear : kb.downMask (keysDown start before) &&& m.others = 0) :
    kb.LoneTap start (before ++ [s]) s.key := by
  have hlocks := (hpossible before s [] rfl).1
  obtain ⟨hothers, hrepeat⟩ := hapart m hpress hrole hbound
    ((reported_others hlocks m).trans hclear)
  by_cases hdown : s.key ∈ keysDown start before
  · obtain ⟨quiet, p, rfl, hkey, hp⟩ := hrepeat hdown
    -- the mask was clear when the key went down
    have hprole : kb.role p.key = .tap m := hkey ▸ hrole
    have hplocks := (hpossible quiet p [s] (by simp)).1
    have hbefore : kb.downMask (keysDown start quiet) &&& m.others = 0 := by
      rw [keysDown_append_singleton, KeyStroke.apply, hp] at hclear
      exact downMask_and_eq_zero.mpr fun k hk =>
        downMask_and_eq_zero.mp hclear k (List.mem_cons_of_mem _ hk)
    have harmed : (kb.watch bindings start (quiet ++ [p])).tracker.armed m = true := by
      rw [watch_append_singleton]
      refine (observe_tap hplocks hprole _).armed.mpr ⟨hp, ?_, ?_⟩
      · rw [watch_bindings]
        exact hbound
      · rw [watch_down]
        exact hbefore
    exact (h.armed_key harmed hdown hrole).2.repeated hpress
  · refine LoneTap.first hpress hdown fun k hk => hothers k hk ?_
    rintro rfl
    exact hdown hk

/-- After a stroke of a Shift or Control key. -/
theorem Tracks.append_tap (h : Tracks kb bindings start before
      (kb.watch bindings start before).tracker)
    (hpossible : EachStroke (PossibleStroke start) (before ++ [s]))
    (hapart : kb.TapsApart bindings start before s) (hrole : kb.role s.key = .tap m) :
    Tracks kb bindings start (before ++ [s])
      (kb.watch bindings start (before ++ [s])).tracker := by
  obtain ⟨hlocks, hrelease⟩ := hpossible before s [] rfl
  obtain ⟨-, harmed, hother, hheld, hsame⟩ :=
    observe_tap hlocks hrole (kb.watch bindings start before)
  rw [watch_bindings, watch_down] at harmed
  rw [watch_append_singleton]
  refine ⟨hsame.trans watch_bindings, fun m' => ?_, ?_⟩
  · by_cases hm : m' = m
    · subst hm
      refine harmed.trans ⟨?_, ?_⟩
      · rintro ⟨hpress, hbound, hclear⟩
        exact ⟨hbound, s.key, hrole,
          h.lone_of_apart hpossible hapart hpress hrole hbound hclear⟩
      · rintro ⟨hbound, k, hk, hlone⟩
        obtain ⟨rfl, hpress⟩ := hlone.of_append
        refine ⟨hpress, hbound, ?_⟩
        have hclear := hlone.downMask hrole
        rw [keysDown_append_singleton, KeyStroke.apply, hpress] at hclear
        exact downMask_and_eq_zero.mpr fun k hk =>
          downMask_and_eq_zero.mp hclear k (List.mem_cons_of_mem _ hk)
    · -- the other modifier is armed no longer, nor is its tap lone
      refine iff_of_false ?_ ?_
      · rw [next, hother m' hm]
        rintro ⟨hold, hup⟩
        exact hm (h.armed_key hold (hrelease hup) hrole).1
      · rintro ⟨-, k, hk, hlone⟩
        obtain ⟨rfl, -⟩ := hlone.of_append
        exact hm (KeyRole.tap.inj (hk.symm.trans hrole))
  · refine iff_of_false (by rw [next, hheld]; decide) ?_
    rintro ⟨-, quiet, p, hsplit, hchord⟩
    obtain ⟨rfl, rfl⟩ := List.append_singleton_inj.mp hsplit
    exact hchord.notTap m hrole

/-- After a stroke of another key. -/
theorem Tracks.append_other (h : Tracks kb bindings start before
      (kb.watch bindings start before).tracker) (hpossible : PossibleStroke start before s)
    (hrole : ∀ m, kb.role s.key ≠ .tap m) :
    Tracks kb bindings start (before ++ [s])
      (kb.watch bindings start (before ++ [s])).tracker := by
  have hnolone : ∀ m, ¬ (m.bound bindings = true ∧
      ∃ k, kb.role k = .tap m ∧ kb.LoneTap start (before ++ [s]) k) := by
    rintro m ⟨-, k, hk, hlone⟩
    obtain ⟨rfl, -⟩ := hlone.of_append
    exact hrole m hk
  rw [watch_append_singleton]
  by_cases hchord : bindings.ctrlAltSpace = true ∧ kb.ChordPress (keysDown start before) s
  · have hobserve := observe_chord hpossible.1 (w := kb.watch bindings start before)
      (by rw [watch_bindings]; exact hchord.1) (by rw [watch_down]; exact hchord.2)
    rw [next, hobserve]
    refine ⟨watch_bindings, fun m => iff_of_false ?_ (hnolone m),
      iff_of_true rfl ⟨hchord.1, before, s, rfl, hchord.2⟩⟩
    have hnot := h.not_armed_of_chord hpossible hchord.2 m
    cases m <;> exact hnot
  · have hobserve := observe_plain hpossible.1 (w := kb.watch bindings start before) hrole
      (by rw [watch_bindings, watch_down]; exact hchord)
    rw [next, hobserve]
    refine ⟨watch_bindings, fun m => iff_of_false ?_ (hnolone m), iff_of_false ?_ ?_⟩
    · cases m <;> exact Bool.false_ne_true
    · exact Bool.false_ne_true
    · rintro ⟨hbound, quiet, p, hsplit, hpress⟩
      obtain ⟨rfl, rfl⟩ := List.append_singleton_inj.mp hsplit
      exact hchord ⟨hbound, hpress⟩

/-- **What the tracker knows after a run.** -/
theorem tracks (hpossible : EachStroke (PossibleStroke start) before)
    (hapart : EachStroke (kb.TapsApart bindings start) before) :
    Tracks kb bindings start before (kb.watch bindings start before).tracker := by
  induction before using List.reverseRecOn with
  | nil => exact tracks_nil
  | append_singleton before s ih =>
    have h := ih hpossible.of_append hapart.of_append
    by_cases htap : ∃ m, kb.role s.key = .tap m
    · obtain ⟨m, hrole⟩ := htap
      exact h.append_tap hpossible (hapart before s [] rfl) hrole
    · rw [not_exists] at htap
      exact h.append_other (hpossible before s [] rfl) htap

/-! ## The law -/

/-- **When a release toggles.** -/
theorem toggles_release_iff (h : Tracks kb bindings start before
      (kb.watch bindings start before).tracker) (hpossible : PossibleStroke start before s)
    (hup : s.release = true) :
    kb.toggles bindings start before s = true ↔
      ∃ m, kb.role s.key = .tap m ∧ m.bound bindings = true ∧ kb.LoneTap start before s.key := by
  unfold toggles
  by_cases htap : ∃ m, kb.role s.key = .tap m
  · obtain ⟨m, hrole⟩ := htap
    rw [(observe_tap hpossible.1 hrole (kb.watch bindings start before)).toggle, watch_bindings,
      watch_down]
    constructor
    · rintro ⟨-, harmed, hbound, -⟩
      exact ⟨m, hrole, hbound, (h.armed_key harmed (hpossible.2 hup) hrole).2⟩
    · rintro ⟨m', hrole', hbound, hlone⟩
      obtain rfl : m' = m := KeyRole.tap.inj (hrole'.symm.trans hrole)
      exact ⟨hup, (h.armed m').mpr ⟨hbound, _, hrole, hlone⟩, hbound, hlone.downMask hrole⟩
  · rw [not_exists] at htap
    have hchord : ¬ ((kb.watch bindings start before).tracker.bindings.ctrlAltSpace = true ∧
        kb.ChordPress (kb.watch bindings start before).down s) := by
      rintro ⟨-, hpress, -⟩
      rw [hup] at hpress
      cases hpress
    rw [observe_plain hpossible.1 htap hchord]
    exact iff_of_false Bool.false_ne_true fun ⟨m, hrole, _⟩ => htap m hrole

/-- **When a press toggles.** -/
theorem toggles_press_iff (h : Tracks kb bindings start before
      (kb.watch bindings start before).tracker) (hpossible : PossibleStroke start before s)
    (hpress : s.release = false) :
    kb.toggles bindings start before s = true ↔
      bindings.ctrlAltSpace = true ∧ kb.ChordPress (keysDown start before) s ∧
        ¬ ∃ quiet p, before = quiet ++ [p] ∧ kb.ChordPress (keysDown start quiet) p := by
  unfold toggles
  by_cases hchord : bindings.ctrlAltSpace = true ∧ kb.ChordPress (keysDown start before) s
  · rw [observe_chord hpossible.1 (by rw [watch_bindings]; exact hchord.1)
      (by rw [watch_down]; exact hchord.2), Bool.not_eq_true', ← Bool.not_eq_true, h.chordHeld]
    simp only [hchord.1, hchord.2, true_and]
  · have hfalse : ¬ (kb.observe (kb.watch bindings start before) s).1 = true := by
      by_cases htap : ∃ m, kb.role s.key = .tap m
      · obtain ⟨m, hrole⟩ := htap
        rw [(observe_tap hpossible.1 hrole _).toggle, hpress]
        exact fun htoggle => Bool.false_ne_true htoggle.1
      · rw [not_exists] at htap
        rw [observe_plain hpossible.1 htap (by rw [watch_bindings, watch_down]; exact hchord)]
        exact Bool.false_ne_true
    exact iff_of_false hfalse fun ⟨hbound, hchord', _⟩ => hchord ⟨hbound, hchord'⟩

/-- **A tap that is not apart is taken for a lone one**: the key is released at once. -/
theorem overlap_toggles (hpossible : EachStroke (PossibleStroke start) (before ++ [s]))
    (hoverlap : ¬ kb.TapsApart bindings start before s) :
    kb.toggles bindings start (before ++ [s]) ⟨s.key, true, 0⟩ = true ∧
      ¬ kb.LoneTap start (before ++ [s]) s.key := by
  unfold TapsApart at hoverlap
  simp only [Classical.not_imp, not_forall] at hoverlap
  obtain ⟨m, hpress, hrole, hbound, hclear, hapart⟩ := hoverlap
  have hlocks := (hpossible before s [] rfl).1
  rw [reported_others hlocks] at hclear
  constructor
  · have harmed := (observe_tap hlocks hrole (kb.watch bindings start before)).armed.mpr
      ⟨hpress, by rw [watch_bindings]; exact hbound, by rw [watch_down]; exact hclear⟩
    have hnolocks : (0 : Nat) &&& (hotkeyModifierMask ||| releaseMask) = 0 := Nat.zero_and _
    have hrelease := (observe_tap (s := ⟨s.key, true, 0⟩) hnolocks hrole
      (kb.watch bindings start (before ++ [s]))).toggle
    rw [watch_down, watch_bindings, keysDown_append_singleton, KeyStroke.apply, hpress] at hrelease
    unfold toggles
    refine hrelease.mpr ⟨rfl, ?_, hbound, downMask_and_eq_zero.mpr fun k hk => ?_⟩
    · rw [watch_append_singleton]
      exact harmed
    · rcases List.mem_cons.mp hk with rfl | hk
      · rw [mask_tap hrole]
        exact m.mask_others
      · exact downMask_and_eq_zero.mp hclear k hk
  · intro hlone
    apply hapart
    rcases hlone.cases_append with ⟨hup, hplain⟩ | hold
    · exact ⟨fun k hk _ => hplain k hk, fun hdown => absurd hdown hup⟩
    · exact ⟨fun k hk hne => (hold.down.2 k hk).resolve_left hne, fun _ => hold.last⟩

end Keyboard

/-- **Taps and chords.** In a run in which bound modifiers are tapped apart, a release
toggles exactly when it ends a lone tap, a press toggles exactly when it is the first of
its chord, and the releases after a chord toggle nothing. A press that is not apart and
is followed by its release toggles although the tap is not a lone one. -/
theorem modeToggle_loneTap (kb : Keyboard κ) (bindings : ModeToggleBindings) (start : List κ)
    (strokes : List (KeyStroke κ)) (hpossible : EachStroke (PossibleStroke start) strokes) :
    (EachStroke (kb.TapsApart bindings start) strokes → EachStroke (fun before s =>
      (s.release = true → (kb.toggles bindings start before s = true ↔
        ∃ m, kb.role s.key = .tap m ∧ m.bound bindings = true ∧
          kb.LoneTap start before s.key)) ∧
      (s.release = false → (kb.toggles bindings start before s = true ↔
        bindings.ctrlAltSpace = true ∧ kb.ChordPress (keysDown start before) s ∧
          ¬ ∃ quiet p, before = quiet ++ [p] ∧ kb.ChordPress (keysDown start quiet) p)) ∧
      (s.release = true → ∀ quiet p after, before = quiet ++ p :: after →
        kb.ChordPress (keysDown start quiet) p → (∀ r ∈ after, r.release = true) →
        kb.toggles bindings start before s = false)) strokes) ∧
    ∀ before s, strokes = before ++ [s] → ¬ kb.TapsApart bindings start before s →
      kb.toggles bindings start strokes ⟨s.key, true, 0⟩ = true ∧
        ¬ kb.LoneTap start strokes s.key := by
  refine ⟨fun hapart before s after hsplit => ?_, ?_⟩
  · subst hsplit
    have h := kb.tracks hpossible.of_append hapart.of_append
    have hs : PossibleStroke start before s := hpossible before s after rfl
    have hrelease := Keyboard.toggles_release_iff h hs
    refine ⟨hrelease, Keyboard.toggles_press_iff h hs, ?_⟩
    intro hup quiet p rels hbefore hchord hrels
    rw [← Bool.not_eq_true, hrelease hup]
    rintro ⟨m, hrole, -, hlone⟩
    -- a tap under way ends with a press of its key, and not of the chord's
    obtain ⟨before', last, hlast, hkey, hpress⟩ := hlone.last
    rcases List.eq_nil_or_concat' rels with rfl | ⟨rels, r, rfl⟩
    · obtain ⟨-, rfl⟩ := List.append_singleton_inj.mp (hbefore.symm.trans hlast)
      exact hchord.notTap m (hkey ▸ hrole)
    · rw [hbefore, ← List.cons_append, ← List.append_assoc] at hlast
      obtain ⟨-, rfl⟩ := List.append_singleton_inj.mp hlast
      rw [hrels r (by simp)] at hpress
      cases hpress
  · rintro before s rfl hoverlap
    exact Keyboard.overlap_toggles hpossible hoverlap

end

/-- Two Shift keys, two Control keys, Alt, AltGr, the space bar and a letter. -/
inductive SampleKey where
  | shiftLeft
  | shiftRight
  | controlLeft
  | controlRight
  | alt
  | altGr
  | space
  | letter
  deriving DecidableEq

/-- A keyboard with a few keys. -/
def sampleKeyboard : Keyboard SampleKey where
  role
    | .shiftLeft | .shiftRight => .tap .shift
    | .controlLeft | .controlRight => .tap .control
    | .alt => .modifier mod1Mask
    | .altGr => .modifier 0x80
    | .space | .letter => .plain
  symbol k _ :=
    match k with
    | .shiftLeft => 0xffe1
    | .shiftRight => 0xffe2
    | .controlLeft => 0xffe3
    | .controlRight => 0xffe4
    | .alt => 0xffe9
    | .altGr => 0xfe03
    | .space => keySpace
    | .letter => 'a'.toNat
  shift_iff k _ := by cases k <;> decide
  control_iff k _ := by cases k <;> decide
  mask_release k mask h := by
    cases k <;> cases h <;> decide

/-- Shift is tapped. -/
theorem modeToggle_loneTap_shift :
    sampleKeyboard.toggles {} [] [⟨.shiftLeft, false, 0⟩] ⟨.shiftLeft, true, 0⟩ = true := by
  have hpossible : EachStroke (PossibleStroke [])
      ([⟨.shiftLeft, false, 0⟩] ++ [⟨SampleKey.shiftLeft, true, 0⟩]) :=
    .snoc (.snoc eachStroke_nil ⟨by decide, by decide⟩) ⟨by decide, by decide⟩
  have hapart : EachStroke (sampleKeyboard.TapsApart {} [])
      ([⟨.shiftLeft, false, 0⟩] ++ [⟨SampleKey.shiftLeft, true, 0⟩]) := by
    refine .snoc (.snoc eachStroke_nil fun m _ _ _ _ => ⟨?_, ?_⟩) fun m hpress => by cases hpress
    · exact fun k hk => absurd hk List.not_mem_nil
    · exact fun hk => absurd hk List.not_mem_nil
  have hlone : sampleKeyboard.LoneTap [] [⟨.shiftLeft, false, 0⟩] .shiftLeft :=
    ⟨[], _, rfl, List.cons_ne_nil _ _, by simp, List.not_mem_nil, fun k hk =>
      absurd hk List.not_mem_nil⟩
  exact (((modeToggle_loneTap sampleKeyboard {} [] _ hpossible).1 hapart _ _ [] rfl).1 rfl).mpr
    ⟨.shift, rfl, rfl, hlone⟩

/-- Shift is held down and Ctrl is tapped: the mode is toggled. -/
theorem modeToggle_shiftHeld :
    let bindings : ModeToggleBindings := { ctrl := true }
    let strokes : List (KeyStroke SampleKey) :=
      [⟨.shiftLeft, false, 0⟩, ⟨.controlLeft, false, 0⟩]
    EachStroke (PossibleStroke []) (strokes ++ [⟨.controlLeft, true, 0⟩]) ∧
      sampleKeyboard.toggles bindings [] strokes ⟨.controlLeft, true, 0⟩ = true ∧
      .shiftLeft ∈ keysDown [] strokes ∧ ¬ sampleKeyboard.LoneTap [] strokes .controlLeft := by
  intro bindings strokes
  refine ⟨?_, by decide +kernel, by decide, fun hlone => ?_⟩
  · have hshift : EachStroke (PossibleStroke []) [⟨SampleKey.shiftLeft, false, 0⟩] :=
      .snoc eachStroke_nil ⟨by decide, by decide⟩
    have hcontrol : EachStroke (PossibleStroke []) strokes :=
      .snoc hshift ⟨by decide, by decide⟩
    exact hcontrol.snoc ⟨by decide, by decide⟩
  · have hshift : SampleKey.shiftLeft ∈ keysDown [] strokes := by decide
    rcases hlone.down.2 _ hshift with hsame | hplain
    · cases hsame
    · cases hplain

end MsimeLinux
