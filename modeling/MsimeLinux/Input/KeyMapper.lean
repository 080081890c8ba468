import MsimeLinux.Input.Controller

/-!
# From IBus key events to frontend keys (`IBusKeyMapper.cpp`)

IBus hands the engine a key symbol and a modifier mask. `translateIbusKey`
sorts them into keys to ignore, keys to forward to the application and frontend
keys for the controller; `ModeToggleTracker` watches the same events for the
chords that toggle Chinese and English.

Key symbols and masks have the values `ibus.h` gives them. A `guint` is a
natural number here: both functions only compare it and test bits of it.
-/

namespace MsimeLinux

/-! ## Masks -/

/-- `IBUS_SHIFT_MASK`. -/
def shiftMask : Nat := 0x1

/-- `IBUS_CONTROL_MASK`. -/
def controlMask : Nat := 0x4

/-- `IBUS_MOD1_MASK`. -/
def mod1Mask : Nat := 0x8

/-- `IBUS_MOD4_MASK`. -/
def mod4Mask : Nat := 0x40

/-- `IBUS_SUPER_MASK`. -/
def superMask : Nat := 0x4000000

/-- `IBUS_META_MASK`. -/
def metaMask : Nat := 0x10000000

/-- `IBUS_RELEASE_MASK`. -/
def releaseMask : Nat := 0x40000000

/-- `kHostModifierMask` (IBusKeyMapper.cpp:10). -/
def hostModifierMask : Nat := controlMask ||| mod1Mask ||| mod4Mask ||| superMask ||| metaMask

/-- `kHotkeyModifierMask` (IBusKeyMapper.cpp:12). -/
def hotkeyModifierMask : Nat := hostModifierMask ||| shiftMask

/-- The event is the release of a key. -/
def isRelease (state : Nat) : Bool := state &&& releaseMask ≠ 0

/-! ## Key symbols -/

/-- `IBUS_space`. -/
def keySpace : Nat := 0x20

/-- `IBUS_Shift_L` and `IBUS_Shift_R`. -/
def isShiftKey (keyval : Nat) : Bool := keyval ∈ [0xffe1, 0xffe2]

/-- `IBUS_Control_L` and `IBUS_Control_R`. -/
def isControlKey (keyval : Nat) : Bool := keyval ∈ [0xffe3, 0xffe4]

/-- `is_modifier_keysym` (IBusKeyMapper.cpp:46): the Shift, Control, Meta, Alt,
Super and Hyper keys, the locks, `Mode_switch` and the ISO level keys. -/
def isModifierKeysym (keyval : Nat) : Bool :=
  isShiftKey keyval || isControlKey keyval ||
    keyval ∈ [0xffe5, 0xffe6, 0xffe7, 0xffe8, 0xffe9, 0xffea, 0xffeb, 0xffec, 0xffed, 0xffee,
      0xff7f, 0xff14, 0xff7e, 0xfe03, 0xfe04, 0xfe11]

/-- `is_ascii_punctuation` (IBusKeyMapper.cpp:37). -/
def isAsciiPunctuation (keyval : Nat) : Bool :=
  ('!'.toNat ≤ keyval && keyval ≤ '/'.toNat) || (':'.toNat ≤ keyval && keyval ≤ '@'.toNat) ||
    ('['.toNat ≤ keyval && keyval ≤ '`'.toNat) || ('{'.toNat ≤ keyval && keyval ≤ '~'.toNat)

/-! ## Translation -/

/-- `IBusKeyDisposition` (IBusKeyMapper.h:9). -/
inductive IBusKeyDisposition where
  | ignore
  | forward
  | dispatch
  deriving DecidableEq, Repr

/-- `IBusKeyTranslation` (IBusKeyMapper.h:16). -/
structure IBusKeyTranslation where
  disposition : IBusKeyDisposition := .ignore
  event : FrontendKeyEvent := {}
  deriving DecidableEq, Repr

/-- `dispatch` (IBusKeyMapper.cpp:14). -/
def dispatchKey (key : FrontendKey) (shiftOnly : Bool) : IBusKeyTranslation :=
  { disposition := .dispatch, event := { key := key, shiftOnly := shiftOnly } }

/-- `forward` (IBusKeyMapper.cpp:23). -/
def forwardKey : IBusKeyTranslation :=
  { disposition := .forward, event := { hostShortcut := true } }

/-- The keys with a name of their own (IBusKeyMapper.cpp:180). -/
def namedKey (keyval : Nat) : Option FrontendKey :=
  if keyval = 0xff08 then some .backspace
  else if keyval = 0xff0d ∨ keyval = 0xff8d then some .enter
  else if keyval = 0xff1b then some .escape
  else if keyval = keySpace then some .space
  else if keyval = 0xff52 ∨ keyval = 0xff97 then some .up
  else if keyval = 0xff54 ∨ keyval = 0xff99 then some .down
  else if keyval = 0xff55 ∨ keyval = 0xff9a ∨ keyval = 0xfe20 then some .pageUp
  else if keyval = 0xff56 ∨ keyval = 0xff9b ∨ keyval = 0xff09 then some .pageDown
  else none

/-- The keys that stand for a character (IBusKeyMapper.cpp:209). -/
def characterKey (keyval : Nat) (shiftOnly : Bool) : IBusKeyTranslation :=
  if '0'.toNat ≤ keyval ∧ keyval ≤ '9'.toNat then
    { disposition := .dispatch
      event := { key := .digit, digit := keyval - '0'.toNat, shiftOnly := shiftOnly } }
  else if 0xffb0 ≤ keyval ∧ keyval ≤ 0xffb9 then
    { disposition := .dispatch
      event := { key := .digit, digit := keyval - 0xffb0, shiftOnly := shiftOnly } }
  else if ('a'.toNat ≤ keyval ∧ keyval ≤ 'z'.toNat) ∨ ('A'.toNat ≤ keyval ∧ keyval ≤ 'Z'.toNat) then
    { disposition := .dispatch
      event := { key := .character, character := Char.ofNat keyval, shiftOnly := shiftOnly } }
  else if isAsciiPunctuation keyval then
    { disposition := .dispatch
      event := { key := .punctuation, character := Char.ofNat keyval, shiftOnly := shiftOnly } }
  else forwardKey

/-- `translate_ibus_key` (IBusKeyMapper.cpp:149). -/
def translateIbusKey (keyval state : Nat) : IBusKeyTranslation :=
  if isRelease state then {}
  else if isModifierKeysym keyval then {}
  else
    let hotkeyModifiers := state &&& hotkeyModifierMask
    let shiftOnly := hotkeyModifiers = shiftMask
    if keyval = '.'.toNat ∧ hotkeyModifiers = controlMask then dispatchKey .togglePunctuation false
    else if keyval = keySpace ∧ hotkeyModifiers = controlMask ||| shiftMask then
      dispatchKey .toggleWidth shiftOnly
    else if keyval = 'E'.toNat ∧ hotkeyModifiers = controlMask ||| shiftMask then
      dispatchKey .toggleEnglish false
    else if state &&& hostModifierMask ≠ 0 then forwardKey
    else
      match namedKey keyval with
      | some key => dispatchKey key shiftOnly
      | none => characterKey keyval shiftOnly

/-! ## Mode toggles -/

/-- `ModeToggleBindings` (IBusKeyMapper.h:25). -/
structure ModeToggleBindings where
  shift : Bool := true
  ctrl : Bool := false
  ctrlAltSpace : Bool := true
  deriving DecidableEq, Repr

/-- `IBusModeToggleTracker` (IBusKeyMapper.h:35). -/
structure ModeToggleTracker where
  bindings : ModeToggleBindings := {}
  shiftArmed : Bool := false
  ctrlArmed : Bool := false
  chordHeld : Bool := false
  deriving DecidableEq, Repr

namespace ModeToggleTracker

/-- `IBusModeToggleTracker::configure` (IBusKeyMapper.cpp:77): a binding that is
switched off leaves nothing half-pressed behind. -/
def configure (t : ModeToggleTracker) (bindings : ModeToggleBindings) : ModeToggleTracker where
  bindings := bindings
  shiftArmed := t.shiftArmed && bindings.shift
  ctrlArmed := t.ctrlArmed && bindings.ctrl
  chordHeld := t.chordHeld && bindings.ctrlAltSpace

/-- The event is the press of Ctrl+Alt+Space (IBusKeyMapper.cpp:102). -/
def isChord (t : ModeToggleTracker) (keyval state : Nat) : Bool :=
  t.bindings.ctrlAltSpace && !isRelease state && keyval = keySpace &&
    state &&& hotkeyModifierMask = controlMask ||| mod1Mask

/-- A lone modifier: `armed` and `enabled` are those of the key, `others` the
modifiers that must not be down with it (IBusKeyMapper.cpp:122). The value is
whether to toggle, and whether the key is armed now. -/
def observeModifier (armed enabled : Bool) (others state : Nat) : Bool × Bool :=
  if !isRelease state then (false, enabled && state &&& others = 0)
  else (armed && enabled && state &&& others = 0, false)

/-- `IBusModeToggleTracker::observe` (IBusKeyMapper.cpp:98). -/
def observe (t : ModeToggleTracker) (keyval state : Nat) : Bool × ModeToggleTracker :=
  if t.isChord keyval state then (!t.chordHeld, { t with chordHeld := true })
  else if isShiftKey keyval then
    let (toggle, armed) := observeModifier t.shiftArmed t.bindings.shift hostModifierMask state
    (toggle, { t with
      shiftArmed := armed
      -- pressing one tracked modifier disarms the other; releasing it does not
      ctrlArmed := t.ctrlArmed && isRelease state
      chordHeld := false })
  else if isControlKey keyval then
    let (toggle, armed) := observeModifier t.ctrlArmed t.bindings.ctrl
      (mod1Mask ||| mod4Mask ||| superMask ||| metaMask) state
    (toggle, { t with
      shiftArmed := t.shiftArmed && isRelease state
      ctrlArmed := armed
      chordHeld := false })
  else (false, { t with shiftArmed := false, ctrlArmed := false, chordHeld := false })

/-- A toggle that is not the chord is the release of a modifier. -/
theorem observe_release (t : ModeToggleTracker) {keyval state : Nat}
    (htoggle : (t.observe keyval state).1 = true)
    (hchord : (t.observe keyval state).2.chordHeld = false) : isRelease state = true := by
  have hmodifier : ∀ armed enabled others,
      (observeModifier armed enabled others state).1 = true → isRelease state = true := by
    intro armed enabled others h
    by_contra hpress
    rw [Bool.not_eq_true] at hpress
    simp [observeModifier, hpress] at h
  unfold observe at htoggle hchord
  split at htoggle
  · next hc => simp [hc] at hchord
  split at htoggle
  · exact hmodifier _ _ _ htoggle
  split at htoggle
  · exact hmodifier _ _ _ htoggle
  · cases htoggle

end ModeToggleTracker

/-- A release is ignored. -/
theorem translateIbusKey_release {keyval state : Nat} (h : isRelease state = true) :
    translateIbusKey keyval state = {} := by
  simp [translateIbusKey, h]

end MsimeLinux
