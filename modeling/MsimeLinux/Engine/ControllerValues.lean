import MsimeLinux.Input.Routines
import MsimeLinux.Settings.InputSettings

/-!
# What a settings save takes over from the controller (`IBusEngine.cpp`)

`save_settings` reads 27 accessors of the controller. `ControllerValues` is what they return,
with the setters as far as they change them; a new controller is made of a record, and what
the user turns changes four of the values.

- `InputSettings.capture`: the record that a save leaves.
- `InputSettings.capture_create`: a new controller changes nothing of it.
- `InputController.setMode_values` and the lemmas after it: the setters are the controller's.
-/

namespace MsimeLinux

open Lib

/-! ## The values -/

/-- The accessors `save_settings` reads, and the punctuation lock, which they depend on. -/
structure ControllerValues where
  mode : InputMode := .ime
  scheme : SchemeType
  pageSize : Nat
  punctuationMode : PunctuationMode
  punctuationLock : PunctuationLock := .follow
  characterWidth : CharacterWidth
  commaPeriodPaging : Bool
  wordToCharacter : Bool
  bracketPaging : Bool
  smartPunctuation : Bool
  smartPunctuationRepeatToChinese : Bool
  pairedPunctuation : Bool
  preeditStyle : PreeditStyle
  quanpinHelpcodeEnabled : Bool
  quanpinHelpcodeSchema : Bytes
  shuangpinHelpcodeEnabled : Bool
  shuangpinHelpcodeSchema : Bytes
  frequencyAdjustmentMode : FrequencyAdjustmentMode
  frequencyTriggerCount : Int
  frequencyLinearStep : Int
  unicodeModeEnabled : Bool
  superJianpinModeEnabled : Bool
  temporaryEnglishModeEnabled : Bool
  temporaryJapaneseModeEnabled : Bool
  mixedEnglishCandidatesEnabled : Bool
  mixedEnglishMinimumPrefix : Nat
  mixedEmojiCandidatesEnabled : Bool
  mixedKaomojiCandidatesEnabled : Bool

namespace ControllerValues

/-- The options of a new controller (`build_input_options`, IBusEngine.cpp:1027). -/
def ofSettings (s : InputSettings) : ControllerValues where
  scheme := s.scheme
  pageSize := s.pageSize
  punctuationMode := s.punctuationMode
  characterWidth := s.characterWidth
  commaPeriodPaging := s.commaPeriodPaging
  wordToCharacter := s.wordToCharacter
  bracketPaging := s.bracketPaging
  smartPunctuation := s.smartPunctuation
  smartPunctuationRepeatToChinese := s.smartPunctuationRepeatToChinese
  pairedPunctuation := s.pairedPunctuation
  preeditStyle := s.preeditStyle
  quanpinHelpcodeEnabled := s.quanpinHelpcodeEnabled
  quanpinHelpcodeSchema := s.quanpinHelpcodeSchema
  shuangpinHelpcodeEnabled := s.shuangpinHelpcodeEnabled
  shuangpinHelpcodeSchema := s.shuangpinHelpcodeSchema
  frequencyAdjustmentMode := s.frequencyAdjustmentMode
  frequencyTriggerCount := s.frequencyTriggerCount
  frequencyLinearStep := s.frequencyLinearStep
  unicodeModeEnabled := s.unicodeModeEnabled
  superJianpinModeEnabled := s.superJianpinModeEnabled
  temporaryEnglishModeEnabled := s.temporaryEnglishModeEnabled
  temporaryJapaneseModeEnabled := s.temporaryJapaneseModeEnabled
  mixedEnglishCandidatesEnabled := s.mixedEnglishCandidatesEnabled
  mixedEnglishMinimumPrefix := s.mixedEnglishMinimumPrefix
  mixedEmojiCandidatesEnabled := s.mixedEmojiCandidatesEnabled
  mixedKaomojiCandidatesEnabled := s.mixedKaomojiCandidatesEnabled

/-- The punctuation a lock asks for (`apply_punctuation_lock`, InputController.cpp:364). -/
def lockedPunctuation (c : ControllerValues) : PunctuationMode :=
  match c.punctuationLock with
  | .chinese => .chinese
  | .english => .english
  | .follow => if c.mode = .ime then .chinese else .english

/-- `set_mode` (InputController.cpp:332). -/
def setMode (c : ControllerValues) (mode : InputMode) : ControllerValues :=
  if c.mode = mode then c
  else
    let c := { c with mode := mode }
    { c with punctuationMode := c.lockedPunctuation }

/-- `set_punctuation_lock` (InputController.cpp:357). -/
def setPunctuationLock (c : ControllerValues) (lock : PunctuationLock) : ControllerValues :=
  let c := { c with punctuationLock := lock }
  { c with punctuationMode := c.lockedPunctuation }

/-- `create_controller` (IBusEngine.cpp:1063). -/
def create (s : InputSettings) : ControllerValues :=
  let c := ((ofSettings s).setMode s.mode).setPunctuationLock s.punctuationLock
  if s.punctuationLock = .follow then { c with punctuationMode := s.punctuationMode } else c

end ControllerValues

/-- What the user turns: the mode, by its keys; punctuation and width, by theirs
(IBusEngine.cpp:733 and 775); each of them and the scheme, on the panel
(IBusEngine.cpp:885). -/
inductive Turn where
  | toggleMode
  | togglePunctuation
  | toggleWidth
  | setMode (mode : InputMode)
  | setPunctuationMode (mode : PunctuationMode)
  | setCharacterWidth (width : CharacterWidth)
  /-- whether a temporary mode is on -/
  | switchScheme (scheme : SchemeType) (temporary : Bool)

namespace ControllerValues

/-- What becomes of the values, and whether a save follows. -/
def turn (c : ControllerValues) : Turn → ControllerValues × Bool
  | .toggleMode => (c.setMode (if c.mode = .ime then .direct else .ime), true)
  | .togglePunctuation =>
    ({ c with
      punctuationMode := if c.punctuationMode = .chinese then .english else .chinese }, true)
  | .toggleWidth =>
    ({ c with characterWidth := if c.characterWidth = .half then .full else .half }, true)
  | .setMode mode => (c.setMode mode, c.mode != mode)
  | .setPunctuationMode mode => ({ c with punctuationMode := mode }, c.punctuationMode != mode)
  | .setCharacterWidth width => ({ c with characterWidth := width }, c.characterWidth != width)
  | .switchScheme scheme temporary =>
    ({ c with scheme := scheme }, c.scheme != scheme || temporary)

end ControllerValues

/-- What `save_settings` takes over from the controller (IBusEngine.cpp:488). -/
def InputSettings.capture (s : InputSettings) (c : ControllerValues) : InputSettings :=
  { s with
    mode := c.mode
    scheme := c.scheme
    pageSize := c.pageSize
    punctuationMode := c.punctuationMode
    characterWidth := c.characterWidth
    commaPeriodPaging := c.commaPeriodPaging
    wordToCharacter := c.wordToCharacter
    bracketPaging := c.bracketPaging
    smartPunctuation := c.smartPunctuation
    smartPunctuationRepeatToChinese := c.smartPunctuationRepeatToChinese
    pairedPunctuation := c.pairedPunctuation
    preeditStyle := c.preeditStyle
    quanpinHelpcodeEnabled := c.quanpinHelpcodeEnabled
    quanpinHelpcodeSchema := c.quanpinHelpcodeSchema
    shuangpinHelpcodeEnabled := c.shuangpinHelpcodeEnabled
    shuangpinHelpcodeSchema := c.shuangpinHelpcodeSchema
    frequencyAdjustmentMode := c.frequencyAdjustmentMode
    frequencyTriggerCount := c.frequencyTriggerCount
    frequencyLinearStep := c.frequencyLinearStep
    unicodeModeEnabled := c.unicodeModeEnabled
    superJianpinModeEnabled := c.superJianpinModeEnabled
    temporaryEnglishModeEnabled := c.temporaryEnglishModeEnabled
    temporaryJapaneseModeEnabled := c.temporaryJapaneseModeEnabled
    mixedEnglishCandidatesEnabled := c.mixedEnglishCandidatesEnabled
    mixedEnglishMinimumPrefix := c.mixedEnglishMinimumPrefix
    mixedEmojiCandidatesEnabled := c.mixedEmojiCandidatesEnabled
    mixedKaomojiCandidatesEnabled := c.mixedKaomojiCandidatesEnabled }

/-! ## What is taken over -/

/-- What a save takes over is what a file can keep. -/
theorem InputSettings.capture_persisted (s : InputSettings) (c : ControllerValues) :
    (s.capture c).persisted = s.persisted.capture c := rfl

/-- A new controller has the record, if its lock leaves the punctuation alone. -/
theorem InputSettings.capture_create {s : InputSettings} (h : s.punctuationLock = .follow) :
    s.capture (.create s) = s := by
  cases s with
  | mk mode =>
    obtain rfl : _ = PunctuationLock.follow := h
    cases mode <;> rfl

/-- Turning something that no save follows changes nothing. -/
theorem ControllerValues.turn_unsaved {c : ControllerValues} {turn : Turn}
    (h : (c.turn turn).2 = false) : (c.turn turn).1 = c := by
  cases turn with
  | toggleMode | togglePunctuation | toggleWidth => cases h
  | setMode mode => exact if_pos (bne_eq_false_iff_eq.mp h)
  | setPunctuationMode mode =>
    rw [ControllerValues.turn, ← bne_eq_false_iff_eq.mp h]
  | setCharacterWidth width =>
    rw [ControllerValues.turn, ← bne_eq_false_iff_eq.mp h]
  | switchScheme scheme temporary =>
    obtain ⟨hscheme, -⟩ := Bool.or_eq_false_iff.mp h
    rw [ControllerValues.turn, ← bne_eq_false_iff_eq.mp hscheme]

/-! ## The controller's own setters -/

namespace InputController

variable {σ : Type} {S : SessionApi σ}

/-- What the accessors of a controller return. -/
def values (c : InputController σ) : ControllerValues where
  mode := c.mode
  scheme := c.scheme
  pageSize := c.pageSize
  punctuationMode := c.punctuationMode
  punctuationLock := c.punctuationLock
  characterWidth := c.characterWidth
  commaPeriodPaging := c.commaPeriodPaging
  wordToCharacter := c.wordToCharacter
  bracketPaging := c.bracketPaging
  smartPunctuation := c.smartPunctuation
  smartPunctuationRepeatToChinese := c.smartPunctuationRepeatToChinese
  pairedPunctuation := c.pairedPunctuation
  preeditStyle := c.preeditStyle
  quanpinHelpcodeEnabled := c.quanpinHelpcodeEnabled
  quanpinHelpcodeSchema := utf8 c.quanpinHelpcodeSchema
  shuangpinHelpcodeEnabled := c.shuangpinHelpcodeEnabled
  shuangpinHelpcodeSchema := utf8 c.shuangpinHelpcodeSchema
  frequencyAdjustmentMode := c.frequencyAdjustmentMode
  frequencyTriggerCount := c.frequencyTriggerCount
  frequencyLinearStep := c.frequencyLinearStep
  unicodeModeEnabled := c.localModeOptions.unicode
  superJianpinModeEnabled := c.localModeOptions.superJianpin
  temporaryEnglishModeEnabled := c.localModeOptions.temporaryEnglish
  temporaryJapaneseModeEnabled := c.localModeOptions.temporaryJapanese
  mixedEnglishCandidatesEnabled := c.englishInputOptions.mixedCandidates
  mixedEnglishMinimumPrefix := c.englishInputOptions.minimumPrefix
  mixedEmojiCandidatesEnabled := c.mixedExpressiveOptions.emojiCandidates
  mixedKaomojiCandidatesEnabled := c.mixedExpressiveOptions.kaomojiCandidates

theorem setPunctuationMode_values (c : InputController σ) (mode : PunctuationMode) (n : Nat) :
    Ensures (c.setPunctuationMode mode) n fun r _ =>
      r.2.values = { c.values with punctuationMode := mode } := by
  refine (c.setPunctuationMode_spec mode n).mono fun r _ hr => ?_
  obtain ⟨handled, g, rfl⟩ := hr
  rfl

theorem setCharacterWidth_values (c : InputController σ) (width : CharacterWidth) (n : Nat) :
    Ensures (c.setCharacterWidth width) n fun r _ =>
      r.2.values = { c.values with characterWidth := width } := by
  refine (c.setCharacterWidth_spec width n).mono fun r _ hr => ?_
  obtain ⟨handled, g, rfl⟩ := hr
  rfl

theorem setPunctuationLock_values (c : InputController σ) (lock : PunctuationLock) (n : Nat) :
    Ensures (c.setPunctuationLock lock) n fun d _ =>
      d.values = c.values.setPunctuationLock lock := by
  refine (applyPunctuationLock_spec _ n).mono fun d _ hd => ?_
  obtain ⟨g, rfl⟩ := hd
  rfl

/-- A session call leaves everything but the scheme to the controller. -/
theorem finishForMode_values (c : InputController σ) (mode : InputMode) (n : Nat) :
    Ensures (c.finishForMode S mode) n fun r _ => ∃ s t k g, r.2 = { c with
      session := s
      snapshot := t
      highlightedCandidate := k
      onlineGeneration := g } := by
  unfold finishForMode
  split
  · refine (finishCall_spec c _ n).mono fun r _ hr => ?_
    obtain ⟨-, k, g, hd⟩ := hr
    exact ⟨_, _, k, g, hd⟩
  · exact .pure ⟨_, _, _, _, rfl⟩

theorem setMode_values (c : InputController σ) (mode : InputMode) (n : Nat) :
    Ensures (c.setMode S mode) n fun r _ =>
      r.2.values = { c.values.setMode mode with scheme := r.2.scheme } := by
  unfold setMode
  dsimp only
  split
  · next hsame =>
    have hset : c.values.setMode mode = c.values := if_pos hsame
    refine .pure ?_
    rw [hset]
    rfl
  · next hother =>
    have hset : c.values.setMode mode = { c.values with
        mode := mode
        punctuationMode := ({ c.values with mode := mode }).lockedPunctuation } := if_neg hother
    refine .seq (finishForMode_values _ mode n) fun r n' hr => ?_
    obtain ⟨result, d⟩ := r
    obtain ⟨s, t, k, g, rfl⟩ := hr
    refine .seq (applyPunctuationLock_spec _ n') fun e n'' he => ?_
    obtain ⟨g', rfl⟩ := he
    refine .seq (renewGeneration_spec _ n'') fun f _ hf => .pure ?_
    obtain ⟨g'', rfl⟩ := hf
    rw [hset]
    rfl

/-- A session decides on the scheme it is in. -/
theorem switchScheme_values (c : InputController σ) (scheme : SchemeType) (n : Nat) :
    Ensures (c.switchScheme S scheme) n fun r _ =>
      r.2.values = { c.values with scheme := r.2.scheme } := by
  unfold switchScheme
  dsimp only
  split
  · exact .pure rfl
  · refine .seq (finishCall_spec _ _ n) fun r n' hr => ?_
    obtain ⟨result, d⟩ := r
    obtain ⟨rfl, k, g, rfl⟩ := hr
    dsimp only
    generalize hd : selectActiveHelpcodeSchema S _ = d
    obtain ⟨s, hs⟩ := selectActiveHelpcodeSchema_spec (S := S) _
    rw [hs] at hd
    subst hd
    refine .seq (renewGeneration_spec _ n') fun e _ he => .pure ?_
    obtain ⟨g', rfl⟩ := he
    rfl

end InputController

end MsimeLinux
