import MsimeLinux.Input.KeyMapper
import MsimeLinux.Input.OnlineDelivery

/-!
# What the engine does with a controller result (`IBusEngine.cpp`)

The IBus engine turns each `ControllerResult` into calls on the client
(`applyResult`) and each key event into calls on the controller
(`processKeyEvent`). Preedit, lookup table, properties and the settings file are
other outputs of the same functions; none of them carries text of the document,
and they are left out here.

`Operation.perform` is a public method of the controller together with what it asks
of the client.
-/

namespace MsimeLinux

open Lib InputController

variable {σ : Type} (S : SessionApi σ)

/-! ## The client -/

/-- The calls of `apply_result` that reach the application's text. -/
inductive ClientAction where
  | deleteSurrounding (count : Nat)
  | commitText (text : Text)
  | forwardLeft
  | forwardRight
  deriving DecidableEq, Repr

/-- `std::numeric_limits<gint>::max()`. -/
def maxGint : Nat := 2147483647

/-- `apply_result` (IBusEngine.cpp:611): delete, commit, then move the caret. -/
def applyResult (result : ControllerResult) : List ClientAction :=
  (if 0 < result.deleteBefore then [.deleteSurrounding (min result.deleteBefore maxGint)]
    else []) ++
  (match result.commit with
    | some text => [.commitText text]
    | none => []) ++
  List.replicate result.cursorLeft .forwardLeft ++
  List.replicate result.cursorRight .forwardRight

/-- The text a list of actions commits. -/
def committedText : List ClientAction → Text
  | [] => []
  | .commitText text :: actions => text ++ committedText actions
  | _ :: actions => committedText actions

/-! ## The controller's methods, with their results -/

namespace Operation

/-- A method that returns nothing asks for nothing. -/
def quietly (op : Draw (InputController σ)) : Draw (ControllerResult × InputController σ) := do
  return ({}, ← op)

/-- The mutating public methods of `InputController` (InputController.h:119),
with what each returns. -/
def perform (c : InputController σ) : Operation → Draw (ControllerResult × InputController σ)
  | handleKey event now => c.handleKey S event now
  | selectCandidate absoluteIndex => c.selectCandidate S absoluteIndex
  | selectPageCandidate pageIndex => c.selectPageCandidate S pageIndex
  | setMode mode => c.setMode S mode
  | toggleMode => c.toggleMode S
  | setPunctuationMode mode => c.setPunctuationMode mode
  | setPunctuationLock lock => quietly (c.setPunctuationLock lock)
  | togglePunctuationMode => c.togglePunctuationMode
  | setCharacterWidth width => c.setCharacterWidth width
  | toggleCharacterWidth => c.toggleCharacterWidth
  | toggleDedicatedEnglishMode => c.toggleDedicatedEnglishMode S
  | switchScheme schemeType => c.switchScheme S schemeType
  | reset => quietly (c.reset S)
  | invalidateContext => quietly c.invalidateContext

end Operation

/-! ## Key events -/

/-- The members of `MetasequoiaEngine` a key event goes through. -/
structure KeyEngine (σ : Type) where
  controller : InputController σ
  modeToggle : ModeToggleTracker

/-- One key event of the client, with what the engine reads while it handles it:
the character in front of the caret (`preceding_character`, IBusEngine.cpp:671)
and the clock. -/
structure KeyInput where
  keyval : Nat
  state : Nat
  precedingCharacter : Option Char
  now : Int
  deriving DecidableEq, Repr

/-- What came of a key event: `process_key_event`'s return value, and the calls
on the client it made, in order. -/
structure KeyOutcome where
  consumed : Bool
  actions : List ClientAction
  deriving DecidableEq, Repr

/-- What the application sees of a key event. -/
inductive ClientEvent where
  | action (action : ClientAction)
  | key (keyval state : Nat)
  deriving DecidableEq, Repr

/-- The calls made while the key was handled come first; a key that was not
consumed follows them. -/
def KeyOutcome.seen (outcome : KeyOutcome) (input : KeyInput) : List ClientEvent :=
  outcome.actions.map .action ++
    if outcome.consumed then [] else [.key input.keyval input.state]

/-- The event `process_key_event` dispatches (IBusEngine.cpp:763). -/
def KeyInput.event (input : KeyInput) : FrontendKeyEvent :=
  let event := (translateIbusKey input.keyval input.state).event
  if event.key = .punctuation then { event with precedingCharacter := input.precedingCharacter }
  else event

/-- `commit_for_passthrough` (IBusEngine.cpp:717). -/
def commitForPassthrough (c : InputController σ) (now : Int) :
    Draw (List ClientAction × InputController σ) := do
  let (result, c) ← c.handleKey S { hostShortcut := true } now
  return (applyResult result, c)

/-- A key for the controller (IBusEngine.cpp:768): what it does not handle goes
to the application, behind whatever was still being composed. -/
def dispatchEvent (c : InputController σ) (event : FrontendKeyEvent) (now : Int) :
    Draw (KeyOutcome × InputController σ) := do
  let (result, c) ← c.handleKey S event now
  if result.handled then return (⟨true, applyResult result⟩, c)
  let (actions, c) ← commitForPassthrough S c now
  return (⟨false, actions⟩, c)

/-- A key that toggles nothing, by its translation (IBusEngine.cpp:752). -/
def translatedKey (c : InputController σ) (input : KeyInput) :
    Draw (KeyOutcome × InputController σ) := do
  match (translateIbusKey input.keyval input.state).disposition with
  | .ignore => return (⟨false, []⟩, c)
  | .forward =>
    let (actions, c) ← commitForPassthrough S c input.now
    return (⟨false, actions⟩, c)
  | .dispatch => dispatchEvent S c input.event input.now

/-- `process_key_event` (IBusEngine.cpp:728). -/
def processKeyEvent (engine : KeyEngine σ) (input : KeyInput) :
    Draw (KeyOutcome × KeyEngine σ) := do
  let (toggle, modeToggle) := engine.modeToggle.observe input.keyval input.state
  if toggle then
    let (result, controller) ← engine.controller.toggleMode S
    return (⟨modeToggle.chordHeld, applyResult result⟩, ⟨controller, modeToggle⟩)
  -- the auto-repeat of the chord is the engine's own
  if modeToggle.chordHeld then return (⟨true, []⟩, ⟨engine.controller, modeToggle⟩)
  let (outcome, controller) ← translatedKey S engine.controller input
  return (outcome, ⟨controller, modeToggle⟩)

end MsimeLinux
