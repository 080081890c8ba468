import MsimeLinux.Input.Frontend
import MsimeLinux.Input.Routines

/-!
# No text is lost around a key that is passed through

A key the controller does not want goes to the application, behind the text of
whatever was still being composed.

- `SessionApi.recording`: the session with a record of every text it commits.
  Comparing the record with what the client was given says that nothing was
  dropped and nothing was given twice.
- `Declines`: an unhandled result asks for nothing, and its session is the one
  before the key. One lemma for each operation, up to `handleKey_declines`.
- `passThrough_keepsText`: a key that is not consumed arrives after exactly the
  text the session committed, with no composition left.
-/

namespace MsimeLinux

open Lib InputController

variable {σ : Type} {S : SessionApi σ}

/-! ## What the session promises -/

namespace SessionApi

/-- A call that reports "not handled" commits no text. -/
structure UnhandledSilent (S : SessionApi σ) : Prop where
  character : ∀ s ch shift, (S.character s ch shift).1.handled = false →
    (S.character s ch shift).1.commit = none
  command : ∀ s c, (S.command s c).1.handled = false → (S.command s c).1.commit = none
  select : ∀ s i, (S.select s i).1.handled = false → (S.select s i).1.commit = none
  selectEdge : ∀ s i e, (S.selectEdge s i e).1.handled = false →
    (S.selectEdge s i e).1.commit = none
  finish : ∀ s i, (S.finish s i).1.handled = false → (S.finish s i).1.commit = none

/-- `finish` leaves no composition behind. -/
def FinishEnds (S : SessionApi σ) : Prop :=
  ∀ s i, (S.snapshot (S.finish s i).2).preedit = []

/-- A call's outcome, its text added to the record. -/
def record (call : KeyResult × σ) (committed : Text) : KeyResult × (σ × Text) :=
  (call.1, call.2, committed ++ call.1.commit.getD [])

/-- The session `S`, keeping a record of the text it commits. -/
def recording (S : SessionApi σ) : SessionApi (σ × Text) where
  isSupportedHelpcodeSchema := S.isSupportedHelpcodeSchema
  create options := (S.create options).map fun s => (s, [])
  snapshot s := S.snapshot s.1
  character s ch shift := record (S.character s.1 ch shift) s.2
  command s c := record (S.command s.1 c) s.2
  select s i := record (S.select s.1 i) s.2
  selectEdge s i e := record (S.selectEdge s.1 i e) s.2
  finish s i := record (S.finish s.1 i) s.2
  setDedicatedEnglish s enabled := (S.setDedicatedEnglish s.1 enabled, s.2)
  switchScheme s scheme := (S.switchScheme s.1 scheme, s.2)
  setHelpcodeEnabled s enabled := (S.setHelpcodeEnabled s.1 enabled, s.2)
  setHelpcodeSchema s schema := (S.setHelpcodeSchema s.1 schema, s.2)
  onlineQuery s := S.onlineQuery s.1
  applyOnlineCandidate s query candidate source :=
    let r := S.applyOnlineCandidate s.1 query candidate source
    (r.1, r.2, s.2)

/-- A call that was not handled changed nothing and committed nothing. -/
def Declined (s : σ) (call : KeyResult × σ) : Prop :=
  call.1.handled = false → call.2 = s ∧ call.1.commit = none

theorem record_declined {s : σ} {call : KeyResult × σ} {committed : Text}
    (h : Declined s call) : Declined (s, committed) (record call committed) := by
  intro hunhandled
  obtain ⟨hsame, hsilent⟩ := h hunhandled
  refine ⟨?_, hsilent⟩
  show (call.2, committed ++ call.1.commit.getD []) = (s, committed)
  rw [hsame, hsilent]
  simp

/-- Recording does not change what the session promises. -/
theorem recording_unhandledSilent (hS : S.UnhandledSilent) : S.recording.UnhandledSilent where
  character s := hS.character s.1
  command s := hS.command s.1
  select s := hS.select s.1
  selectEdge s := hS.selectEdge s.1
  finish s := hS.finish s.1

theorem recording_unhandledUnchanged (hS : S.UnhandledUnchanged) (hsilent : S.UnhandledSilent) :
    S.recording.UnhandledUnchanged where
  character s ch shift h :=
    (record_declined (fun h => ⟨hS.character s.1 ch shift h, hsilent.character s.1 ch shift h⟩) h).1
  command s c h :=
    (record_declined (fun h => ⟨hS.command s.1 c h, hsilent.command s.1 c h⟩) h).1
  select s i h :=
    (record_declined (fun h => ⟨hS.select s.1 i h, hsilent.select s.1 i h⟩) h).1
  selectEdge s i e h :=
    (record_declined (fun h => ⟨hS.selectEdge s.1 i e h, hsilent.selectEdge s.1 i e h⟩) h).1
  finish s i h :=
    (record_declined (fun h => ⟨hS.finish s.1 i h, hsilent.finish s.1 i h⟩) h).1
  applyOnlineCandidate s query candidate source h := by
    show ((S.applyOnlineCandidate s.1 query candidate source).2, s.2) = s
    rw [hS.applyOnlineCandidate s.1 query candidate source h]

end SessionApi

/-! ## Unhandled results ask for nothing -/

/-- The result asks for no commit, no deletion and no caret move. -/
structure ControllerResult.AsksNothing (result : ControllerResult) : Prop where
  commit : result.commit = none
  deleteBefore : result.deleteBefore = 0
  cursorLeft : result.cursorLeft = 0
  cursorRight : result.cursorRight = 0

namespace InputController

/-- What an operation leaves when it reports "not handled". -/
abbrev Declines (op : Draw (ControllerResult × InputController σ)) (c : InputController σ)
    (n : Nat) : Prop :=
  Ensures op n fun r _ => r.1.handled = false → r.1.AsksNothing ∧ r.2.session = c.session

/-- A result that says "handled" declines nothing. -/
theorem declines_handled {c d : InputController σ} {result : ControllerResult} {n : Nat}
    (h : result.handled = true) : Declines (pure (result, d)) c n :=
  .pure fun hunhandled => by rw [h] at hunhandled; cases hunhandled

theorem finishCall_declines (c : InputController σ) {call : KeyResult × σ} (n : Nat)
    (hcall : SessionApi.Declined c.session call) : Declines (c.finishCall S call) c n := by
  unfold finishCall finishCompositionMutation
  dsimp only
  split
  · next hhandled =>
    refine .seq (renewGeneration_ensures _ n) fun d n' _ => ?_
    exact declines_handled hhandled
  · next hunhandled =>
    obtain ⟨hsame, hsilent⟩ := hcall (by simpa [ControllerResult.ofKeyResult] using hunhandled)
    exact .pure fun _ => ⟨⟨hsilent, rfl, rfl, rfl⟩, hsame⟩

theorem commitFullWidth_declines (c : InputController σ) (ascii : Char) (n : Nat) :
    Declines (pure (c.commitFullWidth ascii, c)) c n := by
  unfold commitFullWidth
  split
  · exact .pure fun _ => ⟨⟨rfl, rfl, rfl, rfl⟩, rfl⟩
  · dsimp only
    split
    · exact .pure fun _ => ⟨⟨rfl, rfl, rfl, rfl⟩, rfl⟩
    · exact declines_handled rfl

theorem typePunctuation_handled (c : InputController σ) (result : ControllerResult)
    (ascii : Char) (punctuation : Text) (precedingCharacter : Option Char) (now : Int) :
    (c.typePunctuation result ascii punctuation precedingCharacter now).1.handled = true := by
  unfold typePunctuation
  dsimp only
  split
  · rfl
  · split <;> rfl

theorem setPunctuationMode_handled (c : InputController σ) {mode : PunctuationMode}
    (hmode : c.punctuationMode ≠ mode) (n : Nat) :
    Ensures (c.setPunctuationMode mode) n fun r _ => r.1.handled = true := by
  unfold setPunctuationMode
  dsimp only
  split
  · next hsame => exact absurd hsame hmode
  · exact .seq (renewGeneration_ensures _ n) fun _ _ _ => .pure rfl

theorem setCharacterWidth_handled (c : InputController σ) {width : CharacterWidth}
    (hwidth : c.characterWidth ≠ width) (n : Nat) :
    Ensures (c.setCharacterWidth width) n fun r _ => r.1.handled = true := by
  unfold setCharacterWidth
  dsimp only
  split
  · next hsame => exact absurd hsame hwidth
  · exact .seq (renewGeneration_ensures _ n) fun _ _ _ => .pure rfl

/-- A toggle always changes something, so the key is the engine's. -/
theorem toggles_handled (c : InputController σ) (n : Nat) :
    Ensures c.togglePunctuationMode n (fun r _ => r.1.handled = true) ∧
    Ensures c.toggleCharacterWidth n (fun r _ => r.1.handled = true) ∧
    Ensures (c.toggleDedicatedEnglishMode S) n (fun r _ => r.1.handled = true) := by
  refine ⟨?_, ?_, ?_⟩
  · exact c.setPunctuationMode_handled (by split <;> simp_all) n
  · exact c.setCharacterWidth_handled (by split <;> simp_all) n
  · unfold toggleDedicatedEnglishMode
    dsimp only
    split
    · exact .pure rfl
    · exact .bind fun _ n' _ => .seq (renewGeneration_ensures _ n') fun _ _ _ => .pure rfl

variable (hS : S.UnhandledUnchanged) (hsilent : S.UnhandledSilent)
include hS hsilent

/-- Every call a key makes declines when it reports "not handled". -/
theorem call_declined {s : σ} {call : KeyResult × σ} (h : S.Call s call) :
    SessionApi.Declined s call := by
  intro hunhandled
  cases h with
  | character ch shift =>
    exact ⟨hS.character s ch shift hunhandled, hsilent.character s ch shift hunhandled⟩
  | command command =>
    exact ⟨hS.command s command hunhandled, hsilent.command s command hunhandled⟩
  | select i => exact ⟨hS.select s i hunhandled, hsilent.select s i hunhandled⟩
  | selectEdge i edge =>
    exact ⟨hS.selectEdge s i edge hunhandled, hsilent.selectEdge s i edge hunhandled⟩
  | finish i => exact ⟨hS.finish s i hunhandled, hsilent.finish s i hunhandled⟩

/-- A mark is typed and the key handled, or there was nothing to type and the
result is that of finishing the composition. -/
theorem commitPunctuation_declines (c : InputController σ) (ascii : Char)
    (precedingCharacter : Option Char) (now : Int) (n : Nat) :
    Declines (c.commitPunctuation S ascii precedingCharacter now) c n := by
  unfold commitPunctuation
  refine .seq (c.finishCall_declines n (call_declined hS hsilent (.finish _)))
    fun r n' hfinish => ?_
  obtain ⟨result, d⟩ := r
  dsimp only at hfinish ⊢
  split
  · exact declines_handled rfl
  generalize hd : (if d.canReplaceRecentAscii c.hasComposition ascii
    (precedingAfterCommit result.commit precedingCharacter) now = true then _ else d) = e
  have hsession : e.session = d.session := by
    rw [← hd]
    split <;> rfl
  split
  · exact .pure fun hunhandled =>
      ⟨(hfinish hunhandled).1, hsession.trans (hfinish hunhandled).2⟩
  · exact declines_handled (typePunctuation_handled ..)

/-- A key the controller does not handle asks for nothing and leaves the session
alone. -/
theorem handleKey_declines (c : InputController σ) (event : FrontendKeyEvent) (now : Int)
    (n : Nat) (hhost : event.hostShortcut = false) :
    Declines (c.handleKey S event now) c n := by
  have hsame : (c.recalled event).session = c.session := by
    unfold recalled
    split <;> rfl
  have htoggle : ∀ {op : Draw (ControllerResult × InputController σ)},
      Ensures op n (fun r _ => r.1.handled = true) → Declines op c n :=
    fun h => h.mono fun r _ hhandled hunhandled => by rw [hhandled] at hunhandled; cases hunhandled
  rcases c.handleKey_routine (S := S) event now hhost with ⟨-, h⟩ | ⟨-, h⟩ | ⟨-, h⟩ | h
  · rw [h]
    exact htoggle (toggles_handled (S := S) _ n).1
  · rw [h]
    exact htoggle (toggles_handled (S := S) _ n).2.1
  · rw [h]
    exact htoggle (toggles_handled _ n).2.2
  · unfold Declines
    rw [← hsame]
    generalize c.handleKey S event now = op at h
    cases h with
    | call hcall => exact finishCall_declines _ n (call_declined hS hsilent hcall)
    | move handled k hs => exact .pure fun _ => ⟨⟨rfl, rfl, rfl, rfl⟩, hs.eq hS⟩
    | punctuation _ hs =>
      rw [hs.eq hS]
      exact commitPunctuation_declines hS hsilent _ _ _ _ n
    | widen ch _ hs =>
      rw [hs.eq hS]
      exact commitFullWidth_declines _ ch n

end InputController

/-! ## Passing a key through -/

open SessionApi

/-- Ending the composition for a key that is passed through: the client is given
exactly what the session commits, and nothing is left to compose. -/
theorem commitForPassthrough_emits (hfinish : S.FinishEnds) (c : InputController (σ × Text))
    (now : Int) (n : Nat) :
    Ensures (commitForPassthrough S.recording c now) n fun r _ =>
      r.2.hasComposition = false ∧ (S.snapshot r.2.session.1).preedit = [] ∧
      r.2.session.2 = c.session.2 ++ committedText r.1 ∧
      ∀ action ∈ r.1, ∃ text, action = .commitText text := by
  have hsame : (c.recalled { hostShortcut := true }).session = c.session := by
    unfold recalled
    split <;> rfl
  unfold commitForPassthrough
  rw [handleKey_hostShortcut _ _ _ rfl]
  generalize c.recalled { hostShortcut := true } = d at hsame
  rw [← hsame, bind_assoc]
  -- the composition is finished, and only then is the context forgotten
  refine .seq (finishCall_spec d _ n) fun r n' hr => ?_
  obtain ⟨result, e⟩ := r
  obtain ⟨rfl, k, g, rfl⟩ := hr
  rw [bind_assoc]
  refine .seq (invalidateContext_spec _ n') fun e _ he => .pure ?_
  obtain ⟨g', rfl⟩ := he
  have hempty := hfinish d.session.1 d.highlightedCandidate
  refine ⟨?_, hempty, ?_, ?_⟩
  · unfold hasComposition
    rw [decide_eq_false_iff_not, not_not]
    exact hempty
  · show d.session.2 ++ (S.finish d.session.1 d.highlightedCandidate).1.commit.getD [] = _
    congr 1
    simp only [applyResult, ControllerResult.ofKeyResult, recording, record]
    cases (S.finish d.session.1 d.highlightedCandidate).1.commit <;> simp [committedText]
  · intro action haction
    simp only [applyResult, ControllerResult.ofKeyResult, recording, record] at haction
    cases hcommit : (S.finish d.session.1 d.highlightedCandidate).1.commit with
    | none => simp [hcommit] at haction
    | some text => exact ⟨text, by simpa [hcommit] using haction⟩

variable (hS : S.UnhandledUnchanged) (hsilent : S.UnhandledSilent) (hfinish : S.FinishEnds)
include hS hsilent hfinish

/-- A key that was dispatched and not consumed. -/
theorem dispatchEvent_emits (c : InputController (σ × Text)) (event : FrontendKeyEvent)
    (now : Int) (n : Nat) (hhost : event.hostShortcut = false) :
    Ensures (dispatchEvent S.recording c event now) n fun r _ => r.1.consumed = false →
      r.2.hasComposition = false ∧ (S.snapshot r.2.session.1).preedit = [] ∧
      r.2.session.2 = c.session.2 ++ committedText r.1.actions ∧
      ∀ action ∈ r.1.actions, ∃ text, action = .commitText text := by
  unfold dispatchEvent
  refine .seq (handleKey_declines (recording_unhandledUnchanged hS hsilent)
    (recording_unhandledSilent hsilent) c event now n hhost) fun r n' hr => ?_
  obtain ⟨result, d⟩ := r
  dsimp only at hr ⊢
  split
  · exact .pure fun hconsumed => by cases hconsumed
  · next hunhandled =>
    obtain ⟨-, hsame⟩ := hr (by simpa using hunhandled)
    refine .seq (commitForPassthrough_emits hfinish d now n') fun r _ hr => .pure fun _ => ?_
    rwa [hsame] at hr

omit hS hsilent hfinish in
/-- Only the forwarding disposition marks its event as a host shortcut. -/
theorem translateIbusKey_dispatch {keyval state : Nat}
    (h : (translateIbusKey keyval state).disposition = .dispatch) :
    (translateIbusKey keyval state).event.hostShortcut = false := by
  have hcharacter : ∀ shiftOnly, (characterKey keyval shiftOnly).disposition = .dispatch →
      (characterKey keyval shiftOnly).event.hostShortcut = false := by
    intro shiftOnly hd
    unfold characterKey forwardKey at *
    split at hd <;> grind
  unfold translateIbusKey dispatchKey forwardKey at *
  grind

/-- A key that is not consumed, whatever its translation. -/
theorem processKeyEvent_emits (engine : KeyEngine (σ × Text)) (input : KeyInput)
    (n : Nat) (hkey : (translateIbusKey input.keyval input.state).disposition ≠ .ignore) :
    Ensures (processKeyEvent S.recording engine input) n fun r _ => r.1.consumed = false →
      r.2.controller.hasComposition = false ∧
      (S.snapshot r.2.controller.session.1).preedit = [] ∧
      r.2.controller.session.2 = engine.controller.session.2 ++ committedText r.1.actions ∧
      ∀ action ∈ r.1.actions, ∃ text, action = .commitText text := by
  unfold processKeyEvent
  generalize hobserve : engine.modeToggle.observe input.keyval input.state = observed
  obtain ⟨toggle, modeToggle⟩ := observed
  dsimp only
  split
  · next htoggle =>
    refine .bind fun r n' _ => .pure fun hconsumed => ?_
    -- a toggle that lets its key through is the release of a modifier
    have hrelease : isRelease input.state = true :=
      engine.modeToggle.observe_release (by rw [hobserve]; exact htoggle)
        (by rw [hobserve]; exact hconsumed)
    exact absurd (by rw [translateIbusKey_release hrelease]) hkey
  split
  · exact .pure fun hconsumed => by cases hconsumed
  refine .seq (P := fun r _ => r.1.consumed = false → r.2.hasComposition = false ∧ _) ?_
    fun r _ hr => .pure hr
  unfold translatedKey
  split
  · next hd => exact absurd hd hkey
  · exact .seq (commitForPassthrough_emits hfinish _ _ n) fun r _ hr => .pure fun _ => hr
  · next hd =>
    have hhost : input.event.hostShortcut = false := by
      have h := translateIbusKey_dispatch hd
      unfold KeyInput.event
      dsimp only
      split <;> exact h
    exact dispatchEvent_emits hS hsilent hfinish _ _ _ n hhost

omit hS hsilent hfinish in
/-- A list of commits, as the texts it commits. -/
theorem exists_texts {actions : List ClientAction}
    (h : ∀ action ∈ actions, ∃ text, action = .commitText text) :
    ∃ texts : List Text,
      actions = texts.map .commitText ∧ committedText actions = texts.flatten := by
  induction actions with
  | nil => exact ⟨[], rfl, rfl⟩
  | cons action actions ih =>
    obtain ⟨texts, rfl, htext⟩ := ih fun a ha => h a (List.mem_cons_of_mem _ ha)
    obtain ⟨text, rfl⟩ := h action List.mem_cons_self
    exact ⟨text :: texts, rfl, by rw [committedText, htext, List.flatten_cons]⟩

/-- **No text is lost or given twice around a key that is passed through.** A key
the controller does not handle asks for nothing. A key the engine does not
consume reaches the application behind a list of commits, which together are the
text the session committed while the key was processed, and no composition is
left. -/
theorem passThrough_keepsText :
    (∀ (c d : InputController σ) (event : FrontendKeyEvent) (now : Int) (n n' : Nat)
      (result : ControllerResult), c.handleKey S event now n = .ok ((result, d), n') →
      event.hostShortcut = false → result.handled = false → result.AsksNothing) ∧
    (∀ (engine engine' : KeyEngine (σ × Text)) (input : KeyInput) (n n' : Nat)
      (outcome : KeyOutcome),
      processKeyEvent S.recording engine input n = .ok ((outcome, engine'), n') →
      (translateIbusKey input.keyval input.state).disposition ≠ .ignore →
      outcome.consumed = false →
      engine'.controller.hasComposition = false ∧
      (S.snapshot engine'.controller.session.1).preedit = [] ∧
      ∃ texts : List Text,
        outcome.seen input =
          texts.map (fun text => .action (.commitText text)) ++ [.key input.keyval input.state] ∧
        engine'.controller.session.2 = engine.controller.session.2 ++ texts.flatten) := by
  constructor
  · intro c d event now n n' result hrun hhost hunhandled
    exact ((handleKey_declines hS hsilent c event now n hhost).apply hrun hunhandled).1
  · intro engine engine' input n n' outcome hrun hkey hconsumed
    obtain ⟨hnone, hempty, hrecord, hcommits⟩ :=
      (processKeyEvent_emits hS hsilent hfinish engine input n hkey).apply hrun hconsumed
    obtain ⟨texts, hactions, htext⟩ := exists_texts hcommits
    refine ⟨hnone, hempty, texts, ?_, ?_⟩
    · rw [KeyOutcome.seen, hconsumed, hactions, List.map_map]
      rfl
    · rw [hrecord, htext]

omit hS hsilent hfinish

theorem typingSession_unhandledSilent : typingSession.UnhandledSilent where
  character s ch shift h := by
    simp only [typingSession] at h ⊢
    split at h
    · cases h
    · next hletter => rw [if_neg hletter]
  command s c h := by simp [typingSession] at h
  select s i _ := rfl
  selectEdge s i e _ := rfl
  finish s i h := by
    simp only [typingSession] at h ⊢
    split at h
    · next hempty => rw [if_pos hempty]
    · cases h

theorem typingSession_finishEnds : typingSession.FinishEnds := by
  intro s i
  show (typingSession.finish s i).2.preedit = []
  simp only [typingSession]
  split
  · next hempty => exact hempty
  · rfl

/-- A fresh engine whose session keeps the record. -/
def typingEngine : Option (KeyEngine (SessionSnapshot × Text)) :=
  match InputController.create typingSession.recording .quanpin plainOptions plainPaths 0 with
  | .ok (some c, _) => some ⟨c, {}⟩
  | _ => none

/-- Ctrl+C while "ni" is being composed: the application is given "ni", then the key. -/
theorem passThrough_keepsText_copy :
    ∃ (e₀ e₁ e₂ e₃ : KeyEngine (SessionSnapshot × Text)) (o₁ o₂ o₃ : KeyOutcome),
      typingEngine = some e₀ ∧
      processKeyEvent typingSession.recording e₀ ⟨'n'.toNat, 0, none, 0⟩ 1 = .ok ((o₁, e₁), 2) ∧
      processKeyEvent typingSession.recording e₁ ⟨'i'.toNat, 0, none, 0⟩ 2 = .ok ((o₂, e₂), 3) ∧
      processKeyEvent typingSession.recording e₂ ⟨'c'.toNat, controlMask, none, 0⟩ 3 =
        .ok ((o₃, e₃), 5) ∧
      o₃.consumed = false ∧ e₃.controller.hasComposition = false ∧
      o₃.seen ⟨'c'.toNat, controlMask, none, 0⟩ =
        [.action (.commitText ['n', 'i']), .key 'c'.toNat controlMask] ∧
      ∃ texts : List Text, e₃.controller.session.2 = e₂.controller.session.2 ++ texts.flatten := by
  obtain ⟨e₀, e₁, e₂, e₃, o₁, o₂, o₃, h₀, h₁, h₂, h₃, hconsumed, hseen⟩ :
      ∃ (e₀ e₁ e₂ e₃ : KeyEngine (SessionSnapshot × Text)) (o₁ o₂ o₃ : KeyOutcome),
        typingEngine = some e₀ ∧
        processKeyEvent typingSession.recording e₀ ⟨'n'.toNat, 0, none, 0⟩ 1 = .ok ((o₁, e₁), 2) ∧
        processKeyEvent typingSession.recording e₁ ⟨'i'.toNat, 0, none, 0⟩ 2 = .ok ((o₂, e₂), 3) ∧
        processKeyEvent typingSession.recording e₂ ⟨'c'.toNat, controlMask, none, 0⟩ 3 =
          .ok ((o₃, e₃), 5) ∧
        o₃.consumed = false ∧ o₃.seen ⟨'c'.toNat, controlMask, none, 0⟩ =
          [.action (.commitText ['n', 'i']), .key 'c'.toNat controlMask] :=
    ⟨_, _, _, _, _, _, _, rfl, rfl, rfl, rfl, rfl, rfl⟩
  obtain ⟨hnone, -, texts, -, hrecord⟩ :=
    (passThrough_keepsText typingSession_unhandledUnchanged typingSession_unhandledSilent
      typingSession_finishEnds).2 e₂ e₃ _ 3 5 o₃ h₃ (by decide) hconsumed
  exact ⟨e₀, e₁, e₂, e₃, o₁, o₂, o₃, h₀, h₁, h₂, h₃, hconsumed, hnone, hseen, texts, hrecord⟩

end MsimeLinux
