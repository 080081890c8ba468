import MsimeLinux.Input.Renewal

/-!
# What the controller's operations can do (`InputController.cpp`)

`handle_key` has some thirty branches, but only four things ever come of a key
that is neither a host shortcut nor a toggle: one session call and its result, a
move among the candidates, a punctuation mark, or a widened character.
`KeyRoutine` is that list and `handleKey_routine` the one pass over the branches;
what a property needs of keys is then four cases.

The other operations have one specification each: the small ones as the
controller they return (`finishCall_spec`, `invalidateContext_spec`), the setters
as what they have in common (`Settled`).
-/

namespace MsimeLinux

open Lib

namespace SessionApi

variable {σ : Type} (S : SessionApi σ)

/-- The calls a key can make on the session. -/
inductive Call (s : σ) : KeyResult × σ → Prop
  | character (ch : Char) (shift : Bool) : Call s (S.character s ch shift)
  | command (command : Command) : Call s (S.command s command)
  | select (i : Nat) : Call s (S.select s i)
  | selectEdge (i : Nat) (edge : CandidateEdge) : Call s (S.selectEdge s i edge)
  | finish (i : Nat) : Call s (S.finish s i)

/-- The session after a call it refused, or with no call made. -/
inductive Refused (s : σ) : σ → Prop
  | untouched : Refused s s
  | call {call : KeyResult × σ} : Call S s call → call.1.handled = false → Refused s call.2

variable {S}

/-- A refused call leaves the session as it was. -/
theorem Refused.eq (hS : S.UnhandledUnchanged) {s s' : σ} (h : Refused S s s') : s' = s := by
  cases h with
  | untouched => rfl
  | call hcall hunhandled =>
    cases hcall with
    | character ch shift => exact hS.character s ch shift hunhandled
    | command command => exact hS.command s command hunhandled
    | select i => exact hS.select s i hunhandled
    | selectEdge i edge => exact hS.selectEdge s i edge hunhandled
    | finish i => exact hS.finish s i hunhandled

end SessionApi

namespace InputController

variable {σ : Type} {S : SessionApi σ}

/-! ## The operations below -/

/-- What the constructor leaves: nothing pending, nothing remembered, and the
session's snapshot. -/
structure Fresh (S : SessionApi σ) (c : InputController σ) : Prop where
  pending : c.pendingPairedClosings = []
  forgotten : c.smartPunctuationHistoryActive = false
  formatter : c.punctuationFormatter = {}
  synced : c.snapshot = S.snapshot c.session

/-- A new controller has nothing typed and nothing pending. -/
theorem create_fresh (schemeType : SchemeType) (options : InputOptions) (paths : RuntimePaths)
    (n : Nat) :
    Ensures (InputController.create S schemeType options paths) n fun r _ =>
      ∀ c, r = some c → Fresh S c := by
  unfold InputController.create
  split
  · exact .pure fun c hc => by cases hc
  · refine .bind fun generation n' _ => ?_
    split
    · split
      · exact .pure fun c hc => by cases hc
      · refine .pure fun c hc => ?_
        cases hc
        exact ⟨rfl, rfl, rfl, rfl⟩
    · exact .pure fun c hc => by cases hc

/-- Drawing a generation changes the generation. -/
theorem renewGeneration_spec (c : InputController σ) (n : Nat) :
    Ensures c.renewGeneration n fun d _ => ∃ g, d = { c with onlineGeneration := g } :=
  .seq (nextOnlineGeneration_ensures n) fun g _ _ => .pure ⟨g, rfl⟩

/-- A session call hands its result on; the controller follows the session. -/
theorem finishCall_spec (c : InputController σ) (call : KeyResult × σ) (n : Nat) :
    Ensures (c.finishCall S call) n fun r _ =>
      r.1 = .ofKeyResult call.1 ∧ ∃ k g, r.2 = { c with
        session := call.2
        snapshot := S.snapshot call.2
        highlightedCandidate := k
        onlineGeneration := g } := by
  unfold finishCall finishCompositionMutation
  dsimp only
  split
  · refine .seq (renewGeneration_spec _ n) fun d _ hd => .pure ⟨rfl, ?_⟩
    obtain ⟨g, rfl⟩ := hd
    exact ⟨0, g, rfl⟩
  · exact .pure ⟨rfl, c.highlightedCandidate, c.onlineGeneration, rfl⟩

/-- Nothing is remembered of the context. -/
theorem invalidateContext_spec (c : InputController σ) (n : Nat) :
    Ensures c.invalidateContext n fun d _ => ∃ g, d = { c.clearSmartPunctuationHistory with
      pendingPairedClosings := []
      punctuationFormatter := {}
      onlineGeneration := g } :=
  renewGeneration_spec _ n

/-- Setting the punctuation forgets the smart history and no more. -/
theorem setPunctuationMode_spec (c : InputController σ) (mode : PunctuationMode) (n : Nat) :
    Ensures (c.setPunctuationMode mode) n fun r _ =>
      ∃ handled g, r = ({ handled := handled }, { c.clearSmartPunctuationHistory with
        punctuationMode := mode
        onlineGeneration := g }) := by
  unfold setPunctuationMode
  dsimp only
  split
  · next hsame =>
    subst hsame
    exact .pure ⟨false, c.onlineGeneration, rfl⟩
  · refine .seq (renewGeneration_spec _ n) fun d _ hd => .pure ?_
    obtain ⟨g, rfl⟩ := hd
    exact ⟨true, g, rfl⟩

/-- So does setting the width, -/
theorem setCharacterWidth_spec (c : InputController σ) (width : CharacterWidth) (n : Nat) :
    Ensures (c.setCharacterWidth width) n fun r _ =>
      ∃ handled g, r = ({ handled := handled }, { c.clearSmartPunctuationHistory with
        characterWidth := width
        onlineGeneration := g }) := by
  unfold setCharacterWidth
  dsimp only
  split
  · next hsame =>
    subst hsame
    exact .pure ⟨false, c.onlineGeneration, rfl⟩
  · refine .seq (renewGeneration_spec _ n) fun d _ hd => .pure ?_
    obtain ⟨g, rfl⟩ := hd
    exact ⟨true, g, rfl⟩

/-- and the lock that follows the mode. -/
theorem applyPunctuationLock_spec (c : InputController σ) (n : Nat) :
    Ensures c.applyPunctuationLock n fun d _ =>
      ∃ g, d = { c.clearSmartPunctuationHistory with
        punctuationMode := c.lockedPunctuation
        onlineGeneration := g } := by
  refine .seq (setPunctuationMode_spec c _ n) fun r _ hr => .pure ?_
  obtain ⟨handled, g, rfl⟩ := hr
  exact ⟨g, rfl⟩

/-- Dropping the composition, and then everything else of the context. -/
theorem reset_spec (c : InputController σ) (n : Nat) :
    Ensures (c.reset S) n fun d _ => ∃ s k g, d = { c.clearSmartPunctuationHistory with
      session := s
      snapshot := S.snapshot s
      highlightedCandidate := k
      pendingPairedClosings := []
      punctuationFormatter := {}
      onlineGeneration := g } := by
  unfold reset
  refine .seq (finishCall_spec c _ n) fun r n' hr => ?_
  obtain ⟨result, d⟩ := r
  obtain ⟨rfl, k, g, rfl⟩ := hr
  refine (invalidateContext_spec _ n').mono fun e _ he => ?_
  obtain ⟨g', rfl⟩ := he
  exact ⟨_, k, g', rfl⟩

/-! ## Setters -/

/-- What every setter leaves: the caret and the pending closings alone, nothing
remembered of the last mark, and a snapshot that is the session's if it was. -/
structure Settled (S : SessionApi σ) (c : InputController σ)
    (r : ControllerResult × InputController σ) : Prop where
  deleteBefore : r.1.deleteBefore = 0
  cursorLeft : r.1.cursorLeft = 0
  cursorRight : r.1.cursorRight = 0
  pending : r.2.pendingPairedClosings = c.pendingPairedClosings
  forgotten : r.2.smartPunctuationHistoryActive = false
  synced : c.snapshot = S.snapshot c.session → r.2.snapshot = S.snapshot r.2.session

/-- Each setting leaves the controller settled. -/
theorem setPunctuationMode_settled (c : InputController σ) (mode : PunctuationMode) (n : Nat) :
    Ensures (c.setPunctuationMode mode) n fun r _ => Settled S c r := by
  refine (c.setPunctuationMode_spec mode n).mono fun r _ hr => ?_
  obtain ⟨handled, g, rfl⟩ := hr
  exact ⟨rfl, rfl, rfl, rfl, rfl, id⟩

theorem setCharacterWidth_settled (c : InputController σ) (width : CharacterWidth) (n : Nat) :
    Ensures (c.setCharacterWidth width) n fun r _ => Settled S c r := by
  refine (c.setCharacterWidth_spec width n).mono fun r _ hr => ?_
  obtain ⟨handled, g, rfl⟩ := hr
  exact ⟨rfl, rfl, rfl, rfl, rfl, id⟩

/-- The lock sets the punctuation and nothing else. -/
theorem setPunctuationLock_settled (c : InputController σ) (lock : PunctuationLock) (n : Nat) :
    Ensures (c.setPunctuationLock lock) n fun d _ => Settled S c ({}, d) := by
  refine (applyPunctuationLock_spec _ n).mono fun d _ hd => ?_
  obtain ⟨g, rfl⟩ := hd
  exact ⟨rfl, rfl, rfl, rfl, rfl, id⟩

/-- A setter that ends by drawing a generation. -/
theorem renewed_settled {c d : InputController σ} {result : ControllerResult} {n : Nat}
    (h : Settled S c (result, d)) :
    Ensures (return (result, ← d.renewGeneration) : Draw (ControllerResult × InputController σ))
      n fun r _ => Settled S c r := by
  refine .seq (renewGeneration_spec d n) fun e _ he => .pure ?_
  obtain ⟨g, rfl⟩ := he
  exact ⟨h.deleteBefore, h.cursorLeft, h.cursorRight, h.pending, h.forgotten, h.synced⟩

/-- So does the English mode. -/
theorem toggleDedicatedEnglishMode_settled (c : InputController σ) (n : Nat) :
    Ensures (c.toggleDedicatedEnglishMode S) n fun r _ => Settled S c r := by
  unfold toggleDedicatedEnglishMode
  dsimp only
  split
  · exact .pure ⟨rfl, rfl, rfl, rfl, rfl, id⟩
  · refine .seq (finishCall_spec _ _ n) fun r n' hr => ?_
    obtain ⟨result, d⟩ := r
    obtain ⟨rfl, k, g, rfl⟩ := hr
    exact renewed_settled ⟨rfl, rfl, rfl, rfl, rfl, fun _ => rfl⟩

/-- Choosing a helpcode schema changes the session only. -/
theorem selectActiveHelpcodeSchema_spec (c : InputController σ) :
    ∃ s, c.selectActiveHelpcodeSchema S = { c with session := s, snapshot := S.snapshot s } := by
  unfold selectActiveHelpcodeSchema
  dsimp only
  split
  · exact ⟨_, rfl⟩
  split <;> exact ⟨_, rfl⟩

/-- And so does a switch of scheme. -/
theorem switchScheme_settled (c : InputController σ) (schemeType : SchemeType) (n : Nat) :
    Ensures (c.switchScheme S schemeType) n fun r _ => Settled S c r := by
  unfold switchScheme
  dsimp only
  split
  · exact .pure ⟨rfl, rfl, rfl, rfl, rfl, id⟩
  · refine .seq (finishCall_spec _ _ n) fun r n' hr => ?_
    obtain ⟨result, d⟩ := r
    obtain ⟨rfl, k, g, rfl⟩ := hr
    dsimp only
    generalize hd : selectActiveHelpcodeSchema S _ = d
    obtain ⟨s, hs⟩ := selectActiveHelpcodeSchema_spec (S := S) _
    rw [hs] at hd
    subst hd
    exact renewed_settled ⟨rfl, rfl, rfl, rfl, rfl, fun _ => rfl⟩

/-- What is finished for a mode touches neither the text before the cursor nor the pending pairs. -/
theorem finishForMode_spec (c : InputController σ) (mode : InputMode) (n : Nat) :
    Ensures (c.finishForMode S mode) n fun r _ =>
      r.1.deleteBefore = 0 ∧ r.1.cursorLeft = 0 ∧ r.1.cursorRight = 0 ∧
      r.2.pendingPairedClosings = c.pendingPairedClosings := by
  unfold finishForMode
  split
  · refine (finishCall_spec c _ n).mono fun r _ hr => ?_
    obtain ⟨result, d⟩ := r
    obtain ⟨rfl, k, g, rfl⟩ := hr
    exact ⟨rfl, rfl, rfl, rfl⟩
  · exact .pure ⟨rfl, rfl, rfl, rfl⟩

/-- A change of mode leaves the controller settled. -/
theorem setMode_settled (c : InputController σ) (mode : InputMode) (n : Nat) :
    Ensures (c.setMode S mode) n fun r _ => Settled S c r := by
  unfold setMode
  dsimp only
  split
  · exact .pure ⟨rfl, rfl, rfl, rfl, rfl, id⟩
  · refine .seq (finishForMode_spec _ mode n) fun r n' hr => ?_
    obtain ⟨result, d⟩ := r
    obtain ⟨hdelete, hleft, hright, hpending⟩ := hr
    refine .seq (applyPunctuationLock_spec _ n') fun e n'' he => ?_
    obtain ⟨g, rfl⟩ := he
    exact renewed_settled ⟨hdelete, hleft, hright, hpending, rfl, fun _ => rfl⟩

/-! ## The list of routines -/

variable (S) in
/-- What can come of a key on the controller `c`. -/
inductive KeyRoutine (c : InputController σ) (event : FrontendKeyEvent) (now : Int) :
    Draw (ControllerResult × InputController σ) → Prop
  | call {call : KeyResult × σ} : S.Call c.session call →
      KeyRoutine c event now (c.finishCall S call)
  | move {s : σ} (handled : Bool) (highlightedCandidate : Nat) : S.Refused c.session s →
      KeyRoutine c event now (pure ({ handled := handled },
        { c.withSession s with highlightedCandidate := highlightedCandidate }))
  | punctuation {s : σ} : event.key = .punctuation → S.Refused c.session s →
      KeyRoutine c event now
        ((c.withSession s).commitPunctuation S event.character event.precedingCharacter now)
  | widen {s : σ} (ch : Char) : event.key ≠ .punctuation → S.Refused c.session s →
      KeyRoutine c event now
        (pure ((c.withSession s).commitFullWidth ch, c.withSession s))

/-! ## The branches -/

variable (c : InputController σ) (event : FrontendKeyEvent) (now : Int)

/-- Nothing moved, nothing asked. -/
theorem routine_still (handled : Bool) :
    KeyRoutine S c event now (pure ({ handled := handled }, c)) :=
  .move handled c.highlightedCandidate .untouched

/-- The handlers of single keys are routines: a candidate by its number, -/
theorem selectPageCandidate_routine (pageIndex : Nat) :
    KeyRoutine S c event now (c.selectPageCandidate S pageIndex) := by
  unfold selectPageCandidate
  split
  · exact routine_still c event now false
  · exact .call (.select _)

/-- the highlighted one. -/
theorem commitHighlighted_routine : KeyRoutine S c event now (c.commitHighlighted S) := by
  unfold commitHighlighted
  split
  · exact routine_still c event now false
  split
  · exact .call (.command _)
  · exact .call (.select _)

/-- So are the moves of the cursor, -/
theorem moveCursor_routine (forward : Bool) :
    KeyRoutine S c event now (pure (c.moveCursor forward)) := by
  unfold moveCursor
  split
  · exact routine_still c event now false
  · split <;> exact .move true _ .untouched

/-- and those of the page. -/
theorem movePage_routine {s : σ} (hs : S.Refused c.session s) (forward : Bool) :
    KeyRoutine S c event now (pure ((c.withSession s).movePage forward)) := by
  unfold movePage
  split
  · exact .move false _ hs
  · split <;> exact .move true _ hs

variable {event}

/-- The marks of a local mode, -/
theorem localPunctuation_routine (hkey : event.key = .punctuation) :
    KeyRoutine S c event now (c.localPunctuation S event now) := by
  unfold localPunctuation
  split
  · exact selectPageCandidate_routine c event now _
  dsimp only
  split
  · exact movePage_routine c event now .untouched _
  split
  · exact .call (.character _ _)
  · next hunhandled =>
    rw [Bool.not_eq_true] at hunhandled
    exact .punctuation hkey (.call (.character _ _) hunhandled)

/-- those that turn a page or commit, -/
theorem pageOrCommit_routine {s : σ} (hkey : event.key = .punctuation)
    (hs : S.Refused c.session s) :
    KeyRoutine S c event now ((c.withSession s).pageOrCommit S event now) := by
  unfold pageOrCommit
  split
  · exact movePage_routine c event now hs _
  · exact .punctuation hkey hs

/-- and all others are routines too. -/
theorem imePunctuation_routine (hkey : event.key = .punctuation) :
    KeyRoutine S c event now (c.imePunctuation S event now) := by
  unfold imePunctuation
  split
  · exact localPunctuation_routine c now hkey
  split
  · exact .call (.character _ _)
  split
  · exact .punctuation hkey .untouched
  split
  · exact movePage_routine c event now .untouched _
  split
  · dsimp only
    split
    · exact .call (.selectEdge _ _)
    · next hunhandled =>
      rw [Bool.not_eq_true] at hunhandled
      exact pageOrCommit_routine c now hkey (.call (.selectEdge _ _) hunhandled)
  · exact pageOrCommit_routine c now hkey .untouched

/-- The tail both modes share, after a session call the key may have made. -/
theorem plainKey_routine {s : σ} (hs : S.Refused c.session s) :
    KeyRoutine S c event now ((c.withSession s).plainKey S event now) := by
  unfold plainKey
  split
  · next hkey => exact .widen _ (by simp [hkey]) hs
  · next hkey => exact .punctuation hkey hs
  · next hkey => exact .widen _ (by simp [hkey]) hs
  · next hkey =>
    split
    · exact .widen _ (by simp [hkey]) hs
    · exact .move false c.highlightedCandidate hs
  · exact .move false c.highlightedCandidate hs

/-- The IME mode settles a key by itself or leaves it to the tail. -/
theorem imeKey_routine :
    (∃ op, KeyRoutine S c event now op ∧
      c.imeKey S event now = (do return (← op).map some id)) ∨
    (∃ s, S.Refused c.session s ∧ c.imeKey S event now = pure (none, c.withSession s)) := by
  unfold imeKey
  -- one bullet for each kind of key, in the order of `handle_key`
  split
  · dsimp only
    split
    · exact .inl ⟨_, .call (.character event.character event.shiftOnly), rfl⟩
    · next hquiet =>
      rw [Bool.or_eq_true, not_or, Bool.not_eq_true] at hquiet
      exact .inr ⟨_, .call (.character event.character event.shiftOnly) hquiet.1, rfl⟩
  · next hkey => exact .inl ⟨_, imePunctuation_routine c now hkey, rfl⟩
  · exact .inl ⟨_, .call (.command .backspace), rfl⟩
  · exact .inl ⟨_, .call (.command .commitRaw), rfl⟩
  · exact .inl ⟨_, .call (.command .cancel), rfl⟩
  · split
    · exact .inl ⟨_, commitHighlighted_routine c event now, rfl⟩
    · exact .inr ⟨_, .untouched, rfl⟩
  · split
    · exact .inl ⟨_, .call (.character (digitCharacter event.digit) false), rfl⟩
    split
    · exact .inr ⟨_, .untouched, rfl⟩
    split
    · exact .inl ⟨_, routine_still c event now false, rfl⟩
    split
    · exact .inl ⟨_, routine_still c event now true, rfl⟩
    split
    · exact .inl ⟨_, .call (.select (c.pageStart + event.digit - 1)), rfl⟩
    · exact .inl ⟨_, routine_still c event now true, rfl⟩
  · exact .inl ⟨_, moveCursor_routine c event now false, rfl⟩
  · exact .inl ⟨_, moveCursor_routine c event now true, rfl⟩
  · exact .inl ⟨_, movePage_routine c event now .untouched false, rfl⟩
  · exact .inl ⟨_, movePage_routine c event now .untouched true, rfl⟩
  all_goals exact .inr ⟨_, .untouched, rfl⟩

/-! ## `handle_key` -/

/-- The controller as `handle_key` finds it: any other key than the one
remembered ends the memory of it (InputController.cpp:125). -/
def recalled (c : InputController σ) (event : FrontendKeyEvent) : InputController σ :=
  if event.key ≠ .punctuation ∨ event.character ≠ c.smartPunctuationHistoryKey then
    c.clearSmartPunctuationHistory
  else c

variable (event)

/-- A shortcut of the host finishes the composition and is passed on. -/
theorem handleKey_hostShortcut (hhost : event.hostShortcut = true) :
    c.handleKey S event now = (do
      let r ← (c.recalled event).finishComposition S
      return ({ r.1 with handled := false }, ← r.2.invalidateContext)) := by
  unfold handleKey
  simp only [hhost]
  rfl

/-- **What a key can do**, host shortcuts apart: toggle, or one of the routines. -/
theorem handleKey_routine (hhost : event.hostShortcut = false) :
    (event.key = .togglePunctuation ∧
      c.handleKey S event now = (c.recalled event).togglePunctuationMode) ∨
    (event.key = .toggleWidth ∧
      c.handleKey S event now = (c.recalled event).toggleCharacterWidth) ∨
    (event.key = .toggleEnglish ∧
      c.handleKey S event now = (c.recalled event).toggleDedicatedEnglishMode S) ∨
    KeyRoutine S (c.recalled event) event now (c.handleKey S event now) := by
  unfold handleKey
  dsimp only
  generalize hd : (if event.key ≠ .punctuation ∨ event.character ≠ c.smartPunctuationHistoryKey
    then c.clearSmartPunctuationHistory else c) = d
  obtain rfl : d = c.recalled event := hd.symm
  rw [if_neg (by simp [hhost])]
  split
  · next hkey => exact .inl ⟨hkey, rfl⟩
  · next hkey => exact .inr (.inl ⟨hkey, rfl⟩)
  · next hkey => exact .inr (.inr (.inl ⟨hkey, rfl⟩))
  · refine .inr (.inr (.inr ?_))
    split
    · have hime : (∃ op, KeyRoutine S (c.recalled event) event now op ∧ _) ∨ _ :=
        imeKey_routine (c.recalled event) now
      rcases hime with ⟨op, hop, heq⟩ | ⟨s, hs, heq⟩
      · rw [heq, bind_assoc]
        simp only [pure_bind, Prod.map]
        rw [show (op >>= fun r => pure (r.1, id r.2)) = op from bind_pure op]
        exact hop
      · rw [heq, pure_bind]
        exact plainKey_routine (c.recalled event) now hs
    · exact plainKey_routine (c.recalled event) now .untouched

/-- A punctuation key in either mode: whatever the IME mode makes of it, or the
mark at once. -/
theorem handleKey_punctuation (hhost : event.hostShortcut = false)
    (hkey : event.key = .punctuation) :
    c.handleKey S event now =
      if (c.recalled event).mode = .ime then (c.recalled event).imePunctuation S event now
      else (c.recalled event).commitPunctuation S event.character event.precedingCharacter now := by
  unfold handleKey
  dsimp only
  generalize hd : (if event.key ≠ .punctuation ∨ event.character ≠ c.smartPunctuationHistoryKey
    then c.clearSmartPunctuationHistory else c) = d
  obtain rfl : d = c.recalled event := hd.symm
  rw [if_neg (by simp [hhost])]
  simp only [hkey]
  split
  · unfold imeKey
    simp only [hkey]
    rw [bind_assoc]
    simp only [pure_bind, Prod.map]
    exact bind_pure _
  · unfold plainKey
    simp only [hkey]

end InputController

end MsimeLinux
