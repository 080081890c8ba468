import Mathlib.Logic.Relation
import MsimeLinux.Input.Highlight
import MsimeLinux.Input.Passthrough

/-!
# The direct mode and the cached snapshot (`InputController.cpp`)

The controller answers its accessors from a cached snapshot, and while the direct mode
is on nothing may be composed behind it.

- `SessionApi.Quiet`: the calls the direct mode makes. None of them types.
- `Follows`: what an operation that does not set the mode leaves. `operation_follows` is
  the one pass over the operations.
- `Coherent`: the invariant; `Reached.coherent` holds it of every run.
- `direct_mode_coherent`: the cache is the session's, the direct mode is empty, and
  entering it returned what the session committed, once.
-/

namespace MsimeLinux

open Lib InputController

variable {σ : Type} {S : SessionApi σ}

/-! ## What the session promises -/

/-- Nothing is being composed, and no local mode is open. -/
structure SessionSnapshot.Idle (s : SessionSnapshot) : Prop where
  preedit : s.preedit = []
  localMode : s.localMode = .none

namespace SessionApi

/-- `finish` leaves neither a composition nor a local mode. -/
def FinishIdles (S : SessionApi σ) : Prop :=
  ∀ s i, (S.snapshot (S.finish s i).2).Idle

/-- A call that types nothing: a command, a choice among candidates, the end of a
composition, or a setting. -/
inductive Quiet (S : SessionApi σ) (s : σ) : σ → Prop
  | command (command : Command) : Quiet S s (S.command s command).2
  | select (i : Nat) : Quiet S s (S.select s i).2
  | finish (i : Nat) : Quiet S s (S.finish s i).2
  | dedicatedEnglishOff : Quiet S s (S.setDedicatedEnglish s false)
  | switchScheme (schemeType : SchemeType) : Quiet S s (S.switchScheme s schemeType)
  | setHelpcodeEnabled (enabled : Bool) : Quiet S s (S.setHelpcodeEnabled s enabled)
  | setHelpcodeSchema (schema : String) : Quiet S s (S.setHelpcodeSchema s schema)

/-- Compositions and local modes are opened by typing. -/
def OpenedByTyping (S : SessionApi σ) : Prop :=
  ∀ s t, S.Quiet s t → (S.snapshot s).Idle → (S.snapshot t).Idle

/-- Dedicated English is switched by `set_dedicated_english`: it is off once it has been
switched off, and no call of another kind switches it on. -/
structure DedicatedBySetter (S : SessionApi σ) : Prop where
  off : ∀ s, (S.snapshot (S.setDedicatedEnglish s false)).dedicatedEnglish = false
  quiet : ∀ s t, S.Quiet s t → (S.snapshot s).dedicatedEnglish = false →
    (S.snapshot t).dedicatedEnglish = false

end SessionApi

namespace InputController

variable {c d : InputController σ}

/-! ## What an operation leaves -/

/-- What an operation that does not set the mode does: a cache that was the session's
still is, and in the direct mode the session has seen quiet calls only. -/
structure Follows (S : SessionApi σ) (c d : InputController σ) : Prop where
  mode : d.mode = c.mode
  synced : S.UnhandledUnchanged → c.snapshot = S.snapshot c.session →
    d.snapshot = S.snapshot d.session
  quiet : c.mode = .direct → Relation.ReflTransGen S.Quiet c.session d.session

/-- Every operation is held against the controller it was called on. -/
abbrev FollowsIn (S : SessionApi σ) (c : InputController σ)
    (op : Draw (ControllerResult × InputController σ)) (n : Nat) : Prop :=
  Ensures op n fun r _ => Follows S c r.2

/-- Books other than session, cache and mode. -/
theorem Follows.same (hmode : d.mode = c.mode) (hsession : d.session = c.session)
    (hsnapshot : d.snapshot = c.snapshot) : Follows S c d where
  mode := hmode
  synced _ hsynced := by rw [hsnapshot, hsession, hsynced]
  quiet _ := by rw [hsession]

theorem Follows.trans {e : InputController σ} (hcd : Follows S c d) (hde : Follows S d e) :
    Follows S c e where
  mode := hde.mode.trans hcd.mode
  synced hS hsynced := hde.synced hS (hcd.synced hS hsynced)
  quiet hdirect := (hcd.quiet hdirect).trans (hde.quiet (hcd.mode.trans hdirect))

/-- A session call that goes through `finish_composition_mutation`: in the direct mode it
has to be a quiet one. -/
theorem finishCall_follows (c : InputController σ) {call : KeyResult × σ}
    (hquiet : c.mode = .direct → S.Quiet c.session call.2) (n : Nat) :
    FollowsIn S c (c.finishCall S call) n := by
  refine (finishCall_spec c call n).mono fun r _ hr => ?_
  obtain ⟨-, k, g, hd⟩ := hr
  rw [hd]
  exact ⟨rfl, fun _ _ => rfl, fun hdirect => .single (hquiet hdirect)⟩

theorem finishComposition_follows (c : InputController σ) (n : Nat) :
    FollowsIn S c (c.finishComposition S) n :=
  c.finishCall_follows (fun _ => .finish _) n

theorem selectCandidate_follows (c : InputController σ) (i n : Nat) :
    FollowsIn S c (c.selectCandidate S i) n :=
  c.finishCall_follows (fun _ => .select _) n

theorem selectPageCandidate_follows (c : InputController σ) (i n : Nat) :
    FollowsIn S c (c.selectPageCandidate S i) n := by
  unfold selectPageCandidate
  split
  · exact .pure (.same rfl rfl rfl)
  · exact c.selectCandidate_follows _ n

/-- After `finish_composition`, punctuation keeps its own books. -/
theorem commitPunctuation_follows (c : InputController σ) (ascii : Char)
    (precedingCharacter : Option Char) (now : Int) (n : Nat) :
    FollowsIn S c (c.commitPunctuation S ascii precedingCharacter now) n := by
  unfold commitPunctuation
  refine .seq (c.finishComposition_follows n) fun r n' hr => ?_
  obtain ⟨result, d⟩ := r
  dsimp only at hr ⊢
  split
  · exact .pure (hr.trans (.same rfl rfl rfl))
  · generalize hd : (if d.canReplaceRecentAscii c.hasComposition ascii
      (precedingAfterCommit result.commit precedingCharacter) now = true then _ else d) = e
    have he : Follows S c e := by
      rw [← hd]
      split
      · exact hr.trans (.same rfl rfl rfl)
      · exact hr
    split
    · exact .pure (he.trans (.same rfl rfl rfl))
    · refine .pure (he.trans ?_)
      unfold typePunctuation
      dsimp only
      split
      · exact .same rfl rfl rfl
      · split <;> exact .same rfl rfl rfl

/-! ## Keys -/

/-- A key of the IME mode, after a session call that was refused. -/
theorem refused_follows (hime : c.mode = .ime) {s : σ} (hs : S.Refused c.session s) :
    Follows S c (c.withSession s) where
  mode := rfl
  synced hS hsynced := by
    obtain rfl := hs.eq hS
    exact hsynced
  quiet hdirect := by rw [hime] at hdirect; cases hdirect

/-- The routines of a key, in the IME mode. -/
theorem KeyRoutine.follows {event : FrontendKeyEvent} {now : Int}
    {op : Draw (ControllerResult × InputController σ)} (h : KeyRoutine S c event now op)
    (hime : c.mode = .ime) (n : Nat) : FollowsIn S c op n := by
  cases h with
  | call _ =>
    refine c.finishCall_follows (fun hdirect => ?_) n
    rw [hime] at hdirect
    cases hdirect
  | move handled k hs => exact .pure ((refused_follows hime hs).trans (.same rfl rfl rfl))
  | punctuation _ hs =>
    exact (commitPunctuation_follows _ _ _ now n).mono fun _ _ hd =>
      (refused_follows hime hs).trans hd
  | widen _ _ hs => exact .pure (refused_follows hime hs)

/-- A key of the direct mode is widened, committed as punctuation, or left alone. -/
theorem plainKey_follows (c : InputController σ) (event : FrontendKeyEvent) (now : Int)
    (n : Nat) : FollowsIn S c (c.plainKey S event now) n := by
  unfold plainKey
  split
  · exact .pure (.same rfl rfl rfl)
  · exact c.commitPunctuation_follows _ _ now n
  all_goals exact .pure (.same rfl rfl rfl)

theorem setPunctuationMode_follows (c : InputController σ) (mode : PunctuationMode) (n : Nat) :
    FollowsIn S c (c.setPunctuationMode mode) n := by
  refine (setPunctuationMode_spec c mode n).mono fun r _ hr => ?_
  obtain ⟨handled, g, rfl⟩ := hr
  exact .same rfl rfl rfl

theorem setCharacterWidth_follows (c : InputController σ) (width : CharacterWidth) (n : Nat) :
    FollowsIn S c (c.setCharacterWidth width) n := by
  refine (setCharacterWidth_spec c width n).mono fun r _ hr => ?_
  obtain ⟨handled, g, rfl⟩ := hr
  exact .same rfl rfl rfl

theorem invalidateContext_follows (c : InputController σ) (n : Nat) :
    Ensures c.invalidateContext n fun d _ => Follows S c d := by
  refine (invalidateContext_spec c n).mono fun d _ hd => ?_
  obtain ⟨g, rfl⟩ := hd
  exact .same rfl rfl rfl

/-- The toggle is swallowed in the direct mode; in the IME mode it ends by reading the
cache anew. -/
theorem toggleDedicatedEnglishMode_follows (c : InputController σ) (n : Nat) :
    FollowsIn S c (c.toggleDedicatedEnglishMode S) n := by
  unfold toggleDedicatedEnglishMode
  dsimp only
  split
  · exact .pure (.same rfl rfl rfl)
  · next hime =>
    refine .seq (finishComposition_follows _ n) fun r n' hr => ?_
    refine .seq (renewGeneration_spec _ n') fun d _ hd => .pure ?_
    obtain ⟨g, rfl⟩ := hd
    refine ⟨hr.mode, fun _ _ => rfl, fun hdirect => ?_⟩
    exact absurd (show c.clearSmartPunctuationHistory.mode = .ime by simpa using hime)
      (by rw [show c.clearSmartPunctuationHistory.mode = c.mode from rfl, hdirect]; decide)

theorem recalled_follows (c : InputController σ) (event : FrontendKeyEvent) :
    Follows S c (c.recalled event) := by
  unfold recalled
  split <;> exact .same rfl rfl rfl

/-- **Every key** follows. -/
theorem handleKey_follows (c : InputController σ) (event : FrontendKeyEvent) (now : Int)
    (n : Nat) : FollowsIn S c (c.handleKey S event now) n := by
  have hrecalled : Follows S c (c.recalled event) := c.recalled_follows event
  unfold handleKey
  dsimp only
  generalize hd : (if event.key ≠ .punctuation ∨ event.character ≠ c.smartPunctuationHistoryKey
    then c.clearSmartPunctuationHistory else c) = d
  obtain rfl : d = c.recalled event := hd.symm
  refine Ensures.mono (P := fun r _ => Follows S (c.recalled event) r.2) ?_ fun _ _ hd =>
    hrecalled.trans hd
  split
  · refine .seq (finishComposition_follows _ n) fun r n' hr => ?_
    exact .seq (r.2.invalidateContext_follows n') fun _ _ hd => .pure (hr.trans hd)
  split
  · exact setPunctuationMode_follows _ _ n
  · exact setCharacterWidth_follows _ _ n
  · exact toggleDedicatedEnglishMode_follows _ n
  · split
    · next hime =>
      have hkey : (∃ op, KeyRoutine S (c.recalled event) event now op ∧ _) ∨ _ :=
        imeKey_routine (c.recalled event) now
      rcases hkey with ⟨op, hop, heq⟩ | ⟨s, hs, heq⟩
      · rw [heq, bind_assoc]
        simp only [pure_bind, Prod.map]
        rw [show (op >>= fun r => pure (r.1, id r.2)) = op from bind_pure op]
        exact hop.follows hime n
      · rw [heq, pure_bind]
        exact (plainKey_follows _ event now n).mono fun _ _ hd =>
          (refused_follows hime hs).trans hd
    · exact plainKey_follows _ event now n

/-! ## The other operations -/

/-- The helpcode of the scheme in use is set by quiet calls. -/
theorem selectActiveHelpcodeSchema_quiet (c : InputController σ) :
    ∃ s, Relation.ReflTransGen S.Quiet c.session s ∧
      c.selectActiveHelpcodeSchema S = { c with session := s, snapshot := S.snapshot s } := by
  have htwo : ∀ enabled schema, Relation.ReflTransGen S.Quiet c.session
      (S.setHelpcodeSchema (S.setHelpcodeEnabled c.session enabled) schema) :=
    fun enabled schema => (Relation.ReflTransGen.single (.setHelpcodeEnabled enabled)).tail
      (.setHelpcodeSchema schema)
  unfold selectActiveHelpcodeSchema
  dsimp only
  split
  · exact ⟨_, htwo _ _, rfl⟩
  split
  · exact ⟨_, htwo _ _, rfl⟩
  · exact ⟨_, .refl, rfl⟩

theorem switchScheme_follows (c : InputController σ) (schemeType : SchemeType) (n : Nat) :
    FollowsIn S c (c.switchScheme S schemeType) n := by
  unfold switchScheme
  dsimp only
  split
  · exact .pure (.same rfl rfl rfl)
  · refine .seq (finishComposition_follows _ n) fun r n' hr => ?_
    obtain ⟨s, hquiet, hs⟩ := selectActiveHelpcodeSchema_quiet (S := S)
      ((r.2.withSession (S.switchScheme (S.setDedicatedEnglish r.2.session false)
        schemeType)).refreshSnapshot S)
    rw [hs]
    refine .seq (renewGeneration_spec _ n') fun e _ he => .pure ?_
    obtain ⟨g, rfl⟩ := he
    refine ⟨hr.mode, fun _ _ => rfl, fun hdirect => ?_⟩
    have hswitch : Relation.ReflTransGen S.Quiet r.2.session
        (S.switchScheme (S.setDedicatedEnglish r.2.session false) schemeType) :=
      (Relation.ReflTransGen.single .dedicatedEnglishOff).tail (.switchScheme schemeType)
    exact ((hr.quiet hdirect).trans hswitch).trans hquiet

theorem reset_follows (c : InputController σ) (n : Nat) :
    Ensures (c.reset S) n fun d _ => Follows S c d := by
  unfold reset
  refine .seq (c.finishCall_follows (fun _ => .command _) n) fun r n' hr => ?_
  exact (r.2.invalidateContext_follows n').mono fun _ _ hd => hr.trans hd

/-- The mode an operation sets, when it is one that does. -/
def setsMode (c : InputController σ) : Operation → Option InputMode
  | .setMode mode => some mode
  | .toggleMode => some (if c.mode = .ime then .direct else .ime)
  | _ => none

/-- **Every operation** that does not set the mode follows. -/
theorem operation_follows (c : InputController σ) (op : Operation) (n : Nat)
    (hop : c.setsMode op = none) : Ensures (op.run S c) n fun d _ => Follows S c d := by
  have hsnd : ∀ {m : Draw (ControllerResult × InputController σ)}, FollowsIn S c m n →
      Ensures (return (← m).2 : Draw (InputController σ)) n fun d _ => Follows S c d :=
    fun hm => .seq hm fun _ _ hd => .pure hd
  cases op with
  | handleKey event now => exact hsnd (c.handleKey_follows event now n)
  | selectCandidate i => exact hsnd (c.selectCandidate_follows i n)
  | selectPageCandidate i => exact hsnd (c.selectPageCandidate_follows i n)
  | setMode mode => cases hop
  | toggleMode => cases hop
  | setPunctuationMode mode => exact hsnd (c.setPunctuationMode_follows mode n)
  | setPunctuationLock lock =>
    refine (applyPunctuationLock_spec _ n).mono fun d _ hd => ?_
    obtain ⟨g, rfl⟩ := hd
    exact .same rfl rfl rfl
  | togglePunctuationMode => exact hsnd (c.setPunctuationMode_follows _ n)
  | setCharacterWidth width => exact hsnd (c.setCharacterWidth_follows width n)
  | toggleCharacterWidth => exact hsnd (c.setCharacterWidth_follows _ n)
  | toggleDedicatedEnglishMode => exact hsnd (c.toggleDedicatedEnglishMode_follows n)
  | switchScheme schemeType => exact hsnd (c.switchScheme_follows schemeType n)
  | reset => exact c.reset_follows n
  | invalidateContext => exact c.invalidateContext_follows n

/-! ## Setting the mode -/

/-- The session once the mode has been set to another one. -/
def modeSession (S : SessionApi σ) (c : InputController σ) (mode : InputMode) : σ :=
  S.setDedicatedEnglish
    (if mode = .direct then (S.finish c.session c.highlightedCandidate).2 else c.session) false

/-- What `set_mode` does: nothing, when the mode is the one asked for; else the cache is
read anew behind the session's last call, and entering the direct mode hands on what
finishing the composition has committed. -/
theorem setMode_spec (c : InputController σ) (mode : InputMode) (n : Nat) :
    Ensures (c.setMode S mode) n fun r _ =>
      (c.mode = mode → Follows S c r.2) ∧
      (c.mode ≠ mode → r.2.mode = mode ∧ r.2.session = c.modeSession S mode ∧
        r.2.snapshot = S.snapshot r.2.session ∧ r.1.handled = true ∧
        (mode = .direct →
          r.1.commit = (S.finish c.session c.highlightedCandidate).1.commit)) := by
  unfold setMode
  dsimp only
  split
  · next hsame => exact .pure ⟨fun _ => .same rfl rfl rfl, fun hother => absurd hsame hother⟩
  next hother =>
  have hfinish : Ensures (c.clearSmartPunctuationHistory.finishForMode S mode) n fun r _ =>
      S.setDedicatedEnglish r.2.session false = c.modeSession S mode ∧
      (mode = .direct → r.1.commit = (S.finish c.session c.highlightedCandidate).1.commit) := by
    unfold finishForMode modeSession
    split
    · refine (finishCall_spec _ _ n).mono fun r _ hr => ?_
      obtain ⟨hresult, k, g, hd⟩ := hr
      rw [hd, hresult]
      exact ⟨rfl, fun _ => rfl⟩
    · next hime => exact .pure ⟨rfl, fun hdirect => absurd hdirect hime⟩
  refine .seq hfinish fun r n' hr => ?_
  refine .seq (applyPunctuationLock_spec _ n') fun d n'' hd => ?_
  obtain ⟨g, rfl⟩ := hd
  refine .seq (renewGeneration_spec _ n'') fun e _ he => .pure ?_
  obtain ⟨g', rfl⟩ := he
  exact ⟨fun hsame => absurd hsame hother, fun _ => ⟨rfl, hr.1, rfl, rfl, hr.2⟩⟩

/-! ## The invariant -/

/-- The cache is the session's, and in the direct mode the session is idle, with
dedicated English off. -/
structure Coherent (S : SessionApi σ) (c : InputController σ) : Prop where
  synced : c.snapshot = S.snapshot c.session
  idle : c.mode = .direct → (S.snapshot c.session).Idle
  english : c.mode = .direct → (S.snapshot c.session).dedicatedEnglish = false

section

variable (hS : S.UnhandledUnchanged) (hT : S.OpenedByTyping) (hE : S.DedicatedBySetter)
include hS hT hE

omit hS hE in
/-- Quiet calls leave an idle session idle. -/
theorem idle_of_quiet {s t : σ} (h : Relation.ReflTransGen S.Quiet s t)
    (hs : (S.snapshot s).Idle) : (S.snapshot t).Idle := by
  induction h with
  | refl => exact hs
  | tail _ hcall ih => exact hT _ _ hcall ih

omit hS hT in
/-- Quiet calls leave dedicated English off. -/
theorem english_of_quiet {s t : σ} (h : Relation.ReflTransGen S.Quiet s t)
    (hs : (S.snapshot s).dedicatedEnglish = false) :
    (S.snapshot t).dedicatedEnglish = false := by
  induction h with
  | refl => exact hs
  | tail _ hcall ih => exact hE.quiet _ _ hcall ih

/-- What follows a coherent controller is coherent. -/
theorem Coherent.follows (h : Coherent S c) (hd : Follows S c d) : Coherent S d where
  synced := hd.synced hS h.synced
  idle hdirect := by
    have hold : c.mode = .direct := hd.mode ▸ hdirect
    exact idle_of_quiet hT (hd.quiet hold) (h.idle hold)
  english hdirect := by
    have hold : c.mode = .direct := hd.mode ▸ hdirect
    exact english_of_quiet hE (hd.quiet hold) (h.english hold)

variable (hF : S.FinishIdles)
include hF

theorem Coherent.setMode (h : Coherent S c) (mode : InputMode) (n : Nat) :
    Ensures (c.setMode S mode) n fun r _ => Coherent S r.2 := by
  refine (c.setMode_spec mode n).mono fun r _ hr => ?_
  by_cases hmode : c.mode = mode
  · exact h.follows hS hT hE (hr.1 hmode)
  · obtain ⟨hnew, hsession, hsynced, -, -⟩ := hr.2 hmode
    refine ⟨hsynced, fun hdirect => ?_, fun _ => ?_⟩
    · -- the composition is finished first, and switching English off opens nothing
      rw [hsession, modeSession, if_pos (hnew ▸ hdirect)]
      exact hT _ _ .dedicatedEnglishOff (hF _ _)
    · rw [hsession]
      exact hE.off _

/-- **Every operation** keeps the controller coherent. -/
theorem Coherent.operation (h : Coherent S c) (op : Operation) (n : Nat) :
    Ensures (op.run S c) n fun d _ => Coherent S d := by
  cases hop : c.setsMode op with
  | none => exact (c.operation_follows op n hop).mono fun d _ hd => h.follows hS hT hE hd
  | some mode =>
    cases op with
    | setMode mode => exact .seq (h.setMode hS hT hE hF mode n) fun _ _ hd => .pure hd
    | toggleMode => exact .seq (h.setMode hS hT hE hF _ n) fun _ _ hd => .pure hd
    | _ => cases hop

end

/-- **An online candidate** keeps the controller coherent. -/
theorem Coherent.applyOnlineCandidate (hS : S.UnhandledUnchanged) (hO : S.OnlineFrame)
    (h : Coherent S c) (generation : Nat) (query : OnlineQuery) (candidate : Text)
    (source : CandidateSource) :
    Coherent S (c.applyOnlineCandidate S generation query candidate source).2 := by
  have hcontinues := applyOnlineCandidate_continues hS c generation query candidate source
  have hinput := hcontinues.session.sameInput hO
  refine ⟨?_, fun hdirect => ?_, fun hdirect => ?_⟩
  · unfold InputController.applyOnlineCandidate
    split
    · exact h.synced
    dsimp only
    split
    · next hrefused =>
      have hsame : (S.applyOnlineCandidate c.session query candidate source).2 = c.session :=
        hS.applyOnlineCandidate _ _ _ _ (by simpa using hrefused)
      show c.snapshot = S.snapshot (S.applyOnlineCandidate c.session query candidate source).2
      rw [hsame, h.synced]
    · split <;> rfl
  · have hidle := h.idle (hcontinues.mode ▸ hdirect)
    exact ⟨hinput.preedit ▸ hidle.preedit, hinput.localMode ▸ hidle.localMode⟩
  · have hoff := h.english (hcontinues.mode ▸ hdirect)
    exact hinput.dedicatedEnglish ▸ hoff

/-- A new controller is in the IME mode. -/
theorem create_mode (schemeType : SchemeType) (options : InputOptions) (paths : RuntimePaths)
    (n : Nat) :
    Ensures (InputController.create S schemeType options paths) n fun r _ =>
      ∀ c, r = some c → c.mode = .ime := by
  unfold InputController.create
  split
  · exact .pure fun c hc => by cases hc
  refine .bind fun generation n' _ => ?_
  split
  · split
    · exact .pure fun c hc => by cases hc
    · refine .pure fun c hc => ?_
      cases hc
      rfl
  · exact .pure fun c hc => by cases hc

end InputController

/-! ## Runs -/

/-- Every controller is coherent, whatever it has gone through. -/
theorem Reached.coherent (hS : S.UnhandledUnchanged) (hF : S.FinishIdles)
    (hT : S.OpenedByTyping) (hE : S.DedicatedBySetter) (hO : S.OnlineFrame)
    {c : InputController σ} (h : Reached S c) : Coherent S c := by
  obtain ⟨schemeType, options, paths, n, n', c₀, uses, hcreate, hrun⟩ := h
  have hfresh := (create_fresh schemeType options paths n).apply hcreate c₀ rfl
  have hime : c₀.mode = .ime := (create_mode schemeType options paths n).apply hcreate c₀ rfl
  have hfirst : Coherent S c₀ := by
    refine ⟨hfresh.synced, fun hdirect => ?_, fun hdirect => ?_⟩
    all_goals
      rw [hime] at hdirect
      cases hdirect
  refine hrun.invariant (fun c use d hc hstep => ?_) hfirst
  cases use with
  | operation op =>
    obtain ⟨n, n', hop⟩ := hstep
    exact (hc.operation hS hT hE hF op n).apply hop
  | online generation query candidate source =>
    cases hstep
    exact hc.applyOnlineCandidate hS hO generation query candidate source

/-- The operations that enter the direct mode. -/
theorem ControllerUse.Step.enters {c d : InputController σ} {use : ControllerUse}
    (h : use.Step S c d) (hime : c.mode = .ime) (hdirect : d.mode = .direct) :
    use = .operation (.setMode .direct) ∨ use = .operation .toggleMode := by
  cases use with
  | online generation query candidate source =>
    -- a delivery does not look at the mode
    cases h
    unfold applyOnlineCandidate at hdirect
    split at hdirect
    · rw [hime] at hdirect
      cases hdirect
    dsimp only at hdirect
    split at hdirect
    · change c.mode = _ at hdirect
      rw [hime] at hdirect
      cases hdirect
    · split at hdirect
      all_goals
        change c.mode = _ at hdirect
        rw [hime] at hdirect
        cases hdirect
  | operation op =>
    obtain ⟨n, n', hop⟩ := h
    cases hsets : c.setsMode op with
    | none =>
      have hmode := ((c.operation_follows op n hsets).apply hop).mode
      rw [hime, hdirect] at hmode
      cases hmode
    | some mode =>
      cases op with
      | setMode mode =>
        have hset : Ensures (Operation.run S c (.setMode mode)) n fun d _ =>
            mode = .ime → d.mode = .ime := by
          refine .seq (c.setMode_spec mode n) fun r _ hr => .pure fun hsame => ?_
          exact (hr.1 (hime.trans hsame.symm)).mode.trans hime
        cases mode with
        | direct => exact .inl rfl
        | ime =>
          have hstays := hset.apply hop rfl
          rw [hdirect] at hstays
          cases hstays
      | toggleMode => exact .inr rfl
      | _ => cases hsets

/-- **The direct mode and the cache.** In every state a controller can be in, the cached
snapshot is the session's, and in the direct mode nothing is composed, dedicated English is
off and no local mode is open. The direct mode is entered by setting or toggling the mode
only; either returns what finishing the composition committed, and that is all the text
the session has committed meanwhile. -/
theorem direct_mode_coherent (hS : S.UnhandledUnchanged) (hF : S.FinishIdles)
    (hT : S.OpenedByTyping) (hE : S.DedicatedBySetter) (hO : S.OnlineFrame) :
    (∀ c : InputController σ, Reached S c →
      c.snapshot = S.snapshot c.session ∧
      (c.mode = .direct → c.hasComposition = false ∧ c.dedicatedEnglishMode = false ∧
        c.localInputMode = .none)) ∧
    (∀ (c d : InputController σ) (use : ControllerUse), use.Step S c d → c.mode = .ime →
      d.mode = .direct →
      use = .operation (.setMode .direct) ∨ use = .operation .toggleMode) ∧
    (∀ (c : InputController (σ × Text)) (n : Nat)
      (enter : Draw (ControllerResult × InputController (σ × Text))), c.mode = .ime →
      enter = c.setMode S.recording .direct ∨ enter = c.toggleMode S.recording →
      Ensures enter n fun r _ =>
        r.2.mode = .direct ∧ r.2.hasComposition = false ∧ r.1.handled = true ∧
        r.1.commit = (S.finish c.session.1 c.highlightedCandidate).1.commit ∧
        r.2.session.2 = c.session.2 ++ r.1.commit.getD []) := by
  refine ⟨fun c hc => ?_, fun c d use => ControllerUse.Step.enters, fun c n enter hime henter => ?_⟩
  · have hcoherent := hc.coherent hS hF hT hE hO
    refine ⟨hcoherent.synced, fun hdirect => ?_⟩
    have hidle := hcoherent.idle hdirect
    have hoff := hcoherent.english hdirect
    unfold hasComposition dedicatedEnglishMode localInputMode
    rw [hcoherent.synced]
    exact ⟨by simp [hidle.preedit], hoff, hidle.localMode⟩
  · -- from the IME mode a toggle is `set_mode(Direct)`
    obtain rfl : enter = c.setMode S.recording .direct := by
      rcases henter with h | h
      · exact h
      · rw [h, toggleMode, if_pos hime]
    have hother : c.mode ≠ .direct := by
      intro hdirect
      rw [hime] at hdirect
      cases hdirect
    -- which finishes the composition, then switches the English mode off
    refine (c.setMode_spec .direct n).mono fun r _ hr => ?_
    obtain ⟨hmode, hsession, hsynced, hhandled, hcommit⟩ := hr.2 hother
    refine ⟨hmode, ?_, hhandled, hcommit rfl, ?_⟩
    · have hidle := hT _ _ .dedicatedEnglishOff (hF c.session.1 c.highlightedCandidate)
      have hpreedit : r.2.snapshot.preedit = [] := by
        rw [hsynced, hsession]
        exact hidle.preedit
      unfold hasComposition
      simp [hpreedit]
    · rw [hsession, hcommit rfl]
      rfl

/-! ## A session that keeps the promises -/

/-- The typing session with a local mode, which `U` opens and finishing closes. -/
def modalSession : SessionApi SessionSnapshot :=
  { typingSession with
    character := fun s ch shift =>
      if ch = 'U' then ({ handled := true }, { s with localMode := .unicode })
      else typingSession.character s ch shift
    finish := fun s _ =>
      if s.preedit = [] ∧ s.localMode = .none then ({}, s)
      else ({ handled := true, commit := some s.preedit },
        { s with preedit := [], candidates := [], localMode := .none }) }

theorem modalSession_unhandledUnchanged : modalSession.UnhandledUnchanged where
  character s ch shift h := by
    simp only [modalSession] at h ⊢
    split at h
    · cases h
    · next hletter =>
      rw [if_neg hletter]
      exact typingSession_unhandledUnchanged.character s ch shift h
  command := typingSession_unhandledUnchanged.command
  select := typingSession_unhandledUnchanged.select
  selectEdge := typingSession_unhandledUnchanged.selectEdge
  finish s i h := by
    simp only [modalSession] at h ⊢
    split at h
    · next hidle => rw [if_pos hidle]
    · cases h
  applyOnlineCandidate := typingSession_unhandledUnchanged.applyOnlineCandidate

theorem modalSession_finishIdles : modalSession.FinishIdles := by
  intro s i
  show ((modalSession.finish s i).2 : SessionSnapshot).Idle
  simp only [modalSession]
  split
  · next hidle => exact ⟨hidle.1, hidle.2⟩
  · exact ⟨rfl, rfl⟩

theorem modalSession_openedByTyping : modalSession.OpenedByTyping := by
  intro s t hcall hidle
  cases hcall with
  | command => exact ⟨rfl, hidle.localMode⟩
  | finish i => exact modalSession_finishIdles s i
  | _ => exact ⟨hidle.preedit, hidle.localMode⟩

theorem modalSession_dedicatedBySetter : modalSession.DedicatedBySetter where
  off s := rfl
  quiet s t hcall hoff := by
    cases hcall with
    | finish i =>
      show ((modalSession.finish s i).2 : SessionSnapshot).dedicatedEnglish = false
      simp only [modalSession]
      split <;> exact hoff
    | dedicatedEnglishOff => rfl
    | _ => exact hoff

/-- "ni" is typed and the mode toggled: the text is returned, and nothing is left of it. -/
theorem direct_mode_coherent_toggle :
    ∃ (c d : InputController SessionSnapshot) (e : InputController (SessionSnapshot × Text)),
      c.hasComposition = true ∧
      (ControllerUse.operation .toggleMode).Step modalSession c d ∧
      d.mode = .direct ∧ d.snapshot = modalSession.snapshot d.session ∧
      d.hasComposition = false ∧ e.session = ({ preedit := ['n', 'i'] }, []) ∧
      Ensures (e.toggleMode modalSession.recording) 3 fun r _ =>
        r.1.commit = some ['n', 'i'] ∧ r.2.session.2 = ['n', 'i'] := by
  obtain ⟨hcoherent, hentered, hreturned⟩ := direct_mode_coherent
    modalSession_unhandledUnchanged modalSession_finishIdles modalSession_openedByTyping
    modalSession_dedicatedBySetter typingSession_onlineFrame
  obtain ⟨c₀, c, d, hcreate, hrun, hcomposition, hstep, hdirect⟩ : ∃ c₀ c d,
      InputController.create modalSession .quanpin plainOptions plainPaths 0 = .ok (some c₀, 1) ∧
      Run (ControllerUse.Step modalSession) c₀
        [.operation (.handleKey { character := 'n' } 0),
          .operation (.handleKey { character := 'i' } 0)] c ∧
      c.hasComposition = true ∧ (ControllerUse.operation .toggleMode).Step modalSession c d ∧
      d.mode = .direct :=
    ⟨_, _, _, rfl, .cons ⟨1, 2, rfl⟩ (.single ⟨2, 3, rfl⟩), rfl, ⟨3, 6, rfl⟩, rfl⟩
  have hreached : Reached modalSession d :=
    ⟨.quanpin, plainOptions, plainPaths, 0, 1, c₀, _, hcreate, hrun.snoc hstep⟩
  obtain ⟨e₀, e, -, -, he, hime, hfinish⟩ :
      ∃ (e₀ e : InputController (SessionSnapshot × Text)),
        InputController.create modalSession.recording .quanpin plainOptions plainPaths 0 =
          .ok (some e₀, 1) ∧
        Run (ControllerUse.Step modalSession.recording) e₀
          [.operation (.handleKey { character := 'n' } 0),
            .operation (.handleKey { character := 'i' } 0)] e ∧
        e.session = ({ preedit := ['n', 'i'] }, []) ∧ e.mode = .ime ∧
        (modalSession.finish e.session.1 e.highlightedCandidate).1.commit = some ['n', 'i'] :=
    ⟨_, _, rfl, .cons ⟨1, 2, rfl⟩ (.single ⟨2, 3, rfl⟩), rfl, rfl, rfl⟩
  obtain ⟨hsynced, hempty⟩ := hcoherent d hreached
  refine ⟨c, d, e, hcomposition, hstep, hdirect, hsynced, (hempty hdirect).1, he, ?_⟩
  refine (hreturned e 3 _ hime (.inr rfl)).mono fun r _ hr => ?_
  obtain ⟨-, -, -, hcommit, hrecord⟩ := hr
  rw [hcommit, hfinish] at hrecord
  refine ⟨hcommit.trans hfinish, ?_⟩
  rw [hrecord, he]
  rfl

end MsimeLinux
