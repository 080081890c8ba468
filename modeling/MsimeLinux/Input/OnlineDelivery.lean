import MsimeLinux.Lib.Run
import MsimeLinux.Input.GenerationCounter
import MsimeLinux.Input.Renewal

/-!
# Stale online results never land

Online providers answer late, out of order and more than once, to controllers
that may have been rebuilt in between. `World` is a process with any number of
controllers over one generation counter; an `Event` is one operation of one of
them, its construction or destruction, or the delivery of a candidate under some
generation.

- `SameRequest`: what holds of every later world, relative to the moment a
  controller handed out a request: whoever carries its generation is that
  controller, and only online candidates have been added since.
- `SameRequest.put`, `World.run_sameRequest`: one event keeps it, hence so does
  every run.
- `staleResultsNeverLand`: what a delivery does, in every run.
-/

namespace MsimeLinux

open Lib InputController

variable {σ : Type} {ι : Type}

/-! ## The process -/

/-- The operations that need no result to be told apart. -/
inductive Operation where
  | handleKey (event : FrontendKeyEvent) (now : Int)
  | selectCandidate (absoluteIndex : Nat)
  | selectPageCandidate (pageIndex : Nat)
  | setMode (mode : InputMode)
  | toggleMode
  | setPunctuationMode (mode : PunctuationMode)
  | setPunctuationLock (lock : PunctuationLock)
  | togglePunctuationMode
  | setCharacterWidth (width : CharacterWidth)
  | toggleCharacterWidth
  | toggleDedicatedEnglishMode
  | switchScheme (schemeType : SchemeType)
  | reset
  | invalidateContext
  deriving DecidableEq, Repr

/-- The mutating public methods of `InputController` (InputController.h:119),
`apply_online_candidate` apart. -/
def Operation.run (S : SessionApi σ) (c : InputController σ) :
    Operation → Draw (InputController σ)
  | handleKey event now => return (← c.handleKey S event now).2
  | selectCandidate absoluteIndex => return (← c.selectCandidate S absoluteIndex).2
  | selectPageCandidate pageIndex => return (← c.selectPageCandidate S pageIndex).2
  | setMode mode => return (← c.setMode S mode).2
  | toggleMode => return (← c.toggleMode S).2
  | setPunctuationMode mode => return (← c.setPunctuationMode mode).2
  | setPunctuationLock lock => c.setPunctuationLock lock
  | togglePunctuationMode => return (← c.togglePunctuationMode).2
  | setCharacterWidth width => return (← c.setCharacterWidth width).2
  | toggleCharacterWidth => return (← c.toggleCharacterWidth).2
  | toggleDedicatedEnglishMode => return (← c.toggleDedicatedEnglishMode S).2
  | switchScheme schemeType => return (← c.switchScheme S schemeType).2
  | reset => c.reset S
  | invalidateContext => c.invalidateContext

theorem Operation.run_advances {S : SessionApi σ} (hS : S.UnhandledUnchanged)
    (c : InputController σ) (op : Operation) (n : Nat) :
    Ensures (op.run S c) n fun d n' => Advances c n d n' := by
  have hsnd : ∀ {m : Draw (ControllerResult × InputController σ)}, Renews m c n →
      Ensures (return (← m).2 : Draw (InputController σ)) n fun d n' => Advances c n d n' :=
    fun h => .seq h fun _ _ hadv => .pure hadv
  cases op with
  | handleKey event now => exact hsnd (handleKey_advances hS c event now n)
  | selectCandidate i => exact hsnd (selectCandidate_advances hS c i n)
  | selectPageCandidate i => exact hsnd (selectPageCandidate_advances hS c i n)
  | setMode mode => exact hsnd (setMode_advances hS c mode n)
  | toggleMode => exact hsnd (toggleMode_advances hS c n)
  | setPunctuationMode mode => exact hsnd (c.setPunctuationMode_advances mode n)
  | setPunctuationLock lock => exact c.setPunctuationLock_advances lock n
  | togglePunctuationMode => exact hsnd (c.setPunctuationMode_advances _ n)
  | setCharacterWidth width => exact hsnd (c.setCharacterWidth_advances width n)
  | toggleCharacterWidth => exact hsnd (c.setCharacterWidth_advances _ n)
  | toggleDedicatedEnglishMode => exact hsnd (toggleDedicatedEnglishMode_advances hS c n)
  | switchScheme schemeType => exact hsnd (switchScheme_advances hS c schemeType n)
  | reset => exact reset_advances hS c n
  | invalidateContext => exact c.invalidateContext_advances n

/-- The controllers of a process and the counter they share. -/
structure World (ι σ : Type) where
  sequence : Nat
  controllers : ι → Option (InputController σ)

/-- A process with no controller yet. -/
def World.initial : World ι σ := ⟨0, fun _ => none⟩

/-! ## Deliveries -/

/-- `t` was reached from `s` by accepting online candidates and nothing else. -/
inductive OnlineOnly (S : SessionApi σ) (s : σ) : σ → Prop
  | refl : OnlineOnly S s s
  | accept {t : σ} (query : OnlineQuery) (candidate : Text) (source : CandidateSource) :
      OnlineOnly S s t → (S.applyOnlineCandidate t query candidate source).1 = true →
      OnlineOnly S s (S.applyOnlineCandidate t query candidate source).2

theorem OnlineOnly.trans {S : SessionApi σ} {s t u : σ} (hst : OnlineOnly S s t)
    (htu : OnlineOnly S t u) : OnlineOnly S s u := by
  induction htu with
  | refl => exact hst
  | accept query candidate source _ hacc ih => exact .accept query candidate source ih hacc

/-- Online candidates change nothing of what has been typed or selected. -/
theorem OnlineOnly.sameInput {S : SessionApi σ} (hS : S.OnlineFrame) {s t : σ}
    (h : OnlineOnly S s t) : SameInput (S.snapshot s) (S.snapshot t) := by
  induction h with
  | refl => exact .refl _
  | accept query candidate source _ _ ih => exact ih.trans (hS _ query candidate source)

/-- `d` is the controller `c` with online candidates added. -/
structure Continues (S : SessionApi σ) (c d : InputController σ) : Prop where
  mode : d.mode = c.mode
  onlineGeneration : d.onlineGeneration = c.onlineGeneration
  session : OnlineOnly S c.session d.session

theorem Continues.trans {S : SessionApi σ} {c d e : InputController σ}
    (hcd : Continues S c d) (hde : Continues S d e) : Continues S c e where
  mode := hde.mode.trans hcd.mode
  onlineGeneration := hde.onlineGeneration.trans hcd.onlineGeneration
  session := hcd.session.trans hde.session

theorem Continues.ofKept {S : SessionApi σ} {c d : InputController σ} (h : Kept c d) :
    Continues S c d :=
  ⟨h.mode, h.onlineGeneration, h.session ▸ .refl⟩

/-- A delivery leaves mode and generation alone; the session is as it was, or
has accepted one candidate. -/
theorem applyOnlineCandidate_continues {S : SessionApi σ} (hS : S.UnhandledUnchanged)
    (c : InputController σ) (generation : Nat) (query : OnlineQuery) (candidate : Text)
    (source : CandidateSource) :
    Continues S c (c.applyOnlineCandidate S generation query candidate source).2 := by
  unfold applyOnlineCandidate
  split
  · exact ⟨rfl, rfl, .refl⟩
  dsimp only
  split
  · next hrefused =>
    exact .ofKept (c.withSession_kept (hS.applyOnlineCandidate c.session query candidate source
      (by simpa using hrefused)))
  · next haccepted =>
    have hstep : OnlineOnly S c.session
        (S.applyOnlineCandidate c.session query candidate source).2 :=
      .accept query candidate source .refl (by simpa using haccepted)
    split <;> exact ⟨rfl, rfl, hstep⟩

/-! ## The step -/

variable [DecidableEq ι]

/-- Slot `i` now holds `controller`, and the counter stands at `sequence`. -/
def World.put (w : World ι σ) (i : ι) (controller : Option (InputController σ))
    (sequence : Nat) : World ι σ :=
  ⟨sequence, Function.update w.controllers i controller⟩

theorem World.put_self (w : World ι σ) (i : ι) (c : Option (InputController σ)) (n : Nat) :
    (w.put i c n).controllers i = c := by
  simp [World.put]

theorem World.put_other (w : World ι σ) {i j : ι} (hji : j ≠ i)
    (c : Option (InputController σ)) (n : Nat) :
    (w.put i c n).controllers j = w.controllers j := by
  simp [World.put, hji]

/-- What happens to controller `i`. -/
inductive Event (ι : Type) where
  | create (i : ι) (schemeType : SchemeType) (options : InputOptions) (paths : RuntimePaths)
  | destroy (i : ι)
  | operate (i : ι) (op : Operation)
  | deliver (i : ι) (generation : Nat) (query : OnlineQuery) (candidate : Text)
      (source : CandidateSource)

/-- One event. An operation that finds the counter exhausted has no successor:
the exception leaves the event loop and ends the process. -/
inductive World.Step (S : SessionApi σ) : World ι σ → Event ι → World ι σ → Prop
  | create {w : World ι σ} {i : ι} {schemeType : SchemeType} {options : InputOptions}
      {paths : RuntimePaths} {c : Option (InputController σ)} {n : Nat} :
      w.controllers i = none →
      InputController.create S schemeType options paths w.sequence = .ok (c, n) →
      Step S w (.create i schemeType options paths) (w.put i c n)
  | destroy {w : World ι σ} {i : ι} :
      Step S w (.destroy i) (w.put i none w.sequence)
  | operate {w : World ι σ} {i : ι} {op : Operation} {c d : InputController σ} {n : Nat} :
      w.controllers i = some c → op.run S c w.sequence = .ok (d, n) →
      Step S w (.operate i op) (w.put i (some d) n)
  | deliver {w : World ι σ} {i : ι} {generation : Nat} {query : OnlineQuery}
      {candidate : Text} {source : CandidateSource} {c : InputController σ} :
      w.controllers i = some c →
      Step S w (.deliver i generation query candidate source)
        (w.put i (some (c.applyOnlineCandidate S generation query candidate source).2)
          w.sequence)

/-- What an event may put into slot `i`: nothing, a controller whose generation
is new, or the one that was there with online candidates added. -/
structure World.Touches (S : SessionApi σ) (w : World ι σ) (i : ι)
    (controller : Option (InputController σ)) (n : Nat) : Prop where
  sequence_le : w.sequence ≤ n
  outcome : ∀ d, controller = some d → Renewed w.sequence d n ∨
    ∃ c, w.controllers i = some c ∧ Continues S c d

theorem create_ensures {S : SessionApi σ} (schemeType : SchemeType) (options : InputOptions)
    (paths : RuntimePaths) (n : Nat) :
    Ensures (InputController.create S schemeType options paths) n fun c n' =>
      n ≤ n' ∧ ∀ d, c = some d → Renewed n d n' := by
  unfold InputController.create
  split
  · exact .pure ⟨Nat.le_refl n, by simp⟩
  refine .seq (nextOnlineGeneration_ensures n) fun generation n' h => ?_
  obtain ⟨rfl, rfl⟩ := h
  split
  · split
    · exact .pure ⟨Nat.le_succ n, by simp⟩
    · refine .pure ⟨Nat.le_succ n, fun d hd => ?_⟩
      obtain rfl := Option.some.inj hd
      exact ⟨Nat.lt_succ_self n, Nat.le_refl _⟩
  · exact .pure ⟨Nat.le_succ n, by simp⟩

/-- **The step lemma**: one event touches one slot, in one of three ways. -/
theorem World.step_touches {S : SessionApi σ} (hS : S.UnhandledUnchanged)
    {w w' : World ι σ} {e : Event ι} (hs : World.Step S w e w') :
    ∃ i c n, w' = w.put i c n ∧ w.Touches S i c n := by
  cases hs with
  | create _ hrun =>
    obtain ⟨hle, hnew⟩ := (create_ensures _ _ _ _).apply hrun
    exact ⟨_, _, _, rfl, hle, fun d hd => .inl (hnew d hd)⟩
  | destroy => exact ⟨_, _, _, rfl, Nat.le_refl _, by simp⟩
  | @operate i op c d n hc hrun =>
    have hadv := (op.run_advances hS c w.sequence).apply hrun
    refine ⟨_, _, _, rfl, hadv.sequence_le, fun d' hd' => ?_⟩
    obtain rfl := Option.some.inj hd'
    exact hadv.outcome.imp_right fun hkept => ⟨c, hc, .ofKept hkept⟩
  | @deliver i generation query candidate source c hc =>
    refine ⟨_, _, _, rfl, Nat.le_refl _, fun d hd => .inr ⟨c, hc, ?_⟩⟩
    obtain rfl := Option.some.inj hd
    exact applyOnlineCandidate_continues hS c generation query candidate source

/-! ## Generations are never shared -/

/-- Every live generation was drawn, and no two controllers carry the same one. -/
structure World.Distinct (w : World ι σ) : Prop where
  drawn : ∀ i c, w.controllers i = some c → c.onlineGeneration ≤ w.sequence
  apart : ∀ i j c d, w.controllers i = some c → w.controllers j = some d →
    c.onlineGeneration = d.onlineGeneration → i = j

omit [DecidableEq ι] in
theorem World.initial_distinct : (World.initial : World ι σ).Distinct where
  drawn := by simp [World.initial]
  apart := by simp [World.initial]

theorem World.Distinct.put {S : SessionApi σ} {w : World ι σ} (h : w.Distinct) {i : ι}
    {controller : Option (InputController σ)} {n : Nat} (ht : w.Touches S i controller n) :
    (w.put i controller n).Distinct := by
  -- a new number is above all others; a kept one was already apart
  have hother : ∀ j c d, j ≠ i → w.controllers j = some c → controller = some d →
      c.onlineGeneration ≠ d.onlineGeneration := by
    intro j c d hji hc hd hgen
    rcases ht.outcome d hd with hnew | ⟨b, hb, hcont⟩
    · have := hnew.fresh
      have := h.drawn j c hc
      omega
    · exact hji (h.apart j i c b hc hb (hgen.trans hcont.onlineGeneration))
  refine ⟨fun j c hj => ?_, fun j k c d hj hk hgen => ?_⟩
  · by_cases hji : j = i
    · subst hji
      rw [World.put_self] at hj
      rcases ht.outcome c hj with hnew | ⟨b, hb, hcont⟩
      · exact hnew.drawn
      · rw [hcont.onlineGeneration]
        exact Nat.le_trans (h.drawn j b hb) ht.sequence_le
    · rw [World.put_other w hji] at hj
      exact Nat.le_trans (h.drawn j c hj) ht.sequence_le
  · by_cases hji : j = i <;> by_cases hki : k = i
    · rw [hji, hki]
    · subst hji
      rw [World.put_self] at hj
      rw [World.put_other w hki] at hk
      exact absurd hgen.symm (hother k d c hki hk hj)
    · subst hki
      rw [World.put_other w hji] at hj
      rw [World.put_self] at hk
      exact absurd hgen (hother j c d hji hj hk)
    · rw [World.put_other w hji] at hj
      rw [World.put_other w hki] at hk
      exact h.apart j k c d hj hk hgen

/-- In every run, no two controllers carry the same generation. -/
theorem World.run_distinct {S : SessionApi σ} (hS : S.UnhandledUnchanged)
    {events : List (Event ι)} {w : World ι σ}
    (hrun : Run (World.Step S) World.initial events w) : w.Distinct := by
  refine hrun.invariant (I := World.Distinct) (fun w e w' h hs => ?_) World.initial_distinct
  obtain ⟨i, c, n, rfl, ht⟩ := World.step_touches hS hs
  exact h.put ht

/-! ## Since the request -/

/-- Controller `i`, as it stood when it handed out a request, against a later
world: the generation has been drawn, and whoever still carries it is controller
`i`, with nothing but online candidates added. -/
structure SameRequest (S : SessionApi σ) (i : ι) (c : InputController σ) (w : World ι σ) :
    Prop where
  drawn : c.onlineGeneration ≤ w.sequence
  unchanged : ∀ j d, w.controllers j = some d → d.onlineGeneration = c.onlineGeneration →
    j = i ∧ Continues S c d

omit [DecidableEq ι] in
/-- At the moment of the request itself. -/
theorem World.Distinct.sameRequest {S : SessionApi σ} {w : World ι σ} (h : w.Distinct)
    {i : ι} {c : InputController σ} (hc : w.controllers i = some c) : SameRequest S i c w where
  drawn := h.drawn i c hc
  unchanged j d hj hgen := by
    obtain rfl := h.apart j i d c hj hc hgen
    obtain rfl := Option.some.inj (hj.symm.trans hc)
    exact ⟨rfl, rfl, rfl, .refl⟩

theorem SameRequest.put {S : SessionApi σ} {i j : ι} {c : InputController σ} {w : World ι σ}
    (h : SameRequest S i c w) {controller : Option (InputController σ)} {n : Nat}
    (ht : w.Touches S j controller n) : SameRequest S i c (w.put j controller n) := by
  refine ⟨Nat.le_trans h.drawn ht.sequence_le, fun k d hk hgen => ?_⟩
  by_cases hkj : k = j
  · subst hkj
    rw [World.put_self] at hk
    rcases ht.outcome d hk with hnew | ⟨b, hb, hcont⟩
    · -- a renewed generation is above every one handed out before
      have := hnew.fresh
      have := h.drawn
      omega
    · obtain ⟨hki, hsince⟩ := h.unchanged k b hb (hcont.onlineGeneration ▸ hgen)
      exact ⟨hki, hsince.trans hcont⟩
  · rw [World.put_other w hkj] at hk
    exact h.unchanged k d hk hgen

/-- **The run lemma**: whatever happens after a request, its generation stays
with the controller that made it and with the input it was made for. -/
theorem World.run_sameRequest {S : SessionApi σ} (hS : S.UnhandledUnchanged) {i : ι}
    {c : InputController σ} {w w' : World ι σ} {events : List (Event ι)}
    (hrun : Run (World.Step S) w events w') (h : SameRequest S i c w) :
    SameRequest S i c w' := by
  refine hrun.invariant (I := SameRequest S i c) (fun w e w' h hs => ?_) h
  obtain ⟨j, d, n, rfl, ht⟩ := World.step_touches hS hs
  exact h.put ht

/-- **Stale online results never land.** Take any run to a world where
controller `i` hands out a request, and any run on from there. A delivery of that
request's generation to controller `j` finds the generation current only if `j`
is `i`, the input is what it was at the request and only online candidates have
been added; every other delivery returns `false` and leaves the controller as it
is. Generations are distinct across controllers in every world, and the counter
behind them hands out strictly increasing values on every schedule of any
threads. -/
theorem staleResultsNeverLand {S : SessionApi σ} (hS : S.UnhandledUnchanged)
    (hframe : S.OnlineFrame) {before after : List (Event ι)} {w w' : World ι σ}
    (hbefore : Run (World.Step S) World.initial before w)
    (hafter : Run (World.Step S) w after w') {i j : ι} {c d : InputController σ}
    (hc : w.controllers i = some c) (hd : w'.controllers j = some d)
    {request : OnlineRequest} (hrequest : c.onlineRequest S = some request) :
    (request.generation = d.onlineGeneration →
      j = i ∧ OnlineOnly S c.session d.session ∧
      SameInput (S.snapshot c.session) (S.snapshot d.session) ∧ d.mode = c.mode) ∧
    (request.generation ≠ d.onlineGeneration → ∀ query candidate source,
      d.applyOnlineCandidate S request.generation query candidate source = (false, d)) ∧
    w'.Distinct ∧
    (∀ {θ : Type} [DecidableEq θ] {schedule : List θ} {counter : Counter θ},
      Run CounterStep Counter.initial schedule counter →
        counter.drawn.Pairwise fun a b => a.2 < b.2) := by
  have hgen : request.generation = c.onlineGeneration := by
    obtain ⟨query, _, rfl⟩ := Option.map_eq_some_iff.mp hrequest
    rfl
  have hdist : w.Distinct := World.run_distinct hS hbefore
  have hsince : SameRequest S i c w' :=
    World.run_sameRequest hS hafter (hdist.sameRequest hc)
  refine ⟨fun hcurrent => ?_, fun hstale query candidate source => ?_,
    World.run_distinct hS (hbefore.append hafter),
    fun hrun => (counter_drawn_sorted hrun).increasing⟩
  · obtain ⟨hji, hcont⟩ := hsince.unchanged j d hd (hcurrent.symm.trans hgen)
    exact ⟨hji, hcont.session, hcont.session.sameInput hframe, hcont.mode⟩
  · rw [applyOnlineCandidate, if_pos hstale]

/-! ## One session, to run the process on -/

/-- A session that composes lowercase letters, drops them on any command, and
takes a candidate for what is being composed. -/
def typingSession : SessionApi SessionSnapshot where
  isSupportedHelpcodeSchema _ := true
  create options := some { scheme := options.scheme }
  snapshot := id
  character s ch _ :=
    if 'a' ≤ ch ∧ ch ≤ 'z' then ({ handled := true }, { s with preedit := s.preedit ++ [ch] })
    else ({}, s)
  command s _ := ({ handled := true }, { s with preedit := [], candidates := [] })
  select s _ := ({}, s)
  selectEdge s _ _ := ({}, s)
  finish s _ :=
    if s.preedit = [] then ({}, s)
    else ({ handled := true, commit := some s.preedit },
      { s with preedit := [], candidates := [] })
  setDedicatedEnglish s on := { s with dedicatedEnglish := on }
  switchScheme s schemeType := { s with scheme := schemeType }
  setHelpcodeEnabled s _ := s
  setHelpcodeSchema s _ := s
  onlineQuery s := if s.preedit = [] then none else some { queryText := s.preedit }
  applyOnlineCandidate s query candidate source :=
    if query.queryText = s.preedit then
      (true, { s with candidates := s.candidates ++ [⟨candidate, source⟩] })
    else (false, s)

theorem typingSession_unhandledUnchanged : typingSession.UnhandledUnchanged where
  character s ch shift h := by
    simp only [typingSession] at h ⊢
    split at h
    · cases h
    · next hletter => rw [if_neg hletter]
  command s c h := by simp [typingSession] at h
  select s i _ := rfl
  selectEdge s i e _ := rfl
  finish s i h := by
    simp only [typingSession] at h ⊢
    split at h
    · next hempty => rw [if_pos hempty]
    · cases h
  applyOnlineCandidate s q t src h := by
    simp only [typingSession] at h ⊢
    split at h
    · cases h
    · next hother => rw [if_neg hother]

theorem typingSession_onlineFrame : typingSession.OnlineFrame := by
  intro s q t src
  simp only [typingSession]
  split <;> exact ⟨rfl, rfl, rfl, rfl, rfl, rfl⟩

/-- Options with every temporary mode off. -/
def plainOptions : InputOptions where
  localModes := ⟨false, false, false, false, false, false, false, false⟩
  englishInput := ⟨false, 4⟩
  mixedExpressive := ⟨false, false⟩

/-- Paths to a dictionary. -/
def plainPaths : RuntimePaths := ⟨"resources", "user", "cache", "dictionaries"⟩

/-- Two controllers over one counter, and a letter typed into the first. -/
def typingEvents : List (Event Nat) :=
  [.create 0 .quanpin plainOptions plainPaths, .create 1 .quanpin plainOptions plainPaths,
    .operate 0 (.handleKey { character := 'n' } 0)]

/-- The request for the letter: generations 1 and 2 went to the two controllers,
and the key renewed the first. -/
def typingRequest : OnlineRequest := ⟨3, { queryText := ['n'] }⟩

/-- A candidate for the letter is delivered to the controller that asked for it,
which accepts it, and to the other one, which drops it. -/
theorem staleResultsNeverLand_typing :
    ∃ (w w' : World Nat SessionSnapshot) (c d e : InputController SessionSnapshot),
      Run (World.Step typingSession) World.initial typingEvents w ∧
      w.controllers 0 = some c ∧ c.onlineRequest typingSession = some typingRequest ∧
      Run (World.Step typingSession) w
        [.deliver 0 3 typingRequest.query ['你'] .cloudSuggestion] w' ∧
      w'.controllers 0 = some d ∧ d.candidates = [⟨['你'], .cloudSuggestion⟩] ∧
      SameInput (typingSession.snapshot c.session) (typingSession.snapshot d.session) ∧
      w'.controllers 1 = some e ∧ ∀ query candidate source,
        e.applyOnlineCandidate typingSession 3 query candidate source = (false, e) := by
  obtain ⟨w, c, hbefore, hc, hrequest, w', d, e, hafter, hd, hcandidates, he, hgd, hge⟩ :
      ∃ w c, Run (World.Step typingSession) World.initial typingEvents w ∧
        w.controllers 0 = some c ∧ c.onlineRequest typingSession = some typingRequest ∧
        ∃ w' d e, Run (World.Step typingSession) w
            [.deliver 0 3 typingRequest.query ['你'] .cloudSuggestion] w' ∧
          w'.controllers 0 = some d ∧ d.candidates = [⟨['你'], .cloudSuggestion⟩] ∧
          w'.controllers 1 = some e ∧ d.onlineGeneration = 3 ∧ e.onlineGeneration = 2 :=
    ⟨_, _, .cons (.create rfl rfl) (.cons (.create rfl rfl) (.single (.operate rfl rfl))),
      rfl, rfl, _, _, _, .single (.deliver rfl), rfl, rfl, rfl, rfl, rfl⟩
  have hlands := staleResultsNeverLand typingSession_unhandledUnchanged
    typingSession_onlineFrame hbefore hafter hc hd hrequest
  have hdrops := staleResultsNeverLand typingSession_unhandledUnchanged
    typingSession_onlineFrame hbefore hafter hc he hrequest
  exact ⟨w, w', c, d, e, hbefore, hc, hrequest, hafter, hd, hcandidates,
    (hlands.1 hgd.symm).2.2.1, he, hdrops.2.1 (by rw [hge]; decide)⟩

end MsimeLinux
