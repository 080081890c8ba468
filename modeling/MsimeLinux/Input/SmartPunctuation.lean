import MsimeLinux.Input.Routines
import MsimeLinux.Input.Passthrough

/-!
# Smart punctuation deletes only what it typed (`InputController.cpp`)

With smart punctuation a comma, a full stop or a colon behind a letter or digit
stays ASCII; the same key again within two seconds replaces it by the Chinese
mark, which deletes one character of the document. The controller remembers the
key and the time, and has to forget them on every other path.

- `ControllerCall`: the calls of a run, each with the result it returned.
- `commitPunctuation_smart`: when a mark deletes, and when one is remembered.
- `Recalls`: what is remembered is the last key event of the run, whose result
  ended with the mark; only calls that type and change nothing came after it.
- `smartPunctuation_deletes`: a deletion is of that mark.
-/

namespace MsimeLinux

open Lib InputController

variable {σ : Type} {S : SessionApi σ}

/-! ## What the session promises -/

namespace SessionApi

/-- With nothing being composed, `finish` commits nothing. -/
def FinishQuiet (S : SessionApi σ) : Prop :=
  ∀ s i, (S.snapshot s).preedit = [] → (S.finish s i).1.commit.getD [] = []

/-- `finish` ends a temporary mode: a commit returns to the scheme it was entered
from. -/
def FinishLeavesMode (S : SessionApi σ) : Prop :=
  ∀ s i, (S.snapshot (S.finish s i).2).localMode = .none

/-- Selecting a candidate opens neither a composition nor a temporary mode. -/
def SelectOpensNothing (S : SessionApi σ) : Prop :=
  ∀ s i, (S.snapshot s).preedit = [] → (S.snapshot s).localMode = .none →
    (S.snapshot (S.select s i).2).preedit = [] ∧
    (S.snapshot (S.select s i).2).localMode = .none

end SessionApi

/-! ## Calls and their results -/

/-- A call on the controller: one of its methods, or an online candidate. -/
inductive ControllerCall where
  | operate (op : Operation)
  | deliver (generation : Nat) (query : OnlineQuery) (candidate : Text)
      (source : CandidateSource)
  deriving DecidableEq, Repr

namespace ControllerCall

/-- A key event. -/
abbrev key (event : FrontendKeyEvent) (now : Int) : ControllerCall :=
  .operate (.handleKey event now)

variable (S) in
/-- What the call returns, and the controller it leaves. -/
def perform (c : InputController σ) :
    ControllerCall → Draw (ControllerResult × InputController σ)
  | operate op => op.perform S c
  | deliver generation query candidate source =>
    return ({}, (c.applyOnlineCandidate S generation query candidate source).2)

variable (S) in
/-- One call, labelled with the result it returned. A call that finds the counter
exhausted has no successor. -/
def Step (s : InputController σ × Nat) (l : ControllerCall × ControllerResult)
    (t : InputController σ × Nat) : Prop :=
  l.1.perform S s.1 s.2 = .ok ((l.2, t.1), t.2)

/-- The call is no key event, no reset, and no change of mode, width, punctuation,
scheme or context. -/
def Harmless : ControllerCall → Prop
  | operate (.selectCandidate _) => True
  | operate (.selectPageCandidate _) => True
  | operate _ => False
  | deliver .. => True

end ControllerCall

namespace InputController

/-- The controller shows what its session shows. -/
def Synced (S : SessionApi σ) (c : InputController σ) : Prop :=
  c.snapshot = S.snapshot c.session

/-- Nothing is being composed and no temporary mode is on. -/
structure Idle (c : InputController σ) : Prop where
  preedit : c.snapshot.preedit = []
  localMode : c.snapshot.localMode = .none

theorem Idle.hasComposition {c : InputController σ} (h : c.Idle) : c.hasComposition = false := by
  unfold InputController.hasComposition
  rw [decide_eq_false_iff_not, not_not]
  exact h.preedit

theorem preedit_of_hasComposition {c : InputController σ} (h : c.hasComposition = false) :
    c.snapshot.preedit = [] := by
  unfold InputController.hasComposition at h
  rwa [decide_eq_false_iff_not, not_not] at h

/-- The key that typed `ascii` at `now` on `d`: its result ends with the mark, at
the caret, and the controller remembers it. -/
structure Armed (ascii : Char) (now : Int) (result : ControllerResult)
    (d : InputController σ) : Prop where
  key : d.smartPunctuationHistoryKey = ascii
  time : d.smartPunctuationHistoryTime = now
  mark : ascii ∈ [',', '.', ':']
  handled : result.handled = true
  deleteBefore : result.deleteBefore = 0
  cursorLeft : result.cursorLeft = 0
  cursorRight : result.cursorRight = 0
  commit : ∃ text, result.commit = some (text ++ [ascii])
  idle : d.Idle

/-- What the next key must repeat to replace a mark. -/
structure Replaces (c : InputController σ) (ascii : Char) (precedingCharacter : Option Char)
    (now : Int) (result : ControllerResult) : Prop where
  deleteBefore : result.deleteBefore = 1
  active : c.smartPunctuationHistoryActive = true
  key : c.smartPunctuationHistoryKey = ascii
  preceding : precedingCharacter = some ascii
  notBefore : c.smartPunctuationHistoryTime ≤ now
  within : now - c.smartPunctuationHistoryTime ≤ 2000000000

/-- What an operation on `c` did with the memory of the last mark: a deletion
replaces the remembered mark, and what is remembered afterwards was just typed. -/
structure SmartEffect (S : SessionApi σ) (c : InputController σ) (ascii : Char)
    (precedingCharacter : Option Char) (now : Int)
    (r : ControllerResult × InputController σ) : Prop where
  deletes : r.1.deleteBefore ≠ 0 → Replaces c ascii precedingCharacter now r.1
  remembers : r.2.smartPunctuationHistoryActive = true → Armed ascii now r.1 r.2
  synced : Synced S r.2

theorem shouldKeepAsciiPunctuation_mark {ascii : Char} {precedingCharacter : Option Char}
    (h : shouldKeepAsciiPunctuation ascii precedingCharacter = true) :
    ascii ∈ [',', '.', ':'] := by
  unfold shouldKeepAsciiPunctuation at h
  split at h
  · cases h
  · next hmark =>
    simp only [List.mem_cons, List.not_mem_nil, or_false]
    tauto

/-- What is left of an ASCII mark after pairing: itself, with nothing to close. -/
theorem pairedMark_ascii (c : InputController σ) {ascii : Char}
    (h : ascii ∈ [',', '.', ':']) :
    c.pairedMark ascii [ascii] = [ascii] ∧ pairedPunctuationClosing [ascii] = [] := by
  simp only [List.mem_cons, List.not_mem_nil, or_false] at h
  rcases h with rfl | rfl | rfl <;> exact ⟨by simp [pairedMark], by decide⟩

/-- A typed mark deletes nothing, and is remembered only if it stayed ASCII. -/
theorem typePunctuation_smart (c : InputController σ) {d : InputController σ}
    {result : ControllerResult} {ascii : Char} (punctuation : Text)
    (precedingCharacter reported : Option Char) (now : Int) (hdelete : result.deleteBefore = 0)
    (hleft : result.cursorLeft = 0) (hright : result.cursorRight = 0) (hidle : d.Idle)
    (hsynced : Synced S d) :
    SmartEffect S c ascii reported now
      (d.typePunctuation result ascii punctuation precedingCharacter now) := by
  unfold typePunctuation
  dsimp only
  split
  · exact ⟨fun h => absurd hdelete h, (fun hactive => by cases hactive), hsynced⟩
  split
  · next hkept =>
    simp only [Bool.and_eq_true, decide_eq_true_eq] at hkept
    obtain ⟨⟨-, rfl⟩, hkeep⟩ := hkept
    have hmark := shouldKeepAsciiPunctuation_mark hkeep
    obtain ⟨hpaired, hclosing⟩ := d.pairedMark_ascii hmark
    refine ⟨fun h => absurd hdelete h, fun _ => ?_, hsynced⟩
    refine ⟨rfl, rfl, hmark, rfl, hdelete, ?_, hright, ?_, ⟨hidle.preedit, hidle.localMode⟩⟩
    · simp [hpaired, hclosing, hleft]
    · exact ⟨result.commit.getD [], by simp [hpaired, hclosing]⟩
  · exact ⟨fun h => absurd hdelete h, (fun hactive => by cases hactive), hsynced⟩

/-- The character in front of the caret is the one reported when finishing
committed nothing. -/
theorem precedingAfterCommit_none {commit : Option Text} {precedingCharacter : Option Char}
    (h : commit.getD [] = []) :
    precedingAfterCommit commit precedingCharacter = precedingCharacter := by
  cases commit with
  | none => rfl
  | some text =>
    obtain rfl : text = [] := h
    rfl

variable (hquiet : S.FinishQuiet) (hends : S.FinishEnds) (hmode : S.FinishLeavesMode)
include hquiet hends hmode

/-- **When a mark deletes, and when it is remembered.** -/
theorem commitPunctuation_smart (c : InputController σ) (hsynced : Synced S c) (ascii : Char)
    (precedingCharacter : Option Char) (now : Int) (n : Nat) :
    Ensures (c.commitPunctuation S ascii precedingCharacter now) n fun r _ =>
      SmartEffect S c ascii precedingCharacter now r := by
  unfold commitPunctuation
  refine .seq (c.finishCall_spec _ n) fun r n' hr => ?_
  obtain ⟨result, d⟩ := r
  obtain ⟨rfl, k, g, rfl⟩ := hr
  dsimp only
  have hsession : Synced S { c with
      session := (S.finish c.session c.highlightedCandidate).2
      snapshot := S.snapshot (S.finish c.session c.highlightedCandidate).2
      highlightedCandidate := k
      onlineGeneration := g } := rfl
  split
  · next hreplace =>
    rw [Bool.and_eq_true] at hreplace
    simp only [canReplaceRecentAscii, Bool.and_eq_true, decide_eq_true_eq,
      Bool.not_eq_true'] at hreplace
    obtain ⟨⟨⟨⟨⟨⟨⟨-, hcomposition⟩, hactive⟩, hkey⟩, hpreceding⟩, hbefore⟩, hwithin⟩, -⟩ := hreplace
    -- nothing was composed, so finishing committed nothing and the report stands
    have hnothing := hquiet c.session c.highlightedCandidate
      (by rw [← hsynced]; exact preedit_of_hasComposition hcomposition)
    have hreported : precedingAfterCommit (ControllerResult.ofKeyResult
        (S.finish c.session c.highlightedCandidate).1).commit precedingCharacter =
        precedingCharacter := precedingAfterCommit_none hnothing
    rw [hreported] at hpreceding
    exact .pure ⟨fun _ => ⟨rfl, hactive, hkey, hpreceding, hbefore, hwithin⟩,
      (fun hactive => by cases hactive), hsession⟩
  generalize hd : (if canReplaceRecentAscii _ c.hasComposition ascii _ now = true then _ else _) = d
  have hsyncd : Synced S d := by
    rw [← hd]
    split <;> exact hsession
  have hidle : d.Idle := by
    rw [← hd]
    split <;> exact ⟨hends c.session c.highlightedCandidate, hmode c.session c.highlightedCandidate⟩
  split
  · exact .pure ⟨fun hdelete => absurd rfl hdelete, (fun hactive => by cases hactive), hsyncd⟩
  · exact .pure (typePunctuation_smart c _ _ _ now rfl rfl rfl
      ⟨hidle.preedit, hidle.localMode⟩ hsyncd)

/-! ## Keys -/

/-- What a key did with the memory of the last mark; only a punctuation key
deletes or is remembered. -/
structure KeyEffect (S : SessionApi σ) (c : InputController σ) (event : FrontendKeyEvent)
    (now : Int) (r : ControllerResult × InputController σ) : Prop extends
    SmartEffect S c event.character event.precedingCharacter now r where
  deletesKey : r.1.deleteBefore ≠ 0 → event.key = .punctuation
  remembersKey : r.2.smartPunctuationHistoryActive = true → event.key = .punctuation

omit hquiet hends hmode in
/-- Nothing is deleted and nothing remembered. -/
theorem KeyEffect.ofForgotten {c : InputController σ} {event : FrontendKeyEvent} {now : Int}
    {r : ControllerResult × InputController σ} (hdelete : r.1.deleteBefore = 0)
    (hactive : r.2.smartPunctuationHistoryActive = false) (hsynced : Synced S r.2) :
    KeyEffect S c event now r :=
  have hinactive : ¬ r.2.smartPunctuationHistoryActive = true := by simp [hactive]
  ⟨⟨fun h => absurd hdelete h, fun h => absurd h hinactive, hsynced⟩,
    fun h => absurd hdelete h, fun h => absurd h hinactive⟩

omit hquiet hends hmode in
/-- The memory a key finds is the controller's or none. -/
theorem KeyEffect.of_recalled {c : InputController σ} {event : FrontendKeyEvent} {now : Int}
    {r : ControllerResult × InputController σ} (h : KeyEffect S (c.recalled event) event now r) :
    KeyEffect S c event now r := by
  refine ⟨⟨fun hdelete => ?_, h.remembers, h.synced⟩, h.deletesKey, h.remembersKey⟩
  have hreplaces := h.deletes hdelete
  unfold recalled at hreplaces
  split at hreplaces
  · cases hreplaces.active
  · exact hreplaces

theorem commitPunctuation_keyEffect (c : InputController σ) (hsynced : Synced S c)
    (event : FrontendKeyEvent) (now : Int) (n : Nat) (hkey : event.key = .punctuation) :
    Ensures (c.commitPunctuation S event.character event.precedingCharacter now) n fun r _ =>
      KeyEffect S c event now r :=
  (commitPunctuation_smart hquiet hends hmode c hsynced _ _ now n).mono fun _ _ hr =>
    ⟨hr, fun _ => hkey, fun _ => hkey⟩

/-- A key on a controller that remembers nothing. -/
theorem keyRoutine_keyEffect (hS : S.UnhandledUnchanged) {c : InputController σ}
    (hsynced : Synced S c) (hactive : c.smartPunctuationHistoryActive = false)
    {event : FrontendKeyEvent} {now : Int} {op : Draw (ControllerResult × InputController σ)}
    {n : Nat} (h : KeyRoutine S c event now op) :
    Ensures op n fun r _ => KeyEffect S c event now r := by
  cases h with
  | call _ =>
    refine (c.finishCall_spec _ n).mono fun r _ hr => ?_
    obtain ⟨result, d⟩ := r
    obtain ⟨rfl, k, g, rfl⟩ := hr
    exact .ofForgotten rfl hactive rfl
  | move handled k hs =>
    rw [hs.eq hS]
    exact .pure (.ofForgotten rfl hactive hsynced)
  | punctuation hkey hs =>
    rw [hs.eq hS]
    exact commitPunctuation_keyEffect hquiet hends hmode c hsynced event now n hkey
  | widen ch _ hs =>
    rw [hs.eq hS]
    refine .pure (.ofForgotten ?_ hactive hsynced)
    unfold commitFullWidth
    split
    · rfl
    · dsimp only
      split <;> rfl

omit hquiet hends hmode in
/-- What is still remembered after `recalled` is the key itself. -/
theorem recalled_active {c : InputController σ} {event : FrontendKeyEvent}
    (h : (c.recalled event).smartPunctuationHistoryActive = true) :
    event.key = .punctuation ∧ c.recalled event = c := by
  unfold recalled at h ⊢
  split at h
  · cases h
  · next hsame =>
    rw [not_or, not_not, not_not] at hsame
    exact ⟨hsame.1, if_neg (by simp [hsame])⟩

/-- **Every branch of `handle_key`**, on the memory of the last mark. -/
theorem handleKey_keyEffect (hS : S.UnhandledUnchanged) (c : InputController σ)
    (hsynced : Synced S c) (hidle : c.smartPunctuationHistoryActive = true → c.Idle)
    (event : FrontendKeyEvent) (now : Int) (n : Nat) :
    Ensures (c.handleKey S event now) n fun r _ => KeyEffect S c event now r := by
  have hsynced' : Synced S (c.recalled event) := by
    unfold recalled
    split <;> exact hsynced
  have hsettled : ∀ {op : Draw (ControllerResult × InputController σ)},
      Ensures op n (fun r _ => Settled S (c.recalled event) r) →
      Ensures op n fun r _ => KeyEffect S c event now r :=
    fun h => h.mono fun _ _ hr => .ofForgotten hr.deleteBefore hr.forgotten (hr.synced hsynced')
  cases hhost : event.hostShortcut with
  | true =>
    rw [c.handleKey_hostShortcut event now hhost]
    refine .seq (finishCall_spec _ _ n) fun r n' hr => ?_
    obtain ⟨result, d⟩ := r
    obtain ⟨rfl, k, g, rfl⟩ := hr
    refine .seq (invalidateContext_spec _ n') fun e _ he => .pure ?_
    obtain ⟨g', rfl⟩ := he
    exact .ofForgotten rfl rfl rfl
  | false =>
    rcases c.handleKey_routine (S := S) event now hhost with ⟨-, h⟩ | ⟨-, h⟩ | ⟨-, h⟩ | h
    · rw [h]
      exact hsettled (setPunctuationMode_settled _ _ n)
    · rw [h]
      exact hsettled (setCharacterWidth_settled _ _ n)
    · rw [h]
      exact hsettled (toggleDedicatedEnglishMode_settled _ n)
    · cases hactive : (c.recalled event).smartPunctuationHistoryActive with
      | false =>
        exact (keyRoutine_keyEffect hquiet hends hmode hS hsynced' hactive h).mono
          fun _ _ hr => hr.of_recalled
      | true =>
        -- the key is the remembered one, and with nothing composed it types its mark
        obtain ⟨hkey, hsame⟩ := recalled_active hactive
        rw [hsame] at hactive
        have hquietly := hidle hactive
        have hmark : c.handleKey S event now =
            c.commitPunctuation S event.character event.precedingCharacter now := by
          rw [c.handleKey_punctuation event now hhost hkey, hsame]
          split
          · unfold imePunctuation
            rw [if_neg (by simp [localInputMode, hquietly.localMode]),
              if_neg (by simp [hquietly.hasComposition]),
              if_pos (by simp [hquietly.hasComposition])]
          · rfl
        rw [hmark]
        exact commitPunctuation_keyEffect hquiet hends hmode c hsynced event now n hkey

end InputController

/-! ## What is remembered along a run -/

/-- The result of a key that typed an ASCII mark at the caret. -/
structure TypedMark (event : FrontendKeyEvent) (result : ControllerResult) : Prop where
  key : event.key = .punctuation
  mark : event.character ∈ [',', '.', ':']
  deleteBefore : result.deleteBefore = 0
  cursorLeft : result.cursorLeft = 0
  cursorRight : result.cursorRight = 0
  commit : ∃ text, result.commit = some (text ++ [event.character])

/-- `calls` ends with a key that typed the mark `c` remembers, at the time `c`
remembers; only harmless calls came after it. -/
def LastMark (calls : List (ControllerCall × ControllerResult)) (c : InputController σ) : Prop :=
  ∃ prior event now result between,
    calls = prior ++ (ControllerCall.key event now, result) :: between ∧
    TypedMark event result ∧ event.character = c.smartPunctuationHistoryKey ∧
    now = c.smartPunctuationHistoryTime ∧ ∀ call ∈ between, call.1.Harmless

/-- What holds of a controller after the calls `calls`. -/
structure Recalls (S : SessionApi σ) (calls : List (ControllerCall × ControllerResult))
    (c : InputController σ) : Prop where
  synced : Synced S c
  remembered : c.smartPunctuationHistoryActive = true → c.Idle ∧ LastMark calls c

/-- Nothing is remembered. -/
theorem Recalls.ofForgotten {calls : List (ControllerCall × ControllerResult)}
    {c : InputController σ} (hsynced : Synced S c)
    (h : c.smartPunctuationHistoryActive = false) : Recalls S calls c where
  synced := hsynced
  remembered hactive := by
    rw [h] at hactive
    cases hactive

/-- A harmless call that leaves the memory alone and opens nothing. -/
theorem Recalls.harmless {calls : List (ControllerCall × ControllerResult)}
    {c d : InputController σ} {call : ControllerCall} {result : ControllerResult}
    (h : Recalls S calls c) (hharmless : call.Harmless) (hsynced : Synced S d)
    (hactive : d.smartPunctuationHistoryActive = c.smartPunctuationHistoryActive)
    (hkey : d.smartPunctuationHistoryKey = c.smartPunctuationHistoryKey)
    (htime : d.smartPunctuationHistoryTime = c.smartPunctuationHistoryTime)
    (hidle : c.Idle → d.Idle) : Recalls S (calls ++ [(call, result)]) d where
  synced := hsynced
  remembered hd := by
    rw [hactive] at hd
    obtain ⟨hi, prior, event, now, typed, between, rfl, hmark, hk, ht, hbetween⟩ := h.remembered hd
    refine ⟨hidle hi, prior, event, now, typed, between ++ [(call, result)], ?_, hmark,
      hk.trans hkey.symm, ht.trans htime.symm, ?_⟩
    · rw [List.append_assoc, List.cons_append]
    · intro l hl
      rcases List.mem_append.mp hl with hold | hnew
      · exact hbetween l hold
      · rw [List.mem_singleton.mp hnew]
        exact hharmless

/-- What a deletion has to be: of the mark the run's last key event typed. -/
structure DeletesLastMark (calls : List (ControllerCall × ControllerResult))
    (call : ControllerCall) (result : ControllerResult) : Prop where
  one : result.deleteBefore = 1
  replaces : ∃ event now prior last lastNow typed between,
    call = .key event now ∧
    calls = prior ++ (ControllerCall.key last lastNow, typed) :: between ∧
    TypedMark last typed ∧ (∀ l ∈ between, l.1.Harmless) ∧
    event.key = .punctuation ∧ event.character = last.character ∧
    event.precedingCharacter = some event.character ∧
    lastNow ≤ now ∧ now - lastNow ≤ 2000000000

section Runs

variable (hS : S.UnhandledUnchanged) (hframe : S.OnlineFrame) (hquiet : S.FinishQuiet)
  (hends : S.FinishEnds) (hmode : S.FinishLeavesMode) (hselect : S.SelectOpensNothing)
include hS hframe hquiet hends hmode hselect

omit hframe hselect in
theorem key_recalls {calls : List (ControllerCall × ControllerResult)} {c d : InputController σ}
    {event : FrontendKeyEvent} {now : Int} {result : ControllerResult} {n n' : Nat}
    (h : Recalls S calls c) (hrun : c.handleKey S event now n = .ok ((result, d), n')) :
    Recalls S (calls ++ [(.key event now, result)]) d ∧
    (result.deleteBefore ≠ 0 → DeletesLastMark calls (.key event now) result) := by
  have heffect := (handleKey_keyEffect hquiet hends hmode hS c h.synced
    (fun hactive => (h.remembered hactive).1) event now n).apply hrun
  refine ⟨⟨heffect.synced, fun hactive => ?_⟩, fun hdelete => ?_⟩
  · have harmed := heffect.remembers hactive
    exact ⟨harmed.idle, calls, event, now, result, [], rfl,
      ⟨heffect.remembersKey hactive, harmed.mark, harmed.deleteBefore, harmed.cursorLeft,
        harmed.cursorRight, harmed.commit⟩, harmed.key.symm, harmed.time.symm,
      fun _ hnone => by cases hnone⟩
  · have hreplaces := heffect.deletes hdelete
    obtain ⟨-, prior, last, lastNow, typed, between, hcalls, hmark, hk, ht, hbetween⟩ :=
      h.remembered hreplaces.active
    have hbefore := hreplaces.notBefore
    have hwithin := hreplaces.within
    rw [← ht] at hbefore hwithin
    exact ⟨hreplaces.deleteBefore, event, now, prior, last, lastNow, typed, between, rfl, hcalls,
      hmark, hbetween, heffect.deletesKey hdelete, hreplaces.key.symm.trans hk.symm,
      hreplaces.preceding, hbefore, hwithin⟩

omit hquiet hends hmode hframe hselect hS in
/-- A setter, and the calls that end a context, delete nothing and forget. -/
theorem settled_recalls {calls : List (ControllerCall × ControllerResult)}
    {d : InputController σ} {call : ControllerCall} {result : ControllerResult}
    (hdelete : result.deleteBefore = 0) (hsynced : Synced S d)
    (hforgotten : d.smartPunctuationHistoryActive = false) :
    Recalls S (calls ++ [(call, result)]) d ∧
    (result.deleteBefore ≠ 0 → DeletesLastMark calls call result) :=
  ⟨.ofForgotten hsynced hforgotten, fun h => absurd hdelete h⟩

omit hquiet hends hmode hframe hS in
/-- Selecting a candidate. -/
theorem select_recalls {calls : List (ControllerCall × ControllerResult)}
    {c : InputController σ} (h : Recalls S calls c) (call : ControllerCall)
    (hharmless : call.Harmless) (i n : Nat) :
    Ensures (c.selectCandidate S i) n fun r _ =>
      Recalls S (calls ++ [(call, r.1)]) r.2 ∧
      (r.1.deleteBefore ≠ 0 → DeletesLastMark calls call r.1) := by
  refine (c.finishCall_spec _ n).mono fun r _ hr => ?_
  obtain ⟨result, d⟩ := r
  obtain ⟨rfl, k, g, rfl⟩ := hr
  refine ⟨h.harmless hharmless rfl rfl rfl rfl fun hidle => ?_, fun hdelete => absurd rfl hdelete⟩
  obtain ⟨hpreedit, hlocal⟩ := hselect c.session i (h.synced ▸ hidle.preedit)
    (h.synced ▸ hidle.localMode)
  exact ⟨hpreedit, hlocal⟩

omit hquiet hends hmode hselect in
/-- Delivering an online candidate. -/
theorem deliver_recalls {calls : List (ControllerCall × ControllerResult)}
    {c : InputController σ} (h : Recalls S calls c) (generation : Nat) (query : OnlineQuery)
    (candidate : Text) (source : CandidateSource) :
    Recalls S (calls ++ [(.deliver generation query candidate source, ({} : ControllerResult))])
      (c.applyOnlineCandidate S generation query candidate source).2 := by
  unfold applyOnlineCandidate
  split
  · exact h.harmless trivial h.synced rfl rfl rfl id
  dsimp only
  split
  · next hrefused =>
    have hsame := hS.applyOnlineCandidate c.session query candidate source
      (by simpa using hrefused)
    rw [hsame]
    exact h.harmless trivial h.synced rfl rfl rfl fun hi => ⟨hi.preedit, hi.localMode⟩
  · have hinput := hframe c.session query candidate source
    have hidle : c.Idle → (S.snapshot
        (S.applyOnlineCandidate c.session query candidate source).2).preedit = [] ∧
        (S.snapshot
        (S.applyOnlineCandidate c.session query candidate source).2).localMode = .none :=
      fun hi => ⟨hinput.preedit ▸ h.synced ▸ hi.preedit, hinput.localMode ▸ h.synced ▸ hi.localMode⟩
    split
    · exact h.harmless trivial rfl rfl rfl rfl fun hi => ⟨(hidle hi).1, (hidle hi).2⟩
    · exact h.harmless trivial rfl rfl rfl rfl fun hi => ⟨(hidle hi).1, (hidle hi).2⟩

omit hframe in
/-- **Every call of the controller**, on the memory of the last mark. -/
theorem operate_recalls {calls : List (ControllerCall × ControllerResult)}
    {c : InputController σ} (h : Recalls S calls c) (op : Operation) (n : Nat) :
    Ensures (op.perform S c) n fun r _ =>
      Recalls S (calls ++ [(.operate op, r.1)]) r.2 ∧
      (r.1.deleteBefore ≠ 0 → DeletesLastMark calls (.operate op) r.1) := by
  -- a call that deletes nothing and forgets the mark, or keeps it
  have hsettled : ∀ {m : Draw (ControllerResult × InputController σ)},
      Ensures m n (fun r _ => Settled S c r) → Ensures m n fun r _ =>
        Recalls S (calls ++ [(.operate op, r.1)]) r.2 ∧
        (r.1.deleteBefore ≠ 0 → DeletesLastMark calls (.operate op) r.1) :=
    fun hm => hm.mono fun _ _ hr =>
      settled_recalls hr.deleteBefore (hr.synced h.synced) hr.forgotten
  cases op with
  | handleKey event now =>
    intro r n' hrun
    exact key_recalls hS hquiet hends hmode h hrun
  | selectCandidate i => exact select_recalls hselect h (.operate (.selectCandidate i)) trivial i n
  | selectPageCandidate i =>
    show Ensures (InputController.selectPageCandidate S c i) n _
    unfold InputController.selectPageCandidate
    split
    · exact .pure ⟨h.harmless trivial h.synced rfl rfl rfl id, fun hdelete => absurd rfl hdelete⟩
    · exact select_recalls hselect h (.operate (.selectPageCandidate i)) trivial _ n
  | setMode mode => exact hsettled (c.setMode_settled mode n)
  | toggleMode => exact hsettled (c.setMode_settled _ n)
  | setPunctuationMode mode => exact hsettled (c.setPunctuationMode_settled mode n)
  | setPunctuationLock lock =>
    exact hsettled (.seq (c.setPunctuationLock_settled lock n) fun _ _ hd => .pure hd)
  | togglePunctuationMode => exact hsettled (c.setPunctuationMode_settled _ n)
  | setCharacterWidth width => exact hsettled (c.setCharacterWidth_settled width n)
  | toggleCharacterWidth => exact hsettled (c.setCharacterWidth_settled _ n)
  | toggleDedicatedEnglishMode => exact hsettled (c.toggleDedicatedEnglishMode_settled n)
  | switchScheme schemeType => exact hsettled (c.switchScheme_settled schemeType n)
  | reset =>
    refine .seq (c.reset_spec n) fun d _ hd => .pure ?_
    obtain ⟨s, k, g, rfl⟩ := hd
    exact settled_recalls rfl rfl rfl
  | invalidateContext =>
    refine .seq (c.invalidateContext_spec n) fun d _ hd => .pure ?_
    obtain ⟨g, rfl⟩ := hd
    exact settled_recalls rfl h.synced rfl

/-- **The step lemma**: what every call keeps of the memory, and what a call that
deletes has to be. -/
theorem call_recalls {calls : List (ControllerCall × ControllerResult)}
    {c : InputController σ} (h : Recalls S calls c) (call : ControllerCall) (n : Nat) :
    Ensures (call.perform S c) n fun r _ =>
      Recalls S (calls ++ [(call, r.1)]) r.2 ∧
      (r.1.deleteBefore ≠ 0 → DeletesLastMark calls call r.1) := by
  cases call with
  | operate op => exact operate_recalls hS hquiet hends hmode hselect h op n
  | deliver generation query candidate source =>
    exact .pure ⟨deliver_recalls hS hframe h generation query candidate source,
      fun hdelete => absurd rfl hdelete⟩

/-- **Smart punctuation deletes only what it typed.** Take any run of calls on a
controller as its constructor leaves it, with any keys, times and changes of
context, and any call of it. If the result deletes, it deletes one character; the
call is a punctuation key, and the key event before it was the same key, typed its
ASCII mark at the caret, deleted nothing and is at most two seconds old by the
clock the calls report; the character in front of the caret is that mark; and in
between no other key came, no reset, and no change of mode, width, punctuation,
scheme or context. -/
theorem smartPunctuation_deletes {schemeType : SchemeType} {options : InputOptions}
    {paths : RuntimePaths} {n₀ n₁ : Nat} {c : InputController σ} {t : InputController σ × Nat}
    (before : List (ControllerCall × ControllerResult)) {call : ControllerCall}
    {result : ControllerResult} {after : List (ControllerCall × ControllerResult)}
    (hcreate : InputController.create S schemeType options paths n₀ = .ok (some c, n₁))
    (hrun : Run (ControllerCall.Step S) (c, n₁) (before ++ (call, result) :: after) t)
    (hdelete : result.deleteBefore ≠ 0) : DeletesLastMark before call result := by
  obtain ⟨s, hbefore, hrest⟩ := hrun.split
  have hcreated : Fresh S c := (create_fresh _ _ _ _).apply hcreate c rfl
  have hfresh : Recalls S [] c := .ofForgotten hcreated.synced hcreated.forgotten
  have hrecalls : Recalls S ([] ++ before) s.1 :=
    hbefore.history (I := fun calls s => Recalls S calls s.1) (fun calls s l u h hs =>
      ((call_recalls hS hframe hquiet hends hmode hselect h l.1 s.2).apply hs).1) hfresh
  cases hrest with
  | cons hs _ =>
    exact ((call_recalls hS hframe hquiet hends hmode hselect hrecalls call s.2).apply hs).2 hdelete

end Runs

/-! ## One session to type on -/

/-- The typing session without temporary modes. -/
def plainSession : SessionApi SessionSnapshot :=
  { typingSession with snapshot := fun s => { s with localMode := .none } }

theorem plainSession_unhandledUnchanged : plainSession.UnhandledUnchanged where
  character := typingSession_unhandledUnchanged.character
  command := typingSession_unhandledUnchanged.command
  select := typingSession_unhandledUnchanged.select
  selectEdge := typingSession_unhandledUnchanged.selectEdge
  finish := typingSession_unhandledUnchanged.finish
  applyOnlineCandidate := typingSession_unhandledUnchanged.applyOnlineCandidate

theorem plainSession_onlineFrame : plainSession.OnlineFrame := by
  intro s q t src
  have h := typingSession_onlineFrame s q t src
  exact ⟨h.preedit, h.rawSegmentation, h.normalizedSegmentation, rfl, h.dedicatedEnglish, h.scheme⟩

theorem plainSession_finishQuiet : plainSession.FinishQuiet := by
  intro s i hempty
  show (typingSession.finish s i).1.commit.getD [] = []
  have hpreedit : s.preedit = [] := hempty
  simp [typingSession, hpreedit]

theorem plainSession_finishEnds : plainSession.FinishEnds :=
  fun s i => typingSession_finishEnds s i

/-- A comma behind a letter stays ASCII; the same key a second later replaces it. -/
theorem smartPunctuation_deletes_comma :
    ∃ (c : InputController SessionSnapshot) (t : InputController SessionSnapshot × Nat)
      (first second : ControllerResult),
      InputController.create plainSession .quanpin plainOptions plainPaths 0 = .ok (some c, 1) ∧
      Run (ControllerCall.Step plainSession) (c, 1)
        [(.key { key := .punctuation, character := ',', precedingCharacter := some 'a' } 0, first),
          (.key { key := .punctuation, character := ',', precedingCharacter := some ',' }
            1000000000, second)] t ∧
      first.commit = some [','] ∧ second.commit = some ['，'] ∧
      DeletesLastMark
        [(.key { key := .punctuation, character := ',', precedingCharacter := some 'a' } 0, first)]
        (.key { key := .punctuation, character := ',', precedingCharacter := some ',' } 1000000000)
        second := by
  obtain ⟨c, t, first, second, hcreate, hrun, hfirst, hsecond, hdelete⟩ :
      ∃ (c : InputController SessionSnapshot) (t : InputController SessionSnapshot × Nat)
        (first second : ControllerResult),
        InputController.create plainSession .quanpin plainOptions plainPaths 0 = .ok (some c, 1) ∧
        Run (ControllerCall.Step plainSession) (c, 1)
          [(.key { key := .punctuation, character := ',', precedingCharacter := some 'a' } 0,
            first),
            (.key { key := .punctuation, character := ',', precedingCharacter := some ',' }
              1000000000, second)] t ∧
        first.commit = some [','] ∧ second.commit = some ['，'] ∧ second.deleteBefore ≠ 0 :=
    ⟨_, (_, _), _, _, rfl, .cons (t := (_, _)) rfl (.single rfl), rfl, rfl, by decide⟩
  exact ⟨c, t, first, second, hcreate, hrun, hfirst, hsecond,
    smartPunctuation_deletes plainSession_unhandledUnchanged plainSession_onlineFrame
      plainSession_finishQuiet plainSession_finishEnds (fun _ _ => rfl)
      (fun _ _ hpreedit hlocal => ⟨hpreedit, hlocal⟩) [_] hcreate hrun hdelete⟩

end MsimeLinux
