import MsimeLinux.Lib.Run
import MsimeLinux.Input.OnlineDelivery
import MsimeLinux.Input.Routines

/-!
# The highlighted candidate and its page (`InputController.cpp`)

The controller keeps one index into the candidate list; the page on display is the one
that index lies on. The list is the session's, and every call may change it.

- `Placed`: the index points into the session's present list. Every operation keeps it.
- `movePage_page`: what a page key does to the page.
- `highlight_placed`: in every run the index is placed, digits and page positions select
  the candidate on display there, and page keys move by one page.
-/

namespace MsimeLinux

open Lib

namespace SessionApi

variable {σ : Type}

/-- Accepting an online candidate takes nothing off the list. -/
def OnlineGrows (S : SessionApi σ) : Prop :=
  ∀ s q t src, (S.applyOnlineCandidate s q t src).1 = true →
    (S.snapshot s).candidates.length ≤
      (S.snapshot (S.applyOnlineCandidate s q t src).2).candidates.length

/-- A session refuses to select what is not on its list. -/
def RefusesAbsent (S : SessionApi σ) : Prop :=
  ∀ s i, (S.snapshot s).candidates.length ≤ i →
    (S.select s i).1.handled = false ∧ (S.select s i).1.commit = none

end SessionApi

namespace InputController

variable {σ : Type} {S : SessionApi σ}

/-! ## Pages -/

/-- The page of the highlighted candidate, and the last one. -/
def page (c : InputController σ) : Nat := c.highlightedCandidate / c.pageSize
def lastPage (c : InputController σ) : Nat := (c.candidates.length - 1) / c.pageSize

/-- The candidates of the page. -/
def displayed (c : InputController σ) : List WordItem :=
  (c.candidates.drop c.pageStart).take c.pageSize

/-- What is on display at a position. -/
theorem getElem?_displayed (c : InputController σ) (i : Nat) :
    c.displayed[i]? = if i < c.pageSize then c.candidates[c.pageStart + i]? else none := by
  rw [displayed, List.getElem?_take, List.getElem?_drop]

/-- The page on display is the one the highlighted candidate is on. -/
theorem pageStart_le (c : InputController σ) : c.pageStart ≤ c.highlightedCandidate ∧
    c.highlightedCandidate < c.pageStart + c.pageSize := by
  have hdiv := Nat.div_add_mod c.highlightedCandidate c.pageSize
  have hmod := Nat.mod_lt c.highlightedCandidate c.pageSize_pos
  unfold pageStart
  rw [Nat.mul_comm]
  omega

/-- **A page key** moves by one page, as far as there are pages. -/
theorem movePage_page (c : InputController σ) (hcomposition : c.hasComposition = true)
    (hlist : c.candidates ≠ []) :
    (c.movePage true).2.page = min (c.page + 1) c.lastPage ∧
      (c.movePage false).2.page = c.page - 1 := by
  have hopen : (!c.hasComposition || c.candidates.isEmpty) = false := by
    simp [hcomposition, hlist]
  have hpos := c.pageSize_pos
  unfold movePage
  rw [hopen]
  simp only [Bool.false_eq_true, if_false, if_true, page, lastPage]
  constructor
  · -- division is monotone, and one page more is one more in the quotient
    have hnext : (c.highlightedCandidate + c.pageSize) / c.pageSize =
        c.highlightedCandidate / c.pageSize + 1 := Nat.add_div_right _ hpos
    show min (c.highlightedCandidate + c.pageSize) (c.candidates.length - 1) / c.pageSize = _
    rcases Nat.le_total (c.highlightedCandidate + c.pageSize) (c.candidates.length - 1) with h | h
    · rw [Nat.min_eq_left h, hnext]
      have := Nat.div_le_div_right (c := c.pageSize) h
      omega
    · rw [Nat.min_eq_right h]
      have := Nat.div_le_div_right (c := c.pageSize) h
      omega
  · show (if _ then _ else _) / c.pageSize = _
    split
    · next hfar =>
      rw [Nat.div_eq_sub_div hpos (Nat.le_of_lt hfar), Nat.add_sub_cancel]
    · next hnear =>
      rw [Nat.zero_div]
      have := Nat.div_le_div_right (c := c.pageSize) (Nat.not_lt.mp hnear)
      rw [Nat.div_self hpos] at this
      omega

/-! ## The index is placed -/

/-- The controller's list is the session's, and the index points into it. -/
structure Placed (S : SessionApi σ) (c : InputController σ) : Prop where
  synced : c.snapshot = S.snapshot c.session
  within : c.highlightedCandidate < c.candidates.length ∨
    c.candidates = [] ∧ c.highlightedCandidate = 0

section

variable {c d : InputController σ}

/-- What leaves session, list and index alone keeps the index placed. -/
theorem Placed.unmoved (h : Placed S c) (hsession : d.session = c.session)
    (hsnapshot : d.snapshot = c.snapshot)
    (hindex : d.highlightedCandidate = c.highlightedCandidate) : Placed S d := by
  refine ⟨?_, ?_⟩
  · rw [hsnapshot, hsession, h.synced]
  · unfold candidates
    rw [hsnapshot, hindex]
    exact h.within

/-- A new controller highlights the first candidate. -/
theorem create_highlight (schemeType : SchemeType) (options : InputOptions)
    (paths : RuntimePaths) (n : Nat) :
    Ensures (InputController.create S schemeType options paths) n fun r _ =>
      ∀ c, r = some c → c.highlightedCandidate = 0 := by
  unfold InputController.create
  split
  · exact .pure fun c hc => by cases hc
  refine .bind fun generation n' _ => ?_
  split
  · split
    · exact .pure fun c hc => by cases hc
    · refine .pure fun c hc => ?_
      cases hc
      rfl
  · exact .pure fun c hc => by cases hc

/-- The first candidate is there, or there is none. -/
theorem Placed.first (hsynced : d.snapshot = S.snapshot d.session)
    (hindex : d.highlightedCandidate = 0) : Placed S d := by
  refine ⟨hsynced, ?_⟩
  rw [hindex]
  cases hlist : d.candidates with
  | nil => exact .inr ⟨rfl, rfl⟩
  | cons word words => exact .inl (Nat.succ_pos _)

/-- Moving the highlight keeps it on the page. -/
theorem Placed.moveCursor (h : Placed S c) (forward : Bool) :
    Placed S (c.moveCursor forward).2 := by
  unfold InputController.moveCursor
  split
  · exact h
  next hopen =>
    rw [Bool.not_eq_true, Bool.or_eq_false_iff] at hopen
    have hpos : 0 < c.candidates.length := by
      rw [List.length_pos_iff]
      intro hnil
      simp [hnil] at hopen
    have hwithin := h.within.resolve_right fun hempty => by simp [hempty.1] at hpos
    split
    · refine ⟨h.synced, .inl ?_⟩
      show min (c.highlightedCandidate + 1) (c.candidates.length - 1) < c.candidates.length
      omega
    · refine ⟨h.synced, .inl ?_⟩
      show c.highlightedCandidate - 1 < c.candidates.length
      omega

/-- Turning the page takes it along. -/
theorem Placed.movePage (h : Placed S c) (forward : Bool) :
    Placed S (c.movePage forward).2 := by
  unfold InputController.movePage
  split
  · exact h
  next hopen =>
    rw [Bool.not_eq_true, Bool.or_eq_false_iff] at hopen
    have hpos : 0 < c.candidates.length := by
      rw [List.length_pos_iff]
      intro hnil
      simp [hnil] at hopen
    have hwithin := h.within.resolve_right fun hempty => by simp [hempty.1] at hpos
    split
    · refine ⟨h.synced, .inl ?_⟩
      show min (c.highlightedCandidate + c.pageSize) (c.candidates.length - 1) < c.candidates.length
      omega
    · refine ⟨h.synced, .inl ?_⟩
      show (if c.pageSize < c.highlightedCandidate then c.highlightedCandidate - c.pageSize
        else 0) < c.candidates.length
      split <;> omega

/-! ## Calls -/

/-- A computation that leaves the index placed. -/
abbrev Places (S : SessionApi σ) (m : Draw (ControllerResult × InputController σ)) (n : Nat) :
    Prop :=
  Ensures m n fun r _ => Placed S r.2

variable (hS : S.UnhandledUnchanged)
include hS

/-- A session call: what was handled puts the index on the first candidate, and what was
not has changed nothing. -/
theorem Placed.finishCall (h : Placed S c) {call : KeyResult × σ} (hcall : S.Call c.session call)
    (n : Nat) : Places S (c.finishCall S call) n := by
  unfold InputController.finishCall finishCompositionMutation
  dsimp only
  split
  · refine .seq (renewGeneration_spec _ n) fun d _ hd => .pure ?_
    obtain ⟨g, rfl⟩ := hd
    exact .first rfl rfl
  · next hunhandled =>
    rw [Bool.not_eq_true] at hunhandled
    have hsession : call.2 = c.session :=
      SessionApi.Refused.eq hS (.call hcall hunhandled)
    refine .pure (h.unmoved hsession ?_ rfl)
    show S.snapshot call.2 = c.snapshot
    rw [hsession, h.synced]

/-- After a call that was refused. -/
theorem Placed.refused (h : Placed S c) {s : σ} (hs : S.Refused c.session s) :
    Placed S (c.withSession s) := by
  obtain rfl := hs.eq hS
  exact h

/-- A selection places it anew. -/
theorem Placed.selectPageCandidate (h : Placed S c) (i n : Nat) :
    Places S (c.selectPageCandidate S i) n := by
  unfold InputController.selectPageCandidate
  split
  · exact .pure h
  · exact h.finishCall hS (.select _) n

theorem Placed.commitHighlighted (h : Placed S c) (n : Nat) :
    Places S (c.commitHighlighted S) n := by
  unfold InputController.commitHighlighted
  split
  · exact .pure h
  split
  · exact h.finishCall hS (.command _) n
  · exact h.finishCall hS (.select _) n

/-- Behind the call, punctuation is a matter of marks alone. -/
theorem Placed.commitPunctuation (h : Placed S c) (ascii : Char)
    (precedingCharacter : Option Char) (now : Int) (n : Nat) :
    Places S (c.commitPunctuation S ascii precedingCharacter now) n := by
  have htype : ∀ {d : InputController σ} (result : ControllerResult) (punctuation : Text)
      (preceding : Option Char), Placed S d →
      Placed S (d.typePunctuation result ascii punctuation preceding now).2 := by
    intro d result punctuation preceding hd
    unfold typePunctuation
    dsimp only
    split
    · exact hd.unmoved rfl rfl rfl
    · split <;> exact hd.unmoved rfl rfl rfl
  unfold InputController.commitPunctuation
  refine .seq (h.finishCall hS (.finish _) n) fun r n' hr => ?_
  obtain ⟨result, d⟩ := r
  dsimp only at hr ⊢
  split
  · exact .pure (hr.unmoved rfl rfl rfl)
  · generalize hd : (if d.canReplaceRecentAscii c.hasComposition ascii
      (precedingAfterCommit result.commit precedingCharacter) now = true then _ else d) = e
    have he : Placed S e := by
      rw [← hd]
      split <;> exact hr.unmoved rfl rfl rfl
    split
    · exact .pure (he.unmoved rfl rfl rfl)
    · exact .pure (htype _ _ _ (he.unmoved rfl rfl rfl))

/-! ## Keys -/

/-- The branches of the key handler. -/
theorem Placed.pageOrCommit (h : Placed S c) (event : FrontendKeyEvent) (now : Int) (n : Nat) :
    Places S (c.pageOrCommit S event now) n := by
  unfold InputController.pageOrCommit
  split
  · exact .pure (h.movePage _)
  · exact h.commitPunctuation hS _ _ now n

theorem Placed.localPunctuation (h : Placed S c) (event : FrontendKeyEvent) (now : Int)
    (n : Nat) : Places S (c.localPunctuation S event now) n := by
  unfold InputController.localPunctuation
  split
  · exact h.selectPageCandidate hS _ n
  dsimp only
  split
  · exact .pure (h.movePage _)
  split
  · exact h.finishCall hS (.character _ _) n
  · next hunhandled =>
    rw [Bool.not_eq_true] at hunhandled
    have hd := h.refused hS (.call (.character _ _) hunhandled)
    exact hd.commitPunctuation hS _ _ now n

theorem Placed.imePunctuation (h : Placed S c) (event : FrontendKeyEvent) (now : Int) (n : Nat) :
    Places S (c.imePunctuation S event now) n := by
  unfold InputController.imePunctuation
  split
  · exact h.localPunctuation hS event now n
  split
  · exact h.finishCall hS (.character _ _) n
  split
  · exact h.commitPunctuation hS _ _ now n
  split
  · exact .pure (h.movePage _)
  split
  · dsimp only
    split
    · exact h.finishCall hS (.selectEdge _ _) n
    · next hunhandled =>
      rw [Bool.not_eq_true] at hunhandled
      exact (h.refused hS (.call (.selectEdge _ _) hunhandled)).pageOrCommit hS event now n
  · exact h.pageOrCommit hS event now n

omit hS in
/-- A result handed back as `some`: the key is done. -/
theorem places_map_some {op : Draw (ControllerResult × InputController σ)} {n : Nat}
    (h : Places S op n) :
    Ensures (return (← op).map some id : Draw (Option ControllerResult × InputController σ))
      n fun r _ => Placed S r.2 :=
  .seq h fun _ _ hd => .pure hd

/-- The keys the IME mode looks at, case by case. -/
theorem Placed.imeKey (h : Placed S c) (event : FrontendKeyEvent) (now : Int) (n : Nat) :
    Ensures (c.imeKey S event now) n fun r _ => Placed S r.2 := by
  unfold InputController.imeKey
  split
  · dsimp only
    split
    · exact places_map_some (h.finishCall hS (.character _ _) n)
    · next hquiet =>
      rw [Bool.or_eq_true, not_or, Bool.not_eq_true] at hquiet
      exact .pure (h.refused hS (.call (.character _ _) hquiet.1))
  · exact places_map_some (h.imePunctuation hS event now n)
  · exact places_map_some (h.finishCall hS (.command _) n)
  · exact places_map_some (h.finishCall hS (.command _) n)
  · exact places_map_some (h.finishCall hS (.command _) n)
  · split
    · exact places_map_some (h.commitHighlighted hS n)
    · exact .pure h
  · split
    · exact places_map_some (h.finishCall hS (.character _ _) n)
    split
    · exact .pure h
    split
    · exact .pure h
    split
    · exact .pure h
    split
    · exact places_map_some (h.finishCall hS (.select _) n)
    · exact .pure h
  · exact .pure (h.moveCursor false)
  · exact .pure (h.moveCursor true)
  · exact .pure (h.movePage false)
  · exact .pure (h.movePage true)
  all_goals exact .pure h

theorem Placed.plainKey (h : Placed S c) (event : FrontendKeyEvent) (now : Int) (n : Nat) :
    Places S (c.plainKey S event now) n := by
  unfold InputController.plainKey
  split
  · exact .pure h
  · exact h.commitPunctuation hS _ _ now n
  all_goals exact .pure h

theorem Placed.toggleDedicatedEnglishMode (h : Placed S c) (n : Nat) :
    Places S (c.toggleDedicatedEnglishMode S) n := by
  unfold InputController.toggleDedicatedEnglishMode
  dsimp only
  split
  · exact .pure (h.unmoved rfl rfl rfl)
  · have hcleared : Placed S c.clearSmartPunctuationHistory := h.unmoved rfl rfl rfl
    refine .seq (hcleared.finishCall hS (.finish _) n) fun r n' hr => ?_
    refine .seq (renewGeneration_spec _ n') fun d _ hd => .pure ?_
    obtain ⟨g, rfl⟩ := hd
    exact .first rfl rfl

omit hS in
/-- What changes the context places it at the start. -/
theorem Placed.setPunctuationMode (h : Placed S c) (mode : PunctuationMode) (n : Nat) :
    Places S (c.setPunctuationMode mode) n := by
  refine (setPunctuationMode_spec c mode n).mono fun r _ hr => ?_
  obtain ⟨handled, g, rfl⟩ := hr
  exact h.unmoved rfl rfl rfl

omit hS in
theorem Placed.setCharacterWidth (h : Placed S c) (width : CharacterWidth) (n : Nat) :
    Places S (c.setCharacterWidth width) n := by
  refine (setCharacterWidth_spec c width n).mono fun r _ hr => ?_
  obtain ⟨handled, g, rfl⟩ := hr
  exact h.unmoved rfl rfl rfl

omit hS in
theorem Placed.invalidateContext (h : Placed S c) (n : Nat) :
    Ensures c.invalidateContext n fun d _ => Placed S d := by
  refine (invalidateContext_spec c n).mono fun d _ hd => ?_
  obtain ⟨g, rfl⟩ := hd
  exact h.unmoved rfl rfl rfl

omit hS in
/-- Remembering a key leaves it where it is. -/
theorem Placed.recalled (h : Placed S c) (event : FrontendKeyEvent) :
    Placed S (c.recalled event) := by
  unfold InputController.recalled
  split
  · exact h.unmoved rfl rfl rfl
  · exact h

/-- **Every key** leaves the index placed. -/
theorem Placed.handleKey (h : Placed S c) (event : FrontendKeyEvent) (now : Int) (n : Nat) :
    Places S (c.handleKey S event now) n := by
  unfold InputController.handleKey
  dsimp only
  generalize hd : (if event.key ≠ .punctuation ∨ event.character ≠ c.smartPunctuationHistoryKey
    then c.clearSmartPunctuationHistory else c) = d
  obtain rfl : d = c.recalled event := hd.symm
  have hrecalled := h.recalled event
  split
  · refine .seq (hrecalled.finishCall hS (.finish _) n) fun r n' hr => ?_
    exact .seq (Placed.invalidateContext hr n') fun _ _ hd => .pure hd
  split
  · exact hrecalled.setPunctuationMode _ n
  · exact hrecalled.setCharacterWidth _ n
  · exact hrecalled.toggleDedicatedEnglishMode hS n
  · split
    · refine .seq (hrecalled.imeKey hS event now n) fun r n' hr => ?_
      split
      · exact .pure hr
      · exact Placed.plainKey hS hr event now n'
    · exact hrecalled.plainKey hS event now n

/-! ## The other operations -/

theorem Placed.setMode (h : Placed S c) (mode : InputMode) (n : Nat) :
    Places S (c.setMode S mode) n := by
  unfold InputController.setMode
  dsimp only
  split
  · exact .pure (h.unmoved rfl rfl rfl)
  · have hfinish : Places S (c.clearSmartPunctuationHistory.finishForMode S mode) n := by
      have hcleared : Placed S c.clearSmartPunctuationHistory := h.unmoved rfl rfl rfl
      unfold finishForMode
      split
      · exact hcleared.finishCall hS (.finish _) n
      · exact .pure hcleared
    refine .seq hfinish fun r n' hr => ?_
    refine .seq (applyPunctuationLock_spec _ n') fun d n'' hd => ?_
    obtain ⟨g, rfl⟩ := hd
    refine .seq (renewGeneration_spec _ n'') fun e _ he => .pure ?_
    obtain ⟨g', rfl⟩ := he
    exact .first rfl rfl

theorem Placed.switchScheme (h : Placed S c) (schemeType : SchemeType) (n : Nat) :
    Places S (c.switchScheme S schemeType) n := by
  unfold InputController.switchScheme
  dsimp only
  split
  · exact .pure (h.unmoved rfl rfl rfl)
  · have hcleared : Placed S c.clearSmartPunctuationHistory := h.unmoved rfl rfl rfl
    refine .seq (hcleared.finishCall hS (.finish _) n) fun r n' hr => ?_
    obtain ⟨result, d⟩ := r
    dsimp only
    generalize hd : selectActiveHelpcodeSchema S _ = e
    obtain ⟨s, hs⟩ := selectActiveHelpcodeSchema_spec (S := S) _
    rw [hs] at hd
    subst hd
    refine .seq (renewGeneration_spec _ n') fun e _ he => .pure ?_
    obtain ⟨g, rfl⟩ := he
    exact .first rfl rfl

theorem Placed.reset (h : Placed S c) (n : Nat) :
    Ensures (c.reset S) n fun d _ => Placed S d := by
  unfold InputController.reset
  exact .seq (h.finishCall hS (.command _) n) fun r n' hr => Placed.invalidateContext hr n'

/-- **Every operation** leaves the index placed. -/
theorem Placed.operation (h : Placed S c) (op : Operation) (n : Nat) :
    Ensures (op.run S c) n fun d _ => Placed S d := by
  have hsnd : ∀ {m : Draw (ControllerResult × InputController σ)}, Places S m n →
      Ensures (return (← m).2 : Draw (InputController σ)) n fun d _ => Placed S d :=
    fun hm => .seq hm fun _ _ hd => .pure hd
  cases op with
  | handleKey event now => exact hsnd (h.handleKey hS event now n)
  | selectCandidate i => exact hsnd (h.finishCall hS (.select i) n)
  | selectPageCandidate i => exact hsnd (h.selectPageCandidate hS i n)
  | setMode mode => exact hsnd (h.setMode hS mode n)
  | toggleMode => exact hsnd (h.setMode hS _ n)
  | setPunctuationMode mode => exact hsnd (h.setPunctuationMode mode n)
  | setPunctuationLock lock =>
    refine (applyPunctuationLock_spec _ n).mono fun d _ hd => ?_
    obtain ⟨g, rfl⟩ := hd
    exact h.unmoved rfl rfl rfl
  | togglePunctuationMode => exact hsnd (h.setPunctuationMode _ n)
  | setCharacterWidth width => exact hsnd (h.setCharacterWidth width n)
  | toggleCharacterWidth => exact hsnd (h.setCharacterWidth _ n)
  | toggleDedicatedEnglishMode => exact hsnd (h.toggleDedicatedEnglishMode hS n)
  | switchScheme schemeType => exact hsnd (h.switchScheme hS schemeType n)
  | reset => exact h.reset hS n
  | invalidateContext => exact h.invalidateContext n

/-- **An online candidate** leaves the index placed: the list has not become shorter. -/
theorem Placed.applyOnlineCandidate (hO : S.OnlineGrows) (h : Placed S c) (generation : Nat)
    (query : OnlineQuery) (candidate : Text) (source : CandidateSource) :
    Placed S (c.applyOnlineCandidate S generation query candidate source).2 := by
  unfold InputController.applyOnlineCandidate
  split
  · exact h
  dsimp only
  generalize hcall : S.applyOnlineCandidate c.session query candidate source = call
  split
  · next hrefused =>
    have hsession : call.2 = c.session := by
      rw [← hcall]
      exact hS.applyOnlineCandidate _ _ _ _ (by simpa [hcall] using hrefused)
    exact h.unmoved hsession rfl rfl
  · next haccepted =>
    have hgrows : c.candidates.length ≤ (S.snapshot call.2).candidates.length := by
      have := hO c.session query candidate source (by simpa [hcall] using haccepted)
      rw [hcall] at this
      unfold candidates
      rwa [h.synced]
    split
    · next hchanged =>
      refine ⟨rfl, .inl ?_⟩
      have hpos := List.length_pos_iff.mpr hchanged.2
      show min c.highlightedCandidate ((S.snapshot call.2).candidates.length - 1) <
        (S.snapshot call.2).candidates.length
      have : 0 < (S.snapshot call.2).candidates.length := hpos
      omega
    · next hsame =>
      refine ⟨rfl, ?_⟩
      show c.highlightedCandidate < (S.snapshot call.2).candidates.length ∨
        (S.snapshot call.2).candidates = [] ∧ c.highlightedCandidate = 0
      rcases h.within with hwithin | ⟨hnil, hzero⟩
      · exact .inl (Nat.lt_of_lt_of_le hwithin hgrows)
      · -- an empty list either stays empty or has changed its length
        refine .inr ⟨?_, hzero⟩
        by_contra hne
        refine hsame ⟨?_, hne⟩
        have hpos := List.length_pos_iff.mpr hne
        show (S.snapshot call.2).candidates.length ≠ c.candidates.length
        rw [hnil]
        exact Nat.pos_iff_ne_zero.mp hpos

/-! ## Selecting by position -/

omit hS

/-- The digit key of the IME mode, in a composition: it selects what is on display there,
if anything is (InputController.cpp:250). -/
theorem imeKey_digit {event : FrontendKeyEvent} (now : Int) (hkey : event.key = .digit)
    (hcomposition : c.hasComposition = true)
    (hlocal : c.localInputMode ≠ .unicode ∨ event.shiftOnly = true) :
    c.imeKey S event now =
      if 1 ≤ event.digit ∧ event.digit ≤ 9 ∧ c.displayed[event.digit - 1]? ≠ none then
        (do return (← c.selectCandidate S (c.pageStart + (event.digit - 1))).map some id)
      else pure (some { handled := 1 ≤ event.digit ∧ event.digit ≤ 9 }, c) := by
  have hunicode : ¬ (c.localInputMode = .unicode ∧ (!event.shiftOnly) = true) := by
    rintro ⟨hunicode, hshift⟩
    rcases hlocal with hlocal | hlocal
    · exact hlocal hunicode
    · simp [hlocal] at hshift
  unfold imeKey
  simp only [hkey]
  rw [if_neg (by simpa using hunicode), if_neg (by simp [hcomposition]), getElem?_displayed]
  by_cases hdigit : 1 ≤ event.digit ∧ event.digit ≤ 9
  · rw [if_neg (by simp; omega)]
    by_cases hpage : c.pageSize < event.digit
    · rw [if_pos hpage, if_neg (by rw [if_neg (by omega)]; simp)]
      simp [hdigit]
    · rw [if_neg hpage]
      have hposition : event.digit - 1 < c.pageSize := by omega
      have hindex : c.pageStart + event.digit - 1 = c.pageStart + (event.digit - 1) := by omega
      rw [hindex, if_pos hposition]
      by_cases hlist : c.pageStart + (event.digit - 1) < c.candidates.length
      · rw [if_pos hlist, if_pos ⟨hdigit.1, hdigit.2, by simp [hlist]⟩]
      · rw [if_neg hlist, if_neg (by simp [Nat.not_lt.mp hlist])]
        simp [hdigit]
  · rw [if_pos (by simp; omega), if_neg (fun h => hdigit ⟨h.1, h.2.1⟩)]
    simp [hdigit]

/-- A key the IME mode settles by itself. -/
theorem handleKey_ime {event : FrontendKeyEvent} (now : Int) (hhost : event.hostShortcut = false)
    (hkey : event.key = .digit ∨ event.key = .pageUp ∨ event.key = .pageDown)
    (hmode : c.mode = .ime) :
    c.handleKey S event now = (do
      match ← c.clearSmartPunctuationHistory.imeKey S event now with
      | (some result, d) => return (result, d)
      | (none, d) => d.plainKey S event now) := by
  have hother : event.key ≠ .punctuation := by
    rcases hkey with h | h | h <;> simp [h]
  have hmode' : c.clearSmartPunctuationHistory.mode = .ime := hmode
  unfold handleKey
  dsimp only
  generalize hd : (if event.key ≠ .punctuation ∨ event.character ≠ c.smartPunctuationHistoryKey
    then c.clearSmartPunctuationHistory else c) = d
  obtain rfl : c.clearSmartPunctuationHistory = d := by rw [← hd, if_pos (.inl hother)]
  rw [if_neg (by simp [hhost])]
  rcases hkey with h | h | h
  all_goals
    simp only [h]
    exact if_pos hmode'

/-- A digit selects from the page on display. -/
theorem handleKey_digit {event : FrontendKeyEvent} (now : Int) (hkey : event.key = .digit)
    (hhost : event.hostShortcut = false) (hmode : c.mode = .ime)
    (hcomposition : c.hasComposition = true)
    (hlocal : c.localInputMode ≠ .unicode ∨ event.shiftOnly = true) :
    c.handleKey S event now =
      if 1 ≤ event.digit ∧ event.digit ≤ 9 ∧ c.displayed[event.digit - 1]? ≠ none then
        c.clearSmartPunctuationHistory.selectCandidate S (c.pageStart + (event.digit - 1))
      else pure ({ handled := 1 ≤ event.digit ∧ event.digit ≤ 9 },
        c.clearSmartPunctuationHistory) := by
  have hime : c.clearSmartPunctuationHistory.imeKey S event now =
      if 1 ≤ event.digit ∧ event.digit ≤ 9 ∧ c.displayed[event.digit - 1]? ≠ none then
        (do return (← c.clearSmartPunctuationHistory.selectCandidate S
          (c.pageStart + (event.digit - 1))).map some id)
      else pure (some { handled := 1 ≤ event.digit ∧ event.digit ≤ 9 },
        c.clearSmartPunctuationHistory) :=
    imeKey_digit now hkey hcomposition hlocal
  rw [handleKey_ime now hhost (.inl hkey) hmode, hime]
  split
  · rw [bind_assoc]
    simp only [pure_bind, Prod.map]
    exact bind_pure _
  · rw [pure_bind]

/-- A page key turns the page and nothing else. -/
theorem handleKey_page {event : FrontendKeyEvent} (now : Int)
    (hhost : event.hostShortcut = false) (hmode : c.mode = .ime) (forward : Bool)
    (hkey : event.key = if forward then .pageDown else .pageUp) :
    c.handleKey S event now = pure (c.clearSmartPunctuationHistory.movePage forward) := by
  cases forward
  · rw [handleKey_ime now hhost (.inr (.inl hkey)) hmode]
    unfold imeKey
    simp only [hkey]
    rfl
  · rw [handleKey_ime now hhost (.inr (.inr hkey)) hmode]
    unfold imeKey
    simp only [hkey]
    rfl

/-- A position nothing is on display at: nothing is committed, and nothing changes. -/
theorem selectPageCandidate_absent (hS : S.UnhandledUnchanged) (hA : S.RefusesAbsent)
    (h : Placed S c) {i : Nat} (habsent : c.hasComposition = false ∨ c.displayed[i]? = none)
    (n : Nat) : Ensures (c.selectPageCandidate S i) n fun r _ =>
      r.1.handled = false ∧ r.1.commit = none ∧ r.2 = c := by
  unfold selectPageCandidate
  split
  · exact .pure ⟨rfl, rfl, rfl⟩
  next hopen =>
    rw [Bool.not_eq_true, Bool.or_eq_false_iff, decide_eq_false_iff_not, Nat.not_le] at hopen
    rw [getElem?_displayed, if_pos hopen.2, List.getElem?_eq_none_iff] at habsent
    have hindex : c.candidates.length ≤ c.pageStart + i := by
      refine habsent.resolve_left fun hnone => ?_
      simp [hnone] at hopen
    rw [candidates, h.synced] at hindex
    obtain ⟨hunhandled, hcommit⟩ := hA c.session _ hindex
    have hsession := hS.select _ _ hunhandled
    unfold selectCandidate finishCall finishCompositionMutation refreshSnapshot withSession
    dsimp only
    rw [if_neg (by simp [ControllerResult.ofKeyResult, hunhandled]), hsession, ← h.synced]
    exact .pure ⟨hunhandled, hcommit, rfl⟩

/-- A position something is on display at. -/
theorem selectPageCandidate_displayed (hcomposition : c.hasComposition = true) {i : Nat}
    (hdisplayed : c.displayed[i]? ≠ none) :
    c.selectPageCandidate S i = c.selectCandidate S (c.pageStart + i) := by
  rw [getElem?_displayed] at hdisplayed
  unfold selectPageCandidate
  rw [if_neg]
  rw [hcomposition]
  simp only [Bool.not_true, Bool.false_or, decide_eq_true_eq, Nat.not_le]
  by_contra hpage
  exact hdisplayed (if_neg hpage)

end

end InputController

/-! ## Runs -/

open InputController

variable {σ : Type} {S : SessionApi σ}

/-- What a controller goes through: its operations, and online candidates. -/
inductive ControllerUse where
  | operation (op : Operation)
  | online (generation : Nat) (query : OnlineQuery) (candidate : Text) (source : CandidateSource)

/-- One of them; the generations come from a counter that others draw from too. -/
def ControllerUse.Step (S : SessionApi σ) (c : InputController σ) :
    ControllerUse → InputController σ → Prop
  | operation op, d => ∃ n n', op.run S c n = .ok (d, n')
  | online generation query candidate source, d =>
    d = (c.applyOnlineCandidate S generation query candidate source).2

/-- The controller was made, and has gone through some of them. -/
def Reached (S : SessionApi σ) (c : InputController σ) : Prop :=
  ∃ schemeType options paths n n' c₀ uses,
    InputController.create S schemeType options paths n = .ok (some c₀, n') ∧
      Run (ControllerUse.Step S) c₀ uses c

/-- The index of every controller is placed. -/
theorem Reached.placed (hS : S.UnhandledUnchanged) (hO : S.OnlineGrows) {c : InputController σ}
    (h : Reached S c) : Placed S c := by
  obtain ⟨schemeType, options, paths, n, n', c₀, uses, hcreate, hrun⟩ := h
  have hfresh := (create_fresh schemeType options paths n).apply hcreate c₀ rfl
  have hfirst : c₀.highlightedCandidate = 0 :=
    (create_highlight schemeType options paths n).apply hcreate c₀ rfl
  refine hrun.invariant (fun c use d hc hstep => ?_) (.first hfresh.synced hfirst)
  cases use with
  | operation op =>
    obtain ⟨n, n', hop⟩ := hstep
    exact (hc.operation hS op n).apply hop
  | online generation query candidate source =>
    cases hstep
    exact hc.applyOnlineCandidate hS hO generation query candidate source

/-- **Highlight and pages.** Whatever a controller has gone through, the highlighted index
points into the list, or there is no list and it is 0, and the page on display is the one
it lies on. In a composition, a digit or a position selects the candidate on display there
and commits nothing where nothing is on display; page keys move by one page, up to the last
and down to the first. -/
theorem highlight_placed (hS : S.UnhandledUnchanged) (hO : S.OnlineGrows) (hA : S.RefusesAbsent)
    {c : InputController σ} (h : Reached S c) :
    (c.highlightedCandidate < c.candidates.length ∨
      c.candidates = [] ∧ c.highlightedCandidate = 0) ∧
    (c.pageStart ≤ c.highlightedCandidate ∧
      c.highlightedCandidate < c.pageStart + c.pageSize) ∧
    -- a key that is a digit
    (∀ event now, event.key = .digit → event.hostShortcut = false → c.mode = .ime →
      c.hasComposition = true → (c.localInputMode ≠ .unicode ∨ event.shiftOnly = true) →
      (∀ word, 1 ≤ event.digit → event.digit ≤ 9 → c.displayed[event.digit - 1]? = some word →
        (S.snapshot c.session).candidates[c.pageStart + (event.digit - 1)]? = some word ∧
          c.handleKey S event now = c.clearSmartPunctuationHistory.selectCandidate S
            (c.pageStart + (event.digit - 1))) ∧
      (event.digit < 1 ∨ 9 < event.digit ∨ c.displayed[event.digit - 1]? = none →
        ∃ handled, c.handleKey S event now =
          pure ({ handled := handled }, c.clearSmartPunctuationHistory))) ∧
    -- a position on the page
    (∀ i word, c.hasComposition = true → c.displayed[i]? = some word →
      (S.snapshot c.session).candidates[c.pageStart + i]? = some word ∧
        c.selectPageCandidate S i = c.selectCandidate S (c.pageStart + i)) ∧
    (∀ i n, c.hasComposition = false ∨ c.displayed[i]? = none →
      Ensures (c.selectPageCandidate S i) n fun r _ =>
        r.1.handled = false ∧ r.1.commit = none ∧ r.2 = c) ∧
    -- the page keys
    ∀ event now n, event.hostShortcut = false → c.mode = .ime → c.hasComposition = true →
      c.candidates ≠ [] →
      (event.key = .pageDown → Ensures (c.handleKey S event now) n fun r _ =>
        r.2.page = min (c.page + 1) c.lastPage) ∧
      (event.key = .pageUp → Ensures (c.handleKey S event now) n fun r _ =>
        r.2.page = c.page - 1) := by
  have hplaced := h.placed hS hO
  have hlisted : ∀ i word, c.displayed[i]? = some word →
      (S.snapshot c.session).candidates[c.pageStart + i]? = some word := by
    intro i word hword
    rw [getElem?_displayed] at hword
    rw [← hplaced.synced]
    split at hword
    · exact hword
    · cases hword
  refine ⟨hplaced.within, c.pageStart_le, fun event now hkey hhost hmode hcomposition hlocal => ?_,
    fun i word hcomposition hword => ?_, fun i n habsent => ?_,
    fun event now n hhost hmode hcomposition hlist => ?_⟩
  · rw [handleKey_digit now hkey hhost hmode hcomposition hlocal]
    refine ⟨fun word hlow hhigh hword => ⟨hlisted _ _ hword, ?_⟩, fun habsent =>
      ⟨decide (1 ≤ event.digit ∧ event.digit ≤ 9), ?_⟩⟩
    · rw [if_pos ⟨hlow, hhigh, by simp [hword]⟩]
    · rw [if_neg]
      rintro ⟨hlow, hhigh, hword⟩
      rcases habsent with h | h | h
      · omega
      · omega
      · exact hword h
  · exact ⟨hlisted i word hword, selectPageCandidate_displayed hcomposition (by simp [hword])⟩
  · exact selectPageCandidate_absent hS hA hplaced habsent n
  · have hmoves := c.clearSmartPunctuationHistory.movePage_page hcomposition hlist
    constructor
    · intro hkey
      rw [handleKey_page now hhost hmode true hkey]
      exact .pure hmoves.1
    · intro hkey
      rw [handleKey_page now hhost hmode false hkey]
      exact .pure hmoves.2

/-- The same, where a candidate that is selected is committed. -/
def pickingSession : SessionApi SessionSnapshot :=
  { typingSession with
    select := fun s i =>
      match s.candidates[i]? with
      | some word =>
        ({ handled := true, commit := some word.word }, { s with preedit := [], candidates := [] })
      | none => ({}, s) }

theorem pickingSession_unhandledUnchanged : pickingSession.UnhandledUnchanged where
  character := typingSession_unhandledUnchanged.character
  command := typingSession_unhandledUnchanged.command
  select s i h := by
    simp only [pickingSession] at h ⊢
    split at h
    · cases h
    · rfl
  selectEdge := typingSession_unhandledUnchanged.selectEdge
  finish := typingSession_unhandledUnchanged.finish
  applyOnlineCandidate := typingSession_unhandledUnchanged.applyOnlineCandidate

theorem pickingSession_onlineGrows : pickingSession.OnlineGrows := by
  intro s q t src haccepted
  simp only [pickingSession, typingSession, id] at haccepted ⊢
  split at haccepted
  · next hmatch =>
    rw [if_pos hmatch]
    simp
  · cases haccepted

theorem pickingSession_refusesAbsent : pickingSession.RefusesAbsent := by
  intro s i habsent
  have hnone : s.candidates[i]? = none := List.getElem?_eq_none_iff.mpr habsent
  simp only [pickingSession, hnone]
  trivial

/-- A letter is typed and a candidate for it arrives: 1 commits it, and 2 nothing. -/
theorem highlight_placed_digit :
    ∃ c : InputController SessionSnapshot, Reached pickingSession c ∧
      c.candidates = [⟨['你'], .cloudSuggestion⟩] ∧
      c.handleKey pickingSession { key := .digit, digit := 1 } 0 =
        c.clearSmartPunctuationHistory.selectCandidate pickingSession 0 ∧
      (pickingSession.select c.session 0).1.commit = some ['你'] ∧
      ∃ handled, c.handleKey pickingSession { key := .digit, digit := 2 } 0 =
        pure ({ handled := handled }, c.clearSmartPunctuationHistory) := by
  obtain ⟨c, hreached, hcandidates, hmode, hcomposition, hlocal, hcommit, hstart, hfirst,
      hsecond⟩ : ∃ c, Reached pickingSession c ∧
        c.candidates = [⟨['你'], .cloudSuggestion⟩] ∧ c.mode = .ime ∧ c.hasComposition = true ∧
        c.localInputMode ≠ .unicode ∧
        (pickingSession.select c.session 0).1.commit = some ['你'] ∧ c.pageStart = 0 ∧
        c.displayed[0]? = some ⟨['你'], .cloudSuggestion⟩ ∧ c.displayed[1]? = none :=
    ⟨_, ⟨.quanpin, plainOptions, plainPaths, 0, _, _,
        [.operation (.handleKey { character := 'n' } 0),
          .online 2 typingRequest.query ['你'] .cloudSuggestion],
        rfl, .cons ⟨1, _, rfl⟩ (.single rfl)⟩,
      rfl, rfl, rfl, by decide, rfl, rfl, rfl, rfl⟩
  have hdigit := (highlight_placed pickingSession_unhandledUnchanged pickingSession_onlineGrows
    pickingSession_refusesAbsent hreached).2.2.1
  refine ⟨c, hreached, hcandidates, ?_, hcommit, ?_⟩
  · have hpick := ((hdigit { key := .digit, digit := 1 } 0 rfl rfl hmode hcomposition
      (.inl hlocal)).1 _ (by decide) (by decide) hfirst).2
    rwa [hstart] at hpick
  · exact (hdigit { key := .digit, digit := 2 } 0 rfl rfl hmode hcomposition
      (.inl hlocal)).2 (.inr (.inr hsecond))

end MsimeLinux
