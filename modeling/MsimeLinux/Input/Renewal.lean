import MsimeLinux.Lib.Ensures
import MsimeLinux.Input.Controller

/-!
# Every controller operation renews what it changes

An online request is identified by the controller's generation. For that to be
sound, an operation that touches the session or the mode has to end with a
generation nobody has seen. `Advances` says so of one operation: either the
session, the mode and the generation are what they were, or the generation was
drawn after the operation began. It is reflexive and transitive, so what is
proved of the small operations composes to the large ones; the operations are
taken here in the order of the source, up to `handleKey_advances`.
-/

namespace MsimeLinux

open Lib

namespace InputController

variable {σ : Type} {S : SessionApi σ}

/-- Session, mode and generation of `d` are those of `c`. -/
structure Kept (c d : InputController σ) : Prop where
  session : d.session = c.session
  mode : d.mode = c.mode
  onlineGeneration : d.onlineGeneration = c.onlineGeneration

/-- The generation of `c` was drawn after the counter stood at `m`, and the
counter has reached `n`. -/
structure Renewed (m : Nat) (c : InputController σ) (n : Nat) : Prop where
  fresh : m < c.onlineGeneration
  drawn : c.onlineGeneration ≤ n

/-- From `c`, with the counter at `m`, to `d`, with the counter at `n`. -/
structure Advances (c : InputController σ) (m : Nat) (d : InputController σ) (n : Nat) :
    Prop where
  sequence_le : m ≤ n
  outcome : Renewed m d n ∨ Kept c d

/-- What every operation of a controller ensures: the state it returns
advances the one it was called on. -/
abbrev Renews (op : Draw (ControllerResult × InputController σ)) (c : InputController σ)
    (m : Nat) : Prop :=
  Ensures op m fun r n => Advances c m r.2 n

/-! ## The relation -/

theorem Advances.refl (c : InputController σ) (n : Nat) : Advances c n c n :=
  ⟨Nat.le_refl n, .inr ⟨rfl, rfl, rfl⟩⟩

theorem Advances.ofKept {c d : InputController σ} {n : Nat} (h : Kept c d) :
    Advances c n d n :=
  ⟨Nat.le_refl n, .inr h⟩

/-- One stretch after another: what was renewed in either was renewed in both. -/
theorem Advances.trans {c d e : InputController σ} {l m n : Nat}
    (hcd : Advances c l d m) (hde : Advances d m e n) : Advances c l e n := by
  refine ⟨Nat.le_trans hcd.sequence_le hde.sequence_le, ?_⟩
  rcases hde.outcome with hnew | hkept
  · exact .inl ⟨Nat.lt_of_le_of_lt hcd.sequence_le hnew.fresh, hnew.drawn⟩
  · rcases hcd.outcome with hold | hold
    · have hgen := hkept.onlineGeneration
      exact .inl ⟨hgen ▸ hold.fresh, hgen ▸ Nat.le_trans hold.drawn hde.sequence_le⟩
    · exact .inr ⟨hkept.session.trans hold.session, hkept.mode.trans hold.mode,
        hkept.onlineGeneration.trans hold.onlineGeneration⟩

/-- Bookkeeping after an operation does not disturb it. -/
theorem Advances.keep {c d e : InputController σ} {m n : Nat} (h : Advances c m d n)
    (hk : Kept d e) : Advances c m e n :=
  h.trans (.ofKept hk)

/-- Bookkeeping before an operation does not disturb it either. -/
theorem Renews.after {c d : InputController σ} {m : Nat}
    {op : Draw (ControllerResult × InputController σ)} (h : Renews op d m) (hk : Kept c d) :
    Renews op c m :=
  h.mono fun _ _ hadv => (Advances.ofKept hk).trans hadv

/-- A generation drawn at the end covers whatever was changed before it. -/
theorem Renewed.advances {c d : InputController σ} {l m n : Nat} (hle : l ≤ m)
    (h : Renewed m d n) : Advances c l d n :=
  ⟨Nat.le_trans hle (Nat.le_trans (Nat.le_of_lt h.fresh) h.drawn),
    .inl ⟨Nat.lt_of_le_of_lt hle h.fresh, h.drawn⟩⟩

/-! ## Drawing a generation -/

/-- The next generation is one that no controller has. -/
theorem nextOnlineGeneration_ensures (n : Nat) :
    Ensures nextOnlineGeneration n fun generation n' => generation = n + 1 ∧ n' = n + 1 := by
  intro generation n' hrun
  unfold nextOnlineGeneration at hrun
  split at hrun
  · cases hrun
  · cases hrun
    exact ⟨rfl, rfl⟩

/-- A controller that renews its generation has one that none had. -/
theorem renewGeneration_ensures (c : InputController σ) (n : Nat) :
    Ensures c.renewGeneration n fun d n' => Renewed n d n' := by
  refine .seq (nextOnlineGeneration_ensures n) fun generation n' h => .pure ?_
  obtain ⟨rfl, rfl⟩ := h
  exact ⟨Nat.lt_succ_self n, Nat.le_refl _⟩

/-- A renewed controller paired with a result, as most setters return it. -/
theorem renewGeneration_advances (c d : InputController σ) (result : ControllerResult)
    {m n : Nat} (hle : m ≤ n) :
    Ensures (return (result, ← d.renewGeneration) : Draw (ControllerResult × InputController σ))
      n fun r n' => Advances c m r.2 n' :=
  .seq (renewGeneration_ensures d n) fun _ _ h => .pure (Renewed.advances hle h)

/-! ## Session calls -/

theorem withSession_kept (c : InputController σ) {session : σ} (h : session = c.session) :
    Kept c (c.withSession session) :=
  ⟨h, rfl, rfl⟩

/-- `finish_composition_mutation` renews when the call before it was handled;
when it was not, the session is the old one. -/
theorem finishCompositionMutation_advances {c d : InputController σ}
    {result : ControllerResult} (n : Nat)
    (hkept : result.handled = false → Kept c d) :
    Renews (d.finishCompositionMutation S result) c n := by
  unfold finishCompositionMutation
  dsimp only
  split
  · refine .seq (renewGeneration_ensures _ n) fun e n' h => .pure ?_
    exact Renewed.advances (Nat.le_refl n) ⟨h.fresh, h.drawn⟩
  · next hunhandled =>
    have h := hkept (by simpa using hunhandled)
    exact .pure (.ofKept ⟨h.session, h.mode, h.onlineGeneration⟩)

/-- A call of the engine renews the generation, unless it was not handled. -/
theorem finishCall_advances (c : InputController σ) {call : KeyResult × σ} (n : Nat)
    (hcall : call.1.handled = false → call.2 = c.session) :
    Renews (c.finishCall S call) c n :=
  finishCompositionMutation_advances n fun hunhandled =>
    c.withSession_kept (hcall hunhandled)

/-- So does the end of a composition. -/
theorem finishComposition_advances (hS : S.UnhandledUnchanged) (c : InputController σ)
    (n : Nat) : Renews (c.finishComposition S) c n :=
  c.finishCall_advances n (hS.finish _ _)

/-- So does a selection. -/
theorem selectCandidate_advances (hS : S.UnhandledUnchanged) (c : InputController σ)
    (absoluteIndex n : Nat) : Renews (c.selectCandidate S absoluteIndex) c n :=
  c.finishCall_advances n (hS.select _ _)

theorem selectPageCandidate_advances (hS : S.UnhandledUnchanged) (c : InputController σ)
    (pageIndex n : Nat) : Renews (c.selectPageCandidate S pageIndex) c n := by
  unfold selectPageCandidate
  split
  · exact .pure (.refl c n)
  · exact selectCandidate_advances hS c _ n

/-- So does the commit of what is highlighted. -/
theorem commitHighlighted_advances (hS : S.UnhandledUnchanged) (c : InputController σ)
    (n : Nat) : Renews (c.commitHighlighted S) c n := by
  unfold commitHighlighted
  split
  · exact .pure (.refl c n)
  · split
    · exact c.finishCall_advances n (hS.command _ _)
    · exact selectCandidate_advances hS c _ n

/-! ## Moves, which touch neither session nor generation -/

/-- The history of the marks is no part of the context. -/
theorem clearSmartPunctuationHistory_kept (c : InputController σ) :
    Kept c c.clearSmartPunctuationHistory :=
  ⟨rfl, rfl, rfl⟩

/-- Moving over the candidates leaves the context. -/
theorem moveCursor_kept (c : InputController σ) (forward : Bool) :
    Kept c (c.moveCursor forward).2 := by
  unfold moveCursor
  split
  · exact ⟨rfl, rfl, rfl⟩
  · split <;> exact ⟨rfl, rfl, rfl⟩

/-- So does turning a page. -/
theorem movePage_kept (c : InputController σ) (forward : Bool) :
    Kept c (c.movePage forward).2 := by
  unfold movePage
  split
  · exact ⟨rfl, rfl, rfl⟩
  · split <;> exact ⟨rfl, rfl, rfl⟩

theorem movePage_advances (c : InputController σ) (forward : Bool) (n : Nat) :
    Renews (pure (c.movePage forward)) c n :=
  .pure (.ofKept (c.movePage_kept forward))

/-! ## Punctuation -/

/-- A mark that is typed leaves it too. -/
theorem typePunctuation_kept (c : InputController σ) (result : ControllerResult)
    (ascii : Char) (punctuation : Text) (precedingCharacter : Option Char) (now : Int) :
    Kept c (c.typePunctuation result ascii punctuation precedingCharacter now).2 := by
  unfold typePunctuation
  dsimp only
  split
  · exact ⟨rfl, rfl, rfl⟩
  · split <;> exact ⟨rfl, rfl, rfl⟩

/-- After `finish_composition`, `commit_punctuation` only keeps its own books. -/
theorem commitPunctuation_advances (hS : S.UnhandledUnchanged) (c : InputController σ)
    (ascii : Char) (precedingCharacter : Option Char) (now : Int) (n : Nat) :
    Renews (c.commitPunctuation S ascii precedingCharacter now) c n := by
  unfold commitPunctuation
  refine .seq (finishComposition_advances hS c n) fun r n' hadv => ?_
  obtain ⟨result, d⟩ := r
  dsimp only at hadv ⊢
  split
  · exact .pure (hadv.keep ⟨rfl, rfl, rfl⟩)
  · generalize hd : (if d.canReplaceRecentAscii c.hasComposition ascii
      (precedingAfterCommit result.commit precedingCharacter) now = true then _ else d) = e
    have hadv : Advances c n e n' := by
      rw [← hd]
      split <;> exact hadv.keep ⟨rfl, rfl, rfl⟩
    split
    · exact .pure (hadv.keep ⟨rfl, rfl, rfl⟩)
    · exact .pure (hadv.keep ⟨(typePunctuation_kept ..).session,
        (typePunctuation_kept ..).mode, (typePunctuation_kept ..).onlineGeneration⟩)

/-! ## Setters -/

/-- The modes renew the generation where they change something. -/
theorem setPunctuationMode_advances (c : InputController σ) (mode : PunctuationMode)
    (n : Nat) : Renews (c.setPunctuationMode mode) c n := by
  unfold setPunctuationMode
  dsimp only
  split
  · exact .pure (.ofKept c.clearSmartPunctuationHistory_kept)
  · exact renewGeneration_advances c _ _ (Nat.le_refl n)

theorem applyPunctuationLock_advances (c : InputController σ) (n : Nat) :
    Ensures c.applyPunctuationLock n fun d n' => Advances c n d n' :=
  .seq (c.setPunctuationMode_advances _ n) fun _ _ h => .pure h

theorem setPunctuationLock_advances (c : InputController σ) (lock : PunctuationLock)
    (n : Nat) : Ensures (c.setPunctuationLock lock) n fun d n' => Advances c n d n' :=
  (applyPunctuationLock_advances _ n).mono fun _ _ h =>
    Advances.trans (d := { c with punctuationLock := lock })
      (.ofKept ⟨rfl, rfl, rfl⟩) h

/-- A composition ends before the mode changes. -/
theorem finishForMode_advances (hS : S.UnhandledUnchanged) (c : InputController σ)
    (mode : InputMode) (n : Nat) : Renews (c.finishForMode S mode) c n := by
  unfold finishForMode
  split
  · exact finishComposition_advances hS c n
  · exact .pure (.refl c n)

theorem setMode_advances (hS : S.UnhandledUnchanged) (c : InputController σ)
    (mode : InputMode) (n : Nat) : Renews (c.setMode S mode) c n := by
  unfold setMode
  dsimp only
  split
  · exact .pure (.ofKept c.clearSmartPunctuationHistory_kept)
  · refine .seq (finishForMode_advances hS _ mode n) fun r n' h => ?_
    refine .seq (applyPunctuationLock_advances _ n') fun d n'' hlock => ?_
    exact renewGeneration_advances c _ _ (Nat.le_trans h.sequence_le hlock.sequence_le)

theorem toggleMode_advances (hS : S.UnhandledUnchanged) (c : InputController σ) (n : Nat) :
    Renews (c.toggleMode S) c n :=
  setMode_advances hS c _ n

theorem setCharacterWidth_advances (c : InputController σ) (width : CharacterWidth)
    (n : Nat) : Renews (c.setCharacterWidth width) c n := by
  unfold setCharacterWidth
  dsimp only
  split
  · exact .pure (.ofKept c.clearSmartPunctuationHistory_kept)
  · exact renewGeneration_advances c _ _ (Nat.le_refl n)

theorem toggleDedicatedEnglishMode_advances (hS : S.UnhandledUnchanged)
    (c : InputController σ) (n : Nat) : Renews (c.toggleDedicatedEnglishMode S) c n := by
  unfold toggleDedicatedEnglishMode
  dsimp only
  split
  · exact .pure (.ofKept c.clearSmartPunctuationHistory_kept)
  · refine .seq (finishComposition_advances hS _ n) fun r n' h => ?_
    exact renewGeneration_advances c _ _ h.sequence_le

theorem switchScheme_advances (hS : S.UnhandledUnchanged) (c : InputController σ)
    (schemeType : SchemeType) (n : Nat) : Renews (c.switchScheme S schemeType) c n := by
  unfold switchScheme
  dsimp only
  split
  · exact .pure (.ofKept c.clearSmartPunctuationHistory_kept)
  · refine .seq (finishComposition_advances hS _ n) fun r n' h => ?_
    exact renewGeneration_advances c _ _ h.sequence_le

/-- A context that is invalidated has a new generation, whatever it was. -/
theorem invalidateContext_ensures (c : InputController σ) (n : Nat) :
    Ensures c.invalidateContext n fun d n' => Renewed n d n' :=
  renewGeneration_ensures _ n

theorem invalidateContext_advances (c : InputController σ) (n : Nat) :
    Ensures c.invalidateContext n fun d n' => Advances c n d n' :=
  (c.invalidateContext_ensures n).mono fun _ _ h => h.advances (Nat.le_refl n)

/-- A reset renews it whatever the engine says. -/
theorem reset_advances (hS : S.UnhandledUnchanged) (c : InputController σ) (n : Nat) :
    Ensures (c.reset S) n fun d n' => Advances c n d n' :=
  .seq (c.finishCall_advances n (hS.command _ _)) fun _ n' h =>
    (invalidateContext_ensures _ n').mono fun _ _ h' => h'.advances h.sequence_le

/-! ## Keys -/

/-- The branches of the key handler, one by one. -/
theorem localPunctuation_advances (hS : S.UnhandledUnchanged) (c : InputController σ)
    (event : FrontendKeyEvent) (now : Int) (n : Nat) :
    Renews (c.localPunctuation S event now) c n := by
  unfold localPunctuation
  split
  · exact selectPageCandidate_advances hS c _ n
  · dsimp only
    split
    · exact c.movePage_advances _ n
    · split
      · exact c.finishCall_advances n (hS.character _ _ _)
      · next hunhandled =>
        have hsession := hS.character c.session event.character event.shiftOnly
          (by simpa using hunhandled)
        exact (commitPunctuation_advances hS _ _ _ _ n).after (c.withSession_kept hsession)

theorem pageOrCommit_advances (hS : S.UnhandledUnchanged) (c : InputController σ)
    (event : FrontendKeyEvent) (now : Int) (n : Nat) :
    Renews (c.pageOrCommit S event now) c n := by
  unfold pageOrCommit
  split
  · exact c.movePage_advances _ n
  · exact commitPunctuation_advances hS c _ _ _ n

theorem imePunctuation_advances (hS : S.UnhandledUnchanged) (c : InputController σ)
    (event : FrontendKeyEvent) (now : Int) (n : Nat) :
    Renews (c.imePunctuation S event now) c n := by
  unfold imePunctuation
  split
  · exact localPunctuation_advances hS c event now n
  split
  · exact c.finishCall_advances n (hS.character _ _ _)
  split
  · exact commitPunctuation_advances hS c _ _ _ n
  split
  · exact c.movePage_advances _ n
  split
  · dsimp only
    split
    · exact c.finishCall_advances n (hS.selectEdge _ _ _)
    · next hunhandled =>
      have hsession := hS.selectEdge c.session c.highlightedCandidate
        (wordEdge event.character) (by simpa using hunhandled)
      exact (pageOrCommit_advances hS _ event now n).after (c.withSession_kept hsession)
  · exact pageOrCommit_advances hS c event now n

/-- A result handed back as `some`: the key is done. -/
theorem map_some_advances {op : Draw (ControllerResult × InputController σ)}
    {c : InputController σ} {n : Nat} (h : Renews op c n) :
    Ensures (return (← op).map some id : Draw (Option ControllerResult × InputController σ))
      n fun r n' => Advances c n r.2 n' :=
  .seq h fun _ _ hadv => .pure hadv

/-- **A key renews the generation** if it changes what the generation stands for. -/
theorem imeKey_advances (hS : S.UnhandledUnchanged) (c : InputController σ)
    (event : FrontendKeyEvent) (now : Int) (n : Nat) :
    Ensures (c.imeKey S event now) n fun r n' => Advances c n r.2 n' := by
  unfold imeKey
  -- one bullet for each kind of key, in the order of `handle_key`
  split
  · dsimp only
    split
    · exact map_some_advances (c.finishCall_advances n (hS.character _ _ _))
    · next hquiet =>
      rw [Bool.or_eq_true, not_or] at hquiet
      have hsession := hS.character c.session event.character event.shiftOnly
        (by simpa using hquiet.1)
      exact .pure (.ofKept (c.withSession_kept hsession))
  · exact map_some_advances (imePunctuation_advances hS c event now n)
  · exact map_some_advances (c.finishCall_advances n (hS.command _ _))
  · exact map_some_advances (c.finishCall_advances n (hS.command _ _))
  · exact map_some_advances (c.finishCall_advances n (hS.command _ _))
  · split
    · exact map_some_advances (commitHighlighted_advances hS c n)
    · exact .pure (.refl c n)
  · split
    · exact map_some_advances (c.finishCall_advances n (hS.character _ _ _))
    split
    · exact .pure (.refl c n)
    split
    · exact .pure (.refl c n)
    split
    · exact .pure (.refl c n)
    split
    · exact map_some_advances (selectCandidate_advances hS c _ n)
    · exact .pure (.refl c n)
  · exact .pure (.ofKept (c.moveCursor_kept false))
  · exact .pure (.ofKept (c.moveCursor_kept true))
  · exact .pure (.ofKept (c.movePage_kept false))
  · exact .pure (.ofKept (c.movePage_kept true))
  all_goals exact .pure (.refl c n)

theorem plainKey_advances (hS : S.UnhandledUnchanged) (c : InputController σ)
    (event : FrontendKeyEvent) (now : Int) (n : Nat) :
    Renews (c.plainKey S event now) c n := by
  unfold plainKey
  split
  · exact .pure (.refl c n)
  · exact commitPunctuation_advances hS c _ _ _ n
  all_goals exact .pure (.refl c n)

/-- **Every branch of `handle_key`** renews the generation when it touches the
session or the mode. -/
theorem handleKey_advances (hS : S.UnhandledUnchanged) (c : InputController σ)
    (event : FrontendKeyEvent) (now : Int) (n : Nat) :
    Renews (c.handleKey S event now) c n := by
  unfold handleKey
  dsimp only
  generalize hd : (if event.key ≠ .punctuation ∨ event.character ≠ c.smartPunctuationHistoryKey
    then c.clearSmartPunctuationHistory else c) = d
  have hkept : Kept c d := by
    rw [← hd]
    split <;> exact ⟨rfl, rfl, rfl⟩
  refine Renews.after ?_ hkept
  split
  · refine .seq (finishComposition_advances hS d n) fun r n' h => ?_
    exact .seq (invalidateContext_ensures r.2 n') fun _ _ h' =>
      .pure (h'.advances h.sequence_le)
  split
  · exact d.setPunctuationMode_advances _ n
  · exact d.setCharacterWidth_advances _ n
  · exact toggleDedicatedEnglishMode_advances hS d n
  · split
    · refine .seq (imeKey_advances hS d event now n) fun r n' h => ?_
      split
      · exact .pure h
      · exact (plainKey_advances hS _ event now n').mono fun _ _ h' => h.trans h'
    · exact plainKey_advances hS d event now n

end InputController

end MsimeLinux
