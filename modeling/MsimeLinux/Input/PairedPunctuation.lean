import MsimeLinux.Input.Frontend
import MsimeLinux.Input.Routines

/-!
# Pending closings lie to the right of the caret

An opening mark is inserted together with its closing one, and the caret is put
between them; typing the closing mark then steps over the one that is there. The
controller remembers which marks it may step over, innermost last, and never
looks at the document. This module puts the two side by side.

- `Document`: the text on both sides of the caret. What the engine itself stepped
  back over is told apart from everything else.
- `PairEffect`: the four things a controller result can do to the pending
  closings, each with the caret moves that go with it; `handleKey_pairEffect` and
  `perform_pairEffect` say every operation does one of them.
- `Editing.Step`: keys, other calls, and what the application does by itself.
- `pendingClosings_right`: in every run the pending closings are the text right
  of the caret, and a key steps only over the mark it names.
-/

namespace MsimeLinux

open Lib InputController

variable {σ : Type} {S : SessionApi σ}

/-! ## The document -/

/-- How a character got to the right of the caret: the engine stepped back over
it, or the user put it there. -/
inductive Origin where
  | inserted
  | user
  deriving DecidableEq, Repr

/-- The application's text, on both sides of the caret. -/
structure Document where
  left : Text
  right : List (Char × Origin)
  deriving DecidableEq, Repr

namespace Document

/-- What the application does with a call of the engine. -/
def apply (d : Document) : ClientAction → Document
  | .deleteSurrounding count => { d with left := d.left.take (d.left.length - count) }
  | .commitText text => { d with left := d.left ++ text }
  | .forwardLeft =>
    match d.left.getLast? with
    | none => d
    | some ch => ⟨d.left.dropLast, (ch, .inserted) :: d.right⟩
  | .forwardRight =>
    match d.right with
    | [] => d
    | (ch, _) :: right => ⟨d.left ++ [ch], right⟩

/-- The calls one after the other. -/
def applyAll (d : Document) (actions : List ClientAction) : Document :=
  actions.foldl apply d

/-- The text left of the caret once a result has deleted and committed. -/
def leftAfter (d : Document) (result : ControllerResult) : Text :=
  (if 0 < result.deleteBefore then
    d.left.take (d.left.length - min result.deleteBefore maxGint) else d.left) ++
    result.commit.getD []

/-- A result deletes and commits left of the caret, then moves it. -/
theorem applyAll_result (d : Document) (result : ControllerResult) :
    d.applyAll (applyResult result) =
      (Document.mk (d.leftAfter result) d.right).applyAll
        (List.replicate result.cursorLeft .forwardLeft ++
          List.replicate result.cursorRight .forwardRight) := by
  unfold applyResult applyAll leftAfter
  rw [List.append_assoc, List.foldl_append]
  congr 1
  split <;> cases result.commit <;> simp [apply]

theorem applyAll_still {d : Document} {result : ControllerResult}
    (hleft : result.cursorLeft = 0) (hright : result.cursorRight = 0) :
    d.applyAll (applyResult result) = ⟨d.leftAfter result, d.right⟩ := by
  rw [applyAll_result, hleft, hright]
  rfl

theorem applyAll_back {d : Document} {result : ControllerResult} {text : Text} {mark : Char}
    (hleft : result.cursorLeft = 1) (hright : result.cursorRight = 0)
    (htext : d.leftAfter result = text ++ [mark]) :
    d.applyAll (applyResult result) = ⟨text, (mark, .inserted) :: d.right⟩ := by
  rw [applyAll_result, hleft, hright, htext]
  simp [applyAll, apply]

theorem applyAll_over {d : Document} {result : ControllerResult} {mark : Char}
    {origin : Origin} {rest : List (Char × Origin)}
    (hleft : result.cursorLeft = 0) (hright : result.cursorRight = 1)
    (hmark : d.right = (mark, origin) :: rest) :
    d.applyAll (applyResult result) = ⟨d.leftAfter result ++ [mark], rest⟩ := by
  rw [applyAll_result, hleft, hright, hmark]
  rfl

end Document

/-! ## Marks -/

/-- The closing marks `paired_punctuation_closing` knows. -/
def closingMarks : List Char := ['”', '’', '】', '}', '》', '〉', '）']

/-- The closing marks a key names. A mark typed as itself names itself; no key of
the mapper has one. -/
def marksOf : Char → List Char
  | ')' => ['）']
  | ']' => ['】']
  | '}' => ['}']
  | '>' => ['》', '〉']
  | ch => [ch]

theorem pairedPunctuationClosing_cases (opening : Text) :
    pairedPunctuationClosing opening = [] ∨
      ∃ mark ∈ closingMarks, pairedPunctuationClosing opening = [mark] := by
  unfold pairedPunctuationClosing
  split_ifs <;> simp [closingMarks]

/-- Among the widened characters only the parenthesis is a closing mark. -/
theorem fullWidth_closing : ∀ n : Fin 127, 0x21 ≤ n.val →
    Char.ofNat (0xff01 + n - 0x21) ∈ closingMarks → n = 0x29 := by
  decide

theorem toFullWidth_closing {ascii mark : Char} (h : toFullWidth ascii = [mark])
    (hmark : mark ∈ closingMarks) : mark ∈ marksOf ascii := by
  unfold toFullWidth at h
  split at h
  · cases h
    simp [closingMarks] at hmark
  split at h
  · cases h
  · next hrange =>
    cases h
    have hn : ascii.toNat < 127 := by omega
    have heq := fullWidth_closing ⟨ascii.toNat, hn⟩ (by simp only; omega) hmark
    have hnat : ascii.toNat = 0x29 := congrArg Fin.val heq
    have hascii : ascii = ')' := Char.toNat_inj.mp hnat
    subst hascii
    decide

/-- Quotes apart, the formatter writes a closing mark only for a key that names it. -/
theorem chinese_closing (f : PunctuationFormatter) {ascii mark : Char}
    (h : (f.chinese ascii).1 = [mark]) (hmark : mark ∈ closingMarks) :
    mark ∈ marksOf ascii ∨ (ascii = '"' ∧ mark = '”') ∨ (ascii = '\'' ∧ mark = '’') := by
  unfold PunctuationFormatter.chinese at h
  split at h
  · next hquote =>
    subst hquote
    simp only at h
    split at h <;> cases h
    · simp [closingMarks] at hmark
    · exact .inr (.inl ⟨rfl, rfl⟩)
  split at h
  · next hquote =>
    subst hquote
    simp only at h
    split at h <;> cases h
    · simp [closingMarks] at hmark
    · exact .inr (.inr ⟨rfl, rfl⟩)
  split at h
  · simp only at h
    split at h <;> cases h <;> simp [closingMarks] at hmark
  split at h
  · next hangle =>
    subst hangle
    split at h
    · simp only at h
      split at h <;> cases h <;> exact .inl (by decide)
    · cases h
      exact .inl (by decide)
  · simp only [PunctuationFormatter.stateless] at h
    split at h <;> cases h <;> first | exact .inl (by decide) | simp [closingMarks] at hmark

/-- A closing mark is named by itself. -/
theorem closing_marksOf : ∀ mark ∈ closingMarks, mark ∈ marksOf mark := by
  intro mark hmark
  simp only [closingMarks, List.mem_cons, List.not_mem_nil, or_false] at hmark
  rcases hmark with rfl | rfl | rfl | rfl | rfl | rfl | rfl <;> simp [marksOf]

/-- Before pairing, a key types a closing mark only if it names it, or is a quote. -/
theorem InputController.punctuationFor_closing (c : InputController σ) (hadComposition : Bool)
    {ascii mark : Char} {precedingCharacter : Option Char}
    (h : (c.punctuationFor hadComposition ascii precedingCharacter).1 = [mark])
    (hmark : mark ∈ closingMarks) :
    mark ∈ marksOf ascii ∨ (ascii = '"' ∧ mark = '”') ∨ (ascii = '\'' ∧ mark = '’') := by
  have hself : [ascii] = [mark] → mark ∈ marksOf ascii := by
    intro heq
    cases heq
    exact closing_marksOf ascii hmark
  unfold punctuationFor at h
  split at h
  · split at h
    · exact .inl (hself h)
    · simp only at h
      split at h
      · exact .inl (toFullWidth_closing h hmark)
      · exact chinese_closing _ h hmark
  split at h
  · exact .inl (toFullWidth_closing h hmark)
  split at h
  · exact .inl (hself h)
  · cases h

/-- **A mark to step over is one the key names.** With pairing on, what a key
would type is a closing mark only if the key names it. -/
theorem InputController.pairedMark_closing (c : InputController σ) (hadComposition : Bool)
    {ascii mark : Char} {precedingCharacter : Option Char} (hpairing : c.pairing = true)
    (h : c.pairedMark ascii (c.punctuationFor hadComposition ascii precedingCharacter).1 = [mark])
    (hmark : mark ∈ closingMarks) : mark ∈ marksOf ascii := by
  unfold pairedMark at h
  split at h
  · cases h
    simp [closingMarks] at hmark
  split at h
  · cases h
    simp [closingMarks] at hmark
  next hdouble hsingle =>
  rcases c.punctuationFor_closing hadComposition h hmark with hnamed | ⟨rfl, rfl⟩ | ⟨rfl, rfl⟩
  · exact hnamed
  · simp [hpairing, h] at hdouble
  · simp [hpairing, h] at hsingle

/-! ## What a result does to the pending closings -/

namespace InputController

/-- What an operation on `c`, for a key with the character `typed`, did: it left
the pending closings alone, forgot them, opened a pair, or stepped over a mark. -/
inductive PairEffect (typed : Option Char) (c : InputController σ) :
    ControllerResult × InputController σ → Prop
  | kept {result : ControllerResult} {d : InputController σ} :
      result.cursorLeft = 0 → result.cursorRight = 0 →
      d.pendingPairedClosings = c.pendingPairedClosings → PairEffect typed c (result, d)
  | forgotten {result : ControllerResult} {d : InputController σ} :
      result.cursorLeft = 0 → result.cursorRight = 0 →
      d.pendingPairedClosings = [] → PairEffect typed c (result, d)
  | opened {result : ControllerResult} {d : InputController σ} {text : Text} {mark : Char} :
      mark ∈ closingMarks → result.handled = true →
      result.cursorLeft = 1 → result.cursorRight = 0 → result.commit = some (text ++ [mark]) →
      d.pendingPairedClosings = c.pendingPairedClosings ++ [[mark]] →
      PairEffect typed c (result, d)
  | steppedOver {result : ControllerResult} {d : InputController σ} {ch mark : Char} :
      typed = some ch → mark ∈ marksOf ch → result.handled = true →
      result.cursorLeft = 0 → result.cursorRight = 1 →
      c.pendingPairedClosings = d.pendingPairedClosings ++ [[mark]] →
      PairEffect typed c (result, d)

/-- Every pending closing is one of the marks. -/
def PendingMarks (c : InputController σ) : Prop :=
  ∀ closing ∈ c.pendingPairedClosings, ∃ mark ∈ closingMarks, closing = [mark]

/-- The effect is that of the operation on any controller with the same pending
closings. -/
theorem PairEffect.of_eq {typed : Option Char} {c c' : InputController σ}
    {r : ControllerResult × InputController σ} (h : PairEffect typed c r)
    (heq : c'.pendingPairedClosings = c.pendingPairedClosings) : PairEffect typed c' r := by
  cases h with
  | kept hl hr hp => exact .kept hl hr (hp.trans heq.symm)
  | forgotten hl hr hp => exact .forgotten hl hr hp
  | opened hm hh hl hr hc hp => exact .opened hm hh hl hr hc (by rw [heq, hp])
  | steppedOver ht hm hh hl hr hp => exact .steppedOver ht hm hh hl hr (by rw [heq, hp])

/-- A session call leaves the pending closings alone. -/
theorem finishCall_pairEffect (typed : Option Char) (c : InputController σ)
    (call : KeyResult × σ) (n : Nat) :
    Ensures (c.finishCall S call) n fun r _ => PairEffect typed c r := by
  refine (c.finishCall_spec call n).mono fun r _ hr => ?_
  obtain ⟨result, d⟩ := r
  obtain ⟨rfl, k, g, rfl⟩ := hr
  exact .kept rfl rfl rfl

/-- Typing a mark pairs it, steps over the one that is there, or just commits it. -/
theorem typePunctuation_pairEffect (c : InputController σ) {result : ControllerResult}
    {ascii : Char} {punctuation : Text} (precedingCharacter : Option Char) (now : Int)
    (hpending : c.PendingMarks) (hleft : result.cursorLeft = 0) (hright : result.cursorRight = 0)
    (hnamed : c.pairing = true → ∀ mark ∈ closingMarks,
      c.pairedMark ascii punctuation = [mark] → mark ∈ marksOf ascii) :
    PairEffect (some ascii) c
      (c.typePunctuation result ascii punctuation precedingCharacter now) := by
  unfold typePunctuation
  dsimp only
  split
  · next hover =>
    simp only [Bool.and_eq_true, decide_eq_true_eq] at hover
    obtain ⟨⟨hpairing, -⟩, hlast⟩ := hover
    obtain ⟨mark, hmark, heq⟩ := hpending _ (List.mem_of_getLast? hlast)
    refine .steppedOver rfl (hnamed hpairing mark hmark heq) rfl hleft rfl ?_
    rw [← heq]
    exact (List.dropLast_append_getLast? _ hlast).symm
  · rcases pairedPunctuationClosing_cases (c.pairedMark ascii punctuation) with
      hclosing | ⟨mark, hmark, hclosing⟩
    · -- no closing mark: nothing is pushed
      split <;> refine .kept ?_ hright ?_ <;>
        simp [hclosing, hleft, clearSmartPunctuationHistory]
    · by_cases hpairing : c.pairing = true
      · have hpaired : (c.pairing && decide ([mark] ≠ [])) = true := by simp [hpairing]
        simp only [hclosing, hpaired, if_true]
        split <;> exact .opened hmark rfl rfl hright rfl rfl
      · split <;> refine .kept ?_ hright ?_ <;>
          simp [hpairing, hleft, clearSmartPunctuationHistory]

theorem commitPunctuation_pairEffect (c : InputController σ) (ascii : Char)
    (precedingCharacter : Option Char) (now : Int) (n : Nat) (hpending : c.PendingMarks) :
    Ensures (c.commitPunctuation S ascii precedingCharacter now) n fun r _ =>
      PairEffect (some ascii) c r := by
  unfold commitPunctuation
  refine .seq (c.finishCall_spec _ n) fun r n' hr => ?_
  obtain ⟨result, d⟩ := r
  obtain ⟨rfl, k, g, rfl⟩ := hr
  dsimp only
  split
  · exact .pure (.kept rfl rfl rfl)
  generalize hd : (if canReplaceRecentAscii _ c.hasComposition ascii _ now = true then _ else _) = d
  have hpend : d.pendingPairedClosings = c.pendingPairedClosings := by
    rw [← hd]
    split <;> rfl
  split
  · exact .pure (.kept rfl rfl hpend)
  · refine .pure (PairEffect.of_eq (typePunctuation_pairEffect _ _ now ?_ rfl rfl ?_) hpend.symm)
    · intro closing hmem
      exact hpending closing (hpend ▸ hmem)
    · intro hpairing mark hmark heq
      exact d.pairedMark_closing c.hasComposition hpairing heq hmark

/-! ## Every operation -/

theorem recalled_pending (c : InputController σ) (event : FrontendKeyEvent) :
    (c.recalled event).pendingPairedClosings = c.pendingPairedClosings := by
  unfold recalled
  split <;> rfl

/-- A setter leaves the pending closings alone. -/
theorem Settled.pairEffect {typed : Option Char} {c : InputController σ}
    {r : ControllerResult × InputController σ} (h : Settled S c r) : PairEffect typed c r :=
  .kept h.cursorLeft h.cursorRight h.pending

/-- **Every branch of `handle_key`**, on the pending closings. -/
theorem handleKey_pairEffect (c : InputController σ) (event : FrontendKeyEvent) (now : Int)
    (n : Nat) (hpending : c.PendingMarks) :
    Ensures (c.handleKey S event now) n fun r _ => PairEffect (some event.character) c r := by
  have hrecalled := c.recalled_pending event
  -- what the key recalls of the last mark does not bear on the closings
  have hback : ∀ {op : Draw (ControllerResult × InputController σ)},
      Ensures op n (fun r _ => PairEffect (some event.character) (c.recalled event) r) →
      Ensures op n fun r _ => PairEffect (some event.character) c r :=
    fun h => h.mono fun r _ hr => hr.of_eq hrecalled.symm
  cases hhost : event.hostShortcut with
  | true =>
    -- a shortcut of the host ends the composition and forgets them
    rw [c.handleKey_hostShortcut event now hhost]
    refine .bind fun r n' hr => .seq (invalidateContext_spec _ n') fun d _ hd => .pure ?_
    obtain ⟨hresult, -⟩ := (finishCall_spec _ _ n).apply hr
    obtain ⟨g, rfl⟩ := hd
    exact .forgotten (by rw [hresult]; rfl) (by rw [hresult]; rfl) rfl
  | false =>
    rcases c.handleKey_routine (S := S) event now hhost with ⟨-, h⟩ | ⟨-, h⟩ | ⟨-, h⟩ | h
    · rw [h]
      exact hback ((setPunctuationMode_settled (S := S) _ _ n).mono fun _ _ hr => hr.pairEffect)
    · rw [h]
      exact hback ((setCharacterWidth_settled (S := S) _ _ n).mono fun _ _ hr => hr.pairEffect)
    · rw [h]
      exact hback ((toggleDedicatedEnglishMode_settled _ n).mono fun _ _ hr => hr.pairEffect)
    · refine hback ?_
      generalize c.handleKey S event now = op at h
      cases h with
      | call _ => exact finishCall_pairEffect _ _ _ n
      | move handled k _ => exact .pure (.kept rfl rfl rfl)
      | punctuation _ _ =>
        -- the one branch that adds a closing or steps over one
        refine (commitPunctuation_pairEffect _ _ _ now n ?_).mono fun r _ hr => hr.of_eq rfl
        intro closing hmem
        exact hpending closing (hrecalled ▸ hmem)
      | widen ch _ _ =>
        unfold commitFullWidth
        dsimp only
        split
        · exact .pure (.kept rfl rfl rfl)
        · split <;> exact .pure (.kept rfl rfl rfl)

end InputController

/-- The character a call types, if it is a key. -/
def Operation.typed : Operation → Option Char
  | handleKey event _ => some event.character
  | _ => none

/-- **Every call of the controller**, on the pending closings. -/
theorem Operation.perform_pairEffect (c : InputController σ) (op : Operation) (n : Nat)
    (hpending : c.PendingMarks) :
    Ensures (op.perform S c) n fun r _ => PairEffect op.typed c r := by
  -- a call that settles the composition forgets the closings
  have hsettled : ∀ {m : Draw (ControllerResult × InputController σ)} {typed : Option Char},
      Ensures m n (fun r _ => Settled S c r) → Ensures m n fun r _ => PairEffect typed c r :=
    fun h => h.mono fun _ _ hr => hr.pairEffect
  cases op with
  | handleKey event now => exact c.handleKey_pairEffect event now n hpending
  | selectCandidate i => exact c.finishCall_pairEffect none _ n
  | selectPageCandidate i =>
    show Ensures (InputController.selectPageCandidate S c i) n _
    unfold InputController.selectPageCandidate
    split
    · exact .pure (.kept rfl rfl rfl)
    · exact c.finishCall_pairEffect none _ n
  | setMode mode => exact hsettled (c.setMode_settled mode n)
  | toggleMode => exact hsettled (c.setMode_settled _ n)
  | setPunctuationMode mode => exact hsettled (c.setPunctuationMode_settled mode n)
  | setPunctuationLock lock =>
    exact .seq (c.setPunctuationLock_settled (S := S) lock n) fun _ _ hd => .pure hd.pairEffect
  | togglePunctuationMode => exact hsettled (c.setPunctuationMode_settled _ n)
  | setCharacterWidth width => exact hsettled (c.setCharacterWidth_settled width n)
  | toggleCharacterWidth => exact hsettled (c.setCharacterWidth_settled _ n)
  | toggleDedicatedEnglishMode => exact hsettled (c.toggleDedicatedEnglishMode_settled n)
  | switchScheme schemeType => exact hsettled (c.switchScheme_settled schemeType n)
  | reset =>
    refine .seq (c.reset_spec n) fun d _ hd => .pure ?_
    obtain ⟨s, k, g, rfl⟩ := hd
    exact .forgotten rfl rfl rfl
  | invalidateContext =>
    refine .seq (c.invalidateContext_spec n) fun d _ hd => .pure ?_
    obtain ⟨g, rfl⟩ := hd
    exact .forgotten rfl rfl rfl

/-! ## The invariant -/

/-- The pending closings, innermost first, are what follows the caret, and the
engine put them there. -/
structure Aligned (c : InputController σ) (d : Document) : Prop where
  marks : c.PendingMarks
  right : ∃ rest, d.right =
    c.pendingPairedClosings.reverse.flatten.map (fun ch => (ch, Origin.inserted)) ++ rest

/-- With nothing pending there is nothing to say. -/
theorem Aligned.ofEmpty {c : InputController σ} {d : Document}
    (h : c.pendingPairedClosings = []) : Aligned c d where
  marks closing hmem := by
    rw [h] at hmem
    cases hmem
  right := ⟨d.right, by rw [h]; rfl⟩

/-- Aligned, whatever becomes of the controller's other members and of the text
left of the caret. -/
theorem Aligned.keep {c c' : InputController σ} {d d' : Document} (h : Aligned c d)
    (hpending : c'.pendingPairedClosings = c.pendingPairedClosings)
    (hright : d'.right = d.right) : Aligned c' d' where
  marks := by
    unfold InputController.PendingMarks
    rw [hpending]
    exact h.marks
  right := by
    rw [hpending, hright]
    exact h.right

/-- **The step lemma**: what a result does to the pending closings, the client
does to the document. -/
theorem Aligned.applied {typed : Option Char} {c c' : InputController σ} {d : Document}
    {result : ControllerResult} (h : Aligned c d) (heffect : PairEffect typed c (result, c')) :
    Aligned c' (d.applyAll (applyResult result)) := by
  cases heffect with
  | kept hleft hright hpending =>
    rw [Document.applyAll_still hleft hright]
    exact h.keep hpending rfl
  | forgotten hleft hright hpending => exact .ofEmpty hpending
  | @opened _ _ text mark hmark _ hleft hright hcommit hpending =>
    have hafter : d.leftAfter result = ((if 0 < result.deleteBefore then
        d.left.take (d.left.length - min result.deleteBefore maxGint) else d.left) ++ text) ++
        [mark] := by
      rw [Document.leftAfter, hcommit, List.append_assoc]
      rfl
    -- the caret goes back before the mark that was inserted
    rw [Document.applyAll_back hleft hright hafter]
    obtain ⟨rest, hrest⟩ := h.right
    refine ⟨?_, rest, ?_⟩
    · intro closing hmem
      rw [hpending] at hmem
      rcases List.mem_append.mp hmem with hold | hnew
      · exact h.marks closing hold
      · exact ⟨mark, hmark, List.mem_singleton.mp hnew⟩
    · simp [hpending, hrest]
  | @steppedOver _ _ ch mark _ _ _ hleft hright hpending =>
    obtain ⟨rest, hrest⟩ := h.right
    have hright' : d.right = (mark, .inserted) :: (c'.pendingPairedClosings.reverse.flatten.map
        (fun ch => (ch, Origin.inserted)) ++ rest) := by
      rw [hrest, hpending]
      simp
    -- it passes over the mark that stands there, and it is the one expected
    rw [Document.applyAll_over hleft hright hright']
    refine ⟨?_, rest, rfl⟩
    intro closing hmem
    exact h.marks closing (by rw [hpending]; exact List.mem_append_left _ hmem)

theorem forwardRight_mem {result : ControllerResult}
    (h : ClientAction.forwardRight ∈ applyResult result) : result.cursorRight ≠ 0 := by
  intro hzero
  unfold applyResult at h
  rw [hzero] at h
  cases hcommit : result.commit <;> by_cases hdelete : 0 < result.deleteBefore <;>
    simp [hcommit, hdelete, List.mem_replicate] at h

/-- **A type-over crosses the mark the key names**, which the engine had put there. -/
theorem Aligned.crossed {typed : Option Char} {c c' : InputController σ} {d : Document}
    {result : ControllerResult} (h : Aligned c d) (heffect : PairEffect typed c (result, c'))
    (hover : ClientAction.forwardRight ∈ applyResult result) :
    ∃ ch mark rest, typed = some ch ∧ mark ∈ marksOf ch ∧
      c.pendingPairedClosings.getLast? = some [mark] ∧
      d.right = (mark, .inserted) :: rest ∧
      d.applyAll (applyResult result) = ⟨d.leftAfter result ++ [mark], rest⟩ := by
  have hmoves := forwardRight_mem hover
  cases heffect with
  | kept _ hright _ => exact absurd hright hmoves
  | forgotten _ hright _ => exact absurd hright hmoves
  | opened _ _ _ hright _ _ => exact absurd hright hmoves
  | @steppedOver _ _ ch mark htyped hmark _ hleft hright hpending =>
    obtain ⟨rest, hrest⟩ := h.right
    have hfollows : d.right = (mark, .inserted) :: (c'.pendingPairedClosings.reverse.flatten.map
        (fun ch => (ch, Origin.inserted)) ++ rest) := by
      rw [hrest, hpending]
      simp
    exact ⟨ch, mark, _, htyped, hmark, by rw [hpending]; simp, hfollows,
      Document.applyAll_over hleft hright hfollows⟩

/-! ## Editing -/

/-- The engine of one input context, the process's counter, and the document. -/
structure Editing (σ : Type) where
  engine : KeyEngine σ
  sequence : Nat
  document : Document

/-- What happens in an input context: a key event; any other call of the engine
on its controller; an online candidate; new settings, with a new controller or
new bindings; the application editing left of the caret, as it does for a
forwarded Backspace or text key; and the application moving the caret or editing
right of it, for which the engine is told to forget the context. -/
inductive Happening where
  | key (input : KeyInput)
  | operate (op : Operation)
  | deliver (generation : Nat) (query : OnlineQuery) (candidate : Text)
      (source : CandidateSource)
  | rebuild (schemeType : SchemeType) (options : InputOptions) (paths : RuntimePaths)
  | configure (bindings : ModeToggleBindings)
  | editLeft (left : Text)
  | elsewhere (document : Document)

/-- The character a happening types. -/
def Happening.typed : Happening → Option Char
  | key input => some input.event.character
  | operate op => op.typed
  | _ => none

variable (S) in
/-- One happening, with the calls the engine makes on the client. A happening
that finds the counter exhausted has no successor. -/
inductive Editing.Step : Editing σ → Happening × List ClientAction → Editing σ → Prop
  | key {s : Editing σ} {input : KeyInput} {outcome : KeyOutcome} {engine : KeyEngine σ}
      {n : Nat} : processKeyEvent S s.engine input s.sequence = .ok ((outcome, engine), n) →
      Step s (.key input, outcome.actions)
        ⟨engine, n, s.document.applyAll outcome.actions⟩
  | operate {s : Editing σ} {op : Operation} {result : ControllerResult}
      {c : InputController σ} {n : Nat} :
      op.perform S s.engine.controller s.sequence = .ok ((result, c), n) →
      Step s (.operate op, applyResult result)
        ⟨{ s.engine with controller := c }, n, s.document.applyAll (applyResult result)⟩
  | deliver {s : Editing σ} {generation : Nat} {query : OnlineQuery} {candidate : Text}
      {source : CandidateSource} :
      Step s (.deliver generation query candidate source, [])
        { s with engine := { s.engine with controller :=
          (s.engine.controller.applyOnlineCandidate S generation query candidate source).2 } }
  | rebuild {s : Editing σ} {schemeType : SchemeType} {options : InputOptions}
      {paths : RuntimePaths} {c : InputController σ} {n : Nat} :
      InputController.create S schemeType options paths s.sequence = .ok (some c, n) →
      Step s (.rebuild schemeType options paths, [])
        { s with engine := { s.engine with controller := c }, sequence := n }
  | configure {s : Editing σ} {bindings : ModeToggleBindings} :
      Step s (.configure bindings, [])
        { s with engine := { s.engine with modeToggle := s.engine.modeToggle.configure bindings } }
  | editLeft {s : Editing σ} {left : Text} :
      Step s (.editLeft left, []) { s with document := { s.document with left := left } }
  | elsewhere {s : Editing σ} {document : Document} {c : InputController σ} {n : Nat} :
      s.engine.controller.invalidateContext s.sequence = .ok (c, n) →
      Step s (.elsewhere document, [])
        ⟨{ s.engine with controller := c }, n, document⟩

theorem InputController.applyOnlineCandidate_pending (c : InputController σ) (generation : Nat)
    (query : OnlineQuery) (candidate : Text) (source : CandidateSource) :
    (c.applyOnlineCandidate S generation query candidate source).2.pendingPairedClosings =
      c.pendingPairedClosings := by
  unfold InputController.applyOnlineCandidate
  split
  · rfl
  dsimp only
  split
  · rfl
  split <;> rfl

/-- Passing a key through forgets the context and moves no caret. -/
theorem commitForPassthrough_forgets (c : InputController σ) (now : Int) (n : Nat) :
    Ensures (commitForPassthrough S c now) n fun r _ =>
      r.2.pendingPairedClosings = [] ∧ ¬ ClientAction.forwardRight ∈ r.1 := by
  unfold commitForPassthrough
  rw [c.handleKey_hostShortcut _ now rfl, bind_assoc]
  refine .seq (finishCall_spec _ _ n) fun r n' hr => ?_
  obtain ⟨result, d⟩ := r
  obtain ⟨rfl, k, g, rfl⟩ := hr
  rw [bind_assoc]
  refine .seq (invalidateContext_spec _ n') fun e _ he => .pure ?_
  obtain ⟨g', rfl⟩ := he
  exact ⟨rfl, fun hover => forwardRight_mem hover rfl⟩

/-- What calls made for the character `typed` did, from an aligned pair: the pair
is aligned again, and a caret that moved right crossed a mark `typed` names. -/
structure Keeps (typed : Option Char) (c : InputController σ) (d : Document)
    (actions : List ClientAction) (c' : InputController σ) : Prop where
  aligned : Aligned c' (d.applyAll actions)
  crossed : ClientAction.forwardRight ∈ actions → ∃ ch mark rest,
    typed = some ch ∧ mark ∈ marksOf ch ∧ c.pendingPairedClosings.getLast? = some [mark] ∧
    d.right = (mark, .inserted) :: rest ∧ (d.applyAll actions).right = rest

theorem InputController.PairEffect.keeps {typed : Option Char} {c c' : InputController σ}
    {d : Document} {result : ControllerResult} (h : PairEffect typed c (result, c'))
    (haligned : Aligned c d) : Keeps typed c d (applyResult result) c' where
  aligned := haligned.applied h
  crossed hover := by
    obtain ⟨ch, mark, rest, htyped, hmark, hlast, hright, hafter⟩ := haligned.crossed h hover
    exact ⟨ch, mark, rest, htyped, hmark, hlast, hright, by rw [hafter]⟩

/-- The context was forgotten and no caret moved right. -/
theorem Keeps.ofForgotten {typed : Option Char} {c c' : InputController σ} {d : Document}
    {actions : List ClientAction} (hpending : c'.pendingPairedClosings = [])
    (hover : ¬ ClientAction.forwardRight ∈ actions) : Keeps typed c d actions c' :=
  ⟨.ofEmpty hpending, fun h => absurd h hover⟩

/-- The engine had nothing to do. -/
theorem Keeps.idle {typed : Option Char} {c : InputController σ} {d : Document}
    (h : Aligned c d) : Keeps typed c d [] c :=
  ⟨h, fun hover => by cases hover⟩

/-- **Key events.** -/
theorem processKeyEvent_keeps {engine : KeyEngine σ} {input : KeyInput} {n : Nat}
    {d : Document} (h : Aligned engine.controller d) :
    Ensures (processKeyEvent S engine input) n fun r _ =>
      Keeps (some input.event.character) engine.controller d r.1.actions r.2.controller := by
  unfold processKeyEvent
  generalize engine.modeToggle.observe input.keyval input.state = observed
  obtain ⟨toggle, modeToggle⟩ := observed
  dsimp only
  split
  · refine .seq (setMode_settled _ _ n) fun r n' hr => .pure ?_
    obtain ⟨result, c⟩ := r
    exact hr.pairEffect.keeps h
  split
  · exact .pure (.idle h)
  refine .seq (P := fun r _ => Keeps (some input.event.character) engine.controller d
    r.1.actions r.2) ?_ fun r _ hr => .pure hr
  unfold translatedKey
  split
  · exact .pure (.idle h)
  · refine .seq (commitForPassthrough_forgets _ _ n) fun r _ hr => .pure ?_
    exact .ofForgotten hr.1 hr.2
  · unfold dispatchEvent
    refine .seq (handleKey_pairEffect _ input.event _ n h.marks) fun r n' hr => ?_
    obtain ⟨result, c⟩ := r
    dsimp only
    split
    · exact .pure (hr.keeps h)
    · -- the result of an unhandled key is not applied, but the context goes with it
      refine .seq (commitForPassthrough_forgets _ _ n') fun r _ hr => .pure ?_
      exact .ofForgotten hr.1 hr.2

/-- **The step lemma** for everything that happens in an input context. -/
theorem Editing.step_keeps {s t : Editing σ} {happening : Happening}
    {actions : List ClientAction} (h : Aligned s.engine.controller s.document)
    (hs : Editing.Step S s (happening, actions) t) :
    Aligned t.engine.controller t.document ∧
    (ClientAction.forwardRight ∈ actions → ∃ ch mark rest,
      happening.typed = some ch ∧ mark ∈ marksOf ch ∧
      s.engine.controller.pendingPairedClosings.getLast? = some [mark] ∧
      s.document.right = (mark, .inserted) :: rest ∧ t.document.right = rest) := by
  have hkeeps : ∀ {c : InputController σ}, Keeps happening.typed s.engine.controller s.document
      actions c → Aligned c (s.document.applyAll actions) ∧ _ := fun hk => ⟨hk.aligned, hk.crossed⟩
  cases hs with
  | key hrun => exact hkeeps ((processKeyEvent_keeps h).apply hrun)
  | operate hrun =>
    exact hkeeps (((Operation.perform_pairEffect _ _ _ h.marks).apply hrun).keeps h)
  | deliver =>
    refine ⟨h.keep (applyOnlineCandidate_pending ..) rfl, fun hover => ?_⟩
    cases hover
  | rebuild hrun =>
    refine ⟨.ofEmpty ((create_fresh _ _ _ _).apply hrun _ rfl).pending, fun hover => ?_⟩
    cases hover
  | configure =>
    refine ⟨h, fun hover => ?_⟩
    cases hover
  | editLeft =>
    refine ⟨h.keep rfl rfl, fun hover => ?_⟩
    cases hover
  | elsewhere hrun =>
    obtain ⟨g, rfl⟩ := (invalidateContext_spec _ _).apply hrun
    refine ⟨.ofEmpty rfl, fun hover => ?_⟩
    cases hover

/-- **Pending closings lie to the right of the caret.** In every run from a
controller with nothing pending, over any document, the pending closings,
innermost first, are the text right of the caret, put there by the engine. A call
that moves the caret right moves it across one character only, the innermost of
them, and comes of a key that names it. -/
theorem pendingClosings_right {s t : Editing σ} {ls : List (Happening × List ClientAction)}
    (hfresh : s.engine.controller.pendingPairedClosings = [])
    (hrun : Run (Editing.Step S) s ls t) :
    (∃ rest, t.document.right =
      t.engine.controller.pendingPairedClosings.reverse.flatten.map
        (fun ch => (ch, Origin.inserted)) ++ rest) ∧
    ∀ happening actions u, Editing.Step S t (happening, actions) u →
      ClientAction.forwardRight ∈ actions → ∃ ch mark rest,
        happening.typed = some ch ∧ mark ∈ marksOf ch ∧
        t.engine.controller.pendingPairedClosings.getLast? = some [mark] ∧
        t.document.right = (mark, .inserted) :: rest ∧ u.document.right = rest := by
  have haligned : Aligned t.engine.controller t.document :=
    hrun.invariant (I := fun u => Aligned u.engine.controller u.document)
      (fun _ _ _ h hs => (Editing.step_keeps h hs).1) (.ofEmpty hfresh)
  exact ⟨haligned.right, fun _ _ _ hs hover => (Editing.step_keeps haligned hs).2 hover⟩

/-- A fresh engine at the caret of "a|b". -/
def editingSession : Option (Editing SessionSnapshot) :=
  match InputController.create typingSession .quanpin plainOptions plainPaths 0 with
  | .ok (some c, n) => some ⟨⟨c, {}⟩, n, ⟨['a'], [('b', .user)]⟩⟩
  | _ => none

/-- `(` opens a pair between "a" and "b", and `)` steps over the mark it left
there, not over the "b" behind it. -/
theorem pendingClosings_right_parentheses :
    ∃ (s t u : Editing SessionSnapshot) (actions : List ClientAction),
      editingSession = some s ∧
      Run (Editing.Step typingSession) s
        [(.key ⟨'('.toNat, shiftMask, some 'a', 0⟩, [.commitText ['（', '）'], .forwardLeft])] t ∧
      t.document = ⟨['a', '（'], [('）', .inserted), ('b', .user)]⟩ ∧
      Editing.Step typingSession t (.key ⟨')'.toNat, shiftMask, some '（', 1⟩, actions) u ∧
      ∃ mark rest, mark ∈ marksOf ')' ∧ t.document.right = (mark, .inserted) :: rest ∧
        u.document.right = rest := by
  obtain ⟨s, t, u, actions, hs, hfresh, hrun, hdocument, hstep, hover⟩ :
      ∃ (s t u : Editing SessionSnapshot) (actions : List ClientAction),
        editingSession = some s ∧ s.engine.controller.pendingPairedClosings = [] ∧
        Run (Editing.Step typingSession) s
          [(.key ⟨'('.toNat, shiftMask, some 'a', 0⟩, [.commitText ['（', '）'], .forwardLeft])] t ∧
        t.document = ⟨['a', '（'], [('）', .inserted), ('b', .user)]⟩ ∧
        Editing.Step typingSession t (.key ⟨')'.toNat, shiftMask, some '（', 1⟩, actions) u ∧
        ClientAction.forwardRight ∈ actions :=
    ⟨_, _, _, [.forwardRight], rfl, rfl,
      .single (@Editing.Step.key _ _ _ _ ⟨true, [.commitText ['（', '）'], .forwardLeft]⟩ _ _ rfl),
      rfl, @Editing.Step.key _ _ _ _ ⟨true, [.forwardRight]⟩ _ _ rfl, List.mem_singleton_self _⟩
  obtain ⟨-, hcross⟩ := pendingClosings_right hfresh hrun
  obtain ⟨ch, mark, rest, htyped, hmark, -, hright, hafter⟩ := hcross _ _ _ hstep hover
  obtain rfl : ')' = ch := Option.some.inj htyped
  exact ⟨s, t, u, actions, hs, hrun, hdocument, hstep, mark, rest, hmark, hright, hafter⟩

end MsimeLinux
