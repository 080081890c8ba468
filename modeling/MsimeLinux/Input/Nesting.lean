import MsimeLinux.Input.PairedPunctuation
import MsimeLinux.Input.SmartPunctuation

/-!
# Paired punctuation and well-nested typing

Typing `(`, `[`, `{`, `<` inserts a pair, typing `)`, `]`, `}`, `>` steps over the
mark that is there. This module asks what a well-nested sequence of these keys
leaves in the document, with compositions opened and committed in between.

- `Nest`: the key sequences, as trees; each key carries whether it was pressed
  while something was being composed.
- `BracketKey.mark`, `press`: the abstract machine, a stack of marks waiting to
  the right of the caret and the depth of book-title marks.
- `handleKey_bracket`, `handleKey_composes`: the controller and the document
  follow it, key by key.
- `nesting_iff`: the document holds one pair for each opening key, properly
  nested, with nothing left over, exactly when no brace is opened during a
  composition and closed outside one, or the other way round, in full width.
-/

namespace MsimeLinux

open Lib InputController

variable {σ : Type} {S : SessionApi σ}

/-! ## Keys and marks -/

/-- The four pairs of keys. -/
inductive BracketKind where
  | parenthesis
  | bracket
  | brace
  | angle
  deriving DecidableEq, Repr

/-- One of the eight keys. -/
structure BracketKey where
  kind : BracketKind
  opening : Bool
  deriving DecidableEq, Repr

namespace BracketKey

/-- The character of the key. -/
def character : BracketKey → Char
  | ⟨.parenthesis, true⟩ => '('
  | ⟨.parenthesis, false⟩ => ')'
  | ⟨.bracket, true⟩ => '['
  | ⟨.bracket, false⟩ => ']'
  | ⟨.brace, true⟩ => '{'
  | ⟨.brace, false⟩ => '}'
  | ⟨.angle, true⟩ => '<'
  | ⟨.angle, false⟩ => '>'

/-- The mark the key types or steps over, at a book-title depth. Braces alone have
a full-width form of their own, outside compositions. -/
def mark (width : CharacterWidth) (composing : Bool) (depth : Nat) : BracketKey → Char
  | ⟨.parenthesis, true⟩ => '（'
  | ⟨.parenthesis, false⟩ => '）'
  | ⟨.bracket, true⟩ => '【'
  | ⟨.bracket, false⟩ => '】'
  | ⟨.brace, true⟩ => if width = .full ∧ composing = false then '｛' else '{'
  | ⟨.brace, false⟩ => if width = .full ∧ composing = false then '｝' else '}'
  | ⟨.angle, true⟩ => if depth = 0 then '《' else '〈'
  | ⟨.angle, false⟩ => if depth ≤ 1 then '》' else '〉'

/-- Outside full width, inside a composition, and for every kind but the braces,
the mark is the half-width one. -/
theorem mark_eq_half {width : CharacterWidth} {composing : Bool} {key : BracketKey}
    (h : ¬ (width = .full ∧ composing = false ∧ key.kind = .brace)) (depth : Nat) :
    key.mark width composing depth = key.mark .half false depth := by
  obtain ⟨kind, opening⟩ := key
  cases kind <;> cases opening <;> try rfl
  all_goals
    have hwidth : ¬ (width = .full ∧ composing = false) := fun hw => h ⟨hw.1, hw.2, rfl⟩
    simp [mark, hwidth]

/-- The half-width mark is the key's own character for the braces only. -/
theorem mark_half_eq (key : BracketKey) (depth : Nat) :
    key.mark .half false depth = key.character ↔ key.kind = .brace := by
  obtain ⟨kind, opening⟩ := key
  cases kind <;> cases opening <;> simp [mark, character]
  all_goals split_ifs <;> decide

/-- The book-title depth behind the key. -/
def depthAfter (depth : Nat) (key : BracketKey) : Nat :=
  match key.kind, key.opening with
  | .angle, true => depth + 1
  | .angle, false => depth - 1
  | _, _ => depth

end BracketKey

/-- The marks waiting right of the caret, innermost first, behind a mark: an
opening mark adds its closing one, any other mark takes away the one it meets. -/
def press (stack : List Char) (mark : Char) : List Char :=
  match pairedPunctuationClosing [mark] with
  | closing :: _ => closing :: stack
  | [] => if stack.head? = some mark then stack.tail else stack

/-! ## One key -/

namespace InputController

/-- The settings under which the eight keys are punctuation and pair: the IME
mode, Chinese punctuation and pairing on, brackets neither paging nor selecting. -/
structure Pairs (c : InputController σ) : Prop where
  mode : c.mode = .ime
  punctuation : c.punctuationMode = .chinese
  paired : c.pairedPunctuation = true
  bracketPaging : c.bracketPaging = false
  wordToCharacter : c.wordToCharacter = false
  forgotten : c.smartPunctuationHistoryActive = false

/-- The controller and the document agree with the abstract machine, over the
text `right` that was there before. -/
structure Stacked (c : InputController σ) (d : Document) (stack : List Char) (depth : Nat)
    (right : List (Char × Origin)) : Prop where
  pending : c.pendingPairedClosings = stack.reverse.map fun ch => [ch]
  document : d.right = stack.map (fun ch => (ch, Origin.inserted)) ++ right
  depth : c.punctuationFormatter.bookTitleNesting = depth

/-- The formatter, on the eight keys: the half-width mark, and the new depth. -/
theorem chinese_bracket (f : PunctuationFormatter) (key : BracketKey) :
    f.chinese key.character =
      ([key.mark .half false f.bookTitleNesting],
        { f with bookTitleNesting := key.depthAfter f.bookTitleNesting }) := by
  obtain ⟨kind, opening⟩ := key
  obtain ⟨double, single, depth⟩ := f
  cases kind <;> cases opening <;> try rfl
  · -- `>` takes a level away, if there is one
    rcases depth with - | - | depth <;> rfl
  · rcases depth with - | depth <;> rfl

/-- What one of the keys types before pairing, at width `c.characterWidth`. -/
theorem punctuationFor_bracket {c : InputController σ} (h : c.Pairs) (key : BracketKey)
    (hadComposition : Bool) (precedingCharacter : Option Char) :
    c.punctuationFor hadComposition key.character precedingCharacter =
      ([key.mark c.characterWidth hadComposition c.punctuationFormatter.bookTitleNesting],
        { c.punctuationFormatter with
          bookTitleNesting := key.depthAfter c.punctuationFormatter.bookTitleNesting }) := by
  have hmark : isPunctuation key.character = true := by
    obtain ⟨kind, opening⟩ := key
    cases kind <;> cases opening <;> rfl
  have hkeep : shouldKeepAsciiPunctuation key.character precedingCharacter = false := by
    obtain ⟨kind, opening⟩ := key
    cases kind <;> cases opening <;> rfl
  unfold punctuationFor
  rw [if_pos (by simp [h.punctuation, hmark]), if_neg (by simp [hkeep]), chinese_bracket]
  dsimp only
  split
  · next hwide =>
    simp only [Bool.and_eq_true, Bool.not_eq_true', decide_eq_true_eq, List.cons.injEq,
      and_true, BracketKey.mark_half_eq] at hwide
    obtain ⟨⟨rfl, hfull⟩, hbrace⟩ := hwide
    obtain ⟨kind, opening⟩ := key
    obtain rfl : kind = .brace := hbrace
    rw [hfull]
    cases opening <;> rfl
  · next hnarrow =>
    have hnot : ¬ (c.characterWidth = .full ∧ hadComposition = false ∧ key.kind = .brace) := by
      rintro ⟨hfull, rfl, hbrace⟩
      exact hnarrow (by simp [hfull, (BracketKey.mark_half_eq key _).mpr hbrace])
    rw [BracketKey.mark_eq_half hnot]

/-- Pairing leaves the eight marks as they are, and smart punctuation never keeps
one of the keys. -/
theorem bracket_plain (c : InputController σ) (key : BracketKey) (text : Text)
    (precedingCharacter : Option Char) :
    c.pairedMark key.character text = text ∧
      shouldKeepAsciiPunctuation key.character precedingCharacter = false := by
  obtain ⟨kind, opening⟩ := key
  cases kind <;> cases opening <;> exact ⟨by simp [pairedMark, BracketKey.character], rfl⟩

/-- The innermost waiting mark is the head of the stack. -/
theorem Stacked.getLast? {c : InputController σ} {d : Document} {stack : List Char} {depth : Nat}
    {right : List (Char × Origin)} (h : Stacked c d stack depth right) (mark : Char) :
    c.pendingPairedClosings.getLast? = some [mark] ↔ stack.head? = some mark := by
  rw [h.pending, List.getLast?_map, List.getLast?_reverse]
  cases stack <;> simp

/-- What the mark of a bracket key leaves: the mark behind the committed text, and
the stack pressed. -/
structure Pressed (c : InputController σ) (d : Document) (committed : Text) (mark : Char)
    (stack : List Char) (depth : Nat) (right : List (Char × Origin))
    (r : ControllerResult × InputController σ) : Prop where
  pairs : r.2.Pairs
  width : r.2.characterWidth = c.characterWidth
  left : (d.applyAll (applyResult r.1)).left = d.left ++ committed ++ [mark]
  stacked : Stacked r.2 (d.applyAll (applyResult r.1)) (press stack mark) depth right

/-- Typing the mark of a bracket key. -/
theorem typePunctuation_bracket {c : InputController σ} (hpairs : c.Pairs) {d : Document}
    {stack : List Char} {depth : Nat} {right : List (Char × Origin)}
    (h : Stacked c d stack depth right) {result : ControllerResult}
    (hdelete : result.deleteBefore = 0) (hleft : result.cursorLeft = 0)
    (hright : result.cursorRight = 0) (key : BracketKey) (mark : Char)
    (precedingCharacter : Option Char) (now : Int) :
    Pressed c d (result.commit.getD []) mark stack depth right
      (c.typePunctuation result key.character [mark] precedingCharacter now) := by
  obtain ⟨hmark, hkeep⟩ := c.bracket_plain key [mark] precedingCharacter
  have hpairing : c.pairing = true := by simp [pairing, hpairs.paired, hpairs.punctuation]
  unfold typePunctuation
  dsimp only
  rw [hmark, hkeep, Bool.and_false]
  simp only [hpairing, Bool.true_and, Bool.false_eq_true, if_false]
  split
  · next hover =>
    simp only [Bool.and_eq_true, decide_eq_true_eq, h.getLast?] at hover
    -- the mark is the innermost one that is open: the cursor steps over it
    obtain ⟨hclosing, hhead⟩ := hover
    obtain ⟨stack, rfl⟩ : ∃ rest, stack = mark :: rest := by
      cases stack with
      | nil => cases hhead
      | cons first rest => exact ⟨rest, by rw [Option.some.inj hhead]⟩
    have hafter : d.applyAll (applyResult { result with handled := true, cursorRight := 1 }) =
        ⟨d.left ++ result.commit.getD [] ++ [mark],
          stack.map (fun ch => (ch, Origin.inserted)) ++ right⟩ := by
      have hfollows : d.right = (mark, .inserted) ::
          (stack.map (fun ch => (ch, Origin.inserted)) ++ right) := h.document
      refine Eq.trans (Document.applyAll_over ?_ ?_ hfollows) ?_
      · exact hleft
      · rfl
      · simp [Document.leftAfter, hdelete]
    refine ⟨⟨hpairs.mode, hpairs.punctuation, hpairs.paired, hpairs.bracketPaging,
      hpairs.wordToCharacter, rfl⟩, rfl, by rw [hafter], ?_, ?_, h.depth⟩
    · show c.pendingPairedClosings.dropLast = (press (mark :: stack) mark).reverse.map _
      rw [h.pending, press, hclosing]
      simp
    · rw [hafter, press, hclosing]
      simp
  · next hover =>
    -- otherwise it is typed, alone or with its closing mark
    rcases pairedPunctuationClosing_cases [mark] with hclosing | ⟨closing, -, hclosing⟩
    · have hhead : ¬ stack.head? = some mark := by
        intro hhead
        exact hover (by simp [hclosing, (h.getLast? mark).mpr hhead])
      have hafter : d.applyAll (applyResult { result with
          commit := some (result.commit.getD [] ++ [mark]), handled := true }) =
          ⟨d.left ++ result.commit.getD [] ++ [mark], d.right⟩ := by
        refine Eq.trans (Document.applyAll_still ?_ ?_) ?_
        · exact hleft
        · exact hright
        · simp [Document.leftAfter, hdelete]
      simp only [hclosing, ne_eq, not_true_eq_false, decide_false, Bool.false_eq_true, if_false,
        List.append_nil]
      refine ⟨⟨hpairs.mode, hpairs.punctuation, hpairs.paired, hpairs.bracketPaging,
        hpairs.wordToCharacter, rfl⟩, rfl, by rw [hafter], ?_, ?_, h.depth⟩
      · show c.pendingPairedClosings = (press stack mark).reverse.map _
        rw [press, hclosing]
        simpa [hhead] using h.pending
      · rw [hafter, press, hclosing]
        simpa [hhead] using h.document
    · have hafter : d.applyAll (applyResult { result with
          commit := some (result.commit.getD [] ++ [mark] ++ [closing])
          cursorLeft := 1, handled := true }) =
          ⟨d.left ++ result.commit.getD [] ++ [mark], (closing, .inserted) :: d.right⟩ := by
        refine Document.applyAll_back ?_ ?_ ?_
        · rfl
        · exact hright
        · simp [Document.leftAfter, hdelete]
      simp only [hclosing, ne_eq, reduceCtorEq, not_false_eq_true, decide_true, if_true]
      refine ⟨⟨hpairs.mode, hpairs.punctuation, hpairs.paired, hpairs.bracketPaging,
        hpairs.wordToCharacter, rfl⟩, rfl, by rw [hafter], ?_, ?_, h.depth⟩
      · show c.pendingPairedClosings ++ [[closing]] = (press stack mark).reverse.map _
        rw [h.pending, press, hclosing]
        simp
      · rw [hafter, press, hclosing, h.document]
        rfl

/-- The text a key commits by ending the composition. -/
def finishText (S : SessionApi σ) (c : InputController σ) : Text :=
  (S.finish c.session c.highlightedCandidate).1.commit.getD []

/-- What a key that types no mark leaves: its text behind the caret, everything
else where it was. -/
structure Wrote (c : InputController σ) (d : Document) (stack : List Char) (depth : Nat)
    (right : List (Char × Origin)) (r : ControllerResult × InputController σ) : Prop where
  pairs : r.2.Pairs
  width : r.2.characterWidth = c.characterWidth
  deleteBefore : r.1.deleteBefore = 0
  cursorLeft : r.1.cursorLeft = 0
  cursorRight : r.1.cursorRight = 0
  stacked : Stacked r.2 d stack depth right

theorem finishCall_wrote {c : InputController σ} (hpairs : c.Pairs) {d : Document}
    {stack : List Char} {depth : Nat} {right : List (Char × Origin)}
    (h : Stacked c d stack depth right) (call : KeyResult × σ) (n : Nat) :
    Ensures (c.finishCall S call) n fun r _ =>
      r.1 = .ofKeyResult call.1 ∧ Wrote c d stack depth right r := by
  refine (c.finishCall_spec call n).mono fun r _ hr => ?_
  obtain ⟨result, e⟩ := r
  obtain ⟨rfl, k, g, rfl⟩ := hr
  exact ⟨rfl, ⟨hpairs.mode, hpairs.punctuation, hpairs.paired, hpairs.bracketPaging,
    hpairs.wordToCharacter, hpairs.forgotten⟩, rfl, rfl, rfl, rfl, ⟨h.pending, h.document, h.depth⟩⟩

/-- With nothing remembered there is nothing to replace. -/
theorem canReplaceRecentAscii_forgotten {c : InputController σ}
    (h : c.smartPunctuationHistoryActive = false) (hadComposition : Bool) (ascii : Char)
    (precedingCharacter : Option Char) (now : Int) :
    c.canReplaceRecentAscii hadComposition ascii precedingCharacter now = false := by
  simp [canReplaceRecentAscii, h]

/-- `commit_punctuation` on a bracket key: the composition, then the mark. -/
theorem commitPunctuation_bracket {c : InputController σ} (hpairs : c.Pairs) {d : Document}
    {stack : List Char} {depth : Nat} {right : List (Char × Origin)}
    (h : Stacked c d stack depth right) (key : BracketKey) (precedingCharacter : Option Char)
    (now : Int) (n : Nat) :
    Ensures (c.commitPunctuation S key.character precedingCharacter now) n fun r _ =>
      Pressed c d (finishText S c) (key.mark c.characterWidth c.hasComposition depth) stack
        (key.depthAfter depth) right r := by
  unfold commitPunctuation
  refine .seq (finishCall_wrote hpairs h _ n) fun r n' hr => ?_
  obtain ⟨result, e⟩ := r
  obtain ⟨hresult, hwrote⟩ := hr
  dsimp only at hresult hwrote ⊢
  have hcommit : result.commit.getD [] = finishText S c := by rw [hresult]; rfl
  rw [canReplaceRecentAscii_forgotten hwrote.pairs.forgotten, Bool.false_and]
  simp only [Bool.false_eq_true, if_false]
  have hmark := punctuationFor_bracket hwrote.pairs key c.hasComposition
    (precedingAfterCommit result.commit precedingCharacter)
  rw [hwrote.stacked.depth, hwrote.width] at hmark
  rw [hmark]
  refine .pure ?_
  have hpressed := typePunctuation_bracket
    (c := { e with punctuationFormatter := { e.punctuationFormatter with
      bookTitleNesting := key.depthAfter depth } })
    ⟨hwrote.pairs.mode, hwrote.pairs.punctuation, hwrote.pairs.paired, hwrote.pairs.bracketPaging,
      hwrote.pairs.wordToCharacter, hwrote.pairs.forgotten⟩
    ⟨hwrote.stacked.pending, hwrote.stacked.document, rfl⟩
    hwrote.deleteBefore hwrote.cursorLeft hwrote.cursorRight key
    (key.mark c.characterWidth c.hasComposition depth)
    (precedingAfterCommit result.commit precedingCharacter) now
  rw [hcommit] at hpressed
  exact ⟨hpressed.pairs, hpressed.width.trans hwrote.width, hpressed.left, hpressed.stacked⟩

/-- The eight keys are no separators and page nothing. -/
theorem bracket_pages {c : InputController σ} (hpairs : c.Pairs) (key : BracketKey) :
    key.character ≠ '\'' ∧ c.bracketKey key.character = none ∧
      c.wordKey key.character = false ∧ c.pagingKey key.character = none := by
  refine ⟨?_, ?_, ?_, ?_⟩
  · obtain ⟨kind, opening⟩ := key
    cases kind <;> cases opening <;> decide
  · simp [bracketKey, hpairs.bracketPaging]
  · simp [wordKey, hpairs.wordToCharacter]
  · obtain ⟨kind, opening⟩ := key
    cases kind <;> cases opening <;> simp [pagingKey, BracketKey.character]

/-- In the IME mode a bracket key goes to `commit_punctuation`, whether or not
something is being composed. -/
theorem imePunctuation_bracket {c : InputController σ} (hpairs : c.Pairs) (key : BracketKey)
    {event : FrontendKeyEvent} (hcharacter : event.character = key.character)
    (hlocal : c.localInputMode = .none) (now : Int) :
    c.imePunctuation S event now =
      c.commitPunctuation S key.character event.precedingCharacter now := by
  obtain ⟨hquote, hbracket, hword, hpaging⟩ := bracket_pages hpairs key
  unfold imePunctuation pageOrCommit
  rw [hcharacter, hbracket, hpaging, hword]
  simp [hlocal, hquote]

/-- **A bracket key** outside temporary modes, composing or not. -/
theorem handleKey_bracket {c : InputController σ} (hpairs : c.Pairs) {d : Document}
    {stack : List Char} {depth : Nat} {right : List (Char × Origin)}
    (h : Stacked c d stack depth right) (key : BracketKey) {event : FrontendKeyEvent}
    (hhost : event.hostShortcut = false) (hkey : event.key = .punctuation)
    (hcharacter : event.character = key.character) (hlocal : c.localInputMode = .none)
    (now : Int) (n : Nat) :
    Ensures (c.handleKey S event now) n fun r _ =>
      Pressed c d (finishText S c) (key.mark c.characterWidth c.hasComposition depth) stack
        (key.depthAfter depth) right r := by
  -- nothing is remembered, so what is recalled is the controller's own state
  have hrecalled : ∃ ch time, c.recalled event = { c with
      smartPunctuationHistoryActive := false
      smartPunctuationHistoryKey := ch
      smartPunctuationHistoryTime := time } := by
    unfold recalled
    split
    · exact ⟨_, _, rfl⟩
    · refine ⟨c.smartPunctuationHistoryKey, c.smartPunctuationHistoryTime, ?_⟩
      rw [← hpairs.forgotten]
  obtain ⟨ch, time, hrecalled⟩ := hrecalled
  have hpairs' : (c.recalled event).Pairs := by
    rw [hrecalled]
    exact ⟨hpairs.mode, hpairs.punctuation, hpairs.paired, hpairs.bracketPaging,
      hpairs.wordToCharacter, rfl⟩
  have hstacked : Stacked (c.recalled event) d stack depth right := by
    rw [hrecalled]
    exact ⟨h.pending, h.document, h.depth⟩
  have hlocal' : (c.recalled event).localInputMode = .none := by
    rw [hrecalled]
    exact hlocal
  rw [c.handleKey_punctuation event now hhost hkey, if_pos hpairs'.mode,
    imePunctuation_bracket hpairs' key hcharacter hlocal']
  refine (commitPunctuation_bracket hpairs' hstacked key _ now n).mono fun r _ hr => ?_
  rw [hrecalled] at hr
  exact ⟨hr.pairs, hr.width, hr.left, hr.stacked⟩

/-- **A key that types no mark**: its text goes behind the caret. -/
theorem handleKey_composes {c : InputController σ} (hpairs : c.Pairs) {d : Document}
    {stack : List Char} {depth : Nat} {right : List (Char × Origin)}
    (h : Stacked c d stack depth right) {event : FrontendKeyEvent}
    (hhost : event.hostShortcut = false) (hkey : event.key ∉ [FrontendKey.punctuation,
      .togglePunctuation, .toggleWidth, .toggleEnglish]) (now : Int) (n : Nat) :
    Ensures (c.handleKey S event now) n fun r _ => Wrote c d stack depth right r := by
  simp only [List.mem_cons, List.not_mem_nil, or_false, not_or] at hkey
  obtain ⟨hpunctuation, htoggle⟩ := hkey
  have hrecalled : c.recalled event = c.clearSmartPunctuationHistory :=
    if_pos (.inl hpunctuation)
  have hpairs' : c.clearSmartPunctuationHistory.Pairs := ⟨hpairs.mode, hpairs.punctuation,
    hpairs.paired, hpairs.bracketPaging, hpairs.wordToCharacter, rfl⟩
  have hstacked : Stacked c.clearSmartPunctuationHistory d stack depth right :=
    ⟨h.pending, h.document, h.depth⟩
  -- the toggles and the punctuation are excluded by the key
  rcases c.handleKey_routine (S := S) event now hhost with ⟨hk, -⟩ | ⟨hk, -⟩ | ⟨hk, -⟩ | hroutine
  · exact absurd hk htoggle.1
  · exact absurd hk htoggle.2.1
  · exact absurd hk htoggle.2.2
  · rw [hrecalled] at hroutine
    generalize c.handleKey S event now = op at hroutine
    cases hroutine with
    | call _ =>
      refine (finishCall_wrote hpairs' hstacked _ n).mono fun r _ hr => ?_
      have hwrote := hr.2
      exact ⟨hwrote.pairs, hwrote.width, hwrote.deleteBefore, hwrote.cursorLeft,
        hwrote.cursorRight, hwrote.stacked⟩
    | move handled k hs =>
      exact .pure ⟨⟨hpairs.mode, hpairs.punctuation, hpairs.paired, hpairs.bracketPaging,
        hpairs.wordToCharacter, rfl⟩, rfl, rfl, rfl, rfl, ⟨h.pending, h.document, h.depth⟩⟩
    | punctuation hk _ => exact absurd hk hpunctuation
    | widen ch _ hs =>
      refine .pure ⟨⟨hpairs.mode, hpairs.punctuation, hpairs.paired, hpairs.bracketPaging,
        hpairs.wordToCharacter, rfl⟩, rfl, ?_, ?_, ?_, ⟨h.pending, h.document, h.depth⟩⟩ <;>
      · unfold commitFullWidth
        dsimp only
        split_ifs <;> rfl

end InputController

/-! ## Typing -/

/-- A controller, the process's counter and the document. -/
structure Typing (σ : Type) where
  controller : InputController σ
  sequence : Nat
  document : Document

/-- One key: a bracket, with whether something was being composed and the text
ending the composition commits; or any other key the controller handles, with the
text it commits. -/
inductive Stroke where
  | bracket (key : BracketKey) (composing : Bool) (committed : Text)
  | compose (committed : Text)
  deriving DecidableEq, Repr

/-- The brackets among the strokes. -/
def brackets : List Stroke → List (BracketKey × Bool)
  | [] => []
  | .bracket key composing _ :: strokes => (key, composing) :: brackets strokes
  | .compose _ :: strokes => brackets strokes

/-- The text of a list of strokes whose brackets left the marks `marks`. -/
def weave : List Stroke → List Char → Text
  | .compose committed :: strokes, marks => committed ++ weave strokes marks
  | .bracket _ _ committed :: strokes, mark :: marks => committed ++ mark :: weave strokes marks
  | _, _ => []

variable (S) in
/-- One key, its result applied to the document. -/
inductive Typing.Step : Typing σ → Stroke → Typing σ → Prop
  | bracket {s : Typing σ} {key : BracketKey} {event : FrontendKeyEvent} {now : Int}
      {result : ControllerResult} {c : InputController σ} {n : Nat} :
      event.hostShortcut = false → event.key = .punctuation → event.character = key.character →
      s.controller.localInputMode = .none →
      s.controller.handleKey S event now s.sequence = .ok ((result, c), n) →
      Step s (.bracket key s.controller.hasComposition (finishText S s.controller))
        ⟨c, n, s.document.applyAll (applyResult result)⟩
  | compose {s : Typing σ} {event : FrontendKeyEvent} {now : Int}
      {result : ControllerResult} {c : InputController σ} {n : Nat} :
      event.hostShortcut = false → event.key ∉ [FrontendKey.punctuation,
        .togglePunctuation, .toggleWidth, .toggleEnglish] →
      s.controller.handleKey S event now s.sequence = .ok ((result, c), n) →
      result.handled = true →
      Step s (.compose (result.commit.getD []))
        ⟨c, n, s.document.applyAll (applyResult result)⟩

/-- The marks a list of bracket keys leaves, from a book-title depth. -/
def typedMarks (width : CharacterWidth) : Nat → List (BracketKey × Bool) → List Char
  | _, [] => []
  | depth, (key, composing) :: keys =>
    key.mark width composing depth :: typedMarks width (key.depthAfter depth) keys

/-- The book-title depth a list of bracket keys leaves. -/
def depthAfterAll : Nat → List (BracketKey × Bool) → Nat
  | depth, [] => depth
  | depth, (key, _) :: keys => depthAfterAll (key.depthAfter depth) keys

/-- **The run lemma**: the marks appear in the order of their keys, and what is
left to the right of the caret is what the abstract stack holds. -/
theorem Typing.run_marks {s t : Typing σ} {strokes : List Stroke}
    (hrun : Run (Typing.Step S) s strokes t) (hpairs : s.controller.Pairs) {stack : List Char}
    {depth : Nat} {right : List (Char × Origin)}
    (h : Stacked s.controller s.document stack depth right) :
    t.document.left = s.document.left ++
      weave strokes (typedMarks s.controller.characterWidth depth (brackets strokes)) ∧
    Stacked t.controller t.document
      ((typedMarks s.controller.characterWidth depth (brackets strokes)).foldl press stack)
      (depthAfterAll depth (brackets strokes)) right := by
  induction hrun generalizing stack depth with
  | nil s => exact ⟨(List.append_nil _).symm, h⟩
  | @cons s _ _ _ strokes hs _ ih =>
    cases hs with
    | @bracket key event now result c n hhost hkey hcharacter hlocal hcall =>
      -- a bracket: one mark is written, and pushed or stepped over
      have hpressed := (handleKey_bracket hpairs h key hhost hkey hcharacter hlocal now _).apply
        hcall
      obtain ⟨hleft, hstacked⟩ := ih hpressed.pairs hpressed.stacked
      rw [hpressed.width] at hleft hstacked
      refine ⟨?_, hstacked⟩
      rw [hleft, hpressed.left]
      simp [brackets, typedMarks, weave]
    | @compose event now result c n hhost hkey hcall hhandled =>
      -- any other key: its text stands before the caret, the stack is as it was
      have hwrote := (handleKey_composes hpairs h hhost hkey now _).apply hcall
      have hdocument : s.document.applyAll (applyResult result) =
          ⟨s.document.left ++ result.commit.getD [], s.document.right⟩ := by
        have hdelete : result.deleteBefore = 0 := hwrote.deleteBefore
        rw [Document.applyAll_still hwrote.cursorLeft hwrote.cursorRight]
        simp [Document.leftAfter, hdelete]
      have hstacked' : Stacked c (s.document.applyAll (applyResult result)) stack depth right := by
        rw [hdocument]
        exact ⟨hwrote.stacked.pending, hwrote.stacked.document, hwrote.stacked.depth⟩
      obtain ⟨hleft, hstacked⟩ := ih hwrote.pairs hstacked'
      rw [hwrote.width] at hleft hstacked
      refine ⟨?_, hstacked⟩
      rw [hleft, hdocument]
      simp [brackets, weave]

/-! ## Well-nested keys -/

/-- A well-nested sequence of bracket keys; each key carries whether something was
being composed when it was pressed. -/
inductive Nest where
  | nil
  | node (kind : BracketKind) (opened closed : Bool) (inner rest : Nest)
  deriving DecidableEq, Repr

namespace BracketKind

/-- The opening key of a kind. -/
def openKey (kind : BracketKind) : BracketKey := ⟨kind, true⟩

/-- The closing key of a kind. -/
def closeKey (kind : BracketKind) : BracketKey := ⟨kind, false⟩

/-- An opening and a closing mark of the kind, at a book-title depth: `《》` for the
outermost level and `〈〉` within, braces in either width. -/
def IsPair (kind : BracketKind) (depth : Nat) (opening closing : Char) : Prop :=
  match kind with
  | .parenthesis => opening = '（' ∧ closing = '）'
  | .bracket => opening = '【' ∧ closing = '】'
  | .brace => (opening = '{' ∧ closing = '}') ∨ (opening = '｛' ∧ closing = '｝')
  | .angle =>
    if depth = 0 then opening = '《' ∧ closing = '》' else opening = '〈' ∧ closing = '〉'

end BracketKind

namespace Nest

/-- The keys, in the order they are pressed. -/
def keys : Nest → List (BracketKey × Bool)
  | nil => []
  | node kind opened closed inner rest =>
    (kind.openKey, opened) :: inner.keys ++ (kind.closeKey, closed) :: rest.keys

/-- Every brace is opened and closed alike, both keys during a composition or both
outside one. -/
def Uniform : Nest → Prop
  | nil => True
  | node kind opened closed inner rest =>
    (kind = .brace → opened = closed) ∧ inner.Uniform ∧ rest.Uniform

/-- One opening and one closing mark for each opening key, properly nested. -/
inductive Marked : Nat → Nest → List Char → Prop
  | nil {depth : Nat} : Marked depth nil []
  | node {depth : Nat} {kind : BracketKind} {opened closed : Bool} {inner rest : Nest}
      {opening closing : Char} {marks marks' : List Char} :
      kind.IsPair depth opening closing →
      Marked (kind.openKey.depthAfter depth) inner marks → Marked depth rest marks' →
      Marked depth (node kind opened closed inner rest)
        (opening :: marks ++ closing :: marks')

/-- One mark for each key. -/
theorem Marked.length {depth : Nat} {nest : Nest} {marks : List Char}
    (h : Marked depth nest marks) : marks.length = nest.keys.length := by
  induction h with
  | nil => rfl
  | node _ _ _ ihinner ihrest => simp [keys, ihinner, ihrest]

end Nest

theorem depthAfterAll_append (depth : Nat) (keys keys' : List (BracketKey × Bool)) :
    depthAfterAll depth (keys ++ keys') = depthAfterAll (depthAfterAll depth keys) keys' := by
  induction keys generalizing depth with
  | nil => rfl
  | cons key keys ih => exact ih _

theorem typedMarks_append (width : CharacterWidth) (depth : Nat)
    (keys keys' : List (BracketKey × Bool)) :
    typedMarks width depth (keys ++ keys') =
      typedMarks width depth keys ++ typedMarks width (depthAfterAll depth keys) keys' := by
  induction keys generalizing depth with
  | nil => rfl
  | cons key keys ih =>
    show _ :: typedMarks width _ (keys ++ keys') = _
    rw [ih]
    rfl

theorem typedMarks_length (width : CharacterWidth) (depth : Nat)
    (keys : List (BracketKey × Bool)) : (typedMarks width depth keys).length = keys.length := by
  induction keys generalizing depth with
  | nil => rfl
  | cons key keys ih =>
    show (typedMarks width _ keys).length + 1 = keys.length + 1
    rw [ih]

/-- Closing undoes what opening did to the depth. -/
theorem depthAfter_closeKey (kind : BracketKind) (depth : Nat) :
    kind.closeKey.depthAfter (kind.openKey.depthAfter depth) = depth := by
  cases kind <;> rfl

/-- A well-nested sequence ends at the depth it began at. -/
theorem Nest.depthAfterAll_keys (nest : Nest) (depth : Nat) :
    depthAfterAll depth nest.keys = depth := by
  induction nest generalizing depth with
  | nil => rfl
  | node kind opened closed inner rest ihinner ihrest =>
    show depthAfterAll (kind.openKey.depthAfter depth)
      (inner.keys ++ (kind.closeKey, closed) :: rest.keys) = depth
    rw [depthAfterAll_append, ihinner]
    show depthAfterAll (kind.closeKey.depthAfter (kind.openKey.depthAfter depth)) rest.keys = depth
    rw [depthAfter_closeKey, ihrest]

/-- The marks of a nest are those of its parts, between the marks of the pair. -/
theorem Nest.typedMarks_node (width : CharacterWidth) (depth : Nat) (kind : BracketKind)
    (opened closed : Bool) (inner rest : Nest) :
    typedMarks width depth (Nest.node kind opened closed inner rest).keys =
      kind.openKey.mark width opened depth ::
        typedMarks width (kind.openKey.depthAfter depth) inner.keys ++
      kind.closeKey.mark width closed (kind.openKey.depthAfter depth) ::
        typedMarks width depth rest.keys := by
  show kind.openKey.mark width opened depth :: typedMarks width (kind.openKey.depthAfter depth)
      (inner.keys ++ (kind.closeKey, closed) :: rest.keys) = _
  rw [typedMarks_append, inner.depthAfterAll_keys]
  show _ :: (_ ++ kind.closeKey.mark width closed (kind.openKey.depthAfter depth) ::
    typedMarks width (kind.closeKey.depthAfter (kind.openKey.depthAfter depth)) rest.keys) = _
  rw [depthAfter_closeKey]
  rfl

/-! ## When the marks nest -/

/-- The two keys of a kind, both pressed at `width`: one composition flag each. -/
theorem isPair_marks (width : CharacterWidth) (kind : BracketKind) (opened closed : Bool)
    (depth : Nat) :
    kind.IsPair depth (kind.openKey.mark width opened depth)
      (kind.closeKey.mark width closed (kind.openKey.depthAfter depth)) ↔
    (kind = .brace → width = .half ∨ opened = closed) := by
  cases kind with
  | parenthesis => exact ⟨fun _ h => (by cases h), fun _ => ⟨rfl, rfl⟩⟩
  | bracket => exact ⟨fun _ h => (by cases h), fun _ => ⟨rfl, rfl⟩⟩
  | brace =>
    simp only [BracketKind.IsPair, BracketKind.openKey, BracketKind.closeKey, BracketKey.mark]
    cases width <;> cases opened <;> cases closed <;> decide
  | angle =>
    refine ⟨fun _ h => (by cases h), fun _ => ?_⟩
    rcases depth with - | depth <;>
      simp [BracketKind.IsPair, BracketKind.openKey, BracketKind.closeKey, BracketKey.mark,
        BracketKey.depthAfter]

/-- The marks of a node, taken apart. -/
theorem Nest.Marked.parts {depth : Nat} {kind : BracketKind} {opened closed : Bool}
    {inner rest : Nest} {all : List Char}
    (h : (Nest.node kind opened closed inner rest).Marked depth all) :
    ∃ opening closing marks marks', all = (opening :: marks) ++ (closing :: marks') ∧
      kind.IsPair depth opening closing ∧
      inner.Marked (kind.openKey.depthAfter depth) marks ∧ rest.Marked depth marks' := by
  cases h with
  | node hpair hinner hrest => exact ⟨_, _, _, _, rfl, hpair, hinner, hrest⟩

/-- The marks of a nest nest exactly when its braces are uniform, or the width
makes no difference. -/
theorem Nest.marked_iff (width : CharacterWidth) (nest : Nest) (depth : Nat) :
    nest.Marked depth (typedMarks width depth nest.keys) ↔ (width = .half ∨ nest.Uniform) := by
  induction nest generalizing depth with
  | nil => exact ⟨fun _ => .inr trivial, fun _ => .nil⟩
  | node kind opened closed inner rest ihinner ihrest =>
    rw [typedMarks_node]
    constructor
    · intro h
      obtain ⟨opening, closing, marks, marks', hmarks, hpair, hinner, hrest⟩ := h.parts
      -- both lists have one mark for each key of `inner`, so they part at the same place
      have hlength : (typedMarks width (kind.openKey.depthAfter depth) inner.keys).length =
          marks.length := by rw [typedMarks_length, hinner.length]
      obtain ⟨hfirst, hsecond⟩ := List.append_inj hmarks (by simp [hlength])
      obtain ⟨rfl, rfl⟩ := List.cons.inj hfirst
      obtain ⟨rfl, rfl⟩ := List.cons.inj hsecond
      rcases (ihinner _).mp hinner with hhalf | huinner
      · exact .inl hhalf
      rcases (ihrest _).mp hrest with hhalf | hurest
      · exact .inl hhalf
      by_cases hhalf : width = .half
      · exact .inl hhalf
      · exact .inr ⟨fun hbrace => ((isPair_marks ..).mp hpair hbrace).resolve_left hhalf,
          huinner, hurest⟩
    · intro h
      refine .node ((isPair_marks ..).mpr fun hbrace => ?_) ((ihinner _).mpr ?_) ((ihrest _).mpr ?_)
      · exact h.imp_right fun huniform => huniform.1 hbrace
      · exact h.imp_right fun huniform => huniform.2.1
      · exact h.imp_right fun huniform => huniform.2.2

/-- A pair of marks leaves the stack as it was: the closing mark meets the one the
opening mark added, or neither of them touches it. -/
theorem press_isPair {kind : BracketKind} {depth : Nat} {opening closing : Char}
    (h : kind.IsPair depth opening closing) {stack : List Char}
    (hstack : ∀ mark ∈ stack, mark ∈ closingMarks) :
    (∀ mark ∈ press stack opening, mark ∈ closingMarks) ∧
      press (press stack opening) closing = stack := by
  -- a pair that is paired: pushed, then stepped over
  have hpaired : ∀ o c, pairedPunctuationClosing [o] = [c] → pairedPunctuationClosing [c] = [] →
      c ∈ closingMarks → (∀ mark ∈ press stack o, mark ∈ closingMarks) ∧
      press (press stack o) c = stack := by
    intro o c ho hc hmem
    have hpush : press stack o = c :: stack := by rw [press, ho]
    rw [hpush]
    refine ⟨fun mark hmark => ?_, by rw [press, hc]; simp⟩
    rcases List.mem_cons.mp hmark with rfl | hold
    · exact hmem
    · exact hstack mark hold
  -- a mark that is not leaves the stack alone
  have hskip : ∀ o, pairedPunctuationClosing [o] = [] → o ∉ closingMarks →
      press stack o = stack := by
    intro o ho hnot
    rw [press, ho]
    refine if_neg fun hhead => hnot (hstack o ?_)
    exact List.mem_of_mem_head? hhead
  cases kind with
  | parenthesis =>
    obtain ⟨rfl, rfl⟩ := h
    exact hpaired _ _ (by decide) (by decide) (by decide)
  | bracket =>
    obtain ⟨rfl, rfl⟩ := h
    exact hpaired _ _ (by decide) (by decide) (by decide)
  | brace =>
    rcases h with ⟨rfl, rfl⟩ | ⟨rfl, rfl⟩
    · exact hpaired _ _ (by decide) (by decide) (by decide)
    · -- wide braces are in no table
      rw [hskip '｛' (by decide) (by decide), hskip '｝' (by decide) (by decide)]
      exact ⟨hstack, rfl⟩
  | angle =>
    simp only [BracketKind.IsPair] at h
    split at h
    · obtain ⟨rfl, rfl⟩ := h
      exact hpaired _ _ (by decide) (by decide) (by decide)
    · obtain ⟨rfl, rfl⟩ := h
      exact hpaired _ _ (by decide) (by decide) (by decide)

/-- Marks that nest leave the stack as it was. -/
theorem Nest.Marked.press_all {depth : Nat} {nest : Nest} {marks : List Char}
    (h : nest.Marked depth marks) {stack : List Char}
    (hstack : ∀ mark ∈ stack, mark ∈ closingMarks) : marks.foldl press stack = stack := by
  induction h generalizing stack with
  | nil => rfl
  | node hpair _ _ ihinner ihrest =>
    obtain ⟨hpushed, hpopped⟩ := press_isPair hpair hstack
    rw [List.foldl_append, List.foldl_cons, List.foldl_cons, ihinner hpushed, hpopped,
      ihrest hstack]

/-- The marks can be read off the text. -/
theorem weave_injective {strokes : List Stroke} {marks marks' : List Char}
    (hmarks : marks.length = (brackets strokes).length)
    (hmarks' : marks'.length = (brackets strokes).length)
    (h : weave strokes marks = weave strokes marks') : marks = marks' := by
  induction strokes generalizing marks marks' with
  | nil =>
    rw [List.length_eq_zero_iff.mp hmarks, List.length_eq_zero_iff.mp hmarks']
  | cons stroke strokes ih =>
    cases stroke with
    | compose committed => exact ih hmarks hmarks' (List.append_cancel_left h)
    | bracket key composing committed =>
      obtain ⟨mark, marks, rfl⟩ := List.exists_cons_of_length_eq_add_one hmarks
      obtain ⟨mark', marks', rfl⟩ := List.exists_cons_of_length_eq_add_one hmarks'
      obtain ⟨rfl, hrest⟩ := List.cons.inj (List.append_cancel_left h)
      rw [ih (Nat.succ.inj hmarks) (Nat.succ.inj hmarks') hrest]

/-- **Well-nested keys leave well-nested marks** exactly when no brace is opened
during a composition and closed outside one, or the other way round, in full
width. From a context with nothing pending, with the eight keys pairing, any
well-nested sequence of them, with compositions opened, committed or ended by the
keys, leaves behind the caret the committed text with one opening and one closing
mark for each opening key, properly nested, and nothing more in front of it. -/
theorem nesting_iff {s t : Typing σ} {strokes : List Stroke} {nest : Nest}
    (hpairs : s.controller.Pairs) (hpending : s.controller.pendingPairedClosings = [])
    (hdepth : s.controller.punctuationFormatter.bookTitleNesting = 0)
    (hrun : Run (Typing.Step S) s strokes t) (hkeys : brackets strokes = nest.keys) :
    (∃ marks, nest.Marked 0 marks ∧
      t.document = ⟨s.document.left ++ weave strokes marks, s.document.right⟩) ↔
    (s.controller.characterWidth = .half ∨ nest.Uniform) := by
  have hfresh : Stacked s.controller s.document [] 0 s.document.right :=
    ⟨by rw [hpending]; rfl, rfl, hdepth⟩
  obtain ⟨hleft, hstacked⟩ := Typing.run_marks hrun hpairs hfresh
  rw [hkeys] at hleft hstacked
  rw [← nest.marked_iff s.controller.characterWidth 0]
  constructor
  · rintro ⟨marks, hmarked, hdocument⟩
    rw [hdocument] at hleft
    have hsame : marks = typedMarks s.controller.characterWidth 0 nest.keys :=
      weave_injective (by rw [hmarked.length, hkeys]) (by rw [typedMarks_length, hkeys])
        (List.append_cancel_left hleft)
    rwa [← hsame]
  · intro hmarked
    refine ⟨_, hmarked, ?_⟩
    have hright := hstacked.document
    rw [hmarked.press_all (by simp)] at hright
    generalize t.document = d at hleft hright
    obtain ⟨left, right⟩ := d
    obtain rfl : left = _ := hleft
    obtain rfl : right = s.document.right := hright
    rfl

/-- A fresh controller in full width over an empty document. -/
def wideTyping : Option (Typing SessionSnapshot) :=
  match InputController.create plainSession .quanpin
      { plainOptions with characterWidth := .full } plainPaths 0 with
  | .ok (some c, n) => some ⟨c, n, ⟨[], []⟩⟩
  | _ => none

/-- `{`, a letter, `(` ending the composition, `)` and `}`: the braces are both
pressed with nothing being composed. -/
theorem nesting_iff_braces :
    ∃ (s t : Typing SessionSnapshot) (strokes : List Stroke), wideTyping = some s ∧
      Run (Typing.Step plainSession) s strokes t ∧
      strokes = [.bracket ⟨.brace, true⟩ false [], .compose [],
        .bracket ⟨.parenthesis, true⟩ true ['n'], .bracket ⟨.parenthesis, false⟩ false [],
        .bracket ⟨.brace, false⟩ false []] ∧
      ∃ marks, (Nest.node .brace false false (.node .parenthesis true false .nil .nil)
          .nil).Marked 0 marks ∧
        t.document = ⟨s.document.left ++ weave strokes marks, s.document.right⟩ := by
  obtain ⟨s, t, hs, hpairs, hpending, hdepth, hrun⟩ :
      ∃ (s t : Typing SessionSnapshot), wideTyping = some s ∧ s.controller.Pairs ∧
        s.controller.pendingPairedClosings = [] ∧
        s.controller.punctuationFormatter.bookTitleNesting = 0 ∧
        Run (Typing.Step plainSession) s [.bracket ⟨.brace, true⟩ false [], .compose [],
          .bracket ⟨.parenthesis, true⟩ true ['n'], .bracket ⟨.parenthesis, false⟩ false [],
          .bracket ⟨.brace, false⟩ false []] t :=
    ⟨_, _, rfl, ⟨rfl, rfl, rfl, rfl, rfl, rfl⟩, rfl, rfl,
      .cons (@Typing.Step.bracket _ _ _ ⟨.brace, true⟩ { key := .punctuation, character := '{' }
        0 _ _ _ rfl rfl rfl rfl rfl)
      (.cons (@Typing.Step.compose _ _ _ { character := 'n' } 0 { handled := true } _ _
        rfl (by decide) rfl rfl)
      (.cons (@Typing.Step.bracket _ _ _ ⟨.parenthesis, true⟩
        { key := .punctuation, character := '(' } 0 _ _ _ rfl rfl rfl rfl rfl)
      (.cons (@Typing.Step.bracket _ _ _ ⟨.parenthesis, false⟩
        { key := .punctuation, character := ')' } 0 _ _ _ rfl rfl rfl rfl rfl)
      (.single (@Typing.Step.bracket _ _ _ ⟨.brace, false⟩
        { key := .punctuation, character := '}' } 0 _ _ _ rfl rfl rfl rfl rfl)))))⟩
  exact ⟨s, t, _, hs, hrun, rfl,
    (nesting_iff hpairs hpending hdepth hrun rfl).mpr
      (.inr ⟨fun _ => rfl, ⟨fun h => (by cases h), trivial, trivial⟩, trivial⟩)⟩

/-- In full width `{` ends the composition of a letter and opens `{}`; `}` with
nothing being composed is `｝`, which is not the mark that waits. The document is
left with both closing marks, one of them to the right of the caret. -/
theorem nesting_wide_braces :
    ∃ (s t : Typing SessionSnapshot), wideTyping = some s ∧ s.controller.Pairs ∧
      Run (Typing.Step plainSession) s [.compose [], .bracket ⟨.brace, true⟩ true ['n'],
        .bracket ⟨.brace, false⟩ false []] t ∧
      t.document = ⟨['n', '{', '｝'], [('}', .inserted)]⟩ ∧
      ¬ ∃ marks, (Nest.node .brace true false .nil .nil).Marked 0 marks ∧
        t.document = ⟨s.document.left ++ weave [.compose [], .bracket ⟨.brace, true⟩ true ['n'],
          .bracket ⟨.brace, false⟩ false []] marks, s.document.right⟩ := by
  obtain ⟨s, t, hs, hpairs, hrun, hright, hdocument⟩ :
      ∃ (s t : Typing SessionSnapshot), wideTyping = some s ∧ s.controller.Pairs ∧
        Run (Typing.Step plainSession) s [.compose [], .bracket ⟨.brace, true⟩ true ['n'],
          .bracket ⟨.brace, false⟩ false []] t ∧ s.document.right = [] ∧
        t.document = ⟨['n', '{', '｝'], [('}', .inserted)]⟩ :=
    ⟨_, _, rfl, ⟨rfl, rfl, rfl, rfl, rfl, rfl⟩,
      .cons (@Typing.Step.compose _ _ _ { character := 'n' } 0 { handled := true } _ _
        rfl (by decide) rfl rfl)
      (.cons (@Typing.Step.bracket _ _ _ ⟨.brace, true⟩
        { key := .punctuation, character := '{' } 0 _ _ _ rfl rfl rfl rfl rfl)
      (.single (@Typing.Step.bracket _ _ _ ⟨.brace, false⟩
        { key := .punctuation, character := '}' } 0 _ _ _ rfl rfl rfl rfl rfl))), rfl, rfl⟩
  refine ⟨s, t, hs, hpairs, hrun, hdocument, ?_⟩
  rintro ⟨marks, -, hmarks⟩
  rw [hdocument, hright] at hmarks
  cases congrArg Document.right hmarks

end MsimeLinux
