import MsimeLinux.Input.Session

/-!
# The input controller (`InputController.cpp`)

`InputController` is the state machine between a key and what the application
is asked to do. This module is its translation: the state, the constructor,
every branch of `handle_key`, the setters, and the online-candidate calls.

Three things the source reads from outside are arguments here: the session
(`SessionApi`), the steady clock (`now`, in nanoseconds, read at most once per
event), and the process-wide generation counter. The counter is the state of
the `Draw` monad, since drawing from it is the only thing in this file that
throws.
-/

namespace MsimeLinux

/-! ## The generation counter -/

/-- "Online request generation exhausted" (InputController.cpp:24). -/
inductive GenerationExhausted where
  | exhausted
  deriving DecidableEq, Repr

/-- `std::numeric_limits<std::uint64_t>::max()`. -/
def maxGeneration : Nat := 18446744073709551615

/-- Code that may draw request generations: the state is the counter
`sequence`, the exception is its exhaustion. -/
abbrev Draw := StateT Nat (Except GenerationExhausted)

/-- `next_online_generation` (InputController.cpp:17), called from one thread:
the compare-and-exchange succeeds at once. `GenerationCounter` has the loop
itself, under contention. -/
def nextOnlineGeneration : Draw Nat := fun sequence =>
  if sequence = maxGeneration then .error .exhausted
  else .ok (sequence + 1, sequence + 1)

/-! ## The data model -/

/-- `InputMode` (InputController.h:15). -/
inductive InputMode where
  | ime
  | direct
  deriving DecidableEq, Repr

/-- `PreeditStyle` (InputController.h:21). -/
inductive PreeditStyle where
  | raw
  | pinyin
  | hidden
  deriving DecidableEq, Repr

/-- `FrontendKey` (InputController.h:28). -/
inductive FrontendKey where
  | character
  | punctuation
  | backspace
  | enter
  | escape
  | space
  | digit
  | up
  | down
  | pageUp
  | pageDown
  | togglePunctuation
  | toggleWidth
  | toggleEnglish
  deriving DecidableEq, Repr

/-- `FrontendKeyEvent` (InputController.h:46). `'\x00'` is the source's
`char character = 0`. -/
structure FrontendKeyEvent where
  key : FrontendKey := .character
  character : Char := '\x00'
  digit : Nat := 0
  hostShortcut : Bool := false
  precedingCharacter : Option Char := none
  shiftOnly : Bool := false
  deriving DecidableEq, Repr

/-- `ControllerResult` (InputController.h:65). -/
structure ControllerResult where
  handled : Bool := false
  commit : Option Text := none
  diagnostic : Option Text := none
  deleteBefore : Nat := 0
  cursorLeft : Nat := 0
  cursorRight : Nat := 0
  deriving DecidableEq, Repr

/-- The converting constructor `ControllerResult(KeyResult)` (InputController.cpp:74). -/
def ControllerResult.ofKeyResult (result : KeyResult) : ControllerResult where
  handled := result.handled
  commit := result.commit
  diagnostic := result.diagnostic

/-- `InputOptions` (InputController.h:82), without the clock. -/
structure InputOptions where
  pageSize : Nat := 9
  punctuationMode : PunctuationMode := .chinese
  characterWidth : CharacterWidth := .half
  commaPeriodPaging : Bool := false
  wordToCharacter : Bool := false
  bracketPaging : Bool := false
  smartPunctuation : Bool := true
  smartPunctuationRepeatToChinese : Bool := true
  pairedPunctuation : Bool := true
  preeditStyle : PreeditStyle := .raw
  quanpinHelpcodeEnabled : Bool := true
  quanpinHelpcodeSchema : String := "lantian"
  shuangpinHelpcodeEnabled : Bool := true
  shuangpinHelpcodeSchema : String := "lantian"
  frequencyAdjustmentMode : FrequencyAdjustmentMode := .disabled
  frequencyTriggerCount : Int := 1
  frequencyLinearStep : Int := 1
  localModes : LocalModeOptions
  englishInput : EnglishInputOptions
  mixedExpressive : MixedExpressiveOptions
  deriving DecidableEq, Repr

/-- The members of `InputController` (InputController.h:188). -/
structure InputController (σ : Type) where
  session : σ
  snapshot : SessionSnapshot
  localModeOptions : LocalModeOptions
  englishInputOptions : EnglishInputOptions
  mixedExpressiveOptions : MixedExpressiveOptions
  mode : InputMode := .ime
  pageSize : Nat
  /-- The constructor refuses a page size of zero (InputController.cpp:105). -/
  pageSize_pos : 0 < pageSize
  highlightedCandidate : Nat := 0
  punctuationMode : PunctuationMode
  punctuationLock : PunctuationLock := .follow
  characterWidth : CharacterWidth
  commaPeriodPaging : Bool
  wordToCharacter : Bool
  bracketPaging : Bool
  smartPunctuation : Bool
  smartPunctuationRepeatToChinese : Bool
  pairedPunctuation : Bool
  preeditStyle : PreeditStyle
  quanpinHelpcodeEnabled : Bool
  quanpinHelpcodeSchema : String
  shuangpinHelpcodeEnabled : Bool
  shuangpinHelpcodeSchema : String
  frequencyAdjustmentMode : FrequencyAdjustmentMode
  frequencyTriggerCount : Int
  frequencyLinearStep : Int
  smartPunctuationHistoryActive : Bool := false
  smartPunctuationHistoryKey : Char := '\x00'
  smartPunctuationHistoryTime : Int := 0
  pendingPairedClosings : List Text := []
  punctuationFormatter : PunctuationFormatter := {}
  onlineGeneration : Nat

/-- `OnlineRequest` (InputController.h:108). -/
structure OnlineRequest where
  generation : Nat
  query : OnlineQuery
  deriving DecidableEq, Repr

namespace InputController

variable {σ : Type} (S : SessionApi σ)

/-! ## Construction -/

/-- `session_options` (InputController.cpp:37). -/
def sessionOptions (scheme : SchemeType) (options : InputOptions) (paths : RuntimePaths) :
    SessionOptions where
  paths := paths
  scheme := scheme
  autocorrectTypes := [.transposition, .neighbor]
  helpcode :=
    if scheme = .shuangpin then options.shuangpinHelpcodeEnabled
    else options.quanpinHelpcodeEnabled
  helpcodeSchema :=
    if scheme = .shuangpin then options.shuangpinHelpcodeSchema
    else options.quanpinHelpcodeSchema
  frequency := (options.frequencyAdjustmentMode, options.frequencyTriggerCount,
    options.frequencyLinearStep)
  localModes := options.localModes
  english := options.englishInput
  expressive := options.mixedExpressive

/-- `InputController::InputController` (InputController.cpp:84). `none` is a
constructor that threw: the session did not open, or an option was outside the
supported range. The generation is drawn before the options are checked. -/
def create (schemeType : SchemeType) (options : InputOptions) (paths : RuntimePaths) :
    Draw (Option (InputController σ)) := do
  match S.create (sessionOptions schemeType options paths) with
  | none => return none
  | some session =>
    let generation ← nextOnlineGeneration
    if hsize : 0 < options.pageSize then
      if !S.isSupportedHelpcodeSchema options.quanpinHelpcodeSchema ||
          !S.isSupportedHelpcodeSchema options.shuangpinHelpcodeSchema then return none
      return some {
        session := session
        snapshot := S.snapshot session
        localModeOptions := options.localModes
        englishInputOptions := options.englishInput
        mixedExpressiveOptions := options.mixedExpressive
        pageSize := options.pageSize
        pageSize_pos := hsize
        punctuationMode := options.punctuationMode
        characterWidth := options.characterWidth
        commaPeriodPaging := options.commaPeriodPaging
        wordToCharacter := options.wordToCharacter
        bracketPaging := options.bracketPaging
        smartPunctuation := options.smartPunctuation
        smartPunctuationRepeatToChinese := options.smartPunctuationRepeatToChinese
        pairedPunctuation := options.pairedPunctuation
        preeditStyle := options.preeditStyle
        quanpinHelpcodeEnabled := options.quanpinHelpcodeEnabled
        quanpinHelpcodeSchema := options.quanpinHelpcodeSchema
        shuangpinHelpcodeEnabled := options.shuangpinHelpcodeEnabled
        shuangpinHelpcodeSchema := options.shuangpinHelpcodeSchema
        frequencyAdjustmentMode := options.frequencyAdjustmentMode
        frequencyTriggerCount := options.frequencyTriggerCount
        frequencyLinearStep := options.frequencyLinearStep
        onlineGeneration := generation }
    else return none

/-! ## Accessors -/

/-- `has_composition` (InputController.cpp:656). -/
def hasComposition (c : InputController σ) : Bool := c.snapshot.preedit ≠ []

/-- `candidates` (InputController.cpp:682). -/
def candidates (c : InputController σ) : List WordItem := c.snapshot.candidates

/-- `local_input_mode` (InputController.cpp:602). -/
def localInputMode (c : InputController σ) : LocalInputMode := c.snapshot.localMode

/-- `dedicated_english_mode` (InputController.cpp:646). -/
def dedicatedEnglishMode (c : InputController σ) : Bool := c.snapshot.dedicatedEnglish

/-- `scheme` (InputController.cpp:651). -/
def scheme (c : InputController σ) : SchemeType := c.snapshot.scheme

/-- `page_start` (InputController.cpp:697). -/
def pageStart (c : InputController σ) : Nat :=
  c.highlightedCandidate / c.pageSize * c.pageSize

/-- `preedit` (InputController.cpp:661). -/
def preedit (c : InputController σ) : Text :=
  match c.preeditStyle, c.scheme with
  | .hidden, _ => []
  | .pinyin, .quanpin => c.snapshot.rawSegmentation
  | .pinyin, .shuangpin => c.snapshot.normalizedSegmentation
  | _, _ => c.snapshot.preedit

/-! ## Private helpers -/

/-- `reset_highlight` (InputController.cpp:897). -/
def resetHighlight (c : InputController σ) : InputController σ :=
  { c with highlightedCandidate := 0 }

/-- `clear_smart_punctuation_history` (InputController.cpp:902). -/
def clearSmartPunctuationHistory (c : InputController σ) : InputController σ :=
  { c with
    smartPunctuationHistoryActive := false
    smartPunctuationHistoryKey := '\x00'
    smartPunctuationHistoryTime := 0 }

/-- `online_generation_ = next_online_generation()`, the renewal every mutating
path ends in. -/
def renewGeneration (c : InputController σ) : Draw (InputController σ) := do
  return { c with onlineGeneration := ← nextOnlineGeneration }

/-- The controller once a call has left its session in state `session`. -/
def withSession (c : InputController σ) (session : σ) : InputController σ :=
  { c with session := session }

/-- `snapshot_ = session_.snapshot()`. -/
def refreshSnapshot (c : InputController σ) : InputController σ :=
  { c with snapshot := S.snapshot c.session }

/-- `finish_composition_mutation` (InputController.cpp:886). -/
def finishCompositionMutation (c : InputController σ) (result : ControllerResult) :
    Draw (ControllerResult × InputController σ) := do
  let c := c.refreshSnapshot S
  if result.handled then
    return (result, (← c.renewGeneration).resetHighlight)
  return (result, c)

/-- A session call whose outcome goes straight to `finish_composition_mutation`. -/
def finishCall (c : InputController σ) (call : KeyResult × σ) :
    Draw (ControllerResult × InputController σ) :=
  (c.withSession call.2).finishCompositionMutation S (.ofKeyResult call.1)

/-- `finish_composition` (InputController.cpp:716). -/
def finishComposition (c : InputController σ) :
    Draw (ControllerResult × InputController σ) :=
  c.finishCall S (S.finish c.session c.highlightedCandidate)

/-- `select_candidate` (InputController.cpp:318). -/
def selectCandidate (c : InputController σ) (absoluteIndex : Nat) :
    Draw (ControllerResult × InputController σ) :=
  c.finishCall S (S.select c.session absoluteIndex)

/-- `select_page_candidate` (InputController.cpp:323). -/
def selectPageCandidate (c : InputController σ) (pageIndex : Nat) :
    Draw (ControllerResult × InputController σ) :=
  if !c.hasComposition || c.pageSize ≤ pageIndex then return ({}, c)
  else c.selectCandidate S (c.pageStart + pageIndex)

/-- `commit_highlighted` (InputController.cpp:702). -/
def commitHighlighted (c : InputController σ) :
    Draw (ControllerResult × InputController σ) :=
  if !c.hasComposition then return ({}, c)
  else if c.candidates.isEmpty then c.finishCall S (S.command c.session .commitCandidate)
  else c.selectCandidate S c.highlightedCandidate

/-- `move_cursor` (InputController.cpp:850). -/
def moveCursor (c : InputController σ) (forward : Bool) :
    ControllerResult × InputController σ :=
  if !c.hasComposition || c.candidates.isEmpty then ({}, c)
  else if forward then
    ({ handled := true },
      { c with
        highlightedCandidate :=
          min (c.highlightedCandidate + 1) (c.candidates.length - 1) })
  else
    ({ handled := true }, { c with highlightedCandidate := c.highlightedCandidate - 1 })

/-- `move_page` (InputController.cpp:868). -/
def movePage (c : InputController σ) (forward : Bool) :
    ControllerResult × InputController σ :=
  if !c.hasComposition || c.candidates.isEmpty then ({}, c)
  else if forward then
    ({ handled := true },
      { c with
        highlightedCandidate :=
          min (c.highlightedCandidate + c.pageSize) (c.candidates.length - 1) })
  else
    ({ handled := true },
      { c with
        highlightedCandidate :=
          if c.pageSize < c.highlightedCandidate then c.highlightedCandidate - c.pageSize
          else 0 })

/-- `commit_full_width` (InputController.cpp:836). -/
def commitFullWidth (c : InputController σ) (ascii : Char) : ControllerResult :=
  if c.characterWidth ≠ .full then {}
  else
    let converted := toFullWidth ascii
    if converted = [] then {}
    else { handled := true, commit := some converted }

/-- `select_active_helpcode_schema` (InputController.cpp:909). -/
def selectActiveHelpcodeSchema (c : InputController σ) : InputController σ :=
  let c :=
    if c.scheme = .quanpin then
      c.withSession (S.setHelpcodeSchema
        (S.setHelpcodeEnabled c.session c.quanpinHelpcodeEnabled) c.quanpinHelpcodeSchema)
    else if c.scheme = .shuangpin then
      c.withSession (S.setHelpcodeSchema
        (S.setHelpcodeEnabled c.session c.shuangpinHelpcodeEnabled)
        c.shuangpinHelpcodeSchema)
    else c
  c.refreshSnapshot S

/-! ## Punctuation -/

/-- The character in front of the caret once `commit` has been typed: the last
one of a non-empty commit when it is ASCII, unknown when it is not
(InputController.cpp:726). -/
def precedingAfterCommit (commit : Option Text) (precedingCharacter : Option Char) :
    Option Char :=
  match commit with
  | none => precedingCharacter
  | some text =>
    match text.getLast? with
    | none => precedingCharacter
    | some last => if last.toNat ≤ 0x7f then some last else none

/-- `can_replace_recent_ascii` (InputController.cpp:733): the same mark again,
within two seconds and directly behind the one it would replace. -/
def canReplaceRecentAscii (c : InputController σ) (hadComposition : Bool) (ascii : Char)
    (precedingCharacter : Option Char) (now : Int) : Bool :=
  c.punctuationMode = .chinese && c.smartPunctuation && c.smartPunctuationRepeatToChinese &&
    !hadComposition && c.smartPunctuationHistoryActive &&
    c.smartPunctuationHistoryKey = ascii && precedingCharacter = some ascii &&
    c.smartPunctuationHistoryTime ≤ now &&
    now - c.smartPunctuationHistoryTime ≤ 2000000000

/-- The mark a key stands for, before pairing (InputController.cpp:748). -/
def punctuationFor (c : InputController σ) (hadComposition : Bool) (ascii : Char)
    (precedingCharacter : Option Char) : Text × PunctuationFormatter :=
  if c.punctuationMode = .chinese && isPunctuation ascii then
    if c.smartPunctuation && shouldKeepAsciiPunctuation ascii precedingCharacter then
      ([ascii], c.punctuationFormatter)
    else
      let (punctuation, formatter) := c.punctuationFormatter.chinese ascii
      if !hadComposition && c.characterWidth = .full && punctuation = [ascii] then
        (toFullWidth ascii, formatter)
      else (punctuation, formatter)
  else if !hadComposition && c.characterWidth = .full then
    (toFullWidth ascii, c.punctuationFormatter)
  else if hadComposition then ([ascii], c.punctuationFormatter)
  else ([], c.punctuationFormatter)

/-- Marks are paired: the option is on and punctuation is Chinese. -/
def pairing (c : InputController σ) : Bool :=
  c.pairedPunctuation && c.punctuationMode = .chinese

/-- With pairing on a closing quote is never typed: every quote key opens a pair
(InputController.cpp:788). -/
def pairedMark (c : InputController σ) (ascii : Char) (punctuation : Text) : Text :=
  if c.pairing && ascii = '"' && punctuation = ['”'] then ['“']
  else if c.pairing && ascii = '\'' && punctuation = ['’'] then ['‘']
  else punctuation

/-- The end of `commit_punctuation` (InputController.cpp:781): pair the mark, or
step over the closing mark that is already there, and remember an ASCII one that
smart punctuation kept. -/
def typePunctuation (c : InputController σ) (result : ControllerResult) (ascii : Char)
    (punctuation : Text) (precedingCharacter : Option Char) (now : Int) :
    ControllerResult × InputController σ :=
  let committedSmartAscii := c.punctuationMode = .chinese && c.smartPunctuation &&
    punctuation = [ascii] && shouldKeepAsciiPunctuation ascii precedingCharacter
  let punctuation := c.pairedMark ascii punctuation
  let closing := pairedPunctuationClosing punctuation
  if c.pairing && closing = [] && c.pendingPairedClosings.getLast? = some punctuation then
    -- type-over: the mark is already there, so the caret steps across it
    ({ result with handled := true, cursorRight := 1 },
      { c.clearSmartPunctuationHistory with
        pendingPairedClosings := c.pendingPairedClosings.dropLast })
  else
    let paired := c.pairing && closing ≠ []
    let result := { result with
      cursorLeft := if paired then 1 else result.cursorLeft
      commit := some (result.commit.getD [] ++ punctuation ++ if paired then closing else [])
      handled := true }
    let c := { c with
      pendingPairedClosings :=
        c.pendingPairedClosings ++ if paired then [closing] else [] }
    if committedSmartAscii then
      (result, { c with
        smartPunctuationHistoryActive := true
        smartPunctuationHistoryKey := ascii
        smartPunctuationHistoryTime := now })
    else (result, c.clearSmartPunctuationHistory)

/-- `commit_punctuation` (InputController.cpp:721). -/
def commitPunctuation (c : InputController σ) (ascii : Char)
    (precedingCharacter : Option Char) (now : Int) :
    Draw (ControllerResult × InputController σ) := do
  let hadComposition := c.hasComposition
  let (result, c) ← c.finishComposition S
  let precedingCharacter := precedingAfterCommit result.commit precedingCharacter
  let replace := c.canReplaceRecentAscii hadComposition ascii precedingCharacter now
  let (repeated, formatter) := c.punctuationFormatter.chinese ascii
  -- the first `return` of the source: the recent ASCII mark becomes the Chinese one
  if replace && repeated ≠ [] then
    return ({ handled := true, commit := some repeated, deleteBefore := 1 },
      { c.clearSmartPunctuationHistory with punctuationFormatter := formatter })
  let c := if replace then
    { c.clearSmartPunctuationHistory with punctuationFormatter := formatter } else c
  let (punctuation, formatter) := c.punctuationFor hadComposition ascii precedingCharacter
  let c := { c with punctuationFormatter := formatter }
  if punctuation = [] then
    return (result, c.clearSmartPunctuationHistory)
  return c.typePunctuation result ascii punctuation precedingCharacter now

/-! ## Setters -/

/-- `set_punctuation_mode` (InputController.cpp:387). -/
def setPunctuationMode (c : InputController σ) (mode : PunctuationMode) :
    Draw (ControllerResult × InputController σ) := do
  let c := c.clearSmartPunctuationHistory
  if c.punctuationMode = mode then return ({}, c)
  return ({ handled := true }, ← { c with punctuationMode := mode }.renewGeneration)

/-- The punctuation a lock asks for in the current mode (InputController.cpp:364). -/
def lockedPunctuation (c : InputController σ) : PunctuationMode :=
  match c.punctuationLock with
  | .chinese => .chinese
  | .english => .english
  | .follow => if c.mode = .ime then .chinese else .english

/-- `apply_punctuation_lock` (InputController.cpp:366). -/
def applyPunctuationLock (c : InputController σ) : Draw (InputController σ) := do
  return (← c.setPunctuationMode c.lockedPunctuation).2

/-- `set_punctuation_lock` (InputController.cpp:357). -/
def setPunctuationLock (c : InputController σ) (lock : PunctuationLock) :
    Draw (InputController σ) :=
  applyPunctuationLock { c with punctuationLock := lock }

/-- Entering the direct mode finishes the composition (InputController.cpp:341). -/
def finishForMode (c : InputController σ) (mode : InputMode) :
    Draw (ControllerResult × InputController σ) :=
  if mode = .direct then c.finishComposition S else return ({}, c)

/-- `set_mode` (InputController.cpp:332). -/
def setMode (c : InputController σ) (mode : InputMode) :
    Draw (ControllerResult × InputController σ) := do
  let c := c.clearSmartPunctuationHistory
  if c.mode = mode then return ({}, c)
  let (result, c) ← c.finishForMode S mode
  let c := c.withSession (S.setDedicatedEnglish c.session false)
  let c := { c.refreshSnapshot S with mode := mode }
  let c ← c.applyPunctuationLock
  return ({ result with handled := true }, ← c.resetHighlight.renewGeneration)

/-- `toggle_mode` (InputController.cpp:382). -/
def toggleMode (c : InputController σ) : Draw (ControllerResult × InputController σ) :=
  c.setMode S (if c.mode = .ime then .direct else .ime)

/-- `toggle_punctuation_mode` (InputController.cpp:399). -/
def togglePunctuationMode (c : InputController σ) :
    Draw (ControllerResult × InputController σ) :=
  c.setPunctuationMode (if c.punctuationMode = .chinese then .english else .chinese)

/-- `set_character_width` (InputController.cpp:405). -/
def setCharacterWidth (c : InputController σ) (width : CharacterWidth) :
    Draw (ControllerResult × InputController σ) := do
  let c := c.clearSmartPunctuationHistory
  if c.characterWidth = width then return ({}, c)
  return ({ handled := true }, ← { c with characterWidth := width }.renewGeneration)

/-- `toggle_character_width` (InputController.cpp:417). -/
def toggleCharacterWidth (c : InputController σ) :
    Draw (ControllerResult × InputController σ) :=
  c.setCharacterWidth (if c.characterWidth = .half then .full else .half)

/-- `toggle_dedicated_english_mode` (InputController.cpp:422). -/
def toggleDedicatedEnglishMode (c : InputController σ) :
    Draw (ControllerResult × InputController σ) := do
  let c := c.clearSmartPunctuationHistory
  if c.mode ≠ .ime then return ({ handled := true }, c)
  let (result, c) ← c.finishComposition S
  let c := c.withSession (S.setDedicatedEnglish c.session !c.dedicatedEnglishMode)
  let c := c.refreshSnapshot S
  return ({ result with handled := true }, ← c.resetHighlight.renewGeneration)

/-- `switch_scheme` (InputController.cpp:443). -/
def switchScheme (c : InputController σ) (schemeType : SchemeType) :
    Draw (ControllerResult × InputController σ) := do
  let c := c.clearSmartPunctuationHistory
  if c.scheme = schemeType ∧ c.localInputMode = .none then return ({}, c)
  let (result, c) ← c.finishComposition S
  let c := c.withSession (S.switchScheme (S.setDedicatedEnglish c.session false) schemeType)
  let c := (c.refreshSnapshot S).selectActiveHelpcodeSchema S
  return ({ result with handled := true }, ← c.resetHighlight.renewGeneration)

/-- `invalidate_context` (InputController.cpp:470). -/
def invalidateContext (c : InputController σ) : Draw (InputController σ) :=
  let c := c.clearSmartPunctuationHistory
  { c with
    pendingPairedClosings := []
    punctuationFormatter := c.punctuationFormatter.reset }.renewGeneration

/-- `reset` (InputController.cpp:464). -/
def reset (c : InputController σ) : Draw (InputController σ) := do
  let (_, c) ← c.finishCall S (S.command c.session .cancel)
  c.invalidateContext

/-! ## Keys -/

/-- `shifted_digit_symbol` (InputController.cpp:63): the digit a shifted number
key stands for, `0` for any other character. -/
def shiftedDigitSymbol (character : Char) : Nat :=
  let symbols := ['!', '@', '#', '$', '%', '^', '&', '*', '(']
  if character ∈ symbols then symbols.idxOf character + 1 else 0

/-- The character of a digit key. -/
def digitCharacter (digit : Nat) : Char := Char.ofNat ('0'.toNat + digit)

/-- The page move of a bracket, when brackets page
(InputController.cpp:179 and 207). -/
def bracketKey (c : InputController σ) (ch : Char) : Option Bool :=
  if c.bracketPaging && (ch = '[' || ch = ']') then some (ch = ']') else none

/-- The page move of any other punctuation key (InputController.cpp:183 and 222). -/
def pagingKey (c : InputController σ) (ch : Char) : Option Bool :=
  if ch = '-' ∨ ch = '_' then some false
  else if ch = '=' ∨ ch = '+' then some true
  else if c.commaPeriodPaging && (ch = ',' || ch = '.') then some (ch = '.')
  else none

/-- A temporary language is being typed, so that punctuation may page through
its candidates (InputController.cpp:175). -/
def temporaryInput (c : InputController σ) : Bool :=
  (c.localInputMode = .temporaryEnglish || c.localInputMode = .temporaryJapanese) &&
    c.hasComposition

/-- The `Punctuation` case of the IME mode inside a local input mode
(InputController.cpp:165). -/
def localPunctuation (c : InputController σ) (event : FrontendKeyEvent) (now : Int) :
    Draw (ControllerResult × InputController σ) :=
  if event.shiftOnly && shiftedDigitSymbol event.character ≠ 0 then
    c.selectPageCandidate S (shiftedDigitSymbol event.character - 1)
  else
    let paging := if c.temporaryInput then
        c.bracketKey event.character <|> c.pagingKey event.character
      else none
    match paging with
    | some forward => return c.movePage forward
    | none =>
      let call := S.character c.session event.character event.shiftOnly
      if call.1.handled then c.finishCall S call
      else
        (c.withSession call.2).commitPunctuation S event.character
          event.precedingCharacter now

/-- A punctuation key no composition wants for itself: page, or commit
(InputController.cpp:222). -/
def pageOrCommit (c : InputController σ) (event : FrontendKeyEvent) (now : Int) :
    Draw (ControllerResult × InputController σ) :=
  match c.pagingKey event.character with
  | some forward => return c.movePage forward
  | none => c.commitPunctuation S event.character event.precedingCharacter now

/-- The key picks a character out of the highlighted word (InputController.cpp:211). -/
def wordKey (c : InputController σ) (ch : Char) : Bool :=
  c.wordToCharacter && !c.bracketPaging && (ch = '[' || ch = ']')

/-- The character such a key picks. -/
def wordEdge (ch : Char) : CandidateEdge := if ch = '[' then .firstHan else .lastHan

/-- The `Punctuation` case of the IME mode (InputController.cpp:164). -/
def imePunctuation (c : InputController σ) (event : FrontendKeyEvent) (now : Int) :
    Draw (ControllerResult × InputController σ) :=
  if c.localInputMode ≠ .none then c.localPunctuation S event now
  else if event.character = '\'' && c.hasComposition then
    c.finishCall S (S.character c.session event.character false)
  else if !c.hasComposition then
    c.commitPunctuation S event.character event.precedingCharacter now
  else
    match c.bracketKey event.character with
    | some forward => return c.movePage forward
    | none =>
      if c.wordKey event.character then
        let call := S.selectEdge c.session c.highlightedCandidate (wordEdge event.character)
        if call.1.handled then c.finishCall S call
        else (c.withSession call.2).pageOrCommit S event now
      else c.pageOrCommit S event now

/-- The `switch` of `handle_key` in the IME mode (InputController.cpp:150);
`none` in front is a `break` into the tail both modes share. -/
def imeKey (c : InputController σ) (event : FrontendKeyEvent) (now : Int) :
    Draw (Option ControllerResult × InputController σ) := do
  match event.key with
  | .character =>
    let call := S.character c.session event.character event.shiftOnly
    let c := c.withSession call.2
    if call.1.handled || c.hasComposition then
      return (← c.finishCompositionMutation S (.ofKeyResult call.1)).map some id
    return (none, c)
  | .punctuation => return (← c.imePunctuation S event now).map some id
  | .backspace => return (← c.finishCall S (S.command c.session .backspace)).map some id
  | .enter => return (← c.finishCall S (S.command c.session .commitRaw)).map some id
  | .escape => return (← c.finishCall S (S.command c.session .cancel)).map some id
  | .space =>
    if c.hasComposition then return (← c.commitHighlighted S).map some id
    return (none, c)
  | .digit =>
    if c.localInputMode = .unicode && !event.shiftOnly then
      return (← c.finishCall S
        (S.character c.session (digitCharacter event.digit) false)).map some id
    if !c.hasComposition then return (none, c)
    if event.digit < 1 || 9 < event.digit then return (some {}, c)
    if c.pageSize < event.digit then return (some { handled := true }, c)
    if c.pageStart + event.digit - 1 < c.candidates.length then
      return (← c.selectCandidate S (c.pageStart + event.digit - 1)).map some id
    return (some { handled := true }, c)
  | .up => return (c.moveCursor false).map some id
  | .down => return (c.moveCursor true).map some id
  | .pageUp => return (c.movePage false).map some id
  | .pageDown => return (c.movePage true).map some id
  | .togglePunctuation | .toggleWidth | .toggleEnglish => return (none, c)

/-- The tail of `handle_key`, for the direct mode and for the keys the IME mode
lets through (InputController.cpp:291). -/
def plainKey (c : InputController σ) (event : FrontendKeyEvent) (now : Int) :
    Draw (ControllerResult × InputController σ) :=
  match event.key with
  | .character => return (c.commitFullWidth event.character, c)
  | .punctuation =>
    c.commitPunctuation S event.character event.precedingCharacter now
  | .space => return (c.commitFullWidth ' ', c)
  | .digit =>
    return (if event.digit ≤ 9 then c.commitFullWidth (digitCharacter event.digit) else {}, c)
  | _ => return ({}, c)

/-- `handle_key` (InputController.cpp:123). -/
def handleKey (c : InputController σ) (event : FrontendKeyEvent) (now : Int) :
    Draw (ControllerResult × InputController σ) := do
  let c :=
    if event.key ≠ .punctuation ∨ event.character ≠ c.smartPunctuationHistoryKey then
      c.clearSmartPunctuationHistory
    else c
  if event.hostShortcut then
    let (result, c) ← c.finishComposition S
    return ({ result with handled := false }, ← c.invalidateContext)
  match event.key with
  | .togglePunctuation => c.togglePunctuationMode
  | .toggleWidth => c.toggleCharacterWidth
  | .toggleEnglish => c.toggleDedicatedEnglishMode S
  | _ =>
    if c.mode = .ime then
      match ← c.imeKey S event now with
      | (some result, c) => return (result, c)
      | (none, c) => c.plainKey S event now
    else c.plainKey S event now

/-! ## Online candidates -/

/-- `online_request` (InputController.cpp:480). -/
def onlineRequest (c : InputController σ) : Option OnlineRequest :=
  (S.onlineQuery c.session).map fun query => ⟨c.onlineGeneration, query⟩

/-- `apply_online_candidate` (InputController.cpp:490). -/
def applyOnlineCandidate (c : InputController σ) (generation : Nat) (query : OnlineQuery)
    (candidate : Text) (source : CandidateSource) : Bool × InputController σ :=
  if generation ≠ c.onlineGeneration then (false, c)
  else
    let previousCount := c.candidates.length
    let call := S.applyOnlineCandidate c.session query candidate source
    let c := c.withSession call.2
    if !call.1 then (false, c)
    else
      let c := c.refreshSnapshot S
      if c.candidates.length ≠ previousCount ∧ c.candidates ≠ [] then
        (true, { c with
          highlightedCandidate := min c.highlightedCandidate (c.candidates.length - 1) })
      else (true, c)

end InputController

end MsimeLinux
