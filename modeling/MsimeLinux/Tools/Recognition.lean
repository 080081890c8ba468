import Mathlib.Logic.Function.Basic
import MsimeLinux.Lib.Url
import MsimeLinux.Lib.Words
import MsimeLinux.Tools.Recognizer

/-!
# Handwriting recognition (`HandwritingRecognizer.cpp`)

Strokes become a picture in a temporary file, a child reads it, and what the child writes is cut
into candidates.

- `parseCandidates_eq`: the candidates are the first different words of a text.
- `Course`, `recognizeStrokes_course`: the ways a recognition goes.
- `recognition_leaves_nothing`: what is returned, and that the picture is gone.
-/

namespace MsimeLinux

universe u

open Lib

namespace HandwritingRecognizer

/-! ## The candidates -/

/-- `kMaxCandidates` (HandwritingRecognizer.h:54). -/
def maxCandidates : Nat := 12

/-- `g_ascii_isspace`. -/
def isAsciiSpace (b : UInt8) : Bool := b = 9 || b = 10 || b = 12 || b = 13 || b = 32

/-- `trim` (HandwritingRecognizer.cpp:61). -/
def isPadding (b : UInt8) : Bool := b = 32 || b = 9 || b = 13 || b = 10

def trim (value : Bytes) : Bytes :=
  ((value.dropWhile isPadding).reverse.dropWhile isPadding).reverse

/-- The loop of `parse_candidates` (HandwritingRecognizer.cpp:456), on what is left of the
output. -/
def parseLoop (candidates : List Bytes) (rest : Bytes) : List Bytes :=
  if h : rest ≠ [] ∧ candidates.length < maxCandidates then
    have := afterWord_length (p := isAsciiSpace) h.1
    let word := firstWord isAsciiSpace rest
    if word = [] then parseLoop candidates (afterWord isAsciiSpace rest)
    else
      let candidate := trim word
      parseLoop
        (if candidate ≠ [] ∧ candidate ∉ candidates then candidates ++ [candidate] else candidates)
        (afterWord isAsciiSpace rest)
  else candidates
termination_by rest.length

/-- `parse_candidates` (HandwritingRecognizer.cpp:448). `g_utf8_validate` takes no NUL. -/
def parseCandidates (output : Bytes) : List Bytes :=
  if utf8Validate output = true ∧ 0 ∉ output then parseLoop [] output else []

theorem isPadding_isAsciiSpace {b : UInt8} (h : isAsciiSpace b = false) : isPadding b = false := by
  simp only [isAsciiSpace, Bool.or_eq_false_iff, decide_eq_false_iff_not] at h
  simp [isPadding, h]

theorem isAsciiSpace_ascii {b : UInt8} (h : isAsciiSpace b = true) : b < 0x80 := by
  simp only [isAsciiSpace, Bool.or_eq_true, decide_eq_true_eq] at h
  obtain (((rfl | rfl) | rfl) | rfl) | rfl := h <;> decide

/-- There is nothing to trim around a word. -/
theorem trim_eq {word : Bytes} (h : ∀ b ∈ word, isAsciiSpace b = false) : trim word = word := by
  have hkeep : ∀ l : Bytes, (∀ b ∈ l, isAsciiSpace b = false) → l.dropWhile isPadding = l := by
    intro l hl
    cases l with
    | nil => rfl
    | cons b l =>
      exact List.dropWhile_cons_of_neg (by
        simp [isPadding_isAsciiSpace (hl b List.mem_cons_self)])
  rw [trim, hkeep word h, hkeep _ fun b hb => h b (List.mem_reverse.mp hb), List.reverse_reverse]

/-- The loop adds the words that are new, as long as there is room. -/
theorem parseLoop_eq {candidates : List Bytes} {rest : Bytes} (hnodup : candidates.Nodup)
    (hlength : candidates.length ≤ maxCandidates) : parseLoop candidates rest =
      (candidates ++ words isAsciiSpace rest).eraseDups.take maxCandidates := by
  induction rest using scan_induction (p := isAsciiSpace) generalizing candidates with
  | none rest hnone =>
    -- only spaces are left
    have hdone : parseLoop candidates rest = candidates := by
      have hafter : afterWord isAsciiSpace rest = [] := by
        rw [afterWord, firstWord_eq_nil_iff.mp hnone, List.dropWhile_nil]
      unfold parseLoop
      split
      · simp only [hnone, if_true, hafter]
        unfold parseLoop
        simp
      · rfl
    rw [hdone, words_eq_nil hnone, List.append_nil, eraseDups_of_nodup hnodup,
      List.take_of_length_le hlength]
  | word rest hword ih =>
    have hne : rest ≠ [] := by
      rintro rfl
      exact hword rfl
    rw [words_scan hword]
    obtain hroom | hfull := Nat.lt_or_ge candidates.length maxCandidates
    · -- there is room: the word is added, unless it was seen
      unfold parseLoop
      simp only [dif_pos (And.intro hne hroom), if_neg hword, trim_eq firstWord_not_sep]
      by_cases hseen : firstWord isAsciiSpace rest ∈ candidates
      · rw [if_neg fun h => h.2 hseen, ih hnodup hlength, eraseDups_seen hseen]
      · have hnodup' : (candidates ++ [firstWord isAsciiSpace rest]).Nodup :=
          List.nodup_append.mpr ⟨hnodup, by simp, fun candidate hcandidate word hword heq =>
            hseen (List.mem_singleton.mp hword ▸ heq ▸ hcandidate)⟩
        have hlength' : (candidates ++ [firstWord isAsciiSpace rest]).length ≤ maxCandidates := by
          rw [List.length_append]
          exact hroom
        rw [if_pos ⟨hword, hseen⟩, ih hnodup' hlength', List.append_assoc, List.singleton_append]
    · -- there is none: the loop is over
      have hlimit : candidates.length = maxCandidates := Nat.le_antisymm hlength hfull
      unfold parseLoop
      rw [dif_neg fun h => Nat.not_lt.mpr hfull h.2, ← hlimit, take_eraseDups_full hnodup]

/-- The candidates are the first different words of a text. -/
theorem parseCandidates_eq (output : Bytes) : parseCandidates output =
    if utf8Validate output = true ∧ 0 ∉ output then
      (words isAsciiSpace output).eraseDups.take maxCandidates
    else [] := by
  unfold parseCandidates
  split
  · rw [parseLoop_eq List.nodup_nil (Nat.zero_le _), List.nil_append]
  · rfl

example : parseCandidates (utf8 "你 好\n你\n") = [utf8 "你", utf8 "好"] := by
  rw [parseCandidates_eq]
  decide +kernel

/-- What may be shown as a candidate, of an output. -/
structure Candidate (output candidate : Bytes) : Prop where
  nonempty : candidate ≠ []
  noSpace : ∀ b ∈ candidate, isAsciiSpace b = false
  valid : ValidUtf8 candidate
  part : candidate <:+: output

theorem parseCandidates_sound {output : Bytes} : (parseCandidates output).Nodup ∧
    (parseCandidates output).length ≤ maxCandidates ∧
    ∀ candidate ∈ parseCandidates output, Candidate output candidate := by
  rw [parseCandidates_eq]
  split
  next hvalid =>
    refine ⟨(nodup_eraseDups _).sublist (List.take_sublist _ _), List.length_take_le _ _,
      fun candidate hcandidate => ?_⟩
    have hword := List.mem_eraseDups.mp (List.mem_of_mem_take hcandidate)
    obtain ⟨hne, hspace, hpart⟩ := mem_words hword
    exact ⟨hne, hspace, words_utf8 (fun _ => isAsciiSpace_ascii)
      (utf8Validate_iff.mp hvalid.1) hword, hpart⟩
  · simp

/-! ## A recognition -/

/-- `HandwritingStatus` and `HandwritingResult` (HandwritingRecognizer.h:22). -/
inductive HandwritingStatus where
  | ok
  | noStrokes
  | invalidCanvas
  | temporaryFileFailed
  | backendMissing
  | backendFailed
  | backendTimedOut
  | noCandidates
  deriving DecidableEq

structure HandwritingResult where
  status : HandwritingStatus := .noStrokes
  candidates : List Bytes := []
  message : Bytes := []
  deriving DecidableEq

/-- `make_result` (HandwritingRecognizer.cpp:372). -/
def makeResult (status : HandwritingStatus) (message : Bytes) : HandwritingResult :=
  { status, message }

/-- `kMinimumCanvasDimension`, `kMaximumCanvasDimension` and `kHandwritingRecognitionTimeout`. -/
def minimumCanvasDimension : Int := 32
def maximumCanvasDimension : Int := 16384
def recognitionTimeout : Nat := 4000

/-- What the code does with points, whose coordinates are floating point numbers: `usable_point`,
how `normalize_strokes` maps those of some strokes, and `render_pgm`. -/
structure Canvas (Point : Type u) where
  usable : Point → Bool
  place : List (List Point) → Int → Int → Point → Point
  renderPgm : List (List Point) → Bytes

/-- `normalize_strokes` (HandwritingRecognizer.cpp:152). -/
def Canvas.normalizeStrokes {Point : Type u} (canvas : Canvas Point) (strokes : List (List Point))
    (width height : Int) : List (List Point) :=
  if strokes.any fun stroke => stroke.any canvas.usable then
    (strokes.map fun stroke =>
      (stroke.filter canvas.usable).map (canvas.place strokes width height)).filter
        fun stroke => !stroke.isEmpty
  else []

/-- What `run_tesseract` may return (HandwritingRecognizer.cpp:279). -/
def Returns (timeout : Nat) (outcome : BackendOutcome) (output : Bytes) : Prop :=
  (outcome = .spawnFailed ∧ output = []) ∨
    ∃ start answers s, Run Step (.spawned start timeout) answers s ∧
      s.phase = .returned outcome ∧ s.output = output

/-- The rest of the system: the temporary directory, if it is one, what `mkstemp` makes of a
pattern, what gets into the file and whether the stream is good after it, the backend, and whether
`remove` works. -/
structure System where
  directory : Option Bytes
  make : Bytes → Option Bytes
  stored : Bytes → Bytes
  good : Bool
  backend : Nat → BackendOutcome × Bytes
  removes : Bool
  returns : ∀ timeout, Returns timeout (backend timeout).1 (backend timeout).2

/-- `std::filesystem::filesystem_error`: where TMPDIR names no directory. -/
inductive FilesystemError where
  | noDirectory
  deriving DecidableEq

/-- `temporary_path` (HandwritingRecognizer.cpp:190): `temp_directory_path` throws, `mkstemp`
does not. -/
def System.temporaryPath (sys : System) : Except FilesystemError (Option Bytes) :=
  match sys.directory with
  | none => .error .noDirectory
  | some directory => .ok (sys.make (joined directory (ascii "metasequoia-ime-handwriting-XXXXXX")))
where
  /-- `operator/` of paths. -/
  joined (directory name : Bytes) : Bytes :=
    if directory.getLast? = some slash then directory ++ name else directory ++ slash :: name

/-- The files there are, by path. -/
abbrev Files := Bytes → Option Bytes

def System.remove (sys : System) (files : Files) (path : Bytes) : Files :=
  if sys.removes then Function.update files path none else files

/-- A timeout that is not positive is the usual one (HandwritingRecognizer.cpp:417). -/
def boundedTimeout (timeout : Int) : Nat :=
  if 0 < timeout then timeout.toNat else recognitionTimeout

/-- What a result says of the output of the backend (HandwritingRecognizer.cpp:420). -/
def resultOf (outcome : BackendOutcome) (output : Bytes) : HandwritingResult :=
  match outcome with
  | .missing => makeResult .backendMissing
      (ascii "Tesseract handwriting backend is unavailable; " ++
        ascii "install tesseract-ocr and tesseract-ocr-chi-sim.")
  | .timedOut => makeResult .backendTimedOut
      (ascii "Tesseract handwriting recognition did not answer in time and was stopped.")
  | .spawnFailed => makeResult .backendFailed (ascii "Tesseract handwriting recognition failed.")
  | .failed => makeResult .backendFailed (ascii "Tesseract handwriting recognition failed.")
  | .ok =>
    if parseCandidates output = [] then
      makeResult .noCandidates (ascii "The handwriting backend returned no candidates.")
    else { status := .ok, candidates := parseCandidates output }

/-- `recognize_strokes` (HandwritingRecognizer.cpp:380): what is returned or thrown, and the files
there are then. -/
def recognizeStrokes {Point : Type u} (canvas : Canvas Point) (sys : System)
    (strokes : List (List Point)) (width height timeout : Int) (files : Files) :
    Except FilesystemError HandwritingResult × Files :=
  if strokes.isEmpty then
    (.ok (makeResult .noStrokes (ascii "Draw at least one handwriting stroke.")), files)
  else if width < minimumCanvasDimension ∨ height < minimumCanvasDimension ∨
      maximumCanvasDimension < width ∨ maximumCanvasDimension < height then
    (.ok (makeResult .invalidCanvas (ascii "Handwriting canvas dimensions were invalid.")), files)
  else
    let normalized := canvas.normalizeStrokes strokes width height
    if normalized.isEmpty then
      (.ok (makeResult .noStrokes (ascii "Draw at least one handwriting stroke.")), files)
    else
      match sys.temporaryPath with
      | .error e => (.error e, files)
      | .ok none => (.ok (makeResult .temporaryFileFailed
          (ascii "Unable to create a temporary handwriting image.")), files)
      | .ok (some path) =>
        let files := Function.update files path
          (some (sys.stored (ascii "P5\n256 256\n255\n" ++ canvas.renderPgm normalized)))
        if !sys.good then
          (.ok (makeResult .temporaryFileFailed
            (ascii "Unable to write the temporary handwriting image.")), sys.remove files path)
        else
          let (outcome, output) := sys.backend (boundedTimeout timeout)
          (.ok (resultOf outcome output), sys.remove files path)

section Recognition

variable {Point : Type u} {canvas : Canvas Point} {sys : System} {strokes : List (List Point)}
  {width height timeout : Int} {files : Files}

/-- The canvas has a size that is accepted; there is something on it; a picture is written. -/
def Sized (width height : Int) : Prop :=
  minimumCanvasDimension ≤ width ∧ minimumCanvasDimension ≤ height ∧
    width ≤ maximumCanvasDimension ∧ height ≤ maximumCanvasDimension

def Drawn (canvas : Canvas Point) (strokes : List (List Point)) : Prop :=
  ∃ stroke ∈ strokes, ∃ point ∈ stroke, canvas.usable point = true

def System.Writes (sys : System) : Prop :=
  (∃ path, sys.temporaryPath = .ok (some path)) ∧ sys.good = true

theorem temporaryPath_error {e : FilesystemError} :
    sys.temporaryPath = .error e ↔ sys.directory = none := by
  cases e
  unfold System.temporaryPath
  cases sys.directory <;> simp

theorem normalizeStrokes_isEmpty :
    (canvas.normalizeStrokes strokes width height).isEmpty = true ↔ ¬ Drawn canvas strokes := by
  have hany : (strokes.any fun stroke => stroke.any canvas.usable) = true ↔
      Drawn canvas strokes := by
    simp [Drawn, List.any_eq_true]
  unfold Canvas.normalizeStrokes
  split
  next hdrawn =>
    refine iff_of_false ?_ (not_not_intro (hany.mp hdrawn))
    obtain ⟨stroke, hstroke, point, hpoint, husable⟩ := hany.mp hdrawn
    rw [List.isEmpty_iff, List.filter_eq_nil_iff]
    intro hnone
    refine hnone _ (List.mem_map_of_mem hstroke) ?_
    have hmem := List.mem_filter.mpr ⟨hpoint, husable⟩
    simpa using ⟨point, hpoint, husable⟩
  next hnone => exact iff_of_true rfl fun hdrawn => hnone (hany.mpr hdrawn)

/-- The ways a recognition goes. -/
inductive Course (canvas : Canvas Point) (sys : System) (strokes : List (List Point))
    (width height timeout : Int) (files : Files) :
    Except FilesystemError HandwritingResult × Files → Prop
  | invalidCanvas : strokes ≠ [] → ¬ Sized width height →
      Course canvas sys strokes width height timeout files
        (.ok (makeResult .invalidCanvas (ascii "Handwriting canvas dimensions were invalid.")),
          files)
  | noStrokes : strokes = [] ∨ Sized width height → ¬ Drawn canvas strokes →
      Course canvas sys strokes width height timeout files
        (.ok (makeResult .noStrokes (ascii "Draw at least one handwriting stroke.")), files)
  | noDirectory (e : FilesystemError) : Sized width height → Drawn canvas strokes →
      sys.directory = none → Course canvas sys strokes width height timeout files (.error e, files)
  | noFile : Sized width height → Drawn canvas strokes → sys.directory ≠ none →
      sys.temporaryPath = .ok none → Course canvas sys strokes width height timeout files
        (.ok (makeResult .temporaryFileFailed
          (ascii "Unable to create a temporary handwriting image.")), files)
  | notWritten (path content : Bytes) : Sized width height → Drawn canvas strokes →
      sys.directory ≠ none → sys.temporaryPath = .ok (some path) → sys.good = false →
      Course canvas sys strokes width height timeout files
        (.ok (makeResult .temporaryFileFailed
          (ascii "Unable to write the temporary handwriting image.")),
          sys.remove (Function.update files path (some content)) path)
  | answered (path content : Bytes) : Sized width height → Drawn canvas strokes →
      sys.directory ≠ none → sys.temporaryPath = .ok (some path) → sys.good = true →
      Course canvas sys strokes width height timeout files
        (.ok (resultOf (sys.backend (boundedTimeout timeout)).1
          (sys.backend (boundedTimeout timeout)).2),
          sys.remove (Function.update files path (some content)) path)

theorem recognizeStrokes_course (canvas : Canvas Point) (sys : System)
    (strokes : List (List Point)) (width height timeout : Int) (files : Files) :
    Course canvas sys strokes width height timeout files
      (recognizeStrokes canvas sys strokes width height timeout files) := by
  have hsized : (width < minimumCanvasDimension ∨ height < minimumCanvasDimension ∨
      maximumCanvasDimension < width ∨ maximumCanvasDimension < height) ↔ ¬ Sized width height := by
    unfold Sized
    omega
  unfold recognizeStrokes
  -- the checks in the order of the source, each with its own ending
  split
  next hempty =>
    rw [List.isEmpty_iff] at hempty
    subst hempty
    exact .noStrokes (.inl rfl) (by simp [Drawn])
  next hstrokes =>
    have hne : strokes ≠ [] := by simpa using hstrokes
    split
    next hsize => exact .invalidCanvas hne (hsized.mp hsize)
    next hsize =>
      have hsize := not_not.mp (hsized.not.mp hsize)
      dsimp only
      split
      next hnone => exact .noStrokes (.inr hsize) (normalizeStrokes_isEmpty.mp hnone)
      next hdrawn =>
        have hdrawn := not_not.mp (normalizeStrokes_isEmpty.not.mp hdrawn)
        -- from here on there is a directory, unless the call throws
        have hthere : ∀ made, sys.temporaryPath = .ok made → sys.directory ≠ none := by
          intro made hmade hnone
          rw [temporaryPath_error (e := .noDirectory) |>.mpr hnone] at hmade
          cases hmade
        split
        next e he => exact .noDirectory e hsize hdrawn (temporaryPath_error.mp he)
        next hnone => exact .noFile hsize hdrawn (hthere _ hnone) hnone
        next path hpath =>
          split
          next hbad =>
            exact .notWritten path _ hsize hdrawn (hthere _ hpath) hpath (by simpa using hbad)
          next hgood =>
            exact .answered path _ hsize hdrawn (hthere _ hpath) hpath (by simpa using hgood)

/-- The picture is gone, where it can be removed, and nothing else has changed. -/
theorem remove_update (sys : System) (files : Files) {path other : Bytes} (content : Bytes)
    (h : path ≠ other ∨ sys.removes = true ∧ files other = none) :
    sys.remove (Function.update files path (some content)) path other = files other := by
  unfold System.remove
  by_cases hpath : other = path
  · subst hpath
    obtain hne | ⟨hremoves, hnone⟩ := h
    · exact absurd rfl hne
    · simp [hremoves, hnone]
  · split <;> simp [Function.update_of_ne hpath]

theorem Course.unchanged {r : Except FilesystemError HandwritingResult × Files}
    (h : Course canvas sys strokes width height timeout files r) {path : Bytes}
    (hpath : sys.temporaryPath ≠ .ok (some path) ∨ sys.removes = true ∧ files path = none) :
    r.2 path = files path := by
  have hother : ∀ made, sys.temporaryPath = .ok (some made) →
      made ≠ path ∨ sys.removes = true ∧ files path = none := by
    intro made hmade
    refine hpath.imp_left fun hne heq => hne ?_
    rw [hmade, heq]
  cases h with
  | invalidCanvas => rfl
  | noStrokes => rfl
  | noDirectory => rfl
  | noFile => rfl
  | notWritten made content _ _ _ hmade => exact remove_update sys files content (hother made hmade)
  | answered made content _ _ _ hmade => exact remove_update sys files content (hother made hmade)

/-- It throws only where the temporary directory is none, with a picture to put there. -/
theorem Course.thrown {r : Except FilesystemError HandwritingResult × Files}
    (h : Course canvas sys strokes width height timeout files r) :
    (∃ e, r.1 = .error e) ↔
      Sized width height ∧ Drawn canvas strokes ∧ sys.directory = none := by
  have hdrawn : Drawn canvas strokes → strokes ≠ [] := by
    rintro ⟨stroke, hstroke, -⟩ rfl
    exact List.not_mem_nil hstroke
  cases h with
  | invalidCanvas hne hsize => exact iff_of_false (by simp) fun h => hsize h.1
  | noStrokes hsize hnone => exact iff_of_false (by simp) fun h => hnone h.2.1
  | noDirectory e hsize hdrawn hnone => exact iff_of_true ⟨e, rfl⟩ ⟨hsize, hdrawn, hnone⟩
  | noFile hsize hdrawn hthere => exact iff_of_false (by simp) fun h => hthere h.2.2
  | notWritten _ _ hsize hdrawn hthere => exact iff_of_false (by simp) fun h => hthere h.2.2
  | answered _ _ hsize hdrawn hthere => exact iff_of_false (by simp) fun h => hthere h.2.2

/-- Candidates are there on success, and a message without. -/
structure HandwritingResult.Sound (r : HandwritingResult) : Prop where
  candidates : r.status = .ok ↔ r.candidates ≠ []
  message : r.status = .ok ↔ r.message = []

theorem ascii_ne_nil {s : String} (h : s ≠ "") : ascii s ≠ [] := by
  intro hnil
  rw [ascii, List.map_eq_nil_iff] at hnil
  exact h (String.toList_eq_nil_iff.mp hnil)

theorem makeResult_sound {status : HandwritingStatus} {message : Bytes} (hstatus : status ≠ .ok)
    (hmessage : message ≠ []) : (makeResult status message).Sound where
  candidates := iff_of_false hstatus (not_not_intro rfl)
  message := iff_of_false hstatus hmessage

theorem resultOf_sound (outcome : BackendOutcome) (output : Bytes) :
    (resultOf outcome output).Sound := by
  cases outcome with
  | ok =>
    simp only [resultOf]
    split
    · exact makeResult_sound (by decide) (ascii_ne_nil (by simp))
    next hsome => exact ⟨iff_of_true rfl hsome, iff_of_true rfl rfl⟩
  | spawnFailed => exact makeResult_sound (by decide) (ascii_ne_nil (by simp))
  | missing =>
    exact makeResult_sound (by decide)
      (List.append_ne_nil_of_left_ne_nil (ascii_ne_nil (by simp)) _)
  | failed => exact makeResult_sound (by decide) (ascii_ne_nil (by simp))
  | timedOut => exact makeResult_sound (by decide) (ascii_ne_nil (by simp))

/-- Candidates come from a child that ended well. -/
theorem mem_resultOf {outcome : BackendOutcome} {output candidate : Bytes}
    (h : candidate ∈ (resultOf outcome output).candidates) :
    outcome = .ok ∧ candidate ∈ parseCandidates output ∧
      (resultOf outcome output).candidates = parseCandidates output := by
  cases outcome with
  | ok =>
    simp only [resultOf] at h ⊢
    split at h
    · exact absurd h List.not_mem_nil
    next hsome => exact ⟨trivial, h, by rw [if_neg hsome]⟩
  | spawnFailed => exact absurd h List.not_mem_nil
  | missing => exact absurd h List.not_mem_nil
  | failed => exact absurd h List.not_mem_nil
  | timedOut => exact absurd h List.not_mem_nil

/-- A result of the backend is none of a picture that was not written. -/
theorem resultOf_status (outcome : BackendOutcome) (output : Bytes) :
    (resultOf outcome output).status ≠ .noStrokes ∧
    (resultOf outcome output).status ≠ .invalidCanvas ∧
    (resultOf outcome output).status ≠ .temporaryFileFailed := by
  cases outcome with
  | ok =>
    simp only [resultOf]
    split <;> simp [makeResult]
  | spawnFailed => simp [resultOf, makeResult]
  | missing => simp [resultOf, makeResult]
  | failed => simp [resultOf, makeResult]
  | timedOut => simp [resultOf, makeResult]

theorem Course.sound {r : Except FilesystemError HandwritingResult × Files}
    (h : Course canvas sys strokes width height timeout files r) {result : HandwritingResult}
    (hresult : r.1 = .ok result) : result.Sound := by
  cases h with
  | invalidCanvas =>
    cases hresult
    exact makeResult_sound (by decide) (ascii_ne_nil (by simp))
  | noStrokes =>
    cases hresult
    exact makeResult_sound (by decide) (ascii_ne_nil (by simp))
  | noDirectory => cases hresult
  | noFile =>
    cases hresult
    exact makeResult_sound (by decide) (ascii_ne_nil (by simp))
  | notWritten =>
    cases hresult
    exact makeResult_sound (by decide) (ascii_ne_nil (by simp))
  | answered =>
    cases hresult
    exact resultOf_sound _ _

/-- The status says how far a recognition came. -/
theorem Course.status {r : Except FilesystemError HandwritingResult × Files}
    (h : Course canvas sys strokes width height timeout files r) {result : HandwritingResult}
    (hresult : r.1 = .ok result) :
    (result.status = .invalidCanvas ↔ strokes ≠ [] ∧ ¬ Sized width height) ∧
    (result.status = .noStrokes ↔ (strokes = [] ∨ Sized width height) ∧ ¬ Drawn canvas strokes) ∧
    (result.status = .temporaryFileFailed ↔
      Sized width height ∧ Drawn canvas strokes ∧ ¬ sys.Writes) := by
  have hstrokes : Drawn canvas strokes → strokes ≠ [] := by
    rintro ⟨stroke, hstroke, -⟩ rfl
    exact List.not_mem_nil hstroke
  cases h with
  | invalidCanvas hne hsize =>
    cases hresult
    simp [makeResult, hne, hsize]
  | noStrokes hsize hdrawn =>
    cases hresult
    have hnot : ¬ (strokes ≠ [] ∧ ¬ Sized width height) := fun h => hsize.elim h.1 h.2
    simp [makeResult, hsize, hdrawn, hnot]
  | noDirectory => cases hresult
  | noFile hsize hdrawn _ hnone =>
    cases hresult
    simp [makeResult, hsize, hdrawn, System.Writes, hnone]
  | notWritten path content hsize hdrawn _ hpath hbad =>
    cases hresult
    simp [makeResult, hsize, hdrawn, System.Writes, hpath, hbad]
  | answered path content hsize hdrawn _ hpath hgood =>
    cases hresult
    obtain ⟨hnoStrokes, hinvalid, hfailed⟩ := resultOf_status
      (sys.backend (boundedTimeout timeout)).1 (sys.backend (boundedTimeout timeout)).2
    simp [hnoStrokes, hinvalid, hfailed, hsize, hdrawn, System.Writes, hpath, hgood]

/-- A child that made it in time ended with the status it is told by. -/
theorem Settled.code {s : Supervisor} {outcome : BackendOutcome} (h : Settled s outcome)
    (htimedOut : outcome ≠ .timedOut) (hfailed : outcome ≠ .failed) :
    s.killed = none ∧ ∃ status, s.reaped = some status ∧ outcomeOf status = outcome := by
  have hkilled : s.killed = none := by
    rw [← Option.not_isSome_iff_eq_none]
    exact h.timedOut.not.mp htimedOut
  refine ⟨hkilled, ?_⟩
  cases hreaped : s.reaped with
  | none => exact absurd (h.untold hkilled hreaped) hfailed
  | some status => exact ⟨status, rfl, (h.told hkilled status hreaped).symm⟩

/-- A child that ended well exited with 0. -/
theorem outcomeOf_ok {status : ExitStatus} (h : outcomeOf status = .ok) : status = .exited 0 := by
  unfold outcomeOf at h
  split at h
  · rfl
  all_goals cases h

/-- What the backend returns well was written by a child that exited with 0 and was not
killed. -/
theorem returns_ok {timeout : Nat} {output : Bytes} (h : Returns timeout .ok output) :
    ∃ start answers s, Run Step (.spawned start timeout) answers s ∧ s.output = output ∧
      s.killed = none ∧ s.reaped = some (.exited 0) := by
  obtain ⟨hnot, -⟩ | ⟨start, answers, s, hrun, hphase, houtput⟩ := h
  · cases hnot
  · obtain ⟨hkilled, status, hreaped, hstatus⟩ :=
      ((Watched.run hrun).settled .ok hphase).code (by decide) (by decide)
    exact ⟨start, answers, s, hrun, houtput, hkilled, by rw [hreaped, outcomeOf_ok hstatus]⟩

theorem Course.candidates {r : Except FilesystemError HandwritingResult × Files}
    (h : Course canvas sys strokes width height timeout files r) {result : HandwritingResult}
    (hresult : r.1 = .ok result) {candidate : Bytes} (hcandidate : candidate ∈ result.candidates) :
    ∃ start answers s, Run Step (.spawned start (boundedTimeout timeout)) answers s ∧
      s.killed = none ∧ s.reaped = some (.exited 0) ∧
      result.candidates = parseCandidates s.output ∧ Candidate s.output candidate := by
  cases h with
  | invalidCanvas =>
    cases hresult
    exact absurd hcandidate List.not_mem_nil
  | noStrokes =>
    cases hresult
    exact absurd hcandidate List.not_mem_nil
  | noDirectory => cases hresult
  | noFile =>
    cases hresult
    exact absurd hcandidate List.not_mem_nil
  | notWritten =>
    cases hresult
    exact absurd hcandidate List.not_mem_nil
  | answered =>
    cases hresult
    obtain ⟨hok, hmem, hall⟩ := mem_resultOf hcandidate
    have hreturns := sys.returns (boundedTimeout timeout)
    rw [hok] at hreturns
    obtain ⟨start, answers, s, hrun, houtput, hkilled, hreaped⟩ := returns_ok hreturns
    refine ⟨start, answers, s, hrun, hkilled, hreaped, ?_, ?_⟩
    · rw [houtput, hall]
    · rw [houtput]
      exact parseCandidates_sound.2.2 candidate hmem

/-- **A recognition leaves nothing behind**: the files are as before, where the picture can be
removed, whether it returns or throws, and it throws just where there is a picture to write and
the temporary directory is none. Else its status says how far it came. Candidates are returned on
success and a message otherwise; the candidates are the first different words, twelve at most, of
the text written by a child that exited with 0 in time. -/
theorem recognition_leaves_nothing (canvas : Canvas Point) (sys : System)
    (strokes : List (List Point)) (width height timeout : Int) (files : Files) :
    let r := recognizeStrokes canvas sys strokes width height timeout files
    (∀ path, sys.temporaryPath ≠ .ok (some path) ∨ sys.removes = true ∧ files path = none →
      r.2 path = files path) ∧
    ((∃ e, r.1 = .error e) ↔
      Sized width height ∧ Drawn canvas strokes ∧ sys.directory = none) ∧
    ∀ result, r.1 = .ok result → result.Sound ∧
      ((result.status = .invalidCanvas ↔ strokes ≠ [] ∧ ¬ Sized width height) ∧
        (result.status = .noStrokes ↔
          (strokes = [] ∨ Sized width height) ∧ ¬ Drawn canvas strokes) ∧
        (result.status = .temporaryFileFailed ↔
          Sized width height ∧ Drawn canvas strokes ∧ ¬ sys.Writes)) ∧
      ∀ candidate ∈ result.candidates,
        ∃ start answers s, Run Step (.spawned start (boundedTimeout timeout)) answers s ∧
          s.killed = none ∧ s.reaped = some (.exited 0) ∧
          result.candidates = (words isAsciiSpace s.output).eraseDups.take maxCandidates ∧
          Candidate s.output candidate := by
  have hcourse := recognizeStrokes_course canvas sys strokes width height timeout files
  refine ⟨fun path hpath => hcourse.unchanged hpath, hcourse.thrown, fun result hresult =>
    ⟨hcourse.sound hresult, hcourse.status hresult, fun candidate hcandidate => ?_⟩⟩
  obtain ⟨start, answers, s, hrun, hkilled, hreaped, hall, hsound⟩ :=
    hcourse.candidates hresult hcandidate
  refine ⟨start, answers, s, hrun, hkilled, hreaped, ?_, hsound⟩
  have hne : parseCandidates s.output ≠ [] := by
    rw [← hall]
    exact List.ne_nil_of_mem hcandidate
  rw [hall, parseCandidates_eq]
  split
  · rfl
  next hinvalid => exact absurd (by rw [parseCandidates_eq, if_neg hinvalid]) hne

/-- A system whose child writes one character in time. -/
def shortSystem : System where
  directory := some (ascii "/tmp")
  make _ := some (ascii "/tmp/x")
  stored content := content
  good := true
  backend timeout := if timeout = 4000 then (.ok, utf8 "你") else (.spawnFailed, [])
  removes := true
  returns timeout := by
    split
    next htimeout =>
      subst htimeout
      exact .inr ⟨0, shortAnswers, afterShort, shortAnswers_run, rfl, rfl⟩
    · exact .inl ⟨rfl, rfl⟩

/-- Every point is usable, and is drawn where it is. -/
def dots : Canvas Nat := ⟨fun _ => true, fun _ _ _ point => point, fun _ => []⟩

/-- One point is drawn: the character is returned, and the picture is gone. -/
theorem recognition_leaves_nothing_short : ∃ result,
    (recognizeStrokes dots shortSystem [[0]] 300 300 0 fun _ => none).1 = .ok result ∧
      result.candidates = [utf8 "你"] ∧ result.message = [] ∧
      (recognizeStrokes dots shortSystem [[0]] 300 300 0 fun _ => none).2 (ascii "/tmp/x") =
        none := by
  have hall := recognition_leaves_nothing dots shortSystem [[0]] 300 300 0 fun _ => none
  have hcandidates : parseCandidates (utf8 "你") = [utf8 "你"] := by
    rw [parseCandidates_eq]
    decide +kernel
  have hresult : (recognizeStrokes dots shortSystem [[0]] 300 300 0 fun _ => none).1 =
      .ok { status := .ok, candidates := [utf8 "你"] } := by
    show Except.ok (resultOf .ok (utf8 "你")) = _
    rw [resultOf, hcandidates, if_neg (by simp)]
  exact ⟨_, hresult, rfl, (hall.2.2 _ hresult).1.message.mp rfl, hall.1 _ (.inr ⟨rfl, rfl⟩)⟩

end Recognition

end HandwritingRecognizer

end MsimeLinux
