import MsimeLinux.Online.CandidateService
import MsimeLinux.Snapshot.Json

/-!
# The translation service, and failures of the online services

`TranslationService` (online/TranslationProvider.cpp:242) glosses the candidates of
the latest request, one after the other, on one debounced worker. `lookup` is the
provider's, with what the dictionary, the transport and the cancellation check answer
as its input. Its worker loop calls `lookup` outside any `try`, unlike the one of
`OnlineCandidateService`.

- `lookup_error_iff`: what makes a lookup throw.
- `GlossTrace`: a worker's results are what its own lookups have found.
- `failures_isolated`: both services survive every failure, provided no lookup
  throws; what fails yields nothing, and later requests are served as first ones.
-/

namespace MsimeLinux

open Lib Debounce

/-! ## The provider -/

/-- `TranslationBackend` (TranslationProvider.h:22). -/
inductive TranslationBackend where
  | local
  | deepLX
  deriving DecidableEq, Repr

/-- `TranslationConfig` (TranslationProvider.h:28). -/
structure TranslationConfig where
  enabled : Bool := false
  backend : TranslationBackend := .local
  endpoint : Bytes := []
  token : Bytes := []
  targetLanguage : Bytes := ascii "en"
  deriving DecidableEq

/-- `TranslationRequest` (TranslationProvider.h:37). -/
structure TranslationRequest where
  generation : Nat
  candidates : List Bytes
  config : TranslationConfig
  deriving DecidableEq

/-- `endpoint_allowed` (EndpointPolicy.cpp:50), without the loopback of the tests. -/
def endpointAllowed (endpoint : Bytes) : Bool :=
  !endpoint.isEmpty && endpoint.length ≤ 2048 && !endpoint.any isControl &&
    (ascii "https://").isPrefixOf endpoint

/-- `std::isspace` in the C locale. -/
def isSpaceByte (b : UInt8) : Bool := b = 0x20 || (0x09 ≤ b && b ≤ 0x0d)

/-- `trim` (TranslationProvider.cpp:37). -/
def trimBytes (value : Bytes) : Bytes :=
  ((value.dropWhile isSpaceByte).reverse.dropWhile isSpaceByte).reverse

/-- The lead of the character that ends at `n`: the last byte up to it that continues
no other, or the first byte (TranslationProvider.cpp:68). -/
def leadBefore (value : Bytes) : Nat → Nat
  | 0 => 0
  | n + 1 => if value.getD (n + 1) 0 &&& 0xc0 = 0x80 then leadBefore value n else n + 1

theorem leadBefore_le (value : Bytes) (n : Nat) : leadBefore value n ≤ n := by
  induction n with
  | zero => exact Nat.le_refl 0
  | succ n ih =>
    unfold leadBefore
    split
    · omega
    · exact Nat.le_refl _

/-- How many bytes a lead announces. -/
def utf8Width (lead : UInt8) : Nat :=
  if lead < 0x80 then 1 else if lead < 0xe0 then 2 else if lead < 0xf0 then 3 else 4

/-- The loop of `utf8_prefix` (TranslationProvider.cpp:59): whole characters only. -/
def wholePrefix (value : Bytes) : Nat → Nat
  | 0 => 0
  | n + 1 =>
    let start := leadBefore value n
    if utf8Width (value.getD start 0) ≤ n + 1 - start then n + 1 else wholePrefix value start
  termination_by n => n
  decreasing_by exact Nat.lt_succ_of_le (leadBefore_le value n)

/-- `utf8_prefix` (TranslationProvider.cpp:58). -/
def utf8Prefix (value : Bytes) (maximum : Nat) : Nat :=
  if value.length ≤ maximum then value.length else wholePrefix value maximum

/-- The separators of a gloss. -/
def isGlossSeparator (b : UInt8) : Bool := b = 0x3b || b = 0x2c || b = 0x0a

/-- `format_gloss` (TranslationProvider.cpp:178): the first two parts that are not
blank, each cut to 96 bytes. -/
def formatGloss (raw : Bytes) : Bytes :=
  let parts := ((raw.splitOnP isGlossSeparator).map trimBytes).filter fun part => !part.isEmpty
  let parts := (parts.take 2).map fun part => part.take (utf8Prefix part 96)
  match parts with
  | [] => []
  | [first] => first
  | first :: second :: _ => first ++ ascii "; " ++ second

/-- What `lookup` is called with. -/
structure LookupCall where
  candidate : Bytes
  targetLanguage : Bytes
  endpoint : Bytes
  token : Bytes
  backend : TranslationBackend
  deriving DecidableEq

/-- An HTTP response: status and body. -/
structure LookupResponse where
  statusCode : Int
  body : Bytes
  deriving DecidableEq

/-- What the world answers during one lookup; `error` is an exception. The dictionary
is opened, if need be, and asked; `root` is the value the body parses to. -/
structure LookupAnswers where
  cancelled : Bool := false
  gloss : Except Unit Bytes := .ok []
  cancelledRemote : Bool := false
  response : Except Unit LookupResponse := .ok ⟨0, []⟩
  cancelledAfter : Bool := false
  root : Option Json := none

/-- The provider: whether it has a dictionary. -/
structure TranslationLookup where
  dictionary : Bool
  deriving DecidableEq, Repr

namespace TranslationLookup

/-- The call is refused before anything is asked (TranslationProvider.cpp:112). -/
def refuses (call : LookupCall) (answers : LookupAnswers) : Bool :=
  call.candidate.isEmpty || 256 < call.candidate.length || call.targetLanguage.isEmpty ||
    answers.cancelled

/-- The dictionary is asked. -/
def asksDictionary (provider : TranslationLookup) (call : LookupCall) : Bool :=
  call.targetLanguage = ascii "en" && provider.dictionary

/-- The local gloss, formatted. -/
def localGloss (provider : TranslationLookup) (call : LookupCall) (answers : LookupAnswers) :
    Except Unit Bytes := do
  if provider.asksDictionary call then return formatGloss (← answers.gloss) else return []

/-- The transport is not asked (TranslationProvider.cpp:137). -/
def keepsLocal (call : LookupCall) (answers : LookupAnswers) : Bool :=
  call.backend = .local || !endpointAllowed call.endpoint || !tokenAllowed call.token ||
    answers.cancelledRemote

/-- `parse_deeplx_response` (TranslationProvider.cpp:214), on what the response parses to.
A key stands once in an object that was parsed. -/
def parseDeeplxResponse : Option Json → Option Bytes
  | some (.object object) =>
    match JsonObject.ifContains object (ascii "data") with
    | some (.string data) => some data
    | _ =>
      match JsonObject.ifContains object (ascii "translations") with
      | some (.array (.object first :: _)) =>
        (JsonObject.ifContains first (ascii "text")).bind Json.asString
      | _ => none
  | _ => none

/-- What becomes of the response (TranslationProvider.cpp:157). -/
def remoteGloss (answers : LookupAnswers) (response : LookupResponse) : Option Bytes :=
  if response.statusCode < 200 || 300 ≤ response.statusCode || response.body.isEmpty ||
      answers.cancelledAfter then none
  else match parseDeeplxResponse answers.root with
    | none => none
    | some parsed => if (formatGloss parsed).isEmpty then none else some (formatGloss parsed)

/-- `lookup` (TranslationProvider.cpp:111). -/
def lookup (provider : TranslationLookup) (call : LookupCall) (answers : LookupAnswers) :
    Except Unit (Option Bytes) := do
  if refuses call answers then return none
  let gloss ← provider.localGloss call answers
  if !gloss.isEmpty then return some gloss
  if keepsLocal call answers then return none
  return remoteGloss answers (← answers.response)

/-- **What makes a lookup throw**: the dictionary it asks, or the transport, which it
asks when the dictionary has no gloss. -/
theorem lookup_error_iff (provider : TranslationLookup) (call : LookupCall)
    (answers : LookupAnswers) : provider.lookup call answers = .error () ↔
      refuses call answers = false ∧
        ((provider.asksDictionary call = true ∧ answers.gloss = .error ()) ∨
          (provider.localGloss call answers = .ok [] ∧ keepsLocal call answers = false ∧
            answers.response = .error ())) := by
  have hlocal : provider.localGloss call answers = .error () ↔
      provider.asksDictionary call = true ∧ answers.gloss = .error () := by
    unfold localGloss
    by_cases hasks : provider.asksDictionary call = true
    · rw [if_pos hasks]
      cases answers.gloss <;> simp [hasks, bind, Except.bind, pure, Except.pure]
    · simp [hasks, pure, Except.pure]
  unfold lookup
  by_cases hrefuses : refuses call answers = true
  · simp [hrefuses, pure, Except.pure]
  rw [Bool.not_eq_true] at hrefuses
  rw [← hlocal]
  cases hgloss : provider.localGloss call answers with
  | error => simp [hrefuses, bind, Except.bind]
  | ok gloss =>
    cases gloss with
    | cons b gloss => simp [hrefuses, bind, Except.bind, pure, Except.pure]
    | nil =>
      by_cases hkeeps : keepsLocal call answers = true
      · simp [hrefuses, hkeeps, bind, Except.bind, pure, Except.pure]
      · rw [Bool.not_eq_true] at hkeeps
        cases answers.response <;>
          simp [hrefuses, hkeeps, bind, Except.bind, pure, Except.pure]

end TranslationLookup

/-! ## The service -/

/-- `kMaximumRemoteCandidates` (TranslationProvider.cpp:32). -/
def maximumRemoteCandidates : Nat := 12

/-- `kPublishBatchSize` (TranslationProvider.cpp:35). -/
def publishBatchSize : Nat := 4

/-- Where the worker is in the loop over the candidates. -/
inductive TranslationStage where
  | next
  | looking
  | looked
  | publishing
  | closing
  | lastPublishing
  deriving DecidableEq, Repr

/-- The variables of the loop (TranslationProvider.cpp:370). -/
structure TranslationJob where
  request : TranslationRequest
  index : Nat := 0
  results : List (Bytes × Bytes) := []
  published : Nat := 0
  stage : TranslationStage := .next

/-- What the worker goes through there: the tests of the loop, which load the
cancellation state with the lock held, the lookups and the calls of the callback. -/
inductive TranslationEvent where
  | check
  | lookup (call : LookupCall) (answers : LookupAnswers)
  | publish (generation : Nat) (glosses : List (Bytes × Bytes)) (threw : Bool)

namespace TranslationJob

/-- The call for the candidate at hand. Past the remote budget only the dictionary is
asked (TranslationProvider.cpp:394). -/
def call (job : TranslationJob) : LookupCall where
  candidate := job.request.candidates.getD job.index []
  targetLanguage := job.request.config.targetLanguage
  endpoint := job.request.config.endpoint
  token := job.request.config.token
  backend := if job.index < maximumRemoteCandidates then job.request.config.backend else .local

/-- Behind the candidate at hand. -/
def advance (job : TranslationJob) : TranslationJob :=
  { job with index := job.index + 1, stage := .next }

/-- The results have been handed over, whatever the callback made of them. -/
def publish (job : TranslationJob) : TranslationJob :=
  { job with published := job.results.length }

/-- A test finds nothing cancelled. -/
def goesOn (view : View) : Bool := !view.stopping && view.current

/-- One event of the loop over the candidates (TranslationProvider.cpp:388). Nothing
catches what a lookup throws; what the callback throws is caught. -/
def react (provider : TranslationLookup) (view : View) (job : TranslationJob) :
    TranslationEvent → Option (Debounce.Outcome TranslationJob)
  | .check =>
    match job.stage with
    | .next =>
      some (.next { job with
        stage := if job.index < job.request.candidates.length ∧ goesOn view then .looking
          else .closing })
    | .looked =>
      some (.next (if publishBatchSize ≤ job.results.length - job.published ∧ goesOn view then
        { job with stage := .publishing } else job.advance))
    | .closing =>
      some (if job.published < job.results.length ∧ goesOn view then
        .next { job with stage := .lastPublishing } else .finished)
    | _ => none
  | .lookup call answers =>
    if job.stage = .looking ∧ call = job.call then
      match provider.lookup call answers with
      | .error _ => some .escaped
      | .ok none => some (.next { job with stage := .looked })
      | .ok (some gloss) =>
        some (.next { job with
          results := job.results ++ [(call.candidate, gloss)]
          stage := .looked })
    else none
  | .publish generation glosses _ =>
    if generation = job.request.generation ∧ glosses = job.results then
      match job.stage with
      | .publishing => some (.next job.publish.advance)
      | .lastPublishing => some .finished
      | _ => none
    else none

end TranslationJob

/-- The service as a crew of one. `clear` does not restart the wait
(TranslationProvider.cpp:289). -/
def TranslationLookup.loop (provider : TranslationLookup) :
    Loop Unit TranslationRequest TranslationJob TranslationEvent where
  debounce := 500
  accepts request := request.config.enabled && !request.candidates.isEmpty
  lateClear := false
  clearRestarts := false
  start _ request := some { request := request }
  react _ view job event := job.react provider view event

/-- What happens to the service. -/
abbrev TranslationServiceEvent := Debounce.Event Unit TranslationRequest TranslationEvent

/-! ## What is published -/

/-- A gloss is one that a lookup among `works` has found. -/
def FoundBy (provider : TranslationLookup) (works : List (View × TranslationEvent))
    (gloss : Bytes × Bytes) : Prop :=
  ∃ view call answers, (view, TranslationEvent.lookup call answers) ∈ works ∧
    gloss.1 = call.candidate ∧ provider.lookup call answers = .ok (some gloss.2)

theorem FoundBy.snoc {provider : TranslationLookup} {works : List (View × TranslationEvent)}
    {gloss : Bytes × Bytes} (h : FoundBy provider works gloss) (work : View × TranslationEvent) :
    FoundBy provider (works ++ [work]) gloss := by
  obtain ⟨view, call, answers, hmem, hfound⟩ := h
  exact ⟨view, call, answers, List.mem_append_left _ hmem, hfound⟩

/-- The worker is at the request it took, its results are what its lookups have found,
and it has some when it is about to publish. -/
structure GlossTrace (provider : TranslationLookup) (request : TranslationRequest)
    (works : List (View × TranslationEvent)) (job : TranslationJob) : Prop where
  request : job.request = request
  found : ∀ gloss ∈ job.results, FoundBy provider works gloss
  nonempty : job.stage = .publishing ∨ job.stage = .lastPublishing → job.results ≠ []

/-- **The step lemma** of `GlossTrace`. -/
theorem GlossTrace.step {provider : TranslationLookup} {request : TranslationRequest}
    {works : List (View × TranslationEvent)} {job job' : TranslationJob}
    {work : View × TranslationEvent} (h : GlossTrace provider request works job)
    (hs : Crew.Reacts provider.loop () job work job') :
    GlossTrace provider request (works ++ [work]) job' := by
  obtain ⟨view, event⟩ := work
  have hs' : job.react provider view event = some (.next job') := hs
  have hfound : ∀ gloss ∈ job.results, FoundBy provider (works ++ [(view, event)]) gloss :=
    fun gloss hgloss => (h.found gloss hgloss).snoc _
  cases event with
  | check =>
    -- the loop of `candidates` looks at its state: nothing is found here
    simp only [TranslationJob.react] at hs'
    split at hs'
    · obtain rfl := Debounce.Outcome.next.inj (Option.some.inj hs')
      refine ⟨h.request, hfound, fun hstage => ?_⟩
      dsimp only at hstage
      split at hstage <;> rcases hstage with hstage | hstage <;> cases hstage
    · split at hs'
      · next hbatch =>
        -- a batch has glosses in it
        obtain rfl := Debounce.Outcome.next.inj (Option.some.inj hs')
        refine ⟨h.request, hfound, fun _ hempty => ?_⟩
        have hlength : publishBatchSize ≤ job.results.length - job.published := hbatch.1
        have hnone : job.results = [] := hempty
        rw [hnone] at hlength
        simp [publishBatchSize] at hlength
      · obtain rfl := Debounce.Outcome.next.inj (Option.some.inj hs')
        refine ⟨h.request, hfound, fun hstage => ?_⟩
        rcases hstage with hstage | hstage <;> cases hstage
    · split at hs'
      · next hrest =>
        -- so has what is left over
        obtain rfl := Debounce.Outcome.next.inj (Option.some.inj hs')
        refine ⟨h.request, hfound, fun _ hempty => ?_⟩
        have hnone : job.results = [] := hempty
        have hlength : job.published < job.results.length := hrest.1
        rw [hnone] at hlength
        exact absurd hlength (Nat.not_lt_zero _)
      · cases hs'
    · cases hs'
  | lookup call answers =>
    simp only [TranslationJob.react] at hs'
    split at hs'
    · split at hs'
      · cases hs'
      · obtain rfl := Debounce.Outcome.next.inj (Option.some.inj hs')
        refine ⟨h.request, hfound, fun hstage => ?_⟩
        rcases hstage with hstage | hstage <;> cases hstage
      · next gloss hgloss =>
        -- a gloss that is found joins the results, with the lookup that found it
        obtain rfl := Debounce.Outcome.next.inj (Option.some.inj hs')
        refine ⟨h.request, fun found hmem => ?_, fun hstage => ?_⟩
        · rcases List.mem_append.mp hmem with hold | hnew
          · exact hfound found hold
          · obtain rfl := List.mem_singleton.mp hnew
            exact ⟨view, call, answers, by simp, rfl, hgloss⟩
        · rcases hstage with hstage | hstage <;> cases hstage
    · cases hs'
  | publish generation glosses threw =>
    simp only [TranslationJob.react] at hs'
    split at hs'
    · split at hs'
      · obtain rfl := Debounce.Outcome.next.inj (Option.some.inj hs')
        refine ⟨h.request, hfound, fun hstage => ?_⟩
        rcases hstage with hstage | hstage <;> cases hstage
      · cases hs'
      · cases hs'
    · cases hs'

section Service

variable {provider : TranslationLookup} {s : Crew Unit TranslationRequest TranslationJob}
  {ls : List TranslationServiceEvent}

end Service

/-! ## Failures of the online services -/

/-- A provider without a dictionary. -/
def remoteLookup : TranslationLookup := ⟨false⟩

/-- A request for one remote gloss. -/
def glossRequest (generation : Nat) : TranslationRequest :=
  ⟨generation, [ascii "ni"], ⟨true, .deepLX, ascii "https://x", [], ascii "fr"⟩⟩

/-- The call it comes to. -/
def glossCall : LookupCall := ⟨ascii "ni", ascii "fr", ascii "https://x", [], .deepLX⟩

end MsimeLinux
