import MsimeLinux.Lib.Debounce
import MsimeLinux.Lib.DebounceSimilar
import MsimeLinux.Input.Controller
import MsimeLinux.Settings.InputSettings

/-!
# The online candidate service

`OnlineCandidateService` (online/OnlineCandidateService.cpp:52) hands the latest
request to two workers, one for cloud and one for AI suggestions. It is a
debounced crew: `OnlineCandidateService.loop` says which requests it takes and how a
worker's fetch and callback go on. A provider may take as long as it likes, answer
anything and throw anything; so may the callback.

- `Fetched`, `Delivered`: what has happened before a fetch and before a callback.
- `JobTrace`: the works of a worker since it started its job, phase by phase.
- `worker_protocol`: every run follows the protocol.
-/

namespace MsimeLinux

open Lib Debounce

/-! ## The service -/

/-- The two worker threads. -/
inductive CandidateWorker where
  | cloud
  | ai
  deriving DecidableEq, Repr

/-- The source a worker loop is started with (OnlineCandidateService.cpp:28). -/
def CandidateWorker.source : CandidateWorker → CandidateSource
  | .cloud => .cloudSuggestion
  | .ai => .aiSuggestion

/-- `PendingRequest` (OnlineCandidateService.h:41). -/
structure PendingRequest where
  request : OnlineRequest
  context : Text
  aiConfig : Option AiSuggestionConfig
  deriving DecidableEq

/-- What the service is constructed with. -/
structure OnlineCandidateService where
  debounce : Nat
  /-- `ai_provider_` is there. -/
  aiProvider : Bool
  deriving DecidableEq, Repr

/-- Where a worker is between taking a request out of the slot and waiting again. -/
inductive CandidateJob where
  | fetching (pending : PendingRequest)
  | fetched (pending : PendingRequest) (candidate : Text)
  | running (pending : PendingRequest) (candidate : Text)
  | checked (pending : PendingRequest) (candidate : Text)
  | delivering (pending : PendingRequest) (candidate : Text)
  deriving DecidableEq

/-- What a worker goes through there. `cancelled` is two loads: of `stopping_`, and
of `request_token_` when that is not set. -/
inductive CandidateEvent where
  | poll
  | returned (candidate : Option Text)
  | threw
  | loadStopping
  | loadToken
  | callback (request : OnlineRequest) (candidate : Text) (source : CandidateSource)
  | callbackEnded (threw : Bool)
  deriving DecidableEq, Repr

namespace OnlineCandidateService

/-- The AI side of the eligibility of a request (OnlineCandidateService.cpp:56, 158). -/
def aiEligible (service : OnlineCandidateService) (pending : PendingRequest) : Bool :=
  service.aiProvider && (match pending.aiConfig with
    | some config => config.enabled
    | none => false) && pending.request.query.aiEligible

/-- `eligible` of the worker loop (OnlineCandidateService.cpp:155). -/
def eligible (service : OnlineCandidateService) (pending : PendingRequest) :
    CandidateWorker → Bool
  | .cloud => pending.request.query.cloudEligible
  | .ai => service.aiEligible pending

/-- The requests `submit` leaves in the slot; it clears the slot on any other
(OnlineCandidateService.cpp:57). -/
def accepts (service : OnlineCandidateService) (pending : PendingRequest) : Bool :=
  (pending.request.query.cloudEligible || service.aiEligible pending) &&
    !pending.request.query.queryText.isEmpty

/-- One event behind `lock.unlock()` (OnlineCandidateService.cpp:165): the fetch with
any number of cancellation checks, the check behind it, and the callback. Exceptions
of the fetch and of the callback are caught. -/
def react (w : CandidateWorker) (view : View) :
    CandidateJob → CandidateEvent → Option (Debounce.Outcome CandidateJob)
  | .fetching pending, .poll => some (.next (.fetching pending))
  | .fetching pending, .returned (some candidate) => some (.next (.fetched pending candidate))
  | .fetching _, .returned none => some .finished
  | .fetching _, .threw => some .finished
  | .fetched pending candidate, .loadStopping =>
    some (if view.stopping then .finished else .next (.running pending candidate))
  | .running pending candidate, .loadToken =>
    some (if view.current then .next (.checked pending candidate) else .finished)
  | .checked pending candidate, .callback request candidate' source =>
    if request = pending.request ∧ candidate' = candidate ∧ source = w.source then
      some (.next (.delivering pending candidate))
    else none
  | .delivering _ _, .callbackEnded _ => some .finished
  | _, _ => none

/-- The service as a crew. `clear` looks at `stopping_` before it takes the lock and
not behind it (OnlineCandidateService.cpp:79). Without an AI provider there is no AI
thread; here it takes no request. -/
def loop (service : OnlineCandidateService) :
    Loop CandidateWorker PendingRequest CandidateJob CandidateEvent where
  debounce := service.debounce
  accepts := service.accepts
  lateClear := true
  clearRestarts := true
  start w pending := if service.eligible pending w then some (.fetching pending) else none
  react := react

end OnlineCandidateService

/-- What happens to a service. -/
abbrev ServiceEvent := Debounce.Event CandidateWorker PendingRequest CandidateEvent

/-! ## The works of a worker -/

/-- The works since the fetch of `pending` began, when the job has come to this. -/
def JobTrace (pending : PendingRequest) (works : List (View × CandidateEvent)) :
    CandidateJob → Prop
  | .fetching p => p = pending ∧ ∀ work ∈ works, work.2 = .poll
  | .fetched p candidate => p = pending ∧ ∃ polls view, (∀ work ∈ polls, work.2 = .poll) ∧
      works = polls ++ [(view, .returned (some candidate))]
  | .running p candidate => p = pending ∧ ∃ polls view view', (∀ work ∈ polls, work.2 = .poll) ∧
      works = polls ++ [(view, .returned (some candidate)), (view', .loadStopping)]
  | .checked p candidate => p = pending ∧ ∃ polls view view' view'',
      (∀ work ∈ polls, work.2 = .poll) ∧ view''.current = true ∧
      works = polls ++
        [(view, .returned (some candidate)), (view', .loadStopping), (view'', .loadToken)]
  | .delivering p _ => p = pending

/-- **The step lemma** of `JobTrace`. -/
theorem JobTrace.step {service : OnlineCandidateService} {w : CandidateWorker}
    {pending : PendingRequest} {works : List (View × CandidateEvent)} {job job' : CandidateJob}
    {work : View × CandidateEvent} (h : JobTrace pending works job)
    (hs : Crew.Reacts service.loop w job work job') : JobTrace pending (works ++ [work]) job' := by
  obtain ⟨view, event⟩ := work
  have hs' : OnlineCandidateService.react w view job event = some (.next job') := hs
  cases job with
  | fetching p =>
    -- one case for each stage of the job, with the event it waits for
    obtain ⟨rfl, hpolls⟩ := h
    cases event with
    | poll =>
      obtain rfl := Debounce.Outcome.next.inj (Option.some.inj hs')
      refine ⟨rfl, fun work hwork => ?_⟩
      rcases List.mem_append.mp hwork with hold | hnew
      · exact hpolls work hold
      · rw [List.mem_singleton.mp hnew]
    | returned candidate =>
      cases candidate with
      | none => cases hs'
      | some candidate =>
        obtain rfl := Debounce.Outcome.next.inj (Option.some.inj hs')
        exact ⟨rfl, works, view, hpolls, rfl⟩
    | _ => cases hs'
  | fetched p candidate =>
    obtain ⟨rfl, polls, view', hpolls, rfl⟩ := h
    cases event with
    | loadStopping =>
      simp only [OnlineCandidateService.react, Option.some.injEq] at hs'
      split at hs'
      · cases hs'
      · obtain rfl := Debounce.Outcome.next.inj hs'
        exact ⟨rfl, polls, view', view, hpolls, by simp⟩
    | _ => cases hs'
  | running p candidate =>
    -- the token is compared last
    obtain ⟨rfl, polls, view', view'', hpolls, rfl⟩ := h
    cases event with
    | loadToken =>
      simp only [OnlineCandidateService.react, Option.some.injEq] at hs'
      split at hs'
      · next hcurrent =>
        obtain rfl := Debounce.Outcome.next.inj hs'
        exact ⟨rfl, polls, view', view'', view, hpolls, hcurrent, by simp⟩
      · cases hs'
    | _ => cases hs'
  | checked p candidate =>
    obtain ⟨rfl, -⟩ := h
    cases event with
    | callback request candidate' source =>
      simp only [OnlineCandidateService.react] at hs'
      split at hs'
      · obtain rfl := Debounce.Outcome.next.inj (Option.some.inj hs')
        rfl
      · cases hs'
    | _ => cases hs'
  | delivering p candidate =>
    cases event <;> cases hs'

/-- A worker works on the request it was started with. -/
theorem jobTrace_of_began {service : OnlineCandidateService} {w : CandidateWorker}
    {pending : PendingRequest} {between after : List ServiceEvent} {job : CandidateJob}
    (h : Crew.Began service.loop w pending between after job) :
    service.eligible pending w = true ∧ JobTrace pending (Crew.worksOf w after) job := by
  obtain ⟨start, hstart, hrun⟩ := h.works
  have hstart' : (if service.eligible pending w then some (CandidateJob.fetching pending)
    else none) = some start := hstart
  split at hstart'
  · next heligible =>
    obtain rfl := Option.some.inj hstart'
    have hnew : JobTrace pending [] (.fetching pending) := ⟨rfl, fun _ h => by cases h⟩
    exact ⟨heligible, hrun.history (I := JobTrace pending) (fun _ _ _ _ h hs => h.step hs) hnew⟩
  · cases hstart'

/-! ## The protocol -/

/-- What lies before the fetch of `pending` by `w`: it was submitted, nothing has
changed the slot since, `w` has fetched nothing since, the debounce has passed, and
the request is eligible. -/
def Fetched (service : OnlineCandidateService) (w : CandidateWorker) (pending : PendingRequest)
    (before : List ServiceEvent) : Prop :=
  ∃ earlier between, before = earlier ++ .change (.submit pending) :: between ∧
    Still between ∧ Idle w between ∧ service.debounce ≤ elapsed between ∧
    service.eligible pending w = true

/-- A callback of `w`. -/
def IsCallback (w : CandidateWorker) (e : ServiceEvent) : Prop :=
  ∃ view request candidate source, e = .work w view (.callback request candidate source)

/-- `w` loads `stopping_` and finds it set: in a wait, when the provider asks whether
it has been cancelled, or in the check behind the fetch. -/
def ObservesStop (w : CandidateWorker) (e : ServiceEvent) : Prop :=
  e = .exit w ∨ ∃ view : View, view.stopping = true ∧
    (e = .work w view .poll ∨ e = .work w view .loadStopping)

/-- What lies before a callback of `w` with `candidate` for `request`: the request was
fetched, that fetch returned the candidate, the check behind it was passed, and up to
the check nothing has changed the slot since the submission; the worker has fetched
nothing else and called back nothing since, and has never observed a stop. -/
def Delivered (service : OnlineCandidateService) (w : CandidateWorker) (request : OnlineRequest)
    (candidate : Text) (before : List ServiceEvent) : Prop :=
  ∃ earlier pending fetching closing last view view',
    before = earlier ++ .start w pending ::
      (fetching ++ .work w view (.returned (some candidate)) ::
        (closing ++ .work w view' .loadToken :: last)) ∧
    pending.request = request ∧ Fetched service w pending earlier ∧
    Still fetching ∧ Still closing ∧
    (∀ events ∈ [fetching, closing, last],
      Idle w events ∧ ∀ e ∈ events, ¬ IsCallback w e) ∧
    ∀ e ∈ before, ¬ ObservesStop w e

/-- The works up to the check are polls, the result and the two loads. -/
theorem worksOf_checked {w : CandidateWorker} {after : List ServiceEvent}
    {polls : List (View × CandidateEvent)} {view view' view'' : View} {candidate : Text}
    (hworks : Crew.worksOf w after = polls ++
      [(view, .returned (some candidate)), (view', .loadStopping), (view'', .loadToken)]) :
    ∃ fetching closing last, after = fetching ++ .work w view (.returned (some candidate)) ::
        (closing ++ .work w view'' .loadToken :: last) ∧
      Crew.worksOf w fetching = polls ∧ Crew.worksOf w closing = [(view', .loadStopping)] ∧
      Crew.worksOf w last = [] := by
  obtain ⟨fetching, rest, rfl, hfetching, hrest⟩ := Crew.worksOf_split hworks
  obtain ⟨closing, last, rfl, hclosing, hlast⟩ :=
    Crew.worksOf_split (show _ = [(view', CandidateEvent.loadStopping)] ++ _ from hrest)
  exact ⟨fetching, closing, last, rfl, hfetching, hclosing, hlast⟩

/-- A worker that is at work all along starts nothing, and calls back only if its
works say so. -/
theorem quiet_of_works {w : CandidateWorker} {events : List ServiceEvent}
    (hbusy : ∀ e ∈ events, e.worker? = some w → ∃ view event, e = .work w view event)
    (hworks : ∀ work ∈ Crew.worksOf w events, ∀ request candidate source,
      work.2 ≠ .callback request candidate source) :
    Idle w events ∧ ∀ e ∈ events, ¬ IsCallback w e := by
  constructor
  · intro request hmem
    obtain ⟨view, event, hne⟩ := hbusy _ hmem rfl
    cases hne
  · rintro e hmem ⟨view, request, candidate, source, rfl⟩
    exact hworks _ (Crew.mem_worksOf.mpr hmem) request candidate source rfl

section Protocol

variable {service : OnlineCandidateService}
  {s : Crew CandidateWorker PendingRequest CandidateJob} {pre post : List ServiceEvent}
  {w : CandidateWorker}

/-- Every fetch is of a request that has settled. -/
theorem fetched_of_run {pending : PendingRequest}
    (hrun : Run (Crew.Step service.loop) {} (pre ++ .start w pending :: post) s) :
    Fetched service w pending pre := by
  obtain ⟨earlier, between, rfl, hstill, hidle, hsettled, hstart⟩ := Crew.start_chronicle hrun
  refine ⟨earlier, between, rfl, hstill, hidle, hsettled, ?_⟩
  by_contra hineligible
  have hnone : service.loop.start w pending = none := if_neg hineligible
  rw [hnone] at hstart
  cases hstart

/-- Only a checked job calls back, with what it has checked. -/
theorem react_callback {view : View} {job : CandidateJob} {request : OnlineRequest}
    {candidate : Text} {source : CandidateSource}
    (h : (service.loop.react w view job (.callback request candidate source)).isSome) :
    ∃ pending, job = .checked pending candidate ∧ request = pending.request ∧
      source = w.source := by
  have h' : (OnlineCandidateService.react w view job
    (.callback request candidate source)).isSome := h
  cases job with
  | checked pending checked =>
    simp only [OnlineCandidateService.react] at h'
    split at h'
    · next hmatch =>
      obtain ⟨hrequest, rfl, hsource⟩ := hmatch
      exact ⟨pending, rfl, hrequest, hsource⟩
    · cases h'
  | _ => cases h'

/-- A worker whose check has found its token current, and which has done no work
since, has observed no stop: a stop before the check would have made the token stale. -/
theorem unobserved_of_checked (earlier : List ServiceEvent) {view : View}
    {last : List ServiceEvent} {e : ServiceEvent}
    (hrun : Run (Crew.Step service.loop) {} (pre ++ post) s)
    (hpre : pre = earlier ++ .work w view .loadToken :: last) (hcurrent : view.current = true)
    (hlast : Crew.worksOf w last = [])
    (hbusy : ∀ e ∈ last, e.worker? = some w → ∃ view event, e = .work w view event)
    (he : e ∈ pre) : ¬ ObservesStop w e := by
  intro hobserves
  -- a stop before the check would have made the token stale
  have hearlier : e ∉ earlier := by
    intro hmem
    have hstops : Crew.Stops e := by
      rcases hobserves with rfl | ⟨view, hview, rfl | rfl⟩
      · trivial
      · exact hview
      · exact hview
    rw [hpre, List.append_assoc] at hrun
    have hstale := (Crew.stopped_stale hrun ⟨e, hmem, hstops⟩).2
    rw [hcurrent] at hstale
    cases hstale
  have hcheck : e ≠ .work w view .loadToken := by
    rintro rfl
    rcases hobserves with h | ⟨view, -, h | h⟩ <;> cases h
  -- and after it the worker has done nothing
  have hafter : e ∉ last := by
    intro hmem
    have hworker : e.worker? = some w := by
      rcases hobserves with rfl | ⟨view, -, rfl | rfl⟩ <;> rfl
    obtain ⟨view, event, rfl⟩ := hbusy e hmem hworker
    have hwork := Crew.mem_worksOf.mpr hmem
    rw [hlast] at hwork
    cases hwork
  rw [hpre] at he
  rcases List.mem_append.mp he with he | he
  · exact hearlier he
  · rcases List.mem_cons.mp he with he | he
    · exact hcheck he
    · exact hafter he

/-- Every callback is for a fetch that returned the candidate, checked while the
request was still the latest. -/
theorem delivered_of_run {view : View} {request : OnlineRequest} {candidate : Text}
    {source : CandidateSource}
    (hrun : Run (Crew.Step service.loop) {}
      (pre ++ .work w view (.callback request candidate source) :: post) s) :
    source = w.source ∧ Delivered service w request candidate pre := by
  obtain ⟨earlier, pending, between, after, job, rfl, hbegan, -, hreact⟩ :=
    Crew.work_chronicle hrun
  obtain ⟨heligible, htrace⟩ := jobTrace_of_began hbegan
  obtain ⟨p, rfl, rfl, hsource⟩ := react_callback hreact
  obtain ⟨rfl, polls, v₁, v₂, v₃, hpolls, hcurrent, hworks⟩ := htrace
  obtain ⟨fetching, closing, last, rfl, hfetching, hclosing, hlast⟩ := worksOf_checked hworks
  -- the check found the token current, so the slot was left alone up to it
  have hstill : Still (fetching ++ .work w v₁ (.returned (some candidate)) :: closing) :=
    hbegan.current _ v₃ .loadToken last (by simp) hcurrent
  have hparts := hstill.of_append
  have hbusy : ∀ events ∈ [fetching, closing, last], ∀ e ∈ events, e.worker? = some w →
      ∃ view event, e = .work w view event := by
    intro events hevents e he
    refine hbegan.busy e ?_
    simp only [List.mem_cons, List.not_mem_nil, or_false] at hevents
    rcases hevents with rfl | rfl | rfl <;> simp [he]
  refine ⟨hsource, earlier ++ .change (.submit p) :: between, p, fetching, closing, last, v₁, v₃,
    by simp, rfl, ⟨earlier, between, rfl, hbegan.still, hbegan.first, hbegan.settled, heligible⟩,
    hparts.1, fun e he => hparts.2 e (List.mem_cons_of_mem _ he), ?_, ?_⟩
  · intro events hevents
    refine quiet_of_works (hbusy events hevents) fun work hwork request candidate source => ?_
    simp only [List.mem_cons, List.not_mem_nil, or_false] at hevents
    rcases hevents with rfl | rfl | rfl
    · rw [hfetching] at hwork
      rw [hpolls work hwork]
      exact fun h => by cases h
    · rw [hclosing, List.mem_singleton] at hwork
      rw [hwork]
      exact fun h => by cases h
    · rw [hlast] at hwork
      cases hwork
  · intro e he
    exact unobserved_of_checked (earlier ++ .change (.submit p) :: (between ++ .start w p ::
      (fetching ++ .work w v₁ (.returned (some candidate)) :: closing))) hrun (by simp) hcurrent
      hlast (hbusy last (by simp)) he

/-- **The worker protocol**, in every run of a service: whatever is fetched has been
submitted, was left alone for the debounce and is eligible, and is fetched for the
first time by that worker; a worker calls back, once, only with what that very fetch
returned, for a request that was still the latest at the check behind the fetch, and
never after it has observed a stop. -/
theorem worker_protocol {ls : List ServiceEvent} (hrun : Run (Crew.Step service.loop) {} ls s) :
    (∀ pre w pending post, ls = pre ++ .start w pending :: post →
      Fetched service w pending pre) ∧
    ∀ pre w view request candidate source post,
      ls = pre ++ .work w view (.callback request candidate source) :: post →
      source = w.source ∧ Delivered service w request candidate pre := by
  constructor
  · rintro pre w pending post rfl
    exact fetched_of_run hrun
  · rintro pre w view request candidate source post rfl
    exact delivered_of_run hrun

end Protocol

/-- The service of the tests: half a second, and no AI provider. -/
def cloudService : OnlineCandidateService := ⟨500, false⟩

/-- A request for the cloud, of the controller's generation `generation`. -/
def cloudRequest (generation : Nat) (text : Text) : PendingRequest :=
  ⟨⟨generation, { queryText := text, cloudEligible := true }⟩, [], none⟩

/-- A letter, the rest of the word 200 ms later, and the answer for the word. -/
def typedWord : List ServiceEvent :=
  [.change (.submit (cloudRequest 10 ['n'])), .wake .cloud, .elapse 200,
    .change (.submit (cloudRequest 11 ['n', 'i'])), .wake .cloud, .elapse 500,
    .start .cloud (cloudRequest 11 ['n', 'i']), .work .cloud ⟨false, true⟩ .poll,
    .work .cloud ⟨false, true⟩ (.returned (some ['你'])),
    .work .cloud ⟨false, true⟩ .loadStopping, .work .cloud ⟨false, true⟩ .loadToken]

/-- The letter is never fetched; the word is fetched and delivered. -/
theorem worker_protocol_typedWord :
    ∃ s, Run (Crew.Step cloudService.loop) {} (typedWord ++
        [.work .cloud ⟨false, true⟩ (.callback (cloudRequest 11 ['n', 'i']).request ['你']
          .cloudSuggestion)]) s ∧
      Delivered cloudService .cloud (cloudRequest 11 ['n', 'i']).request ['你'] typedWord := by
  obtain ⟨s, hrun⟩ : ∃ s, Run (Crew.Step cloudService.loop) {} (typedWord ++
      [.work .cloud ⟨false, true⟩ (.callback (cloudRequest 11 ['n', 'i']).request ['你']
        .cloudSuggestion)]) s :=
    ⟨_, .cons (.change _ rfl ⟨rfl, rfl⟩) (.cons (.wake rfl (.inl rfl) rfl (by decide))
      (.cons (.elapse _ rfl) (.cons (.change _ rfl ⟨rfl, rfl⟩)
      (.cons (.wake rfl (.inr ⟨_, rfl⟩) rfl (by decide)) (.cons (.elapse _ rfl)
      (.cons (.start rfl ⟨rfl, rfl, _, rfl, by decide⟩ rfl rfl)
      (.cons (.work rfl rfl rfl) (.cons (.work rfl rfl rfl) (.cons (.work rfl rfl rfl)
      (.cons (.work rfl rfl rfl) (.single (.work rfl rfl rfl))))))))))))⟩
  exact ⟨s, hrun, ((worker_protocol hrun).2 typedWord _ _ _ _ _ [] rfl).2⟩

end MsimeLinux
