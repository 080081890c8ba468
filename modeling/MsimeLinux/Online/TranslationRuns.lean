import Mathlib.Data.List.GetD
import Mathlib.Data.List.Perm.Basic
import MsimeLinux.Online.TranslationService

/-!
# What the translation worker publishes (`TranslationProvider.cpp`)

The worker goes through the candidates of its request one after the other, with a test
before each lookup and each call of the callback. What it publishes is all it has found so
far.

- `TranslationTrace`: how the job follows from what the worker went through.
- `publications_monotone`: publications of a request extend each other, in the order of the
  candidates, and end with all that was found.
-/

namespace MsimeLinux

open Lib Debounce

namespace TranslationRuns

/-! ## What the worker went through -/

/-- A work: what the worker would find, and what it did. -/
abbrev Work := View × TranslationEvent

/-- The lookups. -/
def looksOf (works : List Work) : List (LookupCall × LookupAnswers) :=
  works.filterMap fun work =>
    match work.2 with
    | .lookup call answers => some (call, answers)
    | _ => none

/-- The calls of the callback. -/
def publishedOf (works : List Work) : List (Nat × List (Bytes × Bytes)) :=
  works.filterMap fun work =>
    match work.2 with
    | .publish generation glosses _ => some (generation, glosses)
    | _ => none

/-- The gloss of a lookup. -/
def glossOf (provider : TranslationLookup) (look : LookupCall × LookupAnswers) :
    Option (Bytes × Bytes) :=
  match provider.lookup look.1 look.2 with
  | .ok (some gloss) => some (look.1.candidate, gloss)
  | _ => none

/-- All the glosses found. -/
def foundOf (provider : TranslationLookup) (works : List Work) : List (Bytes × Bytes) :=
  (looksOf works).filterMap (glossOf provider)

/-- The call for one candidate. -/
def callAt (request : TranslationRequest) (index : Nat) : LookupCall :=
  ({ request := request, index := index } : TranslationJob).call

/-- How many candidates have been looked up. -/
def lookedUp (job : TranslationJob) : Nat :=
  match job.stage with
  | .looked | .publishing => job.index + 1
  | _ => job.index

/-- A test that finds nothing cancelled. -/
def Passes (work : Work) : Prop :=
  ∃ view, work = (view, .check) ∧ TranslationJob.goesOn view = true

section

variable {provider : TranslationLookup} {request : TranslationRequest} {works : List Work}
  {job job' : TranslationJob} {work : Work}

@[simp] theorem looksOf_check (view : View) : looksOf (works ++ [(view, .check)]) =
    looksOf works := by
  simp [looksOf]

@[simp] theorem looksOf_lookup (view : View) (call : LookupCall) (answers : LookupAnswers) :
    looksOf (works ++ [(view, .lookup call answers)]) = looksOf works ++ [(call, answers)] := by
  simp [looksOf]

@[simp] theorem looksOf_publish (view : View) (generation : Nat) (glosses : List (Bytes × Bytes))
    (threw : Bool) : looksOf (works ++ [(view, .publish generation glosses threw)]) =
      looksOf works := by
  simp [looksOf]

@[simp] theorem publishedOf_check (view : View) : publishedOf (works ++ [(view, .check)]) =
    publishedOf works := by
  simp [publishedOf]

@[simp] theorem publishedOf_lookup (view : View) (call : LookupCall) (answers : LookupAnswers) :
    publishedOf (works ++ [(view, .lookup call answers)]) = publishedOf works := by
  simp [publishedOf]

@[simp] theorem publishedOf_publish (view : View) (generation : Nat)
    (glosses : List (Bytes × Bytes)) (threw : Bool) :
    publishedOf (works ++ [(view, .publish generation glosses threw)]) =
      publishedOf works ++ [(generation, glosses)] := by
  simp [publishedOf]

/-! ## The job -/

/-- **The trace of a job**: which candidates have been looked up, that the results are what
was found, what has been published of it, and which test came last. -/
structure TranslationTrace (provider : TranslationLookup) (request : TranslationRequest)
    (works : List Work) (job : TranslationJob) : Prop where
  taken : job.request = request
  looks : (looksOf works).map Prod.fst = (List.range (lookedUp job)).map (callAt request)
  within : lookedUp job ≤ request.candidates.length
  room : job.stage = .looking → job.index < request.candidates.length
  results : job.results = foundOf provider works
  bound : job.published ≤ job.results.length
  parts : ∀ p ∈ publishedOf works, p.1 = request.generation ∧
    p.2 <+: job.results.take job.published
  growing : (publishedOf works).Pairwise fun p q => p.2 <+: q.2
  last : 0 < job.published →
    (publishedOf works).getLast? = some (request.generation, job.results.take job.published)
  tested : job.stage = .looking ∨ job.stage = .publishing ∨ job.stage = .lastPublishing →
    ∃ before test, works = before ++ [test] ∧ Passes test
  exhausted : job.stage = .closing ∨ job.stage = .lastPublishing →
    lookedUp job = request.candidates.length ∨
      ∃ view, (view, TranslationEvent.check) ∈ works ∧ TranslationJob.goesOn view = false

theorem TranslationTrace.initial :
    TranslationTrace provider request [] { request := request } where
  taken := rfl
  looks := rfl
  within := Nat.zero_le _
  room := nofun
  results := rfl
  bound := Nat.le_refl _
  parts := nofun
  growing := .nil
  last := nofun
  tested := by rintro (h | h | h) <;> cases h
  exhausted := by rintro (h | h) <;> cases h

/-- A test moves the job to another stage. -/
theorem TranslationTrace.check (h : TranslationTrace provider request works job) (view : View)
    (index : Nat) (stage : TranslationStage)
    (hlooked : lookedUp { job with index := index, stage := stage } = lookedUp job)
    (hroom : stage = .looking → index < request.candidates.length)
    (htested : stage = .looking ∨ stage = .publishing ∨ stage = .lastPublishing →
      TranslationJob.goesOn view = true)
    (hexhausted : stage = .closing ∨ stage = .lastPublishing →
      lookedUp job = request.candidates.length ∨ TranslationJob.goesOn view = false ∨
        job.stage = .closing) :
    TranslationTrace provider request (works ++ [(view, .check)])
      { job with index := index, stage := stage } where
  taken := h.taken
  looks := by
    rw [looksOf_check, hlooked]
    exact h.looks
  within := hlooked ▸ h.within
  room := hroom
  results := by
    rw [foundOf, looksOf_check]
    exact h.results
  bound := h.bound
  parts := by
    rw [publishedOf_check]
    exact h.parts
  growing := by
    rw [publishedOf_check]
    exact h.growing
  last := by
    rw [publishedOf_check]
    exact h.last
  tested hstage := ⟨works, (view, .check), rfl, view, rfl, htested hstage⟩
  exhausted hstage := by
    rw [hlooked]
    obtain hall | hstops | hclosing := hexhausted hstage
    · exact .inl hall
    · exact .inr ⟨view, List.mem_append_right _ List.mem_cons_self, hstops⟩
    · exact (h.exhausted (.inl hclosing)).imp_right fun ⟨view', hmem, hstops⟩ =>
        ⟨view', List.mem_append_left _ hmem, hstops⟩

/-- A lookup adds its gloss, if it has found one. -/
theorem TranslationTrace.lookup (h : TranslationTrace provider request works job) (view : View)
    (answers : LookupAnswers) (hstage : job.stage = .looking) (gloss : Option Bytes)
    (hgloss : provider.lookup job.call answers = .ok gloss) :
    TranslationTrace provider request (works ++ [(view, .lookup job.call answers)])
      { job with
        results := job.results ++ (gloss.map (job.call.candidate, ·)).toList
        stage := .looked } := by
  have hindex : lookedUp job = job.index := by
    rw [lookedUp, hstage]
  -- the call is that of the next candidate
  have hcall : job.call = callAt request job.index := by
    rw [callAt, ← h.taken]
    rfl
  have hfound : foundOf provider (works ++ [(view, .lookup job.call answers)]) =
      foundOf provider works ++ (gloss.map (job.call.candidate, ·)).toList := by
    rw [foundOf, looksOf_lookup, List.filterMap_append, foundOf]
    cases gloss <;> simp [glossOf, hgloss]
  -- what was published stays: the gloss is added behind it
  have htake : (job.results ++ (gloss.map (job.call.candidate, ·)).toList).take job.published =
      job.results.take job.published := List.take_append_of_le_length h.bound
  refine ⟨h.taken, ?_, ?_, nofun, ?_, ?_, ?_, ?_, ?_, ?_, ?_⟩
  · rw [looksOf_lookup, List.map_append, h.looks, hindex]
    show _ = (List.range (job.index + 1)).map (callAt request)
    rw [List.range_succ, List.map_append, List.map_singleton, List.map_singleton, hcall]
  · exact Nat.succ_le_of_lt (h.room hstage)
  · rw [hfound, ← h.results]
  · rw [List.length_append]
    exact Nat.le_add_right_of_le h.bound
  · rw [publishedOf_lookup, htake]
    exact h.parts
  · rw [publishedOf_lookup]
    exact h.growing
  · rw [publishedOf_lookup, htake]
    exact h.last
  · rintro (hnew | hnew | hnew) <;> cases hnew
  · rintro (hnew | hnew) <;> cases hnew

/-- A publication of all there is. -/
theorem TranslationTrace.publish (h : TranslationTrace provider request works job) (view : View)
    (threw : Bool) (hstage : job.stage = .publishing) :
    TranslationTrace provider request
      (works ++ [(view, .publish job.request.generation job.results threw)])
      job.publish.advance := by
  have hlooked : lookedUp job.publish.advance = lookedUp job := by
    rw [lookedUp, lookedUp, hstage]
    rfl
  have hall : ∀ p ∈ publishedOf works, p.2 <+: job.results := fun p hp =>
    (h.parts p hp).2.trans (List.take_prefix _ _)
  refine ⟨h.taken, ?_, hlooked ▸ h.within, nofun, ?_, Nat.le_refl _, ?_, ?_, fun _ => ?_, ?_, ?_⟩
  · rw [looksOf_publish, hlooked]
    exact h.looks
  · rw [foundOf, looksOf_publish]
    exact h.results
  · rw [publishedOf_publish]
    intro p hp
    show _ ∧ p.2 <+: job.results.take job.results.length
    rw [List.take_length]
    obtain hp | hp := List.mem_append.mp hp
    · exact ⟨(h.parts p hp).1, hall p hp⟩
    · rw [List.mem_singleton.mp hp]
      exact ⟨congrArg TranslationRequest.generation h.taken, List.prefix_refl _⟩
  · rw [publishedOf_publish, List.pairwise_append]
    refine ⟨h.growing, List.pairwise_singleton _ _, fun p hp q hq => ?_⟩
    rw [List.mem_singleton.mp hq]
    exact hall p hp
  · rw [publishedOf_publish, List.getLast?_concat, ← h.taken]
    show _ = some (job.request.generation, job.results.take job.results.length)
    rw [List.take_length]
  · rintro (hnew | hnew | hnew) <;> cases hnew
  · rintro (hnew | hnew) <;> cases hnew

/-- **The step lemma** of `TranslationTrace`. -/
theorem TranslationTrace.step (h : TranslationTrace provider request works job)
    (hs : Crew.Reacts provider.loop () job work job') :
    TranslationTrace provider request (works ++ [work]) job' := by
  obtain ⟨view, event⟩ := work
  have hs' : job.react provider view event = some (.next job') := hs
  cases event with
  | check =>
    simp only [TranslationJob.react] at hs'
    cases hstage : job.stage with
    | next =>
      -- at the top of the loop: another candidate, or the end of it
      rw [hstage] at hs'
      obtain rfl := Debounce.Outcome.next.inj (Option.some.inj hs')
      have hlooked : lookedUp job = job.index := by rw [lookedUp, hstage]
      have hindex := h.within
      rw [hlooked] at hindex
      by_cases hgoes : job.index < job.request.candidates.length ∧ TranslationJob.goesOn view
      · rw [if_pos hgoes]
        refine h.check view job.index .looking hlooked.symm (fun _ => h.taken ▸ hgoes.1)
          (fun _ => hgoes.2) ?_
        rintro (hnew | hnew) <;> cases hnew
      · rw [if_neg hgoes]
        refine h.check view job.index .closing hlooked.symm (fun hnew => by cases hnew) ?_
          fun _ => ?_
        · rintro (hnew | hnew | hnew) <;> cases hnew
        · rw [not_and_or, h.taken, Bool.not_eq_true] at hgoes
          obtain hlast | hstops := hgoes
          · exact .inl (by omega)
          · exact .inr (.inl hstops)
    | looked =>
      -- after a candidate: a batch is published, or the loop goes on
      rw [hstage] at hs'
      obtain rfl := Debounce.Outcome.next.inj (Option.some.inj hs')
      have hlooked : lookedUp job = job.index + 1 := by rw [lookedUp, hstage]
      split
      · next hbatch =>
        refine h.check view job.index .publishing hlooked.symm (fun hnew => by cases hnew)
          (fun _ => hbatch.2) ?_
        rintro (hnew | hnew) <;> cases hnew
      · refine h.check view (job.index + 1) .next hlooked.symm (fun hnew => by cases hnew) ?_ ?_
        · rintro (hnew | hnew | hnew) <;> cases hnew
        · rintro (hnew | hnew) <;> cases hnew
    | closing =>
      -- after the loop: what is left over is published
      rw [hstage] at hs'
      have hlooked : lookedUp job = job.index := by rw [lookedUp, hstage]
      have hs'' := Option.some.inj hs'
      split at hs''
      · next hrest =>
        obtain rfl := Debounce.Outcome.next.inj hs''
        exact h.check view job.index .lastPublishing hlooked.symm (fun hnew => by cases hnew)
          (fun _ => hrest.2) fun _ => .inr (.inr hstage)
      · -- the transport threw, and the process is gone
        cases hs''
    | looking => rw [hstage] at hs'; cases hs'
    | publishing => rw [hstage] at hs'; cases hs'
    | lastPublishing => rw [hstage] at hs'; cases hs'
  | lookup call answers =>
    simp only [TranslationJob.react] at hs'
    split at hs'
    · next hcalled =>
      obtain ⟨hstage, rfl⟩ := hcalled
      split at hs'
      · cases hs'
      · next hnone =>
        -- a candidate without a translation adds nothing
        obtain rfl := Debounce.Outcome.next.inj (Option.some.inj hs')
        have hlookup := h.lookup view answers hstage none hnone
        rwa [Option.map_none, Option.toList_none, List.append_nil] at hlookup
      · next gloss hgloss =>
        obtain rfl := Debounce.Outcome.next.inj (Option.some.inj hs')
        exact h.lookup view answers hstage (some gloss) hgloss
    · cases hs'
  | publish generation glosses threw =>
    simp only [TranslationJob.react] at hs'
    split at hs'
    · next hcalled =>
      obtain ⟨rfl, rfl⟩ := hcalled
      cases hstage : job.stage with
      | publishing =>
        rw [hstage] at hs'
        obtain rfl := Debounce.Outcome.next.inj (Option.some.inj hs')
        exact h.publish view threw hstage
      | _ => rw [hstage] at hs'; cases hs'
    · cases hs'

theorem TranslationTrace.run (hrun : Run (Crew.Reacts provider.loop ()) { request := request }
    works job) : TranslationTrace provider request works job :=
  hrun.history (I := TranslationTrace provider request) (fun _ _ _ _ h hs => h.step hs) .initial

/-! ## What has been published -/

/-- The calls of a job, for its first candidates. -/
theorem looks_candidates {n : Nat} (hn : n ≤ request.candidates.length)
    (h : (looksOf works).map Prod.fst = (List.range n).map (callAt request)) :
    (looksOf works).map (fun look => look.1.candidate) = request.candidates.take n := by
  have hmap : (looksOf works).map (fun look => look.1.candidate) =
      ((looksOf works).map Prod.fst).map LookupCall.candidate := by
    rw [List.map_map]
    rfl
  rw [hmap, h, List.map_map]
  refine List.ext_getElem (by simp [hn]) fun i hi hi' => ?_
  rw [List.getElem_map, List.getElem_range, List.getElem_take]
  have hlt : i < request.candidates.length := by
    rw [List.length_map, List.length_range] at hi
    omega
  exact List.getD_eq_getElem _ _ hlt

/-- Glosses are found in the order of the candidates. -/
theorem foundOf_sublist {n : Nat} (hn : n ≤ request.candidates.length)
    (h : (looksOf works).map Prod.fst = (List.range n).map (callAt request)) :
    ((foundOf provider works).map Prod.fst).Sublist request.candidates := by
  have hsub : ∀ looks : List (LookupCall × LookupAnswers),
      ((looks.filterMap (glossOf provider)).map Prod.fst).Sublist
        (looks.map fun look => look.1.candidate) := by
    intro looks
    induction looks with
    | nil => exact List.Sublist.refl _
    | cons look looks ih =>
      rw [List.filterMap_cons, List.map_cons]
      cases hgloss : glossOf provider look with
      | none => exact ih.cons _
      | some gloss =>
        have hcandidate : gloss.1 = look.1.candidate := by
          unfold glossOf at hgloss
          split at hgloss
          · rw [← Option.some.inj hgloss]
          · cases hgloss
        rw [List.map_cons, hcandidate]
        exact ih.cons_cons _
  have htake := hsub (looksOf works)
  rw [looks_candidates hn h] at htake
  exact htake.trans (List.take_sublist _ _)

/-- Only the first candidates are looked up on the remote backend. -/
theorem remote_le {n : Nat} (h : (looksOf works).map Prod.fst =
    (List.range n).map (callAt request)) :
    ((looksOf works).filter fun look => look.1.backend ≠ .local).length ≤
      maximumRemoteCandidates := by
  have hcount : ((looksOf works).filter fun look => look.1.backend ≠ .local).length =
      ((List.range n).filter fun i => (callAt request i).backend ≠ .local).length := by
    have hfilter := congrArg (fun l => (l.filter fun call : LookupCall =>
      decide (call.backend ≠ .local)).length) h
    simpa [List.filter_map, Function.comp_def] using hfilter
  have hsubset : ((List.range n).filter fun i => (callAt request i).backend ≠ .local) ⊆
      List.range maximumRemoteCandidates := by
    intro i hi
    have hremote := (List.mem_filter.mp hi).2
    rw [List.mem_range]
    by_contra hlarge
    rw [callAt, TranslationJob.call] at hremote
    simp [hlarge] at hremote
  rw [hcount, ← List.length_range (n := maximumRemoteCandidates)]
  exact (List.subperm_of_subset (List.nodup_range.filter _) hsubset).length_le

/-- What holds of the works of a request, also when its job is over. -/
structure Published (provider : TranslationLookup) (request : TranslationRequest)
    (works : List Work) : Prop where
  parts : ∀ p ∈ publishedOf works, p.1 = request.generation ∧ p.2 <+: foundOf provider works
  growing : (publishedOf works).Pairwise fun p q => p.2 <+: q.2
  looks : ∃ n ≤ request.candidates.length,
    (looksOf works).map Prod.fst = (List.range n).map (callAt request)

theorem TranslationTrace.published (h : TranslationTrace provider request works job) :
    Published provider request works where
  parts p hp := by
    obtain ⟨hgeneration, hprefix⟩ := h.parts p hp
    exact ⟨hgeneration, h.results ▸ hprefix.trans (List.take_prefix _ _)⟩
  growing := h.growing
  looks := ⟨lookedUp job, h.within, h.looks⟩

/-- The last publication is of all there is. -/
theorem TranslationTrace.lastPublished (h : TranslationTrace provider request works job)
    (view : View) (threw : Bool) : Published provider request
      (works ++ [(view, .publish job.request.generation job.results threw)]) where
  parts := by
    rw [publishedOf_publish, foundOf, looksOf_publish]
    intro p hp
    obtain hp | hp := List.mem_append.mp hp
    · exact h.published.parts p hp
    · rw [List.mem_singleton.mp hp]
      exact ⟨congrArg TranslationRequest.generation h.taken, h.results ▸ List.prefix_refl _⟩
  growing := by
    rw [publishedOf_publish, List.pairwise_append]
    refine ⟨h.growing, List.pairwise_singleton _ _, fun p hp q hq => ?_⟩
    rw [List.mem_singleton.mp hq]
    exact (h.parts p hp).2.trans (List.take_prefix _ _)
  looks := by
    rw [looksOf_publish]
    exact h.published.looks

/-- The last work of a job. -/
theorem TranslationTrace.ended (h : TranslationTrace provider request works job) {view : View}
    {event : TranslationEvent} {o : Debounce.Outcome TranslationJob}
    (hlast : job.react provider view event = some o) (hover : o = .finished ∨ o = .escaped) :
    Published provider request (works ++ [(view, event)]) := by
  cases event with
  | check =>
    refine ⟨?_, ?_, ?_⟩
    · rw [publishedOf_check, foundOf, looksOf_check]
      exact h.published.parts
    · rw [publishedOf_check]
      exact h.growing
    · rw [looksOf_check]
      exact h.published.looks
  | lookup call answers =>
    simp only [TranslationJob.react] at hlast
    split at hlast
    · next hcalled =>
      obtain ⟨hstage, rfl⟩ := hcalled
      cases hlookup : provider.lookup job.call answers with
      | ok gloss =>
        -- a lookup that returns does not end the job
        rw [hlookup] at hlast
        exfalso
        cases gloss <;> obtain rfl := Option.some.inj hlast <;> obtain hover | hover := hover <;>
          cases hover
      | error =>
        -- the lookup threw: it has found nothing
        have hnothing : foundOf provider (works ++ [(view, .lookup job.call answers)]) =
            foundOf provider works := by
          simp [foundOf, glossOf, hlookup]
        refine ⟨?_, ?_, job.index + 1, Nat.succ_le_of_lt (h.room hstage), ?_⟩
        · rw [publishedOf_lookup, hnothing]
          exact h.published.parts
        · rw [publishedOf_lookup]
          exact h.growing
        · have hcall : job.call = callAt request job.index := by
            rw [callAt, ← h.taken]
            rfl
          have hlooks := h.looks
          rw [lookedUp, hstage] at hlooks
          rw [looksOf_lookup, List.map_append, hlooks, List.range_succ, List.map_append,
            List.map_singleton, List.map_singleton, hcall]
    · cases hlast
  | publish generation glosses threw =>
    simp only [TranslationJob.react] at hlast
    split at hlast
    · next hcalled =>
      obtain ⟨rfl, rfl⟩ := hcalled
      exact h.lastPublished view threw
    · cases hlast

/-- A job that ends without having been cancelled has looked up all candidates and published
all that was found. -/
theorem TranslationTrace.finished (h : TranslationTrace provider request works job) {view : View}
    {event : TranslationEvent} (hlast : job.react provider view event = some .finished)
    (hgoes : ∀ work ∈ works ++ [(view, event)], TranslationJob.goesOn work.1 = true) :
    (looksOf (works ++ [(view, event)])).map (fun look => look.1.candidate) =
      request.candidates ∧
    (foundOf provider (works ++ [(view, event)]) ≠ [] →
      (publishedOf (works ++ [(view, event)])).getLast? =
        some (request.generation, foundOf provider (works ++ [(view, event)]))) := by
  -- past the loop every candidate has been taken
  have hall : job.stage = .closing ∨ job.stage = .lastPublishing →
      (looksOf works).map (fun look => look.1.candidate) = request.candidates := by
    intro hstage
    rw [looks_candidates h.within h.looks]
    obtain hlooked | ⟨view', hmem, hstops⟩ := h.exhausted hstage
    · rw [hlooked, List.take_length]
    · rw [hgoes _ (List.mem_append_left _ hmem)] at hstops
      cases hstops
  cases event with
  | check =>
    simp only [TranslationJob.react] at hlast
    cases hstage : job.stage with
    | closing =>
      rw [hstage] at hlast
      have hlast' := Option.some.inj hlast
      split at hlast'
      · cases hlast'
      · next hrest =>
        -- nothing is left over: the last publication had everything
        have hview : TranslationJob.goesOn view = true :=
          hgoes _ (List.mem_append_right _ List.mem_cons_self)
        have hpublished : job.published = job.results.length :=
          Nat.le_antisymm h.bound (Nat.le_of_not_lt fun hlt => hrest ⟨hlt, hview⟩)
        rw [looksOf_check, publishedOf_check, foundOf, looksOf_check]
        refine ⟨hall (.inl hstage), fun hfound => ?_⟩
        have hsome : 0 < job.results.length := by
          rw [h.results]
          exact List.length_pos_iff.mpr hfound
        rw [h.last (by omega), hpublished, List.take_length, h.results]
        rfl
    | next => rw [hstage] at hlast; cases hlast
    | looked => rw [hstage] at hlast; cases hlast
    | _ => rw [hstage] at hlast; cases hlast
  | lookup call answers =>
    simp only [TranslationJob.react] at hlast
    split at hlast
    · split at hlast <;> cases hlast
    · cases hlast
  | publish generation glosses threw =>
    simp only [TranslationJob.react] at hlast
    split at hlast
    · next hcalled =>
      obtain ⟨rfl, rfl⟩ := hcalled
      cases hstage : job.stage with
      | lastPublishing =>
        -- the last publication is this one
        rw [looksOf_publish, publishedOf_publish, foundOf, looksOf_publish, List.getLast?_concat]
        refine ⟨hall (.inr hstage), fun _ => ?_⟩
        rw [h.taken, h.results]
        rfl
      | _ => rw [hstage] at hlast; cases hlast
    · cases hlast

end

/-! ## In every run -/

section

variable {provider : TranslationLookup} {s : Crew Unit TranslationRequest TranslationJob}
  {pre after : List TranslationServiceEvent} {request : TranslationRequest}

/-- Behind a start, for the events up to the next one. -/
theorem since_start
    (hrun : Run (Crew.Step provider.loop) {} (pre ++ .start () request :: after) s) :
    ∃ u, Run (Crew.Step provider.loop) u after s ∧
      (u.observed () = u.slot.token ∧ u.slot.stopping = false) ∧
      ∀ events t, Run (Crew.Step provider.loop) u events t → Idle () events →
        Crew.Since provider.loop () { request := request } events t := by
  obtain ⟨t, hpre, hrest⟩ := hrun.split
  cases hrest with
  | cons hs hafter =>
    have hsound := (Crew.Sound.run hpre).step hs
    cases hs with
    | start _ hsettled _ hstart =>
      obtain rfl := Option.some.inj hstart
      refine ⟨_, hafter, ⟨hsettled.current, hsettled.running⟩, fun events t' hevents hidle' => ?_⟩
      exact Crew.Since.run hsound (Crew.moved_phase_self _ _ _) hevents hidle'

/-- The works of a request, whether its job goes on or is over. -/
theorem published_of_stands {start : TranslationJob} {works : List Work}
    (hstart : start = { request := request })
    (h : Crew.Stands provider.loop () start works s) : Published provider request works := by
  subst hstart
  cases h with
  | busy job _ hworks => exact (TranslationTrace.run hworks).published
  | past before last job o _ hsplit hworks hlast hover =>
    rw [hsplit]
    exact (TranslationTrace.run hworks).ended hlast (hover.imp_right And.left)

/-- A lookup or a call of the callback. -/
def Acts : TranslationEvent → Prop
  | .check => False
  | .lookup .. => True
  | .publish .. => True

/-- Only a job that has just passed a test acts. -/
theorem acts_tested {works : List Work} {job : TranslationJob} {view : View}
    {event : TranslationEvent} (h : TranslationTrace provider request works job)
    (hacts : Acts event) (hreact : (job.react provider view event).isSome) :
    ∃ before test, works = before ++ [test] ∧ Passes test := by
  refine h.tested ?_
  cases event with
  | check => exact hacts.elim
  | lookup call answers =>
    simp only [TranslationJob.react] at hreact
    split at hreact
    · next hcalled => exact .inl hcalled.1
    · cases hreact
  | publish generation glosses threw =>
    simp only [TranslationJob.react] at hreact
    split at hreact
    · cases hstage : job.stage with
      | publishing => exact .inr (.inl rfl)
      | lastPublishing => exact .inr (.inr rfl)
      | _ => rw [hstage] at hreact; cases hreact
    · cases hreact

/-- **A test comes before**, and finds that nothing has changed since the start. -/
theorem acts_current (hrun : Run (Crew.Step provider.loop) {} (pre ++ .start () request :: after) s)
    (hidle : Idle () after) {past rest : List TranslationServiceEvent} {view : View}
    {event : TranslationEvent} (hafter : after = past ++ .work () view event :: rest)
    (hacts : Acts event) :
    ∃ past' test between, past = past' ++ .work () test .check :: between ∧
      Crew.worksOf () between = [] ∧ test = ⟨false, true⟩ ∧ Still past' := by
  obtain ⟨u, hu, -, hsince⟩ := since_start hrun
  subst hafter
  have hpastIdle : Idle () past := fun r hr => hidle r (List.mem_append_left _ hr)
  obtain ⟨t, hpast, hrest⟩ := hu.split
  cases hrest with
  | cons hs _ =>
    cases hs with
    | @work _ job event o _ hworking hreact =>
      have hworks : Run (Crew.Reacts provider.loop ()) { request := request }
          (Crew.worksOf () past) job := by
        cases (hsince past t hpast hpastIdle).stands with
        | busy job' hphase hworks =>
          obtain rfl := Phase.working.inj (hworking.symm.trans hphase)
          exact hworks
        | past _ _ _ _ hfree => exact absurd hworking (hfree job)
      obtain ⟨before, test, hsplit, testView, rfl, hgoes⟩ :=
        acts_tested (TranslationTrace.run hworks) hacts
          (show (job.react provider _ event).isSome by
            rw [show job.react provider _ event = some o from hreact]; rfl)
      obtain ⟨past', between, rfl, -, hbetween⟩ := Crew.worksOf_split hsplit
      obtain ⟨hstopping, hcurrent⟩ : testView.stopping = false ∧ testView.current = true := by
        simpa [TranslationJob.goesOn] using hgoes
      refine ⟨past', testView, between, rfl, hbetween, ?_, ?_⟩
      · cases testView
        cases hstopping
        cases hcurrent
        rfl
      · -- the state the test looked at
        obtain ⟨v, hv, hrest'⟩ := hpast.split
        have hidle' : Idle () past' := fun r hr => hpastIdle r (List.mem_append_left _ hr)
        cases hrest' with
        | cons hs' _ =>
          cases hs' with
          | work _ hworking' _ =>
            exact (hsince past' v hv hidle').current ⟨_, hworking'⟩ (of_decide_eq_true hcurrent)

/-- **Publications are monotone.** Take any run up to anywhere between one start of the worker
and the next. The request is the last that was submitted before. What is published carries its
generation, extends what was published before it, and is a part of what has been found, which
is in the order of the candidates. Every lookup and every publication comes behind a test that
finds nothing changed since the start. At most twelve candidates are looked up remotely. And
where nothing changes until the job is over, all candidates have been looked up, and the last
publication is of all that was found. -/
theorem publications_monotone (provider : TranslationLookup)
    (s : Crew Unit TranslationRequest TranslationJob) (pre after : List TranslationServiceEvent)
    (request : TranslationRequest)
    (hrun : Run (Crew.Step provider.loop) {} (pre ++ .start () request :: after) s)
    (hidle : Idle () after) :
    let works := Crew.worksOf () after
    (∃ before between, pre = before ++ .change (.submit request) :: between ∧ Still between) ∧
    (∀ p ∈ publishedOf works, p.1 = request.generation ∧ p.2 <+: foundOf provider works) ∧
    (publishedOf works).Pairwise (fun p q => p.2 <+: q.2) ∧
    ((foundOf provider works).map Prod.fst).Sublist request.candidates ∧
    (Still after → s.terminated = false → (∀ job, s.phase () ≠ .working job) →
      (looksOf works).map (fun look => look.1.candidate) = request.candidates ∧
      (foundOf provider works ≠ [] →
        (publishedOf works).getLast? = some (request.generation, foundOf provider works))) ∧
    (∀ past view event rest, after = past ++ .work () view event :: rest → Acts event →
      ∃ past' test between, past = past' ++ .work () test .check :: between ∧
        Crew.worksOf () between = [] ∧ test = ⟨false, true⟩ ∧ Still past') ∧
    ((looksOf works).filter fun look => look.1.backend ≠ .local).length ≤
      maximumRemoteCandidates := by
  dsimp only
  obtain ⟨u, hu, hfresh, hsince⟩ := since_start hrun
  have hstands := (hsince after s hu hidle).stands
  have hpublished := published_of_stands rfl hstands
  obtain ⟨n, hn, hlooks⟩ := hpublished.looks
  obtain ⟨before, between, hpre, hstill, -⟩ := Crew.start_chronicle hrun
  refine ⟨⟨before, between, hpre, hstill⟩, hpublished.parts, hpublished.growing,
    foundOf_sublist hn hlooks, fun hunchanged hlive hfree => ?_,
    fun past view event rest hsplit hacts => acts_current hrun hidle hsplit hacts,
    remote_le hlooks⟩
  -- only the last clause is left: the job is over
  cases hstands with
  | busy job hphase => exact absurd hphase (hfree job)
  | past first last job o _ hsplit hworks hlast hover =>
    obtain rfl | ⟨-, hgone⟩ := hover
    · obtain ⟨view, event⟩ := last
      rw [hsplit]
      -- it went through all candidates, since no test found a change
      refine (TranslationTrace.run hworks).finished hlast fun work hwork => ?_
      obtain ⟨workView, workEvent⟩ := work
      rw [← hsplit] at hwork
      rw [Crew.still_view hu hunchanged hfresh hwork]
      rfl
    · rw [hlive] at hgone
      cases hgone

end

/-! ### Five glosses -/

/-- One candidate more than a batch has. -/
def fiveRequest : TranslationRequest :=
  { glossRequest 1 with candidates := ["a", "b", "c", "d", "e"].map ascii }

/-- What the remote backend answers. -/
def oneAnswer : LookupAnswers where
  response := .ok ⟨200, [0]⟩
  root := some (.object [(ascii "data", .string (ascii "toi"))])

def fiveGlosses : List (Bytes × Bytes) :=
  fiveRequest.candidates.map fun candidate => (candidate, ascii "toi")

/-- Nothing has changed when the worker looks. -/
def works (event : TranslationEvent) : TranslationServiceEvent := .work () ⟨false, true⟩ event

/-- A candidate is looked up. -/
def looksUp (candidate : Bytes) : List TranslationServiceEvent :=
  [works .check, works (.lookup { glossCall with candidate := candidate } oneAnswer), works .check]

/-- From the start of the request on: the fourth gloss fills a batch. -/
def fiveLookups : List TranslationServiceEvent :=
  (fiveRequest.candidates.take 4).flatMap looksUp ++
    [works (.publish 1 (fiveGlosses.take 4) false)] ++ looksUp (ascii "e") ++
      [works .check, works .check, works (.publish 1 fiveGlosses false)]

/-- What is published first is the batch; the second publication extends it by the last
gloss, and the worker waits again. -/
theorem publications_monotone_five : ∃ s : Crew Unit TranslationRequest TranslationJob,
    s.terminated = false ∧ (∀ job, s.phase () ≠ .working job) ∧
    publishedOf (Crew.worksOf () fiveLookups) = [(1, fiveGlosses.take 4), (1, fiveGlosses)] ∧
    fiveGlosses.take 4 <+: fiveGlosses ∧
    (looksOf (Crew.worksOf () fiveLookups)).map (fun look => look.1.candidate) =
      fiveRequest.candidates ∧
    (publishedOf (Crew.worksOf () fiveLookups)).getLast? =
      some (1, foundOf remoteLookup (Crew.worksOf () fiveLookups)) := by
  obtain ⟨s, hrun, hlive, hphase⟩ : ∃ s, Run (Crew.Step remoteLookup.loop) {}
      ([.change (.submit fiveRequest), .wake (), .elapse 500] ++
        .start () fiveRequest :: fiveLookups) s ∧ s.terminated = false ∧
      s.phase () = .waiting := by
    exact ⟨_, .cons (.change _ rfl ⟨rfl, rfl⟩) <| .cons (.wake rfl (.inl rfl) rfl (by decide)) <|
      .cons (.elapse _ rfl) <| .cons (.start rfl ⟨rfl, rfl, _, rfl, by decide⟩ rfl rfl) <|
      .cons (.work rfl rfl rfl) <| .cons (.work rfl rfl rfl) <| .cons (.work rfl rfl rfl) <|
      .cons (.work rfl rfl rfl) <| .cons (.work rfl rfl rfl) <| .cons (.work rfl rfl rfl) <|
      .cons (.work rfl rfl rfl) <| .cons (.work rfl rfl rfl) <| .cons (.work rfl rfl rfl) <|
      .cons (.work rfl rfl rfl) <| .cons (.work rfl rfl rfl) <| .cons (.work rfl rfl rfl) <|
      .cons (.work rfl rfl rfl) <| .cons (.work rfl rfl rfl) <| .cons (.work rfl rfl rfl) <|
      .cons (.work rfl rfl rfl) <| .cons (.work rfl rfl rfl) <| .cons (.work rfl rfl rfl) <|
      .single (.work rfl rfl rfl), rfl, rfl⟩
  have hfree : ∀ job, s.phase () ≠ .working job := by
    intro job
    rw [hphase]
    nofun
  have hpublished : publishedOf (Crew.worksOf () fiveLookups) =
      [(1, fiveGlosses.take 4), (1, fiveGlosses)] := by rfl
  obtain ⟨-, -, hgrows, -, hover, -, -⟩ := publications_monotone remoteLookup s _ fiveLookups
    fiveRequest hrun (by simp [Idle, fiveLookups, looksUp, works, fiveRequest])
  obtain ⟨hlooks, hlast⟩ := hover (by simp [Still, fiveLookups, looksUp, works, fiveRequest,
    Debounce.Event.change?]) hlive hfree
  rw [hpublished, List.pairwise_pair] at hgrows
  exact ⟨s, hlive, hfree, hpublished, hgrows, hlooks, hlast (by decide)⟩

end TranslationRuns

end MsimeLinux
