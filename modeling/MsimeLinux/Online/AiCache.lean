import MsimeLinux.Lib.Run
import MsimeLinux.Online.TranslationService
import MsimeLinux.Snapshot.Json

/-!
# The cache of AI suggestions (`AiSuggestionProvider.cpp`)

Any number of fetches run at once on one provider. Each looks its key up and, when it
has an answer, inserts it, under the lock; in between it waits for the transport.

- `aiCache_consistent`: the cache and the order of eviction hold the same keys, a hit
  comes from a fetch with the same credential, and equal keys mean equal requests.
-/

namespace MsimeLinux

open Lib

namespace AiSuggestionProvider

/-! ## Requests -/

/-- The UTF-8 encoding of a text. -/
def textBytes (text : Text) : Bytes := text.flatMap String.utf8EncodeChar

/-- `provider_id` (AiSuggestionProvider.cpp:22). -/
def providerId : AiProvider → Bytes
  | .deepSeek => ascii "deepseek"
  | .openAI => ascii "openai"
  | .siliconFlow => ascii "siliconflow"
  | .groq => ascii "groq"
  | .custom => ascii "custom"

/-- `bounded_utf8` (AiSuggestionProvider.cpp:40): a character is not cut. -/
def boundedUtf8 (value : Bytes) (maximum : Nat) : Bytes :=
  if value.length ≤ maximum then value
  else
    let continues (n : Nat) : Bool := value.getD n 0 &&& 0xc0 = 0x80
    value.take (((List.range (maximum + 1)).reverse.find? fun n => n = 0 || !continues n).getD 0)

/-- `default_endpoint` (AiSuggestionProvider.cpp:225). -/
def defaultEndpoint : AiProvider → Bytes
  | .deepSeek => ascii "https://api.deepseek.com/chat/completions"
  | .openAI => ascii "https://api.openai.com/v1/chat/completions"
  | .siliconFlow => ascii "https://api.siliconflow.cn/v1/chat/completions"
  | .groq => ascii "https://api.groq.com/openai/v1/chat/completions"
  | .custom => []

/-- `default_model` (AiSuggestionProvider.cpp:243). -/
def defaultModel : AiProvider → Bytes
  | .deepSeek => ascii "deepseek-v4-flash"
  | .openAI => ascii "gpt-4o-mini"
  | .siliconFlow => ascii "Qwen/Qwen3-8B"
  | .groq => ascii "openai/gpt-oss-120b"
  | .custom => []

/-- `default_prompt` (AiSuggestionProvider.cpp:261). -/
def defaultPrompt : Bytes :=
  utf8 "你是一个中文全拼输入法联想引擎。输入为已经切分好的拼音数组、前文上下文和候选数量。" ++
  utf8 "优先生成与拼音严格对应的常用中文候选，并结合上下文、语义和固定搭配排序。" ++
  utf8 "若拼音明显组成英文单词、缩写、产品名或技术术语，也可返回英文，但不要生造。" ++
  utf8 "只输出合法 JSON，格式为 \x7b\"candidates\":[\x7b\"text\":\"候选内容\"\x7d]\x7d。" ++
  utf8 "候选数量不得超过指定上限；没有合理结果时返回空数组。"

/-- What `fetch` is called with. -/
structure AiCall where
  query : OnlineQuery
  context : Bytes
  config : AiSuggestionConfig

namespace AiCall

variable (call : AiCall)

/-- `resolved_endpoint` (AiSuggestionProvider.cpp:81). -/
def endpoint : Bytes :=
  if call.config.endpoint = [] then defaultEndpoint call.config.provider else call.config.endpoint

/-- `resolved_model` (AiSuggestionProvider.cpp:86). -/
def model : Bytes :=
  if call.config.model = [] then defaultModel call.config.provider else call.config.model

/-- `resolved_prompt` (AiSuggestionProvider.cpp:91). -/
def prompt : Bytes :=
  boundedUtf8 (if call.config.prompt = [] then defaultPrompt else call.config.prompt) 8192

/-- `bounded_candidate_limit` (AiSuggestionProvider.cpp:76). -/
def candidateLimit : Nat := max 1 (min call.config.candidateLimit 10)

/-- The segments that are sent: 32 of them, each cut to 64 bytes. -/
def segments : Json :=
  .array ((call.query.pinyinSegments.take 32).map fun s => .string (boundedUtf8 (textBytes s) 64))

def boundedContext : Bytes := boundedUtf8 call.context 2048

/-- `cache_key` (AiSuggestionProvider.cpp:331). The number of a scheme is the engine's. -/
def cacheKey (scheme : SchemeType → Int) : Json :=
  .object [(ascii "provider", .string (providerId call.config.provider)),
    (ascii "endpoint", .string call.endpoint),
    (ascii "model", .string call.model),
    (ascii "prompt", .string call.prompt),
    (ascii "candidate_limit", .uint call.candidateLimit),
    (ascii "scheme", .int (scheme call.query.scheme)),
    (ascii "identity", .string (textBytes call.query.identity)),
    (ascii "query", .string (textBytes call.query.cacheKey)),
    (ascii "segments", call.segments),
    (ascii "context", .string call.boundedContext)]

/-- The content of the user's message (AiSuggestionProvider.cpp:158). -/
def input : Json :=
  .object [(ascii "segmented_pinyin", call.segments),
    (ascii "context", .string call.boundedContext),
    (ascii "candidate_limit", .uint call.candidateLimit)]

/-- A message of a role. -/
def message (role content : Bytes) : Json :=
  .object [(ascii "role", .string role), (ascii "content", .string content)]

/-- The body of the request (AiSuggestionProvider.cpp:176); `temperature` is 0.2. -/
def body (J : JsonLib) : Json :=
  .object ([(ascii "model", .string call.model),
    (ascii "stream", .bool false),
    (ascii "temperature", .double),
    (ascii "max_tokens", .int 512),
    (ascii "response_format", .object [(ascii "type", .string (ascii "json_object"))]),
    (ascii "messages", .array [message (ascii "system") call.prompt,
      message (ascii "user") (J.serialize call.input)])] ++
    if call.config.provider = .deepSeek then
      [(ascii "thinking", .object [(ascii "type", .string (ascii "disabled"))])]
    else [])

/-- The URL and the body of the request (AiSuggestionProvider.cpp:191). -/
def request (J : JsonLib) : Bytes × Bytes := (call.endpoint, J.serialize (call.body J))

/-- Nothing is fetched (AiSuggestionProvider.cpp:116). -/
def refused (cancelled : Bool) : Bool :=
  !call.config.enabled || !call.query.aiEligible || call.query.pinyinSegments.isEmpty ||
    call.config.token.isEmpty || !tokenAllowed call.config.token || cancelled ||
    !endpointAllowed call.endpoint || call.model.isEmpty || 256 < call.model.length

end AiCall

/-! ## The cache -/

variable {ι : Type}

/-- A cached suggestion, with the fetch it comes from and the generation that was made
in; the source keeps the suggestion only. -/
structure CacheEntry (ι : Type) where
  candidate : Bytes
  fetcher : ι
  generation : Nat
  deriving DecidableEq

/-- The members the lock guards (AiSuggestionProvider.h:61). -/
structure AiCache (ι : Type) where
  entries : Bytes → Option (CacheEntry ι) := fun _ => none
  order : List Bytes := []
  credential : Bytes := []
  generation : Nat := 0

/-- `kMaximumCacheEntries` (AiSuggestionProvider.cpp:20). -/
def maximumCacheEntries : Nat := 128

namespace AiCache

/-- The first region (AiSuggestionProvider.cpp:133): another credential empties the
cache. -/
def prepare (c : AiCache ι) (token : Bytes) : AiCache ι :=
  if c.credential = token then c
  else { credential := token, generation := c.generation + 1 }

/-- Making room (AiSuggestionProvider.cpp:214). -/
def evict (entries : Bytes → Option (CacheEntry ι)) :
    List Bytes → (Bytes → Option (CacheEntry ι)) × List Bytes
  | [] => (entries, [])
  | key :: order =>
    if maximumCacheEntries ≤ (key :: order).length then
      evict (Function.update entries key none) order
    else (entries, key :: order)

/-- The second region (AiSuggestionProvider.cpp:206). -/
def insert (c : AiCache ι) (token key : Bytes) (entry : CacheEntry ι) : AiCache ι :=
  if c.generation ≠ entry.generation ∨ c.credential ≠ token then c
  else if c.entries key = none then
    let room := evict c.entries c.order
    { c with entries := Function.update room.1 key (some entry), order := room.2 ++ [key] }
  else { c with entries := Function.update c.entries key (some entry) }

end AiCache

/-! ## The map and the order -/

/-- The map and the order of eviction hold the same keys. -/
structure Agree (entries : Bytes → Option (CacheEntry ι)) (order : List Bytes) : Prop where
  keys : ∀ key, entries key ≠ none ↔ key ∈ order
  nodup : order.Nodup

/-- Making room leaves room, and drops the same keys on both sides. -/
theorem evict_spec {entries : Bytes → Option (CacheEntry ι)} {order : List Bytes}
    (h : Agree entries order) :
    Agree (AiCache.evict entries order).1 (AiCache.evict entries order).2 ∧
      (AiCache.evict entries order).2.length < maximumCacheEntries ∧
      (∀ key, key ∈ (AiCache.evict entries order).2 → key ∈ order) ∧
      ∀ key entry, (AiCache.evict entries order).1 key = some entry → entries key = some entry := by
  induction order generalizing entries with
  | nil => exact ⟨h, Nat.succ_pos 127, fun _ hk => hk, fun _ _ he => he⟩
  | cons first order ih =>
    rw [AiCache.evict]
    split
    next hfull =>
      -- the oldest key goes from both sides
      have hfirst : first ∉ order := (List.nodup_cons.mp h.nodup).1
      have hrest : Agree (Function.update entries first none) order := by
        refine ⟨fun key => ?_, (List.nodup_cons.mp h.nodup).2⟩
        by_cases hk : key = first
        · subst hk
          simp [hfirst]
        · rw [Function.update_of_ne hk, h.keys, List.mem_cons, or_iff_right hk]
      obtain ⟨hagree, hroom, hsub, hkept⟩ := ih hrest
      refine ⟨hagree, hroom, fun key hk => List.mem_cons_of_mem _ (hsub key hk), ?_⟩
      intro key entry he
      have := hkept key entry he
      by_cases hk : key = first
      · subst hk
        simp at this
      · rwa [Function.update_of_ne hk] at this
    next hroom => exact ⟨h, Nat.lt_of_not_le hroom, fun _ hk => hk, fun _ _ he => he⟩

@[simp] theorem prepare_credential (c : AiCache ι) (token : Bytes) :
    (c.prepare token).credential = token := by
  unfold AiCache.prepare
  split <;> simp_all

/-- What `insert` does to the map and the order, when it does anything. -/
theorem insert_agree {c : AiCache ι} (h : Agree c.entries c.order)
    (hbounded : c.order.length ≤ maximumCacheEntries) (token key : Bytes) (entry : CacheEntry ι) :
    Agree (c.insert token key entry).entries (c.insert token key entry).order ∧
      (c.insert token key entry).order.length ≤ maximumCacheEntries ∧
      (c.insert token key entry).credential = c.credential ∧
      (c.insert token key entry).generation = c.generation ∧
      ∀ k e, (c.insert token key entry).entries k = some e → c.entries k = some e ∨
        k = key ∧ e = entry ∧ c.generation = entry.generation ∧ c.credential = token := by
  unfold AiCache.insert
  split
  · exact ⟨h, hbounded, rfl, rfl, fun k e he => .inl he⟩
  next hsame =>
    obtain ⟨hgeneration, hcredential⟩ : c.generation = entry.generation ∧ c.credential = token := by
      tauto
    have hentries : ∀ (entries : Bytes → Option (CacheEntry ι)) k e,
        (∀ k e, entries k = some e → c.entries k = some e) →
        Function.update entries key (some entry) k = some e → c.entries k = some e ∨
          k = key ∧ e = entry ∧ c.generation = entry.generation ∧ c.credential = token := by
      intro entries k e hkept he
      by_cases hk : k = key
      · subst hk
        rw [Function.update_self] at he
        exact .inr ⟨rfl, (Option.some.inj he).symm, hgeneration, hcredential⟩
      · rw [Function.update_of_ne hk] at he
        exact .inl (hkept k e he)
    split
    next hnone =>
      -- a new key: room is made, and it goes to the end of the order
      obtain ⟨hagree, hroom, hsub, hkept⟩ := evict_spec h
      have hkey : key ∉ (AiCache.evict c.entries c.order).2 :=
        fun hk => (h.keys key).mpr (hsub key hk) hnone
      refine ⟨⟨fun k => ?_, ?_⟩, ?_, rfl, rfl, fun k e he => hentries _ k e hkept he⟩
      · by_cases hk : k = key
        · subst hk
          simp
        · dsimp only
          rw [Function.update_of_ne hk, hagree.keys, List.mem_append, List.mem_singleton,
            or_iff_left hk]
      · refine List.nodup_append.mpr ⟨hagree.nodup, List.nodup_singleton _, ?_⟩
        intro a ha b hb
        rw [List.mem_singleton.mp hb]
        rintro rfl
        exact hkey ha
      · rw [List.length_append, List.length_singleton]
        exact hroom
    next hsome =>
      -- the key is there already: another fetch has missed on it too
      refine ⟨⟨fun k => ?_, h.nodup⟩, hbounded, rfl, rfl,
        fun k e he => hentries _ k e (fun _ _ => id) he⟩
      by_cases hk : k = key
      · subst hk
        simpa using (h.keys k).mp hsome
      · dsimp only
        rw [Function.update_of_ne hk, h.keys]

/-! ## Fetches -/

/-- Where a fetch is. It ends with a hit, or with what came of its own request; the
generation is the one it has read under the lock. -/
inductive AiPhase (ι : Type) where
  | idle
  | requesting (generation : Nat)
  | answered (generation : Nat) (candidate : Bytes)
  | hit (generation : Nat) (entry : CacheEntry ι)
  | ended (candidate : Option Bytes)

/-- What a fetch does next; `answer` is what came of the request: a suggestion, or
nothing if it failed, was cancelled or threw. -/
inductive AiEvent where
  | lookup (cancelled : Bool)
  | answer (candidate : Option Bytes)
  | insert

structure AiWorld (ι : Type) where
  cache : AiCache ι := {}
  phase : ι → AiPhase ι := fun _ => .idle

section

variable (J : JsonLib) (scheme : SchemeType → Int) (calls : ι → AiCall)

/-- The key of a fetch. -/
def keyOf (i : ι) : Bytes := J.serialize ((calls i).cacheKey scheme)

/-- What holds of a provider between two regions. -/
structure AiWorld.Ok (w : AiWorld ι) : Prop where
  agree : Agree w.cache.entries w.cache.order
  bounded : w.cache.order.length ≤ maximumCacheEntries
  /-- an entry is what a fetch with the cache's credential has ended with -/
  entry : ∀ key entry, w.cache.entries key = some entry →
    keyOf J scheme calls entry.fetcher = key ∧
      (calls entry.fetcher).config.token = w.cache.credential ∧
      entry.generation = w.cache.generation ∧
      w.phase entry.fetcher = .ended (some entry.candidate)
  hit : ∀ i generation entry, w.phase i = .hit generation entry →
    keyOf J scheme calls entry.fetcher = keyOf J scheme calls i ∧
      (calls entry.fetcher).config.token = (calls i).config.token ∧
      entry.generation = generation ∧ w.phase entry.fetcher = .ended (some entry.candidate)

/-- A new provider. -/
theorem initial_ok {J : JsonLib} {scheme : SchemeType → Int} {calls : ι → AiCall} :
    ({} : AiWorld ι).Ok J scheme calls :=
  ⟨⟨by simp, List.nodup_nil⟩, Nat.zero_le _, by simp, by simp⟩

/-- Another credential empties the cache: the invariant holds again, and the cache has
the credential of the fetch. -/
theorem AiWorld.Ok.prepared {J : JsonLib} {scheme : SchemeType → Int} {calls : ι → AiCall}
    {w : AiWorld ι} (h : w.Ok J scheme calls) (token : Bytes) :
    ({ w with cache := w.cache.prepare token } : AiWorld ι).Ok J scheme calls := by
  unfold AiCache.prepare
  split
  · exact h
  · exact ⟨⟨by simp, List.nodup_nil⟩, Nat.zero_le _, by simp, h.hit⟩

variable [DecidableEq ι]

/-- The fetch gets to another phase. -/
def AiWorld.move (w : AiWorld ι) (i : ι) (phase : AiPhase ι) : AiWorld ι :=
  { w with phase := Function.update w.phase i phase }

/-- `fetch` (AiSuggestionProvider.cpp:110), one region of it at a time. -/
def next (w : AiWorld ι) (i : ι) (event : AiEvent) : Option (AiWorld ι) :=
  let key := keyOf J scheme calls i
  let token := (calls i).config.token
  match w.phase i, event with
  | .idle, .lookup cancelled =>
    if (calls i).refused cancelled then some (w.move i (.ended none))
    else
      let cache := w.cache.prepare token
      let phase := match cache.entries key with
        | some entry => .hit cache.generation entry
        | none => .requesting cache.generation
      some { cache := cache, phase := Function.update w.phase i phase }
  | .requesting _, .answer none => some (w.move i (.ended none))
  | .requesting generation, .answer (some candidate) =>
    some (w.move i (.answered generation candidate))
  | .answered generation candidate, .insert =>
    some { cache := w.cache.insert token key ⟨candidate, i, generation⟩,
           phase := Function.update w.phase i (.ended (some candidate)) }
  | _, _ => none

/-! ## The invariant -/

variable {J : JsonLib} {scheme : SchemeType → Int} {calls : ι → AiCall} {w w' : AiWorld ι}

/-- A fetch that has ended stays so while another one moves. -/
theorem ended_stays {i j : ι} {phase : AiPhase ι} {candidate : Option Bytes}
    (hopen : ∀ candidate, w.phase i ≠ .ended candidate) (hj : w.phase j = .ended candidate) :
    Function.update w.phase i phase j = .ended candidate := by
  have hji : j ≠ i := by
    rintro rfl
    exact hopen candidate hj
  rw [Function.update_of_ne hji, hj]

/-- A fetch that has not ended yet may move, if it does not claim a hit. -/
theorem AiWorld.Ok.moved (h : w.Ok J scheme calls) {i : ι} {phase : AiPhase ι}
    (hopen : ∀ candidate, w.phase i ≠ .ended candidate)
    (hphase : ∀ generation entry, phase ≠ .hit generation entry) :
    (w.move i phase).Ok J scheme calls := by
  refine ⟨h.agree, h.bounded, fun key entry he => ?_, fun j generation entry hj => ?_⟩
  · obtain ⟨hkey, htoken, hgeneration, hended⟩ := h.entry key entry he
    exact ⟨hkey, htoken, hgeneration, ended_stays hopen hended⟩
  · have hji : j ≠ i := by
      rintro rfl
      exact hphase generation entry (by simpa [AiWorld.move] using hj)
    obtain ⟨hkey, htoken, hgeneration, hended⟩ :=
      h.hit j generation entry (by simpa [AiWorld.move, hji] using hj)
    exact ⟨hkey, htoken, hgeneration, ended_stays hopen hended⟩

/-- A fetch that finds its key takes the entry. -/
theorem AiWorld.Ok.found (h : w.Ok J scheme calls) {i : ι} {entry : CacheEntry ι}
    (hopen : ∀ candidate, w.phase i ≠ .ended candidate)
    (htoken : w.cache.credential = (calls i).config.token)
    (he : w.cache.entries (keyOf J scheme calls i) = some entry) :
    (w.move i (.hit w.cache.generation entry)).Ok J scheme calls := by
  refine ⟨h.agree, h.bounded, fun key entry he => ?_, fun j generation e hj => ?_⟩
  · obtain ⟨hkey, htoken, hgeneration, hended⟩ := h.entry key entry he
    exact ⟨hkey, htoken, hgeneration, ended_stays hopen hended⟩
  by_cases hji : j = i
  · subst hji
    obtain ⟨rfl, rfl⟩ : w.cache.generation = generation ∧ entry = e := by
      simpa [AiWorld.move] using hj
    obtain ⟨hkey, hcredential, hgeneration, hended⟩ := h.entry _ entry he
    exact ⟨hkey, hcredential.trans htoken, hgeneration, ended_stays hopen hended⟩
  · obtain ⟨hkey, htoken, hgeneration, hended⟩ :=
      h.hit j generation e (by simpa [AiWorld.move, hji] using hj)
    exact ⟨hkey, htoken, hgeneration, ended_stays hopen hended⟩

/-- A fetch inserts what it has ended with. -/
theorem AiWorld.Ok.inserted (h : w.Ok J scheme calls) {i : ι} {generation : Nat}
    {candidate : Bytes} (hphase : w.phase i = .answered generation candidate) :
    AiWorld.Ok J scheme calls
      { cache := w.cache.insert (calls i).config.token (keyOf J scheme calls i)
          ⟨candidate, i, generation⟩,
        phase := Function.update w.phase i (.ended (some candidate)) } := by
  have hopen : ∀ candidate, w.phase i ≠ .ended candidate := by
    intro candidate
    simp [hphase]
  have hmoved : (w.move i (.ended (some candidate))).Ok J scheme calls := h.moved hopen (by simp)
  obtain ⟨hagree, hbounded, hcredential, hgeneration, hentries⟩ := insert_agree h.agree h.bounded
    (calls i).config.token (keyOf J scheme calls i) ⟨candidate, i, generation⟩
  refine ⟨hagree, hbounded, fun key entry he => ?_, hmoved.hit⟩
  rcases hentries key entry he with hold | ⟨rfl, rfl, hsame, htoken⟩
  · obtain ⟨hkey, htoken, hsame, hended⟩ := hmoved.entry key entry hold
    exact ⟨hkey, htoken.trans hcredential.symm, hsame.trans hgeneration.symm, hended⟩
  · exact ⟨rfl, (hcredential.trans htoken).symm, (hgeneration.trans hsame).symm,
      Function.update_self ..⟩

/-! ## Steps and runs -/

/-- Every region keeps the invariant. -/
theorem next_ok {i : ι} {event : AiEvent} (h : w.Ok J scheme calls)
    (hnext : next J scheme calls w i event = some w') : w'.Ok J scheme calls := by
  unfold next at hnext
  dsimp only at hnext
  split at hnext
  next cancelled hphase =>
    have hopen : ∀ candidate, w.phase i ≠ .ended candidate := by
      intro candidate
      simp [hphase]
    split at hnext
    · cases hnext
      exact h.moved hopen (by simp)
    have hprepared := h.prepared (calls i).config.token
    split at hnext
    next entry he =>
      cases hnext
      exact hprepared.found hopen (prepare_credential ..) he
    next =>
      cases hnext
      exact hprepared.moved hopen (by simp)
  next hphase =>
    cases hnext
    exact h.moved (by simp [hphase]) (by simp)
  next hphase =>
    cases hnext
    exact h.moved (by simp [hphase]) (by simp)
  next generation candidate hphase =>
    cases hnext
    exact h.inserted hphase
  next => cases hnext

/-- The generation is a 64-bit number in the source: it tells the credentials of a run apart while
there are fewer steps than it has values. -/
theorem generation_uint64 {w w' : AiWorld ι} {events later : List (ι × AiEvent)}
    (h : Run (fun w e w' => next J scheme calls w e.1 e.2 = some w') {} events w)
    (h' : Run (fun w e w' => next J scheme calls w e.1 e.2 = some w') w later w')
    (hfew : events.length + later.length < UInt64.size) :
    UInt64.ofNat w.cache.generation = UInt64.ofNat w'.cache.generation ↔
      w.cache.generation = w'.cache.generation := by
  have hstart : ({} : AiWorld ι).cache.generation = 0 := rfl
  refine h.counter_uint64 (fun w => w.cache.generation) (fun v e v' hnext => ?_) h' (by omega)
  unfold next at hnext
  dsimp only at hnext
  split at hnext
  next hphase hevent =>
    split at hnext
    · cases hnext
      exact Nat.le_succ _
    · cases hnext
      dsimp only [AiCache.prepare]
      split
      · exact Nat.le_succ _
      · exact Nat.le_refl _
  next => cases hnext; exact Nat.le_succ _
  next => cases hnext; exact Nat.le_succ _
  next =>
    cases hnext
    dsimp only [AiCache.insert]
    split
    · exact Nat.le_succ _
    · split <;> exact Nat.le_succ _
  next => cases hnext

/-! ## Keys and requests -/

theorem providerId_injective : Function.Injective providerId := by
  intro a b h
  cases a <;> cases b <;> first | rfl | exact absurd h (by decide)

/-- The key covers everything the request is made of. -/
theorem request_eq_of_cacheKey_eq {a b : AiCall} (h : a.cacheKey scheme = b.cacheKey scheme) :
    a.request J = b.request J := by
  simp only [AiCall.cacheKey, Json.object.injEq, List.cons.injEq, Prod.mk.injEq, true_and,
    Json.string.injEq, Json.uint.injEq, and_true] at h
  obtain ⟨hprovider, hendpoint, hmodel, hprompt, hlimit, -, -, -, hsegments, hcontext⟩ := h
  have hinput : a.input = b.input := by
    rw [AiCall.input, AiCall.input, hsegments, hcontext, hlimit]
  have hbody : a.body J = b.body J := by
    rw [AiCall.body, AiCall.body, hmodel, hprompt, hinput, providerId_injective hprovider]
  rw [AiCall.request, AiCall.request, hendpoint, hbody]

/-- **The cache is consistent**, whatever the order of the fetches' regions. The map and
the order of eviction have the same keys. A hit is what a fetch with the same key and the
same credential has ended with, and that one has read the same generation. Fetches with
equal keys send equal requests, if the library writes no two keys alike. -/
theorem aiCache_consistent
    (hJ : ∀ i j, keyOf J scheme calls i = keyOf J scheme calls j →
      (calls i).cacheKey scheme = (calls j).cacheKey scheme)
    {events : List (ι × AiEvent)}
    (h : Run (fun w e w' => next J scheme calls w e.1 e.2 = some w') {} events w) :
    ((∀ key, w.cache.entries key ≠ none ↔ key ∈ w.cache.order) ∧ w.cache.order.Nodup ∧
      w.cache.order.length ≤ maximumCacheEntries) ∧
    (∀ i generation entry, w.phase i = .hit generation entry →
      (calls entry.fetcher).config.token = (calls i).config.token ∧
        keyOf J scheme calls entry.fetcher = keyOf J scheme calls i ∧
        entry.generation = generation ∧
        w.phase entry.fetcher = .ended (some entry.candidate)) ∧
    ∀ i j, keyOf J scheme calls i = keyOf J scheme calls j →
      (calls i).request J = (calls j).request J := by
  have hok : w.Ok J scheme calls :=
    h.invariant (fun _ _ _ hw hnext => next_ok hw hnext) initial_ok
  refine ⟨⟨hok.agree.keys, hok.agree.nodup, hok.bounded⟩, fun i generation entry hi => ?_,
    fun i j hij => request_eq_of_cacheKey_eq (hJ i j hij)⟩
  obtain ⟨hkey, htoken, hgeneration, hended⟩ := hok.hit i generation entry hi
  exact ⟨htoken, hkey, hgeneration, hended⟩

/-- A fetch that finds its key under its credential ends with the entry. -/
theorem next_lookup_of_entry {i : ι} {cancelled : Bool} {entry : CacheEntry ι}
    (hidle : w.phase i = .idle) (hfetch : (calls i).refused cancelled = false)
    (htoken : w.cache.credential = (calls i).config.token)
    (he : w.cache.entries (keyOf J scheme calls i) = some entry) :
    next J scheme calls w i (.lookup cancelled) =
      some (w.move i (.hit w.cache.generation entry)) := by
  have hcache : w.cache.prepare (calls i).config.token = w.cache := if_pos htoken
  simp only [next, hidle, hfetch, Bool.false_eq_true, if_false, hcache, he]
  rfl

/-- One that does not find it sends its request. -/
theorem next_lookup_of_none {i : ι} {cancelled : Bool}
    (hidle : w.phase i = .idle) (hfetch : (calls i).refused cancelled = false)
    (htoken : w.cache.credential = (calls i).config.token)
    (he : w.cache.entries (keyOf J scheme calls i) = none) :
    next J scheme calls w i (.lookup cancelled) =
      some (w.move i (.requesting w.cache.generation)) := by
  have hcache : w.cache.prepare (calls i).config.token = w.cache := if_pos htoken
  simp only [next, hidle, hfetch, Bool.false_eq_true, if_false, hcache, he]
  rfl

/-! ### Two queries, two credentials -/

/-- One query twice, another one, and the first twice again under a new credential. -/
inductive SampleFetch where
  | first
  | again
  | other
  | renewed
  | renewedAgain
  deriving DecidableEq

def sampleCall (token : UInt8) (segment : List Char) : AiCall where
  query := { pinyinSegments := [segment], aiEligible := true }
  context := []
  config := { enabled := true, provider := .custom, token := [token],
              endpoint := ascii "https://a", model := [0x6d], prompt := [0x70] }

def sampleCalls : SampleFetch → AiCall
  | .first | .again => sampleCall 0x74 ['n', 'i']
  | .other => sampleCall 0x74 ['h', 'a', 'o']
  | .renewed | .renewedAgain => sampleCall 0x75 ['n', 'i']

/-- A key, as the library writes it. -/
def sampleKey (segment : String) : Bytes :=
  ascii "\x7b\"provider\":\"custom\",\"endpoint\":\"https://a\",\"model\":\"m\"," ++
  ascii "\"prompt\":\"p\",\"candidate_limit\":3,\"scheme\":0,\"identity\":\"\"," ++
  ascii "\"query\":\"\",\"segments\":[\"" ++ ascii segment ++ ascii "\"],\"context\":\"\"\x7d"

def sampleJson : JsonLib :=
  .ofTables [] [((sampleCalls .first).cacheKey fun _ => 0, sampleKey "ni"),
    ((sampleCalls .other).cacheKey fun _ => 0, sampleKey "hao")]

theorem sampleJson_keys :
    keyOf sampleJson (fun _ => 0) sampleCalls .first = sampleKey "ni" ∧
      keyOf sampleJson (fun _ => 0) sampleCalls .other = sampleKey "hao" ∧
      sampleKey "ni" ≠ sampleKey "hao" := by
  decide +kernel

/-- The library writes no two of the keys alike. -/
theorem sampleJson_distinct (i j : SampleFetch)
    (h : keyOf sampleJson (fun _ => 0) sampleCalls i =
      keyOf sampleJson (fun _ => 0) sampleCalls j) :
    (sampleCalls i).cacheKey (fun _ => 0) = (sampleCalls j).cacheKey fun _ => 0 := by
  obtain ⟨hfirst, hother, hne⟩ := sampleJson_keys
  have hkey : ∀ i, i ≠ .other → keyOf sampleJson (fun _ => 0) sampleCalls i = sampleKey "ni" := by
    intro i hi
    cases i with
    | other => exact absurd rfl hi
    | first | again | renewed | renewedAgain => exact hfirst
  by_cases hi : i = .other
  · by_cases hj : j = .other
    · rw [hi, hj]
    · rw [hi, hother, hkey j hj] at h
      exact absurd h.symm hne
  · by_cases hj : j = .other
    · rw [hj, hother, hkey i hi] at h
      exact absurd h hne
    · have hsame : ∀ i, i ≠ .other →
          (sampleCalls i).cacheKey (fun _ => 0) = (sampleCalls .first).cacheKey fun _ => 0 := by
        intro i hi
        cases i with
        | other => exact absurd rfl hi
        | first | again | renewed | renewedAgain => rfl
      rw [hsame i hi, hsame j hj]

/-- The second fetch hits. The third is still waiting for its answer when the fourth, with
another credential, empties the cache; its insertion comes too late, and the fifth fetch
hits what the fourth one has inserted. -/
theorem sample_run (J : JsonLib)
    (hne : keyOf J (fun _ => 0) sampleCalls .first ≠ keyOf J (fun _ => 0) sampleCalls .other) :
    ∃ w, Run (fun w e w' => next J (fun _ => 0) sampleCalls w e.1 e.2 = some w') {}
      [(.first, .lookup false), (.first, .answer (some [0x41])), (.first, .insert),
        (.again, .lookup false), (.other, .lookup false), (.renewed, .lookup false),
        (.other, .answer (some [0x42])), (.other, .insert), (.renewed, .answer (some [0x43])),
        (.renewed, .insert), (.renewedAgain, .lookup false)] w ∧
      w.phase .again = .hit 1 ⟨[0x41], .first, 1⟩ ∧
      w.phase .renewedAgain = .hit 2 ⟨[0x43], .renewed, 2⟩ :=
  ⟨_, .cons rfl (.cons rfl (.cons rfl (.cons (next_lookup_of_entry rfl rfl rfl
      (Function.update_self ..)) (.cons (next_lookup_of_none rfl rfl rfl
      (Function.update_of_ne hne.symm ..)) (.cons rfl (.cons rfl (.cons rfl (.cons rfl (.cons rfl
      (.cons (next_lookup_of_entry rfl rfl rfl (Function.update_self ..)) (.nil _))))))))))),
    rfl, rfl⟩

theorem aiCache_consistent_renewed : ∃ w : AiWorld SampleFetch,
    w.phase .again = .hit 1 ⟨[0x41], .first, 1⟩ ∧
    w.phase .renewedAgain = .hit 2 ⟨[0x43], .renewed, 2⟩ ∧
    w.phase .renewed = .ended (some [0x43]) ∧ w.cache.order.Nodup ∧
    (sampleCalls .first).request sampleJson = (sampleCalls .renewed).request sampleJson := by
  obtain ⟨hfirst, hother, hne⟩ := sampleJson_keys
  obtain ⟨w, hrun, hagain, hrenewed⟩ := sample_run sampleJson (by rwa [hfirst, hother])
  obtain ⟨⟨-, hnodup, -⟩, hhit, hrequest⟩ := aiCache_consistent sampleJson_distinct hrun
  exact ⟨w, hagain, hrenewed, (hhit _ _ _ hrenewed).2.2.2, hnodup, hrequest _ _ rfl⟩

end

end AiSuggestionProvider

end MsimeLinux
