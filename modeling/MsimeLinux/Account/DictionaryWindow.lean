import MsimeLinux.Account.DictionaryTsv
import MsimeLinux.Account.SessionRequests

/-!
# The dictionary window (`DictionaryWindow.cpp`)

The window shows one page of the cloud dictionary. What it knows of that page, the conditions
the page was searched with and what the widgets hold now are apart from each other; the user
changes the widgets whenever no worker runs. A worker makes one call of the session after
another, and others use the session in between. Every call of the window is written down.

- `Fresh`: the page that is loaded is what the last list request returned.
- `Kept`: what holds between any two events; every event keeps it.
- `edits_target`: what an update or a delete is about.
-/

namespace MsimeLinux

open Lib AccountSession

namespace DictionaryWindow

/-! ## Pages -/

/-- An answer to a list request, decoded. -/
structure ListAnswer where
  entries : List DictionaryEntry
  hasMore : Bool
  offset : Int64

/-- The checks of `BackendAccountClient::dictionary` (BackendAccountClient.cpp:589) and
`dictionary_catalog`; two entries are the same by their ids in the former, by code and word in
the latter. -/
def acceptPage (same : DictionaryEntry → DictionaryEntry → Bool) (kind : Bytes)
    (offset limit : Int32) (revision : Int64) (answer : ListAnswer) :
    Except Failure DictionaryPage :=
  if offset < 0 ∨ offset > 1000000 ∨ limit < 1 ∨ limit > 200 then .error { status := 400 }
  else if answer.entries.length > limit.toInt.toNat ∨ answer.offset ≠ offset.toInt64 ∨
      answer.entries.any (fun entry => entry.kind ≠ kind) ∨
      ¬ answer.entries.Pairwise (fun old entry => same old entry = false) ∨
      (answer.hasMore ∧ answer.entries.length ≠ limit.toInt.toNat) then
    .error { status := 0 }
  else .ok ⟨answer.entries, answer.hasMore, offset, revision⟩

def sameId (old entry : DictionaryEntry) : Bool := old.id = entry.id

def sameText (old entry : DictionaryEntry) : Bool := old.code = entry.code ∧ old.word = entry.word

/-- A page is the one asked for. -/
theorem acceptPage_offset {same : DictionaryEntry → DictionaryEntry → Bool} {kind : Bytes}
    {offset limit : Int32} {revision : Int64} {answer : ListAnswer} {page : DictionaryPage}
    (h : acceptPage same kind offset limit revision answer = .ok page) :
    page.offset = offset ∧ ¬ offset > 1000000 := by
  unfold acceptPage at h
  split at h
  · cases h
  · rename_i hrange
    split at h
    · cases h
    · cases h
      exact ⟨rfl, fun hlarge => hrange (.inr (.inl hlarge))⟩

/-- The session's surroundings, with a client that has checked the pages it returns. -/
structure ListingEnv where
  account : AccountEnv
  listed : ∀ log kind query offset limit token page,
    account.respond log (.dictionary kind query offset limit token) = .ok page →
      ∃ answer, acceptPage sameId kind offset limit 0 answer = .ok page
  catalogued : ∀ log kind query offset limit token options page,
    account.respond log (.dictionaryCatalog kind query offset limit token options) = .ok page →
      ∃ revision answer, acceptPage sameText kind offset limit revision answer = .ok page

/-! ## The window -/

/-- `Action` (DictionaryWindow.cpp:36). -/
inductive Action where
  | search
  | previous
  | next
  | add
  | update
  | delete
  | imports
  | exports
  | snapshotPrepare
  | snapshotRestore
  | snapshotExport
  | nativeExport
  | nativePrepare
  | nativePublish
  deriving DecidableEq

/-- What a list request depends on; the scheme counts only for the pinyin catalog
(DictionaryWindow.cpp:376). -/
structure Search where
  kind : Bytes := ascii "pinyin"
  query : Bytes := []
  catalog : Bool := false
  scheme : Bytes := ascii "pinyin"
  deriving DecidableEq

/-- `Work` (DictionaryWindow.cpp:53). -/
structure Work where
  action : Action
  search : Search
  offset : Int32 := 0
  selected : Option DictionaryEntry := none
  replacement : DictionaryEntry := ⟨[], [], [], [], 10, 0, []⟩
  catalogRevision : Int64 := 0
  importText : Bytes := []
  importFormat : Bytes := []
  result : DictionaryPage := ⟨[], false, 0, 0⟩
  success : Bool := false
  changed : Bool := false

inductive Stage where
  | begun
  | listing

inductive Phase where
  | idle
  | working (work : Work) (stage : Stage)
  | returned (work : Work)

/-- One call of the session by the window: what the widgets said then, and the page it
returned, if it is a list request that returned. -/
structure Exchange where
  action : Action
  operation : SessionOperation Unit
  selected : Search
  page : Option DictionaryPage

/-- `Window` (DictionaryWindow.cpp:13): the shared session, the widgets, the page, and the calls
made so far. -/
structure Window where
  account : AccountWorld Unit
  generation : Nat
  kind : Bytes := ascii "pinyin"
  query : Bytes := []
  catalog : Bool := false
  catalogScheme : Bytes := ascii "pinyin"
  code : Bytes := []
  word : Bytes := []
  weight : Bytes := ascii "10"
  /-- the rows of the list, and which one is selected -/
  rows : Nat := 0
  selection : Option Nat := none
  previousSensitive : Bool := false
  nextSensitive : Bool := false
  page : DictionaryPage := ⟨[], false, 0, 0⟩
  loadedSearch : Search := {}
  loaded : Bool := false
  importDraft : Bytes := []
  importFormat : Bytes := ascii "standard"
  closed : Bool := false
  phase : Phase := .idle
  trace : List Exchange := []

/-- What the dialog of a click brought. -/
structure Dialog where
  confirmed : Bool
  text : Bytes := []
  format : Bytes := ascii "standard"

/-- What the worker cannot foresee outside the session: files, leases and reviews. -/
structure WindowEnv extends ListingEnv where
  spoiled : Bool := false
  size : Nat := 0
  revision : Int64 := 0
  userId : Bytes := []
  publish : Callback Unit := (pure () : Throwing Failure Unit Unit)

namespace Window

/-- What the widgets say now. -/
def search (w : Window) : Search where
  kind := w.kind
  query := w.query
  catalog := w.catalog
  scheme := if w.catalog && w.kind = ascii "pinyin" then w.catalogScheme else ascii "pinyin"

/-- The page on display is what the widgets say (DictionaryWindow.cpp:380). -/
def same (w : Window) : Bool := w.loaded && w.search = w.loadedSearch

/-- The entry the widgets hold, if its weight is one (DictionaryWindow.cpp:405). -/
def replacement (w : Window) : Option DictionaryEntry :=
  (DictionaryTsv.fromChars w.weight).bind fun weight =>
    if weight < 0 then none else some ⟨[], [], w.code, w.word, Int64.ofInt weight, 0, []⟩

def goesOn (w : Window) (work : Work) (stage : Stage) : Window :=
  { w with phase := .working work stage }

def returns (w : Window) (work : Work) : Window := { w with phase := .returned work }

def stays (w : Window) : Window := { w with phase := .idle }

/-- `refresh` (DictionaryWindow.cpp:71). -/
def refresh (w : Window) : Window :=
  { w with
    previousSensitive := w.loaded && w.page.offset > 0
    nextSensitive := w.loaded && w.page.hasMore }

/-! ## Clicks -/

/-- A page on (DictionaryWindow.cpp:383). -/
def turn (w : Window) (work : Work) (step : Int32) : Window :=
  if w.same then w.goesOn { work with offset := w.page.offset + step } .begun else w

/-- The selected entry, if the page is what the widgets say (DictionaryWindow.cpp:391). -/
def chosen (w : Window) : Option DictionaryEntry :=
  if w.same then w.selection.bind fun index => w.page.entries[index]? else none

/-- An update or a delete (DictionaryWindow.cpp:391). -/
def edit (w : Window) (work : Work) (replacement : Option DictionaryEntry) (confirmed : Bool) :
    Window :=
  match w.chosen, replacement with
  | some entry, some replacement =>
    if confirmed then
      w.goesOn { work with selected := some entry, replacement := replacement } .begun
    else w
  | _, _ => w

/-- An import, whose text is kept for the next try (DictionaryWindow.cpp:523). -/
def bring (w : Window) (work : Work) (replacement : DictionaryEntry) (dialog : Dialog) : Window :=
  if !dialog.confirmed then w
  else
    let w := { w with importDraft := dialog.text, importFormat := dialog.format }
    if dialog.text.isEmpty || dialog.text.length > 65536 then w
    else
      w.goesOn { work with
        replacement := replacement
        importText := dialog.text
        importFormat := dialog.format } .begun

/-- `clicked` (DictionaryWindow.cpp:365). -/
def clicked (w : Window) (action : Action) (dialog : Dialog) : Window :=
  let work : Work := { action := action, search := w.search, catalogRevision := w.page.revision }
  match action with
  | .search | .nativePrepare => w.goesOn work .begun
  | .next => w.turn work 50
  | .previous => w.turn work (-50)
  | .add =>
    match w.replacement with
    | some replacement => w.goesOn { work with replacement := replacement } .begun
    | none => w
  | .update => w.edit work w.replacement dialog.confirmed
  | .delete => w.edit work (some work.replacement) dialog.confirmed
  | .imports =>
    match w.replacement with
    | some replacement => w.bring work replacement dialog
    | none => w
  | .exports | .snapshotExport | .nativeExport | .snapshotPrepare =>
    if dialog.confirmed then w.goesOn { work with importFormat := dialog.format } .begun else w
  | .snapshotRestore | .nativePublish => w

/-! ## The worker -/

end Window

/-- How a scheme is asked for (DictionaryWindow.cpp:181). -/
def options (scheme : Bytes) : DictionaryCatalogOptions :=
  if scheme = ascii "pinyin" then ⟨ascii "pinyin", ascii "xiaohe"⟩ else ⟨ascii "shuangpin", scheme⟩

/-- A list request (DictionaryWindow.cpp:178). -/
def listOperation (g : Nat) (search : Search) (offset : Int32) : SessionOperation Unit :=
  if search.catalog then
    .dictionaryCatalog g search.kind search.query offset 50 (options search.scheme)
  else .dictionary g search.kind search.query offset 50

/-- The request of an update or a delete, about an entry of a page (DictionaryWindow.cpp:116). -/
def editOperation (g : Nat) (search : Search) (revision : Int64) (entry : DictionaryEntry)
    (replacement : Option DictionaryEntry) : SessionOperation Unit :=
  if search.catalog then .manageDictionary g search.kind revision entry replacement
  else .editDictionary g search.kind entry.id entry.revision replacement

/-- The request of an addition, an update or a delete (DictionaryWindow.cpp:115). -/
def entryOperation (g : Nat) (work : Work) : SessionOperation Unit :=
  let replacement := if work.action = .delete then none else some work.replacement
  match work.selected with
  | some entry => editOperation g work.search work.catalogRevision entry replacement
  | none => .editDictionary g work.search.kind [] 0 replacement

/-- The change an action makes before its list request. -/
def changeOperation (E : WindowEnv) (g : Nat) (work : Work) : Option (SessionOperation Unit) :=
  match work.action with
  | .add | .update | .delete => some (entryOperation g work)
  | .imports =>
    if work.importFormat = ascii "hans" then
      some (.importHanDictionary g work.importText work.replacement.weight)
    else some (.importDictionary g work.search.kind work.importText work.importFormat)
  | .snapshotRestore => some (.restoreSnapshot g E.size E.revision)
  | _ => none

/-- What an action that leaves the page alone asks of the session. -/
def sideOperation (E : WindowEnv) (g : Nat) (work : Work) : Option (SessionOperation Unit) :=
  match work.action with
  | .exports => some (.exportDictionary g work.search.kind work.importFormat)
  | .snapshotExport | .snapshotPrepare | .nativePrepare => some (.downloadSnapshot g)
  | .nativePublish => some (.withCurrentUser g E.userId E.publish)
  | _ => none

/-- The actions that end with a list request. -/
def Action.lists : Action → Bool
  | search | previous | next | add | update | delete | imports | snapshotRestore => true
  | _ => false

/-- What is searched for after an import and a restore (DictionaryWindow.cpp:112). -/
def Work.after (work : Work) : Work :=
  { work with
    changed := true
    search :=
      if (work.action = .imports ∨ work.action = .snapshotRestore) ∧ !work.search.catalog then
        { work.search with query := [] }
      else work.search }

namespace Window

variable (J : JsonLib) (E : WindowEnv)

/-- The window after a call of the session. -/
def asked (w : Window) (work : Work) (operation : SessionOperation Unit)
    (account : AccountWorld Unit) (page : Option DictionaryPage) : Window :=
  { w with
    account := account
    trace := w.trace ++ [⟨work.action, operation, w.search, page⟩] }

/-- `dictionary` or `dictionary_catalog`. -/
def listPage (g : Nat) (search : Search) (offset : Int32) : SessionM Unit DictionaryPage :=
  if search.catalog then
    AccountSession.dictionaryCatalog J E.account g search.kind search.query offset 50
      (options search.scheme)
  else AccountSession.dictionary J E.account g search.kind search.query offset 50

/-- The list request of `worker` (DictionaryWindow.cpp:178). -/
def list (w : Window) (work : Work) : Window :=
  let operation := listOperation w.generation work.search work.offset
  match (listPage J E w.generation work.search work.offset).exec w.account with
  | (.ok page, account) =>
    (w.asked work operation account (some page)).returns
      { work with result := page, success := true }
  | (.error _, account) => (w.asked work operation account none).returns work

/-- A change, and then the list (DictionaryWindow.cpp:108). A review may fail before it asks for
the change. -/
def change (w : Window) (work : Work) (operation : SessionOperation Unit) : Window :=
  if work.action = .snapshotRestore ∧ E.spoiled then
    (w.asked work operation w.account none).returns work
  else
    match (operation.perform J E.account).exec w.account with
    | (.ok _, account) => (w.asked work operation account none).goesOn work.after .listing
    | (.error _, account) => (w.asked work operation account none).returns work

/-- An action that leaves the page alone. -/
def aside (w : Window) (work : Work) (operation : SessionOperation Unit) : Window :=
  match (operation.perform J E.account).exec w.account with
  | (.ok _, account) =>
    (w.asked work operation account none).returns { work with success := !E.spoiled }
  | (.error _, account) => (w.asked work operation account none).returns work

/-- `worker` (DictionaryWindow.cpp:76), from one call to the next. -/
def worker (w : Window) (work : Work) : Stage → Window
  | .listing => w.list J E work
  | .begun =>
    if work.action.lists then
      match changeOperation E w.generation work with
      | some operation => w.change J E work operation
      | none => w.list J E work
    else
      match sideOperation E w.generation work with
      | some operation => w.aside J E work operation
      | none => w.returns { work with success := !E.spoiled }

/-! ## The main loop -/

/-- An import and a restore start over (DictionaryWindow.cpp:327). -/
def cleared (w : Window) (work : Work) : Window :=
  if work.changed ∧ (work.action = .imports ∨ work.action = .snapshotRestore) then
    { w with importDraft := [], query := [] }
  else w

/-- A page is put on display, or the one there is goes (DictionaryWindow.cpp:332). -/
def shown (w : Window) (work : Work) : Window :=
  if work.success then
    { w with
      page := work.result
      loadedSearch := work.search
      loaded := true
      rows := work.result.entries.length
      selection := none }
  else { w with loaded := false, rows := 0, selection := none }

/-- `finished` (DictionaryWindow.cpp:234), with the answer to its dialog. -/
def finished (w : Window) (work : Work) (confirmed : Bool) : Window :=
  if w.closed then w.stays
  else if work.action.lists then ((w.cleared work).shown work).refresh.stays
  else
    match work.action with
    | .nativePrepare =>
      if work.success && confirmed then
        w.goesOn { work with action := .nativePublish, success := false } .begun
      else w.stays
    | .snapshotPrepare =>
      if work.success && confirmed then
        w.goesOn { work with action := .snapshotRestore, success := false } .begun
      else w.stays
    | _ => w.refresh.stays

end Window

/-- What can happen next. -/
inductive Event where
  | enter (search : Search) (code word weight : Bytes)
  | select (row : Option Nat)
  | click (action : Action) (dialog : Dialog)
  | worker (E : WindowEnv)
  | finished (confirmed : Bool)
  | shared (E : AccountEnv) (operation : SessionOperation Unit)
  | close

namespace Window

/-- The buttons (DictionaryWindow.cpp:652). -/
def offers (w : Window) : Action → Bool
  | .previous => w.previousSensitive
  | .next => w.nextSensitive
  | .snapshotRestore | .nativePublish => false
  | _ => true

/-- When it can. While a worker runs the window is insensitive (DictionaryWindow.cpp:571). -/
def Allowed (w : Window) : Event → Prop
  | .enter .. => w.phase = .idle ∧ w.closed = false
  | .select row => w.phase = .idle ∧ w.closed = false ∧ ∀ index, row = some index → index < w.rows
  | .click action _ => w.phase = .idle ∧ w.closed = false ∧ w.offers action = true
  | .worker _ => ∃ work stage, w.phase = .working work stage
  | .finished _ => ∃ work, w.phase = .returned work
  | .shared .. | .close => True

/-- A row is selected, and its entry is put into the widgets (DictionaryWindow.cpp:671). -/
def select (w : Window) (row : Option Nat) : Window :=
  match row.bind fun index => w.page.entries[index]? with
  | some entry =>
    { w with
      selection := row
      code := entry.code
      word := entry.word
      weight := ascii (toString entry.weight.toInt) }
  | none => { w with selection := row }

def workerNext (J : JsonLib) (E : WindowEnv) (w : Window) : Window :=
  match w.phase with
  | .working work stage => w.worker J E work stage
  | _ => w

def finishedNext (confirmed : Bool) (w : Window) : Window :=
  match w.phase with
  | .returned work => w.finished work confirmed
  | _ => w

/-- What happens then. -/
def next (J : JsonLib) (w : Window) : Event → Window
  | .enter search code word weight =>
    { w with
      kind := search.kind
      query := search.query
      catalog := search.catalog
      catalogScheme := search.scheme
      code := code
      word := word
      weight := weight }
  | .select row => w.select row
  | .click action dialog => w.clicked action dialog
  | .worker E => w.workerNext J E
  | .finished confirmed => w.finishedNext confirmed
  | .shared E operation => { w with account := operation.after J E w.account }
  | .close => { w with closed := true }

/-- A step of the window, of its worker or of those it shares its session with. -/
def Step (J : JsonLib) (w : Window) (e : Event) (v : Window) : Prop :=
  w.Allowed e ∧ v = w.next J e

/-- The window as it is built (DictionaryWindow.cpp:594). -/
def initial (account : AccountWorld Unit) (generation : Nat) : Window :=
  { account := account, generation := generation }

end Window

/-! ## What the requests are about -/

/-- A list request, and a request that changes the dictionary. -/
def isList : SessionOperation Unit → Bool
  | .dictionary .. | .dictionaryCatalog .. => true
  | _ => false

def isChange : SessionOperation Unit → Bool
  | .manageDictionary .. | .editDictionary .. | .importDictionary .. | .importHanDictionary ..
  | .restoreSnapshot .. => true
  | _ => false

/-- It names an entry there is. -/
def namesEntry : SessionOperation Unit → Bool
  | .manageDictionary .. => true
  | .editDictionary _ _ id _ replacement => !id.isEmpty || replacement.isNone
  | _ => false

/-- The request of an update or a delete. -/
def Exchange.Edits (e : Exchange) : Prop :=
  (e.action = .update ∨ e.action = .delete) ∧ isChange e.operation = true

/-- The last list request; since then there has been none, nor any change. -/
def Latest (trace : List Exchange) (list : Exchange) : Prop :=
  ∃ before between, trace = before ++ list :: between ∧
    ∀ e ∈ between, isList e.operation = false ∧ isChange e.operation = false

/-- It is about an entry of the page that this list request has returned, whose conditions the
widgets still show. -/
structure Targets (g : Nat) (list edit : Exchange) : Prop where
  target : ∃ page entry replacement, list.page = some page ∧
    list.operation = listOperation g edit.selected page.offset ∧ entry ∈ page.entries ∧
      edit.operation = editOperation g edit.selected page.revision entry replacement

/-- Full pages from the first on. -/
def Paged (offset : Int32) : Prop := 0 ≤ offset.toInt ∧ offset.toInt % 50 = 0

/-- What the requests so far are about. -/
structure Sane (g : Nat) (trace : List Exchange) : Prop where
  edits : ∀ earlier edit later, trace = earlier ++ edit :: later → edit.Edits →
    ∃ list, Latest earlier list ∧ Targets g list edit
  named : ∀ e ∈ trace, namesEntry e.operation = true → e.Edits
  paged : ∀ e ∈ trace, ∀ search offset, e.operation = listOperation g search offset → Paged offset

/-! ## Invariants -/

namespace Window

/-- The page on display is what the last list request returned. -/
def Fresh (w : Window) : Prop :=
  w.loaded = true → ∃ list, Latest w.trace list ∧ list.page = some w.page ∧
    list.operation = listOperation w.generation w.loadedSearch w.page.offset

/-- The list request of a work has just returned its result. -/
def Listed (w : Window) (work : Work) : Prop :=
  ∃ list, Latest w.trace list ∧ list.page = some work.result ∧
    list.operation = listOperation w.generation work.search work.result.offset ∧
      Paged work.result.offset ∧ work.result.offset.toInt ≤ 1000000

/-- The entry a work is about is on the page, and the page is what the widgets say. -/
def Chosen (w : Window) (work : Work) : Prop :=
  ∃ entry, work.selected = some entry ∧ entry ∈ w.page.entries ∧ w.loaded = true ∧
    work.search = w.search ∧ w.search = w.loadedSearch ∧ work.catalogRevision = w.page.revision

/-- A work that has not begun. -/
structure Prepared (w : Window) (work : Work) : Prop where
  fresh : w.Fresh
  paged : Paged work.offset
  unfinished : work.success = false
  chosen : work.action = .update ∨ work.action = .delete → w.Chosen work
  other : ¬ (work.action = .update ∨ work.action = .delete) → work.selected = none

/-- Where the window is. -/
def Ready (w : Window) : Prop :=
  match w.phase with
  | .idle => w.closed = false → w.Fresh
  | .working work .begun => w.Prepared work
  | .working work .listing => Paged work.offset ∧ work.success = false ∧ work.action.lists = true
  | .returned work =>
    if work.action.lists then work.success = true → w.Listed work
    else w.Fresh ∧ Paged work.offset ∧ work.selected = none

/-- **What holds between any two events.** -/
structure Kept (w : Window) : Prop where
  sane : Sane w.generation w.trace
  paged : w.loaded = true → Paged w.page.offset ∧ w.page.offset.toInt ≤ 1000000
  sensitive : w.previousSensitive = true → w.page.offset > 0
  ready : w.Ready

end Window

/-! ## Traces -/

theorem listOperation_isList (g : Nat) (search : Search) (offset : Int32) :
    isList (listOperation g search offset) = true := by
  unfold listOperation
  split <;> rfl

/-- A list request says which page it is for. -/
theorem listOperation_offset {g : Nat} {search search' : Search} {offset offset' : Int32}
    (h : listOperation g search offset = listOperation g search' offset') : offset = offset' := by
  unfold listOperation at h
  split at h <;> split at h
  · exact (SessionOperation.dictionaryCatalog.inj h).2.2.2.1
  · cases h
  · cases h
  · exact (SessionOperation.dictionary.inj h).2.2.2.1

/-- A list request changes nothing, and a change lists nothing. -/
theorem isChange_of_isList {operation : SessionOperation Unit} (h : isList operation = true) :
    isChange operation = false ∧ namesEntry operation = false := by
  cases operation <;> first | exact ⟨rfl, rfl⟩ | cases h

/-- A change is no list request. -/
theorem isList_of_isChange {operation : SessionOperation Unit} (h : isChange operation = true) :
    isList operation = false := by
  cases operation <;> first | rfl | cases h

/-- What names an entry changes it. -/
theorem isChange_of_namesEntry {operation : SessionOperation Unit}
    (h : namesEntry operation = true) : isChange operation = true := by
  cases operation <;> first | rfl | cases h

/-- A list that comes last is the latest. -/
theorem Latest.last (trace : List Exchange) (list : Exchange) : Latest (trace ++ [list]) list := by
  refine ⟨trace, [], rfl, ?_⟩
  intro e he
  cases he

/-- It stays so while nothing is listed or changed. -/
theorem Latest.snoc {trace : List Exchange} {list e : Exchange} (h : Latest trace list)
    (hlist : isList e.operation = false) (hchange : isChange e.operation = false) :
    Latest (trace ++ [e]) list := by
  obtain ⟨before, between, rfl, hbetween⟩ := h
  refine ⟨before, between ++ [e], by rw [List.append_assoc, List.cons_append], ?_⟩
  intro e' he'
  rcases List.mem_append.mp he' with he' | he'
  · exact hbetween e' he'
  · rw [List.mem_singleton.mp he']
    exact ⟨hlist, hchange⟩

/-- One exchange more. -/
theorem Sane.snoc {g : Nat} {trace : List Exchange} {e : Exchange} (h : Sane g trace)
    (hedits : e.Edits → ∃ list, Latest trace list ∧ Targets g list e)
    (hnamed : namesEntry e.operation = true → e.Edits)
    (hpaged : ∀ search offset, e.operation = listOperation g search offset → Paged offset) :
    Sane g (trace ++ [e]) where
  edits := by
    intro earlier edit later hsplit hedit
    rcases List.eq_nil_or_concat later with rfl | ⟨later', last, rfl⟩
    · obtain ⟨rfl, heq⟩ := List.append_inj' hsplit rfl
      cases heq
      exact hedits hedit
    · rw [List.concat_eq_append, ← List.cons_append, ← List.append_assoc] at hsplit
      exact h.edits earlier edit later' (List.append_inj' hsplit rfl).1 hedit
  named := by
    intro e' he'
    rcases List.mem_append.mp he' with he' | he'
    · exact h.named e' he'
    · rw [List.mem_singleton.mp he']
      exact hnamed
  paged := by
    intro e' he'
    rcases List.mem_append.mp he' with he' | he'
    · exact h.paged e' he'
    · rw [List.mem_singleton.mp he']
      exact hpaged

/-- A call that neither lists nor changes anything. -/
theorem Sane.aside {g : Nat} {trace : List Exchange} {e : Exchange} (h : Sane g trace)
    (hlist : isList e.operation = false) (hchange : isChange e.operation = false) :
    Sane g (trace ++ [e]) := by
  refine h.snoc (fun hedit => ?_) (fun hnames => ?_) (fun search offset heq => ?_)
  · rw [hedit.2] at hchange
    cases hchange
  · rw [isChange_of_namesEntry hnames] at hchange
    cases hchange
  · rw [heq, listOperation_isList] at hlist
    cases hlist

/-- A list request. -/
theorem Sane.listed {g : Nat} {trace : List Exchange} {e : Exchange} {search : Search}
    {offset : Int32} (h : Sane g trace) (heq : e.operation = listOperation g search offset)
    (hpaged : Paged offset) : Sane g (trace ++ [e]) := by
  obtain ⟨hchange, hnames⟩ := isChange_of_isList (listOperation_isList g search offset)
  refine h.snoc (fun hedit => ?_) (fun hnamed => ?_) (fun search' offset' heq' => ?_)
  · rw [← heq, hedit.2] at hchange
    cases hchange
  · rw [heq, hnames] at hnamed
    cases hnamed
  · rw [← listOperation_offset (heq.symm.trans heq')]
    exact hpaged

/-! ## Offsets -/

theorem paged_zero : Paged 0 := ⟨by decide, by decide⟩

/-- The offset of the next page does not overflow. -/
theorem toInt_add_fifty {offset : Int32} (h : 0 ≤ offset.toInt) (hle : offset.toInt ≤ 1000000) :
    (offset + 50).toInt = offset.toInt + 50 := by
  have hfifty : (50 : Int32).toInt = 50 := by decide
  rw [Int32.toInt_add, hfifty]
  exact Int.bmod_eq_of_le (by omega) (by omega)

/-- Nor does that of the one before. -/
theorem toInt_sub_fifty {offset : Int32} (h : 50 ≤ offset.toInt) (hle : offset.toInt ≤ 1000000) :
    (offset + -50).toInt = offset.toInt - 50 := by
  have hfifty : (-50 : Int32).toInt = -50 := by decide
  rw [Int32.toInt_add, hfifty]
  exact Int.bmod_eq_of_le (by omega) (by omega)

theorem toInt_le_of_not_gt {offset : Int32} (h : ¬ offset > 1000000) :
    offset.toInt ≤ 1000000 := by
  rw [gt_iff_lt, Int32.lt_iff_toInt_lt] at h
  have hmillion : (1000000 : Int32).toInt = 1000000 := by decide
  omega

/-! ## The page a list request returns -/

/-- What a method behind a token returns is what its request has returned. -/
theorem withToken_returns {J : JsonLib} {E : AccountEnv} {g : Nat} {α : Type} {P : α → Prop}
    {operation : Bytes → SessionM Unit α} {w : AccountWorld Unit}
    (h : ∀ token w, Outcome (operation token) w fun result _ => ∀ a, result = .ok a → P a) :
    Outcome (withToken J E g operation) w fun result _ => ∀ a, result = .ok a → P a := by
  unfold withToken
  refine Outcome.call (P := fun _ _ => True) trivial (fun token w₁ _ => ?_) fun _ _ _ _ h => by
    cases h
  exact discardRejected_ok (P := fun a _ => P a) (h token w₁)

/-- A page that was listed is the one asked for, and within range. -/
theorem listPage_offset {J : JsonLib} {E : WindowEnv} (g : Nat) (search : Search)
    (offset : Int32) (w : AccountWorld Unit) :
    Outcome (Window.listPage J E g search offset) w fun result _ =>
      ∀ page, result = .ok page → page.offset = offset ∧ ¬ offset > 1000000 := by
  unfold Window.listPage
  split
  · refine withToken_returns
      (P := fun page : DictionaryPage => page.offset = offset ∧ ¬ offset > 1000000) ?_
    intro token w
    refine (call_spec _ w).mono ?_
    rintro result _ h page rfl
    obtain ⟨revision, answer, haccepted⟩ := E.catalogued _ _ _ _ _ _ _ _ h.1
    exact acceptPage_offset haccepted
  · refine withToken_returns
      (P := fun page : DictionaryPage => page.offset = offset ∧ ¬ offset > 1000000) ?_
    intro token w
    refine (call_spec _ w).mono ?_
    rintro result _ h page rfl
    obtain ⟨answer, haccepted⟩ := E.listed _ _ _ _ _ _ _ h.1
    exact acceptPage_offset haccepted

/-! ## The worker -/

/-- Imports, exports and reviews neither list nor change an entry. -/
theorem sideOperation_plain {E : WindowEnv} {g : Nat} {work : Work}
    {operation : SessionOperation Unit} (h : sideOperation E g work = some operation) :
    isList operation = false ∧ isChange operation = false := by
  unfold sideOperation at h
  cases haction : work.action <;> rw [haction] at h <;> cases h <;> exact ⟨rfl, rfl⟩

theorem isChange_editOperation (g : Nat) (search : Search) (revision : Int64)
    (entry : DictionaryEntry) (replacement : Option DictionaryEntry) :
    isChange (editOperation g search revision entry replacement) = true := by
  unfold editOperation
  split <;> rfl

theorem entryOperation_isChange (g : Nat) (work : Work) :
    isChange (entryOperation g work) = true := by
  unfold entryOperation
  dsimp only
  split
  · exact isChange_editOperation _ _ _ _ _
  · rfl

/-- The request of a change is one. -/
theorem changeOperation_isChange {E : WindowEnv} {g : Nat} {work : Work}
    {operation : SessionOperation Unit} (h : changeOperation E g work = some operation) :
    isChange operation = true := by
  unfold changeOperation at h
  cases haction : work.action <;> rw [haction] at h
  case add | update | delete =>
    rw [← Option.some.inj h]
    exact entryOperation_isChange g work
  case imports =>
    dsimp only at h
    split at h <;> cases h <;> rfl
  case snapshotRestore =>
    cases h
    rfl
  all_goals cases h

/-- Only an update and a delete name an entry, if nothing else is about one. -/
theorem changeOperation_names {E : WindowEnv} {g : Nat} {work : Work}
    {operation : SessionOperation Unit} (h : changeOperation E g work = some operation)
    (hother : ¬ (work.action = .update ∨ work.action = .delete) → work.selected = none)
    (hnames : namesEntry operation = true) : work.action = .update ∨ work.action = .delete := by
  by_contra hnot
  have hselected := hother hnot
  unfold changeOperation at h
  cases haction : work.action <;> rw [haction] at h hnot
  case update => exact hnot (.inl rfl)
  case delete => exact hnot (.inr rfl)
  case add =>
    rw [← Option.some.inj h, entryOperation, hselected, haction] at hnames
    cases hnames
  case imports =>
    dsimp only at h
    split at h <;> cases h <;> cases hnames
  case snapshotRestore =>
    cases h
    cases hnames
  all_goals cases h

/-- What an update or a delete asks for. -/
theorem changeOperation_edits {E : WindowEnv} {g : Nat} {work : Work}
    {operation : SessionOperation Unit} (h : changeOperation E g work = some operation)
    (haction : work.action = .update ∨ work.action = .delete) {entry : DictionaryEntry}
    (hselected : work.selected = some entry) : ∃ replacement,
      operation = editOperation g work.search work.catalogRevision entry replacement := by
  have hoperation : operation = entryOperation g work := by
    unfold changeOperation at h
    obtain haction | haction := haction
    · rw [haction] at h
      exact (Option.some.inj h).symm
    · rw [haction] at h
      exact (Option.some.inj h).symm
  rw [hoperation, entryOperation, hselected]
  exact ⟨_, rfl⟩

namespace Window

variable {J : JsonLib} {E : WindowEnv} {w : Window} {work : Work}

/-- The thread returns with a list. -/
theorem Ready.listed (hlists : work.action.lists = true)
    (hlisted : work.success = true → w.Listed work) : (w.returns work).Ready := by
  show if work.action.lists then _ else _
  rw [if_pos hlists]
  exact hlisted

/-- It returns from something else, and the page on display is still good. -/
theorem Ready.aside (hlists : work.action.lists = false) (hfresh : w.Fresh)
    (hpaged : Paged work.offset) (hselected : work.selected = none) : (w.returns work).Ready := by
  show if work.action.lists then _ else _
  rw [if_neg (by rw [hlists]; exact Bool.false_ne_true)]
  exact ⟨hfresh, hpaged, hselected⟩

/-- A list request has been made. -/
theorem Kept.list (h : w.Kept) (hpaged : Paged work.offset) (hunfinished : work.success = false)
    (hlists : work.action.lists = true) : (w.list J E work).Kept := by
  have hpage := listPage_offset (J := J) (E := E) w.generation work.search work.offset w.account
  unfold Window.list
  unfold Outcome at hpage
  dsimp only
  rcases hexec : (listPage J E w.generation work.search work.offset).exec w.account with
    ⟨failure | page, account⟩
  · refine ⟨h.sane.listed rfl hpaged, h.paged, h.sensitive, .listed hlists fun hsuccess => ?_⟩
    rw [hunfinished] at hsuccess
    cases hsuccess
  · rw [hexec] at hpage
    obtain ⟨hoffset, hle⟩ := hpage page rfl
    refine ⟨h.sane.listed rfl hpaged, h.paged, h.sensitive, .listed hlists fun _ => ?_⟩
    refine ⟨_, .last _ _, rfl, ?_, ?_, ?_⟩
    · show listOperation w.generation work.search work.offset = listOperation _ _ page.offset
      rw [hoffset]
      rfl
    · show Paged page.offset
      rwa [hoffset]
    · show page.offset.toInt ≤ 1000000
      rw [hoffset]
      exact toInt_le_of_not_gt hle

/-- A change has been asked for. -/
theorem Kept.change (h : w.Kept) (hprepared : w.Prepared work)
    (hlists : work.action.lists = true) {operation : SessionOperation Unit}
    (hoperation : changeOperation E w.generation work = some operation) :
    (w.change J E work operation).Kept := by
  have hsane (account : AccountWorld Unit) : Sane w.generation
      (w.asked work operation account none).trace := by
    have hchange := changeOperation_isChange hoperation
    refine h.sane.snoc ?_ ?_ ?_
    · rintro ⟨haction, -⟩
      obtain ⟨entry, hselected, hmem, hloaded, hsearch, hshown, hrevision⟩ :=
        hprepared.chosen haction
      obtain ⟨replacement, hedit⟩ := changeOperation_edits hoperation haction hselected
      obtain ⟨list, hlatest, hpage, hlist⟩ := hprepared.fresh hloaded
      refine ⟨list, hlatest, ⟨w.page, entry, replacement, hpage, ?_, hmem, ?_⟩⟩
      · rw [hlist, ← hshown]
      · show operation = _
        rw [hedit, hsearch, hrevision]
    · intro hnames
      exact ⟨changeOperation_names hoperation hprepared.other hnames, hchange⟩
    · intro search offset heq
      have hlist := isList_of_isChange hchange
      rw [show operation = _ from heq, listOperation_isList] at hlist
      cases hlist
  have hfailed (account : AccountWorld Unit) :
      ((w.asked work operation account none).returns work).Kept := by
    refine ⟨hsane account, h.paged, h.sensitive, .listed hlists fun hsuccess => ?_⟩
    rw [hprepared.unfinished] at hsuccess
    cases hsuccess
  unfold Window.change
  split
  · exact hfailed w.account
  rcases (operation.perform J E.account).exec w.account with ⟨failure | _, account⟩
  · exact hfailed account
  · exact ⟨hsane account, h.paged, h.sensitive, hprepared.paged, hprepared.unfinished, hlists⟩

/-- Something else has been asked for. -/
theorem Kept.aside (h : w.Kept) (hprepared : w.Prepared work)
    (hlists : work.action.lists = false) (hselected : work.selected = none)
    {operation : SessionOperation Unit}
    (hoperation : sideOperation E w.generation work = some operation) :
    (w.aside J E work operation).Kept := by
  obtain ⟨hlist, hchange⟩ := sideOperation_plain hoperation
  have hsane (account : AccountWorld Unit) : Sane w.generation
      (w.asked work operation account none).trace := h.sane.aside hlist hchange
  have hfresh (account : AccountWorld Unit) : (w.asked work operation account none).Fresh := by
    intro hloaded
    obtain ⟨list, hlatest, hpage⟩ := hprepared.fresh hloaded
    exact ⟨list, hlatest.snoc hlist hchange, hpage⟩
  unfold Window.aside
  rcases (operation.perform J E.account).exec w.account with ⟨failure | _, account⟩
  · exact ⟨hsane account, h.paged, h.sensitive,
      .aside hlists (hfresh account) hprepared.paged hselected⟩
  · exact ⟨hsane account, h.paged, h.sensitive,
      .aside hlists (hfresh account) hprepared.paged hselected⟩

/-- **The worker**, from one call to the next. -/
theorem Kept.worker {stage : Stage} (h : w.Kept) (hphase : w.phase = .working work stage) :
    (w.worker J E work stage).Kept := by
  have hready := h.ready
  unfold Ready at hready
  rw [hphase] at hready
  cases stage with
  | listing => exact h.list hready.1 hready.2.1 hready.2.2
  | begun =>
    unfold Window.worker
    by_cases hlists : work.action.lists = true
    · rw [if_pos hlists]
      cases hoperation : changeOperation E w.generation work with
      | none => exact h.list hready.paged hready.unfinished hlists
      | some operation => exact h.change hready hlists hoperation
    · rw [if_neg hlists]
      have hselected : work.selected = none := hready.other fun haction => hlists (by
        obtain haction | haction := haction
        · rw [haction]
          rfl
        · rw [haction]
          rfl)
      rw [Bool.not_eq_true] at hlists
      cases hoperation : sideOperation E w.generation work with
      | none =>
        exact ⟨h.sane, h.paged, h.sensitive, .aside hlists hready.fresh hready.paged hselected⟩
      | some operation => exact h.aside hready hlists hselected hoperation

/-! ## The main loop -/

/-- Its widgets apart, it is the same window. -/
theorem cleared_same (w : Window) (work : Work) : (w.cleared work).generation = w.generation ∧
    (w.cleared work).trace = w.trace := by
  unfold cleared
  split
  · exact ⟨rfl, rfl⟩
  · exact ⟨rfl, rfl⟩

/-- After `refresh` the buttons are what the page makes them. -/
theorem Kept.refreshed (hsane : Sane w.generation w.trace)
    (hpaged : w.loaded = true → Paged w.page.offset ∧ w.page.offset.toInt ≤ 1000000)
    (hfresh : w.Fresh) : w.refresh.stays.Kept where
  sane := hsane
  paged := hpaged
  sensitive hsensitive := of_decide_eq_true (Bool.and_eq_true_iff.mp hsensitive).2
  ready := fun _ => hfresh

/-- What a list request has returned is put on display; what it has not, is not. -/
theorem Kept.shown (h : w.Kept) (hlisted : work.success = true → w.Listed work) :
    ((w.cleared work).shown work).refresh.stays.Kept := by
  obtain ⟨hgeneration, htrace⟩ := cleared_same w work
  have hsane : Sane (w.cleared work).generation (w.cleared work).trace := by
    rw [hgeneration, htrace]
    exact h.sane
  unfold Window.shown
  split
  · rename_i hsuccess
    obtain ⟨list, hlatest, hpage, hlist, hpaged, hle⟩ := hlisted hsuccess
    rw [← htrace] at hlatest
    rw [← hgeneration] at hlist
    exact .refreshed hsane (fun _ => ⟨hpaged, hle⟩) fun _ => ⟨list, hlatest, hpage, hlist⟩
  · exact .refreshed hsane (fun hloaded => Bool.noConfusion hloaded) fun hloaded =>
      Bool.noConfusion hloaded

/-- The main loop takes over what the thread returned. -/
theorem Kept.finished (h : w.Kept) (hphase : w.phase = .returned work) (confirmed : Bool) :
    (w.finished work confirmed).Kept := by
  have hready := h.ready
  unfold Ready at hready
  rw [hphase] at hready
  dsimp only at hready
  unfold Window.finished
  by_cases hclosed : w.closed = true
  · rw [if_pos hclosed]
    refine ⟨h.sane, h.paged, h.sensitive, fun hopen => ?_⟩
    rw [show w.closed = false from hopen] at hclosed
    cases hclosed
  rw [if_neg hclosed]
  by_cases hlists : work.action.lists = true
  · rw [if_pos hlists] at hready ⊢
    exact h.shown hready
  · rw [if_neg hlists] at hready ⊢
    obtain ⟨hfresh, hpaged, hselected⟩ := hready
    have hstays : w.stays.Kept := ⟨h.sane, h.paged, h.sensitive, fun _ => hfresh⟩
    have hgoes (action : Action) (hother : ¬ (action = .update ∨ action = .delete)) :
        (w.goesOn { work with action := action, success := false } .begun).Kept :=
      ⟨h.sane, h.paged, h.sensitive, hfresh, hpaged, rfl, fun haction => absurd haction hother,
        fun _ => hselected⟩
    split
    · split
      · exact hgoes .nativePublish (by decide)
      · exact hstays
    · split
      · exact hgoes .snapshotRestore (by decide)
      · exact hstays
    · exact .refreshed h.sane h.paged hfresh

/-! ## Clicks -/

/-- The thread starts. -/
theorem Kept.goesOn (h : w.Kept) (hprepared : w.Prepared work) : (w.goesOn work .begun).Kept :=
  ⟨h.sane, h.paged, h.sensitive, { hprepared with }⟩

/-- A click that only starts a work. -/
theorem Fresh.prepared (h : w.Fresh) (hpaged : Paged work.offset)
    (hunfinished : work.success = false) (hselected : work.selected = none)
    (hother : ¬ (work.action = .update ∨ work.action = .delete)) : w.Prepared work :=
  ⟨h, hpaged, hunfinished, fun haction => absurd haction hother, fun _ => hselected⟩

/-- The page on display is of the search that is typed. -/
theorem same_iff : w.same = true ↔ w.loaded = true ∧ w.search = w.loadedSearch := by
  unfold Window.same
  rw [Bool.and_eq_true, decide_eq_true_eq]

/-- The buttons for the pages. -/
theorem Kept.turn (h : w.Kept) (hfresh : w.Fresh) {step : Int32}
    (hpaged : w.loaded = true → Paged (w.page.offset + step))
    (hunfinished : work.success = false) (hselected : work.selected = none)
    (hother : ¬ (work.action = .update ∨ work.action = .delete)) : (w.turn work step).Kept := by
  unfold Window.turn
  split
  · rename_i hsame
    exact h.goesOn (hfresh.prepared (hpaged (same_iff.mp hsame).1) hunfinished hselected hother)
  · exact h

/-- Changing or deleting: the entry is one of the page on display. -/
theorem Kept.edit (h : w.Kept) (hfresh : w.Fresh) (hsearch : work.search = w.search)
    (hrevision : work.catalogRevision = w.page.revision) (hpaged : Paged work.offset)
    (hunfinished : work.success = false) (haction : work.action = .update ∨ work.action = .delete)
    (replacement : Option DictionaryEntry) (confirmed : Bool) :
    (w.edit work replacement confirmed).Kept := by
  unfold Window.edit
  cases hchosen : w.chosen with
  | none => exact h
  | some entry =>
    cases replacement with
    | none => exact h
    | some replacement =>
      dsimp only
      split
      · refine h.goesOn ⟨hfresh, hpaged, hunfinished, fun _ => ?_,
          fun hother => absurd haction hother⟩
        unfold Window.chosen at hchosen
        split at hchosen
        · rename_i hsame
          obtain ⟨hloaded, hshown⟩ := same_iff.mp hsame
          obtain ⟨index, -, hentry⟩ := Option.bind_eq_some_iff.mp hchosen
          exact ⟨entry, rfl, List.mem_of_getElem? hentry, hloaded, hsearch, hshown, hrevision⟩
        · cases hchosen
      · exact h

/-- Adding, importing, exporting. -/
theorem Kept.bring (h : w.Kept) (hphase : w.phase = .idle) (hfresh : w.Fresh)
    (hpaged : Paged work.offset) (hunfinished : work.success = false)
    (hselected : work.selected = none)
    (hother : ¬ (work.action = .update ∨ work.action = .delete)) (replacement : DictionaryEntry)
    (dialog : Dialog) : (w.bring work replacement dialog).Kept := by
  have hdraft : { w with importDraft := dialog.text, importFormat := dialog.format }.Kept := by
    refine ⟨h.sane, h.paged, h.sensitive, ?_⟩
    unfold Ready
    dsimp only
    rw [hphase]
    exact fun _ => hfresh
  unfold Window.bring
  split
  · exact h
  · dsimp only
    split
    · exact hdraft
    · exact hdraft.goesOn (Fresh.prepared hfresh hpaged hunfinished hselected hother)

/-- **Every button keeps it.** -/
theorem Kept.clicked (h : w.Kept) (hphase : w.phase = .idle) (hopen : w.closed = false)
    {action : Action} (hoffers : w.offers action = true) (dialog : Dialog) :
    (w.clicked action dialog).Kept := by
  have hfresh : w.Fresh := by
    have hready := h.ready
    unfold Ready at hready
    rw [hphase] at hready
    exact hready hopen
  have hstarts (work : Work) (hpaged : Paged work.offset) (hunfinished : work.success = false)
      (hselected : work.selected = none)
      (hother : ¬ (work.action = .update ∨ work.action = .delete)) :
      (w.goesOn work .begun).Kept :=
    h.goesOn (hfresh.prepared hpaged hunfinished hselected hother)
  unfold Window.clicked
  cases action with
  | search | nativePrepare => exact hstarts _ paged_zero rfl rfl (by simp)
  | next =>
    -- a full page is followed by another, which is within the limit
    refine h.turn hfresh (fun hloaded => ?_) rfl rfl (by simp)
    obtain ⟨⟨hzero, hfull⟩, hle⟩ := h.paged hloaded
    unfold Paged
    rw [toInt_add_fifty hzero hle]
    omega
  | previous =>
    -- the button is off on the first page
    refine h.turn hfresh (fun hloaded => ?_) rfl rfl (by simp)
    obtain ⟨⟨hzero, hfull⟩, hle⟩ := h.paged hloaded
    have hlater : w.page.offset > 0 := h.sensitive hoffers
    rw [gt_iff_lt, Int32.lt_iff_toInt_lt, Int32.toInt_zero] at hlater
    unfold Paged
    rw [toInt_sub_fifty (by omega) hle]
    omega
  | add =>
    dsimp only
    split
    · exact hstarts _ paged_zero rfl rfl (by simp)
    · exact h
  | update => exact h.edit hfresh rfl rfl paged_zero rfl (.inl rfl) _ _
  | delete => exact h.edit hfresh rfl rfl paged_zero rfl (.inr rfl) _ _
  | imports =>
    -- the dialog may be cancelled
    dsimp only
    split
    · exact h.bring hphase hfresh paged_zero rfl rfl (by simp) _ _
    · exact h
  | exports | snapshotExport | nativeExport | snapshotPrepare =>
    dsimp only
    split
    · exact hstarts _ paged_zero rfl rfl (by simp)
    · exact h
  | snapshotRestore | nativePublish => exact h

/-! ## Runs -/

theorem Ready.idle (hphase : w.phase = .idle) (hfresh : w.closed = false → w.Fresh) : w.Ready := by
  unfold Ready
  rw [hphase]
  exact hfresh

/-- **Every step keeps it.** -/
theorem Kept.step {v : Window} {e : Event} (h : w.Kept) (hstep : Step J w e v) : v.Kept := by
  obtain ⟨hallowed, rfl⟩ := hstep
  have hready := h.ready
  unfold Ready at hready
  cases e with
  | enter search code word weight =>
    obtain ⟨hphase, hopen⟩ := hallowed
    rw [hphase] at hready
    exact ⟨h.sane, h.paged, h.sensitive, .idle hphase fun _ => hready hopen⟩
  | select row =>
    -- a row fills the fields, or empties them
    obtain ⟨hphase, hopen, -⟩ := hallowed
    rw [hphase] at hready
    show (w.select row).Kept
    unfold Window.select
    split
    · exact ⟨h.sane, h.paged, h.sensitive, .idle hphase fun _ => hready hopen⟩
    · exact ⟨h.sane, h.paged, h.sensitive, .idle hphase fun _ => hready hopen⟩
  | click action dialog => exact h.clicked hallowed.1 hallowed.2.1 hallowed.2.2 dialog
  | worker E =>
    show (w.workerNext J E).Kept
    unfold workerNext
    split
    · exact h.worker ‹_›
    · exact h
  | finished confirmed =>
    show (w.finishedNext confirmed).Kept
    unfold finishedNext
    split
    · exact h.finished ‹_› confirmed
    · exact h
  | shared E operation =>
    -- the account may change, which no phase relies on
    refine ⟨h.sane, h.paged, h.sensitive, ?_⟩
    show Ready { w with account := operation.after J E w.account }
    unfold Ready
    cases hphase : w.phase with
    | idle =>
      rw [hphase] at hready
      exact hready
    | working work stage =>
      rw [hphase] at hready
      cases stage with
      | begun => exact { hready with }
      | listing => exact hready
    | returned work =>
      rw [hphase] at hready
      exact hready
  | close =>
    -- a closed window has nothing to be ready for, but a worker still runs
    refine ⟨h.sane, h.paged, h.sensitive, ?_⟩
    show Ready { w with closed := true }
    unfold Ready
    cases hphase : w.phase with
    | idle => exact fun hopen => Bool.noConfusion hopen
    | working work stage =>
      rw [hphase] at hready
      cases stage with
      | begun => exact { hready with }
      | listing => exact hready
    | returned work =>
      rw [hphase] at hready
      exact hready

/-- A new window has asked for nothing. -/
theorem Kept.initial (account : AccountWorld Unit) (generation : Nat) :
    (initial account generation).Kept where
  sane := by
    refine ⟨fun earlier edit later hsplit => ?_, fun e he => ?_, fun e he => ?_⟩
    · have hlength := congrArg List.length hsplit
      simp [Window.initial] at hlength
    · cases he
    · cases he
  paged hloaded := Bool.noConfusion hloaded
  sensitive hsensitive := Bool.noConfusion hsensitive
  ready := fun _ hloaded => Bool.noConfusion hloaded

end Window

/-- **An edit is about the entry on screen.** In every run of the window, with any changes of
the widgets between its actions, any answers, and anything else done with the session:

- an update or a delete asks for what concerns an entry of the page that the last list request
  returned, whose kind, query, catalog flag and scheme are those the widgets show now, by the
  entry's id and revision, or by its code and word and the catalog's revision; and since that
  request nothing has been changed, successfully or not, and no list request has failed;
- nothing else asks for a change of an entry there is;
- the offset of a list request is a multiple of the page size, and not negative. -/
theorem edits_target {J : JsonLib} {account : AccountWorld Unit} {generation : Nat}
    {events : List Event} {w : Window}
    (h : Run (Window.Step J) (Window.initial account generation) events w) :
    (∀ earlier edit later, w.trace = earlier ++ edit :: later → edit.Edits →
      ∃ list, Latest earlier list ∧ Targets w.generation list edit) ∧
    (∀ e ∈ w.trace, namesEntry e.operation = true → e.Edits) ∧
    ∀ e ∈ w.trace, ∀ search offset, e.operation = listOperation w.generation search offset →
      Paged offset := by
  have hkept := h.invariant (I := Window.Kept) (fun _ _ _ => Window.Kept.step)
    (.initial account generation)
  exact ⟨hkept.sane.edits, hkept.sane.named, hkept.sane.paged⟩

/-! ## A sample run -/

/-- A dictionary of one entry. -/
def niEntry : DictionaryEntry :=
  ⟨ascii "e1", ascii "pinyin", ascii "ni", utf8 "你", 10, 3, ascii "now"⟩

def niAnswer : ListAnswer := ⟨[niEntry], false, 0⟩

def niEnv : WindowEnv where
  account := { quietEnv 1000 with
    respond := fun _ request =>
      match request with
      | .dictionary kind _ offset limit _ => acceptPage sameId kind offset limit 0 niAnswer
      | _ => .error { status := 0 } }
  listed _ _ _ _ _ _ _ h := ⟨niAnswer, h⟩
  catalogued _ _ _ _ _ _ _ _ h := (by cases h)

/-- Its entry is searched for, selected and deleted. -/
def deleteEvents : List Event :=
  [.click .search { confirmed := false }, .worker niEnv, .finished false, .select (some 0),
    .click .delete { confirmed := true }, .worker niEnv]

def guardWorld : AccountWorld Unit :=
  { restored := true, generation := 1, session := some guardSession, record := none, outside := () }

def afterDelete : Window := deleteEvents.foldl (Window.next guardJson) (.initial guardWorld 1)

def listExchange : Exchange :=
  ⟨.search, .dictionary 1 (ascii "pinyin") [] 0 50, {}, some ⟨[niEntry], false, 0, 0⟩⟩

def deleteExchange : Exchange :=
  ⟨.delete, .editDictionary 1 (ascii "pinyin") (ascii "e1") 3 none, {}, none⟩

theorem afterDelete_trace : afterDelete.trace = [listExchange, deleteExchange] :=
  rfl

theorem afterDelete_run :
    Run (Window.Step guardJson) (.initial guardWorld 1) deleteEvents afterDelete := by
  refine Guarded.run ⟨⟨rfl, rfl, rfl⟩, ⟨_, _, rfl⟩, ⟨_, rfl⟩, ⟨rfl, rfl, ?_⟩, ⟨rfl, rfl, rfl⟩,
    ⟨_, _, rfl⟩, trivial⟩
  rintro index ⟨⟩
  exact Nat.zero_lt_one

/-- The delete of the sample is about the entry of the page before it. -/
theorem edits_target_delete :
    ∃ list, Latest [listExchange] list ∧ Targets 1 list deleteExchange :=
  (edits_target afterDelete_run).1 [listExchange] deleteExchange [] afterDelete_trace
    ⟨.inr rfl, rfl⟩

end DictionaryWindow

end MsimeLinux
