import MsimeLinux.Snapshot.Contents

/-!
# The records of a snapshot (`NativeSnapshot.cpp`)

`stage_native_snapshot` validates a snapshot and then reads it once more, this
time only for what the dictionary is rebuilt from: overlays, positions and
selections. The reader is `Records`; it has a line splitter of its own and knows
nothing of what the validation found.

- `Records.all_eq`: what the reader makes of the lines of a stream.
- `RecordLine.staged`: of a line the validation accepted, it makes what the row
  of the line says.
- `validateSnapshotContents_exact`: the validation accepts consistent contents
  and nothing else, and no personal word is lost by skipping the entries.
-/

namespace MsimeLinux

open Lib

/-! ## The engine's records -/

/-- `PersonalDictionaryKind`. -/
inductive PersonalDictionaryKind where
  | pinyin
  | wubi
  | quickPhrase
  | english
  deriving DecidableEq, Repr

namespace PersonalDictionaryKind

/-- `kind_name` (NativeSnapshotExport.cpp:21). -/
def name : PersonalDictionaryKind → Bytes
  | pinyin => ascii "pinyin"
  | wubi => ascii "wubi"
  | quickPhrase => ascii "quick"
  | english => ascii "english"

/-- The kind a line names (NativeSnapshot.cpp:45). -/
def ofName (kind : Bytes) : Option PersonalDictionaryKind :=
  if kind = ascii "pinyin" then some pinyin
  else if kind = ascii "wubi" then some wubi
  else if kind = ascii "quick" then some quickPhrase
  else if kind = ascii "english" then some english
  else none

/-- A kind is found again by its name. -/
theorem ofName_name (kind : PersonalDictionaryKind) : ofName kind.name = some kind := by
  cases kind <;> decide

/-- The kinds the reader knows are those of the engine. -/
theorem exists_of_mem_kinds {scope : Bytes} (h : scope ∈ kinds) :
    ∃ kind : PersonalDictionaryKind, scope = kind.name := by
  simp only [kinds, List.mem_cons, List.not_mem_nil, or_false] at h
  rcases h with rfl | rfl | rfl | rfl
  · exact ⟨pinyin, rfl⟩
  · exact ⟨wubi, rfl⟩
  · exact ⟨english, rfl⟩
  · exact ⟨quickPhrase, rfl⟩

end PersonalDictionaryKind

/-- `DictionaryStateEntry`. -/
structure DictionaryStateEntry where
  kind : PersonalDictionaryKind
  key : Bytes
  value : Bytes
  display : Bytes
  weight : Int64
  deleted : Bool
  userInserted : Bool
  deriving DecidableEq

/-- `DictionaryStatePosition`. -/
structure DictionaryStatePosition where
  context : Bytes
  key : Bytes
  value : Bytes
  position : Int32
  deriving DecidableEq

/-- `DictionaryStateSelection`. -/
structure DictionaryStateSelection where
  context : Bytes
  key : Bytes
  value : Bytes
  count : Int32
  deriving DecidableEq

/-- `DictionaryStateRecord`. -/
inductive DictionaryStateRecord where
  | entry (entry : DictionaryStateEntry)
  | position (position : DictionaryStatePosition)
  | selection (selection : DictionaryStateSelection)
  deriving DecidableEq

/-! ## The reader -/

/-- What `at` and the `as_…` of `boost::json` throw when a member is missing or
of another kind. It is no `Failure`; status 0 stands for it. -/
def noMember : Failure := ⟨0, false⟩

/-- `object.at(key).as_string()`. -/
def JsonObject.stringAt (object : JsonObject) (key : Bytes) : Except Failure Bytes :=
  object.member Json.asString noMember key

/-- `object.at(key).as_int64()`. -/
def JsonObject.int64At (object : JsonObject) (key : Bytes) : Except Failure Int :=
  object.member Json.asInt64 noMember key

/-- `object.at(key).as_bool()`. -/
def JsonObject.boolAt (object : JsonObject) (key : Bytes) : Except Failure Bool :=
  object.member Json.asBool noMember key

/-- `object.at(key).as_object()`. -/
def JsonObject.objectAt (object : JsonObject) (key : Bytes) : Except Failure JsonObject :=
  object.member Json.asObject noMember key

section
variable {object : JsonObject} {key : Bytes}

theorem JsonObject.stringAt_of {value : Bytes}
    (h : object.ifContains key = some (.string value)) : object.stringAt key = .ok value :=
  JsonObject.member_eq_ok_iff.mpr ⟨_, h, rfl⟩

theorem JsonObject.int64At_of {value : Int} (h : object.ifContains key = some (.int value)) :
    object.int64At key = .ok value :=
  JsonObject.member_eq_ok_iff.mpr ⟨_, h, rfl⟩

theorem JsonObject.boolAt_of {value : Bool} (h : object.ifContains key = some (.bool value)) :
    object.boolAt key = .ok value :=
  JsonObject.member_eq_ok_iff.mpr ⟨_, h, rfl⟩

theorem JsonObject.objectAt_of {value : JsonObject}
    (h : object.ifContains key = some (.object value)) : object.objectAt key = .ok value :=
  JsonObject.member_eq_ok_iff.mpr ⟨_, h, rfl⟩

end

/-- What the reader makes of a line: it passes over it, has come to the end, or
has a record. -/
inductive Staged where
  | skip
  | footer
  | record (record : DictionaryStateRecord)

/-- `user_inserted` may be missing (NativeSnapshot.cpp:58). -/
def ownedAt (data : JsonObject) : Except Failure Bool :=
  match data.ifContains (ascii "user_inserted") with
  | none => .ok true
  | some (.bool owned) => .ok owned
  | some _ => .error noMember

/-- The kind of an overlay (NativeSnapshot.cpp:44). -/
def kindAt (data : JsonObject) : Except Failure PersonalDictionaryKind := do
  let kind ← data.stringAt (ascii "kind")
  match PersonalDictionaryKind.ofName kind with
  | some kind => .ok kind
  | none => .error badRequest

/-- The overlay branch (NativeSnapshot.cpp:41). -/
def stagedOverlay (object data : JsonObject) (code word : Bytes) : Except Failure Staged := do
  let kind ← kindAt data
  let weight ← data.int64At (ascii "weight")
  let deleted ← object.boolAt (ascii "deleted")
  let owned ← ownedAt data
  return .record (.entry
    { kind := kind
      key := code
      value := word
      weight := Int64.ofInt weight
      deleted := deleted
      userInserted := owned
      display := if kind = .english ∧ deleted = false then word else [] })

/-- The position branch (NativeSnapshot.cpp:63). -/
def stagedPosition (data : JsonObject) (code word : Bytes) : Except Failure Staged := do
  let context ← data.stringAt (ascii "context")
  let position ← data.int64At (ascii "position")
  return .record (.position ⟨context, code, word, Int32.ofInt position⟩)

/-- The selection branch (NativeSnapshot.cpp:66). -/
def stagedSelection (data : JsonObject) (code word : Bytes) : Except Failure Staged := do
  let context ← data.stringAt (ascii "context")
  let count ← data.int64At (ascii "count")
  return .record (.selection ⟨context, code, word, Int32.ofInt count⟩)

/-- `boost::json::parse(line).as_object()`. -/
def parsedObject (J : JsonLib) (line : Bytes) : Except Failure JsonObject :=
  match J.tree line with
  | some (.object object) => .ok object
  | _ => .error noMember

/-- The body of the loop (NativeSnapshot.cpp:26). -/
def stagedLine (J : JsonLib) (line : Bytes) : Except Failure Staged := do
  let object ← parsedObject J line
  let type ← object.stringAt (ascii "type")
  if type = ascii "header" ∨ type = RecordType.entry.name then return .skip
  else if type = ascii "footer" then return .footer
  else
    let data ← object.objectAt (ascii "data")
    let code ← data.stringAt (ascii "code")
    let word ← data.stringAt (ascii "word")
    if type = RecordType.overlay.name then stagedOverlay object data code word
    else if type = RecordType.position.name then stagedPosition data code word
    else if type = RecordType.selection.name then stagedSelection data code word
    else throw badRequest

/-- `Records` (NativeSnapshot.cpp:12): what the snapshot has still to deliver, the
part in `buffer_` included. -/
structure Records where
  input : Source UInt8
  finished : Bool := false

/-- `read_line` (NativeSnapshot.cpp:83): at most 65535 bytes before the newline;
nothing at the end of the stream. -/
def readLine (input : Source UInt8) : Except Failure (Option Bytes × Source UInt8) :=
  match input.getline newline 65535 with
  | (.full, _) => .error badRequest
  | (.last line, rest) => .ok (if line = [] then none else some line, rest)
  | (.ended line, rest) => .ok (some line, rest)

/-- Reading a line leaves less. -/
theorem readLine_shrinks {input rest : Source UInt8} {line : Bytes}
    (h : readLine input = .ok (some line, rest)) :
    rest.symbols.length < input.symbols.length := by
  have hdesc := input.getline_describes newline 65535
  unfold readLine at h
  split at h
  · cases h
  · next l t hread =>
    rw [hread] at hdesc
    obtain ⟨hsym, hrest, _⟩ := hdesc
    simp only [Except.ok.injEq, Prod.mk.injEq] at h
    obtain ⟨hline, rfl⟩ := h
    split at hline
    · cases hline
    · next hne =>
      simp only at hrest
      rw [hrest, hsym]
      exact List.length_pos_iff.mpr hne
  · next l t hread =>
    rw [hread] at hdesc
    obtain ⟨hsym, _⟩ := hdesc
    simp only [Except.ok.injEq, Prod.mk.injEq] at h hsym
    obtain ⟨_, rfl⟩ := h
    rw [hsym, List.length_append, List.length_cons]
    omega

namespace Records

/-- Nothing may follow the footer (NativeSnapshot.cpp:34). -/
def close (input : Source UInt8) :
    Except Failure (Option DictionaryStateRecord × Records) := do
  let (line, rest) ← readLine input
  if line ≠ none then throw badRequest
  return (none, { input := rest, finished := true })

/-- `next` (NativeSnapshot.cpp:19). -/
def next (J : JsonLib) (r : Records) : Except Failure (Option DictionaryStateRecord × Records) :=
  if r.finished then .ok (none, r)
  else
    match _hread : readLine r.input with
    | .error e => .error e
    | .ok (none, _) => .error badRequest
    | .ok (some line, rest) =>
      match stagedLine J line with
      | .error e => .error e
      | .ok .skip => next J { r with input := rest }
      | .ok .footer => close rest
      | .ok (.record record) => .ok (some record, { r with input := rest })
termination_by r.input.symbols.length
decreasing_by exact readLine_shrinks _hread

/-- A record was read from the stream. -/
theorem next_shrinks {J : JsonLib} {r r' : Records} {record : DictionaryStateRecord}
    (h : r.next J = .ok (some record, r')) :
    r'.input.symbols.length < r.input.symbols.length := by
  induction hn : r.input.symbols.length using Nat.strongRecOn generalizing r with
  | _ n ih =>
    unfold next at h
    split at h
    · cases h
    split at h
    · cases h
    · cases h
    next line rest hread =>
    have hlt := readLine_shrinks hread
    split at h
    · cases h
    · exact Nat.lt_trans (ih _ (hn ▸ hlt) h rfl) (hn ▸ hlt)
    · simp only [close, call_eq_ok_iff, guard_eq_ok_iff, pure_eq_ok_iff, Prod.mk.injEq,
        reduceCtorEq, false_and, and_false, exists_false] at h
    · obtain ⟨_, rfl⟩ := Prod.mk.inj (Except.ok.inj h)
      exact hn ▸ hlt

/-- The pull loop of `stage_dictionary_state`: every record, until there is no
more. -/
def all (J : JsonLib) (r : Records) : Except Failure (List DictionaryStateRecord) :=
  match _hnext : r.next J with
  | .error e => .error e
  | .ok (none, _) => .ok []
  | .ok (some record, r') => (all J r').map (record :: ·)
termination_by r.input.symbols.length
decreasing_by exact next_shrinks _hnext

/-! ## The reader over the lines of a stream -/

variable {J : JsonLib}

/-- One line is read off the stream, when it is not too long. -/
theorem readLine_cons {input : Source UInt8} {line : Bytes × Bool}
    {lines : List (Bytes × Bool)} (hsplit : splitLines newline input.symbols = line :: lines)
    (hlen : line.1.length < 65536) :
    ∃ rest, readLine input = .ok (some line.1, rest) ∧
      splitLines newline rest.symbols = lines := by
  obtain ⟨hread, hrest⟩ := input.getline_cons newline 65535 hsplit
  have hle : line.1.length ≤ 65535 := Nat.le_of_lt_succ hlen
  refine ⟨(input.getline newline 65535).2, ?_, (hrest hle).1⟩
  obtain ⟨line, ended⟩ := line
  rw [LineRead.ofLine, if_neg (Nat.not_lt.mpr hle)] at hread
  unfold readLine
  split
  · next t h => cases ended <;> simp [h] at hread
  · next l t h =>
    cases ended with
    | true => simp [h] at hread
    | false =>
      obtain rfl : l = line := by simpa [h] using hread
      rw [if_neg (splitLines_last_ne_nil newline (hsplit ▸ List.mem_cons_self)), h]
  · next l t h =>
    cases ended with
    | false => simp [h] at hread
    | true =>
      obtain rfl : l = line := by simpa [h] using hread
      rw [h]

/-- At the end of the stream there is no line. -/
theorem readLine_nil {input : Source UInt8} (hsplit : splitLines newline input.symbols = []) :
    ∃ rest, readLine input = .ok (none, rest) := by
  have hread := input.getline_nil newline 65535 hsplit
  unfold readLine
  split
  · next t h => simp [h] at hread
  · next l t h =>
    obtain rfl : l = [] := by simpa [h] using hread
    exact ⟨t, rfl⟩
  · next l t h => simp [h] at hread

/-- What `next` does with the first line of the stream. -/
theorem next_cons {r : Records} {line : Bytes × Bool} {lines : List (Bytes × Bool)}
    (hopen : r.finished = false)
    (hsplit : splitLines newline r.input.symbols = line :: lines)
    (hlen : line.1.length < 65536) {staged : Staged} (hline : stagedLine J line.1 = .ok staged) :
    ∃ rest, splitLines newline rest.symbols = lines ∧
      r.next J = match staged with
        | .skip => next J { r with input := rest }
        | .footer => close rest
        | .record record => .ok (some record, { r with input := rest }) := by
  obtain ⟨rest, hread, hrest⟩ := readLine_cons hsplit hlen
  refine ⟨rest, hrest, ?_⟩
  rw [next, if_neg (by simp [hopen])]
  split
  · next e h => simp [hread] at h
  · next h => simp [hread] at h
  · next l t h =>
    obtain ⟨rfl, rfl⟩ : line.1 = l ∧ rest = t := by simpa [hread] using h
    rw [hline]
    cases staged <;> rfl

/-- A record that fails fails the whole reading. -/
theorem all_of_error {r : Records} {e : Failure} (h : r.next J = .error e) :
    r.all J = .error e := by
  rw [all]
  split <;> simp_all

/-- The footer ends it. -/
theorem all_of_none {r s : Records} (h : r.next J = .ok (none, s)) : r.all J = .ok [] := by
  rw [all]
  split <;> simp_all

/-- A record is the first of what is read. -/
theorem all_of_some {r s : Records} {record : DictionaryStateRecord}
    (h : r.next J = .ok (some record, s)) : r.all J = (s.all J).map (record :: ·) := by
  rw [all]
  split <;> simp_all

/-- Two readers with the same next record have the same records. -/
theorem all_congr {r r' : Records} (h : r.next J = r'.next J) : r.all J = r'.all J := by
  cases hnext : r'.next J with
  | error e => rw [all_of_error hnext, all_of_error (h.trans hnext)]
  | ok p =>
    obtain ⟨o, s⟩ := p
    cases o with
    | none => rw [all_of_none hnext, all_of_none (h.trans hnext)]
    | some record => rw [all_of_some hnext, all_of_some (h.trans hnext)]

end Records

/-- Nothing, or a record. -/
def Staged.ofOption : Option DictionaryStateRecord → Staged
  | none => .skip
  | some r => .record r

namespace Records

variable {J : JsonLib}

/-- **The reader over a snapshot**, by induction on the lines in front of the
footer: it returns the record of every line that has one. -/
theorem all_eq {data : List Bytes} {footer : Bytes}
    {staged : List (Option DictionaryStateRecord)} {r : Records} (hopen : r.finished = false)
    (hsplit : (splitLines newline r.input.symbols).map Prod.fst = data ++ [footer])
    (hlen : ∀ line ∈ data ++ [footer], line.length < 65536)
    (hdata : List.Forall₂ (fun line s => stagedLine J line = .ok (.ofOption s)) data staged)
    (hfooter : stagedLine J footer = .ok .footer) :
    r.all J = .ok (staged.filterMap id) := by
  induction data generalizing r staged with
  | nil =>
    obtain rfl : staged = [] := List.forall₂_nil_left_iff.mp hdata
    cases hlines : splitLines newline r.input.symbols with
    | nil => simp [hlines] at hsplit
    | cons line lines =>
      obtain ⟨rfl, rfl⟩ : line.1 = footer ∧ lines = [] := by simpa [hlines] using hsplit
      -- the footer closes the stream, and nothing may follow it
      obtain ⟨rest, hrest, hnext⟩ := next_cons hopen hlines (hlen _ (by simp)) hfooter
      obtain ⟨end', hend⟩ := readLine_nil hrest
      have hclosed : r.next J = .ok (none, { input := end', finished := true }) := by
        simp only [hnext, close, call_eq_ok_iff, guard_eq_ok_iff, pure_eq_ok_iff]
        exact ⟨_, hend, by simp, rfl⟩
      exact all_of_none hclosed
  | cons l data ih =>
    cases hdata with
    | @cons _ s _ staged hl hdata =>
      cases hlines : splitLines newline r.input.symbols with
      | nil => simp [hlines] at hsplit
      | cons line lines =>
        obtain ⟨rfl, hsplit'⟩ : line.1 = l ∧ lines.map Prod.fst = data ++ [footer] := by
          simpa [hlines] using hsplit
        obtain ⟨rest, hrest, hnext⟩ := next_cons hopen hlines (hlen _ (by simp)) hl
        -- a line without a record is passed over, one with it is returned
        have hih := ih (r := { r with input := rest }) hopen (hrest.symm ▸ hsplit')
          (fun line hline => hlen line (List.mem_cons_of_mem _ hline)) hdata
        cases s with
        | none => exact (all_congr hnext).trans hih
        | some record =>
          rw [all_of_some hnext, hih]
          rfl

end Records

/-! ## The reader and the validation -/

/-- What the dictionary is to be told of a row: entries are passed over. -/
def Row.staged (row : Row) : Option DictionaryStateRecord :=
  match row.type with
  | .entry => none
  | .overlay => (PersonalDictionaryKind.ofName row.scope).map fun kind => .entry
      { kind := kind
        key := row.code
        value := row.word
        weight := Int64.ofInt row.weight
        deleted := row.deleted
        userInserted := row.owned
        display := if kind = .english ∧ row.deleted = false then row.word else [] }
  | .position => some (.position ⟨row.scope, row.code, row.word, Int32.ofInt row.slot⟩)
  | .selection => some (.selection ⟨row.scope, row.code, row.word, Int32.ofInt row.slot⟩)

variable {J : JsonLib} {sha256 : Bytes → Bytes} {G : GLib}

/-- An overlay is staged as its row says. -/
theorem stagedOverlay_eq {revision : Int} {object data : JsonObject} {row : Row}
    (htype : row.type = .overlay) (h : PersonalLine G revision object data row) :
    stagedOverlay object data row.code row.word = .ok (.ofOption row.staged) := by
  obtain ⟨kind, hkind⟩ := PersonalDictionaryKind.exists_of_mem_kinds h.kind.2
  have hname := h.kind.1
  have hdeleted := h.deleted
  rw [htype, if_pos rfl] at hdeleted
  simp only [stagedOverlay, call_eq_ok_iff, pure_eq_ok_iff]
  refine ⟨kind, ?_, row.weight, JsonObject.int64At_of h.weight.1, row.deleted,
    JsonObject.boolAt_of hdeleted, row.owned, ?_, ?_⟩
  · rw [kindAt, JsonObject.stringAt_of hname]
    show (match PersonalDictionaryKind.ofName row.scope with
      | some kind => Except.ok kind
      | none => .error badRequest) = .ok kind
    rw [hkind, PersonalDictionaryKind.ofName_name]
  · unfold ownedAt
    rcases h.owned with ⟨hmissing, _, howned⟩ | ⟨hmember, _⟩
    · rw [hmissing, howned]
    · rw [hmember]
  · rw [Row.staged, htype, hkind, PersonalDictionaryKind.ofName_name]
    rfl

/-- So are the positions and selections. -/
theorem stagedContext_eq {data : JsonObject} {row : Row} (h : ContextLine data row) :
    (row.type = .position → stagedPosition data row.code row.word =
      .ok (.ofOption row.staged)) ∧
    (row.type = .selection → stagedSelection data row.code row.word =
      .ok (.ofOption row.staged)) := by
  have hcontext := JsonObject.stringAt_of h.context.1
  simp only [stagedPosition, stagedSelection, call_eq_ok_iff, pure_eq_ok_iff]
  refine ⟨fun htype => ⟨row.scope, hcontext, row.slot, ?_, ?_⟩,
    fun htype => ⟨row.scope, hcontext, row.slot, ?_, ?_⟩⟩
  · exact JsonObject.int64At_of (h.position htype).1
  · rw [Row.staged, htype]
    rfl
  · exact JsonObject.int64At_of (h.selection (by simp [htype])).1
  · rw [Row.staged, htype]
    rfl

/-- The branch a type other than an entry takes. -/
def stagedBranch (type : RecordType) (object data : JsonObject) (code word : Bytes) :
    Except Failure Staged :=
  match type with
  | .overlay => stagedOverlay object data code word
  | .position => stagedPosition data code word
  | _ => stagedSelection data code word

/-- A line that is neither header, entry nor footer. -/
theorem stagedLine_data {line : Bytes} {object data : JsonObject} {type : RecordType}
    {code word : Bytes} (htype : type ≠ .entry) (htree : J.tree line = some (.object object))
    (hname : object.ifContains (ascii "type") = some (.string type.name))
    (hdata : object.ifContains (ascii "data") = some (.object data))
    (hcode : data.ifContains (ascii "code") = some (.string code))
    (hword : data.ifContains (ascii "word") = some (.string word)) :
    stagedLine J line = stagedBranch type object data code word := by
  have hobject : parsedObject J line = .ok object := by simp [parsedObject, htree]
  rw [stagedLine, hobject]
  show (object.stringAt (ascii "type") >>= _) = _
  rw [JsonObject.stringAt_of hname]
  show (if type.name = _ ∨ _ then _ else _) = _
  rw [if_neg (by cases type <;> first | exact absurd rfl htype | decide),
    if_neg (by cases type <;> decide), JsonObject.objectAt_of hdata]
  show (data.stringAt (ascii "code") >>= _) = _
  rw [JsonObject.stringAt_of hcode]
  show (data.stringAt (ascii "word") >>= _) = _
  rw [JsonObject.stringAt_of hword]
  cases type with
  | entry => exact absurd rfl htype
  | overlay | position | selection => rfl

/-- **A line the validation accepted**: the reader makes of it what its row
says. -/
theorem RecordLine.staged {revision : Int} {line : Bytes} {row : Row}
    (h : RecordLine J G revision line row) :
    stagedLine J line = .ok (.ofOption row.staged) := by
  obtain ⟨object, data, htree, hname, hdata, hcode, hword, hline⟩ := h.members
  by_cases hentry : row.type = .entry
  · simp only [stagedLine, call_eq_ok_iff]
    refine ⟨object, by simp [parsedObject, htree], row.type.name,
      JsonObject.stringAt_of hname, ?_⟩
    rw [if_pos (.inr (congrArg _ hentry)), pure_eq_ok_iff, Row.staged, hentry]
    rfl
  · rw [stagedLine_data hentry htree hname hdata hcode hword]
    cases htype : row.type with
    | entry => exact absurd htype hentry
    | overlay =>
      rw [htype] at hline
      exact stagedOverlay_eq htype hline
    | position =>
      rw [htype] at hline
      exact (stagedContext_eq hline).1 htype
    | selection =>
      rw [htype] at hline
      exact (stagedContext_eq hline).2 htype

/-- The header is passed over, and the footer ends the reading. -/
theorem HeaderLine.staged {line : Bytes} {revision : Int} (h : HeaderLine J line revision) :
    stagedLine J line = .ok .skip := by
  obtain ⟨object, hobject, _, hname, _⟩ := h.object
  simp only [stagedLine, call_eq_ok_iff]
  refine ⟨object, by simp [parsedObject, hobject.1], ascii "header",
    JsonObject.stringAt_of hname, ?_⟩
  rw [if_pos (.inl rfl)]
  rfl

/-- The footer stages nothing. -/
theorem FooterLine.staged {line : Bytes} {records : Nat} {digest : Bytes}
    (h : FooterLine J line records digest) : stagedLine J line = .ok .footer := by
  obtain ⟨object, hobject, _, hname, _⟩ := h
  simp only [stagedLine, call_eq_ok_iff]
  refine ⟨object, by simp [parsedObject, hobject.1], ascii "footer",
    JsonObject.stringAt_of hname, ?_⟩
  rw [if_neg (by decide), if_pos rfl]
  rfl

/-- The lines of an envelope are the lines of the stream. -/
theorem Envelope.lines {symbols : Bytes} {s : SnapshotLines} (h : Envelope J sha256 symbols s) :
    (splitLines newline symbols).map Prod.fst = s.all :=
  (splitLines_eq_iff newline fun l hl => (h.line l hl).2.1).mpr
    ⟨fun l hl => (h.line l hl).1, h.framed⟩

/-- **The reader over validated contents**: it returns what their rows say. -/
theorem Contents.all_eq {input : Source UInt8} {s : SnapshotLines} {rows : List Row}
    (henv : Envelope J sha256 input.symbols s) (h : Contents J G s rows) :
    Records.all J { input := input } = .ok (rows.filterMap Row.staged) := by
  have hlines : List.Forall₂ (fun line o => stagedLine J line = .ok (.ofOption o))
      (s.header :: s.data) (none :: rows.map Row.staged) :=
    .cons henv.header.staged
      (List.forall₂_map_right_iff.mpr (h.lines.imp fun _ _ hline => hline.staged))
  rw [Records.all_eq rfl henv.lines (fun line hline => (henv.line line hline).2.2) hlines
    henv.footer.staged]
  simp [List.filterMap_map]

/-! ## A snapshot says one thing -/

/-- A line says one row, whatever the header's revision. -/
theorem RecordLine.unique {revision revision' : Int} {line : Bytes} {a b : Row}
    (h : RecordLine J G revision line a) (h' : RecordLine J G revision' line b) : a = b := by
  obtain ⟨object, data, htree, hname, hdata, hcode, hword, hline⟩ := h.members
  obtain ⟨object', data', htree', hname', hdata', hcode', hword', hline'⟩ := h'.members
  obtain rfl : object = object' := by simpa [htree] using htree'
  obtain rfl : data = data' := by simpa [hdata] using hdata'
  have htype : a.type = b.type := by
    have : b.type.name = a.type.name := by simpa [hname] using hname'.symm
    exact Option.some.inj ((RecordType.ofName_eq_some_iff.mpr rfl).symm.trans
      (RecordType.ofName_eq_some_iff.mpr this.symm))
  have hcodes : a.code = b.code := by simpa [hcode] using hcode'
  have hwords : a.word = b.word := by simpa [hword] using hword'
  -- an entry or an overlay: field by field, each read from the same member
  have hpersonal : PersonalLine G revision object data a →
      PersonalLine G revision' object data b → a = b := by
    intro ha hb
    have hscope : a.scope = b.scope := by simpa [ha.kind.1] using hb.kind.1
    have hid : a.id = b.id := by simpa [ha.id.1] using hb.id.1
    have hweight : a.weight = b.weight := by simpa [ha.weight.1] using hb.weight.1
    have howned : a.owned = b.owned := by
      -- `user_inserted` is given in both readings or in none
      rcases ha.owned with ⟨hm, _, hown⟩ | ⟨hm, _⟩
      · rcases hb.owned with ⟨_, _, hown'⟩ | ⟨hm', _⟩
        · rw [hown, hown']
        · simp [hm] at hm'
      · rcases hb.owned with ⟨hm', _, _⟩ | ⟨hm', _⟩
        · simp [hm] at hm'
        · simpa [hm] using hm'
    have hdeleted : a.deleted = b.deleted := by
      have hda := ha.deleted
      have hdb := hb.deleted
      rw [htype] at hda
      split at hda
      · next ho => simpa [ho, hda] using hdb
      · next ho => rw [hda, show b.deleted = false by simpa [ho] using hdb]
    have hslot : a.slot = b.slot := ha.slot.trans hb.slot.symm
    cases a
    cases b
    simp_all
  -- a position or a selection
  have hcontext : ContextLine data a → ContextLine data b → a = b := by
    intro ha hb
    have hscope : a.scope = b.scope := by simpa [ha.context.1] using hb.context.1
    have hslot : a.slot = b.slot := by
      by_cases hpos : a.type = .position
      · simpa [(ha.position hpos).1] using (hb.position (htype ▸ hpos)).1
      · simpa [(ha.selection hpos).1] using (hb.selection (htype ▸ hpos)).1
    have hra := ha.rest
    have hrb := hb.rest
    cases a
    cases b
    simp_all
  rw [← htype] at hline'
  cases hcase : a.type with
  | entry | overlay =>
    rw [hcase] at hline hline'
    exact hpersonal hline hline'
  | position | selection =>
    rw [hcase] at hline hline'
    exact hcontext hline hline'

/-- A stream has one way of being an envelope with contents. -/
theorem Contents.unique {symbols : Bytes} {s s' : SnapshotLines} {rows rows' : List Row}
    (henv : Envelope J sha256 symbols s) (henv' : Envelope J sha256 symbols s')
    (h : Contents J G s rows) (h' : Contents J G s' rows') : rows = rows' := by
  have hall : s.all = s'.all := henv.lines.symm.trans henv'.lines
  obtain ⟨_, hdata⟩ : s.header = s'.header ∧ s.data ++ [s.footer] = s'.data ++ [s'.footer] := by
    simpa [SnapshotLines.all] using hall
  have hdata := (List.append_inj' hdata rfl).1
  have hright : Relator.RightUnique fun line row =>
      ∃ revision, RecordLine J G revision line row := by
    rintro line a b ⟨_, ha⟩ ⟨_, hb⟩
    exact ha.unique hb
  refine List.right_unique_forall₂' hright (h.lines.imp fun _ _ hl => ⟨_, hl⟩) ?_
  rw [hdata]
  exact h'.lines.imp fun _ _ hl => ⟨_, hl⟩

/-! ## The personal words -/

/-- The word a record puts into the personal dictionary, with its weight. -/
def DictionaryStateRecord.personalWord :
    DictionaryStateRecord → Option (Bytes × Bytes × Bytes × Int)
  | .entry e =>
    if e.userInserted ∧ e.deleted = false then some (e.kind.name, e.key, e.value, e.weight.toInt)
    else none
  | _ => none

/-- A row whose line was accepted puts its word in exactly when it is a live
overlay. -/
theorem RecordLine.personalWord {revision : Int} {line : Bytes} {row : Row}
    (h : RecordLine J G revision line row) :
    row.staged.bind DictionaryStateRecord.personalWord =
      if row ∈ liveOverlays [row] then some row.weighted else none := by
  obtain ⟨object, data, _, _, _, _, _, hline⟩ := h.members
  cases htype : row.type with
  | entry | position | selection =>
    simp [Row.staged, mem_liveOverlays, htype, DictionaryStateRecord.personalWord]
  | overlay =>
    rw [htype] at hline
    obtain ⟨kind, hkind⟩ := PersonalDictionaryKind.exists_of_mem_kinds hline.kind.2
    have hweight : (Int64.ofInt row.weight).toInt = row.weight := by
      obtain ⟨_, hlow, hhigh⟩ := hline.weight
      have : (0 : Int) ≤ row.weight := Int.le_trans (by split <;> decide) hlow
      exact Int64.toInt_ofInt_of_le (by omega) (by omega)
    simp [Row.staged, mem_liveOverlays, htype, DictionaryStateRecord.personalWord, hkind,
      PersonalDictionaryKind.ofName_name, hweight, Row.weighted]

/-- **The words the reader's records put in** are the live overlays. -/
theorem filterMap_personalWord {lines : List Bytes} {rows : List Row} {revision : Int}
    (h : List.Forall₂ (RecordLine J G revision) lines rows) :
    (rows.filterMap Row.staged).filterMap DictionaryStateRecord.personalWord =
      (liveOverlays rows).map Row.weighted := by
  rw [List.filterMap_filterMap]
  induction h with
  | nil => rfl
  | @cons line row lines rows hline _ ih =>
    have hlive : liveOverlays (row :: rows) = liveOverlays [row] ++ liveOverlays rows := by
      rw [← List.singleton_append, liveOverlays, ContentsState.rowsOf_append, List.filter_append]
      rfl
    rw [List.filterMap_cons, hline.personalWord, hlive, List.map_append, ← ih]
    by_cases hmem : row ∈ liveOverlays [row]
    · have hself : liveOverlays [row] = [row] := by
        obtain ⟨_, htype, howned, hdeleted⟩ := mem_liveOverlays.mp hmem
        simp [liveOverlays, rowsOf, htype, howned, hdeleted]
      rw [if_pos hmem, hself]
      rfl
    · have hnone : liveOverlays [row] = [] := by
        refine List.eq_nil_iff_forall_not_mem.mpr fun r hr => ?_
        obtain rfl := List.mem_singleton.mp (mem_liveOverlays.mp hr).1
        exact hmem hr
      rw [if_neg hmem, hnone]
      rfl

/-- **Cross-record validation is exact.** Of an envelope whose records are within
their limits the validation accepts exactly the consistent ones, and it accepts
nothing else; and what the reader then hands to the dictionary, which leaves the
entries out, puts in every entry with its weight and no other word. -/
theorem validateSnapshotContents_exact (hJ : J.StringsFit) (input : Source UInt8) :
    (∀ s rows, Envelope J sha256 input.symbols s → Contents J G s rows →
      (validateSnapshotContents J sha256 G input = .ok () ↔ Consistent rows)) ∧
    (validateSnapshotContents J sha256 G input = .ok () →
      ∃ s rows, Envelope J sha256 input.symbols s ∧ Contents J G s rows ∧
        ∃ records, Records.all J { input := input } = .ok records ∧
          ((rowsOf .entry rows).map Row.weighted).Perm
            (records.filterMap DictionaryStateRecord.personalWord)) := by
  refine ⟨fun s rows henv hcontents => ⟨fun hok => ?_, fun hconsistent => ?_⟩, fun hok => ?_⟩
  · obtain ⟨s', rows', henv', hcontents', hconsistent⟩ :=
      (validateSnapshotContents_eq_ok_iff hJ).mp hok
    rwa [hcontents.unique henv henv' hcontents']
  · exact (validateSnapshotContents_eq_ok_iff hJ).mpr ⟨s, rows, henv, hcontents, hconsistent⟩
  · obtain ⟨s, rows, henv, hcontents, hconsistent⟩ :=
      (validateSnapshotContents_eq_ok_iff hJ).mp hok
    refine ⟨s, rows, henv, hcontents, _, hcontents.all_eq henv, ?_⟩
    rw [filterMap_personalWord hcontents.lines]
    exact hconsistent.corresponds

/-! ## One word, with and without its entry -/

/-- The `data` of a pinyin word, and the records that hold it. -/
def wordData : JsonObject :=
  [(ascii "id", .string (ascii "00")), (ascii "kind", .string (ascii "pinyin")),
    (ascii "code", .string (ascii "ni")), (ascii "word", .string (ascii "N")),
    (ascii "weight", .int 5), (ascii "revision", .int 1),
    (ascii "updated_at", .string (ascii "2026-01-01T00:00:00Z")),
    (ascii "user_inserted", .bool true)]

def wordEntry : JsonObject :=
  [(ascii "type", .string (ascii "entry")), (ascii "data", .object wordData)]

def wordOverlay : JsonObject :=
  [(ascii "type", .string (ascii "overlay")), (ascii "deleted", .bool false),
    (ascii "data", .object wordData)]

def headerMembers : JsonObject :=
  [(ascii "type", .string (ascii "header")),
    (ascii "format", .string (ascii "msime-dictionary-snapshot")),
    (ascii "version", .int 1), (ascii "revision", .int 1)]

def footerMembers (records : Nat) : JsonObject :=
  [(ascii "type", .string (ascii "footer")), (ascii "records", .int records),
    (ascii "sha256", .string (ascii "00"))]

def wordText : Bytes :=
  ascii "\x7b\"id\":\"00\"," ++ ascii "\"kind\":\"pinyin\"," ++ ascii "\"code\":\"ni\"," ++
    ascii "\"word\":\"N\"," ++ ascii "\"weight\":5," ++ ascii "\"revision\":1," ++
    ascii "\"updated_at\":" ++ ascii "\"2026-01-01T00:00:00Z\"," ++
    ascii "\"user_inserted\":true\x7d\x7d"

def entryText : Bytes := ascii "\x7b\"type\":\"entry\"," ++ ascii "\"data\":" ++ wordText

def overlayText : Bytes :=
  ascii "\x7b\"type\":\"overlay\"," ++ ascii "\"deleted\":false," ++ ascii "\"data\":" ++ wordText

def headerText : Bytes :=
  ascii "\x7b\"type\":\"header\",\"format\":" ++ ascii "\"msime-dictionary-snapshot\"," ++
    ascii "\"version\":1,\"revision\":1\x7d"

def footerText (records : String) : Bytes :=
  ascii "\x7b\"type\":\"footer\",\"records\":" ++ ascii records ++ ascii ",\"sha256\":\"00\"\x7d"

/-- The footer as the exporter has it, with an unsigned count. -/
def unsignedFooter : JsonObject :=
  [(ascii "type", .string (ascii "footer")), (ascii "records", .uint 3),
    (ascii "sha256", .string (ascii "00"))]

/-- A library that knows these lines. -/
def wordJson : JsonLib :=
  .ofTables
    [(headerText, .object headerMembers), (entryText, .object wordEntry),
      (overlayText, .object wordOverlay), (footerText "2", .object (footerMembers 2)),
      (footerText "3", .object (footerMembers 3))]
    [(.object wordEntry, entryText), (.object wordOverlay, overlayText),
      (.object unsignedFooter, footerText "3")]

theorem wordJson_lines :
    ObjectLine wordJson headerText headerMembers ∧ ObjectLine wordJson entryText wordEntry ∧
    ObjectLine wordJson overlayText wordOverlay ∧
    ObjectLine wordJson (footerText "2") (footerMembers 2) ∧
    ObjectLine wordJson (footerText "3") (footerMembers 3) :=
  ⟨.of_strictKeys (by decide +kernel) (by decide +kernel),
    .of_strictKeys (by decide +kernel) (by decide +kernel),
    .of_strictKeys (by decide +kernel) (by decide +kernel),
    .of_strictKeys (by decide +kernel) (by decide +kernel),
    .of_strictKeys (by decide +kernel) (by decide +kernel)⟩

/-- What it writes it can read, the unsigned number aside. -/
theorem wordJson_lawful : wordJson.Lawful := by
  obtain ⟨_, hentry, hoverlay, _⟩ := wordJson_lines
  refine JsonLib.GoodTables.lawful ⟨by decide +kernel, by decide +kernel, ?_, by decide +kernel⟩
  intro line hline tree htree
  simp only [List.mem_cons, List.not_mem_nil, or_false] at hline
  rcases hline with rfl | rfl | rfl
  · exact .inl (Option.some.inj (htree.symm.trans hentry.1))
  · exact .inl (Option.some.inj (htree.symm.trans hoverlay.1))
  · right
    intro hplain
    cases hplain with
    | object _ hmembers => cases hmembers (ascii "records", .uint 3) (by simp [unsignedFooter])

/-- The rows of the two records. -/
def wordRow (type : RecordType) : Row where
  type := type
  scope := ascii "pinyin"
  code := ascii "ni"
  word := ascii "N"
  id := ascii "00"
  weight := 5

/-- The days there are. -/
def gregorian (day month year : Nat) : Bool :=
  let leap := year % 4 == 0 && year % 100 != 0 || year % 400 == 0
  let days := [31, if leap then 29 else 28, 31, 30, 31, 30, 31, 31, 30, 31, 30, 31]
  0 < year && 0 < month && month < 13 && 0 < day && day ≤ days.getD (month - 1) 0

/-- The calendar, and a clock that knows every moment. -/
def everyMoment : GLib := ⟨fun _ => some (1767225600, 0), gregorian⟩

theorem wordRow_lines :
    RecordLine wordJson everyMoment 1 entryText (wordRow .entry) ∧
    RecordLine wordJson everyMoment 1 overlayText (wordRow .overlay) := by
  have hbounded : Bounded 512 (ascii "ni") ∧ Bounded 2048 (ascii "N") ∧
      Bounded 128 (ascii "00") := by
    unfold Bounded
    decide +kernel
  have hstamp : Timestamp everyMoment (ascii "2026-01-01T00:00:00Z") :=
    ⟨by decide +kernel, by decide +kernel, by decide +kernel, by decide +kernel,
      _, rfl, by decide⟩
  have hpersonal : ∀ type object, (type = .entry ∨ type = .overlay ∧
      JsonObject.ifContains object (ascii "deleted") = some (.bool false)) →
      PersonalLine everyMoment 1 object wordData (wordRow type) := by
    intro type object htype
    have hkind : ascii "pinyin" ∈ kinds := by decide
    have hweight : (1 : Int) ≤ 5 ∧ (5 : Int) ≤ 100000000 := by decide
    refine ⟨⟨rfl, hkind⟩, ⟨rfl, fun _ => hbounded.2.2⟩, .inr ⟨rfl, rfl⟩, ?_,
      ⟨rfl, hweight⟩, ⟨1, rfl, by decide, by decide⟩, ⟨_, rfl, hstamp⟩, rfl⟩
    rcases htype with rfl | ⟨rfl, hdeleted⟩
    · rfl
    · exact hdeleted
  obtain ⟨_, hentry, hoverlay, _⟩ := wordJson_lines
  exact ⟨⟨⟨wordEntry, wordData, hentry.1, rfl, rfl, rfl, rfl,
        hpersonal .entry wordEntry (.inl rfl)⟩,
      hbounded.1, hbounded.2.1⟩,
    ⟨⟨wordOverlay, wordData, hoverlay.1, rfl, rfl, rfl, rfl,
      hpersonal .overlay wordOverlay (.inr ⟨rfl, rfl⟩)⟩, hbounded.1, hbounded.2.1⟩⟩

/-- The lines of both snapshots, and what they are. -/
theorem wordLines :
    (∀ line ∈ [headerText, entryText, overlayText, footerText "3", footerText "2"],
      newline ∉ line ∧ line ≠ [] ∧ line.length < 65536) ∧
    HeaderLine wordJson headerText 1 ∧ DataLine wordJson entryText .entry ∧
    DataLine wordJson overlayText .overlay := by
  obtain ⟨hheader, hentry, hoverlay, _⟩ := wordJson_lines
  exact ⟨by decide +kernel, ⟨⟨_, hheader, rfl, rfl, rfl, rfl, rfl⟩, by decide⟩,
    ⟨_, hentry, rfl, rfl, ⟨_, rfl⟩, by simp⟩,
    ⟨_, hoverlay, rfl, rfl, ⟨_, rfl⟩, fun _ => ⟨_, rfl⟩⟩⟩

/-- The snapshot of the word, and of its overlay alone. -/
def wordSnapshot : SnapshotLines :=
  ⟨headerText, 1, [entryText, overlayText], [.entry, .overlay], footerText "3"⟩

def overlaySnapshot : SnapshotLines :=
  ⟨headerText, 1, [overlayText], [.overlay], footerText "2"⟩

/-- The snapshot of the example holds an entry and its overlay, -/
theorem wordSnapshot_contents :
    Envelope wordJson (fun _ => ascii "00") (unlines newline wordSnapshot.all) wordSnapshot ∧
    Contents wordJson everyMoment wordSnapshot [wordRow .entry, wordRow .overlay] := by
  obtain ⟨hline, hheader, hentry, hoverlay⟩ := wordLines
  obtain ⟨_, _, _, _, hthree⟩ := wordJson_lines
  obtain ⟨hentryRow, hoverlayRow⟩ := wordRow_lines
  have hsize : (unlines newline wordSnapshot.all).length ≤ 1000 := by decide +kernel
  exact ⟨⟨.inl rfl, Nat.le_trans hsize (by omega),
      fun line hl => hline line (List.mem_append_left [footerText "2"] hl), hheader,
      .cons hentry (.cons hoverlay .nil), by decide, ⟨_, hthree, rfl, rfl, rfl, rfl⟩⟩,
    ⟨.cons hentryRow (.cons hoverlayRow .nil), by decide, by decide⟩⟩

/-- and the second one the overlay alone. -/
theorem overlaySnapshot_contents :
    Envelope wordJson (fun _ => ascii "00") (unlines newline overlaySnapshot.all)
      overlaySnapshot ∧
    Contents wordJson everyMoment overlaySnapshot [wordRow .overlay] := by
  obtain ⟨hline, hheader, _, hoverlay⟩ := wordLines
  obtain ⟨_, _, _, htwo, _⟩ := wordJson_lines
  have hsub : List.Sublist overlaySnapshot.all
      [headerText, entryText, overlayText, footerText "3", footerText "2"] :=
    .cons_cons _ (.cons _ (.cons_cons _ (.cons _ (.cons_cons _ .slnil))))
  have hsize : (unlines newline overlaySnapshot.all).length ≤ 1000 := by decide +kernel
  exact ⟨⟨.inl rfl, Nat.le_trans hsize (by omega), fun line hl => hline line (hsub.subset hl),
      hheader, .cons hoverlay .nil, by decide, ⟨_, htwo, rfl, rfl, rfl, rfl⟩⟩,
    ⟨.cons wordRow_lines.2 .nil, by decide, by decide⟩⟩

/-- The two rows of the first correspond. -/
theorem wordRows_consistent : Consistent [wordRow .entry, wordRow .overlay] :=
  ⟨by decide +kernel, by decide, by decide, by decide, by unfold Corresponds; decide +kernel⟩

/-- The word with its entry is accepted; the overlay alone is not. -/
theorem validateSnapshotContents_exact_word :
    validateSnapshotContents wordJson (fun _ => ascii "00") everyMoment
      (.ofSymbols (unlines newline wordSnapshot.all)) = .ok () ∧
    validateSnapshotContents wordJson (fun _ => ascii "00") everyMoment
      (.ofSymbols (unlines newline overlaySnapshot.all)) ≠ .ok () := by
  constructor
  · obtain ⟨henv, hcontents⟩ := wordSnapshot_contents
    refine ((validateSnapshotContents_exact wordJson_lawful.stringsFit _).1 _ _ ?_ hcontents).mpr
      wordRows_consistent
    rwa [Source.symbols_ofSymbols]
  · obtain ⟨henv, hcontents⟩ := overlaySnapshot_contents
    intro hok
    have hconsistent := ((validateSnapshotContents_exact wordJson_lawful.stringsFit _).1 _ _
      (by rwa [Source.symbols_ofSymbols]) hcontents).mp hok
    exact absurd hconsistent.corresponds.length_eq (by decide)

end MsimeLinux
