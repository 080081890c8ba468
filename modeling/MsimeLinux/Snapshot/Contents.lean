import MsimeLinux.Lib.Table
import MsimeLinux.Snapshot.EnvelopeFormat

/-!
# The contents of a snapshot (`SnapshotContents.cpp`)

`validateSnapshotContents` goes through the data lines of an envelope once more,
checks the fields of each, and puts a row for it into a temporary SQL table. The
unique indexes of the table refuse duplicates, and one query at the end compares
the entries with the overlays.

- `contentsVisitor_eq_ok_iff`: what one data line does.
- `mismatch_eq_false_iff`: what the query finds.
- `validateSnapshotContents_eq_ok_iff`: what is accepted.

SQLite is the table of `Lib.Table`; the calendar and the ISO 8601 parser of GLib are
parameters.
-/

namespace MsimeLinux

open Lib

/-- What the snapshot code takes from GLib. -/
structure GLib where
  /-- `g_date_time_new_from_iso8601`: the instant a text names, in seconds since 1970 and
  microseconds -/
  iso8601 : Bytes → Option (Int × Nat)
  /-- `g_date_valid_dmy` -/
  dateValidDmy : (day month year : Nat) → Bool

/-! ## Timestamps -/

def isDigit (c : UInt8) : Bool := 48 ≤ c && c ≤ 57

/-- `(Z|[+-][0-9]{2}:[0-9]{2})$`. -/
def matchZone : Bytes → Bool
  | [z] => z == 90
  | [s, h, h', colon, m, m'] =>
    (s == 43 || s == 45) && isDigit h && isDigit h' && colon == 58 && isDigit m && isDigit m'
  | _ => false

/-- `([.,][0-9]+)?` and the zone. A zone does not begin with a digit, so the
digits of the fraction are all that stand there. -/
def matchFraction : Bytes → Bool
  | [] => false
  | c :: rest =>
    matchZone (c :: rest) ||
      (c == 46 || c == 44) && !(rest.takeWhile isDigit).isEmpty &&
        matchZone (rest.dropWhile isDigit)

/-- `[0-9]{4}-[0-9]{2}-[0-9]{2}T[0-9]{2}:[0-9]{2}:[0-9]{2}`, one test for each
character. -/
def layout : List (UInt8 → Bool) :=
  [isDigit, isDigit, isDigit, isDigit, (· == 45), isDigit, isDigit, (· == 45), isDigit, isDigit,
    (· == 84), isDigit, isDigit, (· == 58), isDigit, isDigit, (· == 58), isDigit, isDigit]

/-- `std::regex_match(value, syntax)` (SnapshotContents.cpp:36). -/
def matchSyntax (value : Bytes) : Bool :=
  layout.length ≤ value.length && (List.zipWith (· ·) layout value).all id &&
    matchFraction (value.drop layout.length)

/-- `number(start, count)`, on digits. -/
def number (value : Bytes) (start count : Nat) : Nat :=
  ((value.drop start).take count).foldl (fun n c => 10 * n + (c.toNat - 48)) 0

/-- `std::replace(value.begin(), value.end(), ',', '.')`. -/
def commaToDot (value : Bytes) : Bytes := value.map fun c => if c = 44 then 46 else c

/-- `timestamp` (SnapshotContents.cpp:34). -/
def timestamp (G : GLib) (value : Bytes) : Except Failure Unit := do
  if 128 < value.length ∨ matchSyntax value = false then throw badRequest
  if G.dateValidDmy (number value 8 2) (number value 5 2) (number value 0 4) = false ∨
      23 < number value 11 2 ∨ 59 < number value 14 2 ∨ 59 < number value 17 2 then
    throw badRequest
  if value.getLast? ≠ some 90 ∧
      (23 < number value (value.length - 5) 2 ∨ 59 < number value (value.length - 2) 2) then
    throw badRequest
  if G.iso8601 (commaToDot value) = none ∨
      G.iso8601 (commaToDot value) = some (-62135596800, 0) then
    throw badRequest
  return ()

/-- A moment the snapshot format can name. -/
structure Timestamp (G : GLib) (value : Bytes) : Prop where
  syntactic : value.length ≤ 128 ∧ matchSyntax value = true
  date : G.dateValidDmy (number value 8 2) (number value 5 2) (number value 0 4) = true
  time : number value 11 2 ≤ 23 ∧ number value 14 2 ≤ 59 ∧ number value 17 2 ≤ 59
  zone : value.getLast? ≠ some 90 →
    number value (value.length - 5) 2 ≤ 23 ∧ number value (value.length - 2) 2 ≤ 59
  instant : ∃ instant, G.iso8601 (commaToDot value) = some instant ∧
    instant ≠ (-62135596800, 0)

/-- `timestamp` accepts exactly the moments the calendar has. -/
theorem timestamp_eq_ok_iff {G : GLib} {value : Bytes} {u : Unit} :
    timestamp G value = .ok u ↔ Timestamp G value := by
  simp only [timestamp, guard_eq_ok_iff, pure_eq_ok_iff, not_or, not_and, Nat.not_lt,
    Bool.not_eq_false, and_true]
  constructor
  · rintro ⟨hmatches, ⟨hdate, htime⟩, hzone, hsome, hinstant⟩
    obtain ⟨instant, hinst⟩ := Option.ne_none_iff_exists'.mp hsome
    exact ⟨hmatches, hdate, htime, hzone, instant, hinst, fun h => hinstant (h ▸ hinst)⟩
  · rintro ⟨hmatches, hdate, htime, hzone, instant, hinst, hne⟩
    rw [hinst]
    exact ⟨hmatches, ⟨hdate, htime⟩, hzone, by simp, fun h => hne (Option.some.inj h)⟩

/-! ## Fields -/

/-- The bytes no name may contain: `\0`, tab, carriage return, newline. -/
def forbidden : Bytes := [0, 9, 13, 10]

/-- `bounded` (SnapshotContents.cpp:20). -/
def bounded (object : JsonObject) (key : Bytes) (maximum : Nat) : Except Failure Bytes := do
  let value ← object.text key
  if value = [] ∨ maximum < value.length ∨ ∃ c ∈ value, c ∈ forbidden then throw badRequest
  return value

/-- `integer` (SnapshotContents.cpp:27). -/
def integerWithin (object : JsonObject) (key : Bytes) (minimum maximum : Int) :
    Except Failure Int := do
  let value ← object.member Json.asInt64 badRequest key
  if value < minimum ∨ maximum < value then throw badRequest
  return value

/-- A name of at most `maximum` bytes. -/
def Bounded (maximum : Nat) (value : Bytes) : Prop :=
  value ≠ [] ∧ value.length ≤ maximum ∧ ∀ c ∈ value, c ∉ forbidden

/-- `bounded` returns a string that is within its maximum and whose bytes are text. -/
theorem bounded_eq_ok_iff {object : JsonObject} {key value : Bytes} {maximum : Nat} :
    bounded object key maximum = .ok value ↔
      object.ifContains key = some (.string value) ∧ Bounded maximum value := by
  simp only [bounded, call_eq_ok_iff, guard_eq_ok_iff, pure_eq_ok_iff,
    JsonObject.text_eq_ok_iff, Bounded, not_or, Nat.not_lt, not_exists, not_and]
  constructor
  · rintro ⟨_, htext, hbounded, rfl⟩
    exact ⟨htext, hbounded⟩
  · rintro ⟨htext, hbounded⟩
    exact ⟨_, htext, hbounded, rfl⟩

/-- `integer` returns a number between its bounds. -/
theorem integerWithin_eq_ok_iff {object : JsonObject} {key : Bytes}
    {minimum maximum value : Int} :
    integerWithin object key minimum maximum = .ok value ↔
      object.ifContains key = some (.int value) ∧ minimum ≤ value ∧ value ≤ maximum := by
  simp only [integerWithin, call_eq_ok_iff, guard_eq_ok_iff, pure_eq_ok_iff,
    JsonObject.member_eq_ok_iff, Json.asInt64_eq_some_iff, exists_eq_right, not_or, Int.not_lt]
  constructor
  · rintro ⟨_, hmember, hwithin, rfl⟩
    exact ⟨hmember, hwithin⟩
  · rintro ⟨hmember, hwithin⟩
    exact ⟨_, hmember, hwithin, rfl⟩

/-! ## Rows -/

/-- A row of the table `records` (SnapshotContents.cpp:89). -/
structure Row where
  type : RecordType
  scope : Bytes
  code : Bytes
  word : Bytes
  id : Bytes := []
  weight : Int := 0
  owned : Bool := true
  deleted : Bool := false
  slot : Int := 0
  deriving DecidableEq

/-- A key of one of the table's indexes: the primary key, and the indexes
`entry_ids` and `position_slots`, which cover one type each. -/
inductive RowKey where
  | primary (type : RecordType) (scope code word : Bytes)
  | entryId (id : Bytes)
  | positionSlot (scope : Bytes) (slot : Int)
  deriving DecidableEq

def Row.keys (row : Row) : List RowKey :=
  .primary row.type row.scope row.code row.word ::
    match row.type with
    | .entry => [.entryId row.id]
    | .position => [.positionSlot row.scope row.slot]
    | _ => []

/-- Two rows the table takes together. -/
structure Row.Distinct (a b : Row) : Prop where
  key : (a.type, a.scope, a.code, a.word) ≠ (b.type, b.scope, b.code, b.word)
  id : a.type = .entry → b.type = .entry → a.id ≠ b.id
  slot : a.type = .position → b.type = .position → (a.scope, a.slot) ≠ (b.scope, b.slot)

/-- Two rows are apart in the tables when no key of theirs is shared. -/
theorem Row.apart_iff {a b : Row} : Apart Row.keys a b ↔ a.Distinct b := by
  obtain ⟨atype, ascope, acode, aword, aid, _, _, _, aslot⟩ := a
  obtain ⟨btype, bscope, bcode, bword, bid, _, _, _, bslot⟩ := b
  constructor
  · intro h
    refine ⟨fun hkey => ?_, fun ha hb => ?_, fun ha hb => ?_⟩
    · refine h (.primary atype ascope acode aword) List.mem_cons_self ?_
      obtain ⟨rfl, rfl, rfl, rfl⟩ := by simpa using hkey
      exact List.mem_cons_self
    · cases ha
      cases hb
      simpa [Row.keys] using h (.entryId aid) (by simp [Row.keys])
    · cases ha
      cases hb
      simpa [Row.keys] using h (.positionSlot ascope aslot) (by simp [Row.keys])
  · rintro ⟨hkey, hid, hslot⟩ k ha hb
    simp only [ne_eq, Prod.mk.injEq] at hkey hid hslot
    cases atype <;> cases btype <;> simp [Row.keys] at ha hb hkey hid hslot <;> grind

/-- The words a personal dictionary keeps apart (SnapshotContents.cpp:113). -/
def kinds : List Bytes := [ascii "pinyin", ascii "wubi", ascii "english", ascii "quick"]

def knownKind (scope : Bytes) : Bool := kinds.any (· = scope)

/-- The known kinds are the four of the list. -/
theorem knownKind_iff {scope : Bytes} : knownKind scope = true ↔ scope ∈ kinds := by
  simp [knownKind]

/-- Whether the user put the word in; the member may be missing
(SnapshotContents.cpp:116). -/
def userInserted (data : JsonObject) : Except Failure Bool :=
  match data.ifContains (ascii "user_inserted") with
  | none => if data.length ≠ 7 then .error badRequest else .ok true
  | some inserted =>
    if data.length ≠ 8 then .error badRequest
    else
      match inserted with
      | .bool owned => .ok owned
      | _ => .error badRequest

/-- Only an overlay can be deleted (SnapshotContents.cpp:125). -/
def deletedFlag (object : JsonObject) (type : RecordType) : Except Failure Bool :=
  if type = .overlay then object.flag (ascii "deleted") else .ok false

/-- An entry is owned, has a name of its own, and there are not too many of them
(SnapshotContents.cpp:127). -/
def checkEntry (data : JsonObject) (type : RecordType) (id : Bytes) (owned : Bool)
    (entries : Nat) : Except Failure Bytes :=
  if type ≠ .entry then .ok id
  else do
    let id ← bounded data (ascii "id") 128
    if owned = false ∨ 100000 < entries + 1 then throw badRequest
    return id

/-- An entry or an overlay (SnapshotContents.cpp:110); `entries` counts the
entries before it. -/
def personalRow (G : GLib) (revision : Int) (entries : Nat) (type : RecordType)
    (object data : JsonObject) (code word : Bytes) : Except Failure Row := do
  let scope ← data.text (ascii "kind")
  if knownKind scope = false then throw badRequest
  let id ← data.text (ascii "id")
  let owned ← userInserted data
  let deleted ← deletedFlag object type
  let id ← checkEntry data type id owned entries
  let weight ← integerWithin data (ascii "weight") (if deleted then 0 else 1) 100000000
  let _ ← integerWithin data (ascii "revision") 1 revision
  let updatedAt ← data.text (ascii "updated_at")
  timestamp G updatedAt
  return { type, scope, code, word, id, weight, owned, deleted }

/-- The member that holds the number of a position or a selection, and its
bounds (SnapshotContents.cpp:141). -/
def slotWithin (data : JsonObject) (type : RecordType) : Except Failure Int :=
  if type = .position then integerWithin data (ascii "position") 1 5
  else integerWithin data (ascii "count") 0 10

/-- A position or a selection (SnapshotContents.cpp:138). -/
def contextRow (type : RecordType) (data : JsonObject) (code word : Bytes) :
    Except Failure Row := do
  let scope ← bounded data (ascii "context") 512
  if data.length ≠ 4 ∨ 2048 < scope.length + code.length + word.length then throw badRequest
  let slot ← slotWithin data type
  return { type, scope, code, word, slot }

/-- What `validate_snapshot_contents` keeps while it reads
(SnapshotContents.cpp:98). -/
structure ContentsState where
  records : Nat := 0
  entries : Nat := 0
  index : List Row := []

/-- `boost::json::parse(line).as_object()`; the envelope has found it to be one. -/
def lineObject (J : JsonLib) (line : Bytes) : Except Failure JsonObject :=
  match J.tree line with
  | some (.object object) => .ok object
  | _ => .error badRequest

/-- The row of a data line. The envelope has found its type to be one of the four
and its `data` to be an object. -/
def lineRow (J : JsonLib) (G : GLib) (revision : Int) (entries : Nat) (line : Bytes) :
    Except Failure Row := do
  let object ← lineObject J line
  let name ← object.text (ascii "type")
  let type ← recordType name
  let data ← object.child (ascii "data")
  let code ← bounded data (ascii "code") 512
  let word ← bounded data (ascii "word") 2048
  match type with
  | .entry | .overlay => personalRow G revision entries type object data code word
  | .position | .selection => contextRow type data code word

/-- `sqlite3_step` on the insertion (SnapshotContents.cpp:153). -/
def ContentsState.insert (st : ContentsState) (row : Row) : Except Failure ContentsState :=
  match insertRow Row.keys st.index row with
  | none => .error badRequest
  | some index => .ok
    { records := st.records + 1
      entries := if row.type = .entry then st.entries + 1 else st.entries
      index := index }

/-- The visitor (SnapshotContents.cpp:102). -/
def contentsVisitor (J : JsonLib) (G : GLib) (st : ContentsState) (line : Bytes)
    (revision : Int) : Except Failure ContentsState := do
  if 500000 < st.records + 1 then throw badRequest
  let row ← lineRow J G revision st.entries line
  st.insert row

/-- The join condition: the row on the right has the type, and the same key. -/
def sameWord (type : RecordType) (a b : Row) : Bool :=
  b.type = type ∧ a.scope = b.scope ∧ a.code = b.code ∧ a.word = b.word

/-- An entry without an overlay that has it (SnapshotContents.cpp:160). -/
def strayEntry : Row × Option Row → Bool
  | (e, none) => e.type = .entry
  | (e, some o) => e.type = .entry ∧ (o.deleted = true ∨ o.owned = false ∨ e.weight ≠ o.weight)

/-- An overlay the user put in, without an entry (SnapshotContents.cpp:164). -/
def strayOverlay : Row × Option Row → Bool
  | (o, none) => o.type = .overlay ∧ o.deleted = false ∧ o.owned = true
  | (_, some _) => false

/-- The final query: some entry or overlay is stray (SnapshotContents.cpp:158). -/
def mismatch (rows : List Row) : Bool :=
  (leftJoin (sameWord .overlay) rows rows).any strayEntry ||
    (leftJoin (sameWord .entry) rows rows).any strayOverlay

/-- `validate_snapshot_contents` (SnapshotContents.cpp:70). -/
def validateSnapshotContents (J : JsonLib) (sha256 : Bytes → Bytes) (G : GLib)
    (input : Source UInt8) : Except Failure Unit := do
  let (_, st) ← inspectSnapshotEnvelope J sha256 (contentsVisitor J G) {} input
  if mismatch st.index = true then throw badRequest
  return ()

/-! ## One line -/

/-- The limits on the fields of an entry or an overlay, and the row they make. -/
structure PersonalLine (G : GLib) (revision : Int) (object data : JsonObject) (row : Row) :
    Prop where
  kind : data.ifContains (ascii "kind") = some (.string row.scope) ∧ row.scope ∈ kinds
  id : data.ifContains (ascii "id") = some (.string row.id) ∧
    (row.type = .entry → Bounded 128 row.id)
  owned : data.ifContains (ascii "user_inserted") = none ∧ data.length = 7 ∧ row.owned = true ∨
    data.ifContains (ascii "user_inserted") = some (.bool row.owned) ∧ data.length = 8
  deleted : if row.type = .overlay
    then object.ifContains (ascii "deleted") = some (.bool row.deleted) else row.deleted = false
  weight : data.ifContains (ascii "weight") = some (.int row.weight) ∧
    (if row.deleted then 0 else 1) ≤ row.weight ∧ row.weight ≤ 100000000
  revision : ∃ r, data.ifContains (ascii "revision") = some (.int r) ∧ 1 ≤ r ∧ r ≤ revision
  updatedAt : ∃ t, data.ifContains (ascii "updated_at") = some (.string t) ∧ Timestamp G t
  slot : row.slot = 0

/-- The same for a position or a selection. -/
structure ContextLine (data : JsonObject) (row : Row) : Prop where
  context : data.ifContains (ascii "context") = some (.string row.scope) ∧ Bounded 512 row.scope
  size : data.length = 4 ∧ row.scope.length + row.code.length + row.word.length ≤ 2048
  position : row.type = .position →
    data.ifContains (ascii "position") = some (.int row.slot) ∧ 1 ≤ row.slot ∧ row.slot ≤ 5
  selection : row.type ≠ .position →
    data.ifContains (ascii "count") = some (.int row.slot) ∧ 0 ≤ row.slot ∧ row.slot ≤ 10
  rest : row.id = [] ∧ row.weight = 0 ∧ row.owned = true ∧ row.deleted = false

/-- `line` is within the limits of its type, and says what `row` says. -/
structure RecordLine (J : JsonLib) (G : GLib) (revision : Int) (line : Bytes) (row : Row) :
    Prop where
  members : ∃ object data : JsonObject, J.tree line = some (.object object) ∧
    object.ifContains (ascii "type") = some (.string row.type.name) ∧
    object.ifContains (ascii "data") = some (.object data) ∧
    data.ifContains (ascii "code") = some (.string row.code) ∧
    data.ifContains (ascii "word") = some (.string row.word) ∧
    match row.type with
    | .entry | .overlay => PersonalLine G revision object data row
    | .position | .selection => ContextLine data row
  code : Bounded 512 row.code
  word : Bounded 2048 row.word

variable {J : JsonLib} {sha256 : Bytes → Bytes} {G : GLib}

/-- A line must hold one object. -/
theorem lineObject_eq_ok_iff {line : Bytes} {object : JsonObject} :
    lineObject J line = .ok object ↔ J.tree line = some (.object object) := by
  unfold lineObject
  split
  · next o htree => simp [htree]
  · next hne =>
    simp only [reduceCtorEq, false_iff]
    exact fun h => hne object h

/-- `user_inserted` may be missing; then there are seven members and the word is owned. -/
theorem userInserted_eq_ok_iff {data : JsonObject} {owned : Bool} :
    userInserted data = .ok owned ↔
      data.ifContains (ascii "user_inserted") = none ∧ data.length = 7 ∧ owned = true ∨
      data.ifContains (ascii "user_inserted") = some (.bool owned) ∧ data.length = 8 := by
  unfold userInserted
  cases hmember : data.ifContains (ascii "user_inserted") with
  | none => by_cases hlen : data.length = 7 <;> simp [hlen, eq_comm]
  | some inserted =>
    by_cases hlen : data.length = 8
    · cases inserted <;> simp [hlen]
    · simp [hlen]

/-- Only an overlay says whether it is deleted. -/
theorem deletedFlag_eq_ok_iff {object : JsonObject} {type : RecordType} {deleted : Bool} :
    deletedFlag object type = .ok deleted ↔
      if type = .overlay then object.ifContains (ascii "deleted") = some (.bool deleted)
      else deleted = false := by
  unfold deletedFlag
  split
  · exact JsonObject.flag_eq_ok_iff
  · rw [Except.ok.injEq, eq_comm]

/-- What the reader asks of an entry, beyond its id. -/
theorem checkEntry_eq_ok_iff {data : JsonObject} {type : RecordType} {owned : Bool}
    {entries : Nat} {id id' : Bytes} (hid : data.ifContains (ascii "id") = some (.string id)) :
    checkEntry data type id owned entries = .ok id' ↔
      id' = id ∧ (type = .entry → Bounded 128 id ∧ owned = true ∧ entries < 100000) := by
  unfold checkEntry
  by_cases htype : type = .entry
  · rw [if_neg (not_not.mpr htype)]
    simp only [call_eq_ok_iff, guard_eq_ok_iff, pure_eq_ok_iff, bounded_eq_ok_iff, hid,
      not_or, Bool.not_eq_false, Nat.not_lt, Nat.succ_le_iff, htype, forall_const,
      Option.some.injEq, Json.string.injEq]
    constructor
    · rintro ⟨_, ⟨rfl, hbounded⟩, hentry, rfl⟩
      exact ⟨rfl, hbounded, hentry⟩
    · rintro ⟨rfl, hbounded, hentry⟩
      exact ⟨_, ⟨rfl, hbounded⟩, hentry, rfl⟩
  · simp [htype, eq_comm]

/-- A personal line is read exactly as the row it describes, -/
theorem personalRow_eq_ok_iff {revision : Int} {entries : Nat} {type : RecordType}
    {object data : JsonObject} {code word : Bytes} {row : Row} :
    personalRow G revision entries type object data code word = .ok row ↔
      (row.type = type ∧ row.code = code ∧ row.word = word) ∧
      PersonalLine G revision object data row ∧
      (row.type = .entry → row.owned = true ∧ entries < 100000) := by
  simp only [personalRow, guard_eq_ok_iff, call_eq_ok_iff, pure_eq_ok_iff,
    deletedFlag_eq_ok_iff, JsonObject.text_eq_ok_iff, userInserted_eq_ok_iff,
    integerWithin_eq_ok_iff, timestamp_eq_ok_iff, Bool.not_eq_false, knownKind_iff]
  constructor
  · rintro ⟨scope, hscope, hkind, id₀, hid₀, owned, howned, deleted, hdel, id, hent, weight,
      hweight, r, hrevision, t, ht, _, hstamp, rfl⟩
    obtain ⟨rfl, hentry⟩ := (checkEntry_eq_ok_iff hid₀).mp hent
    exact ⟨⟨rfl, rfl, rfl⟩, ⟨⟨hscope, hkind⟩, ⟨hid₀, fun h => (hentry h).1⟩, howned, hdel,
      hweight, ⟨r, hrevision⟩, ⟨t, ht, hstamp⟩, rfl⟩, fun h => (hentry h).2⟩
  · rintro ⟨⟨rfl, rfl, rfl⟩, hline, hentry⟩
    obtain ⟨r, hrevision⟩ := hline.revision
    obtain ⟨t, ht, hstamp⟩ := hline.updatedAt
    refine ⟨row.scope, hline.kind.1, hline.kind.2, row.id, hline.id.1, row.owned, hline.owned,
      row.deleted, hline.deleted, row.id, ?_, row.weight, hline.weight, r, hrevision, t, ht, (),
      hstamp, ?_⟩
    · exact (checkEntry_eq_ok_iff hline.id.1).mpr
        ⟨rfl, fun h => ⟨hline.id.2 h, hentry h⟩⟩
    · rw [← hline.slot]

/-- and so is a line of the context. -/
theorem contextRow_eq_ok_iff {type : RecordType} {data : JsonObject} {code word : Bytes}
    {row : Row} :
    contextRow type data code word = .ok row ↔
      (row.type = type ∧ row.code = code ∧ row.word = word) ∧ ContextLine data row := by
  have hslot : ∀ slot, slotWithin data type = .ok slot ↔
      (type = .position → data.ifContains (ascii "position") = some (.int slot) ∧
        1 ≤ slot ∧ slot ≤ 5) ∧
      (type ≠ .position → data.ifContains (ascii "count") = some (.int slot) ∧
        0 ≤ slot ∧ slot ≤ 10) := by
    intro slot
    unfold slotWithin
    split
    · next htype => simp [htype, integerWithin_eq_ok_iff]
    · next htype => simp [htype, integerWithin_eq_ok_iff]
  simp only [contextRow, guard_eq_ok_iff, call_eq_ok_iff, pure_eq_ok_iff, hslot,
    bounded_eq_ok_iff, not_or, not_not, Nat.not_lt]
  constructor
  · rintro ⟨scope, hscope, hsize, slot, hslot, rfl⟩
    exact ⟨⟨rfl, rfl, rfl⟩, hscope, hsize, hslot.1, hslot.2, rfl, rfl, rfl, rfl⟩
  · rintro ⟨⟨rfl, rfl, rfl⟩, hline⟩
    obtain ⟨hid, hweight, howned, hdeleted⟩ := hline.rest
    refine ⟨row.scope, hline.context, hline.size, row.slot, ⟨hline.position, hline.selection⟩, ?_⟩
    rw [← hid, ← hweight, ← howned, ← hdeleted]

/-- **The row of a line**: the line is within its limits, and an entry is owned
and not one too many. -/
theorem lineRow_eq_ok_iff {revision : Int} {entries : Nat} {line : Bytes} {row : Row} :
    lineRow J G revision entries line = .ok row ↔
      RecordLine J G revision line row ∧
        (row.type = .entry → row.owned = true ∧ entries < 100000) := by
  simp only [lineRow, call_eq_ok_iff, lineObject_eq_ok_iff, JsonObject.text_eq_ok_iff,
    recordType_eq_ok_iff, JsonObject.child_eq_ok_iff, bounded_eq_ok_iff]
  constructor
  · rintro ⟨object, htree, _, hname, type, rfl, data, hdata, code, ⟨hcode, hcodes⟩, word,
      ⟨hword, hwords⟩, hrow⟩
    cases htype : type with
    | entry | overlay =>
      rw [htype] at hrow hname
      obtain ⟨⟨hty, rfl, rfl⟩, hline, hentry⟩ := personalRow_eq_ok_iff.mp hrow
      exact ⟨⟨⟨object, data, htree, hty ▸ hname, hdata, hcode, hword, by rw [hty]; exact hline⟩,
        hcodes, hwords⟩, hentry⟩
    | position | selection =>
      rw [htype] at hrow hname
      obtain ⟨⟨hty, rfl, rfl⟩, hline⟩ := contextRow_eq_ok_iff.mp hrow
      exact ⟨⟨⟨object, data, htree, hty ▸ hname, hdata, hcode, hword, by rw [hty]; exact hline⟩,
        hcodes, hwords⟩, fun h => by simp [hty] at h⟩
  · rintro ⟨⟨⟨object, data, htree, hname, hdata, hcode, hword, hline⟩, hcodes, hwords⟩, hentry⟩
    refine ⟨object, htree, _, hname, row.type, rfl, data, hdata, row.code, ⟨hcode, hcodes⟩,
      row.word, ⟨hword, hwords⟩, ?_⟩
    cases htype : row.type with
    | entry | overlay =>
      rw [htype] at hline
      exact personalRow_eq_ok_iff.mpr ⟨⟨htype, rfl, rfl⟩, hline, hentry⟩
    | position | selection =>
      rw [htype] at hline
      exact contextRow_eq_ok_iff.mpr ⟨⟨htype, rfl, rfl⟩, hline⟩

/-! ## All lines -/

/-- The rows of a type, in order. -/
def rowsOf (type : RecordType) (rows : List Row) : List Row := rows.filter (·.type = type)

/-- `rowsOf` picks the rows of one type. -/
theorem mem_rowsOf {type : RecordType} {rows : List Row} {row : Row} :
    row ∈ rowsOf type rows ↔ row ∈ rows ∧ row.type = type := by
  simp [rowsOf]

/-- The rows the table may hold: distinct, and owned where they are entries. -/
structure TableRows (rows : List Row) : Prop where
  distinct : rows.Pairwise Row.Distinct
  owned : ∀ row ∈ rows, row.type = .entry → row.owned = true

namespace ContentsState

/-- The state once `rows` have been put in. -/
def after (st : ContentsState) (rows : List Row) : ContentsState where
  records := st.records + rows.length
  entries := st.entries + (rowsOf .entry rows).length
  index := st.index ++ rows

/-- The state is within the limits. -/
structure Fits (st : ContentsState) : Prop where
  table : TableRows st.index
  records : st.records ≤ 500000
  entries : st.entries ≤ 100000

theorem rowsOf_append (type : RecordType) (rows rows' : List Row) :
    rowsOf type (rows ++ rows') = rowsOf type rows ++ rowsOf type rows' :=
  List.filter_append ..

/-- Rows are added one after the other. -/
theorem after_after (st : ContentsState) (rows rows' : List Row) :
    (st.after rows).after rows' = st.after (rows ++ rows') := by
  simp [after, rowsOf_append, Nat.add_assoc]

theorem after_nil (st : ContentsState) : st.after [] = st := by
  simp [after, rowsOf]

/-- One more row: it has a key of its own, and is owned when it is an entry. -/
theorem fits_after_singleton {st : ContentsState} (h : st.Fits) {row : Row} :
    (st.after [row]).Fits ↔
      st.records < 500000 ∧ (row.type = .entry → row.owned = true ∧ st.entries < 100000) ∧
        ∀ old ∈ st.index, old.Distinct row := by
  -- only an entry counts against the limit of entries
  have hentries : st.entries + (rowsOf .entry [row]).length ≤ 100000 ↔
      (row.type = .entry → st.entries < 100000) := by
    have hcount := h.entries
    by_cases htype : row.type = .entry
    · have hone : (rowsOf .entry [row]).length = 1 := by simp [rowsOf, htype]
      rw [hone]
      exact ⟨fun hle _ => hle, fun hlt => hlt htype⟩
    · have hnone : (rowsOf .entry [row]).length = 0 := by simp [rowsOf, htype]
      rw [hnone]
      exact ⟨fun _ h => absurd h htype, fun _ => hcount⟩
  -- and the table takes the row exactly when its keys are new
  have htable : TableRows (st.index ++ [row]) ↔
      (∀ old ∈ st.index, old.Distinct row) ∧ (row.type = .entry → row.owned = true) := by
    constructor
    · rintro ⟨hdistinct, howned⟩
      exact ⟨fun old hold => (List.pairwise_append.mp hdistinct).2.2 old hold row (by simp),
        howned row (by simp)⟩
    · rintro ⟨hdistinct, howned⟩
      refine ⟨List.pairwise_append.mpr
        ⟨h.table.distinct, List.pairwise_singleton _ _, by simpa using hdistinct⟩, ?_⟩
      intro r hr htype
      rcases List.mem_append.mp hr with hr | hr
      · exact h.table.owned r hr htype
      · obtain rfl := List.mem_singleton.mp hr
        exact howned htype
  constructor
  · rintro ⟨ht, hr, he⟩
    obtain ⟨hdistinct, howned⟩ := htable.mp ht
    exact ⟨hr, fun htype => ⟨howned htype, hentries.mp he htype⟩, hdistinct⟩
  · rintro ⟨hr, he, hdistinct⟩
    exact ⟨htable.mpr ⟨hdistinct, fun htype => (he htype).1⟩, hr,
      hentries.mpr fun htype => (he htype).2⟩

/-- What fits with more rows fits without them. -/
theorem Fits.of_after {st : ContentsState} {rows : List Row} (h : (st.after rows).Fits) :
    st.Fits where
  table := ⟨(List.pairwise_append.mp h.table.distinct).1,
    fun row hrow => h.table.owned row (List.mem_append_left _ hrow)⟩
  records := Nat.le_trans (Nat.le_add_right _ _) h.records
  entries := Nat.le_trans (Nat.le_add_right _ _) h.entries

/-- A row is inserted exactly when it is distinct from every row before it. -/
theorem insert_eq_ok_iff {st st' : ContentsState} {row : Row} :
    st.insert row = .ok st' ↔
      (∀ old ∈ st.index, old.Distinct row) ∧ st' = st.after [row] := by
  have hentries : (if row.type = .entry then st.entries + 1 else st.entries) =
      st.entries + (rowsOf .entry [row]).length := by
    by_cases htype : row.type = .entry <;> simp [rowsOf, htype]
  simp only [← Row.apart_iff]
  unfold ContentsState.insert
  cases hrow : insertRow Row.keys st.index row with
  | none =>
    simp only [reduceCtorEq, false_iff, not_and]
    intro hapart
    have := insertRow_eq_some_iff.mpr ⟨hapart, rfl⟩
    simp [hrow] at this
  | some index =>
    obtain ⟨hapart, rfl⟩ := insertRow_eq_some_iff.mp hrow
    simp only [hentries, Except.ok.injEq]
    exact ⟨fun h => ⟨hapart, h.symm⟩, fun h => h.2.symm⟩

end ContentsState

/-- **The step lemma**: a data line is accepted exactly when it says a row that
still fits. -/
theorem contentsVisitor_eq_ok_iff {st st' : ContentsState} (h : st.Fits) {line : Bytes}
    {revision : Int} :
    contentsVisitor J G st line revision = .ok st' ↔
      ∃ row, RecordLine J G revision line row ∧ st' = st.after [row] ∧ st'.Fits := by
  simp only [contentsVisitor, guard_eq_ok_iff, call_eq_ok_iff, lineRow_eq_ok_iff,
    ContentsState.insert_eq_ok_iff, Nat.not_lt, Nat.succ_le_iff]
  constructor
  · rintro ⟨hrecords, row, ⟨hline, hentry⟩, hdistinct, rfl⟩
    exact ⟨row, hline, rfl,
      (ContentsState.fits_after_singleton h).mpr ⟨hrecords, hentry, hdistinct⟩⟩
  · rintro ⟨row, hline, rfl, hfits⟩
    obtain ⟨hrecords, hentry, hdistinct⟩ := (ContentsState.fits_after_singleton h).mp hfits
    exact ⟨hrecords, row, ⟨hline, hentry⟩, hdistinct, rfl⟩

/-- **The data lines**, by induction on them: every line says a row, and together
the rows fit. -/
theorem foldlM_contentsVisitor {lines : List Bytes} {revision : Int} {st st' : ContentsState}
    (h : st.Fits) :
    lines.foldlM (fun st line => contentsVisitor J G st line revision) st = .ok st' ↔
      ∃ rows, List.Forall₂ (RecordLine J G revision) lines rows ∧ st' = st.after rows ∧
        st'.Fits := by
  induction lines generalizing st with
  | nil =>
    constructor
    · intro hrun
      obtain rfl : st = st' := Except.ok.inj hrun
      exact ⟨[], .nil, st.after_nil.symm, h⟩
    · rintro ⟨rows, hlines, rfl, _⟩
      obtain rfl : rows = [] := List.forall₂_nil_left_iff.mp hlines
      rw [st.after_nil]
      rfl
  | cons line lines ih =>
    simp only [List.foldlM_cons, call_eq_ok_iff, contentsVisitor_eq_ok_iff h]
    constructor
    · rintro ⟨_, ⟨row, hline, rfl, hfits⟩, hrun⟩
      obtain ⟨rows, hlines, rfl, hfits'⟩ := (ih hfits).mp hrun
      rw [st.after_after] at hfits' ⊢
      exact ⟨row :: rows, .cons hline hlines, rfl, hfits'⟩
    · rintro ⟨rows, hlines, rfl, hfits⟩
      cases hlines with
      | @cons _ row _ rows hline hlines =>
        have hsplit : (st.after [row]).after rows = st.after (row :: rows) :=
          st.after_after [row] rows
        have hfirst : (st.after [row]).Fits := (hsplit ▸ hfits).of_after
        exact ⟨_, ⟨row, hline, rfl, hfirst⟩,
          (ih hfirst).mpr ⟨rows, hlines, hsplit.symm, hfits⟩⟩

/-! ## The query -/

/-- What identifies a word, and how much it weighs. -/
def Row.weighted (row : Row) : Bytes × Bytes × Bytes × Int :=
  (row.scope, row.code, row.word, row.weight)

/-- The overlays of words the user put in and did not delete. -/
def liveOverlays (rows : List Row) : List Row :=
  (rowsOf .overlay rows).filter fun row => row.owned && !row.deleted

/-- The live overlays are those that are owned and not deleted. -/
theorem mem_liveOverlays {rows : List Row} {row : Row} :
    row ∈ liveOverlays rows ↔
      row ∈ rows ∧ row.type = .overlay ∧ row.owned = true ∧ row.deleted = false := by
  simp only [liveOverlays, List.mem_filter, mem_rowsOf, Bool.and_eq_true, Bool.not_eq_true',
    and_assoc]

/-- Entries and live overlays correspond one to one, with equal keys and equal
weight. -/
def Corresponds (rows : List Row) : Prop :=
  ((rowsOf .entry rows).map Row.weighted).Perm ((liveOverlays rows).map Row.weighted)

/-- Two rows name the same word when their scope, code and word agree. -/
theorem sameWord_iff {type : RecordType} {a b : Row} :
    sameWord type a b = true ↔
      b.type = type ∧ a.scope = b.scope ∧ a.code = b.code ∧ a.word = b.word := by
  simp [sameWord]

/-- In a table, the rows of one type with one key are one row. -/
theorem TableRows.unique {rows : List Row} (h : TableRows rows) {a b : Row} (ha : a ∈ rows)
    (hb : b ∈ rows) (htype : a.type = b.type)
    (hkey : a.scope = b.scope ∧ a.code = b.code ∧ a.word = b.word) : a = b := by
  by_contra hne
  have hsym : Std.Symm fun r s : Row =>
      (r.type, r.scope, r.code, r.word) ≠ (s.type, s.scope, s.code, s.word) :=
    ⟨fun _ _ hrs => hrs.symm⟩
  refine (h.distinct.imp Row.Distinct.key).forall ha hb hne ?_
  rw [htype, hkey.1, hkey.2.1, hkey.2.2]

/-- The words of one type are no list twice over. -/
theorem TableRows.nodup {rows sub : List Row} (h : TableRows rows) {type : RecordType}
    (hsub : sub.Sublist rows) (htype : ∀ row ∈ sub, row.type = type) :
    (sub.map Row.weighted).Nodup := by
  rw [List.Nodup, List.pairwise_map]
  refine (h.distinct.sublist hsub).imp_of_mem fun {a b} ha hb hab heq => hab.key ?_
  simp only [Row.weighted, Prod.mk.injEq] at heq
  rw [htype a ha, htype b hb, heq.1, heq.2.1, heq.2.2.1]

/-- The query finds nothing when every entry has a live overlay of its weight and
every live overlay has an entry. -/
theorem mismatch_eq_false_iff {rows : List Row} :
    mismatch rows = false ↔
      (∀ e ∈ rowsOf .entry rows,
        (∃ o ∈ rows, sameWord .overlay e o = true) ∧
        ∀ o ∈ rows, sameWord .overlay e o = true →
          o.deleted = false ∧ o.owned = true ∧ e.weight = o.weight) ∧
      ∀ o ∈ liveOverlays rows, ∃ e ∈ rows, sameWord .entry o e = true := by
  simp only [mismatch, Bool.or_eq_false_iff, List.any_eq_false, Prod.forall, mem_leftJoin]
  refine and_congr ⟨fun h e he => ⟨?_, fun o ho hon => ?_⟩, fun h e o hjoin => ?_⟩
    ⟨fun h o ho => ?_, fun h o e hjoin => ?_⟩
  · -- an entry without overlay would be joined with nothing, which is stray
    obtain ⟨he, htype⟩ := mem_rowsOf.mp he
    by_contra hnone
    refine h e none ⟨he, fun o ho => ?_⟩ (by simpa [strayEntry] using htype)
    rw [Bool.eq_false_iff]
    exact fun hon => hnone ⟨o, ho, hon⟩
  · obtain ⟨he, htype⟩ := mem_rowsOf.mp he
    have := h e (some o) ⟨he, ho, hon⟩
    simpa [strayEntry, htype] using this
  · cases o with
    | none =>
      obtain ⟨he, hnone⟩ := hjoin
      simp only [strayEntry, decide_eq_true_eq]
      intro htype
      obtain ⟨o, ho, hon⟩ := (h e (mem_rowsOf.mpr ⟨he, htype⟩)).1
      simp [hnone o ho] at hon
    | some o =>
      obtain ⟨he, ho, hon⟩ := hjoin
      simp only [strayEntry, decide_eq_true_eq, not_and]
      intro htype
      have := (h e (mem_rowsOf.mpr ⟨he, htype⟩)).2 o ho hon
      simp [this]
  · -- and so would a live overlay without entry
    by_contra hnone
    obtain ⟨ho, htype, howned, hdeleted⟩ := mem_liveOverlays.mp ho
    refine h o none ⟨ho, fun e he => ?_⟩ (by simp [strayOverlay, htype, howned, hdeleted])
    rw [Bool.eq_false_iff]
    exact fun hon => hnone ⟨e, he, hon⟩
  · cases e with
    | none =>
      obtain ⟨ho, hnone⟩ := hjoin
      simp only [strayOverlay, decide_eq_true_eq]
      rintro ⟨htype, hdeleted, howned⟩
      obtain ⟨e, he, hon⟩ := h o (mem_liveOverlays.mpr ⟨ho, htype, howned, hdeleted⟩)
      simp [hnone e he] at hon
    | some e => simp [strayOverlay]

/-- **The final comparison.** On the rows of a table the query finds nothing
exactly when entries and live overlays correspond. -/
theorem TableRows.mismatch_iff {rows : List Row} (h : TableRows rows) :
    mismatch rows = false ↔ Corresponds rows := by
  have hentries : ((rowsOf .entry rows).map Row.weighted).Nodup :=
    h.nodup List.filter_sublist fun row hrow => (mem_rowsOf.mp hrow).2
  have hlive : ((liveOverlays rows).map Row.weighted).Nodup :=
    h.nodup (List.filter_sublist.trans List.filter_sublist)
      fun row hrow => (mem_liveOverlays.mp hrow).2.1
  rw [mismatch_eq_false_iff, Corresponds, List.perm_ext_iff_of_nodup hentries hlive]
  constructor
  · rintro ⟨hentry, hoverlay⟩ x
    simp only [List.mem_map]
    constructor
    · rintro ⟨e, he, rfl⟩
      obtain ⟨⟨o, ho, hon⟩, hall⟩ := hentry e he
      obtain ⟨hdeleted, howned, hweight⟩ := hall o ho hon
      obtain ⟨htype, hscope, hcode, hword⟩ := sameWord_iff.mp hon
      refine ⟨o, mem_liveOverlays.mpr ⟨ho, htype, howned, hdeleted⟩, ?_⟩
      rw [Row.weighted, Row.weighted, hscope, hcode, hword, hweight]
    · rintro ⟨o, ho, rfl⟩
      obtain ⟨e, he, hon⟩ := hoverlay o ho
      obtain ⟨ho, hoverlay, _, _⟩ := mem_liveOverlays.mp ho
      obtain ⟨htype, hscope, hcode, hword⟩ := sameWord_iff.mp hon
      have hmem := mem_rowsOf.mpr ⟨he, htype⟩
      have hback : sameWord .overlay e o = true :=
        sameWord_iff.mpr ⟨hoverlay, hscope.symm, hcode.symm, hword.symm⟩
      refine ⟨e, hmem, ?_⟩
      rw [Row.weighted, Row.weighted, hscope, hcode, hword, ((hentry e hmem).2 o ho hback).2.2]
  · intro hperm
    simp only [List.mem_map] at hperm
    refine ⟨fun e he => ?_, fun o ho => ?_⟩
    · obtain ⟨o, ho, heq⟩ := (hperm e.weighted).mp ⟨e, he, rfl⟩
      simp only [Row.weighted, Prod.mk.injEq] at heq
      obtain ⟨hscope, hcode, hword, hweight⟩ := heq
      obtain ⟨ho, htype, howned, hdeleted⟩ := mem_liveOverlays.mp ho
      refine ⟨⟨o, ho, sameWord_iff.mpr ⟨htype, hscope.symm, hcode.symm, hword.symm⟩⟩, ?_⟩
      intro o' ho' hon
      -- an overlay with the entry's key is the one found
      obtain ⟨htype', hscope', hcode', hword'⟩ := sameWord_iff.mp hon
      obtain rfl : o = o' := h.unique ho ho' (htype.trans htype'.symm)
        ⟨hscope.trans hscope', hcode.trans hcode', hword.trans hword'⟩
      exact ⟨hdeleted, howned, hweight.symm⟩
    · obtain ⟨e, he, heq⟩ := (hperm o.weighted).mpr ⟨o, ho, rfl⟩
      simp only [Row.weighted, Prod.mk.injEq] at heq
      obtain ⟨he, htype⟩ := mem_rowsOf.mp he
      exact ⟨e, he, sameWord_iff.mpr ⟨htype, heq.1.symm, heq.2.1.symm, heq.2.2.1.symm⟩⟩

/-! ## What is accepted -/

/-- The records of a snapshot, as the data lines say them: the lines within the
limits of their types, and not too many. -/
structure Contents (J : JsonLib) (G : GLib) (s : SnapshotLines) (rows : List Row) : Prop where
  lines : List.Forall₂ (RecordLine J G s.revision) s.data rows
  records : s.data.length ≤ 500000
  entries : (rowsOf .entry rows).length ≤ 100000

/-- **The relation between the records**: no two of a type with one key, no two
entries with one name, no two positions in one slot; every entry is owned, and
the entries are the live overlays. -/
structure Consistent (rows : List Row) : Prop where
  keys : rows.Pairwise fun a b =>
    (a.type, a.scope, a.code, a.word) ≠ (b.type, b.scope, b.code, b.word)
  ids : (rowsOf .entry rows).Pairwise fun a b => a.id ≠ b.id
  slots : (rowsOf .position rows).Pairwise fun a b => (a.scope, a.slot) ≠ (b.scope, b.slot)
  owned : ∀ row ∈ rowsOf .entry rows, row.owned = true
  corresponds : Corresponds rows

/-- The final check of the tables is the correspondence of overlays and entries. -/
theorem consistent_iff {rows : List Row} :
    Consistent rows ↔ TableRows rows ∧ Corresponds rows := by
  have hof : ∀ (type : RecordType) (R : Row → Row → Prop), (rowsOf type rows).Pairwise R ↔
      rows.Pairwise fun a b => a.type = type → b.type = type → R a b := by
    intro type R
    simp [rowsOf, List.pairwise_filter]
  constructor
  · rintro ⟨hkeys, hids, hslots, howned, hcorr⟩
    refine ⟨⟨?_, fun row hrow htype => howned row (mem_rowsOf.mpr ⟨hrow, htype⟩)⟩, hcorr⟩
    rw [hof] at hids hslots
    exact (hkeys.and (hids.and hslots)).imp fun h => ⟨h.1, h.2.1, h.2.2⟩
  · rintro ⟨htable, hcorr⟩
    refine ⟨htable.distinct.imp Row.Distinct.key, ?_, ?_, fun row hrow => ?_, hcorr⟩
    · rw [hof]
      exact htable.distinct.imp Row.Distinct.id
    · rw [hof]
      exact htable.distinct.imp Row.Distinct.slot
    · exact htable.owned row (mem_rowsOf.mp hrow).1 (mem_rowsOf.mp hrow).2

/-- **What the validation accepts**: an envelope of consistent contents. -/
theorem validateSnapshotContents_eq_ok_iff (hJ : J.StringsFit) {input : Source UInt8} {u : Unit} :
    validateSnapshotContents J sha256 G input = .ok u ↔
      ∃ s rows, Envelope J sha256 input.symbols s ∧ Contents J G s rows ∧ Consistent rows := by
  have hempty : ContentsState.Fits {} := ⟨⟨.nil, by simp⟩, Nat.zero_le _, Nat.zero_le _⟩
  simp only [validateSnapshotContents, call_eq_ok_iff, guard_eq_ok_iff, Prod.exists,
    inspectSnapshotEnvelope_eq_ok_iff hJ, foldlM_contentsVisitor hempty, Bool.not_eq_true,
    pure_eq_ok_iff, and_true]
  have hafter : ∀ rows, ContentsState.after {} rows =
      { records := rows.length, entries := (rowsOf .entry rows).length, index := rows } := by
    intro rows
    simp [ContentsState.after]
  constructor
  · rintro ⟨_, _, ⟨s, henv, ⟨rows, hlines, rfl, hfits⟩, _⟩, hmatch⟩
    rw [hafter] at hfits hmatch
    exact ⟨s, rows, henv, ⟨hlines, hlines.length_eq ▸ hfits.records, hfits.entries⟩,
      consistent_iff.mpr ⟨hfits.table, hfits.table.mismatch_iff.mp hmatch⟩⟩
  · rintro ⟨s, rows, henv, ⟨hlines, hrec, hent⟩, hconsistent⟩
    obtain ⟨htable, hcorr⟩ := consistent_iff.mp hconsistent
    refine ⟨_, _, ⟨s, henv, ⟨rows, hlines, rfl, ?_⟩, rfl⟩, ?_⟩
    · rw [hafter]
      exact ⟨htable, hlines.length_eq ▸ hrec, hent⟩
    · rw [hafter]
      exact htable.mismatch_iff.mpr hcorr

end MsimeLinux
