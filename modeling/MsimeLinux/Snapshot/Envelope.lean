import MsimeLinux.Lib.Except
import MsimeLinux.Lib.Lines
import MsimeLinux.Snapshot.Json

/-!
# The snapshot envelope (`SnapshotEnvelope.cpp`)

A snapshot travels as lines of JSON: a header, data lines, and a footer with
their number and their SHA-256. `inspectSnapshotEnvelope` reads one from a stream
and checks this frame, handing every data line to a visitor on the way.

- `EnvelopeState.Takes`: what one line does to the state.
- `inspectLine_eq_ok_iff`: the code does just that.

The digest is `sha256`, a parameter; cancellation is not modelled.
-/

namespace MsimeLinux

open Lib

/-- `throw Failure(400)`. -/
def badRequest : Failure := ⟨400, false⟩

/-- The record types (SnapshotEnvelope.cpp:183). -/
inductive RecordType where
  | entry
  | overlay
  | position
  | selection
  deriving DecidableEq, Repr

namespace RecordType

def name : RecordType → Bytes
  | entry => ascii "entry"
  | overlay => ascii "overlay"
  | position => ascii "position"
  | selection => ascii "selection"

/-- The number a record type has in `category`; the header is 0. -/
def index : RecordType → Int
  | entry => 1
  | overlay => 2
  | position => 3
  | selection => 4

theorem index_nonneg (type : RecordType) : 0 ≤ type.index := by
  cases type <;> decide

/-- How many members a data line of the type has: an overlay also says whether
the word was deleted. -/
def members : RecordType → Nat
  | overlay => 3
  | _ => 2

/-- The type a line names, if any. -/
def ofName (type : Bytes) : Option RecordType :=
  if type = entry.name then some entry
  else if type = overlay.name then some overlay
  else if type = position.name then some position
  else if type = selection.name then some selection
  else none

theorem ofName_eq_some_iff {type : Bytes} {t : RecordType} :
    ofName type = some t ↔ type = t.name := by
  constructor
  · intro h
    unfold ofName at h
    split at h
    · next he => cases h; exact he
    split at h
    · next he => cases h; exact he
    split at h
    · next he => cases h; exact he
    split at h
    · next he => cases h; exact he
    · cases h
  · rintro rfl
    cases t <;> decide

end RecordType

/-- `SnapshotEnvelope` (SnapshotEnvelope.h:9). -/
structure SnapshotEnvelope where
  revision : Int := 0
  records : Nat := 0
  counts : RecordType → Nat := fun _ => 0
  sha256 : Bytes := []

/-! ## Lines as objects -/

variable (J : JsonLib) (sha256 : Bytes → Bytes)

/-- `parse` (SnapshotEnvelope.cpp:103). The second parse sees a text the first has
found to be a value nested at most 8 deep, and builds the tree it spells. -/
def parseObject (line : Bytes) : Except Failure JsonObject :=
  match J.tree line with
  | none => .error badRequest
  | some tree =>
    if !strictKeys tree then .error badRequest
    else
      match tree with
      | .object object => .ok object
      | _ => .error badRequest

/-- `integer` (SnapshotEnvelope.cpp:117). -/
def JsonObject.natural (object : JsonObject) (key : Bytes) : Except Failure Int := do
  let value ← object.member Json.asInt64 badRequest key
  if value < 0 then throw badRequest
  return value

/-- `string` (SnapshotEnvelope.cpp:124). -/
def JsonObject.text (object : JsonObject) (key : Bytes) : Except Failure Bytes :=
  object.member Json.asString badRequest key

/-- A member that is itself an object. -/
def JsonObject.child (object : JsonObject) (key : Bytes) : Except Failure JsonObject :=
  object.member Json.asObject badRequest key

/-- A member that is `true` or `false`. -/
def JsonObject.flag (object : JsonObject) (key : Bytes) : Except Failure Bool :=
  object.member Json.asBool badRequest key

theorem JsonObject.natural_eq_ok_iff {object : JsonObject} {key : Bytes} {value : Int} :
    object.natural key = .ok value ↔
      object.ifContains key = some (.int value) ∧ 0 ≤ value := by
  simp only [JsonObject.natural, call_eq_ok_iff, guard_eq_ok_iff, pure_eq_ok_iff,
    JsonObject.member_eq_ok_iff, Json.asInt64_eq_some_iff, exists_eq_right, Int.not_lt]
  constructor
  · rintro ⟨_, hmember, hpos, rfl⟩
    exact ⟨hmember, hpos⟩
  · rintro ⟨hmember, hpos⟩
    exact ⟨_, hmember, hpos, rfl⟩

theorem JsonObject.text_eq_ok_iff {object : JsonObject} {key value : Bytes} :
    object.text key = .ok value ↔ object.ifContains key = some (.string value) := by
  simp [JsonObject.text, JsonObject.member_eq_ok_iff, Json.asString_eq_some_iff]

theorem JsonObject.child_eq_ok_iff {object value : JsonObject} {key : Bytes} :
    object.child key = .ok value ↔ object.ifContains key = some (.object value) := by
  simp [JsonObject.child, JsonObject.member_eq_ok_iff, Json.asObject_eq_some_iff]

theorem JsonObject.flag_eq_ok_iff {object : JsonObject} {key : Bytes} {value : Bool} :
    object.flag key = .ok value ↔ object.ifContains key = some (.bool value) := by
  simp [JsonObject.flag, JsonObject.member_eq_ok_iff, Json.asBool_eq_some_iff]

/-- `line` is one JSON object within the limits of a snapshot line. -/
def ObjectLine (line : Bytes) (object : JsonObject) : Prop :=
  J.tree line = some (.object object) ∧
    (Json.object object).Admissible StrictKeys.maxDepth

/-- Whether a line is one can be tried. -/
theorem ObjectLine.of_strictKeys {J : JsonLib} {line : Bytes} {object : JsonObject}
    (htree : J.tree line = some (.object object)) (hstrict : strictKeys (.object object) = true) :
    ObjectLine J line object :=
  ⟨htree, ((strictKeys_iff _).mp hstrict).admissible⟩

theorem parseObject_eq_ok_iff {J : JsonLib} (hJ : J.StringsFit) {line : Bytes}
    (hlen : line.length < 65536) {object : JsonObject} :
    parseObject J line = .ok object ↔ ObjectLine J line object := by
  unfold parseObject ObjectLine
  cases htree : J.tree line with
  | none => simp
  | some tree =>
    have hiff := strictKeys_iff_admissible hJ htree (Nat.le_of_lt_succ hlen)
    by_cases hstrict : strictKeys tree = true
    · have hadm := hiff.mp hstrict
      cases tree with
      | object members =>
        simp only [hstrict, Bool.not_true, Bool.false_eq_true, if_false, Except.ok.injEq,
          Option.some.injEq, Json.object.injEq]
        exact ⟨fun h => ⟨h, h ▸ hadm⟩, And.left⟩
      | null | bool _ | int _ | uint _ | double | string _ | array _ => simp [hstrict]
    · simp only [hstrict, Bool.not_false, if_true, reduceCtorEq, false_iff, not_and,
        Option.some.injEq]
      rintro rfl hadm
      exact hstrict (hiff.mpr hadm)

/-! ## The inspection -/

/-- The locals of `inspect_snapshot_envelope` (SnapshotEnvelope.cpp:135). `hashed`
is what the checksum has been given, `visited` what the visitor keeps. -/
structure EnvelopeState (ν : Type) where
  result : SnapshotEnvelope := {}
  bytes : Nat := 0
  category : Int := -1
  finished : Bool := false
  hashed : Bytes := []
  visited : ν

variable {ν : Type} (visitor : ν → Bytes → Int → Except Failure ν)

/-- A header or data line, once accepted: it counts as a record and goes into the
checksum (SnapshotEnvelope.cpp:206). -/
def EnvelopeState.record (st : EnvelopeState ν) (line : Bytes) (category : Int) :
    EnvelopeState ν :=
  { st with
    category := category
    result := { st.result with records := st.result.records + 1 }
    hashed := st.hashed ++ line ++ [newline] }

/-- The header branch (SnapshotEnvelope.cpp:172). -/
def inspectHeader (st : EnvelopeState ν) (line : Bytes) (object : JsonObject) :
    Except Failure (EnvelopeState ν) := do
  if st.category ≠ -1 ∨ object.length ≠ 4 then throw badRequest
  if (← object.text (ascii "format")) ≠ ascii "msime-dictionary-snapshot" then throw badRequest
  if (← object.natural (ascii "version")) ≠ 1 then throw badRequest
  let revision ← object.natural (ascii "revision")
  return { st with result := { st.result with revision := revision } }.record line 0

/-- The type of a data line; any other name is refused (SnapshotEnvelope.cpp:183). -/
def recordType (type : Bytes) : Except Failure RecordType :=
  match RecordType.ofName type with
  | some type => .ok type
  | none => .error badRequest

/-- An overlay says whether the word was deleted (SnapshotEnvelope.cpp:195). -/
def checkDeleted (object : JsonObject) (type : RecordType) : Except Failure Unit :=
  if type = .overlay then (object.flag (ascii "deleted")).map fun _ => () else .ok ()

/-- The data branch (SnapshotEnvelope.cpp:180). -/
def inspectData (st : EnvelopeState ν) (line : Bytes) (object : JsonObject) (type : Bytes) :
    Except Failure (EnvelopeState ν) := do
  if st.category < 0 then throw badRequest
  let next ← recordType type
  if next.index < st.category then throw badRequest
  let _ ← object.child (ascii "data")
  if object.length ≠ next.members then throw badRequest
  checkDeleted object next
  let counts := Function.update st.result.counts next (st.result.counts next + 1)
  let visited ← visitor st.visited line st.result.revision
  return { st with
    result := { st.result with counts := counts }
    visited := visited }.record line next.index

/-- The footer branch (SnapshotEnvelope.cpp:160). -/
def inspectFooter (st : EnvelopeState ν) (object : JsonObject) :
    Except Failure (EnvelopeState ν) := do
  if st.category < 0 ∨ object.length ≠ 3 then throw badRequest
  if (← object.natural (ascii "records")) ≠ st.result.records then throw badRequest
  let digest ← object.text (ascii "sha256")
  if digest ≠ sha256 st.hashed then throw badRequest
  return { st with result := { st.result with sha256 := digest }, finished := true }

/-- The body of the loop (SnapshotEnvelope.cpp:141), for a line and the number of
bytes its read took. -/
def inspectLine (st : EnvelopeState ν) (line : Bytes) (read : Nat) :
    Except Failure (EnvelopeState ν) := do
  let st := { st with bytes := st.bytes + read }
  if 536870912 < st.bytes ∨ st.finished then throw badRequest
  if line.length = 0 ∨ 65536 ≤ line.length then throw badRequest
  let object ← parseObject J line
  let type ← object.text (ascii "type")
  if type = ascii "footer" then inspectFooter sha256 st object
  else if type = ascii "header" then inspectHeader st line object
  else inspectData visitor st line object type

/-- `inspect_snapshot_envelope` (SnapshotEnvelope.cpp:132). The buffer of 65537
bytes holds 65536 and a terminator. -/
def inspectSnapshotEnvelope (visited : ν) (input : Source UInt8) :
    Except Failure (SnapshotEnvelope × ν) := do
  let st ← input.foldLines newline 65536 badRequest (inspectLine J sha256 visitor)
    { visited := visited }
  if !st.finished then throw badRequest
  return (st.result, st.visited)

/-! ## The format -/

/-- A header line. -/
structure HeaderLine (line : Bytes) (revision : Int) : Prop where
  object : ∃ object, ObjectLine J line object ∧ object.length = 4 ∧
    object.ifContains (ascii "type") = some (.string (ascii "header")) ∧
    object.ifContains (ascii "format") = some (.string (ascii "msime-dictionary-snapshot")) ∧
    object.ifContains (ascii "version") = some (.int 1) ∧
    object.ifContains (ascii "revision") = some (.int revision)
  revision_nonneg : 0 ≤ revision

/-- A data line of a type: its members, and nothing else. -/
def DataLine (line : Bytes) (type : RecordType) : Prop :=
  ∃ object, ObjectLine J line object ∧ object.length = type.members ∧
    object.ifContains (ascii "type") = some (.string type.name) ∧
    (∃ data, object.ifContains (ascii "data") = some (.object data)) ∧
    (type = .overlay → ∃ deleted, object.ifContains (ascii "deleted") = some (.bool deleted))

/-- A footer line. -/
def FooterLine (line : Bytes) (records : Nat) (digest : Bytes) : Prop :=
  ∃ object, ObjectLine J line object ∧ object.length = 3 ∧
    object.ifContains (ascii "type") = some (.string (ascii "footer")) ∧
    object.ifContains (ascii "records") = some (.int records) ∧
    object.ifContains (ascii "sha256") = some (.string digest)

/-! ## One line -/

variable {J sha256 visitor}

/-- The state after a header line. -/
def EnvelopeState.header (st : EnvelopeState ν) (line : Bytes) (revision : Int) :
    EnvelopeState ν :=
  { st with result := { st.result with revision := revision } }.record line 0

/-- The state after a footer line. -/
def EnvelopeState.footer (st : EnvelopeState ν) (digest : Bytes) : EnvelopeState ν :=
  { st with result := { st.result with sha256 := digest }, finished := true }

/-- The state once a line of `read` bytes has been counted. -/
def EnvelopeState.read (st : EnvelopeState ν) (read : Nat) : EnvelopeState ν :=
  { st with bytes := st.bytes + read }

theorem inspectHeader_eq_ok_iff {st st' : EnvelopeState ν} {line : Bytes} {object : JsonObject} :
    inspectHeader st line object = .ok st' ↔
      st.category = -1 ∧ object.length = 4 ∧
      object.ifContains (ascii "format") = some (.string (ascii "msime-dictionary-snapshot")) ∧
      object.ifContains (ascii "version") = some (.int 1) ∧
      ∃ revision, object.ifContains (ascii "revision") = some (.int revision) ∧ 0 ≤ revision ∧
        st' = st.header line revision := by
  simp only [inspectHeader, guard_eq_ok_iff, call_eq_ok_iff, pure_eq_ok_iff,
    JsonObject.text_eq_ok_iff, JsonObject.natural_eq_ok_iff, not_or, not_not]
  constructor
  · rintro ⟨⟨hcat, hlen⟩, _, hformat, rfl, _, ⟨hversion, _⟩, rfl, revision, ⟨hrev, hpos⟩, rfl⟩
    exact ⟨hcat, hlen, hformat, hversion, revision, hrev, hpos, rfl⟩
  · rintro ⟨hcat, hlen, hformat, hversion, revision, hrev, hpos, rfl⟩
    exact ⟨⟨hcat, hlen⟩, _, hformat, rfl, _, ⟨hversion, by decide⟩, rfl, revision,
      ⟨hrev, hpos⟩, rfl⟩

theorem inspectFooter_eq_ok_iff {st st' : EnvelopeState ν} {object : JsonObject} :
    inspectFooter sha256 st object = .ok st' ↔
      0 ≤ st.category ∧ object.length = 3 ∧
      object.ifContains (ascii "records") = some (.int st.result.records) ∧
      object.ifContains (ascii "sha256") = some (.string (sha256 st.hashed)) ∧
      st' = st.footer (sha256 st.hashed) := by
  simp only [inspectFooter, guard_eq_ok_iff, call_eq_ok_iff, pure_eq_ok_iff,
    JsonObject.text_eq_ok_iff, JsonObject.natural_eq_ok_iff, not_or, not_not, Int.not_lt]
  constructor
  · rintro ⟨⟨hcat, hlen⟩, _, ⟨hrecords, _⟩, rfl, _, hdigest, rfl, rfl⟩
    exact ⟨hcat, hlen, hrecords, hdigest, rfl⟩
  · rintro ⟨hcat, hlen, hrecords, hdigest, rfl⟩
    exact ⟨⟨hcat, hlen⟩, _, ⟨hrecords, Int.natCast_nonneg _⟩, rfl, _, hdigest, rfl, rfl⟩

/-- The state after a data line that the visitor took. -/
def EnvelopeState.data (st : EnvelopeState ν) (line : Bytes) (type : RecordType) (visited : ν) :
    EnvelopeState ν :=
  { st with
    result := { st.result with
      counts := Function.update st.result.counts type (st.result.counts type + 1) }
    visited := visited }.record line type.index

theorem recordType_eq_ok_iff {name : Bytes} {type : RecordType} :
    recordType name = .ok type ↔ name = type.name := by
  rw [← RecordType.ofName_eq_some_iff]
  unfold recordType
  cases RecordType.ofName name <;> simp

theorem checkDeleted_eq_ok_iff {object : JsonObject} {type : RecordType} {u : Unit} :
    checkDeleted object type = .ok u ↔
      (type = .overlay → ∃ deleted, object.flag (ascii "deleted") = .ok deleted) := by
  unfold checkDeleted
  by_cases htype : type = .overlay
  · cases hflag : object.flag (ascii "deleted") <;> simp [htype, Except.map]
  · simp [htype]

theorem inspectData_eq_ok_iff {st st' : EnvelopeState ν} {line name : Bytes}
    {object : JsonObject} :
    inspectData visitor st line object name = .ok st' ↔
      ∃ type visited, name = type.name ∧ 0 ≤ st.category ∧ st.category ≤ type.index ∧
        object.length = type.members ∧
        (∃ data, object.ifContains (ascii "data") = some (.object data)) ∧
        (type = .overlay →
          ∃ deleted, object.ifContains (ascii "deleted") = some (.bool deleted)) ∧
        visitor st.visited line st.result.revision = .ok visited ∧
        st' = st.data line type visited := by
  simp only [inspectData, guard_eq_ok_iff, call_eq_ok_iff, pure_eq_ok_iff,
    recordType_eq_ok_iff, checkDeleted_eq_ok_iff, JsonObject.child_eq_ok_iff,
    JsonObject.flag_eq_ok_iff, not_not, Int.not_lt]
  constructor
  · rintro ⟨hcat, type, hname, hle, data, hdata, hlen, _, hdeleted, visited, hvisit, rfl⟩
    exact ⟨type, visited, hname, hcat, hle, hlen, ⟨data, hdata⟩, hdeleted, hvisit, rfl⟩
  · rintro ⟨type, visited, hname, hcat, hle, hlen, ⟨data, hdata⟩, hdeleted, hvisit, rfl⟩
    exact ⟨hcat, type, hname, hle, data, hdata, hlen, (), hdeleted, visited, hvisit, rfl⟩

/-- What one line does, apart from the limits: it is the header, a data line in
its place, or the footer. -/
inductive EnvelopeState.Takes (J : JsonLib) (sha256 : Bytes → Bytes)
    (visitor : ν → Bytes → Int → Except Failure ν) (st : EnvelopeState ν) (line : Bytes) :
    EnvelopeState ν → Prop
  | header {revision : Int} : HeaderLine J line revision → st.category = -1 →
      Takes J sha256 visitor st line (st.header line revision)
  | data {type : RecordType} {visited : ν} : DataLine J line type → 0 ≤ st.category →
      st.category ≤ type.index → visitor st.visited line st.result.revision = .ok visited →
      Takes J sha256 visitor st line (st.data line type visited)
  | footer : FooterLine J line st.result.records (sha256 st.hashed) → 0 ≤ st.category →
      Takes J sha256 visitor st line (st.footer (sha256 st.hashed))

/-- **The step lemma**: a line is accepted exactly when it is within the limits
and the state takes it. -/
theorem inspectLine_eq_ok_iff (hJ : J.StringsFit) {st st' : EnvelopeState ν} {line : Bytes}
    {read : Nat} :
    inspectLine J sha256 visitor st line read = .ok st' ↔
      (st.bytes + read ≤ 536870912 ∧ st.finished = false) ∧
      (line ≠ [] ∧ line.length < 65536) ∧
      (st.read read).Takes J sha256 visitor line st' := by
  simp only [inspectLine, guard_eq_ok_iff, call_eq_ok_iff, JsonObject.text_eq_ok_iff, not_or,
    Nat.not_lt, Nat.not_le, Bool.not_eq_true, List.length_eq_zero_iff]
  refine and_congr_right fun hbytes => and_congr_right fun hline => ?_
  simp only [parseObject_eq_ok_iff hJ hline.2]
  constructor
  · rintro ⟨object, hobject, name, hname, hrest⟩
    -- the name of the type decides which reader the line goes to
    split at hrest
    · next hfooter =>
      obtain ⟨hcat, hlen, hrecords, hdigest, rfl⟩ := inspectFooter_eq_ok_iff.mp hrest
      exact .footer ⟨object, hobject, hlen, hfooter ▸ hname, hrecords, hdigest⟩ hcat
    split at hrest
    · next hheader =>
      obtain ⟨hcat, hlen, hformat, hversion, revision, hrev, hpos, rfl⟩ :=
        inspectHeader_eq_ok_iff.mp hrest
      exact .header ⟨⟨object, hobject, hlen, hheader ▸ hname, hformat, hversion, hrev⟩, hpos⟩ hcat
    · obtain ⟨type, visited, rfl, hcat, hle, hlen, hdata, hdeleted, hvisit, rfl⟩ :=
        inspectData_eq_ok_iff.mp hrest
      exact .data ⟨object, hobject, hlen, hname, hdata, hdeleted⟩ hcat hle hvisit
  · intro htakes
    cases htakes with
    | footer hfooter hcat =>
      obtain ⟨object, hobject, hlen, hname, hrecords, hdigest⟩ := hfooter
      refine ⟨object, hobject, _, hname, ?_⟩
      rw [if_pos rfl]
      exact inspectFooter_eq_ok_iff.mpr ⟨hcat, hlen, hrecords, hdigest, rfl⟩
    | @header revision hheader hcat =>
      obtain ⟨⟨object, hobject, hlen, hname, hformat, hversion, hrev⟩, hpos⟩ := hheader
      refine ⟨object, hobject, _, hname, ?_⟩
      rw [if_neg (by decide), if_pos rfl]
      exact inspectHeader_eq_ok_iff.mpr
        ⟨hcat, hlen, hformat, hversion, revision, hrev, hpos, rfl⟩
    | @data type visited hdata hcat hle hvisit =>
      obtain ⟨object, hobject, hlen, hname, hchild, hdeleted⟩ := hdata
      refine ⟨object, hobject, _, hname, ?_⟩
      -- a name of data is neither the footer's nor the header's
      rw [if_neg (by cases type <;> decide), if_neg (by cases type <;> decide)]
      exact inspectData_eq_ok_iff.mpr
        ⟨type, visited, rfl, hcat, hle, hlen, hchild, hdeleted, hvisit, rfl⟩

end MsimeLinux
