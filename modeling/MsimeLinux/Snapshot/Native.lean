import MsimeLinux.Lib.OrderBy
import MsimeLinux.Snapshot.Records

/-!
# Exporting the native dictionary (`NativeSnapshotExport.cpp`)

`exportNativeSnapshot` writes the engine's records as a snapshot: it spools one or
two lines for each record, in the order the records come, then puts the lines in
the order of their categories between a header and a footer, and validates what
it has written.

- `spool_eq_ok`: what the records are written as.
- `WireRecord.staged_row`: a line that was accepted is read as the record it was
  written for.
- `exportNativeSnapshot_roundTrip`: what is exported is read back, and state the
  format cannot hold is not exported.

The engine's journal is the list of its records; the clock is `now`.
-/

namespace MsimeLinux

open Lib

variable (J : JsonLib) (sha256 : Bytes → Bytes) (now : Bytes)

/-! ## Records as objects -/

/-- `identity` (NativeSnapshotExport.cpp:36). -/
def identity (kind key value : Bytes) : Bytes :=
  sha256 (J.serialize (.array [.string kind, .string key, .string value]))

/-- The data of an entry and its overlay (NativeSnapshotExport.cpp:107). -/
def entryData (e : DictionaryStateEntry) : JsonObject :=
  [(ascii "id",
      .string (if e.userInserted then identity J sha256 e.kind.name e.key e.value else [])),
    (ascii "kind", .string e.kind.name), (ascii "code", .string e.key),
    (ascii "word", .string e.value), (ascii "weight", .int e.weight.toInt),
    (ascii "revision", .int 1), (ascii "updated_at", .string now),
    (ascii "user_inserted", .bool e.userInserted)]

/-- The data of a position or a selection (NativeSnapshotExport.cpp:121), whose
number goes under `member`. -/
def contextData (context key value member : Bytes) (number : Int32) : JsonObject :=
  [(ascii "context", .string context), (ascii "code", .string key), (ascii "word", .string value),
    (member, .int number.toInt)]

/-- A line with nothing but its type and its data. -/
def dataRecord (type : RecordType) (data : JsonObject) : JsonObject :=
  [(ascii "type", .string type.name), (ascii "data", .object data)]

/-- An overlay line (NativeSnapshotExport.cpp:117). -/
def overlayRecord (deleted : Bool) (data : JsonObject) : JsonObject :=
  [(ascii "type", .string RecordType.overlay.name), (ascii "deleted", .bool deleted),
    (ascii "data", .object data)]

/-! ## Spooling -/

/-- What the export keeps while it spools; `rows` is the temporary table, whose
`sequence` is the place in the list. -/
structure ExportState where
  count : Nat := 0
  bytes : Nat := 0
  rows : List (Int × Bytes) := []

/-- `spool` (NativeSnapshotExport.cpp:76). -/
def spool (st : ExportState) (category : Int) (record : JsonObject) : Except Failure ExportState :=
  let line := J.serialize (.object record) ++ [newline]
  if 500000 < st.count + 1 ∨ 65536 ≤ line.length ∨ 536870912 - st.bytes < line.length then
    .error badRequest
  else .ok ⟨st.count + 1, st.bytes + line.length, st.rows ++ [(category, line)]⟩

/-- The entry of a word the user has (NativeSnapshotExport.cpp:115). -/
def spoolEntry (st : ExportState) (e : DictionaryStateEntry) : Except Failure ExportState :=
  if e.userInserted ∧ e.deleted = false then
    spool J st 1 (dataRecord .entry (entryData J sha256 now e))
  else .ok st

/-- One record (NativeSnapshotExport.cpp:94). Version 1 has no separate display
field, so a display text that is not the one a reader would put there is
refused. -/
def exportRecord (st : ExportState) : DictionaryStateRecord → Except Failure ExportState
  | .entry e => do
    if (e.deleted = false ∧ e.kind = .english ∧ e.display ≠ e.value) ∨
        ((e.deleted = true ∨ e.kind ≠ .english) ∧ e.display ≠ []) then throw badRequest
    let st ← spoolEntry J sha256 now st e
    spool J st 2 (overlayRecord e.deleted (entryData J sha256 now e))
  | .position p =>
    spool J st 3
      (dataRecord .position (contextData p.context p.key p.value (ascii "position") p.position))
  | .selection s =>
    spool J st 4
      (dataRecord .selection (contextData s.context s.key s.value (ascii "count") s.count))

/-! ## The snapshot -/

/-- The header of every export (NativeSnapshotExport.cpp:149). -/
def exportHeader : Bytes :=
  ascii "\x7b\"type\":\"header\",\"format\":" ++ ascii "\"msime-dictionary-snapshot\"," ++
    ascii "\"version\":1,\"revision\":1\x7d"

/-- The header and the lines, `ORDER BY category, sequence`. -/
def exportBody (st : ExportState) : Bytes :=
  exportHeader ++ [newline] ++ (orderBy Prod.fst st.rows).flatMap Prod.snd

/-- The footer (NativeSnapshotExport.cpp:157); its count is unsigned. -/
def exportFooter (st : ExportState) : Bytes :=
  J.serialize (.object
    [(ascii "type", .string (ascii "footer")), (ascii "records", .uint (st.count + 1)),
      (ascii "sha256", .string (sha256 (exportBody st)))]) ++ [newline]

/-- `PreparedSnapshot::receive` (PreparedSnapshot.cpp:127): a private copy of what
the producer hands over, once it has been found to be an envelope. How the reads
of the copy split it makes no difference to the reader. -/
def receive (content : Bytes) : Except Failure Bytes := do
  if 536870912 < content.length then throw badRequest
  let _ ← inspectSnapshotEnvelope J sha256 (fun v _ _ => .ok v) () (.ofSymbols content)
  return content

/-- `export_native_snapshot` (NativeSnapshotExport.cpp:49), on the records the
engine streams. -/
def exportNativeSnapshot (G : GLib) (records : List DictionaryStateRecord) :
    Except Failure Bytes := do
  let st ← records.foldlM (exportRecord J sha256 now) {}
  let snapshot ← receive J sha256 (exportBody st ++ exportFooter J sha256 st)
  validateSnapshotContents J sha256 G (.ofSymbols snapshot)
  return snapshot

/-! ## Lines and the records they are written for -/

/-- A line of the export, by the record it is written for. -/
inductive WireRecord where
  | entry (e : DictionaryStateEntry)
  | overlay (e : DictionaryStateEntry)
  | position (p : DictionaryStatePosition)
  | selection (s : DictionaryStateSelection)

namespace WireRecord

def type : WireRecord → RecordType
  | entry _ => .entry
  | overlay _ => .overlay
  | position _ => .position
  | selection _ => .selection

/-- The object on the line. -/
def object : WireRecord → JsonObject
  | entry e => dataRecord .entry (entryData J sha256 now e)
  | overlay e => overlayRecord e.deleted (entryData J sha256 now e)
  | position p =>
    dataRecord .position (contextData p.context p.key p.value (ascii "position") p.position)
  | selection s =>
    dataRecord .selection (contextData s.context s.key s.value (ascii "count") s.count)

/-- The line without its newline. -/
def text (w : WireRecord) : Bytes := J.serialize (.object (w.object J sha256 now))

/-- The row the validation makes of the line. -/
def row : WireRecord → Row
  | entry e => personal .entry e
  | overlay e => personal .overlay e
  | position p => ⟨.position, p.context, p.key, p.value, [], 0, true, false, p.position.toInt⟩
  | selection s => ⟨.selection, s.context, s.key, s.value, [], 0, true, false, s.count.toInt⟩
where
  personal (type : RecordType) (e : DictionaryStateEntry) : Row :=
    ⟨type, e.kind.name, e.key, e.value,
      if e.userInserted then identity J sha256 e.kind.name e.key e.value else [],
      e.weight.toInt, e.userInserted, if type = .overlay then e.deleted else false, 0⟩

/-- The record the reader is to make of the line. -/
def source : WireRecord → Option DictionaryStateRecord
  | entry _ => none
  | overlay e => some (.entry e)
  | position p => some (.position p)
  | selection s => some (.selection s)

end WireRecord

namespace DictionaryStateRecord

/-- The lines a record is written on. -/
def wire : DictionaryStateRecord → List WireRecord
  | entry e =>
    if e.userInserted ∧ e.deleted = false then [.entry e, .overlay e] else [.overlay e]
  | position p => [.position p]
  | selection s => [.selection s]

/-- The display text is the one the reader puts there. -/
def Displayed : DictionaryStateRecord → Prop
  | entry e => e.display = if e.kind = .english ∧ e.deleted = false then e.value else []
  | _ => True

end DictionaryStateRecord

variable {J sha256 now}

theorem spool_eq_ok {st st' : ExportState} {category : Int} {record : JsonObject}
    (h : spool J st category record = .ok st') :
    st'.rows = st.rows ++ [(category, J.serialize (.object record) ++ [newline])] := by
  simp only [spool] at h
  split at h
  · cases h
  · cases h
    rfl

/-- **One record**: it is displayed as the reader will display it, and its lines
are in the table. -/
theorem exportRecord_eq_ok {st st' : ExportState} {r : DictionaryStateRecord}
    (h : exportRecord J sha256 now st r = .ok st') :
    r.Displayed ∧ st'.rows = st.rows ++
      r.wire.map fun w => (w.type.index, w.text J sha256 now ++ [newline]) := by
  cases r with
  | entry e =>
    simp only [exportRecord, guard_eq_ok_iff, call_eq_ok_iff] at h
    obtain ⟨hdisplay, st₁, hentry, hoverlay⟩ := h
    have hrows := spool_eq_ok hoverlay
    refine ⟨?_, ?_⟩
    · show e.display = if e.kind = .english ∧ e.deleted = false then e.value else []
      by_cases hshown : e.kind = .english ∧ e.deleted = false
      · rw [if_pos hshown]
        by_contra hne
        exact hdisplay (.inl ⟨hshown.2, hshown.1, hne⟩)
      · rw [if_neg hshown]
        by_contra hne
        refine hdisplay (.inr ⟨?_, hne⟩)
        by_cases hkind : e.kind = .english
        · exact .inl (Bool.of_not_eq_false fun hd => hshown ⟨hkind, hd⟩)
        · exact .inr hkind
    · -- the entry has a line of its own while it lives, the overlay always
      unfold spoolEntry at hentry
      split at hentry
      · next hlive =>
        rw [hrows, spool_eq_ok hentry, DictionaryStateRecord.wire, if_pos hlive]
        simp [WireRecord.text, WireRecord.object, WireRecord.type, RecordType.index]
      · next hdead =>
        obtain rfl := Except.ok.inj hentry
        rw [hrows, DictionaryStateRecord.wire, if_neg hdead]
        rfl
  | position p => exact ⟨trivial, spool_eq_ok h⟩
  | selection s => exact ⟨trivial, spool_eq_ok h⟩

/-- **All records**, by induction on them. -/
theorem spooled {records : List DictionaryStateRecord} {st st' : ExportState}
    (h : records.foldlM (exportRecord J sha256 now) st = .ok st') :
    (∀ r ∈ records, r.Displayed) ∧ st'.rows = st.rows ++
      (records.flatMap (·.wire)).map fun w => (w.type.index, w.text J sha256 now ++ [newline]) := by
  induction records generalizing st with
  | nil =>
    obtain rfl : st = st' := Except.ok.inj h
    simp
  | cons r records ih =>
    rw [List.foldlM_cons, call_eq_ok_iff] at h
    obtain ⟨st₁, hr, hrest⟩ := h
    obtain ⟨hdisplay, hrows⟩ := exportRecord_eq_ok hr
    obtain ⟨hdisplays, hrows'⟩ := ih hrest
    refine ⟨fun r' hr' => ?_, ?_⟩
    · rcases List.mem_cons.mp hr' with rfl | hr'
      · exact hdisplay
      · exact hdisplays r' hr'
    · rw [hrows', hrows, List.flatMap_cons, List.map_append, List.append_assoc]

/-- The lines of an export, in order. -/
def wires (records : List DictionaryStateRecord) : List WireRecord :=
  orderBy (fun w => w.type.index) (records.flatMap (·.wire))

/-- The lines of an export as text. -/
theorem exportBody_eq {records : List DictionaryStateRecord} {st : ExportState}
    (h : records.foldlM (exportRecord J sha256 now) {} = .ok st) :
    exportBody st = unlines newline
      (exportHeader :: (wires records).map (WireRecord.text J sha256 now)) := by
  have hrows := (spooled h).2
  rw [List.nil_append] at hrows
  have hsorted := @map_orderBy _ _ (fun w : WireRecord => w.type.index) Prod.fst
    (fun w => (w.type.index, w.text J sha256 now ++ [newline])) (fun _ => rfl)
    (records.flatMap (·.wire))
  rw [exportBody, hrows, ← hsorted, unlines_cons]
  simp [unlines, wires, List.flatMap_map]

/-! ## Lines read again -/

theorem entryData_plain (e : DictionaryStateEntry) :
    (Json.object (entryData J sha256 now e)).Plain := by
  refine .object (by simp only [entryData, List.map]; decide) fun m hm => ?_
  simp only [entryData, List.mem_cons, List.not_mem_nil, or_false] at hm
  rcases hm with rfl | rfl | rfl | rfl | rfl | rfl | rfl | rfl
  exacts [.string _, .string _, .string _, .string _, plain_int64 _,
    .int (by decide) (by decide), .string _, .bool _]

theorem contextData_plain {context key value member : Bytes} {number : Int32}
    (hmember : [ascii "context", ascii "code", ascii "word", member].Nodup) :
    (Json.object (contextData context key value member number)).Plain := by
  refine .object hmember fun m hm => ?_
  simp only [contextData, List.mem_cons, List.not_mem_nil, or_false] at hm
  rcases hm with rfl | rfl | rfl | rfl
  exacts [.string _, .string _, .string _, plain_int32 _]

theorem dataRecord_plain {type : RecordType} {data : JsonObject}
    (h : (Json.object data).Plain) : (Json.object (dataRecord type data)).Plain := by
  refine .object (by simp only [dataRecord, List.map]; decide) fun m hm => ?_
  simp only [dataRecord, List.mem_cons, List.not_mem_nil, or_false] at hm
  rcases hm with rfl | rfl
  exacts [.string _, h]

theorem overlayRecord_plain {deleted : Bool} {data : JsonObject}
    (h : (Json.object data).Plain) : (Json.object (overlayRecord deleted data)).Plain := by
  refine .object (by simp only [overlayRecord, List.map]; decide) fun m hm => ?_
  simp only [overlayRecord, List.mem_cons, List.not_mem_nil, or_false] at hm
  rcases hm with rfl | rfl | rfl
  exacts [.string _, .bool _, h]

/-- An object on a line is one a parser can give back. -/
theorem WireRecord.plain (w : WireRecord) : (Json.object (w.object J sha256 now)).Plain := by
  cases w with
  | entry e => exact dataRecord_plain (entryData_plain e)
  | overlay e => exact overlayRecord_plain (entryData_plain e)
  | position p => exact dataRecord_plain (contextData_plain (by decide))
  | selection s => exact dataRecord_plain (contextData_plain (by decide))

variable {G : GLib} {revision : Int}

/-- The row of an entry or an overlay is what was written. -/
theorem PersonalLine.eq_personal {object : JsonObject} {e : DictionaryStateEntry} {row : Row}
    {type : RecordType} (h : PersonalLine G revision object (entryData J sha256 now e) row)
    (htype : row.type = type) (hcode : row.code = e.key) (hword : row.word = e.value)
    (hdeleted : row.deleted = if type = .overlay then e.deleted else false) :
    row = WireRecord.row.personal J sha256 type e := by
  have hkind : some (Json.string e.kind.name) = some (.string row.scope) := h.kind.1
  have hid : some (Json.string (if e.userInserted
      then identity J sha256 e.kind.name e.key e.value else [])) = some (.string row.id) := h.id.1
  have hweight : some (Json.int e.weight.toInt) = some (.int row.weight) := h.weight.1
  have howned : e.userInserted = row.owned := by
    rcases h.owned with ⟨hmissing, _⟩ | ⟨hmember, _⟩
    · cases hmissing
    · have : some (Json.bool e.userInserted) = some (.bool row.owned) := hmember
      simpa using this
  have hslot := h.slot
  simp only [Option.some.injEq, Json.string.injEq, Json.int.injEq] at hkind hid hweight
  obtain ⟨type', scope, code, word, id, weight, owned, deleted, slot⟩ := row
  simp only at hkind hid hweight howned hslot htype hcode hword hdeleted
  subst hkind hid hweight howned hslot htype hcode hword hdeleted
  rfl

/-- The row of a position or a selection is what was written. -/
theorem ContextLine.eq_context {context key value member : Bytes} {number : Int32} {row : Row}
    (h : ContextLine (contextData context key value member number) row)
    (hcode : row.code = key) (hword : row.word = value) (hslot : row.slot = number.toInt) :
    row = ⟨row.type, context, key, value, [], 0, true, false, number.toInt⟩ := by
  have hscope : some (Json.string context) = some (.string row.scope) := h.context.1
  obtain ⟨hid, hweight, howned, hdeleted⟩ := h.rest
  simp only [Option.some.injEq, Json.string.injEq] at hscope
  obtain ⟨type, scope, code, word, id, weight, owned, deleted, slot⟩ := row
  simp only at hscope hid hweight howned hdeleted hslot hcode hword
  subst hscope hid hweight howned hdeleted hslot hcode hword
  rfl

/-- **A line that was accepted**: its row is what was written. -/
theorem WireRecord.row_of_line (hJ : J.Lawful) {w : WireRecord} {row : Row}
    (h : RecordLine J G revision (w.text J sha256 now) row) : row = w.row J sha256 := by
  obtain ⟨object, data, htree, hname, hdata, hcode, hword, hline⟩ := h.members
  -- the line reads back as the object that was written
  obtain rfl : object = w.object J sha256 now :=
    Json.object.inj (hJ.roundTrip _ _ w.plain htree)
  -- so the type of the row is the record's, and each type has its own members
  have htype : row.type = w.type := by
    have : w.type.name = row.type.name := by
      have hw : (w.object J sha256 now).ifContains (ascii "type") = some (.string w.type.name) := by
        cases w <;> rfl
      simpa [hw] using hname
    exact Option.some.inj ((RecordType.ofName_eq_some_iff.mpr rfl).symm.trans
      (RecordType.ofName_eq_some_iff.mpr this.symm))
  cases w with
  | entry e =>
    obtain rfl : entryData J sha256 now e = data := Json.object.inj (Option.some.inj hdata)
    rw [htype] at hline
    have hdeleted : row.deleted = false := by simpa [htype, type] using hline.deleted
    exact hline.eq_personal htype (Json.string.inj (Option.some.inj hcode)).symm
      (Json.string.inj (Option.some.inj hword)).symm hdeleted
  | overlay e =>
    obtain rfl : entryData J sha256 now e = data := Json.object.inj (Option.some.inj hdata)
    rw [htype] at hline
    have hdeleted : (object J sha256 now (overlay e)).ifContains (ascii "deleted") =
        some (.bool row.deleted) := by simpa [htype, type] using hline.deleted
    exact hline.eq_personal htype (Json.string.inj (Option.some.inj hcode)).symm
      (Json.string.inj (Option.some.inj hword)).symm
      (Json.bool.inj (Option.some.inj hdeleted)).symm
  | position p =>
    obtain rfl : contextData p.context p.key p.value (ascii "position") p.position = data :=
      Json.object.inj (Option.some.inj hdata)
    rw [htype] at hline
    have hrow := hline.eq_context (Json.string.inj (Option.some.inj hcode)).symm
      (Json.string.inj (Option.some.inj hword)).symm
      (Json.int.inj (Option.some.inj (hline.position htype).1)).symm
    rw [hrow, htype]
    rfl
  | selection s =>
    obtain rfl : contextData s.context s.key s.value (ascii "count") s.count = data :=
      Json.object.inj (Option.some.inj hdata)
    rw [htype] at hline
    have hrow := hline.eq_context (Json.string.inj (Option.some.inj hcode)).symm
      (Json.string.inj (Option.some.inj hword)).symm
      (Json.int.inj (Option.some.inj (hline.selection (by simp [htype, type])).1)).symm
    rw [hrow, htype]
    rfl

/-! ## The order of the records -/

namespace DictionaryStateRecord

/-- The category of the line a reader takes the record from. -/
def category : DictionaryStateRecord → RecordType
  | entry _ => .overlay
  | position _ => .position
  | selection _ => .selection

end DictionaryStateRecord

/-- The records grouped by category, in the order they have in each. -/
def byCategory (records : List DictionaryStateRecord) : List DictionaryStateRecord :=
  records.filter (·.category = .overlay) ++ records.filter (·.category = .position) ++
    records.filter (·.category = .selection)

theorem byCategory_perm (records : List DictionaryStateRecord) :
    (byCategory records).Perm records := by
  induction records with
  | nil => exact .nil
  | cons r records ih =>
    refine List.Perm.trans ?_ (ih.cons r)
    cases r with
    | entry e => exact .refl _
    | position p =>
      simp only [byCategory, DictionaryStateRecord.category, reduceCtorEq, decide_false,
        decide_true, Bool.false_eq_true, not_false_eq_true, List.filter_cons_of_neg,
        List.filter_cons_of_pos, List.append_assoc, List.cons_append]
      exact List.perm_middle
    | selection s =>
      simp only [byCategory, DictionaryStateRecord.category, reduceCtorEq, decide_false,
        decide_true, Bool.false_eq_true, not_false_eq_true, List.filter_cons_of_neg,
        List.filter_cons_of_pos]
      exact List.perm_middle

/-- Of the lines of a category, those of the records of the category are read. -/
theorem filter_wire (records : List DictionaryStateRecord) (type : RecordType) :
    ((records.flatMap (·.wire)).filter (·.type.index = type.index)).filterMap
      WireRecord.source = records.filter (·.category = type) := by
  induction records with
  | nil => rfl
  | cons r records ih =>
    have hone : (r.wire.filter (·.type.index = type.index)).filterMap WireRecord.source =
        [r].filter (·.category = type) := by
      cases r with
      | entry e =>
        by_cases hlive : e.userInserted ∧ e.deleted = false <;> cases type <;>
          simp [DictionaryStateRecord.wire, DictionaryStateRecord.category, hlive,
            WireRecord.type, WireRecord.source, RecordType.index]
      | position p => cases type <;> rfl
      | selection s => cases type <;> rfl
    rw [List.flatMap_cons, List.filter_append, List.filterMap_append, ih, hone,
      ← List.filter_append, List.singleton_append]

/-- **The order of an export**: the records grouped by category. -/
theorem filterMap_source_wires (records : List DictionaryStateRecord) :
    (wires records).filterMap WireRecord.source = byCategory records := by
  have hindex : ∀ type : RecordType, type.index ∈
      [RecordType.entry.index, RecordType.overlay.index, RecordType.position.index,
        RecordType.selection.index] := by
    intro type
    cases type <;> decide
  have hnone : records.filter (·.category = .entry) = [] := by
    refine List.filter_eq_nil_iff.mpr fun r _ => ?_
    cases r <;> simp [DictionaryStateRecord.category]
  have hsorted : wires records = _ := orderBy_eq_flatMap (by decide) fun w _ => hindex w.type
  rw [hsorted]
  simp only [List.flatMap_cons, List.flatMap_nil, List.append_nil, List.filterMap_append,
    filter_wire, hnone, List.nil_append, byCategory, List.append_assoc]

/-! ## What can be exported -/

/-- A name of at most `maximum` bytes, in UTF-8. -/
def Name (maximum : Nat) (value : Bytes) : Prop := Bounded maximum value ∧ ValidUtf8 value

/-- What a position and a selection have in common. -/
structure Contextual (context key value : Bytes) : Prop where
  names : Name 512 context ∧ Name 512 key ∧ Name 2048 value
  size : context.length + key.length + value.length ≤ 2048

namespace DictionaryStateRecord

/-- The format has a line for the record. -/
def Representable : DictionaryStateRecord → Prop
  | entry e => (entry e).Displayed ∧ Name 512 e.key ∧ Name 2048 e.value ∧
      (if e.deleted then 0 else 1) ≤ e.weight.toInt ∧ e.weight.toInt ≤ 100000000
  | position p => Contextual p.context p.key p.value ∧
      1 ≤ p.position.toInt ∧ p.position.toInt ≤ 5
  | selection s => Contextual s.context s.key s.value ∧
      0 ≤ s.count.toInt ∧ s.count.toInt ≤ 10

/-- What identifies a record. -/
def identifier : DictionaryStateRecord → RecordType × Bytes × Bytes × Bytes
  | entry e => (.overlay, e.kind.name, e.key, e.value)
  | position p => (.position, p.context, p.key, p.value)
  | selection s => (.selection, s.context, s.key, s.value)

/-- The place a position claims. -/
def place : DictionaryStateRecord → Option (Bytes × Int)
  | position p => some (p.context, p.position.toInt)
  | _ => none

end DictionaryStateRecord

/-- **State the format can hold**: every record has a line, no two have one
identifier, and no two claim one place. -/
structure RepresentableState (records : List DictionaryStateRecord) : Prop where
  each : ∀ r ∈ records, r.Representable
  identifiers : records.Pairwise fun a b => a.identifier ≠ b.identifier
  places : records.Pairwise fun a b => ∀ place, a.place = some place → b.place ≠ some place

/-! ## From the snapshot back to the records -/

/-- The records have been written in full: the snapshot is an envelope of their
lines, and the validation has made of each line what was written. -/
structure Exported (J : JsonLib) (sha256 : Bytes → Bytes) (now : Bytes) (G : GLib)
    (records : List DictionaryStateRecord) (snapshot : Bytes) (s : SnapshotLines) : Prop where
  displayed : ∀ r ∈ records, r.Displayed
  envelope : Envelope J sha256 snapshot s
  data : s.data = (wires records).map (WireRecord.text J sha256 now)
  contents : Contents J G s ((wires records).map (WireRecord.row J sha256))
  consistent : Consistent ((wires records).map (WireRecord.row J sha256))

/-- The lines of what is written. -/
theorem exported_lines (hJ : J.Lawful) {records : List DictionaryStateRecord} {st : ExportState}
    (h : records.foldlM (exportRecord J sha256 now) {} = .ok st) :
    ∃ footer, (splitLines newline (exportBody st ++ exportFooter J sha256 st)).map Prod.fst =
      exportHeader :: (wires records).map (WireRecord.text J sha256 now) ++ [footer] := by
  have hfooter : ∃ footer, exportFooter J sha256 st = unlines newline [footer] ∧
      newline ∉ footer := by
    unfold exportFooter
    exact ⟨_, (List.append_nil _).symm, hJ.oneLine _⟩
  obtain ⟨footer, hfooter, hnew⟩ := hfooter
  have hlines : ∀ line ∈ exportHeader :: (wires records).map (WireRecord.text J sha256 now) ++
      [footer], newline ∉ line := by
    intro line hline
    simp only [List.cons_append, List.mem_cons, List.mem_append, List.mem_map,
      List.not_mem_nil, or_false] at hline
    rcases hline with rfl | ⟨w, _, rfl⟩ | rfl
    · decide +kernel
    · exact hJ.oneLine _
    · exact hnew
  refine ⟨footer, ?_⟩
  rw [exportBody_eq h, hfooter, ← unlines_append]
  have := splitLines_unlines newline hlines []
  rw [List.append_nil] at this
  rw [this]
  simp [splitLines, Function.comp_def]

theorem exportNativeSnapshot_exported (hJ : J.Lawful) {records : List DictionaryStateRecord}
    {snapshot : Bytes} (h : exportNativeSnapshot J sha256 now G records = .ok snapshot) :
    ∃ s, Exported J sha256 now G records snapshot s := by
  simp only [exportNativeSnapshot, receive, call_eq_ok_iff, guard_eq_ok_iff, pure_eq_ok_iff] at h
  obtain ⟨st, hst, _, ⟨_, _, _, rfl⟩, _, hvalid, rfl⟩ := h
  obtain ⟨s, rows, henv, hcontents, hconsistent⟩ :=
    (validateSnapshotContents_eq_ok_iff hJ.stringsFit).mp hvalid
  rw [Source.symbols_ofSymbols] at henv
  obtain ⟨footer, hlines⟩ := exported_lines hJ hst
  have hdata : s.data = (wires records).map (WireRecord.text J sha256 now) := by
    have hall := henv.lines.symm.trans hlines
    simp only [SnapshotLines.all, List.cons_append, List.cons.injEq] at hall
    exact (List.append_inj' hall.2 rfl).1
  obtain rfl : (wires records).map (WireRecord.row J sha256) = rows := by
    have hrows := hcontents.lines
    rw [hdata, List.forall₂_map_left_iff] at hrows
    have heq := hrows.imp fun _ _ hline => (WireRecord.row_of_line hJ hline).symm
    rwa [← List.forall₂_map_left_iff, List.forall₂_eq_eq_eq] at heq
  exact ⟨s, (spooled hst).1, henv, hdata, hcontents, hconsistent⟩

/-- What the reader makes of the row of a line. -/
theorem WireRecord.staged_row {w : WireRecord} {r : DictionaryStateRecord} (hw : w ∈ r.wire)
    (h : r.Displayed) : (w.row J sha256).staged = w.source := by
  cases r with
  | entry e =>
    have hcases : w = .entry e ∨ w = .overlay e := by
      by_cases hlive : e.userInserted ∧ e.deleted = false
      · simpa [DictionaryStateRecord.wire, hlive] using hw
      · exact .inr (by simpa [DictionaryStateRecord.wire, hlive] using hw)
    rcases hcases with rfl | rfl
    · rfl
    · have hdisplay : e.display =
          if e.kind = .english ∧ e.deleted = false then e.value else [] := h
      obtain ⟨kind, key, value, display, weight, deleted, userInserted⟩ := e
      simp only at hdisplay
      simp [row, row.personal, Row.staged, source, PersonalDictionaryKind.ofName_name,
        hdisplay]
  | position p =>
    obtain rfl : w = .position p := by simpa [DictionaryStateRecord.wire] using hw
    simp [row, Row.staged, source]
  | selection s =>
    obtain rfl : w = .selection s := by simpa [DictionaryStateRecord.wire] using hw
    simp [row, Row.staged, source]

theorem mem_wires {records : List DictionaryStateRecord} {w : WireRecord} :
    w ∈ wires records ↔ ∃ r ∈ records, w ∈ r.wire := by
  rw [wires, (orderBy_perm _ _).mem_iff, List.mem_flatMap]

/-- The rows of an export are read as its records, grouped by category. -/
theorem Exported.staged {records : List DictionaryStateRecord} {snapshot : Bytes}
    {s : SnapshotLines} (h : Exported J sha256 now G records snapshot s) :
    ((wires records).map (WireRecord.row J sha256)).filterMap Row.staged =
      byCategory records := by
  rw [List.filterMap_map, ← filterMap_source_wires]
  refine List.filterMap_congr fun w hw => ?_
  obtain ⟨r, hr, hwire⟩ := mem_wires.mp hw
  exact WireRecord.staged_row hwire (h.displayed r hr)

/-! ## What the format cannot hold -/

/-- The texts of a line that was accepted are UTF-8. -/
theorem RecordLine.utf8 (hJ : J.Lawful) {line : Bytes} {row : Row}
    (h : RecordLine J G revision line row) :
    ValidUtf8 row.scope ∧ ValidUtf8 row.code ∧ ValidUtf8 row.word := by
  obtain ⟨object, data, htree, _, hdata, hcode, hword, hline⟩ := h.members
  have hutf8 : ∀ {key text : Bytes}, data.ifContains key = some (.string text) →
      ValidUtf8 text := fun hmember =>
    hJ.utf8 _ _ htree _ (.member (JsonObject.mem_of_ifContains hdata)
      (.member (JsonObject.mem_of_ifContains hmember) .here))
  refine ⟨?_, hutf8 hcode, hutf8 hword⟩
  cases htype : row.type with
  | entry | overlay =>
    rw [htype] at hline
    exact hutf8 hline.kind.1
  | position | selection =>
    rw [htype] at hline
    exact hutf8 hline.context.1

/-- A record whose line was accepted is one the format has a line for. -/
theorem WireRecord.representable (hJ : J.Lawful) {w : WireRecord} {r : DictionaryStateRecord}
    {line : Bytes} (hsource : w.source = some r) (hdisplayed : r.Displayed)
    (h : RecordLine J G revision line (w.row J sha256)) : r.Representable := by
  obtain ⟨hscope, hcode, hword⟩ := h.utf8 hJ
  obtain ⟨object, data, _, _, _, _, _, hline⟩ := h.members
  cases w with
  | entry e => cases hsource
  | overlay e =>
    obtain rfl := Option.some.inj hsource
    exact ⟨hdisplayed, ⟨h.code, hcode⟩, ⟨h.word, hword⟩, hline.weight.2⟩
  | position p =>
    obtain rfl := Option.some.inj hsource
    exact ⟨⟨⟨⟨hline.context.2, hscope⟩, ⟨h.code, hcode⟩, ⟨h.word, hword⟩⟩, hline.size.2⟩,
      (hline.position rfl).2⟩
  | selection s =>
    obtain rfl := Option.some.inj hsource
    exact ⟨⟨⟨⟨hline.context.2, hscope⟩, ⟨h.code, hcode⟩, ⟨h.word, hword⟩⟩, hline.size.2⟩,
      (hline.selection (by simp [row])).2⟩

variable (J sha256) in
theorem WireRecord.identifier_row {w : WireRecord} {r : DictionaryStateRecord}
    (hsource : w.source = some r) :
    let row := w.row J sha256
    (row.type, row.scope, row.code, row.word) = r.identifier := by
  cases w with
  | entry e => cases hsource
  | overlay e | position p | selection s =>
    obtain rfl := Option.some.inj hsource
    rfl

variable (J sha256) in
theorem WireRecord.place_row {w : WireRecord} {r : DictionaryStateRecord} {place : Bytes × Int}
    (hsource : w.source = some r) (hplace : r.place = some place) :
    let row := w.row J sha256
    row.type = .position ∧ (row.scope, row.slot) = place := by
  cases w with
  | entry e => cases hsource
  | overlay e | selection s =>
    obtain rfl := Option.some.inj hsource
    cases hplace
  | position p =>
    obtain rfl := Option.some.inj hsource
    exact ⟨rfl, Option.some.inj hplace⟩

/-- What holds between the rows of an export holds between its records. -/
theorem Exported.pairwise {records : List DictionaryStateRecord} {R : Row → Row → Prop}
    {Q : DictionaryStateRecord → DictionaryStateRecord → Prop} (hsymm : ∀ a b, Q a b → Q b a)
    (h : ((wires records).map (WireRecord.row J sha256)).Pairwise R)
    (hQ : ∀ (w w' : WireRecord) r r', R (w.row J sha256) (w'.row J sha256) → w.source = some r →
      w'.source = some r' → Q r r') : records.Pairwise Q := by
  rw [← (byCategory_perm records).pairwise_iff fun {a b} => hsymm a b, ← filterMap_source_wires,
    List.pairwise_filterMap]
  rw [List.pairwise_map] at h
  exact h.imp fun {w w'} hR r hr r' hr' => hQ w w' r r' hR hr hr'

/-- **What is exported can be held by the format.** -/
theorem Exported.representable (hJ : J.Lawful) {records : List DictionaryStateRecord}
    {snapshot : Bytes} {s : SnapshotLines} (h : Exported J sha256 now G records snapshot s) :
    RepresentableState records where
  each r hr := by
    obtain ⟨w, hw, hsource⟩ : ∃ w ∈ wires records, w.source = some r := by
      rw [← List.mem_filterMap, filterMap_source_wires]
      exact (byCategory_perm records).mem_iff.mpr hr
    have hlines := h.contents.lines
    rw [h.data, List.forall₂_map_left_iff, List.forall₂_map_right_iff,
      List.forall₂_same] at hlines
    exact w.representable hJ hsource (h.displayed r hr) (hlines w hw)
  identifiers := by
    refine Exported.pairwise (fun a b hab => hab.symm) h.consistent.keys ?_
    intro w w' r r' hkey hr hr'
    rwa [← WireRecord.identifier_row J sha256 hr, ← WireRecord.identifier_row J sha256 hr']
  places := by
    have hslots := h.consistent.slots
    rw [rowsOf, List.pairwise_filter] at hslots
    refine Exported.pairwise (fun a b hab place hb ha => hab place ha hb) hslots ?_
    intro w w' r r' hslot hr hr' place hplace hplace'
    obtain ⟨htype, heq⟩ := WireRecord.place_row J sha256 hr hplace
    obtain ⟨htype', heq'⟩ := WireRecord.place_row J sha256 hr' hplace'
    exact hslot (by simpa using htype) (by simpa using htype') (heq.trans heq'.symm)

/-- **Export, then staging, is a round trip.** What was exported is read back,
however the reads split it, as the records it was exported from, grouped by
category; and state the format cannot hold is not exported. -/
theorem exportNativeSnapshot_roundTrip (hJ : J.Lawful) (records : List DictionaryStateRecord) :
    (∀ snapshot, exportNativeSnapshot J sha256 now G records = .ok snapshot →
      ∀ input : Source UInt8, input.symbols = snapshot →
        Records.all J { input := input } = .ok (byCategory records)) ∧
    (¬ RepresentableState records →
      ∃ failure, exportNativeSnapshot J sha256 now G records = .error failure) := by
  refine ⟨fun snapshot hok input hinput => ?_, fun hnot => ?_⟩
  · obtain ⟨s, h⟩ := exportNativeSnapshot_exported hJ hok
    rw [← hinput] at h
    rw [h.contents.all_eq h.envelope, h.staged]
  · cases hexport : exportNativeSnapshot J sha256 now G records with
    | error failure => exact ⟨failure, rfl⟩
    | ok snapshot =>
      obtain ⟨s, h⟩ := exportNativeSnapshot_exported hJ hexport
      exact absurd (h.representable hJ) hnot

/-! ## One word -/

/-- The word of the sample snapshot, as the engine has it. -/
def wordRecord : DictionaryStateRecord :=
  .entry ⟨.pinyin, ascii "ni", ascii "N", [], 5, false, true⟩

/-- Its lines are written as the sample has them. -/
theorem wordRecord_texts :
    ((wires [wordRecord]).map (WireRecord.text wordJson (fun _ => ascii "00")
      (ascii "2026-01-01T00:00:00Z"))) = [entryText, overlayText] ∧
    wordJson.serialize (.object unsignedFooter) = footerText "3" := by
  have hsorted : wires [wordRecord] = wordRecord.wire ++ [] := orderBy_of_pairwise (by decide)
  rw [hsorted]
  exact ⟨by decide +kernel, by decide +kernel⟩

/-- It is spooled on two lines. -/
theorem exportRecord_word :
    ∃ st, [wordRecord].foldlM (exportRecord wordJson (fun _ => ascii "00")
      (ascii "2026-01-01T00:00:00Z")) {} = .ok st ∧ st.count = 2 := by
  have hspool : ∀ (st : ExportState) category record, st.count < 500000 → st.bytes < 10000 →
      (wordJson.serialize (.object record)).length < 1000 →
      ∃ st', spool wordJson st category record = .ok st' ∧ st'.count = st.count + 1 ∧
        st'.bytes ≤ st.bytes + 1000 := by
    intro st category record hcount hbytes hlen
    refine ⟨_, if_neg ?_, rfl, ?_⟩
    · simp only [List.length_append, List.length_singleton]
      omega
    · simp only [List.length_append, List.length_singleton]
      omega
  obtain ⟨st₁, h₁, hcount₁, hbytes₁⟩ := hspool {} 1 wordEntry (by decide) (by decide)
    (by decide +kernel)
  simp only [Nat.zero_add] at hcount₁ hbytes₁
  obtain ⟨st₂, h₂, hcount₂, _⟩ := hspool st₁ 2 wordOverlay (by omega) (by omega)
    (by decide +kernel)
  have hentry : spoolEntry wordJson (fun _ => ascii "00") (ascii "2026-01-01T00:00:00Z") {}
      ⟨.pinyin, ascii "ni", ascii "N", [], 5, false, true⟩ = .ok st₁ := by
    rw [spoolEntry, if_pos ⟨rfl, rfl⟩]
    exact h₁
  refine ⟨st₂, ?_, by rw [hcount₂, hcount₁]⟩
  simp only [List.foldlM_cons, List.foldlM_nil, call_eq_ok_iff, pure_eq_ok_iff, exists_eq_right,
    wordRecord, exportRecord, guard_eq_ok_iff]
  exact ⟨by decide, st₁, hentry, h₂⟩

/-- It is exported as the sample snapshot. -/
theorem exportNativeSnapshot_word :
    exportNativeSnapshot wordJson (fun _ => ascii "00") (ascii "2026-01-01T00:00:00Z") everyMoment
      [wordRecord] = .ok (unlines newline wordSnapshot.all) := by
  obtain ⟨henv, hcontents⟩ := wordSnapshot_contents
  obtain ⟨htexts, hfooter⟩ := wordRecord_texts
  obtain ⟨st, hst, hcount⟩ := exportRecord_word
  have hcontent : exportBody st ++ exportFooter wordJson (fun _ => ascii "00") st =
      unlines newline wordSnapshot.all := by
    have hunsigned : exportFooter wordJson (fun _ => ascii "00") st =
        unlines newline [footerText "3"] := by
      rw [exportFooter, hcount]
      exact congrArg (· ++ [newline]) hfooter
    rw [exportBody_eq hst, htexts, hunsigned, ← unlines_append]
    rfl
  have hvalid : validateSnapshotContents wordJson (fun _ => ascii "00") everyMoment
      (.ofSymbols (unlines newline wordSnapshot.all)) = .ok () :=
    (validateSnapshotContents_eq_ok_iff wordJson_lawful.stringsFit).mpr
      ⟨_, _, by rwa [Source.symbols_ofSymbols], hcontents, wordRows_consistent⟩
  obtain ⟨result, hreceived⟩ := (inspectSnapshotEnvelope_accepts_iff wordJson_lawful.stringsFit
    (.ofSymbols (unlines newline wordSnapshot.all))).mpr
      ⟨_, by rwa [Source.symbols_ofSymbols]⟩
  simp only [exportNativeSnapshot, receive, call_eq_ok_iff, guard_eq_ok_iff, pure_eq_ok_iff]
  rw [← hcontent] at hreceived hvalid henv
  exact ⟨st, hst, _, ⟨Nat.not_lt.mpr henv.total, _, hreceived, rfl⟩, (), hvalid, hcontent⟩

/-- The word is exported and read back; twice the word is not exported. -/
theorem exportNativeSnapshot_roundTrip_word :
    Records.all wordJson { input := .ofSymbols (unlines newline wordSnapshot.all) } =
      .ok [wordRecord] ∧
    ∃ failure, exportNativeSnapshot wordJson (fun _ => ascii "00")
      (ascii "2026-01-01T00:00:00Z") everyMoment [wordRecord, wordRecord] = .error failure := by
  have h := @exportNativeSnapshot_roundTrip _ (fun _ => ascii "00")
    (ascii "2026-01-01T00:00:00Z") everyMoment wordJson_lawful
  refine ⟨(h [wordRecord]).1 _ exportNativeSnapshot_word _ (Source.symbols_ofSymbols _),
    (h [wordRecord, wordRecord]).2 fun hstate => ?_⟩
  have := hstate.identifiers
  simp at this

end MsimeLinux
