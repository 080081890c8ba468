import MsimeLinux.Snapshot.Prepared
import MsimeLinux.Snapshot.Records

/-!
# Two readers of one snapshot

A prepared snapshot is read line by line twice: `validate_snapshot_contents` goes through
a stream over `SnapshotBuffer`, and the `Records` that the dictionary is staged from fill
a buffer of their own. Each has a splitter, limits and field checks of its own, and each
gets the file in whatever pieces its reads return.

- `readers_agree`: of a snapshot the validation accepts, the other reader yields the
  overlays, positions and selections, and nothing else.
-/

namespace MsimeLinux

open Lib

namespace PreparedSnapshot

/-- `validate_snapshot_contents` (SnapshotContents.cpp:70), on a prepared snapshot. -/
def validate (J : JsonLib) (sha256 : Bytes → Bytes) (G : GLib) (p : PreparedSnapshot)
    (fs : FileSystem) (answers : Nat → Except Failure Nat) : Except Failure Unit := do
  let input ← p.source fs answers 0 0
  validateSnapshotContents J sha256 G input

/-- All that `Records` (NativeSnapshot.cpp:12) gives for a prepared snapshot. -/
def records (J : JsonLib) (p : PreparedSnapshot) (fs : FileSystem)
    (answers : Nat → Except Failure Nat) : Except Failure (List DictionaryStateRecord) := do
  let input ← p.source fs answers 0 0
  Records.all J { input := input }

end PreparedSnapshot

/-- What a line says its type is. -/
def lineType (J : JsonLib) (line : Bytes) : Option Bytes :=
  match J.tree line with
  | some (.object object) => (JsonObject.ifContains object (ascii "type")).bind Json.asString
  | _ => none

variable {J : JsonLib} {sha256 : Bytes → Bytes} {G : GLib}

theorem lineType_eq {line : Bytes} {object : JsonObject} {name : Bytes}
    (htree : J.tree line = some (.object object))
    (hname : object.ifContains (ascii "type") = some (.string name)) :
    lineType J line = some name := by
  unfold lineType
  rw [htree]
  dsimp only
  rw [hname]
  rfl

theorem HeaderLine.lineType {line : Bytes} {revision : Int} (h : HeaderLine J line revision) :
    lineType J line = some (ascii "header") := by
  obtain ⟨object, hobject, _, hname, _⟩ := h.object
  exact lineType_eq hobject.1 hname

theorem FooterLine.lineType {line : Bytes} {records : Nat} {digest : Bytes}
    (h : FooterLine J line records digest) : lineType J line = some (ascii "footer") := by
  obtain ⟨object, hobject, _, hname, _⟩ := h
  exact lineType_eq hobject.1 hname

theorem RecordLine.lineType {revision : Int} {line : Bytes} {row : Row}
    (h : RecordLine J G revision line row) : lineType J line = some row.type.name := by
  obtain ⟨object, data, htree, hname, -⟩ := h.members
  exact lineType_eq htree hname

theorem RecordType.name_injective : Function.Injective RecordType.name := by
  intro a b h
  exact Option.some.inj ((RecordType.ofName_eq_some_iff.mpr rfl).symm.trans
    (RecordType.ofName_eq_some_iff.mpr h))

/-- Entries are passed over, and nothing else is. -/
theorem RecordLine.staged_eq_none_iff {revision : Int} {line : Bytes} {row : Row}
    (h : RecordLine J G revision line row) : row.staged = none ↔ row.type = .entry := by
  unfold Row.staged
  cases htype : row.type with
  | entry => simp
  | position | selection => simp
  | overlay =>
    obtain ⟨object, data, -, -, -, -, -, hline⟩ := h.members
    rw [htype] at hline
    obtain ⟨kind, hkind⟩ := PersonalDictionaryKind.exists_of_mem_kinds hline.kind.2
    simp [hkind, PersonalDictionaryKind.ofName_name]

/-- The record of a line other than an entry, by induction on the lines. -/
theorem forall₂_staged {revision : Int} {lines : List Bytes} {rows : List Row}
    (h : List.Forall₂ (RecordLine J G revision) lines rows) :
    List.Forall₂ (fun line record => ∃ row, RecordLine J G revision line row ∧
        row.staged = some record)
      (lines.filter fun line => lineType J line ≠ some RecordType.entry.name)
      (rows.filterMap Row.staged) := by
  induction h with
  | nil => exact .nil
  | @cons line row lines rows hline _ ih =>
    cases hstaged : row.staged with
    | none =>
      have htype : row.type = .entry := hline.staged_eq_none_iff.mp hstaged
      rw [List.filterMap_cons_none hstaged, List.filter_cons_of_neg]
      · exact ih
      · simp [hline.lineType, htype]
    | some record =>
      have htype : row.type ≠ .entry := fun hentry => by
        rw [hline.staged_eq_none_iff.mpr hentry] at hstaged
        cases hstaged
      rw [List.filterMap_cons_some hstaged, List.filter_cons_of_pos]
      · exact .cons ⟨row, hline, hstaged⟩ ih
      · simpa [hline.lineType] using fun hname => htype (RecordType.name_injective hname)

/-- Every line of validated contents means something to the reader. -/
theorem Contents.staged {symbols : Bytes} {s : SnapshotLines} {rows : List Row}
    (henv : Envelope J sha256 symbols s) (h : Contents J G s rows) {line : Bytes}
    (hline : line ∈ s.all) : ∃ staged, stagedLine J line = .ok staged := by
  rcases List.mem_append.mp hline with hline | hline
  · rcases List.mem_cons.mp hline with rfl | hdata
    · exact ⟨_, henv.header.staged⟩
    · obtain ⟨i, hi, rfl⟩ := List.getElem_of_mem hdata
      exact ⟨_, (h.lines.get hi (h.lines.length_eq ▸ hi)).staged⟩
  · rw [List.mem_singleton.mp hline]
    exact ⟨_, henv.footer.staged⟩

/-- **The two readers agree.** However the reads of either split the file, of a snapshot the
validation accepts `Records` yields one record for every data line that is not an entry, in
order, and each says what its line says; then it ends, and no line makes it throw. -/
theorem readers_agree (hJ : J.StringsFit) {p : PreparedSnapshot} {fs : FileSystem}
    {content : Bytes} (hintact : p.Intact fs content) (counts counts' : Nat → Nat)
    (hvalid : p.validate J sha256 G fs (fun n => .ok (counts n)) = .ok ()) :
    ∃ (header : Bytes) (data : List Bytes) (footer : Bytes) (revision : Int)
      (records : List DictionaryStateRecord),
      (splitLines newline content).map Prod.fst = header :: data ++ [footer] ∧
      lineType J header = some (ascii "header") ∧ lineType J footer = some (ascii "footer") ∧
      (∀ line ∈ data, ∃ type : RecordType, lineType J line = some type.name) ∧
      p.records J fs (fun n => .ok (counts' n)) = .ok records ∧
      List.Forall₂ (fun line record => ∃ row, RecordLine J G revision line row ∧
          row.staged = some record)
        (data.filter fun line => lineType J line ≠ some RecordType.entry.name) records ∧
      ∀ line ∈ header :: data ++ [footer], ∃ staged, stagedLine J line = .ok staged := by
  obtain ⟨input, hinput⟩ := hintact.source_ok counts 0 (Nat.zero_le _)
  obtain ⟨frozen, hfrozen⟩ := hintact.source_ok counts' 0 (Nat.zero_le _)
  have hsymbols := hintact.source_symbols (Nat.zero_le _) hinput
  have hsame := hintact.source_symbols (Nat.zero_le _) hfrozen
  rw [List.drop_zero] at hsymbols hsame
  unfold PreparedSnapshot.validate at hvalid
  rw [hinput] at hvalid
  obtain ⟨s, rows, henv, hcontents, -⟩ := (validateSnapshotContents_eq_ok_iff hJ).mp hvalid
  rw [hsymbols] at henv
  refine ⟨s.header, s.data, s.footer, s.revision, rows.filterMap Row.staged, henv.lines,
    henv.header.lineType, henv.footer.lineType, fun line hline => ?_, ?_,
    forall₂_staged hcontents.lines, fun line hline => hcontents.staged henv hline⟩
  · obtain ⟨i, hi, rfl⟩ := List.getElem_of_mem hline
    exact ⟨_, (hcontents.lines.get hi (hcontents.lines.length_eq ▸ hi)).lineType⟩
  · unfold PreparedSnapshot.records
    rw [hfrozen]
    exact hcontents.all_eq (hsame ▸ henv)

/-- The snapshot of the word with its entry, as a file without a name. -/
def wordPrepared : PreparedSnapshot where
  descriptor := 0
  size := (unlines newline wordSnapshot.all).length

def wordFiles : FileSystem :=
  ⟨fun _ => none, fun _ => unlines newline wordSnapshot.all, 1, nofun⟩

/-- Validated in long reads and staged one byte at a time. -/
theorem readers_agree_word : ∃ records : List DictionaryStateRecord,
    wordPrepared.records wordJson wordFiles (fun _ => .ok 0) = .ok records := by
  obtain ⟨henv, hcontents⟩ := wordSnapshot_contents
  have hintact : wordPrepared.Intact wordFiles (unlines newline wordSnapshot.all) := ⟨rfl, rfl⟩
  obtain ⟨input, hinput⟩ := hintact.source_ok (fun _ => 99) 0 (Nat.zero_le _)
  have hsymbols := hintact.source_symbols (Nat.zero_le _) hinput
  rw [List.drop_zero] at hsymbols
  have hvalid : wordPrepared.validate wordJson (fun _ => ascii "00") everyMoment wordFiles
      (fun _ => .ok 99) = .ok () := by
    unfold PreparedSnapshot.validate
    rw [hinput]
    exact (validateSnapshotContents_eq_ok_iff wordJson_lawful.stringsFit).mpr
      ⟨_, _, hsymbols.symm ▸ henv, hcontents, wordRows_consistent⟩
  obtain ⟨_, _, _, _, records, -, -, -, -, hrecords, -⟩ :=
    readers_agree wordJson_lawful.stringsFit hintact (fun _ => 99) (fun _ => 0) hvalid
  exact ⟨records, hrecords⟩

end MsimeLinux
