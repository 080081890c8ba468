import MsimeLinux.Snapshot.Envelope

/-!
# The envelope format

`Envelope` is the format `inspect_snapshot_envelope` is for, said of the bytes as
a whole and without a reader: which lines there are, what each of them is, in
which order they come, and what the footer counts and hashes. The results say
that the reader accepts exactly this, however the bytes arrive.

- `foldLines_rest`: the induction over the lines behind the header.
- `inspectSnapshotEnvelope_eq_ok_iff`: with a visitor, and with what is returned.
- `inspectSnapshotEnvelope_accepts_iff`: without a visitor.
-/

namespace MsimeLinux

open Lib

variable (J : JsonLib) (sha256 : Bytes → Bytes)

/-- What a snapshot consists of. -/
structure SnapshotLines where
  header : Bytes
  revision : Int
  data : List Bytes
  /-- the type of each data line -/
  types : List RecordType
  footer : Bytes

namespace SnapshotLines

/-- The lines in order. -/
def all (s : SnapshotLines) : List Bytes := s.header :: s.data ++ [s.footer]

/-- What `inspect_snapshot_envelope` returns for them. -/
def envelope (s : SnapshotLines) : SnapshotEnvelope where
  revision := s.revision
  records := s.data.length + 1
  counts type := s.types.count type
  sha256 := sha256 (unlines newline (s.header :: s.data))

end SnapshotLines

/-- **The envelope format.** -/
structure Envelope (symbols : Bytes) (s : SnapshotLines) : Prop where
  /-- the bytes are these lines, the last newline being optional -/
  framed : Framed newline s.all symbols
  total : symbols.length ≤ 536870912
  line : ∀ line ∈ s.all, newline ∉ line ∧ line ≠ [] ∧ line.length < 65536
  header : HeaderLine J s.header s.revision
  data : List.Forall₂ (DataLine J) s.data s.types
  /-- categories do not decrease -/
  sorted : s.types.Pairwise fun a b => a.index ≤ b.index
  /-- the footer counts the header and the data lines, and hashes each of them
  with its newline -/
  footer : FooterLine J s.footer (s.data.length + 1)
    (sha256 (unlines newline (s.header :: s.data)))

/-! ## The lines behind the header -/

variable {J sha256} {ν : Type} {visitor : ν → Bytes → Int → Except Failure ν}

/-- The loop body over one of the stream's lines. -/
abbrev envelopeStep (J : JsonLib) (sha256 : Bytes → Bytes)
    (visitor : ν → Bytes → Int → Except Failure ν) :
    EnvelopeState ν → Bytes × Bool → Except Failure (EnvelopeState ν) :=
  lineStep 65536 badRequest (inspectLine J sha256 visitor)

theorem envelopeStep_eq_ok_iff (hJ : J.StringsFit) {st st' : EnvelopeState ν}
    {line : Bytes × Bool} :
    envelopeStep J sha256 visitor st line = .ok st' ↔
      (st.bytes + lineSize line ≤ 536870912 ∧ st.finished = false) ∧
      (line.1 ≠ [] ∧ line.1.length < 65536) ∧
      (st.read (lineSize line)).Takes J sha256 visitor line.1 st' := by
  unfold envelopeStep lineStep
  split
  · next hlong =>
    simp only [reduceCtorEq, false_iff]
    rintro ⟨_, ⟨_, hlen⟩, _⟩
    omega
  · exact inspectLine_eq_ok_iff hJ

/-- Nothing may follow the footer. -/
theorem foldlM_finished (hJ : J.StringsFit) {st st' : EnvelopeState ν}
    {lines : List (Bytes × Bool)} (hfinished : st.finished = true) :
    lines.foldlM (envelopeStep J sha256 visitor) st = .ok st' ↔ lines = [] ∧ st' = st := by
  cases lines with
  | nil => exact ⟨fun h => ⟨rfl, (Except.ok.inj h).symm⟩, fun h => h.2 ▸ rfl⟩
  | cons line lines =>
    simp only [List.foldlM_cons, call_eq_ok_iff, envelopeStep_eq_ok_iff hJ, hfinished,
      reduceCtorEq, false_and, and_false, exists_false]

/-- What is still to come once the header has been read: data lines in order, and
a footer that counts and hashes them together with what came before. -/
structure EnvelopeRest (J : JsonLib) (sha256 : Bytes → Bytes) (st : EnvelopeState ν)
    (lines : List (Bytes × Bool)) (data : List Bytes) (types : List RecordType)
    (footer : Bytes) : Prop where
  split : lines.map Prod.fst = data ++ [footer]
  total : st.bytes + linesSize lines ≤ 536870912
  line : ∀ line ∈ data ++ [footer], line ≠ [] ∧ line.length < 65536
  typed : List.Forall₂ (DataLine J) data types
  later : ∀ type ∈ types, st.category ≤ type.index
  sorted : types.Pairwise fun a b => a.index ≤ b.index
  closed : FooterLine J footer (st.result.records + data.length)
    (sha256 (st.hashed ++ unlines newline data))

/-- What is returned for it. -/
def EnvelopeState.restResult (sha256 : Bytes → Bytes) (st : EnvelopeState ν)
    (data : List Bytes) (types : List RecordType) : SnapshotEnvelope where
  revision := st.result.revision
  records := st.result.records + data.length
  counts type := st.result.counts type + types.count type
  sha256 := sha256 (st.hashed ++ unlines newline data)

theorem EnvelopeRest.nil {st : EnvelopeState ν} {line : Bytes × Bool}
    (hbytes : st.bytes + lineSize line ≤ 536870912)
    (hline : line.1 ≠ [] ∧ line.1.length < 65536)
    (hfooter : FooterLine J line.1 st.result.records (sha256 st.hashed)) :
    EnvelopeRest J sha256 st [line] [] [] line.1 where
  split := rfl
  total := by simpa [linesSize] using hbytes
  line := by simpa using hline
  typed := .nil
  later := by simp
  sorted := .nil
  closed := by simpa [unlines] using hfooter

theorem EnvelopeRest.cons {st : EnvelopeState ν} {line : Bytes × Bool} {type : RecordType}
    {visited : ν} {lines : List (Bytes × Bool)} {data : List Bytes} {types : List RecordType}
    {footer : Bytes} (hline : line.1 ≠ [] ∧ line.1.length < 65536)
    (hdata : DataLine J line.1 type) (hle : st.category ≤ type.index)
    (h : EnvelopeRest J sha256
      ((st.read (lineSize line)).data line.1 type visited) lines data types footer) :
    EnvelopeRest J sha256 st (line :: lines) (line.1 :: data) (type :: types)
      footer where
  split := by simp [h.split]
  total := by
    have := h.total
    simp only [EnvelopeState.data, EnvelopeState.record, EnvelopeState.read] at this
    simp only [linesSize]
    omega
  line l hl := by
    rcases List.mem_cons.mp hl with rfl | hl
    · exact hline
    · exact h.line l hl
  typed := .cons hdata h.typed
  later t ht := by
    rcases List.mem_cons.mp ht with rfl | ht
    · exact hle
    · exact Int.le_trans hle (h.later t ht)
  sorted := List.pairwise_cons.mpr ⟨h.later, h.sorted⟩
  closed := by
    have := h.closed
    simp only [EnvelopeState.data, EnvelopeState.record, EnvelopeState.read] at this
    rw [Nat.add_assoc, Nat.add_comm 1] at this
    rw [unlines_cons]
    simpa using this

/-- The other way round: behind a data line comes the rest of the envelope. -/
theorem EnvelopeRest.tail {st : EnvelopeState ν} {line : Bytes × Bool} {type : RecordType}
    {lines : List (Bytes × Bool)} {l : Bytes} {data : List Bytes} {types : List RecordType}
    {footer : Bytes} (visited : ν)
    (h : EnvelopeRest J sha256 st (line :: lines) (l :: data) (type :: types)
      footer) :
    EnvelopeRest J sha256
      ((st.read (lineSize line)).data line.1 type visited) lines data types footer := by
  obtain ⟨rfl, hsplit⟩ : line.1 = l ∧ lines.map Prod.fst = data ++ [footer] := by
    simpa using h.split
  refine ⟨hsplit, ?_, fun m hm => h.line m (List.mem_cons_of_mem _ hm), ?_,
    (List.pairwise_cons.mp h.sorted).1, (List.pairwise_cons.mp h.sorted).2, ?_⟩
  · have := h.total
    simp only [linesSize] at this
    simp only [EnvelopeState.data, EnvelopeState.record, EnvelopeState.read]
    omega
  · cases h.typed with
    | cons _ htyped => exact htyped
  · have := h.closed
    rw [unlines_cons, List.length_cons, Nat.add_comm data.length, ← Nat.add_assoc] at this
    simpa [EnvelopeState.data, EnvelopeState.record, EnvelopeState.read] using this

/-- Reading on from a data line is what `restResult` adds up. -/
theorem restResult_data (st : EnvelopeState ν) (line : Bytes) (read : Nat) (type : RecordType)
    (visited : ν) (data : List Bytes) (types : List RecordType) :
    ((st.read read).data line type visited).restResult sha256 data types =
      st.restResult sha256 (line :: data) (type :: types) := by
  simp only [EnvelopeState.restResult, EnvelopeState.data, EnvelopeState.record,
    EnvelopeState.read, List.length_cons, unlines_cons, SnapshotEnvelope.mk.injEq, true_and]
  refine ⟨by omega, funext fun t => ?_, by simp⟩
  by_cases ht : t = type
  · subst ht
    simp only [Function.update_self, List.count_cons_self]
    omega
  · simp [Function.update_of_ne ht, List.count_cons_of_ne (Ne.symm ht)]

/-- **The lines behind the header**, by induction on them: the loop gets through
exactly when they are the rest of an envelope. -/
theorem foldLines_rest (hJ : J.StringsFit) {lines : List (Bytes × Bool)}
    {st : EnvelopeState ν} (hcat : 0 ≤ st.category) (hunfinished : st.finished = false)
    {result : SnapshotEnvelope} {visited : ν} :
    (∃ st', lines.foldlM (envelopeStep J sha256 visitor) st = .ok st' ∧
      st'.finished = true ∧ st'.result = result ∧ st'.visited = visited) ↔
    ∃ data types footer, EnvelopeRest J sha256 st lines data types footer ∧
      data.foldlM (fun v line => visitor v line st.result.revision) st.visited = .ok visited ∧
      result = st.restResult sha256 data types := by
  induction lines generalizing st with
  | nil =>
    constructor
    · rintro ⟨st', hrun, hfinished, _⟩
      obtain rfl : st = st' := Except.ok.inj hrun
      simp [hunfinished] at hfinished
    · rintro ⟨data, types, footer, hrest, _⟩
      have := hrest.split
      simp at this
  | cons line lines ih =>
    simp only [List.foldlM_cons, call_eq_ok_iff, envelopeStep_eq_ok_iff hJ]
    constructor
    · rintro ⟨st', ⟨st₁, ⟨⟨hbytes, _⟩, hline, htakes⟩, hrun⟩, hfinished, hresult, hvisited⟩
      cases htakes with
      | header _ hneg =>
        -- a header is not read twice
        have : st.category = -1 := hneg
        omega
      | @data type v hdata _ hle hvisit =>
        obtain ⟨data, types, footer, hrest, hfold, hresult'⟩ :=
          (@ih ((st.read (lineSize line)).data line.1 type v) type.index_nonneg
            hunfinished).mp ⟨st', hrun, hfinished, hresult, hvisited⟩
        refine ⟨line.1 :: data, type :: types, footer, .cons hline hdata hle hrest, ?_, ?_⟩
        · rw [List.foldlM_cons, call_eq_ok_iff]
          exact ⟨v, hvisit, hfold⟩
        · rw [hresult', restResult_data]
      | footer hfooter _ =>
        -- behind the footer nothing may follow
        obtain ⟨rfl, rfl⟩ := (foldlM_finished hJ rfl).mp hrun
        refine ⟨[], [], line.1, .nil hbytes hline hfooter, ?_, ?_⟩
        · rw [← hvisited]
          rfl
        · rw [← hresult]
          simp [EnvelopeState.restResult, EnvelopeState.footer, EnvelopeState.read, unlines]
    · rintro ⟨data, types, footer, hrest, hfold, hresult⟩
      have hline : line.1 ≠ [] ∧ line.1.length < 65536 := by
        refine hrest.line line.1 ?_
        rw [← hrest.split]
        exact List.mem_cons_self
      have hbytes : st.bytes + lineSize line ≤ 536870912 := by
        have := hrest.total
        simp only [linesSize] at this
        omega
      -- the rest is the footer alone, or it begins with a data line
      cases data with
      | nil =>
        obtain ⟨rfl, rfl⟩ : line.1 = footer ∧ lines = [] := by simpa using hrest.split
        obtain rfl : types = [] := List.forall₂_nil_left_iff.mp hrest.typed
        have hfooter : FooterLine J line.1 st.result.records (sha256 st.hashed) := by
          simpa [unlines] using hrest.closed
        refine ⟨_, ⟨_, ⟨⟨hbytes, hunfinished⟩, hline, .footer hfooter hcat⟩,
          (foldlM_finished hJ rfl).mpr ⟨rfl, rfl⟩⟩, rfl, ?_, ?_⟩
        · rw [hresult]
          simp [EnvelopeState.restResult, EnvelopeState.footer, EnvelopeState.read, unlines]
        · exact Except.ok.inj hfold
      | cons l data =>
        cases types with
        | nil => cases hrest.typed
        | cons type types =>
          obtain ⟨rfl, _⟩ : line.1 = l ∧ lines.map Prod.fst = data ++ [footer] := by
            simpa using hrest.split
          rw [List.foldlM_cons, call_eq_ok_iff] at hfold
          obtain ⟨v, hvisit, hfold⟩ := hfold
          have hdata : DataLine J line.1 type := by
            cases hrest.typed with
            | cons hdata _ => exact hdata
          have hle := hrest.later type List.mem_cons_self
          obtain ⟨st', hrun, hout⟩ :=
            (@ih ((st.read (lineSize line)).data line.1 type v) type.index_nonneg
              hunfinished).mpr ⟨data, types, footer, hrest.tail v, hfold,
                by rw [hresult, restResult_data]⟩
          exact ⟨st', ⟨_, ⟨⟨hbytes, hunfinished⟩, hline, .data hdata hcat hle hvisit⟩, hrun⟩, hout⟩

/-! ## The whole stream -/

/-- The state the loop starts in. -/
abbrev EnvelopeState.initial (visited : ν) : EnvelopeState ν := { visited := visited }

/-- Only a header can come first. -/
theorem EnvelopeState.Takes.initial {visited : ν} {read : Nat} {line : Bytes}
    {st : EnvelopeState ν}
    (h : ((EnvelopeState.initial visited).read read).Takes J sha256 visitor line st) :
    ∃ revision, HeaderLine J line revision ∧
      st = ((EnvelopeState.initial visited).read read).header line revision := by
  cases h with
  | @header revision hheader _ => exact ⟨revision, hheader, rfl⟩
  | data _ hcat _ _ =>
    have : 0 ≤ (-1 : Int) := hcat
    omega
  | footer _ hcat =>
    have : 0 ≤ (-1 : Int) := hcat
    omega

/-- A header, and the rest of an envelope behind it, are an envelope. -/
theorem EnvelopeRest.envelope {visited : ν} {line : Bytes × Bool}
    {lines : List (Bytes × Bool)} {symbols : Bytes} {revision : Int} {data : List Bytes}
    {types : List RecordType} {footer : Bytes}
    (hsplit : splitLines newline symbols = line :: lines)
    (hline : line.1 ≠ [] ∧ line.1.length < 65536) (hheader : HeaderLine J line.1 revision)
    (h : EnvelopeRest J sha256
      (((EnvelopeState.initial visited).read (lineSize line)).header line.1 revision) lines
      data types footer) :
    Envelope J sha256 symbols ⟨line.1, revision, data, types, footer⟩ := by
  have hall : (splitLines newline symbols).map Prod.fst =
      SnapshotLines.all ⟨line.1, revision, data, types, footer⟩ := by
    rw [hsplit, List.map_cons, h.split]
    rfl
  have hlines : ∀ l ∈ SnapshotLines.all ⟨line.1, revision, data, types, footer⟩,
      l ≠ [] ∧ l.length < 65536 := by
    intro l hl
    rcases List.mem_cons.mp hl with rfl | hl
    · exact hline
    · exact h.line l hl
  obtain ⟨hdelim, hframed⟩ := (splitLines_eq_iff newline fun l hl => (hlines l hl).1).mp hall
  refine ⟨hframed, ?_, fun l hl => ⟨hdelim l hl, hlines l hl⟩, hheader, h.typed, h.sorted, ?_⟩
  · have := h.total
    rw [← splitLines_size newline symbols, hsplit, linesSize]
    simpa [EnvelopeState.header, EnvelopeState.record, EnvelopeState.read] using this
  · have := h.closed
    rw [Nat.add_comm data.length]
    simpa [EnvelopeState.header, EnvelopeState.record, EnvelopeState.read, unlines] using this

/-- An envelope is a header and the rest of an envelope. -/
theorem Envelope.rest (visited : ν) {symbols : Bytes} {s : SnapshotLines}
    (h : Envelope J sha256 symbols s) :
    ∃ line lines, splitLines newline symbols = line :: lines ∧ line.1 = s.header ∧
      EnvelopeRest J sha256
        (((EnvelopeState.initial visited).read (lineSize line)).header line.1 s.revision) lines
        s.data s.types s.footer := by
  have hall := (splitLines_eq_iff newline fun l hl => (h.line l hl).2.1).mpr
    ⟨fun l hl => (h.line l hl).1, h.framed⟩
  cases hsplit : splitLines newline symbols with
  | nil =>
    rw [hsplit] at hall
    simp [SnapshotLines.all] at hall
  | cons line lines =>
    rw [hsplit] at hall
    obtain ⟨hhead, hrest⟩ : line.1 = s.header ∧ lines.map Prod.fst = s.data ++ [s.footer] := by
      simpa [SnapshotLines.all] using hall
    refine ⟨line, lines, rfl, hhead, hrest, ?_, fun l hl => ?_, h.data, ?_, h.sorted, ?_⟩
    · have := h.total
      rw [← splitLines_size newline symbols, hsplit, linesSize] at this
      simpa [EnvelopeState.header, EnvelopeState.record, EnvelopeState.read] using this
    · exact (h.line l (List.mem_cons_of_mem _ hl)).2
    · exact fun t _ => t.index_nonneg
    · have := h.footer
      rw [Nat.add_comm, ← hhead] at this
      simpa [EnvelopeState.header, EnvelopeState.record, EnvelopeState.read, unlines] using this

/-- **What the reader accepts**, and what it returns: an envelope whose data lines
the visitor took one after the other. -/
theorem inspectSnapshotEnvelope_eq_ok_iff (hJ : J.StringsFit) {input : Source UInt8}
    {visited visited' : ν} {result : SnapshotEnvelope} :
    inspectSnapshotEnvelope J sha256 visitor visited input = .ok (result, visited') ↔
      ∃ s, Envelope J sha256 input.symbols s ∧
        s.data.foldlM (fun v line => visitor v line s.revision) visited = .ok visited' ∧
        result = s.envelope sha256 := by
  have hresult : ∀ (line : Bytes) (read : Nat) (s : SnapshotLines),
      (((EnvelopeState.initial visited).read read).header line s.revision).restResult sha256
        s.data s.types = { s with header := line }.envelope sha256 := by
    intro line read s
    simp [EnvelopeState.restResult, EnvelopeState.header, EnvelopeState.record,
      EnvelopeState.read, SnapshotLines.envelope, unlines, Nat.add_comm]
  simp only [inspectSnapshotEnvelope, Source.foldLines_eq, call_eq_ok_iff, guard_eq_ok_iff,
    pure_eq_ok_iff, Bool.not_eq_true', Bool.not_eq_false, Prod.mk.injEq]
  constructor
  · rintro ⟨st', hrun, hfinished, hresult', hvisited⟩
    cases hsplit : splitLines newline input.symbols with
    | nil =>
      -- an empty stream has not finished
      rw [hsplit] at hrun
      obtain rfl : EnvelopeState.initial visited = st' := Except.ok.inj hrun
      simp at hfinished
    | cons line lines =>
      rw [hsplit, List.foldlM_cons, call_eq_ok_iff] at hrun
      obtain ⟨st₁, hstep, hrun⟩ := hrun
      -- the first line is the header, the others are `foldLines_rest`
      obtain ⟨_, hline, htakes⟩ := (envelopeStep_eq_ok_iff hJ).mp hstep
      obtain ⟨revision, hheader, rfl⟩ := htakes.initial
      obtain ⟨data, types, footer, hrest, hfold, hout⟩ :=
        (foldLines_rest hJ (Int.le_refl 0) rfl).mp ⟨st', hrun, hfinished, hresult', hvisited⟩
      refine ⟨_, hrest.envelope hsplit hline hheader, hfold, ?_⟩
      rw [hout]
      exact hresult line.1 _ ⟨line.1, revision, data, types, footer⟩
  · rintro ⟨s, henv, hfold, rfl⟩
    obtain ⟨line, lines, hsplit, hhead, hrest⟩ := henv.rest visited
    have hline := (henv.line s.header List.mem_cons_self).2
    rw [← hhead] at hline
    have htotal : (EnvelopeState.initial visited).bytes + lineSize line ≤ 536870912 := by
      exact Nat.le_trans (Nat.le_add_right _ _) hrest.total
    obtain ⟨st', hrun, hfinished, hout, hvisited⟩ :=
      (foldLines_rest hJ (Int.le_refl 0) rfl).mpr ⟨s.data, s.types, s.footer, hrest, hfold, rfl⟩
    refine ⟨st', ?_, hfinished, ?_, hvisited⟩
    · rw [hsplit, List.foldlM_cons, call_eq_ok_iff]
      exact ⟨_, (envelopeStep_eq_ok_iff hJ).mpr
        ⟨⟨htotal, rfl⟩, hline, .header (hhead ▸ henv.header) rfl⟩, hrun⟩
    · rw [hout, hresult, hhead]

/-- **The snapshot envelope.** However its bytes are delivered, a stream is
accepted exactly when it is an envelope. -/
theorem inspectSnapshotEnvelope_accepts_iff (hJ : J.StringsFit) (input : Source UInt8) :
    (∃ result, inspectSnapshotEnvelope J sha256 (fun v _ _ => .ok v) () input = .ok (result, ())) ↔
      ∃ s, Envelope J sha256 input.symbols s := by
  have hfold : ∀ lines : List Bytes, lines.foldlM (fun v _ => .ok v) () =
      (.ok () : Except Failure Unit) := by
    intro lines
    induction lines with
    | nil => rfl
    | cons line lines ih => exact ih
  constructor
  · rintro ⟨result, h⟩
    obtain ⟨s, henv, _, _⟩ := (inspectSnapshotEnvelope_eq_ok_iff hJ).mp h
    exact ⟨s, henv⟩
  · rintro ⟨s, henv⟩
    exact ⟨_, (inspectSnapshotEnvelope_eq_ok_iff hJ).mpr ⟨s, henv, hfold _, rfl⟩⟩

/-! ## An empty snapshot -/

/-- A header line, and the tree it spells. -/
def emptyHeader : Bytes :=
  ascii "\x7b\"type\":\"header\",\"format\":" ++ ascii "\"msime-dictionary-snapshot\"," ++
    ascii "\"version\":1,\"revision\":7\x7d"

def emptyHeaderMembers : JsonObject :=
  [(ascii "type", .string (ascii "header")),
    (ascii "format", .string (ascii "msime-dictionary-snapshot")),
    (ascii "version", .int 1), (ascii "revision", .int 7)]

/-- The footer that closes it at once. -/
def emptyFooter : Bytes :=
  ascii "\x7b\"type\":\"footer\"," ++ ascii "\"records\":1,\"sha256\":\"00\"\x7d"

def emptyFooterMembers : JsonObject :=
  [(ascii "type", .string (ascii "footer")), (ascii "records", .int 1),
    (ascii "sha256", .string (ascii "00"))]

/-- A parser that knows these two lines. -/
def emptyJson : JsonLib :=
  .ofTables [(emptyHeader, .object emptyHeaderMembers), (emptyFooter, .object emptyFooterMembers)]
    []

theorem emptyJson_lawful : emptyJson.Lawful :=
  JsonLib.GoodTables.lawful ⟨by decide +kernel, by decide +kernel, by simp, by simp⟩

/-! ## A snapshot of two records -/

/-- A word of the tables that the user has deleted. -/
def deletedWord : Bytes :=
  ascii "\x7b\"type\":\"overlay\",\"deleted\":true," ++ ascii "\"data\":\x7b\"id\":\"00\"," ++
    ascii "\"kind\":\"wubi\",\"code\":\"wq\"," ++ ascii "\"word\":\"N\",\"weight\":0," ++
    ascii "\"revision\":7," ++ ascii "\"updated_at\":\"2026-01-01T00:00:00Z\"\x7d\x7d"

def deletedWordMembers : JsonObject :=
  [(ascii "type", .string (ascii "overlay")), (ascii "deleted", .bool true),
    (ascii "data", .object [(ascii "id", .string (ascii "00")),
      (ascii "kind", .string (ascii "wubi")), (ascii "code", .string (ascii "wq")),
      (ascii "word", .string (ascii "N")), (ascii "weight", .int 0), (ascii "revision", .int 7),
      (ascii "updated_at", .string (ascii "2026-01-01T00:00:00Z"))])]

/-- A word that was selected. -/
def selectedWord : Bytes :=
  ascii "\x7b\"type\":\"selection\"," ++ ascii "\"data\":\x7b\"context\":\"ni\"," ++
    ascii "\"code\":\"ni\",\"word\":\"N\"," ++ ascii "\"count\":3\x7d\x7d"

def selectedWordMembers : JsonObject :=
  [(ascii "type", .string (ascii "selection")),
    (ascii "data", .object [(ascii "context", .string (ascii "ni")),
      (ascii "code", .string (ascii "ni")), (ascii "word", .string (ascii "N")),
      (ascii "count", .int 3)])]

/-- The SHA-256 of the header and these two lines. -/
def twoDigest : Bytes :=
  ascii "7992079ff689e7513b6fea0da86f9a2e7ad14e19e3a6fa3d9d6f55a7e4e12755"

def twoFooter : Bytes :=
  ascii "\x7b\"type\":\"footer\"," ++ ascii "\"records\":3,\"sha256\":\"" ++ twoDigest ++
    ascii "\"\x7d"

def twoFooterMembers : JsonObject :=
  [(ascii "type", .string (ascii "footer")), (ascii "records", .int 3),
    (ascii "sha256", .string twoDigest)]

/-- A parser that knows these lines. -/
def twoJson : JsonLib :=
  .ofTables [(emptyHeader, .object emptyHeaderMembers), (deletedWord, .object deletedWordMembers),
    (selectedWord, .object selectedWordMembers), (twoFooter, .object twoFooterMembers)] []

theorem twoJson_lawful : twoJson.Lawful :=
  JsonLib.GoodTables.lawful ⟨by decide +kernel, by decide +kernel, by simp, by simp⟩

/-- The lines as objects. -/
theorem twoJson_lines : ObjectLine twoJson emptyHeader emptyHeaderMembers ∧
    ObjectLine twoJson deletedWord deletedWordMembers ∧
    ObjectLine twoJson selectedWord selectedWordMembers ∧
    ObjectLine twoJson twoFooter twoFooterMembers :=
  ⟨.of_strictKeys (by decide +kernel) (by decide +kernel),
    .of_strictKeys (by decide +kernel) (by decide +kernel),
    .of_strictKeys (by decide +kernel) (by decide +kernel),
    .of_strictKeys (by decide +kernel) (by decide +kernel)⟩

/-- The lines up to the footer. -/
def twoRecords : Bytes := unlines newline [emptyHeader, deletedWord, selectedWord]

/-- The snapshot, cut in the middle of its footer and without a final newline, is accepted. -/
theorem inspectSnapshotEnvelope_accepts_two :
    ∃ result, inspectSnapshotEnvelope twoJson
      (fun text => if text = twoRecords then twoDigest else []) (fun v _ _ => .ok v) ()
      [⟨twoRecords ++ twoFooter.take 9, by simp [twoRecords, unlines]⟩,
        ⟨twoFooter.drop 9, by decide⟩] = .ok (result, ()) := by
  obtain ⟨hheader, hdeleted, hselected, hfooter⟩ := twoJson_lines
  have hsymbols : ∀ h h', Source.symbols [⟨twoRecords ++ twoFooter.take 9, h⟩,
      ⟨twoFooter.drop 9, h'⟩] = twoRecords ++ twoFooter := by
    simp [Source.symbols]
  refine (inspectSnapshotEnvelope_accepts_iff twoJson_lawful.stringsFit _).mpr
    ⟨⟨emptyHeader, 7, [deletedWord, selectedWord], [.overlay, .selection], twoFooter⟩, ?_⟩
  have hlength : (twoRecords ++ twoFooter).length ≤ 600 := by decide +kernel
  have hdata : List.Forall₂ (DataLine twoJson) [deletedWord, selectedWord]
      [.overlay, .selection] := by
    refine .cons ⟨_, hdeleted, rfl, rfl, ⟨_, rfl⟩, fun _ => ⟨true, rfl⟩⟩
      (.cons ⟨_, hselected, rfl, rfl, ⟨_, rfl⟩, fun h => absurd h (by decide)⟩ .nil)
  rw [hsymbols]
  refine ⟨.inr ?_, Nat.le_trans hlength (by omega), by decide +kernel,
    ⟨⟨_, hheader, rfl, rfl, rfl, rfl, rfl⟩, by decide⟩, hdata, by decide,
    ⟨_, hfooter, rfl, rfl, rfl, ?_⟩⟩
  · simp [twoRecords, unlines, SnapshotLines.all]
  · rw [show unlines newline [emptyHeader, deletedWord, selectedWord] = twoRecords from rfl,
      if_pos rfl]
    rfl

end MsimeLinux
