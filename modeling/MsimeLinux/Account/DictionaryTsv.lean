import Mathlib.Data.List.TakeWhile
import Mathlib.Data.Nat.Digits.Lemmas
import MsimeLinux.Lib.Except
import MsimeLinux.Lib.Ini
import MsimeLinux.Lib.Lines
import MsimeLinux.Snapshot.Envelope

/-!
# Dictionaries as tables (`BackendAccountClient.cpp`)

A personal dictionary is imported and exported as text, a line for each entry, with three
fields between tabs. `dictionary_tsv` checks such a text and counts its entries before it
is sent, or after it has come.

- `dictionaryTsv_eq_ok_iff`: what is accepted, and the count.
- `dictionaryTsv_exact`: with it, every table of valid entries is accepted.
-/

namespace MsimeLinux

open Lib

namespace DictionaryTsv

/-! ## One entry -/

/-- `DictionaryEntry` (BackendAccountClient.h:88), as far as a table has it. -/
structure DictionaryEntry where
  code : Bytes
  word : Bytes
  weight : Int
  deriving DecidableEq

/-- `'\t'` and `'\r'`. -/
def tab : UInt8 := 9
def carriageReturn : UInt8 := 13

/-- `require_text` (BackendAccountClient.cpp:80): the text is written as JSON and read
again. -/
def requireText (J : JsonLib) (text : Bytes) (byteLimit : Nat) : Except Failure Unit := do
  if byteLimit < text.length ∨ 0 ∈ text then throw badRequest
  if J.tree (J.serialize (.string text)) = none then throw badRequest
  return ()

/-- How many UTF-16 units a text has (BackendAccountClient.cpp:141). -/
def utf16Units : Bytes → Nat
  | [] => 0
  | c :: text =>
    (if c &&& 0xc0 ≠ 0x80 then if 0xf0 ≤ c then 2 else 1 else 0) + utf16Units text

/-- `" \t\r\n"` and `"\t\r\n"`. -/
def isBlank (c : UInt8) : Bool := c = 32 || c = tab || c = carriageReturn || c = newline
def isBreak (c : UInt8) : Bool := c = tab || c = carriageReturn || c = newline

/-- `require_dictionary_entry` (BackendAccountClient.cpp:131). -/
def requireDictionaryEntry (J : JsonLib) (entry : DictionaryEntry) (kind : Bytes) :
    Except Failure Unit := do
  requireText J entry.code 512
  requireText J entry.word 2048
  if entry.weight < 0 ∨ entry.word.all isBlank = true ∨ entry.word.any isBreak = true ∨
      entry.code.any isBreak = true then
    throw badRequest
  if kind = ascii "quick" ∧ 199 < utf16Units entry.word then throw badRequest
  return ()

/-- The text in front of the first tab, and behind it. -/
def cutTab (text : Bytes) : Option (Bytes × Bytes) :=
  if tab ∈ text then some (text.takeWhile (· ≠ tab), (text.dropWhile (· ≠ tab)).drop 1)
  else none

/-- What may stand around a weight. -/
def isPadding (c : UInt8) : Bool := c = 32 || c = carriageReturn

/-- `find_first_not_of` and `find_last_not_of` (BackendAccountClient.cpp:184). -/
def trimPadding (text : Bytes) : Bytes :=
  ((text.dropWhile isPadding).reverse.dropWhile isPadding).reverse

/-- `std::from_chars`, over the whole of a text. -/
def fromChars (text : Bytes) : Option Int :=
  (decodeInt text).filter fun n => -9223372036854775808 ≤ n ∧ n ≤ 9223372036854775807

/-- Whether the word comes second (BackendAccountClient.cpp:181). -/
def swapped (kind format : Bytes) : Bool :=
  format = ascii "windows" && (kind = ascii "english" || kind = ascii "quick")

/-- A line (BackendAccountClient.cpp:171). -/
def tsvEntry (J : JsonLib) (kind format line : Bytes) : Except Failure DictionaryEntry :=
  match cutTab line with
  | none => .error badRequest
  | some (first, rest) =>
    match cutTab rest with
    | none => .error badRequest
    | some (second, third) =>
      if tab ∈ third then .error badRequest
      else if trimPadding third = [] then .error badRequest
      else
        match fromChars (trimPadding third) with
        | none => .error badRequest
        | some weight =>
          let entry : DictionaryEntry :=
            if swapped kind format then ⟨first, second, weight⟩ else ⟨second, first, weight⟩
          do
            requireDictionaryEntry J entry kind
            return entry

/-! ## The table -/

/-- One carriage return at the end goes. -/
def stripReturn (line : Bytes) : Bytes :=
  if line.getLast? = some carriageReturn then line.dropLast else line

/-- A line that is not blank counts (BackendAccountClient.cpp:166). -/
def tsvLine (J : JsonLib) (kind format : Bytes) (maximum count : Nat) (line : Bytes) :
    Except Failure Nat := do
  if line = [] then return count
  if maximum < count + 1 ∨ 2624 < line.length then throw badRequest
  let _ ← tsvEntry J kind format line
  return count + 1

/-- The loop (BackendAccountClient.cpp:155), on what is left of the text. -/
def tsvLines (J : JsonLib) (kind format : Bytes) (maximum : Nat) (exported : Bool)
    (count : Nat) (rest : Bytes) : Except Failure Nat :=
  if _hrest : rest = [] then .ok count
  else
    let more := rest.dropWhile (· ≠ newline)
    if more = [] ∧ exported = true then .error badRequest
    else
      match tsvLine J kind format maximum count (stripReturn (rest.takeWhile (· ≠ newline))) with
      | .error e => .error e
      | .ok count => tsvLines J kind format maximum exported count (more.drop 1)
termination_by rest.length
decreasing_by
  have hpos := List.length_pos_iff.mpr _hrest
  have hle := (List.dropWhile_suffix (l := rest) (· ≠ newline)).length_le
  by_cases hmore : rest.dropWhile (· ≠ newline) = []
  · simp only [hmore, List.drop_nil, List.length_nil]
    exact hpos
  · have hne := List.length_pos_iff.mpr hmore
    rw [List.length_drop]
    omega

/-- The byte order mark. -/
def byteOrderMark : Bytes := [0xef, 0xbb, 0xbf]

/-- The text behind the mark, if there is one. -/
def tsvBody (text : Bytes) : Bytes :=
  if text.take 3 = byteOrderMark then text.drop 3 else text

/-- `dictionary_tsv` (BackendAccountClient.cpp:153). -/
def dictionaryTsv (J : JsonLib) (text kind format : Bytes) (maximum : Nat) (exported : Bool) :
    Except Failure Nat :=
  tsvLines J kind format maximum exported 0 (tsvBody text)

/-! ## What is a record -/

/-- The limits on an entry. -/
structure ValidEntry (kind : Bytes) (entry : DictionaryEntry) : Prop where
  code : entry.code.length ≤ 512 ∧ 0 ∉ entry.code ∧ ValidUtf8 entry.code
  word : entry.word.length ≤ 2048 ∧ 0 ∉ entry.word ∧ ValidUtf8 entry.word
  weight : 0 ≤ entry.weight ∧ entry.weight ≤ 9223372036854775807
  notBlank : ∃ c ∈ entry.word, isBlank c = false
  unbroken : (∀ c ∈ entry.word, isBreak c = false) ∧ ∀ c ∈ entry.code, isBreak c = false
  quick : kind = ascii "quick" → utf16Units entry.word ≤ 199

/-- The column order of a format. -/
def columns (kind format : Bytes) (entry : DictionaryEntry) : Bytes × Bytes :=
  if swapped kind format then (entry.code, entry.word) else (entry.word, entry.code)

/-- A field with a number, maybe with spaces and carriage returns around it. -/
def WeightField (field : Bytes) (weight : Int) : Prop :=
  ∃ before digits after, field = before ++ digits ++ after ∧
    (∀ c ∈ before ++ after, isPadding c = true) ∧ decodeInt digits = some weight

/-- A line with the three fields of a valid entry. -/
structure TsvRecord (kind format line : Bytes) (entry : DictionaryEntry) : Prop where
  fields : ∃ third, line = (columns kind format entry).1 ++ tab ::
    ((columns kind format entry).2 ++ tab :: third) ∧ tab ∉ third ∧ WeightField third entry.weight
  valid : ValidEntry kind entry

/-- `boost::json` reads a text it has written exactly if it is UTF-8. -/
def ChecksUtf8 (J : JsonLib) : Prop :=
  ∀ text, J.tree (J.serialize (.string text)) ≠ none ↔ ValidUtf8 text

variable {J : JsonLib} {kind format : Bytes}

/-! ## One line -/

theorem requireText_eq_ok_iff (hJ : ChecksUtf8 J) {text : Bytes} {limit : Nat} {u : Unit} :
    requireText J text limit = .ok u ↔ text.length ≤ limit ∧ 0 ∉ text ∧ ValidUtf8 text := by
  simp only [requireText, guard_eq_ok_iff, pure_eq_ok_iff, not_or, Nat.not_lt]
  constructor
  · rintro ⟨⟨hlength, hnul⟩, htree, -⟩
    exact ⟨hlength, hnul, (hJ text).mp htree⟩
  · rintro ⟨hlength, hnul, hvalid⟩
    exact ⟨⟨hlength, hnul⟩, (hJ text).mpr hvalid, trivial⟩

/-- What is required of an entry, its weight being a 64-bit number. -/
theorem requireDictionaryEntry_eq_ok_iff (hJ : ChecksUtf8 J) {entry : DictionaryEntry}
    {u : Unit} (hweight : entry.weight ≤ 9223372036854775807) :
    requireDictionaryEntry J entry kind = .ok u ↔ ValidEntry kind entry := by
  simp only [requireDictionaryEntry, call_eq_ok_iff, guard_eq_ok_iff, pure_eq_ok_iff,
    requireText_eq_ok_iff hJ, not_or, not_and, Int.not_lt, Nat.not_lt, List.all_eq_true,
    List.any_eq_true, not_forall, not_exists, Bool.not_eq_true]
  constructor
  · rintro ⟨-, hcode, -, hword, ⟨hpositive, ⟨c, hc, hblank⟩, hunbroken, hcodes⟩, hquick, -⟩
    exact ⟨hcode, hword, ⟨hpositive, hweight⟩, ⟨c, hc, hblank⟩, ⟨hunbroken, hcodes⟩, hquick⟩
  · rintro ⟨hcode, hword, ⟨hpositive, -⟩, ⟨c, hc, hblank⟩, ⟨hunbroken, hcodes⟩, hquick⟩
    exact ⟨⟨⟩, hcode, ⟨⟩, hword, ⟨hpositive, ⟨c, hc, hblank⟩, hunbroken, hcodes⟩, hquick, trivial⟩

theorem takeWhile_cut {c : UInt8} {line : Bytes} (rest : Bytes) (h : c ∉ line) :
    (line ++ c :: rest).takeWhile (· ≠ c) = line ∧
      (line ++ c :: rest).dropWhile (· ≠ c) = c :: rest := by
  induction line with
  | nil => simp
  | cons a line ih =>
    rw [List.mem_cons, not_or] at h
    have ha : decide (a ≠ c) = true := by simpa using Ne.symm h.1
    rw [List.cons_append, List.takeWhile_cons, List.dropWhile_cons, if_pos ha, if_pos ha,
      (ih h.2).1, (ih h.2).2]
    exact ⟨rfl, rfl⟩

/-- A text is cut at the first of some symbol, if that is in it. -/
theorem exists_cut {c : UInt8} {text : Bytes} (h : c ∈ text) :
    ∃ line rest, text = line ++ c :: rest ∧ c ∉ line := by
  obtain ⟨line, rest, hline, htext⟩ := List.eq_append_cons_of_mem h
  exact ⟨line, rest, hline, htext⟩

theorem cutTab_eq_some_iff {text first rest : Bytes} :
    cutTab text = some (first, rest) ↔ text = first ++ tab :: rest ∧ tab ∉ first := by
  unfold cutTab
  constructor
  · intro h
    split at h
    · next htab =>
      obtain ⟨line, more, rfl, hline⟩ := exists_cut htab
      obtain ⟨htake, hdrop⟩ := takeWhile_cut more hline
      rw [htake, hdrop] at h
      obtain ⟨rfl, rfl⟩ := Prod.mk.inj (Option.some.inj h)
      exact ⟨rfl, hline⟩
    · cases h
  · rintro ⟨rfl, hfirst⟩
    obtain ⟨htake, hdrop⟩ := takeWhile_cut rest hfirst
    rw [if_pos (by simp), htake, hdrop]
    rfl

/-- Padding is cut off at both ends, and nothing else. -/
theorem trimPadding_split (text : Bytes) : ∃ before after,
    text = before ++ trimPadding text ++ after ∧ ∀ c ∈ before ++ after, isPadding c = true := by
  refine ⟨text.takeWhile isPadding,
    ((text.dropWhile isPadding).reverse.takeWhile isPadding).reverse, ?_, fun c hc => ?_⟩
  · rw [List.append_assoc, trimPadding, ← List.reverse_append, List.takeWhile_append_dropWhile,
      List.reverse_reverse, List.takeWhile_append_dropWhile]
  · rcases List.mem_append.mp hc with hc | hc
    · exact List.mem_takeWhile_imp hc
    · exact List.mem_takeWhile_imp (List.mem_reverse.mp hc)

theorem trimPadding_of_padded {before digits after : Bytes}
    (hpadding : ∀ c ∈ before ++ after, isPadding c = true)
    (hdigits : ∀ c ∈ digits, isPadding c = false) (hne : digits ≠ []) :
    trimPadding (before ++ digits ++ after) = digits := by
  have hfront : ∀ (front text : Bytes), (∀ c ∈ front, isPadding c = true) → text ≠ [] →
      (∀ c ∈ text.head?, isPadding c = false) → (front ++ text).dropWhile isPadding = text := by
    intro front text hpad htext hhead
    rw [List.dropWhile_append_of_pos hpad]
    cases text with
    | nil => exact absurd rfl htext
    | cons a text => rw [List.dropWhile_cons_of_neg (by simp [hhead a rfl])]
  have hhead : ∀ (text : Bytes), ∀ c ∈ (digits ++ text).head?, isPadding c = false := by
    intro text c hc
    rw [List.head?_append_of_ne_nil _ hne] at hc
    exact hdigits c (List.mem_of_mem_head? hc)
  have hlast : ∀ c ∈ digits.reverse.head?, isPadding c = false := fun c hc =>
    hdigits c (List.mem_reverse.mp (List.mem_of_mem_head? hc))
  unfold trimPadding
  rw [List.append_assoc, hfront before (digits ++ after)
    (fun c hc => hpadding c (List.mem_append_left _ hc)) (by simp [hne]) (hhead after),
    List.reverse_append, hfront after.reverse digits.reverse
    (fun c hc => hpadding c (List.mem_append_right _ (List.mem_reverse.mp hc))) (by simp [hne])
    hlast, List.reverse_reverse]

/-- A number is written without padding. -/
theorem decodeInt_plain {digits : Bytes} {n : Int} (h : decodeInt digits = some n) :
    digits ≠ [] ∧ ∀ c ∈ digits, isPadding c = false := by
  -- no digit is padding
  have hnat : ∀ {text : Bytes} {n : Nat}, decodeNat text = some n →
      text ≠ [] ∧ ∀ c ∈ text, isPadding c = false := by
    intro text n hn
    unfold decodeNat at hn
    split at hn
    · cases hn
    · next hdecimal =>
      rw [Bool.or_eq_true, not_or] at hdecimal
      obtain ⟨hempty, hall⟩ := hdecimal
      rw [Bool.not_eq_true, Bool.not_eq_false', List.all_eq_true] at hall
      refine ⟨fun hnil => hempty (by rw [hnil]; rfl), fun c hc => ?_⟩
      have hdigit := hall c hc
      simp only [isDecimal, Bool.and_eq_true, decide_eq_true_eq] at hdigit
      have hspace : c ≠ 32 := by
        rintro rfl
        exact absurd hdigit.1 (by decide)
      have hreturn : c ≠ carriageReturn := by
        rintro rfl
        exact absurd hdigit.1 (by decide)
      simp [isPadding, hspace, hreturn]
  unfold decodeInt at h
  split at h
  · next text =>
    -- nor is a minus sign
    cases hm : decodeNat text with
    | none => simp [hm] at h
    | some m =>
      refine ⟨List.cons_ne_nil _ _, fun c hc => ?_⟩
      rcases List.mem_cons.mp hc with rfl | hc
      · decide
      · exact (hnat hm).2 c hc
  · cases hm : decodeNat digits with
    | none => simp [hm] at h
    | some m => exact hnat hm

/-- **The third field**: a 64-bit number, and padding. -/
theorem weightField_iff {third : Bytes} {weight : Int} :
    (trimPadding third ≠ [] ∧ fromChars (trimPadding third) = some weight) ↔
      WeightField third weight ∧
        -9223372036854775808 ≤ weight ∧ weight ≤ 9223372036854775807 := by
  simp only [fromChars, Option.filter_eq_some_iff, decide_eq_true_eq]
  constructor
  · rintro ⟨-, hdecode, hrange⟩
    obtain ⟨before, after, hsplit, hpadding⟩ := trimPadding_split third
    exact ⟨⟨before, _, after, hsplit, hpadding, hdecode⟩, hrange⟩
  · rintro ⟨⟨before, digits, after, rfl, hpadding, hdecode⟩, hrange⟩
    obtain ⟨hne, hplain⟩ := decodeInt_plain hdecode
    rw [trimPadding_of_padded hpadding hplain hne]
    exact ⟨hne, hdecode, hrange⟩

/-- **A line** is accepted exactly if it is a record. -/
theorem tsvEntry_eq_ok_iff (hJ : ChecksUtf8 J) {line : Bytes} {entry : DictionaryEntry} :
    tsvEntry J kind format line = .ok entry ↔ TsvRecord kind format line entry := by
  constructor
  · intro h
    unfold tsvEntry at h
    split at h
    · cases h
    next first rest hfirst =>
    split at h
    · cases h
    next second third hsecond =>
    split at h
    · cases h
    next hthird =>
    split at h
    · cases h
    next htrim =>
    split at h
    · cases h
    next weight hweight =>
    -- both columns are there, the third one is no more than a weight
    obtain ⟨hfield, hrange⟩ := weightField_iff.mp ⟨htrim, hweight⟩
    obtain ⟨rfl, hfirst⟩ := cutTab_eq_some_iff.mp hfirst
    obtain ⟨rfl, hsecond⟩ := cutTab_eq_some_iff.mp hsecond
    simp only [call_eq_ok_iff, pure_eq_ok_iff] at h
    obtain ⟨⟨⟩, hrequired, rfl⟩ := h
    -- the columns stand in the order of the format
    have hentry : columns kind format (if swapped kind format then ⟨first, second, weight⟩
        else ⟨second, first, weight⟩) = (first, second) := by
      unfold columns
      cases swapped kind format <;> rfl
    have hweights : (if swapped kind format then (⟨first, second, weight⟩ : DictionaryEntry)
        else ⟨second, first, weight⟩).weight = weight := by
      cases swapped kind format <;> rfl
    refine ⟨⟨third, by rw [hentry], hthird, by rwa [hweights]⟩, ?_⟩
    exact (requireDictionaryEntry_eq_ok_iff hJ (by rw [hweights]; exact hrange.2)).mp hrequired
  · rintro ⟨⟨third, rfl, hthird, hfield⟩, hvalid⟩
    -- a word and a code have no tab in them, so the cuts are where they should be
    have hbreaks : tab ∉ entry.word ∧ tab ∉ entry.code :=
      ⟨fun htab => absurd (hvalid.unbroken.1 tab htab) (by decide),
        fun htab => absurd (hvalid.unbroken.2 tab htab) (by decide)⟩
    have hcolumns : tab ∉ (columns kind format entry).1 ∧ tab ∉ (columns kind format entry).2 := by
      unfold columns
      cases swapped kind format
      · exact hbreaks
      · exact hbreaks.symm
    have hlow : (-9223372036854775808 : Int) ≤ entry.weight :=
      Int.le_trans (by decide) hvalid.weight.1
    obtain ⟨htrim, hweight⟩ := weightField_iff.mpr ⟨hfield, hlow, hvalid.weight.2⟩
    have hentry : (if swapped kind format then
        (⟨(columns kind format entry).1, (columns kind format entry).2, entry.weight⟩ :
          DictionaryEntry)
        else ⟨(columns kind format entry).2, (columns kind format entry).1, entry.weight⟩) =
        entry := by
      unfold columns
      cases swapped kind format <;> rfl
    unfold tsvEntry
    rw [cutTab_eq_some_iff.mpr ⟨rfl, hcolumns.1⟩]
    dsimp only
    rw [cutTab_eq_some_iff.mpr ⟨rfl, hcolumns.2⟩]
    dsimp only
    rw [if_neg hthird, if_neg htrim, hweight]
    dsimp only
    rw [hentry, (requireDictionaryEntry_eq_ok_iff (u := ()) hJ hvalid.weight.2).mpr hvalid]
    rfl

/-! ## All lines -/

/-- The lines that count: without the carriage return, and not blank. -/
def countedLines (body : Bytes) : List Bytes :=
  ((splitLines newline body).map fun line => stripReturn line.1).filter (· ≠ [])

/-- Nothing follows the last newline. -/
def Ended (body : Bytes) : Prop := body = [] ∨ body.getLast? = some newline

theorem tsvLine_eq_ok_iff (hJ : ChecksUtf8 J) {maximum count n : Nat} {line : Bytes}
    (hcount : count ≤ maximum) :
    tsvLine J kind format maximum count line = .ok n ↔
      n = count + ([line].filter (· ≠ [])).length ∧ n ≤ maximum ∧
      ∀ l ∈ [line].filter (· ≠ []), l.length ≤ 2624 ∧ ∃ entry, TsvRecord kind format l entry := by
  unfold tsvLine
  by_cases hline : line = []
  · subst hline
    simp only [if_true, ne_eq, not_true_eq_false, decide_false, List.filter_cons_of_neg,
      Bool.false_eq_true, not_false_eq_true, List.filter_nil, List.length_nil, Nat.add_zero,
      List.not_mem_nil, false_implies, implies_true, and_true]
    constructor
    · intro h
      cases h
      exact ⟨rfl, hcount⟩
    · rintro ⟨rfl, -⟩
      rfl
  · have hfilter : [line].filter (· ≠ []) = [line] := by simp [hline]
    rw [hfilter, if_neg hline]
    simp only [guard_eq_ok_iff, call_eq_ok_iff, pure_eq_ok_iff, tsvEntry_eq_ok_iff hJ, not_or,
      Nat.not_lt, List.length_singleton, List.mem_singleton, forall_eq]
    constructor
    · rintro ⟨⟨hmaximum, hlength⟩, entry, hentry, rfl⟩
      exact ⟨rfl, hmaximum, hlength, entry, hentry⟩
    · rintro ⟨rfl, hmaximum, hlength, entry, hentry⟩
      exact ⟨⟨hmaximum, hlength⟩, entry, hentry, rfl⟩

/-- **The loop**, by induction on what is left of the text. -/
theorem tsvLines_eq_ok_iff (hJ : ChecksUtf8 J) {maximum count n : Nat} {exported : Bool}
    {rest : Bytes} (hcount : count ≤ maximum) :
    tsvLines J kind format maximum exported count rest = .ok n ↔
      n = count + (countedLines rest).length ∧ n ≤ maximum ∧ (exported = true → Ended rest) ∧
      ∀ line ∈ countedLines rest, line.length ≤ 2624 ∧
        ∃ entry, TsvRecord kind format line entry := by
  induction hn : rest.length using Nat.strongRecOn generalizing count rest with
  | ind m ih =>
    rw [tsvLines]
    split
    · next hnil =>
      subst hnil
      simp only [countedLines, splitLines, List.map_nil, List.filter_nil, List.length_nil,
        Nat.add_zero, List.not_mem_nil, false_implies, implies_true, and_true, Except.ok.injEq]
      constructor
      · rintro rfl
        exact ⟨rfl, hcount, fun _ => .inl rfl⟩
      · rintro ⟨rfl, -⟩
        rfl
    · next hne =>
      dsimp only
      -- the source looks for the next newline
      by_cases hnewline : newline ∈ rest
      · -- a line with its newline, and the rest
        obtain ⟨line, more, rfl, hline⟩ := exists_cut hnewline
        obtain ⟨htake, hdrop⟩ := takeWhile_cut more hline
        rw [htake, hdrop, if_neg (by simp)]
        have hcounted : countedLines (line ++ newline :: more) =
            [stripReturn line].filter (· ≠ []) ++ countedLines more := by
          rw [countedLines, splitLines_ended newline hline, List.map_cons, ← List.singleton_append,
            List.filter_append]
          rfl
        have hended : Ended (line ++ newline :: more) ↔ Ended more := by
          unfold Ended
          cases more with
          | nil => simp
          | cons a more => simp [List.getLast?_cons]
        have hless : more.length < m := by
          rw [← hn, List.length_append, List.length_cons]
          omega
        rw [hcounted, hended, List.length_append]
        cases hrecord : tsvLine J kind format maximum count (stripReturn line) with
        | error e =>
          -- the loop ends here, and the line is among those to be counted
          simp only [reduceCtorEq, false_iff]
          rintro ⟨rfl, hmaximum, -, hall⟩
          have hfits : count + ([stripReturn line].filter (· ≠ [])).length ≤ maximum := by omega
          have hok : tsvLine J kind format maximum count (stripReturn line) = .ok _ :=
            (tsvLine_eq_ok_iff hJ hcount).mpr
              ⟨rfl, hfits, fun l hl => hall l (List.mem_append_left _ hl)⟩
          rw [hrecord] at hok
          cases hok
        | ok c =>
          obtain ⟨rfl, hc, hgood⟩ := (tsvLine_eq_ok_iff hJ hcount).mp hrecord
          dsimp only
          rw [List.drop_one, List.tail_cons, ih more.length hless hc rfl, Nat.add_assoc]
          constructor
          · rintro ⟨hcount', hmaximum, hend, hall⟩
            refine ⟨hcount', hmaximum, hend, fun l hl => ?_⟩
            exact (List.mem_append.mp hl).elim (hgood l) (hall l)
          · rintro ⟨hcount', hmaximum, hend, hall⟩
            exact ⟨hcount', hmaximum, hend, fun l hl => hall l (List.mem_append_right _ hl)⟩
      · -- the last line, without a newline
        have hall : ∀ c ∈ rest, decide (c ≠ newline) = true := by
          intro c hc
          have hother : c ≠ newline := by
            rintro rfl
            exact hnewline hc
          simpa using hother
        have htake : rest.takeWhile (· ≠ newline) = rest := List.takeWhile_eq_self_iff.mpr hall
        have hdrop : rest.dropWhile (· ≠ newline) = [] := List.dropWhile_eq_nil_iff.mpr hall
        have hcounted : countedLines rest = [stripReturn rest].filter (· ≠ []) := by
          rw [countedLines, splitLines_last newline hnewline hne]
          rfl
        have hended : ¬ Ended rest := by
          rintro (hnil | hlast)
          · exact hne hnil
          · exact hnewline (List.mem_of_getLast? hlast)
        rw [htake, hdrop, hcounted]
        cases exported with
        | true =>
          -- an export must end with a newline
          rw [if_pos ⟨rfl, rfl⟩]
          simp only [reduceCtorEq, false_iff]
          rintro ⟨-, -, hend, -⟩
          exact hended (hend trivial)
        | false =>
          rw [if_neg (by simp)]
          cases hrecord : tsvLine J kind format maximum count (stripReturn rest) with
          | error e =>
            simp only [reduceCtorEq, false_iff]
            rintro ⟨hcount', hmaximum, -, hgood⟩
            rw [(tsvLine_eq_ok_iff hJ hcount).mpr ⟨hcount', hmaximum, hgood⟩] at hrecord
            cases hrecord
          | ok c =>
            have hline := (tsvLine_eq_ok_iff hJ hcount).mp hrecord
            dsimp only
            rw [List.drop_nil, tsvLines, dif_pos rfl]
            constructor
            · intro h
              cases h
              exact ⟨hline.1, hline.2.1, (by simp), hline.2.2⟩
            · rintro ⟨hn, -⟩
              rw [hn, hline.1]

/-- **What is accepted**: as many records as are counted, and nothing between them but
blank lines. -/
theorem dictionaryTsv_eq_ok_iff (hJ : ChecksUtf8 J) {text : Bytes} {maximum n : Nat}
    {exported : Bool} :
    dictionaryTsv J text kind format maximum exported = .ok n ↔
      n = (countedLines (tsvBody text)).length ∧ n ≤ maximum ∧
      (exported = true → Ended (tsvBody text)) ∧
      ∀ line ∈ countedLines (tsvBody text), line.length ≤ 2624 ∧
        ∃ entry, TsvRecord kind format line entry := by
  rw [dictionaryTsv, tsvLines_eq_ok_iff hJ (Nat.zero_le _), Nat.zero_add]

/-! ## Writing a table -/

/-- An entry as a line. -/
def rowText (kind format : Bytes) (entry : DictionaryEntry) : Bytes :=
  (columns kind format entry).1 ++ tab :: ((columns kind format entry).2 ++
    tab :: encodeInt entry.weight)

/-- The table of some entries: with a mark or without, and with one kind of line end. -/
def tableText (kind format : Bytes) (mark returns : Bool) (entries : List DictionaryEntry) :
    Bytes :=
  (if mark then byteOrderMark else []) ++ unlines newline (entries.map fun entry =>
    rowText kind format entry ++ if returns then [carriageReturn] else [])

/-- Its first field does not begin with a mark of its own. -/
def Unmarked (kind format : Bytes) (entries : List DictionaryEntry) : Prop :=
  ∀ entry ∈ entries.head?, ¬ byteOrderMark <+: (columns kind format entry).1

theorem length_encodeInt {n : Int} (h : 0 ≤ n ∧ n ≤ 9223372036854775807) :
    (encodeInt n).length ≤ 19 := by
  obtain ⟨m, rfl⟩ := Int.eq_ofNat_of_zero_le h.1
  show (encodeNat m).length ≤ 19
  unfold encodeNat
  split
  · decide
  · rw [List.length_map, List.length_reverse]
    exact (Nat.digits_length_le_iff (by decide) m).mpr (by omega)

/-- A written line ends with a digit. -/
theorem rowText_getLast? (entry : DictionaryEntry) (h : 0 ≤ entry.weight) :
    (rowText kind format entry).getLast? ≠ some carriageReturn := by
  intro hlast
  obtain ⟨m, hm⟩ := Int.eq_ofNat_of_zero_le h
  have hencode : encodeInt entry.weight = encodeNat m := by rw [hm]; rfl
  have hsplit : rowText kind format entry = ((columns kind format entry).1 ++ tab ::
      ((columns kind format entry).2 ++ [tab])) ++ encodeNat m := by
    rw [rowText, hencode]
    simp
  rw [hsplit, List.getLast?_append_of_ne_nil _ (encodeNat_ne_nil m)] at hlast
  have hdigit := isDecimal_of_mem_encodeNat (List.mem_of_getLast? hlast)
  exact absurd hdigit (by decide)

/-- A written line is a record. -/
theorem rowText_record {entry : DictionaryEntry} (h : ValidEntry kind entry) :
    TsvRecord kind format (rowText kind format entry) entry := by
  have hdecode := decodeInt_encodeInt entry.weight
  refine ⟨⟨encodeInt entry.weight, rfl, ?_, [], _, [], (List.append_nil _).symm, by simp,
    hdecode⟩, h⟩
  obtain ⟨m, hm⟩ := Int.eq_ofNat_of_zero_le h.weight.1
  rw [hm]
  exact fun htab => absurd (isDecimal_of_mem_encodeNat htab) (by decide)

theorem newline_not_mem_rowText {entry : DictionaryEntry} (h : ValidEntry kind entry) :
    newline ∉ rowText kind format entry := by
  have hbreaks : newline ∉ entry.word ∧ newline ∉ entry.code :=
    ⟨fun hmem => absurd (h.unbroken.1 newline hmem) (by decide),
      fun hmem => absurd (h.unbroken.2 newline hmem) (by decide)⟩
  have hcolumns : newline ∉ (columns kind format entry).1 ∧
      newline ∉ (columns kind format entry).2 := by
    unfold columns
    cases swapped kind format
    · exact hbreaks
    · exact hbreaks.symm
  have htab : newline ≠ tab := by decide
  simp only [rowText, List.mem_append, List.mem_cons, not_or]
  exact ⟨hcolumns.1, htab, hcolumns.2, htab, newline_not_mem_encodeInt _⟩

theorem length_rowText {entry : DictionaryEntry} (h : ValidEntry kind entry) :
    (rowText kind format entry).length ≤ 2624 := by
  have hcolumns : (columns kind format entry).1.length + (columns kind format entry).2.length =
      entry.word.length + entry.code.length := by
    unfold columns
    cases swapped kind format
    · rfl
    · exact Nat.add_comm _ _
  have hweight := length_encodeInt h.weight
  have hcode := h.code.1
  have hword := h.word.1
  simp only [rowText, List.length_append, List.length_cons]
  omega

/-- The lines of a table are its entries'. -/
theorem countedLines_rows {returns : Bool} {entries : List DictionaryEntry}
    (h : ∀ entry ∈ entries, ValidEntry kind entry) :
    countedLines (unlines newline (entries.map fun entry =>
      rowText kind format entry ++ if returns then [carriageReturn] else [])) =
      entries.map (rowText kind format) := by
  -- a row holds no newline, with a carriage return behind it or not
  have hlines : ∀ line ∈ entries.map (fun entry => rowText kind format entry ++
      if returns then [carriageReturn] else []), newline ∉ line := by
    intro line hline
    obtain ⟨entry, hentry, rfl⟩ := List.mem_map.mp hline
    have hrow : newline ∉ rowText kind format entry := newline_not_mem_rowText (h entry hentry)
    cases returns
    · simpa using hrow
    · simp only [if_true, List.mem_append, List.mem_singleton, not_or]
      exact ⟨hrow, by decide⟩
  have hsplit := splitLines_unlines newline hlines []
  rw [List.append_nil] at hsplit
  rw [countedLines, hsplit, splitLines, List.append_nil, List.map_map, List.map_map]
  -- and ends in its weight, so nothing but that return is taken off
  have hstrip : ∀ entry ∈ entries, stripReturn (rowText kind format entry ++
      if returns then [carriageReturn] else []) = rowText kind format entry := by
    intro entry hentry
    unfold stripReturn
    cases returns
    · rw [if_neg Bool.false_ne_true, List.append_nil,
        if_neg (rowText_getLast? entry (h entry hentry).weight.1)]
    · rw [if_pos rfl, if_pos (by simp), List.dropLast_concat]
  have hmap : entries.map (((fun line : Bytes × Bool => stripReturn line.1) ∘
      fun line => (line, true)) ∘ fun entry => rowText kind format entry ++
        if returns then [carriageReturn] else []) = entries.map (rowText kind format) :=
    List.map_congr_left hstrip
  rw [hmap, List.filter_eq_self.mpr]
  intro line hline
  obtain ⟨entry, -, rfl⟩ := List.mem_map.mp hline
  simp [rowText]

theorem tsvBody_tableText {mark returns : Bool} {entries : List DictionaryEntry}
    (hmark : mark = true ∨ Unmarked kind format entries) :
    tsvBody (tableText kind format mark returns entries) =
      unlines newline (entries.map fun entry =>
        rowText kind format entry ++ if returns then [carriageReturn] else []) := by
  cases mark with
  | true => rfl
  | false =>
    have hunmarked := hmark.resolve_left Bool.false_ne_true
    unfold tsvBody tableText
    rw [if_neg Bool.false_ne_true, List.nil_append, if_neg]
    intro htake
    cases entries with
    | nil => simp [unlines, byteOrderMark] at htake
    | cons entry entries =>
      apply hunmarked entry rfl
      rw [List.map_cons, unlines_cons] at htake
      generalize hfirst : (columns kind format entry).1 = first
      simp only [rowText, hfirst, List.append_assoc, List.cons_append] at htake
      generalize (columns kind format entry).2 ++ _ = rest at htake
      have hmarked : byteOrderMark <+: first ++ tab :: rest := by
        rw [← htake]
        exact List.take_prefix _ _
      rcases List.prefix_or_prefix_of_prefix hmarked (List.prefix_append _ _) with h | ⟨t, ht⟩
      · exact h
      · -- a mark that goes on behind the first field would have a tab in it
        rw [← ht, List.prefix_append_right_inj] at hmarked
        cases t with
        | nil =>
          rw [← ht, List.append_nil]
        | cons a t =>
          obtain rfl : a = tab := (List.cons_prefix_cons.mp hmarked).1
          have htab : tab ∈ byteOrderMark := ht ▸ by simp
          exact absurd htab (by decide)

theorem ended_unlines (lines : List Bytes) : Ended (unlines newline lines) := by
  induction lines using List.reverseRecOn with
  | nil => exact .inl rfl
  | append_singleton lines line _ =>
    refine .inr ?_
    rw [unlines_append, unlines_cons]
    simp [unlines]

/-- **The check is exact.** A text is accepted exactly if, behind a mark, every line that is
not blank is a record of the format within the limits, there are not too many, and an
exported text ends with its last line; the result is their number. And every table of
valid entries, written in either way, is accepted with the number of its entries. -/
theorem dictionaryTsv_exact (hJ : ChecksUtf8 J) (kind format : Bytes) (maximum : Nat)
    (exported : Bool) :
    (∀ text n, dictionaryTsv J text kind format maximum exported = .ok n ↔
      n = (countedLines (tsvBody text)).length ∧ n ≤ maximum ∧
      (exported = true → Ended (tsvBody text)) ∧
      ∀ line ∈ countedLines (tsvBody text), line.length ≤ 2624 ∧
        ∃ entry, TsvRecord kind format line entry) ∧
    ∀ (entries : List DictionaryEntry) (mark returns : Bool),
      (∀ entry ∈ entries, ValidEntry kind entry) → entries.length ≤ maximum →
      (mark = true ∨ Unmarked kind format entries) →
      dictionaryTsv J (tableText kind format mark returns entries) kind format maximum exported =
        .ok entries.length := by
  refine ⟨fun text n => dictionaryTsv_eq_ok_iff hJ, fun entries mark returns hvalid hlength hmark =>
    (dictionaryTsv_eq_ok_iff hJ).mpr ?_⟩
  rw [tsvBody_tableText hmark, countedLines_rows hvalid, List.length_map]
  refine ⟨rfl, hlength, fun _ => ended_unlines _, fun line hline => ?_⟩
  obtain ⟨entry, hentry, rfl⟩ := List.mem_map.mp hline
  exact ⟨length_rowText (hvalid entry hentry), entry, rowText_record (hvalid entry hentry)⟩

/-! ## Two words -/

/-- A library that writes texts without quotes and escapes between quotes, as
`boost::json` does, and reads them if they are UTF-8. -/
def plainJson : JsonLib where
  tree text := if utf8Validate (text.drop 1).dropLast then
    some (.string (text.drop 1).dropLast) else none
  serialize
    | .string text => 34 :: text ++ [34]
    | _ => []

theorem plainJson_checks : ChecksUtf8 plainJson := by
  intro text
  have hinside : ((34 :: text ++ [34] : Bytes).drop 1).dropLast = text := by
    rw [List.cons_append, List.drop_one, List.tail_cons, List.dropLast_concat]
  show (if utf8Validate ((34 :: text ++ [34] : Bytes).drop 1).dropLast = true then _ else _) ≠ _ ↔ _
  rw [hinside, ← utf8Validate_iff]
  split
  · next hvalid => simp [hvalid]
  · next hvalid => simp [hvalid]

/-- A phrase and its code, in the columns of the other system. -/
def shortPhrase : DictionaryEntry := ⟨ascii "brb", ascii "be right back", 7⟩

set_option maxRecDepth 4000 in
theorem shortPhrase_valid : ValidEntry (ascii "quick") shortPhrase := by
  refine ⟨⟨by decide, by decide, validUtf8_of_ascii (by decide)⟩,
    ⟨by decide, by decide, validUtf8_of_ascii (by decide)⟩, by decide, by decide, by decide,
    fun _ => by decide⟩

theorem dictionaryTsv_exact_phrase :
    dictionaryTsv plainJson (tableText (ascii "quick") (ascii "windows") true true
      [shortPhrase, shortPhrase]) (ascii "quick") (ascii "windows") 500 true = .ok 2 :=
  (dictionaryTsv_exact plainJson_checks (ascii "quick") (ascii "windows") 500 true).2
    [shortPhrase, shortPhrase] true true (by simp [shortPhrase_valid]) (by decide) (.inl rfl)

end DictionaryTsv

end MsimeLinux
