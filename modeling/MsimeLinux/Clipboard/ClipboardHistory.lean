import MsimeLinux.Account.CredentialStore
import MsimeLinux.Settings.RoundTrip

/-!
# The clipboard history (`ClipboardHistory.cpp`)

The history is a JSON array of texts in a file of its own; whether it is on is a
setting in `config.ini`. Every method takes one mutex around each of its accesses
to the file, so a method is a sequence of atomic steps, and `clipboardStep` is one
of them. What the system calls of a step do is in its `ClipboardIo`.

- `parseItems_serializeItems`: what is written is what is read.
- `normalize_valid`: a normal text is empty or an item.
-/

namespace MsimeLinux

open Lib

/-! ## Texts and items -/

/-- `kMaxItems` and `kMaxChars` (ClipboardHistory.h:13). -/
def maxItems : Nat := 50
def maxChars : Nat := 4000

/-- `g_utf8_validate` with a length: a NUL byte is not valid there. -/
def validItem (text : Bytes) : Bool := utf8Validate text && !text.contains 0

/-- A byte that begins a character. -/
def beginsCharacter (c : UInt8) : Bool := decide c.IsUTF8FirstByte

/-- `g_utf8_strlen`, of a valid text. -/
def characterCount (text : Bytes) : Nat := text.countP beginsCharacter

/-- The bytes before `g_utf8_offset_to_pointer(text, n)`, of a valid text. -/
def takeCharacters : Nat → Bytes → Bytes
  | _, [] => []
  | 0, c :: rest => if beginsCharacter c then [] else c :: takeCharacters 0 rest
  | n + 1, c :: rest =>
    if beginsCharacter c then c :: takeCharacters n rest else c :: takeCharacters (n + 1) rest

/-- Without the NUL and CR bytes at its end. -/
def dropTrailing (text : Bytes) : Bytes :=
  (text.reverse.dropWhile fun c => c == 0 || c == 13).reverse

/-- `ClipboardHistory::normalize` (ClipboardHistory.cpp:267). -/
def normalize (text : Bytes) : Bytes :=
  let text := dropTrailing text
  if text = [] ∨ validItem text = false then []
  else if maxChars < characterCount text then takeCharacters maxChars text
  else text

/-- The elements of a JSON array. -/
def Json.asArray : Json → Option (List Json)
  | array elements => some elements
  | _ => none

/-- `parse_items` (ClipboardHistory.cpp:33). -/
def parseItems (J : JsonLib) (payload : Bytes) : List Bytes :=
  match (J.parse payload).bind Json.asArray with
  | some elements => ((elements.filterMap Json.asString).filter validItem).take maxItems
  | none => []

/-- `serialize_items` (ClipboardHistory.cpp:61). -/
def serializeItems (J : JsonLib) (items : List Bytes) : Bytes :=
  J.serialize (.array (items.map .string)) ++ [newline]

/-- What `boost::json` promises about arrays of texts. -/
structure JsonLib.ReadsStrings (J : JsonLib) : Prop where
  /-- an array of valid texts is read as it was written, white space after it skipped -/
  strings : ∀ items : List Bytes, (∀ t ∈ items, ValidUtf8 t) →
    J.tree (J.serialize (.array (items.map .string)) ++ [newline]) =
      some (.array (items.map .string))
  empty : J.tree (ascii "[]\n") = some (.array [])

/-! ## What is written is what is read -/

theorem validItem_iff {text : Bytes} :
    validItem text = true ↔ ValidUtf8 text ∧ 0 ∉ text := by
  simp [validItem, utf8Validate_iff]

section Items

variable {J : JsonLib} {items : List Bytes}

/-- The items that are kept: valid, and at most `maxItems` of them. -/
def GoodItems (items : List Bytes) : Prop :=
  (∀ t ∈ items, validItem t = true) ∧ items.length ≤ maxItems

theorem parseItems_good (payload : Bytes) : GoodItems (parseItems J payload) := by
  unfold parseItems
  split
  · refine ⟨fun t ht => ?_, ?_⟩
    · exact (List.mem_filter.mp (List.mem_of_mem_take ht)).2
    · rw [List.length_take]
      exact Nat.min_le_left ..
  · exact ⟨by simp, Nat.zero_le _⟩

/-- **What is written is what is read.** -/
theorem parseItems_serializeItems (hJ : J.ReadsStrings) (h : GoodItems items) :
    parseItems J (serializeItems J items) = items := by
  have htree := hJ.strings items fun t ht => (validItem_iff.mp (h.1 t ht)).1
  have hnested : Json.nestedWithin 32 (.array (items.map .string)) = true := by
    show (items.map Json.string).all _ = true
    rw [List.all_map, List.all_eq_true]
    intro t _
    rfl
  have hparse : J.parse (serializeItems J items) = some (.array (items.map .string)) := by
    unfold JsonLib.parse serializeItems
    rw [htree, Option.filter_some, if_pos hnested]
  have hstrings : (items.map Json.string).filterMap Json.asString = items := by
    rw [List.filterMap_map]
    exact List.filterMap_some
  unfold parseItems
  rw [hparse]
  show (((items.map Json.string).filterMap Json.asString).filter validItem).take maxItems = items
  rw [hstrings, List.filter_eq_self.mpr h.1, List.take_of_length_le h.2]

theorem parseItems_empty (hJ : J.ReadsStrings) : parseItems J (ascii "[]\n") = [] := by
  unfold parseItems JsonLib.parse
  rw [hJ.empty]
  rfl

end Items

/-! ## Normal texts -/

/-- A character is encoded by one byte that begins it and some that do not. -/
theorem utf8EncodeChar_split (c : Char) : ∃ first rest, String.utf8EncodeChar c = first :: rest ∧
    beginsCharacter first = true ∧ ∀ b ∈ rest, beginsCharacter b = false := by
  have hfirst : ∀ (i : Nat) (hi : i < (String.utf8EncodeChar c).length),
      (String.utf8EncodeChar c)[i].IsUTF8FirstByte ↔ i = 0 := fun _ _ =>
    UInt8.isUTF8FirstByte_getElem_utf8EncodeChar
  cases hencode : String.utf8EncodeChar c with
  | nil =>
    have hlen := String.length_utf8EncodeChar c
    have := c.utf8Size_pos
    simp [hencode] at hlen
    omega
  | cons first rest =>
    simp only [hencode] at hfirst
    refine ⟨first, rest, rfl, ?_, ?_⟩
    · exact decide_eq_true ((hfirst 0 (by simp)).mpr rfl)
    · intro b hb
      obtain ⟨i, hi, rfl⟩ := List.getElem_of_mem hb
      have hlater := hfirst (i + 1) (by simpa using hi)
      simp only [List.getElem_cons_succ, Nat.add_eq_zero_iff, Nat.succ_ne_self, and_false,
        iff_false] at hlater
      exact decide_eq_false hlater

/-- The bytes within a character are passed over. -/
theorem takeCharacters_within (n : Nat) {within rest : Bytes}
    (h : ∀ b ∈ within, beginsCharacter b = false) :
    takeCharacters n (within ++ rest) = within ++ takeCharacters n rest := by
  induction within with
  | nil => rfl
  | cons b within ih =>
    have hb := h b List.mem_cons_self
    have hrest := ih fun b' hb' => h b' (List.mem_cons_of_mem _ hb')
    cases n <;> simp [takeCharacters, hb, hrest]

theorem takeCharacters_encode (n : Nat) (chars : List Char) :
    takeCharacters n (chars.flatMap String.utf8EncodeChar) =
      (chars.take n).flatMap String.utf8EncodeChar := by
  induction chars generalizing n with
  | nil => cases n <;> rfl
  | cons c chars ih =>
    obtain ⟨first, rest, hencode, hfirst, hrest⟩ := utf8EncodeChar_split c
    rw [List.flatMap_cons, hencode, List.cons_append]
    cases n with
    | zero => simp [takeCharacters, hfirst]
    | succ n =>
      rw [List.take_succ_cons, List.flatMap_cons, hencode, ← ih, takeCharacters, if_pos hfirst,
        takeCharacters_within n hrest]
      rfl

theorem takeCharacters_sublist (n : Nat) (text : Bytes) :
    (takeCharacters n text).Sublist text := by
  induction text generalizing n with
  | nil => cases n <;> exact List.Sublist.refl _
  | cons c rest ih =>
    cases n with
    | zero =>
      unfold takeCharacters
      split
      · exact List.nil_sublist _
      · exact (ih 0).cons_cons c
    | succ n =>
      unfold takeCharacters
      split
      · exact (ih n).cons_cons c
      · exact (ih (n + 1)).cons_cons c

/-- A normal text is empty or an item. -/
theorem normalize_valid {text : Bytes} (h : normalize text ≠ []) :
    validItem (normalize text) = true := by
  unfold normalize at h ⊢
  dsimp only at h ⊢
  by_cases hempty : dropTrailing text = [] ∨ validItem (dropTrailing text) = false
  · rw [if_pos hempty] at h
    exact absurd rfl h
  · have hvalid : validItem (dropTrailing text) = true := by
      simpa using fun h => hempty (.inr h)
    rw [if_neg hempty]
    split
    · obtain ⟨⟨chars, hchars⟩, hnul⟩ := validItem_iff.mp hvalid
      refine validItem_iff.mpr ⟨⟨chars.take maxChars, ?_⟩, fun hmem => ?_⟩
      · rw [hchars, takeCharacters_encode]
      · exact hnul ((takeCharacters_sublist _ _).subset hmem)
    · exact hvalid

/-! ## A history -/

/-- The JSON library, the settings, and whether there is a data directory. -/
structure ClipboardEnv where
  json : JsonLib
  settings : SettingsEnv
  directory : Bool

/-- A method call. -/
inductive ClipboardCall where
  | add (text : Bytes)
  | remove (text : Bytes)
  | clear
  | setEnabled (value : Bool)
  deriving DecidableEq

/-- Where a call stands. -/
inductive ClipboardPc where
  | waiting
  /-- `add`, past the test of the setting -/
  | adding (text : Bytes)
  /-- `remove`, with the list it is about to write -/
  | removing (items : List Bytes)
  /-- `set_enabled(false)`, about to clear -/
  | clearing (current : InputSettings)
  /-- `set_enabled`, about to save -/
  | saving (current : InputSettings)
  | returned (result : Bool)

/-- What a call has returned. -/
def ClipboardPc.result : ClipboardPc → Option Bool
  | returned result => some result
  | waiting | adding _ | removing _ | clearing _ | saving _ => none

theorem ClipboardPc.result_eq_some {pc : ClipboardPc} {result : Bool} :
    pc.result = some result ↔ pc = .returned result := by
  cases pc <;> simp [ClipboardPc.result]

/-- What the system does in a step. -/
structure ClipboardIo where
  /-- the store can be opened for reading -/
  readable : Bool := true
  /-- `std::filesystem::exists` can tell -/
  found : Bool := true
  /-- the store can be replaced -/
  written : Bool := true
  save : WriteOutcome := {}

/-- The store, `config.ini`, and the calls. -/
structure ClipboardState (ι : Type) where
  file : Option Bytes
  disk : Disk
  pc : ι → ClipboardPc

namespace ClipboardEnv

variable (E : ClipboardEnv)

/-- The list in the store. -/
def stored (file : Option Bytes) : List Bytes :=
  match file with
  | some payload => parseItems E.json payload
  | none => []

/-- `read_file` and `parse_items`: a store that cannot be read counts as none. -/
def readItems (io : ClipboardIo) (file : Option Bytes) : List Bytes :=
  if io.readable then E.stored file else []

/-- `write_file_atomically` (ClipboardHistory.cpp:82). -/
def writeFile (io : ClipboardIo) (file : Option Bytes) (payload : Bytes) : Option Bytes × Bool :=
  if E.directory && io.written then (some payload, true) else (file, false)

/-- `enabled` (ClipboardHistory.cpp:155). -/
def enabled (disk : Disk) : Bool := (E.settings.load disk.config).1.clipboardHistoryEnabled

/-- The part of `add` under the lock (ClipboardHistory.cpp:199). -/
def addItem (io : ClipboardIo) (file : Option Bytes) (text : Bytes) : Option Bytes × Bool :=
  let items := E.readItems io file
  if items.head? = some text then (file, false)
  else
    let items := (text :: items.filter (· ≠ text)).take maxItems
    E.writeFile io file (serializeItems E.json items)

/-- `clear` (ClipboardHistory.cpp:235). -/
def clearItems (io : ClipboardIo) (file : Option Bytes) : Option Bytes × Bool :=
  if !E.directory then (file, false)
  -- an error of `exists` counts as a missing store
  else if file = none ∨ io.found = false then (file, true)
  else E.writeFile io file (ascii "[]\n")

end ClipboardEnv

variable {ι : Type} [DecidableEq ι]

/-- A call goes on to `pc`. -/
def ClipboardState.at (s : ClipboardState ι) (i : ι) (pc : ClipboardPc) : ClipboardState ι :=
  { s with pc := Function.update s.pc i pc }

@[simp] theorem ClipboardState.at_pc (s : ClipboardState ι) (i : ι) (pc : ClipboardPc) :
    (s.at i pc).pc i = pc := Function.update_self ..

theorem ClipboardState.at_pc_of_ne (s : ClipboardState ι) {i j : ι} (h : j ≠ i)
    (pc : ClipboardPc) : (s.at i pc).pc j = s.pc j := Function.update_of_ne h ..

/-- A call returns what its last access to the store gave. -/
def ClipboardState.finish (s : ClipboardState ι) (i : ι) (access : Option Bytes × Bool) :
    ClipboardState ι :=
  { s with file := access.1 }.at i (.returned access.2)

/-- The next step of a call. -/
def clipboardStep (E : ClipboardEnv) (calls : ι → ClipboardCall) (s : ClipboardState ι)
    (i : ι) (io : ClipboardIo) : ClipboardState ι :=
  match s.pc i, calls i with
  | .waiting, .add text =>
    let text := normalize text
    if text = [] ∨ E.enabled s.disk = false then s.at i (.returned false)
    else s.at i (.adding text)
  | .waiting, .remove text =>
    if text = [] then s.at i (.returned false)
    else
      let items := E.readItems io s.file
      let kept := items.filter (· ≠ text)
      if kept.length = items.length then s.at i (.returned false) else s.at i (.removing kept)
  | .waiting, .clear => s.finish i (E.clearItems io s.file)
  | .waiting, .setEnabled value =>
    let current := { (E.settings.load s.disk.config).1 with clipboardHistoryEnabled := value }
    s.at i (if value then .saving current else .clearing current)
  | .adding text, _ => s.finish i (E.addItem io s.file text)
  | .removing items, _ => s.finish i (E.writeFile io s.file (serializeItems E.json items))
  | .clearing current, _ =>
    let access := E.clearItems io s.file
    if access.2 then { s with file := access.1 }.at i (.saving current) else s.finish i access
  | .saving current, _ =>
    let result := E.settings.save io.save current s.disk
    { s with disk := result.disk }.at i (.returned (result.error == none))
  | .returned _, _ => s

/-- The steps of a schedule. -/
def clipboardRun (E : ClipboardEnv) (calls : ι → ClipboardCall) (s : ClipboardState ι)
    (schedule : List (ι × ClipboardIo)) : ClipboardState ι :=
  schedule.foldl (fun s step => clipboardStep E calls s step.1 step.2) s

/-- Before any of the calls. -/
def ClipboardState.initial (file : Option Bytes) (disk : Disk) : ClipboardState ι :=
  ⟨file, disk, fun _ => .waiting⟩

/-! ## A library that knows arrays of texts -/

/-- A text in quotes; quotes and backslashes are escaped. -/
def quoteByte (c : UInt8) : Bytes := if c = 34 ∨ c = 92 then [92, c] else [c]

def quoteText (text : Bytes) : Bytes := 34 :: text.flatMap quoteByte ++ [34]

/-- The elements of an array that is not empty, up to its end. -/
def elementsText : Bytes → List Bytes → Bytes
  | text, [] => quoteText text ++ [93]
  | text, next :: rest => quoteText text ++ 44 :: elementsText next rest

def arrayText : List Bytes → Bytes
  | [] => ascii "[]"
  | text :: rest => 91 :: elementsText text rest

/-- A text up to the closing quote, and what follows. -/
def unquoteText : Bytes → Option (Bytes × Bytes)
  | [] => none
  | 34 :: rest => some ([], rest)
  | 92 :: c :: rest => (unquoteText rest).map fun r => (c :: r.1, r.2)
  | c :: rest => (unquoteText rest).map fun r => (c :: r.1, r.2)

/-- At most `n` elements, and the line's end. -/
def readElements : Nat → Bytes → Option (List Bytes)
  | n + 1, 34 :: text =>
    match unquoteText text with
    | some (t, [93, 10]) => some [t]
    | some (t, 44 :: rest) => (readElements n rest).map (t :: ·)
    | _ => none
  | _, _ => none

/-- JSON, on lines with an array of texts. -/
def stringsJson : JsonLib where
  tree text :=
    match text with
    | [91, 93, 10] => some (.array [])
    | 91 :: rest =>
      (readElements rest.length rest).map fun items => .array (items.map .string)
    | _ => none
  serialize value := arrayText ((value.asArray.getD []).filterMap Json.asString)

theorem unquoteText_quote (text rest : Bytes) :
    unquoteText (text.flatMap quoteByte ++ 34 :: rest) = some (text, rest) := by
  induction text with
  | nil => rfl
  | cons c text ih =>
    rw [List.flatMap_cons, List.append_assoc]
    by_cases hquote : c = 34
    · subst hquote
      show (unquoteText (text.flatMap quoteByte ++ 34 :: rest)).map _ = _
      rw [ih]
      rfl
    by_cases hescape : c = 92
    · subst hescape
      show (unquoteText (text.flatMap quoteByte ++ 34 :: rest)).map _ = _
      rw [ih]
      rfl
    · rw [quoteByte, if_neg (by simp [hquote, hescape]), List.singleton_append, unquoteText, ih]
      · rfl
      · simpa using hquote
      · intro d tail hd _
        exact hescape hd

theorem readElements_elementsText (text : Bytes) (items : List Bytes) {n : Nat}
    (h : items.length < n) :
    readElements n (elementsText text items ++ [10]) = some (text :: items) := by
  induction items generalizing text n with
  | nil =>
    cases n with
    | zero => exact absurd h (Nat.lt_irrefl 0)
    | succ n =>
      show readElements (n + 1)
        (34 :: (text.flatMap quoteByte ++ [34]) ++ [93] ++ [10]) = some [text]
      simp only [List.cons_append, List.append_assoc, List.nil_append, readElements]
      rw [unquoteText_quote]
      rfl
  | cons next items ih =>
    cases n with
    | zero => exact absurd h (Nat.not_lt_zero _)
    | succ n =>
      show readElements (n + 1) (34 :: (text.flatMap quoteByte ++ [34]) ++
        44 :: elementsText next items ++ [10]) = some (text :: next :: items)
      simp only [List.cons_append, List.append_assoc, List.nil_append, readElements]
      rw [unquoteText_quote]
      show (readElements n (elementsText next items ++ [10])).map _ = _
      rw [ih next (Nat.lt_of_succ_lt_succ h)]
      rfl

theorem length_elementsText (text : Bytes) (items : List Bytes) :
    items.length < (elementsText text items).length := by
  induction items generalizing text with
  | nil => simp [elementsText]
  | cons next items ih =>
    have := ih next
    simp only [elementsText, List.length_append, List.length_cons]
    omega

theorem stringsJson_reads : stringsJson.ReadsStrings where
  strings items _ := by
    have hstrings : (items.map Json.string).filterMap Json.asString = items := by
      rw [List.filterMap_map]
      exact List.filterMap_some
    show stringsJson.tree (arrayText ((items.map Json.string).filterMap Json.asString) ++ [10]) = _
    rw [hstrings]
    cases items with
    | nil => rfl
    | cons text items =>
      have hread : readElements (elementsText text items ++ [10]).length
          (elementsText text items ++ [10]) = some (text :: items) := by
        refine readElements_elementsText text items ?_
        have := length_elementsText text items
        simp only [List.length_append, List.length_singleton]
        omega
      show stringsJson.tree (91 :: (elementsText text items ++ [10])) = _
      unfold stringsJson
      dsimp only
      split
      · next heq =>
        -- an array that is not empty does not end at once
        cases items <;> simp [elementsText, quoteText] at heq
      · next rest _ heq =>
        obtain rfl := (List.cons.inj heq).2
        rw [hread]
        rfl
      · next hno => exact absurd rfl (hno _)
  empty := rfl

end MsimeLinux
