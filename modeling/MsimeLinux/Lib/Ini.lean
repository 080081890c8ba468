import Mathlib.Data.Nat.Digits.Defs
import MsimeLinux.Lib.KeyFile
import MsimeLinux.Lib.Lines

/-!
# Key files as text

The textual form of a key file: groups in brackets, `key=value` lines under them,
blank lines and `#` comments anywhere. A group that comes again goes on where it was; of a
key that comes again the last line counts, and the ones before it stay in the file.
`iniFiles` is the library of `KeyFile` over such files, and `iniFiles_lawful` that it keeps
its promises.

- `alter`: one entry of a list of pairs changed, or added at the end.
- `Document.parse_print`: a good document is read as it was written.
- `unescape_escape`, `decodeInt_encodeInt`: so are the values.
- `saveFields_again`: what was saved once may be saved again.
-/

namespace Lib

/-! ## Lists of pairs -/

section Alter

variable {κ ν : Type} [BEq κ] [LawfulBEq κ]

/-- Change the first entry of a key, or add one at the end. -/
def alter (key : κ) (f : Option ν → ν) : List (κ × ν) → List (κ × ν)
  | [] => [(key, f none)]
  | entry :: rest =>
    if key == entry.1 then (entry.1, f (some entry.2)) :: rest else entry :: alter key f rest

/-- A changed key reads as what it was changed to. -/
theorem lookup_alter_self (key : κ) (f : Option ν → ν) (entries : List (κ × ν)) :
    (alter key f entries).lookup key = some (f (entries.lookup key)) := by
  induction entries with
  | nil => simp [alter]
  | cons entry rest ih =>
    obtain ⟨k, v⟩ := entry
    by_cases hk : key == k
    · simp [alter, hk, List.lookup_cons]
    · simp only [Bool.not_eq_true] at hk
      simp [alter, hk, List.lookup_cons, ih]

/-- The other keys read as before. -/
theorem lookup_alter_ne {key other : κ} (hne : other ≠ key) (f : Option ν → ν)
    (entries : List (κ × ν)) : (alter key f entries).lookup other = entries.lookup other := by
  have hother : (other == key) = false := beq_false_of_ne hne
  induction entries with
  | nil => simp [alter, List.lookup_cons, hother]
  | cons entry rest ih =>
    obtain ⟨k, v⟩ := entry
    by_cases hk : key == k
    · obtain rfl := eq_of_beq hk
      simp [alter, List.lookup_cons, hother]
    · simp only [Bool.not_eq_true] at hk
      simp [alter, hk, List.lookup_cons, ih]

/-- An entry that is so already is left as it is. -/
theorem alter_of_lookup {key : κ} {f : Option ν → ν} {entries : List (κ × ν)} {value : ν}
    (h : entries.lookup key = some value) (hf : f (some value) = value) :
    alter key f entries = entries := by
  induction entries with
  | nil => cases h
  | cons entry rest ih =>
    obtain ⟨k, v⟩ := entry
    by_cases hk : key == k
    · obtain rfl := eq_of_beq hk
      obtain rfl : v = value := by simpa [List.lookup_cons] using h
      simp [alter, hf]
    · simp only [Bool.not_eq_true] at hk
      rw [List.lookup_cons, hk] at h
      simp [alter, hk, ih h]

/-- Where an entry of the changed list comes from. -/
theorem mem_alter {key : κ} {f : Option ν → ν} {entries : List (κ × ν)} {entry : κ × ν}
    (h : entry ∈ alter key f entries) :
    entry ∈ entries ∨ entry = (key, f none) ∨
      ∃ old, (key, old) ∈ entries ∧ entry = (key, f (some old)) := by
  induction entries with
  | nil => exact .inr (.inl (by simpa [alter] using h))
  | cons head rest ih =>
    unfold alter at h
    split at h
    · next hk =>
      obtain rfl := eq_of_beq hk
      rcases List.mem_cons.mp h with rfl | h
      · exact .inr (.inr ⟨head.2, List.mem_cons_self, rfl⟩)
      · exact .inl (List.mem_cons_of_mem _ h)
    · rcases List.mem_cons.mp h with rfl | h
      · exact .inl List.mem_cons_self
      · rcases ih h with h | h | ⟨old, hold, h⟩
        · exact .inl (List.mem_cons_of_mem _ h)
        · exact .inr (.inl h)
        · exact .inr (.inr ⟨old, List.mem_cons_of_mem _ hold, h⟩)

/-- Keys that are different stay so. -/
theorem nodup_alter {key : κ} {f : Option ν → ν} {entries : List (κ × ν)}
    (h : (entries.map Prod.fst).Nodup) : ((alter key f entries).map Prod.fst).Nodup := by
  induction entries with
  | nil => exact List.nodup_cons.mpr ⟨List.not_mem_nil, List.nodup_nil⟩
  | cons entry rest ih =>
    obtain ⟨hnew, hrest⟩ := List.nodup_cons.mp h
    unfold alter
    split
    · exact h
    · next hk =>
      refine List.nodup_cons.mpr ⟨fun hmem => ?_, ih hrest⟩
      obtain ⟨other, hother, hsame⟩ := List.mem_map.mp hmem
      rcases mem_alter hother with hother | rfl | ⟨old, hold, rfl⟩
      · exact hnew (hsame ▸ List.mem_map_of_mem hother)
      · exact hk (beq_iff_eq.mpr hsame)
      · exact hk (beq_iff_eq.mpr hsame)

/-- How often a key is there. -/
def countKey (key : κ) (entries : List (κ × ν)) : Nat :=
  entries.countP fun entry => key == entry.1

/-- A key that can be read is given at least once. -/
theorem lookup_isSome_iff {key : κ} {entries : List (κ × ν)} :
    (entries.lookup key).isSome = true ↔ 0 < countKey key entries := by
  induction entries with
  | nil => simp [countKey]
  | cons entry rest ih =>
    obtain ⟨k, v⟩ := entry
    by_cases hk : key == k
    · simp [countKey, List.lookup_cons, hk]
    · simp only [Bool.not_eq_true] at hk
      rw [List.lookup_cons, hk, ih]
      simp [countKey, hk]

/-- Nor are they given more or less often. -/
theorem countKey_alter_ne {key other : κ} (hne : other ≠ key) (f : Option ν → ν)
    (entries : List (κ × ν)) : countKey other (alter key f entries) = countKey other entries := by
  have hother : (other == key) = false := beq_false_of_ne hne
  induction entries with
  | nil => simp [alter, countKey, hother]
  | cons entry rest ih =>
    obtain ⟨k, v⟩ := entry
    by_cases hk : key == k
    · rw [alter, if_pos hk, countKey, countKey, List.countP_cons, List.countP_cons]
    · simp only [Bool.not_eq_true] at hk
      simp only [countKey] at ih
      simp [alter, hk, countKey, List.countP_cons, ih]

/-- Dropping the first entry of a key. -/
def dropFirst (key : κ) (entries : List (κ × ν)) : List (κ × ν) :=
  entries.eraseP fun entry => key == entry.1

/-- Removing a pair leaves the other keys. -/
theorem lookup_dropFirst_ne {key other : κ} (hne : other ≠ key) (entries : List (κ × ν)) :
    (dropFirst key entries).lookup other = entries.lookup other := by
  induction entries with
  | nil => rfl
  | cons entry rest ih =>
    obtain ⟨k, v⟩ := entry
    by_cases hk : key == k
    · obtain rfl := eq_of_beq hk
      have hother : (other == key) = false := beq_false_of_ne hne
      simp [dropFirst, List.lookup_cons, hother]
    · simp only [Bool.not_eq_true] at hk
      have hkeep : dropFirst key ((k, v) :: rest) = (k, v) :: dropFirst key rest := by
        simp [dropFirst, hk]
      rw [hkeep, List.lookup_cons, List.lookup_cons, ih]

omit [LawfulBEq κ] in
/-- It takes one pair of the key away. -/
theorem countKey_dropFirst_self {key : κ} {entries : List (κ × ν)}
    (h : (entries.lookup key).isSome = true) :
    countKey key (dropFirst key entries) = countKey key entries - 1 := by
  induction entries with
  | nil => cases h
  | cons entry rest ih =>
    obtain ⟨k, v⟩ := entry
    by_cases hk : key == k
    · simp [dropFirst, countKey, hk]
    · simp only [Bool.not_eq_true] at hk
      rw [List.lookup_cons, hk] at h
      simpa [dropFirst, countKey, hk] using ih h

theorem countKey_dropFirst_ne {key other : κ} (hne : other ≠ key) (entries : List (κ × ν)) :
    countKey other (dropFirst key entries) = countKey other entries := by
  induction entries with
  | nil => rfl
  | cons entry rest ih =>
    obtain ⟨k, v⟩ := entry
    by_cases hk : key == k
    · obtain rfl := eq_of_beq hk
      have hother : (other == key) = false := beq_false_of_ne hne
      simp [dropFirst, countKey, hother]
    · simp only [Bool.not_eq_true] at hk
      have hkeep : dropFirst key ((k, v) :: rest) = (k, v) :: dropFirst key rest := by
        simp [dropFirst, hk]
      rw [hkeep]
      simp only [countKey] at ih
      simp [countKey, List.countP_cons, ih]

end Alter

/-! ## Values -/

/-- A text as a value: line breaks and backslashes are escaped, and so is the
white space in front. -/
def escape : (leading : Bool) → List UInt8 → List UInt8
  | _, [] => []
  | leading, c :: rest =>
    if c = 10 then 92 :: 110 :: escape false rest
    else if c = 13 then 92 :: 114 :: escape false rest
    else if c = 92 then 92 :: 92 :: escape false rest
    else if c = 32 ∧ leading then 92 :: 115 :: escape true rest
    else if c = 9 ∧ leading then 92 :: 116 :: escape true rest
    else c :: escape false rest

/-- What an escape stands for. -/
def unescapeByte (c : UInt8) : Option UInt8 :=
  if c = 110 then some 10 else if c = 114 then some 13 else if c = 92 then some 92
  else if c = 115 then some 32 else if c = 116 then some 9 else none

/-- A value as a text. -/
def unescape : List UInt8 → Option (List UInt8)
  | [] => some []
  | 92 :: c :: rest => (unescapeByte c).bind fun d => (unescape rest).map (d :: ·)
  | 92 :: [] => none
  | c :: rest => (unescape rest).map (c :: ·)

theorem unescape_cons {c : UInt8} (hc : c ≠ 92) (rest : List UInt8) :
    unescape (c :: rest) = (unescape rest).map (c :: ·) := by
  rw [unescape]
  · rintro d rest' rfl
    exact absurd rfl hc
  · rintro rfl
    exact absurd rfl hc

/-- What is escaped reads as it was written. -/
theorem unescape_escape (leading : Bool) (text : List UInt8) :
    unescape (escape leading text) = some text := by
  induction text generalizing leading with
  | nil => rfl
  | cons c rest ih =>
    unfold escape
    split
    · next hc => simp [unescape, unescapeByte, ih, hc]
    split
    · next hc => simp [unescape, unescapeByte, ih, hc]
    split
    · next hc => simp [unescape, unescapeByte, ih, hc]
    split
    · next hc => simp [unescape, unescapeByte, ih, hc.1]
    split
    · next hc => simp [unescape, unescapeByte, ih, hc.1]
    · next hc _ _ => simp [unescape_cons hc, ih]

/-- An escaped text is on one line. -/
theorem newline_not_mem_escape (leading : Bool) (text : List UInt8) :
    (10 : UInt8) ∉ escape leading text := by
  induction text generalizing leading with
  | nil => exact List.not_mem_nil
  | cons c rest ih =>
    unfold escape
    split
    · simpa using ih false
    split
    · simpa using ih false
    split
    · simpa using ih false
    split
    · simpa using ih true
    split
    · simpa using ih true
    · next hc _ _ _ _ => simpa [Ne.symm hc] using ih false

/-- A number in decimal digits. -/
def encodeNat (n : Nat) : List UInt8 :=
  if n = 0 then [48] else (Nat.digits 10 n).reverse.map fun d => UInt8.ofNat (48 + d)

def isDecimal (c : UInt8) : Bool := 48 ≤ c && c ≤ 57

def decodeNat (text : List UInt8) : Option Nat :=
  if text.isEmpty || !text.all isDecimal then none
  else some (Nat.ofDigits 10 (text.map fun c => c.toNat - 48).reverse)

/-- A number with its sign. -/
def encodeInt : Int → List UInt8
  | .ofNat n => encodeNat n
  | .negSucc n => 45 :: encodeNat (n + 1)

def decodeInt : List UInt8 → Option Int
  | 45 :: text => (decodeNat text).map fun n => -(n : Int)
  | text => (decodeNat text).map fun n => (n : Int)

theorem toNat_ofNat_digit {d : Nat} (h : d < 10) : (UInt8.ofNat (48 + d)).toNat = 48 + d := by
  simp only [UInt8.toNat_ofNat']
  omega

theorem digit_bounds {n d : Nat} (h : d ∈ Nat.digits 10 n) : d < 10 :=
  Nat.digits_lt_base (by decide) h

/-- The bytes of a number are digits. -/
theorem isDecimal_of_mem_encodeNat {n : Nat} {c : UInt8} (h : c ∈ encodeNat n) :
    isDecimal c = true := by
  unfold encodeNat at h
  split at h
  · rw [List.mem_singleton] at h
    subst h
    decide
  · obtain ⟨d, hd, rfl⟩ := List.mem_map.mp h
    have hlt := digit_bounds (List.mem_reverse.mp hd)
    have hnat := toNat_ofNat_digit hlt
    simp only [isDecimal, Bool.and_eq_true, decide_eq_true_eq, UInt8.le_iff_toNat_le, hnat]
    exact ⟨Nat.le_add_right _ _, show 48 + d ≤ 57 by omega⟩

theorem encodeNat_ne_nil (n : Nat) : encodeNat n ≠ [] := by
  unfold encodeNat
  split
  · simp
  · next hn => simpa using Nat.digits_ne_nil_iff_ne_zero.mpr hn

/-- A number reads as it was written. -/
theorem decodeNat_encodeNat (n : Nat) : decodeNat (encodeNat n) = some n := by
  have hall : (encodeNat n).all isDecimal = true :=
    List.all_eq_true.mpr fun c hc => isDecimal_of_mem_encodeNat hc
  have hne : (encodeNat n).isEmpty = false := by
    simpa [List.isEmpty_eq_false_iff] using encodeNat_ne_nil n
  have hvalue : Nat.ofDigits 10 ((encodeNat n).map fun c => c.toNat - 48).reverse = n := by
    unfold encodeNat
    split
    · next hn => simp [hn]
    · have hdigits : (Nat.digits 10 n).map ((fun c : UInt8 => c.toNat - 48) ∘
          fun d => UInt8.ofNat (48 + d)) = Nat.digits 10 n := by
        rw [List.map_congr_left (g := id), List.map_id]
        intro d hd
        show (UInt8.ofNat (48 + d)).toNat - 48 = d
        rw [toNat_ofNat_digit (digit_bounds hd), Nat.add_sub_cancel_left]
      rw [List.map_map, List.map_reverse, List.reverse_reverse, hdigits, Nat.ofDigits_digits]
  unfold decodeNat
  rw [hall, hne, hvalue]
  rfl

/-- So does one with a sign. -/
theorem decodeInt_encodeInt (n : Int) : decodeInt (encodeInt n) = some n := by
  match n with
  | .negSucc n =>
    show (decodeNat (encodeNat (n + 1))).map (fun n => -(n : Int)) = _
    rw [decodeNat_encodeNat]
    rfl
  | .ofNat n =>
    have hhead : ∀ text, encodeNat n ≠ 45 :: text := by
      intro text h
      have := isDecimal_of_mem_encodeNat (n := n) (c := 45) (by rw [h]; exact List.mem_cons_self)
      exact absurd this (by decide)
    show decodeInt (encodeNat n) = _
    rw [decodeInt]
    · rw [decodeNat_encodeNat]
      rfl
    · exact hhead

theorem newline_not_mem_encodeInt (n : Int) : (10 : UInt8) ∉ encodeInt n := by
  have hnat : ∀ n, (10 : UInt8) ∉ encodeNat n := fun n h =>
    absurd (isDecimal_of_mem_encodeNat h) (by decide)
  match n with
  | .ofNat n => exact hnat n
  | .negSucc n => simpa [encodeInt] using hnat (n + 1)

/-- A value of a kind, as the text of its line. -/
def encodeValue : (kind : Kind) → kind.Value → List UInt8
  | .string, text => escape true text
  | .integer, n => encodeInt n
  | .boolean, true => [116, 114, 117, 101]
  | .boolean, false => [102, 97, 108, 115, 101]

/-- The text of a line, as a value of a kind. -/
def decodeValue : (kind : Kind) → List UInt8 → Option kind.Value
  | .string, text => unescape text
  | .integer, text => decodeInt text
  | .boolean, text =>
    if text = [116, 114, 117, 101] ∨ text = [49] then some true
    else if text = [102, 97, 108, 115, 101] ∨ text = [48] then some false
    else none

/-- **Values round-trip**, of every kind. -/
theorem decodeValue_encodeValue (kind : Kind) (value : kind.Value) :
    decodeValue kind (encodeValue kind value) = some value := by
  match kind, value with
  | .string, text => exact unescape_escape true text
  | .integer, n => exact decodeInt_encodeInt n
  | .boolean, true => rfl
  | .boolean, false => rfl

/-- A value stays on its line. -/
theorem newline_not_mem_encodeValue (kind : Kind) (value : kind.Value) :
    (10 : UInt8) ∉ encodeValue kind value := by
  match kind, value with
  | .string, text => exact newline_not_mem_escape true text
  | .integer, n => exact newline_not_mem_encodeInt n
  | .boolean, true => decide
  | .boolean, false => decide

/-! ## Documents -/

/-- A line of a key file. -/
inductive IniLine where
  | blank
  | group (name : List UInt8)
  | pair (key value : List UInt8)
  deriving DecidableEq

/-- The text of a line. -/
def IniLine.print : IniLine → List UInt8
  | blank => []
  | group name => 91 :: (name ++ [93])
  | pair key value => key ++ 61 :: value

/-- The line a text is: blank or a comment, a group in brackets, or a key and the
rest after the first `=`. -/
def IniLine.parse : List UInt8 → Option IniLine
  | [] => some blank
  | c :: rest =>
    if c = 35 then some blank
    else if c = 91 then
      if rest.getLast? = some 93 then some (group rest.dropLast) else none
    else if (61 : UInt8) ∈ c :: rest then
      some (pair ((c :: rest).takeWhile (· ≠ 61)) ((c :: rest).dropWhile (· ≠ 61)).tail)
    else none

/-- A key that is not taken for something else. -/
def goodKey (key : List UInt8) : Bool :=
  !key.contains 10 && !key.contains 61 && key.head? != some 91 && key.head? != some 35 &&
    !key.isEmpty

/-- A line that is read as it was written. -/
def IniLine.good : IniLine → Bool
  | blank => true
  | group name => !name.contains 10
  | pair key value => goodKey key && !value.contains 10

/-- A line reads as it was written. -/
theorem IniLine.parse_print {line : IniLine} (h : line.good = true) :
    IniLine.parse line.print = some line := by
  cases line with
  | blank => rfl
  | group name =>
    rw [print, parse, if_neg (by decide), if_pos rfl, List.getLast?_concat, if_pos rfl,
      List.dropLast_concat]
  | pair key value =>
    simp only [good, goodKey, Bool.and_eq_true, Bool.not_eq_true', List.contains_eq_mem,
      decide_eq_false_iff_not, bne_iff_ne, List.isEmpty_eq_false_iff] at h
    obtain ⟨⟨⟨⟨⟨-, hequals⟩, hbracket⟩, hcomment⟩, hne⟩, -⟩ := h
    obtain ⟨c, rest, rfl⟩ := List.exists_cons_of_ne_nil hne
    have htake : ∀ a ∈ c :: rest, decide (a ≠ 61) = true := fun a ha => by
      simpa using fun h : a = 61 => hequals (h ▸ ha)
    have hmem : (61 : UInt8) ∈ c :: (rest ++ 61 :: value) := by simp
    rw [print, List.cons_append, parse, if_neg (by simpa using hcomment),
      if_neg (by simpa using hbracket), if_pos hmem, ← List.cons_append,
      List.takeWhile_append_of_pos htake, List.dropWhile_append_of_pos htake]
    simp

/-- And is one line. -/
theorem IniLine.newline_not_mem_print {line : IniLine} (h : line.good = true) :
    (10 : UInt8) ∉ line.print := by
  cases line with
  | blank => exact List.not_mem_nil
  | group name => simpa [print, good] using h
  | pair key value =>
    simp only [good, goodKey, Bool.and_eq_true, Bool.not_eq_true', List.contains_eq_mem,
      decide_eq_false_iff_not] at h
    simpa [print] using And.intro h.1.1.1.1.1 h.2

/-- The groups of a key file, each with its pairs, the last one first. -/
abbrev Document := List (List UInt8 × List (List UInt8 × List UInt8))

namespace Document

/-- The lines of a document, its groups apart by an empty one. -/
def lines : Document → List IniLine
  | [] => []
  | (name, pairs) :: rest =>
    .group name :: (pairs.reverse.map fun pair => .pair pair.1 pair.2) ++
      (if rest.isEmpty then [] else [.blank]) ++ lines rest

/-- The pairs of a group. -/
def pairsOf (document : Document) (name : List UInt8) : List (List UInt8 × List UInt8) :=
  (List.lookup name document).getD []

/-- Change the pairs of a group, which is a new one if it is not there. -/
def atGroup (name : List UInt8)
    (f : List (List UInt8 × List UInt8) → List (List UInt8 × List UInt8))
    (document : Document) : Document :=
  alter name (fun pairs => f (pairs.getD [])) document

/-- Add lines to a document, the pairs to the group that is open. -/
def ofLines (document : Document) (current : Option (List UInt8)) : List IniLine → Option Document
  | [] => some document
  | .blank :: rest => ofLines document current rest
  | .group name :: rest => ofLines (document.atGroup name id) (some name) rest
  | .pair key value :: rest =>
    match current with
    | none => none
    | some name => ofLines (document.atGroup name ((key, value) :: ·)) (some name) rest

/-- Every line is read as it was written, and no group comes twice. -/
def good (document : Document) : Bool :=
  document.lines.all IniLine.good && decide (document.map Prod.fst).Nodup

def print (document : Document) : List UInt8 := unlines 10 (document.lines.map IniLine.print)

/-- Read a document; a pair before the first group is an error. -/
def parse (data : List UInt8) : Option Document :=
  (((splitLines 10 data).map Prod.fst).mapM IniLine.parse).bind (ofLines [] none)

/-! ### The pairs of a group -/

/-- A change of a group is one of its pairs. -/
theorem pairsOf_atGroup_self (name : List UInt8)
    (f : List (List UInt8 × List UInt8) → List (List UInt8 × List UInt8))
    (document : Document) : (document.atGroup name f).pairsOf name = f (document.pairsOf name) := by
  unfold atGroup pairsOf
  rw [lookup_alter_self, Option.getD_some]

/-- The pairs of the other groups stay. -/
theorem pairsOf_atGroup_ne {name other : List UInt8} (hne : other ≠ name)
    (f : List (List UInt8 × List UInt8) → List (List UInt8 × List UInt8))
    (document : Document) : (document.atGroup name f).pairsOf other = document.pairsOf other := by
  unfold atGroup pairsOf
  rw [lookup_alter_ne hne]

/-- Groups stay. -/
theorem isSome_atGroup {document : Document} {group : List UInt8}
    (h : (List.lookup group document).isSome = true) (name : List UInt8)
    (f : List (List UInt8 × List UInt8) → List (List UInt8 × List UInt8)) :
    (List.lookup group (document.atGroup name f)).isSome = true := by
  unfold atGroup
  by_cases hname : group = name
  · rw [hname, lookup_alter_self]
    rfl
  · rwa [lookup_alter_ne hname]

/-- A group that is new comes last. -/
theorem atGroup_append {before : Document} {name : List UInt8} (h : name ∉ before.map Prod.fst)
    (f : List (List UInt8 × List UInt8) → List (List UInt8 × List UInt8)) :
    before.atGroup name f = before ++ [(name, f [])] ∧
      ∀ pairs, atGroup name f (before ++ [(name, pairs)]) = before ++ [(name, f pairs)] := by
  unfold atGroup
  induction before with
  | nil => simp [alter]
  | cons group rest ih =>
    obtain ⟨hne, hrest⟩ : name ≠ group.1 ∧ name ∉ rest.map Prod.fst := by simpa using h
    have hbeq : (name == group.1) = false := beq_false_of_ne hne
    obtain ⟨hnew, hold⟩ := ih hrest
    simp only [alter, List.cons_append, hbeq, Bool.false_eq_true, if_false, hnew, hold,
      true_and, implies_true]

/-- Pairs are put into the group that is open. -/
theorem ofLines_pairs {before : Document} {name : List UInt8} (h : name ∉ before.map Prod.fst)
    (pairs later : List (List UInt8 × List UInt8)) (rest : List IniLine) :
    ofLines (before ++ [(name, later)]) (some name)
        (pairs.map (fun pair => .pair pair.1 pair.2) ++ rest) =
      ofLines (before ++ [(name, pairs.reverse ++ later)]) (some name) rest := by
  induction pairs generalizing later with
  | nil => rfl
  | cons pair pairs ih =>
    rw [List.map_cons, List.cons_append, ofLines, (atGroup_append h _).2, ih,
      List.reverse_cons, List.append_assoc]
    rfl

/-- The lines of a document are read in its order. -/
theorem ofLines_lines (before document : Document) (current : Option (List UInt8))
    (h : ((before ++ document).map Prod.fst).Nodup) :
    ofLines before current document.lines = some (before ++ document) := by
  induction document generalizing before current with
  | nil => rw [lines, ofLines, List.append_nil]
  | cons group rest ih =>
    obtain ⟨name, pairs⟩ := group
    have hassoc : before ++ (name, pairs) :: rest = before ++ [(name, pairs)] ++ rest := by
      rw [List.append_assoc]
      rfl
    have hnew : name ∉ before.map Prod.fst := by
      rw [List.map_append, List.nodup_append] at h
      exact fun hmem => h.2.2 name hmem name (by simp) rfl
    have hblank : ofLines (before ++ [(name, pairs)]) (some name)
        ((if rest.isEmpty then [] else [.blank]) ++ lines rest) =
          some (before ++ (name, pairs) :: rest) := by
      rw [hassoc] at h ⊢
      cases rest with
      | nil => exact ih _ _ h
      | cons _ _ => exact ih _ (some name) h
    rw [lines, List.cons_append, List.cons_append, List.append_assoc, ofLines,
      (atGroup_append hnew id).1, id, ofLines_pairs hnew, List.reverse_reverse, List.append_nil,
      hblank]

/-- **A good document is read as it was written.** -/
theorem parse_print {document : Document} (h : document.good = true) :
    parse document.print = some document := by
  obtain ⟨hlines, hnames⟩ := Bool.and_eq_true_iff.mp h
  have hgood : ∀ line ∈ document.lines, line.good = true := List.all_eq_true.mp hlines
  have hsplit : (splitLines 10 document.print).map Prod.fst =
      document.lines.map IniLine.print := by
    have hlines : ∀ text ∈ document.lines.map IniLine.print, (10 : UInt8) ∉ text := by
      intro text htext
      obtain ⟨line, hline, rfl⟩ := List.mem_map.mp htext
      exact IniLine.newline_not_mem_print (hgood line hline)
    have hsplit := splitLines_unlines 10 hlines []
    rw [List.append_nil] at hsplit
    rw [print, hsplit]
    simp [splitLines, Function.comp_def]
  have hparse : (document.lines.map IniLine.print).mapM IniLine.parse = some document.lines := by
    rw [List.mapM_map]
    generalize document.lines = lines at hgood
    induction lines with
    | nil => rfl
    | cons line lines ih =>
      rw [List.mapM_cons, Function.comp_apply, IniLine.parse_print (hgood line List.mem_cons_self),
        ih fun l hl => hgood l (List.mem_cons_of_mem _ hl)]
      rfl
  unfold parse
  rw [hsplit, hparse]
  exact ofLines_lines [] document none (by simpa using hnames)

/-! ### Slots -/

/-- The last line of a slot. -/
def lookup (document : Document) (slot : Slot) : Option (List UInt8) :=
  (document.pairsOf slot.1).lookup slot.2

/-- How many lines a slot has. -/
def count (document : Document) (slot : Slot) : Nat := countKey slot.2 (document.pairsOf slot.1)

/-- Give the last line of a slot another value. -/
def change (document : Document) (slot : Slot) (value : List UInt8) : Document :=
  document.atGroup slot.1 (alter slot.2 fun _ => value)

/-- Add a line at the end of a group. -/
def push (document : Document) (slot : Slot) (value : List UInt8) : Document :=
  document.atGroup slot.1 ((slot.2, value) :: ·)

/-- Drop the last line of a slot. -/
def drop (document : Document) (slot : Slot) : Document :=
  document.atGroup slot.1 (dropFirst slot.2)

/-- A key that has the value already is not changed. -/
theorem change_of_lookup {document : Document} {slot : Slot} {value : List UInt8}
    (h : document.lookup slot = some value) : document.change slot value = document := by
  unfold lookup pairsOf at h
  cases hpairs : List.lookup slot.1 document with
  | none =>
    rw [hpairs] at h
    cases h
  | some pairs =>
    rw [hpairs] at h
    exact alter_of_lookup hpairs (alter_of_lookup h rfl)

/-- When all lines of a document read as they are written. -/
theorem lines_good_iff {document : Document} :
    document.lines.all IniLine.good = true ↔ ∀ group ∈ document, (10 : UInt8) ∉ group.1 ∧
      ∀ pair ∈ group.2, goodKey pair.1 = true ∧ (10 : UInt8) ∉ pair.2 := by
  induction document with
  | nil => simp [lines]
  | cons group rest ih =>
    obtain ⟨name, pairs⟩ := group
    have hblank : ((if rest.isEmpty then [] else [IniLine.blank]).all IniLine.good) = true := by
      split <;> rfl
    rw [lines, List.cons_append, List.cons_append, List.all_cons, List.all_append, List.all_append,
      hblank, Bool.and_true, Bool.and_eq_true, Bool.and_eq_true, ih, List.forall_mem_cons,
      List.all_map]
    simp [IniLine.good, and_assoc]

/-- A change of a group that leaves good pairs leaves a good document. -/
theorem good_atGroup {document : Document} (h : document.good = true) {name : List UInt8}
    (hname : (10 : UInt8) ∉ name)
    {f : List (List UInt8 × List UInt8) → List (List UInt8 × List UInt8)}
    (hf : ∀ pairs : List (List UInt8 × List UInt8),
      (∀ pair ∈ pairs, goodKey pair.1 = true ∧ (10 : UInt8) ∉ pair.2) →
      ∀ pair ∈ f pairs, goodKey pair.1 = true ∧ (10 : UInt8) ∉ pair.2) :
    (document.atGroup name f).good = true := by
  obtain ⟨hlines, hnames⟩ := Bool.and_eq_true_iff.mp h
  rw [lines_good_iff] at hlines
  refine Bool.and_eq_true_iff.mpr ⟨lines_good_iff.mpr fun group hmem => ?_,
    decide_eq_true (nodup_alter (of_decide_eq_true hnames))⟩
  rcases mem_alter hmem with hmem | rfl | ⟨old, hold, rfl⟩
  · exact hlines group hmem
  · exact ⟨hname, hf [] (by simp)⟩
  · exact ⟨hname, hf old (hlines _ hold).2⟩

/-- Removing a pair leaves the document readable. -/
theorem good_drop {document : Document} (h : document.good = true) {slot : Slot}
    (hgroup : (10 : UInt8) ∉ slot.1) : (document.drop slot).good = true :=
  good_atGroup h hgroup fun _ hpairs pair hpair =>
    hpairs pair (List.mem_of_mem_eraseP hpair)

end Document


/-! ## The library -/

/-- A key file in memory: the document, and the keys that are not known any more, though lines
of theirs may be left. -/
structure IniFile where
  document : Document
  hidden : List Slot := []
  good : document.good = true

namespace IniFile

/-- What a slot is known to hold. -/
def lookup (file : IniFile) (slot : Slot) : Option (List UInt8) :=
  if slot ∈ file.hidden then none else file.document.lookup slot

/-- The document with another value in a slot: its last line, if it is known, or a new one. -/
def written (file : IniFile) (slot : Slot) (value : List UInt8) : Document :=
  if (file.lookup slot).isSome then file.document.change slot value
  else file.document.push slot value

/-- Put a value into a slot. -/
def set (file : IniFile) (slot : Slot) (value : List UInt8) : IniFile :=
  if h : (file.written slot value).good = true then
    ⟨file.written slot value, file.hidden.filter (· ≠ slot), h⟩
  else file

/-- Drop the last line of a slot, if it is known. -/
def remove (file : IniFile) (slot : Slot) : IniFile :=
  if (file.lookup slot).isSome then
    if h : (file.document.drop slot).good = true then
      ⟨file.document.drop slot, slot :: file.hidden, h⟩
    else file
  else file

end IniFile

/-- Key files as documents, for texts a validator accepts. -/
def iniFiles (validText : List UInt8 → Bool) : KeyFiles where
  File := IniFile
  empty := { document := [], good := rfl }
  parse data := (Document.parse data).bind fun document =>
    if h : document.good = true then some { document, good := h } else none
  toData file := some file.document.print
  hasGroup file name := (List.lookup name file.document).isSome
  hasKey file slot := (file.lookup slot).isSome
  pairs file slot := file.document.count slot
  get file slot kind := (file.lookup slot).bind fun text =>
    (decodeValue kind text).filter fun value =>
      match kind, value with
      | .string, value => validText value
      | .integer, _ | .boolean, _ => true
  set file slot kind value := file.set slot (encodeValue kind value)
  removeKey := IniFile.remove

theorem not_mem_of_plainName {name : List UInt8} (h : plainName name = true) {c : UInt8}
    (hc : (c == 45 || 97 ≤ c && c ≤ 122) = false) : c ∉ name := by
  intro hmem
  have := List.all_eq_true.mp (Bool.and_eq_true_iff.mp h).2 c hmem
  rw [hc] at this
  cases this

/-- A plain name is a key. -/
theorem goodKey_of_plainName {name : List UInt8} (h : plainName name = true) :
    goodKey name = true := by
  have hhead : ∀ {c : UInt8}, (c == 45 || 97 ≤ c && c ≤ 122) = false → name.head? ≠ some c :=
    fun hc hhead => not_mem_of_plainName h hc (List.mem_of_mem_head? hhead)
  simp only [goodKey, Bool.and_eq_true, Bool.not_eq_true', List.contains_eq_mem,
    decide_eq_false_iff_not, bne_iff_ne]
  exact ⟨⟨⟨⟨not_mem_of_plainName h (by decide), not_mem_of_plainName h (by decide)⟩,
    hhead (by decide)⟩, hhead (by decide)⟩, by simpa using (Bool.and_eq_true_iff.mp h).1⟩

namespace IniFile

variable {file : IniFile} {slot other : Slot}

/-- What a slot holds, and how many lines it has, after a group was changed. -/
theorem document_atGroup_ne (hne : other ≠ slot)
    {f : List (List UInt8 × List UInt8) → List (List UInt8 × List UInt8)}
    (hlookup : ∀ key, key ≠ slot.2 → ∀ pairs, (f pairs).lookup key = pairs.lookup key)
    (hcount : ∀ key, key ≠ slot.2 → ∀ pairs, countKey key (f pairs) = countKey key pairs)
    (document : Document) :
    (document.atGroup slot.1 f).lookup other = document.lookup other ∧
      (document.atGroup slot.1 f).count other = document.count other := by
  unfold Document.lookup Document.count
  by_cases hgroup : other.1 = slot.1
  · have hkey : other.2 ≠ slot.2 := fun hkey => hne (Prod.ext hgroup hkey)
    rw [hgroup, Document.pairsOf_atGroup_self]
    exact ⟨hlookup _ hkey _, hcount _ hkey _⟩
  · rw [Document.pairsOf_atGroup_ne hgroup]
    exact ⟨rfl, rfl⟩

/-- A value in a plain slot goes in. -/
theorem set_eq (file : IniFile) (hslot : slot.plain = true) {value : List UInt8}
    (hvalue : (10 : UInt8) ∉ value) :
    (file.set slot value).document = file.written slot value ∧
      (file.set slot value).hidden = file.hidden.filter (· ≠ slot) := by
  obtain ⟨hgroup, hkey⟩ := Bool.and_eq_true_iff.mp hslot
  have hgood : (file.written slot value).good = true := by
    unfold written
    split
    · refine Document.good_atGroup file.good (not_mem_of_plainName hgroup (by decide)) ?_
      intro pairs hpairs pair hpair
      rcases mem_alter hpair with hpair | rfl | ⟨old, -, rfl⟩
      · exact hpairs pair hpair
      · exact ⟨goodKey_of_plainName hkey, hvalue⟩
      · exact ⟨goodKey_of_plainName hkey, hvalue⟩
    · refine Document.good_atGroup file.good (not_mem_of_plainName hgroup (by decide)) ?_
      intro pairs hpairs pair hpair
      rcases List.mem_cons.mp hpair with rfl | hpair
      · exact ⟨goodKey_of_plainName hkey, hvalue⟩
      · exact hpairs pair hpair
  unfold set
  rw [dif_pos hgood]
  exact ⟨rfl, rfl⟩

/-- A key that was set reads as its value. -/
theorem lookup_set_self (hslot : slot.plain = true) {value : List UInt8}
    (hvalue : (10 : UInt8) ∉ value) : (file.set slot value).lookup slot = some value := by
  obtain ⟨hdocument, hhidden⟩ := set_eq file hslot hvalue
  unfold lookup
  rw [hdocument, hhidden, if_neg (by simp)]
  unfold written Document.lookup
  split
  · rw [Document.change, Document.pairsOf_atGroup_self, lookup_alter_self]
  · rw [Document.push, Document.pairsOf_atGroup_self, List.lookup_cons_self]

/-- A value that is there already goes in without a change. -/
theorem set_of_lookup (hslot : slot.plain = true) {value : List UInt8}
    (hvalue : (10 : UInt8) ∉ value) (hfile : file.hidden = [])
    (h : file.lookup slot = some value) : file.set slot value = file := by
  obtain ⟨hdocument, hhidden⟩ := set_eq file hslot hvalue
  have hthere : file.document.lookup slot = some value := by
    rw [← h, lookup, hfile, if_neg List.not_mem_nil]
  have hsame : file.written slot value = file.document := by
    rw [written, h]
    exact Document.change_of_lookup hthere
  rw [hsame] at hdocument
  rw [hfile] at hhidden
  cases hset : file.set slot value
  cases file
  simp_all

/-- The other slots are left alone. -/
theorem set_ne (hslot : slot.plain = true) (hne : other ≠ slot) {value : List UInt8}
    (hvalue : (10 : UInt8) ∉ value) : (file.set slot value).lookup other = file.lookup other ∧
      (file.set slot value).document.count other = file.document.count other := by
  obtain ⟨hdocument, hhidden⟩ := set_eq file hslot hvalue
  have hsame : (file.written slot value).lookup other = file.document.lookup other ∧
      (file.written slot value).count other = file.document.count other := by
    unfold written
    split
    · exact document_atGroup_ne hne (fun key hkey pairs => lookup_alter_ne hkey _ _)
        (fun key hkey pairs => countKey_alter_ne hkey _ _) _
    · refine document_atGroup_ne hne (fun key hkey pairs => ?_) (fun key hkey pairs => ?_) _
      · rw [List.lookup_cons, beq_false_of_ne hkey]
      · simp [countKey, beq_false_of_ne hkey]
  unfold lookup
  rw [hdocument, hhidden, hsame.1, hsame.2]
  refine ⟨?_, rfl⟩
  by_cases hmem : other ∈ file.hidden <;> simp [hmem, hne]

/-- There is nothing to remove of a key that is not there. -/
theorem remove_missing (h : file.lookup slot = none) : file.remove slot = file := by
  unfold remove
  rw [h]
  rfl

/-- A plain slot that is known loses its last line. -/
theorem remove_eq (hslot : slot.plain = true) (h : (file.lookup slot).isSome = true) :
    (file.remove slot).document = file.document.drop slot ∧
      (file.remove slot).hidden = slot :: file.hidden := by
  obtain ⟨hgroup, -⟩ := Bool.and_eq_true_iff.mp hslot
  have hgood := Document.good_drop file.good (not_mem_of_plainName hgroup (by decide))
  unfold remove
  rw [if_pos h, dif_pos hgood]
  exact ⟨rfl, rfl⟩

/-- A key that was removed is not read, however often it was given. -/
theorem lookup_remove_self (hslot : slot.plain = true) : (file.remove slot).lookup slot = none := by
  cases h : file.lookup slot with
  | none => rwa [remove_missing h]
  | some value =>
    obtain ⟨-, hhidden⟩ := remove_eq hslot (by rw [h]; rfl)
    unfold lookup
    rw [hhidden, if_pos List.mem_cons_self]

/-- But only one of its pairs has gone. -/
theorem count_remove_self (hslot : slot.plain = true) :
    (file.remove slot).document.count slot = if (file.lookup slot).isSome then
      file.document.count slot - 1 else file.document.count slot := by
  cases h : file.lookup slot with
  | none =>
    rw [remove_missing h]
    rfl
  | some value =>
    obtain ⟨hdocument, -⟩ := remove_eq hslot (by rw [h]; rfl)
    have hthere : ((file.document.pairsOf slot.1).lookup slot.2).isSome = true := by
      unfold lookup at h
      split at h
      · cases h
      · rw [show List.lookup slot.2 _ = some value from h]
        rfl
    rw [hdocument, Document.count, Document.drop, Document.pairsOf_atGroup_self,
      countKey_dropFirst_self hthere]
    rfl

/-- The other keys are as they were. -/
theorem remove_ne (hslot : slot.plain = true) (hne : other ≠ slot) :
    (file.remove slot).lookup other = file.lookup other ∧
      (file.remove slot).document.count other = file.document.count other := by
  cases h : file.lookup slot with
  | none =>
    rw [remove_missing h]
    exact ⟨rfl, rfl⟩
  | some value =>
    obtain ⟨hdocument, hhidden⟩ := remove_eq hslot (by rw [h]; rfl)
    obtain ⟨hlookup, hcount⟩ := document_atGroup_ne hne
      (fun key hkey pairs => lookup_dropFirst_ne hkey pairs)
      (fun key hkey pairs => countKey_dropFirst_ne hkey pairs) file.document
    unfold lookup
    rw [hdocument, hhidden]
    refine ⟨?_, hcount⟩
    rw [show (file.document.drop slot).lookup other = _ from hlookup]
    simp [hne]

/-- Groups stay. -/
theorem hasGroup_set (hslot : slot.plain = true) {value group : List UInt8}
    (hvalue : (10 : UInt8) ∉ value) (h : (List.lookup group file.document).isSome = true) :
    (List.lookup group (file.set slot value).document).isSome = true := by
  rw [(set_eq _ hslot hvalue).1]
  unfold written
  split
  · exact Document.isSome_atGroup h _ _
  · exact Document.isSome_atGroup h _ _

/-- A group stays, though it may be empty. -/
theorem hasGroup_remove {group : List UInt8}
    (h : (List.lookup group file.document).isSome = true) :
    (List.lookup group (file.remove slot).document).isSome = true := by
  unfold remove
  split
  · split
    · exact Document.isSome_atGroup h _ _
    · exact h
  · exact h

end IniFile

section Lawful

variable {validText : List UInt8 → Bool}

/-- Files agree on a slot that reads alike and is given as often. -/
theorem iniFiles_same {file file' : IniFile} {slot : Slot}
    (h : file.lookup slot = file'.lookup slot ∧
      file.document.count slot = file'.document.count slot) :
    (iniFiles validText).Same file file' slot := by
  refine ⟨?_, h.2, fun kind => ?_⟩
  · show (file.lookup slot).isSome = (file'.lookup slot).isSome
    rw [h.1]
  · show (file.lookup slot).bind _ = (file'.lookup slot).bind _
    rw [h.1]

/-- Where every line is known, a key is there if it has a line. -/
theorem iniFiles_indexed {file : IniFile} (h : file.hidden = []) (slot : Slot) :
    (iniFiles validText).Indexed file slot := by
  show (file.lookup slot).isSome = true ↔ 0 < file.document.count slot
  unfold IniFile.lookup
  rw [h, if_neg List.not_mem_nil]
  exact lookup_isSome_iff

/-- A file that was written is read with the lines it has. -/
theorem iniFiles_parse_toData {file : IniFile} {data : List UInt8}
    (h : (iniFiles validText).toData file = some data) :
    (iniFiles validText).parse data = some { file with hidden := [] } := by
  obtain rfl : file.document.print = data := by simpa [iniFiles] using h
  simp only [iniFiles, Document.parse_print file.good, Option.bind_some]
  exact dif_pos file.good

/-- And as the very file it was, where every line is known. -/
theorem iniFiles_reread {file : IniFile} (hfile : file.hidden = []) {data : List UInt8}
    (h : (iniFiles validText).toData file = some data) :
    (iniFiles validText).parse data = some file := by
  refine (iniFiles_parse_toData h).trans (congrArg some ?_)
  cases file
  cases hfile
  rfl

/-- **The library keeps its promises** for valid texts. -/
theorem iniFiles_lawful {Storable : (kind : Kind) → kind.Value → Prop}
    (hvalid : ∀ text, Storable .string text → validText text = true) :
    (iniFiles validText).Lawful Storable where
  hasKey_set := fun hslot file kind value => congrArg Option.isSome
    (IniFile.lookup_set_self hslot (newline_not_mem_encodeValue kind value))
  get_set := by
    intro slot hslot file kind value hstorable
    refine (congrArg (Option.bind · _)
      (IniFile.lookup_set_self hslot (newline_not_mem_encodeValue kind value))).trans ?_
    rw [Option.bind_some, decodeValue_encodeValue]
    cases kind with
    | string => rw [Option.filter_some, if_pos (hvalid value hstorable)]
    | integer => rfl
    | boolean => rfl
  hasKey_removeKey := fun hslot file => congrArg Option.isSome (IniFile.lookup_remove_self hslot)
  pairs_removeKey := fun hslot file => IniFile.count_remove_self hslot
  get_missing := fun hmissing kind => congrArg (Option.bind · _)
    (Option.not_isSome_iff_eq_none.mp (Bool.eq_false_iff.mp hmissing))
  same_set := fun hslot hne file kind value =>
    iniFiles_same (IniFile.set_ne hslot hne (newline_not_mem_encodeValue kind value))
  same_removeKey := fun hslot hne file => iniFiles_same (IniFile.remove_ne hslot hne)
  hasGroup_set := fun hslot file kind value group hgroup =>
    IniFile.hasGroup_set hslot (newline_not_mem_encodeValue kind value) hgroup
  hasGroup_removeKey := fun _ file group hgroup => IniFile.hasGroup_remove hgroup
  indexed_parse := by
    intro data file hparse slot
    obtain ⟨document, -, hdocument⟩ := Option.bind_eq_some_iff.mp hparse
    split at hdocument
    · obtain rfl := Option.some.inj hdocument
      exact iniFiles_indexed rfl slot
    · cases hdocument
  missing_empty := fun _ => rfl
  pairs_empty := fun _ => rfl
  parse_toData := by
    intro file data hdata
    refine ⟨_, iniFiles_parse_toData hdata, fun slot => rfl, fun slot hknown => ?_, fun _ => rfl⟩
    refine iniFiles_same ⟨?_, rfl⟩
    have hvisible : slot ∉ IniFile.hidden file := by
      intro hmem
      have hnone : IniFile.lookup file slot = none := if_pos hmem
      have hsome : (IniFile.lookup file slot).isSome = true := hknown
      rw [hnone] at hsome
      cases hsome
    unfold IniFile.lookup
    rw [if_neg hvisible, if_neg List.not_mem_nil]

end Lawful

/-! ## Saving again -/

section Again

variable {validText : List UInt8 → Bool} {S : Type} {fields : List (KeyField S)}

/-- The text of a slot that no field of a table owns. -/
theorem lookup_saveFields_ne (hnamed : WellNamed fields) {slot : Slot}
    (hslot : ¬ Owned fields slot) (s : S) (file : IniFile) :
    IniFile.lookup (saveFields (iniFiles validText) fields s file) slot = file.lookup slot := by
  unfold saveFields
  induction fields generalizing file with
  | nil => rfl
  | cons f fields ih =>
    have hne : slot ≠ f.slot := fun h => hslot ⟨f, List.mem_cons_self, h.symm⟩
    have hrest : ¬ Owned fields slot := fun ⟨g, hg, hgs⟩ =>
      hslot ⟨g, List.mem_cons_of_mem _ hg, hgs⟩
    exact (ih hnamed.tail hrest _).trans (IniFile.set_ne (hnamed.plain f List.mem_cons_self) hne
      (newline_not_mem_encodeValue _ _)).1

/-- After a save every field reads as what was written for it. -/
theorem lookup_saveFields (hnamed : WellNamed fields) (s : S) (file : IniFile) :
    ∀ f ∈ fields, IniFile.lookup (saveFields (iniFiles validText) fields s file) f.slot =
      some (encodeValue f.kind (f.written s)) := by
  induction fields generalizing file with
  | nil => simp
  | cons f fields ih =>
    intro g hg
    rcases List.mem_cons.mp hg with rfl | hg
    · have hfree : ¬ Owned fields g.slot := fun ⟨other, hother, hslot⟩ =>
        (List.pairwise_cons.mp hnamed.distinct).1 other hother hslot.symm
      exact (lookup_saveFields_ne hnamed.tail hfree s _).trans (IniFile.lookup_set_self
        (hnamed.plain g List.mem_cons_self) (newline_not_mem_encodeValue _ _))
    · exact ih hnamed.tail _ g hg

/-- And nothing is hidden that was not before. -/
theorem hidden_saveFields (validText : List UInt8 → Bool) (hnamed : WellNamed fields) (s : S)
    {file : IniFile}
    (h : file.hidden = []) :
    IniFile.hidden (saveFields (iniFiles validText) fields s file) = [] := by
  unfold saveFields
  induction fields generalizing file with
  | nil => exact h
  | cons f fields ih =>
    refine @ih hnamed.tail (IniFile.set file f.slot _) ?_
    rw [(IniFile.set_eq _ (hnamed.plain f List.mem_cons_self)
      (newline_not_mem_encodeValue _ _)).2, h]
    rfl

/-- Keys that are not there are dropped without a change. -/
theorem removeKeys_missing {slots : List Slot} {file : IniFile}
    (h : ∀ slot ∈ slots, file.lookup slot = none) :
    removeKeys (iniFiles validText) slots file = file := by
  unfold removeKeys
  induction slots with
  | nil => rfl
  | cons slot slots ih =>
    have hsame : (iniFiles validText).removeKey file slot = file :=
      IniFile.remove_missing (h slot List.mem_cons_self)
    exact (congrArg (slots.foldl (iniFiles validText).removeKey) hsame).trans
      (ih fun other hother => h other (List.mem_cons_of_mem _ hother))

/-- A file that has what is saved is left as it is. -/
theorem saveFields_of_lookup (validText : List UInt8 → Bool) {s : S} {file : IniFile}
    (hfile : file.hidden = [])
    (hplain : ∀ f ∈ fields, f.slot.plain = true)
    (h : ∀ f ∈ fields, file.lookup f.slot = some (encodeValue f.kind (f.written s))) :
    saveFields (iniFiles validText) fields s file = file := by
  unfold saveFields
  induction fields with
  | nil => rfl
  | cons f fields ih =>
    have hset : (iniFiles validText).set file f.slot f.kind (f.written s) = file :=
      IniFile.set_of_lookup (hplain f List.mem_cons_self) (newline_not_mem_encodeValue _ _) hfile
        (h f List.mem_cons_self)
    exact (congrArg (fields.foldl fun file f =>
      (iniFiles validText).set file f.slot f.kind (f.written s)) hset).trans
        (ih (fun g hg => hplain g (List.mem_cons_of_mem _ hg))
          fun g hg => h g (List.mem_cons_of_mem _ hg))

/-- **Saving again** a record that was saved leaves the text as it is, where there was no key to
drop. -/
theorem saveFields_again (validText : List UInt8 → Bool) (hnamed : WellNamed fields)
    {slots : List Slot}
    (hslots : ∀ slot ∈ slots, ¬ Owned fields slot) (s : S) {file : IniFile}
    (hfile : file.hidden = []) (hgone : ∀ slot ∈ slots, file.lookup slot = none) :
    let saved : IniFile :=
      removeKeys (iniFiles validText) slots (saveFields (iniFiles validText) fields s file)
    saved.hidden = [] ∧
      removeKeys (iniFiles validText) slots (saveFields (iniFiles validText) fields s saved) =
        saved := by
  have hmissing : ∀ slot ∈ slots,
      IniFile.lookup (saveFields (iniFiles validText) fields s file) slot = none :=
    fun slot hslot => (lookup_saveFields_ne hnamed (hslots slot hslot) s file).trans
      (hgone slot hslot)
  have hhidden := hidden_saveFields validText hnamed s hfile
  have hagain := saveFields_of_lookup validText hhidden hnamed.plain
    (lookup_saveFields hnamed s file)
  dsimp only
  rw [removeKeys_missing hmissing]
  exact ⟨hhidden, (congrArg _ hagain).trans (removeKeys_missing hmissing)⟩

end Again

end Lib
