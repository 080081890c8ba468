import Mathlib.Algebra.Group.Nat.Defs
import MsimeLinux.Lib.PrefixCode
import MsimeLinux.Snapshot.Records

/-!
# The revision of the native dictionary (`NativeDictionaryRevision.cpp`)

What a restore was reviewed against is known by a digest of all records of the dictionary.
The digest is fed strings, each behind its size, and numbers of eight bytes.

- `recordBytes_selfDelimiting`: the bytes of a record can be told from what follows.
- `revisionText_injective`: what is fed for two dictionaries differs if they do.
- `revision_identifies`: where the digest does not collide, it is of the records.
-/

namespace MsimeLinux

open Lib

namespace DictionaryRevision

/-! ## What is fed -/

/-- The loop of `number` (NativeDictionaryRevision.cpp:21): the low bytes first. -/
def numberBytes : Nat → UInt64 → Bytes
  | 0, _ => []
  | n + 1, value => (value &&& 255).toUInt8 :: numberBytes n (value >>> 8)

/-- `number` (NativeDictionaryRevision.cpp:20). -/
def number (value : UInt64) : Bytes := numberBytes 8 value

/-- `text` (NativeDictionaryRevision.cpp:29). -/
def text (value : Bytes) : Bytes := number (UInt64.ofNat value.length) ++ value

/-- A `bool` as a number. -/
def flag (value : Bool) : UInt64 := if value then 1 else 0

/-- The names of the kinds (NativeDictionaryRevision.cpp:42). -/
def kindText : PersonalDictionaryKind → Bytes
  | .pinyin => ascii "pinyin"
  | .wubi => ascii "wubi"
  | .english => ascii "english"
  | .quickPhrase => ascii "quick"

/-- A record (NativeDictionaryRevision.cpp:36). -/
def recordBytes : DictionaryStateRecord → Bytes
  | .entry e =>
    text (ascii "overlay") ++ (text (kindText e.kind) ++ (text e.key ++ (text e.value ++
      (number e.weight.toUInt64 ++ (text e.display ++ (number (flag e.deleted) ++
        number (flag e.userInserted)))))))
  | .position p =>
    text (ascii "position") ++ (text p.context ++ (text p.key ++ (text p.value ++
      number p.position.toInt64.toUInt64)))
  | .selection s =>
    text (ascii "selection") ++ (text s.context ++ (text s.key ++ (text s.value ++
      number s.count.toInt64.toUInt64)))

/-- The size of a string is a number of 64 bits. -/
def Fits (value : Bytes) : Prop := value.length < 2 ^ 64

instance (value : Bytes) : Decidable (Fits value) := inferInstanceAs (Decidable (_ < _))

/-- The strings of a record. -/
def recordTexts : DictionaryStateRecord → List Bytes
  | .entry e => [e.key, e.value, e.display]
  | .position p => [p.context, p.key, p.value]
  | .selection s => [s.context, s.key, s.value]

/-- `stream_dictionary_state` during one call: the records it has, what it throws behind
them, and what the checks answer. -/
structure RevisionRun where
  records : List DictionaryStateRecord
  fits : ∀ r ∈ records, ∀ t ∈ recordTexts r, Fits t
  failure : Option Failure := none
  cancelled : Nat → Bool := fun _ => false

/-- `check_cancelled` (NativeDictionaryRevision.cpp:11). -/
def checkCancelled (cancelled : Bool) : Except Failure Unit :=
  if cancelled then .error ⟨0, true⟩ else .ok ()

/-- The callback, for one record after the other (NativeDictionaryRevision.cpp:33). -/
def feed (cancelled : Nat → Bool) : Nat → Bytes → List DictionaryStateRecord →
    Except Failure Bytes
  | _, fed, [] => .ok fed
  | n, fed, record :: records => do
    checkCancelled (cancelled n)
    feed cancelled (n + 1) (fed ++ recordBytes record) records

/-- `native_dictionary_revision` (NativeDictionaryRevision.cpp:9). -/
def nativeDictionaryRevision (sha256 : Bytes → Bytes) (run : RevisionRun) :
    Except Failure Bytes := do
  checkCancelled (run.cancelled 0)
  let fed ← feed run.cancelled 1 (text (ascii "msime-native-dictionary-state-v1")) run.records
  if let some failure := run.failure then throw failure
  checkCancelled (run.cancelled (run.records.length + 1))
  return sha256 fed

/-- All that is fed for these records. -/
def revisionText (records : List DictionaryStateRecord) : Bytes :=
  text (ascii "msime-native-dictionary-state-v1") ++ records.flatMap recordBytes

/-! ## Numbers and strings -/

theorem numberBytes_length (n : Nat) (value : UInt64) : (numberBytes n value).length = n := by
  induction n generalizing value with
  | zero => rfl
  | succ n ih => rw [numberBytes, List.length_cons, ih]

/-- The bytes of a number determine it, up to their count. -/
theorem numberBytes_inj {n : Nat} {a b : UInt64} (h : numberBytes n a = numberBytes n b) :
    a.toNat % 256 ^ n = b.toNat % 256 ^ n := by
  induction n generalizing a b with
  | zero => rw [Nat.pow_zero, Nat.mod_one, Nat.mod_one]
  | succ n ih =>
    obtain ⟨hlow, hrest⟩ := List.cons.inj h
    have hshift : ∀ v : UInt64, (v >>> 8).toNat = v.toNat / 256 := by
      intro v
      rw [UInt64.toNat_shiftRight, Nat.shiftRight_eq_div_pow]
      rfl
    have hbyte : ∀ v : UInt64, (v &&& 255).toUInt8.toNat = v.toNat % 256 := by
      intro v
      rw [UInt64.toNat_toUInt8, UInt64.toNat_and]
      show (v.toNat &&& 2 ^ 8 - 1) % 256 = _
      rw [Nat.and_two_pow_sub_one_eq_mod, Nat.mod_mod]
    have hlow' := congrArg UInt8.toNat hlow
    rw [hbyte, hbyte] at hlow'
    have hrest' := ih hrest
    rw [hshift, hshift] at hrest'
    rw [Nat.pow_succ', Nat.mod_mul, Nat.mod_mul, hlow', hrest']

/-- A number says where it ends, -/
theorem number_selfDelimiting : SelfDelimiting (fun _ => True) number := by
  refine .of_length (fun value => numberBytes_length 8 value) fun a b _ _ h => ?_
  have hmod := numberBytes_inj h
  have ha := a.toNat_lt
  have hb := b.toNat_lt
  rw [Nat.mod_eq_of_lt (by omega), Nat.mod_eq_of_lt (by omega)] at hmod
  exact UInt64.toNat_inj.mp hmod

/-- a text too, by the length before it. -/
theorem text_selfDelimiting : SelfDelimiting Fits text := by
  have hsize : SelfDelimiting (fun n => n < 2 ^ 64) fun n => number (UInt64.ofNat n) := by
    intro a b ha hb s t h
    obtain ⟨hsame, hrest⟩ := number_selfDelimiting trivial trivial h
    refine ⟨?_, hrest⟩
    rw [← UInt64.toNat_ofNat_of_lt' ha, ← UInt64.toNat_ofNat_of_lt' hb, hsame]
  exact hsize.of_header

/-! ## Records -/

theorem kindText_fits (kind : PersonalDictionaryKind) : Fits (kindText kind) := by
  cases kind <;> decide

/-- Kinds are told apart by their names. -/
theorem kindText_injective : Function.Injective kindText := by
  intro a b h
  cases a <;> cases b <;> first | rfl | exact absurd h (by decide)

/-- Flags are told apart by their values. -/
theorem flag_injective : Function.Injective flag := by
  intro a b h
  cases a <;> cases b <;> first | rfl | exact absurd h (by decide)

/-- What a position and a selection have in common. -/
theorem keyed_inj {context key value context' key' value' : Bytes} {n n' : UInt64}
    (h₁ : Fits context) (h₂ : Fits key) (h₃ : Fits value) (h₁' : Fits context') (h₂' : Fits key')
    (h₃' : Fits value') {s t : Bytes}
    (h : text context ++ (text key ++ (text value ++ (number n ++ s))) =
      text context' ++ (text key' ++ (text value' ++ (number n' ++ t)))) :
    context = context' ∧ key = key' ∧ value = value' ∧ n = n' ∧ s = t := by
  obtain ⟨hcontext, h⟩ := text_selfDelimiting h₁ h₁' h
  obtain ⟨hkey, h⟩ := text_selfDelimiting h₂ h₂' h
  obtain ⟨hvalue, h⟩ := text_selfDelimiting h₃ h₃' h
  obtain ⟨hn, h⟩ := number_selfDelimiting trivial trivial h
  exact ⟨hcontext, hkey, hvalue, hn, h⟩

theorem int64_toUInt64_inj {a b : Int64} (h : a.toUInt64 = b.toUInt64) : a = b :=
  Int64.toBitVec.inj (congrArg UInt64.toBitVec h)

theorem int32_toUInt64_inj {a b : Int32} (h : a.toInt64.toUInt64 = b.toInt64.toUInt64) :
    a = b := by
  have hwide := congrArg Int64.toInt (int64_toUInt64_inj h)
  rw [Int32.toInt_toInt64, Int32.toInt_toInt64] at hwide
  exact Int32.toInt.inj hwide

/-- The fields of an overlay, one after the other. -/
theorem entry_inj {e e' : DictionaryStateEntry} {s t : Bytes}
    (he : ∀ x ∈ recordTexts (.entry e), Fits x) (he' : ∀ x ∈ recordTexts (.entry e'), Fits x)
    (h : recordBytes (.entry e) ++ s = recordBytes (.entry e') ++ t) : e = e' ∧ s = t := by
  obtain ⟨hkey, hvalue, hdisplay⟩ : Fits e.key ∧ Fits e.value ∧ Fits e.display := by
    simpa [recordTexts] using he
  obtain ⟨hkey', hvalue', hdisplay'⟩ : Fits e'.key ∧ Fits e'.value ∧ Fits e'.display := by
    simpa [recordTexts] using he'
  simp only [recordBytes, List.append_assoc] at h
  obtain ⟨-, h⟩ := text_selfDelimiting (by decide) (by decide) h
  obtain ⟨h₁, h⟩ := text_selfDelimiting (kindText_fits _) (kindText_fits _) h
  obtain ⟨h₂, h⟩ := text_selfDelimiting hkey hkey' h
  obtain ⟨h₃, h⟩ := text_selfDelimiting hvalue hvalue' h
  obtain ⟨h₄, h⟩ := number_selfDelimiting trivial trivial h
  obtain ⟨h₅, h⟩ := text_selfDelimiting hdisplay hdisplay' h
  obtain ⟨h₆, h⟩ := number_selfDelimiting trivial trivial h
  obtain ⟨h₇, h⟩ := number_selfDelimiting trivial trivial h
  refine ⟨?_, h⟩
  cases e
  cases e'
  congr
  · exact kindText_injective h₁
  · exact int64_toUInt64_inj h₄
  · exact flag_injective h₆
  · exact flag_injective h₇

/-- The name of the category comes first. -/
def recordTag : DictionaryStateRecord → Bytes
  | .entry _ => ascii "overlay"
  | .position _ => ascii "position"
  | .selection _ => ascii "selection"

/-- Every record begins with the name of its category. -/
theorem recordBytes_tag (r : DictionaryStateRecord) :
    ∃ rest, recordBytes r = text (recordTag r) ++ rest := by
  cases r <;> exact ⟨_, rfl⟩

theorem recordTag_fits (r : DictionaryStateRecord) : Fits (recordTag r) := by
  have hall : Fits (ascii "overlay") ∧ Fits (ascii "position") ∧ Fits (ascii "selection") := by
    decide
  cases r with
  | entry => exact hall.1
  | position => exact hall.2.1
  | selection => exact hall.2.2

/-- A whole record says where it ends as well. -/
theorem recordBytes_selfDelimiting :
    SelfDelimiting (fun r => ∀ t ∈ recordTexts r, Fits t) recordBytes := by
  intro a b ha hb s t h
  -- the first text of both says which kind of record it is
  have htag : recordTag a = recordTag b := by
    obtain ⟨_, hrest⟩ := recordBytes_tag a
    obtain ⟨_, hrest'⟩ := recordBytes_tag b
    rw [hrest, hrest', List.append_assoc, List.append_assoc] at h
    exact (text_selfDelimiting (recordTag_fits a) (recordTag_fits b) h).1
  have hnames : ascii "overlay" ≠ ascii "position" ∧ ascii "overlay" ≠ ascii "selection" ∧
      ascii "position" ≠ ascii "selection" := by
    decide
  cases a with
  | entry e =>
    cases b with
    | entry e' =>
      obtain ⟨rfl, hrest⟩ := entry_inj ha hb h
      exact ⟨rfl, hrest⟩
    | position p => exact absurd htag hnames.1
    | selection c => exact absurd htag hnames.2.1
  | position p =>
    cases b with
    | entry e => exact absurd htag.symm hnames.1
    | position p' =>
      simp only [recordTexts, List.forall_mem_cons] at ha hb
      simp only [recordBytes, List.append_assoc] at h
      obtain ⟨-, h⟩ := text_selfDelimiting (by decide) (by decide) h
      -- then the texts of the record in turn, and its number
      obtain ⟨h₁, h₂, h₃, h₄, hrest⟩ :=
        keyed_inj ha.1 ha.2.1 ha.2.2.1 hb.1 hb.2.1 hb.2.2.1 h
      refine ⟨?_, hrest⟩
      cases p
      cases p'
      congr
      exact int32_toUInt64_inj h₄
    | selection c => exact absurd htag hnames.2.2
  | selection c =>
    cases b with
    | entry e => exact absurd htag.symm hnames.2.1
    | position p => exact absurd htag.symm hnames.2.2
    | selection c' =>
      simp only [recordTexts, List.forall_mem_cons] at ha hb
      simp only [recordBytes, List.append_assoc] at h
      obtain ⟨-, h⟩ := text_selfDelimiting (by decide) (by decide) h
      obtain ⟨h₁, h₂, h₃, h₄, hrest⟩ :=
        keyed_inj ha.1 ha.2.1 ha.2.2.1 hb.1 hb.2.1 hb.2.2.1 h
      refine ⟨?_, hrest⟩
      cases c
      cases c'
      congr
      exact int32_toUInt64_inj h₄

/-! ## The digest -/

/-- What is fed to the digest is the records, one after the other. -/
theorem feed_eq_ok {cancelled : Nat → Bool} {n : Nat} {fed fed' : Bytes}
    {records : List DictionaryStateRecord} (h : feed cancelled n fed records = .ok fed') :
    fed' = fed ++ records.flatMap recordBytes := by
  induction records generalizing n fed with
  | nil => rw [← Except.ok.inj h, List.flatMap_nil, List.append_nil]
  | cons r records ih =>
    rw [feed, checkCancelled] at h
    split at h
    · cases h
    · rw [List.flatMap_cons, ← List.append_assoc]
      exact ih h

/-- A revision is the digest of what all records come to. -/
theorem nativeDictionaryRevision_eq_ok {sha256 : Bytes → Bytes} {run : RevisionRun}
    {digest : Bytes} (h : nativeDictionaryRevision sha256 run = .ok digest) :
    digest = sha256 (revisionText run.records) := by
  unfold nativeDictionaryRevision checkCancelled at h
  split at h
  · cases h
  · cases hfeed : feed run.cancelled 1 (text (ascii "msime-native-dictionary-state-v1"))
        run.records with
    | error e =>
      rw [hfeed] at h
      cases h
    | ok fed =>
      rw [hfeed] at h
      cases hfailure : run.failure with
      | some failure =>
        rw [hfailure] at h
        cases h
      | none =>
        rw [hfailure] at h
        split at h
        · cases h
        · rw [revisionText, ← feed_eq_ok hfeed]
          exact (Except.ok.inj h).symm

/-- **The text that is hashed** determines the records. -/
theorem revisionText_injective {records records' : List DictionaryStateRecord}
    (h : ∀ r ∈ records, ∀ t ∈ recordTexts r, Fits t)
    (h' : ∀ r ∈ records', ∀ t ∈ recordTexts r, Fits t)
    (heq : revisionText records = revisionText records') : records = records' := by
  have hne : ∀ r, recordBytes r ≠ [] := by
    intro r hnil
    obtain ⟨rest, hrest⟩ := recordBytes_tag r
    rw [hrest] at hnil
    have hlength := congrArg List.length hnil
    rw [List.length_append, text, List.length_append, number, numberBytes_length] at hlength
    simp at hlength
  exact recordBytes_selfDelimiting.flatMap hne h h' (List.append_cancel_left heq)

/-- **The revision identifies the records.** What is fed for two dictionaries is the same
only if they have the same records in the same order; so where SHA-256 does not collide on
it, equal revisions are of equal records. -/
theorem revision_identifies (sha256 : Bytes → Bytes) (run run' : RevisionRun) (digest : Bytes)
    (hfree : sha256 (revisionText run.records) = sha256 (revisionText run'.records) →
      revisionText run.records = revisionText run'.records)
    (h : nativeDictionaryRevision sha256 run = .ok digest)
    (h' : nativeDictionaryRevision sha256 run' = .ok digest) : run.records = run'.records := by
  rw [nativeDictionaryRevision_eq_ok h'] at h
  exact revisionText_injective run.fits run'.fits (hfree (nativeDictionaryRevision_eq_ok h).symm)

/-- A dictionary with records of every category. -/
def fullDictionary : List DictionaryStateRecord :=
  [.entry ⟨.pinyin, ascii "ni", utf8 "你", [], 10, false, true⟩,
    .entry ⟨.wubi, ascii "wq", utf8 "你", [], 0, true, false⟩,
    .entry ⟨.english, ascii "colour", ascii "colour", ascii "Colour", 5, false, true⟩,
    .entry ⟨.quickPhrase, ascii "sig", ascii "msime", [], 10, false, true⟩,
    .position ⟨ascii "ni", ascii "ni", utf8 "你", 1⟩,
    .selection ⟨ascii "ni", ascii "ni", utf8 "你", 3⟩]

/-- The records of the example are within the limits. -/
theorem fullDictionary_fits : ∀ r ∈ fullDictionary, ∀ t ∈ recordTexts r, Fits t := by
  decide +kernel

/-- It is read, and is read again by a call that is cancelled once it has made its checks. -/
def fullRun : RevisionRun := { records := fullDictionary, fits := fullDictionary_fits }

def fullRunAgain : RevisionRun := { fullRun with cancelled := (8 ≤ ·) }

/-- The SHA-256 of what is fed. -/
def fullRevision : Bytes :=
  ascii "9248138f9e03666115380d380201e7e153b59ef4975d40fa354c87c5e640a33b"

theorem revision_identifies_full : fullRun.records = fullRunAgain.records :=
  revision_identifies (fun _ => fullRevision) fullRun fullRunAgain fullRevision
    (fun _ => rfl) (by rfl) (by rfl)

end DictionaryRevision

end MsimeLinux
