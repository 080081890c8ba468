import Mathlib.Tactic.Common
import Mathlib.Data.List.Pairwise

/-!
# Records kept in a key file

A key file holds typed values under a group and a key. `KeyFiles` is what a
key-file library offers, `KeyFiles.Lawful` what its users rely on. A record is
kept in such a file through a table of `KeyField`s: each names the slot, the codec
and the component of the record it stands for.

- `holds_saveFields`: after saving, every field of the table holds its value.
- `same_saveFields`, `same_removeKeys`: nothing else changes.
- `reloaded_removeKeys`: a key that was dropped is back in the written file if it was there twice.
- `loadFields_eq`: loading a file that holds a record copies it field by field.
-/

namespace Lib

/-- The kinds of value a key may have. -/
inductive Kind where
  | string
  | integer
  | boolean
  deriving DecidableEq, Repr

/-- The values of a kind. -/
abbrev Kind.Value : Kind → Type
  | .string => List UInt8
  | .integer => Int
  | .boolean => Bool

/-- Where a value stands: its group and its key. -/
abbrev Slot := List UInt8 × List UInt8

/-- A name of lower-case letters and dashes, which every format can write. -/
def plainName (name : List UInt8) : Bool :=
  !name.isEmpty && name.all fun c => c == 45 || 97 ≤ c && c ≤ 122

/-- A slot with plain names. -/
def Slot.plain (slot : Slot) : Bool := plainName slot.1 && plainName slot.2

/-- A key-file library: reading and writing whole files, and the values of one
file by slot. -/
structure KeyFiles where
  /-- a file in memory -/
  File : Type
  empty : File
  parse : List UInt8 → Option File
  toData : File → Option (List UInt8)
  hasGroup : File → List UInt8 → Bool
  hasKey : File → Slot → Bool
  /-- how many lines a key has; the last one is its value, the others stay in the file -/
  pairs : File → Slot → Nat
  get : File → Slot → (kind : Kind) → Option kind.Value
  set : File → Slot → (kind : Kind) → kind.Value → File
  removeKey : File → Slot → File

namespace KeyFiles

variable (K : KeyFiles)

/-- Two files say the same of a slot. -/
def Same (file file' : K.File) (slot : Slot) : Prop :=
  K.hasKey file slot = K.hasKey file' slot ∧ K.pairs file slot = K.pairs file' slot ∧
    ∀ kind, K.get file slot kind = K.get file' slot kind

/-- The key is there if it has a line. That is so in a file that was read; after a key was
removed there may be lines of it that a file in memory knows nothing of. -/
def Indexed (file : K.File) (slot : Slot) : Prop :=
  K.hasKey file slot = true ↔ 0 < K.pairs file slot

/-- What the users of the library rely on, for the values they store. -/
structure Lawful (Storable : (kind : Kind) → kind.Value → Prop) : Prop where
  /-- a value that was set is there -/
  hasKey_set : ∀ {slot : Slot}, slot.plain = true → ∀ (file : K.File) (kind : Kind)
    (value : kind.Value), K.hasKey (K.set file slot kind value) slot = true
  get_set : ∀ {slot : Slot}, slot.plain = true → ∀ (file : K.File) {kind : Kind}
    {value : kind.Value}, Storable kind value →
    K.get (K.set file slot kind value) slot kind = some value
  /-- a key that was removed is not, whether lines of it are left or not -/
  hasKey_removeKey : ∀ {slot : Slot}, slot.plain = true → ∀ file : K.File,
    K.hasKey (K.removeKey file slot) slot = false
  pairs_removeKey : ∀ {slot : Slot}, slot.plain = true → ∀ file : K.File,
    K.pairs (K.removeKey file slot) slot =
      if K.hasKey file slot then K.pairs file slot - 1 else K.pairs file slot
  get_missing : ∀ {file : K.File} {slot : Slot}, K.hasKey file slot = false →
    ∀ kind, K.get file slot kind = none
  /-- the other slots are left alone -/
  same_set : ∀ {slot other : Slot}, slot.plain = true → other ≠ slot → ∀ (file : K.File)
    (kind : Kind) (value : kind.Value), K.Same (K.set file slot kind value) file other
  same_removeKey : ∀ {slot other : Slot}, slot.plain = true → other ≠ slot → ∀ file : K.File,
    K.Same (K.removeKey file slot) file other
  /-- groups stay -/
  hasGroup_set : ∀ {slot : Slot}, slot.plain = true → ∀ (file : K.File) (kind : Kind)
    (value : kind.Value) (group : List UInt8), K.hasGroup file group = true →
    K.hasGroup (K.set file slot kind value) group = true
  hasGroup_removeKey : ∀ {slot : Slot}, slot.plain = true → ∀ (file : K.File)
    (group : List UInt8), K.hasGroup file group = true →
    K.hasGroup (K.removeKey file slot) group = true
  /-- a file that was read knows of every line -/
  indexed_parse : ∀ {data : List UInt8} {file : K.File}, K.parse data = some file →
    ∀ slot, K.Indexed file slot
  missing_empty : ∀ slot, K.hasKey K.empty slot = false
  pairs_empty : ∀ slot, K.pairs K.empty slot = 0
  /-- a file that was written is read with the lines it has, and the keys it has are as they
  were -/
  parse_toData : ∀ {file : K.File} {data : List UInt8}, K.toData file = some data →
    ∃ file', K.parse data = some file' ∧ (∀ slot, K.pairs file' slot = K.pairs file slot) ∧
      (∀ slot, K.hasKey file slot = true → K.Same file' file slot) ∧
      ∀ group, K.hasGroup file' group = K.hasGroup file group

variable {K} {file file' file'' : K.File} {slot : Slot}

theorem Same.refl (file : K.File) (slot : Slot) : K.Same file file slot :=
  ⟨rfl, rfl, fun _ => rfl⟩

theorem Same.symm (h : K.Same file file' slot) : K.Same file' file slot :=
  ⟨h.1.symm, h.2.1.symm, fun kind => (h.2.2 kind).symm⟩

theorem Same.trans (h : K.Same file file' slot) (h' : K.Same file' file'' slot) :
    K.Same file file'' slot :=
  ⟨h.1.trans h'.1, h.2.1.trans h'.2.1, fun kind => (h.2.2 kind).trans (h'.2.2 kind)⟩

theorem Same.indexed (h : K.Same file' file slot) (hfile : K.Indexed file slot) :
    K.Indexed file' slot := by
  unfold Indexed
  rw [h.1, h.2.1]
  exact hfile

end KeyFiles

/-! ## Fields -/

/-- How values of a type are written as values of a kind. -/
structure Codec (kind : Kind) (α : Type) where
  encode : α → kind.Value
  decode : kind.Value → Option α

namespace Codec

/-- A flag. -/
def boolean : Codec .boolean Bool := ⟨id, some⟩

/-- A number between two bounds. -/
def integer (minimum maximum : Int) : Codec .integer Int :=
  ⟨id, fun value => if minimum ≤ value ∧ value ≤ maximum then some value else none⟩

/-- A count between two bounds. -/
def natural (minimum maximum : Int) : Codec .integer Nat :=
  ⟨fun n => n, fun value => if minimum ≤ value ∧ value ≤ maximum then some value.toNat else none⟩

/-- A text the validator accepts. -/
def text (valid : List UInt8 → Bool) : Codec .string (List UInt8) :=
  ⟨id, fun value => if valid value then some value else none⟩

/-- A value known by its name. -/
def named {α : Type} (name : α → List UInt8) (parse : List UInt8 → Option α) : Codec .string α :=
  ⟨name, parse⟩

end Codec

/-- One component of a record, and the slot it is kept in. -/
structure KeyField (S : Type) where
  slot : Slot
  kind : Kind
  Carrier : Type
  codec : Codec kind Carrier
  get : S → Carrier
  set : Carrier → S → S

namespace KeyField

variable {S : Type}

/-- The value a record has in the field's slot. -/
def written (f : KeyField S) (s : S) : f.kind.Value := f.codec.encode (f.get s)

/-- The record `t` with this component of `s`. -/
def copy (f : KeyField S) (s t : S) : S := f.set (f.get s) t

/-- What the field writes for a record, it reads back. -/
def Readable (f : KeyField S) (s : S) : Prop := f.codec.decode (f.written s) = some (f.get s)

/-- Read one field: a missing key leaves the record as it is, and so does a value
that is not one, which is reported. -/
def load (K : KeyFiles) (file : K.File) (state : S × Bool) (f : KeyField S) : S × Bool :=
  if K.hasKey file f.slot then
    match (K.get file f.slot f.kind).bind f.codec.decode with
    | some value => (f.set value state.1, state.2)
    | none => (state.1, true)
  else state

/-- What a file says of the field, if it says something that is a value. -/
def value (K : KeyFiles) (file : K.File) (f : KeyField S) : Option f.Carrier :=
  if K.hasKey file f.slot then (K.get file f.slot f.kind).bind f.codec.decode else none

/-- Setting a component to what it is changes nothing. -/
def Lawful (f : KeyField S) : Prop := ∀ t, f.set (f.get t) t = t

theorem load_fst {K : KeyFiles} {file : K.File} {f : KeyField S} (hf : f.Lawful)
    (state : S × Bool) :
    (f.load K file state).1 = f.set ((f.value K file).getD (f.get state.1)) state.1 := by
  unfold load value
  by_cases hkey : K.hasKey file f.slot = true
  · rw [if_pos hkey, if_pos hkey]
    cases (K.get file f.slot f.kind).bind f.codec.decode with
    | none => exact (hf state.1).symm
    | some value => rfl
  · rw [if_neg hkey, if_neg hkey]
    exact (hf state.1).symm

/-- The file holds the record's value of the field. -/
def Holds (K : KeyFiles) (file : K.File) (s : S) (f : KeyField S) : Prop :=
  K.hasKey file f.slot = true ∧ K.get file f.slot f.kind = some (f.written s)

theorem load_of_holds {K : KeyFiles} {file : K.File} {f : KeyField S} {s : S}
    (hholds : f.Holds K file s) (hread : f.Readable s) (state : S × Bool) :
    f.load K file state = (f.copy s state.1, state.2) := by
  have hvalue : (K.get file f.slot f.kind).bind f.codec.decode = some (f.get s) := by
    rw [hholds.2, Option.bind_some]
    exact hread
  unfold load
  rw [if_pos hholds.1, hvalue]
  rfl

theorem Holds.of_same {K : KeyFiles} {file file' : K.File} {f : KeyField S} {s : S}
    (h : f.Holds K file s) (hsame : K.Same file' file f.slot) : f.Holds K file' s :=
  ⟨hsame.1.trans h.1, (hsame.2.2 f.kind).trans h.2⟩

end KeyField

/-! ## Tables of fields -/

variable {S : Type} (K : KeyFiles)

/-- Read every field of a table into a record; the flag tells whether some value
was refused. -/
def loadFields (fields : List (KeyField S)) (file : K.File) (s : S) : S × Bool :=
  fields.foldl (fun state f => f.load K file state) (s, false)

/-- Write every field of a table. -/
def saveFields (fields : List (KeyField S)) (s : S) (file : K.File) : K.File :=
  fields.foldl (fun file f => K.set file f.slot f.kind (f.written s)) file

/-- Drop keys. -/
def removeKeys (slots : List Slot) (file : K.File) : K.File :=
  slots.foldl K.removeKey file

/-- The record `t` with every component of `s` the table covers. -/
def copyFields (fields : List (KeyField S)) (s t : S) : S :=
  fields.foldl (fun t f => f.copy s t) t

variable {K}

/-- The keys a table owns, as a condition on a slot. -/
def Owned (fields : List (KeyField S)) (slot : Slot) : Prop := ∃ f ∈ fields, f.slot = slot

/-- A table whose fields keep out of each other's way, under plain names. -/
structure WellNamed (fields : List (KeyField S)) : Prop where
  plain : ∀ f ∈ fields, f.slot.plain = true
  distinct : fields.Pairwise fun f g => f.slot ≠ g.slot

theorem WellNamed.tail {f : KeyField S} {fields : List (KeyField S)} (h : WellNamed (f :: fields)) :
    WellNamed fields :=
  ⟨fun g hg => h.plain g (List.mem_cons_of_mem _ hg), (List.pairwise_cons.mp h.distinct).2⟩

/-- **Loading copies**: a file that holds every field of `s` gives those fields of
`s`, and nothing to report. -/
theorem loadFields_eq {fields : List (KeyField S)} {file : K.File} {s : S}
    (hholds : ∀ f ∈ fields, f.Holds K file s) (hread : ∀ f ∈ fields, f.Readable s) (t : S) :
    loadFields K fields file t = (copyFields fields s t, false) := by
  unfold loadFields copyFields
  induction fields generalizing t with
  | nil => rfl
  | cons f fields ih =>
    rw [List.foldl_cons, List.foldl_cons,
      KeyField.load_of_holds (hholds f List.mem_cons_self) (hread f List.mem_cons_self)]
    exact ih (fun g hg => hholds g (List.mem_cons_of_mem _ hg))
      (fun g hg => hread g (List.mem_cons_of_mem _ hg)) _

/-- The record that comes out: every component the file has a value for is set to
it. -/
theorem loadFields_fst {fields : List (KeyField S)} (hfields : ∀ f ∈ fields, f.Lawful)
    (file : K.File) (t : S) :
    (loadFields K fields file t).1 =
      fields.foldl (fun t f => f.set ((f.value K file).getD (f.get t)) t) t := by
  unfold loadFields
  suffices h : ∀ state : S × Bool,
      (fields.foldl (fun state f => f.load K file state) state).1 =
        fields.foldl (fun t f => f.set ((f.value K file).getD (f.get t)) t) state.1 from
    h (t, false)
  induction fields with
  | nil => exact fun _ => rfl
  | cons f fields ih =>
    intro state
    rw [List.foldl_cons, List.foldl_cons, ← KeyField.load_fst (hfields f List.mem_cons_self)]
    exact ih (fun g hg => hfields g (List.mem_cons_of_mem _ hg)) _

/-- Loading one table after the other. -/
theorem loadFields_append {fields fields' : List (KeyField S)}
    (hfields : ∀ f ∈ fields ++ fields', f.Lawful) (file : K.File) (t : S) :
    (loadFields K (fields ++ fields') file t).1 =
      (loadFields K fields' file (loadFields K fields file t).1).1 := by
  rw [loadFields_fst hfields, List.foldl_append,
    loadFields_fst fun f hf => hfields f (List.mem_append_right _ hf),
    loadFields_fst fun f hf => hfields f (List.mem_append_left _ hf)]

/-- What every value that may come out of a codec preserves, loading preserves. -/
theorem loadFields_invariant {fields : List (KeyField S)} {P : S → Prop} (file : K.File)
    (hset : ∀ f ∈ fields, ∀ value v, f.codec.decode value = some v → ∀ t, P t → P (f.set v t))
    {t : S} (ht : P t) : P (loadFields K fields file t).1 := by
  unfold loadFields
  suffices h : ∀ state : S × Bool, P state.1 →
      P (fields.foldl (fun state f => f.load K file state) state).1 from h (t, false) ht
  induction fields with
  | nil => exact fun _ h => h
  | cons f fields ih =>
    intro state hstate
    refine ih (fun g hg => hset g (List.mem_cons_of_mem _ hg)) _ ?_
    show P (f.load K file state).1
    unfold KeyField.load
    split
    · split
      · next v hv =>
        obtain ⟨value, -, hdecode⟩ := Option.bind_eq_some_iff.mp hv
        exact hset f List.mem_cons_self value v hdecode _ hstate
      · exact hstate
    · exact hstate

/-- Saving looks at what the fields write only. -/
theorem saveFields_congr {fields : List (KeyField S)} {s s' : S}
    (h : ∀ f ∈ fields, f.written s = f.written s') (file : K.File) :
    saveFields K fields s file = saveFields K fields s' file := by
  unfold saveFields
  induction fields generalizing file with
  | nil => rfl
  | cons f fields ih =>
    rw [List.foldl_cons, List.foldl_cons, h f List.mem_cons_self]
    exact ih (fun g hg => h g (List.mem_cons_of_mem _ hg)) _

section Lawful

variable {Storable : (kind : Kind) → kind.Value → Prop} (hK : K.Lawful Storable)
include hK

/-- Saving leaves alone what the table does not own. -/
theorem same_saveFields {fields : List (KeyField S)} (hnamed : WellNamed fields) {slot : Slot}
    (hslot : ¬ Owned fields slot) (s : S) (file : K.File) :
    K.Same (saveFields K fields s file) file slot := by
  unfold saveFields
  induction fields generalizing file with
  | nil => exact .refl _ _
  | cons f fields ih =>
    rw [List.foldl_cons]
    have hne : slot ≠ f.slot := fun h => hslot ⟨f, List.mem_cons_self, h.symm⟩
    have hrest : ¬ Owned fields slot := fun ⟨g, hg, hgs⟩ =>
      hslot ⟨g, List.mem_cons_of_mem _ hg, hgs⟩
    exact (ih hnamed.tail hrest _).trans
      (hK.same_set (hnamed.plain f List.mem_cons_self) hne file f.kind _)

/-- **Saving stores**: every field of the table holds its value afterwards. -/
theorem holds_saveFields {fields : List (KeyField S)} (hnamed : WellNamed fields) {s : S}
    (hstorable : ∀ f ∈ fields, Storable f.kind (f.written s)) (file : K.File) :
    ∀ f ∈ fields, f.Holds K (saveFields K fields s file) s := by
  induction fields generalizing file with
  | nil => simp
  | cons f fields ih =>
    intro g hg
    rcases List.mem_cons.mp hg with rfl | hg
    · -- the later fields do not touch the slot that was just written
      have hfree : ¬ Owned fields g.slot := fun ⟨other, hother, hslot⟩ =>
        (List.pairwise_cons.mp hnamed.distinct).1 other hother hslot.symm
      have hplain := hnamed.plain g List.mem_cons_self
      have hwritten : g.Holds K (K.set file g.slot g.kind (g.written s)) s :=
        ⟨hK.hasKey_set hplain file g.kind _,
          hK.get_set hplain file (hstorable g List.mem_cons_self)⟩
      exact hwritten.of_same (same_saveFields hK hnamed.tail hfree s _)
    · exact ih hnamed.tail (fun g hg => hstorable g (List.mem_cons_of_mem _ hg)) _ g hg

theorem hasGroup_saveFields {fields : List (KeyField S)} (hnamed : WellNamed fields) (s : S)
    {file : K.File} {group : List UInt8} (h : K.hasGroup file group = true) :
    K.hasGroup (saveFields K fields s file) group = true := by
  unfold saveFields
  induction fields generalizing file with
  | nil => exact h
  | cons f fields ih =>
    exact ih hnamed.tail
      (hK.hasGroup_set (hnamed.plain f List.mem_cons_self) file f.kind _ group h)

theorem same_removeKeys {slots : List Slot} (hplain : ∀ slot ∈ slots, slot.plain = true)
    {other : Slot} (hother : other ∉ slots) (file : K.File) :
    K.Same (removeKeys K slots file) file other := by
  unfold removeKeys
  induction slots generalizing file with
  | nil => exact .refl _ _
  | cons slot slots ih =>
    obtain ⟨hne, hrest⟩ : other ≠ slot ∧ other ∉ slots := by simpa using hother
    exact (ih (fun g hg => hplain g (List.mem_cons_of_mem _ hg)) hrest _).trans
      (hK.same_removeKey (hplain slot List.mem_cons_self) hne file)

/-- One line of each key is dropped, the last one. -/
theorem pairs_removeKeys {slots : List Slot} (hplain : ∀ slot ∈ slots, slot.plain = true)
    {file : K.File} {slot : Slot} (hslot : slot ∈ slots) (hfile : K.Indexed file slot) :
    K.pairs (removeKeys K slots file) slot = K.pairs file slot - 1 := by
  -- a key that is not there any more keeps the lines it has
  have hgone : ∀ {slots : List Slot}, (∀ other ∈ slots, other.plain = true) →
      ∀ {file : K.File}, K.hasKey file slot = false →
        K.pairs (removeKeys K slots file) slot = K.pairs file slot := by
    intro slots hplain file hmissing
    unfold removeKeys
    induction slots generalizing file with
    | nil => rfl
    | cons other slots ih =>
      have hrest := fun g hg => hplain g (List.mem_cons_of_mem _ hg)
      by_cases hother : slot = other
      · subst hother
        have hpairs := hK.pairs_removeKey (hplain slot List.mem_cons_self) file
        rw [hmissing] at hpairs
        exact (ih hrest (hK.hasKey_removeKey (hplain slot List.mem_cons_self) file)).trans hpairs
      · have hsame := hK.same_removeKey (hplain other List.mem_cons_self) hother file
        exact (ih hrest (hsame.1.trans hmissing)).trans hsame.2.1
  unfold removeKeys
  induction slots generalizing file with
  | nil => cases hslot
  | cons other slots ih =>
    have hrest := fun g hg => hplain g (List.mem_cons_of_mem _ hg)
    by_cases hother : slot = other
    · subst hother
      refine (hgone hrest (hK.hasKey_removeKey (hplain slot List.mem_cons_self) file)).trans ?_
      rw [hK.pairs_removeKey (hplain slot List.mem_cons_self)]
      split
      · rfl
      · next hmissing => exact (Nat.eq_zero_of_not_pos (mt hfile.mpr hmissing)).symm ▸ rfl
    · have hsame := hK.same_removeKey (hplain other List.mem_cons_self) hother file
      have hmem : slot ∈ slots := (List.mem_cons.mp hslot).resolve_left hother
      exact (ih hrest hmem (hsame.indexed hfile)).trans (by rw [hsame.2.1])

/-- **A key that was dropped is back** in the file that is written, if it was given twice. -/
theorem reloaded_removeKeys {slots : List Slot} (hplain : ∀ slot ∈ slots, slot.plain = true)
    {file file' : K.File} {slot : Slot} (hslot : slot ∈ slots) (hfile : K.Indexed file slot)
    {data : List UInt8} (hdata : K.toData (removeKeys K slots file) = some data)
    (hparse : K.parse data = some file') :
    K.hasKey file' slot = true ↔ 1 < K.pairs file slot := by
  obtain ⟨read, hread, hpairs, -, -⟩ := hK.parse_toData hdata
  obtain rfl := Option.some.inj (hread.symm.trans hparse)
  refine (hK.indexed_parse hparse slot).trans ?_
  rw [hpairs, pairs_removeKeys hK hplain hslot hfile]
  omega

/-- A key that nobody dropped is in the written file as it was. -/
theorem same_reloaded {file file' : K.File} {data : List UInt8} {slot : Slot}
    (hfile : K.Indexed file slot) (hdata : K.toData file = some data)
    (hparse : K.parse data = some file') : K.Same file' file slot := by
  obtain ⟨read, hread, hpairs, hsame, -⟩ := hK.parse_toData hdata
  obtain rfl := Option.some.inj (hread.symm.trans hparse)
  cases hkey : K.hasKey file slot with
  | true => exact hsame slot hkey
  | false =>
    have hnone : K.hasKey read slot = false := by
      refine Bool.eq_false_iff.mpr fun hread => ?_
      have hpair := (hK.indexed_parse hparse slot).mp hread
      rw [hpairs slot] at hpair
      exact Bool.false_ne_true (hkey.symm.trans (hfile.mpr hpair))
    refine ⟨hnone.trans hkey.symm, hpairs slot, fun kind => ?_⟩
    rw [hK.get_missing hnone, hK.get_missing hkey]

theorem hasGroup_removeKeys {slots : List Slot} (hplain : ∀ slot ∈ slots, slot.plain = true)
    {file : K.File} {group : List UInt8} (h : K.hasGroup file group = true) :
    K.hasGroup (removeKeys K slots file) group = true := by
  unfold removeKeys
  induction slots generalizing file with
  | nil => exact h
  | cons slot slots ih =>
    exact ih (fun g hg => hplain g (List.mem_cons_of_mem _ hg))
      (hK.hasGroup_removeKey (hplain slot List.mem_cons_self) file group h)

end Lawful

end Lib
