import Mathlib.Tactic.Common

/-!
# Byte strings

A `std::string` is a list of bytes. Literals of the source are written through
`ascii`, or `utf8` where they are not ASCII.

- `utf8Validate`: `g_utf8_validate`, by `utf8Validate_iff`.
-/

namespace MsimeLinux

/-- `std::string`: bytes. -/
abbrev Bytes := List UInt8

instance Bytes.lawfulBEq : LawfulBEq Bytes := inferInstance

/-- The bytes of an ASCII literal. -/
def ascii (s : String) : Bytes := s.toList.map fun c => UInt8.ofNat c.toNat

/-- `'\n'`. -/
def newline : UInt8 := 10

/-- The bytes of a literal. -/
def utf8 (s : String) : Bytes := s.toList.flatMap String.utf8EncodeChar

/-- Bytes that are the UTF-8 encoding of some characters. -/
def ValidUtf8 (text : Bytes) : Prop :=
  ∃ chars : List Char, text = chars.flatMap String.utf8EncodeChar

/-- `g_utf8_validate`. It also refuses the NUL byte, which every caller here looks
for first. -/
def utf8Validate (text : Bytes) : Bool := text.toByteArray.validateUTF8

theorem utf8Validate_iff {text : Bytes} : utf8Validate text = true ↔ ValidUtf8 text := by
  have hencode : ∀ chars : List Char, text.toByteArray = chars.utf8Encode ↔
      text = chars.flatMap String.utf8EncodeChar := fun chars => List.toByteArray_inj
  rw [utf8Validate, ByteArray.validateUTF8_eq_true_iff]
  constructor
  · rintro ⟨chars, h⟩
    exact ⟨chars, (hencode chars).mp h⟩
  · rintro ⟨chars, h⟩
    exact ⟨chars, (hencode chars).mpr h⟩

theorem utf8EncodeChar_ofNat : ∀ n : Fin 128,
    String.utf8EncodeChar (Char.ofNat n) = [UInt8.ofNat n] := by
  decide

theorem validUtf8_of_ascii {text : Bytes} (h : ∀ c ∈ text, c < 128) : ValidUtf8 text := by
  refine ⟨text.map fun c => Char.ofNat c.toNat, ?_⟩
  induction text with
  | nil => rfl
  | cons c text ih =>
    rw [List.map_cons, List.flatMap_cons, ← ih fun d hd => h d (List.mem_cons_of_mem _ hd)]
    have hc : c.toNat < 128 := h c List.mem_cons_self
    rw [utf8EncodeChar_ofNat ⟨c.toNat, hc⟩, UInt8.ofNat_toNat]
    rfl

end MsimeLinux
