import Mathlib.Data.List.GetD
import Mathlib.Tactic.Common

/-!
# Where characters begin in a UTF-8 text

The encoding of a character is one byte that begins it and bytes that continue it, and its
first byte says how many there are. So a text can be cut where a byte does not continue,
and nowhere else.

- `encodeChar_shape`: the bytes of a character.
- `encode_at`: the character a position falls into.
- `Longest`: the longest whole part of a text within a limit; there is one.
- `encode_append_inv`, `encode_ascii_append`: cut before a byte that begins or behind an
  ASCII one, a text is two texts.
-/

namespace Lib

namespace Utf8

/-- The encoding of a text. -/
def encode (chars : List Char) : List UInt8 := chars.flatMap String.utf8EncodeChar

/-- A byte that continues a character. -/
def Continues (b : UInt8) : Prop := b &&& 0xc0 = 0x80

instance (b : UInt8) : Decidable (Continues b) := inferInstanceAs (Decidable (_ = _))

@[simp] theorem encode_nil : encode [] = [] := rfl

@[simp] theorem encode_cons (c : Char) (chars : List Char) :
    encode (c :: chars) = String.utf8EncodeChar c ++ encode chars := rfl

@[simp] theorem encode_append (a b : List Char) : encode (a ++ b) = encode a ++ encode b :=
  List.flatMap_append

/-! ## The bytes of a character -/

/-- What the first byte of `n + 1` announces. -/
def Announces (head : UInt8) (n : Nat) : Prop :=
  head < 0x80 ∧ n = 0 ∨ 0x80 ≤ head ∧ head < 0xe0 ∧ n = 1 ∨
    0xe0 ≤ head ∧ head < 0xf0 ∧ n = 2 ∨ 0xf0 ≤ head ∧ n = 3

theorem continues_ofNat (n : Nat) : Continues (UInt8.ofNat (n % 64 + 128)) := by
  have hall : ∀ m : Fin 64, Continues (UInt8.ofNat (m.val + 128)) := by decide
  exact hall ⟨n % 64, Nat.mod_lt _ (by decide)⟩

/-- The first byte, and the rest. -/
theorem encodeChar_shape (c : Char) : ∃ head tail, String.utf8EncodeChar c = head :: tail ∧
    ¬ Continues head ∧ (∀ b ∈ tail, Continues b) ∧ Announces head tail.length := by
  have hone : ∀ m : Fin 128, ¬ Continues (UInt8.ofNat m.val) ∧ UInt8.ofNat m.val < 0x80 := by
    decide
  have htwo : ∀ m : Fin 32, ¬ Continues (UInt8.ofNat (m.val + 0xc0)) ∧
      0x80 ≤ UInt8.ofNat (m.val + 0xc0) ∧ UInt8.ofNat (m.val + 0xc0) < 0xe0 := by
    decide
  have hthree : ∀ m : Fin 16, ¬ Continues (UInt8.ofNat (m.val + 0xe0)) ∧
      0xe0 ≤ UInt8.ofNat (m.val + 0xe0) ∧ UInt8.ofNat (m.val + 0xe0) < 0xf0 := by
    decide
  have hfour : ∀ m : Fin 8, ¬ Continues (UInt8.ofNat (m.val + 0xf0)) ∧
      0xf0 ≤ UInt8.ofNat (m.val + 0xf0) := by
    decide
  set v := c.val.toNat with hv
  unfold String.utf8EncodeChar
  dsimp only
  rw [← hv]
  split_ifs with h₁ h₂ h₃
  · obtain ⟨hbegins, hlt⟩ := hone ⟨v, by omega⟩
    exact ⟨_, [], rfl, hbegins, by simp, .inl ⟨hlt, rfl⟩⟩
  · obtain ⟨hbegins, hge, hlt⟩ := htwo ⟨v / 64 % 32, Nat.mod_lt _ (by decide)⟩
    refine ⟨_, _, rfl, hbegins, ?_, .inr (.inl ⟨hge, hlt, rfl⟩)⟩
    simp only [List.mem_singleton, forall_eq, continues_ofNat]
  · obtain ⟨hbegins, hge, hlt⟩ := hthree ⟨v / 4096 % 16, Nat.mod_lt _ (by decide)⟩
    refine ⟨_, _, rfl, hbegins, ?_, .inr (.inr (.inl ⟨hge, hlt, rfl⟩))⟩
    simp only [List.mem_cons, List.not_mem_nil, or_false, forall_eq_or_imp, forall_eq,
      continues_ofNat, and_self]
  · obtain ⟨hbegins, hge⟩ := hfour ⟨v / 262144 % 8, Nat.mod_lt _ (by decide)⟩
    refine ⟨_, _, rfl, hbegins, ?_, .inr (.inr (.inr ⟨hge, rfl⟩))⟩
    simp only [List.mem_cons, List.not_mem_nil, or_false, forall_eq_or_imp, forall_eq,
      continues_ofNat, and_self]

/-- An ASCII byte begins a character. -/
theorem not_continues_of_ascii {b : UInt8} (h : b < 0x80) : ¬ Continues b := by
  have hall : ∀ m : Fin 128, ¬ Continues (UInt8.ofNat m.val) := by decide
  have hb := hall ⟨b.toNat, h⟩
  rwa [UInt8.ofNat_toNat] at hb

/-- One ASCII byte, or bytes none of which is ASCII. -/
theorem encodeChar_ascii_or (c : Char) : (∃ b, String.utf8EncodeChar c = [b] ∧ b < 0x80) ∨
    ∀ b ∈ String.utf8EncodeChar c, 0x80 ≤ b := by
  obtain ⟨head, tail, hbytes, -, htail, hannounces⟩ := encodeChar_shape c
  have hcontinues : ∀ b : UInt8, Continues b → 0x80 ≤ b := by
    intro b hb
    by_contra hlt
    exact not_continues_of_ascii (UInt8.not_le.mp hlt) hb
  have hlarge : 0x80 ≤ head → ∀ b ∈ String.utf8EncodeChar c, 0x80 ≤ b := by
    intro hhead b hb
    rw [hbytes, List.mem_cons] at hb
    obtain rfl | hb := hb
    · exact hhead
    · exact hcontinues b (htail b hb)
  obtain ⟨hlt, hlength⟩ | ⟨hge, -⟩ | ⟨hge, -⟩ | ⟨hge, -⟩ := hannounces
  · rw [List.length_eq_zero_iff.mp hlength] at hbytes
    exact .inl ⟨head, hbytes, hlt⟩
  · exact .inr (hlarge hge)
  · exact .inr (hlarge (UInt8.le_trans (by decide) hge))
  · exact .inr (hlarge (UInt8.le_trans (by decide) hge))

/-- Only the first byte does not continue. -/
theorem continues_encodeChar_iff (c : Char) {j : Nat} (hj : j < (String.utf8EncodeChar c).length) :
    Continues ((String.utf8EncodeChar c).getD j 0) ↔ j ≠ 0 := by
  obtain ⟨head, tail, hbytes, hhead, htail, -⟩ := encodeChar_shape c
  rw [hbytes] at hj ⊢
  cases j with
  | zero => simpa using hhead
  | succ j =>
    have hj' : j < tail.length := by simpa using hj
    rw [List.getD_cons_succ, List.getD_eq_getElem _ _ hj']
    exact ⟨fun _ => Nat.succ_ne_zero j, fun _ => htail _ (List.getElem_mem hj')⟩

/-! ## The character at a position -/

/-- A position of a text falls into one of its characters. -/
theorem encode_at {chars : List Char} {n : Nat} (h : n < (encode chars).length) :
    ∃ a c b, chars = a ++ c :: b ∧ (encode a).length ≤ n ∧
      n < (encode a).length + (String.utf8EncodeChar c).length := by
  induction chars generalizing n with
  | nil => exact absurd h (Nat.not_lt_zero n)
  | cons c chars ih =>
    by_cases hc : n < (String.utf8EncodeChar c).length
    · exact ⟨[], c, chars, rfl, Nat.zero_le n, by simpa using hc⟩
    · rw [encode_cons, List.length_append] at h
      obtain ⟨a, d, b, rfl, hle, hlt⟩ := @ih (n - (String.utf8EncodeChar c).length) (by omega)
      refine ⟨c :: a, d, b, rfl, ?_, ?_⟩
      · rw [encode_cons, List.length_append]
        omega
      · rw [encode_cons, List.length_append]
        omega

/-- Its bytes, in the text. -/
theorem continues_encode_iff (a : List Char) (c : Char) (b : List Char) {j : Nat}
    (hj : j < (String.utf8EncodeChar c).length) :
    Continues ((encode (a ++ c :: b)).getD ((encode a).length + j) 0) ↔ j ≠ 0 := by
  rw [← continues_encodeChar_iff c hj, encode_append, encode_cons,
    List.getD_append_right _ _ _ _ (Nat.le_add_right _ _), Nat.add_sub_cancel_left,
    List.getD_append _ _ _ _ hj]

/-! ## Whole parts -/

/-- `n` bytes are the longest whole part of a text that has at most `limit`. -/
structure Longest (chars : List Char) (limit n : Nat) : Prop where
  whole : ∃ a b, chars = a ++ b ∧ (encode a).length = n
  fits : n ≤ limit
  longest : ∀ a b, chars = a ++ b → (encode a).length ≤ limit → (encode a).length ≤ n

theorem Longest.unique {chars : List Char} {limit n m : Nat} (h : Longest chars limit n)
    (h' : Longest chars limit m) : n = m := by
  obtain ⟨a, b, hab, rfl⟩ := h.whole
  obtain ⟨a', b', hab', rfl⟩ := h'.whole
  exact Nat.le_antisymm (h'.longest a b hab h.fits) (h.longest a' b' hab' h'.fits)

/-- All of it, where it fits. -/
theorem longest_all {chars : List Char} {limit : Nat} (h : (encode chars).length ≤ limit) :
    Longest chars limit (encode chars).length := by
  refine ⟨⟨chars, [], (List.append_nil _).symm, rfl⟩, h, fun a b hab _ => ?_⟩
  rw [hab, encode_append, List.length_append]
  exact Nat.le_add_right _ _

/-- Else what is before the character the limit falls into. -/
theorem longest_before {a b : List Char} {c : Char} {limit : Nat}
    (hle : (encode a).length ≤ limit)
    (hlt : limit < (encode a).length + (String.utf8EncodeChar c).length) :
    Longest (a ++ c :: b) limit (encode a).length := by
  refine ⟨⟨a, c :: b, rfl, rfl⟩, hle, fun a' b' hab hfits => ?_⟩
  obtain ⟨d, rfl, hd⟩ | ⟨d, rfl, -⟩ := List.append_eq_append_iff.mp hab
  · cases d with
    | nil => simp
    | cons c' d =>
      -- a part that goes on past `a` has the whole of `c`
      obtain rfl : c = c' := (List.cons.inj hd).1
      rw [encode_append, encode_cons, List.length_append, List.length_append] at hfits
      omega
  · rw [encode_append, List.length_append]
    exact Nat.le_add_right _ _

/-- Before a byte that does not continue, a text is cut into texts. -/
theorem encode_append_inv {chars : List Char} {A B : List UInt8} (h : encode chars = A ++ B)
    (hB : ∀ b ∈ B.head?, ¬ Continues b) : ∃ a b, chars = a ++ b ∧ encode a = A ∧ encode b = B := by
  cases B with
  | nil => exact ⟨chars, [], (List.append_nil _).symm, by simpa using h, rfl⟩
  | cons byte B =>
    have hlt : A.length < (encode chars).length := by
      rw [h, List.length_append, List.length_cons]
      omega
    obtain ⟨a, c, b, rfl, hle, hlt⟩ := encode_at hlt
    obtain ⟨j, hj⟩ := Nat.exists_eq_add_of_le hle
    have hbyte : (encode (a ++ c :: b)).getD ((encode a).length + j) 0 = byte := by
      rw [h, ← hj, List.getD_append_right _ _ _ _ (Nat.le_refl _), Nat.sub_self]
      rfl
    have hzero : j = 0 := by
      by_contra hne
      have hcontinues := (continues_encode_iff a c b (by omega)).mpr hne
      rw [hbyte] at hcontinues
      exact hB byte rfl hcontinues
    rw [encode_append] at h
    obtain ⟨hA, hrest⟩ := List.append_inj h (by omega)
    exact ⟨a, c :: b, rfl, hA, hrest⟩

/-- Behind ASCII bytes too. -/
theorem encode_ascii_append {chars : List Char} {A B : List UInt8} (h : encode chars = A ++ B)
    (hA : ∀ b ∈ A, b < 0x80) : ∃ b, encode b = B := by
  induction A generalizing chars with
  | nil => exact ⟨chars, h⟩
  | cons byte A ih =>
    cases chars with
    | nil => cases h
    | cons c chars =>
      have hbyte := hA byte List.mem_cons_self
      rw [encode_cons] at h
      obtain ⟨b, hb, -⟩ | hlarge := encodeChar_ascii_or c
      · rw [hb] at h
        exact ih (List.cons.inj h).2 fun d hd => hA d (List.mem_cons_of_mem _ hd)
      · obtain ⟨head, tail, hbytes, -⟩ := encodeChar_shape c
        rw [hbytes] at h hlarge
        have hhead := hlarge head List.mem_cons_self
        rw [(List.cons.inj h).1] at hhead
        exact absurd hbyte (UInt8.not_lt.mpr hhead)

end Utf8

end Lib
