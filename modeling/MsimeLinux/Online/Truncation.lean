import Mathlib.Data.List.TakeWhile
import MsimeLinux.Lib.Utf8
import MsimeLinux.Online.AiCache

/-!
# Cutting UTF-8 texts (`AiSuggestionProvider.cpp`, `TranslationProvider.cpp`)

`bounded_utf8` goes back from the limit while a byte continues a character; `utf8_prefix`
goes back to the beginning of the last character and asks it how long it is.

- `utf8Prefix_longest`, `boundedUtf8_eq`: both leave the longest whole part.
- `formatGloss_spec`: a gloss is whole characters, and not too many.
-/

namespace MsimeLinux

open Lib Utf8

namespace Truncation

variable {a b chars : List Char} {c : Char} {j limit : Nat}

/-! ## Going back -/

/-- From within a character, to where it begins. -/
theorem leadBefore_eq (a b : List Char) (c : Char) (hj : j < (String.utf8EncodeChar c).length) :
    leadBefore (encode (a ++ c :: b)) ((encode a).length + j) = (encode a).length := by
  induction j with
  | zero =>
    cases hlength : (encode a).length with
    | zero => rfl
    | succ n =>
      have hbegins := (continues_encode_iff a c b hj).not.mpr (not_not.mpr rfl)
      rw [hlength, Nat.add_zero] at hbegins
      rw [Nat.add_zero, leadBefore]
      exact if_neg hbegins
  | succ j ih =>
    have hcontinues := (continues_encode_iff a c b hj).mpr (Nat.succ_ne_zero j)
    rw [← Nat.add_assoc, leadBefore]
    exact (if_pos hcontinues).trans (ih (by omega))

/-- The width that is announced is the length. -/
theorem utf8Width_eq (a b : List Char) (c : Char) :
    utf8Width ((encode (a ++ c :: b)).getD (encode a).length 0) =
      (String.utf8EncodeChar c).length := by
  obtain ⟨head, tail, hbytes, -, -, hannounces⟩ := encodeChar_shape c
  rw [encode_append, List.getD_append_right _ _ _ _ (Nat.le_refl _), Nat.sub_self, encode_cons,
    hbytes]
  show utf8Width head = tail.length + 1
  unfold utf8Width
  obtain ⟨hlt, hn⟩ | ⟨hge, hlt, hn⟩ | ⟨hge, hlt, hn⟩ | ⟨hge, hn⟩ := hannounces
  · rw [if_pos hlt, hn]
  · rw [if_neg (UInt8.not_lt.mpr hge), if_pos hlt, hn]
  · rw [if_neg (UInt8.not_lt.mpr (UInt8.le_trans (by decide) hge)),
      if_neg (UInt8.not_lt.mpr hge), if_pos hlt, hn]
  · rw [if_neg (UInt8.not_lt.mpr (UInt8.le_trans (by decide) hge)),
      if_neg (UInt8.not_lt.mpr (UInt8.le_trans (by decide) hge)),
      if_neg (UInt8.not_lt.mpr hge), hn]

/-- What `utf8_prefix` sees before a position in a character. -/
theorem wholePrefix_succ (a b : List Char) (c : Char)
    (hj : j < (String.utf8EncodeChar c).length) :
    wholePrefix (encode (a ++ c :: b)) ((encode a).length + (j + 1)) =
      if (String.utf8EncodeChar c).length ≤ j + 1 then (encode a).length + (j + 1)
      else wholePrefix (encode (a ++ c :: b)) (encode a).length := by
  rw [← Nat.add_assoc, wholePrefix, leadBefore_eq a b c hj, utf8Width_eq]
  have hsub : (encode a).length + j + 1 - (encode a).length = j + 1 := by omega
  rw [hsub]

/-- The end of a character is kept. -/
theorem wholePrefix_whole (a b : List Char) :
    wholePrefix (encode (a ++ b)) (encode a).length = (encode a).length := by
  obtain rfl | ⟨a, c, rfl⟩ := List.eq_nil_or_concat' a
  · rw [encode_nil, List.length_nil, wholePrefix]
  · have hlength : (encode (a ++ [c])).length =
        (encode a).length + (String.utf8EncodeChar c).length := by
      rw [encode_append, List.length_append, encode_cons, encode_nil, List.append_nil]
    obtain ⟨n, hn⟩ : ∃ n, (String.utf8EncodeChar c).length = n + 1 :=
      Nat.exists_eq_add_one.mpr (List.length_pos_iff.mpr String.utf8EncodeChar_ne_nil)
    rw [hlength, List.append_assoc, List.singleton_append, hn,
      wholePrefix_succ a b c (by omega), if_pos (Nat.le_of_eq hn)]

/-- A character that the limit cuts is dropped. -/
theorem wholePrefix_within (a b : List Char) (c : Char)
    (hj : j < (String.utf8EncodeChar c).length) :
    wholePrefix (encode (a ++ c :: b)) ((encode a).length + j) = (encode a).length := by
  cases j with
  | zero => exact wholePrefix_whole a (c :: b)
  | succ j =>
    rw [wholePrefix_succ a b c (by omega), if_neg (by omega)]
    exact wholePrefix_whole a (c :: b)

/-! ## The longest whole part -/

theorem utf8Prefix_longest (chars : List Char) (limit : Nat) :
    Longest chars limit (utf8Prefix (encode chars) limit) := by
  unfold utf8Prefix
  by_cases hfits : (encode chars).length ≤ limit
  · rw [if_pos hfits]
    exact longest_all hfits
  · obtain ⟨a, c, b, rfl, hle, hlt⟩ := encode_at (Nat.lt_of_not_le hfits)
    obtain ⟨j, rfl⟩ := Nat.exists_eq_add_of_le hle
    rw [if_neg hfits, wholePrefix_within a b c (by omega)]
    exact longest_before hle hlt

/-- The search of `bounded_utf8` is the loop both have. -/
theorem find_reverse_range (value : Bytes) (n : Nat) :
    ((List.range (n + 1)).reverse.find? fun k =>
      k = 0 || !decide (value.getD k 0 &&& 0xc0 = 0x80)).getD 0 = leadBefore value n := by
  induction n with
  | zero => rfl
  | succ n ih =>
    rw [List.range_succ, List.reverse_append, List.reverse_singleton, List.singleton_append,
      List.find?_cons, leadBefore]
    by_cases hcontinues : value.getD (n + 1) 0 &&& 0xc0 = 0x80
    · rw [if_pos hcontinues, decide_eq_true hcontinues]
      exact ih
    · rw [if_neg hcontinues, decide_eq_false hcontinues, Bool.not_false, Bool.or_true]
      rfl

theorem boundedUtf8_eq (chars : List Char) (limit : Nat) :
    AiSuggestionProvider.boundedUtf8 (encode chars) limit =
      (encode chars).take (utf8Prefix (encode chars) limit) := by
  unfold AiSuggestionProvider.boundedUtf8 utf8Prefix
  by_cases hfits : (encode chars).length ≤ limit
  · rw [if_pos hfits, if_pos hfits, List.take_length]
  · obtain ⟨a, c, b, rfl, hle, hlt⟩ := encode_at (Nat.lt_of_not_le hfits)
    obtain ⟨j, rfl⟩ := Nat.exists_eq_add_of_le hle
    rw [if_neg hfits, if_neg hfits, wholePrefix_within a b c (by omega)]
    dsimp only
    rw [find_reverse_range, leadBefore_eq a b c (by omega)]

/-! ## Glosses -/

theorem isGlossSeparator_ascii {b : UInt8} (h : isGlossSeparator b = true) : b < 0x80 := by
  rw [isGlossSeparator, Bool.or_eq_true, Bool.or_eq_true, decide_eq_true_eq, decide_eq_true_eq,
    decide_eq_true_eq] at h
  obtain (rfl | rfl) | rfl := h <;> decide

theorem isSpaceByte_ascii {b : UInt8} (h : isSpaceByte b = true) : b < 0x80 := by
  rw [isSpaceByte, Bool.or_eq_true, Bool.and_eq_true, decide_eq_true_eq, decide_eq_true_eq,
    decide_eq_true_eq] at h
  obtain rfl | ⟨-, hle⟩ := h
  · decide
  · exact UInt8.lt_of_le_of_lt hle (by decide)

theorem splitOnP_append {p : UInt8 → Bool} {bytes rest : Bytes} (h : ∀ b ∈ bytes, p b = false) :
    (bytes ++ rest).splitOnP p = (rest.splitOnP p).modifyHead (bytes ++ ·) := by
  induction bytes with
  | nil =>
    rw [List.nil_append]
    cases rest.splitOnP p <;> rfl
  | cons b bytes ih =>
    rw [List.cons_append, List.splitOnP_cons_eq_if_modifyHead,
      if_neg (by simp [h b List.mem_cons_self]),
      ih fun d hd => h d (List.mem_cons_of_mem _ hd)]
    cases rest.splitOnP p <;> rfl

/-- Divided at ASCII bytes, a text is texts. -/
theorem splitOnP_encode {p : UInt8 → Bool} (hp : ∀ b, p b = true → b < 0x80)
    (chars : List Char) : ∀ part ∈ (encode chars).splitOnP p, ∃ cs, part = encode cs := by
  induction chars with
  | nil =>
    intro part hpart
    exact ⟨[], List.mem_singleton.mp hpart⟩
  | cons c chars ih =>
    have hwithin (hnone : ∀ b ∈ String.utf8EncodeChar c, p b = false) :
        ∀ part ∈ (encode (c :: chars)).splitOnP p, ∃ cs, part = encode cs := by
      rw [encode_cons, splitOnP_append hnone]
      obtain ⟨first, parts, hparts⟩ := List.exists_cons_of_ne_nil
        (List.splitOnP_ne_nil p (encode chars))
      rw [hparts] at ih ⊢
      intro part hpart
      obtain rfl | hpart := List.mem_cons.mp hpart
      · obtain ⟨cs, rfl⟩ := ih first List.mem_cons_self
        exact ⟨c :: cs, rfl⟩
      · exact ih part (List.mem_cons_of_mem _ hpart)
    obtain ⟨b, hb, -⟩ | hlarge := encodeChar_ascii_or c
    · by_cases hsep : p b = true
      · intro part hpart
        rw [encode_cons, hb, List.singleton_append, List.splitOnP_cons_eq_if_modifyHead,
          if_pos hsep] at hpart
        obtain rfl | hpart := List.mem_cons.mp hpart
        · exact ⟨[], rfl⟩
        · exact ih part hpart
      · exact hwithin (by simpa [hb] using hsep)
    · refine hwithin fun b hb => Bool.eq_false_iff.mpr fun hsep => ?_
      exact absurd (hp b hsep) (UInt8.not_lt.mpr (hlarge b hb))

theorem trimBytes_encode (chars : List Char) : ∃ cs, trimBytes (encode chars) = encode cs := by
  -- blanks in front
  obtain ⟨cs, hcs⟩ := encode_ascii_append
    (List.takeWhile_append_dropWhile (p := isSpaceByte) (l := encode chars)).symm
    fun b hb => isSpaceByte_ascii (List.mem_takeWhile_imp hb)
  -- and behind
  set back := (encode cs).reverse
  have hsplit : encode cs =
      (back.dropWhile isSpaceByte).reverse ++ (back.takeWhile isSpaceByte).reverse := by
    rw [← List.reverse_append, List.takeWhile_append_dropWhile, List.reverse_reverse]
  obtain ⟨a, -, -, ha, -⟩ := encode_append_inv hsplit fun b hb => by
    have hmem := List.mem_reverse.mp (List.mem_of_mem_head? hb)
    exact not_continues_of_ascii (isSpaceByte_ascii (List.mem_takeWhile_imp hmem))
  refine ⟨a, ?_⟩
  rw [ha, trimBytes, ← hcs]

/-- A part of a gloss: whole characters, at most 96 bytes. -/
theorem cut_encode (chars : List Char) : ∃ cs,
    (encode chars).take (utf8Prefix (encode chars) 96) = encode cs ∧ (encode cs).length ≤ 96 := by
  obtain ⟨⟨a, b, rfl, hlength⟩, hfits, -⟩ := utf8Prefix_longest chars 96
  refine ⟨a, ?_, hlength ▸ hfits⟩
  rw [← hlength, encode_append, List.take_left]

theorem formatGloss_spec (chars : List Char) :
    ∃ cs, formatGloss (encode chars) = encode cs ∧ (encode cs).length ≤ 2 * 96 + 2 := by
  have hall : ∀ part ∈ ((((encode chars).splitOnP isGlossSeparator).map trimBytes).filter
      fun part => !part.isEmpty).take 2 |>.map fun part => part.take (utf8Prefix part 96),
      ∃ cs, part = encode cs ∧ (encode cs).length ≤ 96 := by
    intro part hpart
    obtain ⟨trimmed, htrimmed, rfl⟩ := List.mem_map.mp hpart
    obtain ⟨htrimmed, -⟩ := List.mem_filter.mp (List.mem_of_mem_take htrimmed)
    obtain ⟨raw, hraw, rfl⟩ := List.mem_map.mp htrimmed
    obtain ⟨rawChars, rfl⟩ := splitOnP_encode (fun _ => isGlossSeparator_ascii) chars raw hraw
    obtain ⟨trimmedChars, htrim⟩ := trimBytes_encode rawChars
    rw [htrim]
    exact cut_encode trimmedChars
  unfold formatGloss
  dsimp only
  split
  · exact ⟨[], rfl, Nat.zero_le _⟩
  · rename_i first heq
    rw [heq] at hall
    obtain ⟨cs, rfl, hlength⟩ := hall first List.mem_cons_self
    exact ⟨cs, rfl, by omega⟩
  · rename_i first second rest heq
    rw [heq] at hall
    obtain ⟨cs, rfl, hlength⟩ := hall first List.mem_cons_self
    obtain ⟨cs', rfl, hlength'⟩ := hall second (List.mem_cons_of_mem _ List.mem_cons_self)
    have hbetween : ascii "; " = encode [';', ' '] := by decide
    refine ⟨cs ++ [';', ' '] ++ cs', ?_, ?_⟩
    · rw [encode_append, encode_append, hbetween]
    · have htwo : (encode [';', ' ']).length = 2 := by decide
      rw [encode_append, encode_append, List.length_append, List.length_append, htwo]
      omega

/-- **The two ways to cut a text agree**: each leaves the longest part of a valid text that
ends between two characters and is within the limit. So a gloss is a valid text of at most two
parts of 96 bytes. -/
theorem truncations_agree (text : Bytes) (hvalid : ValidUtf8 text) :
    (∀ chars, text = encode chars → ∀ limit,
      Longest chars limit (utf8Prefix text limit) ∧
      AiSuggestionProvider.boundedUtf8 text limit = text.take (utf8Prefix text limit)) ∧
    ValidUtf8 (formatGloss text) ∧ (formatGloss text).length ≤ 2 * 96 + 2 := by
  constructor
  · rintro chars rfl limit
    exact ⟨utf8Prefix_longest chars limit, boundedUtf8_eq chars limit⟩
  · obtain ⟨chars, rfl⟩ := hvalid
    obtain ⟨cs, hgloss, hlength⟩ := formatGloss_spec chars
    change formatGloss (encode chars) = _ at hgloss
    change ValidUtf8 (formatGloss (encode chars)) ∧ (formatGloss (encode chars)).length ≤ _
    rw [hgloss]
    exact ⟨⟨cs, rfl⟩, hlength⟩

/-- A letter, and a character of three bytes. -/
theorem truncations_agree_word :
    (∀ chars, utf8 "a中" = encode chars → ∀ limit,
      Longest chars limit (utf8Prefix (utf8 "a中") limit) ∧
      AiSuggestionProvider.boundedUtf8 (utf8 "a中") limit =
        (utf8 "a中").take (utf8Prefix (utf8 "a中") limit)) ∧
    ValidUtf8 (formatGloss (utf8 "a中")) ∧ (formatGloss (utf8 "a中")).length ≤ 2 * 96 + 2 :=
  truncations_agree (utf8 "a中") ⟨['a', '中'], rfl⟩

end Truncation

end MsimeLinux
