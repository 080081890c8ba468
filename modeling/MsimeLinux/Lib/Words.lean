import Mathlib.Data.List.TakeWhile
import MsimeLinux.Lib.Utf8

/-!
# The words of a text

The longest parts that have no separator, how a scan finds them one by one, and the different
ones among them. Words of a UTF-8 text whose separators are ASCII are UTF-8 texts.
-/

namespace Lib

universe u

variable {α : Type u} {p : α → Bool}

/-- The longest parts of a text without a separator, in order. -/
def words (p : α → Bool) (text : List α) : List (List α) :=
  (text.splitOnP p).filter fun word => !word.isEmpty

@[simp]
theorem words_nil : words p [] = [] := rfl

theorem words_sep {a : α} (h : p a = true) (text : List α) :
    words p (a :: text) = words p text := by
  simp [words, List.splitOnP_cons_eq_if_modifyHead, h]

/-- Separators in front do not matter. -/
theorem words_dropWhile (text : List α) : words p (text.dropWhile p) = words p text := by
  induction text with
  | nil => rfl
  | cons a text ih =>
    rw [List.dropWhile_cons]
    split
    next hsep => rw [ih, words_sep hsep]
    · rfl

theorem words_append {word rest : List α} (hne : word ≠ []) (h : ∀ a ∈ word, p a = false)
    (hrest : ∀ a ∈ rest.head?, p a = true) : words p (word ++ rest) = word :: words p rest := by
  have hfilter : ∀ rest : List (List α), (word :: rest).filter (fun word => !word.isEmpty) =
      word :: rest.filter fun word => !word.isEmpty := fun rest =>
    List.filter_cons_of_pos (by simpa using hne)
  cases rest with
  | nil => rw [List.append_nil, words, List.splitOnP_eq_singleton h, hfilter]; rfl
  | cons sep rest =>
    have hsep : p sep = true := hrest sep rfl
    rw [words_sep hsep, words, List.splitOnP_append_cons_of_forall_mem h sep hsep, hfilter]
    rfl

/-! ## A scan -/

/-- The first word of a text, and what follows it. -/
def firstWord (p : α → Bool) (text : List α) : List α :=
  (text.dropWhile p).takeWhile fun a => !p a

def afterWord (p : α → Bool) (text : List α) : List α :=
  (text.dropWhile p).dropWhile fun a => !p a

theorem firstWord_append (text : List α) :
    firstWord p text ++ afterWord p text = text.dropWhile p :=
  List.takeWhile_append_dropWhile

theorem firstWord_not_sep {text : List α} : ∀ a ∈ firstWord p text, p a = false := by
  intro a ha
  simpa using List.mem_takeWhile_imp ha

theorem afterWord_head {text : List α} : ∀ a ∈ (afterWord p text).head?, p a = true := by
  intro a ha
  have hhead := List.head?_dropWhile_not (fun a => !p a) (text.dropWhile p)
  rw [show (text.dropWhile p).dropWhile (fun a => !p a) = afterWord p text from rfl] at hhead
  rw [Option.mem_def.mp ha] at hhead
  simpa using hhead

/-- No word is found only at the end. -/
theorem firstWord_eq_nil_iff {text : List α} : firstWord p text = [] ↔ text.dropWhile p = [] := by
  constructor
  · intro h
    have happend := firstWord_append (p := p) text
    rw [h, List.nil_append] at happend
    cases hrest : text.dropWhile p with
    | nil => rfl
    | cons a rest =>
      have hsep : p a = true := afterWord_head a (by rw [happend, hrest]; rfl)
      have hnot := List.head?_dropWhile_not p text
      rw [hrest] at hnot
      simp [hsep] at hnot
  · intro h
    rw [firstWord, h]
    rfl

theorem words_eq_nil {text : List α} (h : firstWord p text = []) : words p text = [] := by
  rw [← words_dropWhile, firstWord_eq_nil_iff.mp h]
  rfl

/-- The words are the first one, and those of what follows. -/
theorem words_scan {text : List α} (h : firstWord p text ≠ []) :
    words p text = firstWord p text :: words p (afterWord p text) := by
  rw [← words_append h firstWord_not_sep afterWord_head, firstWord_append, words_dropWhile]

/-- What follows a word is shorter. -/
theorem afterWord_length {text : List α} (h : text ≠ []) :
    (afterWord p text).length < text.length := by
  have hdrop := (List.dropWhile_suffix (l := text) p).length_le
  have happend := congrArg List.length (firstWord_append (p := p) text)
  rw [List.length_append] at happend
  by_cases hnil : firstWord p text = []
  · rw [firstWord_eq_nil_iff.mp hnil, List.length_nil] at happend
    have hpos := List.length_pos_iff.mpr h
    omega
  · have hpos := List.length_pos_iff.mpr hnil
    omega

/-- Induction along a scan. -/
theorem scan_induction {motive : List α → Prop} (none : ∀ text, firstWord p text = [] → motive text)
    (word : ∀ text, firstWord p text ≠ [] → motive (afterWord p text) → motive text)
    (text : List α) : motive text := by
  induction hlength : text.length using Nat.strongRecOn generalizing text with
  | ind n ih =>
    by_cases h : firstWord p text = []
    · exact none text h
    · have hne : text ≠ [] := by
        rintro rfl
        exact h rfl
      exact word text h (ih _ (hlength ▸ afterWord_length hne) _ rfl)

/-- A word is a part of the text, of which no byte is a separator. -/
theorem mem_words {text word : List α} (h : word ∈ words p text) :
    word ≠ [] ∧ (∀ a ∈ word, p a = false) ∧ word <:+: text := by
  induction text using scan_induction (p := p) with
  | none text hnil => simp [words_eq_nil hnil] at h
  | word text hne ih =>
    have hpart : firstWord p text ++ afterWord p text <:+: text := by
      rw [firstWord_append]
      exact (List.dropWhile_suffix p).isInfix
    rw [words_scan hne, List.mem_cons] at h
    obtain rfl | h := h
    · exact ⟨hne, firstWord_not_sep, (List.prefix_append _ _).isInfix.trans hpart⟩
    · obtain ⟨hword, hsep, hinfix⟩ := ih h
      exact ⟨hword, hsep, hinfix.trans ((List.suffix_append _ _).isInfix.trans hpart)⟩

/-- Words of a text are texts, where separators are ASCII. -/
theorem words_utf8 {p : UInt8 → Bool} (hascii : ∀ b, p b = true → b < 0x80) {text word : List UInt8}
    (htext : ∃ chars, text = Utf8.encode chars) (h : word ∈ words p text) :
    ∃ chars, word = Utf8.encode chars := by
  induction text using scan_induction (p := p) with
  | none text hnil => simp [words_eq_nil hnil] at h
  | word text hne ih =>
    obtain ⟨chars, rfl⟩ := htext
    have hfront := List.takeWhile_append_dropWhile (p := p) (l := Utf8.encode chars)
    obtain ⟨rest, hrest⟩ := Utf8.encode_ascii_append hfront.symm fun b hb =>
      hascii b (List.mem_takeWhile_imp hb)
    rw [← firstWord_append] at hrest
    obtain ⟨first, after, -, hfirst, hafter⟩ := Utf8.encode_append_inv hrest fun b hb =>
      Utf8.not_continues_of_ascii (hascii b (afterWord_head b hb))
    rw [words_scan hne, List.mem_cons] at h
    obtain rfl | h := h
    · exact ⟨first, hfirst.symm⟩
    · exact ih ⟨after, hafter.symm⟩ h

/-! ## The first different ones -/

section Distinct

variable [BEq α] [LawfulBEq α]

theorem eraseDups_of_nodup {l : List α} (h : l.Nodup) : l.eraseDups = l := by
  induction l with
  | nil => rfl
  | cons a l ih =>
    obtain ⟨hnot, hrest⟩ := List.nodup_cons.mp h
    have hfilter : l.filter (fun b => !b == a) = l := by
      refine List.filter_eq_self.mpr fun b hb => ?_
      have hne : b ≠ a := fun heq => hnot (heq ▸ hb)
      simpa using hne
    rw [List.eraseDups_cons, hfilter, ih hrest]

theorem nodup_eraseDups (l : List α) : l.eraseDups.Nodup := by
  induction hlength : l.length using Nat.strongRecOn generalizing l with
  | ind n ih =>
    cases l with
    | nil => exact List.nodup_nil
    | cons a l =>
      rw [List.eraseDups_cons, List.nodup_cons]
      refine ⟨by simp, ih _ ?_ _ rfl⟩
      rw [← hlength, List.length_cons]
      exact Nat.lt_succ_of_le (List.length_filter_le _ _)

/-- One that was seen before does not matter. -/
theorem eraseDups_seen {seen rest : List α} {a : α} (h : a ∈ seen) :
    (seen ++ a :: rest).eraseDups = (seen ++ rest).eraseDups := by
  have hremove : (a :: rest).removeAll seen = rest.removeAll seen := by
    simp [List.removeAll, h]
  rw [List.eraseDups_append, List.eraseDups_append, hremove]

/-- Once there are enough different ones, the rest does not matter. -/
theorem take_eraseDups_full {found : List α} (h : found.Nodup) (rest : List α) :
    (found ++ rest).eraseDups.take found.length = found := by
  rw [List.eraseDups_append, eraseDups_of_nodup h, List.take_left]

end Distinct

end Lib
