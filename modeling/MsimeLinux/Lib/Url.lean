import Mathlib.Tactic.Common

/-!
# URLs of one server

Bytes that may stand for themselves do; every other one is written as `%` and two digits.
A query is a list of names and values, a path is a list of segments, and only separators
that were written as such separate them.

- `percentDecode_encode`: what is written is read.
- `readQuery_queryText`: so are the fields of a query.
- `readUrl_targetText`: and a URL is read as the segments and fields it was made of.
-/

namespace Lib

/-- `%`, `&` and `=`. -/
def percentSign : UInt8 := 37
def ampersand : UInt8 := 38
def equalsSign : UInt8 := 61

/-- The digits, in upper case. -/
def percentDigit (n : UInt8) : UInt8 := if n < 10 then 48 + n else 55 + n

/-- The value of a digit, of either case. -/
def percentValue (c : UInt8) : Option UInt8 :=
  if 48 ≤ c ∧ c ≤ 57 then some (c - 48)
  else if 65 ≤ c ∧ c ≤ 70 then some (c - 55)
  else if 97 ≤ c ∧ c ≤ 102 then some (c - 87)
  else none

/-- The letters, the digits and the four marks that mean nothing in a URL. -/
def isUnreserved (c : UInt8) : Bool :=
  (97 ≤ c && c ≤ 122) || (65 ≤ c && c ≤ 90) || (48 ≤ c && c ≤ 57) || c = 45 || c = 95 || c = 46 ||
    c = 126

/-- One byte. -/
def percentByte (c : UInt8) : List UInt8 :=
  if isUnreserved c then [c] else [percentSign, percentDigit (c >>> 4), percentDigit (c &&& 15)]

def percentEncode (text : List UInt8) : List UInt8 := text.flatMap percentByte

/-- A `%` has to be followed by two digits. -/
def percentDecode : List UInt8 → Option (List UInt8)
  | [] => some []
  | [c] => if c = percentSign then none else some [c]
  | [c, d] => if c = percentSign ∨ d = percentSign then none else some [c, d]
  | c :: d :: e :: rest =>
    if c = percentSign then
      match percentValue d, percentValue e with
      | some high, some low => (percentDecode rest).map fun text => (high <<< 4 ||| low) :: text
      | _, _ => none
    else (percentDecode (d :: e :: rest)).map fun text => c :: text

/-! ## What is written is read -/

theorem forall_digit {P : UInt8 → Prop} (h : ∀ n : Fin 16, P (UInt8.ofNat n)) {n : UInt8}
    (hn : n < 16) : P n := by
  have hP := h ⟨n.toNat, hn⟩
  rwa [UInt8.ofNat_toNat] at hP

theorem shiftRight_lt (c : UInt8) : c >>> 4 < 16 := by
  have hc := c.toNat_lt
  rw [UInt8.lt_iff_toNat_lt, UInt8.toNat_shiftRight]
  simp [Nat.shiftRight_eq_div_pow]
  omega

theorem and_lt (c : UInt8) : c &&& 15 < 16 := by
  rw [UInt8.lt_iff_toNat_lt, UInt8.toNat_and]
  exact Nat.and_lt_two_pow (n := 4) _ (by decide)

/-- The value of a digit is the number it was made from. -/
theorem percentValue_digit {n : UInt8} (h : n < 16) :
    percentValue (percentDigit n) = some n := by
  refine forall_digit (P := fun n => percentValue (percentDigit n) = some n) ?_ h
  decide

/-- Digits need no encoding themselves. -/
theorem percentDigit_unreserved {n : UInt8} (h : n < 16) :
    isUnreserved (percentDigit n) = true := by
  refine forall_digit (P := fun n => isUnreserved (percentDigit n) = true) ?_ h
  decide

/-- A byte is joined from its two halves. -/
theorem percentDigits_join (c : UInt8) : (c >>> 4) <<< 4 ||| (c &&& 15) = c := by
  have hall : ∀ n : Fin 256, (UInt8.ofNat n >>> 4) <<< 4 ||| (UInt8.ofNat n &&& 15) =
      UInt8.ofNat n := by decide +kernel
  have hc := hall ⟨c.toNat, c.toNat_lt⟩
  rwa [UInt8.ofNat_toNat] at hc

theorem percentDecode_plain {c : UInt8} (hc : c ≠ percentSign) (rest : List UInt8) :
    percentDecode (c :: rest) = (percentDecode rest).map fun text => c :: text := by
  match rest with
  | [] => simp [percentDecode, hc]
  | [d] => by_cases hd : d = percentSign <;> simp [percentDecode, hc, hd]
  | d :: e :: rest => rw [percentDecode, if_neg hc]

/-- One byte that was written. -/
theorem percentDecode_byte (c : UInt8) (rest : List UInt8) :
    percentDecode (percentByte c ++ rest) = (percentDecode rest).map fun text => c :: text := by
  unfold percentByte
  split
  next hplain =>
    refine percentDecode_plain ?_ rest
    rintro rfl
    exact absurd hplain (by decide)
  · show percentDecode (percentSign :: _ :: _ :: rest) = _
    rw [percentDecode, if_pos rfl, percentValue_digit (shiftRight_lt c),
      percentValue_digit (and_lt c)]
    dsimp only
    rw [percentDigits_join]

theorem percentDecode_append (text rest : List UInt8) :
    percentDecode (percentEncode text ++ rest) =
      (percentDecode rest).map fun after => text ++ after := by
  induction text with
  | nil => cases h : percentDecode rest <;> simp [percentEncode, h]
  | cons c text ih =>
    rw [percentEncode, List.flatMap_cons, List.append_assoc, percentDecode_byte]
    rw [percentEncode] at ih
    rw [ih]
    cases percentDecode rest <;> rfl

theorem percentDecode_encode (text : List UInt8) :
    percentDecode (percentEncode text) = some text := by
  have h := percentDecode_append text []
  rw [List.append_nil] at h
  rw [h]
  simp [percentDecode]

/-- Text that needs no encoding is read as it is. -/
theorem percentEncode_unreserved {text : List UInt8} (h : ∀ c ∈ text, isUnreserved c = true) :
    percentEncode text = text := by
  induction text with
  | nil => rfl
  | cons c text ih =>
    rw [percentEncode, List.flatMap_cons, percentByte, if_pos (h c List.mem_cons_self)]
    exact congrArg (c :: ·) (ih fun d hd => h d (List.mem_cons_of_mem _ hd))

/-- **Nothing but unreserved bytes and `%`** is written. -/
theorem mem_percentEncode {text : List UInt8} {c : UInt8} (h : c ∈ percentEncode text) :
    isUnreserved c = true ∨ c = percentSign := by
  obtain ⟨d, -, hc⟩ := List.mem_flatMap.mp h
  unfold percentByte at hc
  split at hc
  next hplain =>
    rw [List.mem_singleton.mp hc]
    exact .inl hplain
  · simp only [List.mem_cons, List.not_mem_nil, or_false] at hc
    rcases hc with rfl | rfl | rfl
    · exact .inr rfl
    · exact .inl (percentDigit_unreserved (shiftRight_lt d))
    · exact .inl (percentDigit_unreserved (and_lt d))

theorem not_mem_percentEncode {text : List UInt8} {c : UInt8} (hc : isUnreserved c = false)
    (hne : c ≠ percentSign) : c ∉ percentEncode text := by
  intro h
  rcases mem_percentEncode h with hplain | rfl
  · rw [hc] at hplain
    cases hplain
  · exact hne rfl

/-! ## Queries -/

/-- A name and its value, as they are written: the value is encoded. -/
def fieldText (field : List UInt8 × List UInt8) : List UInt8 :=
  field.1 ++ equalsSign :: percentEncode field.2

/-- `name=value&name=value`. -/
def queryText (fields : List (List UInt8 × List UInt8)) : List UInt8 :=
  [ampersand].intercalate (fields.map fieldText)

theorem queryText_cons_cons (field other : List UInt8 × List UInt8)
    (fields : List (List UInt8 × List UInt8)) : queryText (field :: other :: fields) =
      fieldText field ++ ampersand :: queryText (other :: fields) := by
  simp [queryText]

theorem queryText_singleton (field : List UInt8 × List UInt8) :
    queryText [field] = fieldText field := by
  simp [queryText]

/-- A field ends its name at the first `=`. -/
def readQueryField (text : List UInt8) : Option (List UInt8 × List UInt8) :=
  if equalsSign ∈ text then
    (percentDecode ((text.dropWhile (· ≠ equalsSign)).drop 1)).map fun value =>
      (text.takeWhile (· ≠ equalsSign), value)
  else none

/-- What a query says: a list of fields, between the separators. -/
def readQuery (text : List UInt8) : Option (List (List UInt8 × List UInt8)) :=
  (text.splitOn ampersand).mapM readQueryField

/-- A field of a query reads back, whatever its value is. -/
theorem readQueryField_text {field : List UInt8 × List UInt8}
    (hname : ∀ c ∈ field.1, isUnreserved c = true) :
    readQueryField (fieldText field) = some field := by
  have hplain : ∀ c ∈ field.1, decide (c ≠ equalsSign) = true := by
    intro c hc
    refine decide_eq_true ?_
    rintro rfl
    exact absurd (hname _ hc) (by decide)
  unfold readQueryField fieldText
  rw [if_pos (by simp), List.takeWhile_append_of_pos hplain, List.dropWhile_append_of_pos hplain]
  simp [percentDecode_encode]

/-- No field has the separator in it. -/
theorem ampersand_not_mem_fieldText {field : List UInt8 × List UInt8}
    (hname : ∀ c ∈ field.1, isUnreserved c = true) : ampersand ∉ fieldText field := by
  unfold fieldText
  rw [List.mem_append, List.mem_cons]
  rintro (h | h | h)
  · exact absurd (hname _ h) (by decide)
  · exact absurd h (by decide)
  · exact not_mem_percentEncode (by decide) (by decide) h

/-- **The fields of a query are those that were written.** -/
theorem readQuery_queryText {fields : List (List UInt8 × List UInt8)} (hne : fields ≠ [])
    (hnames : ∀ field ∈ fields, ∀ c ∈ field.1, isUnreserved c = true) :
    readQuery (queryText fields) = some fields := by
  unfold readQuery queryText
  rw [List.splitOn_intercalate ampersand _ (by simpa using hne)]
  · clear hne
    induction fields with
    | nil => rfl
    | cons field fields ih =>
      rw [List.map_cons, List.mapM_cons, readQueryField_text (hnames _ List.mem_cons_self),
        ih fun other hother => hnames other (List.mem_cons_of_mem _ hother)]
      rfl
  · intro text htext
    obtain ⟨field, hfield, rfl⟩ := List.mem_map.mp htext
    exact ampersand_not_mem_fieldText (hnames field hfield)

/-- A byte of a joined text is the separator or of one of the texts. -/
theorem mem_intercalate_singleton {α : Type} {separator c : α} {texts : List (List α)}
    (h : c ∈ [separator].intercalate texts) : c = separator ∨ ∃ text ∈ texts, c ∈ text := by
  induction texts with
  | nil => simp [List.intercalate] at h
  | cons text texts ih =>
    cases texts with
    | nil => exact .inr ⟨text, List.mem_cons_self, by simpa [List.intercalate] using h⟩
    | cons other texts =>
      rw [List.intercalate_cons_cons, List.mem_append, List.mem_append] at h
      rcases h with (h | h) | h
      · exact .inr ⟨text, List.mem_cons_self, h⟩
      · exact .inl (List.mem_singleton.mp h)
      · rcases ih h with h | ⟨text', htext, h⟩
        · exact .inl h
        · exact .inr ⟨text', List.mem_cons_of_mem _ htext, h⟩

/-- Nothing but unreserved bytes, `%` and the separators are written. -/
theorem mem_queryText {fields : List (List UInt8 × List UInt8)}
    (hnames : ∀ field ∈ fields, ∀ c ∈ field.1, isUnreserved c = true) {c : UInt8}
    (h : c ∈ queryText fields) :
    isUnreserved c = true ∨ c = percentSign ∨ c = ampersand ∨ c = equalsSign := by
  rcases mem_intercalate_singleton h with rfl | ⟨text, htext, hc⟩
  · exact .inr (.inr (.inl rfl))
  · obtain ⟨field, hfield, rfl⟩ := List.mem_map.mp htext
    rw [fieldText, List.mem_append, List.mem_cons] at hc
    rcases hc with hc | rfl | hc
    · exact .inl (hnames field hfield c hc)
    · exact .inr (.inr (.inr rfl))
    · rcases mem_percentEncode hc with hc | rfl
      · exact .inl hc
      · exact .inr (.inl rfl)

/-! ## Paths -/

/-- `/` and `?`. -/
def slash : UInt8 := 47
def questionMark : UInt8 := 63

/-- The segments of a path, each behind its slash. -/
def pathText (segments : List (List UInt8)) : List UInt8 := segments.flatMap (slash :: ·)

/-- A path, and a query if there are fields. -/
def targetText (segments : List (List UInt8)) (fields : List (List UInt8 × List UInt8)) :
    List UInt8 :=
  pathText segments ++ if fields = [] then [] else questionMark :: queryText fields

/-- A path is built segment by segment. -/
theorem pathText_append (segments more : List (List UInt8)) :
    pathText (segments ++ more) = pathText segments ++ pathText more :=
  List.flatMap_append

theorem pathText_eq (segments : List (List UInt8)) :
    pathText segments = [slash].intercalate ([] :: segments) := by
  have hcons : ∀ (segments : List (List UInt8)) (first : List UInt8),
      [slash].intercalate (first :: segments) = first ++ pathText segments := by
    intro segments
    induction segments with
    | nil => intro first; simp [List.intercalate, pathText]
    | cons segment segments ih =>
      intro first
      rw [List.intercalate_cons_cons, ih]
      simp [pathText]
  rw [hcons, List.nil_append]

/-- What a path and a query say. -/
def readTarget (target : List UInt8) :
    Option (List (List UInt8) × List (List UInt8 × List UInt8)) :=
  match (target.takeWhile (· ≠ questionMark)).splitOn slash with
  | [] :: segments =>
    match target.dropWhile (· ≠ questionMark) with
    | [] => some (segments, [])
    | _ :: query => (readQuery query).map fun fields => (segments, fields)
  | _ => none

/-- A byte of an authority: a path or a query ends it. -/
def inAuthority (c : UInt8) : Bool := c ≠ slash && c ≠ questionMark

/-- What a URL with a scheme says: its origin, and what stands behind it. -/
def readUrl (scheme url : List UInt8) :
    Option (List UInt8 × List (List UInt8) × List (List UInt8 × List UInt8)) :=
  if scheme <+: url then
    let rest := url.drop scheme.length
    (readTarget (rest.dropWhile inAuthority)).map fun target =>
      (scheme ++ rest.takeWhile inAuthority, target)
  else none

/-- A path of plain segments has nothing else in it but slashes. -/
theorem mem_pathText {segments : List (List UInt8)}
    (hsegments : ∀ segment ∈ segments, ∀ c ∈ segment, isUnreserved c = true) {c : UInt8}
    (h : c ∈ pathText segments) : isUnreserved c = true ∨ c = slash := by
  obtain ⟨segment, hsegment, hc⟩ := List.mem_flatMap.mp h
  rcases List.mem_cons.mp hc with rfl | hc
  · exact .inr rfl
  · exact .inl (hsegments segment hsegment c hc)

/-- A target is read as what it was made of. -/
theorem readTarget_targetText {segments : List (List UInt8)}
    {fields : List (List UInt8 × List UInt8)}
    (hsegments : ∀ segment ∈ segments, ∀ c ∈ segment, isUnreserved c = true)
    (hnames : ∀ field ∈ fields, ∀ c ∈ field.1, isUnreserved c = true) :
    readTarget (targetText segments fields) = some (segments, fields) := by
  have hpath : ∀ c ∈ pathText segments, decide (c ≠ questionMark) = true := by
    intro c hc
    refine decide_eq_true ?_
    rintro rfl
    rcases mem_pathText hsegments hc with h | h
    · exact absurd h (by decide)
    · exact absurd h (by decide)
  have hsplit : (pathText segments).splitOn slash = [] :: segments := by
    rw [pathText_eq]
    refine List.splitOn_intercalate slash ?_ (by simp)
    intro segment hsegment hslash
    rcases List.mem_cons.mp hsegment with rfl | hsegment
    · cases hslash
    · exact absurd (hsegments segment hsegment _ hslash) (by decide)
  unfold readTarget targetText
  rw [List.takeWhile_append_of_pos hpath, List.dropWhile_append_of_pos hpath]
  by_cases hfields : fields = []
  · subst hfields
    simp only [if_true, List.takeWhile_nil, List.dropWhile_nil, List.append_nil, hsplit]
  · simp only [if_neg hfields, List.takeWhile_cons, List.dropWhile_cons, ne_eq, not_true_eq_false,
      decide_false, Bool.false_eq_true, if_false, List.append_nil, hsplit,
      readQuery_queryText hfields hnames, Option.map_some]

/-- An authority ends where a target begins. -/
theorem takeWhile_targetText (segments : List (List UInt8))
    (fields : List (List UInt8 × List UInt8)) :
    (targetText segments fields).takeWhile inAuthority = [] ∧
      (targetText segments fields).dropWhile inAuthority = targetText segments fields := by
  cases segments with
  | nil =>
    by_cases hfields : fields = []
    · subst hfields
      exact ⟨rfl, rfl⟩
    · simp [targetText, pathText, hfields, inAuthority]
  | cons segment segments => simp [targetText, pathText, inAuthority]

/-- **A URL is read as what it was made of**, its origin first. -/
theorem readUrl_targetText (scheme : List UInt8) {host : List UInt8}
    {segments : List (List UInt8)} {fields : List (List UInt8 × List UInt8)}
    (hhost : ∀ c ∈ host, inAuthority c = true)
    (hsegments : ∀ segment ∈ segments, ∀ c ∈ segment, isUnreserved c = true)
    (hnames : ∀ field ∈ fields, ∀ c ∈ field.1, isUnreserved c = true) :
    readUrl scheme (scheme ++ host ++ targetText segments fields) =
      some (scheme ++ host, segments, fields) := by
  obtain ⟨hnone, htarget⟩ := takeWhile_targetText segments fields
  unfold readUrl
  rw [List.append_assoc, if_pos (List.prefix_append _ _), List.drop_left]
  dsimp only
  rw [List.takeWhile_append_of_pos hhost, List.dropWhile_append_of_pos hhost, hnone, htarget,
    readTarget_targetText hsegments hnames, List.append_nil]
  rfl

/-- Nothing but unreserved bytes, `%` and the separators are written. -/
theorem mem_targetText {segments : List (List UInt8)} {fields : List (List UInt8 × List UInt8)}
    (hsegments : ∀ segment ∈ segments, ∀ c ∈ segment, isUnreserved c = true)
    (hnames : ∀ field ∈ fields, ∀ c ∈ field.1, isUnreserved c = true) {c : UInt8}
    (h : c ∈ targetText segments fields) :
    isUnreserved c = true ∨ c ∈ [slash, questionMark, percentSign, ampersand, equalsSign] := by
  rw [targetText, List.mem_append] at h
  rcases h with h | h
  · rcases mem_pathText hsegments h with h | rfl
    · exact .inl h
    · exact .inr (by decide)
  · split at h
    · cases h
    · rcases List.mem_cons.mp h with rfl | h
      · exact .inr (by decide)
      · rcases mem_queryText hnames h with h | rfl | rfl | rfl
        · exact .inl h
        · exact .inr (by decide)
        · exact .inr (by decide)
        · exact .inr (by decide)

end Lib
