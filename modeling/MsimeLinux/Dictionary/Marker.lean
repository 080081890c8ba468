import Mathlib.Algebra.Group.Nat.Defs
import MsimeLinux.Bytes

/-!
# The active-dictionary marker (`NativeInstallation.cpp`)

The file that says which generation is active holds a fixed line, a generation and the
identifier of its content, a line each. It is read with offsets, and written by putting the
pieces together.

- `decode_spec`: what is accepted, and that no offset is outside of the string.
- `marker_codec`: reading and writing are inverse.
-/

namespace MsimeLinux

namespace NativeInstallation

/-! ## Strings -/

/-- A string that fits into memory. -/
abbrev StdString := { value : Bytes // value.length < 2 ^ 64 }

/-- Why a marker is not read: `require`, or an offset that is not in the string. -/
inductive MarkerError where
  | invalid
  | outOfRange
  deriving DecidableEq

/-- `require` (NativeInstallation.cpp:25). -/
def require (value : Bool) : Except MarkerError Unit :=
  if value then .ok () else .error .invalid

/-- `std::string::substr`. -/
def substr (value : Bytes) (pos count : Nat) : Except MarkerError Bytes :=
  if pos ≤ value.length then .ok ((value.drop pos).take count) else .error .outOfRange

/-- `std::string::find` of a byte; `none` is `npos`. -/
def find (value : Bytes) (c : UInt8) (pos : Nat) : Option Nat :=
  ((value.drop pos).findIdx? (· == c)).map (pos + ·)

/-- `std::string::back`. -/
def back (value : Bytes) : Except MarkerError UInt8 :=
  match value.getLast? with
  | none => .error .outOfRange
  | some c => .ok c

/-- A difference of sizes, which wraps. -/
def sizeSub (a b : Nat) : Nat := (UInt64.ofNat a - UInt64.ofNat b).toNat

/-! ## The marker -/

/-- `prefix` (NativeInstallation.cpp:15). -/
def markerPrefix : Bytes := ascii "msime-active-dictionary-v1\n"

/-- `identifier` (NativeInstallation.cpp:30). -/
def identifier (value : Bytes) : Bool :=
  !value.isEmpty && value.length ≤ 128 && value.all fun c =>
    (97 ≤ c && c ≤ 122) || (65 ≤ c && c ≤ 90) || (48 ≤ c && c ≤ 57) || c == 95 || c == 45

/-- `decode` (NativeInstallation.cpp:85). -/
def decode (value : Bytes) : Except MarkerError (Bytes × Bytes) := do
  require (value.take markerPrefix.length == markerPrefix)
  match find value newline markerPrefix.length with
  | none => .error .invalid
  | some last =>
    require ((← back value) == newline)
    let first ← substr value markerPrefix.length (sizeSub last markerPrefix.length)
    let second ← substr value (last + 1) (sizeSub (sizeSub value.length last) 2)
    require (identifier first)
    require (identifier second)
    return (first, second)

/-- `contents` in `publish` (NativeInstallation.cpp:160). -/
def markerText (name content : Bytes) : Bytes :=
  markerPrefix ++ name ++ [newline] ++ content ++ [newline]

/-! ## Reading -/

section

variable {value rest name content : Bytes} {pos last : Nat}

theorem newline_not_mem_identifier (h : identifier value = true) : newline ∉ value := by
  intro hmem
  rw [identifier, Bool.and_eq_true] at h
  have hall := List.all_eq_true.mp h.2 newline hmem
  revert hall
  decide

theorem identifier_length_le (h : identifier value = true) : value.length ≤ 128 := by
  rw [identifier, Bool.and_eq_true, Bool.and_eq_true, decide_eq_true_eq] at h
  exact h.1.2

theorem sizeSub_eq {a b : Nat} (ha : a < 2 ^ 64) (hb : b ≤ a) : sizeSub a b = a - b := by
  have hb' : b < 2 ^ 64 := by omega
  have hle : UInt64.ofNat b ≤ UInt64.ofNat a := by
    rw [UInt64.le_iff_toNat_le, UInt64.toNat_ofNat_of_lt' hb', UInt64.toNat_ofNat_of_lt' ha]
    exact hb
  rw [sizeSub, UInt64.toNat_sub_of_le _ _ hle, UInt64.toNat_ofNat_of_lt' hb',
    UInt64.toNat_ofNat_of_lt' ha]

/-- Where the first occurrence is. -/
theorem find_eq_some_iff {c : UInt8} : find (value ++ rest) c value.length = some last ↔
    ∃ first second, rest = first ++ c :: second ∧ c ∉ first ∧
      last = value.length + first.length := by
  rw [find, List.drop_left, Option.map_eq_some_iff]
  constructor
  · rintro ⟨i, hi, rfl⟩
    obtain ⟨hlt, hc, hbefore⟩ := List.findIdx?_eq_some_iff_getElem.mp hi
    refine ⟨rest.take i, rest.drop (i + 1), ?_, fun hmem => ?_, ?_⟩
    · rw [← eq_of_beq hc, List.getElem_cons_drop, List.take_append_drop]
    · obtain ⟨j, hj, hget⟩ := List.getElem_of_mem hmem
      rw [List.length_take] at hj
      rw [List.getElem_take] at hget
      exact hbefore j (by omega) (beq_iff_eq.mpr hget)
    · rw [List.length_take, Nat.min_eq_left (Nat.le_of_lt hlt)]
  · rintro ⟨first, second, rfl, hfirst, rfl⟩
    refine ⟨first.length, ?_, rfl⟩
    refine List.findIdx?_eq_some_iff_getElem.mpr ⟨by simp, by simp, fun j hj hget => hfirst ?_⟩
    rw [List.getElem_append_left hj, beq_iff_eq] at hget
    exact hget ▸ List.getElem_mem hj

theorem require_bind {α : Type} {f : Unit → Except MarkerError α} (p : Bool) :
    require p >>= f = if p then f () else .error .invalid := by
  cases p <;> rfl

/-- What is read from a string with the prefix and another newline: the offsets are the ends
of its parts, and the difference that may wrap does so where nothing is left to read. -/
theorem decode_append (first second : Bytes) (hfirst : newline ∉ first)
    (hsize : (markerPrefix ++ (first ++ newline :: second)).length < 2 ^ 64) :
    decode (markerPrefix ++ (first ++ newline :: second)) =
      if (newline :: second).getLast? = some newline ∧ identifier first = true ∧
          identifier second.dropLast = true then
        .ok (first, second.dropLast)
      else .error .invalid := by
  set value := markerPrefix ++ (first ++ newline :: second) with hvalue
  have hlength : value.length = markerPrefix.length + first.length + 1 + second.length := by
    simp [hvalue]
    omega
  -- what the reader finds at each of its offsets, one after the other
  have htake : (value.take markerPrefix.length == markerPrefix) = true := by
    rw [hvalue, List.take_left, beq_self_eq_true]
  have hfind : find value newline markerPrefix.length =
      some (markerPrefix.length + first.length) :=
    find_eq_some_iff.mpr ⟨first, second, rfl, hfirst, rfl⟩
  have hlast : value.getLast? = (newline :: second).getLast? := by
    rw [hvalue, ← List.append_assoc, List.getLast?_append,
      List.getLast?_eq_some_getLast (List.cons_ne_nil _ _)]
    rfl
  have hfirstText : substr value markerPrefix.length
      (sizeSub (markerPrefix.length + first.length) markerPrefix.length) = .ok first := by
    rw [substr, if_pos (by omega), sizeSub_eq (by omega) (by omega), hvalue, List.drop_left,
      Nat.add_sub_cancel_left, List.take_left]
  -- the length of the second part is a difference that may be -1
  have hsecondText : substr value (markerPrefix.length + first.length + 1)
      (sizeSub (sizeSub value.length (markerPrefix.length + first.length)) 2) =
        .ok second.dropLast := by
    have hdrop : value.drop (markerPrefix.length + first.length + 1) = second := by
      rw [hvalue, Nat.add_assoc, ← List.drop_drop, List.drop_left, ← List.drop_drop,
        List.drop_left]
      rfl
    have hrest : sizeSub value.length (markerPrefix.length + first.length) =
        second.length + 1 := by
      rw [sizeSub_eq (by omega) (by omega)]
      omega
    rw [substr, if_pos (by omega), hdrop, hrest]
    cases second with
    | nil => simp
    | cons c second =>
      rw [List.length_cons] at hlength ⊢
      rw [sizeSub_eq (by omega) (by omega), List.dropLast_eq_take]
      rfl
  obtain ⟨c, hc⟩ : ∃ c, (newline :: second).getLast? = some c :=
    ⟨_, List.getLast?_eq_some_getLast (List.cons_ne_nil _ _)⟩
  -- with these the reader comes to its three tests
  unfold decode
  rw [require_bind, if_pos htake, hfind]
  dsimp only
  rw [back, hlast, hc, hfirstText, hsecondText]
  show (require (c == newline) >>= fun _ => require (identifier first) >>= fun _ =>
    require (identifier second.dropLast) >>= fun _ => .ok (first, second.dropLast)) = _
  rw [require_bind, require_bind, require_bind]
  by_cases hnewline : c = newline
  · subst hnewline
    cases identifier first <;> cases identifier second.dropLast <;> simp
  · simp [hnewline]

/-- What is written, in the parts it is read in. -/
theorem markerText_eq (name content : Bytes) :
    markerText name content = markerPrefix ++ (name ++ newline :: (content ++ [newline])) := by
  simp [markerText, List.append_assoc]

theorem markerText_length (name content : Bytes) :
    (markerText name content).length = 29 + name.length + content.length := by
  have hprefix : markerPrefix.length = 27 := by decide
  simp only [markerText_eq, List.length_append, List.length_cons, List.length_nil, hprefix]
  omega

/-- It is read if it is small enough to be a marker (NativeInstallation.cpp:59). -/
theorem markerText_length_le (hname : identifier name = true)
    (hcontent : identifier content = true) : (markerText name content).length ≤ 512 := by
  have hname := identifier_length_le hname
  have hcontent := identifier_length_le hcontent
  rw [markerText_length]
  omega

/-- Nothing is found where the text has no newline. -/
theorem find_eq_none {c : UInt8} (h : c ∉ rest) : find (value ++ rest) c value.length = none := by
  rw [find, List.drop_left, Option.map_eq_none_iff, List.findIdx?_eq_none_iff]
  intro d hd
  exact beq_eq_false_iff_ne.mpr fun heq => h (heq ▸ hd)

/-- Any other string is refused before an offset is made. -/
theorem decode_eq_invalid
    (h : ¬ ∃ first second, newline ∉ first ∧
      value = markerPrefix ++ (first ++ newline :: second)) :
    decode value = .error .invalid := by
  unfold decode
  rw [require_bind]
  by_cases hprefix : markerPrefix <+: value
  · obtain ⟨rest, rfl⟩ := hprefix
    have hrest : newline ∉ rest := by
      intro hmem
      obtain ⟨first, second, rfl, hfirst⟩ := List.eq_append_cons_of_mem hmem
      exact h ⟨first, second, hfirst, rfl⟩
    rw [List.take_left, beq_self_eq_true, if_pos rfl, find_eq_none hrest]
  · rw [if_neg]
    intro htake
    rw [List.prefix_iff_eq_take] at hprefix
    exact hprefix (eq_of_beq htake).symm

/-- The first newline divides a text in one way. -/
theorem append_newline_inj {first second second' : Bytes} (hfirst : newline ∉ first)
    (hname : newline ∉ name) (h : first ++ newline :: second = name ++ newline :: second') :
    first = name ∧ second = second' := by
  induction first generalizing name with
  | nil =>
    cases name with
    | nil => exact ⟨rfl, List.cons.inj h |>.2⟩
    | cons c name => exact absurd ((List.cons.inj h).1 ▸ List.mem_cons_self) hname
  | cons c first ih =>
    cases name with
    | nil => exact absurd ((List.cons.inj h).1 ▸ List.mem_cons_self) hfirst
    | cons d name =>
      obtain ⟨rfl, htail⟩ := List.cons.inj h
      obtain ⟨rfl, hsecond⟩ := ih (fun hmem => hfirst (List.mem_cons_of_mem _ hmem))
        (fun hmem => hname (List.mem_cons_of_mem _ hmem)) htail
      exact ⟨rfl, hsecond⟩

/-- The parts of a marker text. -/
theorem append_eq_markerText_iff {first second : Bytes} (hfirst : newline ∉ first)
    (hname : newline ∉ name) : markerPrefix ++ (first ++ newline :: second) =
      markerText name content ↔ first = name ∧ second = content ++ [newline] := by
  rw [markerText_eq, List.append_cancel_left_eq]
  constructor
  · exact append_newline_inj hfirst hname
  · rintro ⟨rfl, rfl⟩
    rfl

/-- **What the decoder accepts**, and that it never leaves the string. -/
theorem decode_spec (value : StdString) :
    (∀ name content, decode value.val = .ok (name, content) ↔
      identifier name = true ∧ identifier content = true ∧
        value.val = markerText name content) ∧
      decode value.val ≠ .error .outOfRange := by
  obtain ⟨value, hsize⟩ := value
  dsimp only
  by_cases hshape : ∃ first second, newline ∉ first ∧
      value = markerPrefix ++ (first ++ newline :: second)
  · obtain ⟨first, second, hfirst, rfl⟩ := hshape
    rw [decode_append first second hfirst hsize]
    refine ⟨fun name content => ⟨fun h => ?_, ?_⟩, by split <;> nofun⟩
    · split at h
      · cases h
        obtain ⟨hlast, hname, hcontent⟩ := ‹_›
        refine ⟨hname, hcontent, (append_eq_markerText_iff hfirst hfirst).mpr ⟨rfl, ?_⟩⟩
        -- a content that is not empty ends before the last newline
        cases second with
        | nil => cases hcontent
        | cons c second =>
          rw [List.getLast?_cons_cons] at hlast
          obtain ⟨content, hcontentText⟩ := List.getLast?_eq_some_iff.mp hlast
          rw [hcontentText, List.dropLast_concat]
      · cases h
    · rintro ⟨hname, hcontent, heq⟩
      obtain ⟨rfl, rfl⟩ :=
        (append_eq_markerText_iff hfirst (newline_not_mem_identifier hname)).mp heq
      have hlast : (newline :: (content ++ [newline])).getLast? = some newline := by
        rw [← List.cons_append, List.getLast?_concat]
      rw [List.dropLast_concat, if_pos ⟨hlast, hname, hcontent⟩]
  · rw [decode_eq_invalid hshape]
    refine ⟨fun name content => ⟨nofun, ?_⟩, nofun⟩
    rintro ⟨hname, -, rfl⟩
    exact absurd ⟨name, _, newline_not_mem_identifier hname, markerText_eq name content⟩ hshape

/-- What is written is read. -/
theorem decode_markerText (hname : identifier name = true) (hcontent : identifier content = true) :
    decode (markerText name content) = .ok (name, content) := by
  have hlength := markerText_length_le hname hcontent
  exact ((decode_spec ⟨markerText name content, by omega⟩).1 name content).mpr
    ⟨hname, hcontent, rfl⟩

/-- **The codec of the marker is exact**: a string is read if and only if it is what is
written for two identifiers, which are then what is read; what is written is read; and no
offset ever leaves the string. -/
theorem marker_codec :
    (∀ value : StdString, (∀ name content, decode value.val = .ok (name, content) ↔
      identifier name = true ∧ identifier content = true ∧ value.val =
        markerPrefix ++ name ++ [newline] ++ content ++ [newline]) ∧
      decode value.val ≠ .error .outOfRange) ∧
    ∀ name content, identifier name = true → identifier content = true →
      decode (markerText name content) = .ok (name, content) :=
  ⟨decode_spec, fun _ _ => decode_markerText⟩

end

end NativeInstallation

end MsimeLinux
