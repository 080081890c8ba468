import Mathlib.Data.List.DropRight
import MsimeLinux.Clipboard.ClipboardRuns

/-!
# The normal form of the clipboard history

Whatever is called, in whatever order and with whatever failures, the stored list is
short, without duplicates, newest first, and of texts `add` may have stored. Whether
`add` would store such a text again as it is depends on where it was cut:
`normalize` drops the bytes at the end before it cuts the text to `maxChars`
characters, and the cut may leave a CR there.

- `normalize_normalize_iff`: a normal text is normal again, unless it was cut after a CR.
- `normalForm_run`: what every run keeps.
- `clipboard_normalForm`: the normal form, when no text is cut after a CR.
-/

namespace MsimeLinux

open Lib

/-! ## Normalizing twice -/

/-- The text is longer than a history keeps, and would be cut after a CR. -/
def CutAfterReturn (text : Bytes) : Prop :=
  validItem (dropTrailing text) = true ∧ maxChars < characterCount (dropTrailing text) ∧
    (takeCharacters maxChars (dropTrailing text)).getLast? = some 13

instance (text : Bytes) : Decidable (CutAfterReturn text) :=
  inferInstanceAs (Decidable (_ ∧ _ ∧ _))

theorem characterCount_encode (chars : List Char) :
    characterCount (chars.flatMap String.utf8EncodeChar) = chars.length := by
  induction chars with
  | nil => rfl
  | cons c chars ih =>
    obtain ⟨first, rest, hencode, hfirst, hrest⟩ := utf8EncodeChar_split c
    have hwithin : rest.countP beginsCharacter = 0 :=
      List.countP_eq_zero.mpr fun b hb => by simp [hrest b hb]
    unfold characterCount at ih ⊢
    rw [List.flatMap_cons, List.countP_append, ih, hencode, List.countP_cons, hwithin, hfirst,
      List.length_cons]
    simp [Nat.add_comm]

/-- A text that does not end in NUL or CR has nothing to drop. -/
theorem dropTrailing_eq_self_iff {text : Bytes} :
    dropTrailing text = text ↔ ∀ c, text.getLast? = some c → c ≠ 0 ∧ c ≠ 13 := by
  rw [dropTrailing, List.reverse_eq_iff, ← List.head?_reverse]
  cases text.reverse with
  | nil => simp
  | cons c rest =>
    by_cases hc : (c == 0 || c == 13) = true
    · have hdrop : List.dropWhile (fun c => c == 0 || c == 13) (c :: rest) ≠ c :: rest := by
        rw [List.dropWhile_cons, if_pos hc]
        intro h
        have hle : (rest.dropWhile fun c : UInt8 => c == 0 || c == 13).length ≤ rest.length :=
          (List.dropWhile_sublist _).length_le
        rw [h, List.length_cons] at hle
        omega
      simp only [Bool.or_eq_true, beq_iff_eq] at hc
      refine ⟨fun h => absurd h hdrop, fun h => ?_⟩
      have := h c rfl
      exact absurd hc (by simp [this])
    · have hkeep : List.dropWhile (fun c => c == 0 || c == 13) (c :: rest) = c :: rest := by
        rw [List.dropWhile_cons, if_neg hc]
      simp only [Bool.or_eq_true, beq_iff_eq, not_or] at hc
      refine ⟨fun _ d hd => ?_, fun _ => hkeep⟩
      obtain rfl : c = d := Option.some.inj hd
      exact hc

theorem dropTrailing_dropTrailing (text : Bytes) :
    dropTrailing (dropTrailing text) = dropTrailing text := by
  unfold dropTrailing
  rw [List.reverse_reverse, List.dropWhile_idempotent]

theorem dropTrailing_append_return (text : Bytes) :
    dropTrailing (text ++ [13]) = dropTrailing text := by
  rw [dropTrailing, List.reverse_append, List.reverse_singleton, List.singleton_append,
    List.dropWhile_cons, if_pos (by decide), dropTrailing]

/-- Dropping shortens, or does nothing. -/
theorem dropTrailing_eq_of_length {text : Bytes} (h : text.length ≤ (dropTrailing text).length) :
    dropTrailing text = text := by
  rw [dropTrailing, List.reverse_eq_iff]
  rw [dropTrailing, List.length_reverse, ← List.length_reverse] at h
  exact (List.dropWhile_suffix _).sublist.eq_of_length_le h

theorem takeCharacters_length_le (n : Nat) (text : Bytes) :
    (takeCharacters n text).length ≤ text.length :=
  (takeCharacters_sublist n text).length_le

/-- A normal text is no longer than what it was made of, without its end. -/
theorem length_normalize_le (text : Bytes) :
    (normalize text).length ≤ (dropTrailing text).length := by
  unfold normalize
  dsimp only
  split
  · exact Nat.zero_le _
  · split
    · exact takeCharacters_length_le _ _
    · exact Nat.le_refl _

/-- A text that is short enough, and ends well, is normal. -/
theorem normalize_eq_self {text : Bytes} (hdrop : dropTrailing text = text)
    (hvalid : validItem text = true) (hcount : characterCount text ≤ maxChars) :
    normalize text = text := by
  unfold normalize
  dsimp only
  rw [hdrop]
  split
  · next h =>
    rcases h with rfl | h
    · rfl
    · rw [hvalid] at h
      cases h
  · rw [if_neg (Nat.not_lt.mpr hcount)]

/-- What is left of a text that is cut. -/
theorem takeCharacters_valid {text : Bytes} (hvalid : validItem text = true)
    (hcount : maxChars < characterCount text) :
    validItem (takeCharacters maxChars text) = true ∧
      characterCount (takeCharacters maxChars text) = maxChars := by
  obtain ⟨⟨chars, rfl⟩, hnul⟩ := validItem_iff.mp hvalid
  rw [characterCount_encode] at hcount
  rw [takeCharacters_encode, characterCount_encode, List.length_take,
    Nat.min_eq_left hcount.le]
  refine ⟨validItem_iff.mpr ⟨⟨_, rfl⟩, fun hmem => hnul ?_⟩, rfl⟩
  rw [← takeCharacters_encode] at hmem
  exact (takeCharacters_sublist _ _).subset hmem

/-- **A normal text is normal again, unless it was cut after a CR.** -/
theorem normalize_normalize_iff {text : Bytes} :
    normalize (normalize text) = normalize text ↔ ¬ CutAfterReturn text := by
  by_cases hempty : dropTrailing text = [] ∨ validItem (dropTrailing text) = false
  · have hnil : normalize text = [] := if_pos hempty
    have hnot : ¬ CutAfterReturn text := by
      rintro ⟨hvalid, hcount, -⟩
      rcases hempty with hnone | hinvalid
      · rw [hnone] at hcount
        exact absurd hcount (by decide)
      · rw [hinvalid] at hvalid
        cases hvalid
    rw [hnil]
    exact iff_of_true (by decide) hnot
  have hvalid : validItem (dropTrailing text) = true := by
    simpa using fun h => hempty (.inr h)
  by_cases hcount : maxChars < characterCount (dropTrailing text)
  · have hcut : normalize text = takeCharacters maxChars (dropTrailing text) := by
      unfold normalize
      dsimp only
      rw [if_neg hempty, if_pos hcount]
    obtain ⟨hcutValid, hcutCount⟩ := takeCharacters_valid hvalid hcount
    rw [hcut]
    by_cases hreturn : (takeCharacters maxChars (dropTrailing text)).getLast? = some 13
    · -- the CR at the end is dropped the second time
      refine iff_of_false (fun h => ?_) (fun h => h ⟨hvalid, hcount, hreturn⟩)
      have hdrop : dropTrailing (takeCharacters maxChars (dropTrailing text)) ≠
          takeCharacters maxChars (dropTrailing text) :=
        fun h => (dropTrailing_eq_self_iff.mp h 13 hreturn).2 rfl
      have hle := length_normalize_le (takeCharacters maxChars (dropTrailing text))
      rw [h] at hle
      exact hdrop (dropTrailing_eq_of_length hle)
    · refine iff_of_true (normalize_eq_self ?_ hcutValid hcutCount.le) fun h => hreturn h.2.2
      refine dropTrailing_eq_self_iff.mpr fun c hc => ⟨?_, ?_⟩
      · rintro rfl
        exact (validItem_iff.mp hcutValid).2 (List.mem_of_getLast? hc)
      · rintro rfl
        exact hreturn hc
  · have hkeep : normalize text = dropTrailing text := by
      unfold normalize
      dsimp only
      rw [if_neg hempty, if_neg hcount]
    rw [hkeep]
    exact iff_of_true (normalize_eq_self (dropTrailing_dropTrailing text) hvalid
      (Nat.not_lt.mp hcount)) fun h => hcount h.2.1

/-! ## The order of the list -/

/-- Texts by when they came last, the latest first; the log has the latest first. -/
def recent : List Bytes → List Bytes
  | [] => []
  | text :: log => text :: (recent log).filter (· ≠ text)

theorem recent_nodup (log : List Bytes) : (recent log).Nodup := by
  induction log with
  | nil => exact List.nodup_nil
  | cons text log ih =>
    refine List.nodup_cons.mpr ⟨fun hmem => ?_, ih.filter _⟩
    simpa using (List.mem_filter.mp hmem).2

theorem mem_recent {text : Bytes} {log : List Bytes} : text ∈ recent log ↔ text ∈ log := by
  induction log with
  | nil => rfl
  | cons newest log ih =>
    by_cases h : text = newest
    · simp [recent, h]
    · simp [recent, h, ih]

theorem filter_ne_of_notMem {text : Bytes} {items : List Bytes} (h : text ∉ items) :
    items.filter (· ≠ text) = items := by
  refine List.filter_eq_self.mpr fun t ht => decide_eq_true ?_
  rintro rfl
  exact h ht

/-- What follows the newest text was there before. -/
theorem sublist_recent_cons {text : Bytes} {items log : List Bytes}
    (h : items.Sublist (recent log)) :
    (text :: items.filter (· ≠ text)).Sublist (recent (text :: log)) :=
  (h.filter _).cons_cons text

/-! ## Runs of calls -/

/-- A call, and what the system does in each of its steps; a call with too few has been
cut short. -/
structure ClipboardUse where
  call : ClipboardCall
  io : List ClipboardIo

/-- The store and `config.ini` between calls, and the texts that came to the front of
the list, the latest first. -/
structure ClipboardLog where
  file : Option Bytes := none
  disk : Disk
  added : List Bytes := []

namespace ClipboardEnv

variable (E : ClipboardEnv)

/-- A call, with no other one under way. -/
def perform (file : Option Bytes) (disk : Disk) (use : ClipboardUse) : ClipboardState Unit :=
  clipboardRun E (fun _ => use.call) (.initial file disk) (use.io.map fun io => ((), io))

/-- The text a call has put in front, or found there. -/
def front (use : ClipboardUse) (items : List Bytes) : Option Bytes :=
  match use.call with
  | .add text => items.head?.filter fun t => t = normalize text
  | .remove _ | .clear | .setEnabled _ => none

/-- The next call. -/
def next (h : ClipboardLog) (use : ClipboardUse) : ClipboardLog :=
  let s := E.perform h.file h.disk use
  { file := s.file, disk := s.disk, added := (front use (E.stored s.file)).toList ++ h.added }

/-- Calls one after the other, from an empty store. -/
def performAll (disk : Disk) (uses : List ClipboardUse) : ClipboardLog :=
  uses.foldl E.next { disk := disk }

end ClipboardEnv

section

variable {E : ClipboardEnv} {file : Option Bytes} {call : ClipboardCall}

/-- What a call can leave in the store: what there was, with nothing new; or, of an
`add`, its text in front of that. -/
def CallResult (E : ClipboardEnv) (file : Option Bytes) (call : ClipboardCall)
    (file' : Option Bytes) : Prop :=
  (E.stored file').Sublist (E.stored file) ∨
    ∃ (text : Bytes) (items : List Bytes), call = .add text ∧ normalize text ≠ [] ∧
      items.Sublist (E.stored file) ∧
      E.stored file' = (normalize text :: items.filter (· ≠ normalize text)).take maxItems

theorem CallResult.refl : CallResult E file call file := .inl (List.Sublist.refl _)

/-- How far a call is. -/
def CallStage (E : ClipboardEnv) (file : Option Bytes) (call : ClipboardCall)
    (s : ClipboardState Unit) : Prop :=
  match s.pc () with
  | .waiting | .clearing _ => s.file = file
  | .adding text => s.file = file ∧ text ≠ [] ∧ ∃ original, call = .add original ∧
      text = normalize original
  | .removing items => s.file = file ∧ items.Sublist (E.stored file)
  | .saving _ | .returned _ => CallResult E file call s.file

theorem readItems_sublist (io : ClipboardIo) (file : Option Bytes) :
    (E.readItems io file).Sublist (E.stored file) := by
  unfold ClipboardEnv.readItems
  split
  · exact List.Sublist.refl _
  · exact List.nil_sublist _

theorem clearItems_sublist (hJ : E.json.ReadsStrings) (io : ClipboardIo) (file : Option Bytes) :
    (E.stored (E.clearItems io file).1).Sublist (E.stored file) := by
  unfold ClipboardEnv.clearItems ClipboardEnv.writeFile
  split
  · exact List.Sublist.refl _
  split
  · exact List.Sublist.refl _
  split
  · show (parseItems E.json (ascii "[]\n")).Sublist _
    rw [parseItems_empty hJ]
    exact List.nil_sublist _
  · exact List.Sublist.refl _

theorem writeItems_result (hJ : E.json.ReadsStrings) {io : ClipboardIo} {items : List Bytes}
    (hgood : GoodItems items) :
    (E.writeFile io file (serializeItems E.json items)).1 = file ∨
      E.stored (E.writeFile io file (serializeItems E.json items)).1 = items := by
  unfold ClipboardEnv.writeFile
  split
  · exact .inr (parseItems_serializeItems hJ hgood)
  · exact .inl rfl

/-- One step of a call. -/
theorem CallStage.step (hJ : E.json.ReadsStrings) {s : ClipboardState Unit} {io : ClipboardIo}
    (h : CallStage E file call s) :
    CallStage E file call (clipboardStep E (fun _ => call) s () io) := by
  unfold CallStage at h
  unfold clipboardStep
  cases hpc : s.pc () with
  | waiting =>
    rw [hpc] at h
    have hfile : s.file = file := h
    -- nothing is written yet, except by `clear`, which takes no second step
    cases call with
    | add text =>
      dsimp only
      split
      · show CallResult E file _ s.file
        rw [hfile]
        exact CallResult.refl
      · next hgo => exact ⟨hfile, fun hnil => hgo (.inl hnil), text, rfl, rfl⟩
    | remove text =>
      dsimp only
      split
      · show CallResult E file _ s.file
        rw [hfile]
        exact CallResult.refl
      split
      · show CallResult E file _ s.file
        rw [hfile]
        exact CallResult.refl
      · exact ⟨hfile, List.filter_sublist.trans (hfile ▸ readItems_sublist io s.file)⟩
    | clear =>
      exact .inl (hfile ▸ clearItems_sublist hJ io s.file)
    | setEnabled value =>
      cases value with
      | true =>
        show CallResult E file _ s.file
        rw [hfile]
        exact CallResult.refl
      | false => exact hfile
  | adding text =>
    rw [hpc] at h
    -- the text goes to the front, and what was there of it goes away
    obtain ⟨hfile, hne, original, hcall, rfl⟩ := h
    show CallResult E file call (E.addItem io s.file (normalize original)).1
    rw [hfile]
    unfold ClipboardEnv.addItem
    dsimp only
    split
    · exact CallResult.refl
    · have hgood : GoodItems ((normalize original ::
          (E.readItems io file).filter (· ≠ normalize original)).take maxItems) := by
        refine addItems_good ?_ (normalize_valid hne)
        have hstored := parseItems_good (J := E.json)
        unfold ClipboardEnv.readItems
        split
        · exact stored_good file
        · exact ⟨by simp, Nat.zero_le _⟩
      rcases writeItems_result hJ hgood with hsame | hwritten
      · rw [hsame]
        exact CallResult.refl
      · exact .inr ⟨original, _, hcall, hne, readItems_sublist io file, hwritten⟩
  | removing items =>
    rw [hpc] at h
    obtain ⟨hfile, hitems⟩ := h
    show CallResult E file call (E.writeFile io s.file (serializeItems E.json items)).1
    -- what is written was read before, less one text
    have hgood : GoodItems items :=
      ⟨fun t ht => (stored_good file).1 t (hitems.subset ht),
        hitems.length_le.trans (stored_good file).2⟩
    rw [hfile]
    rcases writeItems_result hJ hgood with hsame | hwritten
    · rw [hsame]
      exact CallResult.refl
    · refine .inl ?_
      rw [hwritten]
      exact hitems
  | clearing current =>
    rw [hpc] at h
    have hfile : s.file = file := h
    -- the items are cleared before the setting is saved, and whether or not it is
    have hcleared : CallResult E file call (E.clearItems io s.file).1 :=
      .inl (hfile ▸ clearItems_sublist hJ io s.file)
    dsimp only
    split
    · exact hcleared
    · exact hcleared
  | saving current =>
    rw [hpc] at h
    exact h
  | returned result =>
    rw [hpc] at h
    unfold CallStage
    rw [hpc]
    exact h

/-- A call on its own. -/
theorem perform_result (hJ : E.json.ReadsStrings) (file : Option Bytes) (disk : Disk)
    (use : ClipboardUse) : CallResult E file use.call (E.perform file disk use).file := by
  have hsteps : ∀ (io : List ClipboardIo) (s : ClipboardState Unit),
      CallStage E file use.call s → CallStage E file use.call
        (clipboardRun E (fun _ => use.call) s (io.map fun io => ((), io))) := by
    intro io
    induction io with
    | nil => exact fun s hs => hs
    | cons first io ih => exact fun s hs => ih _ (hs.step hJ)
  have hstage := hsteps use.io (.initial file disk) rfl
  unfold CallStage at hstage
  have hsame : ∀ {file' : Option Bytes}, file' = file → CallResult E file use.call file' := by
    rintro _ rfl
    exact CallResult.refl
  split at hstage
  · exact hsame hstage
  · exact hsame hstage
  · exact hsame hstage.1
  · exact hsame hstage.1
  · exact hstage
  · exact hstage

/-! ## The normal form -/

/-- The store after some calls. -/
structure NormalForm (E : ClipboardEnv) (h : ClipboardLog) : Prop where
  bounded : (E.stored h.file).length ≤ maxItems
  newestFirst : (E.stored h.file).Sublist (recent h.added)
  items : ∀ t ∈ E.stored h.file, t ≠ [] ∧ validItem t = true ∧ characterCount t ≤ maxChars

theorem NormalForm.distinct {h : ClipboardLog} (hh : NormalForm E h) :
    (E.stored h.file).Nodup :=
  hh.newestFirst.nodup (recent_nodup _)

/-- A normal text is short enough. -/
theorem normalize_count (text : Bytes) : characterCount (normalize text) ≤ maxChars := by
  unfold normalize
  dsimp only
  split
  · exact Nat.zero_le _
  · next hvalid =>
    have hvalid : validItem (dropTrailing text) = true := by
      simpa using fun h => hvalid (.inr h)
    split
    · next hcount => exact (takeCharacters_valid hvalid hcount).2.le
    · next hcount => exact Nat.not_lt.mp hcount

/-- What is put in front is noted as the newest. -/
theorem front_add {call : ClipboardCall} {io : List ClipboardIo} {text : Bytes}
    {items : List Bytes} (hcall : call = .add text) (hhead : items.head? = some (normalize text)) :
    ClipboardEnv.front ⟨call, io⟩ items = some (normalize text) := by
  subst hcall
  simp [ClipboardEnv.front, hhead]

/-- **Every call keeps the normal form.** -/
theorem NormalForm.next (hJ : E.json.ReadsStrings) {h : ClipboardLog} (hh : NormalForm E h)
    (use : ClipboardUse) : NormalForm E (E.next h use) := by
  have hresult := perform_result hJ h.file h.disk use
  unfold ClipboardEnv.next
  dsimp only
  generalize hfile : (E.perform h.file h.disk use).file = file' at hresult
  -- a list that is noted to begin with a text is still in order
  have hnoted : ∀ {items : List Bytes}, items.Sublist (recent h.added) →
      items.Sublist (recent ((ClipboardEnv.front use items).toList ++ h.added)) := by
    intro items hitems
    cases hfront : ClipboardEnv.front use items with
    | none => exact hitems
    | some text =>
      unfold ClipboardEnv.front at hfront
      split at hfront
      · cases items with
        | nil => cases hfront
        | cons first rest =>
          obtain ⟨hfirst, -⟩ := Option.filter_eq_some_iff.mp hfront
          obtain rfl : first = text := Option.some.inj hfirst
          have hrest : first ∉ rest :=
            (List.nodup_cons.mp (hitems.nodup (recent_nodup _))).1
          have hsub : (first :: rest.filter (· ≠ first)).Sublist (recent (first :: h.added)) :=
            sublist_recent_cons ((List.sublist_cons_self first rest).trans hitems)
          rw [filter_ne_of_notMem hrest] at hsub
          exact hsub
      all_goals cases hfront
  rcases hresult with hold | ⟨text, items, hcall, hne, hitems, hstored⟩
  · exact
      { bounded := hold.length_le.trans hh.bounded
        newestFirst := hnoted (hold.trans hh.newestFirst)
        items := fun t ht => hh.items t (hold.subset ht) }
  · have hfront : ClipboardEnv.front use (E.stored file') = some (normalize text) := by
      obtain ⟨call, io⟩ := use
      refine front_add hcall ?_
      rw [hstored]
      rfl
    refine ⟨?_, ?_, fun t ht => ?_⟩
    · show (E.stored file').length ≤ maxItems
      rw [hstored, List.length_take]
      exact Nat.min_le_left ..
    · show (E.stored file').Sublist _
      rw [hfront, hstored]
      exact (List.take_sublist _ _).trans
        (sublist_recent_cons (hitems.trans hh.newestFirst))
    · have ht : t ∈ E.stored file' := ht
      rw [hstored] at ht
      rcases List.mem_cons.mp (List.mem_of_mem_take ht) with rfl | ht
      · exact ⟨hne, normalize_valid hne, normalize_count text⟩
      · exact hh.items t (hitems.subset (List.mem_filter.mp ht).1)

/-- What is listed came from a call. -/
theorem mem_added (disk : Disk) (uses : List ClipboardUse) :
    ∀ t ∈ (E.performAll disk uses).added, ∃ use ∈ uses, ∃ text, use.call = .add text ∧
      t = normalize text := by
  have hfront : ∀ {use : ClipboardUse} {items : List Bytes} {t : Bytes},
      ClipboardEnv.front use items = some t → ∃ text, use.call = .add text ∧
        t = normalize text := by
    intro use items t h
    unfold ClipboardEnv.front at h
    split at h
    · next text hcall =>
      exact ⟨text, hcall, of_decide_eq_true (Option.filter_eq_some_iff.mp h).2⟩
    all_goals cases h
  have hrun : ∀ (uses : List ClipboardUse) (h : ClipboardLog),
      ∀ t ∈ (uses.foldl E.next h).added, t ∈ h.added ∨ ∃ use ∈ uses, ∃ text,
        use.call = .add text ∧ t = normalize text := by
    intro uses
    induction uses with
    | nil => exact fun h t ht => .inl ht
    | cons use uses ih =>
      intro h t ht
      rcases ih _ t ht with hmem | ⟨later, hlater, htext⟩
      · rcases List.mem_append.mp hmem with hnew | hold
        · obtain ⟨text, hcall, rfl⟩ := hfront (Option.mem_toList.mp hnew)
          exact .inr ⟨use, List.mem_cons_self, text, hcall, rfl⟩
        · exact .inl hold
      · exact .inr ⟨later, List.mem_cons_of_mem _ hlater, htext⟩
  intro t ht
  rcases hrun uses { disk := disk } t ht with hnil | huse
  · exact absurd hnil List.not_mem_nil
  · exact huse

/-- **The normal form of every run.** -/
theorem normalForm_run (hJ : E.json.ReadsStrings) (disk : Disk) (uses : List ClipboardUse) :
    NormalForm E (E.performAll disk uses) := by
  have hrun : ∀ (uses : List ClipboardUse) (h : ClipboardLog), NormalForm E h →
      NormalForm E (uses.foldl E.next h) := by
    intro uses
    induction uses with
    | nil => exact fun h hh => hh
    | cons use uses ih => exact fun h hh => ih _ (hh.next hJ use)
  exact hrun uses { disk := disk }
    ⟨Nat.zero_le _, List.Sublist.refl _, by simp [ClipboardEnv.stored]⟩

/-- An `add` that goes through its two steps. -/
theorem perform_add {file : Option Bytes} {disk : Disk} {text : Bytes}
    (hne : normalize text ≠ []) (henabled : E.enabled disk = true) :
    (E.perform file disk ⟨.add text, [{}, {}]⟩).file = (E.addItem {} file (normalize text)).1 ∧
      (E.perform file disk ⟨.add text, [{}, {}]⟩).disk = disk := by
  have hfirst : clipboardStep E (fun _ : Unit => .add text) (.initial file disk) () {} =
      (ClipboardState.initial file disk).at () (.adding (normalize text)) := by
    show (if normalize text = [] ∨ E.enabled disk = false then _ else _) = _
    rw [if_neg (by simp [hne, henabled])]
  have hsteps : E.perform file disk ⟨.add text, [{}, {}]⟩ =
      clipboardStep E (fun _ : Unit => .add text)
        ((ClipboardState.initial file disk).at () (.adding (normalize text))) () {} := by
    rw [← hfirst]
    rfl
  rw [hsteps]
  unfold clipboardStep
  rw [ClipboardState.at_pc]
  exact ⟨rfl, rfl⟩

/-- Its list is written. -/
theorem stored_written (hJ : E.json.ReadsStrings) (hdirectory : E.directory = true)
    {file : Option Bytes} {items : List Bytes} (hgood : GoodItems items) :
    E.stored (E.writeFile {} file (serializeItems E.json items)).1 = items := by
  refine (stored_writeFile hJ hgood ?_).2
  unfold ClipboardEnv.writeFile
  rw [hdirectory]
  rfl

/-- A run of one call leaves what the call leaves. -/
theorem performAll_singleton (disk : Disk) (use : ClipboardUse) :
    (E.performAll disk [use]).file = (E.perform none disk use).file ∧
      (E.performAll disk [use]).disk = (E.perform none disk use).disk :=
  ⟨rfl, rfl⟩

/-- A text that is not listed is put in front of the list. -/
theorem perform_addNew (hJ : E.json.ReadsStrings) (hdirectory : E.directory = true)
    {file : Option Bytes} {disk : Disk} {text : Bytes} (hne : normalize text ≠ [])
    (henabled : E.enabled disk = true) (hnew : normalize text ∉ E.stored file)
    (hroom : (E.stored file).length < maxItems) :
    E.stored (E.perform file disk ⟨.add text, [{}, {}]⟩).file =
      normalize text :: E.stored file := by
  have hread : E.readItems {} file = E.stored file := rfl
  have hhead : (E.stored file).head? ≠ some (normalize text) :=
    fun h => hnew (List.mem_of_head? h)
  have hgood : GoodItems (normalize text :: E.stored file) := by
    refine ⟨fun t ht => ?_, hroom⟩
    rcases List.mem_cons.mp ht with rfl | ht
    · exact normalize_valid hne
    · exact (stored_good file).1 t ht
  rw [(perform_add hne henabled).1]
  unfold ClipboardEnv.addItem
  rw [hread, if_neg hhead]
  dsimp only
  rw [filter_ne_of_notMem hnew, List.take_of_length_le hroom]
  exact stored_written hJ hdirectory hgood

/-- A text that is stored in another form than `add` gives it gets a second entry. -/
theorem perform_addAgain (hJ : E.json.ReadsStrings) (hdirectory : E.directory = true)
    {file : Option Bytes} {disk : Disk} {text : Bytes} (hstored : E.stored file = [text])
    (hne : normalize text ≠ []) (hchanged : normalize text ≠ text)
    (henabled : E.enabled disk = true) :
    E.stored (E.perform file disk ⟨.add text, [{}, {}]⟩).file = [normalize text, text] := by
  have hnew : normalize text ∉ E.stored file := by
    rw [hstored, List.mem_singleton]
    exact hchanged
  have hroom : (E.stored file).length < maxItems := by
    rw [hstored, List.length_singleton]
    decide
  have hadd := perform_addNew hJ hdirectory hne henabled hnew hroom
  rw [hstored] at hadd
  exact hadd

/-- A listed text that is normal is put in front of the others. -/
theorem perform_addListed (hJ : E.json.ReadsStrings) {h : ClipboardLog} (hh : NormalForm E h)
    (henabled : E.enabled h.disk = true) (hdirectory : E.directory = true) {t : Bytes}
    (ht : t ∈ E.stored h.file) (hnormal : normalize t = t) :
    E.stored (E.perform h.file h.disk ⟨.add t, [{}, {}]⟩).file =
      t :: (E.stored h.file).filter (· ≠ t) := by
  have hne : t ≠ [] := (hh.items t ht).1
  rw [(perform_add (hnormal.symm ▸ hne) henabled).1, hnormal]
  have hread : E.readItems {} h.file = E.stored h.file := rfl
  unfold ClipboardEnv.addItem
  rw [hread]
  dsimp only
  split
  · next hhead =>
    -- it is there already
    cases hitems : E.stored h.file with
    | nil => simp [hitems] at hhead
    | cons first rest =>
      rw [hitems] at hhead
      obtain rfl : first = t := Option.some.inj hhead
      have hdistinct := hh.distinct
      rw [hitems] at hdistinct
      have hrest := (List.nodup_cons.mp hdistinct).1
      simp only [List.filter_cons, ne_eq, not_true_eq_false, decide_false, Bool.false_eq_true,
        if_false]
      rw [show rest.filter (fun x => decide ¬ x = first) = rest from filter_ne_of_notMem hrest]
  · have hlength : (t :: (E.stored h.file).filter (· ≠ t)).length ≤ maxItems := by
      have hlt : ((E.stored h.file).filter (· ≠ t)).length < (E.stored h.file).length :=
        List.length_filter_lt_length_iff_exists.mpr ⟨t, ht, by simp⟩
      exact hlt.trans_le hh.bounded
    rw [List.take_of_length_le hlength]
    have hgood : GoodItems (t :: (E.stored h.file).filter (· ≠ t)) := by
      refine ⟨fun x hx => ?_, hlength⟩
      rcases List.mem_cons.mp hx with rfl | hx
      · exact (hh.items x ht).2.1
      · exact (hh.items x (List.mem_filter.mp hx).1).2.1
    exact stored_written hJ hdirectory hgood

/-- **The normal form of the history**, when no text is cut after a CR: the list is
short, without duplicates, newest first, and of normal texts; it is read as it was
written, and adding one of its texts again puts that text in front. -/
theorem clipboard_normalForm (hJ : E.json.ReadsStrings) (disk : Disk)
    (uses : List ClipboardUse)
    (hcut : ∀ use ∈ uses, ∀ text, use.call = .add text → ¬ CutAfterReturn text) :
    let h := E.performAll disk uses
    let items := E.stored h.file
    items.length ≤ maxItems ∧ items.Nodup ∧ items.Sublist (recent h.added) ∧
      (∀ t ∈ items, t ≠ [] ∧ validItem t = true ∧ characterCount t ≤ maxChars ∧
        normalize t = t) ∧
      parseItems E.json (serializeItems E.json items) = items ∧
      ∀ t ∈ items, E.enabled h.disk = true → E.directory = true →
        E.stored (E.perform h.file h.disk ⟨.add t, [{}, {}]⟩).file =
          t :: items.filter (· ≠ t) := by
  intro h items
  have hh : NormalForm E h := normalForm_run hJ disk uses
  have hnormal : ∀ t ∈ items, normalize t = t := by
    intro t ht
    have hmem := mem_recent.mp (hh.newestFirst.subset ht)
    obtain ⟨use, huse, text, hcall, rfl⟩ := mem_added disk uses t hmem
    exact normalize_normalize_iff.mpr (hcut use huse text hcall)
  refine ⟨hh.bounded, hh.distinct, hh.newestFirst, fun t ht => ?_,
    parseItems_serializeItems hJ (stored_good h.file),
    fun t ht henabled hdirectory => perform_addListed hJ hh henabled hdirectory ht (hnormal t ht)⟩
  obtain ⟨hne, hvalid, hcount⟩ := hh.items t ht
  exact ⟨hne, hvalid, hcount, hnormal t ht⟩

end

/-- A text is added, and then another one. -/
theorem clipboard_normalForm_twoTexts :
    (sampleClipboard.stored (sampleClipboard.performAll historyOn
      [⟨.add (ascii "a"), [{}, {}]⟩, ⟨.add (ascii "b"), [{}, {}]⟩]).file).Nodup := by
  refine (clipboard_normalForm stringsJson_reads historyOn _ ?_).2.1
  intro use huse text hcall
  simp only [List.mem_cons, List.not_mem_nil, or_false] at huse
  rcases huse with rfl | rfl
  · obtain rfl := ClipboardCall.add.inj hcall
    decide
  · obtain rfl := ClipboardCall.add.inj hcall
    decide

/-- A text of 3999 letters, a CR and one more letter. -/
def cutText : Bytes := List.replicate 3999 97 ++ [13, 98]

theorem encode_letters (n : Nat) :
    (List.replicate n 'a').flatMap String.utf8EncodeChar = List.replicate n 97 := by
  induction n with
  | zero => rfl
  | succ n ih =>
    rw [List.replicate_succ, List.flatMap_cons, ih, List.replicate_succ]
    rfl

theorem cutText_cut : CutAfterReturn cutText ∧
    normalize cutText = List.replicate 3999 97 ++ [13] := by
  -- in characters: what the limit counts
  have hencode : cutText =
      (List.replicate 3999 'a' ++ ['\r', 'b']).flatMap String.utf8EncodeChar := by
    rw [List.flatMap_append, encode_letters]
    rfl
  have hdrop : dropTrailing cutText = cutText := by
    refine dropTrailing_eq_self_iff.mpr fun c hc => ?_
    rw [cutText, List.getLast?_append] at hc
    obtain rfl : 98 = c := Option.some.inj hc
    decide
  have hvalid : validItem cutText = true := by
    refine validItem_iff.mpr ⟨⟨_, hencode⟩, fun hmem => ?_⟩
    rcases List.mem_append.mp hmem with hmem | hmem
    · exact absurd (List.eq_of_mem_replicate hmem) (by decide)
    · exact absurd hmem (by decide)
  have hcount : characterCount cutText = 4001 := by
    rw [hencode, characterCount_encode, List.length_append, List.length_replicate]
    rfl
  -- so the cut falls between the carriage return and the letter
  have htake : takeCharacters maxChars cutText = List.replicate 3999 97 ++ [13] := by
    rw [hencode, takeCharacters_encode, List.take_append, List.length_replicate,
      List.take_of_length_le (by rw [List.length_replicate]; decide), List.flatMap_append,
      encode_letters]
    rfl
  have hlong : maxChars < characterCount cutText := by
    rw [hcount]
    decide
  constructor
  · refine ⟨hdrop.symm ▸ hvalid, hdrop.symm ▸ hlong, ?_⟩
    rw [hdrop, htake, List.getLast?_append]
    rfl
  · have hne : ¬ (cutText = [] ∨ validItem cutText = false) := by
      rintro (hnil | hinvalid)
      · exact absurd hnil (List.append_ne_nil_of_right_ne_nil _ (by decide))
      · rw [hvalid] at hinvalid
        cases hinvalid
    unfold normalize
    dsimp only
    rw [hdrop, if_neg hne, if_pos hlong, htake]

/-- Without the CR it is short enough. -/
theorem normalize_letters : normalize (List.replicate 3999 97 ++ [13]) =
    List.replicate 3999 97 := by
  have hencode : List.replicate 3999 97 =
      (List.replicate 3999 'a').flatMap String.utf8EncodeChar := (encode_letters 3999).symm
  have hkeep : dropTrailing (List.replicate 3999 97) = List.replicate 3999 97 := by
    refine dropTrailing_eq_self_iff.mpr fun c hc => ?_
    obtain rfl := List.eq_of_mem_replicate (List.mem_of_getLast? hc)
    decide
  have hdrop : dropTrailing (List.replicate 3999 97 ++ [13]) = List.replicate 3999 97 :=
    (dropTrailing_append_return _).trans hkeep
  have hvalid : validItem (List.replicate 3999 97) = true :=
    validItem_iff.mpr ⟨⟨_, hencode⟩, fun hmem =>
      absurd (List.eq_of_mem_replicate hmem) (by decide)⟩
  have hcount : ¬ maxChars < characterCount (List.replicate 3999 97) := by
    rw [hencode, characterCount_encode, List.length_replicate]
    decide
  have hne : ¬ (List.replicate 3999 (97 : UInt8) = [] ∨
      validItem (List.replicate 3999 97) = false) := by
    rw [hvalid, List.replicate_eq_nil_iff]
    decide
  unfold normalize
  dsimp only
  rw [hdrop, if_neg hne, if_neg hcount]

/-- The text is stored with a CR at its end, which is not what `add` makes of it: when
it is added again a second entry is made, with another text. -/
theorem clipboard_listsCutText :
    let h := sampleClipboard.performAll historyOn [⟨.add cutText, [{}, {}]⟩]
    ∃ t, sampleClipboard.stored h.file = [t] ∧ normalize t ≠ t ∧
      sampleClipboard.stored (sampleClipboard.perform h.file h.disk
        ⟨.add t, [{}, {}]⟩).file = [normalize t, t] := by
  intro h
  obtain ⟨-, hcut⟩ := cutText_cut
  have hletters := normalize_letters
  have henabled : sampleClipboard.enabled historyOn = true := by decide +kernel
  obtain ⟨hfile, hsame⟩ := performAll_singleton (E := sampleClipboard) historyOn
    ⟨.add cutText, [{}, {}]⟩
  have hnonempty : List.replicate 3999 (97 : UInt8) ≠ [] := by
    rw [Ne, List.replicate_eq_nil_iff]
    decide
  have hchanged : List.replicate 3999 (97 : UInt8) ≠ List.replicate 3999 97 ++ [13] := by
    intro hsame
    have hlength := congrArg List.length hsame
    rw [List.length_append, List.length_singleton] at hlength
    omega
  have hne : normalize cutText ≠ [] := by
    rw [hcut]
    exact List.append_ne_nil_of_left_ne_nil hnonempty _
  have hfirst : sampleClipboard.stored h.file = [List.replicate 3999 97 ++ [13]] := by
    have hadd : sampleClipboard.stored (sampleClipboard.perform none historyOn
        ⟨.add cutText, [{}, {}]⟩).file = [normalize cutText] :=
      perform_addNew stringsJson_reads rfl hne henabled List.not_mem_nil (by decide)
    rw [hcut] at hadd
    exact hfile ▸ hadd
  have hdisk : h.disk = historyOn := hsame.trans (perform_add hne henabled).2
  refine ⟨_, hfirst, ?_, ?_⟩
  · rw [hletters]
    exact hchanged
  · refine perform_addAgain stringsJson_reads rfl hfirst ?_ ?_ (hdisk.symm ▸ henabled)
    · rw [hletters]
      exact hnonempty
    · rw [hletters]
      exact hchanged

end MsimeLinux
