import Mathlib.Data.List.Nodup
import Mathlib.Logic.Function.Basic
import MsimeLinux.Bytes

/-!
# Seeding the user's data (`DictionaryBootstrap.cpp`)

Databases, data files and helpcodes are copied from the system directories into the
user's, unless the user has them. A copy is made under another name first, so that
one that fails leaves no part of a file behind.

- `seedUserData_spec`: every file is treated for itself, whatever becomes of the others,
  and a second run tries only what failed in the first.
-/

namespace MsimeLinux

namespace DictionaryBootstrap

/-! ## Files -/

/-- What a path names: a regular file that can be examined, or something else. -/
inductive SeedEntry where
  | file (content : Bytes)
  | other
  deriving DecidableEq

/-- `is_usable_file` (DictionaryBootstrap.cpp:27). -/
def usable : Option SeedEntry → Bool
  | some (.file content) => content ≠ []
  | some .other | none => false

/-- A name in a data directory, or in its `helpcodes`. -/
structure SeedPath where
  helpcode : Bool
  name : Bytes
  deriving DecidableEq

/-- `staged` (DictionaryBootstrap.cpp:49). -/
def SeedPath.staged (p : SeedPath) : SeedPath := { p with name := p.name ++ ascii ".seeding" }

/-- `operator/` of two paths. -/
def joinPath (directory name : Bytes) : Bytes :=
  if directory = [] ∨ directory.getLast? = some 47 then directory ++ name
  else directory ++ 47 :: name

/-- The directory a file stands in, below a data directory. -/
def SeedPath.folder (p : SeedPath) (directory : Bytes) : Bytes :=
  if p.helpcode then joinPath directory (ascii "helpcodes") else directory

def SeedPath.path (p : SeedPath) (directory : Bytes) : Bytes :=
  joinPath (p.folder directory) p.name

/-- `parent_path` of a destination: without the separators before the name, unless they
are the root. -/
def SeedPath.parent (p : SeedPath) (directory : Bytes) : Bytes :=
  match (p.folder directory).reverse.dropWhile (· = 47) with
  | [] => (p.folder directory).take 1
  | rest => rest.reverse

/-- `kDatabases` and `kDataFiles` (DictionaryBootstrap.cpp:14). -/
def plainNames : List Bytes :=
  [ascii "msime.db", ascii "others.db", ascii "english.db", ascii "dict_japanese.dat",
    ascii "mozc_dictionary_oss_README.txt"]

/-- `extension() == ".txt"`: a name that begins with its only dot has no extension. -/
def hasTextExtension (name : Bytes) : Bool :=
  (ascii ".txt").isSuffixOf name && 4 < name.length

/-- What iterating over `helpcodes` yields, and the error that ended it, if one did. -/
structure Listing where
  names : List Bytes
  distinct : names.Nodup
  failure : Option Bytes

/-- A system directory; without `helpcodes` nothing is listed. -/
structure SystemDirectory where
  path : Bytes
  file : SeedPath → Option SeedEntry
  helpcodes : Option Listing

/-- What becomes of a copy, with the text of the error and what is left under the
staged name. -/
inductive CopyOutcome where
  | noDirectory (error : Bytes)
  | notCopied (error : Bytes) (left : Option SeedEntry)
  | notPlaced (error : Bytes) (left : Option SeedEntry)
  | placed

/-- A system directory, with what becomes of the copies from it. -/
structure SeedSource where
  directory : SystemDirectory
  outcome : SeedPath → CopyOutcome

/-! ## Seeding -/

/-- The user's directory, the count of copies and the failures so far. -/
structure Seeding where
  user : SeedPath → Option SeedEntry
  copied : Nat := 0
  failures : List Bytes := []

/-- The message of a failed copy. -/
def failureText (userPath : Bytes) (source : SeedSource) (p : SeedPath) : Option Bytes :=
  match source.outcome p with
  | .noDirectory error =>
    some (ascii "Unable to create " ++ p.parent userPath ++ ascii ": " ++ error)
  | .notCopied error _ =>
    some (ascii "Unable to copy " ++ p.path source.directory.path ++ ascii ": " ++ error)
  | .notPlaced error _ => some (ascii "Unable to place " ++ p.path userPath ++ ascii ": " ++ error)
  | .placed => none

/-- `copy_if_missing` (DictionaryBootstrap.cpp:33), and what `seed` makes of its result. -/
def copyIfMissing (userPath : Bytes) (source : SeedSource) (s : Seeding) (p : SeedPath) :
    Seeding :=
  if !usable (source.directory.file p) || usable (s.user p) then s
  else
    let s := { s with failures := s.failures ++ (failureText userPath source p).toList }
    match source.outcome p with
    | .noDirectory _ => s
    | .notCopied _ left | .notPlaced _ left =>
      { s with user := Function.update s.user p.staged left }
    | .placed =>
      { s with
        user := Function.update (Function.update s.user p (source.directory.file p)) p.staged none
        copied := s.copied + 1 }

/-- The files looked for in a system directory, in order (DictionaryBootstrap.cpp:132). -/
def SystemDirectory.targets (directory : SystemDirectory) : List SeedPath :=
  plainNames.map (⟨false, ·⟩) ++
    match directory.helpcodes with
    | none => []
    | some listing => (listing.names.filter hasTextExtension).map (⟨true, ·⟩)

/-- The message when the helpcodes could not all be listed (DictionaryBootstrap.cpp:163). -/
def SystemDirectory.listingFailure (directory : SystemDirectory) : List Bytes :=
  match directory.helpcodes.bind Listing.failure with
  | some error =>
    [ascii "Unable to read " ++ joinPath directory.path (ascii "helpcodes") ++ ascii ": " ++ error]
  | none => []

def seedDirectory (userPath : Bytes) (s : Seeding) (source : SeedSource) : Seeding :=
  let s := source.directory.targets.foldl (copyIfMissing userPath source) s
  { s with failures := s.failures ++ source.directory.listingFailure }

/-- `seed_user_data` (DictionaryBootstrap.cpp:104). -/
def seedUserData (userPath : Bytes) (user : SeedPath → Option SeedEntry)
    (sources : List SeedSource) : Seeding :=
  if userPath = [] then { user := user }
  else sources.foldl (seedDirectory userPath) { user := user }

/-! ## Each file for itself -/

/-- A name that may be seeded. -/
def Seeded (p : SeedPath) : Prop :=
  (p.helpcode = false ∧ p.name ∈ plainNames) ∨ (p.helpcode = true ∧ hasTextExtension p.name = true)

/-- The copy is made. -/
def CopyOutcome.isPlaced : CopyOutcome → Bool
  | .placed => true
  | .noDirectory _ | .notCopied .. | .notPlaced .. => false

/-- The directory has a usable file of the name, and it can be copied. -/
def SeedSource.supplies (source : SeedSource) (p : SeedPath) : Bool :=
  p ∈ source.directory.targets && usable (source.directory.file p) &&
    (source.outcome p).isPlaced

/-- The file after a system directory, by the file alone. -/
def placedFrom (source : SeedSource) (p : SeedPath) (entry : Option SeedEntry) :
    Option SeedEntry :=
  if !usable entry && source.supplies p then source.directory.file p else entry

/-- A copy is tried. -/
def tried (source : SeedSource) (user : SeedPath → Option SeedEntry) (p : SeedPath) : Bool :=
  usable (source.directory.file p) && !usable (user p)

/-- The names a copy is tried for. -/
def attempted (source : SeedSource) (user : SeedPath → Option SeedEntry) : List SeedPath :=
  source.directory.targets.filter (tried source user)

/-- The copies tried, one system directory after the other. -/
def attempts (user : SeedPath → Option SeedEntry) :
    List SeedSource → List (SeedSource × List SeedPath)
  | [] => []
  | source :: sources =>
    (source, attempted source user) :: attempts (fun p => placedFrom source p (user p)) sources

/-- The names that were placed. -/
def placements (user : SeedPath → Option SeedEntry) (sources : List SeedSource) :
    List SeedPath :=
  (attempts user sources).flatMap fun a => a.2.filter fun p => (a.1.outcome p).isPlaced

/-- The messages, by the copies tried. -/
def reports (userPath : Bytes) (user : SeedPath → Option SeedEntry) (sources : List SeedSource) :
    List Bytes :=
  (attempts user sources).flatMap fun a =>
    a.2.filterMap (failureText userPath a.1) ++ a.1.directory.listingFailure

theorem placements_cons (user : SeedPath → Option SeedEntry) (source : SeedSource)
    (sources : List SeedSource) : placements user (source :: sources) =
      ((attempted source user).filter fun p => (source.outcome p).isPlaced) ++
        placements (fun p => placedFrom source p (user p)) sources :=
  rfl

theorem reports_cons (userPath : Bytes) (user : SeedPath → Option SeedEntry)
    (source : SeedSource) (sources : List SeedSource) : reports userPath user (source :: sources) =
      ((attempted source user).filterMap (failureText userPath source) ++
        source.directory.listingFailure) ++
          reports userPath (fun p => placedFrom source p (user p)) sources :=
  rfl

/-! ## Names -/

theorem nodup_targets (directory : SystemDirectory) : directory.targets.Nodup := by
  have hplain : (plainNames.map (SeedPath.mk false)).Nodup :=
    List.Nodup.map (fun a b h => (SeedPath.mk.inj h).2) (by decide)
  unfold SystemDirectory.targets
  cases directory.helpcodes with
  | none =>
    rw [List.append_nil]
    exact hplain
  | some listing =>
    have hhelpcodes : ((listing.names.filter hasTextExtension).map (SeedPath.mk true)).Nodup :=
      List.Nodup.map (fun a b h => (SeedPath.mk.inj h).2) (listing.distinct.filter _)
    refine hplain.append hhelpcodes fun p hp hp' => ?_
    obtain ⟨_, _, rfl⟩ := List.mem_map.mp hp
    obtain ⟨_, _, hsame⟩ := List.mem_map.mp hp'
    cases hsame

theorem seeded_of_mem_targets {directory : SystemDirectory} {p : SeedPath}
    (h : p ∈ directory.targets) : Seeded p := by
  unfold SystemDirectory.targets at h
  rcases List.mem_append.mp h with h | h
  · obtain ⟨name, hname, rfl⟩ := List.mem_map.mp h
    exact .inl ⟨rfl, hname⟩
  · cases hlisting : directory.helpcodes with
    | none =>
      rw [hlisting] at h
      cases h
    | some listing =>
      rw [hlisting] at h
      obtain ⟨name, hname, rfl⟩ := List.mem_map.mp h
      exact .inr ⟨rfl, (List.mem_filter.mp hname).2⟩

/-- No seeded name is one a copy is made under. -/
theorem not_seeded_staged (p : SeedPath) : ¬ Seeded p.staged := by
  have hlast : (p.name ++ ascii ".seeding").getLast? = some 103 := by
    rw [List.getLast?_append]
    rfl
  rintro (⟨-, hname⟩ | ⟨-, hname⟩)
  · have hother : ∀ name ∈ plainNames, name.getLast? ≠ some 103 := by decide
    exact hother _ hname hlast
  · simp only [hasTextExtension, Bool.and_eq_true, List.isSuffixOf_iff_suffix] at hname
    obtain ⟨stem, hstem⟩ := hname.1
    have hlast' : p.staged.name.getLast? = some 116 := by
      rw [← hstem, List.getLast?_append]
      rfl
    exact absurd (hlast.symm.trans hlast') (by decide)

/-! ## One copy -/

section

variable {userPath : Bytes} {source : SeedSource} {s : Seeding} {p q : SeedPath}

theorem copyIfMissing_skip (h : tried source s.user p = false) :
    copyIfMissing userPath source s p = s := by
  unfold copyIfMissing
  refine if_pos ?_
  rw [tried, Bool.and_eq_false_iff, Bool.not_eq_false'] at h
  rcases h with h | h
  · rw [h]
    rfl
  · rw [h, Bool.or_true]

/-- What a copy that is tried leaves under a seeded name. -/
theorem copyIfMissing_tried (userPath : Bytes) (h : tried source s.user p = true) :
    (copyIfMissing userPath source s p).copied =
        s.copied + (if (source.outcome p).isPlaced then 1 else 0) ∧
      (copyIfMissing userPath source s p).failures =
        s.failures ++ (failureText userPath source p).toList ∧
      (∀ q, q ≠ p.staged → (copyIfMissing userPath source s p).user q =
        if q = p ∧ (source.outcome p).isPlaced = true then source.directory.file p
        else s.user q) := by
  have hguard : ¬ (!usable (source.directory.file p) || usable (s.user p)) = true := by
    rw [tried, Bool.and_eq_true, Bool.not_eq_true'] at h
    rw [h.1, h.2]
    decide
  unfold copyIfMissing
  rw [if_neg hguard]
  cases houtcome : source.outcome p with
  | placed =>
    -- the staged copy is renamed, so nothing is left under its name
    refine ⟨rfl, rfl, fun q hq => ?_⟩
    show Function.update (Function.update s.user p _) p.staged none q = _
    rw [Function.update_of_ne hq]
    by_cases hsame : q = p
    · subst hsame
      rw [Function.update_self, if_pos ⟨rfl, rfl⟩]
    · rw [Function.update_of_ne hsame, if_neg fun h => hsame h.1]
  | noDirectory error => exact ⟨rfl, rfl, fun q _ => (if_neg fun h => by cases h.2).symm⟩
  | notCopied error left =>
    refine ⟨rfl, rfl, fun q hq => ?_⟩
    show Function.update s.user p.staged left q = _
    rw [Function.update_of_ne hq, if_neg fun h => by cases h.2]
  | notPlaced error left =>
    refine ⟨rfl, rfl, fun q hq => ?_⟩
    show Function.update s.user p.staged left q = _
    rw [Function.update_of_ne hq, if_neg fun h => by cases h.2]

/-- A copy changes no other name. -/
theorem copyIfMissing_other (hq : q ≠ p) (hstaged : q ≠ p.staged) :
    (copyIfMissing userPath source s p).user q = s.user q := by
  cases htried : tried source s.user p with
  | false => rw [copyIfMissing_skip htried]
  | true => rw [(copyIfMissing_tried userPath htried).2.2 q hstaged, if_neg fun h => hq h.1]

theorem ne_staged (hq : Seeded q) : q ≠ p.staged := fun h => not_seeded_staged p (h ▸ hq)

/-! ## One system directory -/

/-- **A list of names is seeded**, each by what was there before. -/
theorem seedNames (userPath : Bytes) (source : SeedSource) {names : List SeedPath}
    (hdistinct : names.Nodup) (hseeded : ∀ p ∈ names, Seeded p) (s : Seeding) :
    let r := names.foldl (copyIfMissing userPath source) s
    r.copied = s.copied + (names.filter (tried source s.user)).countP
        (fun p => (source.outcome p).isPlaced) ∧
      r.failures = s.failures ++
        (names.filter (tried source s.user)).filterMap (failureText userPath source) ∧
      (∀ q, Seeded q → r.user q =
        if q ∈ names ∧ tried source s.user q = true ∧ (source.outcome q).isPlaced = true then
          source.directory.file q
        else s.user q) ∧
      ∀ q, ¬ Seeded q → (∀ p, Seeded p → q ≠ p.staged) → r.user q = s.user q := by
  induction names generalizing s with
  | nil => simp
  | cons p names ih =>
    obtain ⟨hp, hdistinct⟩ := List.nodup_cons.mp hdistinct
    obtain ⟨hseededp, hseeded⟩ := List.forall_mem_cons.mp hseeded
    obtain ⟨hcopied, hfailures, huser, hframe⟩ :=
      ih hdistinct hseeded (copyIfMissing userPath source s p)
    -- the names after it are as they were
    have hsame : names.filter (tried source (copyIfMissing userPath source s p).user) =
        names.filter (tried source s.user) := by
      refine List.filter_congr fun q hq => ?_
      have hne : q ≠ p := fun h => hp (h ▸ hq)
      rw [tried, tried, copyIfMissing_other hne (ne_staged (hseeded q hq))]
    rw [hsame] at hcopied hfailures
    rw [List.foldl_cons]
    cases htried : tried source s.user p with
    | false =>
      rw [copyIfMissing_skip htried] at hcopied hfailures huser hframe ⊢
      rw [List.filter_cons_of_neg (by rw [htried]; decide)]
      refine ⟨hcopied, hfailures, fun q hq => ?_, hframe⟩
      rw [huser q hq]
      by_cases hqp : q = p
      · subst hqp
        rw [if_neg fun h => hp h.1, if_neg fun h => Bool.false_ne_true (htried.symm.trans h.2.1)]
      · simp only [List.mem_cons, hqp, false_or]
    | true =>
      obtain ⟨hcopied', hfailures', huser'⟩ := copyIfMissing_tried userPath htried
      rw [List.filter_cons_of_pos htried, List.countP_cons, List.filterMap_cons]
      refine ⟨?_, ?_, fun q hq => ?_, fun q hq hstaged => ?_⟩
      · rw [hcopied, hcopied']
        omega
      · rw [hfailures, hfailures', List.append_assoc]
        cases failureText userPath source p with
        | none => rfl
        | some text => rfl
      · rw [huser q hq]
        by_cases hqp : q = p
        · subst hqp
          rw [if_neg fun h => hp h.1, huser' q (ne_staged hq)]
          simp only [true_and, List.mem_cons, true_or, htried]
        · have hsameq : (copyIfMissing userPath source s p).user q = s.user q :=
            copyIfMissing_other hqp (ne_staged hq)
          rw [tried, hsameq]
          simp only [List.mem_cons, hqp, false_or]
          rfl
      · rw [hframe q hq hstaged]
        refine copyIfMissing_other ?_ (hstaged p hseededp)
        rintro rfl
        exact hq hseededp

theorem seedDirectory_spec (userPath : Bytes) (source : SeedSource) (s : Seeding) :
    let r := seedDirectory userPath s source
    r.copied = s.copied +
        ((attempted source s.user).filter fun p => (source.outcome p).isPlaced).length ∧
      r.failures = s.failures ++
        ((attempted source s.user).filterMap (failureText userPath source) ++
          source.directory.listingFailure) ∧
      (∀ q, Seeded q → r.user q = placedFrom source q (s.user q)) ∧
      ∀ q, ¬ Seeded q → (∀ p, Seeded p → q ≠ p.staged) → r.user q = s.user q := by
  obtain ⟨hcopied, hfailures, huser, hframe⟩ :=
    seedNames userPath source (nodup_targets source.directory)
      (fun _ => seeded_of_mem_targets) s
  rw [List.countP_eq_length_filter] at hcopied
  refine ⟨hcopied, ?_, fun q hq => ?_, hframe⟩
  · rw [← List.append_assoc]
    exact congrArg (· ++ _) hfailures
  · refine (huser q hq).trans (if_congr ?_ rfl rfl)
    simp only [tried, SeedSource.supplies, Bool.and_eq_true, decide_eq_true_eq]
    tauto

/-! ## All of them -/

/-- **A run over system directories.** -/
theorem seedSources (userPath : Bytes) (sources : List SeedSource)
    (user : SeedPath → Option SeedEntry) (s : Seeding) (hs : ∀ q, Seeded q → s.user q = user q) :
    let r := sources.foldl (seedDirectory userPath) s
    r.copied = s.copied + (placements user sources).length ∧
      r.failures = s.failures ++ reports userPath user sources ∧
      (∀ q, Seeded q → r.user q = sources.foldl (fun e source => placedFrom source q e) (user q)) ∧
      ∀ q, ¬ Seeded q → (∀ p, Seeded p → q ≠ p.staged) → r.user q = s.user q := by
  induction sources generalizing user s with
  | nil => exact ⟨rfl, (List.append_nil _).symm, hs, fun _ _ _ => rfl⟩
  | cons source sources ih =>
    obtain ⟨hcopied, hfailures, huser, hframe⟩ := seedDirectory_spec userPath source s
    have hattempted : attempted source s.user = attempted source user := by
      refine List.filter_congr fun p hp => ?_
      rw [tried, tried, hs p (seeded_of_mem_targets hp)]
    rw [hattempted] at hcopied hfailures
    obtain ⟨hcopied', hfailures', huser', hframe'⟩ :=
      ih (fun p => placedFrom source p (user p)) (seedDirectory userPath s source)
        fun q hq => (huser q hq).trans (congrArg _ (hs q hq))
    refine ⟨?_, ?_, huser', fun q hq hstaged => ?_⟩
    · rw [List.foldl_cons, hcopied', hcopied, placements_cons, List.length_append, Nat.add_assoc]
    · rw [List.foldl_cons, hfailures', hfailures, reports_cons, List.append_assoc]
    · rw [List.foldl_cons, hframe' q hq hstaged, hframe q hq hstaged]

/-- **The first system directory that supplies a file**, if the user has none. -/
theorem foldl_placedFrom (sources : List SeedSource) (p : SeedPath) (entry : Option SeedEntry) :
    sources.foldl (fun e source => placedFrom source p e) entry =
      if usable entry = true then entry
      else ((sources.find? fun source => source.supplies p).map
        fun source => source.directory.file p).getD entry := by
  induction sources generalizing entry with
  | nil =>
    rw [List.find?_nil, Option.map_none, Option.getD_none, ite_self]
    rfl
  | cons source sources ih =>
    rw [List.foldl_cons, ih, List.find?_cons, placedFrom]
    cases hentry : usable entry with
    | true => simp [hentry]
    | false =>
      cases hsupplies : source.supplies p with
      | false => simp [hentry]
      | true =>
        have husable : usable (source.directory.file p) = true := by
          simp only [SeedSource.supplies, Bool.and_eq_true] at hsupplies
          exact hsupplies.1.2
        simp [husable]

theorem usable_of_supplies (h : source.supplies p = true) :
    usable (source.directory.file p) = true := by
  simp only [SeedSource.supplies, Bool.and_eq_true] at h
  exact h.1.2

theorem usable_placedFrom_iff {entry : Option SeedEntry} :
    usable (placedFrom source p entry) = false ↔
      usable entry = false ∧ source.supplies p = false := by
  rw [placedFrom]
  cases hentry : usable entry with
  | true => simp [hentry]
  | false =>
    cases hsupplies : source.supplies p with
    | true => simp [usable_of_supplies hsupplies]
    | false => simp [hentry]

theorem mem_attempted_iff {user : SeedPath → Option SeedEntry} :
    p ∈ attempted source user ↔ p ∈ source.directory.targets ∧
      usable (source.directory.file p) = true ∧ usable (user p) = false := by
  rw [attempted, List.mem_filter, tried, Bool.and_eq_true, Bool.not_eq_true']

/-- **What is tried.** A copy is tried from every system directory that has a usable file,
until one has been placed. -/
theorem mem_attempts_iff {user : SeedPath → Option SeedEntry} {sources : List SeedSource} :
    (∃ a ∈ attempts user sources, a.1 = source ∧ p ∈ a.2) ↔
      ∃ before after, sources = before ++ source :: after ∧ usable (user p) = false ∧
        p ∈ source.directory.targets ∧ usable (source.directory.file p) = true ∧
        ∀ earlier ∈ before, earlier.supplies p = false := by
  induction sources generalizing user with
  | nil => simp [attempts]
  | cons first sources ih =>
    have hattempts : attempts user (first :: sources) = (first, attempted first user) ::
        attempts (fun p => placedFrom first p (user p)) sources := rfl
    rw [hattempts]
    simp only [List.mem_cons, exists_eq_or_imp, ih, usable_placedFrom_iff, mem_attempted_iff]
    constructor
    · rintro (⟨rfl, htarget, hfile, huser⟩ | ⟨before, after, rfl, ⟨huser, hfirst⟩, hrest⟩)
      · exact ⟨[], sources, rfl, huser, htarget, hfile, by simp⟩
      · refine ⟨first :: before, after, rfl, huser, hrest.1, hrest.2.1, ?_⟩
        exact List.forall_mem_cons.mpr ⟨hfirst, hrest.2.2⟩
    · rintro ⟨before, after, hsplit, huser, htarget, hfile, hearlier⟩
      cases before with
      | nil =>
        obtain ⟨rfl, -⟩ := List.cons.inj hsplit
        exact .inl ⟨rfl, htarget, hfile, huser⟩
      | cons first' before =>
        obtain ⟨rfl, hrest⟩ := List.cons.inj hsplit
        obtain ⟨hfirst, hearlier⟩ := List.forall_mem_cons.mp hearlier
        exact .inr ⟨before, after, hrest, ⟨huser, hfirst⟩, htarget, hfile, hearlier⟩

/-- No name is placed twice, and those are placed that a system directory supplies. -/
theorem placements_spec (user : SeedPath → Option SeedEntry) (sources : List SeedSource) :
    (placements user sources).Nodup ∧ ∀ p, p ∈ placements user sources ↔
      usable (user p) = false ∧ ∃ source ∈ sources, source.supplies p = true := by
  induction sources generalizing user with
  | nil => simp [placements, attempts]
  | cons source sources ih =>
    obtain ⟨hnodup, hmem⟩ := ih fun p => placedFrom source p (user p)
    have hfirst : ∀ p, p ∈ (attempted source user).filter (fun p => (source.outcome p).isPlaced) ↔
        usable (user p) = false ∧ source.supplies p = true := by
      intro p
      simp only [List.mem_filter, mem_attempted_iff, SeedSource.supplies, Bool.and_eq_true,
        decide_eq_true_eq]
      tauto
    rw [placements_cons]
    constructor
    · refine List.Nodup.append (((nodup_targets _).filter _).filter _) hnodup fun p hp hp' => ?_
      have hsupplies := ((hfirst p).mp hp).2
      rw [(usable_placedFrom_iff.mp ((hmem p).mp hp').1).2] at hsupplies
      cases hsupplies
    · intro p
      rw [List.mem_append, hfirst, hmem, usable_placedFrom_iff, List.exists_mem_cons_iff]
      cases hsupplies : source.supplies p <;> simp

theorem failureText_isSome : (failureText userPath source p).isSome =
    !(source.outcome p).isPlaced := by
  unfold failureText
  cases source.outcome p <;> rfl

/-- The copies that failed. -/
def failedCopies (user : SeedPath → Option SeedEntry) (sources : List SeedSource) :
    List (SeedSource × SeedPath) :=
  (attempts user sources).flatMap fun a =>
    (a.2.filter fun p => !(a.1.outcome p).isPlaced).map fun p => (a.1, p)

/-- One message for each copy that failed, and for each `helpcodes` that could not be
listed. -/
theorem length_reports (userPath : Bytes) (user : SeedPath → Option SeedEntry)
    (sources : List SeedSource) : (reports userPath user sources).length =
      (failedCopies user sources).length +
        (sources.flatMap fun source => source.directory.listingFailure).length := by
  induction sources generalizing user with
  | nil => rfl
  | cons source sources ih =>
    have hfailed : failedCopies user (source :: sources) =
        ((attempted source user).filter fun p => !(source.outcome p).isPlaced).map
          (fun p => (source, p)) ++
            failedCopies (fun p => placedFrom source p (user p)) sources := rfl
    have hlength : ((attempted source user).filterMap (failureText userPath source)).length =
        ((attempted source user).filter fun p => !(source.outcome p).isPlaced).length := by
      rw [List.length_filterMap_eq_countP, List.countP_eq_length_filter]
      simp only [failureText_isSome]
    rw [reports_cons, hfailed, List.flatMap_cons, List.length_append, List.length_append,
      List.length_append, List.length_append, List.length_map, ih, hlength]
    omega

end

/-! ## The whole run -/

/-- **Every file for itself.** A usable file of the user stays; any other seeded one ends
as a copy from the first system directory that supplies it, or as it was. The count is
that of the names placed, and there is one message for every copy that failed. -/
theorem seedUserData_spec {userPath : Bytes} (hpath : userPath ≠ [])
    (user : SeedPath → Option SeedEntry) (sources : List SeedSource) :
    let r := seedUserData userPath user sources
    (∀ p, Seeded p → usable (user p) = true → r.user p = user p) ∧
      (∀ p, Seeded p → usable (user p) = false →
        r.user p = ((sources.find? fun source => source.supplies p).map
          fun source => source.directory.file p).getD (user p)) ∧
      (∀ p, ¬ Seeded p → (∀ q, Seeded q → p ≠ q.staged) → r.user p = user p) ∧
      r.copied = (placements user sources).length ∧ (placements user sources).Nodup ∧
      (∀ p, p ∈ placements user sources ↔
        usable (user p) = false ∧ ∃ source ∈ sources, source.supplies p = true) ∧
      r.failures = reports userPath user sources ∧
      r.failures.length = (failedCopies user sources).length +
        (sources.flatMap fun source => source.directory.listingFailure).length ∧
      ∀ sources' : List SeedSource,
        sources'.map SeedSource.directory = sources.map SeedSource.directory →
        ∀ a' ∈ attempts r.user sources', ∀ p ∈ a'.2, ∃ source,
          (source, p) ∈ failedCopies user sources ∧ source.directory = a'.1.directory := by
  intro r
  have hr : r = sources.foldl (seedDirectory userPath) { user := user } := if_neg hpath
  obtain ⟨hcopied, hfailures, huser, hframe⟩ :=
    seedSources userPath sources user { user := user } fun _ _ => rfl
  rw [← hr] at hcopied hfailures huser hframe
  obtain ⟨hnodup, hmem⟩ := placements_spec user sources
  have hfinal : ∀ p, Seeded p → r.user p = if usable (user p) = true then user p else
      ((sources.find? fun source => source.supplies p).map
        fun source => source.directory.file p).getD (user p) :=
    fun p hp => (huser p hp).trans (foldl_placedFrom sources p (user p))
  have hreports : r.failures = reports userPath user sources :=
    hfailures.trans (List.nil_append _)
  refine ⟨fun p hp h => ?_, fun p hp h => ?_, hframe, hcopied.trans (Nat.zero_add _), hnodup, hmem,
    hreports, ?_, ?_⟩
  · rw [hfinal p hp, if_pos h]
  · rw [hfinal p hp, h]
    rfl
  · rw [hreports]
    exact length_reports userPath user sources
  · intro sources' hsame a' ha' p hp
    obtain ⟨before', after', rfl, hunusable, htarget, hfile, -⟩ :=
      mem_attempts_iff.mp ⟨a', ha', rfl, hp⟩
    have hseeded : Seeded p := seeded_of_mem_targets htarget
    -- it was unusable before, and nothing supplied it
    have hbefore : usable (user p) = false := by
      rw [← Bool.not_eq_true]
      intro h
      rw [hfinal p hseeded, if_pos h, h] at hunusable
      cases hunusable
    have hnone : ∀ source ∈ sources, source.supplies p = false := by
      rw [hfinal p hseeded, hbefore, if_neg Bool.false_ne_true] at hunusable
      cases hfind : sources.find? fun source => source.supplies p with
      | none =>
        intro source hsource
        exact Bool.not_eq_true _ ▸ List.find?_eq_none.mp hfind source hsource
      | some source =>
        have hsupplies : source.supplies p = true := by simpa using List.find?_some hfind
        rw [hfind, Option.map_some, Option.getD_some,
          usable_of_supplies hsupplies] at hunusable
        cases hunusable
    rw [List.map_append, List.map_cons] at hsame
    obtain ⟨before, rest, rfl, -, hrest⟩ := List.map_eq_append_iff.mp hsame.symm
    obtain ⟨source, after, rfl, hdirectory, -⟩ := List.map_eq_cons_iff.mp hrest
    have hfile' : usable (source.directory.file p) = true := hdirectory ▸ hfile
    have htarget' : p ∈ source.directory.targets := hdirectory ▸ htarget
    obtain ⟨a, ha, rfl, hpa⟩ := mem_attempts_iff.mpr ⟨before, after, rfl, hbefore, htarget', hfile',
      fun earlier hearlier => hnone earlier (List.mem_append_left _ hearlier)⟩
    have hnot := hnone a.1 (List.mem_append_right _ List.mem_cons_self)
    rw [SeedSource.supplies, hfile', decide_eq_true htarget'] at hnot
    have hfailed : p ∈ a.2.filter fun p => !(a.1.outcome p).isPlaced :=
      List.mem_filter.mpr ⟨hpa, by rw [show (a.1.outcome p).isPlaced = false from hnot]; rfl⟩
    exact ⟨a.1, List.mem_flatMap.mpr ⟨a, ha, List.mem_map_of_mem hfailed⟩, hdirectory⟩

/-- A directory with one database. -/
def sampleDirectory : SystemDirectory where
  path := ascii "/usr/share/metasequoiaime"
  file p := if p = ⟨false, ascii "msime.db"⟩ then some (.file [1]) else none
  helpcodes := none

/-- The copy from the first directory fails, that from the second does not. -/
theorem seedUserData_second :
    (seedUserData (ascii "/home") (fun _ => none)
      [⟨sampleDirectory, fun _ => .notCopied [] none⟩, ⟨sampleDirectory, fun _ => .placed⟩]).user
        ⟨false, ascii "msime.db"⟩ = some (.file [1]) := by
  have hseeded : Seeded ⟨false, ascii "msime.db"⟩ := .inl ⟨rfl, by decide⟩
  refine ((seedUserData_spec (by decide) (fun _ => none) _).2.1 _ hseeded rfl).trans ?_
  decide +kernel

end DictionaryBootstrap

end MsimeLinux
