import Mathlib.Logic.Function.Basic
import MsimeLinux.Bytes
import MsimeLinux.Lib.Run
import MsimeLinux.Input.TextTransform

/-!
# Freezing native resources (`native_resources.py`)

`prepare` copies the files a lock names into a temporary directory, verifies the copy and
renames it to the digest of the lock. Calls run side by side on one resources root: a step
of the model is one operation of one call on the file system. Any operation may raise, and
what is read from the source is whatever is there, so every source directory and every
failure is a run.

- `Frozen`: a directory with the locked files and nothing else.
- `Sound`: what a call knows of the root, at each point of the code.
- `advance_moves`: what one step may do; `advance_frame`: what it leaves of the root and of the
  other calls.
- `resources_all_or_nothing`: what holds of every run.
-/

namespace MsimeLinux

open Lib

namespace NativeResources

/-! ## Locks -/

/-- The `dictionary` of a lock (product_lock.py:53): the digest of every asset, by name. -/
structure ProductLock where
  schemaVersion : Int
  repository : Text
  tag : Text
  sourceCommit : Text
  assets : List (Text × Text)
  deriving DecidableEq

/-- A native resource lock. One with other keys than these is refused unread
(native_resources.py:20). -/
structure ResourceLock where
  version : Int
  dictionary : ProductLock
  helpcodes : List (Text × Text)
  deriving DecidableEq

/-- `[0-9a-f]{n}` (product_lock.py:48). -/
def isDigest (n : Nat) (text : Text) : Bool :=
  text.length = n && text.all fun c => "0123456789abcdef".toList.contains c

/-- `LEGACY_DICTIONARY_TAG`. -/
def legacyTag : Text := "dict-2026.09.05".toList

/-- `PRODUCT_MANIFEST`. -/
def productManifest : Text := "dictionary-manifest.json".toList

/-- `LEGACY_ASSETS`. -/
def legacyAssets : List Text :=
  ["msime.db".toList, "others.db".toList, "english.db".toList, "SHA256SUMS.txt".toList]

/-- `ASSETS`, and the manifest. -/
def productAssets : List Text :=
  legacyAssets ++ ["dict_japanese.dat".toList, "mozc_dictionary_oss_README.txt".toList,
    productManifest]

/-- `TAG`: `dict-[A-Za-z0-9._-]+`. -/
def isTag (text : Text) : Bool :=
  "dict-".toList.isPrefixOf text && 5 < text.length &&
    (text.drop 5).all fun c => c.isAlphanum || c = '.' || c = '_' || c = '-'

/-- Two lists have the same members. -/
def sameMembers (xs ys : List Text) : Bool := xs.all (· ∈ ys) && ys.all (· ∈ xs)

/-- `product_lock.validate` (product_lock.py:53). -/
def ProductLock.validate (lock : ProductLock) : Bool :=
  lock.schemaVersion = 1 &&
    (lock.repository = "metasequoiaime/MSIME-Engine".toList ||
      (lock.repository = "metasequoiaime/MSIME-Dict".toList && lock.tag = legacyTag)) &&
    isTag lock.tag && isDigest 40 lock.sourceCommit &&
    sameMembers (lock.assets.map Prod.fst)
      (if lock.tag = legacyTag then legacyAssets else productAssets) &&
    lock.assets.all fun asset => isDigest 64 asset.2

/-- `PurePosixPath(name).parts`: empty components and dots are dropped. -/
def pathParts (name : Text) : List Text :=
  (if name.head? = some '/' then [['/']] else []) ++
    (name.splitOn '/').filter fun part => part ≠ [] && part ≠ ['.']

/-- `str(PurePosixPath(name))`. -/
def pathText (name : Text) : Text :=
  match pathParts name with
  | [] => ['.']
  | ['/'] :: parts => '/' :: ['/'].intercalate parts
  | parts => ['/'].intercalate parts

/-- One entry of `helpcodes` (native_resources.py:26). -/
def validHelpcode (helpcode : Text × Text) : Bool :=
  2 ≤ (pathParts helpcode.1).length &&
    (pathParts helpcode.1).head? = some "helpcodes".toList &&
    pathText helpcode.1 = helpcode.1 && "..".toList ∉ pathParts helpcode.1 &&
    '\\' ∉ helpcode.1 && ".txt".toList.isSuffixOf helpcode.1 && isDigest 64 helpcode.2

namespace ResourceLock

/-- `validate` (native_resources.py:19). -/
def validate (lock : ResourceLock) : Bool :=
  lock.version = 1 && lock.dictionary.validate && !lock.helpcodes.isEmpty &&
    lock.helpcodes.all validHelpcode

/-- The locked files with their digests. -/
def digests (lock : ResourceLock) : List (Text × Text) :=
  lock.dictionary.assets ++ lock.helpcodes

def names (lock : ResourceLock) : List Text := lock.digests.map Prod.fst

end ResourceLock

/-! ## Directories -/

/-- What is found under a path. A file is private when it is the user's, has one link and
is writable by nobody else; a directory is safe when it is the user's and writable by
nobody else. -/
inductive Node where
  | file (content : Bytes) (isPrivate : Bool)
  | directory (safe : Bool)
  | symlink
  | special
  deriving DecidableEq

/-- What is below a directory, by the path relative to it. -/
abbrev Tree := List (Text × Node)

/-- An entry of the resources root. -/
inductive Entry where
  | directory (safe : Bool) (tree : Tree)
  | other
  deriving DecidableEq

def Node.isDirectory : Node → Bool
  | directory _ => true
  | _ => false

/-- `PurePosixPath(name).parents` without the last, which is the directory itself. -/
def parents : Text → List Text
  | [] => []
  | c :: name => (if c = '/' then [[]] else []) ++ (parents name).map (c :: ·)

/-- `incoming / name` is not below `incoming`. -/
def escapes (name : Text) : Bool :=
  name.head? = some '/' || "..".toList ∈ pathParts name

/-- `destination.parent.mkdir(parents=True, exist_ok=True, mode=0o700)`, and the file is
created with `O_EXCL` (native_resources.py:145). Only the last directory gets the mode; the
ones above it are made with the default one. `none` is an `OSError`. -/
def createFile (defaultModeSafe : Bool) (tree : Tree) (name : Text) : Option Tree := do
  let tree ← (parents name).foldlM (fun (tree : Tree) path =>
    match tree.lookup path with
    | none =>
      let safe := (parents name).getLast? = some path || defaultModeSafe
      some (tree ++ [(path, .directory safe)])
    | some (.directory _) => some tree
    | some _ => none) tree
  match tree.lookup name with
  | none => some (tree ++ [(name, .file [] true)])
  | some _ => none

/-- `writer.write(chunk)`. -/
def appendFile (tree : Tree) (name : Text) (chunk : Bytes) : Tree :=
  tree.map fun entry =>
    match entry with
    | (path, .file content isPrivate) =>
      (path, .file (if path = name then content ++ chunk else content) isPrivate)
    | entry => entry

/-! ## Verification -/

/-- What lies outside this file: the hash, the JSON encoder, and the validators of the
dictionary manifest (product_lock_shared.py:52). -/
structure Environment where
  sha256 : Bytes → Text
  /-- A hexadecimal digest. -/
  sha256_digest : ∀ bytes, isDigest 64 (sha256 bytes) = true
  canonical : ResourceLock → Bytes
  manifestProvenance : ProductLock → Tree → Bool
  /-- the umask denies others to write -/
  defaultModeSafe : Bool

/-- `content_id` (native_resources.py:123). -/
def Environment.contentId (E : Environment) (lock : ResourceLock) : Text :=
  E.sha256 (E.canonical lock)

/-- One check of `safe_directory` and `verify`. -/
inductive Check where
  /-- `safe_directory(target)` -/
  | safe
  /-- the walk, and the inventory -/
  | layout
  /-- the parents of a name, and its file -/
  | entry (name : Text)
  /-- the digest of a file -/
  | digest (file : Text × Text)
  /-- what the manifest says, where there is one -/
  | provenance
  deriving DecidableEq

/-- `verify` (native_resources.py:74), check by check. -/
def verification (lock : ResourceLock) : List Check :=
  .layout :: lock.names.map .entry ++ lock.dictionary.assets.map .digest ++ [.provenance] ++
    lock.helpcodes.map .digest

/-- The walk over a directory. -/
def layoutPasses (lock : ResourceLock) (tree : Tree) : Bool :=
  (tree.all fun entry =>
    match entry with
    | (_, .symlink) => false
    | (path, .directory _) => path ∈ lock.names.flatMap parents
    | _ => true) &&
  sameMembers ((tree.filter fun entry => !entry.2.isDirectory).map Prod.fst) lock.names

/-- `regular_file` with `private` (native_resources.py:48). -/
def isPrivateFile : Option Node → Bool
  | some (.file content isPrivate) => content.length ≤ 512 * 1024 * 1024 && isPrivate
  | _ => false

/-- A check, on what the root has under the name. -/
def passes (E : Environment) (lock : ResourceLock) (found : Option Entry) (check : Check) :
    Bool :=
  match found with
  | some (.directory safe tree) =>
    match check with
    | .safe => safe
    | .layout => layoutPasses lock tree
    | .entry name =>
      safe && (parents name).all (fun path => tree.lookup path = some (.directory true)) &&
        isPrivateFile (tree.lookup name)
    | .digest (name, digest) =>
      match tree.lookup name with
      | some (.file content _) => E.sha256 content = digest
      | _ => false
    | .provenance =>
      !(productManifest ∈ lock.dictionary.assets.map Prod.fst) ||
        E.manifestProvenance lock.dictionary tree
  | _ => false

/-! ## Calls -/

/-- How a call ends. -/
inductive Outcome where
  | returned (target : Text)
  | failed
  deriving DecidableEq

/-- What is being verified: a directory that was there, the call's own, or the one that was
there first when the call came to rename its own. -/
inductive Stage where
  | cached
  | incoming
  | winner
  deriving DecidableEq

/-- Where a call is (native_resources.py:116). -/
inductive Pc where
  | start
  | verifying (stage : Stage) (left : List Check)
  /-- at `mkdtemp` -/
  | creating
  /-- at the loop over the names -/
  | copying (total : Nat) (left : List Text)
  /-- a file of the copy is open -/
  | reading (total : Nat) (name : Text) (left : List Text)
  /-- directories that are still to be synced -/
  | syncing (left : List Text)
  | renaming
  /-- at the sync of the root -/
  | settling
  /-- at `rmtree` -/
  | cleaning (outcome : Outcome)
  | ended (outcome : Outcome)
  deriving DecidableEq

/-- A call of `prepare`. `incoming` is the name of its temporary directory, empty before
there is one; `published` says that its rename has succeeded. -/
structure Call where
  lock : ResourceLock
  pc : Pc := .start
  incoming : Text := []
  published : Bool := false

/-- Where an exception leads: before the `try`, out of the call; inside, to `finally`. -/
def Pc.raised : Pc → Option Pc
  | start | creating | verifying .cached _ => some (.ended .failed)
  | cleaning _ | ended _ => none
  | _ => some (.cleaning .failed)

/-- The resources root with the calls on it. `handedOut` are the names `mkdtemp` has given
out: they are random, and none is given out twice. `escaped` says that a call has written
outside its own directory. -/
structure World (ι : Type) where
  root : Text → Option Entry
  calls : ι → Call
  handedOut : List Text := []
  escaped : Bool := false

namespace World

variable {ι : Type} [DecidableEq ι]

def put (w : World ι) (i : ι) (c : Call) : World ι :=
  { w with calls := Function.update w.calls i c }

def goto (w : World ι) (i : ι) (pc : Pc) : World ι := w.put i { w.calls i with pc := pc }

def write (w : World ι) (name : Text) (entry : Option Entry) : World ι :=
  { w with root := Function.update w.root name entry }

end World

/-- The name of a temporary directory. -/
def temporaryName (suffix : Text) : Text := ".incoming-".toList ++ suffix

namespace Stage

/-- The directory that is verified. -/
def directory (E : Environment) (c : Call) : Stage → Text
  | cached | winner => E.contentId c.lock
  | incoming => c.incoming

/-- The checks: one that is under the final name has to be safe first. -/
def checks (lock : ResourceLock) : Stage → List Check
  | cached | winner => .safe :: verification lock
  | incoming => verification lock

/-- What follows; the directories of the copy are synced before it is published. -/
def next (E : Environment) (c : Call) (found : Option Entry) : Stage → Pc
  | cached => .ended (.returned (E.contentId c.lock))
  | incoming =>
    match found with
    | some (.directory _ tree) =>
      .syncing ((tree.filter fun entry => entry.2.isDirectory).map Prod.fst ++ [[]])
    | _ => .cleaning .failed
  | winner => .settling

end Stage

section

variable {ι : Type} [DecidableEq ι] (E : Environment)

/-- The next operation of a call, when nothing outside it decides how it goes. -/
def runCall (w : World ι) (i : ι) : Option (World ι) :=
  let c := w.calls i
  match c.pc with
  | .start =>
    if !c.lock.validate then some (w.goto i (.ended .failed))
    else if w.root (E.contentId c.lock) = none then some (w.goto i .creating)
    else some (w.goto i (.verifying .cached (Stage.cached.checks c.lock)))
  | .verifying stage [] =>
    some (w.goto i (stage.next E c (w.root (stage.directory E c))))
  | .verifying stage (check :: left) =>
    if passes E c.lock (w.root (stage.directory E c)) check then
      some (w.goto i (.verifying stage left))
    else c.pc.raised.map (w.goto i)
  | .copying total (name :: left) =>
    match w.root c.incoming with
    | some (.directory safe tree) =>
      match createFile E.defaultModeSafe tree name with
      | some tree =>
        some { (w.write c.incoming (some (.directory safe tree))).goto i
          (.reading total name left) with escaped := w.escaped || escapes name }
      | none => some (w.goto i (.cleaning .failed))
    | _ => some (w.goto i (.cleaning .failed))
  | .copying _ [] => some (w.goto i (.verifying .incoming (Stage.incoming.checks c.lock)))
  | .syncing (_ :: left) => some (w.goto i (.syncing left))
  | .syncing [] => some (w.goto i .renaming)
  | .renaming =>
    if w.root (E.contentId c.lock) = none then
      some (((w.write (E.contentId c.lock) (w.root c.incoming)).write c.incoming none).put i
        { c with pc := .settling, published := true })
    else some (w.goto i (.verifying .winner (Stage.winner.checks c.lock)))
  | .settling => some (w.goto i (.cleaning (.returned (E.contentId c.lock))))
  | .cleaning outcome => some ((w.write c.incoming none).goto i (.ended outcome))
  | .creating | .reading .. | .ended _ => none

/-- What happens to a call next. -/
inductive Act where
  /-- its next operation succeeds, or finds that it fails -/
  | run
  /-- its next operation raises: the call is cancelled, or the system fails it -/
  | raise
  /-- `mkdtemp` gives out a name -/
  | temporary (suffix : Text)
  /-- the source has these bytes next; none at the end of the file -/
  | chunk (bytes : Bytes)

/-- A step of call `i`. -/
def advance (w : World ι) (i : ι) : Act → Option (World ι)
  | .run => runCall E w i
  | .raise => (w.calls i).pc.raised.map (w.goto i)
  | .temporary suffix =>
    match (w.calls i).pc with
    | .creating =>
      if w.root (temporaryName suffix) = none ∧ temporaryName suffix ∉ w.handedOut then
        some { (w.write (temporaryName suffix) (some (.directory true []))).put i
          { w.calls i with
            pc := .copying 0 (w.calls i).lock.names
            incoming := temporaryName suffix } with
          handedOut := temporaryName suffix :: w.handedOut }
      else none
    | _ => none
  | .chunk bytes =>
    match (w.calls i).pc with
    | .reading total name left =>
      if bytes = [] then some (w.goto i (.copying total left))
      else if 1024 * 1024 < bytes.length then none
      else if 1024 * 1024 * 1024 < total + bytes.length then some (w.goto i (.cleaning .failed))
      else
        match w.root (w.calls i).incoming with
        | some (.directory safe tree) =>
          some ((w.write (w.calls i).incoming
            (some (.directory safe (appendFile tree name bytes)))).goto i
              (.reading (total + bytes.length) name left))
        | _ => some (w.goto i (.cleaning .failed))
    | _ => none

/-- The steps of a resources root. -/
def Step (w : World ι) (event : ι × Act) (w' : World ι) : Prop :=
  advance E w event.1 event.2 = some w'

end

/-! ## What the check of a lock is good for -/

variable {E : Environment}

theorem asset_stays : ∀ name ∈ productAssets, escapes name = false := by
  decide

/-- A helpcode is below `helpcodes`, and nothing in its name leads up. -/
theorem helpcode_stays {helpcode : Text × Text} (h : validHelpcode helpcode = true) :
    escapes helpcode.1 = false := by
  unfold validHelpcode at h
  simp only [Bool.and_eq_true, decide_eq_true_eq] at h
  obtain ⟨⟨⟨⟨⟨⟨-, hhead⟩, -⟩, hup⟩, -⟩, -⟩, -⟩ := h
  unfold escapes
  rw [Bool.or_eq_false_iff, decide_eq_false_iff_not, decide_eq_false_iff_not]
  refine ⟨fun habsolute => ?_, hup⟩
  -- an absolute path has the root for its first part
  unfold pathParts at hhead
  rw [if_pos habsolute] at hhead
  revert hhead
  simp only [List.cons_append, List.nil_append, List.head?_cons, Option.some.injEq]
  decide

/-- **No name of a lock that is accepted leads out of the directory.** -/
theorem validate_stays {lock : ResourceLock} (h : lock.validate = true) {name : Text}
    (hname : name ∈ lock.names) : escapes name = false := by
  unfold ResourceLock.validate at h
  simp only [Bool.and_eq_true] at h
  obtain ⟨⟨⟨-, hproduct⟩, -⟩, hhelpcodes⟩ := h
  obtain ⟨file, hfile, rfl⟩ := List.mem_map.mp hname
  rcases List.mem_append.mp hfile with hasset | hhelpcode
  · unfold ProductLock.validate at hproduct
    simp only [Bool.and_eq_true] at hproduct
    have hmembers := hproduct.1.2
    unfold sameMembers at hmembers
    rw [Bool.and_eq_true, List.all_eq_true] at hmembers
    have hlisted := of_decide_eq_true
      (hmembers.1 file.1 (List.mem_map.mpr ⟨file, hasset, rfl⟩))
    split at hlisted
    · exact asset_stays _ (List.mem_append_left _ hlisted)
    · exact asset_stays _ hlisted
  · exact helpcode_stays (List.all_eq_true.mp hhelpcodes file hhelpcode)

/-- Digests and the names of temporary directories are apart. -/
theorem contentId_ne_temporary (lock : ResourceLock) (suffix : Text) :
    E.contentId lock ≠ temporaryName suffix := by
  intro heq
  have hdigest := E.sha256_digest (E.canonical lock)
  change isDigest 64 (E.contentId lock) = true at hdigest
  rw [heq, isDigest, Bool.and_eq_true, List.all_eq_true] at hdigest
  have hdot := hdigest.2 '.' (List.mem_append_left _ (by decide))
  revert hdot
  decide

theorem temporaryName_ne_nil (suffix : Text) : temporaryName suffix ≠ [] :=
  List.append_ne_nil_of_left_ne_nil (by decide) suffix

theorem contentId_ne_nil (lock : ResourceLock) : E.contentId lock ≠ [] := by
  intro heq
  have hdigest := E.sha256_digest (E.canonical lock)
  change isDigest 64 (E.contentId lock) = true at hdigest
  rw [heq] at hdigest
  revert hdigest
  decide

/-! ## What a call knows -/

/-- The checks pass on what was found. -/
def Found (E : Environment) (lock : ResourceLock) (found : Option Entry)
    (checks : List Check) : Prop :=
  ∀ check ∈ checks, passes E lock found check = true

/-- A verification that has these checks left. -/
def Checked (E : Environment) (root : Text → Option Entry) (c : Call) (stage : Stage)
    (left : List Check) : Prop :=
  ∃ done, stage.checks c.lock = done ++ left ∧
    Found E c.lock (root (stage.directory E c)) done

/-- What a call that returns has delivered. -/
def Delivered (E : Environment) (root : Text → Option Entry) (c : Call) (outcome : Outcome) :
    Prop :=
  ∀ target, outcome = .returned target → target = E.contentId c.lock ∧
    Found E c.lock (root target) (verification c.lock)

/-- **What a call knows of the root**, at each point of the code. -/
def Sound (E : Environment) (root : Text → Option Entry) (c : Call) : Prop :=
  match c.pc with
  | .start => c.incoming = [] ∧ c.published = false
  | .creating => c.incoming = [] ∧ c.published = false ∧ c.lock.validate = true
  | .verifying .cached left =>
    c.incoming = [] ∧ c.published = false ∧ Checked E root c .cached left
  | .copying _ left | .reading _ _ left =>
    c.incoming ≠ [] ∧ c.published = false ∧ ∀ name ∈ left, escapes name = false
  | .verifying .incoming left =>
    c.incoming ≠ [] ∧ c.published = false ∧ Checked E root c .incoming left
  | .verifying .winner left => c.published = false ∧ Checked E root c .winner left
  | .syncing _ | .renaming =>
    c.incoming ≠ [] ∧ c.published = false ∧ Checked E root c .incoming []
  | .settling => Found E c.lock (root (E.contentId c.lock)) (verification c.lock)
  | .cleaning outcome => Delivered E root c outcome
  | .ended outcome =>
    (c.incoming ≠ [] → root c.incoming = none) ∧ Delivered E root c outcome

section

variable {root root' : Text → Option Entry} {c : Call}

/-- A check that passes has something to look at. -/
theorem exists_of_passes {lock : ResourceLock} {found : Option Entry} {check : Check}
    (h : passes E lock found check = true) : ∃ entry, found = some entry := by
  cases found with
  | none => cases h
  | some entry => exact ⟨entry, rfl⟩

/-- What was found under a name stays found while the entry stays. -/
theorem Found.stays {lock : ResourceLock} {name : Text} {checks : List Check}
    (h : Found E lock (root name) checks)
    (hstays : ∀ entry, root name = some entry → root' name = some entry) :
    Found E lock (root' name) checks := by
  intro check hcheck
  have hpasses := h check hcheck
  obtain ⟨entry, hentry⟩ := exists_of_passes hpasses
  rw [hstays entry hentry, ← hentry]
  exact hpasses

/-- What a call knows outlives steps that leave its own directory alone and take nothing
off the name it is to publish under. -/
theorem Sound.stays (h : Sound E root c)
    (hown : c.incoming ≠ [] → root' c.incoming = root c.incoming)
    (htarget : ∀ entry, root (E.contentId c.lock) = some entry →
      root' (E.contentId c.lock) = some entry) : Sound E root' c := by
  have hchecked : ∀ {stage left}, (stage = .incoming → c.incoming ≠ []) →
      Checked E root c stage left → Checked E root' c stage left := by
    rintro stage left hnamed ⟨done, hdone, hfound⟩
    refine ⟨done, hdone, hfound.stays ?_⟩
    cases stage with
    | incoming =>
      intro entry hentry
      exact (hown (hnamed rfl)).trans hentry
    | _ => exact htarget
  have hdelivered : ∀ {outcome}, Delivered E root c outcome → Delivered E root' c outcome := by
    intro outcome hd target htarget'
    obtain ⟨rfl, hfound⟩ := hd target htarget'
    exact ⟨rfl, hfound.stays htarget⟩
  unfold Sound at h ⊢
  split at h
  · exact h
  · exact h
  · exact ⟨h.1, h.2.1, hchecked (fun h => by cases h) h.2.2⟩
  · exact h
  · exact h
  · exact ⟨h.1, h.2.1, hchecked (fun _ => h.1) h.2.2⟩
  · exact ⟨h.1, hchecked (fun h => by cases h) h.2⟩
  · exact ⟨h.1, h.2.1, hchecked (fun _ => h.1) h.2.2⟩
  · exact ⟨h.1, h.2.1, hchecked (fun _ => h.1) h.2.2⟩
  · exact h.stays htarget
  · exact hdelivered h
  · exact ⟨fun hnamed => (hown hnamed).trans (h.1 hnamed), hdelivered h.2⟩

end

/-! ## One step -/

section

variable {ι : Type} [DecidableEq ι]

@[simp]
theorem World.goto_calls (w : World ι) (i : ι) (pc : Pc) :
    (w.goto i pc).calls i = { w.calls i with pc := pc } :=
  Function.update_self ..

theorem World.put_calls_other (w : World ι) {i j : ι} (hji : j ≠ i) (c : Call) :
    (w.put i c).calls j = w.calls j :=
  Function.update_of_ne hji ..

omit [DecidableEq ι] in
theorem World.write_root_other (w : World ι) {name other : Text} (hother : other ≠ name)
    (entry : Option Entry) : (w.write name entry).root other = w.root other :=
  Function.update_of_ne hother ..

/-- What a step may do, and where: a call moves on, its directory is made, a file is made in it,
its contents change or it is removed, or it is renamed. -/
inductive Moves (E : Environment) (w : World ι) (i : ι) : World ι → Prop
  | goto (pc : Pc) : Moves E w i (w.goto i pc)
  | made (suffix : Text) (hpc : (w.calls i).pc = .creating)
    (hfresh : temporaryName suffix ∉ w.handedOut) :
    Moves E w i { (w.write (temporaryName suffix) (some (.directory true []))).put i
      { w.calls i with
        pc := .copying 0 (w.calls i).lock.names
        incoming := temporaryName suffix } with
      handedOut := temporaryName suffix :: w.handedOut }
  | created {total : Nat} {name : Text} {left : List Text}
    (hpc : (w.calls i).pc = .copying total (name :: left)) (entry : Option Entry) (pc : Pc) :
    Moves E w i { (w.write (w.calls i).incoming entry).goto i pc with
      escaped := w.escaped || escapes name }
  | written (entry : Option Entry) (pc : Pc) :
    Moves E w i ((w.write (w.calls i).incoming entry).goto i pc)
  | renamed (hpc : (w.calls i).pc = .renaming)
    (hvacant : w.root (E.contentId (w.calls i).lock) = none) :
    Moves E w i (((w.write (E.contentId (w.calls i).lock) (w.root (w.calls i).incoming)).write
      (w.calls i).incoming none).put i { w.calls i with pc := .settling, published := true })

/-- An exception changes nothing but the call. -/
theorem raised_moves {w w' : World ι} {i : ι} {pc : Pc}
    (h : pc.raised.map (w.goto i) = some w') : Moves E w i w' := by
  obtain ⟨next, -, rfl⟩ := Option.map_eq_some_iff.mp h
  exact .goto next

theorem runCall_moves {w w' : World ι} {i : ι} (h : runCall E w i = some w') :
    Moves E w i w' := by
  unfold runCall at h
  dsimp only at h
  cases hpc : (w.calls i).pc with
  | start =>
    simp only [hpc] at h
    split at h
    next hinvalid =>
      cases h
      exact .goto _
    next hvalid =>
    split at h
    all_goals
      cases h
      exact .goto _
  | verifying stage left =>
    cases left with
    | nil =>
      simp only [hpc] at h
      cases h
      exact .goto _
    | cons check left =>
      simp only [hpc] at h
      split at h
      next hpass =>
        cases h
        exact .goto _
      next hfails => exact raised_moves h
  | copying total left =>
    cases left with
    | nil =>
      simp only [hpc] at h
      cases h
      exact .goto _
    | cons name left =>
      simp only [hpc] at h
      split at h
      next safe tree hincoming =>
        split at h
        next tree' hcreated =>
          cases h
          exact .created hpc _ _
        next hrefused =>
          cases h
          exact .goto _
      next hincoming =>
        cases h
        exact .goto _
  | syncing left =>
    cases left with
    | nil | cons _ left =>
      simp only [hpc] at h
      cases h
      exact .goto _
  | «renaming» =>
    simp only [hpc] at h
    split at h
    next hvacant =>
      cases h
      exact .renamed hpc hvacant
    next htaken =>
      cases h
      exact .goto _
  | settling =>
    simp only [hpc] at h
    cases h
    exact .goto _
  | cleaning outcome =>
    simp only [hpc] at h
    cases h
    exact .written _ _
  | creating | reading | ended =>
    simp only [hpc] at h
    cases h

/-- **The step lemma**: whatever happens to a call next is one of these. -/
theorem advance_moves {w w' : World ι} {i : ι} {act : Act} (h : advance E w i act = some w') :
    Moves E w i w' := by
  cases act with
  | run => exact runCall_moves h
  | raise => exact raised_moves h
  | temporary suffix =>
    simp only [advance] at h
    split at h
    next hpc =>
      split at h
      next hfresh =>
        cases h
        exact .made suffix hpc hfresh.2
      next htaken => cases h
    next hpc => cases h
  | chunk bytes =>
    simp only [advance] at h
    split at h
    next total name left hpc =>
      split at h
      next hend =>
        cases h
        exact .goto _
      next hmore =>
      split at h
      next hlong => cases h
      next hchunk =>
      split at h
      next hlarge =>
        cases h
        exact .goto _
      next hfits =>
      split at h
      next safe tree hincoming =>
        cases h
        exact .written _ _
      next hincoming =>
        cases h
        exact .goto _
    next hpc => cases h

/-- A rename that succeeds, seen from the root: under the digest of the lock there was
nothing, and now there is what the call had in its own directory. -/
structure Publishes (E : Environment) (w w' : World ι) (i : ι) (name : Text) : Prop where
  pc : (w.calls i).pc = .renaming
  target : name = E.contentId (w.calls i).lock
  vacant : w.root name = none
  moved : w'.root name = w.root (w.calls i).incoming
  published : (w'.calls i).published = true

/-- **What one step does**: one call moves, it changes its own directory or publishes it,
and a directory it did not have before has a name nobody has had. -/
structure Frame (E : Environment) (w w' : World ι) (i : ι) : Prop where
  others : ∀ j, j ≠ i → w'.calls j = w.calls j
  lock : (w'.calls i).lock = (w.calls i).lock
  incoming : (w'.calls i).incoming = (w.calls i).incoming ∧ w'.handedOut = w.handedOut ∨
    (w.calls i).incoming = [] ∧ (w'.calls i).incoming ∉ w.handedOut ∧
      w'.handedOut = (w'.calls i).incoming :: w.handedOut ∧
      ∃ suffix, (w'.calls i).incoming = temporaryName suffix
  published : (w'.calls i).published = (w.calls i).published ∨
    Publishes E w w' i (E.contentId (w.calls i).lock)
  root : ∀ name, name ≠ (w'.calls i).incoming →
    w'.root name = w.root name ∨ Publishes E w w' i name

/-- The call goes on, and the root stays as it is. -/
theorem frame_goto (w : World ι) (i : ι) (pc : Pc) : Frame E w (w.goto i pc) i where
  others j hji := w.put_calls_other hji _
  lock := by simp
  incoming := .inl ⟨by simp, rfl⟩
  published := .inl (by simp)
  root _ _ := .inl rfl

/-- The call goes on, and its own directory has changed. -/
theorem frame_write (w : World ι) (i : ι) (pc : Pc) (entry : Option Entry) (escaped : Bool) :
    Frame E w { (w.write (w.calls i).incoming entry).goto i pc with escaped := escaped } i where
  others j hji := (w.write _ _).put_calls_other hji _
  lock := by simp [World.goto, World.put, World.write]
  incoming := .inl ⟨by simp [World.goto, World.put, World.write], rfl⟩
  published := .inl (by simp [World.goto, World.put, World.write])
  root name hname := by
    refine .inl (w.write_root_other ?_ _)
    simpa [World.goto, World.put, World.write] using hname

/-- The rename: the two names differ, and nothing else is touched. -/
theorem frame_renamed {w : World ι} {i : ι}
    (hapart : E.contentId (w.calls i).lock ≠ (w.calls i).incoming)
    (hpc : (w.calls i).pc = .renaming)
    (hvacant : w.root (E.contentId (w.calls i).lock) = none) :
    Frame E w (((w.write (E.contentId (w.calls i).lock) (w.root (w.calls i).incoming)).write
      (w.calls i).incoming none).put i
        { w.calls i with pc := .settling, published := true }) i := by
  have hkept : ∀ name, name ≠ (w.calls i).incoming →
      (((w.write (E.contentId (w.calls i).lock) (w.root (w.calls i).incoming)).write
        (w.calls i).incoming none).put i
          { w.calls i with pc := .settling, published := true }).root name =
        (w.write (E.contentId (w.calls i).lock) (w.root (w.calls i).incoming)).root name :=
    fun name hname => World.write_root_other _ hname _
  have hpublishes : Publishes E w (((w.write (E.contentId (w.calls i).lock)
      (w.root (w.calls i).incoming)).write (w.calls i).incoming none).put i
        { w.calls i with pc := .settling, published := true }) i
          (E.contentId (w.calls i).lock) :=
    ⟨hpc, rfl, hvacant, (hkept _ hapart).trans (Function.update_self ..), by simp [World.put]⟩
  refine ⟨fun j hji => World.put_calls_other _ hji _, by simp [World.put],
    .inl ⟨by simp [World.put], rfl⟩, .inr hpublishes, fun name hname => ?_⟩
  have hother : name ≠ (w.calls i).incoming := by simpa [World.put] using hname
  by_cases htarget : name = E.contentId (w.calls i).lock
  · rw [htarget]
    exact .inr hpublishes
  · exact .inl ((hkept name hother).trans (w.write_root_other htarget _))

theorem advance_frame {w w' : World ι} {i : ι} {act : Act} (hsound : Sound E w.root (w.calls i))
    (hapart : E.contentId (w.calls i).lock ≠ (w.calls i).incoming)
    (h : advance E w i act = some w') : Frame E w w' i := by
  cases advance_moves h with
  | goto pc => exact frame_goto w i pc
  | created hpc entry pc => exact frame_write w i pc entry _
  | written entry pc => exact frame_write w i pc entry w.escaped
  | renamed hpc hvacant => exact frame_renamed hapart hpc hvacant
  | made suffix hpc hfresh =>
    -- `mkdtemp`: a name that was not there, and no other entry is touched
    unfold Sound at hsound
    rw [hpc] at hsound
    refine ⟨fun j hji => World.put_calls_other _ hji _, by simp [World.put],
      .inr ⟨hsound.1, ?_, ?_, suffix, by simp [World.put]⟩, .inl (by simp [World.put]),
      fun name hname => .inl ?_⟩
    · simpa [World.put] using hfresh
    · simp [World.put]
    · refine w.write_root_other ?_ _
      simpa [World.put] using hname

/-! ## What the call that moves knows next -/

/-- A verification begins. -/
theorem Checked.begin {root : Text → Option Entry} {c : Call} (stage : Stage) :
    Checked E root c stage (stage.checks c.lock) :=
  ⟨[], rfl, fun _ h => absurd h List.not_mem_nil⟩

/-- One more check has passed. -/
theorem Checked.pass {root : Text → Option Entry} {c : Call} {stage : Stage} {check : Check}
    {left : List Check} (h : Checked E root c stage (check :: left))
    (hpass : passes E c.lock (root (stage.directory E c)) check = true) :
    Checked E root c stage left := by
  obtain ⟨done, hdone, hfound⟩ := h
  refine ⟨done ++ [check], by simp [hdone], fun other hother => ?_⟩
  rcases List.mem_append.mp hother with hold | hnew
  · exact hfound other hold
  · obtain rfl := List.mem_singleton.mp hnew
    exact hpass

/-- A verification that is over has made every check of `verify`. -/
theorem Checked.found {root : Text → Option Entry} {c : Call} {stage : Stage}
    (h : Checked E root c stage []) :
    Found E c.lock (root (stage.directory E c)) (verification c.lock) := by
  obtain ⟨done, hdone, hfound⟩ := h
  rw [List.append_nil] at hdone
  subst hdone
  intro check hcheck
  refine hfound check ?_
  cases stage with
  | incoming => exact hcheck
  | _ => exact List.mem_cons_of_mem _ hcheck

/-- A failed call has delivered nothing. -/
theorem delivered_failed {root : Text → Option Entry} {c : Call} :
    Delivered E root c .failed := by
  intro target h
  cases h

/-- An exception, anywhere. -/
theorem sound_raised {w w' : World ι} {i : ι} (hsound : Sound E w.root (w.calls i))
    (h : (w.calls i).pc.raised.map (w.goto i) = some w') :
    Sound E w'.root (w'.calls i) := by
  obtain ⟨next, hnext, rfl⟩ := Option.map_eq_some_iff.mp h
  rw [World.goto_calls]
  unfold Sound at hsound
  unfold Pc.raised at hnext
  split at hnext
  · next hpc =>
    rw [hpc] at hsound
    cases hnext
    exact ⟨fun hnamed => absurd hsound.1 hnamed, delivered_failed⟩
  · next hpc =>
    rw [hpc] at hsound
    cases hnext
    exact ⟨fun hnamed => absurd hsound.1 hnamed, delivered_failed⟩
  · next hpc =>
    rw [hpc] at hsound
    cases hnext
    exact ⟨fun hnamed => absurd hsound.1 hnamed, delivered_failed⟩
  · cases hnext
  · cases hnext
  · cases hnext
    exact delivered_failed

omit [DecidableEq ι] in
/-- The last check of a verification has passed. -/
theorem sound_verified {w : World ι} {i : ι} {stage : Stage}
    (hsound : Sound E w.root (w.calls i)) (hpc : (w.calls i).pc = .verifying stage []) :
    Sound E w.root { w.calls i with
      pc := stage.next E (w.calls i) (w.root (stage.directory E (w.calls i))) } := by
  unfold Sound at hsound
  rw [hpc] at hsound
  cases stage with
  | cached =>
    obtain ⟨hnone, -, hchecked⟩ := hsound
    refine ⟨fun hnamed => absurd hnone hnamed, fun target htarget => ?_⟩
    cases htarget
    exact ⟨rfl, hchecked.found⟩
  | incoming =>
    show Sound E w.root { w.calls i with pc := Stage.next E _ _ .incoming }
    unfold Stage.next
    dsimp only
    split
    · exact hsound
    · exact delivered_failed
  | winner => exact Checked.found hsound.2

omit [DecidableEq ι] in
/-- One check of a verification has passed. -/
theorem sound_checked {w : World ι} {i : ι} {stage : Stage} {check : Check} {left : List Check}
    (hsound : Sound E w.root (w.calls i))
    (hpc : (w.calls i).pc = .verifying stage (check :: left))
    (hpass : passes E (w.calls i).lock (w.root (stage.directory E (w.calls i))) check = true) :
    Sound E w.root { w.calls i with pc := .verifying stage left } := by
  unfold Sound at hsound
  rw [hpc] at hsound
  cases stage with
  | cached => exact ⟨hsound.1, hsound.2.1, Checked.pass hsound.2.2 hpass⟩
  | incoming => exact ⟨hsound.1, hsound.2.1, Checked.pass hsound.2.2 hpass⟩
  | winner => exact ⟨hsound.1, Checked.pass hsound.2 hpass⟩

omit [DecidableEq ι] in
/-- **The rename**: what has been verified in the call's own directory is now under the
digest of the lock. -/
theorem sound_renamed {w : World ι} {i : ι} (hsound : Sound E w.root (w.calls i))
    (hpc : (w.calls i).pc = .renaming)
    (hapart : E.contentId (w.calls i).lock ≠ (w.calls i).incoming) :
    Sound E (((w.write (E.contentId (w.calls i).lock)
      (w.root (w.calls i).incoming)).write (w.calls i).incoming none)).root
      { w.calls i with pc := .settling, published := true } := by
  unfold Sound at hsound
  rw [hpc] at hsound
  have hfound : Found E (w.calls i).lock (w.root (w.calls i).incoming)
      (verification (w.calls i).lock) := Checked.found hsound.2.2
  show Found E (w.calls i).lock _ _
  rw [World.write_root_other _ hapart]
  show Found E (w.calls i).lock (Function.update w.root _ _ _) _
  rw [Function.update_self]
  exact hfound

theorem runCall_sound {w w' : World ι} {i : ι} (hsound : Sound E w.root (w.calls i))
    (hapart : E.contentId (w.calls i).lock ≠ (w.calls i).incoming)
    (h : runCall E w i = some w') : Sound E w'.root (w'.calls i) := by
  have hnow := hsound
  unfold Sound at hnow
  unfold runCall at h
  dsimp only at h
  cases hpc : (w.calls i).pc with
  | start =>
    rw [hpc] at hnow
    simp only [hpc] at h
    split at h
    next hinvalid =>
      cases h
      rw [World.goto_calls]
      exact ⟨fun hnamed => absurd hnow.1 hnamed, delivered_failed⟩
    next hvalid =>
    split at h
    next hmissing =>
      cases h
      rw [World.goto_calls]
      exact ⟨hnow.1, hnow.2, by simpa using hvalid⟩
    next hthere =>
      cases h
      rw [World.goto_calls]
      exact ⟨hnow.1, hnow.2, .begin .cached⟩
  | verifying stage left =>
    cases left with
    | nil =>
      -- all checks of the stage have passed
      simp only [hpc] at h
      cases h
      rw [World.goto_calls]
      exact sound_verified hsound hpc
    | cons check left =>
      simp only [hpc] at h
      split at h
      next hpass =>
        cases h
        rw [World.goto_calls]
        exact sound_checked hsound hpc hpass
      next hfails => exact sound_raised hsound (by rw [hpc]; exact h)
  | copying total left =>
    rw [hpc] at hnow
    cases left with
    | nil =>
      -- the copy is complete
      simp only [hpc] at h
      cases h
      rw [World.goto_calls]
      exact ⟨hnow.1, hnow.2.1, .begin .incoming⟩
    | cons name left =>
      simp only [hpc] at h
      split at h
      next safe tree hincoming =>
        split at h
        next tree' hcreated =>
          cases h
          show Sound E _ (Function.update w.calls i _ i)
          rw [Function.update_self]
          exact ⟨hnow.1, hnow.2.1, fun name hname =>
            hnow.2.2 name (List.mem_cons_of_mem _ hname)⟩
        next hrefused =>
          cases h
          rw [World.goto_calls]
          exact delivered_failed
      next hincoming =>
        -- the directory is gone
        cases h
        rw [World.goto_calls]
        exact delivered_failed
  | syncing left =>
    rw [hpc] at hnow
    cases left with
    | nil | cons _ left =>
      simp only [hpc] at h
      cases h
      rw [World.goto_calls]
      exact hnow
  | «renaming» =>
    simp only [hpc] at h
    split at h
    next hfree =>
      cases h
      show Sound E _ (Function.update w.calls i _ i)
      rw [Function.update_self]
      exact sound_renamed hsound hpc hapart
    next htaken =>
      -- another call has won: what is there is checked
      rw [hpc] at hnow
      cases h
      rw [World.goto_calls]
      exact ⟨hnow.2.1, .begin .winner⟩
  | settling =>
    rw [hpc] at hnow
    simp only [hpc] at h
    cases h
    rw [World.goto_calls]
    intro target htarget
    cases htarget
    exact ⟨rfl, hnow⟩
  | cleaning outcome =>
    rw [hpc] at hnow
    simp only [hpc] at h
    cases h
    rw [World.goto_calls]
    refine ⟨fun _ => Function.update_self .., fun target htarget => ?_⟩
    obtain ⟨rfl, hfound⟩ := hnow target htarget
    refine ⟨rfl, hfound.stays fun entry hentry => ?_⟩
    -- what is removed is not the target
    exact (World.write_root_other _ hapart _).trans hentry
  | creating | reading | ended =>
    simp only [hpc] at h
    cases h

theorem advance_sound {w w' : World ι} {i : ι} {act : Act}
    (hsound : Sound E w.root (w.calls i))
    (hapart : E.contentId (w.calls i).lock ≠ (w.calls i).incoming)
    (h : advance E w i act = some w') : Sound E w'.root (w'.calls i) := by
  cases act with
  | run => exact runCall_sound hsound hapart h
  | raise => exact sound_raised hsound h
  | temporary suffix =>
    -- the call gets a directory of its own, with nothing in it yet
    simp only [advance] at h
    split at h
    · next hpc =>
      split at h
      · cases h
        unfold Sound at hsound
        rw [hpc] at hsound
        show Sound E _ (Function.update w.calls i _ i)
        rw [Function.update_self]
        exact ⟨temporaryName_ne_nil suffix, hsound.2.1,
          fun name hname => validate_stays hsound.2.2 hname⟩
      · cases h
    · cases h
  | chunk bytes =>
    -- too much, or a write that fails, ends the delivery
    simp only [advance] at h
    split at h
    · next hpc =>
      unfold Sound at hsound
      rw [hpc] at hsound
      split at h
      · cases h
        rw [World.goto_calls]
        exact hsound
      split at h
      · cases h
      split at h
      · cases h
        rw [World.goto_calls]
        exact delivered_failed
      split at h
      · cases h
        rw [World.goto_calls]
        exact hsound
      · cases h
        rw [World.goto_calls]
        exact delivered_failed
    · cases h

/-! ## The invariant -/

/-- **What holds of the root between steps.** -/
structure Inv (E : Environment) (w : World ι) : Prop where
  sound : ∀ i, Sound E w.root (w.calls i)
  /-- a temporary directory has a name that was given out, to one call -/
  named : ∀ i, (w.calls i).incoming ≠ [] → (w.calls i).incoming ∈ w.handedOut ∧
    ∃ suffix, (w.calls i).incoming = temporaryName suffix
  distinct : ∀ i j, i ≠ j → (w.calls i).incoming ≠ [] →
    (w.calls i).incoming ≠ (w.calls j).incoming
  stays : w.escaped = false

/-- A root nobody has called on yet: it may hold anything. -/
structure World.Initial (w : World ι) : Prop where
  pc : ∀ i, (w.calls i).pc = .start
  incoming : ∀ i, (w.calls i).incoming = []
  published : ∀ i, (w.calls i).published = false
  stays : w.escaped = false

omit [DecidableEq ι] in
theorem World.Initial.inv {w : World ι} (h : w.Initial) : Inv E w where
  sound i := by
    unfold Sound
    rw [h.pc i]
    exact ⟨h.incoming i, h.published i⟩
  named i hnamed := absurd (h.incoming i) hnamed
  distinct i _ _ hnamed := absurd (h.incoming i) hnamed
  stays := h.stays

omit [DecidableEq ι] in
/-- The name a call publishes under is not that of a temporary directory. -/
theorem Inv.apart {w : World ι} (h : Inv E w) (lock : ResourceLock) (i : ι) :
    E.contentId lock ≠ (w.calls i).incoming := by
  by_cases hnamed : (w.calls i).incoming = []
  · rw [hnamed]
    exact contentId_ne_nil lock
  · obtain ⟨-, suffix, hsuffix⟩ := h.named i hnamed
    rw [hsuffix]
    exact contentId_ne_temporary lock suffix

/-- A copied name has been checked. -/
theorem advance_stays {w w' : World ι} {i : ι} {act : Act} (hsound : Sound E w.root (w.calls i))
    (hstays : w.escaped = false) (h : advance E w i act = some w') : w'.escaped = false := by
  cases advance_moves h with
  | goto | made | written | renamed => exact hstays
  | created hpc entry pc =>
    -- the one step that makes a file: its name was checked with the manifest
    unfold Sound at hsound
    rw [hpc] at hsound
    show (w.escaped || escapes _) = false
    rw [hstays, hsound.2.2 _ List.mem_cons_self]
    rfl

omit [DecidableEq ι] in
/-- Under a name that is not temporary, entries appear and do not go. -/
theorem Frame.keeps {w w' : World ι} {i : ι} (hframe : Frame E w w' i) {name : Text}
    (hname : name ≠ (w'.calls i).incoming) {entry : Entry} (hentry : w.root name = some entry) :
    w'.root name = some entry := by
  rcases hframe.root name hname with hsame | hpublishes
  · rw [hsame, hentry]
  · rw [hpublishes.vacant] at hentry
    cases hentry

/-- **Every step keeps the invariant.** -/
theorem Inv.step {w w' : World ι} {event : ι × Act} (h : Inv E w) (hstep : Step E w event w') :
    Inv E w' := by
  obtain ⟨i, act⟩ := event
  change advance E w i act = some w' at hstep
  have hframe := advance_frame (h.sound i) (h.apart _ i) hstep
  -- the name of a new directory is nobody else's
  have hfresh : ∀ j, j ≠ i → (w.calls j).incoming ≠ [] →
      (w.calls j).incoming ≠ (w'.calls i).incoming := by
    intro j hji hnamed
    rcases hframe.incoming with ⟨hsame, -⟩ | ⟨-, hnew, -, -⟩
    · rw [hsame]
      exact h.distinct j i hji hnamed
    · intro heq
      exact hnew (heq ▸ (h.named j hnamed).1)
  -- and no name a digest has
  have htarget : ∀ lock, E.contentId lock ≠ (w'.calls i).incoming := by
    intro lock
    rcases hframe.incoming with ⟨hsame, -⟩ | ⟨-, -, -, suffix, hsuffix⟩
    · rw [hsame]
      exact h.apart lock i
    · rw [hsuffix]
      exact contentId_ne_temporary lock suffix
  refine ⟨fun j => ?_, fun j hnamed => ?_, fun j k hjk hnamed => ?_,
    advance_stays (h.sound i) h.stays hstep⟩
  · -- the call that moves keeps what it knows, the others their files
    by_cases hji : j = i
    · subst hji
      exact advance_sound (h.sound j) (h.apart _ j) hstep
    rw [hframe.others j hji]
    refine (h.sound j).stays (fun hnamed => ?_) fun entry hentry =>
      hframe.keeps (htarget _) hentry
    rcases hframe.root _ (hfresh j hji hnamed) with hsame | hpublishes
    · exact hsame
    · exact absurd hpublishes.target.symm (h.apart _ j)
  · -- every name was handed out by `mkdtemp`
    by_cases hji : j = i
    · subst hji
      rcases hframe.incoming with ⟨hsame, hhanded⟩ | ⟨-, -, hhanded, suffix, hsuffix⟩
      · rw [hsame] at hnamed ⊢
        rw [hhanded]
        exact h.named j hnamed
      · rw [hhanded]
        exact ⟨List.mem_cons_self, suffix, hsuffix⟩
    rw [hframe.others j hji] at hnamed ⊢
    obtain ⟨hmem, hsuffix⟩ := h.named j hnamed
    refine ⟨?_, hsuffix⟩
    rcases hframe.incoming with ⟨-, hhanded⟩ | ⟨-, -, hhanded, -⟩
    · rwa [hhanded]
    · rw [hhanded]
      exact List.mem_cons_of_mem _ hmem
  · -- two calls have two names
    by_cases hji : j = i
    · subst hji
      rw [hframe.others k (Ne.symm hjk)]
      by_cases hk : (w.calls k).incoming = []
      · rwa [hk]
      · exact fun heq => hfresh k (Ne.symm hjk) hk heq.symm
    · rw [hframe.others j hji] at hnamed ⊢
      by_cases hki : k = i
      · subst hki
        exact hfresh j hji hnamed
      · rw [hframe.others k hki]
        exact h.distinct j k hjk hnamed

/-! ## Frozen directories -/

omit [DecidableEq ι] in
variable (E) in
/-- **A frozen directory**: the locked files with the locked digests, each the user's own,
in the directories their names need, and nothing else. -/
structure Frozen (lock : ResourceLock) (tree : Tree) : Prop where
  noLinks : ∀ path, (path, Node.symlink) ∉ tree
  directories : ∀ path safe, (path, Node.directory safe) ∈ tree →
    ∃ name ∈ lock.names, path ∈ parents name
  files : ∀ path, path ∈ lock.names ↔ ∃ node, (path, node) ∈ tree ∧ node.isDirectory = false
  digests : ∀ name digest, (name, digest) ∈ lock.digests →
    ∃ content, tree.lookup name = some (.file content true) ∧ E.sha256 content = digest

omit [DecidableEq ι] in
/-- What the walk over a directory establishes. -/
theorem layoutPasses_iff {lock : ResourceLock} {tree : Tree} (h : layoutPasses lock tree = true) :
    (∀ path, (path, Node.symlink) ∉ tree) ∧
    (∀ path safe, (path, Node.directory safe) ∈ tree → ∃ name ∈ lock.names, path ∈ parents name) ∧
    (∀ path, path ∈ lock.names ↔ ∃ node, (path, node) ∈ tree ∧ node.isDirectory = false) := by
  unfold layoutPasses sameMembers at h
  simp only [Bool.and_eq_true, List.all_eq_true, decide_eq_true_eq] at h
  obtain ⟨hentries, hlisted, hlocked⟩ := h
  refine ⟨fun path hmem => ?_, fun path safe hmem => ?_, fun path => ⟨fun hname => ?_, ?_⟩⟩
  · have hbad := hentries _ hmem
    cases hbad
  · have hexpected := hentries _ hmem
    simp only [decide_eq_true_eq] at hexpected
    obtain ⟨name, hname, hpath⟩ := List.mem_flatMap.mp hexpected
    exact ⟨name, hname, hpath⟩
  · obtain ⟨⟨path', node⟩, hentry, rfl⟩ := List.mem_map.mp (hlocked path hname)
    obtain ⟨hmem, hfile⟩ := List.mem_filter.mp hentry
    exact ⟨node, hmem, by simpa using hfile⟩
  · rintro ⟨node, hmem, hfile⟩
    refine hlisted path (List.mem_map.mpr ⟨(path, node), List.mem_filter.mpr ⟨hmem, ?_⟩, rfl⟩)
    simp [hfile]

omit [DecidableEq ι] in
/-- **What `verify` lets through is frozen.** -/
theorem frozen_of_found {lock : ResourceLock} {found : Option Entry}
    (h : Found E lock found (verification lock)) :
    ∃ safe tree, found = some (.directory safe tree) ∧ Frozen E lock tree := by
  have hlayout := h .layout (by simp [verification])
  unfold passes at hlayout
  split at hlayout
  · next safe tree =>
    obtain ⟨hlinks, hdirectories, hfiles⟩ := layoutPasses_iff hlayout
    refine ⟨safe, tree, rfl, hlinks, hdirectories, hfiles, fun name digest hmem => ?_⟩
    have hdigest := h (.digest (name, digest)) (by
      rcases List.mem_append.mp hmem with hasset | hhelpcode
      · exact List.mem_append_left _ (List.mem_append_left _
          (List.mem_append_right _ (List.mem_map.mpr ⟨_, hasset, rfl⟩)))
      · exact List.mem_append_right _ (List.mem_map.mpr ⟨_, hhelpcode, rfl⟩))
    have hprivate := h (.entry name) (by
      refine List.mem_append_left _ (List.mem_append_left _ (List.mem_append_left _ ?_))
      exact List.mem_cons_of_mem _ (List.mem_map.mpr
        ⟨name, List.mem_map.mpr ⟨(name, digest), hmem, rfl⟩, rfl⟩))
    simp only [passes, Bool.and_eq_true] at hdigest hprivate
    split at hdigest
    · next content isPrivate hfile =>
      refine ⟨content, ?_, of_decide_eq_true hdigest⟩
      have hown := hprivate.2
      rw [hfile] at hown
      simp only [isPrivateFile, Bool.and_eq_true] at hown
      rw [hfile, hown.2]
    · cases hdigest
  · cases hlayout

/-! ## Runs -/

/-- Every run keeps the invariant. -/
theorem Inv.run {w w' : World ι} {events : List (ι × Act)} (h : Inv E w)
    (hrun : Run (Step E) w events w') : Inv E w' :=
  hrun.invariant (fun _ _ _ hinv hstep => hinv.step hstep) h

/-- What a step does to the directories under digests: they stay, and one that appears is
whole, and is the rename of the call that moved. -/
theorem Inv.content {w w' : World ι} {i : ι} {act : Act} (h : Inv E w)
    (hstep : Step E w (i, act) w') (lock : ResourceLock) :
    w'.root (E.contentId lock) = w.root (E.contentId lock) ∨
      Publishes E w w' i (E.contentId lock) ∧ ∃ safe tree,
        w'.root (E.contentId lock) = some (.directory safe tree) ∧
          Frozen E (w.calls i).lock tree := by
  have h' : Inv E w' := h.step hstep
  have hframe := advance_frame (h.sound i) (h.apart _ i) hstep
  rcases hframe.root _ (h'.apart lock i) with hsame | hpublishes
  · exact .inl hsame
  · have hsound := h.sound i
    unfold Sound at hsound
    rw [hpublishes.pc] at hsound
    obtain ⟨safe, tree, hfound, hfrozen⟩ := frozen_of_found (Checked.found hsound.2.2)
    exact .inr ⟨hpublishes, safe, tree, hpublishes.moved.trans hfound, hfrozen⟩

/-- **Frozen resources are all or nothing, and addressed by their content.** In every run of
calls on one root, whatever the sources hold, whatever fails and however the calls
interleave:
a call that returns names the digest of its lock, and the directory there is frozen;
what is under a digest stays as it is; what appears there is frozen when it appears, by the
rename of a call; a call that has not renamed has changed nothing under any digest; a call
that is over has no temporary directory left; and no call writes outside its own. -/
theorem resources_all_or_nothing {w₀ w : World ι} {events : List (ι × Act)}
    (hstart : w₀.Initial) (hrun : Run (Step E) w₀ events w) :
    (∀ i target, (w.calls i).pc = .ended (.returned target) →
      target = E.contentId (w.calls i).lock ∧ ∃ safe tree,
        w.root target = some (.directory safe tree) ∧ Frozen E (w.calls i).lock tree) ∧
    (∀ w' more, Run (Step E) w more w' → ∀ lock entry,
      w.root (E.contentId lock) = some entry → w'.root (E.contentId lock) = some entry) ∧
    (∀ w' i act, Step E w (i, act) w' →
      (∀ lock, w'.root (E.contentId lock) ≠ w.root (E.contentId lock) →
        (w'.calls i).published = true ∧ E.contentId lock = E.contentId (w.calls i).lock ∧
          w.root (E.contentId lock) = none ∧ ∃ safe tree,
            w'.root (E.contentId lock) = some (.directory safe tree) ∧
              Frozen E (w.calls i).lock tree) ∧
      ((w'.calls i).published = (w.calls i).published ∨ (w.calls i).pc = .renaming)) ∧
    (∀ i, (w.calls i).published = false → ∀ before u act v after, Run (Step E) w₀ before u →
      Step E u (i, act) v → Run (Step E) v after w →
        ∀ lock, v.root (E.contentId lock) = u.root (E.contentId lock)) ∧
    (∀ i outcome, (w.calls i).pc = .ended outcome → (w.calls i).incoming ≠ [] →
      w.root (w.calls i).incoming = none) ∧
    w.escaped = false := by
  -- six clauses, all of them read off the invariant
  have hinv : Inv E w := hstart.inv.run hrun
  refine ⟨fun i target hpc => ?_, fun w' more hmore lock entry hentry => ?_,
    fun w' i act hstep => ⟨fun lock hchanged => ?_, ?_⟩,
    fun i hunpublished before u act v after hbefore hstep hafter lock => ?_,
    fun i outcome hpc hnamed => ?_, hinv.stays⟩
  · -- what a call returns was complete when it was found
    have hsound := hinv.sound i
    unfold Sound at hsound
    rw [hpc] at hsound
    obtain ⟨rfl, hfound⟩ := hsound.2 target rfl
    exact ⟨rfl, frozen_of_found hfound⟩
  · -- by induction on the rest of the run: a rename needs a vacant name
    have hkept : Inv E w' ∧ w'.root (E.contentId lock) = some entry := by
      refine hmore.invariant (I := fun u => Inv E u ∧ u.root (E.contentId lock) = some entry)
        (fun u event v hu hstep => ⟨hu.1.step hstep, ?_⟩) ⟨hinv, hentry⟩
      rcases hu.1.content hstep lock with hsame | ⟨hpublishes, -⟩
      · exact hsame.trans hu.2
      · have hvacant := hpublishes.vacant
        rw [hu.2] at hvacant
        cases hvacant
    exact hkept.2
  · rcases hinv.content hstep lock with hsame | ⟨hpublishes, hwhole⟩
    · exact absurd hsame hchanged
    · exact ⟨hpublishes.published, hpublishes.target, hpublishes.vacant, hwhole⟩
  · exact (advance_frame (hinv.sound i) (hinv.apart _ i) hstep).published.imp id fun hp => hp.pc
  · -- once published, a call stays so
    have hu : Inv E u := hstart.inv.run hbefore
    have hlater : (v.calls i).published = true → (w.calls i).published = true := by
      intro hpublished
      have hboth : Inv E w ∧ (w.calls i).published = true := by
        refine hafter.invariant (I := fun x => Inv E x ∧ (x.calls i).published = true)
          (fun x event y hx hxy => ⟨hx.1.step hxy, ?_⟩) ⟨hu.step hstep, hpublished⟩
        obtain ⟨j, act'⟩ := event
        have hframe := advance_frame (hx.1.sound j) (hx.1.apart _ j) hxy
        by_cases hij : i = j
        · subst hij
          rcases hframe.published with hsame | hpublishes
          · exact hsame.trans hx.2
          · exact hpublishes.published
        · rw [hframe.others i hij]
          exact hx.2
      exact hboth.2
    rcases hu.content hstep lock with hsame | ⟨hpublishes, -⟩
    · exact hsame
    · rw [hlater hpublishes.published] at hunpublished
      cases hunpublished
  · -- a call that is over has moved or removed its own directory
    have hsound := hinv.sound i
    unfold Sound at hsound
    rw [hpc] at hsound
    exact hsound.1 hnamed

/-! ## A lock and a run -/

end

/-- The digest of no bytes. -/
def emptyDigest : Text :=
  "e3b0c44298fc1c149afbf4c8996fb92427ae41e4649b934ca495991b7852b855".toList

/-- A lock of empty files. -/
def sampleLock : ResourceLock where
  version := 1
  dictionary := {
    schemaVersion := 1
    repository := "metasequoiaime/MSIME-Engine".toList
    tag := legacyTag
    sourceCommit := List.replicate 40 '0'
    assets := legacyAssets.map fun name => (name, emptyDigest) }
  helpcodes := [("helpcodes/lantian.txt".toList, emptyDigest)]

/-- `canonical(spec)` of the lock. -/
def sampleText : Bytes :=
  ascii "\x7b\"dictionary\":\x7b\"dictionary\":\x7b\"assets\":\x7b\"SHA256SUMS.txt\":\"" ++
  ascii "e3b0c44298fc1c149afbf4c8996fb92427ae41e4649b934ca495991b7852b855" ++
  ascii "\",\"english.db\":\"" ++
  ascii "e3b0c44298fc1c149afbf4c8996fb92427ae41e4649b934ca495991b7852b855" ++
  ascii "\",\"msime.db\":\"" ++
  ascii "e3b0c44298fc1c149afbf4c8996fb92427ae41e4649b934ca495991b7852b855" ++
  ascii "\",\"others.db\":\"" ++
  ascii "e3b0c44298fc1c149afbf4c8996fb92427ae41e4649b934ca495991b7852b855" ++
  ascii "\"\x7d,\"repository\":\"metasequoiaime/MSIME-Engine\",\"source_commit\":\"" ++
  ascii "0000000000000000000000000000000000000000\",\"tag\":\"dict-2026.09.05\"\x7d," ++
  ascii "\"schema_version\":1\x7d,\"helpcodes\":\x7b\"helpcodes/lantian.txt\":\"" ++
  ascii "e3b0c44298fc1c149afbf4c8996fb92427ae41e4649b934ca495991b7852b855\"\x7d," ++
  ascii "\"version\":1\x7d"

/-- The digest of that text. -/
def sampleDigest : Text :=
  "473e35b57afcb4154726204f4720c29c8ca00fe4c999d3f895fd21fc199359f8".toList

/-- The hash on the bytes of the run below: files without bytes, and the text of the lock.
There is no manifest among its assets. -/
def sampleEnvironment : Environment where
  sha256 bytes := if bytes = [] then emptyDigest else sampleDigest
  sha256_digest bytes := by
    split
    · decide
    · decide
  canonical _ := sampleText
  manifestProvenance _ _ := false
  defaultModeSafe := true

/-- An empty root, and one call. -/
def sampleWorld : World Unit := ⟨fun _ => none, fun _ => { lock := sampleLock }, [], false⟩

/-- Five empty files are copied, verified by twelve checks, synced and published. -/
def sampleEvents : List (Unit × Act) :=
  let acts : List Act := [.run, .temporary ['x']] ++
    (List.replicate 5 [.run, .chunk []]).flatten ++ List.replicate 20 .run
  acts.map fun act => ((), act)

/-- The call returns the digest of its lock; the directory there is frozen, and the temporary
one is gone. -/
theorem resources_all_or_nothing_sample :
    ∃ (w : World Unit) (events : List (Unit × Act)) (safe : Bool) (tree : Tree),
      Run (Step sampleEnvironment) sampleWorld events w ∧
      (w.calls ()).pc = .ended (.returned sampleDigest) ∧
      w.root sampleDigest = some (.directory safe tree) ∧
      Frozen sampleEnvironment sampleLock tree ∧
      w.root (temporaryName ['x']) = none := by
  have hevaluated : (sampleEvents.foldlM (fun w event =>
        advance sampleEnvironment w event.1 event.2) sampleWorld).map
      (fun w => ((w.calls ()).pc, (w.calls ()).lock, (w.calls ()).incoming)) =
      some (.ended (.returned sampleDigest), sampleLock, temporaryName ['x']) := by
    decide +kernel
  obtain ⟨w, hfold, hw⟩ := Option.map_eq_some_iff.mp hevaluated
  simp only [Prod.mk.injEq] at hw
  obtain ⟨hpc, hlock, hincoming⟩ := hw
  have hrun : Run (Step sampleEnvironment) sampleWorld sampleEvents w := .of_foldlM hfold
  have hstart : sampleWorld.Initial := ⟨fun _ => rfl, fun _ => rfl, fun _ => rfl, rfl⟩
  have hall := resources_all_or_nothing hstart hrun
  obtain ⟨-, safe, tree, hfound, hfrozen⟩ := hall.1 () sampleDigest hpc
  have hgone := hall.2.2.2.2.1 () _ hpc
  rw [hincoming] at hgone
  exact ⟨w, _, safe, tree, hrun, hpc, hfound, hlock ▸ hfrozen,
    hgone (temporaryName_ne_nil _)⟩

end NativeResources

end MsimeLinux
