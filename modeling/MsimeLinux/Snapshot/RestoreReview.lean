import MsimeLinux.Account.SessionRuns
import MsimeLinux.Snapshot.Readers
import MsimeLinux.Snapshot.Upload

/-!
# Restoring a cloud dictionary after a review (`SnapshotTransfer.cpp`)

A review copies the file the user has chosen, downloads the snapshot there is in the cloud,
and remembers the generation of the session. What is restored later is the copy, for that
generation and the revision of that snapshot. Other threads use the session meanwhile,
other processes the files.

- `prepare_reviewed`: what a review knows.
- `Obtained`: a snapshot that was received for this review.
- `restore_bound`: both, for every run of the session in between.
-/

namespace MsimeLinux

open Lib

variable {ω : Type} {J : JsonLib}

/-! ## The review -/

/-- The session, the files, and what each copy of a snapshot was made of. -/
structure ReviewWorld (ω : Type) where
  account : AccountWorld ω
  fs : FileSystem
  copied : List Bytes := []

/-- What a review cannot foresee, by the step it has come to. -/
structure ReviewEnv (ω : Type) where
  /-- what other threads do with the session -/
  sessions : Nat → List (AccountEnv × SessionOperation ω)
  files : Nat → FileSystem → FileSystem
  files_leave : ∀ n fs, FileSystem.Leaves fs (files n fs)
  /-- what reading the chosen file gives, if it can be opened -/
  opened : Option (List (Option Bytes))
  readFailure : Failure
  receive : Nat → PreparedSnapshot.ReceiveEnv
  answers : Nat → Nat → Except Failure Nat
  account : AccountEnv
  /-- what the sink is given, by the calls before the download and its token -/
  response : List AccountCall → Bytes → List PreparedSnapshot.Chunk

/-- `SnapshotRestoreReview` (SnapshotTransfer.h:11). -/
structure SnapshotRestoreReview where
  generation : Nat
  source : PreparedSnapshot
  target : SnapshotEnvelope
  user : User

abbrev ReviewM (ω : Type) := Throwing Failure (ReviewWorld ω)

namespace SnapshotRestoreReview

section

variable (J : JsonLib) (sha256 : Bytes → Bytes) (G : GLib) (N : ReviewEnv ω)

/-- Others act. -/
def othersAct (n : Nat) : ReviewM ω Unit :=
  modify fun w => { w with
    account := (N.sessions n).foldl (fun account call => call.2.after J call.1 account) w.account
    fs := N.files n w.fs }

/-- `checked_user` (SnapshotTransfer.cpp:7). -/
def checkedUser (generation : Nat) : ReviewM ω User := do
  let w ← get
  match w.account.session with
  | none => throw { status := 0, cancelled := true }
  | some session =>
    if w.account.generation ≠ generation then throw { status := 0, cancelled := true }
    return session.tokens.user

/-- The loop of `open` (PreparedSnapshot.cpp:103): each read gives some bytes, none at the
end, or fails. -/
def readLoop : List (Option Bytes) → PreparedSnapshot.Producer
  | [] => .done
  | none :: _ => .thrown
  | some data :: reads =>
    if data = [] then .done
    else .chunk { bytes := data } fun accepted => if accepted then readLoop reads else .done

/-- A download into a sink: what the sink refuses ends it with a failure. -/
def deliver (returns : Bool) : List PreparedSnapshot.Chunk → PreparedSnapshot.Producer
  | [] => if returns then .done else .thrown
  | chunk :: chunks => .chunk chunk fun accepted => if accepted then deliver returns chunks
    else .thrown

/-- `PreparedSnapshot::receive`; `thrown` is what the producer throws. -/
def copy (n : Nat) (producer : PreparedSnapshot.Producer) (thrown : Failure) :
    ReviewM ω PreparedSnapshot := do
  let w ← get
  let (result, received) :=
    (PreparedSnapshot.receive (N.receive n) J sha256 (some producer)).exec { fs := w.fs }
  modify fun w => { w with
    fs := received.fs
    copied := w.copied ++ [PreparedSnapshot.allBytes received.offered] }
  match result with
  | .ok p => pure p
  | .error (.failure failure) => throw failure
  | .error .thrown => throw thrown

/-- `PreparedSnapshot::open` (PreparedSnapshot.cpp:90). -/
def openSnapshot : ReviewM ω PreparedSnapshot :=
  match N.opened with
  | none => throw badRequest
  | some reads => copy J sha256 N 0 (readLoop reads) N.readFailure

/-- `validate_snapshot_contents`. -/
def validate (n : Nat) (p : PreparedSnapshot) : ReviewM ω Unit := do
  let w ← get
  match p.validate J sha256 G w.fs (N.answers n) with
  | .ok () => pure ()
  | .error failure => throw failure

/-- What the sink was given by the session's new calls, these being the ones before. -/
def handed (log : List AccountCall) : List AccountCall → List PreparedSnapshot.Chunk
  | [] => []
  | .request (.downloadSnapshot token) _ :: _ => N.response log token
  | call :: calls => handed (log ++ [call]) calls

/-- `session.download_snapshot`: the session sees no byte of what the sink is given. -/
def download (generation : Nat) :
    ReviewM ω (Except Failure Unit × List PreparedSnapshot.Chunk) := do
  let w ← get
  let (result, account) :=
    (AccountSession.downloadSnapshot J N.account generation).exec w.account
  modify fun w => { w with account := account }
  let calls := w.account.calls
  pure (result, handed N calls (account.calls.drop calls.length))

/-- What the download hands over is copied; if the session throws, so does the copying. -/
def copyDownload : Except Failure Unit × List PreparedSnapshot.Chunk → ReviewM ω PreparedSnapshot
  | (.ok (), chunks) => copy J sha256 N 1 (deliver true chunks) { status := 0 }
  | (.error failure, chunks) => copy J sha256 N 1 (deliver false chunks) failure

/-- `download_validated_snapshot` (SnapshotTransfer.cpp:15). -/
def downloadValidatedSnapshot (generation : Nat) : ReviewM ω PreparedSnapshot := do
  let _ ← checkedUser generation
  othersAct J N 3
  let answer ← download J N generation
  let p ← copyDownload J sha256 N answer
  othersAct J N 4
  validate J sha256 G N 1 p
  othersAct J N 5
  let _ ← checkedUser generation
  return p

/-- `SnapshotRestoreReview::prepare` (SnapshotTransfer.cpp:27). -/
def prepare (generation : Nat) : ReviewM ω SnapshotRestoreReview := do
  let user ← checkedUser generation
  othersAct J N 0
  let source ← openSnapshot J sha256 N
  othersAct J N 1
  validate J sha256 G N 0 source
  othersAct J N 2
  let remote ← downloadValidatedSnapshot J sha256 G N generation
  return ⟨generation, source, remote.envelope, user⟩

end

/-- The client's answers, a restore reading its body from a prepared snapshot. -/
def uploading (J : JsonLib) (E : AccountEnv) (p : PreparedSnapshot) {fs : FileSystem}
    (runs : List AccountCall → CurlRun fs) : AccountEnv :=
  { E with
    respond := fun log request =>
      match request with
      | .restoreSnapshot size revision token =>
        restoreSnapshot J p (runs log) size revision token
      | other => E.respond log other }

/-- `SnapshotRestoreReview::restore` (SnapshotTransfer.cpp:44). -/
def restore (review : SnapshotRestoreReview) (J : JsonLib) (E : AccountEnv) {fs : FileSystem}
    (runs : List AccountCall → CurlRun fs) : SessionM ω Int64 :=
  AccountSession.restoreSnapshot J (uploading J E review.source runs) review.generation
    review.source.size (Int64.ofInt review.target.revision)

/-! ## What a review knows -/

/-- The bytes are a snapshot with this envelope, and its contents are valid. -/
def Validated (J : JsonLib) (sha256 : Bytes → Bytes) (G : GLib) (content : Bytes)
    (envelope : SnapshotEnvelope) : Prop :=
  ∃ s rows, Envelope J sha256 content s ∧ Contents J G s rows ∧ Consistent rows ∧
    envelope = s.envelope sha256

/-- A copy without a name, of these bytes. -/
structure Frozen (J : JsonLib) (sha256 : Bytes → Bytes) (p : PreparedSnapshot) (fs : FileSystem)
    (content : Bytes) : Prop where
  intact : p.Intact fs content
  unnamed : fs.Unnamed p.descriptor
  envelope : ∃ s, Envelope J sha256 content s ∧ p.envelope = s.envelope sha256

/-- What a review knows when it is prepared: who is signed in, that the copy of the file
is one of valid contents, and the same of what was downloaded. -/
structure Reviewed (J : JsonLib) (sha256 : Bytes → Bytes) (G : GLib)
    (review : SnapshotRestoreReview) (w : ReviewWorld ω) (content downloaded : Bytes) : Prop where
  generation : w.account.generation = review.generation
  user : w.account.userId = some review.user.id
  frozen : Frozen J sha256 review.source w.fs content
  source : Validated J sha256 G content review.source.envelope
  target : Validated J sha256 G downloaded review.target

/-- What the reads of a file give, up to its end. -/
def readBytes : List (Option Bytes) → Bytes
  | some data :: reads => if data = [] then [] else data ++ readBytes reads
  | _ => []

/-- Some download for this generation was answered, last of all it has asked for, and these
are the bytes of that answer. -/
def Answered (J : JsonLib) (N : ReviewEnv ω) (generation : Nat) (account account' : AccountWorld ω)
    (downloaded : Bytes) : Prop :=
  ∃ calls before after calls' log token, Run (SessionStep J) account calls before ∧
    before.generation = generation ∧
    SessionStep J before (N.account, .downloadSnapshot generation) after ∧
    before.calls <+: log ∧ after.calls = log ++ [.request (.downloadSnapshot token) none] ∧
    Run (SessionStep J) after calls' account' ∧
    downloaded = (N.response log token).flatMap PreparedSnapshot.Chunk.bytes

/-- Where a review has its texts from: the one is the chosen file as it was read, the other
the answer to its own download. Both were copied, and nothing else. -/
structure Obtained (J : JsonLib) (N : ReviewEnv ω) (generation : Nat) (w w' : ReviewWorld ω)
    (content downloaded : Bytes) : Prop where
  file : N.opened.map readBytes = some content
  answered : Answered J N generation w.account w'.account downloaded
  copied : w'.copied = w.copied ++ [content, downloaded]

section

variable {sha256 : Bytes → Bytes} {G : GLib} {N : ReviewEnv ω} {w w₁ w₂ : ReviewWorld ω}
  {content : Bytes} {p : PreparedSnapshot}

/-- Meanwhile the session was used, these texts were copied, and files without a name were
left alone. -/
structure Since (J : JsonLib) (texts : List Bytes) (w w' : ReviewWorld ω) : Prop where
  account : ∃ calls, Run (SessionStep J) w.account calls w'.account
  fs : w.fs.Leaves w'.fs
  copied : w'.copied = w.copied ++ texts

theorem Since.trans {texts texts' : List Bytes} (h : Since J texts w w₁)
    (h' : Since J texts' w₁ w₂) : Since J (texts ++ texts') w w₂ := by
  obtain ⟨⟨calls, hcalls⟩, hfs, hcopied⟩ := h
  obtain ⟨⟨calls', hcalls'⟩, hfs', hcopied'⟩ := h'
  refine ⟨⟨calls ++ calls', hcalls.append hcalls'⟩, hfs.trans hfs', ?_⟩
  rw [hcopied', hcopied, List.append_assoc]

theorem Frozen.since {texts : List Bytes} (h : Frozen J sha256 p w.fs content)
    (hsince : Since J texts w w₁) : Frozen J sha256 p w₁.fs content :=
  ⟨⟨(hsince.fs.content _ h.unnamed).trans h.intact.bytes, h.intact.length⟩,
    hsince.fs.unnamed _ h.unnamed, h.envelope⟩

theorem foldl_run (calls : List (AccountEnv × SessionOperation ω)) (account : AccountWorld ω) :
    Run (SessionStep J) account calls
      (calls.foldl (fun account call => call.2.after J call.1 account) account) := by
  induction calls generalizing account with
  | nil => exact .nil _
  | cons call calls ih => exact .cons rfl (ih _)

theorem othersAct_spec (n : Nat) :
    Outcome (othersAct J N n) w fun _ w' => Since J [] w w' :=
  Outcome.modify_iff.mpr ⟨⟨_, foldl_run _ _⟩, N.files_leave n w.fs, (List.append_nil _).symm⟩

theorem checkedUser_spec (generation : Nat) :
    Outcome (checkedUser generation) w fun result w' => w' = w ∧
      ∀ user, result = .ok user →
        w.account.generation = generation ∧ w.account.userId = some user.id := by
  unfold checkedUser
  rw [Outcome.get_bind_iff]
  cases hsession : w.account.session with
  | none => exact Outcome.throw_iff.mpr ⟨rfl, fun _ h => by cases h⟩
  | some session =>
    rw [Outcome.guard_iff]
    refine ⟨fun _ => ⟨rfl, fun _ h => by cases h⟩, fun hsame => Outcome.pure_iff.mpr ⟨rfl, ?_⟩⟩
    rintro user h
    cases h
    refine ⟨not_not.mp hsame, ?_⟩
    rw [AccountWorld.userId, hsession]
    rfl

/-- A copy that is returned holds all its producer has handed over, by a run that returned. -/
theorem copy_spec (hJ : J.StringsFit) (n : Nat) (producer : PreparedSnapshot.Producer)
    (thrown : Failure) :
    Outcome (copy J sha256 N n producer thrown) w fun result w' => ∀ p, result = .ok p →
      ∃ offered, producer.Returns offered ∧ (∀ c ∈ offered, c.2 = true) ∧
        Since J [PreparedSnapshot.allBytes offered] w w' ∧
        Frozen J sha256 p w'.fs (PreparedSnapshot.allBytes offered) := by
  -- what `receive` leaves of other files, and what it has received
  have hleaves : Outcome (PreparedSnapshot.receive (N.receive n) J sha256 (some producer))
      { fs := w.fs } fun _ w' => w.fs.Leaves w'.fs :=
    PreparedSnapshot.receive_leaves (some producer) w.fs
  have hreceived : Outcome (PreparedSnapshot.receive (N.receive n) J sha256 (some producer))
      { fs := w.fs } fun result w' => ∀ p, result = .ok p →
        ∃ s, PreparedSnapshot.Received J sha256 (some producer) p w' s := by
    refine (PreparedSnapshot.receive_outcome hJ (some producer) rfl rfl rfl).mono ?_
    intro result w' h p hp
    subst hp
    exact h
  unfold Outcome at hleaves hreceived
  unfold copy
  rw [Outcome.get_bind_iff]
  rcases hrun : (PreparedSnapshot.receive (N.receive n) J sha256 (some producer)).exec
    { fs := w.fs } with ⟨result, received⟩
  rw [hrun] at hleaves hreceived
  dsimp only
  rw [Outcome.modify_bind_iff]
  cases result with
  | ok p =>
    obtain ⟨s, h⟩ := hreceived p rfl
    obtain ⟨run, hproducer, hreturns⟩ := h.produced
    obtain rfl : producer = run := Option.some.inj hproducer
    refine Outcome.pure_iff.mpr fun q hq => ?_
    obtain rfl : p = q := Except.ok.inj hq
    exact ⟨received.offered, hreturns, h.accepted, ⟨⟨[], .nil _⟩, hleaves, rfl⟩, h.intact,
      h.unnamed, s, h.envelope, h.result⟩
  | error e =>
    -- a failure, or the producer's own exception: no copy is returned
    cases e with
    | failure failure => exact Outcome.throw_iff.mpr fun _ h => by cases h
    | thrown => exact Outcome.throw_iff.mpr fun _ h => by cases h

/-- A file that was read without a failure was read to its end. -/
theorem readLoop_returns {reads : List (Option Bytes)} {offered : List (Bytes × Bool)}
    (h : (readLoop reads).Returns offered) (haccepted : ∀ c ∈ offered, c.2 = true) :
    PreparedSnapshot.allBytes offered = readBytes reads := by
  induction reads generalizing offered with
  | nil =>
    cases h
    rfl
  | cons read reads ih =>
    cases read with
    | none => cases h
    | some data =>
      rw [readLoop] at h
      rw [readBytes]
      split at h
      · next hempty =>
        cases h
        rw [if_pos hempty]
        rfl
      · next hdata =>
        cases h with
        | @chunk _ _ accepted rest hrest =>
          obtain rfl : accepted = true := haccepted _ List.mem_cons_self
          have hread := ih hrest fun c hc => haccepted c (List.mem_cons_of_mem _ hc)
          rw [if_neg hdata, ← hread]
          rfl

/-- A download that returns has handed over all of its answer. -/
theorem deliver_returns {returns : Bool} {chunks : List PreparedSnapshot.Chunk}
    {offered : List (Bytes × Bool)} (h : (deliver returns chunks).Returns offered) :
    returns = true ∧
      PreparedSnapshot.allBytes offered = chunks.flatMap PreparedSnapshot.Chunk.bytes := by
  induction chunks generalizing offered with
  | nil =>
    cases returns with
    | false => cases h
    | true =>
      cases h
      exact ⟨rfl, rfl⟩
  | cons chunk chunks ih =>
    cases h with
    | @chunk _ _ accepted rest hrest =>
      cases accepted with
      | false => cases hrest
      | true =>
        obtain ⟨hreturns, hbytes⟩ := ih hrest
        refine ⟨hreturns, ?_⟩
        rw [List.flatMap_cons, ← hbytes]
        rfl

theorem openSnapshot_spec (hJ : J.StringsFit) :
    Outcome (openSnapshot J sha256 N) w fun result w' => ∀ p, result = .ok p →
      ∃ content, N.opened.map readBytes = some content ∧ Since J [content] w w' ∧
        Frozen J sha256 p w'.fs content := by
  unfold openSnapshot
  split
  · exact Outcome.throw_iff.mpr fun _ h => by cases h
  · next reads hopened =>
    refine (copy_spec hJ 0 _ _).mono fun result w' h p hp => ?_
    obtain ⟨offered, hreturns, haccepted, hsince, hfrozen⟩ := h p hp
    refine ⟨_, ?_, hsince, hfrozen⟩
    rw [hopened, readLoop_returns hreturns haccepted]
    rfl

/-- The envelope of a text is determined by it. -/
theorem envelope_unique (hJ : J.StringsFit) {s s' : SnapshotLines}
    (h : Envelope J sha256 content s) (h' : Envelope J sha256 content s') :
    s.envelope sha256 = s'.envelope sha256 := by
  have haccepts : ∀ {s : SnapshotLines}, Envelope J sha256 content s →
      inspectSnapshotEnvelope J sha256 (fun lines line _ => .ok (lines ++ [line])) []
        (.ofSymbols content) = .ok (s.envelope sha256, s.data) := by
    intro s hs
    refine (inspectSnapshotEnvelope_eq_ok_iff hJ).mpr
      ⟨s, ?_, PreparedSnapshot.collect_lines s.data [], rfl⟩
    rw [Source.symbols_ofSymbols]
    exact hs
  exact (Prod.mk.inj (Except.ok.inj ((haccepts h).symm.trans (haccepts h')))).1

theorem validate_spec (hJ : J.StringsFit) (n : Nat) (hp : Frozen J sha256 p w.fs content) :
    Outcome (validate J sha256 G N n p) w fun result w' => w' = w ∧
      (result = .ok () → Validated J sha256 G content p.envelope) := by
  unfold validate
  rw [Outcome.get_bind_iff]
  cases hvalid : p.validate J sha256 G w.fs (N.answers n) with
  | error failure => exact Outcome.throw_iff.mpr ⟨rfl, fun h => by cases h⟩
  | ok u =>
    refine Outcome.pure_iff.mpr ⟨rfl, fun _ => ?_⟩
    obtain ⟨input, hinput, hcontents⟩ := call_eq_ok_iff.mp hvalid
    obtain ⟨s, rows, henvelope, hrows, hconsistent⟩ :=
      (validateSnapshotContents_eq_ok_iff hJ).mp hcontents
    rw [hp.intact.source_symbols (Nat.zero_le _) hinput, List.drop_zero] at henvelope
    obtain ⟨s', henvelope', hresult⟩ := hp.envelope
    exact ⟨s, rows, henvelope, hrows, hconsistent,
      hresult.trans (envelope_unique hJ henvelope' henvelope)⟩

/-- The sink is given what the download is answered with, wherever it stands among the calls. -/
theorem handed_append {new : List AccountCall} {token : Bytes} {failure : Option Failure}
    (log rest : List AccountCall)
    (hnew : ∀ token failure, .request (.downloadSnapshot token) failure ∉ new) :
    handed N log (new ++ .request (.downloadSnapshot token) failure :: rest) =
      N.response (log ++ new) token := by
  induction new generalizing log with
  | nil =>
    rw [List.nil_append, handed, List.append_nil]
  | cons call new ih =>
    rw [List.cons_append, handed]
    · rw [ih _ fun token failure hmem => hnew token failure (List.mem_cons_of_mem _ hmem),
        List.append_assoc, List.singleton_append]
    · rintro other failure rfl
      exact hnew other failure List.mem_cons_self

theorem download_spec (generation : Nat) :
    Outcome (download J N generation) w fun result w' => ∀ answer, result = .ok answer →
      Since J [] w w' ∧ (answer.1 = .ok () →
        Answered J N generation w.account w'.account
          (answer.2.flatMap PreparedSnapshot.Chunk.bytes)) := by
  unfold download
  rw [Outcome.get_bind_iff]
  rcases hrun : (AccountSession.downloadSnapshot J N.account generation).exec w.account with
    ⟨result, account⟩
  have hstep : SessionStep J w.account (N.account, .downloadSnapshot generation) account := by
    show account = ((AccountSession.downloadSnapshot J N.account generation).exec w.account).2
    rw [hrun]
  refine Outcome.modify_bind_iff.mpr (Outcome.pure_iff.mpr fun answer hanswer => ?_)
  cases hanswer
  refine ⟨⟨⟨_, .single hstep⟩, .refl _, (List.append_nil _).symm⟩, fun hok => ?_⟩
  obtain rfl : result = .ok () := hok
  have hanswered := AccountSession.downloadSnapshot_answer (J := J) (E := N.account) generation
    w.account
  unfold Outcome at hanswered
  rw [hrun] at hanswered
  obtain ⟨new, token, hcalls, hnew⟩ := hanswered rfl
  have hgeneration : w.account.generation = generation := by
    by_contra hother
    obtain ⟨-, e, he⟩ : Refuses (AccountSession.downloadSnapshot J N.account generation)
        w.account := withToken_refuses fun hsame => hother hsame.2.symm
    rw [hrun] at he
    cases he
  refine ⟨[], w.account, account, [], _, token, .nil _, hgeneration, hstep,
    List.prefix_append _ new, hcalls, .nil _, ?_⟩
  dsimp only
  rw [hcalls, List.append_assoc, List.drop_left, handed_append _ _ hnew]

/-- What happens before and after makes no difference to an answer. -/
theorem Answered.between {generation : Nat} {texts texts' : List Bytes} {w' : ReviewWorld ω}
    {downloaded : Bytes} (h : Answered J N generation w₁.account w₂.account downloaded)
    (hbefore : Since J texts w w₁) (hafter : Since J texts' w₂ w') :
    Answered J N generation w.account w'.account downloaded := by
  obtain ⟨calls, before, after, calls', log, token, hrun, hgeneration, hstep, hlog, hcalls, hrun',
    hbytes⟩ := h
  obtain ⟨earlier, hearlier⟩ := hbefore.account
  obtain ⟨later, hlater⟩ := hafter.account
  exact ⟨earlier ++ calls, before, after, calls' ++ later, log, token, hearlier.append hrun,
    hgeneration, hstep, hlog, hcalls, hrun'.append hlater, hbytes⟩

/-- Both ends of a download: somebody is signed in, for this generation. What is copied in
between is the answer to it. -/
theorem downloadValidatedSnapshot_spec (hJ : J.StringsFit) (generation : Nat) :
    Outcome (downloadValidatedSnapshot J sha256 G N generation) w fun result w' =>
      ∀ p, result = .ok p → w'.account.generation = generation ∧
        (∃ id, w'.account.userId = some id) ∧
        ∃ downloaded, Since J [downloaded] w w' ∧
          Answered J N generation w.account w'.account downloaded ∧
          Validated J sha256 G downloaded p.envelope := by
  unfold downloadValidatedSnapshot
  refine Outcome.call (checkedUser_spec generation) ?_ fun _ _ _ _ h => by cases h
  rintro _ _ ⟨rfl, -⟩
  refine Outcome.call (othersAct_spec 3) (fun _ w₁ h₁ => ?_) fun _ _ _ _ h => by cases h
  refine Outcome.call (download_spec generation) (fun answer w₂ h₂ => ?_)
    fun _ _ _ _ h => by cases h
  obtain ⟨h₂, hanswered⟩ := h₂ answer rfl
  have hcopied : Outcome (copyDownload J sha256 N answer) w₂ fun result w' =>
      -- the copy holds the bytes of the answer, and is returned only if that was a success
      ∀ p, result = .ok p → answer.1 = .ok () ∧
        Since J [answer.2.flatMap PreparedSnapshot.Chunk.bytes] w₂ w' ∧
        Frozen J sha256 p w'.fs (answer.2.flatMap PreparedSnapshot.Chunk.bytes) := by
    rcases answer with ⟨failure | ⟨⟩, chunks⟩
    · refine (copy_spec hJ 1 _ _).mono fun result w' h p hp => ?_
      obtain ⟨offered, hreturns, -⟩ := h p hp
      cases (deliver_returns hreturns).1
    · refine (copy_spec hJ 1 _ _).mono fun result w' h p hp => ⟨rfl, ?_⟩
      obtain ⟨offered, hreturns, -, hsince, hfrozen⟩ := h p hp
      rw [(deliver_returns hreturns).2] at hsince hfrozen
      exact ⟨hsince, hfrozen⟩
  refine Outcome.call hcopied (fun p w₃ h₃ => ?_) fun _ _ _ _ h => by cases h
  obtain ⟨hok, h₃, hfrozen⟩ := h₃ p rfl
  refine Outcome.call (othersAct_spec 4) (fun _ w₄ h₄ => ?_) fun _ _ _ _ h => by cases h
  -- what others do in between leaves the copy as it is
  refine Outcome.call (validate_spec hJ 1 (hfrozen.since h₄)) ?_ fun _ _ _ _ h => by cases h
  rintro ⟨⟩ _ ⟨rfl, hvalid⟩
  refine Outcome.call (othersAct_spec 5) (fun _ w₅ h₅ => ?_) fun _ _ _ _ h => by cases h
  refine Outcome.call (checkedUser_spec generation) ?_ fun _ _ _ _ h => by cases h
  rintro user _ ⟨rfl, hcurrent⟩
  refine Outcome.pure_iff.mpr fun q hq => ?_
  obtain rfl : p = q := Except.ok.inj hq
  obtain ⟨hgeneration, huser⟩ := hcurrent user rfl
  have hafter := (h₃.trans h₄).trans h₅
  exact ⟨hgeneration, ⟨user.id, huser⟩, _, (h₁.trans h₂).trans hafter,
    (hanswered hok).between h₁ hafter, hvalid rfl⟩

/-- **What a prepared review knows.** The user of the first look is the one of the last,
since a generation has one user. -/
theorem prepare_reviewed (hJ : J.StringsFit) (generation : Nat) :
    Outcome (prepare J sha256 G N generation) w fun result w' =>
      ∀ review, result = .ok review → review.generation = generation ∧
        ∃ content downloaded, Reviewed J sha256 G review w' content downloaded ∧
          Obtained J N generation w w' content downloaded := by
  unfold prepare
  refine Outcome.call (checkedUser_spec generation) ?_ fun _ _ _ _ h => by cases h
  rintro user _ ⟨rfl, hcurrent⟩
  obtain ⟨hgeneration, huser⟩ := hcurrent user rfl
  refine Outcome.call (othersAct_spec 0) (fun _ w₁ h₁ => ?_) fun _ _ _ _ h => by cases h
  refine Outcome.call (openSnapshot_spec hJ) (fun source w₂ h₂ => ?_) fun _ _ _ _ h => by cases h
  obtain ⟨content, hfile, h₂, hfrozen⟩ := h₂ source rfl
  refine Outcome.call (othersAct_spec 1) (fun _ w₃ h₃ => ?_) fun _ _ _ _ h => by cases h
  have hfrozen := hfrozen.since h₃
  refine Outcome.call (validate_spec hJ 0 hfrozen) ?_ fun _ _ _ _ h => by cases h
  rintro ⟨⟩ _ ⟨rfl, hvalid⟩
  refine Outcome.call (othersAct_spec 2) (fun _ w₄ h₄ => ?_) fun _ _ _ _ h => by cases h
  refine Outcome.call (downloadValidatedSnapshot_spec hJ generation) ?_ fun _ _ _ _ h => by cases h
  intro remote w₅ h₅
  obtain ⟨hgeneration', ⟨id, huser'⟩, downloaded, h₅, hanswered, htarget⟩ := h₅ remote rfl
  have hbefore := ((h₁.trans h₂).trans h₃).trans h₄
  have hsince := hbefore.trans h₅
  obtain ⟨calls, hcalls⟩ := hsince.account
  have hsame := (generationBindsUser hcalls).1 (hgeneration.trans hgeneration'.symm)
  have hnow : Since J [] w₅ w₅ := ⟨⟨[], .nil _⟩, .refl _, (List.append_nil _).symm⟩
  refine Outcome.pure_iff.mpr fun review hreview => ?_
  cases hreview
  refine ⟨rfl, content, downloaded, ⟨hgeneration', ?_, (hfrozen.since h₄).since h₅, hvalid rfl,
    htarget⟩, hfile, hanswered.between hbefore hnow, hsince.copied⟩
  rw [← hsame]
  exact huser

/-! ## The restore -/

/-- **A restore is bound to its review.** Whatever the session has gone through since the
review was prepared, and however the copy is read: a restore that does anything does it
for the reviewed generation and the reviewed user; it asks for nothing but new tokens and
a restore of the copy over the revision of the snapshot that the review's own download was
answered with; and if it returns, the server was sent the content of the copy, all of it, the
one whose envelope was shown and whose contents were validated, and is at a later revision. -/
theorem restore_bound (hJ : J.StringsFit) {generation : Nat} {w w' : ReviewWorld ω}
    {review : SnapshotRestoreReview}
    (hprepare : (prepare J sha256 G N generation).exec w = (.ok review, w'))
    {calls : List (AccountEnv × SessionOperation ω)} {account : AccountWorld ω}
    (hrun : Run (SessionStep J) w'.account calls account) (E : AccountEnv)
    (runs : List AccountCall → CurlRun w'.fs) :
    let restored := (review.restore J E runs).exec account
    let revision := Int64.ofInt review.target.revision
    review.generation = generation ∧
    ∃ content downloaded, Reviewed J sha256 G review w' content downloaded ∧
      Obtained J N generation w w' content downloaded ∧
      ((∃ e, restored = (.error e, account)) ∨
        account.generation = review.generation ∧ account.userId = some review.user.id) ∧
      Asks (fun request => (∃ token, request = .refresh token) ∨
        ∃ token, request = .restoreSnapshot review.source.size revision token)
        account restored.2 ∧
      ∀ updated, restored.1 = .ok updated → ∃ log token,
        restored.2.calls =
          log ++ [.request (.restoreSnapshot review.source.size revision token) none] ∧
        ((runs log).upload review.source review.source.size).sent = content ∧
        content.length = review.source.size ∧ revision < updated := by
  intro restored revision
  have hreviewed : Outcome (prepare J sha256 G N generation) w fun result w' =>
      ∀ review, result = .ok review → review.generation = generation ∧
        ∃ content downloaded, Reviewed J sha256 G review w' content downloaded ∧
          Obtained J N generation w w' content downloaded :=
    prepare_reviewed hJ generation
  unfold Outcome at hreviewed
  rw [hprepare] at hreviewed
  obtain ⟨hgeneration, content, downloaded, h, hobtained⟩ := hreviewed review rfl
  refine ⟨hgeneration, content, downloaded, h, hobtained, ?_, ?_, fun updated hupdated => ?_⟩
  · -- another session refuses at once, and the same one has the same user
    by_cases hstale : account.Stale review.generation
    · obtain ⟨hsame, e, he⟩ : Refuses (review.restore J E runs) account :=
        withToken_refuses hstale
      exact .inl ⟨e, Prod.ext he hsame⟩
    · have hcurrent := (not_not.mp hstale).2
      refine .inr ⟨hcurrent.symm, ?_⟩
      rw [← h.user]
      exact ((generationBindsUser hrun).1 (h.generation.trans hcurrent)).symm
  · -- a refresh and the restore are all it asks
    exact AccountSession.restoreSnapshot_asks (E := uploading J E review.source runs)
      review.generation review.source.size revision account
  · obtain ⟨log, token, hlog, hanswer⟩ := AccountSession.restoreSnapshot_answer (J := J)
      (E := uploading J E review.source runs) review.generation review.source.size revision
      account updated hupdated
    -- the copy is frozen, so what was sent is what was validated
    obtain ⟨hsent, -, hlater⟩ := restoreSnapshot_ok h.frozen.intact h.frozen.unnamed rfl hanswer
    exact ⟨log, token, hlog, hsent, h.frozen.intact.length.symm, hlater⟩

end

/-! ## The empty snapshot, restored -/

/-- The text of the empty snapshot, and the answer to its restore. -/
def emptyText : Bytes := emptyHeader ++ newline :: emptyFooter

def emptyAnswer : Bytes := ascii "\x7b\"reset\":true,\"revision\":8\x7d"

/-- JSON, on these texts. -/
def emptyReviewJson : JsonLib :=
  .ofTables [(emptyHeader, .object emptyHeaderMembers), (emptyFooter, .object emptyFooterMembers),
    (emptyAnswer, .object [(ascii "reset", .bool true), (ascii "revision", .int 8)])] []

/-- The backend lets the snapshot be downloaded. -/
def downloadingEnv : AccountEnv :=
  { quietEnv 1000 with
    respond := fun _ request =>
      match request with
      | .downloadSnapshot _ => .ok ()
      | _ => .error { status := 0 } }

/-- The file and the cloud both have the empty snapshot, and nobody interferes. -/
def emptyReviewEnv : ReviewEnv Unit where
  sessions _ := []
  files _ fs := fs
  files_leave _ fs := .refl fs
  opened := some [some emptyText]
  readFailure := { status := 0 }
  receive _ := PreparedSnapshot.calmEnv
  answers _ _ := .ok 99
  account := downloadingEnv
  response _ _ := [{ bytes := emptyText }]

/-- Somebody is signed in. -/
def emptyReviewWorld : ReviewWorld Unit where
  account :=
    { restored := true, generation := 1, session := some guardSession, record := none,
      outside := () }
  fs := ⟨fun _ => none, fun _ => [], 0, by simp⟩

/-- The review of it. -/
def emptyReview : Except Failure SnapshotRestoreReview × ReviewWorld Unit :=
  (prepare emptyReviewJson (fun _ => ascii "00") everyMoment emptyReviewEnv 1).exec
    emptyReviewWorld

/-- Reads of thirty bytes, and the answer. -/
def emptyRun (fs : FileSystem) : CurlRun fs where
  calls := List.replicate 8 ⟨1, 100, fs, .ok 29⟩
  leaves := by
    intro call hcall
    rw [List.eq_of_mem_replicate hcall]
    exact .refl fs
  response := [emptyAnswer]
  result := .ok 200

/-- The review is prepared, from what the file has and what the download was answered with,
and the restore returns. -/
theorem restore_bound_empty : ∃ review w' updated,
    emptyReview = (.ok review, w') ∧
      Reviewed emptyReviewJson (fun _ => ascii "00") everyMoment review w' emptyText
        emptyText ∧
      Answered emptyReviewJson emptyReviewEnv 1 emptyReviewWorld.account w'.account emptyText ∧
      ((review.restore emptyReviewJson downloadingEnv fun _ => emptyRun w'.fs).exec
        w'.account).1 = .ok updated ∧
      ((emptyRun w'.fs).upload review.source review.source.size).sent = emptyText ∧
      Int64.ofInt review.target.revision < updated := by
  have hJ : emptyReviewJson.Lawful :=
    JsonLib.GoodTables.lawful ⟨by decide +kernel, by decide +kernel, by simp, by simp⟩
  have hreturns : (match emptyReview with
      | (.ok review, w') => ((review.restore emptyReviewJson downloadingEnv
          fun _ => emptyRun w'.fs).exec w'.account).1.toOption.isSome
      | (.error _, _) => false) = true := by decide +kernel
  rcases hprepare : emptyReview with ⟨failure | review, w'⟩
  · rw [hprepare] at hreturns
    cases hreturns
  · rw [hprepare] at hreturns
    obtain ⟨updated, hupdated⟩ := Option.isSome_iff_exists.mp hreturns
    have hbound := restore_bound hJ.stringsFit hprepare (.nil _) downloadingEnv
      fun _ => emptyRun w'.fs
    obtain ⟨-, content, downloaded, hreviewed, hobtained, -, -, hsent⟩ := hbound
    obtain rfl : emptyText = content := by
      have hread : readBytes [some emptyText] = emptyText := by decide +kernel
      exact hread.symm.trans (Option.some.inj hobtained.file)
    obtain rfl : emptyText = downloaded := by
      obtain ⟨_, _, _, _, _, _, -, -, -, -, -, -, hbytes⟩ := hobtained.answered
      rw [hbytes]
      rfl
    have hok : ((review.restore emptyReviewJson downloadingEnv fun _ => emptyRun w'.fs).exec
        w'.account).1 = .ok updated := by
      revert hupdated
      cases ((review.restore emptyReviewJson downloadingEnv fun _ => emptyRun w'.fs).exec
        w'.account).1 with
      | ok n => exact fun h => congrArg Except.ok (Option.some.inj h)
      | error e => exact fun h => by cases h
    obtain ⟨log, token, -, hcontent, -, hlater⟩ := hsent updated hok
    exact ⟨review, w', updated, rfl, hreviewed, hobtained.answered, hok, hcontent, hlater⟩

end SnapshotRestoreReview

end MsimeLinux
