import MsimeLinux.Account.SessionRuns

/-!
# The account session and its record

- `persistedBeforePublished`: a session is in memory only once it is on record, a
  failed save publishes nothing, and a revocation drops the session whatever the
  store does.
- `rejectedSession_discarded_iff`: which rejected requests drop the session.
-/

namespace MsimeLinux

open Lib AccountSession

variable {ω : Type} {J : JsonLib} {E : AccountEnv}

/-! ## Calls, told apart -/

namespace AccountCall

/-- A session that could not be saved. -/
def failsSave : AccountCall → Bool
  | save _ .notStored | save _ .unreadable => true
  | request .. | lookup _ | save _ .stored | erase _ => false

/-- A write the secret service failed. -/
def failsWrite : AccountCall → Bool
  | save _ .notStored | erase false => true
  | request .. | lookup _ | save _ .stored | save _ .unreadable | erase true => false

/-- The end of a session: the backend has confirmed it, or rejects its tokens in a
request the method notices that of. -/
def revokes : AccountCall → Bool
  | request r none => r.revokes
  | request r (some failure) => failure.status == 401 && r.handled
  | lookup _ | save .. | erase _ => false

end AccountCall

/-! ## What a method does before it ends -/

/-- The calls made on the way from `w` to `w'`, where nothing failed and nothing was
rejected: the generation stays, and so does the session, unless it was saved. -/
structure Quietly (J : JsonLib) (w : AccountWorld ω) (made : List AccountCall)
    (w' : AccountWorld ω) : Prop where
  calls : w'.calls = w.calls ++ made
  generation : w'.generation = w.generation
  session : w'.session = w.session ∨
    ∃ s, w'.session = some s ∧ AccountCall.save (sessionText J s) .stored ∈ made
  saves : ∀ c ∈ made, c.failsSave = false
  revocations : ∀ c ∈ made, c.revokes = false
  rejections : ∀ r f, AccountCall.request r (some f) ∈ made → f.status ≠ 401

theorem Benign.quietly {w w' : AccountWorld ω} (h : Benign J w w') :
    ∃ made, Quietly J w made w' := by
  cases h with
  | answered request failure hrejected hrevokes =>
    refine ⟨[.request request failure], rfl, rfl, .inl rfl, by simp [AccountCall.failsSave], ?_, ?_⟩
    · intro c hc
      obtain rfl := List.mem_singleton.mp hc
      cases failure with
      | none => exact hrevokes rfl
      | some f => simp [AccountCall.revokes, hrejected f rfl]
    · intro r f hf
      simp only [List.mem_singleton, AccountCall.request.injEq] at hf
      exact hrejected f hf.2.symm
  | resaved session next read =>
    exact ⟨[.save (sessionText J next) .stored], rfl, rfl,
      .inr ⟨next, rfl, List.mem_singleton_self _⟩,
      by simp [AccountCall.failsSave], by simp [AccountCall.revokes], by simp⟩
  | outside outside =>
    exact ⟨[], (List.append_nil _).symm, rfl, .inl rfl, by simp, by simp, by simp⟩

theorem Quietly.trans {w w₁ w' : AccountWorld ω} {made made' : List AccountCall}
    (h : Quietly J w made w₁) (h' : Quietly J w₁ made' w') : Quietly J w (made ++ made') w' where
  calls := by rw [h'.calls, h.calls, List.append_assoc]
  generation := h'.generation.trans h.generation
  session := by
    rcases h'.session with hsame | ⟨s, hs, hsaved⟩
    · rw [hsame]
      rcases h.session with hsame | ⟨s, hs, hsaved⟩
      · exact .inl hsame
      · exact .inr ⟨s, hs, List.mem_append_left _ hsaved⟩
    · exact .inr ⟨s, hs, List.mem_append_right _ hsaved⟩
  saves c hc := (List.mem_append.mp hc).elim (h.saves c) (h'.saves c)
  revocations c hc := (List.mem_append.mp hc).elim (h.revocations c) (h'.revocations c)
  rejections r f hf := (List.mem_append.mp hf).elim (h.rejections r f) (h'.rejections r f)

theorem Progress.quietly {w w' : AccountWorld ω} (h : Progress J w w') :
    ∃ made, Quietly J w made w' := by
  induction h with
  | refl => exact ⟨[], (List.append_nil _).symm, rfl, .inl rfl, by simp, by simp, by simp⟩
  | tail _ hstep ih =>
    obtain ⟨made, hmade⟩ := ih
    obtain ⟨made', hmade'⟩ := hstep.quietly
    exact ⟨made ++ made', hmade.trans hmade'⟩

/-- The calls a method ends with, from `w` to `w'`: a failed save changes nothing, a
revocation drops the session, and a rejected request drops it if it is noticed. -/
structure EndsWith (w : AccountWorld ω) (last : List AccountCall) (w' : AccountWorld ω) :
    Prop where
  calls : w'.calls = w.calls ++ last
  saves : ∀ c ∈ last, c.failsSave = true →
    w'.generation = w.generation ∧ w'.session = w.session
  revocations : ∀ c ∈ last, c.revokes = true → w'.session = none
  noticed : ∀ r f, AccountCall.request r (some f) ∈ last → f.status = 401 → r.handled = true →
    w'.session = none ∧ w'.generation = w.generation + 1 ∧
      ∃ erased, AccountCall.erase erased ∈ last
  unnoticed : ∀ r f, AccountCall.request r (some f) ∈ last → f.status = 401 →
    r.handled = false → w'.generation = w.generation

/-- An operation of the store at the end of a method is neither a rejection nor a
revocation. -/
theorem EndsWith.ofStore {w w' : AccountWorld ω} {call : AccountCall}
    (hcalls : w'.calls = w.calls ++ [call]) (hstore : ∀ r f, call ≠ .request r f)
    (hsaves : call.failsSave = true →
      w'.generation = w.generation ∧ w'.session = w.session) :
    EndsWith w [call] w' where
  calls := hcalls
  saves c hc := List.mem_singleton.mp hc ▸ hsaves
  revocations c hc hrevokes := by
    obtain rfl := List.mem_singleton.mp hc
    cases c with
    | request r f => exact absurd rfl (hstore r f)
    | lookup answer => cases hrevokes
    | save text outcome => cases hrevokes
    | erase erased => cases hrevokes
  noticed r f hf := absurd (List.mem_singleton.mp hf).symm (hstore r _)
  unnoticed r f hf := absurd (List.mem_singleton.mp hf).symm (hstore r _)

/-- A discarded session is gone, whatever was asked before. -/
theorem EndsWith.ofDiscard {w : AccountWorld ω} {r : AccountRequest} {f : Option Failure}
    {erased : Bool} {left : Option Bytes} (hhandled : f ≠ none → r.handled = true) :
    EndsWith w [.request r f, .erase erased] ((w.log (.request r f)).discarded erased left) where
  calls := List.append_assoc ..
  saves c hc hfails := by
    simp only [List.mem_cons, List.not_mem_nil, or_false] at hc
    rcases hc with rfl | rfl <;> cases hfails
  revocations _ _ _ := rfl
  noticed _ _ _ _ _ := ⟨rfl, rfl, erased, by simp⟩
  unnoticed r' f' hf _ hunhandled := by
    simp only [List.mem_cons, List.not_mem_nil, or_false, reduceCtorEq,
      AccountCall.request.injEq] at hf
    obtain ⟨rfl, rfl⟩ := hf
    rw [hhandled (by simp)] at hunhandled
    cases hunhandled

theorem Ending.endsWith {w w' : AccountWorld ω} (h : Ending J w w') :
    ∃ last, EndsWith w last w' := by
  cases h with
  | nothing =>
    exact ⟨[], (List.append_nil _).symm, by simp, by simp, by simp, by simp⟩
  | unsaved text outcome left =>
    exact ⟨_, .ofStore rfl (fun _ _ => by simp) fun _ => ⟨rfl, rfl⟩⟩
  | signedIn next read => exact ⟨_, .ofStore rfl (fun _ _ => by simp) fun h => (by cases h)⟩
  | rejected request failure erased left _ hhandled => exact ⟨_, .ofDiscard fun _ => hhandled⟩
  | unnoticed request failure hrejected hunhandled =>
    refine ⟨[.request request (some failure)], rfl, ?_, ?_, ?_, fun _ _ _ _ _ => rfl⟩
    · intro c hc hfails
      obtain rfl := List.mem_singleton.mp hc
      cases hfails
    · intro c hc hrevokes
      obtain rfl := List.mem_singleton.mp hc
      simp [AccountCall.revokes, hunhandled] at hrevokes
    · intro r f hf _ hhandled
      simp only [List.mem_singleton, AccountCall.request.injEq] at hf
      rw [hf.1, hunhandled] at hhandled
      cases hhandled
  | revoked request erased left => exact ⟨_, .ofDiscard fun h => absurd rfl h⟩
  | unrestored answer => exact ⟨_, .ofStore rfl (fun _ _ => by simp) fun h => (by cases h)⟩
  | restoredNone => exact ⟨_, .ofStore rfl (fun _ _ => by simp) fun h => (by cases h)⟩
  | restored text session => exact ⟨_, .ofStore rfl (fun _ _ => by simp) fun h => (by cases h)⟩

/-- A method as a whole: first the quiet part, then the calls it ends with. -/
theorem SessionOperation.made_split (operation : SessionOperation ω) (w : AccountWorld ω) :
    ∃ w₁ quiet last, Quietly J w quiet w₁ ∧ EndsWith w₁ last (operation.after J E w) ∧
      operation.made J E w = quiet ++ last := by
  obtain ⟨w₁, hprogress, hending⟩ := operation.acts (J := J) (E := E) w
  obtain ⟨quiet, hquiet⟩ := hprogress.quietly
  obtain ⟨last, hlast⟩ := hending.endsWith
  have hcalls : (operation.after J E w).calls = w.calls ++ (quiet ++ last) := by
    rw [show (operation.after J E w).calls = _ from hlast.calls, hquiet.calls, List.append_assoc]
  refine ⟨w₁, quiet, last, hquiet, hlast, ?_⟩
  rw [SessionOperation.made, hcalls, List.drop_left]

/-! ## What is in memory -/

/-- A session that was saved, or loaded. -/
def AccountWorld.Persisted (J : JsonLib) (w : AccountWorld ω) (session : SavedSession) : Prop :=
  AccountCall.save (sessionText J session) .stored ∈ w.calls ∨
    ∃ text, AccountCall.lookup (.found text) ∈ w.calls ∧ decodeSession J text = .ok session

/-- What is in memory was on record, and is the record as long as the service fails
no write. -/
structure AccountWorld.Kept (J : JsonLib) (w : AccountWorld ω) : Prop where
  persisted : ∀ session, w.session = some session → w.Persisted J session
  onRecord : w.restored = true → (∀ c ∈ w.calls, c.failsWrite = false) →
    w.record.map (decodeSession J) = w.session.map Except.ok

theorem AccountWorld.Persisted.append {w w' : AccountWorld ω} {session : SavedSession}
    {last : List AccountCall} (h : w.Persisted J session) (hcalls : w'.calls = w.calls ++ last) :
    w'.Persisted J session := by
  rcases h with hsaved | ⟨text, hlookup, hread⟩
  · exact .inl (hcalls ▸ List.mem_append_left _ hsaved)
  · exact .inr ⟨text, hcalls ▸ List.mem_append_left _ hlookup, hread⟩

/-- The calls before the last one failed no write if none did at the end. -/
theorem failsWrite_of_append {calls calls' last : List AccountCall}
    (h : ∀ c ∈ calls', c.failsWrite = false) (hcalls : calls' = calls ++ last) :
    (∀ c ∈ calls, c.failsWrite = false) ∧ ∀ c ∈ last, c.failsWrite = false := by
  rw [hcalls] at h
  exact ⟨fun c hc => h c (List.mem_append_left _ hc), fun c hc => h c (List.mem_append_right _ hc)⟩

/-- Nothing happened to the session and its record. -/
theorem AccountWorld.Kept.same {w w' : AccountWorld ω} {last : List AccountCall} (h : w.Kept J)
    (hcalls : w'.calls = w.calls ++ last) (hsession : w'.session = w.session)
    (hrecord : w'.record = w.record) (hrestored : w'.restored = w.restored) : w'.Kept J where
  persisted s hs := (h.persisted s (hsession ▸ hs)).append hcalls
  onRecord hr hfails := by
    rw [hrecord, hsession]
    exact h.onRecord (hrestored ▸ hr) (failsWrite_of_append hfails hcalls).1

/-- A session that was just saved is kept. -/
theorem AccountWorld.Kept.saved (hJ : J.Lawful) {w' : AccountWorld ω} {next read : SavedSession}
    (hread : decodeSession J (sessionText J next) = .ok read)
    (hsession : w'.session = some next) (hrecord : w'.record = some (sessionText J next))
    (hcalls : AccountCall.save (sessionText J next) .stored ∈ w'.calls) : w'.Kept J where
  persisted s hs := by
    obtain rfl : next = s := Option.some.inj (hsession ▸ hs)
    exact .inl hcalls
  onRecord _ _ := by
    obtain rfl := decode_serialize hJ hread
    simp [hsession, hrecord, hread]

/-- A session that was dropped is kept, if its record is gone or could not be
erased. -/
theorem AccountWorld.Kept.dropped {w' : AccountWorld ω} {erased : Bool}
    (hsession : w'.session = none) (hrecord : erased = true → w'.record = none)
    (hcalls : AccountCall.erase erased ∈ w'.calls) : w'.Kept J where
  persisted s hs := by
    rw [hsession] at hs
    cases hs
  onRecord _ hfails := by
    have herased : erased = true := by
      cases erased with
      | true => rfl
      | false => exact absurd (hfails _ hcalls) (by simp [AccountCall.failsWrite])
    rw [hrecord herased, hsession]
    rfl

theorem Benign.kept (hJ : J.Lawful) {w w' : AccountWorld ω} (h : Benign J w w')
    (hw : w.Kept J) : w'.Kept J := by
  cases h with
  | answered request failure => exact hw.same rfl rfl rfl rfl
  | resaved session next read _ _ hread =>
    exact .saved hJ hread rfl rfl (List.mem_append_right _ (List.mem_singleton_self _))
  | outside outside => exact hw.same (List.append_nil _).symm rfl rfl rfl

theorem Progress.kept (hJ : J.Lawful) {w w' : AccountWorld ω} (h : Progress J w w')
    (hw : w.Kept J) : w'.Kept J := by
  induction h with
  | refl => exact hw
  | tail _ hstep ih => exact hstep.kept hJ ih

theorem Ending.kept (hJ : J.Lawful) {w w' : AccountWorld ω} (h : Ending J w w')
    (hw : w.Kept J) : w'.Kept J := by
  have hlast : ∀ (calls : List AccountCall) c, c ∈ calls ++ [c] := fun calls c => by simp
  cases h with
  | nothing => exact hw
  | unsaved text outcome left hfailed hunreadable =>
    cases outcome with
    | stored => exact absurd rfl hfailed
    | unreadable => exact hw.same rfl rfl (hunreadable rfl) rfl
    | notStored =>
      refine ⟨fun s hs => (hw.persisted s hs).append rfl, fun _ hfails => ?_⟩
      exact absurd (hfails _ (hlast ..)) (by simp [AccountCall.failsWrite])
  | signedIn next read hread => exact .saved hJ hread rfl rfl (hlast ..)
  | rejected request failure erased left _ _ hleft => exact .dropped rfl hleft (hlast ..)
  | unnoticed request failure => exact hw.same rfl rfl rfl rfl
  | revoked request erased left _ hleft => exact .dropped rfl hleft (hlast ..)
  | unrestored answer => exact hw.same rfl rfl rfl rfl
  | restoredNone hrestored hrecord =>
    refine ⟨fun s hs => (by cases hs), fun _ _ => ?_⟩
    show w.record.map _ = none
    rw [hrecord]
    rfl
  | restored text session hrestored hrecord hread =>
    refine ⟨fun s hs => ?_, fun _ _ => ?_⟩
    · obtain rfl := Option.some.inj hs
      exact .inr ⟨text, hlast .., hread⟩
    · show w.record.map (decodeSession J) = some (Except.ok session)
      rw [hrecord, ← hread]
      rfl

theorem run_kept (hJ : J.Lawful) {record : Option Bytes} {outside : ω}
    {calls : List (AccountEnv × SessionOperation ω)} {w : AccountWorld ω}
    (h : Run (SessionStep J) (.initial record outside) calls w) : w.Kept J := by
  refine h.invariant (I := fun w => w.Kept J) ?_
    ⟨fun s hs => (by cases hs), fun hrestored => (by cases hrestored)⟩
  intro v call v' hv hstep
  obtain ⟨v₁, hprogress, hending⟩ := hstep.acts
  exact hending.kept hJ (hprogress.kept hJ hv)

/-! ## Saves and revocations -/

/-- What a failed save leaves: the generation there was, and the session there was
or one the same operation had saved before. -/
theorem SessionOperation.failedSave (operation : SessionOperation ω) (w : AccountWorld ω)
    (h : ∃ c ∈ operation.made J E w, c.failsSave = true) :
    (operation.after J E w).generation = w.generation ∧
      ((operation.after J E w).session = w.session ∨
        ∃ s, (operation.after J E w).session = some s ∧
          AccountCall.save (sessionText J s) .stored ∈ operation.made J E w) := by
  obtain ⟨w₁, quiet, last, hquiet, hlast, hmade⟩ := operation.made_split (J := J) (E := E) w
  obtain ⟨c, hc, hfails⟩ := h
  rw [hmade] at hc ⊢
  rcases List.mem_append.mp hc with hc | hc
  · rw [hquiet.saves c hc] at hfails
    cases hfails
  · obtain ⟨hgeneration, hsession⟩ := hlast.saves c hc hfails
    rw [hgeneration, hsession]
    refine ⟨hquiet.generation, hquiet.session.imp_right ?_⟩
    rintro ⟨s, hs, hsaved⟩
    exact ⟨s, hs, List.mem_append_left _ hsaved⟩

theorem SessionOperation.revocation (operation : SessionOperation ω) (w : AccountWorld ω)
    (h : ∃ c ∈ operation.made J E w, c.revokes = true) :
    (operation.after J E w).session = none := by
  obtain ⟨w₁, quiet, last, hquiet, hlast, hmade⟩ := operation.made_split (J := J) (E := E) w
  obtain ⟨c, hc, hrevokes⟩ := h
  rw [hmade] at hc
  rcases List.mem_append.mp hc with hc | hc
  · rw [hquiet.revocations c hc] at hrevokes
    cases hrevokes
  · exact hlast.revocations c hc hrevokes

/-- **Persist before publish.** For every run from a new session: what is in memory
was saved or loaded; after the first restore it is what the record says, as long as
the service failed no write; an operation that fails to save leaves the generation
as it was, and the session as it was or as the same operation had saved it before;
and the session is gone after a revocation, even if its record could not be erased. -/
theorem persistedBeforePublished (hJ : J.Lawful) {record : Option Bytes} {outside : ω}
    {calls : List (AccountEnv × SessionOperation ω)} {w : AccountWorld ω}
    (h : Run (SessionStep J) (.initial record outside) calls w) :
    (∀ session, w.session = some session → w.Persisted J session) ∧
    (w.restored = true → (∀ c ∈ w.calls, c.failsWrite = false) →
      w.record.map (decodeSession J) = w.session.map Except.ok) ∧
    ∀ E operation, let w' := SessionOperation.after J E operation w
      let made := SessionOperation.made J E operation w
      ((∃ c ∈ made, c.failsSave = true) → w'.generation = w.generation ∧
        (w'.session = w.session ∨ ∃ s, w'.session = some s ∧
          AccountCall.save (sessionText J s) .stored ∈ made)) ∧
      ((∃ c ∈ made, c.revokes = true) → w'.session = none) := by
  have hkept := run_kept hJ h
  exact ⟨hkept.persisted, hkept.onRecord, fun E operation =>
    ⟨operation.failedSave w, operation.revocation w⟩⟩

/-- The session of the record is what is in memory once it is restored. -/
theorem persistedBeforePublished_restored :
    restoredWorld.Persisted guardJson guardSession :=
  (persistedBeforePublished guardJson_lawful restoredWorld_run).1 _ restoredWorld_signedIn.2.2

/-- The tokens are refreshed and saved; what a link brings after that is not. -/
def linkEnv : AccountEnv where
  respond _
    | .refresh _ => .ok (guardTokens 'c' 'd')
    | .login .. => .ok (guardTokens 'e' 'f')
    | _ => .error { status := 0 }
  reachable _ := true
  storeFails calls :=
    if .save (guardText 'c' 'd' "2800") .stored ∈ calls then some (some (guardText 'c' 'd' "2800"))
    else none
  eraseFails _ := none
  clock _ := 1900
  cancelled _ := false

/-- The link fails to save its session, and memory is not what it was: it holds the
refreshed tokens, which had been saved. -/
theorem linkAfterRefresh_changed :
    let link := SessionOperation.link 1 (ascii "challenge") (ascii "123456")
    .save (guardText 'e' 'f' "2800") .notStored ∈ link.made guardJson linkEnv restoredWorld ∧
      restoredWorld.session = some guardSession ∧
      (link.after guardJson linkEnv restoredWorld).session = some refreshedSession ∧
      refreshedSession ≠ guardSession := by
  decide +kernel

/-! ## Rejections -/

/-- **Which rejections drop the session.** A request of an operation was answered
with 401: the session is gone, the generation has changed and its record was to be
erased exactly when that request is one the methods handle the rejection of, which
leaves out the challenge of `begin_link`, the rename request of `rename`, and
`logout` and `delete_account`. -/
theorem rejectedSession_discarded_iff (operation : SessionOperation ω) (w : AccountWorld ω)
    {request : AccountRequest} {failure : Failure}
    (hmade : AccountCall.request request (some failure) ∈ operation.made J E w)
    (hrejected : failure.status = 401) :
    ((operation.after J E w).session = none ∧
      (operation.after J E w).generation ≠ w.generation ∧
      ∃ erased, AccountCall.erase erased ∈ operation.made J E w) ↔ request.handled = true := by
  obtain ⟨w₁, quiet, last, hquiet, hlast, hsplit⟩ := operation.made_split (J := J) (E := E) w
  rw [hsplit] at hmade ⊢
  have hmem : AccountCall.request request (some failure) ∈ last := by
    rcases List.mem_append.mp hmade with hq | hl
    · exact absurd hrejected (hquiet.rejections _ _ hq)
    · exact hl
  constructor
  · rintro ⟨_, hgeneration, _⟩
    by_contra hunhandled
    refine hgeneration ?_
    rw [hlast.unnoticed _ _ hmem hrejected (Bool.eq_false_iff.mpr hunhandled), hquiet.generation]
  · intro hhandled
    obtain ⟨hsession, hgeneration, erased, herased⟩ := hlast.noticed _ _ hmem hrejected hhandled
    rw [hquiet.generation] at hgeneration
    exact ⟨hsession, by omega, erased, List.mem_append_right _ herased⟩

/-- Every request is rejected. -/
def rejectingEnv : AccountEnv :=
  { quietEnv 1000 with respond := fun _ _ => .error { status := 401 } }

/-- Loading the clipboard with rejected tokens signs out. -/
theorem rejectedSession_discarded_clipboard :
    ((SessionOperation.clipboard 1 []).after guardJson rejectingEnv restoredWorld).session =
      none := by
  have hmade : .request (.clipboard (guardTokens 'a' 'b').accessToken []) (some { status := 401 }) ∈
      (SessionOperation.clipboard 1 []).made guardJson rejectingEnv restoredWorld := by
    decide +kernel
  exact ((rejectedSession_discarded_iff _ _ hmade rfl).mpr rfl).1

/-- Beginning a link with rejected tokens does not: the session is still there,
under the same generation, and nothing was erased. -/
theorem rejectedLink_kept :
    let begin := SessionOperation.beginLink 1 (ascii "email") (ascii "synthetic@example.invalid")
    let w' := begin.after guardJson rejectingEnv restoredWorld
    .request (.challenge (ascii "email") (ascii "synthetic@example.invalid")
        (guardTokens 'a' 'b').accessToken) (some { status := 401 }) ∈
        begin.made guardJson rejectingEnv restoredWorld ∧
      w'.session = some guardSession ∧ w'.generation = restoredWorld.generation ∧
      .erase true ∉ begin.made guardJson rejectingEnv restoredWorld ∧
      .erase false ∉ begin.made guardJson rejectingEnv restoredWorld := by
  decide +kernel

end MsimeLinux
