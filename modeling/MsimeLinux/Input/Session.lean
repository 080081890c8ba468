import MsimeLinux.Input.TextTransform

/-!
# The engine session, as the controller uses it (`metasequoia/session.h`)

`Session` is the input engine of another repository: its header is included,
its code is not here. The controller reaches it through a handful of calls, and
`SessionApi` is exactly that list over an arbitrary state type. What a call does
to the state is left open; what the controller relies on is stated beside the
interface, so that each result names the part it needs:

- `SessionApi.UnhandledUnchanged`: a call that reports "not handled" left the
  session as it was;
- `SessionApi.OnlineFrame`: accepting an online candidate changes the candidate
  list and nothing of what the user has typed or selected.
-/

namespace MsimeLinux

/-- `SchemeType`. -/
inductive SchemeType where
  | quanpin
  | shuangpin
  | wubi
  | japaneseRomaji
  deriving DecidableEq, Repr

/-- `LocalInputMode`: the temporary modes entered from the keyboard. -/
inductive LocalInputMode where
  | none
  | unicode
  | superJianpin
  | quickPhrase
  | dateTime
  | emoji
  | kaomoji
  | temporaryEnglish
  | temporaryJapanese
  deriving DecidableEq, Repr

/-- `CandidateSource`. -/
inductive CandidateSource where
  | database
  | userDatabase
  | englishDictionary
  | emoji
  | kaomoji
  | cloudSuggestion
  | aiSuggestion
  deriving DecidableEq, Repr

/-- `FrequencyAdjustmentMode`. -/
inductive FrequencyAdjustmentMode where
  | disabled
  | pin
  | halve
  | linear
  | promote
  deriving DecidableEq, Repr

/-- `Command`: the composition commands a key can stand for. -/
inductive Command where
  | backspace
  | commitRaw
  | cancel
  | commitCandidate
  deriving DecidableEq, Repr

/-- `CandidateEdge`: which character of a word `select_edge` commits. -/
inductive CandidateEdge where
  | firstHan
  | lastHan
  deriving DecidableEq, Repr

/-- `WordItem`: one candidate. -/
structure WordItem where
  word : Text
  source : CandidateSource
  deriving DecidableEq, Repr

/-- `KeyResult`: what a session call reports back. -/
structure KeyResult where
  handled : Bool := false
  commit : Option Text := none
  diagnostic : Option Text := none
  deriving DecidableEq, Repr

/-- `SessionSnapshot`: everything the controller reads of a session. -/
structure SessionSnapshot where
  preedit : Text := []
  rawSegmentation : Text := []
  normalizedSegmentation : Text := []
  candidates : List WordItem := []
  localMode : LocalInputMode := .none
  dedicatedEnglish : Bool := false
  scheme : SchemeType := .quanpin
  deriving DecidableEq, Repr

/-- `OnlineQuery`: what an online provider is asked about. -/
structure OnlineQuery where
  scheme : SchemeType := .quanpin
  queryText : Text := []
  cacheKey : Text := []
  identity : Text := []
  pinyinSegments : List Text := []
  cloudEligible : Bool := false
  aiEligible : Bool := false
  deriving DecidableEq, Repr

/-- `RuntimePaths`: the directories one native dictionary lives in. -/
structure RuntimePaths where
  resources : String
  userData : String
  cache : String
  dictionaries : String
  deriving DecidableEq, Repr

/-- `LocalModeOptions`: which temporary modes are switched on. -/
structure LocalModeOptions where
  unicode : Bool
  superJianpin : Bool
  quickPhrase : Bool
  dateTime : Bool
  emoji : Bool
  kaomoji : Bool
  temporaryEnglish : Bool
  temporaryJapanese : Bool
  deriving DecidableEq, Repr

/-- `EnglishInputOptions`. -/
structure EnglishInputOptions where
  mixedCandidates : Bool
  minimumPrefix : Nat
  deriving DecidableEq, Repr

/-- `MixedExpressiveOptions`. -/
structure MixedExpressiveOptions where
  emojiCandidates : Bool
  kaomojiCandidates : Bool
  deriving DecidableEq, Repr

/-- The autocorrection kinds the controller asks a session for
(`quanpin::kAutocorrect…`). -/
inductive AutocorrectType where
  | transposition
  | neighbor
  deriving DecidableEq, Repr

/-- `SessionOptions`: what a session is opened with. -/
structure SessionOptions where
  paths : RuntimePaths
  scheme : SchemeType
  autocorrectTypes : List AutocorrectType
  helpcode : Bool
  helpcodeSchema : String
  frequency : FrequencyAdjustmentMode × Int × Int
  localModes : LocalModeOptions
  english : EnglishInputOptions
  expressive : MixedExpressiveOptions
  deriving DecidableEq, Repr

/-- The calls the controller makes on a session of state type `σ`. `create` is
the constructor; it may throw (a dictionary that does not open), which is
`none`. Every other call returns the state it leaves behind. -/
structure SessionApi (σ : Type) where
  isSupportedHelpcodeSchema : String → Bool
  create : SessionOptions → Option σ
  snapshot : σ → SessionSnapshot
  character : σ → Char → Bool → KeyResult × σ
  command : σ → Command → KeyResult × σ
  select : σ → Nat → KeyResult × σ
  selectEdge : σ → Nat → CandidateEdge → KeyResult × σ
  finish : σ → Nat → KeyResult × σ
  setDedicatedEnglish : σ → Bool → σ
  switchScheme : σ → SchemeType → σ
  setHelpcodeEnabled : σ → Bool → σ
  setHelpcodeSchema : σ → String → σ
  onlineQuery : σ → Option OnlineQuery
  applyOnlineCandidate : σ → OnlineQuery → Text → CandidateSource → Bool × σ

namespace SessionApi

variable {σ : Type}

/-- An unhandled call leaves the session unchanged. -/
structure UnhandledUnchanged (S : SessionApi σ) : Prop where
  character : ∀ s ch shift, (S.character s ch shift).1.handled = false →
    (S.character s ch shift).2 = s
  command : ∀ s c, (S.command s c).1.handled = false → (S.command s c).2 = s
  select : ∀ s i, (S.select s i).1.handled = false → (S.select s i).2 = s
  selectEdge : ∀ s i e, (S.selectEdge s i e).1.handled = false → (S.selectEdge s i e).2 = s
  finish : ∀ s i, (S.finish s i).1.handled = false → (S.finish s i).2 = s
  applyOnlineCandidate : ∀ s q t src, (S.applyOnlineCandidate s q t src).1 = false →
    (S.applyOnlineCandidate s q t src).2 = s

end SessionApi

/-- Two snapshots show the same input: the same composition text, scheme, local
mode and dedicated-English mode. Only the candidate list may differ. -/
structure SameInput (a b : SessionSnapshot) : Prop where
  preedit : a.preedit = b.preedit
  rawSegmentation : a.rawSegmentation = b.rawSegmentation
  normalizedSegmentation : a.normalizedSegmentation = b.normalizedSegmentation
  localMode : a.localMode = b.localMode
  dedicatedEnglish : a.dedicatedEnglish = b.dedicatedEnglish
  scheme : a.scheme = b.scheme

namespace SameInput

theorem refl (a : SessionSnapshot) : SameInput a a :=
  ⟨rfl, rfl, rfl, rfl, rfl, rfl⟩

theorem trans {a b c : SessionSnapshot} (hab : SameInput a b) (hbc : SameInput b c) :
    SameInput a c where
  preedit := hab.preedit.trans hbc.preedit
  rawSegmentation := hab.rawSegmentation.trans hbc.rawSegmentation
  normalizedSegmentation := hab.normalizedSegmentation.trans hbc.normalizedSegmentation
  localMode := hab.localMode.trans hbc.localMode
  dedicatedEnglish := hab.dedicatedEnglish.trans hbc.dedicatedEnglish
  scheme := hab.scheme.trans hbc.scheme

end SameInput

/-- Accepting an online candidate only touches the candidate list. -/
def SessionApi.OnlineFrame {σ : Type} (S : SessionApi σ) : Prop :=
  ∀ s q t src, SameInput (S.snapshot s) (S.snapshot (S.applyOnlineCandidate s q t src).2)

end MsimeLinux
