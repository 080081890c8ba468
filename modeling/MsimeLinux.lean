import MsimeLinux.Lib.Ensures
import MsimeLinux.Lib.Run
import MsimeLinux.Input.TextTransform
import MsimeLinux.Input.Session
import MsimeLinux.Input.Controller
import MsimeLinux.Input.GenerationCounter
import MsimeLinux.Input.Renewal
import MsimeLinux.Input.OnlineDelivery
import MsimeLinux.Lib.Flock
import MsimeLinux.Dictionary.Lease
import MsimeLinux.Dictionary.LeaseExclusion
import MsimeLinux.Lib.Except
import MsimeLinux.Lib.Lines
import MsimeLinux.Bytes
import MsimeLinux.Snapshot.Json
import MsimeLinux.Snapshot.Envelope
import MsimeLinux.Snapshot.EnvelopeFormat
import MsimeLinux.Lib.Table
import MsimeLinux.Snapshot.Contents
import MsimeLinux.Snapshot.Records
import MsimeLinux.Lib.OrderBy
import MsimeLinux.Snapshot.Native
import MsimeLinux.Lib.KeyFile
import MsimeLinux.Lib.Ini
import MsimeLinux.Lib.Journal
import MsimeLinux.Settings.InputSettings
import MsimeLinux.Settings.SettingsStore
import MsimeLinux.Settings.RoundTrip
import MsimeLinux.Settings.Loading
import MsimeLinux.Settings.SecretTransaction
import MsimeLinux.Settings.CredentialSave
import MsimeLinux.Settings.SettingsWriters
import MsimeLinux.Account.CredentialStore
import MsimeLinux.SecretStore
import MsimeLinux.Account.Session
import MsimeLinux.Account.SessionEffects
import MsimeLinux.Account.SessionRuns
import MsimeLinux.Account.SessionPersistence
import MsimeLinux.Lib.Serial
import MsimeLinux.Clipboard.ClipboardHistory
import MsimeLinux.Clipboard.ClipboardRuns
import MsimeLinux.Engine.CredentialDelivery
import MsimeLinux.Engine.CredentialRuns
import MsimeLinux.Input.KeyMapper
import MsimeLinux.Input.Frontend
import MsimeLinux.Input.Routines
import MsimeLinux.Input.Passthrough
import MsimeLinux.Input.PairedPunctuation
import MsimeLinux.Input.SmartPunctuation
import MsimeLinux.Input.Nesting
import MsimeLinux.Lib.Debounce
import MsimeLinux.Lib.DebounceSimilar
import MsimeLinux.Online.CandidateService
import MsimeLinux.Online.TranslationService
import MsimeLinux.Settings.UiModel
import MsimeLinux.Account.CloudSettings
import MsimeLinux.Clipboard.NormalForm
import MsimeLinux.Input.ModeToggle
import MsimeLinux.Account.RecordLimits
import MsimeLinux.Account.DictionaryExport
import MsimeLinux.Dictionary.Bootstrap
import MsimeLinux.Online.AiCache
import MsimeLinux.Snapshot.Prepared
import MsimeLinux.Snapshot.Readers
import MsimeLinux.Account.DictionaryTsv
import MsimeLinux.Input.Highlight
import MsimeLinux.Settings.CredentialOrigin
import MsimeLinux.Snapshot.Upload
import MsimeLinux.Snapshot.RestoreReview
import MsimeLinux.Dictionary.Marker
import MsimeLinux.Dictionary.Publication
import MsimeLinux.Lib.Utf8
import MsimeLinux.Online.Truncation
import MsimeLinux.Lib.PrefixCode
import MsimeLinux.Account.DictionaryRevision
import MsimeLinux.Tools.Handwriting
import MsimeLinux.Online.TranslationRuns
import MsimeLinux.Account.SessionRequests
import MsimeLinux.Account.Panel
import MsimeLinux.Account.DictionaryWindow
import MsimeLinux.Input.DirectMode
import MsimeLinux.Tools.NativeResources
import MsimeLinux.Settings.UntouchedForm
import MsimeLinux.Dictionary.RestoreReviews
import MsimeLinux.Online.CurlHttpTransport
import MsimeLinux.Lib.WriteBack
import MsimeLinux.Engine.ControllerValues
import MsimeLinux.Engine.SettingsUpdates
import MsimeLinux.Account.SettingsSync
import MsimeLinux.Lib.Url
import MsimeLinux.Account.Client
import MsimeLinux.Account.ClientRequests
import MsimeLinux.Account.ClientAnswers
import MsimeLinux.Lib.Words
import MsimeLinux.Tools.Recognizer
import MsimeLinux.Tools.Recognition
import MsimeLinux.Lib.Script
import MsimeLinux.Tools.Install
