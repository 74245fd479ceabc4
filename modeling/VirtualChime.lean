import VirtualChime.Library.Scanner
import VirtualChime.Library.LastWins
import VirtualChime.Bytes
import VirtualChime.KvConfig
import VirtualChime.ChimeConfig
import VirtualChime.AtomicWrite
import VirtualChime.ConfigStore
import VirtualChime.SavedConfig
import VirtualChime.SaveRoundTrip
import VirtualChime.SaveAtomicity
import VirtualChime.SaveInjection
import VirtualChime.ConsoleAgreement
import VirtualChime.LastValidValue
import VirtualChime.WpaNetwork
import VirtualChime.WifiRoundTrip
import VirtualChime.WifiMeaning
import VirtualChime.SaveTwice
import VirtualChime.MqttAccount
import VirtualChime.Library.Binary64
import VirtualChime.Library.KeyMap
import VirtualChime.Library.KeepBest
import VirtualChime.Library.JsonText
import VirtualChime.WebdJson
import VirtualChime.JsonNumber
import VirtualChime.JsonParser
import VirtualChime.JsonAcceptance
import VirtualChime.CoreConfigApi
import VirtualChime.ApiResponses
import VirtualChime.RingSounds
import VirtualChime.Library.PosixPath
import VirtualChime.Library.Calls
import VirtualChime.ServedPaths
import VirtualChime.Library.Streams
import VirtualChime.HttpReading
import VirtualChime.Library.CharRuns
import VirtualChime.UploadNames
import VirtualChime.Library.Riff
import VirtualChime.PcmWav
import VirtualChime.Library.Checked
import VirtualChime.WavScaling
import VirtualChime.WavSafety
import VirtualChime.Library.PosixShell
import VirtualChime.PlayCommand
import VirtualChime.WifiScan
import VirtualChime.StrongestNetworks
import VirtualChime.Library.Traced
import VirtualChime.IntConversions
import VirtualChime.ScannerCommand
import VirtualChime.Library.DnsMessage
import VirtualChime.Mdns
import VirtualChime.MdnsAnswers
import VirtualChime.MdnsNames
import VirtualChime.MdnsSafety
import VirtualChime.Library.Runs
import VirtualChime.ApplyManager
import VirtualChime.ApplyFreshness
import VirtualChime.ApplyCoherence
import VirtualChime.Library.Interruptible
import VirtualChime.OtaScripts
import VirtualChime.OtaRules
import VirtualChime.OtaBootSlot
import VirtualChime.OtaRollbackSlot
import VirtualChime.OtaAttempts
import VirtualChime.OtaCmdline
import VirtualChime.Library.SemVer
import VirtualChime.VersionGate
import VirtualChime.PersistentLayout
import VirtualChime.Library.TopicFilter
import VirtualChime.ChimeService
import VirtualChime.Library.RecentList
import VirtualChime.ObservedTopics
import VirtualChime.RingDelivery
import VirtualChime.StartupNotification
import VirtualChime.Library.JsonUnicode
import VirtualChime.JsonStrings
import VirtualChime.UnchangedForm
import VirtualChime.Library.TwoRuns
import VirtualChime.SecretLines
import VirtualChime.SecretWrites
import VirtualChime.SecretsHidden
import VirtualChime.Library.PartialWrites
import VirtualChime.Library.HttpMessage
import VirtualChime.ReleaseInfo
import VirtualChime.WebServer
import VirtualChime.Connection
import VirtualChime.ApplyWaiting
import VirtualChime.Library.Periodic
import VirtualChime.DaemonRun
import VirtualChime.DaemonSession
import VirtualChime.DaemonAccount
import VirtualChime.Library.Holders
import VirtualChime.PlaybackThreads
import VirtualChime.Library.DnsRecord
import VirtualChime.MdnsResponder
import VirtualChime.WifiScanning
import VirtualChime.Library.Shelves
import VirtualChime.Supervisor
import VirtualChime.SupervisedDaemon
import VirtualChime.LogRotation
import VirtualChime.OtherReaders
import VirtualChime.Library.Handles
import VirtualChime.ServerLifecycle
