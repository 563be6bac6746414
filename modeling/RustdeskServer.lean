import RustdeskServer.Atomic.Prog
import RustdeskServer.Atomic.Interleave
import RustdeskServer.Atomic.Monitor
import RustdeskServer.Atomic.Trace
import RustdeskServer.Atomic.Crash
import RustdeskServer.Atomic.Watch
import RustdeskServer.Atomic.Feed
import RustdeskServer.Net
import RustdeskServer.Message
import RustdeskServer.Peer
import RustdeskServer.Registration
import RustdeskServer.Server
import RustdeskServer.Rendezvous
import RustdeskServer.Routing
import RustdeskServer.WsRegistry
import RustdeskServer.Gate
import RustdeskServer.WsRouting
import RustdeskServer.Sequential
import RustdeskServer.TaskSections
import RustdeskServer.RegistryLeak
import RustdeskServer.SecureTcp
import RustdeskServer.SecureSession
import RustdeskServer.Store
import RustdeskServer.Registry
import RustdeskServer.Ownership
import RustdeskServer.Durability
import RustdeskServer.LookupRace
import RustdeskServer.ClaimPoints
import RustdeskServer.ClaimInv
import RustdeskServer.ClaimRace
import RustdeskServer.Text
import RustdeskServer.RelayList
import RustdeskServer.RelaySelect
import RustdeskServer.Console
import RustdeskServer.RelayHealth
import RustdeskServer.Handshake
import RustdeskServer.RelayReload
import RustdeskServer.RelayPins
import RustdeskServer.RelaySections
import RustdeskServer.RelayRace
import RustdeskServer.RelayLive
import RustdeskServer.RelayServer
import RustdeskServer.RelayPhases
import RustdeskServer.RelayIsolation
import RustdeskServer.RelayExpiry
import RustdeskServer.RelayPairing
import RustdeskServer.OnlineState
import RustdeskServer.ConfigReach
import RustdeskServer.GeoUpdate
import RustdeskServer.GeoMonth
import RustdeskServer.GeoVersion
import RustdeskServer.ReloadStamps
import RustdeskServer.RelayStream
import RustdeskServer.RelayTaker
import RustdeskServer.WsIdle
import RustdeskServer.Base64
import RustdeskServer.Atomic.Rely
import RustdeskServer.KeyFiles
import RustdeskServer.KeyInv
import RustdeskServer.KeyStable
import RustdeskServer.Plain.Split
import RustdeskServer.Plain.Decimal
import RustdeskServer.Plain.Binary64
import RustdeskServer.Plain.FirstMin
import RustdeskServer.Plain.Shape
import RustdeskServer.RouteFile
import RustdeskServer.RouteLookup
import RustdeskServer.RouteChoice
import RustdeskServer.RelayEntries
import RustdeskServer.RelayGrammar
import RustdeskServer.RelayKept
import RustdeskServer.HealthProbes
import RustdeskServer.RelayEndpoint
import RustdeskServer.UseRelay
import RustdeskServer.RelayAsker
import RustdeskServer.RttRoutes
import RustdeskServer.RttInputs
import RustdeskServer.RttText
import RustdeskServer.RouteAgree
import RustdeskServer.Plain.Recent
import RustdeskServer.PunchLog
import RustdeskServer.Plain.Counter
import RustdeskServer.IpBlocker
import RustdeskServer.RateLimits
import RustdeskServer.KnownIds
import RustdeskServer.NumericSettings
import RustdeskServer.Plain.Assoc
import RustdeskServer.Arguments
import RustdeskServer.Plain.Reader
import RustdeskServer.AddrParse
import RustdeskServer.RealIp
import RustdeskServer.RelayLists
import RustdeskServer.PunchForms
import RustdeskServer.Plain.FileTree
import RustdeskServer.Backup
import RustdeskServer.BackupLayout
import RustdeskServer.BackupNames
import RustdeskServer.Plain.LastWord
import RustdeskServer.RelayConsole
import RustdeskServer.RelaySettings
import RustdeskServer.RelayUsage
import RustdeskServer.RelayBlocking
import RustdeskServer.Plain.Turns
import RustdeskServer.RelayTurns
import RustdeskServer.Atomic.Hold
import RustdeskServer.SinkHands
import RustdeskServer.TcpAnswers
import RustdeskServer.ServerKeys
import RustdeskServer.Plain.Numbered
import RustdeskServer.RelayPlaces
import RustdeskServer.GeoLoop
import RustdeskServer.RelayFiles
