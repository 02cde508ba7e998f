import Anonet.Library.Machine
import Anonet.Library.WriteLog
import Anonet.Library.Bytes
import Anonet.Library.IpAddr
import Anonet.Library.Nft
import Anonet.Library.Dns
import Anonet.Library.PathFile
import Anonet.Library.ProcessTable
import Anonet.Library.Greedy
import Anonet.Leakguard.KillSwitch
import Anonet.Leakguard.TransparentRedirect
import Anonet.Leakguard.PacketFate
import Anonet.Leakguard.Stacking
import Anonet.Leakguard.Interplay
import Anonet.Leakguard.Policy
import Anonet.Socks.Session
import Anonet.Socks.Server
import Anonet.Socks.Grammar
import Anonet.Socks.RawIp
import Anonet.Socks.Replies
import Anonet.Core.Isolation
import Anonet.Core.Rotation
import Anonet.Core.Sessions
import Anonet.Socks.Isolation
import Anonet.Telemetry.HealthStatus
import Anonet.Bridges.Discovery
import Anonet.Bridges.Manager
import Anonet.Bridges.Coordinator
import Anonet.Bridges.Failover
import Anonet.Bridges.Activation
import Anonet.Bridges.Operations
import Anonet.Bridges.Startup
import Anonet.Bridges.CandidateTable
import Anonet.Leakguard.DnsShimController
import Anonet.Leakguard.DnsShim
import Anonet.Leakguard.DnsQuestion
import Anonet.Leakguard.DnsNames
import Anonet.Leakguard.DnsResponses
import Anonet.Leakguard.DnsShimTask
import Anonet.Leakguard.DnsShimSocket
import Anonet.Transparent.FullAnon
import Anonet.Transparent.Toggle
import Anonet.Transparent.Rollback
import Anonet.Tui.Dashboard
import Anonet.Tui.Exit
import Anonet.Tui.FailSafe
import Anonet.Tui.Standalone
import Anonet.Cli.StatusServer
import Anonet.Cli.InstanceLock
import Anonet.Cli.Exclusion
import Anonet.Cli.Signals
import Anonet.Bridges.Additions
import Anonet.Bridges.ErrorReports
import Anonet.Bridges.Search
import Anonet.Tui.ErrorBanner
import Anonet.Transparent.SupervisorMutex
import Anonet.Tui.Responsiveness
import Anonet.Transparent.TorChildren
import Anonet.Tui.Keys
import Anonet.Cli.ServiceLoops
import Anonet.Cli.StatusReport
import Anonet.Library.Lines
import Anonet.Transparent.Control
import Anonet.Transparent.StreamEvents
import Anonet.Transparent.TorHost
import Anonet.Transparent.Watchers
import Anonet.Library.Copy
import Anonet.Socks.Serve
import Anonet.Tui.IsolationPanel
import Anonet.Cli.KillSwitchCommand
import Anonet.Library.IpText
import Anonet.Socks.Requested
import Anonet.Tui.TextEntry
import Anonet.Bridges.CheckRecord
import Anonet.Tui.BridgePanel
import Anonet.Leakguard.DnsClients
