import Synergy.Lib.UniqueIndex
import Synergy.Lib.Alternation
import Synergy.Lib.Flight
import Synergy.Lib.Replacement
import Synergy.Lib.Distance
import Synergy.Lib.Hearsay
import Synergy.Lib.Run
import Synergy.Lib.Simulation
import Synergy.Lib.Lines
import Synergy.Lib.Keyed
import Synergy.Lib.Split
import Synergy.Lib.Trail
import Synergy.Lib.Approach
import Synergy.Lib.BigEndian
import Synergy.Lib.Codec
import Synergy.Lib.Json
import Synergy.Lib.IntervalMap
import Synergy.Lib.LongestMatch
import Synergy.Lib.Writes
import Synergy.Lib.Frames
import Synergy.Lib.Smallest
import Synergy.Lib.Segments
import Synergy.Router.Route
import Synergy.Router.Router
import Synergy.Router.Integrate
import Synergy.Router.Loops
import Synergy.Router.Calls
import Synergy.Router.Signals
import Synergy.Router.Sends
import Synergy.Router.Limit
import Synergy.Router.Dialling
import Synergy.Router.Merge
import Synergy.Router.Undo
import Synergy.Network.Network
import Synergy.Network.Links
import Synergy.Network.PathIntegrity
import Synergy.Network.Flooding
import Synergy.Network.Offers
import Synergy.Network.Forwarding
import Synergy.Network.ShortestRoutes
import Synergy.Network.Expectations
import Synergy.Network.Staleness
import Synergy.Network.Completeness
import Synergy.Network.Reachability
import Synergy.Service.MessageReader
import Synergy.Service.Session
import Synergy.Service.Service
import Synergy.Service.Removal
import Synergy.Service.Zombies
import Synergy.Service.Shutdown
import Synergy.Protocol.Codec
import Synergy.Protocol.MessageTypes
import Synergy.Protocol.Scanner
import Synergy.Protocol.Grammar
import Synergy.Protocol.Process
import Synergy.Protocol.Machine
import Synergy.Protocol.Safety
import Synergy.Service.SendQueue
import Synergy.Service.MessageWriter
import Synergy.Router.Notify
import Synergy.Service.Framing
import Synergy.Service.Timeouts
import Synergy.Service.Wire
import Synergy.Service.IPMonitor
import Synergy.Service.RouterErrorMonitor
import Synergy.Service.Tray
import Synergy.Network.Relaying
import Synergy.Network.Delivery
import Synergy.Network.Wires
import Synergy.Proxy.Writes
import Synergy.Proxy.ServerProxy
import Synergy.Proxy.ClientProxy
import Synergy.Proxy.ReadLoops
import Synergy.Proxy.Tunnel
import Synergy.Lib.Deliveries
import Synergy.Profile.ProfileConfig
import Synergy.Profile.Snapshot
import Synergy.Profile.Versions
import Synergy.Profile.Presence
import Synergy.Profile.Claims
import Synergy.Profile.Adoption
import Synergy.Screens.ConfigGen
import Synergy.Screens.Links
import Synergy.Screens.Printing
import Synergy.Screens.Slivers
import Synergy.Cloud.PriorityJobQueues
import Synergy.Cloud.HttpJobs
import Synergy.Cloud.SecuredTcpClient
import Synergy.Cloud.HttpSession
import Synergy.Cloud.WebsocketSession
import Synergy.Cloud.WebsocketShutdown
import Synergy.Cloud.WebsocketRetries
import Synergy.Core.Output
import Synergy.Core.CoreProcess
import Synergy.Core.Launches
import Synergy.Core.Ownership
import Synergy.Core.Finality
import Synergy.Core.LastRequest
import Synergy.Core.CoreStatusMonitor
import Synergy.Core.CoreManager
import Synergy.Core.ProcessCommand
import Synergy.Core.SessionMonitor
import Synergy.Core.Pauses
import Synergy.Core.Agreement
import Synergy.Core.ServiceWorker
import Synergy.Core.Leaving
import Synergy.Core.Peers
import Synergy.Core.Snapshots
import Synergy.Arrangement.ScreenListModel
import Synergy.Arrangement.ScreenBBArrangement
import Synergy.Arrangement.Placement
import Synergy.Arrangement.Centering
import Synergy.Arrangement.Snapping
import Synergy.Arrangement.Settling
import Synergy.Arrangement.ScreenManager
