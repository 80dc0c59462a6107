import Cs118.Lib.Bytes
import Cs118.Confundo.Wire
import Cs118.Lib.Outstanding
import Cs118.Lib.Run
import Cs118.Lib.Machine
import Cs118.Confundo.Client
import Cs118.Confundo.Server
import Cs118.Confundo.Session
import Cs118.Confundo.Reception
import Cs118.Confundo.Arrivals
import Cs118.Confundo.Proofs.Slots
import Cs118.Confundo.Proofs.Isolation
import Cs118.Confundo.Proofs.Streams
import Cs118.Confundo.Proofs.Syns
import Cs118.Confundo.Proofs.Strays
import Cs118.Confundo.Proofs.ExpectedAck
import Cs118.Confundo.Proofs.OutOfOrder
import Cs118.Confundo.Proofs.Segments
import Cs118.Confundo.Proofs.Sender
import Cs118.Confundo.Proofs.Table
import Cs118.Confundo.Proofs.Receiver
import Cs118.Confundo.Proofs.Safety
import Cs118.Confundo.Proofs.Handshake
import Cs118.Confundo.Proofs.Position
import Cs118.Confundo.Proofs.Delivery
import Cs118.Confundo.Proofs.Rounds
import Cs118.Confundo.Proofs.Wraparound
import Cs118.Confundo.Proofs.Progress
import Cs118.Confundo.Proofs.DeadEnd
import Cs118.Confundo.Proofs.Window
import Cs118.Confundo.Proofs.CumulativeAck
import Cs118.Confundo.Proofs.WindowSpan
import Cs118.Lib.OnesComplement
import Cs118.Lib.Script
import Cs118.Lib.LastMax
import Cs118.Router.Cksum
import Cs118.Router.Frame
import Cs118.Lib.Text
import Cs118.Lib.Decimal
import Cs118.Router.TableFile
import Cs118.Router.Printing
import Cs118.Router.ArpCache
import Cs118.Router.SimpleRouter
import Cs118.Router.System
import Cs118.Router.Pace
import Cs118.Router.Proofs.Evolution
import Cs118.Router.Proofs.Discipline
import Cs118.Lib.Keyed
import Cs118.Router.Proofs.Methods
import Cs118.Router.Proofs.CacheInvariant
import Cs118.Router.Proofs.Conservation
import Cs118.Router.Proofs.Deadlines
import Cs118.Router.Proofs.Broadcasts
import Cs118.Router.Proofs.Handling
import Cs118.Router.Proofs.NullSafety
import Cs118.Router.Proofs.Exchange
import Cs118.Router.Proofs.Sources
import Cs118.Router.Proofs.Echo
import Cs118.Router.Proofs.Forwarding
import Cs118.Router.Proofs.Unroutable
import Cs118.Router.Proofs.IcmpErrors
import Cs118.Router.Proofs.TotalLength
import Cs118.Router.Proofs.Bounds
import Cs118.Router.Proofs.PrefixMatch
import Cs118.Router.Proofs.RouteOrder
import Cs118.Router.Proofs.Learning
import Cs118.Router.Proofs.TimeToLive
import Cs118.Router.Proofs.Hops
import Cs118.Router.Proofs.Checksums
import Cs118.Router.Proofs.ChecksumLaw
import Cs118.Router.Proofs.Ticks
import Cs118.Router.Proofs.NextHop
import Cs118.Router.Proofs.Loading
import Cs118.Router.Proofs.RoundTrip
import Cs118.Router.Startup
import Cs118.Router.Proofs.Startup
import Cs118.Confundo.Proofs.Interference
import Cs118.Tcp.Endpoints
import Cs118.Tcp.Transfer
import Cs118.Tcp.Proofs.PartialSends
import Cs118.Tcp.Proofs.IdleTimeout
import Cs118.Tcp.Service
import Cs118.Tcp.Proofs.Threads
import Cs118.Tcp.Proofs.Connections
import Cs118.Confundo.Proofs.WindowArithmetic
import Cs118.Confundo.Network
import Cs118.Confundo.Proofs.Neighbours
import Cs118.Confundo.Proofs.InOrder
import Cs118.Confundo.Proofs.Completion
import Cs118.Lib.Simulation
import Cs118.Confundo.Clock
import Cs118.Confundo.Proofs.Clocked
import Cs118.Confundo.Proofs.Timers
