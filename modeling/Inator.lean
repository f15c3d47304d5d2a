import Inator.Lib.AssocMap
import Inator.Lib.Endian
import Inator.Lib.Framing
import Inator.Lib.Ieee
import Inator.Lib.Machine
import Inator.Lib.Panic
import Inator.Plugins.Authentication
import Inator.Plugins.Client
import Inator.Plugins.ClientApp
import Inator.Plugins.Connection
import Inator.Plugins.Message
import Inator.Plugins.Messaging
import Inator.Plugins.Options
import Inator.Plugins.Server
import Inator.Plugins.ServerApp
import Inator.Ports.Client
import Inator.Ports.Runtime
import Inator.Ports.Server
import Inator.Ports.Tcp.ReaderWriter
import Inator.Ports.Tcp.Readers
import Inator.Ports.Tcp.Stream
import Inator.Verify.Admission
import Inator.Verify.Agreement
import Inator.Verify.Authentication
import Inator.Verify.Disconnect
import Inator.Verify.Framing
import Inator.Verify.HandOver
import Inator.Verify.Holders
import Inator.Verify.Listening
import Inator.Verify.Messaging
import Inator.Verify.Readers
import Inator.Verify.Channel
import Inator.Lib.Appenders
import Inator.Ports.Tcp.Writers
import Inator.Verify.Writers
import Inator.Ports.Acceptors
import Inator.Verify.Lifecycle
import Inator.Verify.Started
import Inator.Verify.Limit
import Inator.Verify.Pending
import Inator.Verify.Listener
import Inator.Plugins.Registration
import Inator.Verify.Registry
import Inator.Lib.Loop
import Inator.Ports.Listeners
import Inator.Verify.Reading
import Inator.Verify.Ending
import Inator.Ports.Sessions
import Inator.Verify.Sessions
import Inator.Ports.SendQueue
import Inator.Verify.SendQueue
import Inator.Verify.Identity
import Inator.Verify.Provenance
import Inator.Lib.Execution
import Inator.Ports.NotAuthenticated
import Inator.Verify.NotAuthenticated
import Inator.Verify.Starvation
import Inator.Verify.Removal
import Inator.Lib.Batches
import Inator.Plugins.Frames
import Inator.Verify.Frames
import Inator.Lib.Fifo
import Inator.Lib.Simulation
import Inator.Ports.Tcp.Network
import Inator.Verify.Network
import Inator.Verify.Downlink
import Inator.Plugins.Deployment
import Inator.Verify.Delivery
import Inator.Verify.Deployment
import Inator.Lib.Reordering
import Inator.Verify.Alike
import Inator.Verify.Order
import Inator.Lib.LeadsTo
import Inator.Verify.Arrival
import Inator.Verify.Attention
import Inator.Verify.Uplink
import Inator.Verify.Draining
import Inator.Verify.Recovery
import Inator.Verify.Departure
