import NetMux.Lib.Word
import NetMux.Lib.BigEndian
import NetMux.Lib.Run
import NetMux.Lib.Keyed
import NetMux.Error
import NetMux.Config
import NetMux.Util.Id
import NetMux.Protocol.Frame
import NetMux.Protocol.Header
import NetMux.Protocol.Codec
import NetMux.Flow.Window
import NetMux.Stream.Recv
import NetMux.Stream.Inner
import NetMux.Stream.Invariant
import NetMux.Session.Inner
import NetMux.Session.Reader
import NetMux.Session.Calls
import NetMux.Link.System
import NetMux.Link.Pipe
import NetMux.Link.Invariant
import NetMux.Link.Handshake
import NetMux.Link.Discipline
import NetMux.Link.Transfer
import NetMux.Link.View
import NetMux.Link.Simulation
import NetMux.Link.Dispatch
import NetMux.Link.Integrity
import NetMux.Link.Stall
import NetMux.Link.Faults
import NetMux.Link.Graceful
import NetMux.Link.Stranded
import NetMux.Endpoint.Machine
import NetMux.Endpoint.Memory
import NetMux.Endpoint.FrameLimit
import NetMux.Concurrent.Atomic
import NetMux.Concurrent.Limit
import NetMux.Lib.Incremental
import NetMux.Protocol.Chunks
import NetMux.Endpoint.Directory
import NetMux.Endpoint.Ownership
import NetMux.Endpoint.Backlog
import NetMux.Endpoint.Isolation
import NetMux.Link.Quiescence
import NetMux.Concurrent.Writer
import NetMux.Concurrent.Shutdown
import NetMux.Concurrent.Signal
import NetMux.Concurrent.Node
import NetMux.Concurrent.Desk
import NetMux.Concurrent.Agreement
import NetMux.Concurrent.DeskView
import NetMux.Protocol.Grammar
import NetMux.Endpoint.Inbound
import NetMux.Stream.Lifecycle
import NetMux.Stream.Fragment
import NetMux.Flow.Returning
import NetMux.Flow.Spending
import NetMux.Concurrent.Polling
import NetMux.Concurrent.Wakeups
import NetMux.Concurrent.Eof
import NetMux.Util.Allocating
import NetMux.Endpoint.Control
import NetMux.Link.Wire
import NetMux.Link.Farewell
import NetMux.Link.Signals
import NetMux.Link.Probe
import NetMux.Endpoint.Tending
import NetMux.Link.Progress
import NetMux.Link.Closing
import NetMux.Endpoint.Timed
import NetMux.Concurrent.Teardown
