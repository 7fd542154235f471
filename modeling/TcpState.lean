import TcpState.Foundation.Circular
import TcpState.Foundation.HalfCircle
import TcpState.Foundation.Tiling
import TcpState.Foundation.Fallible
import TcpState.Foundation.Transport
import TcpState.Foundation.Transition
import TcpState.Foundation.Fifo
import TcpState.Foundation.Smoothing
import TcpState.Model.Segment
import TcpState.Model.Queue
import TcpState.Model.Event
import TcpState.Model.State
import TcpState.Model.Rx
import TcpState.Model.Tx
import TcpState.Model.Timers
import TcpState.Model.Rtt
import TcpState.Model.Listen
import TcpState.Model.Socket
import TcpState.Parts.SeqOrder
import TcpState.Parts.ByteQueue
import TcpState.Parts.RttEstimate
import TcpState.Connection.StateChange
import TcpState.Connection.SendAck
import TcpState.Connection.SegmentSteps
import TcpState.Connection.Run
import TcpState.Connection.WellFormed
import TcpState.Connection.SegmentPreserved
import TcpState.Connection.CallSteps
import TcpState.Connection.CallsPreserved
import TcpState.Connection.SegmentPanic
import TcpState.Connection.Handshake
import TcpState.Connection.RxEffect
import TcpState.Connection.AcceptedStep
import TcpState.Connection.Exact
import TcpState.Connection.Receive
import TcpState.Connection.Intake
import TcpState.Connection.TxEffect
import TcpState.Connection.Send
import TcpState.Connection.Retransmit
import TcpState.Connection.TimersHold
import TcpState.Connection.Watch
import TcpState.Connection.Stream
import TcpState.Connection.CleanEnd
import TcpState.Connection.CloseActive
import TcpState.Connection.Congestion
import TcpState.Connection.CallPanic
import TcpState.Connection.EndOfStream
import TcpState.Connection.Forward
import TcpState.Connection.FinWithData
import TcpState.Connection.Shift
import TcpState.Connection.WrapAround
import TcpState.Connection.Idling
import TcpState.Connection.Resume
import TcpState.Connection.Waiting
import TcpState.Connection.Acceptance
import TcpState.Connection.Answers
import TcpState.Connection.Told
import TcpState.Connection.ToldStep
import TcpState.Connection.QueueEmpty
import TcpState.Connection.Resets
import TcpState.Connection.EarlySends
import TcpState.Connection.Backlog
import TcpState.Connection.Atomic
import TcpState.Connection.Backoff
import TcpState.Connection.WindowTests
import TcpState.Connection.Offer
import TcpState.Connection.Settings
import TcpState.Connection.CloseCalled
import TcpState.Connection.Completion
import TcpState.Connection.Diagram
import TcpState.Connection.Documented
import TcpState.Connection.Quarantine
import TcpState.Connection.Rearranged
import TcpState.Foundation.Transfer
import TcpState.Foundation.Progress
import TcpState.Foundation.Simulation
import TcpState.Foundation.Pipe
import TcpState.Foundation.Agreement
import TcpState.Network.Symbol
import TcpState.Network.SendBuffer
import TcpState.Network.Endpoint
import TcpState.Network.Sending
import TcpState.Network.Receiving
import TcpState.Network.Moves
import TcpState.Network.Windows
import TcpState.Network.Link
import TcpState.Network.Joint
import TcpState.Network.Delivery
import TcpState.Network.Resend
import TcpState.Network.Closing
import TcpState.Network.GracefulEnd
import TcpState.Network.Gapless
import TcpState.Network.ResetCause
import TcpState.Network.Pipes
import TcpState.Network.Opening
import TcpState.Network.Connecting
import TcpState.Network.OneWay
import TcpState.Network.Departing
import TcpState.Network.Teardown
import TcpState.Network.Crashes
import TcpState.Network.Flight
import TcpState.Network.Stall
import TcpState.Network.Storm
import TcpState.Listener.Steps
import TcpState.Listener.Ledger
import TcpState.Listener.Attempts
import TcpState.Listener.Refusals
import TcpState.Socket.Run
import TcpState.Socket.Reuse
