import NetworkProj.Model.Receiver
import NetworkProj.Sender.Moves
import NetworkProj.Timer.InFlight
import NetworkProj.Receiver.Stream
import NetworkProj.Receiver.Acceptance
import NetworkProj.Sender.Window
import NetworkProj.Daemon.Halves
import NetworkProj.Receiver.Grouping
import NetworkProj.Daemon.Rounds
import NetworkProj.Receiver.Reduction
import NetworkProj.Daemon.Noninterference
import NetworkProj.Transport.Custody
import NetworkProj.Transfer.Files
import NetworkProj.Transfer.Header
import NetworkProj.Sender.Estimation
import NetworkProj.Sender.Progress
import NetworkProj.Daemon.Refusals
import NetworkProj.Daemon.Replies
import NetworkProj.Receiver.Bounds
import NetworkProj.Transport.Checksum
import NetworkProj.Checksums.Reflection
import NetworkProj.Checksums.OnesComplement
import NetworkProj.Sender.Reconnect
import NetworkProj.Sender.RoundTrips
import NetworkProj.Model.Network
import NetworkProj.Transport.Connections
import NetworkProj.Shared.Interleaving
import NetworkProj.Model.TcpdMsgSocket
import NetworkProj.Daemon.Linearization
import NetworkProj.Lab2.ReceiveLoop
import NetworkProj.Turner.CheckField
import NetworkProj.Turner.TimerOperations
import NetworkProj.Lab1.Matches
import NetworkProj.Receiver.Idempotence
import NetworkProj.Turner.TimerList
import NetworkProj.Tcp.NewReno
import NetworkProj.Transfer.Completion
import NetworkProj.Transport.Recovery
import NetworkProj.Timer.Punctuality
import NetworkProj.Lab2.Streams
import NetworkProj.Lab2.Serving
import NetworkProj.Lab2.Transfers
import NetworkProj.Lab2.Termination
import NetworkProj.Lab3.Arrival
import NetworkProj.Model.TurnerTransfer
import NetworkProj.Turner.Arrival
