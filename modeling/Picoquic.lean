import Picoquic.ForMathlib.Runs
import Picoquic.Sack.List
import Picoquic.Sack.Canonical
import Picoquic.Sack.Replay
import Picoquic.Ack.Blocks
import Picoquic.Packet.Context
import Picoquic.Ack.Decode
import Picoquic.Ack.Exact
import Picoquic.Ack.Format
import Picoquic.Ack.FormatSound
import Picoquic.Congestion.Common
import Picoquic.Congestion.Tonopah
import Picoquic.Congestion.TonopahWindow
import Picoquic.Congestion.TonopahLoss
import Picoquic.Congestion.Newreno
import Picoquic.ForMathlib.Slice
import Picoquic.Stream.Receive
import Picoquic.Stream.Cases
import Picoquic.Stream.Reassembly
import Picoquic.ForMathlib.Keyed
import Picoquic.Stream.FlowControl
import Picoquic.Stream.FinalSize
import Picoquic.Packet.Sooner
import Picoquic.Packet.SoonerExact
import Picoquic.Sender.Repeat
import Picoquic.Sender.Send
import Picoquic.Sender.Repair
import Picoquic.Sender.Retained
import Picoquic.Sender.Format
import Picoquic.Sender.Forgotten
import Picoquic.ForMathlib.LinkedList
import Picoquic.ForMathlib.SplayTree
import Picoquic.Quic.WakeList
import Picoquic.Quic.TokenReuse
import Picoquic.Quic.Connections
import Picoquic.Quic.ConnectionsKept
import Picoquic.Stream.DirectReceive
import Picoquic.Stream.HandOver
import Picoquic.Wire.Skip
import Picoquic.Wire.Control
import Picoquic.Wire.ControlSound
import Picoquic.Path.Abandon
import Picoquic.Path.Designated
import Picoquic.Path.CnxidCount
import Picoquic.Handshake.Segment
import Picoquic.Handshake.Amplification
import Picoquic.Keys.Initiation
import Picoquic.Keys.Phase
import Picoquic.Keys.PhaseExact
import Picoquic.Sack.Histogram
import Picoquic.Flight.Packets
import Picoquic.Flight.Layout
import Picoquic.Flight.Moves
import Picoquic.Flight.Counted
import Picoquic.Flight.Drain
import Picoquic.Flight.Transit
import Picoquic.Flight.Cursor
import Picoquic.Sender.AckedData
import Picoquic.Sender.AckedSound
import Picoquic.Sender.ControlLog
import Picoquic.Sender.ControlRepeat
import Picoquic.Sender.StreamBytes
import Picoquic.Sender.Pacing
import Picoquic.Packet.Number
import Picoquic.Congestion.TonopahList
import Picoquic.Congestion.TonopahMemory
import Picoquic.Congestion.Alternating
import Picoquic.Congestion.TonopahVerdict
import Picoquic.Sender.PacketTrain
import Picoquic.Path.Mtu
import Picoquic.Path.MtuLimits
import Picoquic.Path.MtuLaw
import Picoquic.Sender.Limits
import Picoquic.Sender.FlowControl
import Picoquic.Path.RemoteReferences
import Picoquic.Path.RemoteLaw
import Picoquic.ForMathlib.Readers
import Picoquic.Frames.Decode
import Picoquic.Frames.SkipAgrees
import Picoquic.Transport.Parameters
import Picoquic.Transport.Receive
import Picoquic.Transport.Format
import Picoquic.Transport.Fields
import Picoquic.Transport.Extension
import Picoquic.Transport.Loop
import Picoquic.Transport.RoundTrip
import Picoquic.Congestion.Process
import Picoquic.Congestion.ProcessIntervals
import Picoquic.Congestion.ProcessPaths
import Picoquic.Quic.HalfOpen
import Picoquic.Quic.RetryToken
import Picoquic.Quic.Picohash
import Picoquic.Quic.IssuedTickets
import Picoquic.Quic.CnxidRouting
import Picoquic.Quic.NetRouting
import Picoquic.Quic.StatelessReset
import Picoquic.Flight.PathReferences
import Picoquic.ForMathlib.RecordFile
import Picoquic.Store.Record
import Picoquic.Store.TokenFile
import Picoquic.Store.Tickets
import Picoquic.Store.TicketFile
import Picoquic.ForMathlib.CheckedArray
import Picoquic.Quic.LoadBalancer
import Picoquic.ForMathlib.PointerTree
import Picoquic.Splay.Picosplay
import Picoquic.Splay.Rotate
import Picoquic.Splay.Walk
import Picoquic.Splay.Operations
import Picoquic.Splay.Runs
import Picoquic.H3zero.Qpack
import Picoquic.H3zero.QpackBounds
import Picoquic.H3zero.HeaderFrames
import Picoquic.H3zero.DataStream
import Picoquic.Sack.Union
import Picoquic.Ack.Spurious
import Picoquic.Flight.HandshakeAck
import Picoquic.Stream.OutputStreams
import Picoquic.Stream.Unblocking
import Picoquic.Stream.OutputList
import Picoquic.Stream.OutputLinks
import Picoquic.Stream.OutputListLaw
import Picoquic.Transport.Validation
import Picoquic.Path.AbandonedPaths
import Picoquic.Sender.RetransmitBytes
import Picoquic.Quicperf.Scenario
import Picoquic.Quicperf.DescText
import Picoquic.Quicperf.ScenarioText
import Picoquic.Quicperf.Stream
import Picoquic.Quicperf.StreamLaw
import Picoquic.Quicperf.Connection
import Picoquic.Quicperf.ConnectionLaw
import Picoquic.Stream.AdvertisedLimits
import Picoquic.Packet.Closest
import Picoquic.Quic.CidMask
import Picoquic.Stream.AddToStream
import Picoquic.Wire.FieldCodecs
import Picoquic.Wire.ReadyDatagram
import Picoquic.Path.Rtt
import Picoquic.Path.SelectNext
import Picoquic.Path.SelectLaw
import Picoquic.ForMathlib.CodeTree
import Picoquic.H3zero.HuffmanTree
import Picoquic.H3zero.HuffmanDecode
import Picoquic.Quic.Closing
import Picoquic.Quic.ClosingLaw
import Picoquic.Sender.StreamText
import Picoquic.Stream.Transfer
import Picoquic.Ack.Agreement
