import UringMqtt.Bench.Analysis
import UringMqtt.Bench.Attempts
import UringMqtt.Bench.Connection
import UringMqtt.Bench.CpuList
import UringMqtt.Bench.Cycles
import UringMqtt.Bench.Disk
import UringMqtt.Bench.Doc
import UringMqtt.Bench.Generator
import UringMqtt.Bench.Guard
import UringMqtt.Bench.JoinSet
import UringMqtt.Bench.Json
import UringMqtt.Bench.Matrix
import UringMqtt.Bench.Names
import UringMqtt.Bench.Pacer
import UringMqtt.Bench.PacketIds
import UringMqtt.Bench.Payload
import UringMqtt.Bench.Probe
import UringMqtt.Bench.Recorder
import UringMqtt.Bench.Records
import UringMqtt.Bench.RunRecord
import UringMqtt.Bench.Runner
import UringMqtt.Bench.Schedule
import UringMqtt.Bench.Throughput
import UringMqtt.Bench.Twin
import UringMqtt.Bench.Wire
import UringMqtt.Bench.WorkerLoads
import UringMqtt.Broker.Handler
import UringMqtt.Broker.Handshake
import UringMqtt.Broker.Packet
import UringMqtt.Broker.Runtime
import UringMqtt.Broker.Shutdown
import UringMqtt.Broker.Startup
import UringMqtt.Broker.Worker
import UringMqtt.Broker.WorkerLoop
import UringMqtt.Codec.Decoder
import UringMqtt.Codec.FixedHeader
import UringMqtt.Codec.Fixtures
import UringMqtt.Codec.Packets
import UringMqtt.Codec.Rmqtt
import UringMqtt.Codec.Version
import UringMqtt.Lib.Bins
import UringMqtt.Lib.Bitset
import UringMqtt.Lib.Channel
import UringMqtt.Lib.Checked
import UringMqtt.Lib.Classes
import UringMqtt.Lib.Effects
import UringMqtt.Lib.Firsts
import UringMqtt.Lib.Ghost
import UringMqtt.Lib.LittleEndian
import UringMqtt.Lib.Run
import UringMqtt.Lib.Runs
import UringMqtt.Lib.Saturating
import UringMqtt.Lib.Semaphore
import UringMqtt.Lib.Strides
import UringMqtt.Lib.Table
import UringMqtt.Lib.Text
import UringMqtt.Lib.Varint
import UringMqtt.Proofs.AckAccount
import UringMqtt.Proofs.AckLedger
import UringMqtt.Proofs.AckSessions
import UringMqtt.Proofs.Acknowledgement
import UringMqtt.Proofs.AttemptLaws
import UringMqtt.Proofs.CallbackOrder
import UringMqtt.Proofs.ChannelAccounting
import UringMqtt.Proofs.ChannelSlots
import UringMqtt.Proofs.ChannelUse
import UringMqtt.Proofs.Chunking
import UringMqtt.Proofs.CleanRecorder
import UringMqtt.Proofs.ClosedDiscards
import UringMqtt.Proofs.ConnectionEnd
import UringMqtt.Proofs.Conversation
import UringMqtt.Proofs.CpuCount
import UringMqtt.Proofs.CpuGrammar
import UringMqtt.Proofs.DeliveryOrder
import UringMqtt.Proofs.DocCells
import UringMqtt.Proofs.DocText
import UringMqtt.Proofs.ExactlyOnce
import UringMqtt.Proofs.FailFast
import UringMqtt.Proofs.FlushDeadline
import UringMqtt.Proofs.FlushLedger
import UringMqtt.Proofs.FrameCuts
import UringMqtt.Proofs.Framing
import UringMqtt.Proofs.GracefulDrain
import UringMqtt.Proofs.GuardedEnd
import UringMqtt.Proofs.HeldBacklog
import UringMqtt.Proofs.HeldWakeup
import UringMqtt.Proofs.HoldDebt
import UringMqtt.Proofs.IdSet
import UringMqtt.Proofs.IdleAnchor
import UringMqtt.Proofs.InboundLimit
import UringMqtt.Proofs.JoinReport
import UringMqtt.Proofs.KeepAlive
import UringMqtt.Proofs.LevelRefusal
import UringMqtt.Proofs.Outbox
import UringMqtt.Proofs.OutcomeLaws
import UringMqtt.Proofs.Outgoing
import UringMqtt.Proofs.OwnRecords
import UringMqtt.Proofs.PacerAccount
import UringMqtt.Proofs.PacerLedger
import UringMqtt.Proofs.PacerSteps
import UringMqtt.Proofs.PacketIdLaws
import UringMqtt.Proofs.PacketLoop
import UringMqtt.Proofs.PacketSize
import UringMqtt.Proofs.ProbeLife
import UringMqtt.Proofs.ProbeOwner
import UringMqtt.Proofs.Publication
import UringMqtt.Proofs.Publishable
import UringMqtt.Proofs.ReaderJoined
import UringMqtt.Proofs.Reconciled
import UringMqtt.Proofs.RecorderExact
import UringMqtt.Proofs.RecorderMerge
import UringMqtt.Proofs.RecorderRun
import UringMqtt.Proofs.ReplyOrder
import UringMqtt.Proofs.Segments
import UringMqtt.Proofs.SendBoundary
import UringMqtt.Proofs.SendWindow
import UringMqtt.Proofs.Session
import UringMqtt.Proofs.SessionGrammar
import UringMqtt.Proofs.SessionSteps
import UringMqtt.Proofs.ShardTally
import UringMqtt.Proofs.SharedDirectory
import UringMqtt.Proofs.SlotGrid
import UringMqtt.Proofs.StartupAgreement
import UringMqtt.Proofs.StemNames
import UringMqtt.Proofs.TwinEvidence
import UringMqtt.Proofs.ValidRun
import UringMqtt.Proofs.VersionProbe
import UringMqtt.Proofs.WorkerQueue
import UringMqtt.Proofs.WorkerShares
