import NtnIab.Library.Ranking
import NtnIab.Library.Run
import NtnIab.Library.Records
import NtnIab.Library.Retries
import NtnIab.Library.BigEndian
import NtnIab.Library.Window
import NtnIab.Library.ListFamily
import NtnIab.Library.FrameClock
import NtnIab.Library.OrderedMap
import NtnIab.Library.Fallible
import NtnIab.Library.Lanes
import NtnIab.Library.Lookup
import NtnIab.Library.Links
import NtnIab.Library.ByteReader
import NtnIab.Library.StdSort
import NtnIab.Library.Ring
import NtnIab.Library.Leaps
import NtnIab.Library.Binary64
import NtnIab.Library.MapTraversal
import NtnIab.Library.Agenda
import NtnIab.Network.Buffer
import NtnIab.Network.SequenceNumber
import NtnIab.Network.Packet
import NtnIab.Dash.Headers
import NtnIab.Dash.MpegPlayer
import NtnIab.Dash.Interruption
import NtnIab.Dash.HttpParser
import NtnIab.Dash.Chunking
import NtnIab.Dash.DashServer
import NtnIab.Dash.SendQueue
import NtnIab.Dash.RequestFraming
import NtnIab.Dash.PlayOut
import NtnIab.Quic.Header
import NtnIab.Quic.Dispatch
import NtnIab.Quic.VarInt
import NtnIab.Quic.Subheader
import NtnIab.Quic.SubheaderRoundTrip
import NtnIab.Quic.HeaderRoundTrip
import NtnIab.Quic.SocketRxBuffer
import NtnIab.Quic.CongestionOps
import NtnIab.Quic.AlarmBackoff
import NtnIab.Quic.DisgregateSend
import NtnIab.Quic.DispatchSend
import NtnIab.Quic.SendProgress
import NtnIab.Quic.Disgregate
import NtnIab.Quic.HeaderBounds
import NtnIab.Quic.DecoderBounds
import NtnIab.Quic.StreamRxBuffer
import NtnIab.Quic.Reassembly
import NtnIab.Quic.StreamTxBuffer
import NtnIab.Quic.StreamBase
import NtnIab.Quic.Delivery
import NtnIab.Quic.Credit
import NtnIab.Quic.StreamTxFifo
import NtnIab.Quic.StreamFlowControl
import NtnIab.Quic.LenFrame
import NtnIab.Quic.StreamFrame
import NtnIab.Quic.SocketTxScheduler
import NtnIab.Quic.SegmentAssembly
import NtnIab.Quic.SocketTxBuffer
import NtnIab.Quic.QueuedFrames
import NtnIab.Quic.Conservation
import NtnIab.Quic.ByteAccounting
import NtnIab.Quic.TxCapacity
import NtnIab.Quic.AckFrame
import NtnIab.Quic.AckAgreement
import NtnIab.Quic.ThresholdLoss
import NtnIab.Quic.SocketBase
import NtnIab.Quic.MpQuicScheduler
import NtnIab.Quic.PendingData
import NtnIab.Quic.PathIds
import NtnIab.Quic.PathAgreement
import NtnIab.Mmwave.RandomAccess
import NtnIab.Mmwave.RandomAccessAgreement
import NtnIab.Mmwave.PhyMacCommon
import NtnIab.Mmwave.SubframeTarget
import NtnIab.Mmwave.GapFree
import NtnIab.Mmwave.HarqProcesses
import NtnIab.Mmwave.PaddedHbf
import NtnIab.Mmwave.PaddedHbfHarq
import NtnIab.Mmwave.PaddedHbfNewData
import NtnIab.Mmwave.PaddedHbfTrigger
import NtnIab.Mmwave.RetxRounds
import NtnIab.Mmwave.NewDataTurns
import NtnIab.Mmwave.TriggerPasses
import NtnIab.Mmwave.HarqRecords
import NtnIab.Mmwave.AllocationLayout
import NtnIab.Mmwave.SoundAllocation
import NtnIab.Mmwave.HarqShapes
import NtnIab.Mmwave.FeedbackOutcome
import NtnIab.Mmwave.HarqConsistency
import NtnIab.Mmwave.HarqInFlight
import NtnIab.Mmwave.FaultFree
import NtnIab.Mmwave.ReleaseSafety
import NtnIab.Mmwave.RntiReuse
import NtnIab.Mmwave.PacketBursts
import NtnIab.Mmwave.HarqPhy
import NtnIab.Mmwave.SoftCombining
import NtnIab.Mmwave.MacPdu
import NtnIab.Mmwave.MacMultiplexing
import NtnIab.Mmwave.GrantAnswers
import NtnIab.Mmwave.SlotSizes
import NtnIab.Mmwave.UePhyReset
import NtnIab.Mmwave.UeRandomAccess
import NtnIab.Mmwave.Bisection
import NtnIab.Mmwave.TriggerHalts
import NtnIab.Mmwave.RoundRobin
import NtnIab.Mmwave.RetxOwners
import NtnIab.Mmwave.DlBookkeeping
import NtnIab.Mmwave.FlexTtiRoom
import NtnIab.Mmwave.FlexTtiRetx
import NtnIab.Mmwave.FlexTtiGrants
import NtnIab.Mmwave.FlexTtiScheduler
import NtnIab.Mmwave.RetxSearch
import NtnIab.Mmwave.FlowTurns
import NtnIab.Mmwave.SymbolDivision
import NtnIab.Mmwave.FlexTtiPf
import NtnIab.Mmwave.FlexTtiPfDivision
import NtnIab.Mmwave.FlexTtiPfTrigger
import NtnIab.Mmwave.PfDivision
import NtnIab.Mmwave.GrantBuffers
import NtnIab.Mmwave.PfRecords
import NtnIab.Mmwave.TdmaProcesses
import NtnIab.Mmwave.TdmaTriggers
import NtnIab.Mmwave.FeedbackConservation
import NtnIab.Mmwave.CleanStart
import NtnIab.Mmwave.DemandReports
import NtnIab.Mmwave.UplinkDemand
import NtnIab.Mmwave.EvenTurns
import NtnIab.Mmwave.PfHistory
import NtnIab.Mmwave.GrantSlots
import NtnIab.Mmwave.PfRelease
import NtnIab.Mmwave.DlDistribution
import NtnIab.Mmwave.EnbPhyWalk
import NtnIab.Mmwave.SlotBundles
import NtnIab.Mmwave.SlotStarts
import NtnIab.Mmwave.SubframeWalk
import NtnIab.Lte.PathSwitchAcks
import NtnIab.Lte.ChildCounts
import NtnIab.Lte.Migration
import NtnIab.Lte.DonorWalk
import NtnIab.Lte.Backhaul
import NtnIab.Lte.S1apCodecs
import NtnIab.Lte.UplinkClass
import NtnIab.Lte.RlcUmLink
import NtnIab.Dash.Adaptation
import NtnIab.Dash.RequestChain
import NtnIab.Dash.Streaming
import NtnIab.Dash.StreamDelivery
import NtnIab.Quic.Connection
import NtnIab.Quic.Transfer
import NtnIab.Quic.RxRepresentation
