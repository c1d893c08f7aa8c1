import InterchainCommunication.ChannelIndependence
import InterchainCommunication.ChannelClosing
import InterchainCommunication.PacketAddressing
import InterchainCommunication.LinkDelivery
import InterchainCommunication.TrafficDelivery
import InterchainCommunication.NodeSurvival
import InterchainCommunication.AckSoundness
import InterchainCommunication.AckCounting
import InterchainCommunication.ConsensusModel
import InterchainCommunication.QuorumVoting
import InterchainCommunication.VoteFinality
import InterchainCommunication.VoteAgreement
import InterchainCommunication.WorkFinality
import InterchainCommunication.HonestProposing
import InterchainCommunication.TaskCustody
import InterchainCommunication.TransportSteps
import InterchainCommunication.ThreadSteps
import InterchainCommunication.TransportDrain
import InterchainCommunication.TransportOrder
import InterchainCommunication.TransportUnregister
import InterchainCommunication.TransportShutdown
import InterchainCommunication.TransportClosing
import InterchainCommunication.TransportRefinement
import InterchainCommunication.RejectedPackets
import InterchainCommunication.PacketBroadcast
import InterchainCommunication.RemoteVotes
import InterchainCommunication.TransactionWire
import InterchainCommunication.UniqueWiring
import InterchainCommunication.ComponentLife
import InterchainCommunication.Restarting
import InterchainCommunication.LoopBackCounting
import InterchainCommunication.StopModel
import InterchainCommunication.GracefulStop
import InterchainCommunication.ChannelLifetime
import InterchainCommunication.ChannelOpening
import InterchainCommunication.BoundedSearch
import InterchainCommunication.DropRate
import InterchainCommunication.NonceSearch
import InterchainCommunication.RelayerAccounting
import InterchainCommunication.StateRoots
import InterchainCommunication.FinalityCounting
import InterchainCommunication.WorkBinding
import InterchainCommunication.BusSubscriptions
import InterchainCommunication.SharedQueue
import InterchainCommunication.EnvelopeWriters
import InterchainCommunication.PacketStrictness
import InterchainCommunication.JsonGrammar
import InterchainCommunication.DetailedLog
import InterchainCommunication.EventLog
import InterchainCommunication.TrafficRate
import InterchainCommunication.MetricsLedger
import InterchainCommunication.InOrderAcceptance
import InterchainCommunication.ReliableRelaying
import InterchainCommunication.RouteUse
import InterchainCommunication.LostPackets
import InterchainCommunication.MutualExclusion
import InterchainCommunication.TransportAlert
import InterchainCommunication.TransportLiveness
import InterchainCommunication.EngineEquivalence
import InterchainCommunication.ListSums
import InterchainCommunication.LogFiles
import InterchainCommunication.StopLiveness
import InterchainCommunication.AuditTrail
import InterchainCommunication.LockOrder
import InterchainCommunication.RaceFreedom
import InterchainCommunication.TrafficPlans
