import FaasNet.Lib.Runs
import FaasNet.Lib.Noninterference
import FaasNet.Lib.Lists
import FaasNet.Lib.Counting
import FaasNet.Lib.Codec
import FaasNet.Lib.Ranked
import FaasNet.Lib.Base64
import FaasNet.Lib.Fifo
import FaasNet.Lib.EventSourcing
import FaasNet.Lib.Loops
import FaasNet.Common.ConcurrentBag
import FaasNet.Common.AggregateRoot
import FaasNet.Common.Text
import FaasNet.RaftConsensus.Messages
import FaasNet.RaftConsensus.PeerHost
import FaasNet.RaftConsensus.PeerEffects
import FaasNet.RaftConsensus.PeerLog
import FaasNet.RaftConsensus.Watchdog
import FaasNet.RaftConsensus.Cluster
import FaasNet.RaftConsensus.UpToDate
import FaasNet.RaftConsensus.LogAgreement
import FaasNet.RaftConsensus.StableLeader
import FaasNet.RaftConsensus.CatchUp
import FaasNet.RaftConsensus.Conservation
import FaasNet.RaftConsensus.Elections
import FaasNet.RaftConsensus.VoteAccounting
import FaasNet.RaftConsensus.ElectionSafety
import FaasNet.RaftConsensus.Stores
import FaasNet.RaftConsensus.NodeStateStores
import FaasNet.RaftConsensus.LogStores
import FaasNet.RaftConsensus.BufferContext
import FaasNet.RaftConsensus.ConsensusCodec
import FaasNet.RaftConsensus.GossipCodec
import FaasNet.RaftConsensus.NodeHost
import FaasNet.RaftConsensus.GossipHandlers
import FaasNet.RaftConsensus.GossipSync
import FaasNet.RaftConsensus.GossipConvergence
import FaasNet.EventMesh.EventMeshNode
import FaasNet.EventMesh.OnePeerPerTopic
import FaasNet.EventMesh.Mesh
import FaasNet.EventMesh.AcknowledgedPublishes
import FaasNet.EventMesh.CloudEventCodec
import FaasNet.EventMesh.Messages
import FaasNet.EventMesh.PackageCodec
import FaasNet.EventMesh.PackageRoundTrip
import FaasNet.EventMesh.DatagramBounds
import FaasNet.EventMesh.QueueStore
import FaasNet.EventMesh.QueueInterleavings
import FaasNet.EventMesh.TypedStores
import FaasNet.EventMesh.Broker
import FaasNet.EventMesh.Sessions
import FaasNet.EventMesh.ClosedSessions
import FaasNet.EventMesh.VpnIsolation
import FaasNet.StateMachine.Instance
import FaasNet.StateMachine.InstanceReplay
import FaasNet.EventStore.CommitAggregate
import FaasNet.StateMachine.InstanceSessions
import FaasNet.StateMachine.RuntimeEngine
import FaasNet.StateMachine.LaunchTermination
import FaasNet.StateMachine.Frontier
import FaasNet.StateMachine.EventConsumer
import FaasNet.StateMachine.DeliveryInterleavings
import FaasNet.StateMachine.ListenedEvents
import FaasNet.StateMachine.Wakeable
import FaasNet.StateMachine.HistoryChains
import FaasNet.StateMachine.Definitions
import FaasNet.StateMachine.DefinitionRepository
import FaasNet.EventStore.Projections
import FaasNet.StateMachine.InstanceProjection
import FaasNet.EventMesh.AmqpFrames
import FaasNet.RaftConsensus.Restarts
import FaasNet.Lib.Graphs
import FaasNet.StateDiagram.Model
import FaasNet.StateDiagram.Edits
import FaasNet.EventMesh.Routing
import FaasNet.EventMesh.TopicFilters
import FaasNet.RaftConsensus.Forwarding
import FaasNet.RaftConsensus.NodeStateUpdates
import FaasNet.EventMesh.ClientOperations
import FaasNet.EventMesh.ClientRegistry
import FaasNet.EventMesh.SessionLifetime
import FaasNet.StateMachine.TreeNodes
import FaasNet.StateMachine.StateData
import FaasNet.StateMachine.Reactivation
import FaasNet.Lib.Methods
import FaasNet.StateMachine.Processors
import FaasNet.StateMachine.ProcessorCalls
import FaasNet.StateMachine.EventConsumption
import FaasNet.StateMachine.EventStates
import FaasNet.StateMachine.EventLaunches
import FaasNet.StateMachine.EventArrivals
import FaasNet.StateMachine.SwitchStates
import FaasNet.StateMachine.ForeachStates
import FaasNet.StateMachine.JObjectYaml
import FaasNet.StateMachine.YamlObjects
import FaasNet.StateMachine.YamlStates
import FaasNet.StateMachine.YamlRestored
import FaasNet.StateMachine.RuntimeSerializer
import FaasNet.StateMachine.ResumedDefinitions
import FaasNet.EventStore.EventLog
import FaasNet.StateMachine.OpenApiTargets
import FaasNet.Lib.Backpatching
import FaasNet.StateMachine.SchemaReferences
import FaasNet.StateMachine.ReferenceOrder
import FaasNet.Lib.JsonText
import FaasNet.StateMachine.FilterExpressions
import FaasNet.StateDiagram.Stores
import FaasNet.StateDiagram.SavedModels
import FaasNet.StateDiagram.DefaultTransitions
import FaasNet.Lib.LeveledGraphs
import FaasNet.StateDiagram.Hierarchy
import FaasNet.AsyncApi.AsyncApiBuilder
import FaasNet.EventMesh.SubscriptionStores
import FaasNet.EventMesh.KafkaSink
import FaasNet.EventMesh.VpnBridges
import FaasNet.EventMesh.AmqpLinks
import FaasNet.EventMesh.AmqpPayloads
import FaasNet.EventMesh.PluginConfiguration
import FaasNet.Functions.Deployments
