import FaasNet.RaftConsensus.GossipCodec
import FaasNet.RaftConsensus.NodeHost

/-!
# `BaseNodeHost.HandleGossipRequest`

What a node does with its store of states when a gossip package arrives, and what it answers. A
handler that throws keeps what it did so far. Of the peers that some handlers start, `NodeHost` tells;
here is the part of a handler that concerns the states.
-/

namespace FaasNet.RaftConsensus

open FaasNet.Lib

/-- `ToDictionary`; it throws when two pairs have the same key. -/
def toDictionary {β : Type} (pairs : List (String × β)) : Option (List (String × β)) :=
  if (pairs.map (·.1)).Nodup then some pairs else none

/-- `Dictionary.Add` for each of the pairs in turn. -/
def addToDictionary {β : Type} : List (String × β) → List (String × β) → Option (List (String × β))
  | dictionary, [] => some dictionary
  | dictionary, pair :: pairs =>
    if pair.1 ∈ dictionary.map (·.1) then none else addToDictionary (dictionary ++ [pair]) pairs

/-- `NodeState.Create` of a state that was received, which has an id. -/
def GossipStateResult.create (state : GossipStateResult) : NodeState :=
  NodeState.create state.entityType (state.entityId.getD "") state.value state.entityVersion

/-- What a handler reads from outside its package and the store: `JsonSerializer`, the address of the
node, the nodes of the cluster, and the new GUID of a PEER entity. -/
structure GossipEnv where
  json : PeerJson
  node : ClusterNode
  allNodes : List ClusterNode
  entityId : String

/-- The store a handler leaves, and the package it answers with, if any; `none` when it throws. -/
structure HandlerResult where
  nodeStateStore : NodeStateStore
  answer : Option (Option GossipPackage)

namespace NodeStateStore

section
variable (env : GossipEnv) (store : NodeStateStore)

/-- The answer is the newest version of each type. -/
def handleGossipHeartbeatRequest : Option (Option GossipPackage) := do
  let states := store.getAllLastEntityTypes
  let dic ← toDictionary (states.map fun s => (s.entityType, s.entityVersion))
  pure (some (GossipPackageResultBuilder.heartbeat env.node dic))

/-- What the node is behind on, at the version after its own, then what it lacks, at the version of
the other node. The sum cannot overflow, as it is at most that version. -/
def stateToBeSynced (requestStates : List GossipState) : Option (List (String × Int)) := do
  let states := store.getAllLastEntityTypes
  let behind := states.filter fun s =>
    requestStates.any fun st => st.entityType = s.entityType ∧ s.entityVersion < st.entityVersion
  let stateToBeSynced ← toDictionary (behind.map fun s => (s.entityType, s.entityVersion + 1))
  let missingStates := requestStates.filter fun rs => !states.any fun s => s.entityType = rs.entityType
  addToDictionary stateToBeSynced (missingStates.map fun rs => (rs.entityType, rs.entityVersion))

/-- What the node is behind on, or lacks, is asked for. -/
def handleGossipHeartbeatResult (requestStates : List GossipState) : Option (Option GossipPackage) := do
  let stateToBeSynced ← store.stateToBeSynced requestStates
  pure (if stateToBeSynced = [] then none else some (GossipPackageRequestBuilder.sync env.node stateToBeSynced))

/-- The values the other node asked for, by their type. -/
def stateValues (requestStates : List GossipState) : Option (List (String × Int × String)) :=
  toDictionary ((store.getAllSpecificEntityTypes (requestStates.map fun s => (s.entityType, s.entityVersion))).map
    fun s => (s.entityType, s.entityVersion, s.value))

/-- The answer is the values that are asked for. -/
def handleGossipSyncStateRequest (requestStates : List GossipState) : Option (Option GossipPackage) := do
  let stateValues ← store.stateValues requestStates
  pure (if stateValues = [] then none else some (GossipPackageResultBuilder.sync env.node stateValues))

/-- The loop over the states of a `GossipSyncStateResult`, as in `NodeHost.syncLoop`, and whether it
comes to its end. -/
def syncLoop (json : PeerJson) (existingValues : NodeStateStore → List NodeState) :
    NodeStateStore → List NodeState → NodeStateStore × Bool
  | store, [] => (store, true)
  | store, missingValue :: states =>
    if NodeHost.isMissing (existingValues store) missingValue then
      if missingValue.entityType = StandardEntityTypes.peer ∧ json.deserialize missingValue.value = none then
        (store.add missingValue, false)
      else syncLoop json existingValues (store.add missingValue) states
    else syncLoop json existingValues store states

/-- The states that are missing are added, until a peer cannot be read. -/
def handleGossipSyncStateResult (json : PeerJson) (states : List NodeState) : NodeStateStore × Bool :=
  syncLoop json (store.enumerated (states.map fun s => (s.entityType, s.entityVersion))) store states

/-- `nodeState.Update(value)` on an object of the store. The in-memory store holds the object itself;
RocksDB gave out a copy, which is not put back. -/
def updateState (nodeState : NodeState) (value : String) : NodeStateStore → NodeStateStore
  | inMemory nodeStates => inMemory (nodeStates.set (nodeStates.idxOf nodeState) (nodeState.update value))
  | rocksDB db => rocksDB db

/-- The newest entity of the type is updated, or a first one is added. -/
def handleGossipUpdateNodeStateRequest (entityType entityId value : String) : NodeStateStore :=
  match store.getLastEntityType entityType with
  | none => store.add (NodeState.create entityType entityId value)
  | some nodeState => store.updateState nodeState value

/-- `HandleGossipRequest`. -/
def handleGossipRequest : GossipPackage → HandlerResult
  | .heartbeatRequest _ => ⟨store, store.handleGossipHeartbeatRequest env⟩
  | .heartbeatResult _ states => ⟨store, store.handleGossipHeartbeatResult env states⟩
  | .syncStateRequest _ states => ⟨store, store.handleGossipSyncStateRequest env states⟩
  | .syncStateResult _ states =>
    let (store, returned) := store.handleGossipSyncStateResult env.json (states.map GossipStateResult.create)
    ⟨store, if returned then some none else none⟩
  | .updateNodeStateRequest _ entityType entityId value =>
    ⟨store.handleGossipUpdateNodeStateRequest entityType entityId value, some none⟩
  | .addPeerRequest _ termId => ⟨store.addPeer env.json env.entityId termId, some none⟩
  | .getClusterNodesRequest _ =>
    ⟨store, some (some (GossipPackageResultBuilder.getClusterNodes env.node env.allNodes))⟩
  -- no overload takes this one: the call comes back to itself until the stack is full
  | .getClusterNodesResult _ _ => ⟨store, none⟩

end

end NodeStateStore

/-- The loop of the node does to the states what the loop here does. -/
theorem NodeHost.syncLoop_nodeStateStore {V : Type*} (json : PeerJson) (env : Nat → Env)
    (existingValues : NodeStateStore → List NodeState) (states : List NodeState) (n : NodeHost V) :
    (NodeHost.syncLoop json env existingValues n states).nodeStateStore =
      (NodeStateStore.syncLoop json existingValues n.nodeStateStore states).1 := by
  induction states generalizing n with
  | nil => rfl
  | cons state states ih =>
    unfold NodeHost.syncLoop NodeStateStore.syncLoop
    by_cases missing : NodeHost.isMissing (existingValues n.nodeStateStore) state
    · by_cases peer : state.entityType = StandardEntityTypes.peer
      · cases parsed : json.deserialize state.value with
        | none => simp [missing, peer, NodeHost.addNodeState]
        | some termId => simp [missing, peer, ih, NodeHost.addNodeState, NodeHost.startPeer]
      · simp [missing, peer, ih, NodeHost.addNodeState]
    · simp [missing, ih]

theorem NodeHost.handleGossipSyncStateResult_nodeStateStore {V : Type*} (json : PeerJson) (env : Nat → Env)
    (states : List NodeState) (n : NodeHost V) :
    (n.handleGossipSyncStateResult json env states).nodeStateStore =
      (n.nodeStateStore.handleGossipSyncStateResult json states).1 :=
  NodeHost.syncLoop_nodeStateStore json env _ states n

end FaasNet.RaftConsensus
