import FaasNet.RaftConsensus.PeerEffects
import FaasNet.RaftConsensus.Stores

/-!
# `BaseNodeHost`

A node holds the peers of its topics and two stores. It handles one datagram at a time: a package
of the consensus goes on to the first peer of its topic, `GossipAddPeerRequest` and
`GossipSyncStateResult` start peers. An exception ends a handler with what was done so far.
-/

namespace FaasNet.RaftConsensus

/-- The fields of `BaseNodeHost`. The two options are those the peers are built with. -/
structure NodeHost (V : Type*) where
  nodeOptions : ConsensusNodeOptions
  peerOptions : ConsensusPeerOptions
  peers : List (PeerHost V)
  peerInfoStore : PeerInfoStore
  nodeStateStore : NodeStateStore

namespace NodeHost

section
variable {V : Type*} (n : NodeHost V)

/-- The topics of the peers, in the order of `_peers`. -/
def termIds : List String := n.peers.map (·.info.termId)

/-- Where `_peers.FirstOrDefault(p => p.Info.TermId == termId)` finds its peer. -/
def findPeer (termId : String) : Option Nat := n.peers.findIdx? fun h => h.info.termId = termId

/-! ## Starting peers -/

/-- A peer is started for a topic. -/
def startPeer (env : Env) (termId : String) : NodeHost V :=
  { n with
    peers := n.peers ++ [.start n.nodeOptions n.peerOptions ⟨termId, 0, 0⟩ env]
    peerInfoStore := n.peerInfoStore.add ⟨termId, 0, 0⟩ }

/-- The entity of a peer is added to the store. -/
def addPeer (json : PeerJson) (entityId termId : String) : NodeHost V :=
  { n with nodeStateStore := n.nodeStateStore.addPeer json entityId termId }

/-- A state is added to the store of the node. -/
def addNodeState (nodeState : NodeState) : NodeHost V :=
  { n with nodeStateStore := n.nodeStateStore.add nodeState }

/-- `RunConsensusPeers`, over the infos in the order `GetAll` yields them. The in-memory store holds
the peers' own objects, so it is listed in the order of the peers. -/
def runConsensusPeers (env : Nat → Env) (peerInfoLst : List PeerInfo) : NodeHost V :=
  { n with
    peers := peerInfoLst.mapIdx fun k info => .start n.nodeOptions n.peerOptions info (env k)
    peerInfoStore :=
      match n.peerInfoStore with
      | .inMemory _ => .inMemory peerInfoLst
      | .rocksDB store => .rocksDB store }

/-- `Stop`, then `Start`. Neither store promises an order. -/
def restart (env : Nat → Env) (peerInfoLst : List PeerInfo) : Option (NodeHost V) :=
  if peerInfoLst.Perm n.peerInfoStore.getAll then some (n.runConsensusPeers env peerInfoLst) else none

/-! ## Gossip -/

/-- A topic is added, and its peer is started. -/
def handleGossipAddPeerRequest (json : PeerJson) (env : Env) (entityId termId : String) : NodeHost V :=
  (n.startPeer env termId).addPeer json entityId termId

/-- `missingValues` keeps a state unless one of its type with this version or a later one exists. -/
def isMissing (existingValues : List NodeState) (state : NodeState) : Bool :=
  !existingValues.any fun ev => ev.entityType = state.entityType ∧ state.entityVersion ≤ ev.entityVersion

/-- The loop of `HandleGossipRequest(GossipSyncStateResult)`. `missingValues` is a query too: whether
a state is missing is decided when the loop gets to it. -/
def syncLoop (json : PeerJson) (env : Nat → Env) (existingValues : NodeStateStore → List NodeState) :
    NodeHost V → List NodeState → NodeHost V
  | n, [] => n
  | n, missingValue :: states =>
    if isMissing (existingValues n.nodeStateStore) missingValue then
      let added := n.addNodeState missingValue
      if missingValue.entityType = StandardEntityTypes.peer then
        match json.deserialize missingValue.value with
        | none => added
        | some termId => syncLoop json env existingValues (added.startPeer (env n.peers.length) termId) states
      else syncLoop json env existingValues added states
    else syncLoop json env existingValues n states

/-- The query `existingValues` of a request. -/
def existingValues (states : List NodeState) : NodeStateStore → List NodeState :=
  n.nodeStateStore.enumerated (states.map fun s => (s.entityType, s.entityVersion))

/-- The states that are missing are added, and their peers are started. -/
def handleGossipSyncStateResult (json : PeerJson) (env : Nat → Env) (states : List NodeState) : NodeHost V :=
  syncLoop json env (n.existingValues states) n states

/-! ## Callbacks of the peers -/

/-- A callback of the `k`-th peer has turned `h` into `h'`. The in-memory store holds the peer's own
`PeerInfo`; `AppendEntry` ends with `_peerStore.Update(Info)`. -/
def setPeer (k : Nat) (h h' : PeerHost V) : NodeHost V :=
  { n with
    peers := n.peers.set k h'
    peerInfoStore :=
      match n.peerInfoStore with
      | .inMemory peerInfos => .inMemory (peerInfos.set k h'.info)
      | .rocksDB store =>
        if h.logRecords.length < h'.logRecords.length then .update h'.info (.rocksDB store) else .rocksDB store }

end

/-! ## What starts peers starts new ones -/

section
variable {V : Type*} {n : NodeHost V}

/-- A peer for each topic of a list, in turn. -/
def startPeers (env : Nat → Env) (n : NodeHost V) (topics : List String) : NodeHost V :=
  topics.foldl (fun n termId => n.startPeer (env n.peers.length) termId) n

/-- The topics of the PEER entities among `states` that the store lacks when the loop gets to them,
up to the first one whose value is no peer. -/
def missingTopics (json : PeerJson) (existingValues : NodeStateStore → List NodeState) :
    NodeStateStore → List NodeState → List String
  | _, [] => []
  | store, state :: states =>
    if isMissing (existingValues store) state then
      if state.entityType = StandardEntityTypes.peer then
        match json.deserialize state.value with
        | none => []
        | some termId => termId :: missingTopics json existingValues (store.add state) states
      else missingTopics json existingValues (store.add state) states
    else missingTopics json existingValues store states

/-- The nodes have the same options, peers and stored infos. -/
structure SamePeers (n n' : NodeHost V) : Prop where
  nodeOptions : n'.nodeOptions = n.nodeOptions
  peerOptions : n'.peerOptions = n.peerOptions
  peers : n'.peers = n.peers
  peerInfoStore : n'.peerInfoStore = n.peerInfoStore

theorem SamePeers.startPeer {n n' : NodeHost V} (same : SamePeers n n') (env : Env) (termId : String) :
    SamePeers (n.startPeer env termId) (n'.startPeer env termId) := by
  constructor <;> simp [NodeHost.startPeer, same.nodeOptions, same.peerOptions, same.peers, same.peerInfoStore]

/-- The loop starts a peer for each missing topic and does nothing else to the peers. -/
theorem syncLoop_peers (json : PeerJson) (env : Nat → Env) (existingValues : NodeStateStore → List NodeState)
    (states : List NodeState) {n m : NodeHost V} (same : SamePeers m n) :
    SamePeers (startPeers env m (missingTopics json existingValues n.nodeStateStore states))
      (syncLoop json env existingValues n states) := by
  induction states generalizing n m with
  | nil => exact same
  | cons state states ih =>
    have added : SamePeers m (n.addNodeState state) := ⟨same.1, same.2, same.3, same.4⟩
    unfold syncLoop missingTopics
    split
    · split
      · cases json.deserialize state.value with
        | none => exact added
        | some termId =>
          have started := added.startPeer (env m.peers.length) termId
          rw [show m.peers.length = n.peers.length by rw [same.peers]] at started
          have rest := ih started
          simp only [startPeers, List.foldl_cons] at rest ⊢
          rwa [show m.peers.length = n.peers.length by rw [same.peers]]
      · exact ih added
    · exact ih same

/-- The topics a `GossipSyncStateResult` makes the node start. -/
def topicsToStart (json : PeerJson) (states : List NodeState) (n : NodeHost V) : List String :=
  missingTopics json (n.existingValues states) n.nodeStateStore states

theorem handleGossipSyncStateResult_peers (json : PeerJson) (env : Nat → Env) (states : List NodeState) :
    SamePeers (startPeers env n (n.topicsToStart json states)) (n.handleGossipSyncStateResult json env states) :=
  syncLoop_peers json env _ states ⟨rfl, rfl, rfl, rfl⟩

@[simp] theorem startPeer_termIds (env : Env) (termId : String) :
    (n.startPeer env termId).termIds = n.termIds ++ [termId] := by
  simp [termIds, startPeer, PeerHost.start, PeerHost.startCheckLeaderHeartbeat]

@[simp] theorem startPeers_termIds (env : Nat → Env) (topics : List String) :
    (startPeers env n topics).termIds = n.termIds ++ topics := by
  induction topics generalizing n with
  | nil => simp [startPeers]
  | cons termId topics ih =>
    have rest := ih (n := n.startPeer (env n.peers.length) termId)
    rw [startPeer_termIds, List.append_assoc] at rest
    exact rest

/-- A node finds a peer for exactly the topics it hosts, and the peer it finds is one of the topic. -/
theorem findPeer_eq_none {termId : String} : n.findPeer termId = none ↔ termId ∉ n.termIds := by
  simp [findPeer, termIds, List.findIdx?_eq_none_iff]

theorem findPeer_eq_some {termId : String} {k : Nat} (found : n.findPeer termId = some k) :
    ∃ h, n.peers[k]? = some h ∧ h.info.termId = termId := by
  obtain ⟨inside, same, _⟩ := List.findIdx?_eq_some_iff_getElem.mp found
  exact ⟨n.peers[k], List.getElem?_eq_getElem inside, by simpa using same⟩

end

end NodeHost

end FaasNet.RaftConsensus
