import FaasNet.EventMesh.EventMeshNode
import FaasNet.RaftConsensus.Conservation

/-!
# The nodes of a mesh and the network between them

A publish sends its message to a node of the cluster store, the node hands it to the first of its
peers with that topic over the loopback, and a peer appends, forwards or buffers it. The network
loses nothing: every datagram stays in flight until it is delivered, and every send returns. The
state also keeps a history no handler reads: who sent a datagram, which publishes were answered with
SUCCESS, and which records peers appended for a client.
-/

namespace FaasNet.EventMesh

open FaasNet.Lib FaasNet.RaftConsensus

/-- The nodes of a mesh. Each is reached under the address its peers write in their packages, and
under the one it registers in the cluster store. -/
structure Mesh (ι : Type*) extends Cluster ι where
  locate_exposed : ∀ i, locate ⟨(nodeOptions i).exposedUrl, (nodeOptions i).exposedPort⟩ = some i

/-- A datagram in flight to a node. `src` is history: the node of the peer that sent it, none when a
publish did. -/
structure Datagram (ι V : Type*) where
  dst : ι
  pkg : ConsensusPackage V
  src : Option ι

/-- A package on its way from a node to one of its peers. -/
structure Loopback (ι V : Type*) where
  node : ι
  peer : Nat
  pkg : ConsensusPackage V

/-- A record that a peer appended for a client, with the topic of the peer. -/
structure Appended (ι V : Type*) where
  node : ι
  peer : Nat
  topic : String
  record : LogRecord V

/-- The nodes, what is in flight, and the history. -/
structure MeshState (ι V : Type*) where
  nodes : ι → NodeHost V
  datagrams : List (Datagram ι V) := []
  loopbacks : List (Loopback ι V) := []
  acknowledged : List (String × V) := []
  appended : List (Appended ι V) := []

/-- What can happen in a mesh. A publish comes with the nodes the cluster store answers with; the
`k` of `route` and `receive` is a position in what is in flight. -/
inductive MeshAction (ι V : Type*) where
  | publish (i : ι) (env : PublishEnv) (nodes : Option (List ι)) (topic : String) (value : V)
  | gossipAddPeerRequest (i : ι) (env : Env) (entityId termId : String)
  | gossipSyncStateResult (i : ι) (env : Nat → Env) (states : List NodeState)
  | route (k : Nat)
  | receive (k : Nat) (env : Env)
  | elapsed (i : ι) (k : Nat) (env : Env) (timer : PeerTimer) (queued : Bool)

/-- The action is one of the two gossip requests. -/
def MeshAction.isGossip {ι V : Type*} : MeshAction ι V → Bool
  | .gossipAddPeerRequest _ _ _ _ | .gossipSyncStateResult _ _ _ => true
  | _ => false

/-- Surroundings whose network loses nothing. -/
def lossless (env : Env) : Env := { env with send := fun _ => true }

namespace Mesh

section
variable {ι V : Type*} (M : Mesh ι)

/-- The address node `i` registers in the cluster store. -/
def exposed (i : ι) : ClusterNode := ⟨(M.nodeOptions i).exposedUrl, (M.nodeOptions i).exposedPort⟩

/-- All nodes have just been started, over the stores they have. -/
def start (peerOptions : ι → ConsensusPeerOptions) (peerInfoStore : ι → PeerInfoStore)
    (nodeStateStore : ι → NodeStateStore) (env : ι → Nat → Env) : MeshState ι V where
  nodes := fun i => EventMeshNode.start (M.nodeOptions i) (peerOptions i) (peerInfoStore i) (nodeStateStore i) (env i)

/-- What was sent, on its way to the nodes that listen there. -/
def post (src : Option ι) (sent : Sent V) : List (Datagram ι V) :=
  sent.filterMap fun p => (M.locate p.1).map fun dst => ⟨dst, p.2, src⟩

/-- The surroundings of a publish, with the addresses of the nodes the cluster store answered with. -/
def publishEnv (env : PublishEnv) (nodes : Option (List ι)) : PublishEnv :=
  { env with getAllNodes := nodes.map fun l => l.map M.exposed }

variable [DecidableEq ι]

/-- A publish on node `i`. What the peer it may create holds was appended for the client. -/
def publish (json : PeerJson) (s : MeshState ι V) (i : ι) (env : PublishEnv) (topic : String) (value : V) :
    MeshState ι V :=
  let n := s.nodes i
  let published := EventMeshNode.handlePublish json n env topic value
  { s with
    nodes := Function.update s.nodes i published.node
    datagrams := s.datagrams ++ M.post none published.sent
    acknowledged :=
      match published.answer with
      | .ok () => s.acknowledged ++ [(topic, value)]
      | .error _ => s.acknowledged
    appended := s.appended ++ (published.node.peers.drop n.peers.length).flatMap fun h =>
      h.logRecords.map fun r => ⟨i, n.peers.length, h.info.termId, r⟩ }

/-- `TryHandleConsensusRequest` on the datagram `d`, which is no longer in `s.datagrams`. -/
def tryHandleConsensusRequest (s : MeshState ι V) (d : Datagram ι V) : MeshState ι V :=
  match (s.nodes d.dst).findPeer d.pkg.header.termId with
  | none => s
  | some peer => { s with loopbacks := s.loopbacks ++ [⟨d.dst, peer, d.pkg⟩] }

/-- The `k`-th peer of node `i` ends a callback with `result`. -/
def finish (s : MeshState ι V) (i : ι) (k : Nat) (h : PeerHost V) (result : PeerHost V × Sent V)
    (accepted : List (LogRecord V)) : MeshState ι V :=
  { s with
    nodes := Function.update s.nodes i ((s.nodes i).setPeer k h result.1)
    datagrams := s.datagrams ++ M.post (some i) result.2
    appended := s.appended ++ accepted.map fun r => ⟨i, k, h.info.termId, r⟩ }

/-- One action of the mesh. -/
def step [DecidableEq V] (json : PeerJson) (s : MeshState ι V) : MeshAction ι V → Option (MeshState ι V)
  | .publish i env nodes topic value => some (M.publish json s i (M.publishEnv env nodes) topic value)
  | .gossipAddPeerRequest i env entityId termId =>
    some { s with
      nodes := Function.update s.nodes i ((s.nodes i).handleGossipAddPeerRequest json env entityId termId) }
  | .gossipSyncStateResult i env states =>
    some { s with nodes := Function.update s.nodes i ((s.nodes i).handleGossipSyncStateResult json env states) }
  | .route k =>
    (s.datagrams[k]?).map fun d => tryHandleConsensusRequest { s with datagrams := s.datagrams.eraseIdx k } d
  | .receive k env =>
    (s.loopbacks[k]?).bind fun l => ((s.nodes l.node).peers[l.peer]?).map fun h =>
      let result := h.handleRaftConsensusPackage (lossless env) l.pkg
      M.finish { s with loopbacks := s.loopbacks.eraseIdx k } l.node l.peer h result (h.acceptedFrom l.pkg result.1)
  | .elapsed i k env timer queued =>
    ((s.nodes i).peers[k]?).bind fun h =>
      if queued ∨ h.armed timer then some (M.finish s i k h (h.elapsed (lossless env) timer queued) [])
      else none

end

end Mesh

/-! ## What happens to the peers of a node -/

namespace EventMeshNode

section
variable {V : Type*}

/-- A peer that has heard of no leader and buffered nothing. -/
structure Silent (nodeOptions : ConsensusNodeOptions) (h : PeerHost V) : Prop where
  nodeOptions : h.nodeOptions = nodeOptions
  leader : h.activeLeader = none
  buffer : h.appendEntryRequestLst = []

/-- A peer that starts sends nothing. -/
theorem start_silent (nodeOptions : ConsensusNodeOptions) (peerOptions : ConsensusPeerOptions) (info : PeerInfo)
    (env : Env) : Silent (V := V) nodeOptions (.start nodeOptions peerOptions info env) := ⟨rfl, rfl, rfl⟩

/-- The node `n'` is `n` with silent peers behind its own. -/
structure StartsPeers (n : NodeHost V) (new : List (PeerHost V)) (n' : NodeHost V) : Prop where
  nodeOptions : n'.nodeOptions = n.nodeOptions
  peers : n'.peers = n.peers ++ new
  silent : ∀ h ∈ new, Silent n.nodeOptions h

/-- New topics start new peers. -/
theorem startPeers_starts (n : NodeHost V) (env : Nat → Env) (topics : List String) :
    ∃ new, StartsPeers n new (NodeHost.startPeers env n topics) := by
  induction topics generalizing n with
  | nil => exact ⟨[], rfl, by simp [NodeHost.startPeers], by simp⟩
  | cons termId topics ih =>
    obtain ⟨new, rest⟩ := ih (n.startPeer (env n.peers.length) termId)
    let first : PeerHost V := .start n.nodeOptions n.peerOptions ⟨termId, 0, 0⟩ (env n.peers.length)
    refine ⟨first :: new, rest.nodeOptions, ?_, ?_⟩
    · rw [NodeHost.startPeers, List.foldl_cons]
      exact rest.peers.trans (List.append_assoc _ _ _)
    · intro h member
      rcases List.mem_cons.mp member with rfl | later
      · exact start_silent _ _ _ _
      · exact rest.silent h later

/-- Peers that arrive are started. -/
theorem handleGossipSyncStateResult_starts (n : NodeHost V) (json : PeerJson) (env : Nat → Env)
    (states : List NodeState) : ∃ new, StartsPeers n new (n.handleGossipSyncStateResult json env states) := by
  obtain ⟨new, started⟩ := startPeers_starts n env (n.topicsToStart json states)
  have same := NodeHost.handleGossipSyncStateResult_peers (n := n) json env states
  exact ⟨new, same.nodeOptions.trans started.nodeOptions, same.peers.trans started.peers, started.silent⟩

/-- An ADD_PEER leaves a peer of the topic that holds the record. -/
theorem handleAddPeer_starts (n : NodeHost V) (json : PeerJson) (env : PublishEnv) (termid : String)
    (logRecord : LogRecord V) :
    ∃ peer, StartsPeers n [peer] (handleAddPeer json env n termid logRecord) ∧ peer.info.termId = termid ∧
      peer.logRecords = [logRecord] := by
  refine ⟨(PeerHost.start n.nodeOptions n.peerOptions ⟨termid, 0, 0⟩ env.toEnv).appendEntry logRecord,
    ⟨rfl, ?_, ?_⟩, rfl, rfl⟩
  · simp [handleAddPeer, NodeHost.setPeer, NodeHost.startPeer, NodeHost.addPeer]
  · intro h member
    rw [List.mem_singleton.mp member]
    exact ⟨rfl, rfl, rfl⟩

/-- The peers of `n` are at their positions in `n'`, with their topics and all they had logged. -/
def Keeps (n n' : NodeHost V) : Prop :=
  ∀ (k : Nat) (h : PeerHost V), n.peers[k]? = some h →
    ∃ h', n'.peers[k]? = some h' ∧ PeerHost.SameIdentity h h' ∧ h.logRecords <+: h'.logRecords

theorem Keeps.rfl {n : NodeHost V} : Keeps n n := fun _ h found => ⟨h, found, ⟨.refl _, .refl _⟩, List.prefix_rfl⟩

/-- A topic stays hosted. -/
theorem Keeps.termIds {n n' : NodeHost V} (keeps : Keeps n n') {topic : String} (hosted : topic ∈ n.termIds) :
    topic ∈ n'.termIds := by
  obtain ⟨h, member, rfl⟩ := List.mem_map.mp hosted
  obtain ⟨k, found⟩ := List.mem_iff_getElem?.mp member
  obtain ⟨h', found', same, _⟩ := keeps k h found
  exact List.mem_map.mpr ⟨h', List.mem_of_getElem? found', same.termId⟩

/-- New peers leave the others as they are. -/
theorem StartsPeers.keeps {n n' : NodeHost V} {new : List (PeerHost V)} (started : StartsPeers n new n') :
    Keeps n n' := by
  intro k h found
  refine ⟨h, ?_, ⟨rfl, rfl⟩, List.prefix_rfl⟩
  rw [started.peers, List.getElem?_append_left (List.getElem?_eq_some_iff.mp found).1, found]

/-- A peer that only appends keeps what the node hosts. -/
theorem setPeer_keeps {n : NodeHost V} {k : Nat} {h h' : PeerHost V} (found : n.peers[k]? = some h)
    (same : PeerHost.SameIdentity h h') (grown : h.logRecords <+: h'.logRecords) : Keeps n (n.setPeer k h h') := by
  intro j g there
  by_cases equal : k = j
  · subst equal
    obtain rfl : h = g := Option.some.inj (found.symm.trans there)
    have inside := (List.getElem?_eq_some_iff.mp found).1
    exact ⟨h', by simp [NodeHost.setPeer, inside], same, grown⟩
  · exact ⟨g, by simpa [NodeHost.setPeer, List.getElem?_set_ne equal] using there, ⟨rfl, rfl⟩, List.prefix_rfl⟩

end

end EventMeshNode

namespace Mesh

section
variable {ι V : Type*} (M : Mesh ι)

/-- What is posted is what was sent to an address that is located. -/
theorem mem_post {src : Option ι} {sent : Sent V} {d : Datagram ι V} :
    d ∈ M.post src sent ↔ ∃ p ∈ sent, M.locate p.1 = some d.dst ∧ d = ⟨d.dst, p.2, src⟩ := by
  simp only [post, List.mem_filterMap, Option.map_eq_some_iff]
  constructor
  · rintro ⟨p, member, dst, located, rfl⟩
    exact ⟨p, member, located, rfl⟩
  · rintro ⟨p, member, located, same⟩
    exact ⟨p, member, d.dst, located, same.symm⟩

/-! ## What one action can do -/

variable [DecidableEq ι]

/-- The outcomes of an action, with the effect on the node or the peer that takes it. -/
inductive Step (s : MeshState ι V) : MeshAction ι V → MeshState ι V → Prop where
  | refused (i : ι) (env : PublishEnv) (nodes : Option (List ι)) (topic : String) (value : V) :
      Step s (.publish i env nodes topic value) s
  | sent (i : ι) (env : PublishEnv) (nodes : Option (List ι)) (topic : String) (value : V) (dst : ι)
      (hosted : topic ∈ (s.nodes i).termIds) :
      Step s (.publish i env nodes topic value) { s with
        datagrams := s.datagrams ++ [⟨dst, ConsensusPackageRequestBuilder.appendEntry topic 0 value false, none⟩]
        acknowledged := s.acknowledged ++ [(topic, value)] }
  | created (i : ι) (env : PublishEnv) (nodes : Option (List ι)) (topic : String) (value : V)
      {n' : NodeHost V} {peer : PeerHost V} (started : EventMeshNode.StartsPeers (s.nodes i) [peer] n')
      (termId : peer.info.termId = topic) (log : peer.logRecords = [⟨1, value⟩]) :
      Step s (.publish i env nodes topic value) { s with
        nodes := Function.update s.nodes i n'
        acknowledged := s.acknowledged ++ [(topic, value)]
        appended := s.appended ++ [⟨i, (s.nodes i).peers.length, topic, ⟨1, value⟩⟩] }
  | gossip {a : MeshAction ι V} (isGossip : a.isGossip = true) (i : ι) {n' : NodeHost V} {new : List (PeerHost V)}
      (started : EventMeshNode.StartsPeers (s.nodes i) new n') :
      Step s a { s with nodes := Function.update s.nodes i n' }
  | dropped (k : Nat) (before after : List (Datagram ι V)) (d : Datagram ι V)
      (position : s.datagrams[k]? = some d) (split : s.datagrams = before ++ d :: after)
      (unknown : d.pkg.header.termId ∉ (s.nodes d.dst).termIds) :
      Step s (.route k) { s with datagrams := before ++ after }
  | routed (k : Nat) (before after : List (Datagram ι V)) (d : Datagram ι V)
      (position : s.datagrams[k]? = some d) (split : s.datagrams = before ++ d :: after)
      (peer : Nat) (h : PeerHost V) (found : (s.nodes d.dst).peers[peer]? = some h)
      (termId : h.info.termId = d.pkg.header.termId) :
      Step s (.route k) { s with
        datagrams := before ++ after
        loopbacks := s.loopbacks ++ [⟨d.dst, peer, d.pkg⟩] }
  | received (k : Nat) (env : Env) (before after : List (Loopback ι V)) (l : Loopback ι V)
      (split : s.loopbacks = before ++ l :: after) {h h' : PeerHost V} {sent : Sent V}
      (found : (s.nodes l.node).peers[l.peer]? = some h)
      (effect : PeerHost.PackageEffect (lossless env) h l.pkg h' sent) :
      Step s (.receive k env)
        (M.finish { s with loopbacks := before ++ after } l.node l.peer h (h', sent) (h.acceptedFrom l.pkg h'))
  | elapsed (i : ι) (k : Nat) (env : Env) (timer : PeerTimer) (queued : Bool) {h h' : PeerHost V} {sent : Sent V}
      (found : (s.nodes i).peers[k]? = some h) (effect : PeerHost.TimerEffect (lossless env) h h' sent) :
      Step s (.elapsed i k env timer queued) (M.finish s i k h (h', sent) [])

/-- A publication is a step of the mesh. -/
theorem publish_cases (json : PeerJson) (s : MeshState ι V) (i : ι) (env : PublishEnv) (nodes : Option (List ι))
    (topic : String) (value : V) :
    M.Step s (.publish i env nodes topic value) (M.publish json s i (M.publishEnv env nodes) topic value) := by
  have effect := EventMeshNode.publish_effect json (s.nodes i) (M.publishEnv env nodes) topic value
  dsimp only [publish]
  generalize EventMeshNode.handlePublish json (s.nodes i) (M.publishEnv env nodes) topic value = published at effect ⊢
  cases effect with
  | refused error => simpa [post] using Step.refused i env nodes topic value
  | sent addresses target hosted answer among =>
    -- the target is the address a node of the mesh registered
    obtain ⟨l, rfl, same⟩ := Option.map_eq_some_iff.mp answer
    obtain ⟨dst, _, rfl⟩ := List.mem_map.mp (same ▸ among)
    have located : M.locate (M.exposed dst) = some dst := M.locate_exposed dst
    simpa [post, located] using Step.sent i env (some l) topic value dst hosted
  | created unknown =>
    obtain ⟨peer, started, termId, log⟩ :=
      EventMeshNode.handleAddPeer_starts (s.nodes i) json (M.publishEnv env nodes) topic ⟨1, value⟩
    have outcome : M.Step s _ _ := .created i env nodes topic value started termId log
    simpa [post, started.peers, log, termId] using outcome

/-- **Every action has one of the listed outcomes.** -/
theorem step_cases [DecidableEq V] {json : PeerJson} {s t : MeshState ι V} {a : MeshAction ι V}
    (taken : M.step json s a = some t) : M.Step s a t := by
  cases a with
  | publish i env nodes topic value =>
    obtain rfl := Option.some.inj taken
    exact M.publish_cases json s i env nodes topic value
  | gossipAddPeerRequest i env entityId termId =>
    obtain rfl := Option.some.inj taken
    obtain ⟨new, started⟩ := EventMeshNode.startPeers_starts (s.nodes i) (fun _ => env) [termId]
    exact .gossip rfl i ⟨started.nodeOptions, started.peers, started.silent⟩
  | gossipSyncStateResult i env states =>
    obtain rfl := Option.some.inj taken
    obtain ⟨new, started⟩ := EventMeshNode.handleGossipSyncStateResult_starts (s.nodes i) json env states
    exact .gossip rfl i started
  | route k =>
    obtain ⟨d, position, rfl⟩ := Option.map_eq_some_iff.mp taken
    obtain ⟨split, erased⟩ := eraseIdx_split position
    unfold tryHandleConsensusRequest
    rw [erased]
    split
    next absent => exact .dropped k _ _ d position split (NodeHost.findPeer_eq_none.mp absent)
    next peer present =>
      obtain ⟨h, found, termId⟩ := NodeHost.findPeer_eq_some present
      exact .routed k _ _ d position split peer h found termId
  | receive k env =>
    obtain ⟨l, position, handled⟩ := Option.bind_eq_some_iff.mp taken
    obtain ⟨h, found, rfl⟩ := Option.map_eq_some_iff.mp handled
    obtain ⟨split, erased⟩ := eraseIdx_split position
    dsimp only
    rw [erased]
    exact .received k env _ _ l split found (PeerHost.package_effect (lossless env) h l.pkg)
  | elapsed i k env timer queued =>
    obtain ⟨h, found, fires⟩ := Option.bind_eq_some_iff.mp taken
    obtain ⟨_, made⟩ := Option.ite_none_right_eq_some.mp fires
    obtain rfl := Option.some.inj made
    exact .elapsed i k env timer queued found (PeerHost.elapsed_effect (lossless env) h timer queued)

section
variable {M}
variable {s t : MeshState ι V} {a : MeshAction ι V}

/-- A node that keeps its peers lets the others be. -/
theorem update_keeps {i : ι} {n' : NodeHost V} (keeps : EventMeshNode.Keeps (s.nodes i) n') (j : ι) :
    EventMeshNode.Keeps (s.nodes j) (Function.update s.nodes i n' j) := by
  by_cases same : j = i
  · subst same
    simpa using keeps
  · rw [Function.update_of_ne same]
    exact .rfl

/-- Every node keeps its peers. -/
theorem Step.keeps (taken : M.Step s a t) (j : ι) : EventMeshNode.Keeps (s.nodes j) (t.nodes j) := by
  cases taken with
  | refused | sent | dropped | routed => exact .rfl
  | created _ _ _ _ _ started | gossip _ _ started => exact update_keeps started.keeps j
  | received k env before after l split found effect =>
    exact update_keeps (EventMeshNode.setPeer_keeps found effect.identity (PeerHost.package_grows effect).log) j
  | elapsed i k env timer queued found effect =>
    have log := (PeerHost.timer_grows effect).1
    exact update_keeps (EventMeshNode.setPeer_keeps found effect.identity (log ▸ List.prefix_rfl)) j

/-- Every node keeps its options. -/
theorem Step.nodeOptions (taken : M.Step s a t) (j : ι) : (t.nodes j).nodeOptions = (s.nodes j).nodeOptions := by
  have updated (i : ι) (n' : NodeHost V) (same : n'.nodeOptions = (s.nodes i).nodeOptions) :
      (Function.update s.nodes i n' j).nodeOptions = (s.nodes j).nodeOptions := by
    by_cases equal : j = i
    · subst equal
      simpa using same
    · rw [Function.update_of_ne equal]
  cases taken with
  | refused | sent | dropped | routed => rfl
  | created _ _ _ _ _ started | gossip _ _ started => exact updated _ _ started.nodeOptions
  | received | elapsed => exact updated _ _ rfl

/-- A peer either is as before, or is new, or took the action. -/
theorem Step.peer (taken : M.Step s a t) {j : ι} {h' : PeerHost V} (member : h' ∈ (t.nodes j).peers) :
    h' ∈ (s.nodes j).peers ∨ EventMeshNode.Silent (s.nodes j).nodeOptions h' ∨
    (∃ h env sent, h ∈ (s.nodes j).peers ∧ PeerHost.TimerEffect env h h' sent) ∨
    ∃ l h env sent, l ∈ s.loopbacks ∧ l.node = j ∧ (s.nodes j).peers[l.peer]? = some h ∧
      PeerHost.PackageEffect env h l.pkg h' sent := by
  have elsewhere {i : ι} {n' : NodeHost V} (member : h' ∈ (Function.update s.nodes i n' j).peers) (other : j ≠ i) :
      h' ∈ (s.nodes j).peers := by rwa [Function.update_of_ne other] at member
  have started {i : ι} {new : List (PeerHost V)} {n' : NodeHost V} (started : EventMeshNode.StartsPeers (s.nodes i) new n')
      (member : h' ∈ (Function.update s.nodes i n' j).peers) :
      h' ∈ (s.nodes j).peers ∨ EventMeshNode.Silent (s.nodes j).nodeOptions h' := by
    by_cases same : j = i
    swap
    · exact .inl (elsewhere member same)
    subst same
    rw [Function.update_self, started.peers] at member
    exact (List.mem_append.mp member).imp id (started.silent h')
  cases taken with
  | refused | sent | dropped | routed => exact .inl member
  | created i env nodes topic value begins | gossip isGossip i begins =>
    exact (started begins member).imp id .inl
  | @received k env before after l split h g sent found effect =>
    by_cases same : j = l.node
    swap
    · exact .inl (elsewhere member same)
    subst same
    simp only [finish, Function.update_self, NodeHost.setPeer] at member
    rcases List.mem_or_eq_of_mem_set member with old | rfl
    · exact .inl old
    · exact .inr (.inr (.inr ⟨l, h, _, _, by simp [split], rfl, found, effect⟩))
  | @elapsed i k env timer queued h g sent found effect =>
    by_cases same : j = i
    swap
    · exact .inl (elsewhere member same)
    subst same
    simp only [finish, Function.update_self, NodeHost.setPeer] at member
    rcases List.mem_or_eq_of_mem_set member with old | rfl
    · exact .inl old
    · exact .inr (.inr (.inl ⟨h, _, _, List.mem_of_getElem? found, effect⟩))

/-- Where a datagram in flight after an action comes from. -/
theorem Step.datagram (taken : M.Step s a t) {d : Datagram ι V} (member : d ∈ t.datagrams) :
    d ∈ s.datagrams ∨
    (∃ topic value, d.pkg = ConsensusPackageRequestBuilder.appendEntry topic 0 value false ∧ d.src = none) ∨
    (∃ i h h' env sent, h ∈ (s.nodes i).peers ∧ PeerHost.TimerEffect env h h' sent ∧ d ∈ M.post (some i) sent) ∨
    ∃ l h h' env sent, l ∈ s.loopbacks ∧ (s.nodes l.node).peers[l.peer]? = some h ∧
      PeerHost.PackageEffect env h l.pkg h' sent ∧ d ∈ M.post (some l.node) sent := by
  cases taken with
  | refused | created | gossip => exact .inl member
  | sent i env nodes topic value dst hosted =>
    rcases List.mem_append.mp member with old | new
    · exact .inl old
    · rw [List.mem_singleton.mp new]
      exact .inr (.inl ⟨topic, value, rfl, rfl⟩)
  | dropped k before after e position split | routed k before after e position split =>
    exact .inl (split ▸ mem_of_mem_erased member)
  | @received k env before after l split h h' sent found effect =>
    rcases List.mem_append.mp member with old | posted
    · exact .inl old
    · exact .inr (.inr (.inr ⟨l, h, h', _, sent, by simp [split], found, effect, posted⟩))
  | @elapsed i k env timer queued h h' sent found effect =>
    rcases List.mem_append.mp member with old | posted
    · exact .inl old
    · exact .inr (.inr (.inl ⟨i, h, h', _, sent, List.mem_of_getElem? found, effect, posted⟩))

/-- A package on its way to a peer came to the node in a datagram, and the peer is of its topic. -/
theorem Step.loopback (taken : M.Step s a t) {l : Loopback ι V} (member : l ∈ t.loopbacks) :
    l ∈ s.loopbacks ∨ ∃ d h, d ∈ s.datagrams ∧ l.node = d.dst ∧ l.pkg = d.pkg ∧
      (s.nodes d.dst).peers[l.peer]? = some h ∧ h.info.termId = d.pkg.header.termId := by
  cases taken with
  | refused | sent | created | gossip | dropped | elapsed => exact .inl member
  | routed k before after d position split peer h found termId =>
    rcases List.mem_append.mp member with old | new
    · exact .inl old
    · rw [List.mem_singleton.mp new]
      exact .inr ⟨d, h, List.mem_of_getElem? position, rfl, rfl, found, termId⟩
  | received k env before after e split =>
    exact .inl (split ▸ mem_of_mem_erased member)

end

/-! ## Addresses and topics -/

/-- The address is the one of a node that hosts the topic. -/
def Hosted (s : MeshState ι V) (address : ClusterNode) (topic : String) : Prop :=
  ∃ j, address = M.addr j ∧ topic ∈ (s.nodes j).termIds

/-- If the package is a heartbeat, it comes from a node that hosts its topic. -/
def Heard (s : MeshState ι V) (pkg : ConsensusPackage V) : Prop :=
  ∀ header, pkg = .leaderHeartbeatRequest header → M.Hosted s header.source header.termId

/-- Peers write the address of their node, follow peers of their own topic, and hold requests of
their own topic; what a node hands to a peer is of the topic of that peer, and what a peer forwards
goes to a node that hosts the topic. -/
structure Wired (s : MeshState ι V) : Prop where
  node : ∀ i, (s.nodes i).nodeOptions = M.nodeOptions i
  peer : ∀ i, ∀ h ∈ (s.nodes i).peers, h.nodeOptions = M.nodeOptions i
  datagram : ∀ d ∈ s.datagrams, M.Heard s d.pkg
  loopback : ∀ l ∈ s.loopbacks, M.Heard s l.pkg
  addressed : ∀ l ∈ s.loopbacks, ∃ h, (s.nodes l.node).peers[l.peer]? = some h ∧ h.info.termId = l.pkg.header.termId
  leader : ∀ i, ∀ h ∈ (s.nodes i).peers, ∀ leader, h.activeLeader = some leader → M.Hosted s leader.node h.info.termId
  buffer : ∀ i, ∀ h ∈ (s.nodes i).peers, ∀ request ∈ h.appendEntryRequestLst,
    request.isProxified = false ∧ request.header.termId = h.info.termId
  published : ∀ d ∈ s.datagrams, d.src = none →
    ∃ topic value, d.pkg = ConsensusPackageRequestBuilder.appendEntry topic 0 value false
  forwarded : ∀ d ∈ s.datagrams, d.src ≠ none → d.pkg.clientValues ≠ [] →
    d.pkg.header.termId ∈ (s.nodes d.dst).termIds

variable {M}
variable {s t : MeshState ι V} {a : MeshAction ι V}

omit [DecidableEq ι] in
/-- A mesh that starts is wired. -/
theorem start_wired (peerOptions : ι → ConsensusPeerOptions) (peerInfoStore : ι → PeerInfoStore)
    (nodeStateStore : ι → NodeStateStore) (env : ι → Nat → Env) :
    M.Wired (M.start (V := V) peerOptions peerInfoStore nodeStateStore env) := by
  have silent (i : ι) : ∀ h ∈ ((M.start (V := V) peerOptions peerInfoStore nodeStateStore env).nodes i).peers,
      EventMeshNode.Silent (M.nodeOptions i) h := by
    intro h member
    obtain ⟨k, inside, rfl⟩ := List.mem_mapIdx.mp member
    exact EventMeshNode.start_silent _ _ _ _
  constructor
  case node => exact fun i => rfl
  case peer => exact fun i h member => (silent i h member).nodeOptions
  case leader =>
    intro i h member leader known
    rw [(silent i h member).leader] at known
    cases known
  case buffer =>
    intro i h member request buffered
    rw [(silent i h member).buffer] at buffered
    cases buffered
  all_goals simp [start]

/-- A topic stays hosted at its address. -/
theorem Hosted.step (taken : M.Step s a t) {address : ClusterNode} {topic : String}
    (hosted : M.Hosted s address topic) : M.Hosted t address topic := by
  obtain ⟨j, same, there⟩ := hosted
  exact ⟨j, same, (taken.keeps j).termIds there⟩

omit [DecidableEq ι] in
/-- A package in flight has the topic of its peer. -/
theorem Wired.topic (wired : M.Wired s) {l : Loopback ι V} (inFlight : l ∈ s.loopbacks) {h : PeerHost V}
    (found : (s.nodes l.node).peers[l.peer]? = some h) : h.info.termId = l.pkg.header.termId := by
  obtain ⟨g, there, topic⟩ := wired.addressed l inFlight
  obtain rfl : h = g := Option.some.inj (found.symm.trans there)
  exact topic

omit [DecidableEq ι] in
/-- A peer sends a client's request of its topic to a node that hosts the topic. -/
theorem Wired.answer_hosted (wired : M.Wired s) {l : Loopback ι V} (inFlight : l ∈ s.loopbacks) {h : PeerHost V}
    (found : (s.nodes l.node).peers[l.peer]? = some h) {p : ClusterNode × ConsensusPackage V}
    (answer : PeerHost.Answer h l.pkg p) (carries : p.2.clientValues ≠ []) :
    M.Hosted s p.1 h.info.termId ∧ p.2.header.termId = h.info.termId := by
  have member := List.mem_of_getElem? found
  have heard := wired.loopback l inFlight
  have termId := wired.topic inFlight found
  generalize l.pkg = pkg at answer heard termId
  cases answer with
  | flushed header request buffered =>
    have hosted : M.Hosted s header.source header.termId := heard header rfl
    have same : h.info.termId = header.termId := termId
    exact ⟨same ▸ hosted, (wired.buffer l.node h member request buffered).2⟩
  | forwarded request leader client known => exact ⟨wired.leader l.node h member leader known, termId.symm⟩
  | acknowledged | granted | refused | replicated => exact absurd rfl carries

/-- The heartbeats in flight come from nodes that host their topic. -/
theorem Wired.heard (wired : M.Wired s) (taken : M.Step s a t) {d : Datagram ι V} (member : d ∈ t.datagrams) :
    M.Heard t d.pkg := by
  intro header heartbeat
  rcases taken.datagram member with old | ⟨topic, value, pkg, _⟩ | ⟨i, h, h', env, sent, there, effect, posted⟩ |
    ⟨l, h, h', env, sent, inFlight, found, effect, posted⟩
  · exact (wired.datagram d old header heartbeat).step taken
  · rw [pkg] at heartbeat
    cases heartbeat
  · obtain ⟨p, among, _, made⟩ := M.mem_post.mp posted
    have pkg : p.2 = .leaderHeartbeatRequest header := by rw [← heartbeat, made]
    have source := effect.source among
    have topic := effect.topic among
    rw [pkg, wired.peer i h there] at source
    rw [pkg] at topic
    have hosted : header.termId ∈ (s.nodes i).termIds := by
      rw [show header.termId = h.info.termId from topic]
      exact List.mem_map_of_mem there
    exact Hosted.step taken ⟨i, source, hosted⟩
  · obtain ⟨p, among, _, made⟩ := M.mem_post.mp posted
    rw [made] at heartbeat
    generalize l.pkg = pkg at effect
    cases effect.answer among <;> cases heartbeat

/-- Each step keeps the mesh wired. -/
theorem Wired.step (wired : M.Wired s) (taken : M.Step s a t) : M.Wired t where
  node := fun i => (taken.nodeOptions i).trans (wired.node i)
  peer := by
    intro i h' member
    rcases taken.peer member with old | silent | ⟨h, env, sent, there, effect⟩ | ⟨l, h, env, sent, _, rfl, found, effect⟩
    · exact wired.peer i h' old
    · exact silent.nodeOptions.trans (wired.node i)
    · exact effect.identity.nodeOptions.trans (wired.peer i h there)
    · exact effect.identity.nodeOptions.trans (wired.peer _ h (List.mem_of_getElem? found))
  datagram := fun d member => wired.heard taken member
  loopback := by
    intro l member header heartbeat
    rcases taken.loopback member with old | ⟨d, h, inFlight, _, same, _, _⟩
    · exact (wired.loopback l old header heartbeat).step taken
    · exact (wired.datagram d inFlight header (same ▸ heartbeat)).step taken
  addressed := by
    intro l member
    have moved {h : PeerHost V} (found : (s.nodes l.node).peers[l.peer]? = some h)
        (topic : h.info.termId = l.pkg.header.termId) :
        ∃ h', (t.nodes l.node).peers[l.peer]? = some h' ∧ h'.info.termId = l.pkg.header.termId := by
      obtain ⟨h', found', same, _⟩ := taken.keeps l.node l.peer h found
      exact ⟨h', found', same.termId.trans topic⟩
    rcases taken.loopback member with old | ⟨d, h, _, node, pkg, found, topic⟩
    · obtain ⟨h, found, topic⟩ := wired.addressed l old
      exact moved found topic
    · exact moved (node ▸ found) (pkg ▸ topic)
  leader := by
    intro i h' member leader known
    rcases taken.peer member with
      old | silent | ⟨h, env, sent, there, effect⟩ | ⟨l, h, env, sent, inFlight, rfl, found, effect⟩
    · exact (wired.leader i h' old leader known).step taken
    · rw [silent.leader] at known
      cases known
    · rw [effect.identity.termId]
      exact (wired.leader i h there leader (effect.keeps_leader ▸ known)).step taken
    · rw [effect.identity.termId]
      rcases effect.activeLeader with same | ⟨header, leader', pkg, new, source⟩
      · exact (wired.leader _ h (List.mem_of_getElem? found) leader (same ▸ known)).step taken
      · obtain rfl : leader = leader' := Option.some.inj (known.symm.trans new)
        rw [source, wired.topic inFlight found, pkg]
        exact (wired.loopback l inFlight header pkg).step taken
  buffer := by
    intro i h' member request buffered
    rcases taken.peer member with
      old | silent | ⟨h, env, sent, there, effect⟩ | ⟨l, h, env, sent, inFlight, rfl, found, effect⟩
    · exact wired.buffer i h' old request buffered
    · rw [silent.buffer] at buffered
      cases buffered
    · rw [effect.identity.termId]
      exact wired.buffer i h there request (effect.keeps_buffer ▸ buffered)
    · rw [effect.identity.termId]
      rcases effect.mem_buffer buffered with old | ⟨pkg, client⟩
      · exact wired.buffer _ h (List.mem_of_getElem? found) request old
      · rw [wired.topic inFlight found, pkg]
        exact ⟨client, rfl⟩
  published := by
    intro d member unsent
    rcases taken.datagram member with old | ⟨topic, value, pkg, _⟩ | ⟨i, h, h', env, sent, there, effect, posted⟩ |
      ⟨l, h, h', env, sent, inFlight, found, effect, posted⟩
    · exact wired.published d old unsent
    · exact ⟨topic, value, pkg⟩
    · obtain ⟨p, _, _, made⟩ := M.mem_post.mp posted
      rw [made] at unsent
      cases unsent
    · obtain ⟨p, _, _, made⟩ := M.mem_post.mp posted
      rw [made] at unsent
      cases unsent
  forwarded := by
    intro d member byPeer carries
    rcases taken.datagram member with old | ⟨topic, value, pkg, byPublish⟩ | ⟨i, h, h', env, sent, there, effect, posted⟩ |
      ⟨l, h, h', env, sent, inFlight, found, effect, posted⟩
    · exact (taken.keeps d.dst).termIds (wired.forwarded d old byPeer carries)
    · exact absurd byPublish byPeer
    · obtain ⟨p, among, _, made⟩ := M.mem_post.mp posted
      rw [made] at carries
      exact absurd (List.flatMap_eq_nil_iff.mp effect.sends_no_value p among) carries
    · obtain ⟨p, among, located, made⟩ := M.mem_post.mp posted
      have pkg : d.pkg = p.2 := by rw [made]
      rw [pkg] at carries ⊢
      obtain ⟨⟨j, target, hosted⟩, topic⟩ := wired.answer_hosted inFlight found (effect.answer among) carries
      obtain rfl : d.dst = j := by
        rw [target, M.locate_addr] at located
        exact (Option.some.inj located).symm
      rw [topic]
      exact (taken.keeps d.dst).termIds hosted

end

end Mesh

end FaasNet.EventMesh
