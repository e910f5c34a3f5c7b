import FaasNet.Lib.Runs
import FaasNet.EventMesh.EventMeshNode

/-!
# One peer per topic

A publish looks for a peer of its topic before it creates one; the two gossip handlers do not. A
run keeps one peer for each topic, in `_peers` and in the `IPeerInfoStore`, exactly when the gossip
it receives names topics the node does not host.
-/

namespace FaasNet.EventMesh

open FaasNet.Lib FaasNet.RaftConsensus

/-- What a node does that reads or changes its peers: the operations that start peers, the callbacks
of the peers, and a restart. -/
inductive NodeAction (V : Type*) where
  | gossipAddPeerRequest (env : Env) (entityId termId : String)
  | gossipSyncStateResult (env : Nat → Env) (states : List NodeState)
  | publish (env : PublishEnv) (topic : String) (value : V)
  | peer (k : Nat) (action : PeerAction V)
  | restart (env : Nat → Env) (peerInfoLst : List PeerInfo)

namespace EventMeshNode

section
variable {V : Type*}

/-- One operation of the node. -/
def step [DecidableEq V] (json : PeerJson) (n : NodeHost V) : NodeAction V → Option (NodeHost V)
  | .gossipAddPeerRequest env entityId termId => some (n.handleGossipAddPeerRequest json env entityId termId)
  | .gossipSyncStateResult env states => some (n.handleGossipSyncStateResult json env states)
  | .publish env topic value => some (handlePublish json n env topic value).node
  | .peer k action => (n.peers[k]?).bind fun h => (h.step action).map fun h' => n.setPeer k h h'
  | .restart env peerInfoLst => n.restart env peerInfoLst

/-- At most one peer and one stored info for each topic, and whatever order the store yields its
infos in, a restart starts the peers of the same topics. -/
structure OnePeerPerTopic (n : NodeHost V) : Prop where
  peers : n.termIds.Nodup
  stored : n.peerInfoStore.termIds.Nodup
  restarted : ∀ env peerInfoLst n', n.restart env peerInfoLst = some n' → n'.termIds.Perm n.termIds

/-- A node starts a peer for each topic it knows. -/
theorem runConsensusPeers_termIds (n : NodeHost V) (env : Nat → Env) (peerInfoLst : List PeerInfo) :
    (n.runConsensusPeers env peerInfoLst).termIds = peerInfoLst.map (·.termId) := by
  apply List.ext_getElem?
  intro k
  simp only [NodeHost.termIds, NodeHost.runConsensusPeers, List.getElem?_map, List.getElem?_mapIdx, Option.map_map]
  rfl

/-- In terms of the two lists of topics: a restart starts what is stored. -/
theorem onePeerPerTopic_iff {n : NodeHost V} :
    OnePeerPerTopic n ↔ n.termIds.Nodup ∧ n.peerInfoStore.termIds.Perm n.termIds := by
  constructor
  · intro one
    have restarted := one.restarted (fun _ => .calm 0 []) n.peerInfoStore.getAll _ (if_pos (.refl _))
    rw [runConsensusPeers_termIds] at restarted
    exact ⟨one.peers, restarted⟩
  · rintro ⟨peers, same⟩
    refine ⟨peers, same.nodup_iff.mpr peers, ?_⟩
    intro env peerInfoLst n' restarts
    obtain ⟨order, made⟩ := Option.ite_none_right_eq_some.mp restarts
    obtain rfl := Option.some.inj made
    rw [runConsensusPeers_termIds]
    exact (order.map _).trans same

/-- The in-memory store holds the infos of the peers. -/
def Shared (n : NodeHost V) : Prop :=
  ∀ peerInfos, n.peerInfoStore = .inMemory peerInfos → peerInfos = n.peers.map (·.info)

/-! ## One operation -/

theorem Shared.startPeer {n : NodeHost V} (shared : Shared n) (env : Env) (termId : String) :
    Shared (n.startPeer env termId) := by
  intro peerInfos store
  simp only [NodeHost.startPeer] at store ⊢
  cases held : n.peerInfoStore with
  | rocksDB db => simp [held, PeerInfoStore.add] at store
  | inMemory before =>
    simp only [held, PeerInfoStore.add, PeerInfoStore.inMemory.injEq] at store
    rw [← store, shared before held]
    simp [PeerHost.start, PeerHost.startCheckLeaderHeartbeat]

/-- A peer of a new topic is the only one. -/
theorem OnePeerPerTopic.startPeer {n : NodeHost V} (one : OnePeerPerTopic n) (env : Env) {termId : String}
    (new : termId ∉ n.termIds) : OnePeerPerTopic (n.startPeer env termId) := by
  obtain ⟨peers, same⟩ := onePeerPerTopic_iff.mp one
  apply onePeerPerTopic_iff.mpr
  rw [NodeHost.startPeer_termIds]
  constructor
  · refine List.nodup_append.mpr ⟨peers, List.nodup_singleton termId, fun t member t' single same => ?_⟩
    obtain rfl := List.mem_singleton.mp single
    exact new (same ▸ member)
  · have unknown : (⟨termId, 0, 0⟩ : PeerInfo).termId ∉ n.peerInfoStore.termIds :=
      fun member => new (same.mem_iff.mp member)
    exact (PeerInfoStore.add_termIds unknown).trans (same.append_right _)

theorem Shared.startPeers {n : NodeHost V} (shared : Shared n) (env : Nat → Env) (topics : List String) :
    Shared (NodeHost.startPeers env n topics) := by
  induction topics generalizing n with
  | nil => exact shared
  | cons termId topics ih => exact ih (shared.startPeer _ _)

/-- Peers of distinct new topics are the only ones. -/
theorem OnePeerPerTopic.startPeers {n : NodeHost V} (one : OnePeerPerTopic n) (env : Nat → Env) {topics : List String}
    (new : (n.termIds ++ topics).Nodup) : OnePeerPerTopic (NodeHost.startPeers env n topics) := by
  induction topics generalizing n with
  | nil => exact one
  | cons termId topics ih =>
    have unknown : termId ∉ n.termIds := fun member =>
      (List.nodup_append.mp new).2.2 termId member termId List.mem_cons_self rfl
    apply ih (one.startPeer _ unknown)
    rw [NodeHost.startPeer_termIds, List.append_assoc]
    exact new

theorem shared_of_samePeers {n n' : NodeHost V} (same : NodeHost.SamePeers n n') (shared : Shared n) : Shared n' := by
  intro peerInfos store
  rw [same.peers]
  exact shared peerInfos (same.peerInfoStore ▸ store)

theorem onePeerPerTopic_congr {n n' : NodeHost V} (same : NodeHost.SamePeers n n') :
    OnePeerPerTopic n' ↔ OnePeerPerTopic n := by
  rw [onePeerPerTopic_iff, onePeerPerTopic_iff, NodeHost.termIds, same.peers, same.peerInfoStore]
  rfl

/-- A callback of a peer changes neither the topics nor the sharing. -/
theorem setPeer_termIds {n : NodeHost V} {k : Nat} {h h' : PeerHost V} (found : n.peers[k]? = some h)
    (same : h'.info.termId = h.info.termId) : (n.setPeer k h h').termIds = n.termIds := by
  obtain ⟨inside, rfl⟩ := List.getElem?_eq_some_iff.mp found
  simp only [NodeHost.termIds, NodeHost.setPeer, List.map_set, same]
  apply List.ext_getElem
  · simp
  · intro j left right
    by_cases equal : k = j
    · subst equal
      simp
    · simp [List.getElem_set_ne equal]

theorem Shared.setPeer {n : NodeHost V} (shared : Shared n) (k : Nat) (h h' : PeerHost V) :
    Shared (n.setPeer k h h') := by
  intro peerInfos store
  simp only [NodeHost.setPeer] at store ⊢
  cases held : n.peerInfoStore with
  | rocksDB db =>
    simp only [held] at store
    split at store <;> simp [PeerInfoStore.update] at store
  | inMemory before =>
    simp only [held, PeerInfoStore.inMemory.injEq] at store
    rw [← store, shared before held, List.map_set]

/-- A peer that keeps its topic stays the only one. -/
theorem OnePeerPerTopic.setPeer {n : NodeHost V} (one : OnePeerPerTopic n) (shared : Shared n) {k : Nat}
    {h h' : PeerHost V} (found : n.peers[k]? = some h) (same : h'.info.termId = h.info.termId) :
    OnePeerPerTopic (n.setPeer k h h') := by
  obtain ⟨peers, stored⟩ := onePeerPerTopic_iff.mp one
  have topics := setPeer_termIds found same
  apply onePeerPerTopic_iff.mpr
  refine ⟨topics ▸ peers, ?_⟩
  cases held : n.peerInfoStore with
  | inMemory before =>
    have after : (n.setPeer k h h').peerInfoStore = .inMemory (before.set k h'.info) := by simp [NodeHost.setPeer, held]
    rw [after, PeerInfoStore.termIds, PeerInfoStore.getAll, shared.setPeer k h h' _ after, List.map_map]
    exact .refl _
  | rocksDB db =>
    rw [topics]
    have known : h'.info.termId ∈ (PeerInfoStore.rocksDB db).termIds := by
      rw [← held, stored.mem_iff, same]
      exact List.mem_map_of_mem (List.mem_of_getElem? found)
    rw [held] at stored
    simp only [NodeHost.setPeer, held]
    split
    · exact (PeerInfoStore.update_termIds known).trans stored
    · exact stored

/-- The peer of an ADD_PEER sits behind those that were there. -/
theorem startPeer_found (n : NodeHost V) (env : Env) (termId : String) :
    (n.startPeer env termId).peers[n.peers.length]? =
      some (.start n.nodeOptions n.peerOptions ⟨termId, 0, 0⟩ env) := by
  simp [NodeHost.startPeer]

theorem Shared.addPeer {n : NodeHost V} (shared : Shared n) (json : PeerJson) (env : PublishEnv) (termid : String)
    (logRecord : LogRecord V) : Shared (handleAddPeer json env n termid logRecord) := by
  have added : Shared (n.addPeer json env.entityId termid) := shared
  exact (added.startPeer env.toEnv termid).setPeer _ _ _

/-- A peer of a new topic that is added is the only one. -/
theorem OnePeerPerTopic.addPeer {n : NodeHost V} (one : OnePeerPerTopic n) (shared : Shared n) (json : PeerJson)
    (env : PublishEnv) {termid : String} (logRecord : LogRecord V) (new : termid ∉ n.termIds) :
    OnePeerPerTopic (handleAddPeer json env n termid logRecord) := by
  have same : NodeHost.SamePeers n (n.addPeer json env.entityId termid) := ⟨rfl, rfl, rfl, rfl⟩
  have started := ((onePeerPerTopic_congr same).mpr one).startPeer env.toEnv new
  exact started.setPeer ((shared_of_samePeers same shared).startPeer _ _) (startPeer_found _ _ _) rfl

theorem Shared.restart {n : NodeHost V} (env : Nat → Env) (peerInfoLst : List PeerInfo) :
    Shared (n.runConsensusPeers env peerInfoLst) := by
  intro peerInfos store
  simp only [NodeHost.runConsensusPeers] at store ⊢
  cases held : n.peerInfoStore with
  | rocksDB db => simp [held] at store
  | inMemory before =>
    simp only [held, PeerInfoStore.inMemory.injEq] at store
    rw [← store]
    apply List.ext_getElem?
    intro k
    simp only [List.getElem?_map, List.getElem?_mapIdx, Option.map_map]
    cases peerInfoLst[k]? <;> rfl

/-- The stored topics, and so the started ones, are the same in whatever order they are started. -/
theorem restarted_iff {n : NodeHost V} {env : Nat → Env} {peerInfoLst : List PeerInfo}
    (order : peerInfoLst.Perm n.peerInfoStore.getAll) :
    OnePeerPerTopic (n.runConsensusPeers env peerInfoLst) ↔ n.peerInfoStore.termIds.Nodup := by
  have topics : (peerInfoLst.map (·.termId)).Perm n.peerInfoStore.termIds := order.map _
  rw [onePeerPerTopic_iff, runConsensusPeers_termIds, topics.nodup_iff]
  apply and_iff_left
  cases held : n.peerInfoStore with
  | inMemory before => simp [NodeHost.runConsensusPeers, held, PeerInfoStore.termIds, PeerInfoStore.getAll]
  | rocksDB db =>
    rw [held] at topics
    simpa [NodeHost.runConsensusPeers, held] using topics.symm

/-- Gossip names only topics the node does not host, and no topic twice. The topics of a
`GossipSyncStateResult` that count are those of the PEER entities the node's state store lacks. -/
def StartsNew (json : PeerJson) (n : NodeHost V) : NodeAction V → Prop
  | .gossipAddPeerRequest _ _ termId => termId ∉ n.termIds
  | .gossipSyncStateResult _ states =>
    (n.topicsToStart json states).Nodup ∧ ∀ termId ∈ n.topicsToStart json states, termId ∉ n.termIds
  | .publish _ _ _ | .peer _ _ | .restart _ _ => True

variable [DecidableEq V]

theorem Shared.step {json : PeerJson} {n n' : NodeHost V} {a : NodeAction V} (shared : Shared n)
    (taken : step json n a = some n') : Shared n' := by
  cases a with
  | gossipAddPeerRequest env entityId termId =>
    obtain rfl := Option.some.inj taken
    exact shared.startPeer env termId
  | gossipSyncStateResult env states =>
    obtain rfl := Option.some.inj taken
    exact shared_of_samePeers (NodeHost.handleGossipSyncStateResult_peers json env states) (shared.startPeers env _)
  | publish env topic value =>
    obtain rfl := Option.some.inj taken
    have effect := publish_effect json n env topic value
    generalize handlePublish json n env topic value = published at effect ⊢
    cases effect with
    | refused | sent => exact shared
    | created => exact shared.addPeer json env topic _
  | peer k action =>
    obtain ⟨h, _, moved⟩ := Option.bind_eq_some_iff.mp taken
    obtain ⟨h', _, rfl⟩ := Option.map_eq_some_iff.mp moved
    exact shared.setPeer k h h'
  | restart env peerInfoLst =>
    obtain ⟨_, made⟩ := Option.ite_none_right_eq_some.mp taken
    obtain rfl := Option.some.inj made
    exact .restart env peerInfoLst

/-- From a node with one peer per topic, an operation leads to such a node exactly when what it
starts is new. -/
theorem OnePeerPerTopic.step_iff {json : PeerJson} {n n' : NodeHost V} {a : NodeAction V} (shared : Shared n)
    (one : OnePeerPerTopic n) (taken : step json n a = some n') : OnePeerPerTopic n' ↔ StartsNew json n a := by
  cases a with
  | gossipAddPeerRequest env entityId termId =>
    obtain rfl := Option.some.inj taken
    have same : NodeHost.SamePeers (n.startPeer env termId) (n.handleGossipAddPeerRequest json env entityId termId) :=
      ⟨rfl, rfl, rfl, rfl⟩
    rw [onePeerPerTopic_congr same]
    constructor
    · intro after hosted
      have distinct := after.peers
      rw [NodeHost.startPeer_termIds, List.nodup_append] at distinct
      exact distinct.2.2 termId hosted termId (List.mem_singleton_self _) rfl
    · exact one.startPeer env
  | gossipSyncStateResult env states =>
    obtain rfl := Option.some.inj taken
    have same := NodeHost.handleGossipSyncStateResult_peers (n := n) json env states
    have split :
        (n.termIds ++ n.topicsToStart json states).Nodup ↔ StartsNew json n (.gossipSyncStateResult env states) := by
      rw [List.nodup_append]
      constructor
      · rintro ⟨_, distinct, apart⟩
        exact ⟨distinct, fun termId started hosted => apart termId hosted termId started rfl⟩
      · rintro ⟨distinct, apart⟩
        exact ⟨one.peers, distinct, fun _ hosted _ started equal => apart _ started (equal ▸ hosted)⟩
    rw [onePeerPerTopic_congr same, ← split]
    constructor
    · intro after
      rw [← NodeHost.startPeers_termIds env]
      exact after.peers
    · exact one.startPeers env
  | publish env topic value =>
    obtain rfl := Option.some.inj taken
    apply iff_of_true _ trivial
    have effect := publish_effect json n env topic value
    generalize handlePublish json n env topic value = published at effect ⊢
    cases effect with
    | refused | sent => exact one
    | created unknown => exact one.addPeer shared json env _ unknown
  | peer k action =>
    apply iff_of_true _ trivial
    obtain ⟨h, found, moved⟩ := Option.bind_eq_some_iff.mp taken
    obtain ⟨h', stepped, rfl⟩ := Option.map_eq_some_iff.mp moved
    exact one.setPeer shared found (PeerHost.step_identity stepped).termId
  | restart env peerInfoLst =>
    apply iff_of_true _ trivial
    obtain ⟨order, made⟩ := Option.ite_none_right_eq_some.mp taken
    obtain rfl := Option.some.inj made
    exact (restarted_iff order).mpr one.stored

/-! ## Whole runs -/

/-- **One peer per topic.** Over whatever store a node starts, and whatever it handles: it always has
one peer and one stored info for each topic, and a restart always starts the peers that ran, exactly
when the store names no topic twice and the gossip it handles starts no topic it already hosts. -/
theorem one_peer_per_topic_iff (json : PeerJson) (nodeOptions : ConsensusNodeOptions)
    (peerOptions : ConsensusPeerOptions) (peerInfoStore : PeerInfoStore) (nodeStateStore : NodeStateStore)
    (env : Nat → Env) (acts : List (NodeAction V)) :
    Always (step json) OnePeerPerTopic (start nodeOptions peerOptions peerInfoStore nodeStateStore env) acts ↔
      peerInfoStore.termIds.Nodup ∧
      Along (step json) (StartsNew json) (start nodeOptions peerOptions peerInfoStore nodeStateStore env) acts := by
  let n : NodeHost V := ⟨nodeOptions, peerOptions, [], peerInfoStore, nodeStateStore⟩
  have begins : OnePeerPerTopic (start (V := V) nodeOptions peerOptions peerInfoStore nodeStateStore env) ↔
      peerInfoStore.termIds.Nodup := restarted_iff (n := n) (.refl _)
  by_cases distinct : peerInfoStore.termIds.Nodup
  · rw [and_iff_right distinct]
    apply always_iff_along Shared
    · exact fun _ _ _ shared _ taken => shared.step taken
    · intro n a _ _ disabled
      cases a with
      | gossipAddPeerRequest | gossipSyncStateResult | publish => cases disabled
      | peer | restart => trivial
    · exact fun _ _ _ shared one taken => one.step_iff shared taken
    · exact .restart (n := n) env peerInfoStore.getAll
    · exact begins.mpr distinct
  · apply iff_of_false
    · intro always
      apply distinct
      apply begins.mp
      cases acts with
      | nil => exact always
      | cons a acts => exact always.1
    · exact fun both => distinct both.1

/-- Two requests to add a peer of the same topic. -/
def addedTwice : List (NodeAction String) :=
  [.gossipAddPeerRequest (.calm 0 []) "first" "topic", .gossipAddPeerRequest (.calm 10 []) "second" "topic"]

/-- A topic that is added twice has two peers. -/
theorem addedTwice_two_peers :
    ¬ Always (step PeerJson.plain) OnePeerPerTopic
      (start (.localhost 4000) {} (.inMemory []) (.inMemory []) fun _ => .calm 0 []) addedTwice := by
  intro always
  have last := (always.2 _ rfl).2 _ rfl
  have topics := last.peers
  revert topics
  decide

end

end EventMeshNode

end FaasNet.EventMesh
