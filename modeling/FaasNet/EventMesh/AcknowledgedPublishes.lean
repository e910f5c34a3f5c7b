import FaasNet.EventMesh.Mesh

/-!
# Acknowledged publishes are kept

A message is a token again, now with its topic: it is in flight, on its way from a node to a peer,
in the buffer of a peer of the topic, or appended by one. Every action conserves the tokens but
one: a node that receives a message of a topic it does not host drops it, and the publisher, which
only asked whether it hosts the topic itself, has answered SUCCESS.
-/

namespace FaasNet.EventMesh

open FaasNet.Lib FaasNet.RaftConsensus

/-! ## Messages -/

section
variable {V : Type*}

/-- The client messages of a package, with their topic. -/
def messages (pkg : ConsensusPackage V) : List (String × V) := pkg.clientValues.map (Prod.mk pkg.header.termId)

/-- The messages a peer has buffered. -/
def bufferedMessages (h : PeerHost V) : List (String × V) := h.bufferedValues.map (Prod.mk h.info.termId)

/-- The messages the peers of a node have buffered. -/
def nodeMessages (n : NodeHost V) : List (String × V) := n.peers.flatMap bufferedMessages

/-- The message of a record a peer appended for a client. -/
def Appended.message {ι : Type*} (a : Appended ι V) : String × V := (a.topic, a.record.value)

theorem messages_eq_nil {pkg : ConsensusPackage V} : messages pkg = [] ↔ pkg.clientValues = [] := by
  simp [messages]

theorem silent_messages {nodeOptions : ConsensusNodeOptions} {h : PeerHost V}
    (silent : EventMeshNode.Silent nodeOptions h) : bufferedMessages h = [] := by
  simp [bufferedMessages, PeerHost.bufferedValues, silent.buffer]

theorem startsPeers_messages {n n' : NodeHost V} {new : List (PeerHost V)}
    (started : EventMeshNode.StartsPeers n new n') : nodeMessages n' = nodeMessages n := by
  rw [nodeMessages, started.peers, List.flatMap_append, ← nodeMessages]
  rw [List.flatMap_eq_nil_iff.mpr fun h member => silent_messages (started.silent h member), List.append_nil]

theorem setPeer_messages [DecidableEq V] {n : NodeHost V} {k : Nat} {h : PeerHost V} (found : n.peers[k]? = some h)
    (h' : PeerHost V) (message : String × V) :
    (nodeMessages (n.setPeer k h h')).count message + (bufferedMessages h).count message =
      (nodeMessages n).count message + (bufferedMessages h').count message :=
  count_flatMap_set bufferedMessages found h' message

end

namespace MeshState

section
variable {ι V : Type*} [Fintype ι] [DecidableEq V] (s : MeshState ι V)

/-- How often a message is in flight to a node, on its way to a peer, in the buffer of a peer of its
topic, or appended by a peer of its topic. -/
def kept (message : String × V) : Nat :=
  (s.datagrams.flatMap fun d => messages d.pkg).count message +
  (s.loopbacks.flatMap fun l => messages l.pkg).count message +
  ∑ i, (nodeMessages (s.nodes i)).count message +
  (s.appended.map (·.message)).count message

end

section
variable {ι V : Type*} [DecidableEq ι] (s : MeshState ι V)

/-- The log of the `k`-th peer of node `i`. -/
def log (i : ι) (k : Nat) : List (LogRecord V) := ((s.nodes i).peers[k]?).elim [] (·.logRecords)

/-- The records that the `k`-th peer of node `i` appended for clients. -/
def appendedBy (i : ι) (k : Nat) : List (LogRecord V) :=
  (s.appended.filter fun a => a.node = i ∧ a.peer = k).map (·.record)

/-- Every record in the history was appended by a peer of its topic, and is in the log of that peer,
once for each time it was appended. -/
structure Logged : Prop where
  topic : ∀ a ∈ s.appended, ∃ h, (s.nodes a.node).peers[a.peer]? = some h ∧ h.info.termId = a.topic
  log : ∀ i k, (s.appendedBy i k).Sublist (s.log i k)

end

section
variable {ι V : Type*} [DecidableEq ι] [Fintype ι] [DecidableEq V] (s : MeshState ι V)

/-- Every message whose publish was answered with SUCCESS is in flight, or a peer of its topic has
buffered it or appended it to its log. -/
structure Kept : Prop where
  somewhere : ∀ message, s.acknowledged.count message ≤ s.kept message
  logged : s.Logged

end

end MeshState

namespace Mesh

section
variable {ι V : Type*} {M : Mesh ι}

/-- Packages that find their node carry their messages there. -/
theorem post_messages (src : Option ι) {sent : Sent V}
    (found : ∀ p ∈ sent, p.2.clientValues ≠ [] → ∃ j, M.locate p.1 = some j) :
    ((M.post src sent).flatMap fun d => messages d.pkg) = sent.flatMap fun p => messages p.2 := by
  apply flatMap_filterMap
  intro p among
  cases located : M.locate p.1 with
  | some j => rfl
  | none =>
    symm
    apply messages_eq_nil.mpr
    by_contra carries
    obtain ⟨j, other⟩ := found p among carries
    rw [located] at other
    cases other

/-- What a peer sends on for its clients is of its own topic. -/
theorem sent_messages {sent : Sent V} {topic : String}
    (own : ∀ p ∈ sent, p.2.clientValues ≠ [] → p.2.header.termId = topic) :
    (sent.flatMap fun p => messages p.2) = (PeerHost.sentValues sent).map (Prod.mk topic) := by
  rw [PeerHost.sentValues, List.map_flatMap]
  apply List.flatMap_congr
  intro p among
  by_cases carries : p.2.clientValues = []
  · simp [messages, carries]
  · rw [messages, own p among carries]

variable [DecidableEq ι] {s t : MeshState ι V} {a : MeshAction ι V}

/-! ## One action -/

/-- A message that a publish sent arrives at a node that hosts its topic. -/
def FindsPeer (s : MeshState ι V) : MeshAction ι V → Prop
  | .route k => ∀ d ∈ s.datagrams[k]?, d.src = none → d.pkg.header.termId ∈ (s.nodes d.dst).termIds
  | _ => True

variable [Fintype ι] [DecidableEq V]

/-- The end of a callback: the peer's buffer is replaced, what it sent is in flight, what it appended
is recorded. -/
theorem finish_kept {i : ι} {k : Nat} {h : PeerHost V} (there : (s.nodes i).peers[k]? = some h) (h' : PeerHost V)
    (sent : Sent V) (accepted : List (LogRecord V))
    (found : ∀ p ∈ sent, p.2.clientValues ≠ [] → ∃ j, M.locate p.1 = some j) (message : String × V) :
    (M.finish s i k h (h', sent) accepted).kept message + (bufferedMessages h).count message =
      s.kept message + (bufferedMessages h').count message + (sent.flatMap fun p => messages p.2).count message +
        (accepted.map fun r => (h.info.termId, r.value)).count message := by
  have moved := sum_update (fun n => (nodeMessages n).count message) s.nodes i ((s.nodes i).setPeer k h h')
  have replaced := setPeer_messages there h' message
  have posted := M.post_messages (some i) found
  have recorded : ((accepted.map fun r => (⟨i, k, h.info.termId, r⟩ : Appended ι V)).map (·.message)) =
      accepted.map fun r => (h.info.termId, r.value) := by simp [Appended.message, Function.comp_def]
  simp only [MeshState.kept, finish, List.flatMap_append, List.map_append, List.count_append, posted, recorded]
  omega

omit [DecidableEq ι] [Fintype ι] in
/-- One callback conserves the messages of the peer's topic. -/
theorem Wired.conserves (wired : M.Wired s) {l : Loopback ι V} (inFlight : l ∈ s.loopbacks) {h h' : PeerHost V}
    (found : (s.nodes l.node).peers[l.peer]? = some h) {env : Env} {sent : Sent V}
    (effect : PeerHost.PackageEffect (lossless env) h l.pkg h' sent) (message : String × V) :
    (messages l.pkg).count message + (bufferedMessages h).count message =
      (sent.flatMap fun p => messages p.2).count message + (bufferedMessages h').count message +
        ((h.acceptedFrom l.pkg h').map fun r => (h.info.termId, r.value)).count message := by
  obtain ⟨topic, value⟩ := message
  have member := List.mem_of_getElem? found
  have termId := wired.topic inFlight found
  have law := effect.conserves rfl (fun request buffered => (wired.buffer l.node h member request buffered).1) value
  have own := sent_messages fun p among carries =>
    (wired.answer_hosted inFlight found (effect.answer among) carries).2
  have records : (h.acceptedFrom l.pkg h').map (fun r => (h.info.termId, r.value)) =
      ((h.acceptedFrom l.pkg h').map (·.value)).map (Prod.mk h.info.termId) := by simp [Function.comp_def]
  rw [own, records, messages, bufferedMessages, bufferedMessages, effect.identity.termId, ← termId]
  simp only [count_map_mk]
  split
  · exact law
  · rfl

theorem gossip_kept {i : ι} {n' : NodeHost V} {new : List (PeerHost V)}
    (started : EventMeshNode.StartsPeers (s.nodes i) new n') (message : String × V) :
    ({ s with nodes := Function.update s.nodes i n' } : MeshState ι V).kept message = s.kept message := by
  have moved := sum_update (fun n => (nodeMessages n).count message) s.nodes i n'
  rw [startsPeers_messages started] at moved
  simp only [MeshState.kept]
  omega

/-- **One action conserves the messages**: their number changes only when a publish is answered with
SUCCESS, unless a published message arrives where its topic is unknown. -/
theorem Step.kept (wired : M.Wired s) (finds : FindsPeer s a) (taken : M.Step s a t) (message : String × V) :
    t.kept message + s.acknowledged.count message = s.kept message + t.acknowledged.count message := by
  cases taken with
  | refused => rfl
  | sent i env nodes topic value dst hosted =>
    have carried : messages (ConsensusPackageRequestBuilder.appendEntry topic 0 value false) = [(topic, value)] := rfl
    simp only [MeshState.kept, List.flatMap_append, List.flatMap_singleton, carried, List.count_append]
    omega
  | created i env nodes topic value started termId log =>
    have same := gossip_kept started message
    simp only [MeshState.kept, List.map_append, List.map_singleton, List.count_append] at same ⊢
    simp only [Appended.message]
    omega
  | gossip isGossip i started =>
    rw [gossip_kept started]
  | dropped k before after d position split unknown =>
    -- what a peer sent is not dropped, and what a publish sent is not dropped here
    have silent : d.pkg.clientValues = [] := by
      by_contra carries
      apply unknown
      by_cases byPublish : d.src = none
      · exact finds d position byPublish
      · exact wired.forwarded d (List.mem_of_getElem? position) byPublish carries
    simp only [MeshState.kept, split, List.flatMap_append, List.flatMap_cons, messages_eq_nil.mpr silent,
      List.nil_append]
  | routed k before after d position split peer h found termId =>
    simp only [MeshState.kept, split, List.flatMap_append, List.flatMap_cons, List.flatMap_nil, List.append_nil,
      List.count_append]
    omega
  | @received k env before after l split h h' sent found effect =>
    have inFlight : l ∈ s.loopbacks := by simp [split]
    have law := wired.conserves inFlight found effect message
    let rest : MeshState ι V := { s with loopbacks := before ++ after }
    have finished := finish_kept (M := M) (s := rest) found h' sent (h.acceptedFrom l.pkg h')
      (fun p among carries => by
        obtain ⟨⟨j, target, _⟩, _⟩ := wired.answer_hosted inFlight found (effect.answer among) carries
        exact ⟨j, by rw [target, M.locate_addr]⟩) message
    have removed : rest.kept message + (messages l.pkg).count message = s.kept message := by
      simp only [rest, MeshState.kept, split, List.flatMap_append, List.flatMap_cons, List.count_append]
      omega
    show (M.finish rest l.node l.peer h (h', sent) _).kept message + s.acknowledged.count message =
      s.kept message + s.acknowledged.count message
    omega
  | @elapsed i k env timer queued h h' sent found effect =>
    have silent := effect.sends_no_value
    have finished := finish_kept (M := M) found h' sent []
      (fun p among carries => absurd (List.flatMap_eq_nil_iff.mp silent p among) carries) message
    have unsent : (sent.flatMap fun p => messages p.2) = [] := by
      apply List.flatMap_eq_nil_iff.mpr
      exact fun p among => messages_eq_nil.mpr (List.flatMap_eq_nil_iff.mp silent p among)
    have same : bufferedMessages h' = bufferedMessages h := by
      rw [bufferedMessages, effect.keeps_values, effect.identity.termId, bufferedMessages]
    rw [unsent, same] at finished
    simp only [List.count_nil, List.map_nil] at finished
    show _ + s.acknowledged.count message = _ + s.acknowledged.count message
    omega

/-- A message a publish sent that arrives where its topic is unknown is gone. -/
theorem Step.lost (wired : M.Wired s) (misses : ¬ FindsPeer s a) (taken : M.Step s a t) :
    t.acknowledged = s.acknowledged ∧ (∀ message, t.kept message ≤ s.kept message) ∧
    ∃ message, t.kept message + 1 = s.kept message := by
  cases taken with
  | refused | sent | created | received | elapsed => exact absurd trivial misses
  | gossip isGossip =>
    cases a with
    | gossipAddPeerRequest | gossipSyncStateResult => exact absurd trivial misses
    | publish | route | receive | elapsed => cases isGossip
  | routed k before after d position split peer h found termId =>
    exfalso
    apply misses
    intro e there _
    obtain rfl : d = e := Option.some.inj (position.symm.trans there)
    exact termId ▸ List.mem_map_of_mem (List.mem_of_getElem? found)
  | dropped k before after d position split unknown =>
    have byPublish : d.src = none := by
      by_contra byPeer
      apply misses
      intro e there none
      obtain rfl : d = e := Option.some.inj (position.symm.trans there)
      exact absurd none byPeer
    obtain ⟨topic, value, pkg⟩ := wired.published d (List.mem_of_getElem? position) byPublish
    have carried : messages d.pkg = [(topic, value)] := by rw [pkg]; rfl
    have removed (message : String × V) :
        ({ s with datagrams := before ++ after } : MeshState ι V).kept message + [(topic, value)].count message =
          s.kept message := by
      simp only [MeshState.kept, split, List.flatMap_append, List.flatMap_cons, carried, List.count_append]
      omega
    refine ⟨rfl, fun message => ?_, (topic, value), ?_⟩
    · have := removed message
      omega
    · have := removed (topic, value)
      simpa using this

/-! ## The appended messages -/

omit [Fintype ι] [DecidableEq V] in
theorem Step.log (taken : M.Step s a t) (i : ι) (k : Nat) : s.log i k <+: t.log i k := by
  cases found : (s.nodes i).peers[k]? with
  | none => simp [MeshState.log, found]
  | some h =>
    obtain ⟨h', found', _, grown⟩ := taken.keeps i k h found
    simpa [MeshState.log, found, found'] using grown

omit [Fintype ι] [DecidableEq V] in
/-- What an action adds to the history is new in the log it was appended to. -/
theorem Step.appended (taken : M.Step s a t) :
    ∃ new : List (Appended ι V), t.appended = s.appended ++ new ∧
      (∀ a ∈ new, ∃ h, (t.nodes a.node).peers[a.peer]? = some h ∧ h.info.termId = a.topic) ∧
      ∀ i k, (s.log i k ++ (new.filter fun a => a.node = i ∧ a.peer = k).map (·.record)).Sublist (t.log i k) := by
  have grown := taken.log
  have none : ∀ i k, (s.log i k ++ (([] : List (Appended ι V)).filter fun a => a.node = i ∧ a.peer = k).map
      (·.record)).Sublist (t.log i k) := by
    intro i k
    simpa using (grown i k).sublist
  cases taken with
  | refused | sent | gossip | dropped | routed => exact ⟨[], by simp, by simp, none⟩
  | elapsed => exact ⟨[], by simp [finish], by simp, none⟩
  | @created i env nodes topic value n' peer started termId log =>
    have there : n'.peers[(s.nodes i).peers.length]? = some peer := by simp [started.peers]
    refine ⟨_, rfl, ?_, ?_⟩
    · intro a member
      rw [List.mem_singleton.mp member]
      exact ⟨peer, by simpa using there, termId⟩
    · intro j k
      by_cases same : i = j ∧ (s.nodes i).peers.length = k
      · obtain ⟨rfl, rfl⟩ := same
        simp [MeshState.log, there, log]
      · simpa [same] using (grown j k).sublist
  | @received k env before after l split h h' sent found effect =>
    have inside := (List.getElem?_eq_some_iff.mp found).1
    have there : ((s.nodes l.node).setPeer l.peer h h').peers[l.peer]? = some h' := by
      simp [NodeHost.setPeer, inside]
    refine ⟨_, rfl, ?_, ?_⟩
    · intro a member
      obtain ⟨r, _, rfl⟩ := List.mem_map.mp member
      exact ⟨h', by simpa [finish] using there, effect.identity.termId⟩
    · intro j p
      by_cases same : l.node = j ∧ l.peer = p
      swap
      · rw [List.filter_map, List.filter_eq_nil_iff.mpr (fun _ _ => by simpa using same)]
        simpa using (grown j p).sublist
      obtain ⟨rfl, rfl⟩ := same
      rw [List.filter_map, List.filter_eq_self.mpr (by simp), List.map_map]
      have both := PeerHost.package_accepted effect
      simpa [MeshState.log, finish, found, there, Function.comp_def] using both

omit [Fintype ι] [DecidableEq V] in
theorem logged_step (logged : s.Logged) (taken : M.Step s a t) : t.Logged := by
  obtain ⟨new, appended, topics, records⟩ := taken.appended
  constructor
  · intro a member
    rw [appended] at member
    rcases List.mem_append.mp member with old | added
    · obtain ⟨h, found, topic⟩ := logged.topic a old
      obtain ⟨h', found', same, _⟩ := taken.keeps a.node a.peer h found
      exact ⟨h', found', same.termId.trans topic⟩
    · exact topics a added
  · intro i k
    have split : t.appendedBy i k = s.appendedBy i k ++ (new.filter fun a => a.node = i ∧ a.peer = k).map (·.record) := by
      rw [MeshState.appendedBy, appended, List.filter_append, List.map_append, ← MeshState.appendedBy]
    rw [split]
    exact ((logged.log i k).append (List.Sublist.refl _)).trans (records i k)

/-! ## Whole runs -/

/-- Nothing is kept that no publish was acknowledged for. -/
structure Accounted (M : Mesh ι) (s : MeshState ι V) : Prop where
  wired : M.Wired s
  logged : s.Logged
  atMost : ∀ message, s.kept message ≤ s.acknowledged.count message

theorem start_accounted (peerOptions : ι → ConsensusPeerOptions) (peerInfoStore : ι → PeerInfoStore)
    (nodeStateStore : ι → NodeStateStore) (env : ι → Nat → Env) :
    M.Accounted (M.start (V := V) peerOptions peerInfoStore nodeStateStore env) := by
  refine ⟨start_wired peerOptions peerInfoStore nodeStateStore env, ⟨by simp [start], ?_⟩, ?_⟩
  · intro i k
    exact List.nil_sublist _
  · intro message
    have empty (i : ι) : nodeMessages ((M.start (V := V) peerOptions peerInfoStore nodeStateStore env).nodes i) = [] := by
      apply List.flatMap_eq_nil_iff.mpr
      intro h member
      obtain ⟨k, inside, rfl⟩ := List.mem_mapIdx.mp member
      exact silent_messages (EventMeshNode.start_silent _ _ _ _)
    simp only [MeshState.kept, empty]
    simp [start]

theorem Accounted.step (accounted : M.Accounted s) (taken : M.Step s a t) : M.Accounted t := by
  refine ⟨accounted.wired.step taken, logged_step accounted.logged taken, ?_⟩
  intro message
  have before := accounted.atMost message
  by_cases finds : FindsPeer s a
  · have law := taken.kept accounted.wired finds message
    omega
  · obtain ⟨same, fewer, _⟩ := taken.lost accounted.wired finds
    rw [same]
    exact (fewer message).trans before

/-- From a state that keeps every message, an action leads to such a state exactly when it finds a
peer for the message it delivers. -/
theorem kept_iff (accounted : M.Accounted s) (kept : s.Kept) (taken : M.Step s a t) : t.Kept ↔ FindsPeer s a := by
  constructor
  · intro after
    by_contra misses
    obtain ⟨same, _, message, lost⟩ := taken.lost accounted.wired misses
    have atMost := accounted.atMost message
    have atLeast := after.somewhere message
    rw [same] at atLeast
    omega
  · intro finds
    refine ⟨fun message => ?_, logged_step accounted.logged taken⟩
    have law := taken.kept accounted.wired finds message
    have before := kept.somewhere message
    omega

end

section
variable {ι V : Type*} [DecidableEq ι] [Fintype ι] [DecidableEq V] (M : Mesh ι)

/-- **Acknowledged publishes are kept exactly when they find their topic.** Over a network that loses
nothing, in whatever order nodes are asked to publish, receive gossip about peers, hand packages to
their peers and the peers run: every message whose publish was answered with SUCCESS is always in
flight, buffered or appended by a peer of its topic, exactly when every message that a publish sent
arrives at a node that hosts the topic. -/
theorem acknowledged_publishes_kept_iff (json : PeerJson) (peerOptions : ι → ConsensusPeerOptions)
    (peerInfoStore : ι → PeerInfoStore) (nodeStateStore : ι → NodeStateStore) (env : ι → Nat → Env)
    (acts : List (MeshAction ι V)) :
    Always (M.step json) MeshState.Kept (M.start peerOptions peerInfoStore nodeStateStore env) acts ↔
      Along (M.step json) FindsPeer (M.start peerOptions peerInfoStore nodeStateStore env) acts := by
  have begins := start_accounted (M := M) (V := V) peerOptions peerInfoStore nodeStateStore env
  apply always_iff_along M.Accounted
  · exact fun _ _ _ accounted _ taken => accounted.step (M.step_cases taken)
  · intro s a _ _ disabled
    cases a with
    | route k =>
      intro d there
      have found : s.datagrams[k]? = some d := there
      simp [step, found] at disabled
    | publish | gossipAddPeerRequest | gossipSyncStateResult | receive | elapsed => trivial
  · exact fun _ _ _ accounted kept taken => kept_iff accounted kept (M.step_cases taken)
  · exact begins
  · exact ⟨fun message => by simp [start], begins.logged⟩

/-- Two nodes of two machines. -/
def twoNodes : Mesh Bool where
  nodeOptions := fun i => if i then ⟨"b", 4001, "b", 4001⟩ else ⟨"a", 4000, "a", 4000⟩
  locate := fun address =>
    if address = ⟨"a", 4000⟩ then some false else if address = ⟨"b", 4001⟩ then some true else none
  locate_node := by decide
  locate_exposed := by decide

/-- A publisher with an active session. -/
def publisher : PublishEnv := { Env.calm 0 [] with clientSession := some ⟨.PUB, true⟩, rnd := 0, entityId := "peer" }

/-- The first publish creates the topic on node a, the second one sends its message to node b, which
does not know the topic yet. -/
def publishedTwice : List (MeshAction Bool String) :=
  [.publish false publisher (some [false, true]) "topic" "x",
   .publish false publisher (some [false, true]) "topic" "y", .route 0]

/-- The second message is acknowledged, and lost. -/
theorem publishedTwice_loses :
    ¬ Always (twoNodes.step PeerJson.plain) MeshState.Kept
      (twoNodes.start (fun _ => {}) (fun _ => .inMemory []) (fun _ => .inMemory []) fun _ _ => .calm 0 [])
      publishedTwice := by
  intro always
  have last := ((always.2 _ rfl).2 _ rfl).2 _ rfl
  have kept := last.somewhere ("topic", "y")
  revert kept
  decide

end

end Mesh

end FaasNet.EventMesh
