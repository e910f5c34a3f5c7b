import FaasNet.RaftConsensus.Cluster

/-!
# Requests that are forwarded

A peer that does not lead sends a client's request to the leader it has last heard of, or keeps it until it hears of
one. A heartbeat is answered by sending what was kept: the loop counts up while the bag shrinks, and so it stops
halfway. A leader hears of itself, since it sends its heartbeats to all nodes; after a vote request has made it step
down it still takes itself for the leader.
-/

namespace FaasNet.RaftConsensus

open FaasNet.Lib FaasNet.Common

namespace PeerHost

section
variable {V : Type*} [DecidableEq V] {env : Env}

/-! ## The buffer -/

/-- A heartbeat of the peer's topic sends every request of the buffer once to the leader, and leaves none. -/
def Flushes (env : Env) (h : PeerHost V) (header : ConsensusHeader) : Prop :=
  (h.handleLeaderHeartbeatRequest env header).sent.Perm
      (h.appendEntryRequestLst.map fun request => (header.source, .appendEntryRequest request)) ∧
    (h.handleLeaderHeartbeatRequest env header).host.appendEntryRequestLst = []

/-- Where no send throws, the loop leaves half of the bag, whatever it finds in it. -/
theorem length_flushLoop (returns : ∀ k, env.send k = true) (leader : ClusterNode) (i : Nat)
    (bag : List (AppendEntryRequest V)) :
    (flushLoop env leader i bag).2.2 = true ∧
      (flushLoop env leader i bag).2.1.length = bag.length - (bag.length - i + 1) / 2 := by
  fun_induction flushLoop env leader i bag with
  | case1 i bag inside item sent rest ih =>
    have one : (remove bag item).length + 1 = bag.length := length_remove (List.get_mem _ _)
    refine ⟨ih.1, ih.2.trans ?_⟩
    omega
  | case2 i bag inside throws => exact absurd (returns i) throws
  | case3 i bag outside => exact ⟨rfl, by dsimp only; omega⟩

/-- What the handler of a heartbeat does to the buffer. -/
theorem handleLeaderHeartbeatRequest_buffer (h : PeerHost V) (header : ConsensusHeader)
    (own : header.termId = h.info.termId) (returns : ∀ k, env.send k = true) :
    (h.handleLeaderHeartbeatRequest env header).sent = (flushLoop env header.source 0 h.appendEntryRequestLst).1 ∧
      (h.handleLeaderHeartbeatRequest env header).host.appendEntryRequestLst =
        (flushLoop env header.source 0 h.appendEntryRequestLst).2.1 := by
  let leader : LeaderNode := ⟨header.sourceUrl, header.sourcePort, some env.utcNow⟩
  have all : (flushLoop env leader.node 0 h.appendEntryRequestLst).2.2 = true :=
    (length_flushLoop returns leader.node 0 h.appendEntryRequestLst).1
  obtain ⟨base, stepsDown, same, out, -⟩ := acknowledgeHeartbeat_core env { h with
    activeLeader := some leader
    appendEntryRequestLst := (flushLoop env leader.node 0 h.appendEntryRequestLst).2.1 }
    (flushLoop env leader.node 0 h.appendEntryRequestLst).1
  have handled : h.handleLeaderHeartbeatRequest env header = acknowledgeHeartbeat env { h with
      activeLeader := some leader
      appendEntryRequestLst := (flushLoop env leader.node 0 h.appendEntryRequestLst).2.1 }
      (flushLoop env leader.node 0 h.appendEntryRequestLst).1 := by
    simp only [handleLeaderHeartbeatRequest, own, ne_eq, not_true_eq_false, if_false, leader, all, if_true]
  rw [handled, out]
  refine ⟨rfl, same.buffer.trans ?_⟩
  rcases stepsDown with rfl | ⟨-, rfl⟩ <;> rfl

/-- **A heartbeat flushes the buffer** exactly if it holds one request at most. -/
theorem flushes_iff (h : PeerHost V) {header : ConsensusHeader} (own : header.termId = h.info.termId)
    (returns : ∀ k, env.send k = true) : h.Flushes env header ↔ h.appendEntryRequestLst.length ≤ 1 := by
  obtain ⟨sent, kept⟩ := handleLeaderHeartbeatRequest_buffer h header own returns
  have half := (length_flushLoop returns header.source 0 h.appendEntryRequestLst).2
  rw [Flushes, sent, kept]
  constructor
  · rintro ⟨-, none⟩
    rw [none, List.length_nil] at half
    omega
  · intro few
    have none : (flushLoop env header.source 0 h.appendEntryRequestLst).2.1 = [] := by
      refine List.eq_nil_of_length_eq_zero ?_
      omega
    obtain ⟨requests, out, all⟩ := flushLoop_perm env header.source 0 h.appendEntryRequestLst
    rw [none, List.append_nil] at all
    rw [out]
    exact ⟨all.map _, none⟩

end

/-- A peer of a topic that has buffered these values. -/
def bufferedPeer (values : List String) : PeerHost String :=
  { PeerHost.start (.localhost 4000) {} ⟨"topic", 0, 0⟩ (Env.calm 0 []) with
    appendEntryRequestLst := values.map fun value => ⟨⟨"topic", 0, "", 0⟩, value, false⟩ }

/-- A single request is flushed. -/
theorem flushes_one : (bufferedPeer ["x"]).Flushes (Env.calm 10 []) ⟨"topic", 0, "localhost", 4001⟩ :=
  (flushes_iff (bufferedPeer ["x"]) rfl fun _ => rfl).mpr (by decide)

/-- One of two requests stays. -/
theorem not_flushes_two : ¬ (bufferedPeer ["x", "y"]).Flushes (Env.calm 10 []) ⟨"topic", 0, "localhost", 4001⟩ := by
  rintro ⟨-, none⟩
  have returns : ∀ k, (Env.calm 10 []).send k = true := fun _ => rfl
  have kept := (handleLeaderHeartbeatRequest_buffer (bufferedPeer ["x", "y"]) ⟨"topic", 0, "localhost", 4001⟩ rfl
    returns).2
  have half := (length_flushLoop returns ⟨"localhost", 4001⟩ 0 (bufferedPeer ["x", "y"]).appendEntryRequestLst).2
  have left := congrArg List.length (kept.symm.trans none)
  exact absurd (half.symm.trans left) (by decide)

end PeerHost

/-! ## The leader a peer knows -/

namespace Cluster

section
variable {ι V : Type*} [DecidableEq ι] [DecidableEq V] (C : Cluster ι)

/-- A peer that does not lead forwards a client's request to other nodes only. -/
def ForwardsToOthers (s : ClusterState ι V) : Prop :=
  ∀ (i : ι) (env : Env) (request : AppendEntryRequest V), request.isProxified = false → (s.hosts i).state ≠ .LEADER →
    ∀ sent ∈ ((s.hosts i).handleRaftConsensusPackage env (.appendEntryRequest request)).2, sent.1 ≠ C.addr i

/-- A peer gets a heartbeat of its own node only while it leads; and a leader that gets a vote request with a higher
index has last heard of another node. -/
def HearsOther (s : ClusterState ι V) (e : Envelope ι V) : Prop :=
  match e.pkg with
  | .leaderHeartbeatRequest header =>
    header.termId = (s.hosts e.dst).info.termId → header.source = C.addr e.dst → (s.hosts e.dst).state = .LEADER
  | .voteRequest header =>
    (s.hosts e.dst).info.termId = header.termId → (s.hosts e.dst).info.confirmedTermIndex < header.termIndex →
      (s.hosts e.dst).state = .LEADER → ∀ leader ∈ (s.hosts e.dst).activeLeader, leader.node ≠ C.addr e.dst
  | _ => True

@[inherit_doc HearsOther]
def HearsOthers (s : ClusterState ι V) : ClusterAction ι V → Prop
  | .deliver k _ => ∀ e ∈ s.network[k]?, C.HearsOther s e
  | _ => True

/-- A peer that does not lead takes another node for the leader. -/
def FollowsOthers (s : ClusterState ι V) : Prop :=
  ∀ i, (s.hosts i).state ≠ .LEADER → ∀ leader ∈ (s.hosts i).activeLeader, leader.node ≠ C.addr i

variable {C} {s t : ClusterState ι V} {a : ClusterAction ι V}

omit [DecidableEq ι] in
theorem FollowsOthers.forwards (follows : C.FollowsOthers s) : C.ForwardsToOthers s := by
  intro i env request client follower sent member
  have effect := PeerHost.package_effect env (s.hosts i) (.appendEntryRequest request)
  cases effect.answer member with
  | forwarded request leader client known => exact follows i follower leader known

omit [DecidableEq V] in
theorem FollowsOthers.step (follows : C.FollowsOthers s) (hears : C.HearsOthers s a) (taken : C.Step s a t) :
    C.FollowsOthers t := by
  have elsewhere {i j : ι} (other : j ≠ i) (h' : PeerHost V) : Function.update s.hosts i h' j = s.hosts j :=
    Function.update_of_ne other h' s.hosts
  intro j
  cases taken with
  | lose | duplicate | client => exact follows j
  | appendEntry i logRecord =>
    by_cases same : j = i
    · subst same
      simpa [PeerHost.appendEntry] using follows j
    · simpa only [elsewhere same] using follows j
  | @elapsed i env timer queued h' sent effect =>
    by_cases same : j = i
    · subst same
      simp only [finish, Function.update_self, effect.keeps_leader]
      exact fun follower => follows j fun leads => follower (effect.keeps_leading leads)
    · simpa only [finish, elsewhere same] using follows j
  | @deliver k env before after e position split h' sent effect =>
    by_cases same : j = e.dst
    · subst same
      simp only [finish, Function.update_self]
      have hears := hears e position
      rw [HearsOther] at hears
      generalize e.pkg = pkg at effect hears
      cases effect with
      | ignored | refused | counted | appended | forwarded | buffered | replicated => exact follows e.dst
      | followed header base leader requests kept returned term stepsDown source flushed same =>
        rw [same.state, same.activeLeader]
        rintro follower _ ⟨⟩ own
        have leads := hears term (source ▸ own)
        rcases stepsDown with rfl | ⟨candidate, -⟩
        · exact follower leads
        · rw [leads] at candidate
          cases candidate
      | granted header returned term newer same =>
        rw [same.activeLeader]
        intro _ leader known
        by_cases leads : (s.hosts e.dst).state = .LEADER
        · exact hears term newer leads leader known
        · exact follows e.dst leads leader known
    · simpa only [finish, elsewhere same] using follows j

/-- **No request is forwarded to the node it came to**, in every run in which no peer that does not lead hears of itself
and no leader that does is made to step down. -/
theorem forwardsToOthers_of_hearsOthers (info : ι → PeerInfo) (options : ι → ConsensusPeerOptions) (env : ι → Env)
    {acts : List (ClusterAction ι V)} (hears : Along C.step C.HearsOthers (C.startWith info options env) acts) :
    Always C.step C.ForwardsToOthers (C.startWith info options env) acts := by
  -- nobody follows anybody at first
  have follows : Always C.step C.FollowsOthers (C.startWith info options env) acts :=
    always_of_along (fun _ _ _ follows hears taken => follows.step hears (C.step_cases taken)) (fun _ _ _ known => nomatch known) hears
  exact follows.imp fun _ => FollowsOthers.forwards

instance decidableHearsOther (s : ClusterState ι V) : DecidablePred (C.HearsOther s)
  | ⟨_, .leaderHeartbeatRequest _, _, _, _⟩ => inferInstanceAs (Decidable (_ → _ → _ = _))
  | ⟨_, .voteRequest _, _, _, _⟩ => inferInstanceAs (Decidable (_ → _ → _ → ∀ leader ∈ _, _ ≠ _))
  | ⟨_, .voteResult _, _, _, _⟩ | ⟨_, .appendEntryRequest _, _, _, _⟩ | ⟨_, .leaderHeartbeatResult _, _, _, _⟩ =>
    isTrue trivial

instance decidableHearsOthers (s : ClusterState ι V) : DecidablePred (C.HearsOthers s)
  | .deliver k _ => inferInstanceAs (Decidable (∀ e ∈ s.network[k]?, _))
  | .elapsed _ _ _ _ | .duplicate _ | .lose _ | .client _ _ | .appendEntry _ _ => isTrue trivial

/-- Node 0 is elected and its heartbeats reach both nodes; then node 1 gets a client's request. -/
def forwarding : List (ClusterAction (Fin 2) String) :=
  let env := fun now => Env.calm now (Cluster.localhost 2).members
  [.elapsed node0 (env 5000) .checkLeaderHeartbeat false, .deliver 0 (env 5010), .deliver 0 (env 5020),
   .elapsed node0 (env 5100) .electionCheck false, .elapsed node0 (env 5200) .leaderHeartbeat false,
   .deliver 0 (env 5210), .deliver 0 (env 5220), .client node1 "x", .deliver 2 (env 5230)]

theorem forwardsToOthers_forwarding :
    ∃ t, run (Cluster.localhost 2).step (started 2) forwarding = some t ∧ (Cluster.localhost 2).ForwardsToOthers t := by
  have hears : Along (Cluster.localhost 2).step (HearsOthers (Cluster.localhost 2)) (started 2) forwarding := by
    decide +kernel
  have checked : (run (Cluster.localhost 2).step (started 2) forwarding).any (fun t => decide
      ((t.hosts 0).state = .LEADER)) = true := by decide +kernel
  obtain ⟨t, reached, -⟩ := run_checked checked
  exact ⟨t, reached, (forwardsToOthers_of_hearsOthers _ _ _ hears).reached reached⟩

/-- After node 0 has heard of itself, node 1 stands for a newer term and node 0 steps down. -/
def deposed : List (ClusterAction (Fin 2) String) :=
  let env := fun now => Env.calm now (Cluster.localhost 2).members
  [.elapsed node0 (env 5000) .checkLeaderHeartbeat false, .deliver 0 (env 5010), .deliver 0 (env 5020),
   .elapsed node0 (env 5100) .electionCheck false, .elapsed node0 (env 5200) .leaderHeartbeat false,
   .deliver 0 (env 5210), .elapsed node1 (env 5250) .checkLeaderHeartbeat false, .deliver 2 (env 5260)]

/-- Node 0 then sends what clients ask of it to itself. -/
theorem deposed_forwards_to_itself :
    ∃ t, run (Cluster.localhost 2).step (started 2) deposed = some t ∧ (t.hosts 0).state ≠ .LEADER ∧
      ¬ (Cluster.localhost 2).ForwardsToOthers t := by
  have checked : (run (Cluster.localhost 2).step (started 2) deposed).any (fun t => decide
      ((t.hosts 0).state ≠ .LEADER ∧ ((t.hosts 0).handleRaftConsensusPackage (Env.calm 5300 [])
        (.appendEntryRequest ⟨⟨"topic", 0, "", 0⟩, "x", false⟩)).2.map Prod.fst =
          [(Cluster.localhost 2).addr 0])) = true := by
    decide +kernel
  obtain ⟨t, reached, follower, sent⟩ := run_checked checked
  refine ⟨t, reached, follower, fun forwards => ?_⟩
  obtain ⟨p, member, itself⟩ : ∃ p ∈ _, Prod.fst p = _ := List.mem_map.mp (sent ▸ List.mem_singleton_self _)
  exact forwards 0 _ _ rfl follower p member itself

end

end Cluster

end FaasNet.RaftConsensus
