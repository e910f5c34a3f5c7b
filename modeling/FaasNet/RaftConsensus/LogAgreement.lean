import Mathlib.Data.Fintype.Basic
import FaasNet.RaftConsensus.Cluster

/-!
# Agreement of the logs

A follower stores a proxified entry under its own next index and looks at the index of the request
only to drop an entry it already has. `Routed` says why this is the index the leader read the record
at: a heartbeat result never claims more than its sender has confirmed, and an entry in flight is
at most one ahead of the peer it goes to. It holds in every run. That the logs agree rests, beyond
this, on leaders that append only beyond the records of all others, which the code does not see to.
-/

namespace FaasNet.RaftConsensus

open FaasNet.Lib

namespace Cluster

section
variable {ι V : Type*} [DecidableEq ι] {C : Cluster ι}
variable {s t : ClusterState ι V} {a : ClusterAction ι V}

/-- The peers by themselves: no node calls the public `AppendEntry` of its peer. -/
def PeersOnly : ClusterAction ι V → Prop
  | .appendEntry _ _ => False
  | _ => True

instance decidablePeersOnly : DecidablePred (PeersOnly (ι := ι) (V := V))
  | .appendEntry _ _ => isFalse id
  | .elapsed _ _ _ _ | .deliver _ _ | .lose _ | .duplicate _ | .client _ _ => isTrue trivial

omit [DecidableEq ι] in
theorem PeersOnly.appendsFirst (peers : PeersOnly a) : AppendsFirst s a := by
  cases a with
  | appendEntry => exact absurd peers id
  | elapsed | deliver | lose | duplicate | client => trivial

variable (C) in
/-- What is in flight about logs: heartbeat results and proxified entries. -/
structure Routed (s : ClusterState ι V) : Prop where
  wired : C.Wired s
  log : ∀ i, (s.hosts i).LogInvariant
  result : ∀ e ∈ s.network, ∀ header, e.pkg = .leaderHeartbeatResult header →
    ∃ i, header.source = C.addr i ∧ header.termIndex ≤ (s.hosts i).info.confirmedTermIndex
  entry : ∀ e ∈ s.network, ∀ request, e.pkg = .appendEntryRequest request → request.isProxified = true →
    request.header.termIndex ≤ (s.hosts e.dst).info.confirmedTermIndex + 1 ∧
    ∃ j, ⟨request.header.termIndex, request.value⟩ ∈ (s.hosts j).logRecords

theorem Routed.entry_step (inv : C.Routed s) (taken : C.Step s a t) :
    ∀ e ∈ t.network, ∀ request, e.pkg = .appendEntryRequest request → request.isProxified = true →
      request.header.termIndex ≤ (t.hosts e.dst).info.confirmedTermIndex + 1 ∧
      ∃ j, ⟨request.header.termIndex, request.value⟩ ∈ (t.hosts j).logRecords := by
  intro e member request entry proxified
  rcases taken.proxified inv.wired member entry proxified with
    old | ⟨d, header, record, inFlight, result, _, found, located, index, value⟩
  · obtain ⟨bound, j, held⟩ := inv.entry e old request entry proxified
    have grown := (taken.grows e.dst).confirmed
    exact ⟨by omega, j, (taken.grows j).log.subset held⟩
  · obtain ⟨i, source, bound⟩ := inv.result d inFlight header result
    have target : i = e.dst := by
      rw [source, C.locate_addr] at located
      exact Option.some.inj located
    have grown := (taken.grows i).confirmed
    refine ⟨by rw [index, ← target]; omega, d.dst, (taken.grows d.dst).log.subset ?_⟩
    -- the record is the one the leader found under the index it puts into the request
    have single : ∀ a ∈ (s.hosts d.dst).logRecords, ∀ b ∈ (s.hosts d.dst).logRecords, a.index = b.index → a = b :=
      fun a ha b hb => (inv.log d.dst).single ha hb
    obtain ⟨held, at_index⟩ := (PeerHost.getRecord_eq_some_iff single).mp found
    rw [index, value, ← at_index]
    exact held

theorem Routed.step (inv : C.Routed s) (peers : PeersOnly a) (taken : C.Step s a t) : C.Routed t where
  wired := inv.wired.step taken
  log := taken.logInvariant peers.appendsFirst inv.log
  result := by
    intro e member header result
    rcases taken.heartbeatResult member result with old | ⟨i, rfl⟩
    · obtain ⟨i, source, bound⟩ := inv.result e old header result
      exact ⟨i, source, le_trans bound (taken.grows i).confirmed⟩
    · exact ⟨i, inv.wired.node i, (taken.grows i).confirmed⟩
  entry := inv.entry_step taken

omit [DecidableEq ι] in
theorem start_routed (termId : String) (options : ι → ConsensusPeerOptions) (env : ι → Env) :
    C.Routed (C.start (V := V) termId options env) where
  wired := startWith_wired _ options env
  log := fun i => PeerHost.start_logInvariant (C.nodeOptions i) (options i) termId (env i)
  result := by simp [start, startWith]
  entry := by simp [start, startWith]

omit [DecidableEq ι] in
/-- Whatever record a delivered entry adds, a proxified one carries its index. -/
theorem Routed.proxified_index (inv : C.Routed s) {e : Envelope ι V} (member : e ∈ s.network)
    {request : AppendEntryRequest V} (entry : e.pkg = .appendEntryRequest request)
    (proxified : request.isProxified = true)
    (missing : (s.hosts e.dst).info.confirmedTermIndex < request.header.termIndex) :
    request.header.termIndex = (s.hosts e.dst).info.confirmedTermIndex + 1 := by
  have bound := (inv.entry e member request entry proxified).1
  omega

/-! ## Agreement -/

/-- Records of one index have one value. -/
def LogsAgree (s : ClusterState ι V) : Prop :=
  ∀ i j, ∀ r ∈ (s.hosts i).logRecords, ∀ q ∈ (s.hosts j).logRecords, r.index = q.index → r.value = q.value

/-- A leader that takes the request of a client has confirmed at least as much as every other peer. -/
def AppendsAhead (s : ClusterState ι V) : ClusterAction ι V → Prop
  | .deliver k _ => ∀ e ∈ s.network[k]?, e.pkg.clientValues ≠ [] → (s.hosts e.dst).state = .LEADER →
      ∀ j, (s.hosts j).info.confirmedTermIndex ≤ (s.hosts e.dst).info.confirmedTermIndex
  | _ => True

instance decidableAppendsAhead [Fintype ι] [DecidableEq V] (s : ClusterState ι V) : DecidablePred (AppendsAhead s)
  | .deliver k _ => inferInstanceAs (Decidable (∀ e ∈ s.network[k]?, _ → _ → ∀ _ : ι, _ ≤ _))
  | .elapsed _ _ _ _ | .lose _ | .duplicate _ | .client _ _ | .appendEntry _ _ => isTrue trivial

/-- A record that a step adds agrees with every record there was. -/
theorem Routed.new_agrees (inv : C.Routed s) (agree : LogsAgree s) (peers : PeersOnly a) (ahead : AppendsAhead s a)
    (taken : C.Step s a t) {i j : ι} {r q : LogRecord V} (new : r ∈ (t.hosts i).logRecords)
    (old : q ∈ (s.hosts j).logRecords) (same : r.index = q.index) : r.value = q.value := by
  rcases taken.record new with held | ⟨k, env, e, request, rfl, position, rfl, entry, allowed, missing, rfl⟩ | rfl
  · exact agree i j r held q old same
  · have member := List.mem_of_getElem? position
    cases proxified : request.isProxified with
    | true =>
      obtain ⟨_, l, held⟩ := inv.entry e member request entry proxified
      have index := inv.proxified_index member entry proxified (missing proxified)
      exact agree l j _ held q old (index.trans same)
    | false =>
      have leader : (s.hosts e.dst).state = .LEADER := by simpa [proxified] using allowed
      have client : e.pkg.clientValues ≠ [] := by simp [entry, ConsensusPackage.clientValues, proxified]
      have bound := ahead e position client leader j
      obtain ⟨n, found, index⟩ := (inv.log j).index_eq old
      have inside : n < (s.hosts j).logRecords.length := (List.getElem?_eq_some_iff.mp found).1
      have confirmed := (inv.log j).confirmed
      have impossible : (s.hosts e.dst).info.confirmedTermIndex + 1 = q.index := same
      omega
  · exact absurd peers id

theorem Routed.agree_step (inv : C.Routed s) (agree : LogsAgree s) (peers : PeersOnly a) (ahead : AppendsAhead s a)
    (taken : C.Step s a t) : LogsAgree t := by
  intro i j r hr q hq same
  rcases taken.record hq with old | ⟨k, env, e, request, rfl, position, target, entry, _, _, made⟩ | rfl
  · exact inv.new_agrees agree peers ahead taken hr old same
  · rcases taken.record hr with old | ⟨_, _, e', request', again, position', _, entry', _, _, made'⟩ | other
    · exact (inv.new_agrees agree peers ahead taken hq old same.symm).symm
    · -- both records are the one this delivery adds
      obtain ⟨rfl, rfl⟩ := ClusterAction.deliver.inj again
      obtain rfl : e = e' := Option.some.inj (position.symm.trans position')
      obtain rfl : request = request' := ConsensusPackage.appendEntryRequest.inj (entry.symm.trans entry')
      rw [made, made']
    · cases other
  · exact absurd peers id

end

section
variable {ι V : Type*} [DecidableEq ι] [DecidableEq V] (C : Cluster ι)

/-- **Log agreement.** In every run of the peers of a topic whose leaders take a client's request
only when no other peer has confirmed more, two records of one index have one value, in every
state; packages are lost, delayed, reordered and duplicated at will. -/
theorem logs_agree_of_appends_ahead (termId : String) (options : ι → ConsensusPeerOptions) (env : ι → Env)
    {acts : List (ClusterAction ι V)} {t : ClusterState ι V}
    (ahead : Along C.step (fun s a => PeersOnly a ∧ AppendsAhead s a) (C.start termId options env) acts)
    (reached : run C.step (C.start termId options env) acts = some t) : LogsAgree t := by
  have both : C.Routed t ∧ LogsAgree t := by
    refine run_invariant (fun u => C.Routed u ∧ LogsAgree u) ?_ ⟨start_routed termId options env, ?_⟩ ahead reached
    · intro s a u ⟨inv, agree⟩ ⟨peers, ahead⟩ taken
      have taken := C.step_cases taken
      exact ⟨inv.step peers taken, inv.agree_step agree peers ahead taken⟩
    · intro i j r member
      simp [start, startWith, PeerHost.start, PeerHost.startCheckLeaderHeartbeat] at member
  exact both.2

/-- Node 0 is elected, appends `x`, and hands it on to node 1 when that answers a heartbeat. -/
def oneLeader : List (ClusterAction (Fin 2) String) :=
  let env := fun now => Env.calm now (Cluster.localhost 2).members
  [.elapsed node0 (env 5000) .checkLeaderHeartbeat false, .deliver 0 (env 5010), .deliver 0 (env 5020),
   .elapsed node0 (env 5100) .electionCheck false,
   .client node0 "x", .deliver 0 (env 5200),
   .elapsed node0 (env 5300) .leaderHeartbeat false,
   .deliver 1 (env 5310), .deliver 1 (env 5320), .deliver 1 (env 5330)]

theorem logs_agree_of_appends_ahead_oneLeader :
    ∃ t, run (Cluster.localhost 2).step (started 2) oneLeader = some t ∧
      (t.hosts 0).logRecords = [⟨1, "x"⟩] ∧ (t.hosts 1).logRecords = [⟨1, "x"⟩] ∧ LogsAgree t := by
  have ahead : Along (Cluster.localhost 2).step (fun s a => PeersOnly a ∧ AppendsAhead s a) (started 2) oneLeader := by
    decide +kernel
  have checked : (run (Cluster.localhost 2).step (started 2) oneLeader).any (fun t => decide
      ((t.hosts 0).logRecords = [⟨1, "x"⟩] ∧ (t.hosts 1).logRecords = [⟨1, "x"⟩])) = true := by decide +kernel
  obtain ⟨t, reached, zero, one⟩ := run_checked checked
  exact ⟨t, reached, zero, one, logs_agree_of_appends_ahead _ _ _ _ ahead reached⟩

/-- Node 0 is elected by nodes 2 and 3 and appends `x`; before any heartbeat of it arrives, node 1
is elected by the same two and appends `y`. -/
def twoLeaders : List (ClusterAction (Fin 4) String) :=
  let env := fun now => Env.calm now (Cluster.localhost 4).members
  [.elapsed node0 (env 5000) .checkLeaderHeartbeat false,
   .deliver 1 (env 5010), .deliver 1 (env 5020), .deliver 1 (env 5030), .deliver 1 (env 5040),
   .elapsed node0 (env 5100) .electionCheck false,
   .client node0 "x", .deliver 1 (env 5200),
   .elapsed node1 (env 5300) .checkLeaderHeartbeat false,
   .deliver 2 (env 5310), .deliver 2 (env 5320), .deliver 2 (env 5330), .deliver 2 (env 5340),
   .elapsed node1 (env 5400) .electionCheck false,
   .client node1 "y", .deliver 2 (env 5500)]

/-- The two leaders of four nodes append different values at the same index. -/
theorem twoLeaders_disagree :
    ∃ t, run (Cluster.localhost 4).step (started 4) twoLeaders = some t ∧
      (t.hosts 0).logRecords = [⟨1, "x"⟩] ∧ (t.hosts 1).logRecords = [⟨1, "y"⟩] ∧ ¬ LogsAgree t := by
  have checked : (run (Cluster.localhost 4).step (started 4) twoLeaders).any (fun t => decide
      ((t.hosts 0).logRecords = [⟨1, "x"⟩] ∧ (t.hosts 1).logRecords = [⟨1, "y"⟩])) = true := by decide
  obtain ⟨t, reached, zero, one⟩ := run_checked checked
  refine ⟨t, reached, zero, one, ?_⟩
  intro agree
  have same : "x" = "y" := agree 0 1 ⟨1, "x"⟩ (by simp [zero]) ⟨1, "y"⟩ (by simp [one]) rfl
  exact absurd same (by decide)

end

end Cluster

end FaasNet.RaftConsensus
