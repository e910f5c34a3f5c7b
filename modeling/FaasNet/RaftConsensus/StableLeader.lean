import FaasNet.RaftConsensus.LogAgreement

/-!
# Replication under one leader

As long as one peer leads and no other does, every record anywhere was appended by that leader, so
each log is a prefix of the leader's. An entry that was delivered once is dropped when it comes
again, at any later moment.
-/

namespace FaasNet.RaftConsensus

open FaasNet.Lib

namespace PeerHost

section
variable {V : Type*} {h g : PeerHost V}

/-- A log whose records another log holds is a prefix of it: a record's index is its place. -/
theorem LogInvariant.log_begins (inv : LogInvariant h) (inv' : LogInvariant g)
    (held : ∀ r ∈ h.logRecords, r ∈ g.logRecords) : h.logRecords <+: g.logRecords := by
  apply List.prefix_iff_getElem?.mpr
  intro k inside
  have here : h.logRecords[k]? = some h.logRecords[k] := List.getElem?_eq_getElem inside
  obtain ⟨l, there, index⟩ := inv'.index_eq (held _ (List.getElem_mem inside))
  have place := inv.numbered k _ here
  obtain rfl : k = l := by omega
  exact there

variable [DecidableEq V]

/-- A proxified entry up to the confirmed index is dropped. -/
theorem applied_again (env : Env) {request : AppendEntryRequest V} (proxified : request.isProxified = true)
    (applied : request.header.termIndex ≤ h.info.confirmedTermIndex) :
    h.handleRaftConsensusPackage env (.appendEntryRequest request) = (h, []) := by
  have dropped : h.appendEntryOf request = h := by simp [appendEntryOf, proxified, applied]
  rw [package_silent { host := h } (by simp [handle, handleAppendEntryRequest, proxified, dropped]) rfl]

/-- Once a peer has handled a proxified entry at most one ahead of it, it has confirmed it. -/
theorem applied_once (env : Env) {request : AppendEntryRequest V} (proxified : request.isProxified = true)
    (near : request.header.termIndex ≤ h.info.confirmedTermIndex + 1) :
    request.header.termIndex ≤
      (h.handleRaftConsensusPackage env (.appendEntryRequest request)).1.info.confirmedTermIndex := by
  by_cases applied : request.header.termIndex ≤ h.info.confirmedTermIndex
  · rw [applied_again env proxified applied]
    exact applied
  · have appended : h.appendEntryOf request = h.appendEntry ⟨h.info.confirmedTermIndex + 1, request.value⟩ := by
      simp [appendEntryOf, applied]
    rw [package_silent { host := h.appendEntryOf request }
      (by simp [handle, handleAppendEntryRequest, proxified]) rfl, appended]
    exact near

end

end PeerHost

namespace Cluster

section
variable {ι V : Type*} [DecidableEq ι] {C : Cluster ι}
variable {s t : ClusterState ι V} {a : ClusterAction ι V}

/-- Before the action, `leader` is the one leader among the peers. -/
def LedBy (leader : ι) (s : ClusterState ι V) (a : ClusterAction ι V) : Prop :=
  PeersOnly a ∧ (s.hosts leader).state = .LEADER ∧ ∀ j, (s.hosts j).state = .LEADER → j = leader

instance decidableLedBy [Fintype ι] (leader : ι) (s : ClusterState ι V) : DecidablePred (LedBy leader s) :=
  fun a => inferInstanceAs (Decidable (PeersOnly a ∧ _ = _ ∧ ∀ _ : ι, _ → _))

/-- The leader holds every record. -/
def HoldsAll (leader : ι) (s : ClusterState ι V) : Prop :=
  ∀ i, ∀ r ∈ (s.hosts i).logRecords, r ∈ (s.hosts leader).logRecords

theorem Routed.holds_step {leader : ι} (inv : C.Routed s) (holds : HoldsAll leader s) (led : LedBy leader s a)
    (taken : C.Step s a t) : HoldsAll leader t := by
  obtain ⟨peers, _, only⟩ := led
  intro i r member
  have kept : ∀ q, q ∈ (s.hosts leader).logRecords → q ∈ (t.hosts leader).logRecords :=
    fun q held => (taken.grows leader).log.subset held
  rcases taken.record member with old | ⟨k, env, e, request, rfl, position, rfl, entry, allowed, missing, rfl⟩ | rfl
  · exact kept r (holds i r old)
  · have inFlight := List.mem_of_getElem? position
    cases proxified : request.isProxified with
    | true =>
      obtain ⟨_, j, held⟩ := inv.entry e inFlight request entry proxified
      rw [inv.proxified_index inFlight entry proxified (missing proxified)] at held
      exact kept _ (holds j _ held)
    | false =>
      have self : e.dst = leader := only e.dst (by simpa [proxified] using allowed)
      rw [self] at member ⊢
      exact member
  · exact absurd peers id

end

section
variable {ι V : Type*} [DecidableEq ι] [DecidableEq V] (C : Cluster ι)

theorem run_grows {s t : ClusterState ι V} {acts : List (ClusterAction ι V)} (reached : run C.step s acts = some t)
    (i : ι) : PeerHost.Grows (s.hosts i) (t.hosts i) := by
  induction acts generalizing s with
  | nil =>
    obtain rfl : s = t := Option.some.inj reached
    exact .of_same rfl rfl
  | cons a acts ih =>
    obtain ⟨u, first, rest⟩ := run_cons reached
    have here := (C.step_cases first).grows i
    have later := ih rest
    exact ⟨here.log.trans later.log, le_trans here.confirmed later.confirmed⟩

/-- **Replication under a stable leader.** Let the peers of a topic run until some moment at which
all logs are still empty, and from then on under one leader, with packages lost, duplicated, delayed
and reordered at will. Then each log is a prefix of the leader's log and as long as its
`ConfirmedTermIndex` says, and a proxified entry that was delivered once changes nothing and is
answered with nothing whenever it is delivered again. -/
theorem follower_logs_follow_stable_leader (termId : String) (options : ι → ConsensusPeerOptions) (env : ι → Env)
    (leader : ι) {before acts : List (ClusterAction ι V)} {s t : ClusterState ι V}
    (peers : Along C.step (fun _ a => PeersOnly a) (C.start termId options env) before)
    (started : run C.step (C.start termId options env) before = some s)
    (empty : ∀ i, (s.hosts i).logRecords = [])
    (stable : Along C.step (LedBy leader) s acts) (reached : run C.step s acts = some t) :
    (∀ i, (t.hosts i).logRecords <+: (t.hosts leader).logRecords ∧
      (t.hosts i).info.confirmedTermIndex = (t.hosts i).logRecords.length) ∧
    ∀ k now u, C.step t (.deliver k now) = some u → ∀ e ∈ t.network[k]?, ∀ request,
      e.pkg = .appendEntryRequest request → request.isProxified = true →
      ∀ later v, run C.step u later = some v →
        ∀ again, (v.hosts e.dst).handleRaftConsensusPackage again e.pkg = (v.hosts e.dst, []) := by
  have routed : C.Routed s :=
    run_invariant C.Routed (fun _ _ _ inv peers taken => inv.step peers (C.step_cases taken))
      (start_routed termId options env) peers started
  have both : C.Routed t ∧ HoldsAll leader t := by
    refine run_invariant (fun u => C.Routed u ∧ HoldsAll leader u) ?_ ⟨routed, ?_⟩ stable reached
    · intro u a v ⟨inv, holds⟩ led taken
      have taken := C.step_cases taken
      exact ⟨inv.step led.1 taken, inv.holds_step holds led taken⟩
    · intro i r member
      simp [empty i] at member
  obtain ⟨inv, holds⟩ := both
  refine ⟨fun i => ⟨(inv.log i).log_begins (inv.log leader) (holds i), (inv.log i).confirmed⟩, ?_⟩
  intro k now u taken e position request entry proxified later v run again
  have near := (inv.entry e (List.mem_of_getElem? position) request entry proxified).1
  have once : request.header.termIndex ≤ (u.hosts e.dst).info.confirmedTermIndex := by
    have handled := PeerHost.applied_once now proxified near
    rw [← entry] at handled
    simp only [step, Option.mem_def.mp position, Option.map_some, Option.some.injEq] at taken
    rw [← taken]
    simpa [receive, finish] using handled
  rw [entry]
  exact PeerHost.applied_again again proxified (le_trans once (C.run_grows run e.dst).confirmed)

/-- Node 0 is elected by node 1. -/
def elected : List (ClusterAction (Fin 2) String) :=
  let env := fun now => Env.calm now (Cluster.localhost 2).members
  [.elapsed node0 (env 5000) .checkLeaderHeartbeat false, .deliver 0 (env 5010), .deliver 0 (env 5020),
   .elapsed node0 (env 5100) .electionCheck false]

/-- Node 0 appends `x`, and its entry reaches node 1 while a copy of it is still in flight. -/
def replicating : List (ClusterAction (Fin 2) String) :=
  let env := fun now => Env.calm now (Cluster.localhost 2).members
  [.client node0 "x", .deliver 0 (env 5200), .elapsed node0 (env 5300) .leaderHeartbeat false,
   .deliver 1 (env 5310), .deliver 1 (env 5320), .duplicate 1, .deliver 1 (env 5330)]

theorem follower_logs_follow_stable_leader_replicating :
    ∃ s t, run (Cluster.localhost 2).step (started 2) elected = some s ∧
      run (Cluster.localhost 2).step s replicating = some t ∧
      (t.hosts 0).state = .LEADER ∧ (t.hosts 1).logRecords = [⟨1, "x"⟩] ∧
      (t.hosts 1).logRecords <+: (t.hosts 0).logRecords := by
  have peers : Along (Cluster.localhost 2).step (fun _ a => PeersOnly a) (started 2) elected := by decide
  have checked : (run (Cluster.localhost 2).step (started 2) elected).any (fun s => decide
      ((∀ i, (s.hosts i).logRecords = []) ∧ Along (Cluster.localhost 2).step (LedBy 0) s replicating ∧
        (run (Cluster.localhost 2).step s replicating).any (fun t =>
          decide ((t.hosts 0).state = .LEADER ∧ (t.hosts 1).logRecords = [⟨1, "x"⟩])))) = true := by
    decide +kernel
  obtain ⟨s, begun, empty, stable, ends⟩ := run_checked checked
  obtain ⟨t, reached, leader, log⟩ := run_checked ends
  have follows := follower_logs_follow_stable_leader _ _ _ _ 0 peers begun empty stable reached
  exact ⟨s, t, begun, reached, leader, log, (follows.1 1).1⟩

end

end Cluster

end FaasNet.RaftConsensus
