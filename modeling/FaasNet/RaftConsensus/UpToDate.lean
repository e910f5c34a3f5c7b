import FaasNet.RaftConsensus.Cluster

/-!
# A vote is only granted to a peer whose log is as long

A voter compares the candidate's `TermIndex`, one more than its `ConfirmedTermIndex` when it sent
the request, with its own `ConfirmedTermIndex`. Both only grow, so what held when the request was
sent holds when the answer arrives, however late, and ever after.
-/

namespace FaasNet.RaftConsensus

open FaasNet.Lib

namespace Cluster

section
variable {ι V : Type*} [DecidableEq ι] {C : Cluster ι}
variable {s t : ClusterState ι V} {a : ClusterAction ι V}

/-- The granted vote `e` carries the confirmed index of its voter, and the peer it goes to has at
least as many records. -/
structure BacksLog (s : ClusterState ι V) (e : Envelope ι V) : Prop where
  recorded : e ∈ s.grants
  carried : e.pkg.header.termIndex = e.confirmed
  bounded : e.confirmed ≤ (s.hosts e.dst).info.confirmedTermIndex

theorem BacksLog.step {e : Envelope ι V} (backs : BacksLog s e) (taken : C.Step s a t) : BacksLog t e where
  recorded := by
    obtain ⟨new, grants, _⟩ := taken.grants
    rw [grants]
    exact List.mem_append_left _ backs.recorded
  carried := backs.carried
  bounded := le_trans backs.bounded (taken.grows e.dst).confirmed

variable (C) in
/-- A request in flight asks for at most one more than its candidate has confirmed, and every
granted vote, in flight or counted, is backed by the candidate's log. -/
structure UpToDate (s : ClusterState ι V) : Prop where
  wired : C.Wired s
  log : ∀ i, (s.hosts i).LogInvariant
  request : ∀ e ∈ s.network, ∀ header, e.pkg = .voteRequest header →
    ∃ c, header.source = C.addr c ∧ header.termIndex ≤ (s.hosts c).info.confirmedTermIndex + 1
  flying : ∀ e ∈ s.network, e.isGrant → BacksLog s e
  counted : ∀ e ∈ s.counted, BacksLog s e

theorem UpToDate.request_step (inv : C.UpToDate s) (taken : C.Step s a t) :
    ∀ e ∈ t.network, ∀ header, e.pkg = .voteRequest header →
      ∃ c, header.source = C.addr c ∧ header.termIndex ≤ (t.hosts c).info.confirmedTermIndex + 1 := by
  intro e member header vote
  rcases taken.voteRequest member vote with old | ⟨i, nodes, _, same, _, _, rfl⟩
  · obtain ⟨c, source, bound⟩ := inv.request e old header vote
    have grown := (taken.grows c).confirmed
    exact ⟨c, source, by omega⟩
  · refine ⟨i, inv.wired.node i, ?_⟩
    have grown := (taken.grows i).confirmed
    show (s.hosts i).info.confirmedTermIndex + 1 ≤ _
    omega

/-- A follower answers with its confirmed index, and a request is only granted above it. -/
theorem UpToDate.flying_step (inv : C.UpToDate s) (taken : C.Step s a t) :
    ∀ e ∈ t.network, e.isGrant → BacksLog t e := by
  intro e member grant
  obtain ⟨new, grants, _, recorded⟩ := taken.grants
  rcases taken.grant member grant with old | ⟨d, header, inFlight, vote, _, newer, located, made⟩
  · exact (inv.flying e old grant).step taken
  have fresh : e ∈ t.grants := by
    rw [grants]
    rcases recorded e member grant with old | new
    · exact List.mem_append_left _ (inv.flying e old grant).recorded
    · exact List.mem_append_right _ new
  obtain ⟨c, source, bound⟩ := inv.request d inFlight header vote
  have target : c = e.dst := by
    rw [source, C.locate_addr] at located
    exact Option.some.inj located
  have answered : (s.hosts d.dst).asFollower.info.termIndex = (s.hosts d.dst).info.confirmedTermIndex := by
    rw [(inv.log d.dst).asFollower.follower rfl, PeerHost.asFollower_confirmed]
  have grown := (taken.grows c).confirmed
  refine ⟨fresh, ?_, ?_⟩
  · rw [made]
    exact answered
  · rw [← target, made]
    show (s.hosts d.dst).info.confirmedTermIndex ≤ _
    omega

theorem UpToDate.step (inv : C.UpToDate s) (first : AppendsFirst s a) (taken : C.Step s a t) : C.UpToDate t where
  wired := inv.wired.step taken
  log := taken.logInvariant first inv.log
  request := inv.request_step taken
  flying := inv.flying_step taken
  counted := by
    intro e member
    rcases taken.counted member with old | ⟨flying, grant⟩
    · exact (inv.counted e old).step taken
    · exact (inv.flying e flying grant).step taken

omit [DecidableEq ι] in
theorem start_upToDate (termId : String) (options : ι → ConsensusPeerOptions) (env : ι → Env) :
    C.UpToDate (C.start (V := V) termId options env) where
  wired := startWith_wired _ options env
  log := fun i => PeerHost.start_logInvariant (C.nodeOptions i) (options i) termId (env i)
  request := by simp [start, startWith]
  flying := by simp [start, startWith]
  counted := by simp [start, startWith]

end

section
variable {ι V : Type*} [DecidableEq ι] [DecidableEq V] (C : Cluster ι)

/-- **Votes follow the longer log.** In every state a cluster reaches, with packages lost, delayed,
reordered and duplicated at will, each granted vote in flight to a peer or counted by it carries
the `ConfirmedTermIndex` its voter had when it granted, which was the length of the voter's log, and
the peer it goes to has at least that many records, then and ever after. -/
theorem granted_votes_up_to_date (termId : String) (options : ι → ConsensusPeerOptions) (env : ι → Env)
    {acts : List (ClusterAction ι V)} {t : ClusterState ι V}
    (once : Along C.step AppendsFirst (C.start termId options env) acts)
    (reached : run C.step (C.start termId options env) acts = some t) :
    (∀ e, (e ∈ t.network ∧ e.isGrant) ∨ e ∈ t.counted →
      e ∈ t.grants ∧ e.pkg.header.termIndex = e.confirmed ∧
      ∀ later u, Along C.step AppendsFirst t later → run C.step t later = some u →
        e.confirmed ≤ (u.hosts e.dst).info.confirmedTermIndex ∧
        e.confirmed ≤ (u.hosts e.dst).logRecords.length) ∧
    ∀ a u, AppendsFirst t a → C.step t a = some u → ∀ e ∈ u.grants.drop t.grants.length,
      ∃ voter, e.src = some voter ∧ e.confirmed = (u.hosts voter).info.confirmedTermIndex ∧
        e.confirmed = (u.hosts voter).logRecords.length := by
  have preserved (s : ClusterState ι V) (a : ClusterAction ι V) (u : ClusterState ι V) (inv : C.UpToDate s)
      (first : AppendsFirst s a) (taken : C.step s a = some u) : C.UpToDate u :=
    inv.step first (C.step_cases taken)
  have inv : C.UpToDate t := run_invariant C.UpToDate preserved (start_upToDate termId options env) once reached
  constructor
  · intro e counts
    have backs : BacksLog t e := by
      rcases counts with ⟨flying, grant⟩ | counted
      · exact inv.flying e flying grant
      · exact inv.counted e counted
    refine ⟨backs.recorded, backs.carried, ?_⟩
    intro later u along run
    have both : C.UpToDate u ∧ BacksLog u e := by
      apply run_invariant (fun u => C.UpToDate u ∧ BacksLog u e) _ ⟨inv, backs⟩ along run
      intro s a v ⟨inv, backs⟩ first taken
      exact ⟨preserved s a v inv first taken, backs.step (C.step_cases taken)⟩
    exact ⟨both.2.bounded, (both.1.log e.dst).confirmed ▸ both.2.bounded⟩
  · intro a u first taken e member
    obtain ⟨new, grants, made, _⟩ := (C.step_cases taken).grants
    rw [grants, List.drop_left] at member
    obtain ⟨voter, source, confirmed⟩ := made e member
    have log := ((preserved t a u inv first taken).log voter).confirmed
    exact ⟨voter, source, confirmed, confirmed.trans log⟩

/-- Node 1 grants its vote to node 0, which counts it and becomes leader. -/
def election : List (ClusterAction (Fin 2) String) :=
  let nodes := (Cluster.localhost 2).members
  [.elapsed node0 (.calm 5000 nodes) .checkLeaderHeartbeat false,
   .deliver 0 (.calm 5100 nodes),
   .deliver 0 (.calm 5200 nodes),
   .elapsed node0 (.calm 5300 nodes) .electionCheck false]

theorem granted_votes_up_to_date_election :
    ∃ t e, run (Cluster.localhost 2).step (started 2) election = some t ∧
      t.counted = [e] ∧ e.src = some 1 ∧ e.dst = 0 ∧ (t.hosts 0).state = .LEADER ∧
      e.pkg.header.termIndex = e.confirmed ∧ e.confirmed ≤ (t.hosts 0).logRecords.length := by
  have once : Along (Cluster.localhost 2).step AppendsFirst (started 2) election :=
    ⟨trivial, fun _ _ => ⟨trivial, fun _ _ => ⟨trivial, fun _ _ => ⟨trivial, fun _ _ => trivial⟩⟩⟩⟩
  refine ⟨_, _, rfl, rfl, rfl, rfl, rfl, ?_⟩
  have result := (granted_votes_up_to_date _ _ _ _ once rfl).1 _ (.inr (List.mem_singleton.mpr rfl))
  exact ⟨result.2.1, (result.2.2 [] _ trivial rfl).2⟩

end

end Cluster

end FaasNet.RaftConsensus
