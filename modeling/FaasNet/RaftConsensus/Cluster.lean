import Mathlib.Logic.Function.Basic
import FaasNet.Lib.Lists
import FaasNet.Lib.Runs
import FaasNet.RaftConsensus.PeerLog

/-!
# The peers of a topic and the network between them

Every peer takes its callbacks one at a time; between two callbacks any package in flight may be
delivered, lost or duplicated, any timer may fire and a client may send a request. The state also
keeps a history that no handler reads: how many elections each peer has started, which round a
package belongs to, who sent it and with which `ConfirmedTermIndex`, which votes were granted and
counted, and which records client requests put into logs.
-/

namespace FaasNet.RaftConsensus

open FaasNet.Lib

/-- The nodes of the peers of a cluster. `locate` is the peer that receives what is sent to an
address: the one a peer writes in its packages leads back to it, and a node may be reached under
other addresses too. -/
structure Cluster (ι : Type*) where
  nodeOptions : ι → ConsensusNodeOptions
  locate : ClusterNode → Option ι
  locate_node : ∀ i, locate (nodeOptions i).node = some i

/-- A package in flight to `dst`. The other fields are history: the peer that sent it (none for a
client), the election round it belongs to, and the sender's `ConfirmedTermIndex` at that moment. -/
structure Envelope (ι V : Type*) where
  dst : ι
  pkg : ConsensusPackage V
  src : Option ι
  round : Nat
  confirmed : Int

/-- The package is a `VOTE_RESULT` that grants the vote. -/
def Envelope.isGrant {ι V : Type*} (e : Envelope ι V) : Bool :=
  match e.pkg with
  | .voteResult result => result.voteGranted
  | _ => false

/-- The peers, the packages in flight, and the history. -/
structure ClusterState (ι V : Type*) where
  hosts : ι → PeerHost V
  network : List (Envelope ι V) := []
  round : ι → Nat := fun _ => 0
  grants : List (Envelope ι V) := []
  counted : List (Envelope ι V) := []
  clientRequests : List V := []
  accepted : List (ι × LogRecord V) := []

/-- What can happen to a cluster. The `k` of the network actions is a position in `network`. -/
inductive ClusterAction (ι V : Type*) where
  | elapsed (i : ι) (env : Env) (timer : PeerTimer) (queued : Bool)
  | deliver (k : Nat) (env : Env)
  | lose (k : Nat)
  | duplicate (k : Nat)
  | client (i : ι) (value : V)
  | appendEntry (i : ι) (logRecord : LogRecord V)

namespace Cluster

section
variable {ι V : Type*} (C : Cluster ι)

/-- The address peer `i` writes in its packages. -/
def addr (i : ι) : ClusterNode := (C.nodeOptions i).node

theorem locate_addr (i : ι) : C.locate (C.addr i) = some i := C.locate_node i

theorem addr_injective {i j : ι} (same : C.addr i = C.addr j) : i = j := by
  have located := C.locate_addr i
  rw [same, C.locate_addr j] at located
  exact (Option.some.inj located).symm

/-- All peers have just been started, each with the `PeerInfo` its node holds for it. -/
def startWith (info : ι → PeerInfo) (options : ι → ConsensusPeerOptions) (env : ι → Env) : ClusterState ι V where
  hosts := fun i => PeerHost.start (C.nodeOptions i) (options i) (info i) (env i)

/-- All peers of topic `termId` have just been started with `PeerInfo (0, 0)`. -/
def start (termId : String) (options : ι → ConsensusPeerOptions) (env : ι → Env) : ClusterState ι V :=
  C.startWith (fun _ => ⟨termId, 0, 0⟩) options env

/-- The packages a callback of `i` sent, on their way. -/
def post (i : ι) (round : Nat) (confirmed : Int) (sent : Sent V) : List (Envelope ι V) :=
  sent.filterMap fun p => (C.locate p.1).map fun dst => ⟨dst, p.2, some i, round, confirmed⟩

theorem mem_post {i : ι} {round : Nat} {confirmed : Int} {sent : Sent V} {e : Envelope ι V} :
    e ∈ C.post i round confirmed sent ↔
      ∃ p ∈ sent, C.locate p.1 = some e.dst ∧ e = ⟨e.dst, p.2, some i, round, confirmed⟩ := by
  simp only [post, List.mem_filterMap, Option.map_eq_some_iff]
  constructor
  · rintro ⟨p, member, dst, located, rfl⟩
    exact ⟨p, member, located, rfl⟩
  · rintro ⟨p, member, located, same⟩
    exact ⟨p, member, e.dst, located, same.symm⟩

/-- A peer starts a new round when it turns from follower to candidate. -/
def nextRound (round : Nat) (h h' : PeerHost V) : Nat :=
  if h.state = .FOLLOWER ∧ h'.state = .CANDIDATE then round + 1 else round

variable [DecidableEq ι]

/-- Peer `i` ends a callback with `result`; what it sent belongs to `round`. -/
def finish (s : ClusterState ι V) (i : ι) (result : PeerHost V × Sent V) (round : Nat) : ClusterState ι V :=
  let posted := C.post i round result.1.info.confirmedTermIndex result.2
  { s with
    hosts := Function.update s.hosts i result.1
    network := s.network ++ posted
    round := Function.update s.round i (nextRound (s.round i) (s.hosts i) result.1)
    grants := s.grants ++ posted.filter (·.isGrant) }

/-- Delivery of `e`, which is no longer in `s.network`: an answer belongs to the round of the
package it answers. -/
def receive [DecidableEq V] (s : ClusterState ι V) (e : Envelope ι V) (env : Env) : ClusterState ι V :=
  let h := s.hosts e.dst
  let result := h.handleRaftConsensusPackage env e.pkg
  C.finish { s with
    counted := if e.isGrant then s.counted ++ [e] else s.counted
    accepted := s.accepted ++ (h.acceptedFrom e.pkg result.1).map fun r => (e.dst, r) } e.dst result e.round

/-- One action of the cluster. -/
def step [DecidableEq V] (s : ClusterState ι V) : ClusterAction ι V → Option (ClusterState ι V)
  | .elapsed i env timer queued =>
    if queued ∨ (s.hosts i).armed timer then
      let result := (s.hosts i).elapsed env timer queued
      some (C.finish s i result (nextRound (s.round i) (s.hosts i) result.1))
    else none
  | .deliver k env => (s.network[k]?).map fun e => C.receive { s with network := s.network.eraseIdx k } e env
  | .lose k => (s.network[k]?).map fun _ => { s with network := s.network.eraseIdx k }
  | .duplicate k => (s.network[k]?).map fun e => { s with network := s.network ++ [e] }
  | .client i value =>
    some { s with
      network := s.network ++ [⟨i, ConsensusPackageRequestBuilder.appendEntry (s.hosts i).info.termId 0 value false,
        none, 0, 0⟩]
      clientRequests := s.clientRequests ++ [value] }
  | .appendEntry i logRecord => some { s with hosts := Function.update s.hosts i ((s.hosts i).appendEntry logRecord) }

/-! ## What one action can do -/

/-- The outcomes of an action, with the effect on the peer that takes it. -/
inductive Step (s : ClusterState ι V) : ClusterAction ι V → ClusterState ι V → Prop where
  | elapsed (i : ι) (env : Env) (timer : PeerTimer) (queued : Bool) {h' : PeerHost V} {sent : Sent V}
      (effect : PeerHost.TimerEffect env (s.hosts i) h' sent) :
      Step s (.elapsed i env timer queued)
        (C.finish s i (h', sent) (nextRound (s.round i) (s.hosts i) h'))
  | deliver (k : Nat) (env : Env) (before after : List (Envelope ι V)) (e : Envelope ι V)
      (position : s.network[k]? = some e) (split : s.network = before ++ e :: after)
      {h' : PeerHost V} {sent : Sent V} (effect : PeerHost.PackageEffect env (s.hosts e.dst) e.pkg h' sent) :
      Step s (.deliver k env)
        (C.finish { s with
          network := before ++ after
          counted := if e.isGrant then s.counted ++ [e] else s.counted
          accepted := s.accepted ++ ((s.hosts e.dst).acceptedFrom e.pkg h').map fun r => (e.dst, r) } e.dst (h', sent) e.round)
  | lose (k : Nat) (before after : List (Envelope ι V)) (e : Envelope ι V)
      (split : s.network = before ++ e :: after) :
      Step s (.lose k) { s with network := before ++ after }
  | duplicate (k : Nat) (e : Envelope ι V) (member : e ∈ s.network) :
      Step s (.duplicate k) { s with network := s.network ++ [e] }
  | client (i : ι) (value : V) :
      Step s (.client i value) { s with
        network := s.network ++ [⟨i,
          ConsensusPackageRequestBuilder.appendEntry (s.hosts i).info.termId 0 value false, none, 0, 0⟩]
        clientRequests := s.clientRequests ++ [value] }
  | appendEntry (i : ι) (logRecord : LogRecord V) :
      Step s (.appendEntry i logRecord)
        { s with hosts := Function.update s.hosts i ((s.hosts i).appendEntry logRecord) }

/-- **Every action has one of the listed outcomes.** -/
theorem step_cases [DecidableEq V] {s t : ClusterState ι V} {a : ClusterAction ι V} (taken : C.step s a = some t) :
    C.Step s a t := by
  cases a with
  | elapsed i env timer queued =>
    simp only [step, Option.ite_none_right_eq_some, Option.some.injEq] at taken
    obtain ⟨_, rfl⟩ := taken
    exact .elapsed i env timer queued (PeerHost.elapsed_effect env (s.hosts i) timer queued)
  | deliver k env =>
    simp only [step, Option.map_eq_some_iff] at taken
    obtain ⟨e, found, rfl⟩ := taken
    obtain ⟨split, erased⟩ := eraseIdx_split found
    rw [erased]
    exact .deliver k env _ _ e found split (PeerHost.package_effect env (s.hosts e.dst) e.pkg)
  | lose k =>
    simp only [step, Option.map_eq_some_iff] at taken
    obtain ⟨e, found, rfl⟩ := taken
    obtain ⟨split, erased⟩ := eraseIdx_split found
    rw [erased]
    exact .lose k _ _ e split
  | duplicate k =>
    simp only [step, Option.map_eq_some_iff] at taken
    obtain ⟨e, found, rfl⟩ := taken
    exact .duplicate k e (List.mem_of_getElem? found)
  | client i value =>
    obtain rfl := Option.some.inj taken
    exact .client i value
  | appendEntry i logRecord =>
    obtain rfl := Option.some.inj taken
    exact .appendEntry i logRecord

section
variable {C}
variable {s t : ClusterState ι V} {a : ClusterAction ι V}

/-- A peer either is as before, or took the action. -/
theorem Step.host (taken : C.Step s a t) (j : ι) :
    t.hosts j = s.hosts j ∨
    (∃ env sent, PeerHost.TimerEffect env (s.hosts j) (t.hosts j) sent) ∨
    (∃ k env e sent, a = .deliver k env ∧ s.network[k]? = some e ∧
      PeerHost.PackageEffect env (s.hosts j) e.pkg (t.hosts j) sent) ∨
    ∃ logRecord, a = .appendEntry j logRecord ∧ t.hosts j = (s.hosts j).appendEntry logRecord := by
  cases taken with
  | elapsed i env timer queued effect =>
    by_cases same : j = i
    · subst same
      exact .inr (.inl ⟨env, _, by simpa [finish] using effect⟩)
    · exact .inl (by simp [finish, same])
  | deliver k env before after e position split effect =>
    by_cases same : j = e.dst
    · subst same
      exact .inr (.inr (.inl ⟨k, env, e, _, rfl, position, by simpa [finish] using effect⟩))
    · exact .inl (by simp [finish, same])
  | lose | duplicate | client => exact .inl rfl
  | appendEntry i logRecord =>
    by_cases same : j = i
    · subst same
      exact .inr (.inr (.inr ⟨logRecord, rfl, by simp⟩))
    · exact .inl (by simp [same])

/-- Where a package in flight after an action comes from. -/
theorem Step.network (taken : C.Step s a t) {e : Envelope ι V} (member : e ∈ t.network) :
    e ∈ s.network ∨
    (∃ i env sent, PeerHost.TimerEffect env (s.hosts i) (t.hosts i) sent ∧
      e ∈ C.post i (t.round i) (t.hosts i).info.confirmedTermIndex sent) ∨
    (∃ d env sent, d ∈ s.network ∧ PeerHost.PackageEffect env (s.hosts d.dst) d.pkg (t.hosts d.dst) sent ∧
      e ∈ C.post d.dst d.round (t.hosts d.dst).info.confirmedTermIndex sent) ∨
    ∃ i value, e = ⟨i, ConsensusPackageRequestBuilder.appendEntry (s.hosts i).info.termId 0 value false, none, 0, 0⟩ := by
  cases taken with
  | elapsed i env timer queued effect =>
    rcases List.mem_append.1 member with old | posted
    · exact .inl old
    · exact .inr (.inl ⟨i, env, _, by simpa [finish] using effect, by simpa [finish] using posted⟩)
  | deliver k env before after d position split effect =>
    rcases List.mem_append.1 member with old | posted
    · exact .inl (split ▸ mem_of_mem_erased old)
    · exact .inr (.inr (.inl ⟨d, env, _, by simp [split], by simpa [finish] using effect,
        by simpa [finish] using posted⟩))
  | lose k before after d split =>
    exact .inl (split ▸ mem_of_mem_erased member)
  | duplicate k d inFlight =>
    rcases List.mem_append.1 member with old | new
    · exact .inl old
    · exact .inl (by rwa [List.mem_singleton.1 new])
  | client i value =>
    rcases List.mem_append.1 member with old | new
    · exact .inl old
    · exact .inr (.inr (.inr ⟨i, value, List.mem_singleton.1 new⟩))
  | appendEntry => exact .inl member

theorem Step.grows (taken : C.Step s a t) (j : ι) : PeerHost.Grows (s.hosts j) (t.hosts j) := by
  rcases taken.host j with same | ⟨env, sent, effect⟩ | ⟨k, env, e, sent, _, _, effect⟩ | ⟨logRecord, _, same⟩
  · exact .of_same (by rw [same]) (by rw [same])
  · exact .of_same (PeerHost.timer_grows effect).1 (PeerHost.timer_grows effect).2
  · exact PeerHost.package_grows effect
  · rw [same]
    exact PeerHost.appendEntry_grows _ logRecord

/-- The public `AppendEntry` is called with index 1 on a peer that holds no record yet. -/
def AppendsFirst (s : ClusterState ι V) : ClusterAction ι V → Prop
  | .appendEntry i logRecord => PeerHost.AppendsFirst (s.hosts i) (.appendEntry logRecord)
  | _ => True

theorem Step.logInvariant (taken : C.Step s a t) (first : AppendsFirst s a)
    (inv : ∀ i, (s.hosts i).LogInvariant) (j : ι) : (t.hosts j).LogInvariant := by
  rcases taken.host j with same | ⟨env, sent, effect⟩ | ⟨k, env, e, sent, _, _, effect⟩ | ⟨logRecord, rfl, same⟩
  · exact same ▸ inv j
  · exact (inv j).timer effect
  · exact (inv j).package effect
  · rw [same]
    exact (inv j).append_first first

/-- A counted vote was in flight. -/
theorem Step.counted (taken : C.Step s a t) {e : Envelope ι V} (member : e ∈ t.counted) :
    e ∈ s.counted ∨ (e ∈ s.network ∧ e.isGrant) := by
  cases taken with
  | elapsed | lose | duplicate | client | appendEntry => exact .inl member
  | deliver k env before after d position split effect =>
    simp only [finish] at member
    by_cases grant : d.isGrant
    · rw [if_pos grant] at member
      rcases List.mem_append.mp member with old | new
      · exact .inl old
      · rw [List.mem_singleton.mp new]
        exact .inr ⟨by simp [split], grant⟩
    · rw [if_neg grant] at member
      exact .inl member

/-- The votes granted so far stay recorded; each new one is in flight, with the confirmed index its
voter has at that moment. -/
theorem Step.grants (taken : C.Step s a t) :
    ∃ new, t.grants = s.grants ++ new ∧
      (∀ e ∈ new, ∃ voter, e.src = some voter ∧ e.confirmed = (t.hosts voter).info.confirmedTermIndex) ∧
      ∀ e ∈ t.network, e.isGrant → e ∈ s.network ∨ e ∈ new := by
  have posted (i : ι) (round : Nat) (confirmed : Int) (sent : Sent V) (h' : PeerHost V)
      (same : confirmed = h'.info.confirmedTermIndex) :
      ∀ e ∈ (C.post i round confirmed sent).filter (·.isGrant), ∃ voter, e.src = some voter ∧
        e.confirmed = (Function.update s.hosts i h' voter).info.confirmedTermIndex := by
    intro e member
    obtain ⟨p, _, _, made⟩ := C.mem_post.mp (List.mem_filter.mp member).1
    rw [made]
    exact ⟨i, rfl, by simpa using same⟩
  cases taken with
  | elapsed i env timer queued effect =>
    refine ⟨_, rfl, posted i _ _ _ _ rfl, fun e member grant => ?_⟩
    exact (List.mem_append.mp member).imp id fun new => List.mem_filter.mpr ⟨new, grant⟩
  | deliver k env before after d position split effect =>
    refine ⟨_, rfl, posted d.dst _ _ _ _ rfl, fun e member grant => ?_⟩
    rcases List.mem_append.mp member with old | new
    · exact .inl (split ▸ mem_of_mem_erased old)
    · exact .inr (List.mem_filter.mpr ⟨new, grant⟩)
  | lose k before after d split =>
    exact ⟨[], by simp, by simp, fun e member _ => .inl (split ▸ mem_of_mem_erased member)⟩
  | duplicate k d inFlight =>
    refine ⟨[], by simp, by simp, fun e member _ => .inl ?_⟩
    rcases List.mem_append.mp member with old | new
    · exact old
    · exact List.mem_singleton.mp new ▸ inFlight
  | client i value =>
    refine ⟨[], by simp, by simp, fun e member grant => ?_⟩
    rcases List.mem_append.mp member with old | new
    · exact .inl old
    · rw [List.mem_singleton.mp new] at grant
      cases grant
  | appendEntry => exact ⟨[], by simp, by simp, fun e member _ => .inl member⟩

theorem Step.identity (taken : C.Step s a t) (j : ι) : PeerHost.SameIdentity (s.hosts j) (t.hosts j) := by
  rcases taken.host j with same | ⟨env, sent, effect⟩ | ⟨k, env, e, sent, _, _, effect⟩ | ⟨logRecord, _, same⟩
  · exact ⟨by rw [same], by rw [same]⟩
  · exact effect.identity
  · exact effect.identity
  · rw [same]
    exact ⟨rfl, rfl⟩

end

/-! ## Addresses -/

/-- Every peer writes its own address, and what a peer sends in its own name carries its address. -/
structure Wired (s : ClusterState ι V) : Prop where
  nodeOptions : ∀ i, (s.hosts i).nodeOptions = C.nodeOptions i
  source : ∀ e ∈ s.network, (∃ request, e.pkg = .appendEntryRequest request) ∨
    ∃ j, e.src = some j ∧ e.pkg.header.source = C.addr j
  leader : ∀ i leader, (s.hosts i).activeLeader = some leader → ∃ j, leader.node = C.addr j
  buffer : ∀ i, ∀ request ∈ (s.hosts i).appendEntryRequestLst, request.isProxified = false

variable {C}
variable {s t : ClusterState ι V} {a : ClusterAction ι V}

omit [DecidableEq ι] in
theorem Wired.node (wired : C.Wired s) (i : ι) : (s.hosts i).nodeOptions.node = C.addr i := by
  rw [wired.nodeOptions i, addr]

omit [DecidableEq ι] in
theorem startWith_wired (info : ι → PeerInfo) (options : ι → ConsensusPeerOptions) (env : ι → Env) :
    C.Wired (C.startWith (V := V) info options env) where
  nodeOptions := fun i => rfl
  source := by simp [startWith]
  leader := by simp [startWith, PeerHost.start, PeerHost.startCheckLeaderHeartbeat]
  buffer := by simp [startWith, PeerHost.start, PeerHost.startCheckLeaderHeartbeat]

theorem Wired.step (wired : C.Wired s) (taken : C.Step s a t) : C.Wired t where
  nodeOptions := fun i => (taken.identity i).nodeOptions.trans (wired.nodeOptions i)
  source := by
    intro e member
    rcases taken.network member with old | ⟨i, env, sent, effect, posted⟩ | ⟨d, env, sent, inFlight, effect, posted⟩ |
      ⟨i, value, rfl⟩
    · exact wired.source e old
    · obtain ⟨p, among, _, made⟩ := C.mem_post.1 posted
      rw [made]
      exact .inr ⟨i, rfl, (effect.source among).trans (wired.node i)⟩
    · obtain ⟨p, among, _, made⟩ := C.mem_post.1 posted
      rw [made]
      generalize d.pkg = pkg at effect
      cases effect.answer among with
      | flushed | forwarded | replicated => exact .inl ⟨_, rfl⟩
      | acknowledged | granted | refused => exact .inr ⟨d.dst, rfl, wired.node d.dst⟩
    · exact .inl ⟨_, rfl⟩
  leader := by
    intro i leader known
    rcases taken.host i with same | ⟨env, sent, effect⟩ | ⟨k, env, e, sent, _, position, effect⟩ | ⟨logRecord, _, same⟩
    · exact wired.leader i leader (same ▸ known)
    · exact wired.leader i leader (effect.keeps_leader ▸ known)
    · rcases effect.activeLeader with same | ⟨header, leader', pkg, new, source⟩
      · exact wired.leader i leader (same ▸ known)
      · obtain rfl : leader = leader' := Option.some.inj (known.symm.trans new)
        rcases wired.source e (List.mem_of_getElem? position) with ⟨request, other⟩ | ⟨j, _, sender⟩
        · rw [pkg] at other
          cases other
        · rw [pkg] at sender
          exact ⟨j, source.trans sender⟩
    · rw [same] at known
      exact wired.leader i leader known
  buffer := by
    intro i request buffered
    rcases taken.host i with same | ⟨env, sent, effect⟩ | ⟨k, env, e, sent, _, position, effect⟩ | ⟨logRecord, _, same⟩
    · exact wired.buffer i request (same ▸ buffered)
    · exact wired.buffer i request (effect.keeps_buffer ▸ buffered)
    · rcases effect.mem_buffer buffered with old | ⟨_, client⟩
      · exact wired.buffer i request old
      · exact client
    · rw [same] at buffered
      exact wired.buffer i request buffered

/-! ## Who sends what -/

/-- A vote request was sent by a peer that started an election. -/
theorem Step.voteRequest (taken : C.Step s a t) {e : Envelope ι V} (member : e ∈ t.network)
    {header : ConsensusHeader} (vote : e.pkg = .voteRequest header) :
    e ∈ s.network ∨
    ∃ i nodes, (s.hosts i).state = .FOLLOWER ∧ PeerHost.SameCore ((s.hosts i).asCandidate nodes) (t.hosts i) ∧
      e.src = some i ∧ e.round = t.round i ∧ header = ⟨(s.hosts i).info.termId,
        (s.hosts i).info.confirmedTermIndex + 1, (s.hosts i).nodeOptions.url, (s.hosts i).nodeOptions.port⟩ := by
  rcases taken.network member with old | ⟨i, env, sent, effect, posted⟩ | ⟨d, env, sent, inFlight, effect, posted⟩ |
    ⟨i, value, rfl⟩
  · exact .inl old
  · obtain ⟨p, among, _, made⟩ := C.mem_post.mp posted
    rw [made] at vote ⊢
    cases effect with
    | quiet | leader | expired => simp at among
    | candidate nodes m follower answer same =>
      obtain ⟨n, _, rfl⟩ := List.mem_map.mp among
      obtain rfl := ConsensusPackage.voteRequest.inj vote
      exact .inr ⟨i, nodes, follower, same, rfl, rfl, rfl⟩
    | heartbeat nodes =>
      obtain ⟨n, _, rfl⟩ := List.mem_map.mp among
      cases vote
  · obtain ⟨p, among, _, made⟩ := C.mem_post.mp posted
    rw [made] at vote
    generalize d.pkg = pkg at effect
    cases effect.answer among <;> cases vote
  · cases vote

/-- A granted vote was sent by a peer that received a vote request with a larger index. -/
theorem Step.grant (taken : C.Step s a t) {e : Envelope ι V} (member : e ∈ t.network) (grant : e.isGrant) :
    e ∈ s.network ∨
    ∃ d header, d ∈ s.network ∧ d.pkg = .voteRequest header ∧ (s.hosts d.dst).info.termId = header.termId ∧
      (s.hosts d.dst).info.confirmedTermIndex < header.termIndex ∧ C.locate header.source = some e.dst ∧
      e = ⟨e.dst, ConsensusPackageResultBuilder.vote (s.hosts d.dst).nodeOptions.node (s.hosts d.dst).info.termId
        (s.hosts d.dst).asFollower.info.termIndex true, some d.dst, d.round,
        (s.hosts d.dst).info.confirmedTermIndex⟩ := by
  rcases taken.network member with old | ⟨i, env, sent, effect, posted⟩ | ⟨d, env, sent, inFlight, effect, posted⟩ |
    ⟨i, value, rfl⟩
  · exact .inl old
  · obtain ⟨p, among, _, made⟩ := C.mem_post.mp posted
    rw [made] at grant
    cases effect with
    | quiet | leader | expired => simp at among
    | candidate | heartbeat =>
      obtain ⟨n, _, rfl⟩ := List.mem_map.mp among
      cases grant
  · obtain ⟨p, among, located, made⟩ := C.mem_post.mp posted
    rw [made] at grant
    generalize received : d.pkg = pkg at effect
    cases effect.answer among with
    | granted header term newer =>
      rw [(PeerHost.package_keeps_log effect (by simp)).2] at made
      exact .inr ⟨d, header, inFlight, received, term, newer, located, made⟩
    | flushed | acknowledged | refused | forwarded | replicated => cases grant
  · cases grant

/-- A heartbeat result was sent by a peer that received a heartbeat. -/
theorem Step.heartbeatResult (taken : C.Step s a t) {e : Envelope ι V} (member : e ∈ t.network)
    {header : ConsensusHeader} (result : e.pkg = .leaderHeartbeatResult header) :
    e ∈ s.network ∨
    ∃ i, header = ⟨(s.hosts i).info.termId, (s.hosts i).info.confirmedTermIndex,
      (s.hosts i).nodeOptions.url, (s.hosts i).nodeOptions.port⟩ := by
  rcases taken.network member with old | ⟨i, env, sent, effect, posted⟩ | ⟨d, env, sent, inFlight, effect, posted⟩ |
    ⟨i, value, rfl⟩
  · exact .inl old
  · obtain ⟨p, among, _, made⟩ := C.mem_post.mp posted
    rw [made] at result
    cases effect with
    | quiet | leader | expired => simp at among
    | candidate | heartbeat =>
      obtain ⟨n, _, rfl⟩ := List.mem_map.mp among
      cases result
  · obtain ⟨p, among, _, made⟩ := C.mem_post.mp posted
    rw [made] at result
    generalize d.pkg = pkg at effect
    cases effect.answer among with
    | acknowledged =>
      obtain rfl := ConsensusPackage.leaderHeartbeatResult.inj result
      exact .inr ⟨d.dst, rfl⟩
    | flushed | granted | refused | forwarded | replicated => cases result
  · cases result

/-- A proxified entry was sent by a leader that holds it, to answer a heartbeat result. -/
theorem Step.proxified (wired : C.Wired s) (taken : C.Step s a t) {e : Envelope ι V} (member : e ∈ t.network)
    {request : AppendEntryRequest V} (entry : e.pkg = .appendEntryRequest request)
    (proxified : request.isProxified = true) :
    e ∈ s.network ∨
    ∃ d header record, d ∈ s.network ∧ d.pkg = .leaderHeartbeatResult header ∧
      (s.hosts d.dst).state = .LEADER ∧ PeerHost.getRecord (s.hosts d.dst).logRecords (header.termIndex + 1) = some record ∧
      C.locate header.source = some e.dst ∧ request.header.termIndex = header.termIndex + 1 ∧
      request.value = record.value := by
  rcases taken.network member with old | ⟨i, env, sent, effect, posted⟩ | ⟨d, env, sent, inFlight, effect, posted⟩ |
    ⟨i, value, rfl⟩
  · exact .inl old
  · obtain ⟨p, among, _, made⟩ := C.mem_post.mp posted
    rw [made] at entry
    cases effect with
    | quiet | leader | expired => simp at among
    | candidate | heartbeat =>
      obtain ⟨n, _, rfl⟩ := List.mem_map.mp among
      cases entry
  · obtain ⟨p, among, located, made⟩ := C.mem_post.mp posted
    rw [made] at entry
    generalize received : d.pkg = pkg at effect
    cases effect.answer among with
    | flushed header r buffered =>
      obtain rfl := ConsensusPackage.appendEntryRequest.inj entry
      rw [wired.buffer d.dst r buffered] at proxified
      cases proxified
    | forwarded r leader client =>
      obtain rfl := ConsensusPackage.appendEntryRequest.inj entry
      rw [client] at proxified
      cases proxified
    | replicated header record leader behind found =>
      obtain rfl := ConsensusPackage.appendEntryRequest.inj entry
      exact .inr ⟨d, header, record, inFlight, received, leader, found, located, rfl, rfl⟩
    | acknowledged | granted | refused => cases entry
  · obtain rfl := ConsensusPackage.appendEntryRequest.inj entry
    cases proxified

/-- A new record comes from a delivered append entry request, or from the public `AppendEntry`. -/
theorem Step.record (taken : C.Step s a t) {i : ι} {r : LogRecord V} (member : r ∈ (t.hosts i).logRecords) :
    r ∈ (s.hosts i).logRecords ∨
    (∃ k env e request, a = .deliver k env ∧ s.network[k]? = some e ∧ e.dst = i ∧
      e.pkg = .appendEntryRequest request ∧ ((s.hosts i).state = .LEADER ∨ request.isProxified = true) ∧
      (request.isProxified = true → (s.hosts i).info.confirmedTermIndex < request.header.termIndex) ∧
      r = ⟨(s.hosts i).info.confirmedTermIndex + 1, request.value⟩) ∨
    a = .appendEntry i r := by
  cases taken with
  | elapsed j env timer queued effect =>
    refine .inl ?_
    by_cases same : i = j
    · subst same
      simpa [finish, (PeerHost.timer_grows effect).1] using member
    · simpa [finish, same] using member
  | deliver k env before after e position split effect =>
    by_cases same : i = e.dst
    swap
    · exact .inl (by simpa [finish, same] using member)
    subst same
    simp only [finish, Function.update_self] at member
    generalize received : e.pkg = pkg at effect
    cases pkg with
    | appendEntryRequest request =>
      cases effect with
      | ignored | forwarded | buffered => exact .inl member
      | appended _ allowed missing =>
        rcases List.mem_append.mp member with old | new
        · exact .inl old
        · exact .inr (.inl ⟨k, env, e, request, rfl, position, rfl, received, allowed, missing,
            List.mem_singleton.mp new⟩)
    | leaderHeartbeatRequest | voteRequest | voteResult | leaderHeartbeatResult =>
      rw [(PeerHost.package_keeps_log effect (by simp)).1] at member
      exact .inl member
  | lose | duplicate | client => exact .inl member
  | appendEntry j logRecord =>
    by_cases same : i = j
    · subst same
      simp only [Function.update_self, PeerHost.appendEntry, List.mem_append, List.mem_singleton] at member
      exact member.imp id fun new => .inr (by rw [new])
    · exact .inl (by simpa [same] using member)

end

/-- `n` nodes of one machine, listening on the ports from 4000 on. -/
def localhost (n : Nat) : Cluster (Fin n) where
  nodeOptions := fun i => .localhost (4000 + i)
  locate := fun a =>
    if inside : a.url = "localhost" ∧ 4000 ≤ a.port ∧ a.port < 4000 + n then
      some ⟨(a.port - 4000).toNat, by omega⟩
    else none
  locate_node := by
    intro i
    have bound := i.isLt
    have port : (ConsensusNodeOptions.localhost (4000 + i)).node.port = 4000 + i := rfl
    rw [dif_pos ⟨rfl, by omega, by omega⟩]
    simp only [port, Option.some.injEq, Fin.ext_iff]
    omega

/-- The first two of these nodes. -/
def node0 {n : Nat} : Fin (n + 1) := 0

@[inherit_doc node0]
def node1 {n : Nat} : Fin (n + 2) := 1

/-- What the cluster store answers once every node has registered. -/
def members {n : Nat} (C : Cluster (Fin n)) : List ClusterNode := (List.finRange n).map C.addr

/-- The peers of a topic on these nodes, just started. -/
def started (n : Nat) : ClusterState (Fin n) String :=
  (Cluster.localhost n).start "topic" (fun _ => {}) fun _ => .calm 0 []

end Cluster

end FaasNet.RaftConsensus
