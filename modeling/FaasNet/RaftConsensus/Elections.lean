import Mathlib.Data.Finset.Card
import FaasNet.RaftConsensus.Cluster

/-!
# Elections

What an action does to the elections of a cluster: `VoteStep` lists the outcomes, in terms of the
vote requests and granted votes in flight, the votes granted so far, the rounds, and the state and
the vote counter of each peer.
-/

namespace FaasNet.RaftConsensus

open FaasNet.Lib

namespace Envelope

section
variable {ι V : Type*} (e : Envelope ι V)

def isVoteRequest : Bool :=
  match e.pkg with
  | .voteRequest _ => true
  | _ => false

/-- The packages an election is made of. -/
def isVote : Bool := e.isVoteRequest || e.isGrant

end

end Envelope

namespace ClusterState

section
variable {ι V : Type*} (s : ClusterState ι V)

/-- The vote requests and granted votes in flight. -/
def votes : List (Envelope ι V) := s.network.filter (·.isVote)

variable [DecidableEq ι]

/-- The other peers that granted a request of the round `c` is in. -/
def granters (c : ι) : Finset ι :=
  ((s.grants.filter fun e => e.dst = c ∧ e.round = s.round c).filterMap (·.src)).toFinset.erase c

end

end ClusterState

namespace PeerHost

/-- No election is started and no vote counted: the peer is a follower now, or it is in the state
it was in, or it was a candidate with enough votes and leads. -/
structure Settles {V : Type*} (h h' : PeerHost V) : Prop where
  state : h'.state = .FOLLOWER ∨ h'.state = h.state ∨
    (h.state = .CANDIDATE ∧ h'.state = .LEADER ∧ h.quorum ≤ h.nbPositiveVote)
  count : h'.nbPositiveVote = h.nbPositiveVote
  quorum : h'.quorum = h.quorum

section
variable {V : Type*} {env : Env} {h h' : PeerHost V} {pkg : ConsensusPackage V} {sent : Sent V}

theorem Settles.unchanged (h : PeerHost V) : Settles h h := ⟨.inr (.inl rfl), rfl, rfl⟩

theorem Settles.of_core (same : SameCore h h') : Settles h h' := ⟨.inr (.inl same.state), same.votes, same.quorum⟩

theorem Settles.of_follower (same : SameCore h.asFollower h') : Settles h h' :=
  ⟨.inl same.state, same.votes, same.quorum⟩

/-- No package makes a peer candidate or leader. -/
theorem PackageEffect.state (effect : PackageEffect env h pkg h' sent) :
    h'.state = .FOLLOWER ∨ h'.state = h.state := by
  cases effect with
  | followed header base leader requests kept returned _ stepsDown _ _ same =>
    rcases stepsDown with rfl | ⟨_, rfl⟩
    · exact .inr same.state
    · exact .inl same.state
  | granted header returned _ _ same => exact .inl same.state
  | ignored | refused | counted | appended | forwarded | buffered | replicated => exact .inr rfl

/-- A package other than a granted vote leaves the counter alone. -/
theorem PackageEffect.settles (effect : PackageEffect env h pkg h' sent)
    (other : ∀ result, pkg = .voteResult result → result.voteGranted = false) : Settles h h' := by
  have state := effect.state.imp_right (Or.inl (b := h.state = .CANDIDATE ∧ h'.state = .LEADER ∧
    h.quorum ≤ h.nbPositiveVote))
  cases effect with
  | followed header base leader requests kept returned _ stepsDown _ _ same =>
    rcases stepsDown with rfl | ⟨_, rfl⟩ <;> exact ⟨state, same.votes, same.quorum⟩
  | granted header returned _ _ same => exact ⟨state, same.votes, same.quorum⟩
  | counted result positive =>
    rw [other result rfl] at positive
    cases positive
  | ignored | refused | appended | forwarded | buffered | replicated => exact ⟨state, rfl, rfl⟩

end

end PeerHost

namespace Cluster

section
variable {ι V : Type*} [DecidableEq ι] (C : Cluster ι)

/-- The request of a round that peer `i` sends to `v`. -/
def requestTo (i : ι) (h : PeerHost V) (round : Nat) (confirmed : Int) (v : ι) : Envelope ι V :=
  ⟨v, ConsensusPackageRequestBuilder.vote h.nodeOptions.node h.info.termId (h.info.confirmedTermIndex + 1),
    some i, round, confirmed⟩

/-- What an action does to the elections. -/
inductive VoteStep (s : ClusterState ι V) (a : ClusterAction ι V) (t : ClusterState ι V) : Prop where
  | quiet (settles : ∀ c, PeerHost.Settles (s.hosts c) (t.hosts c)) (round : t.round = s.round)
      (grants : t.grants = s.grants) (votes : t.votes.Sublist s.votes)
  | stood (i : ι) (env : Env) (timer : PeerTimer) (queued : Bool) (action : a = .elapsed i env timer queued)
      (nodes : List ClusterNode) (store : env.getAllNodes = some nodes) (asked : List ι)
      (candidate : PeerHost.SameCore ((s.hosts i).asCandidate nodes) (t.hosts i))
      (others : ∀ c, c ≠ i → t.hosts c = s.hosts c)
      (round : t.round = Function.update s.round i (s.round i + 1)) (grants : t.grants = s.grants)
      (once : asked.Sublist (nodes.filterMap C.locate))
      (votes : t.votes = s.votes ++
        asked.map (requestTo i (s.hosts i) (s.round i + 1) (t.hosts i).info.confirmedTermIndex))
  | granted (k : Nat) (env : Env) (action : a = .deliver k env) (e : Envelope ι V)
      (position : s.network[k]? = some e) (header : ConsensusHeader) (before after new : List (Envelope ι V))
      (request : e.pkg = .voteRequest header) (newer : (s.hosts e.dst).info.confirmedTermIndex < header.termIndex)
      (split : s.votes = before ++ e :: after)
      (settles : ∀ c, PeerHost.Settles (s.hosts c) (t.hosts c)) (follows : (t.hosts e.dst).state = .FOLLOWER)
      (round : t.round = s.round) (grants : t.grants = s.grants ++ new) (votes : t.votes = before ++ after ++ new)
      (answer : ∀ d ∈ new, new = [d] ∧ d.isGrant ∧ d.src = some e.dst ∧ d.round = e.round ∧
        C.locate header.source = some d.dst ∧ d.pkg.header.termId = header.termId)
  | counted (k : Nat) (env : Env) (action : a = .deliver k env) (e : Envelope ι V)
      (position : s.network[k]? = some e) (before after : List (Envelope ι V)) (grant : e.isGrant = true)
      (split : s.votes = before ++ e :: after)
      (counts : t.hosts e.dst = { s.hosts e.dst with nbPositiveVote := (s.hosts e.dst).nbPositiveVote + 1 })
      (others : ∀ c, c ≠ e.dst → t.hosts c = s.hosts c)
      (round : t.round = s.round) (grants : t.grants = s.grants) (votes : t.votes = before ++ after)

variable {C} {s t : ClusterState ι V} {a : ClusterAction ι V}

theorem nextRound_kept {round : Nat} {h h' : PeerHost V} (kept : h'.state = .CANDIDATE → h.state ≠ .FOLLOWER) :
    nextRound round h h' = round := by
  unfold nextRound
  rw [if_neg]
  rintro ⟨follower, candidate⟩
  exact kept candidate follower

theorem nextRound_settled {round : Nat} {h h' : PeerHost V} (settles : PeerHost.Settles h h') :
    nextRound round h h' = round := by
  apply nextRound_kept
  intro candidate
  rcases settles.state with down | same | ⟨was, _⟩
  · rw [down] at candidate
    cases candidate
  · rw [← same, candidate]
    exact PeerStates.noConfusion
  · rw [was]
    exact PeerStates.noConfusion

/-- What a callback that sends no votes leaves behind. -/
theorem finish_quiet {u : ClusterState ι V} {i : ι} {h' : PeerHost V} {sent : Sent V} {round : Nat}
    (settles : PeerHost.Settles (u.hosts i) h') (silent : ∀ e ∈ C.post i round h'.info.confirmedTermIndex sent,
      e.isVote = false) :
    (∀ c, PeerHost.Settles (u.hosts c) ((C.finish u i (h', sent) round).hosts c)) ∧
    (C.finish u i (h', sent) round).round = u.round ∧ (C.finish u i (h', sent) round).grants = u.grants ∧
    (C.finish u i (h', sent) round).votes = u.votes := by
  have noGrant : (C.post i round h'.info.confirmedTermIndex sent).filter (·.isGrant) = [] := by
    apply List.filter_eq_nil_iff.mpr
    intro e member grant
    have other := silent e member
    simp [Envelope.isVote, grant] at other
  have noVote : (C.post i round h'.info.confirmedTermIndex sent).filter (·.isVote) = [] := by
    apply List.filter_eq_nil_iff.mpr
    intro e member vote
    rw [silent e member] at vote
    cases vote
  refine ⟨?_, ?_, ?_, ?_⟩
  · intro c
    by_cases same : c = i
    · subst same
      simpa [finish] using settles
    · simpa [finish, same] using PeerHost.Settles.unchanged (u.hosts c)
  · show Function.update u.round i _ = u.round
    rw [nextRound_settled settles, Function.update_eq_self]
  · simp [finish, noGrant]
  · simp [finish, ClusterState.votes, noVote]

variable (C) in
omit [DecidableEq ι] in
theorem post_map (i : ι) (round : Nat) (confirmed : Int) (nodes : List ClusterNode) (pkg : ConsensusPackage V) :
    C.post i round confirmed (nodes.map fun n => (n, pkg)) =
      (nodes.filterMap C.locate).map fun v => ⟨v, pkg, some i, round, confirmed⟩ := by
  simp only [post, List.filterMap_map, List.map_filterMap, Function.comp_def]

/-- A timer callback starts an election, or changes nothing about elections. -/
theorem timer_vote {i : ι} {env : Env} (timer : PeerTimer) (queued : Bool) {h' : PeerHost V} {sent : Sent V}
    (effect : PeerHost.TimerEffect env (s.hosts i) h' sent) :
    C.VoteStep s (.elapsed i env timer queued) (C.finish s i (h', sent) (nextRound (s.round i) (s.hosts i) h')) := by
  have quiet (settles : PeerHost.Settles (s.hosts i) h')
      (silent : ∀ e ∈ C.post i (nextRound (s.round i) (s.hosts i) h') h'.info.confirmedTermIndex sent,
        e.isVote = false) :
      C.VoteStep s (.elapsed i env timer queued)
        (C.finish s i (h', sent) (nextRound (s.round i) (s.hosts i) h')) := by
    obtain ⟨settled, round, grants, votes⟩ := finish_quiet settles silent
    exact .quiet settled round grants (by rw [votes])
  cases effect with
  | quiet same => exact quiet (.of_core same) (by simp [post])
  | leader candidate enough same =>
    exact quiet ⟨.inr (.inr ⟨candidate, same.state, enough⟩), same.votes, same.quorum⟩ (by simp [post])
  | expired _ same => exact quiet (.of_follower same) (by simp [post])
  | heartbeat nodes _ same =>
    refine quiet (.of_core same) ?_
    intro e member
    rw [post_map] at member
    obtain ⟨v, _, rfl⟩ := List.mem_map.mp member
    rfl
  | candidate nodes m follower answer same =>
    have next : nextRound (s.round i) (s.hosts i) h' = s.round i + 1 := by
      unfold nextRound
      rw [if_pos ⟨follower, same.state⟩]
    have once : ((((s.hosts i).otherNodes nodes).take m).filterMap C.locate).Sublist (nodes.filterMap C.locate) :=
      ((List.take_sublist m _).trans List.filter_sublist).filterMap C.locate
    have posted := C.post_map i (s.round i + 1) h'.info.confirmedTermIndex (((s.hosts i).otherNodes nodes).take m)
      (ConsensusPackageRequestBuilder.vote (V := V) (s.hosts i).nodeOptions.node (s.hosts i).info.termId
        ((s.hosts i).info.confirmedTermIndex + 1))
    refine .stood i env timer queued rfl nodes answer _ (by simpa [finish] using same)
      (fun c other => by simp [finish, other]) ?_ ?_ once ?_
    · simp [finish, next]
    · show s.grants ++ (C.post i _ _ _).filter _ = s.grants
      rw [next, posted, List.filter_eq_nil_iff.mpr, List.append_nil]
      intro e member
      obtain ⟨v, _, rfl⟩ := List.mem_map.mp member
      exact Bool.false_ne_true
    · show (s.network ++ C.post i _ _ _).filter _ = s.votes ++ _
      rw [next, posted, List.filter_append]
      refine congrArg (s.votes ++ ·) ?_
      rw [List.filter_eq_self.mpr]
      · simp [finish, requestTo]
      · intro e member
        obtain ⟨v, _, rfl⟩ := List.mem_map.mp member
        rfl

omit [DecidableEq ι] in
/-- Only a vote request is answered with a granted vote. -/
theorem answer_silent {h : PeerHost V} {pkg : ConsensusPackage V} {p : ClusterNode × ConsensusPackage V}
    (answer : PeerHost.Answer h pkg p) (other : ∀ header, pkg ≠ .voteRequest header) (e : Envelope ι V)
    (carried : e.pkg = p.2) : e.isVote = false := by
  unfold Envelope.isVote Envelope.isVoteRequest Envelope.isGrant
  rw [carried]
  cases answer with
  | flushed | acknowledged | forwarded | replicated => rfl
  | granted header | refused header => exact absurd rfl (other header)

/-- What a delivered package leaves behind when its handler neither grants nor counts a vote. -/
theorem package_quiet {u : ClusterState ι V} {e : Envelope ι V} {before after : List (Envelope ι V)} {h' : PeerHost V}
    {sent : Sent V} (split : s.network = before ++ e :: after) (network : u.network = before ++ after)
    (hosts : u.hosts = s.hosts) (rounds : u.round = s.round) (granted : u.grants = s.grants)
    (settles : PeerHost.Settles (s.hosts e.dst) h')
    (silent : ∀ d ∈ C.post e.dst e.round h'.info.confirmedTermIndex sent, d.isVote = false) :
    C.VoteStep s a (C.finish u e.dst (h', sent) e.round) := by
  obtain ⟨settled, round, grants, votes⟩ := finish_quiet (u := u) (by rw [hosts]; exact settles) silent
  refine .quiet (by simpa [hosts] using settled) (round.trans rounds) (grants.trans granted) ?_
  rw [votes, ClusterState.votes, ClusterState.votes, network, split]
  exact ((List.Sublist.refl before).append (List.sublist_cons_self e after)).filter _

/-- The delivery of a request that is granted. -/
theorem granted_vote {u : ClusterState ι V} {k : Nat} (env : Env) {e : Envelope ι V} (position : s.network[k]? = some e)
    {before after : List (Envelope ι V)} {h' : PeerHost V}
    {header : ConsensusHeader} (request : e.pkg = .voteRequest header) (returned : Bool)
    (term : (s.hosts e.dst).info.termId = header.termId)
    (newer : (s.hosts e.dst).info.confirmedTermIndex < header.termIndex)
    (split : s.network = before ++ e :: after) (network : u.network = before ++ after)
    (hosts : u.hosts = s.hosts) (rounds : u.round = s.round) (granted : u.grants = s.grants)
    (same : PeerHost.SameCore (s.hosts e.dst).asFollower h') :
    C.VoteStep s (.deliver k env) (C.finish u e.dst (h', PeerHost.reply returned header.source
      (ConsensusPackageResultBuilder.vote (s.hosts e.dst).nodeOptions.node (s.hosts e.dst).info.termId
        (s.hosts e.dst).asFollower.info.termIndex true)) e.round) := by
  have settles : PeerHost.Settles (s.hosts e.dst) h' := .of_follower same
  let result : ConsensusPackage V := ConsensusPackageResultBuilder.vote (s.hosts e.dst).nodeOptions.node
    (s.hosts e.dst).info.termId (s.hosts e.dst).asFollower.info.termIndex true
  let posted := C.post e.dst e.round h'.info.confirmedTermIndex (PeerHost.reply returned header.source result)
  have answer : ∀ d ∈ posted, posted = [d] ∧ d.isGrant ∧ d.src = some e.dst ∧ d.round = e.round ∧
      C.locate header.source = some d.dst ∧ d.pkg.header.termId = header.termId := by
    intro d member
    obtain ⟨p, among, located, made⟩ := C.mem_post.mp member
    obtain rfl := PeerHost.mem_reply among
    have alone : posted = [d] := by
      cases returned with
      | false => cases among
      | true =>
        show [(header.source, result)].filterMap _ = [d]
        simp only [List.filterMap_cons, List.filterMap_nil, located, Option.map_some]
        rw [← made]
    rw [made]
    exact ⟨made ▸ alone, rfl, rfl, rfl, located, term⟩
  have grants : posted.filter (·.isGrant) = posted :=
    List.filter_eq_self.mpr fun d member => (answer d member).2.1
  have votes : posted.filter (·.isVote) = posted := by
    apply List.filter_eq_self.mpr
    intro d member
    simp [Envelope.isVote, (answer d member).2.1]
  have vote : e.isVote = true := by simp [Envelope.isVote, Envelope.isVoteRequest, request]
  refine .granted k env rfl e position header (before.filter (·.isVote)) (after.filter (·.isVote)) posted request
    newer ?_ ?_ ?_ ?_ ?_ ?_ answer
  · simp [ClusterState.votes, split, vote]
  · intro c
    by_cases voter : c = e.dst
    · subst voter
      simpa [finish] using settles
    · simpa [finish, voter, hosts] using PeerHost.Settles.unchanged (s.hosts c)
  · show (Function.update u.hosts e.dst h' e.dst).state = .FOLLOWER
    rw [Function.update_self]
    exact same.state
  · show Function.update u.round e.dst _ = s.round
    rw [hosts, nextRound_settled settles, Function.update_eq_self, rounds]
  · show u.grants ++ posted.filter _ = s.grants ++ posted
    rw [granted, grants]
  · show (u.network ++ posted).filter _ = _
    rw [network, List.filter_append, List.filter_append, votes]

/-- **What an action does to the elections**, over a network that duplicates nothing. -/
theorem Step.vote (taken : C.Step s a t) (single : ∀ k, a ≠ .duplicate k) : C.VoteStep s a t := by
  cases taken with
  | elapsed i env timer queued effect => exact timer_vote timer queued effect
  | @deliver k env before after e position split h' sent effect =>
    generalize s.accepted ++ ((s.hosts e.dst).acceptedFrom e.pkg h').map (fun r => (e.dst, r)) = accepted
    have quiet (settles : PeerHost.Settles (s.hosts e.dst) h')
        (silent : ∀ d ∈ C.post e.dst e.round h'.info.confirmedTermIndex sent, d.isVote = false) :=
      package_quiet (C := C) (a := .deliver k env) (u := { s with
        network := before ++ after
        counted := if e.isGrant then s.counted ++ [e] else s.counted
        accepted := accepted }) split rfl rfl rfl rfl settles silent
    have other (noVote : ∀ header, e.pkg ≠ .voteRequest header) :
        ∀ d ∈ C.post e.dst e.round h'.info.confirmedTermIndex sent, d.isVote = false := by
      intro d member
      obtain ⟨p, among, _, made⟩ := C.mem_post.mp member
      exact answer_silent (effect.answer among) noVote d (by rw [made])
    generalize received : e.pkg = pkg at effect
    cases pkg with
    | leaderHeartbeatRequest | appendEntryRequest | leaderHeartbeatResult =>
      rw [← received] at effect
      exact quiet (effect.settles (by simp [received])) (other (by simp [received]))
    | voteRequest header =>
      cases effect with
      | ignored => exact quiet (.unchanged _) (by simp [post])
      | refused header returned =>
        refine quiet (.unchanged _) ?_
        intro d member
        obtain ⟨p, among, _, made⟩ := C.mem_post.mp member
        rw [made, PeerHost.mem_reply among]
        rfl
      | granted header returned term newer same =>
        exact granted_vote env position received returned term newer split rfl rfl rfl rfl same
    | voteResult result =>
      cases effect with
      | ignored => exact quiet (.unchanged _) (by simp [post])
      | counted result positive =>
        have grant : e.isGrant = true := by simpa [Envelope.isGrant, received] using positive
        refine .counted k env rfl e position (before.filter (·.isVote)) (after.filter (·.isVote)) grant ?_ ?_ ?_ ?_ ?_ ?_
        · simp [ClusterState.votes, split, Envelope.isVote, grant]
        · simp [finish]
        · intro c away
          simp [finish, away]
        · show Function.update s.round e.dst _ = s.round
          rw [nextRound_kept, Function.update_eq_self]
          intro candidate
          have same : (s.hosts e.dst).state = .CANDIDATE := candidate
          rw [same]
          exact PeerStates.noConfusion
        · simp [finish, post]
        · simp [finish, post, ClusterState.votes]
  | lose k before after e split =>
    refine .quiet (fun c => .unchanged _) rfl rfl ?_
    rw [ClusterState.votes, ClusterState.votes, split]
    exact ((List.Sublist.refl before).append (List.sublist_cons_self e after)).filter _
  | duplicate k => exact absurd rfl (single k)
  | client i value =>
    refine .quiet (fun c => .unchanged _) rfl rfl ?_
    simp [ClusterState.votes, Envelope.isVote, Envelope.isVoteRequest, Envelope.isGrant,
      ConsensusPackageRequestBuilder.appendEntry]
  | appendEntry i logRecord =>
    refine .quiet (fun c => ?_) rfl rfl (List.Sublist.refl _)
    by_cases same : c = i
    · subst same
      simpa using ⟨.inr (.inl rfl), rfl, rfl⟩
    · simpa [same] using PeerHost.Settles.unchanged (s.hosts c)

omit [DecidableEq ι] in
theorem not_request_of_grant {e : Envelope ι V} (grant : e.isGrant = true) : e.isVoteRequest = false := by
  unfold Envelope.isGrant at grant
  unfold Envelope.isVoteRequest
  cases received : e.pkg with
  | voteResult => rfl
  | leaderHeartbeatRequest | voteRequest | appendEntryRequest | leaderHeartbeatResult => simp [received] at grant

omit [DecidableEq ι] in
/-- The answer to a request goes back to the peer that sent it. -/
theorem Wired.request_source (wired : C.Wired s) {e : Envelope ι V} (inFlight : e ∈ s.network)
    {header : ConsensusHeader} (request : e.pkg = .voteRequest header) {c : ι}
    (located : C.locate header.source = some c) : e.src = some c := by
  rcases wired.source e inFlight with ⟨_, other⟩ | ⟨j, sender, source⟩
  · rw [request] at other
    cases other
  · have target : header.source = C.addr j := by rw [← source, request]; rfl
    rw [target, C.locate_addr] at located
    rw [sender, located]

theorem mem_granters {c v : ι} :
    v ∈ s.granters c ↔ v ≠ c ∧ ∃ e ∈ s.grants, e.src = some v ∧ e.dst = c ∧ e.round = s.round c := by
  simp only [ClusterState.granters, Finset.mem_erase, List.mem_toFinset, List.mem_filterMap, List.mem_filter,
    decide_eq_true_eq]
  constructor
  · rintro ⟨other, e, ⟨member, current⟩, sender⟩
    exact ⟨other, e, member, sender, current⟩
  · rintro ⟨other, e, member, sender, current⟩
    exact ⟨other, e, ⟨member, current⟩, sender⟩

namespace VoteStep

/-- A peer that is no follower was none before, in the same round, or has just begun its round. -/
theorem live_before (step : C.VoteStep s a t) {c : ι} (live : (t.hosts c).state ≠ .FOLLOWER) :
    ((s.hosts c).state ≠ .FOLLOWER ∧ t.round c = s.round c) ∨ t.round c = s.round c + 1 := by
  have settled (settles : PeerHost.Settles (s.hosts c) (t.hosts c)) : (s.hosts c).state ≠ .FOLLOWER := by
    rcases settles.state with down | same | ⟨was, _⟩
    · exact absurd down live
    · rw [← same]
      exact live
    · rw [was]
      exact PeerStates.noConfusion
  cases step with
  | quiet settles round => exact .inl ⟨settled (settles c), by rw [round]⟩
  | granted _ _ _ _ _ _ _ _ _ _ _ _ settles _ round => exact .inl ⟨settled (settles c), by rw [round]⟩
  | stood i env timer queued _ nodes _ asked _ others round =>
    by_cases same : c = i
    · exact .inr (by rw [round, same, Function.update_self])
    · exact .inl ⟨by rw [← others c same]; exact live, by rw [round, Function.update_of_ne same]⟩
  | counted k env _ e _ _ _ _ _ counts others round =>
    refine .inl ⟨?_, by rw [round]⟩
    by_cases same : c = e.dst
    · rw [same, counts] at live
      rw [same]
      exact live
    · rw [← others c same]
      exact live

theorem round_le (step : C.VoteStep s a t) (c : ι) : s.round c ≤ t.round c := by
  cases step with
  | quiet _ round | granted _ _ _ _ _ _ _ _ _ _ _ _ _ _ round | counted _ _ _ _ _ _ _ _ _ _ _ round => rw [round]
  | stood i env timer queued _ nodes _ asked _ _ round =>
    rw [round]
    by_cases same : c = i
    · rw [same, Function.update_self]
      omega
    · rw [Function.update_of_ne same]

end VoteStep

end

end Cluster

end FaasNet.RaftConsensus
