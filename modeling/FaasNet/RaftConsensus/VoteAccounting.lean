import Mathlib.Data.List.Nodup
import FaasNet.RaftConsensus.Elections

/-!
# Counting votes

`_nbPositiveVote` counts granted answers, whatever round they answer. `Ballot` ties the counter of a
candidate to the votes granted in its round; it is kept as long as no answer to an earlier round
reaches a candidate and the cluster store names no peer twice.
-/

namespace FaasNet.RaftConsensus

open FaasNet.Lib

namespace Cluster

section
variable {ι V : Type*} [DecidableEq ι] {C : Cluster ι}
variable {s t : ClusterState ι V} {a : ClusterAction ι V}

/-- A request of round `r` from `c` to `v`. -/
def asks (c v : ι) (r : Nat) (e : Envelope ι V) : Bool :=
  decide (e.src = some c ∧ e.dst = v ∧ e.round = r) && e.isVoteRequest

/-- A vote of `v` for round `r` of `c`. -/
def votesFor (c v : ι) (r : Nat) (e : Envelope ι V) : Bool :=
  decide (e.src = some v ∧ e.dst = c ∧ e.round = r)

/-- A vote for round `r` of `c`. -/
def answers (c : ι) (r : Nat) (e : Envelope ι V) : Bool :=
  decide (e.dst = c ∧ e.round = r) && e.isGrant

/-- Every request is answered at most once, and a candidate counts votes of its round only. -/
structure Ballot (s : ClusterState ι V) : Prop where
  requested : ∀ e ∈ s.votes, e.isVoteRequest → ∀ c, e.src = some c → e.round ≤ s.round c
  flying : ∀ e ∈ s.votes, e.isGrant → e ∈ s.grants
  granted : ∀ e ∈ s.grants, e.isGrant ∧ e.round ≤ s.round e.dst ∧ e.src.isSome
  once : ∀ c v r, s.votes.countP (asks c v r) + s.grants.countP (votesFor c v r) ≤ 1
  counted : ∀ c, (s.hosts c).state = .CANDIDATE →
    (s.hosts c).nbPositiveVote + s.votes.countP (answers c (s.round c)) ≤ s.grants.countP (answers c (s.round c))
  notSelf : ∀ c, (s.hosts c).state ≠ .FOLLOWER → ∀ e ∈ s.grants, e.dst = c → e.round = s.round c → e.src ≠ some c

/-- Before the action, a granted vote that reaches a candidate answers its current round, no vote
is duplicated, and the cluster store names no peer twice. -/
def CountsOwnRound (C : Cluster ι) (s : ClusterState ι V) : ClusterAction ι V → Prop
  | .elapsed _ env _ _ => ∀ nodes ∈ env.getAllNodes, (nodes.filterMap C.locate).Nodup
  | .deliver k _ => ∀ e ∈ s.network[k]?, e.isGrant = true → (s.hosts e.dst).state = .CANDIDATE → e.round = s.round e.dst
  | .duplicate _ => False
  | .lose _ | .client _ _ | .appendEntry _ _ => True

namespace Ballot

theorem requested_step (ballot : Ballot s) (step : C.VoteStep s a t) :
    ∀ e ∈ t.votes, e.isVoteRequest → ∀ c, e.src = some c → e.round ≤ t.round c := by
  intro e member request c sender
  have old (before : e ∈ s.votes) : e.round ≤ t.round c :=
    le_trans (ballot.requested e before request c sender) (step.round_le c)
  cases step with
  | quiet _ _ _ votes => exact old (votes.subset member)
  | stood i env timer queued _ nodes _ asked _ _ round _ _ votes =>
    rw [votes] at member
    rcases List.mem_append.mp member with before | new
    · exact old before
    · obtain ⟨v, _, rfl⟩ := List.mem_map.mp new
      obtain rfl : i = c := Option.some.inj sender
      rw [round, Function.update_self]
      exact le_rfl
  | granted k env _ d _ header before after new _ _ split _ _ _ _ votes answer =>
    rw [votes] at member
    rcases List.mem_append.mp member with kept | fresh
    · exact old (split ▸ mem_of_mem_erased kept)
    · rw [not_request_of_grant (answer e fresh).2.1] at request
      cases request
  | counted k env _ d _ before after _ split _ _ _ _ votes =>
    rw [votes] at member
    exact old (split ▸ mem_of_mem_erased member)

theorem flying_step (ballot : Ballot s) (step : C.VoteStep s a t) :
    ∀ e ∈ t.votes, e.isGrant → e ∈ t.grants := by
  intro e member grant
  cases step with
  | quiet _ _ grants votes =>
    rw [grants]
    exact ballot.flying e (votes.subset member) grant
  | stood i env timer queued _ nodes _ asked _ _ _ grants _ votes =>
    rw [votes] at member
    rw [grants]
    rcases List.mem_append.mp member with before | new
    · exact ballot.flying e before grant
    · obtain ⟨v, _, rfl⟩ := List.mem_map.mp new
      cases grant
  | granted k env _ d _ header before after new _ _ split _ _ _ grants votes _ =>
    rw [votes] at member
    rw [grants]
    rcases List.mem_append.mp member with kept | fresh
    · exact List.mem_append_left _ (ballot.flying e (split ▸ mem_of_mem_erased kept) grant)
    · exact List.mem_append_right _ fresh
  | counted k env _ d _ before after _ split _ _ _ grants votes =>
    rw [votes] at member
    rw [grants]
    exact ballot.flying e (split ▸ mem_of_mem_erased member) grant

theorem granted_step (wired : C.Wired s) (ballot : Ballot s) (step : C.VoteStep s a t) :
    ∀ e ∈ t.grants, e.isGrant ∧ e.round ≤ t.round e.dst ∧ e.src.isSome := by
  intro e member
  have old (before : e ∈ s.grants) : e.isGrant ∧ e.round ≤ t.round e.dst ∧ e.src.isSome := by
    obtain ⟨grant, bound, sender⟩ := ballot.granted e before
    exact ⟨grant, le_trans bound (step.round_le e.dst), sender⟩
  cases step with
  | quiet _ _ grants | stood _ _ _ _ _ _ _ _ _ _ _ grants | counted _ _ _ _ _ _ _ _ _ _ _ _ grants =>
    exact old (grants ▸ member)
  | granted k env _ d position header before after new request _ split _ _ round grants _ answer =>
    rw [grants] at member
    rcases List.mem_append.mp member with before | fresh
    · exact old before
    · obtain ⟨_, grant, sender, same, located, _⟩ := answer e fresh
      have source := wired.request_source (List.mem_of_getElem? position) request located
      have bound := ballot.requested d (by simp [split]) (by simp [Envelope.isVoteRequest, request]) e.dst source
      exact ⟨grant, by rw [same, round]; exact bound, by simp [sender]⟩

/-- No request and no vote belongs to a round that has not begun. -/
theorem later_round (ballot : Ballot s) {c : ι} {r : Nat} (later : s.round c < r) :
    (∀ v, s.votes.countP (asks c v r) = 0) ∧ (∀ v, s.grants.countP (votesFor c v r) = 0) ∧
    s.votes.countP (answers c r) = 0 := by
  refine ⟨fun v => ?_, fun v => ?_, ?_⟩
  · apply List.countP_eq_zero.mpr
    intro e member asked
    simp only [asks, Bool.and_eq_true, decide_eq_true_eq] at asked
    have bound := ballot.requested e member asked.2 c asked.1.1
    omega
  · apply List.countP_eq_zero.mpr
    intro e member voted
    simp only [votesFor, decide_eq_true_eq] at voted
    have bound := (ballot.granted e member).2.1
    rw [voted.2.1] at bound
    omega
  · apply List.countP_eq_zero.mpr
    intro e member answered
    simp only [answers, Bool.and_eq_true, decide_eq_true_eq] at answered
    have bound := (ballot.granted e (ballot.flying e member answered.2)).2.1
    rw [answered.1.1] at bound
    omega

omit [DecidableEq ι] in
theorem requestTo_not_grant (i : ι) (h : PeerHost V) (round : Nat) (confirmed : Int) (v : ι) :
    (requestTo i h round confirmed v).isGrant = false := rfl

theorem countP_requestTo (i : ι) (h : PeerHost V) (round : Nat) (confirmed : Int) (asked : List ι) (c v : ι) (r : Nat) :
    (asked.map (requestTo i h round confirmed)).countP (asks c v r) =
      if c = i ∧ r = round then asked.count v else 0 := by
  rw [List.countP_map]
  split
  next own =>
    obtain ⟨rfl, rfl⟩ := own
    rw [List.count_eq_countP]
    apply List.countP_congr
    intro w _
    simp [asks, requestTo, Envelope.isVoteRequest, ConsensusPackageRequestBuilder.vote]
  next other =>
    apply List.countP_eq_zero.mpr
    intro w _ asked
    simp only [asks, requestTo, Function.comp_def, Bool.and_eq_true, decide_eq_true_eq, Option.some.injEq] at asked
    exact other ⟨asked.1.1.symm, asked.1.2.2.symm⟩

/-- One delivery turns a request into at most one vote. -/
theorem granted_once (wired : C.Wired s) {e : Envelope ι V} (inFlight : e ∈ s.network) {header : ConsensusHeader}
    (request : e.pkg = .voteRequest header) {new : List (Envelope ι V)}
    (answer : ∀ d ∈ new, new = [d] ∧ d.isGrant ∧ d.src = some e.dst ∧ d.round = e.round ∧
      C.locate header.source = some d.dst ∧ d.pkg.header.termId = header.termId) (c v : ι) (r : Nat) :
    new.countP (votesFor c v r) ≤ [e].countP (asks c v r) ∧ new.countP (asks c v r) = 0 := by
  cases new with
  | nil => simp
  | cons d rest =>
    obtain ⟨alone, grant, sender, round, located, _⟩ := answer d List.mem_cons_self
    have source := wired.request_source inFlight request located
    have isRequest : e.isVoteRequest = true := by simp [Envelope.isVoteRequest, request]
    rw [alone]
    constructor
    · simp only [List.countP_singleton, votesFor, asks, sender, round, source, isRequest, Option.some.injEq,
        decide_eq_true_eq, Bool.and_true]
      by_cases voted : e.dst = v ∧ d.dst = c ∧ e.round = r
      · rw [if_pos voted, if_pos ⟨voted.2.1, voted.1, voted.2.2⟩]
      · rw [if_neg voted]
        omega
    · simp [asks, not_request_of_grant grant]

theorem once_step (wired : C.Wired s) (ballot : Ballot s) (counts : CountsOwnRound C s a) (step : C.VoteStep s a t) :
    ∀ c v r, t.votes.countP (asks c v r) + t.grants.countP (votesFor c v r) ≤ 1 := by
  intro c v r
  have bound := ballot.once c v r
  cases step with
  | quiet _ _ grants votes =>
    rw [grants]
    have fewer := votes.countP_le (p := asks c v r)
    omega
  | stood i env timer queued action nodes store asked _ _ _ grants among votes =>
    rw [votes, grants, List.countP_append]
    rw [countP_requestTo]
    split
    next own =>
      -- the peers the new round asks are among those the cluster store names, each once
      obtain ⟨noRequest, noVote, _⟩ := ballot.later_round (show s.round c < r by rw [own.1, own.2]; omega)
      subst action
      have distinct : asked.Nodup := (counts nodes store).sublist among
      have single := List.nodup_iff_count_le_one.mp distinct v
      rw [noRequest v, noVote v]
      omega
    next => omega
  | granted k env _ e position header before after new request _ split _ _ _ grants votes answer =>
    obtain ⟨voted, asked⟩ := granted_once wired (List.mem_of_getElem? position) request answer c v r
    rw [split] at bound
    rw [votes, grants]
    simp only [List.countP_append, List.countP_cons, List.countP_nil] at bound voted asked ⊢
    omega
  | counted k env _ e _ before after grant split _ _ _ grants votes =>
    rw [split] at bound
    rw [votes, grants]
    simp only [List.countP_append, List.countP_cons] at bound ⊢
    omega

theorem counted_step (ballot : Ballot s) (counts : CountsOwnRound C s a) (step : C.VoteStep s a t) :
    ∀ c, (t.hosts c).state = .CANDIDATE →
      (t.hosts c).nbPositiveVote + t.votes.countP (answers c (t.round c)) ≤ t.grants.countP (answers c (t.round c)) := by
  intro c candidate
  have settled (settles : PeerHost.Settles (s.hosts c) (t.hosts c)) : (s.hosts c).state = .CANDIDATE := by
    rcases settles.state with down | same | ⟨_, leads, _⟩
    · rw [down] at candidate
      cases candidate
    · rw [← same, candidate]
    · rw [leads] at candidate
      cases candidate
  cases step with
  | quiet settles round grants votes =>
    have bound := ballot.counted c (settled (settles c))
    have fewer := votes.countP_le (p := answers c (s.round c))
    rw [round, grants, (settles c).count]
    omega
  | stood i env timer queued _ nodes _ asked stands others round grants _ votes =>
    have silent (r : Nat) : (asked.map (requestTo i (s.hosts i) (s.round i + 1)
        (t.hosts i).info.confirmedTermIndex)).countP (answers c r) = 0 := by
      simp [List.countP_map, List.countP_eq_zero, answers, requestTo_not_grant]
    rw [votes, grants, List.countP_append, silent]
    by_cases own : c = i
    · subst own
      have reset : (t.hosts c).nbPositiveVote = 0 := stands.votes
      have fresh := (ballot.later_round (show s.round c < s.round c + 1 by omega)).2.2
      rw [reset, round, Function.update_self]
      omega
    · rw [others c own] at candidate ⊢
      rw [round, Function.update_of_ne own]
      exact ballot.counted c candidate
  | granted k env _ e _ header before after new request _ split settles _ round grants votes _ =>
    have bound := ballot.counted c (settled (settles c))
    have isRequest : e.isGrant = false := by simp [Envelope.isGrant, request]
    rw [split] at bound
    rw [round, grants, votes, (settles c).count]
    simp only [List.countP_append, List.countP_cons] at bound ⊢
    omega
  | counted k env action e position before after grant split counter others round grants votes =>
    rw [round, grants, votes]
    by_cases own : c = e.dst
    · subst own
      rw [counter] at candidate ⊢
      subst action
      have answered : answers e.dst (s.round e.dst) e = true := by
        simp [answers, grant, counts e position grant candidate]
      have bound := ballot.counted e.dst candidate
      rw [split] at bound
      simp only [List.countP_append, List.countP_cons, answered, if_true] at bound ⊢
      omega
    · rw [others c own] at candidate ⊢
      have bound := ballot.counted c candidate
      rw [split] at bound
      simp only [List.countP_append, List.countP_cons] at bound ⊢
      omega

theorem notSelf_step (ballot : Ballot s) (step : C.VoteStep s a t) :
    ∀ c, (t.hosts c).state ≠ .FOLLOWER → ∀ e ∈ t.grants, e.dst = c → e.round = t.round c → e.src ≠ some c := by
  intro c live e member target current
  have old (before : e ∈ s.grants) : e.src ≠ some c := by
    rcases step.live_before live with ⟨was, same⟩ | next
    · exact ballot.notSelf c was e before target (current.trans same)
    · have bound := (ballot.granted e before).2.1
      rw [target] at bound
      omega
  cases step with
  | quiet _ _ grants | stood _ _ _ _ _ _ _ _ _ _ _ grants | counted _ _ _ _ _ _ _ _ _ _ _ _ grants =>
    exact old (grants ▸ member)
  | granted k env _ d _ header before after new _ _ _ _ follows _ grants _ answer =>
    rw [grants] at member
    rcases List.mem_append.mp member with before | fresh
    · exact old before
    · rw [(answer e fresh).2.2.1]
      intro self
      rw [← Option.some.inj self] at live
      exact live follows

theorem step (wired : C.Wired s) (ballot : Ballot s) (counts : CountsOwnRound C s a) (step : C.VoteStep s a t) :
    Ballot t where
  requested := ballot.requested_step step
  flying := ballot.flying_step step
  granted := ballot.granted_step wired step
  once := ballot.once_step wired counts step
  counted := ballot.counted_step counts step
  notSelf := ballot.notSelf_step step

/-- The list of those who granted the round of `c`, one entry a vote. -/
theorem voters_count (s : ClusterState ι V) (c v : ι) :
    ((s.grants.filter fun e => e.dst = c ∧ e.round = s.round c).filterMap (·.src)).count v =
      s.grants.countP (votesFor c v (s.round c)) := by
  rw [List.count_filterMap, List.countP_filter]
  apply List.countP_congr
  intro e _
  simp [votesFor]

theorem voters_length (ballot : Ballot s) (c : ι) :
    ((s.grants.filter fun e => e.dst = c ∧ e.round = s.round c).filterMap (·.src)).length =
      s.grants.countP (answers c (s.round c)) := by
  rw [List.length_filterMap_eq_countP, List.countP_filter]
  apply List.countP_congr
  intro e member
  obtain ⟨grant, _, sender⟩ := ballot.granted e member
  simp [answers, grant, sender]

/-- **A candidate has counted no more votes than peers granted its round.** -/
theorem count_le_granters (ballot : Ballot s) {c : ι} (candidate : (s.hosts c).state = .CANDIDATE) :
    (s.hosts c).nbPositiveVote ≤ (s.granters c).card := by
  have distinct : ((s.grants.filter fun e => e.dst = c ∧ e.round = s.round c).filterMap (·.src)).Nodup := by
    apply List.nodup_iff_count_le_one.mpr
    intro v
    have single := ballot.once c v (s.round c)
    rw [voters_count s c v]
    omega
  have notSelf : c ∉ ((s.grants.filter fun e => e.dst = c ∧ e.round = s.round c).filterMap (·.src)).toFinset := by
    intro self
    obtain ⟨e, member, sender⟩ := List.mem_filterMap.mp (List.mem_toFinset.mp self)
    obtain ⟨member, current⟩ := List.mem_filter.mp member
    simp only [decide_eq_true_eq] at current
    exact ballot.notSelf c (by rw [candidate]; exact PeerStates.noConfusion) e member current.1 current.2 sender
  rw [ClusterState.granters, Finset.erase_eq_of_notMem notSelf, List.toFinset_card_of_nodup distinct,
    ballot.voters_length c]
  have bound := ballot.counted c candidate
  omega

end Ballot

/-- Requests and granted votes carry the topic of the peer the vote is for. -/
structure OneTopic (s : ClusterState ι V) : Prop where
  request : ∀ e ∈ s.network, ∀ header, e.pkg = .voteRequest header → ∀ c, e.src = some c →
    header.termId = (s.hosts c).info.termId
  flying : ∀ e ∈ s.network, e.isGrant → e.pkg.header.termId = (s.hosts e.dst).info.termId
  counted : ∀ e ∈ s.counted, e.pkg.header.termId = (s.hosts e.dst).info.termId

theorem OneTopic.step (wired : C.Wired s) (topic : OneTopic s) (taken : C.Step s a t) : OneTopic t where
  request := by
    intro e member header request c sender
    rw [(taken.identity c).termId]
    rcases taken.voteRequest member request with old | ⟨i, _, _, _, source, _, rfl⟩
    · exact topic.request e old header request c sender
    · obtain rfl : i = c := Option.some.inj (source.symm.trans sender)
      rfl
  flying := by
    intro e member grant
    rw [(taken.identity e.dst).termId]
    rcases taken.grant member grant with old | ⟨d, header, inFlight, request, term, _, located, made⟩
    · exact topic.flying e old grant
    · have asked := topic.request d inFlight header request e.dst (wired.request_source inFlight request located)
      rw [← asked, ← term, made]
      rfl
  counted := by
    intro e member
    rw [(taken.identity e.dst).termId]
    rcases taken.counted member with old | ⟨flying, grant⟩
    · exact topic.counted e old
    · exact topic.flying e flying grant

/-- A peer becomes leader as a candidate with enough votes. -/
theorem Step.elected (taken : C.Step s a t) {c : ι} (before : (s.hosts c).state ≠ .LEADER)
    (leads : (t.hosts c).state = .LEADER) :
    (s.hosts c).state = .CANDIDATE ∧ (s.hosts c).quorum ≤ (s.hosts c).nbPositiveVote := by
  have kept {h' : PeerHost V} (leads : h'.state = .LEADER) (same : h'.state = (s.hosts c).state) : False :=
    before (same.symm.trans leads)
  rcases taken.host c with same | ⟨env, sent, effect⟩ | ⟨k, env, e, sent, _, _, effect⟩ | ⟨logRecord, _, same⟩
  · exact absurd (by rw [same]) (kept leads)
  · cases effect with
    | quiet same | heartbeat _ _ same => exact absurd same.state (kept leads)
    | leader candidate enough => exact ⟨candidate, enough⟩
    | candidate _ _ _ _ same =>
      rw [same.state] at leads
      cases leads
    | expired _ same =>
      rw [same.state] at leads
      cases leads
  · rcases effect.state with down | same
    · rw [down] at leads
      cases leads
    · exact absurd same (kept leads)
  · exact absurd (by rw [same]; rfl) (kept leads)

end

section
variable {ι V : Type*} [DecidableEq ι] [DecidableEq V] (C : Cluster ι)

/-- **Vote accounting.** In every run in which a granted vote that reaches a candidate answers its
current round, nothing is duplicated and the cluster store names no peer twice: a candidate never
has counted more votes than other peers granted its round, a peer becomes leader only when at least
its quorum of other peers granted its round, and no vote of another topic is counted. -/
theorem votes_accounted (info : ι → PeerInfo) (options : ι → ConsensusPeerOptions) (env : ι → Env)
    {acts : List (ClusterAction ι V)} {t : ClusterState ι V}
    (counts : Along C.step (CountsOwnRound C) (C.startWith info options env) acts)
    (reached : run C.step (C.startWith info options env) acts = some t) :
    (∀ c, (t.hosts c).state = .CANDIDATE → (t.hosts c).nbPositiveVote ≤ (t.granters c).card) ∧
    (∀ a u c, C.step t a = some u → (t.hosts c).state ≠ .LEADER → (u.hosts c).state = .LEADER →
      (t.hosts c).quorum ≤ (t.granters c).card) ∧
    ∀ e ∈ t.counted, e.pkg.header.termId = (t.hosts e.dst).info.termId := by
  have inv : C.Wired t ∧ Ballot t ∧ OneTopic t := by
    refine run_invariant (fun u => C.Wired u ∧ Ballot u ∧ OneTopic u) ?_
      ⟨startWith_wired info options env, ?_, ?_⟩ counts reached
    · intro u a w ⟨wired, ballot, topic⟩ counts taken
      have taken := C.step_cases taken
      have vote := taken.vote (by rintro k rfl; exact counts)
      exact ⟨wired.step taken, ballot.step wired counts vote, topic.step wired taken⟩
    · constructor <;> simp [startWith, ClusterState.votes, PeerHost.start, PeerHost.startCheckLeaderHeartbeat]
    · constructor <;> simp [startWith]
  obtain ⟨_, ballot, topic⟩ := inv
  refine ⟨fun c candidate => ballot.count_le_granters candidate, ?_, topic.counted⟩
  intro a u c taken before leads
  obtain ⟨candidate, enough⟩ := (C.step_cases taken).elected before leads
  exact le_trans enough (ballot.count_le_granters candidate)

instance decidableCountsOwnRound (s : ClusterState ι V) : DecidablePred (CountsOwnRound C s)
  | .elapsed _ env _ _ => inferInstanceAs (Decidable (∀ nodes ∈ env.getAllNodes, (nodes.filterMap C.locate).Nodup))
  | .deliver k _ => inferInstanceAs (Decidable (∀ e ∈ s.network[k]?, _ → _ → _ = _))
  | .duplicate _ => isFalse id
  | .lose _ | .client _ _ | .appendEntry _ _ => isTrue trivial

/-- Node 0 stands and counts the vote of node 1. -/
def candidacy : List (ClusterAction (Fin 2) String) :=
  let env := fun now => Env.calm now (Cluster.localhost 2).members
  [.elapsed node0 (env 5000) .checkLeaderHeartbeat false, .deliver 0 (env 5010), .deliver 0 (env 5020)]

theorem votes_accounted_candidacy :
    ∃ t, run (Cluster.localhost 2).step (started 2) candidacy = some t ∧
      (t.hosts 0).state = .CANDIDATE ∧ (t.hosts 0).nbPositiveVote = 1 ∧ t.granters 0 = {1} ∧
      (t.hosts 0).nbPositiveVote ≤ (t.granters 0).card := by
  have counts : Along (Cluster.localhost 2).step (CountsOwnRound (Cluster.localhost 2)) (started 2) candidacy := by
    decide
  have checked : (run (Cluster.localhost 2).step (started 2) candidacy).any (fun t => decide
      ((t.hosts 0).state = .CANDIDATE ∧ (t.hosts 0).nbPositiveVote = 1 ∧ t.granters 0 = {1})) = true := by
    decide
  obtain ⟨t, reached, candidate, one, granters⟩ := run_checked checked
  exact ⟨t, reached, candidate, one, granters, (votes_accounted _ _ _ _ counts reached).1 0 candidate⟩

/-- The vote of node 1 for the first round of node 0 arrives when that round has expired and node 0
stands again. -/
def staleVote : List (ClusterAction (Fin 2) String) :=
  let env := fun now => Env.calm now (Cluster.localhost 2).members
  [.elapsed node0 (env 5000) .checkLeaderHeartbeat false, .deliver 0 (env 5010),
   .elapsed node0 (env 7000) .electionCheck false,
   .elapsed node0 (env 12000) .checkLeaderHeartbeat false, .deliver 0 (env 12010)]

/-- Node 0 counts it, and its next check makes it leader of a round that nobody granted. -/
theorem staleVote_counted :
    ∃ t u, run (Cluster.localhost 2).step (started 2) staleVote = some t ∧
      (t.hosts 0).state = .CANDIDATE ∧ ¬ (t.hosts 0).nbPositiveVote ≤ (t.granters 0).card ∧
      (Cluster.localhost 2).step t (.elapsed 0 (.calm 12100 []) .electionCheck false) = some u ∧
      (u.hosts 0).state = .LEADER ∧ (t.hosts 0).quorum = 1 ∧ t.granters 0 = ∅ := by
  have checked : (run (Cluster.localhost 2).step (started 2) staleVote).any (fun t => decide
      ((t.hosts 0).state = .CANDIDATE ∧ ¬ (t.hosts 0).nbPositiveVote ≤ (t.granters 0).card ∧
        (t.hosts 0).quorum = 1 ∧ t.granters 0 = ∅ ∧
        (run (Cluster.localhost 2).step t [.elapsed 0 (.calm 12100 []) .electionCheck false]).any
          (fun u => decide ((u.hosts 0).state = .LEADER)))) = true := by decide
  obtain ⟨t, reached, candidate, more, quorum, granters, next⟩ := run_checked checked
  obtain ⟨u, checks, leads⟩ := run_checked next
  obtain ⟨v, taken, same⟩ := run_cons checks
  obtain rfl : v = u := Option.some.inj same
  exact ⟨t, v, reached, candidate, more, taken, leads, quorum, granters⟩

end

end Cluster

end FaasNet.RaftConsensus
