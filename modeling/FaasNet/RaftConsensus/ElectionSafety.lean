import FaasNet.Lib.Counting
import FaasNet.RaftConsensus.VoteAccounting

/-!
# Election safety

A voter does not remember whom it voted for, and a candidate does not check which round a vote
answers. When neither matters in a run, two leaders with one `TermIndex` have quorums without a
common voter; quorums are taken among the others, so each leader voted for the other, and the one
that voted last has become a follower since.
-/

namespace FaasNet.RaftConsensus

open FaasNet.Lib

/-- The packages of elections and of heartbeats. -/
def ConsensusPackage.isElection {V : Type*} : ConsensusPackage V → Bool
  | .voteRequest _ | .voteResult _ | .leaderHeartbeatRequest _ => true
  | .appendEntryRequest _ | .leaderHeartbeatResult _ => false

namespace PeerHost

section
variable {V : Type*} {env : Env} {h h' : PeerHost V} {pkg : ConsensusPackage V} {sent : Sent V}

/-- A candidate or leader that stays one through a package of an election keeps its indices. -/
theorem PackageEffect.live_info (effect : PackageEffect env h pkg h' sent) (election : pkg.isElection = true)
    (live : h'.state ≠ .FOLLOWER) : h'.info = h.info ∧ h.state ≠ .FOLLOWER := by
  cases effect with
  | followed _ _ _ _ _ _ _ stepsDown _ _ same =>
    rcases stepsDown with rfl | ⟨_, rfl⟩
    · rw [same.state] at live
      exact ⟨same.info, live⟩
    · exact absurd same.state live
  | granted _ _ _ _ same => exact absurd same.state live
  | ignored | refused | counted => exact ⟨rfl, live⟩
  | appended | forwarded | buffered | replicated => cases election

/-- A candidate or leader has the index of its election. -/
theorem TimerEffect.live_index (effect : TimerEffect env h h' sent) (live : h'.state ≠ .FOLLOWER)
    (before : h.state ≠ .FOLLOWER → h.info.termIndex = h.info.confirmedTermIndex + 1) :
    h'.info.termIndex = h'.info.confirmedTermIndex + 1 := by
  cases effect with
  | quiet same | heartbeat _ _ same =>
    rw [same.state] at live
    rw [same.info]
    exact before live
  | candidate _ _ _ _ same => rw [same.info]; rfl
  | leader candidate _ same =>
    rw [same.info]
    exact before (by rw [candidate]; exact PeerStates.noConfusion)
  | expired _ same => exact absurd same.state live

end

end PeerHost

namespace Cluster

section
variable {ι V : Type*} [DecidableEq ι] {C : Cluster ι} {order : List ι}
variable {s t : ClusterState ι V} {a : ClusterAction ι V}

/-- The runs of elections and heartbeats: the cluster store answers with all members, in a fixed
order, or throws, and packages are delayed, reordered or lost. -/
def ElectionRun (C : Cluster ι) (order : List ι) (s : ClusterState ι V) : ClusterAction ι V → Prop
  | .elapsed _ env _ _ => ∀ nodes ∈ env.getAllNodes, nodes = order.map C.addr
  | .deliver k _ => ∀ e ∈ s.network[k]?, e.pkg.isElection = true
  | .lose _ => True
  | .duplicate _ | .client _ _ | .appendEntry _ _ => False

/-- Before the action, a vote that reaches a candidate answers its current round, and a peer that
is about to grant a request has not granted the current round of another candidate or leader with
the same `TermIndex`. -/
def VotesOnce (s : ClusterState ι V) : ClusterAction ι V → Prop
  | .deliver k _ => ∀ e ∈ s.network[k]?,
      (e.isGrant = true → (s.hosts e.dst).state = .CANDIDATE → e.round = s.round e.dst) ∧
      (e.isVoteRequest = true → (s.hosts e.dst).info.confirmedTermIndex < e.pkg.header.termIndex →
        ∀ d, e.src ≠ some d → (s.hosts d).state ≠ .FOLLOWER → (s.hosts d).info.termIndex = e.pkg.header.termIndex →
          e.dst ∉ s.granters d)
  | _ => True

/-- If nobody votes twice, votes are counted in their own round. -/
theorem counts_of_votesOnce (distinct : order.Nodup) (election : ElectionRun C order s a) (once : VotesOnce s a) :
    CountsOwnRound C s a := by
  cases a with
  | elapsed i env timer queued =>
    intro nodes store
    rw [election nodes store, List.filterMap_map]
    have located : (C.locate ∘ C.addr) = some := funext fun i => C.locate_addr i
    rw [located, List.filterMap_some]
    exact distinct
  | deliver k env => exact fun e position => (once e position).1
  | duplicate => exact absurd election id
  | lose | client | appendEntry => trivial

/-- No peer appends anything. -/
theorem Step.confirmed_kept (taken : C.Step s a t) (election : ElectionRun C order s a) (c : ι) :
    (t.hosts c).info.confirmedTermIndex = (s.hosts c).info.confirmedTermIndex := by
  rcases taken.host c with same | ⟨env, sent, effect⟩ | ⟨k, env, e, sent, rfl, position, effect⟩ | ⟨_, rfl, _⟩
  · rw [same]
  · exact (PeerHost.timer_grows effect).2
  · apply (PeerHost.package_keeps_log effect _).2
    intro request appends
    have kind := election e position
    rw [appends] at kind
    cases kind
  · exact absurd election id

/-- Who is no follower is one ahead of what is confirmed. -/
theorem Step.live_index (taken : C.Step s a t) (election : ElectionRun C order s a) {c : ι}
    (before : (s.hosts c).state ≠ .FOLLOWER → (s.hosts c).info.termIndex = (s.hosts c).info.confirmedTermIndex + 1)
    (live : (t.hosts c).state ≠ .FOLLOWER) :
    (t.hosts c).info.termIndex = (t.hosts c).info.confirmedTermIndex + 1 := by
  rcases taken.host c with same | ⟨env, sent, effect⟩ | ⟨k, env, e, sent, rfl, position, effect⟩ | ⟨_, rfl, _⟩
  · rw [same] at live ⊢
    exact before live
  · exact effect.live_index live before
  · obtain ⟨info, was⟩ := effect.live_info (election e position) live
    rw [info]
    exact before was
  · exact absurd election id

/-- Whose vote a round has after an action: it had it before, or the voter granted it now and is
a follower. -/
theorem VoteStep.mem_granters (wired : C.Wired s) (ballot : Ballot s) (step : C.VoteStep s a t) {c v : ι}
    (member : v ∈ t.granters c) :
    (v ∈ s.granters c ∧ t.round c = s.round c) ∨
    ∃ k env e, a = .deliver k env ∧ s.network[k]? = some e ∧ e.isVoteRequest = true ∧
      (s.hosts e.dst).info.confirmedTermIndex < e.pkg.header.termIndex ∧ e.src = some c ∧ e.dst = v ∧
      (t.hosts v).state = .FOLLOWER := by
  obtain ⟨other, e, recorded, sender, target, current⟩ := Cluster.mem_granters.mp member
  have old (before : e ∈ s.grants) (round : t.round c = s.round c) : v ∈ s.granters c ∧ t.round c = s.round c :=
    ⟨Cluster.mem_granters.mpr ⟨other, e, before, sender, target, current.trans round⟩, round⟩
  cases step with
  | quiet _ round grants | counted _ _ _ _ _ _ _ _ _ _ _ round grants =>
    exact .inl (old (grants ▸ recorded) (by rw [round]))
  | stood i env timer queued _ nodes _ asked _ _ round grants =>
    by_cases own : c = i
    · have bound := (ballot.granted e (grants ▸ recorded)).2.1
      rw [current, target, own, round, Function.update_self] at bound
      omega
    · exact .inl (old (grants ▸ recorded) (by rw [round, Function.update_of_ne own]))
  | granted k env action d position header before after new request newer _ _ follows round grants _ answer =>
    rw [grants] at recorded
    rcases List.mem_append.mp recorded with before | fresh
    · exact .inl (old before (by rw [round]))
    · obtain ⟨_, _, voter, _, located, _⟩ := answer e fresh
      obtain rfl : d.dst = v := Option.some.inj (voter.symm.trans sender)
      have source := wired.request_source (List.mem_of_getElem? position) request located
      refine .inr ⟨k, env, d, action, position, ?_, ?_, target ▸ source, rfl, follows⟩
      · simp [Envelope.isVoteRequest, request]
      · rw [request]
        exact newer

/-! ## The contest -/

variable (C order) in
/-- Candidates and leaders of one `TermIndex` have different voters, no two of them voted for each
other, and a leader has a quorum of the others. -/
structure Contest (s : ClusterState ι V) : Prop where
  wired : C.Wired s
  ballot : Ballot s
  asked : ∀ e ∈ s.network, ∀ header, e.pkg = .voteRequest header → ∀ c, e.src = some c →
    header.termIndex = (s.hosts c).info.confirmedTermIndex + 1
  index : ∀ c, (s.hosts c).state ≠ .FOLLOWER → (s.hosts c).info.termIndex = (s.hosts c).info.confirmedTermIndex + 1
  quorum : 2 ≤ order.length → ∀ c, (s.hosts c).state ≠ .FOLLOWER → (s.hosts c).quorum = (order.length - 1) / 2 + 1
  elected : ∀ c, (s.hosts c).state = .LEADER → (s.hosts c).quorum ≤ (s.granters c).card
  disjoint : ∀ c d, c ≠ d → (s.hosts c).state ≠ .FOLLOWER → (s.hosts d).state ≠ .FOLLOWER →
    (s.hosts c).info.termIndex = (s.hosts d).info.termIndex → Disjoint (s.granters c) (s.granters d)
  mutual_vote : ∀ c d, (s.hosts c).state ≠ .FOLLOWER → (s.hosts d).state ≠ .FOLLOWER →
    d ∈ s.granters c → c ∉ s.granters d

namespace Contest

/-- A request for votes is of its candidate. -/
theorem asked_step (contest : C.Contest order s) (election : ElectionRun C order s a) (taken : C.Step s a t) :
    ∀ e ∈ t.network, ∀ header, e.pkg = .voteRequest header → ∀ c, e.src = some c →
      header.termIndex = (t.hosts c).info.confirmedTermIndex + 1 := by
  intro e member header request c sender
  rw [taken.confirmed_kept election c]
  rcases taken.voteRequest member request with old | ⟨i, _, _, _, source, _, rfl⟩
  · exact contest.asked e old header request c sender
  · obtain rfl : i = c := Option.some.inj (source.symm.trans sender)
    rfl

/-- All nodes but one are other nodes. -/
theorem otherNodes_length (distinct : order.Nodup) {i : ι} (member : i ∈ order) {h : PeerHost V}
    (own : h.nodeOptions = C.nodeOptions i) : (h.otherNodes (order.map C.addr)).length = order.length - 1 := by
  have others : h.otherNodes (order.map C.addr) = (order.filter (· != i)).map C.addr := by
    unfold PeerHost.otherNodes
    rw [List.filter_map, own]
    congr 1
    apply List.filter_congr
    intro j _
    have here : (j = i) ↔ (C.addr j).port = (C.nodeOptions i).port ∧ (C.addr j).url = (C.nodeOptions i).url := by
      constructor
      · rintro rfl
        exact ⟨rfl, rfl⟩
      · rintro ⟨port, url⟩
        apply C.addr_injective
        rw [addr, addr, ConsensusNodeOptions.node, ConsensusNodeOptions.node, ClusterNode.mk.injEq]
        exact ⟨url, port⟩
    by_cases same : j = i
    · subst same
      simp [addr, ConsensusNodeOptions.node]
    · rw [Function.comp_apply, bne_iff_ne.mpr same]
      have away := mt here.mpr same
      rw [not_and_or] at away
      exact decide_eq_true away
  rw [others, List.length_map, ← distinct.erase_eq_filter, List.length_erase_of_mem member]

/-- Who is no follower needs the votes of more than half of the others. -/
theorem quorum_step (contest : C.Contest order s) (distinct : order.Nodup) (complete : ∀ i, i ∈ order)
    (election : ElectionRun C order s a) (step : C.VoteStep s a t) (several : 2 ≤ order.length) (c : ι)
    (live : (t.hosts c).state ≠ .FOLLOWER) : (t.hosts c).quorum = (order.length - 1) / 2 + 1 := by
  have settled (settles : PeerHost.Settles (s.hosts c) (t.hosts c)) :
      (t.hosts c).quorum = (order.length - 1) / 2 + 1 := by
    rw [settles.quorum]
    apply contest.quorum several c
    rcases settles.state with down | same | ⟨was, _⟩
    · exact absurd down live
    · rw [← same]
      exact live
    · rw [was]
      exact PeerStates.noConfusion
  cases step with
  | quiet settles => exact settled (settles c)
  | granted _ _ _ _ _ _ _ _ _ _ _ _ settles => exact settled (settles c)
  | stood i env timer queued action nodes store asked candidate others =>
    by_cases own : c = i
    · subst own action
      have members : nodes = order.map C.addr := election nodes store
      have length := otherNodes_length distinct (complete c) (contest.wired.nodeOptions c)
      have quorum : (t.hosts c).quorum = if ((s.hosts c).otherNodes nodes).isEmpty then 0
          else ((s.hosts c).otherNodes nodes).length / 2 + 1 := candidate.quorum
      have some_other : ¬ ((s.hosts c).otherNodes (order.map C.addr)).isEmpty = true := by
        rw [List.isEmpty_iff_length_eq_zero, length]
        omega
      rw [quorum, members, if_neg some_other, length]
    · rw [others c own] at live ⊢
      exact contest.quorum several c live
  | counted k env _ e _ _ _ _ _ counter others =>
    by_cases own : c = e.dst
    · subst own
      rw [counter] at live ⊢
      exact contest.quorum several e.dst live
    · rw [others c own] at live ⊢
      exact contest.quorum several c live

/-- The votes of a round are kept as long as the round goes on. -/
theorem granters_mono {c : ι} (grants : s.grants ⊆ t.grants) (round : t.round c = s.round c) :
    s.granters c ⊆ t.granters c := by
  intro v member
  obtain ⟨other, e, recorded, sender, target, current⟩ := Cluster.mem_granters.mp member
  exact Cluster.mem_granters.mpr ⟨other, e, grants recorded, sender, target, current.trans round.symm⟩

/-- A leader has the votes of a quorum. -/
theorem elected_step (contest : C.Contest order s) (step : C.VoteStep s a t) (c : ι)
    (leads : (t.hosts c).state = .LEADER) : (t.hosts c).quorum ≤ (t.granters c).card := by
  have settled (settles : PeerHost.Settles (s.hosts c) (t.hosts c)) (grants : s.grants ⊆ t.grants)
      (round : t.round = s.round) : (t.hosts c).quorum ≤ (t.granters c).card := by
    have kept := Finset.card_le_card (granters_mono grants (congrFun round c))
    have before : (s.hosts c).quorum ≤ (s.granters c).card := by
      rcases settles.state with down | same | ⟨candidate, _, enough⟩
      · rw [down] at leads
        cases leads
      · exact contest.elected c (same.symm.trans leads)
      · exact le_trans enough (contest.ballot.count_le_granters candidate)
    rw [settles.quorum]
    omega
  cases step with
  | quiet settles round grants => exact settled (settles c) (by rw [grants]; exact List.Subset.refl _) round
  | granted _ _ _ _ _ _ _ _ _ _ _ _ settles _ round grants =>
    exact settled (settles c) (by rw [grants]; exact List.subset_append_left _ _) round
  | stood i env timer queued _ nodes _ asked candidate others round grants =>
    by_cases own : c = i
    · rw [own, candidate.state] at leads
      cases leads
    · have kept := Finset.card_le_card (granters_mono (s := s) (t := t) (c := c)
        (by rw [grants]; exact List.Subset.refl _) (by rw [round, Function.update_of_ne own]))
      rw [others c own] at leads ⊢
      exact le_trans (contest.elected c leads) kept
  | counted k env _ e _ _ _ _ _ counter others round grants =>
    have kept := Finset.card_le_card (granters_mono (s := s) (t := t) (c := c)
      (by rw [grants]; exact List.Subset.refl _) (by rw [round]))
    by_cases own : c = e.dst
    · subst own
      rw [counter] at leads ⊢
      exact le_trans (contest.elected e.dst leads) kept
    · rw [others c own] at leads ⊢
      exact le_trans (contest.elected c leads) kept

/-- A peer that is live in the same round as before was live before. -/
theorem live_of_round (step : C.VoteStep s a t) {c : ι} (live : (t.hosts c).state ≠ .FOLLOWER)
    (round : t.round c = s.round c) : (s.hosts c).state ≠ .FOLLOWER := by
  rcases step.live_before live with ⟨before, _⟩ | fresh
  · exact before
  · omega

/-- Two who are no followers in one round have the votes of different nodes. -/
theorem disjoint_step (contest : C.Contest order s) (election : ElectionRun C order s a) (once : VotesOnce s a)
    (taken : C.Step s a t) (step : C.VoteStep s a t) (c d : ι) (other : c ≠ d)
    (liveC : (t.hosts c).state ≠ .FOLLOWER) (liveD : (t.hosts d).state ≠ .FOLLOWER)
    (same : (t.hosts c).info.termIndex = (t.hosts d).info.termIndex) : Disjoint (t.granters c) (t.granters d) := by
  have index (b : ι) (live : (t.hosts b).state ≠ .FOLLOWER) :
      (t.hosts b).info.termIndex = (s.hosts b).info.confirmedTermIndex + 1 := by
    rw [taken.live_index election (contest.index b) live, taken.confirmed_kept election b]
  have equal : (s.hosts c).info.confirmedTermIndex = (s.hosts d).info.confirmedTermIndex := by
    rw [index c liveC, index d liveD] at same
    omega
  -- the voter of a request granted now has no vote in the round of a rival
  have fresh (b r : ι) (rival : b ≠ r) (live : (t.hosts r).state ≠ .FOLLOWER)
      (tie : (s.hosts b).info.confirmedTermIndex = (s.hosts r).info.confirmedTermIndex)
      {k : Nat} {env : Env} {e : Envelope ι V} (action : a = .deliver k env) (position : s.network[k]? = some e)
      (request : e.isVoteRequest = true) (newer : (s.hosts e.dst).info.confirmedTermIndex < e.pkg.header.termIndex)
      (sender : e.src = some b) (old : e.dst ∈ s.granters r) (round : t.round r = s.round r) : False := by
    subst action
    have before := live_of_round step live round
    have asked : e.pkg.header.termIndex = (s.hosts b).info.confirmedTermIndex + 1 := by
      cases received : e.pkg with
      | voteRequest header => exact contest.asked e (List.mem_of_getElem? position) header received b sender
      | leaderHeartbeatRequest | voteResult | appendEntryRequest | leaderHeartbeatResult =>
        simp [Envelope.isVoteRequest, received] at request
    refine (once e position).2 request newer r ?_ before ?_ old
    · rw [sender]
      exact fun h => rival (Option.some.inj h)
    · rw [contest.index r before, asked, tie]
  rw [Finset.disjoint_left]
  intro v inC inD
  rcases step.mem_granters contest.wired contest.ballot inC with
    ⟨oldC, roundC⟩ | ⟨k, env, e, action, position, request, newer, sender, rfl, _⟩
  · rcases step.mem_granters contest.wired contest.ballot inD with
      ⟨oldD, roundD⟩ | ⟨k, env, e, action, position, request, newer, sender, rfl, _⟩
    · have beforeC := live_of_round step liveC roundC
      have beforeD := live_of_round step liveD roundD
      have tie : (s.hosts c).info.termIndex = (s.hosts d).info.termIndex := by
        rw [contest.index c beforeC, contest.index d beforeD, equal]
      exact Finset.disjoint_left.mp (contest.disjoint c d other beforeC beforeD tie) oldC oldD
    · exact fresh d c other.symm liveC equal.symm action position request newer sender oldC roundC
  · rcases step.mem_granters contest.wired contest.ballot inD with
      ⟨oldD, roundD⟩ | ⟨k', env', e', action', position', _, _, sender', _, _⟩
    · exact fresh c d other liveD equal action position request newer sender oldD roundD
    · subst action
      obtain ⟨rfl, rfl⟩ := ClusterAction.deliver.inj action'
      obtain rfl : e = e' := Option.some.inj (position.symm.trans position')
      exact other (Option.some.inj (sender.symm.trans sender'))

/-- Two who are no followers do not vote for each other. -/
theorem mutual_step (contest : C.Contest order s) (step : C.VoteStep s a t) (c d : ι)
    (liveC : (t.hosts c).state ≠ .FOLLOWER) (liveD : (t.hosts d).state ≠ .FOLLOWER) (inC : d ∈ t.granters c) :
    c ∉ t.granters d := by
  intro inD
  rcases step.mem_granters contest.wired contest.ballot inC with
    ⟨oldC, roundC⟩ | ⟨_, _, _, _, _, _, _, _, _, follows⟩
  · rcases step.mem_granters contest.wired contest.ballot inD with
      ⟨oldD, roundD⟩ | ⟨_, _, _, _, _, _, _, _, _, follows⟩
    · exact contest.mutual_vote c d (live_of_round step liveC roundC) (live_of_round step liveD roundD) oldC oldD
    · exact liveC follows
  · exact liveD follows

/-- Each step keeps the contest. -/
theorem step (contest : C.Contest order s) (distinct : order.Nodup) (complete : ∀ i, i ∈ order)
    (election : ElectionRun C order s a) (once : VotesOnce s a) (taken : C.Step s a t) : C.Contest order t := by
  have vote : C.VoteStep s a t := taken.vote (by rintro k rfl; exact election)
  exact
    { wired := contest.wired.step taken
      ballot := contest.ballot.step contest.wired (counts_of_votesOnce distinct election once) vote
      asked := contest.asked_step election taken
      index := fun c live => taken.live_index election (contest.index c) live
      quorum := contest.quorum_step distinct complete election vote
      elected := contest.elected_step vote
      disjoint := contest.disjoint_step election once taken vote
      mutual_vote := contest.mutual_step vote }

end Contest

omit [DecidableEq ι] in
/-- Two nodes are two. -/
theorem length_of_two {c d : ι} (complete : ∀ i, i ∈ order) (other : c ≠ d) : 2 ≤ order.length := by
  classical
  have pair : ({c, d} : Finset ι) ⊆ order.toFinset := fun i _ => List.mem_toFinset.mpr (complete i)
  have count := Finset.card_le_card pair
  rw [Finset.card_pair other] at count
  exact le_trans count (List.toFinset_card_le order)

/-- A contest has one leader. -/
theorem Contest.one_leader (contest : C.Contest order s) (distinct : order.Nodup) (complete : ∀ i, i ∈ order)
    {c d : ι} (leadsC : (s.hosts c).state = .LEADER) (leadsD : (s.hosts d).state = .LEADER)
    (same : (s.hosts c).info.termIndex = (s.hosts d).info.termIndex) : c = d := by
  by_contra other
  have several := length_of_two complete other
  have liveC : (s.hosts c).state ≠ .FOLLOWER := by rw [leadsC]; exact PeerStates.noConfusion
  have liveD : (s.hosts d).state ≠ .FOLLOWER := by rw [leadsD]; exact PeerStates.noConfusion
  have inside (b : ι) : s.granters b ⊆ order.toFinset := fun i _ => List.mem_toFinset.mpr (complete i)
  have count : order.toFinset.card = order.length := List.toFinset_card_of_nodup distinct
  have quorum (b : ι) (leads : (s.hosts b).state = .LEADER) :
      (order.toFinset.card - 1) / 2 + 1 ≤ (s.granters b).card := by
    rw [count, ← contest.quorum several b (by rw [leads]; exact PeerStates.noConfusion)]
    exact contest.elected b leads
  have apart := contest.disjoint c d other liveC liveD same
  have self (b : ι) : b ∉ s.granters b := fun member => (Cluster.mem_granters.mp member).1 rfl
  have voted : c ∈ s.granters d := owner_mem_of_disjoint_quorums (List.mem_toFinset.mpr (complete c)) (inside c)
    (inside d) apart (quorum c leadsC) (quorum d leadsD) (self c)
  have voted' : d ∈ s.granters c := owner_mem_of_disjoint_quorums (List.mem_toFinset.mpr (complete d)) (inside d)
    (inside c) apart.symm (quorum d leadsD) (quorum c leadsC) (self d)
  exact contest.mutual_vote c d liveC liveD voted' voted

end

section
variable {ι V : Type*} [DecidableEq ι] [DecidableEq V] (C : Cluster ι)

/-- **Election safety.** In every run of elections and heartbeats in which each vote a candidate
counts answers its current round, and no peer grants a request while another candidate or leader
with the same `TermIndex` has its vote, no two peers lead with the same `TermIndex`. -/
theorem one_leader_per_term_index {order : List ι} (distinct : order.Nodup) (complete : ∀ i, i ∈ order)
    (info : ι → PeerInfo) (options : ι → ConsensusPeerOptions) (env : ι → Env)
    {acts : List (ClusterAction ι V)} {t : ClusterState ι V}
    (votes : Along C.step (fun s a => ElectionRun C order s a ∧ VotesOnce s a) (C.startWith info options env) acts)
    (reached : run C.step (C.startWith info options env) acts = some t) (c d : ι)
    (leadsC : (t.hosts c).state = .LEADER) (leadsD : (t.hosts d).state = .LEADER)
    (same : (t.hosts c).info.termIndex = (t.hosts d).info.termIndex) : c = d := by
  have contest : C.Contest order t := by
    refine run_invariant (C.Contest order) ?_ ?_ votes reached
    · intro u a w contest ⟨election, once⟩ taken
      exact contest.step distinct complete election once (C.step_cases taken)
    · constructor
      · exact startWith_wired info options env
      · constructor <;> simp [startWith, ClusterState.votes, PeerHost.start, PeerHost.startCheckLeaderHeartbeat]
      all_goals simp [startWith, PeerHost.start, PeerHost.startCheckLeaderHeartbeat]
  exact contest.one_leader distinct complete leadsC leadsD same

instance decidableElectionRun (order : List ι) (s : ClusterState ι V) : DecidablePred (ElectionRun C order s)
  | .elapsed _ env _ _ => inferInstanceAs (Decidable (∀ nodes ∈ env.getAllNodes, nodes = order.map C.addr))
  | .deliver k _ => inferInstanceAs (Decidable (∀ e ∈ s.network[k]?, e.pkg.isElection = true))
  | .lose _ => isTrue trivial
  | .duplicate _ | .client _ _ | .appendEntry _ _ => isFalse id

instance decidableVotesOnce [Fintype ι] (s : ClusterState ι V) : DecidablePred (VotesOnce s)
  | .deliver k _ => inferInstanceAs (Decidable (∀ e ∈ s.network[k]?,
      (_ → _ → _ = _) ∧ (_ → _ → ∀ _ : ι, _ → _ → _ → _ ∉ _)))
  | .elapsed _ _ _ _ | .lose _ | .duplicate _ | .client _ _ | .appendEntry _ _ => isTrue trivial

/-- Node 0 is elected by node 1 and sends its heartbeats. -/
def firstLeader : List (ClusterAction (Fin 2) String) :=
  let env := fun now => Env.calm now (Cluster.localhost 2).members
  [.elapsed node0 (env 5000) .checkLeaderHeartbeat false, .deliver 0 (env 5010), .deliver 0 (env 5020),
   .elapsed node0 (env 5100) .electionCheck false, .elapsed node0 (env 6100) .leaderHeartbeat false, .deliver 1 (env 6110)]

/-- The first leader of a cluster of two. -/
theorem one_leader_per_term_index_firstLeader :
    ∃ t, run (Cluster.localhost 2).step (started 2) firstLeader = some t ∧ (t.hosts 0).state = .LEADER ∧
      ∀ d, (t.hosts d).state = .LEADER → (t.hosts 0).info.termIndex = (t.hosts d).info.termIndex → 0 = d := by
  have votes : Along (Cluster.localhost 2).step (fun s a =>
      ElectionRun (Cluster.localhost 2) (List.finRange 2) s a ∧ VotesOnce s a) (started 2) firstLeader := by
    decide
  have checked : (run (Cluster.localhost 2).step (started 2) firstLeader).any (fun t => decide
      ((t.hosts 0).state = .LEADER)) = true := by decide
  obtain ⟨t, reached, leads⟩ := run_checked checked
  refine ⟨t, reached, leads, fun d leadsD same => ?_⟩
  exact one_leader_per_term_index _ (List.nodup_finRange 2) List.mem_finRange _ _ _ votes reached 0 d leads leadsD same

/-- Nodes 2 and 3 grant the request of node 0 and then that of node 1. -/
def votesTwice : List (ClusterAction (Fin 4) String) :=
  let env := fun now => Env.calm now (Cluster.localhost 4).members
  [.elapsed node0 (env 5000) .checkLeaderHeartbeat false,
   .deliver 1 (env 5010), .deliver 1 (env 5020), .deliver 1 (env 5030), .deliver 1 (env 5040),
   .elapsed node0 (env 5100) .electionCheck false,
   .elapsed node1 (env 5300) .checkLeaderHeartbeat false,
   .deliver 2 (env 5310), .deliver 2 (env 5320), .deliver 2 (env 5330), .deliver 2 (env 5340),
   .elapsed node1 (env 5400) .electionCheck false]

/-- A follower that votes twice in a round makes two leaders, in a cluster of four. -/
theorem votesTwice_two_leaders :
    Along (Cluster.localhost 4).step (ElectionRun (Cluster.localhost 4) (List.finRange 4)) (started 4) votesTwice ∧
    ∃ t, run (Cluster.localhost 4).step (started 4) votesTwice = some t ∧
      (t.hosts 0).state = .LEADER ∧ (t.hosts 1).state = .LEADER ∧
      (t.hosts 0).info.termIndex = (t.hosts 1).info.termIndex := by
  refine ⟨by decide, ?_⟩
  have checked : (run (Cluster.localhost 4).step (started 4) votesTwice).any (fun t => decide
      ((t.hosts 0).state = .LEADER ∧ (t.hosts 1).state = .LEADER ∧
        (t.hosts 0).info.termIndex = (t.hosts 1).info.termIndex)) = true := by decide
  exact run_checked checked

end

end Cluster

end FaasNet.RaftConsensus
