import FaasNet.Lib.Runs
import FaasNet.RaftConsensus.PeerEffects

/-!
# The timer of the current state

All three timers are one-shot, so a peer goes on only if every exit of every callback leaves the
timer of its state enabled. `Watched` says that it is. Two exits forget it: a `GetAllNodes` that
throws in `StartElection`, and a `BroadcastLeaderHeartbeat` that returns because `GetAllNodes`,
`ResolveIPAddress` or `Send` threw. `watched_iff` shows there is no third.
-/

namespace FaasNet.RaftConsensus

open FaasNet.Lib

/-- The timer that keeps a peer in a state going. -/
def PeerStates.timer : PeerStates → PeerTimer
  | .FOLLOWER => .checkLeaderHeartbeat
  | .CANDIDATE => .electionCheck
  | .LEADER => .leaderHeartbeat

namespace PeerStates

@[simp] theorem check_eq_timer (s : PeerStates) : .checkLeaderHeartbeat = s.timer ↔ s = .FOLLOWER := by
  cases s <;> decide

@[simp] theorem election_eq_timer (s : PeerStates) : .electionCheck = s.timer ↔ s = .CANDIDATE := by
  cases s <;> decide

@[simp] theorem heartbeat_eq_timer (s : PeerStates) : .leaderHeartbeat = s.timer ↔ s = .LEADER := by
  cases s <;> decide

end PeerStates

namespace PeerHost

section
variable {V : Type*}

/-- The timer of the current state is enabled. -/
def Watched (h : PeerHost V) : Prop := h.armed h.state.timer = true

instance (h : PeerHost V) : Decidable h.Watched := inferInstanceAs (Decidable (_ = true))

/-- The peer has an expiration date, as it does from `Start` on. -/
def Dated (h : PeerHost V) : Prop := h.expirationCheckElectionDateTime.isSome = true

/-- The callback goes as far as `StartElection`. -/
def StartsElection (env : Env) (h : PeerHost V) : Prop :=
  h.state = .FOLLOWER ∧ h.beforeExpiration env = false ∧ h.leaderIsActive env = false

/-- What has to go well for the timer of the state to be enabled again: the cluster store must
answer a follower that starts an election, and a leader that broadcasts must get the answer of the
cluster store and reach every node in it. -/
def GoesWell (h : PeerHost V) : PeerAction V → Prop
  | .elapsed env .checkLeaderHeartbeat false => h.StartsElection env → env.getAllNodes.isSome = true
  | .elapsed env .leaderHeartbeat false =>
    h.state = .LEADER → ∃ nodes, env.getAllNodes = some nodes ∧ ∀ k, k < nodes.length → env.send k = true
  | _ => True

/-! ## State changes and packages -/

/-- The timers, the date and the state are as they were, or the peer has just become a follower. -/
structure Untouched (h h' : PeerHost V) : Prop where
  state : h'.state = h.state
  date : h'.expirationCheckElectionDateTime = h.expirationCheckElectionDateTime
  check : h'.checkLeaderHeartbeatTimer = h.checkLeaderHeartbeatTimer
  election : h'.electionCheckTimer = h.electionCheckTimer
  heartbeat : h'.leaderHeartbeatTimer = h.leaderHeartbeatTimer

/-- A follower whose timer has just been started. -/
structure FreshFollower (h : PeerHost V) : Prop where
  state : h.state = .FOLLOWER
  date : h.Dated
  check : h.checkLeaderHeartbeatTimer = true

theorem Untouched.refl (h : PeerHost V) : Untouched h h := ⟨rfl, rfl, rfl, rfl, rfl⟩

theorem Untouched.keeps {h h' : PeerHost V} (same : Untouched h h') (dated : h.Dated) (watched : h.Watched) :
    h'.Dated ∧ h'.Watched := by
  unfold Dated Watched at *
  rw [same.date, same.state]
  refine ⟨dated, ?_⟩
  cases state : h.state <;>
    simp_all [PeerStates.timer, armed, same.check, same.election, same.heartbeat]

theorem FreshFollower.keeps {h : PeerHost V} (fresh : FreshFollower h) : h.Dated ∧ h.Watched :=
  ⟨fresh.date, by simp [Watched, fresh.state, PeerStates.timer, armed, fresh.check]⟩

/-- Who becomes a follower is a fresh one. -/
theorem setFollower_fresh {env : Env} {h : PeerHost V} (state : h.state ≠ .FOLLOWER) :
    FreshFollower (h.setFollower env) := by
  simp only [setFollower, state, if_false]
  exact ⟨rfl, rfl, rfl⟩

/-- `SetFollower` leaves a follower alone and starts the timer of any other peer. -/
theorem setFollower_keeps (env : Env) {h : PeerHost V} (dated : h.Dated) (watched : h.Watched) :
    (h.setFollower env).Dated ∧ (h.setFollower env).Watched := by
  by_cases state : h.state = .FOLLOWER
  · rw [show h.setFollower env = h by simp [setFollower, state]]
    exact ⟨dated, watched⟩
  · exact (setFollower_fresh state).keeps

/-- A package keeps the peer watched. -/
theorem handle_keeps [DecidableEq V] (env : Env) {h : PeerHost V} (pkg : ConsensusPackage V)
    (dated : h.Dated) (watched : h.Watched) :
    (h.handle env pkg).host.Dated ∧ (h.handle env pkg).host.Watched := by
  cases pkg with
  | leaderHeartbeatRequest header =>
    simp only [handle, handleLeaderHeartbeatRequest]
    split
    · exact ⟨dated, watched⟩
    · have same : Untouched h { h with
          activeLeader := some ⟨header.sourceUrl, header.sourcePort, some env.utcNow⟩
          appendEntryRequestLst := (flushLoop env (LeaderNode.node ⟨header.sourceUrl, header.sourcePort,
            some env.utcNow⟩) 0 h.appendEntryRequestLst).2.1 } := ⟨rfl, rfl, rfl, rfl, rfl⟩
      have kept := same.keeps dated watched
      split
      · simp only [acknowledgeHeartbeat]
        split
        · exact setFollower_keeps env kept.1 kept.2
        · exact kept
      · exact kept
  | voteRequest header =>
    simp only [handle, handleVoteRequest]
    split_ifs
    · exact ⟨dated, watched⟩
    · exact setFollower_keeps env dated watched
    all_goals exact ⟨dated, watched⟩
  | voteResult result =>
    refine Untouched.keeps ?_ dated watched
    simp only [handle, handleVoteResult]
    split <;> exact ⟨rfl, rfl, rfl, rfl, rfl⟩
  | appendEntryRequest request =>
    refine Untouched.keeps ?_ dated watched
    simp only [handle, handleAppendEntryRequest]
    split
    · simp only [appendEntryOf]
      split <;> exact ⟨rfl, rfl, rfl, rfl, rfl⟩
    · split
      · exact ⟨rfl, rfl, rfl, rfl, rfl⟩
      · split <;> exact ⟨rfl, rfl, rfl, rfl, rfl⟩
  | leaderHeartbeatResult header =>
    refine Untouched.keeps ?_ dated watched
    simp only [handle, handleLeaderHeartbeatResult]
    split
    · exact .refl h
    · split
      · split <;> exact .refl h
      · exact .refl h

/-! ## Timer callbacks -/

/-- What the check of the heartbeat comes to. -/
theorem checkLeaderHeartbeat_outcome (env : Env) {g : PeerHost V} (dated : g.Dated) :
    ((g.checkLeaderHeartbeat env).1 = g ∧
      (g.state ≠ .FOLLOWER ∨ g.StartsElection env ∧ env.getAllNodes = none)) ∨
    (((g.checkLeaderHeartbeat env).1.Dated ∧ (g.checkLeaderHeartbeat env).1.Watched) ∧
      (g.StartsElection env → env.getAllNodes.isSome = true)) := by
  simp only [checkLeaderHeartbeat]
  split
  next state => exact .inl ⟨rfl, .inl state⟩
  next state =>
    have state : g.state = .FOLLOWER := by simpa using state
    split
    next before =>
      exact .inr ⟨FreshFollower.keeps ⟨state, dated, rfl⟩, fun starts => absurd before (by simp [starts.2.1])⟩
    next before =>
      split
      next active =>
        simp only [state]
        exact .inr ⟨FreshFollower.keeps ⟨state, dated, rfl⟩, fun starts => absurd active (by simp [starts.2.2])⟩
      next inactive =>
        have starts : g.StartsElection env := ⟨state, by simpa using before, by simpa using inactive⟩
        simp only [startElection, before]
        cases answer : env.getAllNodes with
        | none => exact .inl ⟨rfl, .inr ⟨starts, rfl⟩⟩
        | some nodes =>
          refine .inr ⟨?_, fun _ => rfl⟩
          simp [candidateOf, setCandidate, state, Dated, Watched, PeerStates.timer, armed,
            stopCheckLeaderHeartbeat, startCheckElection, stopBroadcastLeaderHeartbeat]

/-- What the check of the election comes to. -/
theorem checkElection_outcome (env : Env) {g : PeerHost V} (dated : g.Dated) :
    ((g.checkElection env).1 = g ∧ g.state ≠ .CANDIDATE) ∨
    ((g.checkElection env).1.Dated ∧ (g.checkElection env).1.Watched) := by
  simp only [checkElection]
  split
  next state => exact .inl ⟨rfl, state⟩
  next state =>
    have state : g.state = .CANDIDATE := by simpa using state
    right
    split
    next undated => simp [Dated, undated] at dated
    next date _ =>
      split
      · simp [setLeader, startBroadcastLeaderHeartbeat, state, Watched, PeerStates.timer, armed,
          stopCheckLeaderHeartbeat, stopCheckElection]
        exact dated
      · split
        · exact (setFollower_fresh (by simp [state])).keeps
        · exact ⟨dated, by simp [Watched, startCheckElection, state, PeerStates.timer, armed]⟩

/-- What the heartbeat comes to. -/
theorem broadcastLeaderHeartbeat_outcome (env : Env) {g : PeerHost V} (dated : g.Dated) :
    ((g.broadcastLeaderHeartbeat env).1 = g ∧ (g.state ≠ .LEADER ∨
      ¬ ∃ nodes, env.getAllNodes = some nodes ∧ ∀ k, k < nodes.length → env.send k = true)) ∨
    (((g.broadcastLeaderHeartbeat env).1.Dated ∧ (g.broadcastLeaderHeartbeat env).1.Watched) ∧
      ∃ nodes, env.getAllNodes = some nodes ∧ ∀ k, k < nodes.length → env.send k = true) := by
  simp only [broadcastLeaderHeartbeat]
  split
  next state => exact .inl ⟨rfl, .inl state⟩
  next state =>
    have state : g.state = .LEADER := by simpa using state
    split
    next answer => exact .inl ⟨rfl, .inr (by simp [answer])⟩
    next nodes answer =>
      split
      next all =>
        refine .inr ⟨⟨dated, ?_⟩, nodes, answer, ?_⟩
        · simp [Watched, startBroadcastLeaderHeartbeat, state, PeerStates.timer, armed]
        · simpa using (sendEach_all env _ 0 nodes).1 all
      next some =>
        refine .inl ⟨rfl, .inr ?_⟩
        rintro ⟨nodes', answer', reached⟩
        obtain rfl : nodes = nodes' := Option.some.inj (answer.symm.trans answer')
        exact some ((sendEach_all env _ 0 nodes).2 (by simpa using reached))

/-- Disabling a timer matters only to the peer whose state it belongs to. -/
theorem disarm_watched (h : PeerHost V) (timer : PeerTimer) :
    (h.disarm timer).Watched ↔ h.Watched ∧ timer ≠ h.state.timer := by
  cases timer <;> cases state : h.state <;>
    simp [Watched, disarm, armed, PeerStates.timer, state, stopCheckLeaderHeartbeat, stopCheckElection,
      stopBroadcastLeaderHeartbeat]

/-- The peer a callback starts from, when it leaves it as it is. -/
theorem unchanged_watched {h g : PeerHost V} {timer : PeerTimer} {queued : Bool}
    (start : g = if queued then h else h.disarm timer) (watched : h.Watched) :
    g.Watched ↔ queued = true ∨ timer ≠ h.state.timer := by
  cases queued with
  | true => simp [start, watched]
  | false => simp [start, disarm_watched, watched]

/-- A timer keeps the peer watched exactly if it goes well. -/
theorem elapsed_watched {env : Env} {h : PeerHost V} (timer : PeerTimer) (queued : Bool) (dated : h.Dated)
    (watched : h.Watched) :
    (h.elapsed env timer queued).1.Dated ∧
    ((h.elapsed env timer queued).1.Watched ↔ h.GoesWell (.elapsed env timer queued)) := by
  obtain ⟨g, start⟩ : ∃ g, g = if queued then h else h.disarm timer := ⟨_, rfl⟩
  have datedG : g.Dated := by subst start; cases queued <;> cases timer <;> exact dated
  have state : g.state = h.state := by subst start; cases queued <;> cases timer <;> rfl
  have unchanged := unchanged_watched start watched
  simp only [elapsed, ← start]
  cases timer with
  | checkLeaderHeartbeat =>
    have starts : g.StartsElection env ↔ h.StartsElection env := by subst start; cases queued <;> rfl
    rcases checkLeaderHeartbeat_outcome env datedG with ⟨same, exit⟩ | ⟨kept, well⟩
    · simp only [callback, same]
      refine ⟨datedG, unchanged.trans ?_⟩
      cases queued with
      | true => simp [GoesWell]
      | false =>
        rcases exit with other | ⟨election, answer⟩
        · rw [state] at other
          simp [GoesWell, StartsElection, other]
        · simp [GoesWell, starts.1 election, answer, (starts.1 election).1]
    · refine ⟨kept.1, iff_of_true kept.2 ?_⟩
      cases queued with
      | true => trivial
      | false => exact fun election => well (starts.2 election)
  | electionCheck =>
    refine And.imp id (fun w => iff_of_true w (by cases queued <;> trivial)) ?_
    rcases checkElection_outcome env datedG with ⟨same, other⟩ | kept
    · simp only [callback, same]
      refine ⟨datedG, unchanged.2 (.inr ?_)⟩
      rw [state] at other
      simpa using other
    · exact kept
  | leaderHeartbeat =>
    rcases broadcastLeaderHeartbeat_outcome env datedG with ⟨same, exit⟩ | ⟨kept, well⟩
    · simp only [callback, same]
      refine ⟨datedG, unchanged.trans ?_⟩
      cases queued with
      | true => simp [GoesWell]
      | false =>
        rw [state] at exit
        by_cases leader : h.state = .LEADER
        · have failed := exit.resolve_left (by simp [leader])
          simp only [GoesWell, leader, true_imp_iff]
          exact iff_of_false (by simp) failed
        · simp [GoesWell, leader]
    · refine ⟨kept.1, iff_of_true kept.2 ?_⟩
      cases queued with
      | true => trivial
      | false => exact fun _ => well

/-- From a watched peer, a step ends in a watched peer exactly when it goes well. -/
theorem step_watched [DecidableEq V] {h h' : PeerHost V} {a : PeerAction V} (dated : h.Dated)
    (watched : h.Watched) (taken : h.step a = some h') : h'.Dated ∧ (h'.Watched ↔ h.GoesWell a) := by
  cases a with
  | package env pkg =>
    obtain rfl := Option.some.inj taken
    have host : (h.handleRaftConsensusPackage env pkg).1 = (h.handle env pkg).host := by
      simp only [handleRaftConsensusPackage]
      split <;> rfl
    rw [host]
    exact And.imp id (fun w => iff_of_true w trivial) (handle_keeps env pkg dated watched)
  | elapsed env timer queued =>
    simp only [step, Option.ite_none_right_eq_some, Option.some.injEq] at taken
    obtain ⟨_, rfl⟩ := taken
    exact elapsed_watched timer queued dated watched
  | appendEntry logRecord =>
    obtain rfl := Option.some.inj taken
    exact And.imp id (fun w => iff_of_true w trivial)
      ((Untouched.mk rfl rfl rfl rfl rfl).keeps dated watched)

/-- What cannot happen goes well. -/
theorem disabled_goesWell [DecidableEq V] {h : PeerHost V} {a : PeerAction V} (watched : h.Watched)
    (disabled : h.step a = none) : h.GoesWell a := by
  cases a with
  | package | appendEntry => trivial
  | elapsed env timer queued =>
    simp only [step, ite_eq_right_iff, reduceCtorEq, imp_false, not_or] at disabled
    have other : timer ≠ h.state.timer := fun same => disabled.2 (same ▸ watched)
    cases timer <;> cases queued <;> simp_all [GoesWell, StartsElection]

/-- **The timer of the state.** A started peer is watched in every state of a run, whatever packages
arrive and whatever throws, exactly when each election of a follower gets the answer of the cluster
store and each broadcast of a leader gets it and reaches every node. -/
theorem watched_iff [DecidableEq V] (nodeOptions : ConsensusNodeOptions) (options : ConsensusPeerOptions)
    (info : PeerInfo) (env : Env) (acts : List (PeerAction V)) :
    Always step Watched (start nodeOptions options info env) acts ↔
      Along step GoesWell (start nodeOptions options info env) acts :=
  always_iff_along Dated
    (fun _ _ _ dated watched taken => (step_watched dated watched taken).1)
    (fun _ _ _ watched disabled => disabled_goesWell watched disabled)
    (fun _ _ _ dated watched taken => (step_watched dated watched taken).2) rfl rfl

/-- A peer of a cluster of two is elected and broadcasts once; the address of the other node no
longer resolves, so the second send of the broadcast throws. -/
def lostHeartbeat : List (PeerAction String) :=
  let nodes : List ClusterNode := [⟨"localhost", 4000⟩, ⟨"other", 4000⟩]
  [.elapsed (.calm 5000 nodes) .checkLeaderHeartbeat false,
   .package (.calm 5100 nodes) (ConsensusPackageResultBuilder.vote ⟨"other", 4000⟩ "topic" 0 true),
   .elapsed (.calm 5200 nodes) .electionCheck false,
   .elapsed { Env.calm 6200 nodes with send := fun k => k = 0 } .leaderHeartbeat false]

/-- The leader stays leader with none of its timers enabled. -/
theorem lostHeartbeat_unwatched :
    ∃ h : PeerHost String,
      run step (start (.localhost 4000) {} ⟨"topic", 0, 0⟩ (.calm 0 [])) lostHeartbeat = some h ∧
      h.state = .LEADER ∧ ¬ h.Watched ∧ ∀ timer, h.armed timer = false :=
  ⟨_, rfl, rfl, by decide, fun timer => by cases timer <;> rfl⟩

end

end PeerHost

end FaasNet.RaftConsensus
