import FaasNet.RaftConsensus.PeerHost

/-!
# What one callback of a peer can do

`TimerEffect` and `PackageEffect` list every outcome of a timer callback and of a handled package,
with the condition under which the code takes it and what it changes. Each is proved of the code
once (`elapsed_effect`, `package_effect`); the invariants of the cluster are case analyses over
them. The timers themselves and the expiration date are left to `Watchdog`.
-/

namespace FaasNet.RaftConsensus

open FaasNet.Common

/-! ## Sending to several nodes -/

section
variable {V : Type*} (env : Env) (pkg : ConsensusPackage V)

/-- What went out is one package for each of the first `m` nodes. -/
theorem sendEach_take (k : Nat) (nodes : List ClusterNode) :
    ∃ m, (sendEach env pkg k nodes).1 = (nodes.take m).map fun n => (n, pkg) := by
  induction nodes generalizing k with
  | nil => exact ⟨0, rfl⟩
  | cons node nodes ih =>
    by_cases returns : env.send k
    · obtain ⟨m, hm⟩ := ih (k + 1)
      exact ⟨m + 1, by simp [sendEach, returns, hm]⟩
    · exact ⟨0, by simp [sendEach, returns]⟩

/-- No send throws if each of them returns. -/
theorem sendEach_all (k : Nat) (nodes : List ClusterNode) :
    (sendEach env pkg k nodes).2 = true ↔ ∀ j, j < nodes.length → env.send (k + j) = true := by
  induction nodes generalizing k with
  | nil => simp [sendEach]
  | cons node nodes ih =>
    by_cases returns : env.send k
    · simp only [sendEach, returns, if_true, ih, List.length_cons]
      constructor
      · intro h j hj
        cases j with
        | zero => exact returns
        | succ j => simpa only [Nat.add_assoc, Nat.add_comm 1 j] using h j (by omega)
      · intro h j hj
        simpa only [Nat.add_assoc, Nat.add_comm 1 j] using h (j + 1) (by omega)
    · simp only [sendEach, returns]
      exact ⟨fun h => absurd h (by simp), fun h => absurd (h 0 (by simp)) returns⟩

end

namespace PeerHost

section
variable {V : Type*}

/-- The two peers differ at most in their timers and their expiration date. -/
structure SameCore (h h' : PeerHost V) : Prop where
  nodeOptions : h'.nodeOptions = h.nodeOptions
  options : h'.options = h.options
  info : h'.info = h.info
  state : h'.state = h.state
  activeLeader : h'.activeLeader = h.activeLeader
  buffer : h'.appendEntryRequestLst = h.appendEntryRequestLst
  votes : h'.nbPositiveVote = h.nbPositiveVote
  quorum : h'.quorum = h.quorum
  log : h'.logRecords = h.logRecords

theorem SameCore.rfl {h : PeerHost V} : SameCore h h := by constructor <;> rfl

/-- What two steps leave as it is stays. -/
theorem SameCore.trans {a b c : PeerHost V} (ab : SameCore a b) (bc : SameCore b c) : SameCore a c where
  nodeOptions := bc.nodeOptions.trans ab.nodeOptions
  options := bc.options.trans ab.options
  info := bc.info.trans ab.info
  state := bc.state.trans ab.state
  activeLeader := bc.activeLeader.trans ab.activeLeader
  buffer := bc.buffer.trans ab.buffer
  votes := bc.votes.trans ab.votes
  quorum := bc.quorum.trans ab.quorum
  log := bc.log.trans ab.log

/-- The peer after `SetFollower`, timers aside. -/
def asFollower (h : PeerHost V) : PeerHost V :=
  { h with state := .FOLLOWER, info := if h.state = .FOLLOWER then h.info else h.info.reset }

/-- Becoming a follower changes the state and the term, and timers. -/
theorem setFollower_core (env : Env) (h : PeerHost V) : SameCore h.asFollower (h.setFollower env) := by
  unfold setFollower asFollower
  split
  · constructor <;> simp_all
  · constructor <;> simp_all [startCheckLeaderHeartbeat, stopCheckElection, stopBroadcastLeaderHeartbeat]

/-- Becoming a leader changes the state and timers. -/
theorem setLeader_core (h : PeerHost V) : SameCore { h with state := .LEADER } h.setLeader := by
  unfold setLeader
  split
  · constructor <;> simp_all
  · constructor <;> rfl

/-- The peer after a `StartElection` that reaches its sends, timers and date aside. -/
def asCandidate (h : PeerHost V) (nodes : List ClusterNode) : PeerHost V :=
  { h with
    state := .CANDIDATE
    info := h.info.increment
    nbPositiveVote := 0
    quorum := if (h.otherNodes nodes).isEmpty then 0 else (h.otherNodes nodes).length / 2 + 1 }

/-- Becoming a candidate changes the state and timers. -/
theorem setCandidate_core (h : PeerHost V) : SameCore { h with state := .CANDIDATE } h.setCandidate := by
  unfold setCandidate
  split
  · constructor <;> simp_all
  · constructor <;> rfl

/-- A candidate has a new term and no votes. -/
theorem candidateOf_core (env : Env) (h : PeerHost V) (nodes : List ClusterNode) :
    SameCore (h.asCandidate nodes) (h.candidateOf env nodes) := by
  have same := setCandidate_core { h with
    quorum := if (h.otherNodes nodes).isEmpty then 0 else (h.otherNodes nodes).length / 2 + 1
    nbPositiveVote := 0
    expirationCheckElectionDateTime := some (env.utcNow + h.options.electionCheckDurationMS) }
  exact ⟨same.nodeOptions, same.options, congrArg PeerInfo.increment same.info, same.state,
    same.activeLeader, same.buffer, same.votes, same.quorum, same.log⟩

/-! ## Timers -/

/-- The outcomes of a timer callback. -/
inductive TimerEffect (env : Env) (h : PeerHost V) : PeerHost V → Sent V → Prop where
  | quiet {h' : PeerHost V} (same : SameCore h h') : TimerEffect env h h' []
  | candidate {h' : PeerHost V} (nodes : List ClusterNode) (m : Nat)
      (follower : h.state = .FOLLOWER) (answer : env.getAllNodes = some nodes)
      (same : SameCore (h.asCandidate nodes) h') :
      TimerEffect env h h' (((h.otherNodes nodes).take m).map fun n =>
        (n, ConsensusPackageRequestBuilder.vote h.nodeOptions.node h.info.termId (h.info.confirmedTermIndex + 1)))
  | leader {h' : PeerHost V} (candidate : h.state = .CANDIDATE) (enough : h.quorum ≤ h.nbPositiveVote)
      (same : SameCore { h with state := .LEADER } h') : TimerEffect env h h' []
  | expired {h' : PeerHost V} (candidate : h.state = .CANDIDATE) (same : SameCore h.asFollower h') :
      TimerEffect env h h' []
  | heartbeat {h' : PeerHost V} (nodes : List ClusterNode) (leader : h.state = .LEADER) (same : SameCore h h') :
      TimerEffect env h h' (nodes.map fun n =>
        (n, ConsensusPackageRequestBuilder.leaderHeartbeat h.nodeOptions.node h.info.termId h.info.termIndex))

/-- Disarming a timer changes nothing else. -/
theorem disarm_core (h : PeerHost V) (timer : PeerTimer) : SameCore h (h.disarm timer) := by
  cases timer <;> constructor <;> rfl

/-- An election that is started has one of the effects of a timer. -/
theorem startElection_effect (env : Env) (h : PeerHost V) (follower : h.state = .FOLLOWER) :
    TimerEffect env h (h.startElection env).1 (h.startElection env).2 := by
  unfold startElection
  split
  · exact .quiet .rfl
  · cases answer : env.getAllNodes with
    | none => exact .quiet .rfl
    | some nodes =>
      have same := candidateOf_core env h nodes
      dsimp only
      rw [show (h.candidateOf env nodes).nodeOptions = h.nodeOptions from same.nodeOptions,
        show (h.candidateOf env nodes).info = h.info.increment from same.info]
      obtain ⟨m, sent⟩ := sendEach_take env (ConsensusPackageRequestBuilder.vote (V := V) h.nodeOptions.node
        h.info.increment.termId h.info.increment.termIndex) 0 (h.otherNodes nodes)
      rw [sent]
      exact .candidate nodes m follower answer same

/-- **Each callback of a timer has one of these effects.** -/
theorem callback_effect (env : Env) (h : PeerHost V) (timer : PeerTimer) :
    TimerEffect env h (h.callback env timer).1 (h.callback env timer).2 := by
  cases timer with
  | checkLeaderHeartbeat =>
    simp only [callback, checkLeaderHeartbeat]
    split
    · exact .quiet .rfl
    next follower =>
      have follower : h.state = .FOLLOWER := by simpa using follower
      split
      · exact .quiet (by constructor <;> rfl)
      · split
        · simp only [follower]
          exact .quiet (by constructor <;> rfl)
        · exact startElection_effect env h follower
  | electionCheck =>
    simp only [callback, checkElection]
    split
    · exact .quiet .rfl
    next candidate =>
      have candidate : h.state = .CANDIDATE := by simpa using candidate
      split
      · exact .quiet .rfl
      · split
        next enough =>
          have same := setLeader_core h.startBroadcastLeaderHeartbeat
          exact .leader candidate enough ⟨same.nodeOptions, same.options, same.info, same.state,
            same.activeLeader, same.buffer, same.votes, same.quorum, same.log⟩
        · split
          · exact .expired candidate (setFollower_core env h)
          · exact .quiet (by constructor <;> rfl)
  | leaderHeartbeat =>
    simp only [callback, broadcastLeaderHeartbeat]
    split
    · exact .quiet .rfl
    next leader =>
      have leader : h.state = .LEADER := by simpa using leader
      split
      · exact .quiet .rfl
      next nodes _ =>
        obtain ⟨m, sent⟩ := sendEach_take env (ConsensusPackageRequestBuilder.leaderHeartbeat (V := V)
          h.nodeOptions.node h.info.termId h.info.termIndex) 0 nodes
        rw [sent]
        refine .heartbeat _ leader ?_
        split
        · constructor <;> rfl
        · exact .rfl

theorem TimerEffect.of_core {env : Env} {h g h' : PeerHost V} {sent : Sent V} (core : SameCore h g)
    (effect : TimerEffect env g h' sent) : TimerEffect env h h' sent := by
  have asCandidate_core (nodes) : SameCore (h.asCandidate nodes) (g.asCandidate nodes) := by
    constructor <;> simp [asCandidate, otherNodes, core.nodeOptions, core.options, core.info,
      core.activeLeader, core.buffer, core.log]
  cases effect with
  | quiet same => exact .quiet (core.trans same)
  | candidate nodes m follower answer same =>
    have others : g.otherNodes nodes = h.otherNodes nodes := by simp [otherNodes, core.nodeOptions]
    rw [core.nodeOptions, core.info, others]
    exact .candidate nodes m (core.state ▸ follower) answer ((asCandidate_core nodes).trans same)
  | leader candidate enough same =>
    refine .leader (core.state ▸ candidate) (core.quorum ▸ core.votes ▸ enough) (.trans ?_ same)
    constructor <;> simp [core.nodeOptions, core.options, core.info, core.activeLeader, core.buffer,
      core.votes, core.quorum, core.log]
  | expired candidate same =>
    refine .expired (core.state ▸ candidate) (.trans ?_ same)
    constructor <;> simp [asFollower, core.nodeOptions, core.options, core.info, core.state,
      core.activeLeader, core.buffer, core.votes, core.quorum, core.log]
  | heartbeat nodes leader same =>
    rw [core.nodeOptions, core.info]
    exact .heartbeat nodes (core.state ▸ leader) (core.trans same)

/-- **Every timer callback has one of the listed effects.** -/
theorem elapsed_effect (env : Env) (h : PeerHost V) (timer : PeerTimer) (queued : Bool) :
    TimerEffect env h (h.elapsed env timer queued).1 (h.elapsed env timer queued).2 := by
  unfold elapsed
  cases queued with
  | true => exact callback_effect env h timer
  | false => exact .of_core (disarm_core h timer) (callback_effect env (h.disarm timer) timer)

end

/-! ## Packages -/

section
variable {V : Type*} [DecidableEq V]

/-- The flush of the buffer sends some requests and keeps the others, none twice and none lost,
whether or not a send throws. -/
theorem flushLoop_perm (env : Env) (leader : ClusterNode) (i : Nat) (bag : List (AppendEntryRequest V)) :
    ∃ requests : List (AppendEntryRequest V),
      (flushLoop env leader i bag).1 = requests.map (fun r => (leader, .appendEntryRequest r)) ∧
      (requests ++ (flushLoop env leader i bag).2.1).Perm bag := by
  fun_induction flushLoop env leader i bag with
  | case1 i bag inside item returns rest ih =>
    obtain ⟨requests, sent, kept⟩ := ih
    refine ⟨item :: requests, ?_, ?_⟩
    · rw [List.map_cons, ← sent]
    · exact (kept.cons item).trans (remove_cons_perm (List.get_mem _ _))
  | case2 i bag inside throws => exact ⟨[], rfl, .refl _⟩
  | case3 i bag outside => exact ⟨[], rfl, .refl _⟩

/-- An answer that goes out unless its send throws. -/
def reply (returned : Bool) (target : ClusterNode) (pkg : ConsensusPackage V) : Sent V :=
  if returned then [(target, pkg)] else []

/-- The outcomes of `HandleRaftConsensusPackage`. -/
inductive PackageEffect (env : Env) (h : PeerHost V) : ConsensusPackage V → PeerHost V → Sent V → Prop where
  | ignored {pkg : ConsensusPackage V} (noRequest : pkg.clientValues = []) : PackageEffect env h pkg h []
  | followed {h' : PeerHost V} (header : ConsensusHeader) (base : PeerHost V) (leader : LeaderNode)
      (requests kept : List (AppendEntryRequest V)) (returned : Bool)
      (term : header.termId = h.info.termId)
      (stepsDown : base = h ∨ (h.state = .CANDIDATE ∧ base = h.asFollower))
      (source : leader.node = header.source)
      (flushed : (requests ++ kept).Perm h.appendEntryRequestLst)
      (same : SameCore { base with activeLeader := some leader, appendEntryRequestLst := kept } h') :
      PackageEffect env h (.leaderHeartbeatRequest header) h'
        (requests.map (fun r => (header.source, .appendEntryRequest r)) ++
          reply returned header.source (ConsensusPackageResultBuilder.leaderHeartbeat h.nodeOptions.node
            h.info.termId h.info.confirmedTermIndex))
  | granted {h' : PeerHost V} (header : ConsensusHeader) (returned : Bool)
      (term : h.info.termId = header.termId) (newer : h.info.confirmedTermIndex < header.termIndex)
      (same : SameCore h.asFollower h') :
      PackageEffect env h (.voteRequest header) h'
        (reply returned header.source (ConsensusPackageResultBuilder.vote h.nodeOptions.node
          h.info.termId h.asFollower.info.termIndex true))
  | refused (header : ConsensusHeader) (returned : Bool) :
      PackageEffect env h (.voteRequest header) h
        (reply returned header.source (ConsensusPackageResultBuilder.vote h.nodeOptions.node
          h.info.termId h.info.termIndex false))
  | counted (result : VoteResult) (positive : result.voteGranted = true) :
      PackageEffect env h (.voteResult result) { h with nbPositiveVote := h.nbPositiveVote + 1 } []
  | appended (request : AppendEntryRequest V)
      (allowed : h.state = .LEADER ∨ request.isProxified = true)
      (missing : request.isProxified = true → h.info.confirmedTermIndex < request.header.termIndex) :
      PackageEffect env h (.appendEntryRequest request)
        (h.appendEntry ⟨h.info.confirmedTermIndex + 1, request.value⟩) []
  | forwarded (request : AppendEntryRequest V) (leader : LeaderNode)
      (client : request.isProxified = false) (known : h.activeLeader = some leader) :
      PackageEffect env h (.appendEntryRequest request) h
        (reply (env.send 0) leader.node (.appendEntryRequest request))
  | buffered (request : AppendEntryRequest V) (client : request.isProxified = false) :
      PackageEffect env h (.appendEntryRequest request)
        { h with appendEntryRequestLst := request :: h.appendEntryRequestLst } []
  | replicated (header : ConsensusHeader) (record : LogRecord V) (returned : Bool)
      (leader : h.state = .LEADER) (behind : header.termIndex < h.info.confirmedTermIndex)
      (found : getRecord h.logRecords (header.termIndex + 1) = some record) :
      PackageEffect env h (.leaderHeartbeatResult header) h
        (reply returned header.source (ConsensusPackageRequestBuilder.appendEntry h.info.termId
          (header.termIndex + 1) record.value true))

/-- A package without an answer sends what its handler sends. -/
theorem package_silent {env : Env} {h : PeerHost V} {pkg : ConsensusPackage V} (handled : Handled V)
    (made : h.handle env pkg = handled) (silent : handled.result = none) :
    h.handleRaftConsensusPackage env pkg = (handled.host, handled.sent) := by
  simp only [handleRaftConsensusPackage, made, silent]

/-- The answer is sent last. -/
theorem package_answered {env : Env} {h : PeerHost V} {pkg result : ConsensusPackage V} (handled : Handled V)
    (made : h.handle env pkg = handled) (answered : handled.result = some result) :
    h.handleRaftConsensusPackage env pkg =
      (handled.host, handled.sent ++ reply (env.send handled.sent.length) pkg.header.source result) := by
  simp only [handleRaftConsensusPackage, made, answered, reply]
  split <;> simp

/-- What a package leads to, once what its handler does is known. -/
abbrev Does (env : Env) (h : PeerHost V) (pkg : ConsensusPackage V) : Prop :=
  PackageEffect env h pkg (h.handleRaftConsensusPackage env pkg).1 (h.handleRaftConsensusPackage env pkg).2

omit [DecidableEq V] in
/-- A candidate that hears of a leader becomes a follower, and nothing else changes. -/
theorem acknowledgeHeartbeat_core (env : Env) (h : PeerHost V) (sent : Sent V) :
    ∃ base, (base = h ∨ (h.state = .CANDIDATE ∧ base = h.asFollower)) ∧
      SameCore base (h.acknowledgeHeartbeat env sent).host ∧
      (h.acknowledgeHeartbeat env sent).sent = sent ∧
      (h.acknowledgeHeartbeat env sent).result = some (ConsensusPackageResultBuilder.leaderHeartbeat
        h.nodeOptions.node h.info.termId h.info.confirmedTermIndex) := by
  by_cases candidate : h.state = .CANDIDATE
  · have same := setFollower_core env h
    refine ⟨h.asFollower, .inr ⟨candidate, rfl⟩, by simpa [acknowledgeHeartbeat, candidate] using same, rfl, ?_⟩
    simp [acknowledgeHeartbeat, candidate, same.nodeOptions, same.info, asFollower]
  · exact ⟨h, .inl rfl, by simpa [acknowledgeHeartbeat, candidate] using SameCore.rfl, rfl,
      by simp [acknowledgeHeartbeat, candidate]⟩

/-- What a heartbeat of the leader does. -/
theorem leaderHeartbeatRequest_effect (env : Env) (h : PeerHost V) (header : ConsensusHeader) :
    Does env h (.leaderHeartbeatRequest header) := by
  by_cases term : header.termId = h.info.termId
  swap
  · rw [Does, package_silent { host := h } (by simp [handle, handleLeaderHeartbeatRequest, term]) rfl]
    exact .ignored rfl
  let leader : LeaderNode := ⟨header.sourceUrl, header.sourcePort, some env.utcNow⟩
  obtain ⟨requests, sent, flushed⟩ := flushLoop_perm env leader.node 0 h.appendEntryRequestLst
  let g : PeerHost V := { h with
    activeLeader := some leader
    appendEntryRequestLst := (flushLoop env leader.node 0 h.appendEntryRequestLst).2.1 }
  cases done : (flushLoop env leader.node 0 h.appendEntryRequestLst).2.2 with
  | false =>
    rw [Does, package_silent { host := g, sent := _ }
      (by simp [handle, handleLeaderHeartbeatRequest, term, leader, done, g]; rfl) rfl, sent]
    have effect : PackageEffect env h _ g _ := .followed header h leader requests _ false term (.inl rfl)
      rfl flushed .rfl
    rwa [reply, if_neg (by simp), List.append_nil] at effect
  | true =>
    obtain ⟨base, stepsDown, same, out, result⟩ :=
      acknowledgeHeartbeat_core env g (flushLoop env leader.node 0 h.appendEntryRequestLst).1
    rw [Does, package_answered (g.acknowledgeHeartbeat env _)
      (by simp [handle, handleLeaderHeartbeatRequest, term, leader, done, g]) result, out, sent]
    rcases stepsDown with rfl | ⟨candidate, rfl⟩
    · exact .followed header h leader requests _ _ term (.inl rfl) rfl flushed same
    · exact .followed header h.asFollower leader requests _ _ term (.inr ⟨candidate, rfl⟩) rfl flushed same

/-- What a request for a vote does. -/
theorem voteRequest_effect (env : Env) (h : PeerHost V) (header : ConsensusHeader) :
    Does env h (.voteRequest header) := by
  let answer (info : PeerInfo) (isGranted : Bool) : ConsensusPackage V :=
    ConsensusPackageResultBuilder.vote h.nodeOptions.node h.info.termId info.termIndex isGranted
  have refuses (made : h.handle env (.voteRequest header) = { host := h, result := some (answer h.info false) }) :
      Does env h (.voteRequest header) := by
    rw [Does, package_answered _ made rfl]
    exact .refused header _
  by_cases term : h.info.termId = header.termId
  swap
  · exact refuses (by simp [handle, handleVoteRequest, term, answer])
  by_cases newer : h.info.confirmedTermIndex < header.termIndex
  · have same := setFollower_core env h
    have info : (h.setFollower env).info = h.asFollower.info := same.info
    have termId : h.asFollower.info.termId = h.info.termId := by simp only [asFollower]; split <;> rfl
    have made : h.handle env (.voteRequest header) =
        { host := h.setFollower env, result := some (answer h.asFollower.info true) } := by
      have nodeOptions : h.asFollower.nodeOptions = h.nodeOptions := rfl
      simp [handle, handleVoteRequest, term, newer, same.nodeOptions, nodeOptions, info, termId, answer]
    rw [Does, package_answered _ made rfl]
    exact .granted header _ term newer same
  · exact refuses (by simp [handle, handleVoteRequest, term, newer, Int.not_lt.1 newer, answer])

/-- What an answer to such a request does. -/
theorem voteResult_effect (env : Env) (h : PeerHost V) (result : VoteResult) :
    Does env h (.voteResult result) := by
  rw [Does, package_silent (h.handleVoteResult result) rfl rfl]
  cases positive : result.voteGranted with
  | true =>
    simp only [handleVoteResult, positive, if_true]
    exact .counted result positive
  | false =>
    simp only [handleVoteResult, positive]
    exact .ignored rfl

/-- What an entry does. -/
theorem appendEntryRequest_effect (env : Env) (h : PeerHost V) (request : AppendEntryRequest V) :
    Does env h (.appendEntryRequest request) := by
  by_cases allowed : h.state = .LEADER ∨ request.isProxified = true
  · rw [Does, package_silent { host := h.appendEntryOf request }
      (by simp [handle, handleAppendEntryRequest, allowed]) rfl]
    simp only [appendEntryOf]
    split
    next applied => exact .ignored (by simp [ConsensusPackage.clientValues, applied.1])
    next missing =>
      refine .appended request allowed fun proxified => ?_
      by_contra le
      exact missing ⟨proxified, Int.not_lt.1 le⟩
  have client : request.isProxified = false := by simpa using fun p => allowed (.inr p)
  have buffers (made : h.handle env (.appendEntryRequest request) =
      { host := { h with appendEntryRequestLst := request :: h.appendEntryRequestLst } }) :
      Does env h (.appendEntryRequest request) := by
    rw [Does, package_silent _ made rfl]
    exact .buffered request client
  cases known : h.activeLeader with
  | none => exact buffers (by simp [handle, handleAppendEntryRequest, allowed, known])
  | some leader =>
    by_cases active : leader.isActive env.utcNow h.options.leaderHeartbeatExpirationDurationMS = true
    · let sent : Sent V := reply (env.send 0) leader.node (.appendEntryRequest request)
      rw [Does, package_silent { host := h, sent := sent }
        (by simp [handle, handleAppendEntryRequest, allowed, known, active, reply, sent]) rfl]
      exact .forwarded request leader client known
    · exact buffers (by simp [handle, handleAppendEntryRequest, allowed, known, active])

/-- What an answer to a heartbeat does. -/
theorem leaderHeartbeatResult_effect (env : Env) (h : PeerHost V) (header : ConsensusHeader) :
    Does env h (.leaderHeartbeatResult header) := by
  have ignores (made : h.handle env (.leaderHeartbeatResult header) = { host := h }) :
      Does env h (.leaderHeartbeatResult header) := by
    rw [Does, package_silent _ made rfl]
    exact .ignored rfl
  by_cases leader : h.state = .LEADER
  swap
  · exact ignores (by simp [handle, handleLeaderHeartbeatResult, leader])
  by_cases behind : h.info.termId = header.termId ∧ header.termIndex < h.info.confirmedTermIndex
  swap
  · exact ignores (by simp [handle, handleLeaderHeartbeatResult, leader, behind])
  cases found : getRecord h.logRecords (header.termIndex + 1) with
  | none => exact ignores (by simp [handle, handleLeaderHeartbeatResult, leader, behind, found])
  | some record =>
    let pkg : ConsensusPackage V :=
      ConsensusPackageRequestBuilder.appendEntry h.info.termId (header.termIndex + 1) record.value true
    rw [Does, package_silent { host := h, sent := reply (env.send 0) header.source pkg }
      (by simp [handle, handleLeaderHeartbeatResult, leader, behind, found, reply, pkg]) rfl]
    exact .replicated header record (env.send 0) leader behind.2 found

/-- **Every handled package has one of the listed effects.** -/
theorem package_effect (env : Env) (h : PeerHost V) (pkg : ConsensusPackage V) :
    PackageEffect env h pkg (h.handleRaftConsensusPackage env pkg).1 (h.handleRaftConsensusPackage env pkg).2 := by
  cases pkg with
  | leaderHeartbeatRequest header => exact leaderHeartbeatRequest_effect env h header
  | voteRequest header => exact voteRequest_effect env h header
  | voteResult result => exact voteResult_effect env h result
  | appendEntryRequest request => exact appendEntryRequest_effect env h request
  | leaderHeartbeatResult header => exact leaderHeartbeatResult_effect env h header

end

/-! ## What no callback changes -/

section
variable {V : Type*}

/-- The records that `pkg` added to the log on behalf of a client request. -/
def acceptedFrom (h : PeerHost V) (pkg : ConsensusPackage V) (h' : PeerHost V) : List (LogRecord V) :=
  if pkg.clientValues.isEmpty then [] else h'.logRecords.drop h.logRecords.length

/-- The options and the topic of a peer are those it was started with. -/
structure SameIdentity (h h' : PeerHost V) : Prop where
  nodeOptions : h'.nodeOptions = h.nodeOptions
  termId : h'.info.termId = h.info.termId

/-- A follower keeps its confirmed index. -/
@[simp] theorem asFollower_confirmed (h : PeerHost V) :
    h.asFollower.info.confirmedTermIndex = h.info.confirmedTermIndex := by
  simp only [asFollower]
  split <;> rfl

@[simp] theorem asFollower_termId (h : PeerHost V) : h.asFollower.info.termId = h.info.termId := by
  simp only [asFollower]
  split <;> rfl

/-- A timer does not change who the peer is. -/
theorem TimerEffect.identity {env : Env} {h h' : PeerHost V} {sent : Sent V}
    (effect : TimerEffect env h h' sent) : SameIdentity h h' := by
  cases effect with
  | quiet same | heartbeat _ _ same | leader _ _ same => exact ⟨same.nodeOptions, by rw [same.info]⟩
  | candidate _ _ _ _ same => exact ⟨same.nodeOptions, by rw [same.info]; rfl⟩
  | expired _ same => exact ⟨same.nodeOptions, by rw [same.info, asFollower_termId]⟩

/-- Nor does a package. -/
theorem PackageEffect.identity {env : Env} {h h' : PeerHost V} {pkg : ConsensusPackage V}
    {sent : Sent V} (effect : PackageEffect env h pkg h' sent) : SameIdentity h h' := by
  cases effect with
  | ignored | refused | forwarded | replicated | counted | buffered | appended => exact ⟨rfl, rfl⟩
  | followed header base leader requests kept returned _ stepsDown _ _ same =>
    rcases stepsDown with rfl | ⟨_, rfl⟩
    · exact ⟨same.nodeOptions, by rw [same.info]⟩
    · exact ⟨same.nodeOptions, by rw [same.info, asFollower_termId]⟩
  | granted header returned _ _ same => exact ⟨same.nodeOptions, by rw [same.info, asFollower_termId]⟩

/-- No step changes who the peer is. -/
theorem step_identity [DecidableEq V] {h h' : PeerHost V} {action : PeerAction V} (taken : h.step action = some h') :
    SameIdentity h h' := by
  cases action with
  | package env pkg =>
    obtain rfl := Option.some.inj taken
    exact (package_effect env h pkg).identity
  | elapsed env timer queued =>
    obtain ⟨_, made⟩ := Option.ite_none_right_eq_some.mp taken
    obtain rfl := Option.some.inj made
    exact (elapsed_effect env h timer queued).identity
  | appendEntry logRecord =>
    obtain rfl := Option.some.inj taken
    exact ⟨rfl, rfl⟩

/-! ## Whose address a package carries, and whom a peer follows -/

/-- What a timer sends says who sent it. -/
theorem TimerEffect.source {env : Env} {h h' : PeerHost V} {sent : Sent V} (effect : TimerEffect env h h' sent)
    {p : ClusterNode × ConsensusPackage V} (among : p ∈ sent) : p.2.header.source = h.nodeOptions.node := by
  cases effect with
  | quiet | leader | expired => simp at among
  | candidate nodes m =>
    obtain ⟨n, _, rfl⟩ := List.mem_map.1 among
    rfl
  | heartbeat nodes =>
    obtain ⟨n, _, rfl⟩ := List.mem_map.1 among
    rfl

/-- What a timer sends is about the own topic. -/
theorem TimerEffect.topic {env : Env} {h h' : PeerHost V} {sent : Sent V} (effect : TimerEffect env h h' sent)
    {p : ClusterNode × ConsensusPackage V} (among : p ∈ sent) : p.2.header.termId = h.info.termId := by
  cases effect with
  | quiet | leader | expired => simp at among
  | candidate nodes m =>
    obtain ⟨n, _, rfl⟩ := List.mem_map.1 among
    rfl
  | heartbeat nodes =>
    obtain ⟨n, _, rfl⟩ := List.mem_map.1 among
    rfl

theorem mem_reply {returned : Bool} {target : ClusterNode} {pkg : ConsensusPackage V}
    {p : ClusterNode × ConsensusPackage V} (among : p ∈ reply returned target pkg) : p = (target, pkg) := by
  cases returned <;> simp_all [reply]

/-- No timer changes who the leader is. -/
theorem TimerEffect.keeps_leader {env : Env} {h h' : PeerHost V} {sent : Sent V}
    (effect : TimerEffect env h h' sent) : h'.activeLeader = h.activeLeader := by
  cases effect with
  | quiet same | candidate _ _ _ _ same | leader _ _ same | expired _ same | heartbeat _ _ same =>
    exact same.activeLeader

/-- A leader does not step down by itself. -/
theorem TimerEffect.keeps_leading {env : Env} {h h' : PeerHost V} {sent : Sent V} (effect : TimerEffect env h h' sent)
    (leads : h.state = .LEADER) : h'.state = .LEADER := by
  cases effect with
  | quiet same | heartbeat _ _ same => rw [same.state, leads]
  | candidate _ _ follower =>
    rw [leads] at follower
    cases follower
  | leader candidate | expired candidate =>
    rw [leads] at candidate
    cases candidate

/-- Only a heartbeat of the own topic changes who the leader is. -/
theorem PackageEffect.activeLeader {env : Env} {h h' : PeerHost V} {pkg : ConsensusPackage V} {sent : Sent V}
    (effect : PackageEffect env h pkg h' sent) :
    h'.activeLeader = h.activeLeader ∨
    ∃ header leader, pkg = .leaderHeartbeatRequest header ∧ h'.activeLeader = some leader ∧
      leader.node = header.source := by
  cases effect with
  | followed header base leader requests kept returned _ _ source _ same =>
    exact .inr ⟨header, leader, rfl, same.activeLeader, source⟩
  | granted _ _ _ _ same => exact .inl same.activeLeader
  | ignored | refused | counted | appended | forwarded | buffered | replicated => exact .inl rfl

/-- No timer changes what is buffered. -/
theorem TimerEffect.keeps_buffer {env : Env} {h h' : PeerHost V} {sent : Sent V}
    (effect : TimerEffect env h h' sent) : h'.appendEntryRequestLst = h.appendEntryRequestLst := by
  cases effect with
  | quiet same | candidate _ _ _ _ same | leader _ _ same | expired _ same | heartbeat _ _ same =>
    exact same.buffer

/-- Only the request of a client enters the buffer. -/
theorem PackageEffect.mem_buffer {env : Env} {h h' : PeerHost V} {pkg : ConsensusPackage V} {sent : Sent V}
    (effect : PackageEffect env h pkg h' sent) {request : AppendEntryRequest V}
    (member : request ∈ h'.appendEntryRequestLst) :
    request ∈ h.appendEntryRequestLst ∨ (pkg = .appendEntryRequest request ∧ request.isProxified = false) := by
  cases effect with
  | ignored | refused | counted | appended | forwarded | replicated => exact .inl member
  | followed header base leader requests kept returned _ _ _ flushed same =>
    rw [same.buffer] at member
    exact .inl (flushed.mem_iff.mp (List.mem_append_right _ member))
  | granted _ _ _ _ same =>
    rw [same.buffer] at member
    exact .inl member
  | buffered received client =>
    rcases List.mem_cons.mp member with rfl | old
    · exact .inr ⟨rfl, client⟩
    · exact .inl old

/-! ## What answers what -/

/-- What a handled package makes the peer send. -/
inductive Answer (h : PeerHost V) : ConsensusPackage V → ClusterNode × ConsensusPackage V → Prop where
  | flushed (header : ConsensusHeader) (request : AppendEntryRequest V)
      (buffered : request ∈ h.appendEntryRequestLst) :
      Answer h (.leaderHeartbeatRequest header) (header.source, .appendEntryRequest request)
  | acknowledged (header : ConsensusHeader) :
      Answer h (.leaderHeartbeatRequest header) (header.source,
        ConsensusPackageResultBuilder.leaderHeartbeat h.nodeOptions.node h.info.termId h.info.confirmedTermIndex)
  | granted (header : ConsensusHeader) (term : h.info.termId = header.termId)
      (newer : h.info.confirmedTermIndex < header.termIndex) :
      Answer h (.voteRequest header) (header.source,
        ConsensusPackageResultBuilder.vote h.nodeOptions.node h.info.termId h.asFollower.info.termIndex true)
  | refused (header : ConsensusHeader) :
      Answer h (.voteRequest header) (header.source,
        ConsensusPackageResultBuilder.vote h.nodeOptions.node h.info.termId h.info.termIndex false)
  | forwarded (request : AppendEntryRequest V) (leader : LeaderNode) (client : request.isProxified = false)
      (known : h.activeLeader = some leader) :
      Answer h (.appendEntryRequest request) (leader.node, .appendEntryRequest request)
  | replicated (header : ConsensusHeader) (record : LogRecord V) (leader : h.state = .LEADER)
      (behind : header.termIndex < h.info.confirmedTermIndex)
      (found : getRecord h.logRecords (header.termIndex + 1) = some record) :
      Answer h (.leaderHeartbeatResult header) (header.source,
        ConsensusPackageRequestBuilder.appendEntry h.info.termId (header.termIndex + 1) record.value true)

theorem PackageEffect.answer {env : Env} {h h' : PeerHost V} {pkg : ConsensusPackage V} {sent : Sent V}
    (effect : PackageEffect env h pkg h' sent) {p : ClusterNode × ConsensusPackage V} (among : p ∈ sent) :
    Answer h pkg p := by
  cases effect with
  | ignored | counted | appended | buffered => simp at among
  | followed header base leader requests kept returned _ _ _ flushed =>
    rcases List.mem_append.mp among with request | answer
    · obtain ⟨r, member, rfl⟩ := List.mem_map.mp request
      exact .flushed header r (flushed.mem_iff.mp (List.mem_append_left _ member))
    · rw [mem_reply answer]
      exact .acknowledged header
  | granted header _ term newer =>
    rw [mem_reply among]
    exact .granted header term newer
  | refused header =>
    rw [mem_reply among]
    exact .refused header
  | forwarded request leader client known =>
    rw [mem_reply among]
    exact .forwarded request leader client known
  | replicated header record _ leader behind found =>
    rw [mem_reply among]
    exact .replicated header record leader behind found

end

end PeerHost

end FaasNet.RaftConsensus
