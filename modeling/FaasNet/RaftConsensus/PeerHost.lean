import FaasNet.Common.ConcurrentBag
import FaasNet.RaftConsensus.Messages

/-!
# `BasePeerHost`

The peer of one topic on one node: its fields, its three one-shot timers, their callbacks and the
handlers of the five consensus packages, over `InMemoryLogStore`. A callback runs at one clock
instant and is a pure function of the peer and of an `Env`, which holds everything the callback
reads from outside. An exception ends the callback with what was done so far: it is either caught
and logged by `HandleRaftConsensusPackage` and `BroadcastLeaderHeartbeat`, or leaves the callback.
-/

namespace FaasNet.RaftConsensus

open FaasNet.Common

/-- `ConsensusNodeOptions`: where the node listens and the address it registers. -/
structure ConsensusNodeOptions where
  url : String
  port : Int
  exposedUrl : String
  exposedPort : Int
  deriving DecidableEq, Repr

/-- The address a peer writes in the packages it sends. -/
def ConsensusNodeOptions.node (o : ConsensusNodeOptions) : ClusterNode := ⟨o.url, o.port⟩

/-- A node on this machine that registers the address it listens on. -/
def ConsensusNodeOptions.localhost (port : Int) : ConsensusNodeOptions :=
  ⟨"localhost", port, "localhost", port⟩

/-- `ConsensusPeerOptions`, the two durations the callbacks read, with their defaults. -/
structure ConsensusPeerOptions where
  leaderHeartbeatExpirationDurationMS : Int := 12000
  electionCheckDurationMS : Int := 1000
  deriving DecidableEq, Repr

/-- `LeaderNode`. -/
structure LeaderNode where
  url : String
  port : Int
  lastLeaderHeartbeatReceivedDateTime : Option Int
  deriving DecidableEq, Repr

namespace LeaderNode

/-- Where the leader can be reached. -/
def node (l : LeaderNode) : ClusterNode := ⟨l.url, l.port⟩

/-- The leader has been heard of within the time given. -/
def isActive (l : LeaderNode) (utcNow durationMS : Int) : Bool :=
  match l.lastLeaderHeartbeatReceivedDateTime with
  | none => false
  | some received => decide (utcNow ≤ received + durationMS)

end LeaderNode

/-- What one callback reads from outside the peer: the clock, the random interval, the answer of
the cluster store (`none` when `GetAllNodes` throws), for each `k` whether the `k`-th
`ResolveIPAddress` and `Send` of the callback return or throw, and which item of the unordered
buffer `ElementAt` gives. -/
structure Env where
  utcNow : Int
  checkLeaderHeartbeatIntervalMS : Int
  getAllNodes : Option (List ClusterNode)
  send : Nat → Bool
  elementAt : Nat → Nat

/-- Surroundings in which nothing throws. -/
def Env.calm (utcNow : Int) (nodes : List ClusterNode) : Env :=
  ⟨utcNow, 4000, some nodes, fun _ => true, fun _ => 0⟩

/-- The packages a callback handed to the UDP client, with their targets, in order. -/
abbrev Sent (V : Type*) := List (ClusterNode × ConsensusPackage V)

/-- The three timers of a peer. -/
inductive PeerTimer where
  | checkLeaderHeartbeat
  | electionCheck
  | leaderHeartbeat
  deriving DecidableEq, Repr

/-- The fields of `BasePeerHost`. The last three say which timers are enabled. `logRecords` is the
bag of `InMemoryLogStore`, in the order the records were added. -/
structure PeerHost (V : Type*) where
  nodeOptions : ConsensusNodeOptions
  options : ConsensusPeerOptions
  info : PeerInfo
  state : PeerStates
  activeLeader : Option LeaderNode
  appendEntryRequestLst : List (AppendEntryRequest V)
  expirationCheckElectionDateTime : Option Int
  nbPositiveVote : Nat
  quorum : Nat
  logRecords : List (LogRecord V)
  checkLeaderHeartbeatTimer : Bool
  electionCheckTimer : Bool
  leaderHeartbeatTimer : Bool
  deriving DecidableEq

/-- What a handler did: the peer after it, what it sent, and the package it answers with. -/
structure Handled (V : Type*) where
  host : PeerHost V
  sent : Sent V := []
  result : Option (ConsensusPackage V) := none

/-- The sends of one package to a list of nodes, the first of them being the `k`-th of the
callback, up to the first that throws. The flag says that none did. -/
def sendEach {V : Type*} (env : Env) (pkg : ConsensusPackage V) : Nat → List ClusterNode → Sent V × Bool
  | _, [] => ([], true)
  | k, node :: nodes =>
    if env.send k then ((node, pkg) :: (sendEach env pkg (k + 1) nodes).1, (sendEach env pkg (k + 1) nodes).2)
    else ([], false)

namespace PeerHost

section
variable {V : Type*} (env : Env) (h : PeerHost V)

/-! ## Timers and state changes -/

/-- The next check is put off if this is asked for. -/
def startCheckLeaderHeartbeat (computeExpirationTime : Bool) : PeerHost V :=
  { h with
    expirationCheckElectionDateTime :=
      if computeExpirationTime then some (env.utcNow + env.checkLeaderHeartbeatIntervalMS)
      else h.expirationCheckElectionDateTime
    checkLeaderHeartbeatTimer := true }

/-- The check of the heartbeat is stopped. -/
def stopCheckLeaderHeartbeat : PeerHost V := { h with checkLeaderHeartbeatTimer := false }

/-- The check of the election is started. -/
def startCheckElection : PeerHost V := { h with electionCheckTimer := true }

/-- The check of the election is stopped. -/
def stopCheckElection : PeerHost V := { h with electionCheckTimer := false }

/-- The heartbeat is started. -/
def startBroadcastLeaderHeartbeat : PeerHost V := { h with leaderHeartbeatTimer := true }

/-- The heartbeat is stopped. -/
def stopBroadcastLeaderHeartbeat : PeerHost V := { h with leaderHeartbeatTimer := false }

/-- A follower forgets the term it stood for, and watches the leader. -/
def setFollower : PeerHost V :=
  if h.state = .FOLLOWER then h
  else
    ({ h with state := .FOLLOWER, info := h.info.reset }.startCheckLeaderHeartbeat env true
      ).stopCheckElection.stopBroadcastLeaderHeartbeat

/-- A candidate watches its election only. -/
def setCandidate : PeerHost V :=
  if h.state = .CANDIDATE then h
  else { h with state := .CANDIDATE }.stopCheckLeaderHeartbeat.startCheckElection.stopBroadcastLeaderHeartbeat

/-- A leader broadcasts its heartbeat and watches nothing. -/
def setLeader : PeerHost V :=
  if h.state = .LEADER then h
  else { h with state := .LEADER }.stopCheckLeaderHeartbeat.stopCheckElection.startBroadcastLeaderHeartbeat

/-- `_activeLeader != null && _activeLeader.IsActive(...)`. -/
def leaderIsActive : Bool :=
  match h.activeLeader with
  | none => false
  | some leader => leader.isActive env.utcNow h.options.leaderHeartbeatExpirationDurationMS

/-- `DateTime.UtcNow < _expirationCheckElectionDateTime`, false when there is no date. -/
def beforeExpiration : Bool :=
  match h.expirationCheckElectionDateTime with
  | none => false
  | some date => decide (env.utcNow < date)

/-! ## Timer callbacks -/

/-- The members of the cluster store that are not this node. -/
def otherNodes (nodes : List ClusterNode) : List ClusterNode :=
  nodes.filter fun n => n.port ≠ h.nodeOptions.port ∨ n.url ≠ h.nodeOptions.url

/-- The candidate `StartElection` turns the peer into, before the vote requests go out. -/
def candidateOf (nodes : List ClusterNode) : PeerHost V :=
  let others := h.otherNodes nodes
  let h : PeerHost V := { h with
    quorum := if others.isEmpty then 0 else others.length / 2 + 1
    nbPositiveVote := 0
    expirationCheckElectionDateTime := some (env.utcNow + h.options.electionCheckDurationMS) }
  { h.setCandidate with info := h.setCandidate.info.increment }

/-- `StartElection`: unless it is too early, the peer becomes a candidate and asks the other nodes for their votes. -/
def startElection : PeerHost V × Sent V :=
  if h.beforeExpiration env then (h, [])
  else
    match env.getAllNodes with
    | none => (h, [])
    | some nodes =>
      let candidate := h.candidateOf env nodes
      let pkg := ConsensusPackageRequestBuilder.vote candidate.nodeOptions.node
        candidate.info.termId candidate.info.termIndex
      (candidate, (sendEach env pkg 0 (h.otherNodes nodes)).1)

/-- `CheckLeaderHeartbeat`: a follower that hears of no active leader starts an election. -/
def checkLeaderHeartbeat : PeerHost V × Sent V :=
  if h.state ≠ .FOLLOWER then (h, [])
  else if h.beforeExpiration env then (h.startCheckLeaderHeartbeat env false, [])
  else if h.leaderIsActive env then
    let h := if h.state = .CANDIDATE then h.setFollower env else h
    (h.startCheckLeaderHeartbeat env false, [])
  else h.startElection env

/-- `CheckElection`: a candidate with enough votes leads, and one whose time is over gives up. -/
def checkElection : PeerHost V × Sent V :=
  if h.state ≠ .CANDIDATE then (h, [])
  else
    match h.expirationCheckElectionDateTime with
    | none => (h, [])
    | some date =>
      if h.quorum ≤ h.nbPositiveVote then (h.startBroadcastLeaderHeartbeat.setLeader, [])
      else if date ≤ env.utcNow then (h.setFollower env, [])
      else (h.startCheckElection, [])

/-- `BroadcastLeaderHeartbeat`, to all nodes and the own one; the timer is not started again if a send throws. -/
def broadcastLeaderHeartbeat : PeerHost V × Sent V :=
  if h.state ≠ .LEADER then (h, [])
  else
    let pkg := ConsensusPackageRequestBuilder.leaderHeartbeat h.nodeOptions.node h.info.termId h.info.termIndex
    match env.getAllNodes with
    | none => (h, [])
    | some nodes =>
      let sends := sendEach env pkg 0 nodes
      (if sends.2 then h.startBroadcastLeaderHeartbeat else h, sends.1)

/-! ## Log -/

/-- `InMemoryLogStore.Get`; the bag is searched in the order given. -/
def getRecord (logRecords : List (LogRecord V)) (index : Int) : Option (LogRecord V) :=
  logRecords.find? fun lr => lr.index = index

/-- The public `AppendEntry(LogRecord, ...)`. -/
def appendEntry (logRecord : LogRecord V) : PeerHost V :=
  { h with logRecords := h.logRecords ++ [logRecord], info := h.info.upgrade }

/-- The private `AppendEntry(AppendEntryRequest, ...)`. -/
def appendEntryOf (request : AppendEntryRequest V) : PeerHost V :=
  if request.isProxified ∧ request.header.termIndex ≤ h.info.confirmedTermIndex then h
  else h.appendEntry ⟨h.info.confirmedTermIndex + 1, request.value⟩

end

/-! ## Packages -/

section
variable {V : Type*} [DecidableEq V] (env : Env) (h : PeerHost V)

/-- The loop of `Handle(LeaderHeartbeatRequest)` over the buffered requests, from counter `i` on.
Each round sends the item `ElementAt(i)` of the bag as it is then and removes it; a throwing send
leaves the loop before the removal. The flag says that no send threw. -/
def flushLoop (leader : ClusterNode) (i : Nat) (bag : List (AppendEntryRequest V)) :
    Sent V × List (AppendEntryRequest V) × Bool :=
  if inside : i < bag.length then
    let appendEntry := bag.get ⟨env.elementAt i % bag.length, Nat.mod_lt _ (by omega)⟩
    if env.send i then
      let rest := flushLoop leader (i + 1) (remove bag appendEntry)
      ((leader, .appendEntryRequest appendEntry) :: rest.1, rest.2)
    else ([], bag, false)
  else ([], bag, true)
termination_by bag.length
decreasing_by
  have := length_remove (List.get_mem bag ⟨env.elementAt i % bag.length, Nat.mod_lt _ (by omega)⟩)
  omega

/-- The end of `Handle(LeaderHeartbeatRequest)`, after the buffer was flushed. -/
def acknowledgeHeartbeat (sent : Sent V) : Handled V :=
  let h := if h.state = .CANDIDATE then h.setFollower env else h
  { host := h
    sent := sent
    result := some (ConsensusPackageResultBuilder.leaderHeartbeat h.nodeOptions.node
      h.info.termId h.info.confirmedTermIndex) }

/-- `Handle(LeaderHeartbeatRequest)`: the leader is remembered and gets what was buffered for one. -/
def handleLeaderHeartbeatRequest (header : ConsensusHeader) : Handled V :=
  if header.termId ≠ h.info.termId then { host := h }
  else
    let leader : LeaderNode := ⟨header.sourceUrl, header.sourcePort, some env.utcNow⟩
    let flushed := flushLoop env leader.node 0 h.appendEntryRequestLst
    let h : PeerHost V := { h with activeLeader := some leader, appendEntryRequestLst := flushed.2.1 }
    if flushed.2.2 then h.acknowledgeHeartbeat env flushed.1
    else { host := h, sent := flushed.1 }

/-- `Handle(VoteRequest)`: a vote for every candidate whose index is ahead of the own log. -/
def handleVoteRequest (header : ConsensusHeader) : Handled V :=
  let answer (h : PeerHost V) (isGranted : Bool) : Handled V :=
    { host := h
      result := some (ConsensusPackageResultBuilder.vote h.nodeOptions.node
        h.info.termId h.info.termIndex isGranted) }
  if h.info.termId ≠ header.termId then answer h false
  else if h.info.confirmedTermIndex < header.termIndex then answer (h.setFollower env) true
  else if (h.state = .LEADER ∨ h.state = .CANDIDATE) ∨ header.termIndex ≤ h.info.confirmedTermIndex then
    answer h false
  else answer h true

/-- `Handle(VoteResult)`: a positive answer counts, whatever it answers. -/
def handleVoteResult (voteResult : VoteResult) : Handled V :=
  { host := if voteResult.voteGranted then { h with nbPositiveVote := h.nbPositiveVote + 1 } else h }

/-- `Handle(AppendEntryRequest)`: a leader appends, and so does every peer what a leader sent; else the request is
passed on to the active leader, or kept until there is one. -/
def handleAppendEntryRequest (request : AppendEntryRequest V) : Handled V :=
  if h.state = .LEADER ∨ request.isProxified then { host := h.appendEntryOf request }
  else
    match h.activeLeader with
    | none => { host := { h with appendEntryRequestLst := request :: h.appendEntryRequestLst } }
    | some leader =>
      if leader.isActive env.utcNow h.options.leaderHeartbeatExpirationDurationMS then
        { host := h, sent := if env.send 0 then [(leader.node, .appendEntryRequest request)] else [] }
      else { host := { h with appendEntryRequestLst := request :: h.appendEntryRequestLst } }

/-- `Handle(LeaderHeartbeatResult)`: a leader sends the next record to a follower that is behind. -/
def handleLeaderHeartbeatResult (header : ConsensusHeader) : Handled V :=
  if h.state ≠ .LEADER then { host := h }
  else if h.info.termId = header.termId ∧ header.termIndex < h.info.confirmedTermIndex then
    match getRecord h.logRecords (header.termIndex + 1) with
    | none => { host := h }
    | some log =>
      let pkg := ConsensusPackageRequestBuilder.appendEntry h.info.termId (header.termIndex + 1) log.value true
      { host := h, sent := if env.send 0 then [(header.source, pkg)] else [] }
  else { host := h }

/-- The handler of each command. -/
def handle : ConsensusPackage V → Handled V
  | .leaderHeartbeatRequest header => h.handleLeaderHeartbeatRequest env header
  | .voteRequest header => h.handleVoteRequest env header
  | .voteResult result => h.handleVoteResult result
  | .appendEntryRequest request => h.handleAppendEntryRequest env request
  | .leaderHeartbeatResult header => h.handleLeaderHeartbeatResult env header

/-- `HandleRaftConsensusPackage`: the handler, then its answer, if any, to the source. -/
def handleRaftConsensusPackage (pkg : ConsensusPackage V) : PeerHost V × Sent V :=
  let handled := h.handle env pkg
  match handled.result with
  | none => (handled.host, handled.sent)
  | some result =>
    (handled.host,
      if env.send handled.sent.length then handled.sent ++ [(pkg.header.source, result)] else handled.sent)

end

/-! ## The peer as a state machine -/

section
variable {V : Type*}

/-- `Start` of a peer the factory just built. -/
def start (nodeOptions : ConsensusNodeOptions) (options : ConsensusPeerOptions) (info : PeerInfo)
    (env : Env) : PeerHost V :=
  startCheckLeaderHeartbeat env
    { nodeOptions, options, info
      state := .FOLLOWER
      activeLeader := none
      appendEntryRequestLst := []
      expirationCheckElectionDateTime := none
      nbPositiveVote := 0
      quorum := 0
      logRecords := []
      checkLeaderHeartbeatTimer := false
      electionCheckTimer := false
      leaderHeartbeatTimer := false }
    true

variable (h : PeerHost V)

/-- The timer is enabled. -/
def armed : PeerTimer → Bool
  | .checkLeaderHeartbeat => h.checkLeaderHeartbeatTimer
  | .electionCheck => h.electionCheckTimer
  | .leaderHeartbeat => h.leaderHeartbeatTimer

/-- A timer without `AutoReset` is disabled when it elapses. -/
def disarm : PeerTimer → PeerHost V
  | .checkLeaderHeartbeat => h.stopCheckLeaderHeartbeat
  | .electionCheck => h.stopCheckElection
  | .leaderHeartbeat => h.stopBroadcastLeaderHeartbeat

/-- The callback attached to a timer. -/
def callback (env : Env) : PeerTimer → PeerHost V × Sent V
  | .checkLeaderHeartbeat => h.checkLeaderHeartbeat env
  | .electionCheck => h.checkElection env
  | .leaderHeartbeat => h.broadcastLeaderHeartbeat env

/-- A timer elapses, or, when `queued`, a callback that was queued before its timer was stopped or
started again gets to run. -/
def elapsed (env : Env) (timer : PeerTimer) (queued : Bool) : PeerHost V × Sent V :=
  (if queued then h else h.disarm timer).callback env timer

end

end PeerHost

/-- What can happen to a running peer: a package arrives, a timer fires, or the node that just
started it hands it a first record through the public `AppendEntry`. -/
inductive PeerAction (V : Type*) where
  | package (env : Env) (pkg : ConsensusPackage V)
  | elapsed (env : Env) (timer : PeerTimer) (queued : Bool)
  | appendEntry (logRecord : LogRecord V)

/-- One callback, run to its end; a timer that is not enabled does not elapse. -/
def PeerHost.step {V : Type*} [DecidableEq V] (h : PeerHost V) : PeerAction V → Option (PeerHost V)
  | .package env pkg => some (h.handleRaftConsensusPackage env pkg).1
  | .elapsed env timer queued =>
    if queued ∨ h.armed timer then some (h.elapsed env timer queued).1 else none
  | .appendEntry logRecord => some (h.appendEntry logRecord)

end FaasNet.RaftConsensus
