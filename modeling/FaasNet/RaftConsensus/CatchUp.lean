import Mathlib.Logic.Relation
import FaasNet.RaftConsensus.Forwarding
import FaasNet.RaftConsensus.StableLeader

/-!
# Catching up with a stable leader

A leader hands on one record for each answer to a heartbeat. So a follower that is behind catches up by one record a round:
a heartbeat that it answers, the answer, and the entry that the leader sends for it. Between these deliveries packages are
lost, duplicated, delayed and reordered, timers fire and clients send requests. As long as the timer of the leader runs, there
can always be one more round.
-/

namespace FaasNet.RaftConsensus

open FaasNet.Lib

namespace PeerHost

section
variable {V : Type*} [DecidableEq V] {env : Env} {h h' : PeerHost V}

/-- Where no send throws, a heartbeat of the peer's topic is answered with what it has confirmed. -/
theorem heartbeat_answered (returns : ∀ k, env.send k = true) {header : ConsensusHeader}
    (own : header.termId = h.info.termId) :
    (header.source, ConsensusPackageResultBuilder.leaderHeartbeat h.nodeOptions.node h.info.termId
      h.info.confirmedTermIndex) ∈ (h.handleRaftConsensusPackage env (.leaderHeartbeatRequest header)).2 := by
  let leader : LeaderNode := ⟨header.sourceUrl, header.sourcePort, some env.utcNow⟩
  have all : (flushLoop env leader.node 0 h.appendEntryRequestLst).2.2 = true :=
    (length_flushLoop returns leader.node 0 h.appendEntryRequestLst).1
  let flushed : PeerHost V := { h with
    activeLeader := some leader
    appendEntryRequestLst := (flushLoop env leader.node 0 h.appendEntryRequestLst).2.1 }
  let sent := (flushLoop env leader.node 0 h.appendEntryRequestLst).1
  obtain ⟨-, -, -, -, answer⟩ := acknowledgeHeartbeat_core env flushed sent
  have handled : h.handle env (.leaderHeartbeatRequest header) = flushed.acknowledgeHeartbeat env sent := by
    simp only [handle, handleLeaderHeartbeatRequest, own, ne_eq, not_true_eq_false, if_false, leader, all, if_true,
      flushed, sent]
  rw [package_answered _ handled answer, returns]
  exact List.mem_append_right _ (List.mem_singleton.mpr rfl)

omit [DecidableEq V] in
/-- A broadcast in which no send throws. -/
theorem broadcast_returns (returns : ∀ k, env.send k = true) (leads : h.state = .LEADER) {nodes : List ClusterNode}
    (answer : env.getAllNodes = some nodes) :
    h.elapsed env .leaderHeartbeat false = (h.stopBroadcastLeaderHeartbeat.startBroadcastLeaderHeartbeat, nodes.map fun n =>
      (n, ConsensusPackageRequestBuilder.leaderHeartbeat h.nodeOptions.node h.info.termId h.info.termIndex)) := by
  have each (pkg : ConsensusPackage V) (k : Nat) (nodes : List ClusterNode) :
      sendEach env pkg k nodes = (nodes.map fun n => (n, pkg), true) := by
    induction nodes generalizing k with
    | nil => rfl
    | cons n nodes ih => simp only [sendEach, returns, if_true, ih, List.map_cons]
  have leads' : (h.disarm .leaderHeartbeat).state = .LEADER := leads
  simp only [elapsed, Bool.false_eq_true, if_false, callback, broadcastLeaderHeartbeat, leads', ne_eq, not_true_eq_false,
    answer, each, if_true]
  rfl

omit [DecidableEq V] in
/-- No package makes a leader. -/
theorem PackageEffect.leads {pkg : ConsensusPackage V} {sent : Sent V} (effect : PackageEffect env h pkg h' sent)
    (leads : h'.state = .LEADER) : h.state = .LEADER := by
  cases effect with
  | followed header base leader requests kept returned _ stepsDown _ _ same =>
    rw [same.state] at leads
    rcases stepsDown with rfl | ⟨-, rfl⟩
    · exact leads
    · cases leads
  | granted header returned _ _ same =>
    rw [same.state] at leads
    cases leads
  | ignored | refused | counted | appended | forwarded | buffered | replicated => exact leads

/-- The answer to a heartbeat makes its receiver send one entry at most. -/
theorem heartbeatResult_sends (env : Env) (h : PeerHost V) (header : ConsensusHeader) :
    (h.handleRaftConsensusPackage env (.leaderHeartbeatResult header)).2 = [] ∨
      ∃ target request, (h.handleRaftConsensusPackage env (.leaderHeartbeatResult header)).2 =
        [(target, .appendEntryRequest request)] := by
  have effect := package_effect env h (.leaderHeartbeatResult header)
  generalize (h.handleRaftConsensusPackage env (.leaderHeartbeatResult header)).1 = h' at effect
  generalize (h.handleRaftConsensusPackage env (.leaderHeartbeatResult header)).2 = sent at effect
  cases effect with
  | ignored => exact .inl rfl
  | replicated header record returned =>
    cases returned with
    | false => exact .inl rfl
    | true => exact .inr ⟨_, _, rfl⟩

/-- A leader goes on broadcasting, unless it is asked for its vote. -/
theorem keeps_broadcasting (leads : h.state = .LEADER) (timer : h.leaderHeartbeatTimer = true) {pkg : ConsensusPackage V}
    (noVote : ∀ header, pkg ≠ .voteRequest header) :
    (h.handleRaftConsensusPackage env pkg).1.state = .LEADER ∧
      (h.handleRaftConsensusPackage env pkg).1.leaderHeartbeatTimer = true := by
  have host : (h.handleRaftConsensusPackage env pkg).1 = (h.handle env pkg).host := by
    unfold handleRaftConsensusPackage
    dsimp only
    split <;> rfl
  rw [host]
  cases pkg with
  | leaderHeartbeatRequest header =>
    simp only [handle, handleLeaderHeartbeatRequest]
    split
    · exact ⟨leads, timer⟩
    · split
      · simp only [acknowledgeHeartbeat, leads, reduceCtorEq, if_false]
        exact ⟨trivial, timer⟩
      · exact ⟨leads, timer⟩
  | voteRequest header => exact absurd rfl (noVote header)
  | voteResult result =>
    simp only [handle, handleVoteResult]
    split
    · exact ⟨leads, timer⟩
    · exact ⟨leads, timer⟩
  | appendEntryRequest request =>
    simp only [handle, handleAppendEntryRequest, leads, true_or, if_true, appendEntryOf]
    split
    · exact ⟨leads, timer⟩
    · exact ⟨leads, timer⟩
  | leaderHeartbeatResult header =>
    have same : (h.handleLeaderHeartbeatResult env header).host = h := by
      unfold handleLeaderHeartbeatResult
      repeat' split
      all_goals rfl
    rw [handle, same]
    exact ⟨leads, timer⟩

end

end PeerHost

namespace Cluster

section
variable {ι V : Type*} [DecidableEq ι] [DecidableEq V] (C : Cluster ι) (leader : ι)

/-- A run under `leader` leads from one state to the other. -/
def Led : ClusterState ι V → ClusterState ι V → Prop :=
  Relation.ReflTransGen fun s t => ∃ a, LedBy leader s a ∧ C.step s a = some t

/-- What is posted when `e` is delivered. -/
def postedFor (s : ClusterState ι V) (e : Envelope ι V) (env : Env) : List (Envelope ι V) :=
  let result := (s.hosts e.dst).handleRaftConsensusPackage env e.pkg
  C.post e.dst e.round result.1.info.confirmedTermIndex result.2

/-- `e` is delivered, under `leader`. -/
def Delivers (e : Envelope ι V) (env : Env) (s t : ClusterState ι V) : Prop :=
  ∃ k, s.network[k]? = some e ∧ LedBy leader s (.deliver k env) ∧ C.step s (.deliver k env) = some t

/-- A round: the follower answers a heartbeat, the leader gets the answer, and an entry that it then sends is delivered. -/
inductive Round (follower : ι) (s t : ClusterState ι V) : Prop where
  | mk {asked heard told answered : ClusterState ι V} {heartbeat result : Envelope ι V} {header : ConsensusHeader}
      {env env' : Env} (before : C.Led leader s asked)
      (asks : C.Delivers leader heartbeat env asked heard) (target : heartbeat.dst = follower)
      (answer : result ∈ C.postedFor asked heartbeat env) (content : result.pkg = .leaderHeartbeatResult header)
      (between : C.Led leader heard told)
      (tells : C.Delivers leader result env' told answered) (back : result.dst = leader) (sends : env'.send 0)
      (after : C.Led leader answered t)
      (copies : ∀ entry ∈ C.postedFor told result env', ∃ sent copied env'', C.Led leader answered sent ∧
        C.Delivers leader entry env'' sent copied ∧ C.Led leader copied t)

/-- So many rounds, one after the other. -/
def Rounds (follower : ι) : Nat → ClusterState ι V → ClusterState ι V → Prop
  | 0, s, t => C.Led leader s t
  | n + 1, s, t => ∃ u, C.Round leader follower s u ∧ Rounds follower n u t

/-- The peers are those of one topic, each with its own address, and with the records numbered. -/
structure TopicPeers (termId : String) (s : ClusterState ι V) : Prop where
  routed : C.Routed s
  topic : ∀ i, (s.hosts i).info.termId = termId

end

section
variable {ι V : Type*} [DecidableEq ι] [DecidableEq V] {C : Cluster ι} {leader follower : ι} {termId : String}
variable {s t : ClusterState ι V}

/-- A stable run is led. -/
theorem led_of_run {acts : List (ClusterAction ι V)} (stable : Along C.step (LedBy leader) s acts)
    (reached : run C.step s acts = some t) : C.Led leader s t := by
  induction acts generalizing s with
  | nil =>
    obtain rfl : s = t := Option.some.inj reached
    exact .refl
  | cons a acts ih =>
    obtain ⟨u, taken, rest⟩ := run_cons reached
    exact .head ⟨a, stable.1, taken⟩ (ih (stable.2 u taken) rest)

theorem Led.trans {u : ClusterState ι V} (first : C.Led leader s t) (second : C.Led leader t u) : C.Led leader s u :=
  Relation.ReflTransGen.trans first second

theorem Delivers.led {e : Envelope ι V} {env : Env} (delivers : C.Delivers leader e env s t) : C.Led leader s t := by
  obtain ⟨k, -, led, taken⟩ := delivers
  exact .single ⟨_, led, taken⟩

/-! ## What a run keeps -/

/-- In a led run every log grows. -/
theorem Led.grows (led : C.Led leader s t) (i : ι) : PeerHost.Grows (s.hosts i) (t.hosts i) := by
  induction led with
  | refl => exact .of_same rfl rfl
  | tail _ next ih =>
    obtain ⟨a, -, taken⟩ := next
    have here := (C.step_cases taken).grows i
    exact ⟨ih.log.trans here.log, le_trans ih.confirmed here.confirmed⟩

theorem TopicPeers.step {a : ClusterAction ι V} (one : C.TopicPeers termId s) (peers : PeersOnly a)
    (taken : C.step s a = some t) : C.TopicPeers termId t where
  routed := one.routed.step peers (C.step_cases taken)
  topic := fun i => ((C.step_cases taken).identity i).termId.trans (one.topic i)

theorem TopicPeers.led (one : C.TopicPeers termId s) (led : C.Led leader s t) : C.TopicPeers termId t := by
  induction led with
  | refl => exact one
  | tail _ next ih =>
    obtain ⟨a, led, taken⟩ := next
    exact ih.step led.1 taken

/-- The leader still holds everything. -/
theorem Led.holdsAll (led : C.Led leader s t) (one : C.TopicPeers termId s) (holds : HoldsAll leader s) :
    HoldsAll leader t := by
  induction led with
  | refl => exact holds
  | tail reached next ih =>
    obtain ⟨a, led, taken⟩ := next
    exact (one.led reached).routed.holds_step ih led (C.step_cases taken)

/-! ## A round -/

omit [DecidableEq ι] in
/-- The answer to a heartbeat says how much its sender has confirmed. -/
theorem TopicPeers.header_of_answer (one : C.TopicPeers termId s) {e result : Envelope ι V} {env : Env}
    (answer : result ∈ C.postedFor s e env) {header : ConsensusHeader} (content : result.pkg = .leaderHeartbeatResult header) :
    header.termId = termId ∧ header.termIndex = (s.hosts e.dst).info.confirmedTermIndex ∧
      C.locate header.source = some e.dst := by
  obtain ⟨p, among, -, made⟩ := C.mem_post.mp answer
  rw [made] at content
  have effect := PeerHost.package_effect env (s.hosts e.dst) e.pkg
  generalize e.pkg = pkg at effect among
  cases effect.answer among with
  | acknowledged =>
    obtain rfl := ConsensusPackage.leaderHeartbeatResult.inj content
    refine ⟨one.topic e.dst, rfl, ?_⟩
    have source : (s.hosts e.dst).nodeOptions.node = C.addr e.dst := one.routed.wired.node e.dst
    exact (congrArg C.locate source).trans (C.locate_addr e.dst)
  | flushed | granted | refused | forwarded | replicated => cases content

omit [DecidableEq ι] in
/-- A leader that is ahead of the answer sends the next record. -/
theorem TopicPeers.entry_of_result (one : C.TopicPeers termId s) {result : Envelope ι V}
    (leads : (s.hosts result.dst).state = .LEADER) {header : ConsensusHeader}
    (content : result.pkg = .leaderHeartbeatResult header) (topic : header.termId = termId) {target : ι}
    (located : C.locate header.source = some target) (lower : 0 ≤ header.termIndex)
    (behind : header.termIndex < (s.hosts result.dst).info.confirmedTermIndex) {env : Env} (sends : env.send 0) :
    ∃ entry ∈ C.postedFor s result env, entry.dst = target ∧ ∃ request, entry.pkg = .appendEntryRequest request ∧
      request.isProxified = true ∧ request.header.termIndex = header.termIndex + 1 := by
  have log := one.routed.log result.dst
  obtain ⟨record, found⟩ : ∃ record, PeerHost.getRecord (s.hosts result.dst).logRecords (header.termIndex + 1) = some record := by
    have confirmed := log.confirmed
    have inside : (header.termIndex + 1 - 1).toNat < (s.hosts result.dst).logRecords.length := by omega
    rw [log.getRecord_eq (List.Perm.refl _), if_pos (by omega), List.getElem?_eq_getElem inside]
    exact ⟨_, rfl⟩
  have same : (s.hosts result.dst).info.termId = header.termId := (one.topic _).trans topic.symm
  let pkg : ConsensusPackage V := ConsensusPackageRequestBuilder.appendEntry (s.hosts result.dst).info.termId
    (header.termIndex + 1) record.value true
  have handled : (s.hosts result.dst).handle env result.pkg =
      { host := s.hosts result.dst, sent := [(header.source, pkg)] } := by
    simp [content, PeerHost.handle, PeerHost.handleLeaderHeartbeatResult, leads, same, behind, found, sends, pkg]
  refine ⟨⟨target, pkg, some result.dst, result.round, (s.hosts result.dst).info.confirmedTermIndex⟩, ?_, rfl, _, rfl, rfl, rfl⟩
  rw [postedFor, PeerHost.package_silent _ handled rfl]
  exact C.mem_post.mpr ⟨_, List.mem_singleton.mpr rfl, located, rfl⟩

/-- A delivered entry that is at most one ahead has been confirmed afterwards. -/
theorem Delivers.confirms {entry : Envelope ι V} {env : Env} (delivers : C.Delivers leader entry env s t)
    {request : AppendEntryRequest V} (content : entry.pkg = .appendEntryRequest request)
    (proxified : request.isProxified = true)
    (near : request.header.termIndex ≤ (s.hosts entry.dst).info.confirmedTermIndex + 1) :
    request.header.termIndex ≤ (t.hosts entry.dst).info.confirmedTermIndex := by
  obtain ⟨k, position, -, taken⟩ := delivers
  simp only [step, position, Option.map_some, Option.some.injEq] at taken
  have once := PeerHost.applied_once env proxified near
  rw [← content] at once
  rw [← taken]
  simpa [receive, finish] using once

/-- **A round copies a record**, if the follower is behind. -/
theorem Round.copies (round : C.Round leader follower s t) (one : C.TopicPeers termId s) :
    min (s.hosts leader).info.confirmedTermIndex ((s.hosts follower).info.confirmedTermIndex + 1) ≤
      (t.hosts follower).info.confirmedTermIndex := by
  obtain ⟨before, asks, rfl, answer, content, between, tells, rfl, sends, after, copies⟩ := round
  rename_i asked heard told answered heartbeat result header env env'
  have atAsked := one.led before
  have atTold := (atAsked.led asks.led).led between
  obtain ⟨topic, index, located⟩ := atAsked.header_of_answer answer content
  have leads : (told.hosts result.dst).state = .LEADER := by
    obtain ⟨k, -, led, -⟩ := tells
    exact led.2.1
  -- both have grown in between
  have early := (before.grows heartbeat.dst).confirmed
  have ahead := ((before.trans (asks.led.trans between)).grows result.dst).confirmed
  have lower : 0 ≤ header.termIndex := by
    have confirmed := (atAsked.routed.log heartbeat.dst).confirmed
    omega
  by_cases behind : header.termIndex < (told.hosts result.dst).info.confirmedTermIndex
  · obtain ⟨entry, sent, target, request, isEntry, proxified, next⟩ :=
      atTold.entry_of_result leads content topic located lower behind sends
    obtain ⟨atSent, copied, env'', waits, delivers, rest⟩ := copies entry sent
    have later := ((asks.led.trans between).trans (tells.led.trans waits)).grows heartbeat.dst
    have near : request.header.termIndex ≤ (atSent.hosts entry.dst).info.confirmedTermIndex + 1 := by
      rw [target, next, index]
      have := later.confirmed
      omega
    have confirmed := delivers.confirms isEntry proxified near
    have last := (rest.grows heartbeat.dst).confirmed
    rw [target, next, index] at confirmed
    omega
  · have later := ((asks.led.trans between).trans (tells.led.trans after)).grows heartbeat.dst
    have := later.confirmed
    omega

theorem Round.led (round : C.Round leader follower s t) : C.Led leader s t := by
  obtain ⟨before, asks, -, -, -, between, tells, -, -, after, -⟩ := round
  exact before.trans (asks.led.trans (between.trans (tells.led.trans after)))

theorem Rounds.led {n : Nat} (rounds : C.Rounds leader follower n s t) : C.Led leader s t := by
  induction n generalizing s with
  | zero => exact rounds
  | succ n ih =>
    obtain ⟨u, round, rest⟩ := rounds
    exact round.led.trans (ih rest)

/-- Each round copies a record, as long as there is one. -/
theorem Rounds.copies {n : Nat} (rounds : C.Rounds leader follower n s t) (one : C.TopicPeers termId s) :
    min (s.hosts leader).info.confirmedTermIndex ((s.hosts follower).info.confirmedTermIndex + n) ≤
      (t.hosts follower).info.confirmedTermIndex := by
  induction n generalizing s with
  | zero =>
    have grown := (rounds.led.grows follower).confirmed
    omega
  | succ n ih =>
    obtain ⟨u, round, rest⟩ := rounds
    have first := round.copies one
    have others := ih rest (one.led round.led)
    have grown := (round.led.grows leader).confirmed
    push_cast
    omega

/-! ## There can be a round -/

/-- Who leads, with the timer that broadcasts the heartbeats. -/
structure Broadcasting (leader : ι) (s : ClusterState ι V) : Prop where
  leads : (s.hosts leader).state = .LEADER
  only : ∀ j, (s.hosts j).state = .LEADER → j = leader
  timer : (s.hosts leader).leaderHeartbeatTimer = true

omit [DecidableEq ι] [DecidableEq V] in
/-- A leader that broadcasts leads each step. -/
theorem Broadcasting.ledBy (broad : Broadcasting leader s) {a : ClusterAction ι V} (peers : PeersOnly a) : LedBy leader s a :=
  ⟨peers, broad.leads, broad.only⟩

/-- What is in flight can be delivered, and then what is sent for it is in flight. -/
theorem Broadcasting.delivers (broad : Broadcasting leader s) {e : Envelope ι V} (inFlight : e ∈ s.network)
    (noVote : ∀ header, e.pkg ≠ .voteRequest header) (env : Env) :
    ∃ t, C.Delivers leader e env s t ∧ Broadcasting leader t ∧ ∀ a ∈ C.postedFor s e env, a ∈ t.network := by
  obtain ⟨k, position⟩ := List.mem_iff_getElem?.mp inFlight
  have taken : C.step s (.deliver k env) = some (C.receive { s with network := s.network.eraseIdx k } e env) := by
    simp only [step, position, Option.map_some]
  refine ⟨_, ⟨k, position, broad.ledBy trivial, taken⟩, ?_, fun a sent => List.mem_append_right _ sent⟩
  have host (j : ι) : (C.receive { s with network := s.network.eraseIdx k } e env).hosts j =
      if j = e.dst then ((s.hosts e.dst).handleRaftConsensusPackage env e.pkg).1 else s.hosts j := by
    simp only [receive, finish, Function.update_apply]
  have own : leader = e.dst → ((s.hosts e.dst).handleRaftConsensusPackage env e.pkg).1.state = .LEADER ∧
      ((s.hosts e.dst).handleRaftConsensusPackage env e.pkg).1.leaderHeartbeatTimer = true := by
    rintro rfl
    exact PeerHost.keeps_broadcasting broad.leads broad.timer noVote
  refine ⟨?_, fun j leads => ?_, ?_⟩
  · rw [host]
    split_ifs with same
    · exact (own same).1
    · exact broad.leads
  · rw [host] at leads
    split_ifs at leads with same
    · rw [same]
      exact broad.only _ ((PeerHost.package_effect env (s.hosts e.dst) e.pkg).leads leads)
    · exact broad.only j leads
  · rw [host]
    split_ifs with same
    · exact (own same).2
    · exact broad.timer

/-- The leader broadcasts to the follower. -/
theorem Broadcasting.broadcasts (broad : Broadcasting leader s) (one : C.TopicPeers termId s) (follower : ι) :
    ∃ t header heartbeat, C.Led leader s t ∧ Broadcasting leader t ∧ heartbeat ∈ t.network ∧ heartbeat.dst = follower ∧
      heartbeat.pkg = .leaderHeartbeatRequest header ∧ header.termId = termId ∧ header.source = C.addr leader := by
  let env : Env := .calm 0 [C.addr follower]
  let result := (s.hosts leader).elapsed env .leaderHeartbeat false
  let t := C.finish s leader result (nextRound (s.round leader) (s.hosts leader) result.1)
  have taken : C.step s (.elapsed leader env .leaderHeartbeat false) = some t := by
    have armed : (s.hosts leader).armed .leaderHeartbeat = true := broad.timer
    simp only [step, armed, or_true, if_true, t, result]
  have broadcast : result = _ := PeerHost.broadcast_returns (fun _ => rfl) broad.leads rfl
  have host (j : ι) : t.hosts j = if j = leader then result.1 else s.hosts j := by
    simp only [t, finish, Function.update_apply]
  let heartbeat : Envelope ι V := ⟨follower, ConsensusPackageRequestBuilder.leaderHeartbeat (s.hosts leader).nodeOptions.node
    (s.hosts leader).info.termId (s.hosts leader).info.termIndex, some leader,
    nextRound (s.round leader) (s.hosts leader) result.1, result.1.info.confirmedTermIndex⟩
  refine ⟨t, _, heartbeat, .single ⟨.elapsed leader env .leaderHeartbeat false, broad.ledBy trivial, taken⟩,
    ⟨?_, fun j leads => ?_, ?_⟩, ?_, rfl, rfl, one.topic leader, ?_⟩
  · rw [host, if_pos rfl, broadcast]
    exact broad.leads
  · rw [host] at leads
    split_ifs at leads with same
    · exact same
    · exact broad.only j leads
  · rw [host, if_pos rfl, broadcast]
    rfl
  · refine List.mem_append_right _ (C.mem_post.mpr ⟨(C.addr follower, _), ?_, C.locate_addr follower, rfl⟩)
    rw [broadcast]
    exact List.mem_singleton.mpr rfl
  · exact one.routed.wired.node leader

omit [DecidableEq ι] in
/-- An answer to a heartbeat has one record sent at most. -/
theorem postedFor_heartbeatResult (s : ClusterState ι V) {e : Envelope ι V} {header : ConsensusHeader}
    (content : e.pkg = .leaderHeartbeatResult header) (env : Env) :
    C.postedFor s e env = [] ∨ ∃ entry request, C.postedFor s e env = [entry] ∧ entry.pkg = .appendEntryRequest request := by
  rw [postedFor, content]
  rcases PeerHost.heartbeatResult_sends env (s.hosts e.dst) header with none | ⟨target, request, one⟩
  · exact .inl (by rw [none]; rfl)
  · rw [one]
    cases located : C.locate target with
    | none => exact .inl (by simp [post, located])
    | some dst =>
      let entry : Envelope ι V := ⟨dst, .appendEntryRequest request, some e.dst, e.round,
        ((s.hosts e.dst).handleRaftConsensusPackage env (.leaderHeartbeatResult header)).1.info.confirmedTermIndex⟩
      exact .inr ⟨entry, request, by simp [post, located, entry], rfl⟩

/-- **There can be a round** as long as the timer of the leader runs. -/
theorem Broadcasting.round (broad : Broadcasting leader s) (one : C.TopicPeers termId s) (follower : ι) :
    ∃ t, C.Round leader follower s t ∧ Broadcasting leader t := by
  let env : Env := .calm 0 []
  obtain ⟨asked, header, heartbeat, before, broad, inFlight, target, request, topic, source⟩ := broad.broadcasts one follower
  have atAsked := one.led before
  obtain ⟨heard, asks, broad, sent⟩ := broad.delivers inFlight (by simp [request]) env
  let host := asked.hosts heartbeat.dst
  let result : ConsensusPackage V :=
    ConsensusPackageResultBuilder.leaderHeartbeat host.nodeOptions.node host.info.termId host.info.confirmedTermIndex
  have answered : (header.source, result) ∈ (host.handleRaftConsensusPackage env heartbeat.pkg).2 := by
    rw [request]
    exact PeerHost.heartbeat_answered (fun _ => rfl) (topic.trans (atAsked.topic _).symm)
  let answer : Envelope ι V := ⟨leader, result, some heartbeat.dst, heartbeat.round,
    (host.handleRaftConsensusPackage env heartbeat.pkg).1.info.confirmedTermIndex⟩
  have posted : answer ∈ C.postedFor asked heartbeat env :=
    C.mem_post.mpr ⟨_, answered, (congrArg C.locate source).trans (C.locate_addr leader), rfl⟩
  obtain ⟨told, tells, broad, sent'⟩ := broad.delivers (sent _ posted) (fun _ same => by cases same) env
  have round {t : ClusterState ι V} (after : C.Led leader told t) (copies : ∀ entry ∈ C.postedFor heard answer env,
      ∃ sent copied env'', C.Led leader told sent ∧ C.Delivers leader entry env'' sent copied ∧ C.Led leader copied t) :
      C.Round leader follower s t :=
    .mk before asks target posted rfl .refl tells rfl rfl after copies
  -- the leader sends one entry, or none
  rcases postedFor_heartbeatResult (C := C) heard (e := answer) rfl env with none | ⟨entry, request', one, content⟩
  · refine ⟨told, round .refl fun entry member => ?_, broad⟩
    rw [none] at member
    cases member
  · have inFlight := sent' entry (one ▸ List.mem_singleton.mpr rfl)
    obtain ⟨copied, delivers, broad, -⟩ := broad.delivers inFlight (fun _ same => by cases content.symm.trans same) env
    refine ⟨copied, round delivers.led fun entry' member => ?_, broad⟩
    rw [one, List.mem_singleton] at member
    exact ⟨told, copied, env, .refl, member ▸ delivers, .refl⟩

/-- A leader that broadcasts can go on for any number of rounds. -/
theorem Broadcasting.rounds (broad : Broadcasting leader s) (one : C.TopicPeers termId s) (follower : ι) (n : Nat) :
    ∃ t, C.Rounds leader follower n s t ∧ Broadcasting leader t := by
  induction n generalizing s with
  | zero => exact ⟨s, .refl, broad⟩
  | succ n ih =>
    obtain ⟨u, round, broad⟩ := broad.round one follower
    obtain ⟨t, rest, broad⟩ := ih broad (one.led round.led)
    exact ⟨t, ⟨u, round, rest⟩, broad⟩

/-! ## Catching up -/

/-- After so many rounds, the log of the follower begins with as many more records of the log that the leader had, and is a
prefix of the one that it has. -/
theorem Rounds.log_begins {n : Nat} (rounds : C.Rounds leader follower n s t) (one : C.TopicPeers termId s)
    (holds : HoldsAll leader s) :
    (s.hosts leader).logRecords.take ((s.hosts follower).logRecords.length + n) <+: (t.hosts follower).logRecords ∧
      (t.hosts follower).logRecords <+: (t.hosts leader).logRecords := by
  have after := (one.led rounds.led).routed
  have begins : (t.hosts follower).logRecords <+: (t.hosts leader).logRecords :=
    (after.log follower).log_begins (after.log leader) (rounds.led.holdsAll one holds follower)
  refine ⟨?_, begins⟩
  have part := (List.take_prefix ((s.hosts follower).logRecords.length + n) (s.hosts leader).logRecords).trans
    (rounds.led.grows leader).log
  refine List.prefix_of_prefix_length_le part begins ?_
  have copied := rounds.copies one
  rw [(one.routed.log leader).confirmed, (one.routed.log follower).confirmed, (after.log follower).confirmed] at copied
  rw [List.length_take]
  omega

end

section
variable {ι V : Type*} [DecidableEq ι] [DecidableEq V] (C : Cluster ι)

/-- **A follower catches up with a stable leader.** Let the peers of a topic run until some moment at which all logs are
still empty, and from then on under one leader. Each round gives the follower one more record, until it has all that the
leader had when the rounds began; and if the leader broadcasts, any number of rounds can follow. -/
theorem follower_catches_up (termId : String) (options : ι → ConsensusPeerOptions) (env : ι → Env) (leader follower : ι)
    {before acts : List (ClusterAction ι V)} {elected s : ClusterState ι V}
    (peers : Along C.step (fun _ a => PeersOnly a) (C.start termId options env) before)
    (started : run C.step (C.start termId options env) before = some elected)
    (empty : ∀ i, (elected.hosts i).logRecords = [])
    (stable : Along C.step (LedBy leader) elected acts) (reached : run C.step elected acts = some s) :
    (∀ n t, C.Rounds leader follower n s t →
      (s.hosts leader).logRecords.take ((s.hosts follower).logRecords.length + n) <+: (t.hosts follower).logRecords ∧
        (t.hosts follower).logRecords <+: (t.hosts leader).logRecords) ∧
    (Broadcasting leader s → ∀ n, ∃ t, C.Rounds leader follower n s t ∧ Broadcasting leader t) := by
  have began : C.TopicPeers termId (C.start (V := V) termId options env) := ⟨start_routed termId options env, fun _ => rfl⟩
  have atElected : C.TopicPeers termId elected :=
    run_invariant (C.TopicPeers termId) (fun _ _ _ one peers taken => one.step peers taken) began peers started
  have led := led_of_run stable reached
  have one := atElected.led led
  have holds : HoldsAll leader s := by
    refine led.holdsAll atElected fun i r member => ?_
    simp [empty i] at member
  exact ⟨fun n t rounds => rounds.log_begins one holds, fun broad n => broad.rounds one follower n⟩

/-- Node 0 leads and appends `x`. -/
def appended : List (ClusterAction (Fin 2) String) :=
  let env := fun now => Env.calm now (Cluster.localhost 2).members
  [.client node0 "x", .deliver 0 (env 5200)]

/-- A follower with an empty log catches up with its leader. -/
theorem follower_catches_up_appended :
    ∃ u s t, run (Cluster.localhost 2).step (started 2) elected = some u ∧
      run (Cluster.localhost 2).step u appended = some s ∧ (s.hosts 1).logRecords = [] ∧
      (Cluster.localhost 2).Rounds 0 1 1 s t ∧ [⟨1, "x"⟩] <+: (t.hosts 1).logRecords := by
  have peers : Along (Cluster.localhost 2).step (fun _ a => PeersOnly a) (started 2) elected := by decide
  have checked : (run (Cluster.localhost 2).step (started 2) elected).any (fun s => decide
      ((∀ i, (s.hosts i).logRecords = []) ∧ Along (Cluster.localhost 2).step (LedBy 0) s appended ∧
        (run (Cluster.localhost 2).step s appended).any (fun t =>
          decide (((t.hosts 0).state = .LEADER ∧ (∀ j, (t.hosts j).state = .LEADER → j = 0) ∧
            (t.hosts 0).leaderHeartbeatTimer = true) ∧ (t.hosts 0).logRecords = [⟨1, "x"⟩] ∧
              (t.hosts 1).logRecords = [])))) = true := by
    decide
  obtain ⟨u, begun, empty, stable, ends⟩ := run_checked checked
  obtain ⟨s, reached, ⟨leads, only, timer⟩, log, none⟩ := run_checked ends
  obtain ⟨begins, ever⟩ := follower_catches_up _ _ _ _ 0 1 peers begun empty stable reached
  obtain ⟨t, rounds, -⟩ := ever ⟨leads, only, timer⟩ 1
  refine ⟨u, s, t, begun, reached, none, rounds, ?_⟩
  have first := (begins 1 t rounds).1
  rw [log, none] at first
  exact first

end

end Cluster

end FaasNet.RaftConsensus
