import FaasNet.Lib.Counting
import FaasNet.RaftConsensus.Cluster

/-!
# Conservation of client requests

A client's request is a token: a peer appends it, forwards it, buffers it, or flushes it from its
buffer. `PackageEffect.conserves` is the law for one callback, for as many requests of the same
value as there may be; over a network that loses and duplicates nothing it adds up to the law of
the cluster.
-/

namespace FaasNet.RaftConsensus

open FaasNet.Lib

namespace PeerHost

section
variable {V : Type*} {env : Env} {h h' : PeerHost V} {pkg : ConsensusPackage V} {sent : Sent V}

/-- The values of the buffered requests. -/
def bufferedValues (h : PeerHost V) : List V := h.appendEntryRequestLst.map (·.value)

/-- The values of the client requests among the packages sent. -/
def sentValues (sent : Sent V) : List V := sent.flatMap fun p => p.2.clientValues

theorem reply_values {returned : Bool} {target : ClusterNode} (silent : pkg.clientValues = []) :
    sentValues (reply returned target pkg) = [] := by
  cases returned <;> simp [reply, sentValues, silent]

theorem TimerEffect.sends_no_value (effect : TimerEffect env h h' sent) : sentValues sent = [] := by
  cases effect with
  | quiet | leader | expired => rfl
  | candidate | heartbeat =>
    apply List.flatMap_eq_nil_iff.mpr
    intro p among
    obtain ⟨n, _, rfl⟩ := List.mem_map.mp among
    rfl

theorem TimerEffect.keeps_values (effect : TimerEffect env h h' sent) : h'.bufferedValues = h.bufferedValues := by
  rw [bufferedValues, effect.keeps_buffer, bufferedValues]

theorem client_values {requests : List (AppendEntryRequest V)} (clients : ∀ r ∈ requests, r.isProxified = false)
    (target : ClusterNode) :
    sentValues (requests.map fun r => (target, .appendEntryRequest r)) = requests.map (·.value) := by
  induction requests with
  | nil => rfl
  | cons r requests ih =>
    have client : r.isProxified = false := clients r List.mem_cons_self
    have rest := ih fun q member => clients q (List.mem_cons_of_mem r member)
    simp only [sentValues, List.map_cons, List.flatMap_cons] at rest ⊢
    rw [rest]
    simp [ConsensusPackage.clientValues, client]

variable [DecidableEq V]

/-- **One callback neither loses nor duplicates a request**: what arrived and what was buffered is
what was sent on, what is buffered now and what was appended. -/
theorem PackageEffect.conserves (effect : PackageEffect env h pkg h' sent) (returns : env.send 0 = true)
    (clients : ∀ r ∈ h.appendEntryRequestLst, r.isProxified = false) (v : V) :
    pkg.clientValues.count v + h.bufferedValues.count v =
      (sentValues sent).count v + h'.bufferedValues.count v +
        ((h.acceptedFrom pkg h').map (·.value)).count v := by
  cases effect with
  | ignored silent => simp [acceptedFrom, silent, sentValues]
  | followed header base leader requests kept returned _ _ _ flushed same =>
    have among : ∀ r ∈ requests, r.isProxified = false :=
      fun r member => clients r (flushed.mem_iff.mp (List.mem_append_left _ member))
    have split : h.bufferedValues.count v = (requests.map (·.value)).count v + (kept.map (·.value)).count v := by
      rw [bufferedValues, ← (flushed.map (·.value)).count_eq v, List.map_append, List.count_append]
    have now : h'.bufferedValues = kept.map (·.value) := by rw [bufferedValues, same.buffer]
    have out : sentValues (requests.map (fun r => (header.source, .appendEntryRequest r)) ++
        reply returned header.source (ConsensusPackageResultBuilder.leaderHeartbeat h.nodeOptions.node
          h.info.termId h.info.confirmedTermIndex)) = requests.map (·.value) := by
      rw [sentValues, List.flatMap_append]
      show sentValues _ ++ sentValues _ = _
      rw [client_values among, reply_values rfl, List.append_nil]
    rw [out, now, split]
    simp [ConsensusPackage.clientValues, acceptedFrom]
  | granted header returned _ _ same =>
    have now : h'.bufferedValues = h.bufferedValues := by rw [bufferedValues, same.buffer]; rfl
    rw [reply_values rfl, now]
    simp [ConsensusPackage.clientValues, acceptedFrom]
  | refused header returned =>
    rw [reply_values rfl]
    simp [ConsensusPackage.clientValues, acceptedFrom]
  | counted result =>
    simp [ConsensusPackage.clientValues, acceptedFrom, sentValues, bufferedValues]
  | appended request allowed missing =>
    cases proxified : request.isProxified with
    | true => simp [ConsensusPackage.clientValues, proxified, acceptedFrom, sentValues, bufferedValues, appendEntry]
    | false =>
      simp [ConsensusPackage.clientValues, proxified, acceptedFrom, sentValues, bufferedValues, appendEntry]
      omega
  | forwarded request leader client =>
    simp [ConsensusPackage.clientValues, client, acceptedFrom, returns, reply, sentValues]
  | buffered request client =>
    simp [ConsensusPackage.clientValues, client, acceptedFrom, sentValues, bufferedValues, List.count_cons]
    omega
  | replicated header record returned =>
    rw [reply_values rfl]
    simp [ConsensusPackage.clientValues, acceptedFrom]

end

end PeerHost

/-- Where a client request can be. -/
inductive Place (ι : Type*) where
  | inFlight (dst : ι)
  | buffered (i : ι)
  | appended (i : ι) (index : Int)

namespace ClusterState

section
variable {ι V : Type*} [Fintype ι] [DecidableEq V] (s : ClusterState ι V) (v : V)

/-- The places of the client requests with value `v`, one for each request there. -/
def places : Multiset (Place ι) :=
  ↑(s.network.flatMap fun e => (e.pkg.clientValues.filter (· = v)).map fun _ => Place.inFlight e.dst) +
  ∑ i, ↑(((s.hosts i).appendEntryRequestLst.filter (·.value = v)).map fun _ => Place.buffered i) +
  ↑((s.accepted.filter (·.2.value = v)).map fun p => Place.appended p.1 p.2.index)

/-- How many client requests with value `v` are somewhere. -/
def tokens : Nat :=
  (s.network.flatMap (·.pkg.clientValues)).count v + ∑ i, (s.hosts i).bufferedValues.count v +
    (s.accepted.map (·.2.value)).count v

theorem card_places : (s.places v).card = s.tokens v := by
  have count (l : List V) : l.count v = (l.filter (· = v)).length := by
    rw [List.count_eq_countP, List.countP_eq_length_filter]
    rfl
  simp only [places, tokens, PeerHost.bufferedValues, Multiset.card_add, Multiset.card_sum, Multiset.coe_card,
    count, List.filter_flatMap, List.filter_map, List.length_flatMap, List.length_map, Function.comp_def]

end

end ClusterState

namespace Cluster

section
variable {ι V : Type*} {C : Cluster ι}

/-- Packages that find their peer carry their values there. -/
theorem post_values (i : ι) (round : Nat) (confirmed : Int) {sent : Sent V}
    (found : ∀ p ∈ sent, p.2.clientValues ≠ [] → ∃ j, C.locate p.1 = some j) :
    (C.post i round confirmed sent).flatMap (·.pkg.clientValues) = PeerHost.sentValues sent := by
  apply flatMap_filterMap
  intro p among
  cases located : C.locate p.1 with
  | some j => rfl
  | none =>
    by_contra carries
    obtain ⟨j, other⟩ := found p among (Ne.symm carries)
    rw [located] at other
    cases other

/-- A peer sends a client's request only to the peer it follows. -/
theorem Wired.values_located {s : ClusterState ι V} (wired : C.Wired s) {e : Envelope ι V} (inFlight : e ∈ s.network)
    {p : ClusterNode × ConsensusPackage V} (answer : PeerHost.Answer (s.hosts e.dst) e.pkg p)
    (carries : p.2.clientValues ≠ []) : ∃ j, C.locate p.1 = some j := by
  have source := wired.source e inFlight
  generalize e.pkg = pkg at answer source
  cases answer with
  | flushed header request buffered =>
    rcases source with ⟨_, other⟩ | ⟨j, _, source⟩
    · cases other
    · have target : header.source = C.addr j := source
      exact ⟨j, by rw [target, C.locate_addr]⟩
  | forwarded request leader client known =>
    obtain ⟨j, target⟩ := wired.leader e.dst leader known
    exact ⟨j, by rw [target, C.locate_addr]⟩
  | acknowledged | granted | refused | replicated => exact absurd rfl carries

variable [DecidableEq ι]

/-- The network loses and duplicates nothing, and no send throws. -/
def Reliable : ClusterAction ι V → Prop
  | .elapsed _ env _ _ => ∀ k, env.send k = true
  | .deliver _ env => ∀ k, env.send k = true
  | .lose _ => False
  | .duplicate _ => False
  | .client _ _ => True
  | .appendEntry _ _ => True

variable {s t : ClusterState ι V} {a : ClusterAction ι V} [Fintype ι] [DecidableEq V]

/-- The end of a callback: the buffer of one peer is replaced, and what it sent is in flight. -/
theorem finish_tokens (i : ι) (h' : PeerHost V) {sent : Sent V} (round : Nat)
    (found : ∀ p ∈ sent, p.2.clientValues ≠ [] → ∃ j, C.locate p.1 = some j) (v : V) :
    (C.finish s i (h', sent) round).tokens v + (s.hosts i).bufferedValues.count v =
      s.tokens v + h'.bufferedValues.count v + (PeerHost.sentValues sent).count v := by
  have moved := sum_update (fun h => h.bufferedValues.count v) s.hosts i h'
  have posted := C.post_values i round h'.info.confirmedTermIndex found
  simp only [ClusterState.tokens, finish, List.flatMap_append, List.count_append, posted]
  omega

/-- **One action conserves the requests**: their number changes only when a client sends one. -/
theorem Step.tokens (wired : C.Wired s) (reliable : Reliable a) (taken : C.Step s a t) (v : V) :
    t.tokens v + s.clientRequests.count v = s.tokens v + t.clientRequests.count v := by
  cases taken with
  | @elapsed i env timer queued h' sent effect =>
    have silent := effect.sends_no_value
    have same := effect.keeps_values
    have finished := finish_tokens (C := C) (s := s) i h' (nextRound (s.round i) (s.hosts i) h')
      (fun p among carries => absurd (List.flatMap_eq_nil_iff.mp silent p among) carries) v
    rw [silent, same] at finished
    simp only [List.count_nil] at finished
    show _ + s.clientRequests.count v = _ + s.clientRequests.count v
    omega
  | @deliver k env before after e position split h' sent effect =>
    have inFlight : e ∈ s.network := List.mem_of_getElem? position
    have law := effect.conserves (reliable 0) (wired.buffer e.dst) v
    let rest : ClusterState ι V := { s with
      network := before ++ after
      counted := if e.isGrant then s.counted ++ [e] else s.counted
      accepted := s.accepted ++ ((s.hosts e.dst).acceptedFrom e.pkg h').map fun r => (e.dst, r) }
    have finished := finish_tokens (C := C) (s := rest) e.dst h' e.round
      (fun p among carries => wired.values_located inFlight (effect.answer among) carries) v
    have removed : rest.tokens v + e.pkg.clientValues.count v =
        s.tokens v + (((s.hosts e.dst).acceptedFrom e.pkg h').map (·.value)).count v := by
      simp only [rest, ClusterState.tokens, split, List.flatMap_append, List.flatMap_cons, List.count_append,
        List.map_append, List.map_map, Function.comp_def]
      omega
    have same : (rest.hosts e.dst).bufferedValues = (s.hosts e.dst).bufferedValues := rfl
    rw [same] at finished
    show (C.finish rest e.dst (h', sent) e.round).tokens v + s.clientRequests.count v =
      s.tokens v + s.clientRequests.count v
    omega
  | lose | duplicate => exact absurd reliable id
  | client i value =>
    simp [ClusterState.tokens, ConsensusPackageRequestBuilder.appendEntry, ConsensusPackage.clientValues]
    omega
  | appendEntry i logRecord =>
    have moved := sum_update (fun h => h.bufferedValues.count v) s.hosts i ((s.hosts i).appendEntry logRecord)
    have same : ((s.hosts i).appendEntry logRecord).bufferedValues = (s.hosts i).bufferedValues := rfl
    simp only [same] at moved
    simp only [ClusterState.tokens]
    omega

/-! ## The appended requests -/

omit [Fintype ι] [DecidableEq V] in
/-- What clients had appended to the log of a peer is in it, in this order and once each. -/
theorem Step.accepted_logged (taken : C.Step s a t)
    (logged : ∀ i, ((s.accepted.filter (·.1 = i)).map (·.2)).Sublist (s.hosts i).logRecords) (i : ι) :
    ((t.accepted.filter (·.1 = i)).map (·.2)).Sublist (t.hosts i).logRecords := by
  have kept := (logged i).trans (taken.grows i).log.sublist
  cases taken with
  | elapsed | lose | duplicate | client | appendEntry => exact kept
  | @deliver k env before after e position split h' sent effect =>
    by_cases same : e.dst = i
    swap
    · simpa [finish, List.filter_append, List.filter_map, Function.comp_def, same] using kept
    subst same
    have both := ((logged e.dst).append (List.Sublist.refl _)).trans (PeerHost.package_accepted effect)
    simpa [finish, List.filter_append, List.filter_map, Function.comp_def] using both

end

section
variable {ι V : Type*} [DecidableEq ι] [Fintype ι] [DecidableEq V] (C : Cluster ι)

/-- **Conservation of client requests.** While the network loses and duplicates nothing and no send
throws, whatever the peers of a topic do: there are, in flight, in buffers and appended, as many
requests of each value as clients have sent, so a request that no other equals is in exactly one
place; a buffer holds client requests only, and each appended request has a record of its own. -/
theorem client_requests_conserved (info : ι → PeerInfo) (options : ι → ConsensusPeerOptions) (env : ι → Env)
    {acts : List (ClusterAction ι V)} {t : ClusterState ι V}
    (reliable : Along C.step (fun _ a => Reliable a) (C.startWith info options env) acts)
    (reached : run C.step (C.startWith info options env) acts = some t) :
    (∀ v, (t.places v).card = t.clientRequests.count v) ∧
    (∀ v, t.clientRequests.count v = 1 → ∃ place, t.places v = {place}) ∧
    (∀ i, ∀ request ∈ (t.hosts i).appendEntryRequestLst, request.isProxified = false) ∧
    ∀ i, ((t.accepted.filter (·.1 = i)).map (·.2)).Sublist (t.hosts i).logRecords := by
  let Inv := fun u : ClusterState ι V => C.Wired u ∧ (∀ v, u.tokens v = u.clientRequests.count v) ∧
    ∀ i, ((u.accepted.filter (·.1 = i)).map (·.2)).Sublist (u.hosts i).logRecords
  have inv : Inv t := by
    refine run_invariant Inv ?_ ⟨startWith_wired _ options env, ?_, ?_⟩ reliable reached
    · intro u a w ⟨wired, tokens, logged⟩ reliable taken
      have taken := C.step_cases taken
      refine ⟨wired.step taken, ?_, taken.accepted_logged logged⟩
      intro v
      have law := taken.tokens wired reliable v
      have before := tokens v
      omega
    · intro v
      simp [ClusterState.tokens, startWith, PeerHost.start, PeerHost.startCheckLeaderHeartbeat,
        PeerHost.bufferedValues]
    · simp [startWith]
  obtain ⟨wired, tokens, logged⟩ := inv
  have counted (v : V) : (t.places v).card = t.clientRequests.count v := by rw [t.card_places v, tokens v]
  exact ⟨counted, fun v once => Multiset.card_eq_one.mp ((counted v).trans once), wired.buffer, logged⟩

/-- Node 1 buffers a request while it knows no leader, and flushes it to node 0 with the first
heartbeat; node 0 appends it. -/
def bufferedRequest : List (ClusterAction (Fin 2) String) :=
  let env := fun now => Env.calm now (Cluster.localhost 2).members
  [.client node1 "x", .deliver 0 (env 100),
   .elapsed node0 (env 5000) .checkLeaderHeartbeat false, .deliver 0 (env 5010), .deliver 0 (env 5020),
   .elapsed node0 (env 5100) .electionCheck false, .elapsed node0 (env 5300) .leaderHeartbeat false,
   .deliver 1 (env 5310), .deliver 1 (env 5320)]

theorem client_requests_conserved_bufferedRequest :
    ∃ t, run (Cluster.localhost 2).step (started 2) bufferedRequest = some t ∧
      (t.hosts 0).logRecords = [⟨1, "x"⟩] ∧ (t.hosts 1).appendEntryRequestLst = [] ∧
      ∃ place, t.places "x" = {place} := by
  have reliable : Along (Cluster.localhost 2).step (fun _ a => Reliable a) (started 2) bufferedRequest := by
    apply along_of_forall
    simp [bufferedRequest, Reliable, Env.calm]
  have checked : (run (Cluster.localhost 2).step (started 2) bufferedRequest).any (fun t => decide
      ((t.hosts 0).logRecords = [⟨1, "x"⟩] ∧ (t.hosts 1).appendEntryRequestLst = [] ∧
        t.clientRequests.count "x" = 1)) = true := by decide +kernel
  obtain ⟨t, reached, log, buffer, once⟩ := run_checked checked
  have conserved := client_requests_conserved _ _ _ _ reliable reached
  exact ⟨t, reached, log, buffer, conserved.2.1 "x" once⟩

end

end Cluster

end FaasNet.RaftConsensus
