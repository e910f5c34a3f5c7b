import FaasNet.Lib.Runs
import FaasNet.RaftConsensus.PeerEffects

/-!
# The log of one peer

The record's index is computed from `ConfirmedTermIndex` while the log store only appends, and
`TermIndex` moves with the state changes. `LogInvariant` ties them together; it holds of a started
peer and is kept by every callback, whatever package arrives and whatever throws.
-/

namespace FaasNet.RaftConsensus

open FaasNet.Lib

namespace PeerHost

section
variable {V : Type*}

/-- The records are numbered `1, 2, ...` in the order they were added, `ConfirmedTermIndex` counts
them, and `TermIndex` is at most one ahead, not at all in a follower. -/
structure LogInvariant (h : PeerHost V) : Prop where
  numbered : ∀ (k : Nat) (r : LogRecord V), h.logRecords[k]? = some r → r.index = k + 1
  confirmed : h.info.confirmedTermIndex = h.logRecords.length
  lower : h.info.confirmedTermIndex ≤ h.info.termIndex
  upper : h.info.termIndex ≤ h.info.confirmedTermIndex + 1
  follower : h.state = .FOLLOWER → h.info.termIndex = h.info.confirmedTermIndex

namespace LogInvariant
variable {h h' : PeerHost V}

/-- Only the log, the info and being a follower matter. -/
theorem of_same (inv : LogInvariant h) (log : h'.logRecords = h.logRecords) (info : h'.info = h.info)
    (state : h'.state = .FOLLOWER → h.state = .FOLLOWER) : LogInvariant h' where
  numbered := by rw [log]; exact inv.numbered
  confirmed := by rw [info, log]; exact inv.confirmed
  lower := by rw [info]; exact inv.lower
  upper := by rw [info]; exact inv.upper
  follower := fun f => by rw [info]; exact inv.follower (state f)

theorem of_core (inv : LogInvariant h) (same : SameCore h h') : LogInvariant h' :=
  inv.of_same same.log same.info fun f => same.state ▸ f

theorem asFollower (inv : LogInvariant h) : LogInvariant h.asFollower := by
  have split : h.asFollower.info = h.info ∧ h.info.termIndex = h.info.confirmedTermIndex ∨
      h.asFollower.info = h.info.reset := by
    by_cases state : h.state = .FOLLOWER
    · exact .inl ⟨by simp [PeerHost.asFollower, state], inv.follower state⟩
    · exact .inr (by simp [PeerHost.asFollower, state])
  rcases split with ⟨info, equal⟩ | info
  · exact ⟨inv.numbered, by rw [info]; exact inv.confirmed, by rw [info]; exact inv.lower,
      by rw [info]; exact inv.upper, fun _ => by rw [info]; exact equal⟩
  · have reset : h.asFollower.info.termIndex = h.asFollower.info.confirmedTermIndex := by rw [info]; rfl
    exact ⟨inv.numbered, by rw [info]; exact inv.confirmed, by omega, by omega, fun _ => reset⟩

theorem asCandidate (inv : LogInvariant h) (nodes : List ClusterNode) : LogInvariant (h.asCandidate nodes) where
  numbered := inv.numbered
  confirmed := inv.confirmed
  lower := by
    show h.info.confirmedTermIndex ≤ h.info.confirmedTermIndex + 1
    omega
  upper := le_refl (h.info.confirmedTermIndex + 1)
  follower := by simp [PeerHost.asCandidate]

/-- Appending under the next free index keeps the invariant in every state. -/
theorem append (inv : LogInvariant h) {r : LogRecord V} (next : r.index = h.info.confirmedTermIndex + 1) :
    LogInvariant (h.appendEntry r) where
  numbered := by
    intro k s found
    simp only [appendEntry, List.getElem?_append] at found
    split at found
    · exact inv.numbered k s found
    next beyond =>
      have last : k = h.logRecords.length := by
        have := (List.getElem?_eq_some_iff.1 found).1
        simp only [List.length_singleton] at this
        omega
      obtain rfl : r = s := by simpa [last] using found
      rw [next, inv.confirmed, last]
  confirmed := by simp [appendEntry, inv.confirmed]
  lower := le_refl (h.info.confirmedTermIndex + 1)
  upper := by
    show h.info.confirmedTermIndex + 1 ≤ h.info.confirmedTermIndex + 1 + 1
    omega
  follower := fun _ => rfl

theorem timer {env : Env} {sent : Sent V} (inv : LogInvariant h) (effect : TimerEffect env h h' sent) :
    LogInvariant h' := by
  cases effect with
  | quiet same => exact inv.of_core same
  | candidate nodes m _ _ same => exact (inv.asCandidate nodes).of_core same
  | leader _ _ same =>
    exact inv.of_same same.log same.info fun f => by rw [same.state] at f; cases f
  | expired _ same => exact inv.asFollower.of_core same
  | heartbeat nodes _ same => exact inv.of_core same

theorem package {env : Env} {pkg : ConsensusPackage V} {sent : Sent V}
    (inv : LogInvariant h) (effect : PackageEffect env h pkg h' sent) : LogInvariant h' := by
  cases effect with
  | ignored | refused | forwarded | replicated => exact inv
  | followed header base leader requests kept returned _ stepsDown _ _ same =>
    have invBase : LogInvariant base := by
      rcases stepsDown with rfl | ⟨_, rfl⟩
      · exact inv
      · exact inv.asFollower
    exact invBase.of_same same.log same.info fun f => same.state ▸ f
  | granted header returned _ _ same => exact inv.asFollower.of_core same
  | counted result _ => exact inv.of_same rfl rfl id
  | appended request _ _ => exact inv.append rfl
  | buffered request _ => exact inv.of_same rfl rfl id

end LogInvariant

/-- A started peer with `PeerInfo (0, 0)` satisfies the invariant. -/
theorem start_logInvariant (nodeOptions : ConsensusNodeOptions) (options : ConsensusPeerOptions)
    (termId : String) (env : Env) : LogInvariant (start (V := V) nodeOptions options ⟨termId, 0, 0⟩ env) := by
  constructor <;> simp [start, startCheckLeaderHeartbeat]

/-! ## Reading the log -/

/-- With one record for each index, a bag gives the same record whatever order it is searched in. -/
theorem getRecord_eq_some_iff {bag : List (LogRecord V)} {i : Int} {r : LogRecord V}
    (single : ∀ a ∈ bag, ∀ b ∈ bag, a.index = b.index → a = b) :
    getRecord bag i = some r ↔ r ∈ bag ∧ r.index = i := by
  unfold getRecord
  constructor
  · intro found
    exact ⟨List.mem_of_find?_eq_some found, by simpa using List.find?_some found⟩
  · rintro ⟨member, index⟩
    obtain ⟨s, found⟩ : ∃ s, bag.find? (fun lr => lr.index = i) = some s :=
      Option.isSome_iff_exists.1 (List.find?_isSome.2 ⟨r, member, by simpa using index⟩)
    have same : s.index = i := by simpa using List.find?_some found
    rw [found, single s (List.mem_of_find?_eq_some found) r member (same.trans index.symm)]

namespace LogInvariant
variable {h : PeerHost V}

/-- Each record stands at its index. -/
theorem index_eq (inv : LogInvariant h) {r : LogRecord V} (member : r ∈ h.logRecords) :
    ∃ k : Nat, h.logRecords[k]? = some r ∧ r.index = k + 1 := by
  obtain ⟨k, found⟩ := List.mem_iff_getElem?.1 member
  exact ⟨k, found, inv.numbered k r found⟩

/-- There is one record for each index. -/
theorem single (inv : LogInvariant h) {a b : LogRecord V} (ha : a ∈ h.logRecords) (hb : b ∈ h.logRecords)
    (same : a.index = b.index) : a = b := by
  obtain ⟨k, foundA, indexA⟩ := inv.index_eq ha
  obtain ⟨l, foundB, indexB⟩ := inv.index_eq hb
  obtain rfl : k = l := by omega
  exact Option.some.inj (foundA.symm.trans foundB)

/-- `Get(i)` gives the `i`-th record added, in whatever order the bag is searched. -/
theorem getRecord_eq (inv : LogInvariant h) {bag : List (LogRecord V)} (order : bag.Perm h.logRecords)
    (i : Int) : getRecord bag i = if 1 ≤ i then h.logRecords[(i - 1).toNat]? else none := by
  have single : ∀ a ∈ bag, ∀ b ∈ bag, a.index = b.index → a = b := fun a ha b hb =>
    inv.single (order.mem_iff.1 ha) (order.mem_iff.1 hb)
  refine Option.ext fun r => ?_
  rw [getRecord_eq_some_iff single, order.mem_iff]
  constructor
  · rintro ⟨member, rfl⟩
    obtain ⟨k, found, index⟩ := inv.index_eq member
    rw [if_pos (by omega), show (r.index - 1).toNat = k by omega]
    exact found
  · intro found
    split at found
    · refine ⟨List.mem_of_getElem? found, ?_⟩
      rw [inv.numbered _ r found]
      omega
    · simp at found

/-- The indices in the log, in the order of the appends. -/
theorem indices_eq (inv : LogInvariant h) :
    h.logRecords.map (·.index) = (List.range h.info.confirmedTermIndex.toNat).map fun k : Nat => (k : Int) + 1 := by
  rw [inv.confirmed, Int.toNat_natCast]
  refine List.ext_getElem? fun k => ?_
  rw [List.getElem?_map, List.getElem?_map]
  by_cases inside : k < h.logRecords.length
  · rw [List.getElem?_range inside, List.getElem?_eq_getElem inside]
    simp [inv.numbered k _ (List.getElem?_eq_getElem inside)]
  · rw [List.getElem?_eq_none (by omega), List.getElem?_eq_none (by simpa using inside)]
    rfl

end LogInvariant

/-! ## Whole runs -/

/-- The log only grows at its end, and `ConfirmedTermIndex` only goes up. -/
structure Grows (h h' : PeerHost V) : Prop where
  log : h.logRecords <+: h'.logRecords
  confirmed : h.info.confirmedTermIndex ≤ h'.info.confirmedTermIndex

theorem Grows.of_same {h h' : PeerHost V} (log : h'.logRecords = h.logRecords)
    (confirmed : h'.info.confirmedTermIndex = h.info.confirmedTermIndex) : Grows h h' :=
  ⟨log ▸ List.prefix_rfl, confirmed ▸ le_rfl⟩

/-- A timer appends nothing. -/
theorem timer_grows {env : Env} {h h' : PeerHost V} {sent : Sent V} (effect : TimerEffect env h h' sent) :
    h'.logRecords = h.logRecords ∧ h'.info.confirmedTermIndex = h.info.confirmedTermIndex := by
  cases effect with
  | quiet same | heartbeat _ _ same | leader _ _ same => exact ⟨same.log, by rw [same.info]⟩
  | candidate nodes m _ _ same => exact ⟨same.log, by rw [same.info]; rfl⟩
  | expired _ same => exact ⟨same.log, by rw [same.info, asFollower_confirmed]⟩

/-- A record that is appended stands at the end. -/
theorem appendEntry_grows (h : PeerHost V) (logRecord : LogRecord V) : Grows h (h.appendEntry logRecord) where
  log := List.prefix_append _ _
  confirmed := by
    show h.info.confirmedTermIndex ≤ h.info.confirmedTermIndex + 1
    omega

/-- Only an append entry request touches the log. -/
theorem package_keeps_log {env : Env} {h h' : PeerHost V} {pkg : ConsensusPackage V} {sent : Sent V}
    (effect : PackageEffect env h pkg h' sent) (other : ∀ request, pkg ≠ .appendEntryRequest request) :
    h'.logRecords = h.logRecords ∧ h'.info.confirmedTermIndex = h.info.confirmedTermIndex := by
  cases effect with
  | ignored | refused | replicated | counted => exact ⟨rfl, rfl⟩
  | followed header base leader requests kept returned _ stepsDown _ _ same =>
    rcases stepsDown with rfl | ⟨_, rfl⟩
    · exact ⟨same.log, by rw [same.info]⟩
    · exact ⟨same.log, by rw [same.info, asFollower_confirmed]⟩
  | granted header returned _ _ same => exact ⟨same.log, by rw [same.info, asFollower_confirmed]⟩
  | appended request | forwarded request | buffered request => exact absurd rfl (other request)

/-- A package appends at the end only. -/
theorem package_grows {env : Env} {h h' : PeerHost V} {pkg : ConsensusPackage V}
    {sent : Sent V} (effect : PackageEffect env h pkg h' sent) : Grows h h' := by
  cases pkg with
  | appendEntryRequest request =>
    cases effect with
    | ignored | forwarded | buffered => exact .of_same rfl rfl
    | appended => exact appendEntry_grows h _
  | leaderHeartbeatRequest | voteRequest | voteResult | leaderHeartbeatResult =>
    obtain ⟨log, confirmed⟩ := package_keeps_log effect (by simp)
    exact .of_same log confirmed

/-- What a package added for a client is behind what the log held. -/
theorem package_accepted {env : Env} {h h' : PeerHost V} {pkg : ConsensusPackage V} {sent : Sent V}
    (effect : PackageEffect env h pkg h' sent) : (h.logRecords ++ h.acceptedFrom pkg h').Sublist h'.logRecords := by
  obtain ⟨added, log⟩ := (package_grows effect).log
  rw [acceptedFrom, ← log, List.drop_left]
  apply List.Sublist.append_left
  split
  · exact List.nil_sublist added
  · exact List.Sublist.refl added

/-- The public `AppendEntry` is called with index 1 and before any other append, as `EventMeshNode`
does on the peer it has just started. -/
def AppendsFirst (h : PeerHost V) : PeerAction V → Prop
  | .appendEntry logRecord => logRecord.index = 1 ∧ h.logRecords = []
  | _ => True

/-- The invariant is kept by records that are appended first. -/
theorem LogInvariant.append_first {h : PeerHost V} (inv : LogInvariant h) {logRecord : LogRecord V}
    (first : AppendsFirst h (.appendEntry logRecord)) : LogInvariant (h.appendEntry logRecord) := by
  obtain ⟨one, empty⟩ := first
  apply inv.append
  rw [one, inv.confirmed, empty]
  rfl

/-- Each step keeps the invariant, and the log grows. -/
theorem step_logInvariant [DecidableEq V] {h h' : PeerHost V} {a : PeerAction V} (inv : LogInvariant h)
    (first : AppendsFirst h a) (taken : h.step a = some h') : LogInvariant h' ∧ Grows h h' := by
  cases a with
  | package env pkg =>
    obtain rfl := Option.some.inj taken
    exact ⟨inv.package (package_effect env h pkg), package_grows (package_effect env h pkg)⟩
  | elapsed env timer queued =>
    simp only [step, Option.ite_none_right_eq_some, Option.some.injEq] at taken
    obtain ⟨_, rfl⟩ := taken
    have effect := elapsed_effect env h timer queued
    exact ⟨inv.timer effect, .of_same (timer_grows effect).1 (timer_grows effect).2⟩
  | appendEntry logRecord =>
    obtain rfl := Option.some.inj taken
    exact ⟨inv.append_first first, appendEntry_grows h logRecord⟩

/-- **The log of a peer.** Whatever happens to a peer started with `PeerInfo (0, 0)`: its log holds
one record for each index `1..ConfirmedTermIndex` and no other, reading index `i` gives the `i`-th
record added in whatever order the bag is searched, both only grow, and `TermIndex` stays within
one of `ConfirmedTermIndex`, equal to it in a follower. -/
theorem peer_log_invariant [DecidableEq V] (nodeOptions : ConsensusNodeOptions)
    (options : ConsensusPeerOptions) (termId : String) (env : Env) {acts : List (PeerAction V)}
    {h : PeerHost V} (once : Along step AppendsFirst (start nodeOptions options ⟨termId, 0, 0⟩ env) acts)
    (reached : run step (start nodeOptions options ⟨termId, 0, 0⟩ env) acts = some h) :
    h.logRecords.map (·.index) = (List.range h.info.confirmedTermIndex.toNat).map (fun k : Nat => (k : Int) + 1) ∧
    (∀ bag, bag.Perm h.logRecords → ∀ i : Int,
      getRecord bag i = if 1 ≤ i then h.logRecords[(i - 1).toNat]? else none) ∧
    (∀ later h', Along step AppendsFirst h later → run step h later = some h' →
      h.info.confirmedTermIndex ≤ h'.info.confirmedTermIndex ∧ h.logRecords <+: h'.logRecords) ∧
    h.info.confirmedTermIndex ≤ h.info.termIndex ∧
    h.info.termIndex ≤ h.info.confirmedTermIndex + 1 ∧
    (h.state = .FOLLOWER → h.info.termIndex = h.info.confirmedTermIndex) := by
  have inv : LogInvariant h := run_invariant LogInvariant (fun _ _ _ i first taken => (step_logInvariant i first taken).1)
    (start_logInvariant nodeOptions options termId env) once reached
  refine ⟨inv.indices_eq, fun bag order i => inv.getRecord_eq order i, ?_, inv.lower, inv.upper, inv.follower⟩
  intro later h' along run
  have grows : Grows h h' := run_related LogInvariant (fun _ => .of_same rfl rfl)
    (fun _ _ _ ab bc => ⟨ab.log.trans bc.log, le_trans ab.confirmed bc.confirmed⟩)
    (fun _ _ _ i first taken => (step_logInvariant i first taken).1)
    (fun _ _ _ i first taken => (step_logInvariant i first taken).2) inv along run
  exact ⟨grows.confirmed, grows.log⟩

/-- A follower that is handed a first record and then receives the second one from a leader. -/
def firstAppends : List (PeerAction String) :=
  [.appendEntry ⟨1, "first"⟩,
   .package (.calm 0 []) (ConsensusPackageRequestBuilder.appendEntry "topic" 2 "second" true)]

/-- A peer that is given two records first. -/
theorem peer_log_invariant_first_appends :
    ∃ h : PeerHost String,
      run step (start (.localhost 4000) {} ⟨"topic", 0, 0⟩ (.calm 0 [])) firstAppends = some h ∧
      h.info.confirmedTermIndex = 2 ∧ h.logRecords.map (·.index) = [1, 2] ∧
      getRecord h.logRecords.reverse 2 = some ⟨2, "second"⟩ := by
  refine ⟨_, rfl, rfl, ?_, ?_⟩
  all_goals
    have once : Along step AppendsFirst (start (.localhost 4000) {} ⟨"topic", 0, 0⟩ (.calm 0 [])) firstAppends :=
      ⟨⟨rfl, rfl⟩, fun _ _ => ⟨trivial, fun _ _ => trivial⟩⟩
    have result := peer_log_invariant (.localhost 4000) {} "topic" (.calm 0 []) once rfl
  · exact result.1
  · exact result.2.1 _ (List.reverse_perm _) 2

end

end PeerHost

end FaasNet.RaftConsensus
