import FaasNet.RaftConsensus.GossipHandlers

/-!
# Synchronising the states of a node

The in-memory store under the four packages of a synchronisation. The loop over a
`GossipSyncStateResult` only appends, and what it appends was not there: whether a state is missing is
looked up when the loop gets to it. A record that crosses to another node comes without its id.
-/

namespace FaasNet.RaftConsensus

open FaasNet.Lib NodeStateStore

/-- What a synchronisation knows a record by. -/
def NodeState.key (nodeState : NodeState) : String × Int := (nodeState.entityType, nodeState.entityVersion)

/-- At most one record for each type and version. -/
def UniqueVersions (nodeStates : List NodeState) : Prop := (nodeStates.map NodeState.key).Nodup

instance : DecidablePred UniqueVersions := fun nodeStates =>
  inferInstanceAs (Decidable (nodeStates.map NodeState.key).Nodup)

/-! ## The loop over the states of a result -/

section
variable {json : PeerJson} {parameter : List (String × Int)} {nodeStates : List NodeState}

theorem mem_getAllSpecificEntityTypes {ns : NodeState} :
    ns ∈ (inMemory nodeStates).getAllSpecificEntityTypes parameter ↔ ns ∈ nodeStates ∧ ns.key ∈ parameter := by
  simp only [getAllSpecificEntityTypes, List.mem_filter, List.any_eq_true, decide_eq_true_eq, NodeState.key]
  refine and_congr_right fun _ => ⟨?_, fun member => ⟨_, member, rfl, rfl⟩⟩
  rintro ⟨p, member, type, version⟩
  rwa [← type, ← version]

/-- A state is not missing when the store has one of its type, named in the package, that is not older. -/
def Known (parameter : List (String × Int)) (nodeStates : List NodeState) (state : NodeState) : Prop :=
  ∃ ev ∈ nodeStates, ev.key ∈ parameter ∧ ev.entityType = state.entityType ∧ state.entityVersion ≤ ev.entityVersion

/-- A version that is known is not missing. -/
theorem isMissing_eq_false {state : NodeState} :
    NodeHost.isMissing ((inMemory nodeStates).getAllSpecificEntityTypes parameter) state = false ↔
      Known parameter nodeStates state := by
  simp only [NodeHost.isMissing, Bool.not_eq_false', List.any_eq_true, mem_getAllSpecificEntityTypes,
    decide_eq_true_eq, Known, and_assoc]

theorem Known.append {state : NodeState} (known : Known parameter nodeStates state) (added : List NodeState) :
    Known parameter (nodeStates ++ added) state := by
  obtain ⟨ev, member, rest⟩ := known
  exact ⟨ev, List.mem_append_left _ member, rest⟩

/-- A record of the store is known, once its key is in the package. -/
theorem known_of_mem {state : NodeState} (member : state ∈ nodeStates) (named : state.key ∈ parameter) :
    Known parameter nodeStates state :=
  ⟨state, member, named, rfl, le_rfl⟩

/-- The loop over a result, on the in-memory store. -/
abbrev applyStates (json : PeerJson) (parameter : List (String × Int)) (nodeStates states : List NodeState) :
    NodeStateStore × Bool :=
  NodeStateStore.syncLoop json (fun now => now.getAllSpecificEntityTypes parameter) (inMemory nodeStates) states

/-- A known state is left out. -/
theorem applyStates_cons_of_known {state : NodeState} {states : List NodeState}
    (known : Known parameter nodeStates state) :
    applyStates json parameter nodeStates (state :: states) = applyStates json parameter nodeStates states := by
  rw [applyStates, NodeStateStore.syncLoop, isMissing_eq_false.mpr known]
  rfl

/-- A missing state is added, unless its peer cannot be read. -/
theorem applyStates_cons_of_missing {state : NodeState} {states : List NodeState}
    (missing : ¬ Known parameter nodeStates state) :
    applyStates json parameter nodeStates (state :: states) =
      if state.entityType = StandardEntityTypes.peer ∧ json.deserialize state.value = none then
        (inMemory (nodeStates ++ [state]), false)
      else applyStates json parameter (nodeStates ++ [state]) states := by
  have isMissing : NodeHost.isMissing ((inMemory nodeStates).getAllSpecificEntityTypes parameter) state = true := by
    rw [← Bool.not_eq_false]
    exact fun known => missing (isMissing_eq_false.mp known)
  rw [applyStates, NodeStateStore.syncLoop, if_pos isMissing]
  rfl

/-- The loop appends states of the package. -/
theorem applyStates_appends (json : PeerJson) (parameter : List (String × Int)) (nodeStates states : List NodeState) :
    ∃ added, added.Sublist states ∧ (applyStates json parameter nodeStates states).1 = inMemory (nodeStates ++ added) := by
  induction states generalizing nodeStates with
  | nil => exact ⟨[], .slnil, by simp [applyStates, NodeStateStore.syncLoop]⟩
  | cons state states ih =>
    by_cases known : Known parameter nodeStates state
    · rw [applyStates_cons_of_known known]
      obtain ⟨added, sub, result⟩ := ih nodeStates
      exact ⟨added, sub.cons _, result⟩
    · rw [applyStates_cons_of_missing known]
      split
      · exact ⟨[state], by simp, rfl⟩
      · obtain ⟨added, sub, result⟩ := ih (nodeStates ++ [state])
        rw [List.append_assoc, List.singleton_append] at result
        exact ⟨state :: added, sub.cons_cons _, result⟩

/-- A missing state has a key the store lacks, as its own key is named in the package. -/
theorem UniqueVersions.add {state : NodeState} (unique : UniqueVersions nodeStates)
    (missing : ¬ Known parameter nodeStates state) (named : state.key ∈ parameter) :
    UniqueVersions (nodeStates ++ [state]) := by
  have fresh : state.key ∉ nodeStates.map NodeState.key := by
    intro present
    obtain ⟨ev, member, same⟩ := List.mem_map.mp present
    have keys : ev.entityType = state.entityType ∧ ev.entityVersion = state.entityVersion := by
      simpa [NodeState.key] using same
    exact missing ⟨ev, member, same ▸ named, keys.1, keys.2.ge⟩
  rw [UniqueVersions, List.map_append, List.map_singleton, List.nodup_append]
  refine ⟨unique, List.nodup_singleton _, fun key old other new same => fresh ?_⟩
  rwa [← List.mem_singleton.mp new, ← same]

/-- No version is added twice. -/
theorem applyStates_unique {states result : List NodeState} (named : ∀ state ∈ states, state.key ∈ parameter)
    (unique : UniqueVersions nodeStates) (applied : (applyStates json parameter nodeStates states).1 = inMemory result) :
    UniqueVersions result := by
  induction states generalizing nodeStates with
  | nil =>
    obtain rfl : nodeStates = result := by simpa [applyStates, NodeStateStore.syncLoop] using applied
    exact unique
  | cons state states ih =>
    have tailNamed : ∀ s ∈ states, s.key ∈ parameter := fun s member => named s (List.mem_cons_of_mem _ member)
    by_cases known : Known parameter nodeStates state
    · rw [applyStates_cons_of_known known] at applied
      exact ih tailNamed unique applied
    · have uniqueNow := unique.add known (named state List.mem_cons_self)
      rw [applyStates_cons_of_missing known] at applied
      split at applied
      · obtain rfl : nodeStates ++ [state] = result := by simpa using applied
        exact uniqueNow
      · exact ih tailNamed uniqueNow applied

/-- A loop that came to its end leaves nothing of its package missing. -/
theorem known_of_returned {states result : List NodeState} (named : ∀ state ∈ states, state.key ∈ parameter)
    (returned : applyStates json parameter nodeStates states = (inMemory result, true)) :
    ∀ state ∈ states, Known parameter result state := by
  induction states generalizing nodeStates with
  | nil => simp
  | cons state states ih =>
    have tailNamed : ∀ s ∈ states, s.key ∈ parameter := fun s member => named s (List.mem_cons_of_mem _ member)
    -- what is known when the loop goes on stays known to its end
    have kept : ∀ {before : List NodeState}, Known parameter before state →
        applyStates json parameter before states = (inMemory result, true) → Known parameter result state := by
      intro before known done
      obtain ⟨added, _, appended⟩ := applyStates_appends json parameter before states
      rw [done] at appended
      obtain rfl : result = before ++ added := by simpa using appended
      exact known.append added
    intro s member
    by_cases known : Known parameter nodeStates state
    · rw [applyStates_cons_of_known known] at returned
      rcases List.mem_cons.mp member with rfl | later
      · exact kept known returned
      · exact ih tailNamed returned s later
    · rw [applyStates_cons_of_missing known] at returned
      split at returned
      · simp at returned
      · have nowKnown : Known parameter (nodeStates ++ [state]) state :=
          known_of_mem (by simp) (named state List.mem_cons_self)
        rcases List.mem_cons.mp member with rfl | later
        · exact kept nowKnown returned
        · exact ih tailNamed returned s later

/-- The loop breaks off only at a PEER state whose value is no peer. -/
theorem peer_of_threw {states : List NodeState} (threw : (applyStates json parameter nodeStates states).2 = false) :
    ∃ state ∈ states, state.entityType = StandardEntityTypes.peer ∧ json.deserialize state.value = none := by
  induction states generalizing nodeStates with
  | nil => simp [applyStates, NodeStateStore.syncLoop] at threw
  | cons state states ih =>
    by_cases known : Known parameter nodeStates state
    · rw [applyStates_cons_of_known known] at threw
      obtain ⟨s, member, peer⟩ := ih threw
      exact ⟨s, List.mem_cons_of_mem _ member, peer⟩
    · rw [applyStates_cons_of_missing known] at threw
      split at threw
      next peer => exact ⟨state, List.mem_cons_self, peer⟩
      next =>
        obtain ⟨s, member, peer⟩ := ih threw
        exact ⟨s, List.mem_cons_of_mem _ member, peer⟩

/-- A package of which nothing is missing changes nothing. -/
theorem applyStates_of_known {states : List NodeState} (known : ∀ state ∈ states, Known parameter nodeStates state) :
    applyStates json parameter nodeStates states = (inMemory nodeStates, true) := by
  induction states with
  | nil => rfl
  | cons state states ih =>
    rw [applyStates_cons_of_known (known state List.mem_cons_self)]
    exact ih fun s member => known s (List.mem_cons_of_mem _ member)

end

/-! ## Any sequence of packages -/

section
variable {nodeStates : List NodeState}

/-- The packages of a synchronisation. -/
def GossipPackage.IsSync : GossipPackage → Prop
  | heartbeatRequest _ => True
  | heartbeatResult _ _ => True
  | syncStateRequest _ _ => True
  | syncStateResult _ _ => True
  | _ => False

/-- The states of a package as the handler stores them. -/
def createdStates (states : List GossipStateResult) : List NodeState := states.map GossipStateResult.create

/-- The keys a package names. -/
def namedKeys (states : List GossipStateResult) : List (String × Int) := (createdStates states).map NodeState.key

/-- The states that are created are named in the package. -/
theorem key_mem_namedKeys (states : List GossipStateResult) :
    ∀ state ∈ createdStates states, state.key ∈ namedKeys states :=
  fun _ member => List.mem_map_of_mem member

/-- A package of states has its states applied. -/
theorem handle_syncStateResult (env : GossipEnv) (header : GossipHeader) (states : List GossipStateResult) :
    (inMemory nodeStates).handleGossipRequest env (.syncStateResult header states) =
      ⟨(applyStates env.json (namedKeys states) nodeStates (createdStates states)).1,
        if (applyStates env.json (namedKeys states) nodeStates (createdStates states)).2 then some none else none⟩ :=
  rfl

/-- What one package of a synchronisation does to the store. -/
theorem handleGossipRequest_appends (env : GossipEnv) {package : GossipPackage} (isSync : package.IsSync)
    (unique : UniqueVersions nodeStates) :
    ∃ added, ((inMemory nodeStates).handleGossipRequest env package).nodeStateStore = inMemory (nodeStates ++ added) ∧
      UniqueVersions (nodeStates ++ added) := by
  cases package with
  | heartbeatRequest header => exact ⟨[], by simp [handleGossipRequest], by simpa using unique⟩
  | heartbeatResult header states => exact ⟨[], by simp [handleGossipRequest], by simpa using unique⟩
  | syncStateRequest header states => exact ⟨[], by simp [handleGossipRequest], by simpa using unique⟩
  | syncStateResult header states =>
    rw [handle_syncStateResult]
    obtain ⟨added, _, applied⟩ := applyStates_appends env.json (namedKeys states) nodeStates (createdStates states)
    exact ⟨added, applied, applyStates_unique (key_mem_namedKeys states) unique applied⟩
  | updateNodeStateRequest header entityType entityId value => exact isSync.elim
  | addPeerRequest header termId => exact isSync.elim
  | getClusterNodesRequest header => exact isSync.elim
  | getClusterNodesResult header clusterNodes => exact isSync.elim

/-- The store after a sequence of packages. -/
def deliver (env : GossipEnv) (store : NodeStateStore) (packages : List GossipPackage) : NodeStateStore :=
  packages.foldl (fun store package => (store.handleGossipRequest env package).nodeStateStore) store

/-- Packages of states only add states, and no version twice. -/
theorem deliver_appends (env : GossipEnv) {packages : List GossipPackage}
    (areSync : ∀ package ∈ packages, package.IsSync) (unique : UniqueVersions nodeStates) :
    ∃ added, deliver env (inMemory nodeStates) packages = inMemory (nodeStates ++ added) ∧
      UniqueVersions (nodeStates ++ added) := by
  induction packages generalizing nodeStates with
  | nil => exact ⟨[], by simp [deliver], by simpa using unique⟩
  | cons package packages ih =>
    obtain ⟨first, handled, uniqueNow⟩ := handleGossipRequest_appends env (areSync package List.mem_cons_self) unique
    obtain ⟨rest, delivered, uniqueAfter⟩ := ih (fun p member => areSync p (List.mem_cons_of_mem _ member)) uniqueNow
    refine ⟨first ++ rest, ?_, by rwa [← List.append_assoc]⟩
    rw [deliver, List.foldl_cons, handled, ← List.append_assoc]
    exact delivered

/-- A result that was applied changes nothing when it comes again. -/
theorem redelivered_unchanged (env : GossipEnv) (header : GossipHeader) (states : List GossipStateResult)
    {applied : NodeStateStore}
    (returned : (inMemory nodeStates).handleGossipRequest env (.syncStateResult header states) = ⟨applied, some none⟩) :
    applied.handleGossipRequest env (.syncStateResult header states) = ⟨applied, some none⟩ := by
  rw [handle_syncStateResult] at returned
  obtain ⟨added, _, appended⟩ := applyStates_appends env.json (namedKeys states) nodeStates (createdStates states)
  rw [appended] at returned
  obtain ⟨rfl, done⟩ : inMemory (nodeStates ++ added) = applied ∧
      (applyStates env.json (namedKeys states) nodeStates (createdStates states)).2 = true := by
    simpa using returned
  have known := known_of_returned (key_mem_namedKeys states) (Prod.ext appended done)
  rw [handle_syncStateResult, applyStates_of_known known]
  rfl

/-- A handler that throws was given a peer that cannot be read. -/
theorem peer_of_handler_threw (env : GossipEnv) (header : GossipHeader) (states : List GossipStateResult)
    (threw : ((inMemory nodeStates).handleGossipRequest env (.syncStateResult header states)).answer = none) :
    ∃ state ∈ states, state.entityType = StandardEntityTypes.peer ∧ env.json.deserialize state.value = none := by
  rw [handle_syncStateResult] at threw
  have threw : (applyStates env.json (namedKeys states) nodeStates (createdStates states)).2 = false := by
    simpa using threw
  obtain ⟨created, member, peer⟩ := peer_of_threw threw
  obtain ⟨state, inside, rfl⟩ := List.mem_map.mp member
  exact ⟨state, inside, peer⟩

/-- **Synchronisation is monotone and idempotent.** Whatever packages of a synchronisation come, in
whatever order and how often, the records of the store stay as they are, new ones are appended, and no
two have the same type and version. A result that was applied changes nothing when it is delivered
again; one is not applied to its end only if it holds a PEER state whose value is no peer. -/
theorem synchronisation_monotone_idempotent (env : GossipEnv) (unique : UniqueVersions nodeStates)
    {packages : List GossipPackage} (areSync : ∀ package ∈ packages, package.IsSync) :
    ∃ added, deliver env (inMemory nodeStates) packages = inMemory (nodeStates ++ added) ∧
      UniqueVersions (nodeStates ++ added) ∧
      ∀ header states applied answer,
        (deliver env (inMemory nodeStates) packages).handleGossipRequest env (.syncStateResult header states) =
          ⟨applied, answer⟩ →
        (answer = some none →
          applied.handleGossipRequest env (.syncStateResult header states) = ⟨applied, some none⟩) ∧
        (answer = none →
          ∃ state ∈ states, state.entityType = StandardEntityTypes.peer ∧ env.json.deserialize state.value = none) := by
  obtain ⟨added, delivered, uniqueAfter⟩ := deliver_appends env areSync unique
  refine ⟨added, delivered, uniqueAfter, fun header states applied answer handled => ⟨?_, ?_⟩⟩
  · rintro rfl
    rw [delivered] at handled
    exact redelivered_unchanged env header states handled
  · rintro rfl
    rw [delivered] at handled
    exact peer_of_handler_threw env header states (by rw [handled])

/-- A result that repeats a state and comes twice, and a heartbeat in between. -/
theorem synchronisation_of_repeated_states :
    ∃ added, deliver ⟨.plain, ⟨"localhost", 4000⟩, [], "id"⟩ (inMemory [⟨"VPN", "a", 0, "v0"⟩])
        [.syncStateResult ⟨"", 0⟩ [⟨"VPN", some "", 1, "v1"⟩, ⟨"VPN", some "", 1, "v1"⟩], .heartbeatRequest ⟨"", 0⟩,
          .syncStateResult ⟨"", 0⟩ [⟨"VPN", some "", 1, "v1"⟩, ⟨"VPN", some "", 1, "v1"⟩]] =
        inMemory ([⟨"VPN", "a", 0, "v0"⟩] ++ added) ∧
      UniqueVersions ([⟨"VPN", "a", 0, "v0"⟩] ++ added) := by
  have unique : UniqueVersions [⟨"VPN", "a", 0, "v0"⟩] := by decide
  have areSync : ∀ package ∈ [GossipPackage.syncStateResult ⟨"", 0⟩ [⟨"VPN", some "", 1, "v1"⟩, ⟨"VPN", some "", 1, "v1"⟩],
      .heartbeatRequest ⟨"", 0⟩, .syncStateResult ⟨"", 0⟩ [⟨"VPN", some "", 1, "v1"⟩, ⟨"VPN", some "", 1, "v1"⟩]],
      package.IsSync := by simp [GossipPackage.IsSync]
  obtain ⟨added, delivered, uniqueAfter, _⟩ :=
    synchronisation_monotone_idempotent ⟨.plain, ⟨"localhost", 4000⟩, [], "id"⟩ unique areSync
  exact ⟨added, delivered, uniqueAfter⟩

end

/-! ## A package with one state for each type -/

/-- A PEER state whose value is no peer. -/
def BadPeer (json : PeerJson) (state : NodeState) : Prop :=
  state.entityType = StandardEntityTypes.peer ∧ json.deserialize state.value = none

instance (json : PeerJson) : DecidablePred (BadPeer json) := fun _ => inferInstanceAs (Decidable (_ ∧ _))

/-- The states whose key a store lacks. -/
def lacking (nodeStates states : List NodeState) : List NodeState :=
  states.filter fun state => state.key ∉ nodeStates.map NodeState.key

/-- A state of another type does not change what is lacking. -/
theorem lacking_add_other {nodeStates states : List NodeState} {state : NodeState}
    (others : ∀ s ∈ states, s.entityType ≠ state.entityType) :
    lacking (nodeStates ++ [state]) states = lacking nodeStates states := by
  refine List.filter_congr fun s member => ?_
  have different : s.key ≠ state.key := fun same => others s member (congrArg Prod.fst same)
  simp [different]

section
variable {json : PeerJson} {parameter : List (String × Int)} {nodeStates : List NodeState}

/-- A package that names one version of a type has its states known by their own key only. -/
theorem known_iff_of_single (nodeStates : List NodeState) {state : NodeState} (named : state.key ∈ parameter)
    (single : ∀ key ∈ parameter, key.1 = state.entityType → key = state.key) :
    Known parameter nodeStates state ↔ state.key ∈ nodeStates.map NodeState.key := by
  constructor
  · rintro ⟨ev, member, evNamed, type, _⟩
    exact List.mem_map.mpr ⟨ev, member, single ev.key evNamed type⟩
  · intro present
    obtain ⟨ev, member, same⟩ := List.mem_map.mp present
    have keys : ev.entityType = state.entityType ∧ ev.entityVersion = state.entityVersion := by
      simpa [NodeState.key] using same
    exact ⟨ev, member, same ▸ named, keys.1, keys.2.ge⟩

/-- Such a package adds what the store lacks of it, unless a PEER state of that is no peer. -/
theorem applyStates_single {states : List NodeState} (named : ∀ state ∈ states, state.key ∈ parameter)
    (single : ∀ state ∈ states, ∀ key ∈ parameter, key.1 = state.entityType → key = state.key)
    (distinct : (states.map NodeState.entityType).Nodup) :
    if ∃ state ∈ lacking nodeStates states, BadPeer json state then
      (applyStates json parameter nodeStates states).2 = false
    else applyStates json parameter nodeStates states = (inMemory (nodeStates ++ lacking nodeStates states), true) := by
  induction states generalizing nodeStates with
  | nil => simp [lacking, applyStates, NodeStateStore.syncLoop]
  | cons state states ih =>
    obtain ⟨notLater, tailDistinct⟩ := List.nodup_cons.mp distinct
    have others : ∀ s ∈ states, s.entityType ≠ state.entityType :=
      fun s member same => notLater (List.mem_map.mpr ⟨s, member, same⟩)
    have rest := fun before => @ih before (fun s member => named s (List.mem_cons_of_mem _ member))
      (fun s member => single s (List.mem_cons_of_mem _ member)) tailDistinct
    have knownIff := known_iff_of_single nodeStates (named state List.mem_cons_self)
      (single state List.mem_cons_self)
    by_cases present : state.key ∈ nodeStates.map NodeState.key
    · have skipped : lacking nodeStates (state :: states) = lacking nodeStates states := by
        rw [lacking, List.filter_cons_of_neg (by simpa using present)]
        rfl
      rw [applyStates_cons_of_known (knownIff.mpr present), skipped]
      exact rest nodeStates
    · have taken : lacking nodeStates (state :: states) = state :: lacking nodeStates states := by
        rw [lacking, List.filter_cons_of_pos (by simpa using present)]
        rfl
      rw [applyStates_cons_of_missing (fun known => present (knownIff.mp known)), taken]
      have tail := rest (nodeStates ++ [state])
      rw [lacking_add_other others, List.append_assoc, List.singleton_append] at tail
      by_cases bad : BadPeer json state
      · rw [if_pos ⟨state, List.mem_cons_self, bad⟩]
        unfold BadPeer at bad
        rw [if_pos bad]
      · have step : ∀ other : NodeStateStore × Bool, (if state.entityType = StandardEntityTypes.peer ∧
            json.deserialize state.value = none then other else applyStates json parameter (nodeStates ++ [state]) states) =
            applyStates json parameter (nodeStates ++ [state]) states := fun other => if_neg bad
        rw [step]
        simpa [bad] using tail

end

/-! ## A record that crosses -/

/-- The strings of a record are ASCII and its version an `int`. -/
structure NodeState.IsRepresentable (ns : NodeState) : Prop where
  entityType : IsText ns.entityType
  entityId : IsText ns.entityId
  entityVersion : IsInt ns.entityVersion
  value : IsText ns.value

/-- A record as it is after `GossipPackageResultBuilder.Sync` left its id out. -/
def NodeState.withoutId (ns : NodeState) : NodeState := { ns with entityId := "" }

/-- The keys a request asks for. -/
def requestedKeys (requested : List GossipState) : List (String × Int) :=
  requested.map fun s => (s.entityType, s.entityVersion)

/-- The records of a sender that a request asks for. -/
def requestedRecords (sender : List NodeState) (requested : List GossipState) : List NodeState :=
  (inMemory sender).getAllSpecificEntityTypes (requestedKeys requested)

/-- `TryHandleGossipRequest`: a datagram is decoded and handled. The store it leaves, unless something
throws. -/
def receive (env : GossipEnv) (store : NodeStateStore) (buffer : List UInt8) : Option NodeStateStore :=
  match GossipPackage.deserialize buffer with
  | some (some package, _) =>
    (store.handleGossipRequest env package).answer.map fun _ => (store.handleGossipRequest env package).nodeStateStore
  | some (none, _) => some store
  | none => none

/-- A SYNC_REQUEST arrives at the sender; its SYNC_RESULT is encoded, decoded and applied by the
receiver. -/
def transfer (sending receiving : GossipEnv) (sender receiver : NodeStateStore) (requested : List GossipState) :
    Option NodeStateStore :=
  match sender.handleGossipSyncStateRequest sending requested with
  | none => none
  | some none => some receiver
  | some (some result) => receive receiving receiver result.serialize

/-- The states of a SYNC_RESULT that arrives for these records. -/
def arrivingStates (records : List NodeState) : List GossipStateResult :=
  records.map fun s => ⟨s.entityType, some "", s.entityVersion, s.value⟩

/-- The package the sender answers with. -/
def syncResult (sending : GossipEnv) (records : List NodeState) : GossipPackage :=
  GossipPackageResultBuilder.sync sending.node (records.map fun s => (s.entityType, s.entityVersion, s.value))

section
variable {sending receiving : GossipEnv} {sender receiver : List NodeState} {requested : List GossipState}

/-- A package that can be decoded is handled. -/
theorem receive_eq {env : GossipEnv} {store : NodeStateStore} {buffer rest : List UInt8} {package : GossipPackage}
    (decoded : GossipPackage.deserialize buffer = some (some package, rest)) :
    receive env store buffer = (store.handleGossipRequest env package).answer.map fun _ =>
      (store.handleGossipRequest env package).nodeStateStore := by
  rw [receive, decoded]

/-- The values of the requested records are sent if there is one of each type. -/
theorem stateValues_eq :
    (inMemory sender).stateValues requested =
      if ((requestedRecords sender requested).map NodeState.entityType).Nodup then
        some ((requestedRecords sender requested).map fun s => (s.entityType, s.entityVersion, s.value))
      else none := by
  change toDictionary ((requestedRecords sender requested).map _) = _
  rw [toDictionary, List.map_map]
  rfl

/-- The sender answers with the records it was asked for, if they have different types. -/
theorem handleGossipSyncStateRequest_eq :
    (inMemory sender).handleGossipSyncStateRequest sending requested =
      if ((requestedRecords sender requested).map NodeState.entityType).Nodup then
        some (if requestedRecords sender requested = [] then none
          else some (syncResult sending (requestedRecords sender requested)))
      else none := by
  rw [NodeStateStore.handleGossipSyncStateRequest, stateValues_eq]
  split <;> simp [syncResult]

/-- The receiver gets what was sent, without identifiers. -/
theorem syncResult_received (records : List NodeState) :
    (syncResult sending records).received =
      .syncStateResult ⟨sending.node.url, sending.node.port⟩ (arrivingStates records) := by
  simp [arrivingStates, syncResult, GossipPackageResultBuilder.sync, GossipPackage.received, GossipStateResult.received]

/-- What is sent can be represented if the records can. -/
theorem syncResult_representable {records : List NodeState} (node : sending.node.IsRepresentable)
    (count : IsCount records.length) (representable : ∀ ns ∈ records, ns.IsRepresentable) :
    (syncResult sending records).IsRepresentable := by
  refine ⟨node.url, node.port, by simpa using count, fun state member => ?_⟩
  obtain ⟨_, inPairs, rfl⟩ := List.mem_map.mp member
  obtain ⟨ns, inside, rfl⟩ := List.mem_map.mp inPairs
  have text := representable ns inside
  exact ⟨text.entityType, by simp, text.entityVersion, text.value⟩

/-- The receiver creates the records without their identifiers. -/
theorem createdStates_received (records : List NodeState) :
    createdStates (arrivingStates records) = records.map NodeState.withoutId := by
  simp [createdStates, arrivingStates, GossipStateResult.create, NodeState.create, NodeState.withoutId]

@[simp] theorem NodeState.withoutId_key (ns : NodeState) : ns.withoutId.key = ns.key := rfl

/-- The records asked for, as they arrive. -/
def arriving (sender : List NodeState) (requested : List GossipState) : List NodeState :=
  (requestedRecords sender requested).map NodeState.withoutId

/-- The records asked for have different types, and those the receiver lacks hold no PEER that is no
peer. -/
def CanTransfer (json : PeerJson) (sender receiver : List NodeState) (requested : List GossipState) : Prop :=
  ((requestedRecords sender requested).map NodeState.entityType).Nodup ∧
    ∀ state ∈ lacking receiver (arriving sender requested), ¬ BadPeer json state

instance (json : PeerJson) (sender receiver : List NodeState) (requested : List GossipState) :
    Decidable (CanTransfer json sender receiver requested) := inferInstanceAs (Decidable (_ ∧ _))

theorem mem_requestedRecords {ns : NodeState} :
    ns ∈ requestedRecords sender requested ↔ ns ∈ sender ∧ ns.key ∈ requestedKeys requested :=
  mem_getAllSpecificEntityTypes

/-- The SYNC_RESULT is decoded to what was sent, but for the ids. -/
theorem deserialize_syncResult (node : sending.node.IsRepresentable) (count : IsCount sender.length)
    (representable : ∀ ns ∈ sender, ns.IsRepresentable) :
    GossipPackage.deserialize (syncResult sending (requestedRecords sender requested)).serialize =
      some (some (.syncStateResult ⟨sending.node.url, sending.node.port⟩
        (arrivingStates (requestedRecords sender requested))), []) := by
  have fewer : (requestedRecords sender requested).length ≤ sender.length := List.length_filter_le _ _
  have counted : IsCount (requestedRecords sender requested).length := lt_of_le_of_lt fewer count
  have read := GossipPackage.reads_received (syncResult_representable node counted fun ns member =>
    representable ns (mem_requestedRecords.mp member).1)
  rw [read.eq_some, syncResult_received]

/-- What is lacking is added, unless there is a peer among it that cannot be read. -/
theorem applyStates_arriving (json : PeerJson) (receiver : List NodeState) {records : List NodeState}
    (distinct : (records.map NodeState.entityType).Nodup) :
    if ∃ state ∈ lacking receiver (records.map NodeState.withoutId), BadPeer json state then
      (applyStates json (namedKeys (arrivingStates records)) receiver (createdStates (arrivingStates records))).2 = false
    else applyStates json (namedKeys (arrivingStates records)) receiver (createdStates (arrivingStates records)) =
      (inMemory (receiver ++ lacking receiver (records.map NodeState.withoutId)), true) := by
  have types : ((records.map NodeState.withoutId).map NodeState.entityType).Nodup := by
    rw [List.map_map]
    exact distinct
  -- two records of the package with the same type are the same record
  have single : ∀ state ∈ records.map NodeState.withoutId, ∀ key ∈ (records.map NodeState.withoutId).map NodeState.key,
      key.1 = state.entityType → key = state.key := by
    intro state member key named type
    obtain ⟨other, otherMember, rfl⟩ := List.mem_map.mp named
    rw [List.inj_on_of_nodup_map types otherMember member type]
  rw [namedKeys, createdStates_received]
  exact applyStates_single (fun state member => List.mem_map_of_mem member) single types

/-- The receiver takes what it lacks of records with different types, without their ids. -/
theorem handle_arriving (header : GossipHeader) {records : List NodeState}
    (distinct : (records.map NodeState.entityType).Nodup)
    (peers : ∀ state ∈ lacking receiver (records.map NodeState.withoutId), ¬ BadPeer receiving.json state) :
    (inMemory receiver).handleGossipRequest receiving (.syncStateResult header (arrivingStates records)) =
      ⟨inMemory (receiver ++ lacking receiver (records.map NodeState.withoutId)), some none⟩ := by
  have applied := applyStates_arriving receiving.json receiver distinct
  rw [if_neg (by simpa using peers)] at applied
  rw [handle_syncStateResult, applied]
  rfl

/-- A lacking peer that cannot be read lets the handler throw. -/
theorem handle_arriving_throws (header : GossipHeader) {records : List NodeState} {state : NodeState}
    (distinct : (records.map NodeState.entityType).Nodup)
    (member : state ∈ lacking receiver (records.map NodeState.withoutId)) (bad : BadPeer receiving.json state) :
    ((inMemory receiver).handleGossipRequest receiving (.syncStateResult header (arrivingStates records))).answer =
      none := by
  have applied := applyStates_arriving receiving.json receiver distinct
  rw [if_pos ⟨state, member, bad⟩] at applied
  rw [handle_syncStateResult, applied]
  rfl

/-- A transfer comes to its end when the records asked for have different types and those the receiver
takes hold no PEER that is no peer; the receiver then has what it lacked of them, without their ids. -/
theorem transfer_eq_ite (receiving : GossipEnv) (receiver : List NodeState) (requested : List GossipState)
    (node : sending.node.IsRepresentable) (count : IsCount sender.length)
    (representable : ∀ ns ∈ sender, ns.IsRepresentable) :
    transfer sending receiving (inMemory sender) (inMemory receiver) requested =
      if CanTransfer receiving.json sender receiver requested then
        some (inMemory (receiver ++ lacking receiver (arriving sender requested)))
      else none := by
  rw [transfer, handleGossipSyncStateRequest_eq]
  by_cases distinct : ((requestedRecords sender requested).map NodeState.entityType).Nodup
  · simp only [if_pos distinct]
    by_cases none : requestedRecords sender requested = []
    · have comes : CanTransfer receiving.json sender receiver requested := by
        simp [CanTransfer, arriving, none, lacking]
      simp [comes, none, arriving, lacking]
    · simp only [if_neg none, receive_eq (deserialize_syncResult node count representable)]
      by_cases peers : ∀ state ∈ lacking receiver (arriving sender requested), ¬ BadPeer receiving.json state
      · rw [handle_arriving _ distinct peers, if_pos ⟨distinct, peers⟩]
        rfl
      · rw [if_neg fun comes : CanTransfer _ _ _ _ => peers comes.2]
        push Not at peers
        obtain ⟨state, member, bad⟩ := peers
        simp [handle_arriving_throws _ distinct member bad]
  · rw [if_neg distinct, if_neg fun comes : CanTransfer _ _ _ _ => distinct comes.1]

/-- What a transfer leaves. -/
theorem transfer_eq_some {final : NodeStateStore} (node : sending.node.IsRepresentable)
    (count : IsCount sender.length) (representable : ∀ ns ∈ sender, ns.IsRepresentable)
    (transferred : transfer sending receiving (inMemory sender) (inMemory receiver) requested = some final) :
    final = inMemory (receiver ++ lacking receiver (arriving sender requested)) := by
  rw [transfer_eq_ite receiving receiver requested node count representable] at transferred
  split at transferred
  · exact (Option.some.inj transferred).symm
  · cases transferred

/-- A record that was asked for and that the receiver lacked is there without its id. -/
theorem mem_transferred_iff {final : List NodeState} {r : NodeState} (node : sending.node.IsRepresentable)
    (count : IsCount sender.length) (representable : ∀ ns ∈ sender, ns.IsRepresentable) (held : r ∈ sender)
    (asked : r.key ∈ requestedKeys requested) (lacked : r.key ∉ receiver.map NodeState.key)
    (transferred : transfer sending receiving (inMemory sender) (inMemory receiver) requested = some (inMemory final)) :
    r.withoutId ∈ final ∧ (r ∈ final ↔ r.entityId = "") := by
  have final_eq : final = receiver ++ lacking receiver (arriving sender requested) := by
    simpa using transfer_eq_some node count representable transferred
  have arrived : r.withoutId ∈ final := by
    rw [final_eq, lacking]
    refine List.mem_append_right _ (List.mem_filter.mpr ⟨?_, by simpa using lacked⟩)
    exact List.mem_map_of_mem (mem_requestedRecords.mpr ⟨held, asked⟩)
  refine ⟨arrived, fun there => ?_, fun noId => ?_⟩
  · rw [final_eq, List.mem_append] at there
    rcases there with old | new
    · exact absurd (List.mem_map_of_mem old) lacked
    · obtain ⟨other, _, rfl⟩ := List.mem_map.mp (List.mem_filter.mp new).1
      rfl
  · rw [show r = r.withoutId by rw [NodeState.withoutId, ← noId]]
    exact arrived

/-- Requests answered one after the other. -/
def synchronise (sending receiving : GossipEnv) (sender : NodeStateStore) :
    NodeStateStore → List (List GossipState) → Option NodeStateStore
  | receiver, [] => some receiver
  | receiver, requested :: requests =>
    (transfer sending receiving sender receiver requested).bind fun next =>
      synchronise sending receiving sender next requests

/-- A synchronisation adds records of the sender without their ids. -/
theorem synchronise_withoutId {requests : List (List GossipState)} {final : List NodeState}
    (node : sending.node.IsRepresentable) (count : IsCount sender.length)
    (representable : ∀ ns ∈ sender, ns.IsRepresentable)
    (synchronised : synchronise sending receiving (inMemory sender) (inMemory receiver) requests = some (inMemory final)) :
    ∃ added, final = receiver ++ added ∧ ∀ ns ∈ added, ∃ r ∈ sender, ns = r.withoutId := by
  induction requests generalizing receiver with
  | nil =>
    obtain rfl : receiver = final := by simpa [synchronise] using synchronised
    exact ⟨[], by simp, by simp⟩
  | cons requested requests ih =>
    obtain ⟨next, transferred, rest⟩ := Option.bind_eq_some_iff.mp synchronised
    obtain rfl := transfer_eq_some node count representable transferred
    obtain ⟨added, rfl, ofSender⟩ := ih rest
    refine ⟨lacking receiver (arriving sender requested) ++ added, List.append_assoc .., fun ns member => ?_⟩
    rcases List.mem_append.mp member with now | later
    · obtain ⟨r, asked, rfl⟩ := List.mem_map.mp (List.mem_filter.mp now).1
      exact ⟨r, (mem_requestedRecords.mp asked).1, rfl⟩
    · exact ofSender ns later

open InMemoryNodeStateStore (getLastEntityId)

theorem getLastEntityId_eq_none {entityId : String} {nodeStates : List NodeState} :
    getLastEntityId entityId nodeStates = none ↔ ∀ ns ∈ nodeStates, ns.entityId ≠ entityId := by
  rw [getLastEntityId, find?_descending_eq_none]
  simp

/-- Two stores with the same records, no two of the same version, have the same last record of an id. -/
theorem getLastEntityId_congr {left right : List NodeState} (same : ∀ ns, ns ∈ left ↔ ns ∈ right)
    (versions : ∀ r ∈ right, ∀ r' ∈ right, r.entityVersion = r'.entityVersion → r = r') (entityId : String) :
    getLastEntityId entityId left = getLastEntityId entityId right := by
  cases found : getLastEntityId entityId right with
  | none =>
    rw [getLastEntityId_eq_none] at found ⊢
    exact fun ns member => found ns ((same ns).mp member)
  | some r =>
    have highest := isHighest_of_find? found
    obtain ⟨l, foundLeft, highestLeft⟩ := find?_descending_of_mem NodeState.entityVersion
      (fun ns => ns.entityId = entityId) ((same r).mpr highest.mem) highest.holds
    have le := highest.highest l ((same l).mp highestLeft.mem) highestLeft.holds
    have ge := highestLeft.highest r ((same r).mpr highest.mem) highest.holds
    rw [getLastEntityId, foundLeft, versions l ((same l).mp highestLeft.mem) r highest.mem (le_antisymm le ge)]

/-- A synchronisation changes no answer to a query by an id that is not empty. -/
theorem getLastEntityId_synchronised {requests : List (List GossipState)} {final : List NodeState} {entityId : String}
    (node : sending.node.IsRepresentable) (count : IsCount sender.length)
    (representable : ∀ ns ∈ sender, ns.IsRepresentable)
    (synchronised : synchronise sending receiving (inMemory sender) (inMemory receiver) requests = some (inMemory final))
    (isId : entityId ≠ "") : getLastEntityId entityId final = getLastEntityId entityId receiver := by
  obtain ⟨added, rfl, ofSender⟩ := synchronise_withoutId node count representable synchronised
  refine find?_descending_append fun ns member => ?_
  obtain ⟨r, _, rfl⟩ := ofSender ns member
  simpa [NodeState.withoutId] using isId.symm

/-- A node that had nothing and got every key of the sender has the records of a sender without ids. -/
theorem getLastEntityId_complete {requests : List (List GossipState)} {final : List NodeState}
    (node : sending.node.IsRepresentable) (count : IsCount sender.length)
    (representable : ∀ ns ∈ sender, ns.IsRepresentable)
    (synchronised : synchronise sending receiving (inMemory sender) (inMemory []) requests = some (inMemory final))
    (complete : ∀ r ∈ sender, r.key ∈ final.map NodeState.key)
    (versions : ∀ r ∈ sender, ∀ r' ∈ sender, r.entityVersion = r'.entityVersion → r = r')
    (noIds : ∀ r ∈ sender, r.entityId = "") (entityId : String) :
    getLastEntityId entityId final = getLastEntityId entityId sender := by
  obtain ⟨added, rfl, ofSender⟩ := synchronise_withoutId node count representable synchronised
  have noId : ∀ r ∈ sender, r.withoutId = r := fun r held => by rw [NodeState.withoutId, ← noIds r held]
  refine getLastEntityId_congr (fun ns => ⟨fun member => ?_, fun held => ?_⟩) versions entityId
  · obtain ⟨r, held, rfl⟩ := ofSender ns member
    rwa [noId r held]
  · obtain ⟨other, member, same⟩ := List.mem_map.mp (complete ns held)
    obtain ⟨r, rHeld, rfl⟩ := ofSender other member
    rw [noId r rHeld] at member same
    rwa [versions ns held r rHeld (congrArg Prod.snd same).symm]

/-- **A record crosses unchanged exactly when it has no id.** A request is answered and the answer
applied when the records asked for have different types and no PEER among them is no peer. A record
asked for that the receiver lacks then arrives as it is if and only if its `EntityId` is empty. After a
synchronisation the two nodes answer `GetLastEntityId` of an id alike only if they did so before it; a
node that had nothing and has got every key answers like the sender for every id only if no record of
the sender has one, and then does so if no two of them have the same version. -/
theorem gossip_keeps_record_iff (sending receiving : GossipEnv) (node : sending.node.IsRepresentable)
    {sender : List NodeState} (count : IsCount sender.length) (representable : ∀ ns ∈ sender, ns.IsRepresentable) :
    (∀ receiver requested,
      (transfer sending receiving (inMemory sender) (inMemory receiver) requested).isSome ↔
        CanTransfer receiving.json sender receiver requested) ∧
    (∀ receiver requested final, ∀ r ∈ sender, r.key ∈ requestedKeys requested →
      r.key ∉ receiver.map NodeState.key →
      transfer sending receiving (inMemory sender) (inMemory receiver) requested = some (inMemory final) →
      (r ∈ final ↔ r.entityId = "")) ∧
    (∀ receiver requests final,
      synchronise sending receiving (inMemory sender) (inMemory receiver) requests = some (inMemory final) →
      ∀ entityId ≠ "", (getLastEntityId entityId final = getLastEntityId entityId sender ↔
        getLastEntityId entityId receiver = getLastEntityId entityId sender)) ∧
    ∀ requests final,
      synchronise sending receiving (inMemory sender) (inMemory []) requests = some (inMemory final) →
      (∀ r ∈ sender, r.key ∈ final.map NodeState.key) →
      ((∀ entityId, getLastEntityId entityId final = getLastEntityId entityId sender) →
        ∀ r ∈ sender, r.entityId = "") ∧
      ((∀ r ∈ sender, ∀ r' ∈ sender, r.entityVersion = r'.entityVersion → r = r') →
        (∀ r ∈ sender, r.entityId = "") →
        ∀ entityId, getLastEntityId entityId final = getLastEntityId entityId sender) := by
  refine ⟨fun receiver requested => ?_, fun receiver requested final r held asked lacked transferred => ?_,
    fun receiver requests final synchronised entityId isId => ?_, fun requests final synchronised complete => ⟨?_, ?_⟩⟩
  · rw [transfer_eq_ite receiving receiver requested node count representable]
    split <;> simp [*]
  · exact (mem_transferred_iff node count representable held asked lacked transferred).2
  · rw [getLastEntityId_synchronised node count representable synchronised isId]
  · intro alike r held
    by_contra hasId
    have answer := alike r.entityId
    rw [getLastEntityId_synchronised node count representable synchronised hasId] at answer
    exact getLastEntityId_eq_none.mp answer.symm r held rfl
  · exact getLastEntityId_complete node count representable synchronised complete

/-- The surroundings of two nodes that synchronise. -/
def firstNode : GossipEnv := ⟨.plain, ⟨"localhost", 4000⟩, [], "id"⟩

def secondNode : GossipEnv := ⟨.plain, ⟨"localhost", 4001⟩, [], "id"⟩

/-- The URL and the port of the first node can be represented. -/
theorem firstNode_representable : firstNode.node.IsRepresentable := ⟨by decide, by decide⟩

/-- A client that one node stored is not found on the other under its id. -/
theorem client_loses_its_id :
    transfer firstNode secondNode (inMemory [⟨"CLIENT", "vpn_client", 0, "text"⟩]) (inMemory []) [⟨"CLIENT", 0⟩] =
      some (inMemory [⟨"CLIENT", "", 0, "text"⟩]) ∧
    (⟨"CLIENT", "vpn_client", 0, "text"⟩ : NodeState) ∉ ([⟨"CLIENT", "", 0, "text"⟩] : List NodeState) ∧
    getLastEntityId "vpn_client" [⟨"CLIENT", "", 0, "text"⟩] = none ∧
    getLastEntityId "vpn_client" [⟨"CLIENT", "vpn_client", 0, "text"⟩] = some ⟨"CLIENT", "vpn_client", 0, "text"⟩ := by
  refine ⟨(transfer_eq_ite _ _ _ firstNode_representable (by decide) ?_).trans (if_pos (by decide)),
    by decide, by decide, by decide⟩
  intro ns member
  obtain rfl := List.mem_singleton.mp member
  exact ⟨by decide, by decide, by decide, by decide⟩

/-- A record without an id crosses unchanged. -/
theorem record_without_id_crosses :
    let vpn : NodeState := ⟨"VPN", "", 0, "text"⟩
    transfer firstNode secondNode (inMemory [vpn]) (inMemory []) [⟨"VPN", 0⟩] = some (inMemory [vpn]) ∧
      (vpn ∈ [vpn] ↔ vpn.entityId = "") := by
  intro vpn
  have representable : ∀ ns ∈ [vpn], ns.IsRepresentable := by
    intro ns member
    obtain rfl := List.mem_singleton.mp member
    exact ⟨by decide, by decide, by decide, by decide⟩
  have transferred : transfer firstNode secondNode (inMemory [vpn]) (inMemory []) [⟨"VPN", 0⟩] =
      some (inMemory [vpn]) :=
    (transfer_eq_ite _ _ _ firstNode_representable (by decide) representable).trans (if_pos (by decide))
  refine ⟨transferred, ?_⟩
  exact (gossip_keeps_record_iff firstNode secondNode firstNode_representable (by decide) representable).2.1
    [] _ _ vpn (by decide) (by decide) (by decide) transferred

end

end FaasNet.RaftConsensus
