import FaasNet.RaftConsensus.GossipSync

/-!
# Two nodes that gossip

Node `a` asks node `b` for its heartbeat, compares the newest version of each type with its own, asks
for one version of every type it is behind on, and applies the answer; then it starts again, until it
has nothing to ask for. What a type is asked for depends on the newest versions only, so what one
exchange does is said by `newest` and `wanted`, and whether the exchanges end with all records of `b`
by a condition on each type.
-/

namespace FaasNet.RaftConsensus

open FaasNet.Lib NodeStateStore

/-! ## The newest version of a type -/

/-- The version of the last state of a type. -/
def newest (nodeStates : List NodeState) (entityType : String) : Option Int :=
  ((inMemory nodeStates).getLastEntityType entityType).map NodeState.entityVersion

section
variable {nodeStates : List NodeState} {entityType : String} {version : Int}

theorem exists_of_key_mem (held : (entityType, version) ∈ nodeStates.map NodeState.key) :
    ∃ ns ∈ nodeStates, ns.entityType = entityType ∧ ns.entityVersion = version := by
  obtain ⟨ns, member, key⟩ := List.mem_map.mp held
  exact ⟨ns, member, congrArg Prod.fst key, congrArg Prod.snd key⟩

theorem getLastEntityType_inMemory :
    (inMemory nodeStates).getLastEntityType entityType =
      (descending NodeState.entityVersion nodeStates).find? (·.entityType = entityType) :=
  rfl

/-- A type has no newest version if there is no record of it. -/
theorem newest_eq_none : newest nodeStates entityType = none ↔ ∀ ns ∈ nodeStates, ns.entityType ≠ entityType := by
  rw [newest, Option.map_eq_none_iff, getLastEntityType_inMemory, find?_descending_eq_none]
  simp

/-- The newest version is the greatest there is. -/
theorem newest_eq_some :
    newest nodeStates entityType = some version ↔
      (entityType, version) ∈ nodeStates.map NodeState.key ∧
        ∀ ns ∈ nodeStates, ns.entityType = entityType → ns.entityVersion ≤ version := by
  rw [newest, Option.map_eq_some_iff]
  constructor
  · rintro ⟨ns, found, rfl⟩
    have highest := isHighest_of_find? (getLastEntityType_inMemory ▸ found)
    have type : ns.entityType = entityType := by simpa using highest.holds
    exact ⟨List.mem_map.mpr ⟨ns, highest.mem, by rw [NodeState.key, type]⟩,
      fun other member same => highest.highest other member (by simpa using same)⟩
  · rintro ⟨present, above⟩
    obtain ⟨ns, member, type, ofVersion⟩ := exists_of_key_mem present
    obtain ⟨found, isFound, highest⟩ := find?_descending_of_mem NodeState.entityVersion
      (fun other => other.entityType = entityType) member (by simpa using type)
    refine ⟨found, isFound, le_antisymm (above found highest.mem (by simpa using highest.holds)) ?_⟩
    rw [← ofVersion]
    exact highest.highest ns member (by simpa using type)

/-- A type a node has a record of has a newest version, not below that of the record. -/
theorem newest_of_mem {ns : NodeState} (member : ns ∈ nodeStates) :
    ∃ version, newest nodeStates ns.entityType = some version ∧ ns.entityVersion ≤ version := by
  cases found : newest nodeStates ns.entityType with
  | none => exact absurd rfl (newest_eq_none.mp found ns member)
  | some version => exact ⟨version, rfl, (newest_eq_some.mp found).2 ns member rfl⟩

/-- The versions a heartbeat tells. -/
def lastVersions (nodeStates : List NodeState) : List (String × Int) :=
  (InMemoryNodeStateStore.getAllLastEntityTypes nodeStates).map fun s => (s.entityType, s.entityVersion)

/-- Each type is listed once. -/
theorem nodup_lastVersions (nodeStates : List NodeState) : ((lastVersions nodeStates).map (·.1)).Nodup := by
  rw [lastVersions, List.map_map]
  exact nodup_map_key_firstOfEach NodeState.entityType _

/-- A type is listed with its newest version. -/
theorem mem_lastVersions :
    (entityType, version) ∈ lastVersions nodeStates ↔ newest nodeStates entityType = some version := by
  rw [newest, Option.map_eq_some_iff, getLastEntityType_inMemory, lastVersions]
  simp only [List.mem_map, InMemoryNodeStateStore.getAllLastEntityTypes, mem_firstOfEach, Prod.mk.injEq]
  constructor
  · rintro ⟨ns, found, rfl, rfl⟩
    exact ⟨ns, found, rfl⟩
  · rintro ⟨ns, found, rfl⟩
    have type : ns.entityType = entityType := by simpa using List.find?_some found
    exact ⟨ns, by rw [type]; exact found, type, rfl⟩

end

/-! ## What a node asks for -/

/-- The version of a type that `a` asks `b` for: the next one, or the newest one of `b` if `a` has none. -/
def wanted (a b : List NodeState) (entityType : String) : Option Int :=
  match newest b entityType, newest a entityType with
  | none, _ => none
  | some theirs, none => some theirs
  | some theirs, some own => if own < theirs then some (own + 1) else none

/-- Pairs with new keys are added one by one. -/
theorem addToDictionary_eq {β : Type} {dictionary pairs : List (String × β)}
    (distinct : ((dictionary ++ pairs).map (·.1)).Nodup) :
    addToDictionary dictionary pairs = some (dictionary ++ pairs) := by
  induction pairs generalizing dictionary with
  | nil => simp [addToDictionary]
  | cons pair pairs ih =>
    have fresh : pair.1 ∉ dictionary.map (·.1) := by
      rw [List.map_append, List.nodup_append] at distinct
      exact fun present => distinct.2.2 _ present _ (by simp) rfl
    rw [addToDictionary, if_neg fresh, ih (by simpa using distinct), List.append_assoc, List.singleton_append]

/-- The states of a heartbeat. -/
def heartbeatStates (nodeStates : List NodeState) : List GossipState :=
  (lastVersions nodeStates).map fun kvp => ⟨kvp.1, kvp.2⟩

/-- A heartbeat is answered with the newest versions. -/
theorem handleGossipHeartbeatRequest_eq (env : GossipEnv) (nodeStates : List NodeState) :
    (inMemory nodeStates).handleGossipHeartbeatRequest env =
      some (some (.heartbeatResult ⟨env.node.url, env.node.port⟩ (heartbeatStates nodeStates))) := by
  have dictionary : toDictionary (lastVersions nodeStates) = some (lastVersions nodeStates) :=
    if_pos (nodup_lastVersions nodeStates)
  change (toDictionary (lastVersions nodeStates)).bind _ = _
  rw [dictionary]
  rfl

section
variable {a b : List NodeState}

/-- What `a` is behind on, with the version after its own. -/
def behind (a b : List NodeState) : List (String × Int) :=
  ((lastVersions a).filter fun own =>
    (heartbeatStates b).any fun st => st.entityType = own.1 ∧ own.2 < st.entityVersion).map
      fun own => (own.1, own.2 + 1)

/-- What `a` has no version of. -/
def unknownTypes (a b : List NodeState) : List (String × Int) :=
  (lastVersions b).filter fun theirs => !(lastVersions a).any fun own => own.1 = theirs.1

/-- Of a type that both have, the version after the own one is asked for. -/
theorem mem_behind {entityType : String} {version : Int} :
    (entityType, version) ∈ behind a b ↔
      ∃ own theirs, newest a entityType = some own ∧ newest b entityType = some theirs ∧ own < theirs ∧
        version = own + 1 := by
  simp only [behind, heartbeatStates, List.mem_map, List.mem_filter, List.any_eq_true, decide_eq_true_eq,
    Prod.mk.injEq, Prod.exists]
  constructor
  · rintro ⟨type, own, ⟨inA, _, ⟨type', theirs, inB, rfl⟩, rfl, less⟩, rfl, rfl⟩
    exact ⟨own, theirs, mem_lastVersions.mp inA, mem_lastVersions.mp inB, less, rfl⟩
  · rintro ⟨own, theirs, inA, inB, less, rfl⟩
    exact ⟨entityType, own, ⟨mem_lastVersions.mpr inA, _, ⟨entityType, theirs, mem_lastVersions.mpr inB, rfl⟩, rfl, less⟩,
      rfl, rfl⟩

/-- Of a type that is unknown, the newest version is asked for. -/
theorem mem_unknownTypes {entityType : String} {version : Int} :
    (entityType, version) ∈ unknownTypes a b ↔ newest b entityType = some version ∧ newest a entityType = none := by
  simp only [unknownTypes, List.mem_filter, mem_lastVersions, Bool.not_eq_true', List.any_eq_false, decide_eq_true_eq,
    Prod.forall]
  refine and_congr_right fun _ => ⟨fun none => ?_, fun none type own member same => ?_⟩
  · cases found : newest a entityType with
    | none => rfl
    | some own => exact absurd rfl (none entityType own found)
  · rw [← same, member] at none
    simp at none

/-- The dictionary of a SYNC_REQUEST. -/
def request (a b : List NodeState) : List (String × Int) := behind a b ++ unknownTypes a b

/-- What is asked for is what is wanted. -/
theorem mem_request {entityType : String} {version : Int} :
    (entityType, version) ∈ request a b ↔ wanted a b entityType = some version := by
  rw [request, List.mem_append, mem_behind, mem_unknownTypes, wanted]
  cases newest b entityType with
  | none => simp
  | some theirs =>
    cases newest a entityType with
    | none => simp
    | some own =>
      by_cases less : own < theirs
      · simp [less, eq_comm]
      · simp [less]

theorem nodup_behind : ((behind a b).map (·.1)).Nodup := by
  rw [behind, List.map_map]
  exact (nodup_lastVersions a).sublist (List.filter_sublist.map _)

/-- Nothing is asked for twice. -/
theorem nodup_request : ((request a b).map (·.1)).Nodup := by
  rw [request, List.map_append, List.nodup_append]
  refine ⟨nodup_behind, (nodup_lastVersions b).sublist (List.filter_sublist.map _), ?_⟩
  rintro type inBehind _ inUnknown rfl
  obtain ⟨⟨_, version⟩, member, rfl⟩ := List.mem_map.mp inBehind
  obtain ⟨⟨_, other⟩, memberOther, same⟩ := List.mem_map.mp inUnknown
  obtain ⟨own, _, known, _⟩ := mem_behind.mp member
  simp only at same
  rw [same, mem_unknownTypes, known] at memberOther
  simp at memberOther

/-- The handler asks for these versions. -/
theorem stateToBeSynced_eq : (inMemory a).stateToBeSynced (heartbeatStates b) = some (request a b) := by
  have dictionary : toDictionary (behind a b) = some (behind a b) := if_pos nodup_behind
  have own : behind a b = ((InMemoryNodeStateStore.getAllLastEntityTypes a).filter fun s =>
      (heartbeatStates b).any fun st => st.entityType = s.entityType ∧ s.entityVersion < st.entityVersion).map
        fun s => (s.entityType, s.entityVersion + 1) := by
    rw [behind, lastVersions, List.filter_map, List.map_map]
    rfl
  have theirs : unknownTypes a b = ((heartbeatStates b).filter fun rs =>
      !(InMemoryNodeStateStore.getAllLastEntityTypes a).any fun s => s.entityType = rs.entityType).map
        fun rs => (rs.entityType, rs.entityVersion) := by
    rw [heartbeatStates, List.filter_map, List.map_map, unknownTypes]
    simp [lastVersions, Function.comp_def]
  unfold stateToBeSynced
  simp only [getAllLastEntityTypes, ← own, ← theirs, dictionary]
  exact addToDictionary_eq nodup_request

/-! ## One exchange -/

/-- What comes of an exchange: a handler throws, there is nothing to ask for, or the asking node has
this store. -/
inductive Exchanged where
  | threw
  | upToDate
  | again (nodeStateStore : NodeStateStore)

/-- HEARTBEAT_REQUEST, HEARTBEAT_RESULT, SYNC_REQUEST and SYNC_RESULT between `a` and `b`. A package
comes as it is received at the other end. -/
def exchange (envA envB : GossipEnv) (a b : NodeStateStore) : Exchanged :=
  match (b.handleGossipRequest envB (GossipPackageRequestBuilder.heartbeat envA.node)).answer with
  | some (some heartbeatResult) =>
    match (a.handleGossipRequest envA heartbeatResult.received).answer with
    | none => .threw
    | some none => .upToDate
    | some (some syncRequest) =>
      match (b.handleGossipRequest envB syncRequest.received).answer with
      | none => .threw
      | some none => .again a
      | some (some syncResult) =>
        match a.handleGossipRequest envA syncResult.received with
        | ⟨_, none⟩ => .threw
        | ⟨store, some _⟩ => .again store
  | _ => .threw

/-- The records of `b` that `a` asks for. -/
def fetched (a b : List NodeState) : List NodeState :=
  b.filter fun ns => wanted a b ns.entityType = some ns.entityVersion

/-- What is fetched are the records with a version that is wanted. -/
theorem mem_fetched {ns : NodeState} :
    ns ∈ fetched a b ↔ ns ∈ b ∧ wanted a b ns.entityType = some ns.entityVersion := by
  simp [fetched]

/-- The other node sends just these. -/
theorem requestedRecords_request :
    requestedRecords b ((request a b).map fun kvp => ⟨kvp.1, kvp.2⟩) = fetched a b := by
  have keys : requestedKeys ((request a b).map fun kvp => ⟨kvp.1, kvp.2⟩) = request a b := by
    simp [requestedKeys, Function.comp_def]
  rw [requestedRecords, keys, fetched]
  refine List.filter_congr fun ns _ => ?_
  rw [Bool.eq_iff_iff, List.any_eq_true, decide_eq_true_eq, ← mem_request]
  constructor
  · rintro ⟨key, member, same⟩
    obtain ⟨type, version⟩ : key.1 = ns.entityType ∧ key.2 = ns.entityVersion := by simpa using same
    rwa [← type, ← version]
  · intro member
    exact ⟨_, member, by simp⟩

/-- A version asked for is newer than all that `a` has of its type. -/
theorem lt_of_wanted {entityType : String} {version own : Int} (asked : wanted a b entityType = some version)
    (held : (entityType, own) ∈ a.map NodeState.key) : own < version := by
  obtain ⟨ns, member, rfl, rfl⟩ := exists_of_key_mem held
  obtain ⟨newestOwn, found, le⟩ := newest_of_mem member
  rw [wanted, found] at asked
  cases theirs : newest b ns.entityType with
  | none => simp [theirs] at asked
  | some newestTheirs =>
    by_cases less : newestOwn < newestTheirs
    · have : newestOwn + 1 = version := by simpa [theirs, less] using asked
      omega
    · simp [theirs, less] at asked

/-- All that is fetched is lacking. -/
theorem lacking_fetched : lacking a ((fetched a b).map NodeState.withoutId) = (fetched a b).map NodeState.withoutId := by
  refine List.filter_eq_self.mpr fun ns member => ?_
  obtain ⟨r, inFetched, rfl⟩ := List.mem_map.mp member
  have asked := (mem_fetched.mp inFetched).2
  refine decide_eq_true fun present => ?_
  exact lt_irrefl _ (lt_of_wanted asked present)

/-- What `a` asks for can be answered and applied: no type has two records at the version asked for, and
no PEER of it is no peer. -/
structure Transferable (json : PeerJson) (a b : List NodeState) : Prop where
  distinct : ((fetched a b).map NodeState.entityType).Nodup
  peers : ∀ ns ∈ fetched a b, ¬ BadPeer json ns

variable {envA envB : GossipEnv}

/-- If nothing is wanted, the exchange ends. -/
theorem exchange_upToDate (nothing : request a b = []) :
    exchange envA envB (inMemory a) (inMemory b) = .upToDate := by
  simp [exchange, handleGossipRequest, GossipPackageRequestBuilder.heartbeat, handleGossipHeartbeatRequest_eq,
    GossipPackage.received, handleGossipHeartbeatResult, stateToBeSynced_eq, nothing]

/-- What follows the SYNC_REQUEST. -/
theorem exchange_of_request (something : request a b ≠ []) :
    exchange envA envB (inMemory a) (inMemory b) =
      if ((fetched a b).map NodeState.entityType).Nodup then
        if fetched a b = [] then .again (inMemory a)
        else
          match (inMemory a).handleGossipRequest envA
            (.syncStateResult ⟨envB.node.url, envB.node.port⟩ (arrivingStates (fetched a b))) with
          | ⟨_, none⟩ => .threw
          | ⟨store, some _⟩ => .again store
      else .threw := by
  have heartbeat : ((inMemory b).handleGossipRequest envB (GossipPackageRequestBuilder.heartbeat envA.node)).answer =
      some (some (.heartbeatResult ⟨envB.node.url, envB.node.port⟩ (heartbeatStates b))) :=
    handleGossipHeartbeatRequest_eq envB b
  have asks : ∀ header, ((inMemory a).handleGossipRequest envA
      (GossipPackage.heartbeatResult header (heartbeatStates b)).received).answer = some
      (some (.syncStateRequest ⟨envA.node.url, envA.node.port⟩ ((request a b).map fun kvp => ⟨kvp.1, kvp.2⟩))) := by
    intro header
    simp [GossipPackage.received, handleGossipRequest, handleGossipHeartbeatResult, stateToBeSynced_eq, something,
      GossipPackageRequestBuilder.sync]
  have answers : ∀ header, ((inMemory b).handleGossipRequest envB
      (GossipPackage.syncStateRequest header ((request a b).map fun kvp => ⟨kvp.1, kvp.2⟩)).received).answer =
      if ((fetched a b).map NodeState.entityType).Nodup then
        some (if fetched a b = [] then none else some (syncResult envB (fetched a b)))
      else none := by
    intro header
    rw [← requestedRecords_request (a := a)]
    exact handleGossipSyncStateRequest_eq
  simp only [exchange, heartbeat, asks, answers]
  by_cases distinct : ((fetched a b).map NodeState.entityType).Nodup
  · by_cases nothing : fetched a b = []
    · simp only [if_pos distinct, if_pos nothing]
    · simp only [if_pos distinct, if_neg nothing, syncResult_received]
  · simp only [if_neg distinct]

/-- Else what was fetched is added, without its identifiers. -/
theorem exchange_again (something : request a b ≠ []) (transferable : Transferable envA.json a b) :
    exchange envA envB (inMemory a) (inMemory b) = .again (inMemory (a ++ (fetched a b).map NodeState.withoutId)) := by
  rw [exchange_of_request something, if_pos transferable.distinct]
  by_cases nothing : fetched a b = []
  · simp [nothing]
  · have peers : ∀ state ∈ lacking a ((fetched a b).map NodeState.withoutId), ¬ BadPeer envA.json state := by
      rw [lacking_fetched]
      intro state member
      obtain ⟨ns, inFetched, rfl⟩ := List.mem_map.mp member
      exact transferable.peers ns inFetched
    rw [if_neg nothing, handle_arriving _ transferable.distinct peers, lacking_fetched]

/-- A record that cannot be transferred ends it with an exception. -/
theorem exchange_threw (something : request a b ≠ []) (stuck : ¬ Transferable envA.json a b) :
    exchange envA envB (inMemory a) (inMemory b) = .threw := by
  rw [exchange_of_request something]
  by_cases distinct : ((fetched a b).map NodeState.entityType).Nodup
  · obtain ⟨ns, inFetched, bad⟩ : ∃ ns ∈ fetched a b, BadPeer envA.json ns := by
      by_contra none
      exact stuck ⟨distinct, fun ns member isBad => none ⟨ns, member, isBad⟩⟩
    have member : ns.withoutId ∈ lacking a ((fetched a b).map NodeState.withoutId) := by
      rw [lacking_fetched]
      exact List.mem_map_of_mem inFetched
    have threw : ((inMemory a).handleGossipRequest envA (.syncStateResult ⟨envB.node.url, envB.node.port⟩
        (arrivingStates (fetched a b)))).answer = none := handle_arriving_throws _ distinct member bad
    rw [if_pos distinct, if_neg (List.ne_nil_of_mem inFetched)]
    generalize (inMemory a).handleGossipRequest envA _ = handled at threw ⊢
    obtain ⟨store, answer⟩ := handled
    rw [show answer = none from threw]
  · rw [if_neg distinct]

/-! ## What an exchange leaves -/

/-- `b` has exactly one record of this type and version, and it is no PEER that is no peer. -/
def Fetchable (json : PeerJson) (b : List NodeState) (key : String × Int) : Prop :=
  ∃ r, b.filter (fun ns => ns.key = key) = [r] ∧ ¬ BadPeer json r

theorem Fetchable.mem {json : PeerJson} {key : String × Int} (fetchable : Fetchable json b key) :
    ∃ r ∈ b, r.key = key := by
  obtain ⟨r, single, _⟩ := fetchable
  have member : r ∈ b.filter (fun ns => ns.key = key) := by rw [single]; simp
  exact ⟨r, (List.mem_filter.mp member).1, by simpa using (List.mem_filter.mp member).2⟩

/-- A type that is asked for is fetched as often as `b` has the version asked for. -/
theorem count_fetched {entityType : String} {version : Int} (asked : wanted a b entityType = some version) :
    ((fetched a b).map NodeState.entityType).count entityType =
      (b.filter fun ns => ns.key = (entityType, version)).length := by
  rw [List.count, List.countP_map, fetched, List.countP_filter, ← List.countP_eq_length_filter]
  refine List.countP_congr fun ns _ => ?_
  simp only [Function.comp_apply, beq_iff_eq, Bool.and_eq_true, decide_eq_true_eq, NodeState.key, Prod.mk.injEq]
  refine and_congr_right fun type => ?_
  rw [type, asked, Option.some_inj]
  exact eq_comm

/-- What is fetched in an exchange that goes on is fetchable. -/
theorem Transferable.fetchable {json : PeerJson} {ns : NodeState} (transferable : Transferable json a b)
    (inFetched : ns ∈ fetched a b) : Fetchable json b ns.key := by
  have asked := (mem_fetched.mp inFetched).2
  have once := List.nodup_iff_count_le_one.mp transferable.distinct ns.entityType
  rw [count_fetched asked] at once
  have member : ns ∈ b.filter fun other => other.key = ns.key :=
    List.mem_filter.mpr ⟨(mem_fetched.mp inFetched).1, by simp⟩
  obtain ⟨r, single⟩ : ∃ r, (b.filter fun other => other.key = ns.key) = [r] :=
    List.length_eq_one_iff.mp (le_antisymm once (List.length_pos_of_mem member))
  rw [single, List.mem_singleton] at member
  exact ⟨r, single, member ▸ transferable.peers ns inFetched⟩

/-- Records that can be fetched one by one can be transferred together. -/
theorem transferable_of_fetchable {json : PeerJson}
    (fetchable : ∀ entityType version, wanted a b entityType = some version → Fetchable json b (entityType, version)) :
    Transferable json a b := by
  constructor
  · refine List.nodup_iff_count_le_one.mpr fun entityType => ?_
    by_cases present : entityType ∈ (fetched a b).map NodeState.entityType
    · obtain ⟨ns, inFetched, rfl⟩ := List.mem_map.mp present
      have asked := (mem_fetched.mp inFetched).2
      obtain ⟨r, single, _⟩ := fetchable _ _ asked
      rw [count_fetched asked, single, List.length_singleton]
    · rw [List.count_eq_zero.mpr present]
      exact Nat.zero_le 1
  · intro ns inFetched
    obtain ⟨held, asked⟩ := mem_fetched.mp inFetched
    obtain ⟨r, single, good⟩ := fetchable _ _ asked
    have member : ns ∈ b.filter fun other => other.key = (ns.entityType, ns.entityVersion) :=
      List.mem_filter.mpr ⟨held, by simp [NodeState.key]⟩
    rw [single, List.mem_singleton] at member
    rwa [member]

/-- The store of `a` after an exchange. -/
def afterExchange (a b : List NodeState) : List NodeState := a ++ (fetched a b).map NodeState.withoutId

/-- An exchange adds the keys that are wanted. -/
theorem mem_keys_afterExchange {key : String × Int} :
    key ∈ (afterExchange a b).map NodeState.key ↔
      key ∈ a.map NodeState.key ∨ (key ∈ b.map NodeState.key ∧ wanted a b key.1 = some key.2) := by
  simp only [afterExchange, List.map_append, List.map_map, List.mem_append, List.mem_map, mem_fetched,
    Function.comp_apply, NodeState.withoutId_key]
  refine or_congr_right ⟨?_, ?_⟩
  · rintro ⟨ns, ⟨held, asked⟩, rfl⟩
    exact ⟨⟨ns, held, rfl⟩, asked⟩
  · rintro ⟨⟨ns, held, rfl⟩, asked⟩
    exact ⟨ns, ⟨held, asked⟩, rfl⟩

theorem newest_eq_some_keys {nodeStates : List NodeState} {entityType : String} {version : Int} :
    newest nodeStates entityType = some version ↔ (entityType, version) ∈ nodeStates.map NodeState.key ∧
      ∀ other, (entityType, other) ∈ nodeStates.map NodeState.key → other ≤ version := by
  rw [newest_eq_some]
  refine and_congr_right fun _ => ⟨fun above other member => ?_, fun above ns member type => ?_⟩
  · obtain ⟨ns, inside, type, rfl⟩ := exists_of_key_mem member
    exact above ns inside type
  · exact above _ (List.mem_map.mpr ⟨ns, member, by rw [NodeState.key, type]⟩)

/-- A type whose wanted version `b` has is at that version after the exchange. -/
theorem newest_afterExchange_fetched {entityType : String} {version : Int}
    (asked : wanted a b entityType = some version) (held : (entityType, version) ∈ b.map NodeState.key) :
    newest (afterExchange a b) entityType = some version := by
  rw [newest_eq_some_keys]
  refine ⟨mem_keys_afterExchange.mpr (.inr ⟨held, asked⟩), fun other member => ?_⟩
  rcases mem_keys_afterExchange.mp member with own | ⟨_, alsoAsked⟩
  · exact (lt_of_wanted asked own).le
  · exact (Option.some.inj (asked.symm.trans alsoAsked)).ge

/-- A type of which nothing is fetched stays as it is. -/
theorem keys_afterExchange_other {entityType : String}
    (not : ∀ version, wanted a b entityType = some version → (entityType, version) ∉ b.map NodeState.key) (version : Int) :
    (entityType, version) ∈ (afterExchange a b).map NodeState.key ↔ (entityType, version) ∈ a.map NodeState.key := by
  rw [mem_keys_afterExchange]
  exact ⟨fun member => member.elim id fun ⟨held, asked⟩ => absurd held (not version asked), .inl⟩

/-- The newest version depends on the keys alone. -/
theorem newest_congr {left right : List NodeState} {entityType : String}
    (same : ∀ version, (entityType, version) ∈ left.map NodeState.key ↔ (entityType, version) ∈ right.map NodeState.key) :
    newest left entityType = newest right entityType := by
  refine Option.ext fun version => ?_
  simp only [newest_eq_some_keys, same]

/-! ## When the exchanges end with all records -/

/-- What has to hold of a type for `a` to get all that `b` has of it. A node without the type gets the
newest record and no other; a node that has some gets the versions after its newest one, one by one. -/
def CatchesUp (json : PeerJson) (a b : List NodeState) (entityType : String) : Prop :=
  match newest b entityType, newest a entityType with
  | none, _ => True
  | some theirs, none =>
    Fetchable json b (entityType, theirs) ∧ ∀ version, (entityType, version) ∈ b.map NodeState.key → version = theirs
  | some theirs, some own =>
    (∀ version, own < version → version ≤ theirs → Fetchable json b (entityType, version)) ∧
      ∀ version ≤ own, (entityType, version) ∈ b.map NodeState.key → (entityType, version) ∈ a.map NodeState.key

section
variable {json : PeerJson} {entityType : String}

/-- So does whether a type catches up. -/
theorem catchesUp_congr {left right : List NodeState}
    (same : ∀ version, (entityType, version) ∈ left.map NodeState.key ↔ (entityType, version) ∈ right.map NodeState.key) :
    CatchesUp json left b entityType ↔ CatchesUp json right b entityType := by
  simp only [CatchesUp, newest_congr same, same]

/-- Nothing is asked for if nothing is wanted. -/
theorem request_eq_nil : request a b = [] ↔ ∀ entityType, wanted a b entityType = none := by
  rw [List.eq_nil_iff_forall_not_mem]
  constructor
  · intro nothing entityType
    refine Option.eq_none_iff_forall_not_mem.mpr fun version asked => nothing _ (mem_request.mpr asked)
  · rintro nothing ⟨entityType, version⟩ member
    rw [mem_request, nothing] at member
    simp at member

/-- Nothing is wanted of a type that the other does not have newer. -/
theorem wanted_eq_none : wanted a b entityType = none ↔
    newest b entityType = none ∨ ∃ theirs own, newest b entityType = some theirs ∧ newest a entityType = some own ∧
      theirs ≤ own := by
  rw [wanted]
  cases newest b entityType <;> cases newest a entityType <;> simp

/-- A condition on a node that is up to date is that it has all records. -/
theorem catchesUp_of_upToDate (nothing : request a b = []) (all : ∀ ns ∈ b, ns.key ∈ a.map NodeState.key) :
    CatchesUp json a b entityType := by
  rcases wanted_eq_none.mp (request_eq_nil.mp nothing entityType) with none | ⟨theirs, own, foundB, foundA, le⟩
  · simp [CatchesUp, none]
  · simp only [CatchesUp, foundB, foundA]
    refine ⟨fun version less above => by omega, fun version _ held => ?_⟩
    obtain ⟨ns, member, key⟩ := List.mem_map.mp held
    exact key ▸ all ns member

/-- If nothing is wanted and each type catches up, all keys are there. -/
theorem all_of_upToDate (nothing : request a b = []) (catchesUp : ∀ entityType, CatchesUp json a b entityType) :
    ∀ ns ∈ b, ns.key ∈ a.map NodeState.key := by
  intro ns member
  obtain ⟨newestTheirs, found, below⟩ := newest_of_mem member
  rcases wanted_eq_none.mp (request_eq_nil.mp nothing ns.entityType) with none | ⟨theirs, own, foundB, foundA, le⟩
  · simp [found] at none
  · obtain rfl : newestTheirs = theirs := Option.some.inj (found.symm.trans foundB)
    have condition := catchesUp ns.entityType
    simp only [CatchesUp, foundB, foundA] at condition
    exact condition.2 ns.entityVersion (below.trans le) (List.mem_map_of_mem member)

/-- The version wanted of a type that meets the condition can be fetched. -/
theorem CatchesUp.fetchable {version : Int} (catchesUp : CatchesUp json a b entityType)
    (asked : wanted a b entityType = some version) : Fetchable json b (entityType, version) := by
  rw [wanted] at asked
  rw [CatchesUp] at catchesUp
  cases foundB : newest b entityType with
  | none => simp [foundB] at asked
  | some theirs =>
    cases foundA : newest a entityType with
    | none =>
      simp only [foundB, foundA, Option.some_inj] at asked catchesUp
      exact asked ▸ catchesUp.1
    | some own =>
      simp only [foundB, foundA] at asked catchesUp
      by_cases less : own < theirs
      · have next : own + 1 = version := by simpa [less] using asked
        exact catchesUp.1 version (by omega) (by omega)
      · simp [less] at asked

/-- The condition is kept by an exchange. -/
theorem CatchesUp.afterExchange (catchesUp : CatchesUp json a b entityType) :
    CatchesUp json (afterExchange a b) b entityType := by
  cases asked : wanted a b entityType with
  | none => exact (catchesUp_congr (keys_afterExchange_other (by simp [asked]))).mpr catchesUp
  | some next =>
    obtain ⟨r, heldB, key⟩ := (catchesUp.fetchable asked).mem
    have held : (entityType, next) ∈ b.map NodeState.key := List.mem_map.mpr ⟨r, heldB, key⟩
    have nowNewest := newest_afterExchange_fetched asked held
    have fetchedNow := mem_keys_afterExchange.mpr (.inr ⟨held, asked⟩)
    rw [wanted] at asked
    rw [CatchesUp] at catchesUp ⊢
    cases foundB : newest b entityType with
    | none => trivial
    | some theirs =>
      cases foundA : newest a entityType with
      | none =>
        simp only [foundB, foundA, Option.some_inj, nowNewest] at asked catchesUp ⊢
        subst asked
        exact ⟨fun version less above => by omega, fun version _ member => catchesUp.2 version member ▸ fetchedNow⟩
      | some own =>
        simp only [foundB, foundA, nowNewest] at asked catchesUp ⊢
        by_cases less : own < theirs
        · obtain rfl : own + 1 = next := by simpa [less] using asked
          refine ⟨fun version above below => catchesUp.1 version (by omega) below, fun version below member => ?_⟩
          rcases eq_or_lt_of_le below with rfl | earlier
          · exact fetchedNow
          · exact mem_keys_afterExchange.mpr (.inl (catchesUp.2 version (by omega) member))
        · simp [less] at asked

/-- The condition after an exchange that did not throw gives the condition before it. -/
theorem catchesUp_before (transferable : Transferable json a b) (after : CatchesUp json (afterExchange a b) b entityType) :
    CatchesUp json a b entityType := by
  by_cases got : ∃ next, wanted a b entityType = some next ∧ (entityType, next) ∈ b.map NodeState.key
  · obtain ⟨next, asked, held⟩ := got
    have nowNewest := newest_afterExchange_fetched asked held
    have fetchable : Fetchable json b (entityType, next) := by
      obtain ⟨r, heldB, rfl, rfl⟩ := exists_of_key_mem held
      exact transferable.fetchable (mem_fetched.mpr ⟨heldB, asked⟩)
    -- of what is there now, only the fetched version was not there before
    have before : ∀ version, (entityType, version) ∈ (afterExchange a b).map NodeState.key →
        (entityType, version) ∈ a.map NodeState.key ∨ version = next := by
      intro version member
      refine (mem_keys_afterExchange.mp member).imp_right fun ⟨_, alsoAsked⟩ => ?_
      exact Option.some.inj (alsoAsked.symm.trans asked)
    rw [wanted] at asked
    rw [CatchesUp] at after ⊢
    cases foundB : newest b entityType with
    | none => trivial
    | some theirs =>
      cases foundA : newest a entityType with
      | none =>
        simp only [foundB, foundA, Option.some_inj, nowNewest] at asked after ⊢
        subst asked
        refine ⟨fetchable, fun version member => ?_⟩
        have below := (newest_eq_some_keys.mp foundB).2 version member
        rcases before version (after.2 version below member) with own | same
        · obtain ⟨ns, inside, type, _⟩ := exists_of_key_mem own
          exact absurd type (newest_eq_none.mp foundA ns inside)
        · exact same
      | some own =>
        simp only [foundB, foundA, nowNewest] at asked after ⊢
        by_cases less : own < theirs
        · obtain rfl : own + 1 = next := by simpa [less] using asked
          refine ⟨fun version above below => ?_, fun version below member => ?_⟩
          · rcases eq_or_lt_of_le (Int.add_one_le_of_lt above) with rfl | later
            · exact fetchable
            · exact after.1 version later below
          · rcases before version (after.2 version (by omega) member) with owned | same
            · exact owned
            · omega
        · simp [less] at asked
  · have same := keys_afterExchange_other fun version asked held => got ⟨version, asked, held⟩
    exact (catchesUp_congr same).mp after

/-- A record of `b` that is newer than all that `a` has of its type. -/
def isAhead (a : List NodeState) (ns : NodeState) : Bool :=
  match newest a ns.entityType with
  | none => true
  | some own => own < ns.entityVersion

/-- An exchange gets no type further behind. -/
theorem isAhead_of_afterExchange {ns : NodeState} (ahead : isAhead (afterExchange a b) ns) : isAhead a ns := by
  by_cases got : ∃ next, wanted a b ns.entityType = some next ∧ (ns.entityType, next) ∈ b.map NodeState.key
  · obtain ⟨next, asked, held⟩ := got
    rw [isAhead, newest_afterExchange_fetched asked held] at ahead
    have newer : next < ns.entityVersion := by simpa using ahead
    cases foundA : newest a ns.entityType with
    | none => simp [isAhead, foundA]
    | some own =>
      have less := lt_of_wanted asked (newest_eq_some_keys.mp foundA).1
      simp only [isAhead, foundA, decide_eq_true_eq]
      omega
  · have same := newest_congr (keys_afterExchange_other fun version asked held => got ⟨version, asked, held⟩)
    rwa [isAhead, same] at ahead

/-- An exchange that gets what it asks for leaves fewer records ahead. -/
theorem ahead_decreases (something : request a b ≠ []) (catchesUp : ∀ entityType, CatchesUp json a b entityType) :
    (b.filter (isAhead (afterExchange a b))).length < (b.filter (isAhead a)).length := by
  obtain ⟨⟨type, next⟩, member⟩ := List.exists_mem_of_ne_nil _ something
  have asked := mem_request.mp member
  obtain ⟨r, held, rfl, rfl⟩ := ((catchesUp type).fetchable asked).mem
  have wasAhead : isAhead a r := by
    cases foundA : newest a r.entityType with
    | none => simp [isAhead, foundA]
    | some own =>
      simpa [isAhead, foundA] using lt_of_wanted asked (newest_eq_some_keys.mp foundA).1
  have notAhead : ¬ isAhead (afterExchange a b) r := by
    rw [isAhead, newest_afterExchange_fetched asked (List.mem_map_of_mem held)]
    simp
  have sublist : (b.filter (isAhead (afterExchange a b))).Sublist (b.filter (isAhead a)) :=
    List.monotone_filter_right b fun ns => isAhead_of_afterExchange
  refine lt_of_le_of_ne sublist.length_le fun same => notAhead ?_
  have inside : r ∈ b.filter (isAhead a) := List.mem_filter.mpr ⟨held, wasAhead⟩
  rw [← sublist.eq_of_length same] at inside
  exact (List.mem_filter.mp inside).2

end

end

/-! ## The whole synchronisation -/

/-- Exchanges with `b`, from one store of `a` to another, until `a` has nothing to ask for. -/
inductive Synchronises (envA envB : GossipEnv) (b : NodeStateStore) : NodeStateStore → NodeStateStore → Prop where
  | upToDate {a : NodeStateStore} (done : exchange envA envB a b = .upToDate) : Synchronises envA envB b a a
  | again {a next final : NodeStateStore} (step : exchange envA envB a b = .again next)
      (rest : Synchronises envA envB b next final) : Synchronises envA envB b a final

section
variable {envA envB : GossipEnv} {a b : List NodeState}

/-- If each type catches up, the exchanges end with all keys. -/
theorem synchronises_of_catchesUp (catchesUp : ∀ entityType, CatchesUp envA.json a b entityType) :
    ∃ final, Synchronises envA envB (inMemory b) (inMemory a) (inMemory final) ∧
      ∀ ns ∈ b, ns.key ∈ final.map NodeState.key := by
  induction ahead : (b.filter (isAhead a)).length using Nat.strongRecOn generalizing a with
  | ind ahead ih =>
    by_cases nothing : request a b = []
    · exact ⟨a, .upToDate (exchange_upToDate nothing), all_of_upToDate nothing catchesUp⟩
    · have transferable : Transferable envA.json a b :=
        transferable_of_fetchable fun type version asked => (catchesUp type).fetchable asked
      have fewer := ahead_decreases nothing catchesUp
      obtain ⟨final, rest, all⟩ := ih _ (ahead ▸ fewer) (fun type => (catchesUp type).afterExchange) rfl
      exact ⟨final, .again (exchange_again nothing transferable) rest, all⟩

/-- If the exchanges end with all keys, each type catches up. -/
theorem catchesUp_of_synchronises {store result : NodeStateStore} {final : List NodeState}
    (synchronises : Synchronises envA envB (inMemory b) store result) (start : store = inMemory a)
    (finish : result = inMemory final) (all : ∀ ns ∈ b, ns.key ∈ final.map NodeState.key) (entityType : String) :
    CatchesUp envA.json a b entityType := by
  induction synchronises generalizing a with
  | upToDate done =>
    subst start
    obtain rfl : a = final := by simpa using finish
    by_cases nothing : request a b = []
    · exact catchesUp_of_upToDate nothing all
    · by_cases transferable : Transferable envA.json a b
      · simp [exchange_again nothing transferable] at done
      · simp [exchange_threw nothing transferable] at done
  | again step rest ih =>
    subst start
    by_cases nothing : request a b = []
    · simp [exchange_upToDate nothing] at step
    · by_cases transferable : Transferable envA.json a b
      · obtain rfl : inMemory (afterExchange a b) = _ :=
          Exchanged.again.inj ((exchange_again nothing transferable).symm.trans step)
        exact catchesUp_before transferable (ih rfl finish)
      · simp [exchange_threw nothing transferable] at step

/-- **Gossip converges exactly for types that can be caught up on.** The exchanges of `a` with `b` end
without an exception and leave `a` with every type and version that `b` holds if and only if, for each
type: `b` has one record of it if `a` has none; else `a` has all that `b` has up to its own newest
version, and `b` has one record of each version from there on to its newest. -/
theorem gossip_converges_iff (envA envB : GossipEnv) (a b : List NodeState) :
    (∃ final, Synchronises envA envB (inMemory b) (inMemory a) (inMemory final) ∧
      ∀ ns ∈ b, ns.key ∈ final.map NodeState.key) ↔
      ∀ entityType, CatchesUp envA.json a b entityType := by
  constructor
  · rintro ⟨final, synchronises, all⟩ entityType
    exact catchesUp_of_synchronises synchronises rfl rfl all entityType
  · exact synchronises_of_catchesUp

/-- What `InMemoryPeerStore` holds after the peers of two topics were added. -/
def twoPeers : List NodeState :=
  [⟨"PEER", "first id", 0, PeerJson.plain.serialize "first"⟩, ⟨"PEER", "second id", 1, PeerJson.plain.serialize "second"⟩]

/-- A node that has no peers gets only the last one of a node that added two, and then asks for nothing. -/
theorem first_peer_is_never_fetched :
    ((inMemory []).addPeer .plain "first id" "first").addPeer .plain "second id" "second" = inMemory twoPeers ∧
    ¬ ∃ final, Synchronises firstNode secondNode (inMemory twoPeers) (inMemory []) (inMemory final) ∧
      ∀ ns ∈ twoPeers, ns.key ∈ final.map NodeState.key := by
  refine ⟨rfl, ?_⟩
  rintro ⟨final, synchronises, all⟩
  have condition := catchesUp_of_synchronises synchronises rfl rfl all "PEER"
  have newestTheirs : newest twoPeers "PEER" = some 1 := by decide
  have newestOwn : newest [] "PEER" = none := by decide
  simp only [CatchesUp, newestTheirs, newestOwn] at condition
  exact absurd (condition.2 0 (by decide)) (by decide)

end

end FaasNet.RaftConsensus
