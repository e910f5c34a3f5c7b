import FaasNet.RaftConsensus.NodeStateStores

/-!
# Updates of node states by gossip

A `GossipUpdateNodeStateRequest` names an entity, but its handler looks for the last record of the type. If there is
one, the handler calls `Update` on it: in memory this is the stored record itself, whatever entity it is of, and with
RocksDB it is a copy that nobody keeps. Otherwise a record with the version 0 is added.
-/

namespace FaasNet.RaftConsensus

open FaasNet.Lib

/-- A store with all its queries. -/
inductive INodeStateStore where
  | inMemory (nodeStates : List NodeState)
  | rockDB (store : RockDBNodeStateStore)

namespace INodeStateStore

/-- A state is added. -/
def add (nodeState : NodeState) : INodeStateStore → INodeStateStore
  | inMemory nodeStates => inMemory (nodeStates ++ [nodeState])
  | rockDB store => rockDB (store.add nodeState)

/-- The newest entity of a type. -/
def getLastEntityType (entityType : String) : INodeStateStore → Option NodeState
  | inMemory nodeStates => (NodeStateStore.inMemory nodeStates).getLastEntityType entityType
  | rockDB store => store.getLastEntityType entityType

/-- The newest entity with an identifier. -/
def getLastEntityId (entityId : String) : INodeStateStore → Option NodeState
  | inMemory nodeStates => InMemoryNodeStateStore.getLastEntityId entityId nodeStates
  | rockDB store => store.getLastEntityId entityId

/-- The entities with these types and versions. -/
def getAllSpecificEntityTypes (parameter : List (String × Int)) : INodeStateStore → List NodeState
  | inMemory nodeStates => (NodeStateStore.inMemory nodeStates).getAllSpecificEntityTypes parameter
  | rockDB store => store.getAllSpecificEntityTypes parameter

/-- `nodeState.Update(value)` on what a query returned: the object in the bag, or one that was read from a database. -/
def updateState (nodeState : NodeState) (value : String) : INodeStateStore → INodeStateStore
  | inMemory nodeStates => inMemory (nodeStates.set (nodeStates.idxOf nodeState) (nodeState.update value))
  | rockDB store => rockDB store

/-- `HandleGossipRequest(GossipUpdateNodeStateRequest)`. -/
def handleGossipUpdateNodeStateRequest (entityType entityId value : String) (store : INodeStateStore) :
    INodeStateStore :=
  match store.getLastEntityType entityType with
  | none => store.add (NodeState.create entityType entityId value)
  | some nodeState => store.updateState nodeState value

/-- The store after these `Add` calls. A bag keeps them in no order that is promised. -/
inductive Holds : INodeStateStore → List NodeState → Prop
  | inMemory {nodeStates history : List NodeState} (perm : nodeStates.Perm history) : Holds (inMemory nodeStates) history
  | rockDB (history : List NodeState) : Holds (rockDB (.ofHistory history)) history

/-- The update of an entity reaches this entity and nothing else. -/
structure ReachesEntity (history : List NodeState) (before after : INodeStateStore) (entityId value : String) : Prop where
  reached : ∃ last, after.getLastEntityId entityId = some last ∧ last.value = value ∧
    ∀ previous ∈ history, previous.entityId = entityId → previous.entityVersion < last.entityVersion
  others : ∀ other, other ≠ entityId →
    (after.getLastEntityId other).map NodeState.value = (before.getLastEntityId other).map NodeState.value
  records : ∀ entityType version, (before.getAllSpecificEntityTypes [(entityType, version)]).Subperm
    (after.getAllSpecificEntityTypes [(entityType, version)])

/-- The records that `GetLastEntityType` finds under a type. -/
def filedUnder (entityType : String) (nodeState : NodeState) : INodeStateStore → Bool
  | inMemory _ => nodeState.entityType = entityType
  | rockDB _ => RockDBNodeStateStore.writtenByType entityType nodeState

section
variable {store : INodeStateStore} {history : List NodeState} {entityType entityId value : String}

theorem Holds.getLastEntityType_eq_none (holds : store.Holds history) :
    store.getLastEntityType entityType = none ↔ ∀ r ∈ history, store.filedUnder entityType r = false := by
  cases holds with
  | inMemory perm =>
    simp only [getLastEntityType, NodeStateStore.getLastEntityType, filedUnder]
    refine find?_descending_eq_none.trans ?_
    simp only [Bool.not_eq_true, perm.mem_iff]
  | rockDB =>
    simp only [getLastEntityType, RockDBNodeStateStore.getLastEntityType, RockDBNodeStateStore.get_typeValue, filedUnder,
      lastWith_eq_none, Bool.not_eq_true]

/-- What is found by an id is a record of it that was added. -/
theorem Holds.getLastEntityId (holds : store.Holds history) {last : NodeState}
    (found : store.getLastEntityId entityId = some last) : last ∈ history ∧ last.entityId = entityId := by
  cases holds with
  | inMemory perm =>
    have highest := isHighest_of_find? found
    exact ⟨perm.subset highest.mem, of_decide_eq_true highest.holds⟩
  | rockDB =>
    simp only [INodeStateStore.getLastEntityId, RockDBNodeStateStore.getLastEntityId,
      RockDBNodeStateStore.get_lastIdValue] at found
    have holds := holds_of_lastWith found
    exact ⟨mem_of_lastWith found, by simpa using holds⟩

theorem Holds.add (holds : store.Holds history) (nodeState : NodeState) :
    (store.add nodeState).Holds (history ++ [nodeState]) := by
  cases holds with
  | inMemory perm => exact .inMemory (perm.append_right [nodeState])
  | rockDB =>
    have added := Holds.rockDB (history ++ [nodeState])
    rwa [RockDBNodeStateStore.ofHistory, List.foldl_concat] at added

theorem rockDB_add (history : List NodeState) (nodeState : NodeState) :
    (rockDB (.ofHistory history)).add nodeState = rockDB (.ofHistory (history ++ [nodeState])) := by
  rw [RockDBNodeStateStore.ofHistory, RockDBNodeStateStore.ofHistory, List.foldl_concat]
  rfl

theorem Holds.getLastEntityId_add_other (holds : store.Holds history) {nodeState : NodeState}
    (other : nodeState.entityId ≠ entityId) :
    (store.add nodeState).getLastEntityId entityId = store.getLastEntityId entityId := by
  cases holds with
  | inMemory perm =>
    refine (find?_descending_concat NodeState.entityVersion _ _ nodeState).trans ?_
    rw [if_neg (by simpa using other)]
    rfl
  | rockDB =>
    rw [rockDB_add]
    simp only [INodeStateStore.getLastEntityId, RockDBNodeStateStore.getLastEntityId, RockDBNodeStateStore.get_lastIdValue]
    rw [lastWith_concat, if_neg (by simpa using other)]

/-- A record with a higher version than all of its id is the last one of it. -/
theorem Holds.getLastEntityId_add (holds : store.Holds history) {nodeState : NodeState} (own : nodeState.entityId = entityId)
    (above : ∀ r ∈ history, r.entityId = entityId → r.entityVersion < nodeState.entityVersion) :
    (store.add nodeState).getLastEntityId entityId = some nodeState := by
  cases holds with
  | @inMemory nodeStates _ perm =>
    refine (find?_descending_concat NodeState.entityVersion _ _ nodeState).trans ?_
    rw [if_pos (by simpa using own)]
    cases found : (descending NodeState.entityVersion nodeStates).find? (·.entityId = entityId) with
    | none => rfl
    | some last =>
      obtain ⟨member, sameId⟩ := (Holds.inMemory perm).getLastEntityId found
      rw [Option.elim_some, if_pos (above last member sameId)]
  | rockDB =>
    rw [rockDB_add]
    simp only [INodeStateStore.getLastEntityId, RockDBNodeStateStore.getLastEntityId, RockDBNodeStateStore.get_lastIdValue]
    rw [lastWith_concat, if_pos (by simpa using own)]

theorem rockDB_getAllSpecificEntityTypes (databases : RockDBNodeStateStore) (version : Int) :
    (rockDB databases).getAllSpecificEntityTypes [(entityType, version)] =
      (databases.get (RockDBNodeStateStore.getFolderPathByHistoryTypeVersionValue entityType) (toString version)).toList := by
  have once : [entityType].eraseDups = [entityType] := by simp [List.eraseDups_cons]
  simp only [getAllSpecificEntityTypes, RockDBNodeStateStore.getAllSpecificEntityTypes, List.map_cons, List.map_nil, once,
    List.flatMap_singleton, decide_true, List.filter_cons_of_pos, List.filter_nil, List.filterMap_cons, List.filterMap_nil]
  cases databases.get (RockDBNodeStateStore.getFolderPathByHistoryTypeVersionValue entityType) (toString version) <;> rfl

/-- A record of a new type leaves the records of every type and version as they are. -/
theorem Holds.records_add (holds : store.Holds history) {nodeState : NodeState}
    (unfiled : ∀ r ∈ history, store.filedUnder nodeState.entityType r = false) (entityType : String) (version : Int) :
    (store.getAllSpecificEntityTypes [(entityType, version)]).Subperm
      ((store.add nodeState).getAllSpecificEntityTypes [(entityType, version)]) := by
  cases holds with
  | inMemory perm =>
    refine List.Sublist.subperm ?_
    simp only [INodeStateStore.add, getAllSpecificEntityTypes, NodeStateStore.getAllSpecificEntityTypes, List.filter_append]
    exact List.sublist_append_left _ _
  | rockDB =>
    rw [rockDB_add, rockDB_getAllSpecificEntityTypes, rockDB_getAllSpecificEntityTypes,
      RockDBNodeStateStore.get_history, RockDBNodeStateStore.get_history, lastWith_concat]
    split
    next same =>
      obtain ⟨rfl, -⟩ := of_decide_eq_true same
      have none : lastWith (fun ns => decide (ns.entityType = nodeState.entityType ∧ ns.entityVersion = version)) history =
          none := by
        refine lastWith_eq_none.mpr fun r member typed => ?_
        have filed := unfiled r member
        simp [filedUnder, RockDBNodeStateStore.writtenByType, (of_decide_eq_true typed).1] at filed
      rw [none]
      exact List.nil_subperm
    next => exact List.Subperm.refl _

/-- An object that was updated in the bag is no longer the record it was. -/
theorem not_records_updateState {nodeStates : List NodeState} {nodeState : NodeState} (member : nodeState ∈ nodeStates) :
    ¬ ((inMemory nodeStates).getAllSpecificEntityTypes [(nodeState.entityType, nodeState.entityVersion)]).Subperm
      (((inMemory nodeStates).updateState nodeState value).getAllSpecificEntityTypes
        [(nodeState.entityType, nodeState.entityVersion)]) := by
  intro kept
  have position : nodeStates.idxOf nodeState < nodeStates.length := List.idxOf_lt_length_of_mem member
  obtain ⟨before, after, split, -, replaced⟩ : ∃ before after, nodeStates = before ++ nodeStates[_] :: after ∧ _ ∧
      nodeStates.set _ (nodeState.update value) = before ++ nodeState.update value :: after := List.exists_of_set position
  rw [List.getElem_idxOf] at split
  have fewer := kept.length_le
  simp only [updateState, getAllSpecificEntityTypes, NodeStateStore.getAllSpecificEntityTypes, replaced] at fewer
  rw [split] at fewer
  simp [List.filter_append, (nodeState.update_entityVersion value).symm] at fewer

/-- **An update reaches its entity and nothing else** exactly if no record of the type is stored yet, and none of the
entity whose version is not negative. -/
theorem reachesEntity_iff (holds : store.Holds history) :
    ReachesEntity history store (store.handleGossipUpdateNodeStateRequest entityType entityId value) entityId value ↔
      (∀ r ∈ history, store.filedUnder entityType r = false) ∧
        ∀ r ∈ history, r.entityId = entityId → r.entityVersion < 0 := by
  rw [← holds.getLastEntityType_eq_none]
  cases typed : store.getLastEntityType entityType with
  | none =>
    have unfiled := holds.getLastEntityType_eq_none.mp typed
    simp only [handleGossipUpdateNodeStateRequest, typed, true_and]
    constructor
    · rintro ⟨⟨last, found, -, above⟩, -, -⟩ previous member own
      -- what is found is the new record: no other is above itself
      obtain ⟨stored, named⟩ := (holds.add _).getLastEntityId found
      rcases List.mem_append.mp stored with old | new
      · exact absurd (above last old named) (lt_irrefl _)
      · rw [List.mem_singleton.mp new] at above
        exact above previous member own
    · intro below
      exact ⟨⟨_, holds.getLastEntityId_add rfl below, rfl, below⟩,
        fun other different => congrArg _ (holds.getLastEntityId_add_other different.symm), holds.records_add unfiled⟩
  | some nodeState =>
    simp only [handleGossipUpdateNodeStateRequest, typed, reduceCtorEq, false_and, iff_false]
    intro reaches
    cases holds with
    | inMemory =>
      have stored : nodeState ∈ _ := (isHighest_of_find? typed).mem
      exact not_records_updateState stored (reaches.records _ _)
    | rockDB =>
      obtain ⟨last, found, -, above⟩ := reaches.reached
      obtain ⟨stored, named⟩ := (Holds.rockDB history).getLastEntityId found
      exact absurd (above last stored named) (lt_irrefl _)

end

/-- The first entity of a type is reached. -/
theorem reachesEntity_newType :
    ReachesEntity [⟨"VPN", "vpn", 0, "x"⟩] (rockDB (.ofHistory [⟨"VPN", "vpn", 0, "x"⟩]))
      ((rockDB (.ofHistory [⟨"VPN", "vpn", 0, "x"⟩])).handleGossipUpdateNodeStateRequest "CLIENT" "client" "y")
      "client" "y" :=
  (reachesEntity_iff (.rockDB _)).mpr ⟨by decide, by decide⟩

/-- The second entity of a type gets nothing, and the first one gets its value. -/
theorem not_reachesEntity_second :
    ¬ ReachesEntity [⟨"VPN", "first", 0, "x"⟩] (inMemory [⟨"VPN", "first", 0, "x"⟩])
        ((inMemory [⟨"VPN", "first", 0, "x"⟩]).handleGossipUpdateNodeStateRequest "VPN" "second" "y") "second" "y" ∧
      ((inMemory [⟨"VPN", "first", 0, "x"⟩]).handleGossipUpdateNodeStateRequest "VPN" "second" "y").getLastEntityId "first" =
        some ⟨"VPN", "first", 1, "y"⟩ := by
  refine ⟨fun reaches => ?_, by decide⟩
  obtain ⟨last, found, -⟩ := reaches.reached
  cases found

end INodeStateStore

end FaasNet.RaftConsensus
