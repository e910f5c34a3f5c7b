import Mathlib
import FaasNet.RaftConsensus.Stores

/-!
# The two stores of node states

`RockDBNodeStateStore` puts a record into five databases and answers every query from one of them;
`InMemoryNodeStateStore` keeps all records in a bag and searches it. The first keeps the record written
last, the second finds one of the highest version. They agree on a history of `Add` calls when these
are the same record for every query, and when no database is shared: the folder of the type
`Versions` is the folder of the last records by type.

A database is a map from strings to records, found by its folder. The database `Versions` is left out,
as nothing reads it. A bag promises no order, so the in-memory store is any order of the history.
-/

namespace FaasNet.RaftConsensus

open FaasNet.Lib NodeStateStore

/-! ## `RockDBNodeStateStore` -/

/-- The databases: the records by folder and key. -/
structure RockDBNodeStateStore where
  databases : AList fun _ : String × String => NodeState := ∅

namespace RockDBNodeStateStore

/-- The folder of identifiers. -/
def getFolderPathByLastIdValue : String := "Ids"

/-- The folder of types. -/
def getFolderPathByTypeValue : String := "TypeVersions"

/-- The folder of the versions of a type. -/
def getFolderPathByHistoryTypeVersionValue (type : String) : String := "HistoryTypeVersions" ++ type

/-- The folder of the entities of a type. -/
def getFolderPathByTypeVersion (type : String) : String := "Type" ++ type

/-- Where `StoreEntityId` and `StoreEntityType` put a record, in this order. -/
def addresses (nodeState : NodeState) : List (String × String) :=
  [(getFolderPathByLastIdValue, nodeState.entityId),
    (getFolderPathByTypeValue, nodeState.entityType),
    (getFolderPathByHistoryTypeVersionValue nodeState.entityType, toString nodeState.entityVersion),
    (getFolderPathByTypeVersion nodeState.entityType, nodeState.entityId)]

/-- A state is put at an address. -/
def put (store : RockDBNodeStateStore) (address : String × String) (nodeState : NodeState) : RockDBNodeStateStore :=
  ⟨store.databases.insert address nodeState⟩

/-- The state that was put at an address last. -/
def get (store : RockDBNodeStateStore) (folder key : String) : Option NodeState := store.databases.lookup (folder, key)

/-- The records an iterator over a database yields. -/
def values (store : RockDBNodeStateStore) (folder : String) : List NodeState :=
  store.databases.entries.filterMap fun entry => if entry.1.1 = folder then some entry.2 else none

/-- A state is put at each of its addresses. -/
def add (store : RockDBNodeStateStore) (nodeState : NodeState) : RockDBNodeStateStore :=
  (addresses nodeState).foldl (fun store address => store.put address nodeState) store

section
variable (store : RockDBNodeStateStore)

/-- The entity in the folder of types. -/
def getLastEntityType (entityType : String) : Option NodeState := store.get getFolderPathByTypeValue entityType

/-- The entity in the folder of identifiers. -/
def getLastEntityId (entityId : String) : Option NodeState := store.get getFolderPathByLastIdValue entityId

/-- All entities in the folder of types. -/
def getAllLastEntityTypes : List NodeState := store.values getFolderPathByTypeValue

/-- `GetAllLastEntityTypes(entityType)`. -/
def getAllLastEntityTypesOf (entityType : String) : List NodeState := store.values (getFolderPathByTypeVersion entityType)

/-- The entities in the folders of versions. -/
def getAllSpecificEntityTypes (parameter : List (String × Int)) : List NodeState :=
  (parameter.map (·.1)).eraseDups.flatMap fun entityType =>
    (parameter.filter (·.1 = entityType)).filterMap fun record =>
      store.get (getFolderPathByHistoryTypeVersionValue entityType) (toString record.2)

end

/-- The store after a sequence of `Add` calls. -/
def ofHistory (history : List NodeState) : RockDBNodeStateStore := history.foldl add {}

/-! ## What the databases hold -/

/-- What is put is found at its address only. -/
theorem get_put (store : RockDBNodeStateStore) (address : String × String) (nodeState : NodeState) (folder key : String) :
    (store.put address nodeState).get folder key =
      if (folder, key) = address then some nodeState else store.get folder key := by
  unfold get put
  split
  next same => rw [same, AList.lookup_insert]
  next other => rw [AList.lookup_insert_ne other]

/-- What is added is found at its addresses only. -/
theorem get_add (store : RockDBNodeStateStore) (nodeState : NodeState) (folder key : String) :
    (store.add nodeState).get folder key =
      if (folder, key) ∈ addresses nodeState then some nodeState else store.get folder key := by
  unfold add
  induction addresses nodeState generalizing store with
  | nil => simp
  | cons address rest ih =>
    rw [List.foldl_cons, ih, get_put]
    by_cases later : (folder, key) ∈ rest
    · simp [later]
    · by_cases now : (folder, key) = address <;> simp [later, now]

/-- A database holds the record written last. -/
theorem get_ofHistory (history : List NodeState) (folder key : String) :
    (ofHistory history).get folder key = lastWith (fun ns => (folder, key) ∈ addresses ns) history := by
  induction history using List.reverseRecOn with
  | nil => rfl
  | append_singleton history nodeState ih =>
    rw [ofHistory, List.foldl_concat, get_add, lastWith_concat]
    simp only [decide_eq_true_eq]
    exact if_congr Iff.rfl rfl ih

theorem mem_values {store : RockDBNodeStateStore} {folder : String} {ns : NodeState} :
    ns ∈ store.values folder ↔ ∃ key, store.get folder key = some ns := by
  simp only [values, get, List.mem_filterMap, Option.ite_none_right_eq_some, Option.some_inj]
  constructor
  · rintro ⟨⟨⟨_, key⟩, value⟩, member, rfl, rfl⟩
    exact ⟨key, AList.mem_lookup_iff.mpr member⟩
  · rintro ⟨key, found⟩
    exact ⟨⟨(folder, key), ns⟩, AList.mem_lookup_iff.mp found, rfl, rfl⟩

/-! ## Which records share a database -/

/-- The first letter of a folder. -/
def initial (folder : String) : Option Char := folder.toList.head?

theorem initial_append {text : String} {letter : Char} (first : initial text = some letter) (type : String) :
    initial (text ++ type) = some letter := by
  unfold initial at *
  rw [String.toList_append, List.head?_append, first]
  exact Option.some_or

@[simp] theorem initial_lastIdValue : initial getFolderPathByLastIdValue = some 'I' := rfl

@[simp] theorem initial_typeValue : initial getFolderPathByTypeValue = some 'T' := rfl

@[simp] theorem initial_historyTypeVersionValue (type : String) :
    initial (getFolderPathByHistoryTypeVersionValue type) = some 'H' := initial_append (by simp [initial]) type

@[simp] theorem initial_typeVersion (type : String) : initial (getFolderPathByTypeVersion type) = some 'T' :=
  initial_append (by simp [initial]) type

theorem ne_of_initial {left right : String} (different : initial left ≠ initial right) : left ≠ right :=
  fun same => different (congrArg initial same)

theorem typeVersion_inj {type other : String} :
    getFolderPathByTypeVersion type = getFolderPathByTypeVersion other ↔ type = other :=
  String.append_right_inj "Type"

theorem historyTypeVersionValue_inj {type other : String} :
    getFolderPathByHistoryTypeVersionValue type = getFolderPathByHistoryTypeVersionValue other ↔ type = other :=
  String.append_right_inj "HistoryTypeVersions"

/-- The one folder that serves two purposes. -/
theorem typeValue_eq : getFolderPathByTypeValue = getFolderPathByTypeVersion "Versions" := by
  simp [getFolderPathByTypeValue, getFolderPathByTypeVersion]

section
variable {ns : NodeState} {type key : String} {version : Int}

/-- By identifier a state is found under its own. -/
theorem mem_addresses_id : (getFolderPathByLastIdValue, key) ∈ addresses ns ↔ ns.entityId = key := by
  have typeValue : getFolderPathByLastIdValue ≠ getFolderPathByTypeValue := ne_of_initial (by simp)
  have history : getFolderPathByLastIdValue ≠ getFolderPathByHistoryTypeVersionValue ns.entityType :=
    ne_of_initial (by simp)
  have typeVersion : getFolderPathByLastIdValue ≠ getFolderPathByTypeVersion ns.entityType := ne_of_initial (by simp)
  simp only [addresses, List.mem_cons, Prod.mk.injEq, typeValue, history, typeVersion, List.not_mem_nil, true_and,
    false_and, or_false]
  exact eq_comm

/-- By version a state is found under its own type and version. -/
theorem mem_addresses_history :
    (getFolderPathByHistoryTypeVersionValue type, toString version) ∈ addresses ns ↔
      ns.entityType = type ∧ ns.entityVersion = version := by
  have lastId : getFolderPathByHistoryTypeVersionValue type ≠ getFolderPathByLastIdValue := ne_of_initial (by simp)
  have typeValue : getFolderPathByHistoryTypeVersionValue type ≠ getFolderPathByTypeValue := ne_of_initial (by simp)
  have typeVersion : getFolderPathByHistoryTypeVersionValue type ≠ getFolderPathByTypeVersion ns.entityType :=
    ne_of_initial (by simp)
  have versions : toString version = toString ns.entityVersion ↔ version = ns.entityVersion := Int.repr_inj
  simp only [addresses, List.mem_cons, Prod.mk.injEq, lastId, typeValue, typeVersion, historyTypeVersionValue_inj,
    versions, List.not_mem_nil, false_and, or_false, false_or]
  exact and_congr eq_comm eq_comm

/-- In the folder of a type a state is found under its identifier, or by an accident of names. -/
theorem mem_addresses_typeVersion :
    (getFolderPathByTypeVersion type, key) ∈ addresses ns ↔
      (ns.entityType = type ∧ ns.entityId = key) ∨ (type = "Versions" ∧ ns.entityType = key) := by
  have lastId : getFolderPathByTypeVersion type ≠ getFolderPathByLastIdValue := ne_of_initial (by simp)
  have history : getFolderPathByTypeVersion type ≠ getFolderPathByHistoryTypeVersionValue ns.entityType :=
    ne_of_initial (by simp)
  simp only [addresses, typeValue_eq, List.mem_cons, Prod.mk.injEq, lastId, history, typeVersion_inj, List.not_mem_nil,
    false_and, or_false, false_or]
  rw [or_comm]
  simp only [eq_comm]

/-- By type a state is found under its own, or by an accident of names. -/
theorem mem_addresses_typeValue :
    (getFolderPathByTypeValue, key) ∈ addresses ns ↔
      ns.entityType = key ∨ (ns.entityType = "Versions" ∧ ns.entityId = key) := by
  rw [typeValue_eq, mem_addresses_typeVersion, or_comm]
  simp

end

/-! ## The answers, by what was written last -/

/-- The records kept under a key of the database of the last records by type. -/
def writtenByType (key : String) (ns : NodeState) : Bool :=
  ns.entityType = key ∨ (ns.entityType = "Versions" ∧ ns.entityId = key)

/-- The records kept under a key of the database of a type. -/
def writtenByTypeVersion (type key : String) (ns : NodeState) : Bool :=
  (ns.entityType = type ∧ ns.entityId = key) ∨ (type = "Versions" ∧ ns.entityType = key)

section
variable (history : List NodeState)

/-- By type the last state that was written there is found. -/
theorem get_typeValue (key : String) :
    (ofHistory history).get getFolderPathByTypeValue key = lastWith (writtenByType key) history := by
  rw [get_ofHistory]
  congr 1
  funext ns
  simp only [mem_addresses_typeValue, writtenByType]

theorem get_typeVersion (type key : String) :
    (ofHistory history).get (getFolderPathByTypeVersion type) key =
      lastWith (writtenByTypeVersion type key) history := by
  rw [get_ofHistory]
  congr 1
  funext ns
  simp only [mem_addresses_typeVersion, writtenByTypeVersion]

theorem get_lastIdValue (key : String) :
    (ofHistory history).get getFolderPathByLastIdValue key = lastWith (fun ns => ns.entityId = key) history := by
  rw [get_ofHistory]
  congr 1
  funext ns
  simp only [mem_addresses_id]

theorem get_history (type : String) (version : Int) :
    (ofHistory history).get (getFolderPathByHistoryTypeVersionValue type) (toString version) =
      lastWith (fun ns => ns.entityType = type ∧ ns.entityVersion = version) history := by
  rw [get_ofHistory]
  congr 1
  funext ns
  simp only [mem_addresses_history]

/-- Specific versions are looked up one by one. -/
theorem mem_getAllSpecificEntityTypes {store : RockDBNodeStateStore} {parameter : List (String × Int)} {ns : NodeState} :
    ns ∈ store.getAllSpecificEntityTypes parameter ↔
      ∃ record ∈ parameter, store.get (getFolderPathByHistoryTypeVersionValue record.1) (toString record.2) = some ns := by
  simp only [getAllSpecificEntityTypes, List.mem_flatMap, List.mem_eraseDups, List.mem_map, List.mem_filterMap,
    List.mem_filter, decide_eq_true_eq]
  constructor
  · rintro ⟨_, _, record, ⟨member, rfl⟩, found⟩
    exact ⟨record, member, found⟩
  · rintro ⟨record, member, found⟩
    exact ⟨record.1, ⟨record, member, rfl⟩, record, ⟨member, rfl⟩, found⟩

end

end RockDBNodeStateStore

/-! ## When the stores agree -/

/-- The queries both stores answer. -/
inductive NodeStateQuery where
  | getLastEntityType (entityType : String)
  | getLastEntityId (entityId : String)
  | getAllLastEntityTypes
  | getAllLastEntityTypesOf (entityType : String)
  | getAllSpecificEntityTypes (parameter : List (String × Int))

namespace NodeStateQuery

open RockDBNodeStateStore

/-- The same answer, as a set of records where a collection is returned. -/
def Agree (bag : List NodeState) (store : RockDBNodeStateStore) : NodeStateQuery → Prop
  | getLastEntityType entityType =>
    (NodeStateStore.inMemory bag).getLastEntityType entityType = store.getLastEntityType entityType
  | getLastEntityId entityId => InMemoryNodeStateStore.getLastEntityId entityId bag = store.getLastEntityId entityId
  | getAllLastEntityTypes =>
    ∀ ns, ns ∈ InMemoryNodeStateStore.getAllLastEntityTypes bag ↔ ns ∈ store.getAllLastEntityTypes
  | getAllLastEntityTypesOf entityType =>
    ∀ ns, ns ∈ InMemoryNodeStateStore.getAllLastEntityTypesOf entityType bag ↔
      ns ∈ store.getAllLastEntityTypesOf entityType
  | getAllSpecificEntityTypes parameter =>
    ∀ ns, ns ∈ (NodeStateStore.inMemory bag).getAllSpecificEntityTypes parameter ↔
      ns ∈ store.getAllSpecificEntityTypes parameter

/-- The record added last, under each key the query reads, is one that is asked for and has the
highest version of these; and a version of a type is one record. -/
def AddedInOrder (history : List NodeState) : NodeStateQuery → Prop
  | getLastEntityType entityType =>
    LastIsHighest NodeState.entityVersion (writtenByType entityType) (fun ns => ns.entityType = entityType) history
  | getLastEntityId entityId =>
    LastIsHighest NodeState.entityVersion (fun ns => ns.entityId = entityId) (fun ns => ns.entityId = entityId) history
  | getAllLastEntityTypes =>
    ∀ key last, lastWith (writtenByType key) history = some last →
      LastOfEachIsHighest NodeState.entityVersion NodeState.entityType (fun _ => true) history key last
  | getAllLastEntityTypesOf entityType =>
    ∀ key last, lastWith (writtenByTypeVersion entityType key) history = some last →
      LastOfEachIsHighest NodeState.entityVersion NodeState.entityId (fun ns => ns.entityType = entityType) history
        key last
  | getAllSpecificEntityTypes parameter =>
    ∀ r ∈ history, ∀ r' ∈ history, (r.entityType, r.entityVersion) ∈ parameter →
      r.entityType = r'.entityType → r.entityVersion = r'.entityVersion → r = r'

section
variable (history : List NodeState)

/-- The stores agree on the newest entity of a type exactly if its states were added in order. -/
theorem agree_lastEntityType_iff (entityType : String) :
    (∀ bag, bag.Perm history → (getLastEntityType entityType).Agree bag (ofHistory history)) ↔
      (getLastEntityType entityType).AddedInOrder history := by
  simp only [Agree, NodeStateStore.getLastEntityType, RockDBNodeStateStore.getLastEntityType, get_typeValue]
  refine find?_eq_lastWith_iff fun ns _ asks => ?_
  simp only [decide_eq_true_eq] at asks
  simp [writtenByType, asks]

/-- The stores agree on an identifier exactly if its states were added in order. -/
theorem agree_lastEntityId_iff (entityId : String) :
    (∀ bag, bag.Perm history → (getLastEntityId entityId).Agree bag (ofHistory history)) ↔
      (getLastEntityId entityId).AddedInOrder history := by
  simp only [Agree, InMemoryNodeStateStore.getLastEntityId, RockDBNodeStateStore.getLastEntityId, get_lastIdValue]
  exact find?_eq_lastWith_iff fun ns _ asks => asks

/-- The stores agree on all newest entities exactly if the states were added in order. -/
theorem agree_allLastEntityTypes_iff :
    (∀ bag, bag.Perm history → getAllLastEntityTypes.Agree bag (ofHistory history)) ↔
      getAllLastEntityTypes.AddedInOrder history := by
  have all (bag : List NodeState) : InMemoryNodeStateStore.getAllLastEntityTypes bag =
      firstOfEach NodeState.entityType (descending NodeState.entityVersion (bag.filter fun _ => true)) := by
    rw [List.filter_true]
    rfl
  simp only [Agree, all, RockDBNodeStateStore.getAllLastEntityTypes, mem_values, get_typeValue]
  constructor
  · intro agree key last isLast
    refine lastOfEachIsHighest_of_agree ?_ agree isLast
    -- A record kept under another key than its type is of the type `Versions`.
    intro ns other _ written elsewhere ns' _ written'
    simp only [writtenByType, decide_eq_true_eq] at written written'
    obtain ⟨versions, -⟩ := written.resolve_left elsewhere
    exact written'.elim id fun shared => shared.1.trans versions.symm
  · intro inOrder bag perm
    exact agree_of_lastOfEachIsHighest (fun ns _ => by simp [writtenByType]) inOrder perm

/-- The stores agree on the entities of a type exactly if their states were added in order. -/
theorem agree_allLastEntityTypesOf_iff (entityType : String) :
    (∀ bag, bag.Perm history → (getAllLastEntityTypesOf entityType).Agree bag (ofHistory history)) ↔
      (getAllLastEntityTypesOf entityType).AddedInOrder history := by
  simp only [Agree, InMemoryNodeStateStore.getAllLastEntityTypesOf, RockDBNodeStateStore.getAllLastEntityTypesOf,
    mem_values, get_typeVersion]
  constructor
  · intro agree key last isLast
    refine lastOfEachIsHighest_of_agree ?_ agree isLast
    -- A record kept under another key than its id is kept under `Versions`.
    intro ns other asks written elsewhere ns' asks' written'
    simp only [writtenByTypeVersion, decide_eq_true_eq] at asks asks' written written'
    obtain ⟨versions, rfl⟩ := written.resolve_left fun own => elsewhere own.2
    refine written'.elim And.right fun shared => absurd ?_ elsewhere
    rw [← shared.2, asks, asks']
  · intro inOrder bag perm
    refine agree_of_lastOfEachIsHighest (fun ns asks => ?_) inOrder perm
    simp only [decide_eq_true_eq] at asks
    simp [writtenByTypeVersion, asks]

/-- The stores agree on specific versions exactly if their states were added in order. -/
theorem agree_allSpecificEntityTypes_iff (parameter : List (String × Int)) :
    (∀ bag, bag.Perm history → (getAllSpecificEntityTypes parameter).Agree bag (ofHistory history)) ↔
      (getAllSpecificEntityTypes parameter).AddedInOrder history := by
  have inMemory (bag : List NodeState) (ns : NodeState) :
      ns ∈ (NodeStateStore.inMemory bag).getAllSpecificEntityTypes parameter ↔
        ns ∈ bag ∧ (ns.entityType, ns.entityVersion) ∈ parameter := by
    simp [NodeStateStore.getAllSpecificEntityTypes]
  have rocksDB (ns : NodeState) :
      ns ∈ (ofHistory history).getAllSpecificEntityTypes parameter ↔
        (ns.entityType, ns.entityVersion) ∈ parameter ∧
          lastWith (fun r => r.entityType = ns.entityType ∧ r.entityVersion = ns.entityVersion) history = some ns := by
    simp only [RockDBNodeStateStore.mem_getAllSpecificEntityTypes, get_history]
    constructor
    · rintro ⟨⟨type, version⟩, member, isLast⟩
      obtain ⟨rfl, rfl⟩ : ns.entityType = type ∧ ns.entityVersion = version := by simpa using holds_of_lastWith isLast
      exact ⟨member, isLast⟩
    · rintro ⟨member, isLast⟩
      exact ⟨_, member, isLast⟩
  simp only [Agree, AddedInOrder, inMemory, rocksDB]
  constructor
  · intro agree r inside r' inside' member types versions
    have isLast := ((agree history (.refl history) r).mp ⟨inside, member⟩).2
    rw [types, versions] at member isLast
    have isLast' := ((agree history (.refl history) r').mp ⟨inside', member⟩).2
    exact Option.some_inj.mp (isLast.symm.trans isLast')
  · intro oneRecord bag perm ns
    constructor
    · rintro ⟨inside, member⟩
      have inside := perm.subset inside
      obtain ⟨last, isLast⟩ := lastWith_of_mem
        (p := fun r => r.entityType = ns.entityType ∧ r.entityVersion = ns.entityVersion) inside (by simp)
      obtain ⟨types, versions⟩ : last.entityType = ns.entityType ∧ last.entityVersion = ns.entityVersion := by
        simpa using holds_of_lastWith isLast
      rw [oneRecord ns inside last (mem_of_lastWith isLast) member types.symm versions.symm] at isLast ⊢
      exact ⟨by rwa [types, versions], isLast⟩
    · rintro ⟨member, isLast⟩
      exact ⟨perm.symm.subset (mem_of_lastWith isLast), member⟩

end

end NodeStateQuery

/-- **The stores answer alike exactly when records are added in order.** -/
theorem stores_agree_iff (history : List NodeState) (query : NodeStateQuery) :
    (∀ bag, bag.Perm history → query.Agree bag (.ofHistory history)) ↔ query.AddedInOrder history := by
  cases query with
  | getLastEntityType entityType => exact NodeStateQuery.agree_lastEntityType_iff history entityType
  | getLastEntityId entityId => exact NodeStateQuery.agree_lastEntityId_iff history entityId
  | getAllLastEntityTypes => exact NodeStateQuery.agree_allLastEntityTypes_iff history
  | getAllLastEntityTypesOf entityType => exact NodeStateQuery.agree_allLastEntityTypesOf_iff history entityType
  | getAllSpecificEntityTypes parameter => exact NodeStateQuery.agree_allSpecificEntityTypes_iff history parameter

/-- A client whose older version is added after the newer one, as gossip may do, is found in its newer
version in one store and in its older one in the other. -/
theorem older_version_added_last :
    ¬ ∀ (history bag : List NodeState) (query : NodeStateQuery), bag.Perm history →
      query.Agree bag (.ofHistory history) := by
  intro agree
  let newer : NodeState := ⟨"CLIENT", "id", 1, "newer"⟩
  let older : NodeState := ⟨"CLIENT", "id", 0, "older"⟩
  have same := agree [newer, older] [newer, older] (.getLastEntityId "id") (.refl _)
  have inMemory : InMemoryNodeStateStore.getLastEntityId "id" [newer, older] = some newer := by decide
  have rocksDB : (RockDBNodeStateStore.ofHistory [newer, older]).getLastEntityId "id" = some older := by
    rw [RockDBNodeStateStore.getLastEntityId, RockDBNodeStateStore.get_lastIdValue]
    decide
  have equal : newer = older := Option.some_inj.mp (inMemory.symm.trans (Eq.trans same rocksDB))
  exact absurd equal (by decide)

end FaasNet.RaftConsensus
