import Mathlib.Data.List.AList
import Mathlib.Data.List.Sort
import FaasNet.Lib.Ranked
import FaasNet.RaftConsensus.Messages

/-!
# The stores of a node

`INodeStateStore` and `IPeerInfoStore`, each kept in memory or in RocksDB, and `InMemoryPeerStore`,
which writes into the first. A bag is the list of its items. A RocksDB database is an association
list with distinct keys; what `JsonSerializer` writes of a `NodeState` or a `PeerInfo` it reads
back, so a database holds the records themselves.
-/

namespace FaasNet.RaftConsensus

open FaasNet.Lib

/-! ## Node states -/

/-- `NodeState`. A `GossipStateResult` has the same fields. -/
structure NodeState where
  entityType : String
  entityId : String
  entityVersion : Int
  value : String
  deriving DecidableEq, Repr

/-- A new entity. -/
def NodeState.create (entityType entityId value : String) (version : Int := 0) : NodeState :=
  ⟨entityType, entityId, version, value⟩

/-- `NodeState.Update`. The version is an `int`, which wraps. -/
def NodeState.update (nodeState : NodeState) (value : String) : NodeState :=
  { nodeState with value := value, entityVersion := Int.bmod (nodeState.entityVersion + 1) 0x100000000 }

theorem NodeState.update_entityVersion (nodeState : NodeState) (value : String) :
    (nodeState.update value).entityVersion ≠ nodeState.entityVersion := by
  intro same
  have wrapped := congrArg (· % (0x100000000 : Int)) same
  simp only [update] at wrapped
  rw [show (0x100000000 : Int) = ((0x100000000 : Nat) : Int) from rfl, Int.bmod_emod] at wrapped
  omega

namespace StandardEntityTypes

/-- The type of peers. -/
def peer : String := "PEER"

end StandardEntityTypes

/-- The databases of `RockDBNodeStateStore` the node reads: the state of each type added last, and
for each type the states by their version. -/
structure RockDBNodeStates where
  typeVersions : AList fun _ : String => NodeState := ∅
  historyTypeVersions : AList fun _ : String × Int => NodeState := ∅

/-- `InMemoryNodeStateStore` and `RockDBNodeStateStore`. -/
inductive NodeStateStore where
  | inMemory (nodeStates : List NodeState)
  | rocksDB (db : RockDBNodeStates)

namespace NodeStateStore

/-- A state is added. -/
def add (nodeState : NodeState) : NodeStateStore → NodeStateStore
  | inMemory nodeStates => inMemory (nodeStates ++ [nodeState])
  | rocksDB db => rocksDB
      { typeVersions := db.typeVersions.insert nodeState.entityType nodeState
        historyTypeVersions :=
          db.historyTypeVersions.insert (nodeState.entityType, nodeState.entityVersion) nodeState }

/-- The newest entity of a type. -/
def getLastEntityType (entityType : String) : NodeStateStore → Option NodeState
  | inMemory nodeStates =>
    (nodeStates.insertionSort fun a b => b.entityVersion ≤ a.entityVersion).find? (·.entityType = entityType)
  | rocksDB db => db.typeVersions.lookup entityType

/-- The entities with these types and versions. -/
def getAllSpecificEntityTypes (parameter : List (String × Int)) : NodeStateStore → List NodeState
  | inMemory nodeStates =>
    nodeStates.filter fun ns => parameter.any fun p => p.1 = ns.entityType ∧ p.2 = ns.entityVersion
  | rocksDB db =>
    (parameter.map (·.1)).eraseDups.flatMap fun entityType =>
      (parameter.filter (·.1 = entityType)).filterMap fun p => db.historyTypeVersions.lookup p

/-- What `GetAllSpecificEntityTypes`, called on `store`, yields when it is enumerated at a moment the
store is `now`. In memory it is a query that runs over the bag as it is then; RocksDB was read by
the call. -/
def enumerated (parameter : List (String × Int)) (store now : NodeStateStore) : List NodeState :=
  match store with
  | inMemory _ => now.getAllSpecificEntityTypes parameter
  | rocksDB _ => store.getAllSpecificEntityTypes parameter

end NodeStateStore

/-! The queries of `InMemoryNodeStateStore` that go through all of the bag. -/

namespace InMemoryNodeStateStore

/-- `GetAllLastEntityTypes()`. -/
def getAllLastEntityTypes (nodeStates : List NodeState) : List NodeState :=
  firstOfEach NodeState.entityType (descending NodeState.entityVersion nodeStates)

/-- `GetAllLastEntityTypes(entityType)`. -/
def getAllLastEntityTypesOf (entityType : String) (nodeStates : List NodeState) : List NodeState :=
  firstOfEach NodeState.entityId
    (descending NodeState.entityVersion (nodeStates.filter fun ns => ns.entityType = entityType))

/-- The newest entity with an identifier. -/
def getLastEntityId (entityId : String) (nodeStates : List NodeState) : Option NodeState :=
  (descending NodeState.entityVersion nodeStates).find? (·.entityId = entityId)

end InMemoryNodeStateStore

/-- The newest entity of each type. -/
def NodeStateStore.getAllLastEntityTypes : NodeStateStore → List NodeState
  | inMemory nodeStates => InMemoryNodeStateStore.getAllLastEntityTypes nodeStates
  | rocksDB db => db.typeVersions.entries.map (·.2)

/-- `JsonSerializer` on `Peer`, whose only field is its `TermId`. `deserialize` is `none` when it
throws. -/
structure PeerJson where
  serialize : String → String
  deserialize : String → Option String

/-- The text of a `Peer`, for topics without characters that JSON escapes. -/
def PeerJson.plain : PeerJson where
  serialize := fun termId => "\x7b\"TermId\":\"" ++ termId ++ "\"\x7d"
  deserialize := fun value =>
    let termId := ((value.toList.drop 11).dropLast).dropLast
    if value.toList = "\x7b\"TermId\":\"".toList ++ termId ++ "\"\x7d".toList then some (String.ofList termId)
    else none

example : PeerJson.plain.deserialize (PeerJson.plain.serialize "topic") = some "topic" := by decide

/-- `InMemoryPeerStore.Add`; `entityId` is the new GUID of `Peer.ToNodeState`. -/
def NodeStateStore.addPeer (json : PeerJson) (entityId termId : String) (store : NodeStateStore) : NodeStateStore :=
  let nodeState : NodeState := ⟨StandardEntityTypes.peer, entityId, 0, json.serialize termId⟩
  match store.getLastEntityType StandardEntityTypes.peer with
  | none => store.add nodeState
  | some last => store.add { nodeState with entityVersion := last.entityVersion + 1 }

/-! ## Peer infos -/

/-- The database of `RocksDBPeerInfoStore`: every `PeerInfo` is put under its `TermId`. -/
structure RocksDBPeerInfos where
  db : AList fun _ : String => PeerInfo := ∅
  keyed : ∀ entry ∈ db.entries, entry.2.termId = entry.1 := by simp

namespace RocksDBPeerInfos

theorem keyed_insert (store : RocksDBPeerInfos) (peerInfo : PeerInfo) :
    ∀ entry ∈ (store.db.insert peerInfo.termId peerInfo).entries, entry.2.termId = entry.1 := by
  intro entry member
  rw [AList.entries_insert] at member
  rcases List.mem_cons.mp member with rfl | old
  · rfl
  · exact store.keyed entry ((List.kerase_sublist _ _).subset old)

/-- An info is put under its topic. -/
def put (store : RocksDBPeerInfos) (peerInfo : PeerInfo) : RocksDBPeerInfos :=
  ⟨store.db.insert peerInfo.termId peerInfo, store.keyed_insert peerInfo⟩

end RocksDBPeerInfos

/-- `InMemoryPeerInfoStore` and `RocksDBPeerInfoStore`. The bag of the first holds the `PeerInfo`
objects of the peers themselves. -/
inductive PeerInfoStore where
  | inMemory (peerInfos : List PeerInfo)
  | rocksDB (store : RocksDBPeerInfos)

namespace PeerInfoStore

/-- All infos. -/
def getAll : PeerInfoStore → List PeerInfo
  | inMemory peerInfos => peerInfos
  | rocksDB store => store.db.entries.map (·.2)

/-- An info is added. -/
def add (peerInfo : PeerInfo) : PeerInfoStore → PeerInfoStore
  | inMemory peerInfos => inMemory (peerInfos ++ [peerInfo])
  | rocksDB store => rocksDB (store.put peerInfo)

/-- An info is updated; in memory the objects are shared. -/
def update (peerInfo : PeerInfo) : PeerInfoStore → PeerInfoStore
  | inMemory peerInfos => inMemory peerInfos
  | rocksDB store => rocksDB (store.put peerInfo)

/-- The topics of the stored peers. -/
def termIds (store : PeerInfoStore) : List String := store.getAll.map (·.termId)

theorem termIds_rocksDB (store : RocksDBPeerInfos) : (rocksDB store).termIds = store.db.keys := by
  simp only [termIds, getAll, List.map_map, AList.keys, List.keys]
  exact List.map_congr_left fun entry member => store.keyed entry member

theorem put_termIds (store : RocksDBPeerInfos) (peerInfo : PeerInfo) :
    (rocksDB (store.put peerInfo)).termIds = peerInfo.termId :: (rocksDB store).termIds.erase peerInfo.termId := by
  rw [termIds_rocksDB, termIds_rocksDB]
  exact AList.keys_insert store.db

/-- A new topic is added to the stored ones. -/
theorem add_termIds {store : PeerInfoStore} {peerInfo : PeerInfo} (new : peerInfo.termId ∉ store.termIds) :
    (store.add peerInfo).termIds.Perm (store.termIds ++ [peerInfo.termId]) := by
  cases store with
  | inMemory peerInfos => simp [add, termIds, getAll]
  | rocksDB store =>
    show (rocksDB (store.put peerInfo)).termIds.Perm _
    rw [put_termIds, List.erase_of_not_mem new]
    exact (List.perm_append_singleton _ _).symm

/-- Writing a stored peer again adds no topic. -/
theorem update_termIds {store : PeerInfoStore} {peerInfo : PeerInfo} (known : peerInfo.termId ∈ store.termIds) :
    (store.update peerInfo).termIds.Perm store.termIds := by
  cases store with
  | inMemory peerInfos => exact .refl _
  | rocksDB store =>
    show (rocksDB (store.put peerInfo)).termIds.Perm _
    rw [put_termIds]
    exact (List.perm_cons_erase known).symm

end PeerInfoStore

end FaasNet.RaftConsensus
