import FaasNet.Lib.Fifo
import FaasNet.RaftConsensus.Stores

/-!
# Queues inside the node state store

`QueueStore` keeps no queue. A message is a record of the type `QUEUE_q`, whose version is its place;
the record of the type `QUEUE_CONSUMED_MESSAGE_q` with the highest version says how many messages were
taken. A queue is used through what `INodeStateStore` answers about these two types, so what is shown here
holds for every store that answers lawfully: the two kinds of `NodeStateStore` are instances.
-/

namespace FaasNet.EventMesh

open FaasNet.Lib FaasNet.RaftConsensus

namespace StandardEntityTypes

/-- `Queue`, formatted. -/
def queue (queueName : String) : String := "QUEUE_" ++ queueName

/-- `ConsumedQueueMessage`, formatted. -/
def consumedQueueMessage (queueName : String) : String := "QUEUE_CONSUMED_MESSAGE_" ++ queueName

end StandardEntityTypes

open StandardEntityTypes

/-- `version + 1`, of the type `int`. -/
def nextVersion (version : Int) : Int := (version + 1).bmod 0x100000000

/-- The next version is one more, as long as there is room. -/
theorem nextVersion_eq {version : Int} (low : 0 ≤ version) (high : version + 1 < 0x80000000) :
    nextVersion version = version + 1 := by
  unfold nextVersion
  rw [Int.bmod_def]
  omega

/-! ## Stores of node states -/

/-- What `QueueStore` calls of `INodeStateStore`, and whether the last record of a type is the one
written last or the one with the highest version. -/
class INodeStateStore (S : Type*) where
  overwrites : S → Bool
  add : NodeState → S → S
  getLastEntityType : String → S → Option NodeState
  getSpecificEntityType : String → Int → S → Option NodeState

open INodeStateStore (overwrites getLastEntityType getSpecificEntityType)

/-- Two stores of the same kind answer alike about the records of a type. -/
structure SameRecords {S : Type*} [INodeStateStore S] (entityType : String) (left right : S) : Prop where
  kind : overwrites left = overwrites right
  last : getLastEntityType entityType left = getLastEntityType entityType right
  specific : ∀ version, getSpecificEntityType entityType version left = getSpecificEntityType entityType version right

/-- The answers about a type are made of the records of that type. A record with a higher version than
all before it becomes the last one, and one with a new version is found under it. -/
class LawfulNodeStateStore (S : Type*) [INodeStateStore S] : Prop where
  add_other : ∀ {entityType : String} {nodeState : NodeState} (store : S), nodeState.entityType ≠ entityType →
    SameRecords entityType (INodeStateStore.add nodeState store) store
  add_congr : ∀ {entityType : String} {left right : S} (nodeState : NodeState), SameRecords entityType left right →
    SameRecords entityType (INodeStateStore.add nodeState left) (INodeStateStore.add nodeState right)
  last_add : ∀ {nodeState : NodeState} {store : S},
    (∀ last ∈ getLastEntityType nodeState.entityType store, last.entityVersion < nodeState.entityVersion) →
    getLastEntityType nodeState.entityType (INodeStateStore.add nodeState store) = some nodeState
  specific_add : ∀ {nodeState : NodeState} {store : S},
    getSpecificEntityType nodeState.entityType nodeState.entityVersion store = none →
    getSpecificEntityType nodeState.entityType nodeState.entityVersion (INodeStateStore.add nodeState store) =
      some nodeState
  specific_add_of_ne : ∀ (nodeState : NodeState) {version : Int} (store : S), version ≠ nodeState.entityVersion →
    getSpecificEntityType nodeState.entityType version (INodeStateStore.add nodeState store) =
      getSpecificEntityType nodeState.entityType version store

theorem SameRecords.refl {S : Type*} [INodeStateStore S] (entityType : String) (store : S) :
    SameRecords entityType store store := ⟨rfl, rfl, fun _ => rfl⟩

theorem SameRecords.trans {S : Type*} [INodeStateStore S] {entityType : String} {left middle right : S}
    (first : SameRecords entityType left middle) (second : SameRecords entityType middle right) :
    SameRecords entityType left right :=
  ⟨first.kind.trans second.kind, first.last.trans second.last, fun version => (first.specific version).trans (second.specific version)⟩

/-- `GetSpecificEntityType`, of both kinds of stores. -/
def nodeStateOf (entityType : String) (version : Int) (store : NodeStateStore) : Option NodeState :=
  (store.getAllSpecificEntityTypes [(entityType, version)]).head?

instance : INodeStateStore NodeStateStore where
  overwrites
    | .inMemory _ => false
    | .rocksDB _ => true
  add := NodeStateStore.add
  getLastEntityType := NodeStateStore.getLastEntityType
  getSpecificEntityType := nodeStateOf

section
variable (entityType : String) (version : Int)

theorem nodeStateOf_inMemory (nodeStates : List NodeState) :
    nodeStateOf entityType version (.inMemory nodeStates) =
      nodeStates.find? fun ns => entityType = ns.entityType ∧ version = ns.entityVersion := by
  simp [nodeStateOf, NodeStateStore.getAllSpecificEntityTypes, List.head?_filter]

theorem nodeStateOf_rocksDB (db : RockDBNodeStates) :
    nodeStateOf entityType version (.rocksDB db) = db.historyTypeVersions.lookup (entityType, version) := by
  simp only [nodeStateOf, NodeStateStore.getAllSpecificEntityTypes]
  cases found : db.historyTypeVersions.lookup (entityType, version) <;>
    simp [List.eraseDups_cons, found]

end

theorem getLastEntityType_inMemory_add (entityType : String) (nodeState : NodeState) (nodeStates : List NodeState) :
    NodeStateStore.getLastEntityType entityType (.inMemory (nodeStates ++ [nodeState])) =
      if nodeState.entityType = entityType then
        some ((NodeStateStore.getLastEntityType entityType (.inMemory nodeStates)).elim nodeState fun last =>
          if last.entityVersion < nodeState.entityVersion then nodeState else last)
      else NodeStateStore.getLastEntityType entityType (.inMemory nodeStates) := by
  have found := find?_descending_concat NodeState.entityVersion (fun ns => ns.entityType = entityType) nodeStates nodeState
  simp only [decide_eq_true_eq] at found
  exact found

theorem nodeStateOf_inMemory_add (entityType : String) (version : Int) (nodeState : NodeState)
    (nodeStates : List NodeState) :
    nodeStateOf entityType version (.inMemory (nodeStates ++ [nodeState])) =
      (nodeStateOf entityType version (.inMemory nodeStates)).or
        (if entityType = nodeState.entityType ∧ version = nodeState.entityVersion then some nodeState else none) := by
  rw [nodeStateOf_inMemory, nodeStateOf_inMemory, List.find?_append]
  simp only [List.find?_singleton, decide_eq_true_eq]

theorem getLastEntityType_rocksDB_add (entityType : String) (nodeState : NodeState) (db : RockDBNodeStates) :
    NodeStateStore.getLastEntityType entityType (NodeStateStore.add nodeState (.rocksDB db)) =
      if nodeState.entityType = entityType then some nodeState
      else NodeStateStore.getLastEntityType entityType (.rocksDB db) := by
  simp only [NodeStateStore.add, NodeStateStore.getLastEntityType]
  split
  next same => rw [same, AList.lookup_insert]
  next other => rw [AList.lookup_insert_ne (Ne.symm other)]

theorem nodeStateOf_rocksDB_add (entityType : String) (version : Int) (nodeState : NodeState) (db : RockDBNodeStates) :
    nodeStateOf entityType version (NodeStateStore.add nodeState (.rocksDB db)) =
      if entityType = nodeState.entityType ∧ version = nodeState.entityVersion then some nodeState
      else nodeStateOf entityType version (.rocksDB db) := by
  rw [NodeStateStore.add, nodeStateOf_rocksDB, nodeStateOf_rocksDB]
  split
  next same => rw [same.1, same.2, AList.lookup_insert]
  next other => rw [AList.lookup_insert_ne fun same => other (Prod.mk.inj same)]

/-- Writing to a store changes nothing about other types. -/
theorem sameRecords_add_of_ne {entityType : String} {nodeState : NodeState} (store : NodeStateStore)
    (other : nodeState.entityType ≠ entityType) : SameRecords entityType (INodeStateStore.add nodeState store) store := by
  cases store with
  | inMemory nodeStates =>
    refine ⟨rfl, (getLastEntityType_inMemory_add ..).trans (if_neg other), fun version => ?_⟩
    refine (nodeStateOf_inMemory_add ..).trans ?_
    rw [if_neg fun same => other same.1.symm, Option.or_none]
    rfl
  | rocksDB db =>
    refine ⟨rfl, (getLastEntityType_rocksDB_add ..).trans (if_neg other), fun version => ?_⟩
    exact (nodeStateOf_rocksDB_add ..).trans (if_neg fun same => other same.1.symm)

theorem sameRecords_add {entityType : String} {left right : NodeStateStore} (nodeState : NodeState)
    (same : SameRecords entityType left right) :
    SameRecords entityType (INodeStateStore.add nodeState left) (INodeStateStore.add nodeState right) := by
  obtain ⟨kind, last, specific⟩ := same
  cases left with
  | inMemory nodeStates =>
    cases right with
    | rocksDB db => exact absurd kind Bool.false_ne_true
    | inMemory nodeStates' =>
      have last : NodeStateStore.getLastEntityType entityType (.inMemory nodeStates) =
        NodeStateStore.getLastEntityType entityType (.inMemory nodeStates') := last
      have specific : ∀ version, nodeStateOf entityType version (.inMemory nodeStates) =
        nodeStateOf entityType version (.inMemory nodeStates') := specific
      refine ⟨rfl, (getLastEntityType_inMemory_add ..).trans ?_, fun version => (nodeStateOf_inMemory_add ..).trans ?_⟩
      · rw [last]
        exact (getLastEntityType_inMemory_add ..).symm
      · rw [specific]
        exact (nodeStateOf_inMemory_add ..).symm
  | rocksDB db =>
    cases right with
    | inMemory nodeStates => exact absurd kind.symm Bool.false_ne_true
    | rocksDB db' =>
      have last : NodeStateStore.getLastEntityType entityType (.rocksDB db) =
        NodeStateStore.getLastEntityType entityType (.rocksDB db') := last
      have specific : ∀ version, nodeStateOf entityType version (.rocksDB db) =
        nodeStateOf entityType version (.rocksDB db') := specific
      refine ⟨rfl, (getLastEntityType_rocksDB_add ..).trans ?_, fun version => (nodeStateOf_rocksDB_add ..).trans ?_⟩
      · rw [last]
        exact (getLastEntityType_rocksDB_add ..).symm
      · rw [specific]
        exact (nodeStateOf_rocksDB_add ..).symm

instance : LawfulNodeStateStore NodeStateStore where
  add_other := sameRecords_add_of_ne
  add_congr := sameRecords_add
  last_add := by
    intro nodeState store above
    cases store with
    | inMemory nodeStates =>
      refine (getLastEntityType_inMemory_add ..).trans ((if_pos rfl).trans ?_)
      cases found : NodeStateStore.getLastEntityType nodeState.entityType (.inMemory nodeStates) with
      | none => rfl
      | some last => rw [Option.elim_some, if_pos (above last found)]
    | rocksDB db => exact (getLastEntityType_rocksDB_add ..).trans (if_pos rfl)
  specific_add := by
    intro nodeState store free
    cases store with
    | inMemory nodeStates =>
      refine (nodeStateOf_inMemory_add ..).trans ?_
      have free : nodeStateOf nodeState.entityType nodeState.entityVersion (.inMemory nodeStates) = none := free
      simp [free]
    | rocksDB db => exact (nodeStateOf_rocksDB_add ..).trans (if_pos ⟨rfl, rfl⟩)
  specific_add_of_ne := by
    intro nodeState version store other
    cases store with
    | inMemory nodeStates =>
      refine (nodeStateOf_inMemory_add ..).trans ?_
      rw [if_neg fun same => other same.2, Option.or_none]
      rfl
    | rocksDB db => exact (nodeStateOf_rocksDB_add ..).trans (if_neg fun same => other same.2)

/-! ## `QueueStore` -/

namespace QueueStore

section
variable {S : Type*} [INodeStateStore S]

/-- The `version` of `Dequeue`: the place of the message to take. -/
def versionToTake (lastEntityType : Option NodeState) : Int :=
  lastEntityType.elim 0 fun lastEntityType => lastEntityType.entityVersion

def consumedVersion (queueName : String) (store : S) : Int :=
  versionToTake (getLastEntityType (consumedQueueMessage queueName) store)

/-- The record `Dequeue` adds when it has found the message of this version. -/
def consumedMessage (queueName entityId : String) (version : Int) : NodeState :=
  ⟨consumedQueueMessage queueName, entityId, nextVersion version, queueName⟩

def dequeue (queueName entityId : String) (store : S) : Option String × S :=
  let version := consumedVersion queueName store
  match getSpecificEntityType (queue queueName) version store with
  | none => (none, store)
  | some entityType => (some entityType.value, INodeStateStore.add (consumedMessage queueName entityId version) store)

/-- The version `Add` gives to its record. -/
def versionToAdd (existingValue : Option NodeState) : Int :=
  existingValue.elim 0 fun existingValue => nextVersion existingValue.entityVersion

def messageVersion (queueName : String) (store : S) : Int := versionToAdd (getLastEntityType (queue queueName) store)

def add (queueName message entityId : String) (store : S) : S :=
  INodeStateStore.add ⟨queue queueName, entityId, messageVersion queueName store, message⟩ store

end

end QueueStore

/-- A call of `QueueStore`, with the GUID of the record it may add. -/
inductive QueueCall where
  | add (queueName message entityId : String)
  | dequeue (queueName entityId : String)
  deriving DecidableEq, Repr

namespace QueueCall

def queueName : QueueCall → String
  | add queueName _ _ => queueName
  | dequeue queueName _ => queueName

/-- The message of an `Add`. -/
def message : QueueCall → Option String
  | add _ message _ => some message
  | dequeue _ _ => none

/-- What the call is for a queue. -/
def op : QueueCall → FifoOp String
  | add _ message _ => .enqueue message
  | dequeue _ _ => .dequeue

end QueueCall

namespace QueueStore

section
variable {S : Type*} [INodeStateStore S]

/-- The value a call returns, and the store after it. -/
def call (store : S) : QueueCall → Option String × S
  | .add queueName message entityId => (none, add queueName message entityId store)
  | .dequeue queueName entityId => dequeue queueName entityId store

/-- The calls of a sequence, each with the value it returns. -/
def trace : S → List QueueCall → List (QueueCall × Option String)
  | _, [] => []
  | store, c :: calls => (c, (call store c).1) :: trace (call store c).2 calls

/-- The store after a sequence of calls. -/
def after (store : S) (calls : List QueueCall) : S := calls.foldl (fun store c => (call store c).2) store

/-- The non-null values the `Dequeue` calls return, in order. -/
def returned (store : S) (calls : List QueueCall) : List String := (trace store calls).filterMap (·.2)

end

/-- The messages of the `Add` calls, in order. -/
def added (calls : List QueueCall) : List String := calls.filterMap QueueCall.message

end QueueStore

/-! ## One queue is first in, first out -/

/-- The messages of a queue and those taken from it have different types. -/
theorem queue_ne_consumedQueueMessage (queueName : String) : queue queueName ≠ consumedQueueMessage queueName := by
  intro same
  exact absurd ((String.append_left_inj queueName).mp same) (by decide)

namespace QueueStore

section
variable {S : Type*} [INodeStateStore S]

/-- What the two types of a queue hold after `sent` was added and `taken` of it were returned: the
message at each place, the version of the last one, and the number of those taken. -/
structure Holds (queueName : String) (store : S) (sent : List String) (taken : Nat) : Prop where
  taken_le : taken ≤ sent.length
  count : sent.length < 0x80000000
  last : (getLastEntityType (queue queueName) store).map (·.entityVersion) =
    if sent = [] then none else some (sent.length - 1 : Int)
  messages : ∀ version, (getSpecificEntityType (queue queueName) version store).map (·.value) =
    if 0 ≤ version then sent[version.toNat]? else none
  marker : (getLastEntityType (consumedQueueMessage queueName) store).map (·.entityVersion) =
    if taken = 0 then none else some (taken : Int)

/-- The version of what was taken counts it. -/
theorem Holds.consumedVersion_eq {queueName : String} {store : S} {sent : List String} {taken : Nat}
    (holds : Holds queueName store sent taken) : consumedVersion queueName store = taken := by
  have marker := holds.marker
  unfold consumedVersion versionToTake
  cases found : getLastEntityType (consumedQueueMessage queueName) store with
  | none =>
    by_cases zero : taken = 0
    · simp [zero]
    · simp [found, zero] at marker
  | some record =>
    by_cases zero : taken = 0
    · simp [found, zero] at marker
    · simpa [found, zero] using marker

/-- The version of the messages counts what was sent. -/
theorem Holds.messageVersion_eq {queueName : String} {store : S} {sent : List String} {taken : Nat}
    (holds : Holds queueName store sent taken) : messageVersion queueName store = sent.length := by
  have last := holds.last
  unfold messageVersion versionToAdd
  cases found : getLastEntityType (queue queueName) store with
  | none =>
    by_cases empty : sent = []
    · simp [empty]
    · simp [found, empty] at last
  | some record =>
    by_cases empty : sent = []
    · simp [found, empty] at last
    · have version : record.entityVersion = sent.length - 1 := by simpa [found, empty] using last
      have positive : 0 < sent.length := List.length_pos_iff.mpr empty
      have bound := holds.count
      rw [Option.elim_some, version, nextVersion_eq (by omega) (by omega)]
      omega

/-- The message at the next place. -/
theorem Holds.next {queueName : String} {store : S} {sent : List String} {taken : Nat}
    (holds : Holds queueName store sent taken) :
    (getSpecificEntityType (queue queueName) taken store).map (·.value) = sent[taken]? := by
  rw [holds.messages, if_pos (Int.natCast_nonneg taken), Int.toNat_natCast]

variable [LawfulNodeStateStore S]

open LawfulNodeStateStore

/-- A record with the version after the last one is one message more. -/
theorem Holds.add_message {queueName : String} {store : S} {sent : List String} {taken : Nat}
    (holds : Holds queueName store sent taken) (entityId message : String) (room : sent.length + 1 < 0x80000000) :
    Holds queueName (INodeStateStore.add ⟨queue queueName, entityId, sent.length, message⟩ store)
      (sent ++ [message]) taken := by
  let record : NodeState := ⟨queue queueName, entityId, sent.length, message⟩
  have others : SameRecords (consumedQueueMessage queueName) (INodeStateStore.add record store) store :=
    add_other store (queue_ne_consumedQueueMessage queueName)
  refine ⟨?_, ?_, ?_, fun version => ?_, ?_⟩
  · exact holds.taken_le.trans (by simp)
  · simpa using room
  · have above : ∀ last ∈ getLastEntityType record.entityType store, last.entityVersion < record.entityVersion := by
      intro last found
      have version := holds.last
      rw [show getLastEntityType (queue queueName) store = some last from found] at version
      split at version
      · simp at version
      · have version : last.entityVersion = sent.length - 1 := by simpa using version
        show last.entityVersion < (sent.length : Int)
        omega
    rw [last_add above]
    simp [record]
  · by_cases new : version = sent.length
    · have free : getSpecificEntityType record.entityType record.entityVersion store = none := by
        have nothing := holds.messages sent.length
        simpa using nothing
      subst new
      rw [specific_add free]
      simp [record]
    · have kept : getSpecificEntityType (queue queueName) version (INodeStateStore.add record store) =
          getSpecificEntityType (queue queueName) version store := specific_add_of_ne record store new
      rw [kept, holds.messages]
      split
      next low =>
        by_cases inside : version.toNat < sent.length
        · rw [List.getElem?_append_left inside]
        · rw [List.getElem?_eq_none (by omega), List.getElem?_eq_none (by simp; omega)]
      next => rfl
  · rw [others.last, holds.marker]

/-- A marker with the version after the last one takes one message more. -/
theorem Holds.add_marker {queueName : String} {store : S} {sent : List String} {taken : Nat}
    (holds : Holds queueName store sent taken) (entityId : String) (left : taken < sent.length) :
    Holds queueName (INodeStateStore.add (consumedMessage queueName entityId taken) store) sent (taken + 1) := by
  have count := holds.count
  have version : (consumedMessage queueName entityId taken).entityVersion = taken + 1 := by
    have next : nextVersion (taken : Int) = taken + 1 := nextVersion_eq (by omega) (by omega)
    simp only [consumedMessage, next]
  have others : SameRecords (queue queueName)
      (INodeStateStore.add (consumedMessage queueName entityId taken) store) store :=
    add_other store (queue_ne_consumedQueueMessage queueName).symm
  refine ⟨left, count, ?_, fun version => ?_, ?_⟩
  · rw [others.last, holds.last]
  · rw [others.specific, holds.messages]
  · have above : ∀ last ∈ getLastEntityType (consumedMessage queueName entityId taken).entityType store,
        last.entityVersion < (consumedMessage queueName entityId taken).entityVersion := by
      intro last found
      have marker := holds.marker
      rw [show getLastEntityType (consumedQueueMessage queueName) store = some last from found] at marker
      split at marker
      · simp at marker
      · have marker : last.entityVersion = taken := by simpa using marker
        omega
    show (getLastEntityType (consumedMessage queueName entityId taken).entityType _).map _ = _
    rw [last_add above, Option.map_some, version]
    simp

/-- A message that is added is behind all others. -/
theorem Holds.add {queueName : String} {store : S} {sent : List String} {taken : Nat}
    (holds : Holds queueName store sent taken) (message entityId : String) (room : sent.length + 1 < 0x80000000) :
    Holds queueName (QueueStore.add queueName message entityId store) (sent ++ [message]) taken := by
  rw [QueueStore.add, holds.messageVersion_eq]
  exact holds.add_message entityId message room

/-- The message that is taken is the first that was not. -/
theorem Holds.dequeue {queueName : String} {store : S} {sent : List String} {taken : Nat}
    (holds : Holds queueName store sent taken) (entityId : String) :
    (QueueStore.dequeue queueName entityId store).1 = sent[taken]? ∧
      Holds queueName (QueueStore.dequeue queueName entityId store).2 sent (min (taken + 1) sent.length) := by
  have next := holds.next
  simp only [QueueStore.dequeue, holds.consumedVersion_eq]
  cases found : getSpecificEntityType (queue queueName) (taken : Int) store with
  | none =>
    rw [found, Option.map_none] at next
    have all : sent.length ≤ taken := List.getElem?_eq_none_iff.mp next.symm
    have all : min (taken + 1) sent.length = taken := by have := holds.taken_le; omega
    exact ⟨next, by rw [all]; exact holds⟩
  | some record =>
    rw [found, Option.map_some] at next
    obtain ⟨left, _⟩ := List.getElem?_eq_some_iff.mp next.symm
    have more : min (taken + 1) sent.length = taken + 1 := by omega
    exact ⟨next, by rw [more]; exact holds.add_marker entityId left⟩

/-- The messages `inside` are those that were sent and not yet taken. -/
def Represents (queueName : String) (store : S) (sent inside : List String) : Prop :=
  ∃ taken, Holds queueName store sent taken ∧ sent.drop taken = inside

/-- A call does to the records what it does to the queue. -/
theorem Represents.call {queueName : String} {store : S} {sent inside : List String}
    (represents : Represents queueName store sent inside) {c : QueueCall} (named : c.queueName = queueName)
    (room : sent.length + c.message.toList.length < 0x80000000) :
    (QueueStore.call store c).1 = (Fifo.step inside c.op).1 ∧
      Represents queueName (QueueStore.call store c).2 (sent ++ c.message.toList) (Fifo.step inside c.op).2 := by
  obtain ⟨taken, holds, rfl⟩ := represents
  cases c with
  | add name message entityId =>
    obtain rfl : name = queueName := named
    refine ⟨rfl, taken, holds.add message entityId room, ?_⟩
    exact List.drop_append_of_le_length holds.taken_le
  | dequeue name entityId =>
    obtain rfl : name = queueName := named
    obtain ⟨value, stored⟩ := holds.dequeue entityId
    refine ⟨value.trans List.head?_drop.symm, min (taken + 1) sent.length, ?_, ?_⟩
    · simpa [QueueCall.message, QueueStore.call] using stored
    · simp only [QueueCall.message, Option.toList_none, List.append_nil, QueueCall.op, Fifo.step, List.tail_drop]
      rcases Nat.lt_or_ge taken sent.length with left | all
      · rw [Nat.min_eq_left left]
      · rw [Nat.min_eq_right (by omega), List.drop_length, List.drop_eq_nil_of_le (by omega)]

/-- What enters the queue are the messages that were added. -/
theorem entered_map_op (calls : List QueueCall) : Fifo.entered (calls.map QueueCall.op) = added calls := by
  induction calls with
  | nil => rfl
  | cons c calls ih =>
    cases c with
    | add name message entityId => exact congrArg (message :: ·) ih
    | dequeue name entityId => exact ih

/-- **The records of one queue refine a queue.** -/
theorem Represents.calls {queueName : String} {store : S} {sent inside : List String}
    (represents : Represents queueName store sent inside) {calls : List QueueCall}
    (named : ∀ c ∈ calls, c.queueName = queueName) (room : sent.length + (added calls).length < 0x80000000) :
    returned store calls = Fifo.out inside (calls.map QueueCall.op) ∧
      Represents queueName (after store calls) (sent ++ added calls) (Fifo.after inside (calls.map QueueCall.op)) := by
  induction calls generalizing store sent inside with
  | nil => exact ⟨rfl, by simpa [added, after, Fifo.after] using represents⟩
  | cons c calls ih =>
    have messages : added (c :: calls) = c.message.toList ++ added calls := by
      cases c <;> rfl
    rw [messages, List.length_append] at room
    obtain ⟨value, stored⟩ := represents.call (named c List.mem_cons_self) (by omega)
    obtain ⟨values, final⟩ := ih stored (fun d member => named d (List.mem_cons_of_mem c member))
      (by rw [List.length_append]; omega)
    constructor
    · rw [List.map_cons, Fifo.out, ← value, ← values]
      rw [returned, trace, List.filterMap_cons]
      cases (QueueStore.call store c).1 <;> rfl
    · rw [messages, ← List.append_assoc]
      exact final

end

/-- There are no records of the two types of a queue. -/
structure Unused {S : Type*} [INodeStateStore S] (queueName : String) (store : S) : Prop where
  last : getLastEntityType (queue queueName) store = none
  messages : ∀ version, getSpecificEntityType (queue queueName) version store = none
  marker : getLastEntityType (consumedQueueMessage queueName) store = none

/-- Such a store holds the empty queue. -/
theorem Unused.holds {S : Type*} [INodeStateStore S] {queueName : String} {store : S}
    (unused : Unused queueName store) : Holds queueName store [] 0 := by
  refine ⟨Nat.zero_le _, by decide, ?_, fun version => ?_, ?_⟩
  · rw [unused.last]
    rfl
  · rw [unused.messages]
    simp
  · rw [unused.marker]
    rfl

/-- A queue is unused if no state is of its types. -/
theorem unused_inMemory {queueName : String} {nodeStates : List NodeState}
    (unused : ∀ ns ∈ nodeStates, ns.entityType ≠ queue queueName ∧ ns.entityType ≠ consumedQueueMessage queueName) :
    Unused queueName (NodeStateStore.inMemory nodeStates) := by
  have noLast : ∀ entityType, (∀ ns ∈ nodeStates, ns.entityType ≠ entityType) →
      getLastEntityType entityType (NodeStateStore.inMemory nodeStates) = none := by
    intro entityType none
    exact find?_descending_eq_none.mpr fun ns member => by simpa using none ns member
  refine ⟨noLast _ fun ns member => (unused ns member).1, fun version => ?_,
    noLast _ fun ns member => (unused ns member).2⟩
  refine (nodeStateOf_inMemory ..).trans (List.find?_eq_none.mpr fun ns member found => ?_)
  exact (unused ns member).1 (of_decide_eq_true found).1.symm

/-- **Queues are first in, first out and exactly once.** In every sequence of calls on one queue, what
`Dequeue` has returned is the beginning of what was added, and the next `Dequeue` returns nothing exactly
when it is all of it. -/
theorem dequeue_fifo {queueName : String} {nodeStates : List NodeState} {calls : List QueueCall}
    (unused : ∀ ns ∈ nodeStates, ns.entityType ≠ queue queueName ∧ ns.entityType ≠ consumedQueueMessage queueName)
    (named : ∀ c ∈ calls, c.queueName = queueName) (count : (added calls).length < 0x80000000) :
    let store := NodeStateStore.inMemory nodeStates
    returned store calls <+: added calls ∧
      ∀ entityId, (dequeue queueName entityId (after store calls)).1 = none ↔ returned store calls = added calls := by
  intro store
  have start : Represents queueName store [] [] := ⟨0, (unused_inMemory unused).holds, rfl⟩
  obtain ⟨values, taken, holds, left⟩ := start.calls named (by simpa using count)
  rw [values, ← entered_map_op]
  refine ⟨Fifo.out_prefix _, fun entityId => ?_⟩
  rw [(holds.dequeue entityId).1, ← List.head?_drop, left, List.head?_eq_none_iff]
  exact Fifo.after_eq_nil_iff _

/-- Three messages, two of them read, next to a record of another type. -/
theorem dequeue_fifo_three :
    let store := NodeStateStore.inMemory [⟨"VPN", "id", 0, "vpn"⟩]
    let calls : List QueueCall := [.dequeue "q" "g0", .add "q" "m1" "g1", .add "q" "m2" "g2", .dequeue "q" "g3",
      .add "q" "m1" "g4", .dequeue "q" "g5"]
    returned store calls = ["m1", "m2"] ∧ added calls = ["m1", "m2", "m1"] ∧ returned store calls <+: added calls ∧
      ∀ entityId, (dequeue "q" entityId (after store calls)).1 = none ↔ returned store calls = added calls := by
  intro store calls
  exact ⟨by decide, by decide, dequeue_fifo (by decide) (by decide) (by decide)⟩

/-! ## Two queues -/

end QueueStore

/-- What was taken from a queue is itself kept as a queue. -/
theorem consumedQueueMessage_eq (queueName : String) :
    consumedQueueMessage queueName = queue ("CONSUMED_MESSAGE_" ++ queueName) := by
  have parts : "QUEUE_CONSUMED_MESSAGE_" = "QUEUE_" ++ "CONSUMED_MESSAGE_" := by decide
  exact (congrArg (· ++ queueName) parts).trans (String.append_assoc ..)

theorem queue_inj {left right : String} : queue left = queue right ↔ left = right := String.append_right_inj _

theorem consumedQueueMessage_inj {left right : String} :
    consumedQueueMessage left = consumedQueueMessage right ↔ left = right := String.append_right_inj _

namespace QueueStore

section
variable {S : Type*} [INodeStateStore S]

/-- Two stores answer alike about a queue. -/
structure SameQueue (queueName : String) (left right : S) : Prop where
  messages : SameRecords (queue queueName) left right
  markers : SameRecords (consumedQueueMessage queueName) left right

theorem SameQueue.refl (queueName : String) (store : S) : SameQueue queueName store store := ⟨.refl .., .refl ..⟩

/-- No record of one of the two queues has a type of the other. -/
def Separate (queueName other : String) : Prop :=
  queueName ≠ other ∧ queueName ≠ "CONSUMED_MESSAGE_" ++ other ∧ other ≠ "CONSUMED_MESSAGE_" ++ queueName

variable [LawfulNodeStateStore S]

open LawfulNodeStateStore

/-- A record of another queue changes nothing. -/
theorem SameQueue.add_other {queueName other : String} (separate : Separate queueName other) {left right : S}
    (same : SameQueue queueName left right) {nodeState : NodeState}
    (type : nodeState.entityType = queue other ∨ nodeState.entityType = consumedQueueMessage other) :
    SameQueue queueName (INodeStateStore.add nodeState left) right := by
  obtain ⟨different, notMarker, notMessage⟩ := separate
  have messages : nodeState.entityType ≠ queue queueName := by
    rcases type with type | type <;> rw [type]
    · exact fun equal => different (queue_inj.mp equal).symm
    · rw [consumedQueueMessage_eq]
      exact fun equal => notMarker (queue_inj.mp equal).symm
  have markers : nodeState.entityType ≠ consumedQueueMessage queueName := by
    rcases type with type | type <;> rw [type]
    · rw [consumedQueueMessage_eq]
      exact fun equal => notMessage (queue_inj.mp equal)
    · exact fun equal => different (consumedQueueMessage_inj.mp equal).symm
  exact ⟨(LawfulNodeStateStore.add_other left messages).trans same.messages,
    (LawfulNodeStateStore.add_other left markers).trans same.markers⟩

/-- A call on a separate queue makes no difference. -/
theorem SameQueue.call_other {queueName : String} {left right : S} (same : SameQueue queueName left right)
    {c : QueueCall} (separate : Separate queueName c.queueName) : SameQueue queueName (call left c).2 right := by
  cases c with
  | add other message entityId => exact same.add_other separate (.inl rfl)
  | dequeue other entityId =>
    simp only [call, dequeue]
    split
    · exact same
    · exact same.add_other separate (.inr rfl)

/-- The same queues are the same when a state is added to both stores. -/
theorem SameQueue.add {queueName : String} {left right : S} (same : SameQueue queueName left right)
    (nodeState : NodeState) :
    SameQueue queueName (INodeStateStore.add nodeState left) (INodeStateStore.add nodeState right) :=
  ⟨add_congr nodeState same.messages, add_congr nodeState same.markers⟩

/-- A call on a queue is answered alike by stores that answer alike about it, and leaves such stores. -/
theorem SameQueue.call {left right : S} {c : QueueCall} (same : SameQueue c.queueName left right) :
    (QueueStore.call left c).1 = (QueueStore.call right c).1 ∧
      SameQueue c.queueName (QueueStore.call left c).2 (QueueStore.call right c).2 := by
  cases c with
  | add name message entityId =>
    have same : SameQueue name left right := same
    have version : messageVersion name left = messageVersion name right := by
      unfold messageVersion
      rw [same.messages.last]
    simp only [QueueStore.call, QueueStore.add, version]
    exact ⟨trivial, same.add _⟩
  | dequeue name entityId =>
    have same : SameQueue name left right := same
    have version : consumedVersion name left = consumedVersion name right := by
      unfold consumedVersion
      rw [same.markers.last]
    simp only [QueueStore.call, dequeue, version, same.messages.specific]
    split
    · exact ⟨rfl, same⟩
    · exact ⟨rfl, same.add _⟩

/-- Calls on separate queues can be left out. -/
theorem SameQueue.trace {queueName : String} {left right : S} (same : SameQueue queueName left right)
    {calls : List QueueCall} (separate : ∀ c ∈ calls, c.queueName ≠ queueName → Separate queueName c.queueName) :
    (QueueStore.trace left calls).filter (fun entry => entry.1.queueName = queueName) =
      QueueStore.trace right (calls.filter fun c => c.queueName = queueName) := by
  induction calls generalizing left right with
  | nil => rfl
  | cons c calls ih =>
    have rest : ∀ d ∈ calls, d.queueName ≠ queueName → Separate queueName d.queueName :=
      fun d member => separate d (List.mem_cons_of_mem c member)
    by_cases own : c.queueName = queueName
    · subst own
      obtain ⟨value, next⟩ := same.call
      simp only [QueueStore.trace, List.filter_cons, decide_true, if_true, value, ih next rest]
    · have next := same.call_other (separate c List.mem_cons_self own)
      simp only [QueueStore.trace, List.filter_cons, own, decide_false, Bool.false_eq_true, if_false, ih next rest]

end

/-- The calls on the first queue return what they return without the calls on the second. -/
def NotDisturbed (queueName other : String) : Prop :=
  ∀ (store : NodeStateStore) (calls : List QueueCall),
    (∀ c ∈ calls, c.queueName = queueName ∨ c.queueName = other) →
      (trace store calls).filter (fun entry => entry.1.queueName = queueName) =
        trace store (calls.filter fun c => c.queueName = queueName)

/-- Separate queues do not disturb each other. -/
theorem notDisturbed_of_separate {queueName other : String} (separate : Separate queueName other) :
    NotDisturbed queueName other := by
  intro store calls named
  refine (SameQueue.refl queueName store).trace fun c member foreign => ?_
  rwa [(named c member).resolve_left foreign]

/-- Two names after the same word are not each after the other. -/
theorem queue_ne_of_after {queueName other : String} (after : queueName = "CONSUMED_MESSAGE_" ++ other) :
    queue other ≠ consumedQueueMessage queueName := by
  rw [consumedQueueMessage_eq]
  intro same
  have longer := congrArg String.length (queue_inj.mp same)
  rw [after, String.length_append, String.length_append] at longer
  have word : "CONSUMED_MESSAGE_".length ≠ 0 := by decide
  generalize "CONSUMED_MESSAGE_".length = n at longer word
  omega

/-- The marker of one queue is a message of the other, at place 1. What is added to the second queue then
gets place 2, and its first `Dequeue` finds nothing at place 0. -/
theorem disturbed_by_marker {queueName other : String} (different : queueName ≠ other)
    (after : queueName = "CONSUMED_MESSAGE_" ++ other) : ¬ NotDisturbed queueName other := by
  intro undisturbed
  have shared : consumedQueueMessage other = queue queueName := by rw [consumedQueueMessage_eq, after]
  have apart : queue other ≠ queue queueName := shared ▸ queue_ne_consumedQueueMessage other
  have marker := queue_ne_of_after after
  have ownMarker := queue_ne_consumedQueueMessage queueName
  have first : nextVersion 0 = 1 := by decide
  have second : nextVersion 1 = 2 := by decide
  have alike := undisturbed (.inMemory [])
    [.add other "m" "g1", .dequeue other "g2", .add queueName "x" "g3", .dequeue queueName "g4"]
    (by simp [QueueCall.queueName])
  simp [trace, QueueCall.queueName, different.symm, call, add, dequeue, messageVersion, consumedVersion, versionToAdd,
    versionToTake, consumedMessage, INodeStateStore.add, getLastEntityType, getSpecificEntityType, NodeStateStore.add,
    NodeStateStore.getLastEntityType, nodeStateOf_inMemory, List.orderedInsert, shared, apart, apart.symm, marker,
    ownMarker, first, second] at alike

/-- The messages of one queue are markers of the other: two of them say that one message was taken. -/
theorem disturbed_by_message {queueName other : String} (different : queueName ≠ other)
    (after : other = "CONSUMED_MESSAGE_" ++ queueName) : ¬ NotDisturbed queueName other := by
  intro undisturbed
  have shared : consumedQueueMessage queueName = queue other := by rw [consumedQueueMessage_eq, after]
  have apart : queue queueName ≠ queue other := shared ▸ queue_ne_consumedQueueMessage queueName
  have first : nextVersion 0 = 1 := by decide
  have alike := undisturbed (.inMemory [])
    [.add other "x" "g1", .add other "x" "g2", .add queueName "m" "g3", .dequeue queueName "g4"]
    (by simp [QueueCall.queueName])
  simp [trace, QueueCall.queueName, different.symm, call, add, dequeue, messageVersion, consumedVersion, versionToAdd,
    versionToTake, consumedMessage, INodeStateStore.add, getLastEntityType, getSpecificEntityType, NodeStateStore.add,
    NodeStateStore.getLastEntityType, nodeStateOf_inMemory, List.orderedInsert, shared, apart, apart.symm,
    first] at alike

/-- **When two queues do not interfere.** The markers of a queue are stored like the messages of the queue
that is named `CONSUMED_MESSAGE_` and then as the first one; no other names clash. -/
theorem notDisturbed_iff {queueName other : String} (different : queueName ≠ other) :
    NotDisturbed queueName other ↔
      queueName ≠ "CONSUMED_MESSAGE_" ++ other ∧ other ≠ "CONSUMED_MESSAGE_" ++ queueName := by
  constructor
  · intro undisturbed
    exact ⟨fun after => disturbed_by_marker different after undisturbed,
      fun after => disturbed_by_message different after undisturbed⟩
  · rintro ⟨notMarker, notMessage⟩
    exact notDisturbed_of_separate ⟨different, notMarker, notMessage⟩

/-- Names like these are apart. -/
theorem notDisturbed_orders : NotDisturbed "orders" "invoices" ∧ NotDisturbed "invoices" "orders" :=
  ⟨(notDisturbed_iff (by decide)).mpr (by decide), (notDisturbed_iff (by decide)).mpr (by decide)⟩

/-- After a message of `q` was read, what is added to `CONSUMED_MESSAGE_q` is not found. -/
theorem disturbed_consumed_message_q :
    "CONSUMED_MESSAGE_q" ≠ "q" ∧ ¬ NotDisturbed "CONSUMED_MESSAGE_q" "q" := by
  refine ⟨by decide, fun undisturbed => ?_⟩
  have alike := undisturbed (.inMemory [])
    [.add "q" "m" "g1", .dequeue "q" "g2", .add "CONSUMED_MESSAGE_q" "x" "g3", .dequeue "CONSUMED_MESSAGE_q" "g4"]
    (by decide)
  revert alike
  decide

end QueueStore

end FaasNet.EventMesh
