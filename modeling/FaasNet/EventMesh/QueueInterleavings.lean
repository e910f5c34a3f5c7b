import Mathlib.Data.List.Perm.Subperm
import FaasNet.Lib.Runs
import FaasNet.Lib.Lists
import FaasNet.EventMesh.QueueStore

/-!
# Calls on one queue that interleave

Every topic has a peer with a loop of its own, and every session may read: calls of `QueueStore` on one
queue run side by side. A call is atomic only between two operations of the node state store. `Add` reads
the last message and then writes the next one; `Dequeue` reads the last marker, then a message, and then
writes the next marker. A call that writes after what it read was overtaken loses or doubles a message, and
these are the only ways to do so.
-/

namespace FaasNet.EventMesh

open FaasNet.Lib FaasNet.RaftConsensus StandardEntityTypes
open INodeStateStore (getLastEntityType getSpecificEntityType)

/-- A call in flight: what it was called with and what it has read. -/
inductive QueueTask where
  /-- `Add` has read the last message. -/
  | add (message entityId : String) (existingValue : Option NodeState)
  /-- `Dequeue` has read the last marker. -/
  | dequeue (lastEntityType : Option NodeState)
  /-- `Dequeue` has read the message it will return. -/
  | found (lastEntityType : Option NodeState) (entityType : NodeState)
  deriving DecidableEq, Repr

/-- The store, the calls in flight, and what was added and returned so far. -/
structure QueueRun (S : Type*) where
  store : S
  tasks : List QueueTask := []
  added : List String := []
  returned : List String := []

/-- One operation of the store: the first one of a new call, or the next one of a call in flight, with the
GUID of the marker it may write. -/
inductive QueueStep where
  | add (message entityId : String)
  | dequeue
  | next (task : Nat) (entityId : String)
  deriving DecidableEq, Repr

namespace QueueRun

section
variable {S : Type*} [INodeStateStore S] (queueName : String)

def advance (r : QueueRun S) (k : Nat) (entityId : String) : QueueTask → QueueRun S
  | .add message guid existingValue =>
    { store := INodeStateStore.add ⟨queue queueName, guid, QueueStore.versionToAdd existingValue, message⟩ r.store
      tasks := r.tasks.eraseIdx k, added := r.added ++ [message], returned := r.returned }
  | .dequeue lastEntityType =>
    match getSpecificEntityType (queue queueName) (QueueStore.versionToTake lastEntityType) r.store with
    | none => { r with tasks := r.tasks.eraseIdx k }
    | some entityType => { r with tasks := r.tasks.set k (.found lastEntityType entityType) }
  | .found lastEntityType entityType =>
    { store := INodeStateStore.add
        (QueueStore.consumedMessage queueName entityId (QueueStore.versionToTake lastEntityType)) r.store
      tasks := r.tasks.eraseIdx k, added := r.added, returned := r.returned ++ [entityType.value] }

def step (r : QueueRun S) : QueueStep → Option (QueueRun S)
  | .add message entityId =>
    some { r with tasks := r.tasks ++ [.add message entityId (getLastEntityType (queue queueName) r.store)] }
  | .dequeue =>
    some { r with tasks := r.tasks ++ [.dequeue (getLastEntityType (consumedQueueMessage queueName) r.store)] }
  | .next k entityId => r.tasks[k]?.map (r.advance queueName k entityId)

/-- A call that is about to write has not been overtaken: what it read is still the last message or the
last marker. And there is a version left for a message. -/
def UpToDate (r : QueueRun S) : QueueTask → Prop
  | .add _ _ existingValue =>
    getLastEntityType (queue queueName) r.store = existingValue ∧ r.added.length + 1 < 0x80000000
  | .dequeue _ => True
  | .found lastEntityType _ => getLastEntityType (consumedQueueMessage queueName) r.store = lastEntityType

def NotOvertaken (r : QueueRun S) : QueueStep → Prop
  | .add _ _ => True
  | .dequeue => True
  | .next k _ => ∀ task ∈ r.tasks[k]?, r.UpToDate queueName task

instance (r : QueueRun S) : DecidablePred (r.UpToDate queueName)
  | .add _ _ existingValue => inferInstanceAs
      (Decidable (getLastEntityType (queue queueName) r.store = existingValue ∧ r.added.length + 1 < 0x80000000))
  | .dequeue _ => inferInstanceAs (Decidable True)
  | .found lastEntityType _ => inferInstanceAs
      (Decidable (getLastEntityType (consumedQueueMessage queueName) r.store = lastEntityType))

instance (r : QueueRun S) : DecidablePred (r.NotOvertaken queueName)
  | .add _ _ => inferInstanceAs (Decidable True)
  | .dequeue => inferInstanceAs (Decidable True)
  | .next k _ => inferInstanceAs (Decidable (∀ task ∈ r.tasks[k]?, r.UpToDate queueName task))

/-- No call is in flight and a `Dequeue` finds nothing. -/
def Drained (r : QueueRun S) : Prop :=
  r.tasks = [] ∧ ∀ entityId, (QueueStore.dequeue queueName entityId r.store).1 = none

/-- Nothing was returned more often than it was added, and a drained queue has returned all of it. -/
def Delivered (r : QueueRun S) : Prop :=
  r.returned.Subperm r.added ∧ (r.Drained queueName → r.returned.Perm r.added)

end

/-! ## Calls that are not interrupted -/

section
variable {S : Type*} [INodeStateStore S]

/-- `Add` on its own. -/
theorem run_add (queueName message entityId : String) (r : QueueRun S) (idle : r.tasks = []) (guid : String) :
    run (step queueName) r [.add message entityId, .next 0 guid] =
      some { r with store := QueueStore.add queueName message entityId r.store, added := r.added ++ [message] } := by
  simp only [run, step, idle, List.nil_append, Option.bind_some, List.getElem?_cons_zero, Option.map_some, advance,
    List.eraseIdx_cons_zero]
  rfl

/-- `Dequeue` on its own, when it finds a message. -/
theorem run_dequeue (queueName entityId : String) (r : QueueRun S) (idle : r.tasks = []) {value : String}
    (finds : (QueueStore.dequeue queueName entityId r.store).1 = some value) (guid : String) :
    run (step queueName) r [.dequeue, .next 0 guid, .next 0 entityId] =
      some { r with store := (QueueStore.dequeue queueName entityId r.store).2, returned := r.returned ++ [value] } := by
  unfold QueueStore.dequeue QueueStore.consumedVersion at finds ⊢
  cases found : getSpecificEntityType (queue queueName)
      (QueueStore.versionToTake (getLastEntityType (consumedQueueMessage queueName) r.store)) r.store with
  | none => simp [found] at finds
  | some entityType =>
    simp only [found, Option.some_inj] at finds
    simp [run, step, idle, advance, found, finds]

end

/-! ## Calls that are not overtaken -/

section
variable {S : Type*} [INodeStateStore S] {queueName : String}

/-- Of what was added the first `taken` messages were returned, and a call that has read a message has
read the one at its place. -/
structure InOrder (queueName : String) (r : QueueRun S) (taken : Nat) : Prop where
  holds : QueueStore.Holds queueName r.store r.added taken
  returned : r.returned = r.added.take taken
  reads : ∀ lastEntityType entityType, QueueTask.found lastEntityType entityType ∈ r.tasks →
    ∃ place : Nat, QueueStore.versionToTake lastEntityType = place ∧ r.added[place]? = some entityType.value

/-- What was read does not change when messages are added and calls end. -/
theorem InOrder.reads_of_subset {r : QueueRun S} {taken : Nat} (inOrder : InOrder queueName r taken)
    {tasks : List QueueTask} (subset : tasks ⊆ r.tasks) (more : List String) :
    ∀ lastEntityType entityType, QueueTask.found lastEntityType entityType ∈ tasks →
      ∃ place : Nat, QueueStore.versionToTake lastEntityType = place ∧
        (r.added ++ more)[place]? = some entityType.value := by
  intro lastEntityType entityType member
  obtain ⟨place, version, value⟩ := inOrder.reads lastEntityType entityType (subset member)
  obtain ⟨inside, _⟩ := List.getElem?_eq_some_iff.mp value
  exact ⟨place, version, by rw [List.getElem?_append_left inside, value]⟩

/-- A new call only reads. -/
theorem InOrder.begin {r : QueueRun S} {taken : Nat} (inOrder : InOrder queueName r taken) {task : QueueTask}
    (reading : ∀ lastEntityType entityType, task ≠ .found lastEntityType entityType) :
    InOrder queueName { r with tasks := r.tasks ++ [task] } taken := by
  refine ⟨inOrder.holds, inOrder.returned, fun lastEntityType entityType member => ?_⟩
  rcases List.mem_append.mp member with old | new
  · exact inOrder.reads lastEntityType entityType old
  · exact absurd (List.mem_singleton.mp new).symm (reading lastEntityType entityType)

variable [LawfulNodeStateStore S]

/-- The next operation of a call that has not been overtaken. -/
theorem InOrder.advance {r : QueueRun S} {taken k : Nat} (inOrder : InOrder queueName r taken) {task : QueueTask}
    (inFlight : r.tasks[k]? = some task) (upToDate : r.UpToDate queueName task) (entityId : String) :
    ∃ taken, InOrder queueName (r.advance queueName k entityId task) taken := by
  have erased : r.tasks.eraseIdx k ⊆ r.tasks := (List.eraseIdx_sublist r.tasks k).subset
  cases task with
  | add message guid existingValue =>
    obtain ⟨current, room⟩ := upToDate
    have version : QueueStore.versionToAdd existingValue = r.added.length := by
      rw [← current]
      exact inOrder.holds.messageVersion_eq
    refine ⟨taken, ?_, ?_, inOrder.reads_of_subset erased [message]⟩
    · simp only [QueueRun.advance, version]
      exact inOrder.holds.add_message guid message room
    · exact inOrder.returned.trans (List.take_append_of_le_length inOrder.holds.taken_le).symm
  | dequeue lastEntityType =>
    have unchanged := inOrder.reads_of_subset erased []
    rw [List.append_nil] at unchanged
    cases read : getSpecificEntityType (queue queueName) (QueueStore.versionToTake lastEntityType) r.store with
    | none =>
      simp only [QueueRun.advance, read]
      exact ⟨taken, inOrder.holds, inOrder.returned, unchanged⟩
    | some entityType =>
      simp only [QueueRun.advance, read]
      refine ⟨taken, inOrder.holds, inOrder.returned, fun last message member => ?_⟩
      rcases List.mem_or_eq_of_mem_set member with old | new
      · exact inOrder.reads last message old
      · obtain ⟨rfl, rfl⟩ := QueueTask.found.inj new
        have message := inOrder.holds.messages (QueueStore.versionToTake last)
        rw [read, Option.map_some] at message
        split at message
        next low => exact ⟨_, (Int.toNat_of_nonneg low).symm, message.symm⟩
        next => simp at message
  | found lastEntityType entityType =>
    have current : QueueStore.versionToTake lastEntityType = taken := by
      rw [← (show getLastEntityType (consumedQueueMessage queueName) r.store = lastEntityType from upToDate)]
      exact inOrder.holds.consumedVersion_eq
    obtain ⟨place, version, value⟩ := inOrder.reads lastEntityType entityType (List.mem_of_getElem? inFlight)
    obtain rfl : place = taken := by omega
    obtain ⟨inside, _⟩ := List.getElem?_eq_some_iff.mp value
    have unchanged := inOrder.reads_of_subset erased []
    rw [List.append_nil] at unchanged
    refine ⟨place + 1, ?_, ?_, unchanged⟩
    · simp only [QueueRun.advance, current]
      exact inOrder.holds.add_marker entityId inside
    · show r.returned ++ [entityType.value] = r.added.take (place + 1)
      rw [List.take_add_one, value, ← inOrder.returned]
      rfl

theorem InOrder.step {r t : QueueRun S} {taken : Nat} (inOrder : InOrder queueName r taken) {s : QueueStep}
    (notOvertaken : r.NotOvertaken queueName s) (taken_step : r.step queueName s = some t) :
    ∃ taken, InOrder queueName t taken := by
  cases s with
  | add message entityId =>
    cases taken_step
    exact ⟨taken, inOrder.begin (by simp)⟩
  | dequeue =>
    cases taken_step
    exact ⟨taken, inOrder.begin (by simp)⟩
  | next k entityId =>
    obtain ⟨task, inFlight, rfl⟩ := Option.map_eq_some_iff.mp taken_step
    exact inOrder.advance inFlight (notOvertaken task inFlight) entityId

theorem InOrder.delivered {r : QueueRun S} {taken : Nat} (inOrder : InOrder queueName r taken) :
    r.Delivered queueName := by
  rw [Delivered, inOrder.returned]
  refine ⟨(List.take_sublist _ _).subperm, fun drained => ?_⟩
  have nothing := drained.2 ""
  rw [(inOrder.holds.dequeue "").1] at nothing
  rw [List.take_of_length_le (List.getElem?_eq_none_iff.mp nothing)]

end

/-- **No message is lost or doubled by calls that are not overtaken.** -/
theorem delivered_of_not_overtaken {queueName : String} {store : NodeStateStore}
    (unused : QueueStore.Unused queueName store) {steps : List QueueStep} {t : QueueRun NodeStateStore}
    (along : Along (step queueName) (NotOvertaken queueName) { store := store } steps)
    (reached : run (step queueName) { store := store } steps = some t) : t.Delivered queueName := by
  have start : InOrder queueName { store := store } 0 := ⟨unused.holds, rfl, by simp⟩
  obtain ⟨taken, inOrder⟩ := run_invariant (fun r => ∃ taken, InOrder queueName r taken)
    (fun _ _ _ inv ok stepped => inv.elim fun _ inOrder => inOrder.step ok stepped) ⟨0, start⟩ along reached
  exact inOrder.delivered

/-- Two messages and two reads, where the second `Add` and the second `Dequeue` begin while others are in
flight. -/
def overlappingSteps : List QueueStep :=
  [.dequeue, .add "m1" "g1", .next 1 "", .add "m2" "g2", .next 0 "", .next 1 "g3", .next 0 "", .dequeue, .next 0 "",
    .next 0 "g4"]

theorem delivered_of_overlapping_calls :
    ∃ t, run (step "q") { store := NodeStateStore.inMemory [] } overlappingSteps = some t ∧
      t.returned = ["m1", "m2"] ∧ t.Delivered "q" := by
  obtain ⟨t, reached, returned⟩ : ∃ t, run (step "q") { store := NodeStateStore.inMemory [] } overlappingSteps =
      some t ∧ t.returned = ["m1", "m2"] := run_checked (by decide)
  exact ⟨t, reached, returned,
    delivered_of_not_overtaken (QueueStore.unused_inMemory (by simp)) (by decide) reached⟩

/-- Both `Add` calls read the empty queue and write version 0. -/
def overtakingSteps : List QueueStep :=
  [.add "m1" "g1", .add "m2" "g2", .next 0 "", .next 0 "", .dequeue, .next 0 "", .next 0 "g3", .dequeue, .next 0 ""]

/-- One of the two messages is lost. -/
theorem lost_by_overtaking :
    ∃ t, run (step "q") { store := NodeStateStore.inMemory [] } overtakingSteps = some t ∧ ¬ t.Delivered "q" := by
  refine ⟨_, rfl, fun delivered => ?_⟩
  have perm := delivered.2 ⟨rfl, fun entityId => rfl⟩
  exact absurd perm.length_eq (by decide)

end QueueRun

end FaasNet.EventMesh
