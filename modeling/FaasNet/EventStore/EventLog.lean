import Mathlib
import FaasNet.Lib.KeySort
import FaasNet.EventStore.CommitAggregate

/-!
# Reading the event log

`InMemoryEventStoreConsumer.Search` over what `InMemoryEventStoreProducer.Append` puts into the bag. A bag promises no order,
so it is any arrangement of what was appended; the reader goes by the times of the events.
-/

namespace FaasNet.EventStore

open FaasNet.Lib FaasNet.Domain

section
variable {P : Type*}

/-- The cast of an offset to `int`, and `Skip`, for which a negative number is none. -/
def skipped (offset : Nat) : Nat := (Int32.ofNat offset).toInt.toNat

/-- `InMemoryEventStoreConsumer.Search`, of the bag as it is enumerated. -/
def searchBag (evts : List (SerializedEvent P)) (topicName : String) (offset : Option Nat) : List (DomainEvent P) :=
  ((sortedBy (·.creationDateTime) (fun e => e.topic = topicName) evts).drop (offset.elim 0 skipped)).map (·.evt)

theorem skipped_le (offset : Nat) : skipped offset ≤ offset := by
  have size : Int32.size = 4294967296 := rfl
  rw [skipped, Int32.toInt_ofNat', Int.bmod_def, size]
  split <;> omega

theorem skipped_eq_iff {offset : Nat} : skipped offset = offset ↔ offset < 2 ^ 31 := by
  have size : Int32.size = 4294967296 := rfl
  rw [skipped, Int32.toInt_ofNat', Int.bmod_def, size]
  split <;> omega

end

namespace EventStores

section
variable {S P I : Type*} {utcNow : Nat → Nat} {calls : List (String × DomainEvent P)}

/-- The stores after some calls of `Append`; call `n` reads the time `utcNow n`. -/
def appendAll (S I : Type*) (utcNow : Nat → Nat) (calls : List (String × DomainEvent P)) : EventStores S P I :=
  calls.foldl (fun stores call => stores.append utcNow call.1 call.2) {}

theorem appendAll_concat (call : String × DomainEvent P) :
    appendAll S I utcNow (calls ++ [call]) = (appendAll S I utcNow calls).append utcNow call.1 call.2 := by
  simp only [appendAll, List.foldl_append, List.foldl_cons, List.foldl_nil]

theorem timed_appendAll (calls : List (String × DomainEvent P)) : (appendAll S I utcNow calls).Timed utcNow := by
  induction calls using List.reverseRecOn with
  | nil => rfl
  | append_singleton calls call ih =>
    rw [appendAll_concat]
    exact timed_append ih call.1 call.2

theorem topicEvents_appendAll (calls : List (String × DomainEvent P)) (topicName : String) :
    (appendAll S I utcNow calls).topicEvents topicName = (calls.filter (·.1 = topicName)).map (·.2) := by
  induction calls using List.reverseRecOn with
  | nil => rfl
  | append_singleton calls call ih =>
    rw [appendAll_concat, topicEvents_append, ih, List.filter_append, List.map_append]
    by_cases same : call.1 = topicName <;> simp [same]

/-- With a clock that does not go back, events are in the order of their times as they were appended. -/
theorem byKey_appendAll (increasing : Monotone utcNow) (calls : List (String × DomainEvent P)) :
    ByKey (·.creationDateTime) (appendAll S I utcNow calls).evts := by
  have times : ((List.range (appendAll S I utcNow calls).evts.length).map utcNow).Pairwise (· ≤ ·) :=
    List.pairwise_map.mpr (List.pairwise_lt_range.imp fun lt => increasing (Nat.le_of_lt lt))
  rw [← timed_appendAll calls] at times
  exact List.pairwise_map.mp times

/-- The events of the topic with their times, in the order they were appended. -/
def topicLog (stores : EventStores S P I) (topicName : String) : List (SerializedEvent P) :=
  stores.evts.filter fun e => e.topic = topicName

/-- **A topic is read in the order it was written, whatever the bag yields, exactly if the offset can be skipped, and events
of one time are equal when one of them is read.** -/
theorem searchBag_iff (increasing : Monotone utcNow) (calls : List (String × DomainEvent P)) (topicName : String) (n : Nat) :
    (∀ evts, evts.Perm (appendAll S I utcNow calls).evts →
        searchBag evts topicName (some n) = ((calls.filter (·.1 = topicName)).map (·.2)).drop n) ↔
      (n < 2 ^ 31 ∨ (calls.filter (·.1 = topicName)).length ≤ skipped n) ∧
        ∀ (i j : Nat) (a b : SerializedEvent P), ((appendAll S I utcNow calls).topicLog topicName)[i]? = some a →
          ((appendAll S I utcNow calls).topicLog topicName)[j]? = some b → n ≤ j →
          a.creationDateTime = b.creationDateTime → a.evt = b.evt := by
  have events : ((appendAll S I utcNow calls).topicLog topicName).map (·.evt) = (calls.filter (·.1 = topicName)).map (·.2) :=
    topicEvents_appendAll calls topicName
  have long := congrArg List.length events
  rw [List.length_map, List.length_map] at long
  rw [← events, ← skipped_eq_iff, ← long]
  simp only [searchBag, Option.elim_some, List.map_drop]
  exact drop_sortedBy_iff (byKey_appendAll increasing calls) (skipped_le n)

end

/-! ## Two events at one time -/

def namedEvent (name : String) : DomainEvent Unit where
  id := name
  aggregateId := none
  payload := ()

def twoEvents (utcNow : Nat → Nat) : EventStores Unit Unit Unit :=
  appendAll Unit Unit utcNow [("topic", namedEvent "first"), ("topic", namedEvent "second")]

/-- The clock has gone on between them, and the bag yields the last one first. -/
theorem searchBag_ticking :
    searchBag (twoEvents id).evts.reverse "topic" (some 0) = [namedEvent "first", namedEvent "second"] := by
  have right := (@searchBag_iff Unit Unit Unit id monotone_id [("topic", namedEvent "first"), ("topic", namedEvent "second")]
    "topic" 0).mpr
  refine right ⟨.inl (by decide), fun i j a b first second _ same => ?_⟩ _ (List.reverse_perm _)
  have log : (twoEvents id).topicLog "topic" = [⟨"topic", namedEvent "first", 0⟩, ⟨"topic", namedEvent "second", 1⟩] := rfl
  have among : ∀ e ∈ (twoEvents id).topicLog "topic", e = ⟨"topic", namedEvent "first", 0⟩ ∨
      e = ⟨"topic", namedEvent "second", 1⟩ := by
    rw [log]
    simp
  rcases among a (List.mem_of_getElem? first) with rfl | rfl <;> rcases among b (List.mem_of_getElem? second) with rfl | rfl
  · rfl
  · cases same
  · cases same
  · rfl

/-- Both were appended in one tick. -/
theorem not_searchBag_sameTick : (twoEvents fun _ => 0).evts.reverse.Perm (twoEvents fun _ => 0).evts ∧
    searchBag (twoEvents fun _ => 0).evts.reverse "topic" (some 0) = [namedEvent "second", namedEvent "first"] ∧
    ¬ ∀ evts, evts.Perm (twoEvents fun _ => 0).evts →
      searchBag evts "topic" (some 0) = [namedEvent "first", namedEvent "second"] := by
  have read : searchBag (twoEvents fun _ => 0).evts.reverse "topic" (some 0) =
      [namedEvent "second", namedEvent "first"] := rfl
  refine ⟨List.reverse_perm _, read, fun all => ?_⟩
  have wrong := all _ (List.reverse_perm _)
  rw [read] at wrong
  exact absurd wrong (by decide)

end EventStores

end FaasNet.EventStore
