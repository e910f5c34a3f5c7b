import Mathlib
import FaasNet.Lib.Runs
import FaasNet.Lib.Lists

/-!
# The offsets of the sinks

A sink counts what it has handled, under its job and the topic. `IncrementOffset` of the RocksDB store reads under one
lock and writes under another, so that calls of one job and topic can overtake each other, and its key joins two names
that may hold the joining character. The store counts exactly as long as neither happens.
-/

namespace FaasNet.EventMesh

open FaasNet.Lib

/-! ## The store in RocksDB -/

/-- The database of the offsets. A number is stored as its text, which is read back as the number. -/
abbrev RocksDb := String → Option Int64

namespace SubscriptionStore

def buildKey (jobId topic : String) : String := jobId ++ "_" ++ topic

/-- `GetOffset`, under one lock. -/
def getOffset (db : RocksDb) (jobId topic : String) : Int64 := (db (buildKey jobId topic)).getD 0

/-- What `IncrementOffset` writes, under the next one. -/
def putOffset (db : RocksDb) (jobId topic : String) (offset : Int64) : RocksDb :=
  Function.update db (buildKey jobId topic) (some (offset + 1))

end SubscriptionStore

/-- A call of `IncrementOffset` that has read the offset. -/
structure IncrementOffset where
  jobId : String
  topic : String
  offset : Int64
  deriving DecidableEq, Repr

/-- The database, the calls in flight and the completed ones. -/
structure Increments where
  db : RocksDb := fun _ => none
  inFlight : List IncrementOffset := []
  completed : List (String × String) := []

/-- Between two locks a call may wait for any of the others. -/
inductive IncrementStep where
  | read (jobId topic : String)
  | write (k : Nat)
  deriving DecidableEq, Repr

namespace Increments
variable {r : Increments} {call : IncrementOffset}

def write (r : Increments) (k : Nat) (call : IncrementOffset) : Increments where
  db := SubscriptionStore.putOffset r.db call.jobId call.topic call.offset
  inFlight := r.inFlight.eraseIdx k
  completed := r.completed ++ [(call.jobId, call.topic)]

def step (r : Increments) : IncrementStep → Option Increments
  | .read jobId topic =>
    some { r with inFlight := r.inFlight ++ [⟨jobId, topic, SubscriptionStore.getOffset r.db jobId topic⟩] }
  | .write k => r.inFlight[k]?.map (r.write k)

/-- The offset of a job and a topic is the number of their completed calls. -/
def CountsExactly (r : Increments) : Prop :=
  ∀ jobId topic, (SubscriptionStore.getOffset r.db jobId topic).toInt = r.completed.count (jobId, topic)

/-! ## The condition -/

/-- The key of a job and a topic is not that of others. -/
def OwnKey (jobId topic : String) : Prop := '_' ∉ jobId.toList ∧ '_' ∉ topic.toList

/-- A call that writes has not been overtaken: the offset it has read is still there. The key is its own, and the offset
has room. -/
structure Fits (r : Increments) (call : IncrementOffset) : Prop where
  ownKey : OwnKey call.jobId call.topic
  current : SubscriptionStore.getOffset r.db call.jobId call.topic = call.offset
  room : call.offset.toInt + 1 < 2 ^ 63

def Counted (r : Increments) : IncrementStep → Prop
  | .read _ _ => True
  | .write k => ∀ call, r.inFlight[k]? = some call → r.Fits call

/-! ## Keys -/

theorem buildKey_toList (jobId topic : String) :
    (SubscriptionStore.buildKey jobId topic).toList = jobId.toList ++ '_' :: topic.toList := by
  simp [SubscriptionStore.buildKey]

theorem buildKey_eq_iff {jobId topic jobId' topic' : String} (own : OwnKey jobId topic) :
    SubscriptionStore.buildKey jobId' topic' = SubscriptionStore.buildKey jobId topic ↔ jobId' = jobId ∧ topic' = topic := by
  constructor
  · intro same
    have lists := congrArg String.toList same
    rw [buildKey_toList, buildKey_toList, eq_comm] at lists
    obtain ⟨jobs, -, topics⟩ := (List.append_cons_inj_of_notMem own.1 own.2).mp lists
    exact ⟨String.toList_inj.mp jobs.symm, String.toList_inj.mp topics.symm⟩
  · rintro ⟨rfl, rfl⟩
    rfl

/-- A name with the joining character gives its key to another pair too. -/
theorem exists_same_key {jobId topic : String} (shared : ¬ OwnKey jobId topic) :
    ∃ jobId' topic', (jobId', topic') ≠ (jobId, topic) ∧
      SubscriptionStore.buildKey jobId' topic' = SubscriptionStore.buildKey jobId topic := by
  by_cases inJob : '_' ∈ jobId.toList
  · obtain ⟨before, after, split⟩ := List.append_of_mem inJob
    refine ⟨String.ofList before, String.ofList (after ++ '_' :: topic.toList), fun same => ?_, ?_⟩
    · have shorter := congrArg (·.1.toList.length) same
      simp [split] at shorter
    · apply String.toList_inj.mp
      rw [buildKey_toList, buildKey_toList, split]
      simp
  · have inTopic : '_' ∈ topic.toList := by
      by_contra outside
      exact shared ⟨inJob, outside⟩
    obtain ⟨before, after, split⟩ := List.append_of_mem inTopic
    refine ⟨String.ofList (jobId.toList ++ '_' :: before), String.ofList after, fun same => ?_, ?_⟩
    · have longer := congrArg (·.1.toList.length) same
      simp at longer
    · apply String.toList_inj.mp
      rw [buildKey_toList, buildKey_toList, split]
      simp

/-! ## What a step does -/

theorem getOffset_putOffset (db : RocksDb) (jobId topic : String) (offset : Int64) (jobId' topic' : String) :
    SubscriptionStore.getOffset (SubscriptionStore.putOffset db jobId topic offset) jobId' topic' =
      if SubscriptionStore.buildKey jobId' topic' = SubscriptionStore.buildKey jobId topic then offset + 1
      else SubscriptionStore.getOffset db jobId' topic' := by
  rw [SubscriptionStore.getOffset, SubscriptionStore.putOffset, Function.update_apply]
  split_ifs <;> rfl

theorem count_completed (r : Increments) (k : Nat) (call : IncrementOffset) (pair : String × String) :
    (r.write k call).completed.count pair =
      r.completed.count pair + if pair = (call.jobId, call.topic) then 1 else 0 := by
  rw [write, List.count_append, List.count_singleton]
  simp only [beq_iff_eq, @eq_comm _ pair]

/-- What the calls in flight have read is not more than what is completed. -/
def ReadsCounted (r : Increments) : Prop :=
  ∀ call ∈ r.inFlight, 0 ≤ call.offset.toInt ∧ call.offset.toInt ≤ r.completed.count (call.jobId, call.topic)

theorem toInt_succ {offset : Int64} (nonneg : 0 ≤ offset.toInt) (room : offset.toInt + 1 < 2 ^ 63) :
    (offset + 1).toInt = offset.toInt + 1 := by
  have one : (1 : Int64).toInt = 1 := by decide
  rw [Int64.toInt_add, one]
  exact Int.bmod_eq_of_le (by omega) (by omega)

/-- A write keeps the counts exactly if it fits. -/
theorem write_countsExactly_iff (counts : r.CountsExactly) (nonneg : 0 ≤ call.offset.toInt)
    (read : call.offset.toInt ≤ r.completed.count (call.jobId, call.topic)) (k : Nat) :
    (r.write k call).CountsExactly ↔ r.Fits call := by
  have stored := counts call.jobId call.topic
  constructor
  · intro after
    have own := after call.jobId call.topic
    have written : SubscriptionStore.getOffset (r.write k call).db call.jobId call.topic = call.offset + 1 := by
      rw [write, getOffset_putOffset, if_pos rfl]
    rw [count_completed, if_pos rfl, written] at own
    have bound := (call.offset + 1).toInt_lt
    have room : call.offset.toInt + 1 < 2 ^ 63 := by omega
    rw [toInt_succ nonneg room] at own
    refine ⟨?_, Int64.toInt_inj.mp (by omega), room⟩
    by_contra shared
    obtain ⟨jobId, topic, apart, sameKey⟩ := exists_same_key shared
    have other := after jobId topic
    have before := counts jobId topic
    rw [count_completed, if_neg apart, write, getOffset_putOffset, if_pos sameKey, toInt_succ nonneg room] at other
    rw [SubscriptionStore.getOffset, sameKey, ← SubscriptionStore.getOffset] at before
    omega
  · rintro ⟨ownKey, current, room⟩ jobId topic
    rw [count_completed, write, getOffset_putOffset]
    by_cases here : jobId = call.jobId ∧ topic = call.topic
    · obtain ⟨rfl, rfl⟩ := here
      rw [if_pos rfl, if_pos rfl, toInt_succ nonneg room, ← current, stored]
      push_cast
      rfl
    · have apart : (jobId, topic) ≠ (call.jobId, call.topic) := fun same => here (Prod.mk.inj same)
      rw [if_neg ((buildKey_eq_iff ownKey).not.mpr here), if_neg apart]
      exact counts jobId topic

/-- A step from an exact count keeps what the calls in flight have read. -/
theorem readsCounted_step {a : IncrementStep} {t : Increments} (reads : r.ReadsCounted) (counts : r.CountsExactly)
    (taken : r.step a = some t) : t.ReadsCounted := by
  cases a with
  | read jobId topic =>
    obtain rfl := Option.some.inj taken
    intro call mem
    rcases List.mem_append.mp mem with earlier | new
    · exact reads call earlier
    · obtain rfl := List.mem_singleton.mp new
      have stored := counts jobId topic
      exact ⟨by rw [stored]; omega, Int.le_of_eq stored⟩
  | write k =>
    obtain ⟨written, found, rfl⟩ := Option.map_eq_some_iff.mp taken
    intro call mem
    obtain ⟨nonneg, read⟩ := reads call (List.mem_of_mem_eraseIdx mem)
    refine ⟨nonneg, ?_⟩
    rw [count_completed]
    omega

/-- A step keeps the counts exactly if it is a read or a write that fits. -/
theorem step_countsExactly_iff {a : IncrementStep} {t : Increments} (reads : r.ReadsCounted) (counts : r.CountsExactly)
    (taken : r.step a = some t) : t.CountsExactly ↔ r.Counted a := by
  cases a with
  | read jobId topic =>
    obtain rfl := Option.some.inj taken
    exact iff_of_true counts trivial
  | write k =>
    obtain ⟨call, found, rfl⟩ := Option.map_eq_some_iff.mp taken
    obtain ⟨nonneg, read⟩ := reads call (List.mem_of_getElem? found)
    rw [write_countsExactly_iff counts nonneg read, Counted]
    constructor
    · intro fits call' found'
      obtain rfl := Option.some.inj (found.symm.trans found')
      exact fits
    · intro fits
      exact fits call found

end Increments

/-! ## The store in memory -/

structure SubscriptionResult where
  jobId : String
  topic : String
  offset : Int64
  deriving DecidableEq, Repr

def SubscriptionResult.increment (s : SubscriptionResult) : SubscriptionResult := { s with offset := s.offset + 1 }

namespace InMemorySubscriptionStore

/-- The first record of the pair is the one that is read and changed. -/
def isOf (jobId topic : String) (s : SubscriptionResult) : Bool := s.jobId = jobId ∧ s.topic = topic

def getOffset (subscriptionLst : List SubscriptionResult) (jobId topic : String) : Int64 :=
  (subscriptionLst.find? (isOf jobId topic)).elim 0 (·.offset)

def incrementOffset (subscriptionLst : List SubscriptionResult) (jobId topic : String) : List SubscriptionResult :=
  match subscriptionLst.findIdx? (isOf jobId topic) with
  | none => subscriptionLst ++ [⟨jobId, topic, 1⟩]
  | some k => subscriptionLst.modify k SubscriptionResult.increment

theorem isOf_eq_true {jobId topic : String} {s : SubscriptionResult} :
    isOf jobId topic s = true ↔ (s.jobId, s.topic) = (jobId, topic) := by
  rw [isOf, decide_eq_true_iff, Prod.mk.injEq]

/-- A call adds one to its own offset. -/
theorem getOffset_incrementOffset (subscriptionLst : List SubscriptionResult) (jobId topic jobId' topic' : String) :
    getOffset (incrementOffset subscriptionLst jobId topic) jobId' topic' =
      getOffset subscriptionLst jobId' topic' + if (jobId', topic') = (jobId, topic) then 1 else 0 := by
  rw [incrementOffset]
  cases found : subscriptionLst.findIdx? (isOf jobId topic) with
  | none =>
    have absent : subscriptionLst.find? (isOf jobId topic) = none :=
      List.find?_eq_none.mpr fun s mem => by simp [List.findIdx?_eq_none_iff.mp found s mem]
    rw [getOffset, getOffset, List.find?_append]
    split_ifs with own
    · obtain ⟨rfl, rfl⟩ := Prod.mk.inj own
      simp [absent, isOf]
    · have other : isOf jobId' topic' ⟨jobId, topic, 1⟩ = false := by
        rw [Bool.eq_false_iff, ne_eq, isOf_eq_true, eq_comm]
        exact own
      rw [List.find?_singleton, other]
      simp
  | some k =>
    have changed : subscriptionLst.modify k SubscriptionResult.increment =
        (subscriptionLst.findIdx? (isOf jobId topic)).elim subscriptionLst fun k =>
          subscriptionLst.modify k SubscriptionResult.increment := by
      rw [found]
      rfl
    show getOffset (subscriptionLst.modify k SubscriptionResult.increment) jobId' topic' = _
    rw [changed, getOffset, getOffset]
    split_ifs with own
    · obtain ⟨rfl, rfl⟩ := Prod.mk.inj own
      rw [find?_modifyFirst (f := SubscriptionResult.increment) fun _ => rfl]
      cases present : subscriptionLst.find? (isOf jobId' topic') with
      | none =>
        rw [List.find?_eq_none] at present
        rw [List.findIdx?_eq_none_iff.mpr fun s mem => by simpa using present s mem] at found
        cases found
      | some s => rfl
    · rw [find?_modifyFirst_other (f := SubscriptionResult.increment) (fun _ => rfl) fun s here there => own ?_]
      · show _ = _ + 0
        rw [Int64.add_zero]
      · exact (isOf_eq_true.mp there).symm.trans (isOf_eq_true.mp here)

/-- The calls one after the other. -/
theorem getOffset_foldl (calls : List (String × String)) (jobId topic : String) :
    getOffset (calls.foldl (fun lst call => incrementOffset lst call.1 call.2) []) jobId topic =
      Int64.ofNat (calls.count (jobId, topic)) := by
  induction calls using List.reverseRecOn with
  | nil => rfl
  | append_singleton calls call ih =>
    rw [List.foldl_append, List.foldl_cons, List.foldl_nil, getOffset_incrementOffset, ih, List.count_append,
      List.count_singleton, Int64.ofNat_add]
    simp only [beq_iff_eq, @eq_comm _ call]
    split_ifs <;> rfl

end InMemorySubscriptionStore

/-! ## Counting -/

namespace Increments

/-- The offsets count exactly in every state of a run if and only if every write fits; calls in memory, one after the
other, are counted. -/
theorem always_countsExactly_iff (steps : List IncrementStep) :
    (Always step CountsExactly {} steps ↔ Along step Counted {} steps) ∧
      ∀ (calls : List (String × String)) (jobId topic : String), InMemorySubscriptionStore.getOffset
        (calls.foldl (fun lst call => InMemorySubscriptionStore.incrementOffset lst call.1 call.2) []) jobId topic =
          Int64.ofNat (calls.count (jobId, topic)) := by
  refine ⟨?_, InMemorySubscriptionStore.getOffset_foldl⟩
  apply always_iff_along ReadsCounted
  · intro r a t reads counts taken
    exact readsCounted_step reads counts taken
  · intro r a _ _ disabled
    cases a with
    | read jobId topic => cases disabled
    | write k =>
      intro call found
      have missing := Option.map_eq_none_iff.mp disabled
      rw [found] at missing
      cases missing
  · intro r a t reads counts taken
    exact step_countsExactly_iff reads counts taken
  · intro call mem
    cases mem
  · intro jobId topic
    rfl

/-- Two calls of a job on its topic that both read before either writes are counted once. -/
theorem not_always_countsExactly_overlapping :
    ¬ Always step CountsExactly {} [.read "job" "#", .read "job" "#", .write 0, .write 0] := by
  intro always
  have counts := always.reached rfl "job" "#"
  revert counts
  decide

end Increments

end FaasNet.EventMesh
