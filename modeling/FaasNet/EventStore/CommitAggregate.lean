import Mathlib.Order.Monotone.Basic
import FaasNet.Lib.EventSourcing
import FaasNet.Lib.Ranked
import FaasNet.Lib.Runs
import FaasNet.Common.AggregateRoot

/-!
# Committing and loading aggregates

`CommitAggregateHelper` over the in-memory event store and snapshot repository. `Commit` appends the domain
events of an aggregate to its topic and now and then keeps a snapshot of it; `Get` loads the latest snapshot
and handles the events after it. A bag is the list of its items. The stores hold the events and the aggregates themselves;
what is read of the JSON of an event, alone or among those that a snapshot has, is that of the codec of the class. The
clock is read once for every event that is appended.
-/

namespace FaasNet.EventStore

open FaasNet.Lib FaasNet.Domain

/-- `SerializedEvent`. -/
structure SerializedEvent (P : Type*) where
  topic : String
  evt : DomainEvent P
  creationDateTime : Nat

/-- `InMemoryEventStoreSnapshotRepository.Snapshot`. -/
structure Snapshot (S P I : Type*) where
  version : Nat
  aggregateId : Option String
  lastEvtOffset : Nat
  content : AggregateRoot S P I

/-- The bags of the in-memory event store and of the snapshot repository. -/
structure EventStores (S P I : Type*) where
  evts : List (SerializedEvent P) := []
  snapshots : List (Snapshot S P I) := []

/-- What is used of a class of aggregates: its topic, its `Id`, a new instance, `Handle`, and the codec of its events, which
gives what is read of the JSON of an event. -/
structure AggregateClass (S P X : Type*) where
  topic : String
  id : S → Option String
  new : S
  handle : S → DomainEvent P → S × Except X Unit
  reread : DomainEvent P → Except X (DomainEvent P)

/-- A codec that gives every event back. -/
def Lossless {P X : Type*} (reread : DomainEvent P → Except X (DomainEvent P)) : Prop := ∀ evt, reread evt = .ok evt

/-- `$"{Topic}-{Id}"`. -/
def topicOf (topic : String) (id : Option String) : String := topic ++ "-" ++ id.getD ""

namespace EventStores

section
variable {S P I X : Type*} (utcNow : Nat → Nat) (reread : DomainEvent P → Except X (DomainEvent P))

/-- `InMemoryEventStoreProducer.Append`; `utcNow n` is the time at which event `n` is appended. -/
def append (topicName : String) (stores : EventStores S P I) (domainEvt : DomainEvent P) : EventStores S P I :=
  { stores with evts := stores.evts ++ [⟨topicName, domainEvt, utcNow stores.evts.length⟩] }

/-- `InMemoryEventStoreConsumer.Search`. -/
def search (stores : EventStores S P I) (topicName : String) (offset : Nat) : Except X (List (DomainEvent P)) :=
  (((stores.evts.insertionSort fun a b => a.creationDateTime ≤ b.creationDateTime).filter
    fun e => e.topic = topicName).drop offset).mapM fun e => reread e.evt

/-- `InMemoryEventStoreSnapshotRepository.Add`. -/
def addSnapshot (stores : EventStores S P I) (id : Option String) (domain : AggregateRoot S P I) : EventStores S P I :=
  { stores with snapshots := stores.snapshots ++ [⟨domain.version, id, domain.lastEvtOffset, domain⟩] }

/-- `InMemoryEventStoreSnapshotRepository.GetLatest`. -/
def getLatest (stores : EventStores S P I) (id : String) : Except X (Option (AggregateRoot S P I)) :=
  match (descending Snapshot.version stores.snapshots).find? fun s => s.aggregateId = some id with
  | none => .ok none
  | some result =>
    match result.content.domainEvts.mapM reread with
    | .error e => .error e
    | .ok domainEvts => .ok (some { result.content with domainEvts })

end

end EventStores

namespace CommitAggregateHelper

section
variable {S P I X : Type*} (C : AggregateClass S P X)

/-- `Commit`: the aggregate and the stores after it. -/
def commit (snapshotFrequency : Nat) (utcNow : Nat → Nat) (domain : AggregateRoot S P I) (stores : EventStores S P I) :
    AggregateRoot S P I × EventStores S P I :=
  let domain := domain.commit
  let topic := topicOf C.topic (C.id domain.state)
  let stores := domain.domainEvts.foldl
    (fun stores evt => (stores.append utcNow topic evt).append utcNow C.topic evt) stores
  (domain, if domain.version % snapshotFrequency = 0 then stores.addSnapshot (C.id domain.state) domain else stores)

/-- `Get`, which throws when `Handle` does. -/
def get (aggregateId : String) (stores : EventStores S P I) : Except X (AggregateRoot S P I) :=
  match stores.getLatest C.reread aggregateId with
  | .error e => .error e
  | .ok latest =>
    let result := latest.getD { state := C.new }
    let offset := latest.elim 0 (·.lastEvtOffset)
    match stores.search C.reread (topicOf C.topic aggregateId) offset with
    | .error e => .error e
    | .ok evts =>
      match replay C.handle result.state evts with
      | (state, .ok ()) => .ok { result with state }
      | (_, .error e) => .error e

end

end CommitAggregateHelper

/-! ## What is in a topic -/

namespace EventStores

section
variable {S P I X : Type*} {utcNow : Nat → Nat} {reread : DomainEvent P → Except X (DomainEvent P)}

/-- The events were appended at the times of the clock. -/
def Timed (utcNow : Nat → Nat) (stores : EventStores S P I) : Prop :=
  stores.evts.map (·.creationDateTime) = (List.range stores.evts.length).map utcNow

/-- The events of a topic, in the order they were appended. -/
def topicEvents (stores : EventStores S P I) (topicName : String) : List (DomainEvent P) :=
  (stores.evts.filter fun e => e.topic = topicName).map (·.evt)

theorem mapM_reread (lossless : Lossless reread) (domainEvts : List (DomainEvent P)) :
    domainEvts.mapM reread = .ok domainEvts := by
  induction domainEvts with
  | nil => rfl
  | cons evt domainEvts ih => rw [List.mapM_cons, lossless evt, ih]; rfl

/-- With a clock that goes forward and a lossless codec, a topic is read in the order it was written. -/
theorem search_eq {stores : EventStores S P I} (lossless : Lossless reread) (increasing : StrictMono utcNow)
    (timed : stores.Timed utcNow) (topicName : String) (offset : Nat) :
    stores.search reread topicName offset = .ok ((stores.topicEvents topicName).drop offset) := by
  have ordered : stores.evts.Pairwise fun a b => a.creationDateTime ≤ b.creationDateTime := by
    have times : ((List.range stores.evts.length).map utcNow).Pairwise (· ≤ ·) :=
      List.pairwise_map.mpr (List.pairwise_lt_range.imp fun lt => increasing.monotone (Nat.le_of_lt lt))
    rw [← timed] at times
    exact List.pairwise_map.mp times
  have each := mapM_reread lossless ((stores.topicEvents topicName).drop offset)
  rw [topicEvents, ← List.map_drop, List.mapM_map] at each
  rw [search, ordered.insertionSort_eq, topicEvents, ← List.map_drop]
  exact each

theorem timed_append {stores : EventStores S P I} (timed : stores.Timed utcNow) (topicName : String)
    (domainEvt : DomainEvent P) : (stores.append utcNow topicName domainEvt).Timed utcNow := by
  unfold Timed at *
  simp [append, timed, List.range_succ]

theorem topicEvents_append (stores : EventStores S P I) (topicName other : String) (domainEvt : DomainEvent P) :
    (stores.append utcNow topicName domainEvt).topicEvents other =
      stores.topicEvents other ++ if topicName = other then [domainEvt] else [] := by
  by_cases same : topicName = other <;> simp [append, topicEvents, same]

@[simp] theorem timed_addSnapshot {stores : EventStores S P I} {id : Option String} {domain : AggregateRoot S P I} :
    (stores.addSnapshot id domain).Timed utcNow ↔ stores.Timed utcNow := Iff.rfl

@[simp] theorem topicEvents_addSnapshot (stores : EventStores S P I) (id : Option String)
    (domain : AggregateRoot S P I) (topicName : String) :
    (stores.addSnapshot id domain).topicEvents topicName = stores.topicEvents topicName := rfl

/-- `Commit` appends every event to the topic of the aggregate and to that of its class. -/
theorem append_each {stores : EventStores S P I} (timed : stores.Timed utcNow) {topicName other : String}
    (different : other ≠ topicName) (domainEvts : List (DomainEvent P)) :
    let after := domainEvts.foldl
      (fun stores evt => (stores.append utcNow topicName evt).append utcNow other evt) stores
    after.Timed utcNow ∧ after.topicEvents topicName = stores.topicEvents topicName ++ domainEvts ∧
      after.snapshots = stores.snapshots := by
  induction domainEvts generalizing stores with
  | nil => exact ⟨timed, (List.append_nil _).symm, rfl⟩
  | cons evt domainEvts ih =>
    obtain ⟨timedAfter, topic, snapshots⟩ := ih (timed_append (timed_append timed topicName evt) other evt)
    refine ⟨timedAfter, topic.trans ?_, snapshots⟩
    rw [topicEvents_append, topicEvents_append, if_neg different, if_pos rfl]
    simp

/-- Of all topics, the two that are appended to have the events, and nothing is taken away. -/
theorem append_each_topics (utcNow : Nat → Nat) {topicName other : String} (different : other ≠ topicName)
    (domainEvts : List (DomainEvent P)) (stores : EventStores S P I) :
    let after := domainEvts.foldl
      (fun stores evt => (stores.append utcNow topicName evt).append utcNow other evt) stores
    (∀ t, after.topicEvents t = stores.topicEvents t ++ if t = topicName ∨ t = other then domainEvts else []) ∧
      stores.evts <+: after.evts := by
  induction domainEvts generalizing stores with
  | nil => exact ⟨fun t => by simp, List.prefix_rfl⟩
  | cons evt domainEvts ih =>
    obtain ⟨topics, longer⟩ := ih ((stores.append utcNow topicName evt).append utcNow other evt)
    refine ⟨fun t => (topics t).trans ?_, ?_⟩
    · rw [topicEvents_append, topicEvents_append]
      by_cases own : t = topicName
      · simp [own, different]
      · by_cases same : t = other
        · simp [same, different.symm]
        · simp [own, same, Ne.symm own, Ne.symm same]
    · have first : stores.evts <+: ((stores.append utcNow topicName evt).append utcNow other evt).evts := by
        simp only [append, List.append_assoc]
        exact List.prefix_append _ _
      exact first.trans longer

end

end EventStores

theorem topicOf_ne (topic : String) (id : Option String) : topic ≠ topicOf topic id := by
  intro same
  have lengths := congrArg (fun text => text.toList.length) same
  simp only [topicOf, String.toList_append, List.length_append] at lengths
  have dash : "-".toList.length = 1 := by decide
  omega

theorem topicOf_inj {topic : String} {id id' : Option String} (same : topicOf topic id = topicOf topic id') :
    id.getD "" = id'.getD "" := by
  have texts := congrArg String.toList same
  simp only [topicOf, String.toList_append, List.append_assoc, List.append_cancel_left_eq] at texts
  exact String.toList_inj.mp texts

namespace CommitAggregateHelper

section
variable {S P I X : Type*} {utcNow : Nat → Nat}

/-- What a `Commit` does: it counts a version and the pending events, appends all of these to the topic, and
keeps a snapshot when the version is one for it. -/
structure Committed (C : AggregateClass S P X) (snapshotFrequency : Nat) (utcNow : Nat → Nat)
    (domain : AggregateRoot S P I) (stores : EventStores S P I) (after : AggregateRoot S P I × EventStores S P I) :
    Prop where
  aggregate : after.1 = domain.commit
  timed : after.2.Timed utcNow
  topic : after.2.topicEvents (topicOf C.topic (C.id domain.state)) =
    stores.topicEvents (topicOf C.topic (C.id domain.state)) ++ domain.commit.domainEvts
  snapshots : after.2.snapshots = stores.snapshots ++
    if (domain.version + 1) % snapshotFrequency = 0 then
      [⟨domain.version + 1, C.id domain.state, domain.lastEvtOffset + domain.domainEvts.length, domain.commit⟩] else []

theorem committed (C : AggregateClass S P X) (snapshotFrequency : Nat) {stores : EventStores S P I}
    (timed : stores.Timed utcNow) (domain : AggregateRoot S P I) :
    Committed C snapshotFrequency utcNow domain stores (commit C snapshotFrequency utcNow domain stores) := by
  obtain ⟨timedAfter, topic, snapshots⟩ := EventStores.append_each timed
    (topicOf_ne C.topic (C.id domain.state)) domain.commit.domainEvts
  by_cases due : (domain.version + 1) % snapshotFrequency = 0
  · refine ⟨rfl, ?_, ?_, ?_⟩
    · simpa [commit, AggregateRoot.commit, due] using timedAfter
    · simpa [commit, AggregateRoot.commit, due] using topic
    · simpa [commit, AggregateRoot.commit, due, EventStores.addSnapshot] using snapshots
  · refine ⟨rfl, ?_, ?_, ?_⟩
    · simpa [commit, AggregateRoot.commit, due] using timedAfter
    · simpa [commit, AggregateRoot.commit, due] using topic
    · simpa [commit, AggregateRoot.commit, due] using snapshots

/-- What a `Commit` does to all topics, when its version is none for a snapshot. -/
theorem commit_topics (C : AggregateClass S P X) {snapshotFrequency : Nat} (utcNow : Nat → Nat) (stores : EventStores S P I)
    {domain : AggregateRoot S P I} (notDue : (domain.version + 1) % snapshotFrequency ≠ 0) :
    let after := (commit C snapshotFrequency utcNow domain stores).2
    (∀ t, after.topicEvents t = stores.topicEvents t ++
      if t = topicOf C.topic (C.id domain.state) ∨ t = C.topic then domain.commit.domainEvts else []) ∧
      stores.evts <+: after.evts := by
  have each := EventStores.append_each_topics utcNow (topicOf_ne C.topic (C.id domain.state))
    domain.commit.domainEvts stores
  have version : ¬ domain.commit.version % snapshotFrequency = 0 := notDue
  simp only [commit, if_neg version]
  exact each

section
variable {C : AggregateClass S P X} {stores : EventStores S P I} {aggregateId : String}

theorem getLatest_of_no_snapshot (none : stores.snapshots = []) :
    stores.getLatest C.reread aggregateId = .ok Option.none := by
  simp [EventStores.getLatest, none, descending]

/-- Without a snapshot, `Get` counts no version. -/
theorem get_version_of_no_snapshot (none : stores.snapshots = []) {loaded : AggregateRoot S P I}
    (got : get C aggregateId stores = .ok loaded) : loaded.version = 0 := by
  rw [get, getLatest_of_no_snapshot none] at got
  dsimp only at got
  split at got
  · cases got
  · split at got
    · exact (Except.ok.inj got) ▸ rfl
    · cases got

/-- Without a snapshot, all events of the topic are handled. -/
theorem get_of_no_snapshot (lossless : Lossless C.reread) (increasing : StrictMono utcNow) (timed : stores.Timed utcNow)
    (none : stores.snapshots = []) {s : S}
    (replayed : replay C.handle C.new (stores.topicEvents (topicOf C.topic aggregateId)) = (s, .ok ())) :
    get C aggregateId stores = .ok { state := s } := by
  simp [get, getLatest_of_no_snapshot none, EventStores.search_eq lossless increasing timed, replayed]

/-- When the only snapshot was taken after all events, `Get` returns it as it is. -/
theorem get_of_snapshot (lossless : Lossless C.reread) (increasing : StrictMono utcNow) (timed : stores.Timed utcNow)
    {domain : AggregateRoot S P I}
    (only : stores.snapshots = [⟨domain.version, some aggregateId, domain.lastEvtOffset, domain⟩])
    (all : (stores.topicEvents (topicOf C.topic aggregateId)).length ≤ domain.lastEvtOffset) :
    get C aggregateId stores = .ok domain := by
  have latest : stores.getLatest C.reread aggregateId = .ok (some domain) := by
    simp [EventStores.getLatest, only, descending, EventStores.mapM_reread lossless]
  have nothing : stores.search C.reread (topicOf C.topic aggregateId) domain.lastEvtOffset = .ok [] := by
    rw [EventStores.search_eq lossless increasing timed, List.drop_eq_nil_of_le all]
  simp [get, latest, nothing, replay]

end

end

end CommitAggregateHelper

end FaasNet.EventStore
