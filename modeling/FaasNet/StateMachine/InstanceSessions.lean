import FaasNet.StateMachine.InstanceReplay
import FaasNet.EventStore.CommitAggregate

/-!
# Sessions on an instance

A session creates an instance or gets it, runs commands on it and commits it, and may do the last two again:
`EventConsumerStore.HandleMessage` commits the same object once for every subscription that an event meets. The
pending events of an aggregate are never cleared, and its version and offset are not counted when it is
loaded from events, so `Commit` and `Get` are inverse only where neither matters.
-/

namespace FaasNet.StateMachine

open FaasNet.Lib FaasNet.Domain FaasNet.EventStore

/-! ## What a command keeps -/

theorem StateMachineInstance.handle_id {J : Type*} {json : JTokens J} {machine : StateMachineInstance}
    {evt : DomainEvent InstanceEvent} (notCreated : ∀ d t, evt.payload ≠ .stateMachineInstanceCreated d t) :
    (machine.handle json evt).1.id = machine.id := by
  have onState : ∀ (machine : StateMachineInstance) stateId change, (machine.onState stateId change).1.id = machine.id := by
    intro machine stateId change
    unfold StateMachineInstance.onState
    split <;> rfl
  unfold StateMachineInstance.handle
  split
  case h_1 d t payload => exact absurd payload (notCreated d t)
  all_goals first
    | rfl
    | exact onState ..
    | (split <;> first | rfl | exact onState ..)

namespace StateMachineInstanceAggregate

section
variable {J : Type*} {json : JTokens J} {aggregate after : StateMachineInstanceAggregate}

/-- A command adds events at the end and leaves the `Id`, the version and the offset as they are. -/
structure Extends (aggregate after : StateMachineInstanceAggregate) : Prop where
  id : after.state.id = aggregate.state.id
  version : after.version = aggregate.version
  lastEvtOffset : after.lastEvtOffset = aggregate.lastEvtOffset
  domainEvts : aggregate.domainEvts <+: after.domainEvts

theorem Extends.refl (aggregate : StateMachineInstanceAggregate) : Extends aggregate aggregate :=
  ⟨rfl, rfl, rfl, List.prefix_rfl⟩

theorem Extends.trans {between : StateMachineInstanceAggregate} (first : Extends aggregate between)
    (second : Extends between after) : Extends aggregate after :=
  ⟨second.id.trans first.id, second.version.trans first.version, second.lastEvtOffset.trans first.lastEvtOffset,
    first.domainEvts.trans second.domainEvts⟩

theorem emit_extends (env : InstanceEnv) {payload : InstanceEvent}
    (notCreated : ∀ d t, payload ≠ .stateMachineInstanceCreated d t) :
    Extends aggregate (emit json aggregate env payload).1 := by
  have id : (aggregate.state.handle json ⟨env.newGuid, aggregate.state.id, 0, payload⟩).1.id = aggregate.state.id :=
    StateMachineInstance.handle_id notCreated
  unfold emit
  dsimp only
  split
  next state handled =>
    rw [handled] at id
    exact ⟨id, rfl, rfl, List.prefix_append _ _⟩
  next state e failed =>
    rw [failed] at id
    exact ⟨id, rfl, rfl, List.prefix_rfl⟩

theorem exec_extends (env : InstanceEnv) (command : InstanceCommand J) :
    Extends aggregate (exec json aggregate env command).1 := by
  cases command with
  | listenEvt stateInstanceId name source type topic =>
    have emitted : Extends aggregate
        (emit json aggregate env (.stateEvtListened stateInstanceId name source type topic)).1 := emit_extends env (by simp)
    simp only [exec, listenEvt]
    split
    · exact .refl _
    · split
      · exact .refl _
      · split
        · exact .refl _
        · split
          next done => rw [done] at emitted; exact ⟨emitted.1, emitted.2, emitted.3, emitted.4⟩
          next => exact emitted
  | tryConsumeEvt stateInstanceId source type data =>
    have emitted : Extends aggregate
        (emit json aggregate env (.stateEvtConsumed stateInstanceId source type data)).1 := emit_extends env (by simp)
    simp only [exec, tryConsumeEvt]
    split
    · exact .refl _
    · split
      · exact .refl _
      · split
        · exact .refl _
        · split
          · split
            next done => rw [done] at emitted; exact emitted
            next failed => rw [failed] at emitted; exact emitted
          · exact .refl _
  | _ => exact emit_extends env (by simp)

end

end StateMachineInstanceAggregate

/-! ## Sessions -/

open StateMachineInstanceAggregate (Call create exec Extends)

/-- What `CommitAggregateHelper` uses of `StateMachineInstanceAggregate`. -/
def instanceClass {J : Type*} (json : JTokens J) :
    AggregateClass StateMachineInstance InstanceEvent InstanceException where
  topic := "StateMachineInstance"
  id := fun machine => machine.id
  new := {}
  handle := StateMachineInstance.handle json
  reread := json.reread

abbrev InstanceStores := EventStores StateMachineInstance InstanceEvent EventListenedEvent

/-- The commands before each `Commit` of a session, of which there is at least one. -/
structure Session (J : Type*) where
  first : List (Call J)
  more : List (List (Call J)) := []

/-- What the sessions so far have left: the stores, the events that were emitted, and the aggregate as it was
committed last. -/
structure InstanceRecord where
  stores : InstanceStores
  emitted : List (DomainEvent InstanceEvent)
  committed : StateMachineInstanceAggregate

section
variable {J : Type*} (json : JTokens J) (snapshotFrequency : Nat) (utcNow : Nat → Nat)

/-- Commands; the caller of one that throws may go on. -/
def runCommands (aggregate : StateMachineInstanceAggregate) (calls : List (Call J)) : StateMachineInstanceAggregate :=
  calls.foldl (fun aggregate call => (exec json aggregate call.1 call.2).1) aggregate

/-- Commands and a `Commit`, again and again. -/
def runBlocks : StateMachineInstanceAggregate × InstanceStores → List (List (Call J)) →
    StateMachineInstanceAggregate × InstanceStores
  | (aggregate, stores), [] => (aggregate, stores)
  | (aggregate, stores), calls :: blocks =>
    runBlocks (CommitAggregateHelper.commit (instanceClass json) snapshotFrequency utcNow
      (runCommands json aggregate calls) stores) blocks

/-- The session that creates the instance. -/
def createSession (env : InstanceEnv) (workflowDef : WorkflowDef) (session : Session J) : InstanceRecord :=
  let (aggregate, stores) :=
    runBlocks json snapshotFrequency utcNow (create json env workflowDef, {}) (session.first :: session.more)
  ⟨stores, aggregate.domainEvts, aggregate⟩

/-- A session that gets it, if `Get` does not throw. -/
def getSession (id : String) (record : InstanceRecord) (session : Session J) : Option InstanceRecord :=
  match CommitAggregateHelper.get (instanceClass json) id record.stores with
  | .error _ => none
  | .ok loaded =>
    let (aggregate, stores) :=
      runBlocks json snapshotFrequency utcNow (loaded, record.stores) (session.first :: session.more)
    some ⟨stores, record.emitted ++ aggregate.domainEvts.drop loaded.domainEvts.length, aggregate⟩

/-- An event as it was emitted, before a `Commit` has written its version into it. -/
def unversioned (evt : DomainEvent InstanceEvent) : DomainEvent InstanceEvent := { evt with aggregateVersion := 0 }

/-- The topic has every emitted event once and in order, and `Get` returns what was committed last. -/
def Inverse (id : String) (record : InstanceRecord) : Prop :=
  (∃ evts, record.stores.search json.reread (topicOf (instanceClass json).topic id) 0 = .ok evts ∧
      evts.map unversioned = record.emitted.map unversioned) ∧
    ∃ loaded, CommitAggregateHelper.get (instanceClass json) id record.stores = .ok loaded ∧
      loaded.state = record.committed.state ∧ loaded.version = record.committed.version ∧
      loaded.lastEvtOffset = record.committed.lastEvtOffset

end

section
variable {J : Type*} {json : JTokens J} {snapshotFrequency : Nat} {utcNow : Nat → Nat}

theorem runCommands_extends (aggregate : StateMachineInstanceAggregate) (calls : List (Call J)) :
    Extends aggregate (runCommands json aggregate calls) := by
  induction calls generalizing aggregate with
  | nil => exact .refl _
  | cons call calls ih => exact (StateMachineInstanceAggregate.exec_extends call.1 call.2).trans (ih _)

/-- The events of the instance's topic. -/
def topicEventsOf (json : JTokens J) (id : String) (stores : InstanceStores) : List (DomainEvent InstanceEvent) :=
  stores.topicEvents (topicOf (instanceClass json).topic id)

/-- The instance has its `Id` and the events were appended in order. -/
structure Regular (utcNow : Nat → Nat) (id : String) (st : StateMachineInstanceAggregate × InstanceStores) : Prop where
  id : st.1.state.id = some id
  timed : st.2.Timed utcNow

/-- What commands and one `Commit` do. -/
theorem runBlocks_one (json : JTokens J) (snapshotFrequency : Nat)
    {st : StateMachineInstanceAggregate × InstanceStores} {id : String} (regular : Regular utcNow id st)
    (calls : List (Call J)) :
    let after := runBlocks json snapshotFrequency utcNow st [calls]
    Regular utcNow id after ∧ after.1.version = st.1.version + 1 ∧
      st.1.domainEvts.length ≤ after.1.domainEvts.length ∧
      after.1.lastEvtOffset = st.1.lastEvtOffset + after.1.domainEvts.length ∧
      topicEventsOf json id after.2 = topicEventsOf json id st.2 ++ after.1.domainEvts ∧
      after.2.snapshots = st.2.snapshots ++ if after.1.version % snapshotFrequency = 0 then
        [⟨after.1.version, some id, after.1.lastEvtOffset, after.1⟩] else [] := by
  obtain ⟨aggregate, stores⟩ := st
  have extended : Extends aggregate (runCommands json aggregate calls) := runCommands_extends aggregate calls
  have commits := CommitAggregateHelper.committed (instanceClass json) snapshotFrequency regular.timed
    (runCommands json aggregate calls)
  have own : (instanceClass json).id (runCommands json aggregate calls).state = some id := extended.id.trans regular.id
  have length : (AggregateRoot.commit (runCommands json aggregate calls)).domainEvts.length =
      (runCommands json aggregate calls).domainEvts.length := List.length_map ..
  have topic := commits.topic
  have snapshots := commits.snapshots
  rw [own] at topic snapshots
  rw [extended.version, extended.lastEvtOffset] at snapshots
  intro after
  have same : after.1 = AggregateRoot.commit (runCommands json aggregate calls) := commits.aggregate
  have version : after.1.version = aggregate.version + 1 := by rw [same, ← extended.version]; rfl
  have offset : after.1.lastEvtOffset = aggregate.lastEvtOffset + after.1.domainEvts.length := by
    rw [same, length, ← extended.lastEvtOffset]
    rfl
  refine ⟨⟨by rw [same]; exact own, commits.timed⟩, version, ?_, offset, ?_, ?_⟩
  · rw [same, length]
    exact extended.domainEvts.length_le
  · rw [same]
    exact topic
  · rw [offset, version, same, length]
    exact snapshots

theorem runBlocks_cons (st : StateMachineInstanceAggregate × InstanceStores) (calls : List (Call J))
    (blocks : List (List (Call J))) :
    runBlocks json snapshotFrequency utcNow st (calls :: blocks) =
      runBlocks json snapshotFrequency utcNow (runBlocks json snapshotFrequency utcNow st [calls]) blocks := rfl

/-- A session appends the pending events again with each `Commit`. -/
theorem runBlocks_appends (json : JTokens J) (snapshotFrequency : Nat)
    {st : StateMachineInstanceAggregate × InstanceStores} {id : String} (regular : Regular utcNow id st) (calls : List (Call J))
    (blocks : List (List (Call J))) :
    let after := runBlocks json snapshotFrequency utcNow st (calls :: blocks)
    Regular utcNow id after ∧ st.1.domainEvts.length ≤ after.1.domainEvts.length ∧
      (topicEventsOf json id st.2).length + after.1.domainEvts.length + blocks.length * st.1.domainEvts.length ≤
        (topicEventsOf json id after.2).length := by
  induction blocks generalizing st calls with
  | nil =>
    obtain ⟨regularAfter, -, pending, -, topic, -⟩ :=
      runBlocks_one json snapshotFrequency regular calls
    have length := congrArg List.length topic
    rw [List.length_append] at length
    refine ⟨regularAfter, pending, ?_⟩
    simp only [List.length_nil]
    omega
  | cons calls' blocks ih =>
    obtain ⟨regularNext, -, pending, -, topic, -⟩ :=
      runBlocks_one json snapshotFrequency regular calls
    obtain ⟨regularAfter, more, appended⟩ := ih regularNext calls'
    rw [runBlocks_cons]
    have length := congrArg List.length topic
    rw [List.length_append] at length
    have factor := Nat.mul_le_mul_left blocks.length pending
    have split : (blocks.length + 1) * st.1.domainEvts.length =
      blocks.length * st.1.domainEvts.length + st.1.domainEvts.length := Nat.succ_mul _ _
    refine ⟨regularAfter, pending.trans more, ?_⟩
    rw [List.length_cons]
    omega

theorem regular_create (env : InstanceEnv) (workflowDef : WorkflowDef) :
    Regular utcNow env.secondGuid (create json env workflowDef, {}) := ⟨rfl, rfl⟩

theorem length_topicEvents_of_inverse (lossless : Lossless json.reread) (increasing : StrictMono utcNow) {id : String}
    {record : InstanceRecord} (timed : record.stores.Timed utcNow) (inverse : Inverse json id record) :
    (topicEventsOf json id record.stores).length = record.emitted.length := by
  obtain ⟨⟨evts, found, same⟩, -⟩ := inverse
  rw [EventStores.search_eq lossless increasing timed, List.drop_zero] at found
  have once := congrArg List.length same
  rw [← Except.ok.inj found, List.length_map, List.length_map] at once
  exact once

/-- A second `Commit` in the first session appends its events again. -/
theorem single_of_inverse (lossless : Lossless json.reread) (increasing : StrictMono utcNow) {env : InstanceEnv} {workflowDef : WorkflowDef}
    {session : Session J}
    (inverse : Inverse json env.secondGuid (createSession json snapshotFrequency utcNow env workflowDef session)) :
    session.more = [] := by
  have start : Regular utcNow env.secondGuid (create json env workflowDef, {}) := regular_create env workflowDef
  obtain ⟨regular, -, again⟩ := runBlocks_appends json snapshotFrequency start session.first session.more
  have once := length_topicEvents_of_inverse lossless increasing regular.timed inverse
  have one : (create json env workflowDef).domainEvts.length = 1 := rfl
  rw [one, Nat.mul_one] at again
  exact List.length_eq_zero_iff.mp (by simp only [createSession] at once; omega)

/-- What the first session leaves when it has one `Commit`. -/
structure CommittedOnce (json : JTokens J) (snapshotFrequency : Nat) (utcNow : Nat → Nat) (id : String)
    (record : InstanceRecord) : Prop where
  regular : Regular utcNow id (record.committed, record.stores)
  version : record.committed.version = 1
  pending : 1 ≤ record.committed.domainEvts.length
  lastEvtOffset : record.committed.lastEvtOffset = record.committed.domainEvts.length
  emitted : record.emitted = record.committed.domainEvts
  topic : topicEventsOf json id record.stores = record.committed.domainEvts
  snapshots : record.stores.snapshots = if 1 % snapshotFrequency = 0 then
    [⟨record.committed.version, some id, record.committed.lastEvtOffset, record.committed⟩] else []

theorem committedOnce_create (env : InstanceEnv) (workflowDef : WorkflowDef) (calls : List (Call J)) :
    CommittedOnce json snapshotFrequency utcNow env.secondGuid
      (createSession json snapshotFrequency utcNow env workflowDef ⟨calls, []⟩) := by
  have start : Regular utcNow env.secondGuid (create json env workflowDef, {}) := regular_create env workflowDef
  obtain ⟨regular, version, pending, offset, topic, snapshots⟩ := runBlocks_one json snapshotFrequency start calls
  have first : (create json env workflowDef).version + 1 = 1 := rfl
  have none : (create json env workflowDef).lastEvtOffset = 0 := rfl
  rw [first] at version
  rw [none, Nat.zero_add] at offset
  refine ⟨regular, version, pending, offset, rfl, topic, ?_⟩
  have due := congrArg (· % snapshotFrequency) version
  rw [due] at snapshots
  exact snapshots

section
variable {id : String} {record : InstanceRecord}

/-- Without a snapshot the version is not loaded. -/
theorem CommittedOnce.everyVersion (once : CommittedOnce json snapshotFrequency utcNow id record)
    (positive : 1 ≤ snapshotFrequency) (inverse : Inverse json id record) : snapshotFrequency = 1 := by
  by_contra notEvery
  obtain ⟨-, loaded, got, -, sameVersion, -⟩ := inverse
  have none : record.stores.snapshots = [] := by
    rw [once.snapshots, if_neg]
    rw [Nat.mod_eq_of_lt (by omega)]
    exact Nat.one_ne_zero
  have unversioned := CommitAggregateHelper.get_version_of_no_snapshot none got
  have version := once.version
  omega

theorem CommittedOnce.get (once : CommittedOnce json 1 utcNow id record) (lossless : Lossless json.reread)
    (increasing : StrictMono utcNow) :
    CommitAggregateHelper.get (instanceClass json) id record.stores = .ok record.committed := by
  refine CommitAggregateHelper.get_of_snapshot lossless increasing once.regular.timed once.snapshots ?_
  have all := congrArg List.length once.topic
  rw [once.lastEvtOffset]
  exact le_of_eq all

theorem CommittedOnce.inverse (once : CommittedOnce json 1 utcNow id record) (lossless : Lossless json.reread)
    (increasing : StrictMono utcNow) : Inverse json id record := by
  refine ⟨⟨_, EventStores.search_eq lossless increasing once.regular.timed _ 0, ?_⟩, record.committed,
    once.get lossless increasing, rfl, rfl, rfl⟩
  rw [List.drop_zero, once.emitted]
  exact congrArg _ once.topic

/-- An aggregate that is loaded from a snapshot still has the events of its first session, and appends them
again. -/
theorem CommittedOnce.not_inverse_after_get (once : CommittedOnce json 1 utcNow id record) (lossless : Lossless json.reread)
    (increasing : StrictMono utcNow) (session : Session J) :
    ∃ next, getSession json 1 utcNow id record session = some next ∧ ¬ Inverse json id next := by
  let after := runBlocks json 1 utcNow (record.committed, record.stores) (session.first :: session.more)
  rw [getSession, once.get lossless increasing]
  refine ⟨⟨after.2, record.emitted ++ after.1.domainEvts.drop record.committed.domainEvts.length, after.1⟩, rfl,
    fun inverse => ?_⟩
  obtain ⟨regular, longer, twice⟩ := runBlocks_appends json 1 once.regular session.first session.more
  have topic : (topicEventsOf json id after.2).length =
      (record.emitted ++ after.1.domainEvts.drop record.committed.domainEvts.length).length :=
    length_topicEvents_of_inverse lossless increasing regular.timed inverse
  have before := once.pending
  have longer : record.committed.domainEvts.length ≤ after.1.domainEvts.length := longer
  have twice : record.committed.domainEvts.length + after.1.domainEvts.length ≤ (topicEventsOf json id after.2).length := by
    rw [← once.topic]
    exact (Nat.le_add_right _ _).trans twice
  rw [once.emitted, List.length_append, List.length_drop] at topic
  omega

end

/-- **When `Commit` and `Get` are inverse.** Only for an instance that is created and committed once, and
never again, with a snapshot at every version. The codec of the domain events is taken to be lossless. -/
theorem commit_get_inverse_iff (lossless : Lossless json.reread) (positive : 1 ≤ snapshotFrequency)
    (increasing : StrictMono utcNow) (env : InstanceEnv) (workflowDef : WorkflowDef) (session : Session J) (sessions : List (Session J)) :
    Always (getSession json snapshotFrequency utcNow env.secondGuid) (Inverse json env.secondGuid)
        (createSession json snapshotFrequency utcNow env workflowDef session) sessions ↔
      snapshotFrequency = 1 ∧ session.more = [] ∧ sessions = [] := by
  obtain ⟨first, more⟩ := session
  constructor
  · intro always
    obtain rfl : more = [] := single_of_inverse lossless increasing always.start
    have once : CommittedOnce json snapshotFrequency utcNow env.secondGuid _ :=
      committedOnce_create env workflowDef first
    obtain rfl := once.everyVersion positive always.start
    refine ⟨rfl, rfl, ?_⟩
    cases sessions with
    | nil => rfl
    | cons session sessions =>
      obtain ⟨next, loaded, failed⟩ := once.not_inverse_after_get lossless increasing session
      exact absurd (always.2 next loaded).start failed
  · rintro ⟨rfl, rfl, rfl⟩
    exact (committedOnce_create env workflowDef first).inverse lossless increasing

end

open StateMachineInstanceAggregate (emptyObject)

/-- A session that adds a state and starts it. -/
def startingSession : Session Unit where
  first := [(⟨"e2", "s1", 2⟩, .addState (some "def")), (⟨"e3", "", 3⟩, .startState (some "s1") (some ()))]

def noDefinition : WorkflowDef := ⟨none, none, none, none, 0, none, none, none⟩

/-- With a snapshot at every version the committed instance is loaded. -/
theorem inverse_of_startingSession :
    Inverse emptyObject "instance" (createSession emptyObject 1 id ⟨"e1", "instance", 1⟩ noDefinition startingSession) :=
  (commit_get_inverse_iff (fun _ => rfl) (le_refl 1) strictMono_id ⟨"e1", "instance", 1⟩ noDefinition startingSession []).mpr
    ⟨rfl, rfl, rfl⟩

/-- With the frequency 5, which is the default, the version of an instance committed once is not loaded. -/
theorem not_inverse_at_default_frequency :
    ¬ Inverse emptyObject "instance"
      (createSession emptyObject 5 id ⟨"e1", "instance", 1⟩ noDefinition startingSession) := by
  rintro ⟨-, loaded, got, -, version, -⟩
  cases got
  exact absurd version (by decide)

end FaasNet.StateMachine
