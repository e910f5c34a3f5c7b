import FaasNet.Common.ConcurrentBag
import FaasNet.EventStore.Projections
import FaasNet.StateMachine.InstanceSessions

/-!
# The view of the instances

`StateMachineInstanceQueryProjection` hands the events of the topic of all instances to an
`IStateMachineInstanceRepository`. With EventStoreDB and the database of the offsets below it, and the in-memory
repository above it, the exporter runs beside the sessions that commit. Its view is, at any time, that of the events it was
handed so far, and one that has nothing left to be handed has what `CommitAggregateHelper.Get` loads.
-/

namespace FaasNet.StateMachine

open FaasNet.Lib FaasNet.Common FaasNet.Domain FaasNet.EventStore

/-! ## The repository -/

/-- `StateMachineInstanceAggregate.Clone`, which leaves out the events. -/
def StateMachineInstanceAggregate.clone (instance' : StateMachineInstanceAggregate) : StateMachineInstanceAggregate :=
  { instance' with domainEvts := [], integrationEvents := [] }

namespace InMemoryStateMachineInstanceRepository

/-- `Add`. -/
def add (instances : List StateMachineInstanceAggregate) (workflowInstance : StateMachineInstanceAggregate) :
    List StateMachineInstanceAggregate := workflowInstance.clone :: instances

def get (instances : List StateMachineInstanceAggregate) (id : Option String) : Option StateMachineInstanceAggregate :=
  (instances.find? fun i => i.state.id = id).map (·.clone)

/-- `Update`, which is `none` where `First` throws. -/
def update (instances : List StateMachineInstanceAggregate) (workflowInstance : StateMachineInstanceAggregate) :
    Option (List StateMachineInstanceAggregate) :=
  match instances.find? fun i => i.state.id = workflowInstance.state.id with
  | none => none
  | some currentInstance => some (workflowInstance.clone :: remove instances currentInstance)

end InMemoryStateMachineInstanceRepository

open InMemoryStateMachineInstanceRepository (add get update)
open StateMachineInstanceAggregate (Call create exec)

/-! ## The projection -/

section
variable {J : Type*} (json : JTokens J)

/-- The handlers of `StateMachineInstanceQueryProjection`; `none` where one throws. -/
def project (evt : DomainEvent InstanceEvent) (instances : List StateMachineInstanceAggregate) :
    Option (List StateMachineInstanceAggregate) :=
  match evt.payload with
  | .stateMachineInstanceCreated .. =>
    match ({} : StateMachineInstance).handle json evt with
    | (_, .error _) => none
    | (state, .ok ()) => some (add instances { state })
  | _ =>
    match get instances evt.aggregateId with
    | none => none
    | some stateMachineInstance =>
      match stateMachineInstance.state.handle json evt with
      | (_, .error _) => none
      | (state, .ok ()) => update instances { stateMachineInstance with state }

/-- `StateMachineInstanceQueryProjection`, as it is registered by the host of the exporter. -/
def queryProjection (groupId : String) : BaseQueryProjection :=
  ⟨groupId, "StateMachineInstance", .eventStoreDB, .entityFramework⟩

/-- The event store with the offsets and the subscription, the snapshots, and the instances of the view. -/
structure ExporterState where
  projection : ProjectionState InstanceEvent
  snapshots : List (Snapshot StateMachineInstance InstanceEvent EventListenedEvent) := []
  instances : List StateMachineInstanceAggregate := []

namespace ExporterState

/-- What a session sees. -/
def stores (state : ExporterState) : InstanceStores := ⟨state.projection.evts, state.snapshots⟩

/-- A subscription of EventStoreDB does not see at once what is appended. -/
def withStores (state : ExporterState) (stores : InstanceStores) : ExporterState :=
  { state with
    projection := { state.projection with evts := stores.evts }
    snapshots := stores.snapshots }

/-- The events of the topic that were handed to the projection. -/
def handledEvents (state : ExporterState) : List (DomainEvent InstanceEvent) :=
  (state.stores.topicEvents (instanceClass json).topic).take state.projection.handled.length

end ExporterState

/-- A session that creates an instance, one that resumes an instance, and what happens to the projection. A bag may be
enumerated in any order. -/
inductive ExporterAction (J : Type*) where
  | create (env : InstanceEnv) (workflowDef : WorkflowDef) (calls : List (Call J))
  | resume (id : String) (calls : List (Call J))
  | start
  | deliver (bag : List StateMachineInstanceAggregate)
  | stop

namespace ExporterState

section
variable (snapshotFrequency : Nat) (utcNow : Nat → Nat) (groupId : String)

/-- The next event is read and handed over. A subscription whose handler throws is dropped, and the offset stays. -/
def deliver (state : ExporterState) (bag : List StateMachineInstanceAggregate) : Option ExporterState :=
  match (queryProjection groupId).deliver state.projection with
  | none => none
  | some projection =>
    match projection.handled.getLast?.bind fun place => state.projection.evts[place]? with
    | none => none
    | some evt =>
      match (json.reread evt.evt).toOption.bind fun domainEvt => project json domainEvt bag with
      | none => some { state with projection := BaseQueryProjection.setSubscribed state.projection false }
      | some instances => some { state with projection, instances }

/-- Commands on an aggregate and one `Commit`. -/
def session (state : ExporterState) (aggregate : StateMachineInstanceAggregate) (calls : List (Call J)) : ExporterState :=
  state.withStores (CommitAggregateHelper.commit (instanceClass json) snapshotFrequency utcNow
    (runCommands json aggregate calls) state.stores).2

def step (state : ExporterState) : ExporterAction J → Option ExporterState
  | .create env workflowDef calls => some (session json snapshotFrequency utcNow state (create json env workflowDef) calls)
  | .resume id calls =>
    match CommitAggregateHelper.get (instanceClass json) id state.stores with
    | .error _ => none
    | .ok loaded =>
      if loaded.state.id = some id then some (session json snapshotFrequency utcNow state loaded calls) else none
  | .start => ((queryProjection groupId).step state.projection .start).map fun projection => { state with projection }
  | .deliver bag => if bag.Perm state.instances then deliver json groupId state bag else none
  | .stop => ((queryProjection groupId).step state.projection .stop).map fun projection => { state with projection }

/-- A new `Id` is new, and the commands are those that are expected. -/
def Allowed (state : ExporterState) : ExporterAction J → Prop
  | .create env workflowDef calls =>
    (∀ e ∈ state.projection.evts, e.evt.aggregateId ≠ some env.secondGuid) ∧
      Along (StateMachineInstanceAggregate.step json) (StateMachineInstanceAggregate.Expected json)
        (create json env workflowDef) calls
  | .resume id calls => ∀ loaded, CommitAggregateHelper.get (instanceClass json) id state.stores = .ok loaded →
      Along (StateMachineInstanceAggregate.step json) (StateMachineInstanceAggregate.Expected json) loaded calls
  | _ => True

/-- The view has one record for each instance it was told of, which is what the events handed over so far make of it; and
in a period in which none is still to be handed over, it is what `Get` loads. -/
structure Consistent (state : ExporterState) : Prop where
  handledOnce : (queryProjection groupId).HandledOnce state.projection
  subscribed : ∀ period ∈ state.projection.period, period.subscribed
  distinct : (state.instances.map (·.state.id)).Nodup
  view : ∀ id, get state.instances id =
    (viewOf (StateMachineInstance.handle json) {} (·.aggregateId) (handledEvents json state) id).map ({ state := · })
  current : state.projection.period.isSome → ¬ (queryProjection groupId).Pending state.projection →
    ∀ id (aggregate : StateMachineInstanceAggregate), aggregate.state.id = some id →
      (get state.instances (some id) = some aggregate ↔
        CommitAggregateHelper.get (instanceClass json) id state.stores = .ok aggregate)

end

end ExporterState

end

/-! ## What the bag shows -/

/-- The bag has one record for each `Id` of the view. -/
structure Shows (instances : List StateMachineInstanceAggregate) (view : Option String → Option StateMachineInstance) :
    Prop where
  distinct : (instances.map (·.state.id)).Nodup
  mem : ∀ i, i ∈ instances ↔ ∃ s, view s.id = some s ∧ i = { state := s }

section
variable {instances : List StateMachineInstanceAggregate} {view : Option String → Option StateMachineInstance}

theorem Shows.perm (shows' : Shows instances view) {bag : List StateMachineInstanceAggregate} (perm : bag.Perm instances) :
    Shows bag view :=
  ⟨(perm.map _).nodup_iff.mpr shows'.distinct, fun i => perm.mem_iff.trans (shows'.mem i)⟩

theorem Shows.get (shows' : Shows instances view) (own : ∀ id s, view id = some s → s.id = id) (id : Option String) :
    get instances id = (view id).map ({ state := · }) := by
  have found : ∀ i, instances.find? (fun i => i.state.id = id) = some i → view id = some i.state ∧ i = { state := i.state } := by
    intro i found
    obtain ⟨s, viewed, rfl⟩ := (shows'.mem i).mp (List.mem_of_find?_eq_some found)
    obtain rfl : s.id = id := by simpa using List.find?_some found
    exact ⟨viewed, rfl⟩
  rw [InMemoryStateMachineInstanceRepository.get]
  cases search : instances.find? (fun i => i.state.id = id) with
  | some i =>
    obtain ⟨viewed, plain⟩ := found i search
    rw [viewed, plain]
    rfl
  | none =>
    cases viewed : view id with
    | none => rfl
    | some s =>
      obtain rfl := own id s viewed
      have member : ({ state := s } : StateMachineInstanceAggregate) ∈ instances := (shows'.mem _).mpr ⟨s, viewed, rfl⟩
      have other := List.find?_eq_none.mp search _ member
      simp at other

theorem Shows.add (shows' : Shows instances view) {s : StateMachineInstance} (unknown : view s.id = none) :
    Shows (add instances { state := s }) fun id => if id = s.id then some s else view id := by
  constructor
  · rw [InMemoryStateMachineInstanceRepository.add, List.map_cons, List.nodup_cons]
    refine ⟨fun member => ?_, shows'.distinct⟩
    obtain ⟨i, member, same⟩ := List.mem_map.mp member
    obtain ⟨t, viewed, rfl⟩ := (shows'.mem i).mp member
    have same : t.id = s.id := same
    rw [same, unknown] at viewed
    cases viewed
  · intro i
    rw [InMemoryStateMachineInstanceRepository.add, List.mem_cons, shows'.mem]
    constructor
    · rintro (rfl | ⟨t, viewed, rfl⟩)
      · exact ⟨s, if_pos rfl, rfl⟩
      · refine ⟨t, ?_, rfl⟩
        rw [if_neg, viewed]
        intro same
        rw [same, unknown] at viewed
        cases viewed
    · rintro ⟨t, viewed, rfl⟩
      split_ifs at viewed with same
      · exact .inl (by rw [Option.some.inj viewed]; rfl)
      · exact .inr ⟨t, viewed, rfl⟩

theorem Shows.update (shows' : Shows instances view) (own : ∀ id s, view id = some s → s.id = id)
    {old s : StateMachineInstance} (known : view s.id = some old) :
    ∃ updated, update instances { state := s } = some updated ∧
      Shows updated fun id => if id = s.id then some s else view id := by
  have oldId : old.id = s.id := own s.id old known
  have member : ({ state := old } : StateMachineInstanceAggregate) ∈ instances :=
    (shows'.mem _).mpr ⟨old, oldId ▸ known, rfl⟩
  have search : instances.find? (fun i => i.state.id = s.id) = some { state := old } := by
    have isSome : (instances.find? fun i => i.state.id = s.id).isSome :=
      List.find?_isSome.mpr ⟨_, member, by simpa using oldId⟩
    obtain ⟨i, found⟩ := Option.isSome_iff_exists.mp isSome
    obtain ⟨t, viewed, rfl⟩ := (shows'.mem i).mp (List.mem_of_find?_eq_some found)
    have same : t.id = s.id := by simpa using List.find?_some found
    rw [same, known] at viewed
    rw [found, Option.some.inj viewed]
  have unique : instances.Nodup := List.Nodup.of_map _ shows'.distinct
  have removed := remove_perm instances ({ state := old } : StateMachineInstanceAggregate)
  refine ⟨StateMachineInstanceAggregate.clone { state := s } :: remove instances { state := old },
    by simp only [InMemoryStateMachineInstanceRepository.update, search], ?_, ?_⟩
  · rw [List.map_cons, List.nodup_cons]
    have others : ((remove instances ({ state := old } : StateMachineInstanceAggregate)).map (·.state.id)).Nodup :=
      (removed.map _).nodup_iff.mpr ((List.erase_sublist.map _).nodup shows'.distinct)
    refine ⟨fun member' => ?_, others⟩
    have both := (List.perm_cons_erase member).map fun i => i.state.id
    have distinct := both.nodup_iff.mp shows'.distinct
    rw [List.map_cons, List.nodup_cons] at distinct
    have inErase := (removed.map fun i => i.state.id).mem_iff.mp member'
    exact distinct.1 (oldId ▸ inErase)
  · intro i
    rw [List.mem_cons, removed.mem_iff, unique.mem_erase_iff, shows'.mem]
    constructor
    · rintro (rfl | ⟨different, t, viewed, rfl⟩)
      · exact ⟨s, if_pos rfl, rfl⟩
      · refine ⟨t, ?_, rfl⟩
        rw [if_neg, viewed]
        intro same
        rw [same, known] at viewed
        exact different (by rw [Option.some.inj viewed])
    · rintro ⟨t, viewed, rfl⟩
      split_ifs at viewed with same
      · exact .inl (by rw [Option.some.inj viewed]; rfl)
      · refine .inr ⟨fun equal => ?_, t, viewed, rfl⟩
        exact same (by rw [(AggregateRoot.mk.inj equal).1, oldId])

end

/-! ## One event -/

/-- The event that creates an instance. -/
def Creates (evt : DomainEvent InstanceEvent) : Prop := ∃ workflowDef t, evt.payload = .stateMachineInstanceCreated workflowDef t

section
variable {J : Type*} {json : JTokens J} {log : List (DomainEvent InstanceEvent)}

/-- The events of each instance can be replayed, and the first one is the only one that creates it. -/
abbrev InstanceStreams (json : JTokens J) (log : List (DomainEvent InstanceEvent)) : Prop :=
  Streams (StateMachineInstance.handle json) {} (·.aggregateId) Creates log

abbrev instanceView (json : JTokens J) (log : List (DomainEvent InstanceEvent)) : Option String → Option StateMachineInstance :=
  viewOf (StateMachineInstance.handle json) {} (·.aggregateId) log

/-- An instance of the view has the `Id` it is known by. -/
theorem id_of_instanceView (streams : InstanceStreams json log) {id : Option String} {s : StateMachineInstance}
    (viewed : instanceView json log id = some s) : s.id = id := by
  induction log using List.reverseRecOn generalizing id s with
  | nil => simp [viewOf, streamOf] at viewed
  | append_singleton log evt ih =>
    obtain ⟨opens, t, handled, view⟩ := streams.viewOf_concat
    replace viewed : (if id = evt.aggregateId then some t else instanceView json log id) = some s :=
      (view id).symm.trans viewed
    split_ifs at viewed with same
    · obtain rfl := Option.some.inj viewed
      rw [same]
      have after := congrArg (fun result => result.1.id) handled
      by_cases creates : Creates evt
      · obtain ⟨workflowDef, time, payload⟩ := creates
        rw [← after]
        simp only [StateMachineInstance.handle, payload]
      · obtain ⟨old, known⟩ := Option.ne_none_iff_exists'.mp (mt opens.mpr creates)
        have notCreated : ∀ d t, evt.payload ≠ .stateMachineInstanceCreated d t := fun d t payload => creates ⟨d, t, payload⟩
        rw [← after, StateMachineInstance.handle_id notCreated, known, Option.getD_some]
        exact ih streams.of_append known
    · exact ih streams.of_append viewed

/-- The projection handles the next event as the view of the log does. -/
theorem Shows.project {evt : DomainEvent InstanceEvent} (streams : InstanceStreams json (log ++ [evt]))
    {instances : List StateMachineInstanceAggregate} (shows' : Shows instances (instanceView json log)) :
    ∃ projected, project json evt instances = some projected ∧ Shows projected (instanceView json (log ++ [evt])) := by
  have own : ∀ id s, instanceView json log id = some s → s.id = id := fun _ _ => id_of_instanceView streams.of_append
  obtain ⟨opens, s, handled, view⟩ := streams.viewOf_concat
  have id : s.id = evt.aggregateId := id_of_instanceView streams ((view _).trans (if_pos rfl))
  have after : instanceView json (log ++ [evt]) = fun k => if k = s.id then some s else instanceView json log k := by
    funext k
    rw [id]
    exact view k
  rw [after]
  by_cases creates : Creates evt
  · have unknown := opens.mp creates
    obtain ⟨workflowDef, time, payload⟩ := creates
    rw [unknown, Option.getD_none] at handled
    refine ⟨_, ?_, shows'.add (id ▸ unknown)⟩
    simp only [StateMachine.project, payload, handled]
  · obtain ⟨old, known⟩ := Option.ne_none_iff_exists'.mp (mt opens.mpr creates)
    rw [known, Option.getD_some] at handled
    obtain ⟨updated, updates, shown⟩ := shows'.update own (id.symm ▸ known)
    have record : InMemoryStateMachineInstanceRepository.get instances evt.aggregateId = some { state := old } := by
      rw [shows'.get own]
      exact Option.map_eq_some_iff.mpr ⟨old, known, rfl⟩
    refine ⟨updated, ?_, shown⟩
    unfold StateMachine.project
    split
    next d t payload => exact absurd ⟨d, t, payload⟩ creates
    next => simp only [record, handled, updates]

end

/-! ## What commands add -/

section
variable {J : Type*} {json : JTokens J} {aggregate : StateMachineInstanceAggregate}

/-- Events of the instance, none of which creates it. -/
structure Own (id : Option String) (evts : List (DomainEvent InstanceEvent)) : Prop where
  id : ∀ evt ∈ evts, evt.aggregateId = id
  notCreates : ∀ evt ∈ evts, ¬ Creates evt

theorem Own.nil {id : Option String} : Own id [] := ⟨by simp, by simp⟩

theorem Own.append {id : Option String} {evts more : List (DomainEvent InstanceEvent)} (first : Own id evts)
    (second : Own id more) : Own id (evts ++ more) :=
  ⟨List.forall_mem_append.mpr ⟨first.id, second.id⟩, List.forall_mem_append.mpr ⟨first.notCreates, second.notCreates⟩⟩

namespace StateMachineInstanceAggregate

theorem emit_adds (env : InstanceEnv) {payload : InstanceEvent}
    (notCreated : ∀ d t, payload ≠ .stateMachineInstanceCreated d t) :
    ∃ evts, (emit json aggregate env payload).1.domainEvts = aggregate.domainEvts ++ evts ∧ Own aggregate.state.id evts := by
  unfold emit
  dsimp only
  split
  · refine ⟨_, rfl, ?_, ?_⟩
    · simp
    · rintro evt member ⟨d, t, created⟩
      rw [List.mem_singleton.mp member] at created
      exact notCreated d t created
  · exact ⟨[], (List.append_nil _).symm, .nil⟩

theorem exec_adds (env : InstanceEnv) (command : InstanceCommand J) :
    ∃ evts, (exec json aggregate env command).1.domainEvts = aggregate.domainEvts ++ evts ∧ Own aggregate.state.id evts := by
  have nothing : ∃ evts, aggregate.domainEvts = aggregate.domainEvts ++ evts ∧ Own aggregate.state.id evts :=
    ⟨[], (List.append_nil _).symm, .nil⟩
  cases command with
  | listenEvt stateInstanceId name source type topic =>
    have emitted := @emit_adds J json aggregate env (.stateEvtListened stateInstanceId name source type topic) (by simp)
    simp only [exec, listenEvt]
    split
    · exact nothing
    · split
      · exact nothing
      · split
        · exact nothing
        · split
          next done => rw [done] at emitted; exact emitted
          next => exact emitted
  | tryConsumeEvt stateInstanceId source type data =>
    have emitted := @emit_adds J json aggregate env (.stateEvtConsumed stateInstanceId source type data) (by simp)
    simp only [exec, tryConsumeEvt]
    split
    · exact nothing
    · split
      · exact nothing
      · split
        · exact nothing
        · split
          · split
            next done => rw [done] at emitted; exact emitted
            next failed => rw [failed] at emitted; exact emitted
          · exact nothing
  | _ => exact emit_adds env (by simp)

end StateMachineInstanceAggregate

theorem runCommands_adds (aggregate : StateMachineInstanceAggregate) (calls : List (Call J)) :
    ∃ evts, (runCommands json aggregate calls).domainEvts = aggregate.domainEvts ++ evts ∧ Own aggregate.state.id evts := by
  induction calls generalizing aggregate with
  | nil => exact ⟨[], (List.append_nil _).symm, .nil⟩
  | cons call calls ih =>
    obtain ⟨first, added, own⟩ := @StateMachineInstanceAggregate.exec_adds J json aggregate call.1 call.2
    obtain ⟨rest, more, owns⟩ := ih (exec json aggregate call.1 call.2).1
    rw [(StateMachineInstanceAggregate.exec_extends call.1 call.2).id] at owns
    refine ⟨first ++ rest, ?_, own.append owns⟩
    rw [← List.append_assoc, ← added]
    exact more

/-- The events that were added, handled from where the aggregate was, lead to where it is. -/
theorem replay_runCommands {s : StateMachineInstance} {calls : List (Call J)}
    (replayed : replay (StateMachineInstance.handle json) s aggregate.domainEvts = (aggregate.state, .ok ()))
    (expected : Along (StateMachineInstanceAggregate.step json) (StateMachineInstanceAggregate.Expected json) aggregate
      calls) :
    replay (StateMachineInstance.handle json) s (runCommands json aggregate calls).domainEvts =
      ((runCommands json aggregate calls).state, .ok ()) := by
  induction calls generalizing aggregate with
  | nil => exact replayed
  | cons call calls ih =>
    have kept : ∀ {after outcome}, StateMachineInstanceAggregate.Effect json aggregate after outcome →
        replay (StateMachineInstance.handle json) s after.domainEvts = (after.state, .ok ()) := by
      intro after outcome effect
      cases effect with
      | nothing => exact replayed
      | emits handled => exact replay_concat replayed handled
    exact ih (kept (StateMachineInstanceAggregate.exec_effect expected.1)) (expected.2 _ rfl)

/-- The version of an event is not handled. -/
theorem replay_commit (aggregate : StateMachineInstanceAggregate) (s : StateMachineInstance) :
    replay (StateMachineInstance.handle json) s aggregate.commit.domainEvts =
      replay (StateMachineInstance.handle json) s aggregate.domainEvts := by
  simp only [AggregateRoot.commit]
  generalize aggregate.domainEvts = evts
  induction evts generalizing s with
  | nil => rfl
  | cons evt evts ih =>
    have same : s.handle json { evt with aggregateVersion := aggregate.version + 1 } = s.handle json evt := rfl
    simp only [List.map_cons, replay, same, ih]

end

/-! ## Every run -/

namespace ExporterState

section
variable {J : Type*} {json : JTokens J} {snapshotFrequency : Nat} {utcNow : Nat → Nat} {groupId : String}
  {state : ExporterState}

/-- What holds between actions: no version is one for a snapshot, the topic of an instance has its events of the common
topic, and the bag shows the view of those that were handed over. -/
structure Invariant (json : JTokens J) (utcNow : Nat → Nat) (groupId : String) (state : ExporterState) : Prop where
  snapshots : state.snapshots = []
  timed : state.stores.Timed utcNow
  topics : ∀ id, state.stores.topicEvents (topicOf (instanceClass json).topic (some id)) =
    streamOf (·.aggregateId) (state.stores.topicEvents (instanceClass json).topic) (some id)
  streams : InstanceStreams json (state.stores.topicEvents (instanceClass json).topic)
  saved : BaseQueryProjection.Saved (queryProjection groupId) state.projection
  shows' : Shows state.instances (instanceView json (handledEvents json state))

/-- No more is handled than was appended. -/
theorem Invariant.handled_le (inv : Invariant json utcNow groupId state) :
    state.projection.handled.length ≤ (state.stores.topicEvents (instanceClass json).topic).length := by
  have le := inv.saved.inOrder.length_le
  rw [BaseQueryProjection.length_placesOf] at le
  rwa [EventStores.topicEvents, List.length_map]

/-- What is handled are streams of instances. -/
theorem Invariant.streams_handled (inv : Invariant json utcNow groupId state) :
    InstanceStreams json (handledEvents json state) := by
  have all := inv.streams
  rw [← List.take_append_drop state.projection.handled.length (state.stores.topicEvents (instanceClass json).topic)] at all
  exact all.of_append

/-- The projection has started or stopped. -/
theorem Invariant.of_projection (inv : Invariant json utcNow groupId state) {projection : ProjectionState InstanceEvent}
    (saved : BaseQueryProjection.Saved (queryProjection groupId) projection) (evts : projection.evts = state.projection.evts)
    (handled : projection.handled = state.projection.handled) : Invariant json utcNow groupId { state with projection } := by
  have stores : ExporterState.stores { state with projection } = state.stores := by simp only [ExporterState.stores, evts]
  have events : handledEvents json { state with projection } = handledEvents json state := by
    simp only [handledEvents, stores, handled]
  refine ⟨inv.snapshots, ?_, ?_, ?_, saved, ?_⟩
  · rw [stores]
    exact inv.timed
  · rw [stores]
    exact inv.topics
  · rw [stores]
    exact inv.streams
  · rw [events]
    exact inv.shows'

/-- The end of a session: its events are appended to both topics. -/
theorem Invariant.session (inv : Invariant json utcNow groupId state) (two : 2 ≤ snapshotFrequency)
    {aggregate : StateMachineInstanceAggregate} {calls : List (Call J)} {id : String} (own : aggregate.state.id = some id)
    (version : aggregate.version = 0) {s : StateMachineInstance}
    (ids : ∀ evt ∈ (runCommands json aggregate calls).domainEvts, evt.aggregateId = some id)
    (replayed : replay (StateMachineInstance.handle json) {}
      (streamOf (·.aggregateId) (state.stores.topicEvents (instanceClass json).topic) (some id) ++
        (runCommands json aggregate calls).domainEvts) = (s, .ok ()))
    (first : ∀ before evt after, (runCommands json aggregate calls).domainEvts = before ++ evt :: after →
      (Creates evt ↔ streamOf (·.aggregateId) (state.stores.topicEvents (instanceClass json).topic) (some id) = [] ∧
        before = [])) :
    Invariant json utcNow groupId (session json snapshotFrequency utcNow state aggregate calls) := by
  have extended : StateMachineInstanceAggregate.Extends aggregate (runCommands json aggregate calls) :=
    runCommands_extends aggregate calls
  have next : (runCommands json aggregate calls).version + 1 = 1 := by rw [extended.version, version]
  have notDue : ((runCommands json aggregate calls).version + 1) % snapshotFrequency ≠ 0 := by
    rw [next, Nat.mod_eq_of_lt two]
    exact Nat.one_ne_zero
  have committed := CommitAggregateHelper.committed (instanceClass json) snapshotFrequency inv.timed
    (runCommands json aggregate calls)
  have ownId : (instanceClass json).id (runCommands json aggregate calls).state = some id := extended.id.trans own
  obtain ⟨topics, longer⟩ := CommitAggregateHelper.commit_topics (instanceClass json) utcNow state.stores
    notDue
  rw [ownId] at topics
  have common := topics (instanceClass json).topic
  rw [if_pos (.inr rfl)] at common
  have idsAfter : ∀ evt ∈ (runCommands json aggregate calls).commit.domainEvts, evt.aggregateId = some id := by
    intro evt member
    obtain ⟨before, among, rfl⟩ := List.mem_map.mp member
    exact ids before among
  refine ⟨?_, committed.timed, ?_, ?_, inv.saved.append longer, ?_⟩
  · have none := committed.snapshots
    rw [if_neg notDue, List.append_nil] at none
    exact none.trans inv.snapshots
  · intro id'
    refine (topics _).trans ?_
    have notCommon : topicOf (instanceClass json).topic (some id') ≠ (instanceClass json).topic :=
      (topicOf_ne _ _).symm
    refine Eq.trans ?_ (congrArg (fun log => streamOf (·.aggregateId) log (some id')) common).symm
    rw [streamOf_append, streamOf_of_forall idsAfter, inv.topics]
    congr 1
    by_cases same : id' = id
    · rw [if_pos (.inl (by rw [same])), if_pos (by rw [same])]
    · rw [if_neg, if_neg (by simpa using Ne.symm same)]
      rintro (equal | equal)
      · exact same (topicOf_inj equal)
      · exact notCommon equal
  · have appended : InstanceStreams json (state.stores.topicEvents (instanceClass json).topic ++
        (runCommands json aggregate calls).commit.domainEvts) := by
      obtain ⟨u, known⟩ := inv.streams.replays (some id)
      refine inv.streams.append idsAfter (s := s) ?_ ?_
      · rw [replay_append known, replay_commit, ← replay_append known]
        exact replayed
      · intro before evt after split
        obtain ⟨before', rest, split', rfl, tail⟩ := List.map_eq_append_iff.mp split
        obtain ⟨evt', after', rfl, rfl, rfl⟩ := List.map_eq_cons_iff.mp tail
        rw [List.map_eq_nil_iff]
        exact first before' evt' after' split'
    exact common ▸ appended
  · have same : handledEvents json (ExporterState.session json snapshotFrequency utcNow state aggregate calls) =
        handledEvents json state := by
      refine (congrArg (List.take state.projection.handled.length) common).trans ?_
      rw [List.take_append_of_le_length inv.handled_le]
      rfl
    rw [same]
    exact inv.shows'

/-- A new instance keeps the invariant. -/
theorem Invariant.create (inv : Invariant json utcNow groupId state) (two : 2 ≤ snapshotFrequency) {env : InstanceEnv}
    {workflowDef : WorkflowDef} {calls : List (Call J)} (allowed : Allowed json state (.create env workflowDef calls)) :
    Invariant json utcNow groupId
      (ExporterState.session json snapshotFrequency utcNow state (StateMachineInstanceAggregate.create json env workflowDef)
        calls) := by
  obtain ⟨fresh, expected⟩ := allowed
  have empty : streamOf (·.aggregateId) (state.stores.topicEvents (instanceClass json).topic) (some env.secondGuid) = [] := by
    refine List.filter_eq_nil_iff.mpr fun evt member => ?_
    obtain ⟨e, among, rfl⟩ := List.mem_map.mp member
    simpa using fresh e (List.mem_of_mem_filter among)
  obtain ⟨evts, added, own⟩ := @runCommands_adds J json (StateMachineInstanceAggregate.create json env workflowDef) calls
  have replayed := replay_runCommands
    (@StateMachineInstanceAggregate.replays_create J json env workflowDef) expected
  have created : (StateMachineInstanceAggregate.create json env workflowDef).state.id = some env.secondGuid := rfl
  refine inv.session two created rfl ?_ (by rw [empty]; exact replayed) ?_
  · rw [added]
    exact List.forall_mem_append.mpr ⟨by simp [StateMachineInstanceAggregate.create], own.id⟩
  · intro before evt after split
    rw [added] at split
    cases before with
    | nil =>
      obtain ⟨rfl, -⟩ := List.cons.inj split
      exact iff_of_true ⟨workflowDef, env.utcNow, rfl⟩ ⟨empty, rfl⟩
    | cons created before =>
      refine iff_of_false (own.notCreates evt ?_) (by simp)
      have tail : evts = before ++ evt :: after := (List.cons.inj split).2
      rw [tail]
      simp

/-- What `Get` loads. -/
theorem Invariant.get (inv : Invariant json utcNow groupId state) (lossless : Lossless json.reread) (increasing : StrictMono utcNow) (id : String) :
    ∃ s, replay (StateMachineInstance.handle json) {}
        (streamOf (·.aggregateId) (state.stores.topicEvents (instanceClass json).topic) (some id)) = (s, .ok ()) ∧
      CommitAggregateHelper.get (instanceClass json) id state.stores = .ok { state := s } := by
  obtain ⟨s, replayed⟩ := inv.streams.replays (some id)
  refine ⟨s, replayed, CommitAggregateHelper.get_of_no_snapshot lossless increasing inv.timed inv.snapshots ?_⟩
  rw [inv.topics]
  exact replayed

/-- An instance that goes on keeps the invariant. -/
theorem Invariant.resume (inv : Invariant json utcNow groupId state) (two : 2 ≤ snapshotFrequency)
    (lossless : Lossless json.reread) (increasing : StrictMono utcNow) {id : String} {calls : List (Call J)}
    (allowed : Allowed json state (.resume id calls))
    {next : ExporterState} (taken : step json snapshotFrequency utcNow groupId state (.resume id calls) = some next) :
    Invariant json utcNow groupId next := by
  obtain ⟨s, replayed, loads⟩ := inv.get lossless increasing id
  simp only [step, loads] at taken
  obtain ⟨own, rfl⟩ : s.id = some id ∧ _ = next := by
    simpa only [Option.ite_none_right_eq_some, Option.some.injEq] using taken
  have begun : streamOf (·.aggregateId) (state.stores.topicEvents (instanceClass json).topic) (some id) ≠ [] := by
    intro empty
    rw [empty] at replayed
    obtain ⟨rfl, -⟩ := Prod.mk.inj replayed
    cases own
  obtain ⟨evts, added, owns⟩ := @runCommands_adds J json { state := s } calls
  have more := @replay_runCommands J json { state := s } s calls rfl (allowed _ loads)
  rw [List.nil_append] at added
  rw [own] at owns
  refine inv.session two own rfl (by rw [added]; exact owns.id) ((replay_append replayed _).trans more) ?_
  intro before evt after split
  rw [added] at split
  refine iff_of_false (owns.notCreates evt ?_) fun both => begun both.1
  rw [split]
  simp

/-- An event that is delivered keeps the invariant. -/
theorem Invariant.deliver (inv : Invariant json utcNow groupId state) (lossless : Lossless json.reread) {bag : List StateMachineInstanceAggregate}
    (perm : bag.Perm state.instances) {next : ExporterState} (taken : deliver json groupId state bag = some next) :
    Invariant json utcNow groupId next := by
  unfold ExporterState.deliver at taken
  split at taken
  · cases taken
  next projection delivered =>
    obtain ⟨place, found, handled, evts⟩ := inv.saved.delivered rfl delivered
    obtain ⟨e, there, nextEvent⟩ := BaseQueryProjection.event_of_placesOf found
    have longer : (state.stores.topicEvents (instanceClass json).topic).take projection.handled.length =
        handledEvents json state ++ [e.evt] := by
      have event : (state.stores.topicEvents (instanceClass json).topic)[state.projection.handled.length]? = some e.evt := by
        rw [EventStores.topicEvents, List.getElem?_map]
        exact congrArg (Option.map (·.evt)) nextEvent
      rw [handled, List.length_append, List.length_singleton, List.take_add_one, event]
      rfl
    have streams := inv.streams
    rw [← List.take_append_drop projection.handled.length (state.stores.topicEvents (instanceClass json).topic), longer]
      at streams
    obtain ⟨projected, projects, shown⟩ := Shows.project streams.of_append (inv.shows'.perm perm)
    simp only [handled, List.getLast?_concat, Option.bind_some, there, lossless e.evt, Except.toOption, projects,
      Option.some.injEq] at taken
    subst taken
    have stores : ExporterState.stores { state with projection, instances := projected } = state.stores := by
      simp only [ExporterState.stores, evts]
    refine ⟨inv.snapshots, ?_, ?_, ?_, inv.saved.deliver rfl rfl delivered, ?_⟩
    · rw [stores]
      exact inv.timed
    · rw [stores]
      exact inv.topics
    · rw [stores]
      exact inv.streams
    · have events : handledEvents json { state with projection, instances := projected } =
          handledEvents json state ++ [e.evt] := by
        rw [handledEvents, stores]
        exact longer
      rw [events]
      exact shown

/-- What is shown is what has been handled. -/
theorem Invariant.consistent (inv : Invariant json utcNow groupId state) (lossless : Lossless json.reread) (increasing : StrictMono utcNow) :
    Consistent json groupId state := by
  have own : ∀ id s, instanceView json (handledEvents json state) id = some s → s.id = id :=
    fun _ _ => id_of_instanceView inv.streams_handled
  have once := inv.saved.handledOnce (rfl : (queryProjection groupId).consumer = .eventStoreDB)
  refine ⟨once, fun period running => (inv.saved.passed period running).1, inv.shows'.distinct,
    inv.shows'.get own, fun running idle id aggregate known => ?_⟩
  have all : handledEvents json state = state.stores.topicEvents (instanceClass json).topic := by
    refine List.take_of_length_le ?_
    rw [once.all running idle, BaseQueryProjection.length_placesOf, EventStores.topicEvents, List.length_map]
    rfl
  obtain ⟨s, replayed, loads⟩ := inv.get lossless increasing id
  rw [inv.shows'.get own, all, loads]
  unfold instanceView viewOf
  split_ifs with empty
  · rw [empty] at replayed
    obtain ⟨rfl, -⟩ := Prod.mk.inj replayed
    refine iff_of_false (by simp) fun same => ?_
    rw [← Except.ok.inj same] at known
    cases known
  · rw [replayed]
    simp

end

open StateMachineInstanceAggregate (emptyObject)

/-- An instance is created with a state, both events are handed over, and then the state is started. -/
def exportedRun : List (ExporterAction Unit) :=
  let env : InstanceEnv := ⟨"e1", "instance", 1⟩
  [.create env noDefinition [(⟨"e2", "s1", 2⟩, .addState (some "def"))], .start, .deliver [],
    .deliver [(create emptyObject env noDefinition).clone],
    .resume "instance" [(⟨"e3", "", 3⟩, .startState (some "s1") (some ()))], .stop]

example : (run (step emptyObject 5 id "group") { projection := { evts := [] } } exportedRun).isSome := by decide

end ExporterState

end FaasNet.StateMachine
