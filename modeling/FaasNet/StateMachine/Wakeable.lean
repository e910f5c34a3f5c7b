import FaasNet.StateMachine.DeliveryInterleavings
import FaasNet.StateMachine.ListenedEvents

/-!
# Instances that can be woken

Instances are launched and messages handled, one after the other. An instance that waits for an event is found by the
subscription that was made of its integration event. `InstanciateAndLaunch` makes these; `HandleMessage` launches an
instance as well and makes none, so what the instance waits for then is never delivered to it. It also marks the
subscriptions of events that the instance has refused. Where neither happens, there are at least as many open
subscriptions for a key as events that are waited for under it.
-/

namespace FaasNet.StateMachine

open FaasNet.Lib FaasNet.Common FaasNet.Domain FaasNet.EventStore

/-! ## The system -/

/-- The launch of a new instance, or an operation of a call of `HandleMessage`. -/
inductive WorkerAction (J : Type*) where
  | launch (request : LaunchRequest J)
  | handle (action : ConsumerAction J)

section
variable {J : Type*} (worker : Worker J)

/-- Launches and calls begin when no call is in flight. -/
def Consumers.work (s : Consumers J) : WorkerAction J → Option (Consumers J)
  | .launch request =>
    if s.calls.isEmpty then (instanciateAndLaunch worker request s.stores).map fun stores => { s with stores } else none
  | .handle (.deliver delivery) => if s.calls.isEmpty then s.step worker (.deliver delivery) else none
  | .handle (.next k) => s.step worker (.next k)

/-- Every event that an instance waits for has a subscription, and a subscription is marked as consumed only when the
instance has accepted its event. -/
structure Wakeable (stores : WorkerStores) : Prop where
  subscribed : ∀ id machine, stores.committed id = some machine → ∀ s ∈ machine.states,
    s.status = .ACTIVE ∨ s.status = .PENDING → ∀ e ∈ s.events, e.state = .CREATED →
      ∃ c ∈ stores.cloudEvents, c.workflowInstanceId = some id ∧ c.stateInstanceId = some s.id ∧ c.source = e.source ∧
        c.type = e.type ∧ c.isConsumed = false
  accepted : ∀ m ∈ stores.marked, m.2 = true
  consumed : ∀ c ∈ stores.cloudEvents, c.isConsumed = true → ∃ m, (m, true) ∈ stores.marked ∧ c = m.consumed

variable (eventRefs : StateMachineDefinitionState → List (Option String))

/-- What is promised of the outside: the states of a new instance get different GUIDs, and the processors listen to
the events of the definitions. -/
def Genuine : WorkerAction J → Prop
  | .launch request => Conforming worker.json.toJTokens request.processors ∧
      ∀ d ∈ request.definition.states, ∀ e ∈ request.definition.states,
        (request.stateEnvs d).secondGuid = (request.stateEnvs e).secondGuid → d = e
  | .handle (.deliver delivery) => ∀ c, Listening worker.json.toJTokens eventRefs (delivery.envs c).processors
  | .handle (.next _) => True

variable (heard : StateMachineDefinition → StateMachineInstance → Option String → Prop)

/-- The next operation of a call goes well: the instance that is loaded is the one that was committed, and it accepts
the event and, from the state that it wakes on, listens to nothing new. -/
def GoesWell (stores : WorkerStores) : CallState → Prop
  | .locked (.load ((id, _) :: _) _) =>
    match CommitAggregateHelper.get (instanceClass worker.json.toJTokens) (id.getD "") stores.instances with
    | .error _ => True
    | .ok loaded => isNullOrWhiteSpace loaded.state.id ∨ stores.committed (id.getD "") = some loaded.state
  | .locked (.consume stateMachineDef stateMachineInstance (c :: _) _ _) =>
    stateMachineInstance.state.accepts c.stateInstanceId c.source c.type ∧
      heard stateMachineDef stateMachineInstance.state c.stateInstanceId
  | _ => True

/-- The condition on a step: the definition of a new instance is the one that is read back later, and the operations of
a call go well. -/
def Wakes (s : Consumers J) : WorkerAction J → Prop
  | .launch request => (worker.deserializeYaml request.workflowDef.serializedDefinition).map
      (fun read => (read.states, read.root)) = some (request.definition.states, request.definition.root)
  | .handle (.deliver _) => True
  | .handle (.next k) => ∀ call ∈ s.calls[k]?, GoesWell worker heard s.stores call.state

instance [∀ d machine id, Decidable (heard d machine id)] (stores : WorkerStores) (state : CallState) :
    Decidable (GoesWell worker heard stores state) :=
  match state with
  | .locking => isTrue trivial
  | .locked .query => isTrue trivial
  | .locked (.load [] _) => isTrue trivial
  | .locked (.load ((id, _) :: _) _) =>
    match found : CommitAggregateHelper.get (instanceClass worker.json.toJTokens) (id.getD "") stores.instances with
    | .error _ => isTrue (by simp [GoesWell, found])
    | .ok loaded => decidable_of_iff (isNullOrWhiteSpace loaded.state.id ∨ stores.committed (id.getD "") = some loaded.state)
        (by simp [GoesWell, found])
  | .locked (.consume _ _ [] _ _) => isTrue trivial
  | .locked (.consume _ _ (_ :: _) _ _) => inferInstanceAs (Decidable (_ ∧ _))
  | .locked (.update _) => isTrue trivial
  | .locked (.release _) => isTrue trivial

instance [∀ d machine id, Decidable (heard d machine id)] (s : Consumers J) (a : WorkerAction J) :
    Decidable (Wakes worker heard s a) :=
  match a with
  | .launch _ => inferInstanceAs (Decidable (_ = _))
  | .handle (.deliver _) => isTrue trivial
  | .handle (.next _) => inferInstanceAs (Decidable (∀ call ∈ _, GoesWell worker heard s.stores _))

end

/-! ## Subscriptions that are counted -/

/-- The keys of the subscriptions that are not consumed. -/
def openKeys (cloudEvents : List CloudEventSubscription) : List (Option String × WaitKey) :=
  (cloudEvents.filter fun c => !c.isConsumed).map (·.key)

/-- The keys of those that are. -/
def usedKeys (evts : List CloudEventSubscription) : List (Option String × WaitKey) :=
  (evts.filter fun c => c.isConsumed).map (·.key)

@[simp] theorem openKeys_append (l l' : List CloudEventSubscription) : openKeys (l ++ l') = openKeys l ++ openKeys l' := by
  simp [openKeys]

@[simp] theorem usedKeys_append (l l' : List CloudEventSubscription) : usedKeys (l ++ l') = usedKeys l ++ usedKeys l' := by
  simp [usedKeys]

theorem usedKeys_open {l : List CloudEventSubscription} (unconsumed : ∀ c ∈ l, c.isConsumed = false) : usedKeys l = [] := by
  rw [usedKeys, List.filter_eq_nil_iff.mpr fun c member => by simp [unconsumed c member], List.map_nil]

/-- Writing a subscription closes one of its key at most, and only if it is consumed. -/
theorem openKeys_update {bag : BagOrder} {cloudEvents after : List CloudEventSubscription} {evt : CloudEventSubscription}
    (updated : InMemoryCloudEventSubscriptionRepository.update bag cloudEvents evt = some after)
    (key : Option String × WaitKey) :
    (openKeys cloudEvents).count key ≤ (openKeys after).count key + (usedKeys [evt]).count key := by
  obtain ⟨record, found, rfl⟩ := Option.map_eq_some_iff.mp updated
  have same : record.key = evt.key := by simpa using List.find?_some found
  have member : record ∈ cloudEvents := (bag.perm cloudEvents).mem_iff.mp (List.mem_of_find?_eq_some found)
  have split : (openKeys ([record] ++ remove cloudEvents record)).Perm (openKeys cloudEvents) :=
    ((remove_cons_perm member).filter _).map _
  have one : (openKeys [record]).count key ≤ (openKeys [evt]).count key + (usedKeys [evt]).count key := by
    have whole : openKeys [evt] ++ usedKeys [evt] = [evt.key] := by
      cases consumed : evt.isConsumed <;> simp [openKeys, usedKeys, consumed]
    rw [← List.count_append, whole, ← same]
    exact (List.filter_sublist.map _).count_le key
  rw [← split.count_eq, openKeys_append, openKeys_append, List.count_append, List.count_append]
  omega

/-- A subscription after an update was there before, or is the updated one. -/
theorem mem_of_update {bag : BagOrder} {cloudEvents after : List CloudEventSubscription} {evt c : CloudEventSubscription}
    (updated : InMemoryCloudEventSubscriptionRepository.update bag cloudEvents evt = some after) (member : c ∈ after) :
    c ∈ cloudEvents ∨ c = evt := by
  obtain ⟨record, -, rfl⟩ := Option.map_eq_some_iff.mp updated
  rcases List.mem_append.mp member with old | last
  · exact .inl (List.mem_of_mem_erase ((remove_perm cloudEvents record).mem_iff.mp old))
  · exact .inr (List.mem_singleton.mp last)

/-! ## The invariant -/

section
variable {J : Type*}

/-- What is known of a committed instance: its id, and that it is sound for the definition that it carries. -/
structure Known (worker : Worker J) (id : String) (machine : StateMachineInstance) : Prop where
  id : machine.id = some id
  sound : ∀ definition,
    worker.deserializeYaml (machine.workflowDef.bind (·.serializedDefinition)) = some definition → Sound definition machine

/-- There are open subscriptions for what the instances wait for and for the consumed ones that are still to be
written. -/
structure Balanced (worker : Worker J) (stores : WorkerStores) (pending : List CloudEventSubscription) : Prop where
  known : ∀ id machine, stores.committed id = some machine → Known worker id machine
  covered : ∀ id machine, stores.committed id = some machine → ∀ key,
    machine.waited.count key + (usedKeys pending).count (some id, key) ≤ (openKeys stores.cloudEvents).count (some id, key)
  accepted : ∀ m ∈ stores.marked, m.2 = true
  consumed : ∀ c, c ∈ stores.cloudEvents ∨ c ∈ pending → c.isConsumed = true →
    ∃ m, (m, true) ∈ stores.marked ∧ c = m.consumed

/-- The groups of a call: open subscriptions of one instance each. -/
def Grouped (lst : List (Option String × List CloudEventSubscription)) : Prop :=
  ∀ group ∈ lst, ∀ c ∈ group.2, c.workflowInstanceId = group.1 ∧ c.isConsumed = false

/-- How far a call is. -/
def Handles (worker : Worker J) (stores : WorkerStores) : Phase → Prop
  | .query => Balanced worker stores []
  | .load lst handled => Balanced worker stores handled ∧ Grouped lst
  | .consume stateMachineDef stateMachineInstance kvp lst handled => Balanced worker stores handled ∧ Grouped lst ∧
      ∃ id, stores.committed id = some stateMachineInstance.state ∧
        worker.deserializeYaml (stateMachineInstance.state.workflowDef.bind (·.serializedDefinition)) =
          some stateMachineDef ∧ ∀ c ∈ kvp, c.workflowInstanceId = some id
  | .update evts => Balanced worker stores evts
  | .release _ => Balanced worker stores []

variable {worker : Worker J} {stores after : WorkerStores} {pending : List CloudEventSubscription}

/-- In balanced stores every instance can be woken. -/
theorem Balanced.wakeable (balanced : Balanced worker stores pending) : Wakeable stores := by
  refine ⟨fun id machine committed s member _ e listened created => ?_, balanced.accepted,
    fun c member => balanced.consumed c (.inl member)⟩
  have waited := List.count_pos_iff.mpr (mem_waited member listened created)
  have covered := balanced.covered id machine committed (some s.id, e.source, e.type)
  have present : (some id, some s.id, e.source, e.type) ∈ openKeys stores.cloudEvents :=
    List.count_pos_iff.mp (by omega)
  obtain ⟨c, inside, key⟩ := List.mem_map.mp present
  obtain ⟨there, unconsumed⟩ := List.mem_filter.mp inside
  simp only [CloudEventSubscription.key, Prod.mk.injEq] at key
  exact ⟨c, there, key.1, key.2.1, key.2.2.1, key.2.2.2, by simpa using unconsumed⟩

theorem balanced_start : Balanced worker {} [] := by
  have none : ∀ id machine, ({} : WorkerStores).committed id ≠ some machine := fun id machine => nofun
  refine ⟨fun id machine made => absurd made (none id machine), fun id machine made => absurd made (none id machine), ?_, ?_⟩
  · intro m member
    cases member
  · rintro c (member | member) <;> cases member

/-- An exception leaves what is still to be written. -/
theorem Balanced.dropped (balanced : Balanced worker stores pending) : Balanced worker stores [] := by
  refine ⟨balanced.known, fun id machine committed key => ?_, balanced.accepted, fun c member => balanced.consumed c ?_⟩
  · have covered := balanced.covered id machine committed key
    simp only [usedKeys, List.filter_nil, List.map_nil, List.count_nil]
    omega
  · exact .inl (member.resolve_right (by simp))

/-- Open subscriptions need not be counted. -/
theorem Balanced.skip (balanced : Balanced worker stores pending) {kvp : List CloudEventSubscription}
    (unconsumed : ∀ c ∈ kvp, c.isConsumed = false) : Balanced worker stores (pending ++ kvp) := by
  refine ⟨balanced.known, fun id machine committed key => ?_, balanced.accepted, fun c member isConsumed => ?_⟩
  · rw [usedKeys_append, usedKeys_open unconsumed, List.append_nil]
    exact balanced.covered id machine committed key
  · rcases member with stored | listed
    · exact balanced.consumed c (.inl stored) isConsumed
    · rcases List.mem_append.mp listed with earlier | here
      · exact balanced.consumed c (.inr earlier) isConsumed
      · rw [unconsumed c here] at isConsumed
        cases isConsumed

/-- A subscription is written. -/
theorem Balanced.update {bag : BagOrder} {evt : CloudEventSubscription} {cloudEvents : List CloudEventSubscription}
    (balanced : Balanced worker stores (evt :: pending))
    (updated : InMemoryCloudEventSubscriptionRepository.update bag stores.cloudEvents evt = some cloudEvents) :
    Balanced worker { stores with cloudEvents } pending := by
  refine ⟨balanced.known, fun id machine committed key => ?_, balanced.accepted, fun c member => balanced.consumed c ?_⟩
  · have covered := balanced.covered id machine committed key
    have closes := openKeys_update updated (some id, key)
    have first : usedKeys (evt :: pending) = usedKeys [evt] ++ usedKeys pending := usedKeys_append [evt] pending
    rw [first, List.count_append] at covered
    dsimp only
    omega
  · rcases member with stored | listed
    · rcases mem_of_update updated stored with old | rfl
      · exact .inl old
      · exact .inr List.mem_cons_self
    · exact .inr (List.mem_cons_of_mem _ listed)

/-! ## A call -/

variable {delivery : Delivery J} {eventRefs : StateMachineDefinitionState → List (Option String)}
  {stateMachineDef : StateMachineDefinition} {stateMachineInstance loaded : StateMachineInstanceAggregate}
  {c : CloudEventSubscription}

/-- The instance accepts the event, is launched and committed, and the subscription is marked. -/
theorem consumeSubscription_accepted (accepts : stateMachineInstance.state.accepts c.stateInstanceId c.source c.type)
    (consumed : consumeSubscription worker delivery stores stateMachineDef stateMachineInstance c =
      some (.ok (after, loaded))) :
    ∃ data between launched jObj,
      StateMachineInstanceAggregate.tryConsumeEvt worker.json.toJTokens stateMachineInstance (delivery.envs c).env
        c.stateInstanceId c.source c.type data = (between, .ok true) ∧
      launch worker.json (delivery.envs c).filters (delivery.envs c).processors stateMachineDef (delivery.envs c).envs
        (delivery.envs c).fuel between jObj c.stateInstanceId = some (launched, .ok ()) ∧
      loaded.state = launched.state ∧ after.cloudEvents = stores.cloudEvents ∧
      after.committed = Function.update stores.committed (launched.state.id.getD "") (some launched.state) ∧
      after.marked = stores.marked ++ [(c, true)] := by
  unfold consumeSubscription at consumed
  split at consumed
  · cases consumed
  next jObj parsed =>
    dsimp only at consumed
    split at consumed
    · cases consumed
    next refused => exact absurd refused (not_refused accepts)
    next between accepted =>
      split at consumed
      · cases consumed
      · cases consumed
      next launched returned =>
        cases consumed
        exact ⟨_, between, launched, some jObj, accepted, returned, rfl, rfl, rfl, rfl⟩

/-- What becomes of the instance: one event less is waited for. -/
theorem consumed_launched (listening : Listening worker.json.toJTokens eventRefs (delivery.envs c).processors)
    {between launched : StateMachineInstanceAggregate} {data : Option String} {jObj : Option J}
    (sound : Sound stateMachineDef stateMachineInstance.state)
    (heard : Heard eventRefs stateMachineDef stateMachineInstance.state c.stateInstanceId)
    (accepted : StateMachineInstanceAggregate.tryConsumeEvt worker.json.toJTokens stateMachineInstance
      (delivery.envs c).env c.stateInstanceId c.source c.type data = (between, .ok true))
    (returned : launch worker.json (delivery.envs c).filters (delivery.envs c).processors stateMachineDef
      (delivery.envs c).envs (delivery.envs c).fuel between jObj c.stateInstanceId = some (launched, .ok ())) :
    Kept stateMachineInstance.state launched.state ∧ Sound stateMachineDef launched.state ∧
      ∀ key, launched.state.waited.count key + [(c.stateInstanceId, c.source, c.type)].count key ≤
        stateMachineInstance.state.waited.count key := by
  obtain ⟨kept, waited⟩ := tryConsumeEvt_accepted accepted
  have consumes : Launched stateMachineDef stateMachineInstance.state
      (StateMachineInstanceAggregate.tryConsumeEvt worker.json.toJTokens stateMachineInstance (delivery.envs c).env
        c.stateInstanceId c.source c.type data).1.state := tryConsumeEvt_launched ..
  rw [accepted] at consumes
  obtain ⟨kept', sound'⟩ : Kept between.state launched.state ∧ Sound stateMachineDef launched.state :=
    launch_kept listening (consumes.sound sound) (heard.kept kept) returned
  refine ⟨kept.trans kept', sound', fun key => ?_⟩
  have fewer := kept'.waited.count_le key
  rw [waited.count_eq, List.count_append]
  omega

/-- An instance has used a subscription and is committed. -/
theorem Balanced.accept {id : String} {machine now : StateMachineInstance} (balanced : Balanced worker stores pending)
    (committed : stores.committed id = some machine) (known : Known worker id now)
    (fewer : ∀ key, now.waited.count key + [(c.stateInstanceId, c.source, c.type)].count key ≤ machine.waited.count key)
    (own : c.workflowInstanceId = some id) (cloudEvents : after.cloudEvents = stores.cloudEvents)
    (commits : after.committed = Function.update stores.committed id (some now))
    (marked : after.marked = stores.marked ++ [(c, true)]) : Balanced worker after (pending ++ [c.consumed]) := by
  have last : usedKeys [c.consumed] = [(some id, c.stateInstanceId, c.source, c.type)] := by
    simp [usedKeys, CloudEventSubscription.consumed, CloudEventSubscription.key, own]
  refine ⟨fun other machine' made => ?_, fun other machine' made key => ?_, fun m member => ?_, fun d member isConsumed => ?_⟩
  · rw [commits] at made
    by_cases here : other = id
    · subst here
      rw [Function.update_self, Option.some_inj] at made
      exact made ▸ known
    · rw [Function.update_of_ne here] at made
      exact balanced.known other machine' made
  · rw [commits] at made
    rw [cloudEvents, usedKeys_append, List.count_append, last]
    by_cases here : other = id
    · subst here
      rw [Function.update_self, Option.some_inj] at made
      subst made
      have covered := balanced.covered other _ committed key
      have less := fewer key
      have pair : [(some other, c.stateInstanceId, c.source, c.type)].count (some other, key) =
          [(c.stateInstanceId, c.source, c.type)].count key := by
        simp [List.count_singleton]
      omega
    · rw [Function.update_of_ne here] at made
      have covered := balanced.covered other machine' made key
      have none : [(some id, c.stateInstanceId, c.source, c.type)].count (some other, key) = 0 := by
        rw [List.count_eq_zero, List.mem_singleton]
        intro same
        exact here (Option.some.inj (Prod.mk.inj same).1)
      omega
  · rw [marked] at member
    rcases List.mem_append.mp member with earlier | last
    · exact balanced.accepted m earlier
    · rw [List.mem_singleton.mp last]
  · rw [marked]
    rw [cloudEvents] at member
    have earlier (there : d ∈ stores.cloudEvents ∨ d ∈ pending) :
        ∃ m, (m, true) ∈ stores.marked ++ [(c, true)] ∧ d = m.consumed := by
      obtain ⟨m, inside, same⟩ := balanced.consumed d there isConsumed
      exact ⟨m, List.mem_append_left _ inside, same⟩
    rcases member with stored | listed
    · exact earlier (.inl stored)
    · rcases List.mem_append.mp listed with before | last
      · exact earlier (.inr before)
      · exact ⟨c, by simp, List.mem_singleton.mp last⟩

/-- The handling of a subscription. -/
theorem Balanced.consume (listening : Listening worker.json.toJTokens eventRefs (delivery.envs c).processors) {id : String}
    (balanced : Balanced worker stores pending) (committed : stores.committed id = some stateMachineInstance.state)
    (read : worker.deserializeYaml (stateMachineInstance.state.workflowDef.bind (·.serializedDefinition)) =
      some stateMachineDef) (own : c.workflowInstanceId = some id)
    (accepts : stateMachineInstance.state.accepts c.stateInstanceId c.source c.type)
    (heard : Heard eventRefs stateMachineDef stateMachineInstance.state c.stateInstanceId)
    (consumed : consumeSubscription worker delivery stores stateMachineDef stateMachineInstance c =
      some (.ok (after, loaded))) :
    Balanced worker after (pending ++ [c.consumed]) ∧ after.committed id = some loaded.state ∧
      loaded.state.workflowDef = stateMachineInstance.state.workflowDef := by
  obtain ⟨data, between, launched, jObj, accepted, returned, state, cloudEvents, commits, marked⟩ :=
    consumeSubscription_accepted accepts consumed
  have known := balanced.known id _ committed
  obtain ⟨kept, sound, fewer⟩ := consumed_launched listening (known.sound stateMachineDef read) heard accepted returned
  have id_eq : launched.state.id = some id := kept.id.trans known.id
  rw [id_eq, Option.getD_some] at commits
  have known' : Known worker id launched.state := by
    refine ⟨id_eq, fun definition read' => ?_⟩
    rw [kept.workflowDef, read, Option.some_inj] at read'
    rwa [← read']
  refine ⟨balanced.accept committed known' fewer own cloudEvents commits marked, ?_, ?_⟩
  · rw [commits, Function.update_self, state]
  · rw [state, kept.workflowDef]

/-- Subscriptions that are not consumed are grouped by instance. -/
theorem grouped_groupByInstance {lst : List CloudEventSubscription} (unconsumed : ∀ c ∈ lst, c.isConsumed = false) :
    Grouped (MessageResult.groupByInstance lst) := by
  intro group member c inside
  obtain ⟨id, -, rfl⟩ := List.mem_map.mp member
  obtain ⟨there, same⟩ := List.mem_filter.mp inside
  exact ⟨by simpa using same, unconsumed c there⟩

/-- A group is loaded. -/
theorem Balanced.load {lst : List (Option String × List CloudEventSubscription)} {id : Option String}
    {kvp : List CloudEventSubscription} (balanced : Balanced worker stores pending) (grouped : Grouped ((id, kvp) :: lst))
    (well : GoesWell worker (Heard eventRefs) stores (.locked (.load ((id, kvp) :: lst) pending))) :
    Handles worker stores (loadInstance worker stores lst pending id kvp) := by
  have here := grouped (id, kvp) List.mem_cons_self
  have rest : Grouped lst := fun group member => grouped group (List.mem_cons_of_mem _ member)
  unfold loadInstance
  cases got : CommitAggregateHelper.get (instanceClass worker.json.toJTokens) (id.getD "") stores.instances with
  | error e => exact balanced.dropped
  | ok loaded =>
    simp only [GoesWell, got] at well
    dsimp only
    split_ifs with blank
    · exact ⟨balanced.skip fun c member => (here c member).2, rest⟩
    split
    · exact balanced.dropped
    next stateMachineDef read =>
      have committed := well.resolve_left blank
      have named := (balanced.known _ _ committed).id
      obtain ⟨key, rfl⟩ : ∃ key, id = some key := by
        cases id with
        | some key => exact ⟨key, rfl⟩
        | none =>
          rw [named] at blank
          exact absurd rfl blank
      exact ⟨balanced, rest, key, committed, read, fun c member => (here c member).1⟩

/-- A handler that goes well keeps the balance with each of its phases. -/
theorem Handles.advance {phase phase' : Phase} (listening : ∀ c, Listening worker.json.toJTokens eventRefs (delivery.envs c).processors)
    (handles : Handles worker stores phase) (well : GoesWell worker (Heard eventRefs) stores (.locked phase))
    (advanced : advance worker delivery stores phase = some (after, phase')) : Handles worker after phase' := by
  cases phase with
  | query =>
    simp only [StateMachine.advance] at advanced
    split at advanced
    · cases advanced
      exact handles
    · cases advanced
      refine ⟨handles, grouped_groupByInstance fun c member => ?_⟩
      have meets : delivery.message.Meets c := by simpa using (List.mem_filter.mp member).2
      exact meets.1.2.2.2
  | load lst handled =>
    obtain ⟨balanced, grouped⟩ := handles
    cases lst with
    | nil =>
      cases advanced
      exact balanced
    | cons group lst =>
      cases advanced
      exact balanced.load grouped well
  | consume stateMachineDef stateMachineInstance kvp lst handled =>
    obtain ⟨balanced, grouped, id, committed, read, own⟩ := handles
    cases kvp with
    | nil =>
      cases advanced
      exact ⟨balanced, grouped⟩
    | cons c kvp =>
      simp only [StateMachine.advance] at advanced
      obtain ⟨result, consumed, result_eq⟩ := Option.map_eq_some_iff.mp advanced
      cases result with
      | error e =>
        cases result_eq
        exact balanced.dropped
      | ok result =>
        cases result_eq
        obtain ⟨accepts, heard⟩ := well
        obtain ⟨balanced', committed', workflowDef⟩ :=
          balanced.consume (listening c) committed read (own c List.mem_cons_self) accepts heard consumed
        refine ⟨balanced', grouped, id, committed', ?_, fun d member => own d (List.mem_cons_of_mem _ member)⟩
        rw [workflowDef]
        exact read
  | update evts =>
    cases evts with
    | nil =>
      cases advanced
      exact handles
    | cons evt evts =>
      simp only [StateMachine.advance] at advanced
      split at advanced
      · cases advanced
        exact handles.dropped
      next cloudEvents updated =>
        cases advanced
        exact handles.update updated
  | release completed => cases advanced

/-! ## A launch -/

/-- The subscriptions of an instance for what it has announced. -/
theorem openKeys_create {id : String} {announced : List EventListenedEvent}
    (own : ∀ evt ∈ announced, evt.aggregateId = some id) (key : WaitKey) :
    (openKeys (announced.map CloudEventSubscription.create)).count (some id, key) = (announced.map (·.waited)).count key := by
  have keys : openKeys (announced.map CloudEventSubscription.create) = (announced.map (·.waited)).map (Prod.mk (some id)) := by
    rw [openKeys, List.filter_eq_self.mpr fun c member => by
      obtain ⟨evt, -, rfl⟩ := List.mem_map.mp member
      rfl, List.map_map, List.map_map]
    refine List.map_congr_left fun evt member => ?_
    rw [Function.comp_apply, Function.comp_apply, ← own evt member]
    rfl
  rw [keys]
  exact List.count_map_of_injective _ _ (Prod.mk_right_injective (some id)) key

/-- A launch announces what its instance waits for. -/
theorem launchRoot_announced {request : LaunchRequest J} (genuine : Genuine worker eventRefs (.launch request))
    {workflowInstance : StateMachineInstanceAggregate}
    (returned : launchRoot worker.json request.filters request.processors request.definition request.envs request.fuel
      (instanciate worker.json request.definition request.env request.workflowDef request.stateEnvs) request.input =
        some (workflowInstance, .ok ())) :
    Announced (some request.env.secondGuid) (some request.workflowDef) workflowInstance ∧
      Sound request.definition workflowInstance.state := by
  obtain ⟨conforming, fresh⟩ := genuine
  have announced : Announced (some request.env.secondGuid) (some request.workflowDef)
      (instanciate worker.json request.definition request.env request.workflowDef request.stateEnvs) :=
    announced_instanciate request.env request.workflowDef request.stateEnvs
  unfold launchRoot at returned
  split at returned
  · cases (Prod.mk.inj (Option.some.inj returned)).2
  · exact launch_announced conforming announced (sound_instanciate request.env request.workflowDef fresh) returned

/-- A launch keeps the balance. -/
theorem Balanced.launch {request : LaunchRequest J} (balanced : Balanced worker stores [])
    (genuine : Genuine worker eventRefs (.launch request))
    (readBack : worker.deserializeYaml request.workflowDef.serializedDefinition = some request.definition)
    (launched : instanciateAndLaunch worker request stores = some after) : Balanced worker after [] := by
  unfold instanciateAndLaunch at launched
  split at launched
  next workflowInstance returned =>
    cases launched
    obtain ⟨announced, sound⟩ := launchRoot_announced genuine returned
    have id_eq : workflowInstance.state.id = some request.env.secondGuid := announced.id
    have commits : ((WorkerStores.commit worker { stores with
        cloudEvents := stores.cloudEvents ++ workflowInstance.integrationEvents.map CloudEventSubscription.create }
        workflowInstance).2).committed =
          Function.update stores.committed (workflowInstance.state.id.getD "") (some workflowInstance.state) := rfl
    rw [id_eq, Option.getD_some] at commits
    refine ⟨fun other machine made => ?_, fun other machine made key => ?_, balanced.accepted, fun c member isConsumed => ?_⟩
    · rw [commits] at made
      by_cases here : other = request.env.secondGuid
      · subst here
        rw [Function.update_self, Option.some_inj] at made
        subst made
        refine ⟨id_eq, fun definition read => ?_⟩
        rw [announced.workflowDef, Option.bind_some, readBack, Option.some_inj] at read
        rwa [← read]
      · rw [Function.update_of_ne here] at made
        exact balanced.known other machine made
    · have subscriptions : openKeys ((WorkerStores.commit worker { stores with
          cloudEvents := stores.cloudEvents ++ workflowInstance.integrationEvents.map CloudEventSubscription.create }
          workflowInstance).2).cloudEvents = openKeys stores.cloudEvents ++
            openKeys (workflowInstance.integrationEvents.map CloudEventSubscription.create) := openKeys_append _ _
      rw [subscriptions, List.count_append]
      rw [commits] at made
      by_cases here : other = request.env.secondGuid
      · subst here
        rw [Function.update_self, Option.some_inj] at made
        subst made
        have created := openKeys_create announced.own key
        have waited := announced.waited.count_le key
        have nothing : (usedKeys []).count (some request.env.secondGuid, key) = 0 := rfl
        omega
      · rw [Function.update_of_ne here] at made
        have covered := balanced.covered other machine made key
        omega
    · rcases member with stored | listed
      · rcases List.mem_append.mp stored with old | new
        · exact balanced.consumed c (.inl old) isConsumed
        · obtain ⟨evt, -, rfl⟩ := List.mem_map.mp new
          cases isConsumed
      · cases listed
  next => cases launched

/-! ## Runs -/

variable {s t : Consumers J}

/-- What holds while calls are handled one at a time. -/
inductive Working (worker : Worker J) (eventRefs : StateMachineDefinitionState → List (Option String)) (s : Consumers J) : Prop
  | idle (calls : s.calls = []) (balanced : Balanced worker s.stores [])
  | locking {call : HandleCall J} (calls : s.calls = [call]) (state : call.state = .locking)
      (listening : ∀ c, Listening worker.json.toJTokens eventRefs (call.delivery.envs c).processors)
      (balanced : Balanced worker s.stores [])
  | locked {call : HandleCall J} {phase : Phase} (calls : s.calls = [call]) (state : call.state = .locked phase)
      (listening : ∀ c, Listening worker.json.toJTokens eventRefs (call.delivery.envs c).processors)
      (handles : Handles worker s.stores phase)

/-- The stores of a handler are balanced, but for what is pending. -/
theorem Handles.balanced {phase : Phase} (handles : Handles worker stores phase) : ∃ pending, Balanced worker stores pending := by
  cases phase with
  | query => exact ⟨_, handles⟩
  | load lst handled => exact ⟨_, handles.1⟩
  | consume stateMachineDef stateMachineInstance kvp lst handled => exact ⟨_, handles.1⟩
  | update evts => exact ⟨_, handles⟩
  | release completed => exact ⟨_, handles⟩

/-- At work every instance can be woken. -/
theorem Working.wakeable (working : Working worker eventRefs s) : Wakeable s.stores := by
  cases working with
  | idle calls balanced => exact balanced.wakeable
  | locking calls state listening balanced => exact balanced.wakeable
  | locked calls state listening handles =>
    obtain ⟨pending, balanced⟩ := handles.balanced
    exact balanced.wakeable

theorem Working.of_idle (working : Working worker eventRefs s) (empty : s.calls.isEmpty) : Balanced worker s.stores [] := by
  have none : s.calls = [] := by simpa using empty
  cases working with
  | idle calls balanced => exact balanced
  | locking calls =>
    rw [calls] at none
    cases none
  | locked calls =>
    rw [calls] at none
    cases none

/-- A handler that goes on keeps the worker at work. -/
theorem Working.next {k : Nat} (working : Working worker eventRefs s)
    (wakes : Wakes worker (Heard eventRefs) s (.handle (.next k))) (taken : s.step worker (.next k) = some t) :
    Working worker eventRefs t := by
  obtain ⟨call, found, advanced⟩ := Option.bind_eq_some_iff.mp taken
  have well := wakes call found
  have only {call' : HandleCall J} (calls : s.calls = [call']) : k = 0 ∧ call' = call := by
    rw [calls] at found
    cases k with
    | zero => exact ⟨rfl, Option.some.inj found⟩
    | succ k => cases found
  cases working with
  | idle calls balanced =>
    rw [calls] at found
    cases found
  | @locking call calls state listening balanced =>
    obtain ⟨rfl, rfl⟩ := only calls
    simp only [Consumers.advanceCall, state, Option.some_inj] at advanced
    subst advanced
    have turned : s.calls.set 0 { call with state := .locked .query } = [{ call with state := .locked .query }] := by
      rw [calls]
      rfl
    exact .locked turned rfl listening balanced
  | @locked call' phase calls state listening handles =>
    obtain ⟨rfl, rfl⟩ := only calls
    rw [state] at well
    by_cases ends : ∃ completed, phase = .release completed
    · obtain ⟨completed, rfl⟩ := ends
      simp only [Consumers.advanceCall, state, Option.some_inj] at advanced
      subst advanced
      exact .idle (by simp [calls]) handles
    · rw [advanceCall_locked state ends] at advanced
      obtain ⟨⟨after, phase'⟩, advances, rfl⟩ := Option.map_eq_some_iff.mp advanced
      have turned : s.calls.set 0 { call' with state := .locked phase' } = [{ call' with state := .locked phase' }] := by
        rw [calls]
        rfl
      exact .locked turned rfl listening (handles.advance listening well advances)

/-- A definition is its states and its root. -/
theorem eq_of_states {read definition : StateMachineDefinition} (states : read.states = definition.states)
    (root : read.root = definition.root) : read = definition := by
  cases read
  cases definition
  cases states
  cases root
  rfl

/-- An action that wakes what it should keeps the worker at work. -/
theorem Working.work {a : WorkerAction J} (working : Working worker eventRefs s) (genuine : Genuine worker eventRefs a)
    (wakes : Wakes worker (Heard eventRefs) s a) (taken : s.work worker a = some t) : Working worker eventRefs t := by
  cases a with
  | launch request =>
    simp only [Consumers.work] at taken
    split_ifs at taken with empty
    obtain ⟨stores, launched, rfl⟩ := Option.map_eq_some_iff.mp taken
    obtain ⟨read, readBack, same⟩ := Option.map_eq_some_iff.mp wakes
    obtain rfl : read = request.definition := eq_of_states (Prod.mk.inj same).1 (Prod.mk.inj same).2
    exact .idle (by simpa using empty) ((working.of_idle empty).launch genuine readBack launched)
  | handle action =>
    cases action with
    | deliver delivery =>
      simp only [Consumers.work] at taken
      split_ifs at taken with empty
      have balanced := working.of_idle empty
      have none : s.calls = [] := by simpa using empty
      simp only [Consumers.step] at taken
      split_ifs at taken
      · obtain rfl := Option.some.inj taken
        exact .idle none balanced
      · obtain rfl := Option.some.inj taken
        have one : s.calls ++ [⟨delivery, s.met delivery, .locking⟩] = [⟨delivery, s.met delivery, .locking⟩] := by
          rw [none, List.nil_append]
        exact .locking one rfl genuine balanced
    | next k => exact working.next wakes taken

/-- **A waiting instance can be woken.** In a run in which an instance that is woken accepts the event, and is come to
states that listen to their events already, every event that is waited for has an open subscription. -/
theorem run_wakeable (worker : Worker J) (eventRefs : StateMachineDefinitionState → List (Option String))
    (actions : List (WorkerAction J)) (genuine : ∀ a ∈ actions, Genuine worker eventRefs a)
    (wakes : Along (Consumers.work worker) (Wakes worker (Heard eventRefs)) { stores := {} } actions) :
    Always (Consumers.work worker) (fun s => Wakeable s.stores) { stores := {} } actions := by
  have start : Working worker eventRefs { stores := {} } := .idle rfl balanced_start
  have promised : Along (Consumers.work worker) (fun _ a => Genuine worker eventRefs a) { stores := {} } actions :=
    along_of_forall fun a member _ => genuine a member
  have working : Always (Consumers.work worker) (Working worker eventRefs) { stores := {} } actions :=
    always_of_along (fun s a t working meets taken => working.work meets.1 meets.2 taken) start (promised.and wakes)
  exact working.imp fun s => Working.wakeable

end

/-! ## Instances that wait for events -/

/-- The processors that wait for an event with the name of the state listen to that event only. -/
theorem listening_awaiting : Listening emptyObjects.toJTokens (fun d => [some d.id]) awaiting := by
  have refs : ∀ (n : Nat) (d : StateMachineDefinitionState) (s : StateMachineInstanceState)
      (aggregate : StateMachineInstanceAggregate), ∃ calls : List (StateMachineInstanceAggregate.Call Unit),
      (∀ call ∈ calls, ProcessorCall s.id call ∧ ∀ stateId name source type topic,
        call.2 = .listenEvt stateId name source type topic → name ∈ [some d.id]) ∧
      (awaiting n d s aggregate).1 = runCommands emptyObjects.toJTokens aggregate calls := by
    intro n d s aggregate
    let listen : StateMachineInstanceAggregate.Call Unit :=
      (⟨"", "", 0⟩, .listenEvt (some s.id) (some d.id) (some "source") (some d.id) (some "topic"))
    let process : StateMachineInstanceAggregate.Call Unit :=
      (⟨"", "", 0⟩, .processEvent (some s.id) (some d.id) (some "\x7b\x7d"))
    have listens : ∀ stateId name source type topic,
        listen.2 = .listenEvt stateId name source type topic → name ∈ [some d.id] := by
      rintro _ _ _ _ _ ⟨⟩
      exact List.mem_singleton_self _
    have processes : ∀ stateId name source type topic,
        process.2 = .listenEvt stateId name source type topic → name ∈ [some d.id] := by
      rintro _ _ _ _ _ ⟨⟩
    unfold awaiting
    dsimp only
    split_ifs
    · exact ⟨[listen, process], List.forall_mem_cons.mpr ⟨⟨rfl, listens⟩, List.forall_mem_singleton.mpr ⟨rfl, processes⟩⟩, rfl⟩
    · exact ⟨[listen], List.forall_mem_singleton.mpr ⟨rfl, listens⟩, rfl⟩
  refine ⟨⟨fun n d s aggregate => ?_, fun n d s aggregate output transition answer => ?_,
    fun n d s aggregate output answer => ?_⟩, refs⟩
  · obtain ⟨calls, own, called⟩ := refs n d s aggregate
    exact ⟨calls, fun call member => (own call member).1, called⟩
  · unfold awaiting at answer
    dsimp only at answer
    split_ifs at answer
    split at answer
    · cases answer
    next flow first =>
      split_ifs at answer with goes
      cases answer
      exact List.mem_map.mpr ⟨flow, List.mem_filter.mpr ⟨List.mem_of_head? first, by simpa using goes⟩, rfl⟩
  · unfold awaiting at answer
    dsimp only at answer
    split_ifs at answer
    split at answer
    · cases answer
    next flow first =>
      split_ifs at answer with ends
      exact ⟨flow, List.mem_of_head? first, ends⟩

/-- An instance is launched, and a message for its state is delivered and handled. -/
def launchAndHandle (definition : StateMachineDefinition) (steps : Nat) : List (WorkerAction Unit) :=
  .launch (requestOf definition) :: .handle (.deliver (messageOf "order" "root/topic")) ::
    List.replicate steps (.handle (.next 0))

/-- A launch and its handlers are genuine. -/
theorem genuine_launchAndHandle (definition : StateMachineDefinition) (steps : Nat) :
    ∀ a ∈ launchAndHandle definition steps, Genuine (workerOf definition) (fun d => [some d.id]) a := by
  intro a member
  simp only [launchAndHandle, List.mem_cons, List.mem_replicate] at member
  rcases member with rfl | rfl | ⟨-, rfl⟩
  · exact ⟨listening_awaiting.toConforming,
      fun d known e known' same => List.inj_on_of_nodup_map definition.distinct known known' same⟩
  · exact fun c => listening_awaiting
  · trivial

/-- All states listen to the events of their definitions. -/
def AllHeard (eventRefs : StateMachineDefinitionState → List (Option String)) (definition : StateMachineDefinition)
    (machine : StateMachineInstance) (_ : Option String) : Prop :=
  ∀ e ∈ definition.states, ∀ s ∈ machine.states, s.defId = some e.id → ∀ name ∈ eventRefs e, name ∈ s.events.map (·.name)

instance (eventRefs : StateMachineDefinitionState → List (Option String)) (definition : StateMachineDefinition)
    (machine : StateMachineInstance) (id : Option String) : Decidable (AllHeard eventRefs definition machine id) :=
  inferInstanceAs (Decidable (∀ e ∈ definition.states, ∀ s ∈ machine.states, s.defId = some e.id →
    ∀ name ∈ eventRefs e, name ∈ s.events.map (·.name)))

/-- Where all is heard, each state hears what it refers to. -/
theorem AllHeard.heard {eventRefs : StateMachineDefinitionState → List (Option String)} {definition : StateMachineDefinition}
    {machine : StateMachineInstance} {id : Option String} (all : AllHeard eventRefs definition machine id) :
    Heard eventRefs definition machine id := by
  rintro e ⟨s, d, -, defined, path⟩
  apply all
  cases path with
  | refl => exact (getState_mem defined).1
  | tail _ edge => exact edge.2.1

/-- Who hears more is woken as well. -/
theorem Wakes.imp {J : Type*} {worker : Worker J}
    {heard heard' : StateMachineDefinition → StateMachineInstance → Option String → Prop}
    (implies : ∀ d machine id, heard d machine id → heard' d machine id) {s : Consumers J} {a : WorkerAction J}
    (wakes : Wakes worker heard s a) : Wakes worker heard' s a := by
  cases a with
  | launch request => exact wakes
  | handle action =>
    cases action with
    | deliver delivery => trivial
    | next k =>
      intro call member
      have well := wakes call member
      unfold GoesWell at *
      split at well
      · exact well
      · exact ⟨well.1, implies _ _ _ well.2⟩
      · trivial

/-- An instance with one event state is launched and woken. -/
theorem run_wakeable_oneEvent :
    Always (Consumers.work (workerOf oneEvent)) (fun s => Wakeable s.stores) { stores := {} } (launchAndHandle oneEvent 9) ∧
      ∃ t, run (Consumers.work (workerOf oneEvent)) { stores := {} } (launchAndHandle oneEvent 9) = some t ∧
        t.calls.isEmpty ∧ t.stores.cloudEvents = [orderSubscription.consumed] := by
  have checked : Along (Consumers.work (workerOf oneEvent)) (Wakes (workerOf oneEvent) (AllHeard fun d => [some d.id]))
      { stores := {} } (launchAndHandle oneEvent 9) := by decide
  refine ⟨run_wakeable _ _ _ (genuine_launchAndHandle oneEvent 9) ?_, run_checked (by decide)⟩
  exact checked.imp fun s a => Wakes.imp fun _ _ _ => AllHeard.heard

/-- An event state that goes on to another one. -/
def twoEvents : StateMachineDefinition where
  states := [⟨"order", .Event, none, none, [⟨false, some "payment"⟩]⟩, ⟨"payment", .Event, none, none, [⟨true, none⟩]⟩]
  root := "order"
  distinct := by decide
  rooted := by decide
  closed := by decide

/-- It is woken by the first event and waits for the second one, which nothing delivers to it. -/
theorem not_wakeable_twoEvents :
    ¬ ∀ (worker : Worker Unit) (eventRefs : StateMachineDefinitionState → List (Option String))
      (actions : List (WorkerAction Unit)), (∀ a ∈ actions, Genuine worker eventRefs a) →
        ∀ t, run (Consumers.work worker) { stores := {} } actions = some t → t.calls.isEmpty → Wakeable t.stores := by
  intro always
  obtain ⟨t, reached, idle, waits, unsubscribed⟩ : ∃ t,
      run (Consumers.work (workerOf twoEvents)) { stores := {} } (launchAndHandle twoEvents 9) = some t ∧
        t.calls.isEmpty ∧ (∃ machine ∈ t.stores.committed "instance", ∃ s ∈ machine.states, s.status = .PENDING ∧
          s.id = "payment" ∧ ∃ e ∈ s.events, e.state = .CREATED) ∧
        ∀ c ∈ t.stores.cloudEvents, c.stateInstanceId ≠ some "payment" := run_checked (by decide)
  obtain ⟨machine, committed, s, member, pending, id, e, listened, created⟩ := waits
  have wakeable := always (workerOf twoEvents) (fun d => [some d.id]) _ (genuine_launchAndHandle twoEvents 9) t reached idle
  obtain ⟨c, inside, -, state, -⟩ := wakeable.subscribed _ machine committed s member (.inr pending) e listened created
  rw [id] at state
  exact unsubscribed c inside state

end FaasNet.StateMachine
