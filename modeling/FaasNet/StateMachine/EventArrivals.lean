import FaasNet.StateMachine.EventLaunches

/-!
# The order in which events arrive

An event state with one group of events waits until the last of them has arrived. Each arrival is a `TryConsumeEvt` and
a launch from the state. In whatever order they come, the events of the state are those of the definition in its order,
and what has become of each is told by whether it has arrived; so the outputs are merged in one order.
-/

namespace FaasNet.StateMachine

open FaasNet.Lib FaasNet.Common FaasNet.Domain

/-! ## The events of a group -/

/-- A call of a function gives the same wherever it is made. -/
def PureFunctions {J : Type} (services : RuntimeServices J) : Prop :=
  ∀ type processor, services.functionProcessors type = some processor →
    ∀ call call' input function s s', processor call input function s = processor call' input function s'

section
variable {J : Type} (services : RuntimeServices J) (workflowDef : StateMachineDefinitionAggregate)
  (eventState : StateMachineDefinitionEventState) (onEvent : StateMachineDefinitionOnEvent)
  (data : Option String → Option String)

/-- The events of the group that the state listens to. -/
def listenedTo : List StateMachineDefinitionEvent :=
  (onEvent.eventRefs.filterMap workflowDef.getEvent).filter fun evt => evt.kind = .Consumed

/-- A context of no instance. -/
def outside : ExecutionContext J :=
  ⟨services, workflowDef, { id := "", defId := none }, fun _ _ => ⟨"", "", 0⟩, fun _ => ⟨"", "", 0⟩, []⟩

/-- The event when it is new. -/
def newEvent (evt : StateMachineDefinitionEvent) : StateMachineInstanceStateEvent where
  name := evt.name
  source := evt.source
  type := evt.type
  topic := (services.topic evt).toOption.join

/-- The event when it has come with its data. -/
def consumedEvent (evt : StateMachineDefinitionEvent) : StateMachineInstanceStateEvent :=
  { newEvent services evt with state := .CONSUMED, inputData := data evt.name }

/-- What the action of the event gives. -/
def eventResult (evt : StateMachineDefinitionEvent) : Except ProcessorError (Option J) :=
  (EventStateProcessor.processOne (outside services workflowDef) 0 { id := "", defId := none } onEvent
    (consumedEvent services data evt, 0)).map (·.2)

/-- The same, where it gives a token. -/
def eventToken (evt : StateMachineDefinitionEvent) : Option J :=
  (eventResult services workflowDef onEvent data evt).toOption.join

/-- The event at one of its states. -/
def atStage (evt : StateMachineDefinitionEvent) : StateMachineInstanceStateEventStates → StateMachineInstanceStateEvent
  | .CREATED => newEvent services evt
  | .CONSUMED => consumedEvent services data evt
  | .PROCESSED => { consumedEvent services data evt with
      state := .PROCESSED, outputData := (eventToken services workflowDef onEvent data evt).map services.toText }

/-- The events, each at its state. -/
def atStages (stage : StateMachineDefinitionEvent → StateMachineInstanceStateEventStates) :
    List StateMachineInstanceStateEvent :=
  (listenedTo workflowDef onEvent).map fun evt => atStage services workflowDef onEvent data evt (stage evt)

/-- A state with this input and these events. -/
def holding (inputStr : Option String) (events : List StateMachineInstanceStateEvent) : StateMachineInstanceState :=
  { id := "", defId := none, inputStr, events }

/-- What the outputs are merged to, with the input of the state. -/
def mergedOutput (inputStr : Option String) (events : List StateMachineInstanceStateEvent) :
    Except ProcessorError (Option (Option J)) :=
  EventStateProcessor.tryGetOutput (outside services workflowDef) eventState (holding inputStr events)

/-- The references have different pairs of source and type. -/
def DistinctPairs : Prop :=
  (onEvent.eventRefs.map fun ref => (workflowDef.getEvent ref).map fun evt => (evt.source, evt.type)).Nodup

instance : Decidable (DistinctPairs workflowDef onEvent) := inferInstanceAs (Decidable (List.Nodup _))

/-- Every reference is one to an event, and a topic can be read where it is listened to. -/
def Listens : Prop :=
  ∀ ref ∈ onEvent.eventRefs, ∃ evt, workflowDef.getEvent ref = some evt ∧
    (evt.kind = .Consumed → ∃ topic, services.topic evt = .ok topic)

variable {services workflowDef eventState onEvent data}

@[simp] theorem name_atStage (evt : StateMachineDefinitionEvent) (stage : StateMachineInstanceStateEventStates) :
    (atStage services workflowDef onEvent data evt stage).name = evt.name := by
  cases stage <;> rfl

@[simp] theorem source_atStage (evt : StateMachineDefinitionEvent) (stage : StateMachineInstanceStateEventStates) :
    (atStage services workflowDef onEvent data evt stage).source = evt.source := by
  cases stage <;> rfl

@[simp] theorem type_atStage (evt : StateMachineDefinitionEvent) (stage : StateMachineInstanceStateEventStates) :
    (atStage services workflowDef onEvent data evt stage).type = evt.type := by
  cases stage <;> rfl

@[simp] theorem state_atStage (evt : StateMachineDefinitionEvent) (stage : StateMachineInstanceStateEventStates) :
    (atStage services workflowDef onEvent data evt stage).state = stage := by
  cases stage <;> rfl

/-- An event is found by its name. -/
theorem name_of_getEvent {ref : Option String} {evt : StateMachineDefinitionEvent}
    (found : workflowDef.getEvent ref = some evt) : evt.name = ref := by
  simpa using List.find?_some found

/-- A state listens to the consumed events that it refers to. -/
theorem mem_listenedTo {evt : StateMachineDefinitionEvent} : evt ∈ listenedTo workflowDef onEvent ↔
    evt.name ∈ onEvent.eventRefs ∧ workflowDef.getEvent evt.name = some evt ∧ evt.kind = .Consumed := by
  simp only [listenedTo, List.mem_filter, List.mem_filterMap, decide_eq_true_eq]
  constructor
  · rintro ⟨⟨ref, member, found⟩, consumed⟩
    obtain rfl := name_of_getEvent found
    exact ⟨member, found, consumed⟩
  · rintro ⟨member, found, consumed⟩
    exact ⟨⟨evt.name, member, found⟩, consumed⟩

/-- An event that is listened to is known by its name. -/
theorem eq_of_name {evt evt' : StateMachineDefinitionEvent} (member : evt ∈ listenedTo workflowDef onEvent)
    (member' : evt' ∈ listenedTo workflowDef onEvent) (same : evt.name = evt'.name) : evt = evt' := by
  have found := (mem_listenedTo.mp member).2.1
  rw [same, (mem_listenedTo.mp member').2.1] at found
  exact (Option.some.inj found).symm

/-- With distinct pairs an event is known by its source and type. -/
theorem eq_of_pair (distinct : DistinctPairs workflowDef onEvent) {ref : Option String} {evt evt' : StateMachineDefinitionEvent}
    (referenced : ref ∈ onEvent.eventRefs) (found : workflowDef.getEvent ref = some evt)
    (member : evt' ∈ listenedTo workflowDef onEvent) (source : evt'.source = evt.source) (type : evt'.type = evt.type) :
    evt' = evt := by
  obtain ⟨referenced', found', -⟩ := mem_listenedTo.mp member
  have same : evt'.name = ref := List.inj_on_of_nodup_map distinct referenced' referenced (by
    rw [found', found, Option.map_some, Option.map_some, source, type])
  rw [same, found] at found'
  exact (Option.some.inj found').symm

theorem nodup_pairs (distinct : DistinctPairs workflowDef onEvent) :
    ((listenedTo workflowDef onEvent).map fun evt => (evt.source, evt.type)).Nodup := by
  have pairs : ((onEvent.eventRefs.filterMap workflowDef.getEvent).map fun evt => (evt.source, evt.type)).Nodup := by
    rw [List.map_filterMap]
    have all : (onEvent.eventRefs.filterMap fun ref => (workflowDef.getEvent ref).map fun evt => (evt.source, evt.type)) =
        (onEvent.eventRefs.map fun ref => (workflowDef.getEvent ref).map fun evt => (evt.source, evt.type)).filterMap id := by
      rw [List.filterMap_map]
      rfl
    rw [all]
    exact List.Nodup.filterMap (fun a a' b one other => one.trans other.symm) distinct
  exact pairs.sublist (List.filter_sublist.map _)

/-- With distinct pairs no event is listened to twice. -/
theorem nodup_listenedTo (distinct : DistinctPairs workflowDef onEvent) : (listenedTo workflowDef onEvent).Nodup :=
  (nodup_pairs distinct).of_map

/-! ### What a function is given does not matter -/

/-- What an action gives depends on its input only. -/
theorem executeAction_pure (functional : PureFunctions services) {s s' : StateMachineInstanceState} {env env' : HandlingEnv}
    (call call' : List Nat) (state state' : StateMachineInstanceState) (input : Option J) (action : StateMachineDefinitionAction) :
    ActionExecutor.executeAction ⟨services, workflowDef, s, env⟩ call state input action =
      ActionExecutor.executeAction ⟨services, workflowDef, s', env'⟩ call' state' input action := by
  unfold ActionExecutor.executeAction
  cases ActionExecutor.functionRef action with
  | none => rfl
  | some ref =>
    dsimp only
    cases workflowDef.getFunction ref.refName with
    | none => rfl
    | some function =>
      dsimp only
      cases known : services.functionProcessors function.type with
      | none => rfl
      | some processor =>
        have same (functionInput : Option J) :=
          functional function.type processor known call call' functionInput function state state'
        simp only [same]
        rfl

/-- What is merged depends on the input only. -/
theorem executeAndMerge_pure (functional : PureFunctions services) {s s' : StateMachineInstanceState} {env env' : HandlingEnv}
    (call call' : List Nat) (state state' : StateMachineInstanceState) (input : Option J)
    (actions : List StateMachineDefinitionAction) :
    ActionExecutor.executeAndMerge ⟨services, workflowDef, s, env⟩ call state input actions =
      ActionExecutor.executeAndMerge ⟨services, workflowDef, s', env'⟩ call' state' input actions := by
  unfold ActionExecutor.executeAndMerge ActionExecutor.executeActions
  have same : (fun (action, k) => (ActionExecutor.executeAction ⟨services, workflowDef, s, env⟩ (call ++ [k]) state input
      action).map fun result => (action, result)) =
      fun (action, k) => (ActionExecutor.executeAction ⟨services, workflowDef, s', env'⟩ (call' ++ [k]) state' input
        action).map fun result => (action, result) := by
    funext ⟨action, k⟩
    exact congrArg (Except.map fun result => (action, result)) (executeAction_pure functional _ _ _ _ _ _)
  rw [same]
  rfl

/-- What an event gives depends on its data only. -/
theorem processOne_pure (functional : PureFunctions services) (s state : StateMachineInstanceState) (env : HandlingEnv)
    (group k : Nat) (evt : StateMachineDefinitionEvent) :
    EventStateProcessor.processOne ⟨services, workflowDef, s, env⟩ group state onEvent (consumedEvent services data evt, k) =
      (eventResult services workflowDef onEvent data evt).map fun result => (evt.name, result) := by
  unfold eventResult EventStateProcessor.processOne
  dsimp only
  cases (onEvent.eventRefs.findIdx? fun ref => ref = (consumedEvent services data evt).name).bind
    fun index => onEvent.actions[index]? with
  | none => rfl
  | some action =>
    dsimp only [outside]
    cases services.getInputDataObj (consumedEvent services data evt) with
    | error e => rfl
    | ok input =>
      simp only [bind, Except.bind]
      rw [executeAndMerge_pure functional [group, k] [0, 0] state { id := "", defId := none } input [action]]
      generalize ActionExecutor.executeAndMerge _ _ _ _ _ = merged
      cases merged <;> rfl

/-! ### Listening -/

open Method

variable {s : StateMachineInstanceState} {handling : HandlingEnv}

theorem listen_apply (context : ExecutionContext J) (evt : StateMachineDefinitionEvent)
    (events : List StateMachineInstanceStateEvent) :
    EventsOfState.listen context evt events = match context.services.topic evt with
      | .ok topic => (if events.any fun e => decide (e.name = evt.name) then events
          else events ++ [{ name := evt.name, source := evt.source, type := evt.type, topic }], .ok ())
      | .error e => (events, .error e) := by
  unfold EventsOfState.listen
  cases context.services.topic evt <;> rfl

/-- Listening for the first time, if nothing is thrown. -/
theorem listenEvents_first (refs : List (Option String)) (distinct : refs.Nodup) (k : Nat)
    {known after : List StateMachineInstanceStateEvent} (new : ∀ e ∈ known, e.name ∉ refs)
    (listens : forEach (fun (ref, _) => match workflowDef.getEvent ref with
      | none => Method.throw .nullReference
      | some evt => if evt.kind = .Consumed then EventsOfState.listen ⟨services, workflowDef, s, handling⟩ evt else pure ())
      (refs.zipIdx k) known = (after, .ok ())) :
    after = known ++ ((refs.filterMap workflowDef.getEvent).filter fun evt => evt.kind = .Consumed).map (newEvent services) ∧
      ∀ ref ∈ refs, ∃ evt, workflowDef.getEvent ref = some evt ∧
        (evt.kind = .Consumed → ∃ topic, services.topic evt = .ok topic) := by
  induction refs generalizing k known with
  | nil =>
    obtain ⟨rfl, -⟩ := Prod.mk.inj listens
    exact ⟨by simp, nofun⟩
  | cons ref refs ih =>
    obtain ⟨apart, distinct⟩ := List.nodup_cons.mp distinct
    rw [List.zipIdx_cons, forEach, bind_apply] at listens
    dsimp only at listens
    cases found : workflowDef.getEvent ref with
    | none =>
      rw [found] at listens
      cases (Prod.mk.inj listens).2
    | some evt =>
      rw [found] at listens
      dsimp only at listens
      rw [List.filterMap_cons_some found]
      by_cases consumed : evt.kind = .Consumed
      · rw [if_pos consumed, listen_apply] at listens
        cases topic : services.topic evt with
        | error e =>
          rw [topic] at listens
          cases (Prod.mk.inj listens).2
        | ok topic' =>
          rw [topic] at listens
          have absent : ¬ (known.any fun e => decide (e.name = evt.name)) = true := by
            rw [List.any_eq_true]
            rintro ⟨e, member, same⟩
            refine new e member ?_
            rw [of_decide_eq_true same, name_of_getEvent found]
            exact List.mem_cons_self
          dsimp only at listens
          rw [if_neg absent] at listens
          have later : ∀ e ∈ known ++ [newEvent services evt], e.name ∉ refs := by
            intro e member inside
            rcases List.mem_append.mp member with old | fresh
            · exact new e old (List.mem_cons_of_mem _ inside)
            · rw [List.mem_singleton.mp fresh, newEvent, name_of_getEvent found] at inside
              exact apart inside
          have made : ({ name := evt.name, source := evt.source, type := evt.type, topic := topic' } :
              StateMachineInstanceStateEvent) = newEvent services evt := by
            simp [newEvent, topic, Except.toOption]
          rw [made] at listens
          obtain ⟨rfl, rest⟩ := ih distinct (k + 1) later listens
          refine ⟨by simp [consumed], fun ref' member => ?_⟩
          rcases List.mem_cons.mp member with rfl | other
          · exact ⟨evt, found, fun _ => ⟨topic', topic⟩⟩
          · exact rest ref' other
      · rw [if_neg consumed] at listens
        obtain ⟨rfl, rest⟩ := ih distinct (k + 1) (fun e member inside => new e member (List.mem_cons_of_mem _ inside)) listens
        refine ⟨by simp [consumed], fun ref' member => ?_⟩
        rcases List.mem_cons.mp member with rfl | other
        · exact ⟨evt, found, fun here => absurd here consumed⟩
        · exact rest ref' other

/-- Listening again changes nothing. -/
theorem listenEvents_again (listens : Listens services workflowDef onEvent)
    (stage : StateMachineDefinitionEvent → StateMachineInstanceStateEventStates) :
    EventsOfState.listenEvents ⟨services, workflowDef, s, handling⟩ onEvent
        (atStages services workflowDef onEvent data stage) =
      (atStages services workflowDef onEvent data stage, .ok ()) := by
  refine forEach_still (fun (ref, k) member => ?_) 
  obtain ⟨evt, found, topics⟩ := listens ref (List.fst_mem_of_mem_zipIdx member)
  dsimp only
  rw [found]
  dsimp only
  split
  next consumed =>
    obtain ⟨topic, read⟩ := topics consumed
    have inside : evt ∈ listenedTo workflowDef onEvent := mem_listenedTo.mpr (by
      rw [name_of_getEvent found]
      exact ⟨List.fst_mem_of_mem_zipIdx member, found, consumed⟩)
    have known : ((atStages services workflowDef onEvent data stage).any fun e => decide (e.name = evt.name)) = true := by
      rw [List.any_eq_true]
      exact ⟨_, List.mem_map_of_mem inside, by simp⟩
    rw [listen_apply, read]
    dsimp only
    rw [if_pos known]
  next => rfl

/-! ### Processing -/

variable {stage : StateMachineDefinitionEvent → StateMachineInstanceStateEventStates}

/-- All references are to events at this stage. -/
def AllAt (workflowDef : StateMachineDefinitionAggregate) (onEvent : StateMachineDefinitionOnEvent)
    (stage : StateMachineDefinitionEvent → StateMachineInstanceStateEventStates) (at_ : StateMachineInstanceStateEventStates) :
    Prop :=
  ∀ ref ∈ onEvent.eventRefs, ∃ evt ∈ listenedTo workflowDef onEvent, evt.name = ref ∧ stage evt = at_

instance (at_ : StateMachineInstanceStateEventStates) : Decidable (AllAt workflowDef onEvent stage at_) :=
  inferInstanceAs (Decidable (∀ ref ∈ onEvent.eventRefs, ∃ evt ∈ listenedTo workflowDef onEvent, evt.name = ref ∧ stage evt = at_))

/-- The events that are processed next. -/
def dueOf (workflowDef : StateMachineDefinitionAggregate) (eventState : StateMachineDefinitionEventState)
    (onEvent : StateMachineDefinitionOnEvent)
    (stage : StateMachineDefinitionEvent → StateMachineInstanceStateEventStates) : List StateMachineDefinitionEvent :=
  if eventState.exclusive ∨ AllAt workflowDef onEvent stage .CONSUMED then
    (listenedTo workflowDef onEvent).filter fun evt => stage evt = .CONSUMED
  else []

/-- The stages after these have been processed. -/
def stageAfter (workflowDef : StateMachineDefinitionAggregate) (eventState : StateMachineDefinitionEventState)
    (onEvent : StateMachineDefinitionOnEvent)
    (stage : StateMachineDefinitionEvent → StateMachineInstanceStateEventStates) (evt : StateMachineDefinitionEvent) :
    StateMachineInstanceStateEventStates :=
  if evt ∈ dueOf workflowDef eventState onEvent stage then .PROCESSED else stage evt

/-- The events that are due are consumed ones. -/
theorem mem_dueOf {evt : StateMachineDefinitionEvent} (due : evt ∈ dueOf workflowDef eventState onEvent stage) :
    evt ∈ listenedTo workflowDef onEvent ∧ stage evt = .CONSUMED := by
  unfold dueOf at due
  split at due
  · simpa using due
  · cases due

/-- All events are at a stage if each of them is. -/
theorem isAllEvts_iff (events : s.events = atStages services workflowDef onEvent data stage)
    (at_ : StateMachineInstanceStateEventStates) :
    s.isAllEvts onEvent.eventRefs at_ = true ↔ AllAt workflowDef onEvent stage at_ := by
  simp only [StateMachineInstanceState.isAllEvts, events, List.all_eq_true, List.any_eq_true, decide_eq_true_eq, atStages,
    List.mem_map, AllAt]
  refine forall₂_congr fun ref _ => ⟨?_, ?_⟩
  · rintro ⟨_, ⟨evt, member, rfl⟩, named, here⟩
    exact ⟨evt, member, by simpa using named, by simpa using here⟩
  · rintro ⟨evt, member, named, here⟩
    exact ⟨_, ⟨evt, member, rfl⟩, by simpa using named, by simpa using here⟩

/-- The events of the state that are due, by their stages. -/
theorem dueEvents_stages (events : s.events = atStages services workflowDef onEvent data stage) :
    dueEvents eventState s onEvent = (dueOf workflowDef eventState onEvent stage).map (consumedEvent services data) := by
  have all : s.isAllEvtsConsumed onEvent.eventRefs = true ↔ AllAt workflowDef onEvent stage .CONSUMED :=
    isAllEvts_iff events .CONSUMED
  unfold dueEvents dueOf
  simp only [all]
  split
  · have wanted : (listenedTo workflowDef onEvent).filter ((fun e : StateMachineInstanceStateEvent =>
          decide (e.state = .CONSUMED ∧ e.name ∈ onEvent.eventRefs)) ∘
            fun evt => atStage services workflowDef onEvent data evt (stage evt)) =
        (listenedTo workflowDef onEvent).filter fun evt => stage evt = .CONSUMED := by
      refine List.filter_congr fun evt member => ?_
      simp [(mem_listenedTo.mp member).1]
    rw [StateMachineInstanceState.getConsumedEvts, events, atStages, List.filter_map, wanted]
    refine List.map_congr_left fun evt member => ?_
    have consumed : stage evt = .CONSUMED := by simpa using (List.mem_filter.mp member).2
    rw [consumed, atStage]
  · rfl

/-- Processing the events that are due gives the result of each. -/
theorem mapM_processOne (functional : PureFunctions services) (s' : StateMachineInstanceState) (group k : Nat)
    (evts : List StateMachineDefinitionEvent) :
    ((evts.map (consumedEvent services data)).zipIdx k).mapM
        (EventStateProcessor.processOne ⟨services, workflowDef, s, handling⟩ group s' onEvent) =
      evts.mapM fun evt => (eventResult services workflowDef onEvent data evt).map fun result => (evt.name, result) := by
  induction evts generalizing k with
  | nil => rfl
  | cons evt evts ih => rw [List.map_cons, List.zipIdx_cons, List.mapM_cons, List.mapM_cons, processOne_pure functional, ih]

/-- What the actions give. -/
theorem actionResults_stages (listens : Listens services workflowDef onEvent) (functional : PureFunctions services)
    (single : eventState.onEvents = [onEvent]) :
    actionResults ⟨services, workflowDef, s, handling⟩ s eventState eventState.onEvents.zipIdx
        (atStages services workflowDef onEvent data stage) =
      ((dueOf workflowDef eventState onEvent stage).mapM fun evt =>
        (eventResult services workflowDef onEvent data evt).map fun result => (evt.name, result)).map fun results =>
          (results, atStages services workflowDef onEvent data stage) := by
  rw [single, List.zipIdx_singleton, actionResults, listenEvents_again listens]
  dsimp only
  rw [dueEvents_stages (s := { s with events := atStages services workflowDef onEvent data stage }) rfl, mapM_processOne functional]
  generalize ((dueOf workflowDef eventState onEvent stage).mapM fun evt =>
    (eventResult services workflowDef onEvent data evt).map fun result => (evt.name, result)) = results
  cases results with
  | error e => rfl
  | ok results =>
    simp only [bind, Except.bind, actionResults, pure, Except.pure, Except.map, List.append_nil]

/-- Recording the token of one event. -/
theorem process_stage (distinct : DistinctPairs workflowDef onEvent) {context : ExecutionContext J}
    (services_eq : context.services = services) {evt : StateMachineDefinitionEvent}
    (member : evt ∈ listenedTo workflowDef onEvent) (consumed : stage evt = .CONSUMED) {v : J}
    (token : eventToken services workflowDef onEvent data evt = some v) :
    EventsOfState.process context evt.name (some v) (atStages services workflowDef onEvent data stage) =
      (atStages services workflowDef onEvent data fun evt' => if evt' = evt then .PROCESSED else stage evt', .ok ()) := by
  subst services_eq
  have only : ∀ evt' ∈ listenedTo workflowDef onEvent,
      decide ((atStage context.services workflowDef onEvent data evt' (stage evt')).name = evt.name) = true ↔ evt' = evt := by
    intro evt' member'
    rw [decide_eq_true_eq, name_atStage]
    exact ⟨eq_of_name member' member, congrArg _⟩
  have found : ((atStages context.services workflowDef onEvent data stage).find? fun e => decide (e.name = evt.name)).isSome := by
    rw [List.find?_isSome]
    exact ⟨_, List.mem_map_of_mem member, (only evt member).mpr rfl⟩
  obtain ⟨first, found⟩ := Option.isSome_iff_exists.mp found
  unfold EventsOfState.process
  dsimp only
  rw [found]
  dsimp only
  rw [atStages, modifyFirst_map member only (nodup_listenedTo distinct), atStages]
  refine Prod.ext (List.map_congr_left fun evt' _ => ?_) rfl
  by_cases same : evt' = evt
  · subst same
    simp only [if_true, consumed, atStage, token, Option.map_some]
  · rw [if_neg same, if_neg same]

/-- Recording the tokens of some events. -/
theorem recorded_stages (distinct : DistinctPairs workflowDef onEvent) {context : ExecutionContext J}
    (services_eq : context.services = services) {evts : List StateMachineDefinitionEvent} (once : evts.Nodup)
    (due : ∀ evt ∈ evts, evt ∈ listenedTo workflowDef onEvent ∧ stage evt = .CONSUMED)
    (tokens : ∀ evt ∈ evts, (eventToken services workflowDef onEvent data evt).isSome) :
    recorded context (evts.map fun evt => (evt.name, eventToken services workflowDef onEvent data evt))
        (atStages services workflowDef onEvent data stage) =
      atStages services workflowDef onEvent data fun evt => if evt ∈ evts then .PROCESSED else stage evt := by
  induction evts generalizing stage with
  | nil => rfl
  | cons evt evts ih =>
    obtain ⟨apart, once⟩ := List.nodup_cons.mp once
    obtain ⟨member, consumed⟩ := due evt List.mem_cons_self
    obtain ⟨v, token⟩ := Option.isSome_iff_exists.mp (tokens evt List.mem_cons_self)
    have rest := @ih (fun evt' => if evt' = evt then .PROCESSED else stage evt') once
      (fun other later => by
        obtain ⟨inside, consumed'⟩ := due other (List.mem_cons_of_mem _ later)
        exact ⟨inside, by rw [if_neg (ne_of_mem_of_not_mem later apart), consumed']⟩)
      (fun other later => tokens other (List.mem_cons_of_mem _ later))
    rw [recorded, List.map_cons, List.foldl_cons, token, process_stage distinct services_eq member consumed token]
    refine rest.trans (congrArg _ (funext fun other => ?_))
    by_cases later : other ∈ evts
    · rw [if_pos later, if_pos (List.mem_cons_of_mem _ later)]
    · simp [later]

/-- The token of an event is the result that it gives. -/
theorem eventToken_eq_some {evt : StateMachineDefinitionEvent} {v : J} :
    eventToken services workflowDef onEvent data evt = some v ↔ eventResult services workflowDef onEvent data evt = .ok (some v) := by
  unfold eventToken
  cases eventResult services workflowDef onEvent data evt with
  | error e => simp [Except.toOption]
  | ok token => simp [Except.toOption]

/-- Merging looks at the input and the events only. -/
theorem tryGetOutput_eq {s' : StateMachineInstanceState} :
    EventStateProcessor.tryGetOutput ⟨services, workflowDef, s, handling⟩ eventState s' =
      mergedOutput services workflowDef eventState s'.inputStr s'.events := rfl

/-- If each event gives a token, all are given. -/
theorem mapM_tokens {evts : List StateMachineDefinitionEvent}
    (tokens : ∀ evt ∈ evts, (eventToken services workflowDef onEvent data evt).isSome) :
    evts.mapM (fun evt => (eventResult services workflowDef onEvent data evt).map fun result => (evt.name, result)) =
      .ok (evts.map fun evt => (evt.name, eventToken services workflowDef onEvent data evt)) := by
  rw [mapM_eq_ok_iff, List.forall₂_map_right_iff, List.forall₂_same]
  intro evt due
  obtain ⟨v, token⟩ := Option.isSome_iff_exists.mp (tokens evt due)
  rw [token, eventToken_eq_some.mp token]
  rfl

/-- What the processor does when every due event has a token. -/
theorem handle_stages (listens : Listens services workflowDef onEvent) (distinct : DistinctPairs workflowDef onEvent)
    (functional : PureFunctions services) (single : eventState.onEvents = [onEvent])
    (tokens : ∀ evt ∈ dueOf workflowDef eventState onEvent stage, (eventToken services workflowDef onEvent data evt).isSome) :
    EventsOfState.handle ⟨services, workflowDef, s, handling⟩ s eventState (atStages services workflowDef onEvent data stage) =
      (atStages services workflowDef onEvent data (stageAfter workflowDef eventState onEvent stage),
        (mergedOutput services workflowDef eventState s.inputStr (atStages services workflowDef onEvent data
          (stageAfter workflowDef eventState onEvent stage))).map fun output => output.elim .block eventState.ok) := by
  have results := @actionResults_stages _ services workflowDef eventState onEvent data s handling stage listens functional single
  rw [mapM_tokens tokens] at results
  have once : (dueOf workflowDef eventState onEvent stage).Nodup := by
    unfold dueOf
    split
    · exact (nodup_listenedTo distinct).filter _
    · exact .nil
  have known : ∀ result ∈ (dueOf workflowDef eventState onEvent stage).map fun evt =>
      (evt.name, eventToken services workflowDef onEvent data evt),
      ∃ e ∈ atStages services workflowDef onEvent data stage, e.name = result.1 := by
    simp only [List.mem_map, forall_exists_index, and_imp]
    rintro _ evt due rfl
    exact ⟨_, List.mem_map_of_mem (mem_dueOf due).1, name_atStage _ _⟩
  have outputs : ∀ result ∈ (dueOf workflowDef eventState onEvent stage).map fun evt =>
      (evt.name, eventToken services workflowDef onEvent data evt), result.2.isSome := by
    simp only [List.mem_map, forall_exists_index, and_imp]
    rintro _ evt due rfl
    exact tokens evt due
  have records : recorded ⟨services, workflowDef, s, handling⟩ ((dueOf workflowDef eventState onEvent stage).map fun evt =>
      (evt.name, eventToken services workflowDef onEvent data evt)) (atStages services workflowDef onEvent data stage) =
      atStages services workflowDef onEvent data (stageAfter workflowDef eventState onEvent stage) :=
    recorded_stages distinct rfl once (fun _ => mem_dueOf) tokens
  rw [handle_of_actionResults results, processEvents_of_some known outputs, records]
  dsimp only
  rw [tryGetOutput_eq]

/-- What it does when one has none. -/
theorem handle_stages_fails (listens : Listens services workflowDef onEvent)
    (functional : PureFunctions services) (single : eventState.onEvents = [onEvent]) {evt : StateMachineDefinitionEvent}
    (due : evt ∈ dueOf workflowDef eventState onEvent stage)
    (null : eventToken services workflowDef onEvent data evt = none) :
    ∃ e, (EventsOfState.handle ⟨services, workflowDef, s, handling⟩ s eventState
      (atStages services workflowDef onEvent data stage)).2 = .error e := by
  have results := @actionResults_stages _ _ _ eventState _ data s handling stage listens functional single
  cases given : (dueOf workflowDef eventState onEvent stage).mapM fun evt =>
      (eventResult services workflowDef onEvent data evt).map fun result => (evt.name, result) with
  | error e =>
    rw [given] at results
    obtain ⟨last, -, handled⟩ := handle_of_error results
    exact ⟨e, by rw [handled]⟩
  | ok outputs =>
    rw [given] at results
    obtain ⟨output, member, gives⟩ := exists_of_mapM_eq_ok given due
    have nothing : output.2 = none := by
      unfold eventToken at null
      cases result : eventResult services workflowDef onEvent data evt with
      | error e =>
        rw [result] at gives
        cases gives
      | ok token =>
        rw [result] at gives null
        obtain rfl := Except.ok.inj gives
        simpa [Except.toOption] using null
    obtain ⟨e, fails⟩ := @processEvents_of_none _ ⟨services, workflowDef, s, handling⟩
      (atStages services workflowDef onEvent data stage) _ _ member nothing
    refine ⟨e, ?_⟩
    rw [handle_of_actionResults results]
    generalize EventsOfState.processEvents _ outputs _ = recording at fails
    obtain ⟨last, outcome⟩ := recording
    obtain rfl : outcome = .error e := fails
    rfl

/-! ### Merging -/

/-- As long as not every event is processed, there is no output. -/
theorem mergedOutput_waits (single : eventState.onEvents = [onEvent]) {inputStr : Option String}
    {events : List StateMachineInstanceStateEvent} {output : Option (Option J)}
    (read : mergedOutput services workflowDef eventState inputStr events = .ok output)
    (waits : ¬ AllAt workflowDef onEvent stage .PROCESSED) :
    mergedOutput services workflowDef eventState inputStr (atStages services workflowDef onEvent data stage) = .ok none := by
  have missing : (holding inputStr (atStages services workflowDef onEvent data stage)).isAllEvtsProcessed
      onEvent.eventRefs = false :=
    Bool.eq_false_iff.mpr fun all => waits ((isAllEvts_iff rfl .PROCESSED).mp all)
  obtain ⟨input, given, -⟩ := except_bind_eq_ok read
  have same : services.getInput (holding inputStr (atStages services workflowDef onEvent data stage)) = .ok input := given
  unfold mergedOutput EventStateProcessor.tryGetOutput
  dsimp only [outside]
  rw [same, single]
  simp only [List.filter_cons, missing]
  rfl

/-- When every event is processed, there is one if nothing is thrown. -/
theorem mergedOutput_processed (single : eventState.onEvents = [onEvent]) {inputStr : Option String}
    (all : AllAt workflowDef onEvent stage .PROCESSED) :
    mergedOutput services workflowDef eventState inputStr (atStages services workflowDef onEvent data stage) ≠ .ok none := by
  have complete : (holding inputStr (atStages services workflowDef onEvent data stage)).isAllEvtsProcessed
      onEvent.eventRefs = true := (isAllEvts_iff rfl .PROCESSED).mpr all
  intro nothing
  obtain ⟨input, -, rest⟩ := except_bind_eq_ok nothing
  obtain ⟨output, -, last⟩ := except_bind_eq_ok rest
  rw [single] at last
  simp only [List.filter_cons, complete] at last
  cases last

end

/-! ## Arrivals -/

section
variable {J : Type} (services : RuntimeServices J) (filters : Filters J) (workflowDef : StateMachineDefinitionAggregate)
  (definition : StateMachineDefinition) (eventState : StateMachineDefinitionEventState)
  (onEvent : StateMachineDefinitionOnEvent) (data : Option String → Option String) (stateId : String)

/-- An event comes with its data: `TryConsumeEvt`, and `Launch` from the state. -/
def Arrives (ref : Option String) (before after : StateMachineInstanceAggregate) : Prop :=
  ∃ evt env, workflowDef.getEvent ref = some evt ∧ LaunchLeaves services filters workflowDef definition stateId
    (StateMachineInstanceAggregate.tryConsumeEvt services.toJTokens before env (some stateId) evt.source evt.type
      (data ref)).1 after

/-- What there is when some events have come, one after the other. -/
inductive Delivered (waiting : StateMachineInstanceAggregate) : List (Option String) → StateMachineInstanceAggregate → Prop
  | start : Delivered waiting [] waiting
  | next {arrived : List (Option String)} {ref : Option String} {between after : StateMachineInstanceAggregate}
      (delivered : Delivered waiting arrived between)
      (arrives : Arrives services filters workflowDef definition data stateId ref between after) :
      Delivered waiting (arrived ++ [ref]) after

/-- In whatever order the events come, the state is pending until the last one, and then complete with one output. -/
def OrderIndependent (waiting : StateMachineInstanceAggregate) : Prop :=
  ∃ output, ∀ arrived rest, (arrived ++ rest).Perm onEvent.eventRefs →
    ∀ after, Delivered services filters workflowDef definition data stateId waiting arrived after →
      ∃ s, after.state.getState (some stateId) = some s ∧
        if rest = [] then s.status = .COMPLETE ∧ s.outputStr = some output else s.status = .PENDING

/-- Every reference is to an event that is consumed, every action gives a token, and the outputs are merged to one that
can be stored. -/
structure Completing (inputStr : Option String) : Prop where
  consumed : ∀ ref ∈ onEvent.eventRefs, ∃ evt ∈ listenedTo workflowDef onEvent, evt.name = ref
  tokens : ∀ evt ∈ listenedTo workflowDef onEvent, ∃ v, eventResult services workflowDef onEvent data evt = .ok (some v)
  merged : ∃ output, mergedOutput services workflowDef eventState inputStr
      (atStages services workflowDef onEvent data fun _ => .PROCESSED) = .ok (some output) ∧
    (storedOutput services.toJTokens filters eventState.stateDataFilterOuput output).isSome

/-- The stage of an event, when these have come and some are still missing. -/
def arrivedStage (arrived : List (Option String)) (evt : StateMachineDefinitionEvent) : StateMachineInstanceStateEventStates :=
  if arrived.contains evt.name then if eventState.exclusive then .PROCESSED else .CONSUMED else .CREATED

/-- An event that has come is processed at once, or consumed until the others are there. -/
theorem arrivedStage_eq (arrived : List (Option String)) (evt : StateMachineDefinitionEvent) :
    arrivedStage eventState arrived evt =
      if evt.name ∈ arrived then if eventState.exclusive then .PROCESSED else .CONSUMED else .CREATED := by
  simp only [arrivedStage, List.contains_iff_mem]

/-- The state waits for the others. -/
structure Waits (inputStr : Option String) (arrived : List (Option String)) (aggregate : StateMachineInstanceAggregate)
    (s : StateMachineInstanceState) : Prop where
  active : aggregate.state.status = some .ACTIVE
  found : aggregate.state.getState (some stateId) = some s
  pending : s.status = .PENDING
  registered : Registered workflowDef definition eventState s.defId
  inputStr_eq : s.inputStr = inputStr
  events : s.events = atStages services workflowDef onEvent data (arrivedStage eventState arrived)

end

section
variable {J : Type} {services : RuntimeServices J} {filters : Filters J} {workflowDef : StateMachineDefinitionAggregate}
  {definition : StateMachineDefinition} {eventState : StateMachineDefinitionEventState}
  {onEvent : StateMachineDefinitionOnEvent} {data : Option String → Option String} {stateId : String}
  {inputStr ref : Option String} {arrived : List (Option String)} {before after : StateMachineInstanceAggregate}
  {s : StateMachineInstanceState}

/-- The stages when one more event has come. -/
def comingStage (eventState : StateMachineDefinitionEventState) (arrived : List (Option String)) (ref : Option String)
    (evt : StateMachineDefinitionEvent) : StateMachineInstanceStateEventStates :=
  if evt.name = ref then .CONSUMED else arrivedStage eventState arrived evt

/-- `TryConsumeEvt` when the state waits. -/
theorem Waits.consumes (waits : Waits services workflowDef definition eventState onEvent data stateId inputStr arrived before s)
    (distinct : DistinctPairs workflowDef onEvent) (referenced : ref ∈ onEvent.eventRefs) (new : ref ∉ arrived)
    {evt : StateMachineDefinitionEvent} (known : workflowDef.getEvent ref = some evt) (env : InstanceEnv)
    {consumed : StateMachineInstanceAggregate} (consumes : consumed = (StateMachineInstanceAggregate.tryConsumeEvt
      services.toJTokens before env (some stateId) evt.source evt.type (data ref)).1) :
    consumed.state.status = some .ACTIVE ∧ consumed.state.getState (some stateId) = some { s with
      events := atStages services workflowDef onEvent data (comingStage eventState arrived ref) } := by
  have named := name_of_getEvent known
  have wanted (evt' : StateMachineDefinitionEvent) (member : evt' ∈ listenedTo workflowDef onEvent) :
      decide ((atStage services workflowDef onEvent data evt' (arrivedStage eventState arrived evt')).source = evt.source ∧
        (atStage services workflowDef onEvent data evt' (arrivedStage eventState arrived evt')).type = evt.type) = true ↔
      evt' = evt := by
    rw [decide_eq_true_eq, source_atStage, type_atStage]
    constructor
    · rintro ⟨source, type⟩
      exact eq_of_pair distinct referenced known member source type
    · rintro rfl
      exact ⟨rfl, rfl⟩
  by_cases listened : evt ∈ listenedTo workflowDef onEvent
  · have untouched : arrivedStage eventState arrived evt = .CREATED := by
      rw [arrivedStage_eq, named, if_neg new]
    have first : s.tryGetEventOf evt.source evt.type = some (atStage services workflowDef onEvent data evt .CREATED) := by
      rw [StateMachineInstanceState.tryGetEventOf, waits.events, atStages, find?_map_of_only listened wanted, untouched]
    rw [tryConsumeEvt_first waits.found (.inr waits.pending) first (state_atStage _ _)] at consumes
    subst consumes
    refine ⟨waits.active, ?_⟩
    have changed : s.modifyEvent (fun e => e.source = evt.source ∧ e.type = evt.type)
        (fun e => { e with state := .CONSUMED, inputData := data ref }) =
        { s with events := atStages services workflowDef onEvent data (comingStage eventState arrived ref) } := by
      rw [StateMachineInstanceState.modifyEvent, waits.events, atStages,
        modifyFirst_map listened wanted (nodup_listenedTo distinct), atStages]
      refine congrArg (fun events => { s with events }) (List.map_congr_left fun evt' member => ?_)
      by_cases same : evt' = evt
      · subst same
        rw [if_pos rfl, comingStage, if_pos named, untouched]
        simp [atStage, consumedEvent, named]
      · rw [if_neg same, comingStage, if_neg fun names => same (eq_of_name member listened (names.trans named.symm))]
    dsimp only
    rw [getState_modifyState, waits.found, Option.map_some, changed]
    intro s
    rfl
  · have absent : s.tryGetEventOf evt.source evt.type = none := by
      rw [StateMachineInstanceState.tryGetEventOf, waits.events, List.find?_eq_none]
      rintro _ inside found
      obtain ⟨evt', member, rfl⟩ := List.mem_map.mp inside
      obtain rfl := (wanted evt' member).mp found
      exact listened member
    have stages : atStages services workflowDef onEvent data (comingStage eventState arrived ref) = s.events := by
      rw [waits.events]
      refine List.map_congr_left fun evt' member => ?_
      rw [comingStage, if_neg]
      intro names
      have found := (mem_listenedTo.mp member).2.1
      rw [names, known] at found
      obtain rfl := Option.some.inj found
      exact listened member
    rw [tryConsumeEvt_refuses waits.found fun _ e there => by rw [absent] at there; cases there] at consumes
    subst consumes
    exact ⟨waits.active, by rw [waits.found, stages]⟩

/-- An execution of the state fails, or it waits, or it is completed. -/
theorem executed_cases (listens : Listens services workflowDef onEvent) (distinct : DistinctPairs workflowDef onEvent)
    (functional : PureFunctions services) (single : eventState.onEvents = [onEvent])
    {stage : StateMachineDefinitionEvent → StateMachineInstanceStateEventStates} {handling : HandlingEnv}
    {machine after : StateMachineInstance} {s s' : StateMachineInstanceState}
    (executed : ExecutedTo services.toJTokens filters eventState.stateDataFilterOuput machine
      { s with events := (EventsOfState.handle ⟨services, workflowDef, s, handling⟩ s eventState
        (atStages services workflowDef onEvent data stage)).1 }
      (answerOf services (EventsOfState.handle ⟨services, workflowDef, s, handling⟩ s eventState
        (atStages services workflowDef onEvent data stage)).2) after s')
    {merged : Except ProcessorError (Option (Option J))} (merges : mergedOutput services workflowDef eventState s.inputStr
      (atStages services workflowDef onEvent data (stageAfter workflowDef eventState onEvent stage)) = merged) :
    (s'.status = .ERROR ∧ ((∃ evt ∈ dueOf workflowDef eventState onEvent stage,
        eventToken services workflowDef onEvent data evt = none) ∨ ∃ e, merged = .error e)) ∨
      (∀ evt ∈ dueOf workflowDef eventState onEvent stage, (eventToken services workflowDef onEvent data evt).isSome) ∧
        ((merged = .ok none ∧ s'.status = .PENDING ∧ after.status = machine.status ∧ s'.events =
            atStages services workflowDef onEvent data (stageAfter workflowDef eventState onEvent stage)) ∨
          ∃ output transition, merged = .ok (some output) ∧
            Completes services.toJTokens filters eventState.stateDataFilterOuput s s' output transition) := by
  by_cases tokens : ∀ evt ∈ dueOf workflowDef eventState onEvent stage,
      (eventToken services workflowDef onEvent data evt).isSome
  · rw [handle_stages listens distinct functional single tokens, merges] at executed
    obtain ⟨-, -, -, events, outcome, active⟩ := executed
    cases merged with
    | error e => exact .inl ⟨outcome, .inr ⟨e, rfl⟩⟩
    | ok output =>
      refine .inr ⟨tokens, ?_⟩
      cases output with
      | none => exact .inl ⟨rfl, outcome, active rfl, events⟩
      | some output =>
        simp only [Except.map, answerOf, Option.elim_some, BaseStateMachineFlowableState.ok] at outcome
        split at outcome
        · exact .inr ⟨output, none, rfl, outcome⟩
        · exact .inr ⟨output, eventState.transition, rfl, outcome⟩
  · push Not at tokens
    obtain ⟨evt, due, null⟩ := tokens
    have null : eventToken services workflowDef onEvent data evt = none := by simpa using null
    obtain ⟨e, fails⟩ := @handle_stages_fails _ services workflowDef eventState onEvent data s handling stage listens
      functional single evt due null
    have outcome := executed.outcome
    rw [fails] at outcome
    exact .inl ⟨outcome, .inl ⟨evt, due, null⟩⟩

/-! ### The stages of an arrival -/

/-- Every reference is to an event that is listened to, and that has come. -/
def AllCame (workflowDef : StateMachineDefinitionAggregate) (onEvent : StateMachineDefinitionOnEvent)
    (arrived : List (Option String)) : Prop :=
  ∀ ref ∈ onEvent.eventRefs, (∃ evt ∈ listenedTo workflowDef onEvent, evt.name = ref) ∧ ref ∈ arrived

theorem comingStage_eq_consumed {evt : StateMachineDefinitionEvent} : comingStage eventState arrived ref evt = .CONSUMED ↔
    evt.name = ref ∨ evt.name ∈ arrived ∧ eventState.exclusive = false := by
  simp only [comingStage, arrivedStage_eq]
  split
  next here => simp [here]
  next elsewhere =>
    split
    next inside => cases eventState.exclusive <;> simp [elsewhere, inside]
    next outside => simp [elsewhere, outside]

/-- All are consumed when the last one comes. -/
theorem allAt_consumed (mode : eventState.exclusive = false) :
    AllAt workflowDef onEvent (comingStage eventState arrived ref) .CONSUMED ↔
      AllCame workflowDef onEvent (arrived ++ [ref]) := by
  refine forall₂_congr fun ref' _ => ⟨?_, ?_⟩
  · rintro ⟨evt, member, rfl, here⟩
    refine ⟨⟨evt, member, rfl⟩, ?_⟩
    rcases comingStage_eq_consumed.mp here with same | ⟨inside, -⟩
    · simp [same]
    · simp [inside]
  · rintro ⟨⟨evt, member, rfl⟩, came⟩
    refine ⟨evt, member, rfl, comingStage_eq_consumed.mpr ?_⟩
    rcases List.mem_append.mp came with inside | last
    · exact .inr ⟨inside, mode⟩
    · exact .inl (List.mem_singleton.mp last)

/-- An event is due when it comes, or all are when the last one comes. -/
theorem mem_dueOf_coming {evt : StateMachineDefinitionEvent} :
    evt ∈ dueOf workflowDef eventState onEvent (comingStage eventState arrived ref) ↔
      evt ∈ listenedTo workflowDef onEvent ∧ (evt.name = ref ∧ eventState.exclusive ∨
        (evt.name = ref ∨ evt.name ∈ arrived) ∧ eventState.exclusive = false ∧
          AllCame workflowDef onEvent (arrived ++ [ref])) := by
  unfold dueOf
  cases mode : eventState.exclusive with
  | true => simp [comingStage_eq_consumed, mode]
  | false =>
    by_cases came : AllAt workflowDef onEvent (comingStage eventState arrived ref) .CONSUMED
    · rw [if_pos (.inr came)]
      simp [comingStage_eq_consumed, mode, (allAt_consumed mode).mp came]
    · rw [if_neg (by simp [came])]
      simp [mt (allAt_consumed mode).mpr came]

/-- If events are still missing, those that have come are processed or consumed. -/
theorem stageAfter_missing (missing : ¬ AllCame workflowDef onEvent (arrived ++ [ref])) :
    ∀ evt ∈ listenedTo workflowDef onEvent, stageAfter workflowDef eventState onEvent (comingStage eventState arrived ref) evt =
      arrivedStage eventState (arrived ++ [ref]) evt := by
  intro evt member
  unfold stageAfter
  simp only [mem_dueOf_coming, missing, and_false, or_false, member, true_and]
  simp only [comingStage, arrivedStage_eq]
  by_cases here : evt.name = ref
  · cases mode : eventState.exclusive <;> simp [here]
  · simp [here]

/-- If none is missing, all are processed. -/
theorem stageAfter_last (came : AllCame workflowDef onEvent (arrived ++ [ref])) :
    ∀ evt ∈ listenedTo workflowDef onEvent,
      stageAfter workflowDef eventState onEvent (comingStage eventState arrived ref) evt = .PROCESSED := by
  intro evt member
  have inside : evt.name ∈ arrived ++ [ref] := (came evt.name (mem_listenedTo.mp member).1).2
  have either : evt.name = ref ∨ evt.name ∈ arrived := by
    rcases List.mem_append.mp inside with earlier | last
    · exact .inr earlier
    · exact .inl (List.mem_singleton.mp last)
  unfold stageAfter
  simp only [mem_dueOf_coming, came, and_true, member, true_and]
  simp only [comingStage, arrivedStage_eq]
  rcases either with rfl | earlier
  · cases mode : eventState.exclusive <;> simp
  · cases mode : eventState.exclusive <;> simp [earlier]

/-- The events depend on the stages of those that are listened to. -/
theorem atStages_congr {stage stage' : StateMachineDefinitionEvent → StateMachineInstanceStateEventStates}
    (same : ∀ evt ∈ listenedTo workflowDef onEvent, stage evt = stage' evt) :
    atStages services workflowDef onEvent data stage = atStages services workflowDef onEvent data stage' :=
  List.map_congr_left fun evt member => by rw [same evt member]

/-! ### One arrival -/

/-- What the launch executes when an event has come. -/
theorem Waits.executes (waits : Waits services workflowDef definition eventState onEvent data stateId inputStr arrived before s)
    (distinct : DistinctPairs workflowDef onEvent) (referenced : ref ∈ onEvent.eventRefs) (new : ref ∉ arrived)
    (arrives : Arrives services filters workflowDef definition data stateId ref before after) :
    ∃ handling machine s₁ s', s₁.status = .PENDING ∧ s₁.defId = s.defId ∧ s₁.inputStr = inputStr ∧ s₁.id = stateId ∧
      machine.status = some .ACTIVE ∧ ExecutedTo services.toJTokens filters eventState.stateDataFilterOuput machine
        { s₁ with events := (EventsOfState.handle ⟨services, workflowDef, s₁, handling⟩ s₁ eventState
          (atStages services workflowDef onEvent data (comingStage eventState arrived ref))).1 }
        (answerOf services (EventsOfState.handle ⟨services, workflowDef, s₁, handling⟩ s₁ eventState
          (atStages services workflowDef onEvent data (comingStage eventState arrived ref))).2) after.state s' := by
  obtain ⟨evt, env, known, leaves⟩ := arrives
  obtain ⟨active, found⟩ := waits.consumes distinct referenced new known env rfl
  obtain ⟨handling, s', executed⟩ := @launchLeaves_underWay _ services filters workflowDef definition stateId eventState _ after
    { s with events := atStages services workflowDef onEvent data (comingStage eventState arrived ref) }
    waits.registered active found (.inr waits.pending) leaves
  exact ⟨handling, _, { s with events := atStages services workflowDef onEvent data (comingStage eventState arrived ref) }, s',
    waits.pending, rfl, waits.inputStr_eq, (Option.some.inj (getState_id found)).symm, active, executed⟩

section
variable (listens : Listens services workflowDef onEvent) (distinct : DistinctPairs workflowDef onEvent)
  (functional : PureFunctions services) (single : eventState.onEvents = [onEvent])
include listens distinct functional single

/-- While others are missing, the state waits for them, unless the action of the event gives no token. -/
theorem Waits.missing
    (waits : Waits services workflowDef definition eventState onEvent data stateId inputStr arrived before s)
    {events : List StateMachineInstanceStateEvent} {output : Option (Option J)}
    (read : mergedOutput services workflowDef eventState inputStr events = .ok output)
    (referenced : ref ∈ onEvent.eventRefs) (new : ref ∉ arrived)
    (missing : ¬ AllCame workflowDef onEvent (arrived ++ [ref]))
    (arrives : Arrives services filters workflowDef definition data stateId ref before after) :
    ∃ s', after.state.getState (some stateId) = some s' ∧
      ((s'.status = .ERROR ∧ ∃ evt ∈ listenedTo workflowDef onEvent, eventToken services workflowDef onEvent data evt = none) ∨
        (eventState.exclusive → ∀ evt ∈ listenedTo workflowDef onEvent, evt.name = ref →
          (eventToken services workflowDef onEvent data evt).isSome) ∧
        Waits services workflowDef definition eventState onEvent data stateId inputStr (arrived ++ [ref]) after s') := by
  obtain ⟨handling, machine, s₁, s', pending, defId, inputStr_eq, rfl, active, executed⟩ :=
    waits.executes distinct referenced new arrives
  have stages : atStages services workflowDef onEvent data
      (stageAfter workflowDef eventState onEvent (comingStage eventState arrived ref)) =
      atStages services workflowDef onEvent data (arrivedStage eventState (arrived ++ [ref])) :=
    atStages_congr (stageAfter_missing missing)
  have incomplete : ¬ AllAt workflowDef onEvent
      (stageAfter workflowDef eventState onEvent (comingStage eventState arrived ref)) .PROCESSED := by
    intro all
    refine missing fun ref' referenced' => ?_
    obtain ⟨evt, member, rfl, processed⟩ := all ref' referenced'
    refine ⟨⟨evt, member, rfl⟩, ?_⟩
    rw [stageAfter_missing missing evt member, arrivedStage_eq] at processed
    by_contra absent
    rw [if_neg absent] at processed
    cases processed
  have merges := @mergedOutput_waits _ services workflowDef eventState onEvent data _ single inputStr events output read incomplete
  rw [← inputStr_eq] at merges
  refine ⟨s', executed.found, ?_⟩
  rcases executed_cases listens distinct functional single executed merges with ⟨error, cause⟩ | ⟨tokens, waiting⟩
  · left
    refine ⟨error, ?_⟩
    rcases cause with ⟨evt, due, null⟩ | ⟨e, thrown⟩
    · exact ⟨evt, (mem_dueOf due).1, null⟩
    · cases thrown
  · right
    refine ⟨fun mode evt member named => tokens evt (mem_dueOf_coming.mpr ⟨member, .inl ⟨named, mode⟩⟩), ?_⟩
    rcases waiting with ⟨-, pending', status, events'⟩ | ⟨output, transition, some, -⟩
    · have same : s'.defId = s.defId := executed.defId.trans defId
      exact ⟨status.trans active, executed.found, pending', by rw [same]; exact waits.registered,
        executed.inputStr.trans inputStr_eq, events'.trans stages⟩
    · cases some

/-- When the last event comes, the state is completed with the merged outputs of all, if nothing fails. -/
theorem Waits.last
    (waits : Waits services workflowDef definition eventState onEvent data stateId inputStr arrived before s)
    (referenced : ref ∈ onEvent.eventRefs) (new : ref ∉ arrived) (came : AllCame workflowDef onEvent (arrived ++ [ref]))
    (arrives : Arrives services filters workflowDef definition data stateId ref before after)
    {merged : Except ProcessorError (Option (Option J))} (merges : mergedOutput services workflowDef eventState inputStr
      (atStages services workflowDef onEvent data fun _ => .PROCESSED) = merged) :
    ∃ s', after.state.getState (some stateId) = some s' ∧
      ((s'.status = .ERROR ∧ ((∃ evt ∈ listenedTo workflowDef onEvent,
          eventToken services workflowDef onEvent data evt = none) ∨ ∃ e, merged = .error e)) ∨
        (∀ evt ∈ listenedTo workflowDef onEvent, evt.name = ref ∨ eventState.exclusive = false →
          (eventToken services workflowDef onEvent data evt).isSome) ∧
        ∃ output, merged = .ok (some output) ∧ match storedOutput services.toJTokens filters eventState.stateDataFilterOuput output with
          | some text => s'.status = .COMPLETE ∧ s'.outputStr = some text
          | none => s'.status = .PENDING) := by
  obtain ⟨handling, machine, s₁, s', pending, defId, inputStr_eq, rfl, active, executed⟩ :=
    waits.executes distinct referenced new arrives
  have stages : atStages services workflowDef onEvent data
      (stageAfter workflowDef eventState onEvent (comingStage eventState arrived ref)) =
      atStages services workflowDef onEvent data fun _ => .PROCESSED := atStages_congr (stageAfter_last came)
  have merges' := merges
  rw [← stages, ← inputStr_eq] at merges'
  refine ⟨s', executed.found, ?_⟩
  rcases executed_cases listens distinct functional single executed merges' with ⟨error, cause⟩ | ⟨tokens, completes⟩
  · left
    refine ⟨error, cause.imp_left ?_⟩
    rintro ⟨evt, due, null⟩
    exact ⟨evt, (mem_dueOf due).1, null⟩
  · right
    refine ⟨fun evt member which => tokens evt (mem_dueOf_coming.mpr ⟨member, ?_⟩), ?_⟩
    · have inside := (came evt.name (mem_listenedTo.mp member).1).2
      cases mode : eventState.exclusive with
      | true => exact .inl ⟨which.resolve_right (by simp [mode]), rfl⟩
      | false =>
        refine .inr ⟨?_, rfl, came⟩
        rcases List.mem_append.mp inside with earlier | last
        · exact .inr earlier
        · exact .inl (List.mem_singleton.mp last)
    · rcases completes with ⟨nothing, -⟩ | ⟨output, transition, gives, completes⟩
      · exfalso
        have all : AllAt workflowDef onEvent (fun _ => .PROCESSED) .PROCESSED := fun ref' referenced' => by
          obtain ⟨⟨evt, member, named⟩, -⟩ := came ref' referenced'
          exact ⟨evt, member, named, rfl⟩
        exact mergedOutput_processed single all (merges.trans nothing)
      · refine ⟨output, gives, ?_⟩
        unfold Completes at completes
        cases stored : storedOutput services.toJTokens filters eventState.stateDataFilterOuput output with
        | none =>
          rw [stored] at completes
          exact completes.trans pending
        | some text =>
          rw [stored] at completes
          exact ⟨completes.1, completes.2.1⟩

end

/-! ### The first launch -/

open Method in
/-- What the handler does depends on the group alone. -/
theorem handle_congr (single : eventState.onEvents = [onEvent]) {context : ExecutionContext J}
    {events events' : List StateMachineInstanceStateEvent}
    (same : EventsOfState.consumeGroup context s eventState (onEvent, 0) events =
      EventsOfState.consumeGroup context s eventState (onEvent, 0) events') :
    EventsOfState.handle context s eventState events = EventsOfState.handle context s eventState events' := by
  unfold EventsOfState.handle EventsOfState.consumeEvents
  rw [single, List.zipIdx_singleton]
  simp only [mapEach, bind_apply, same]

/-- A new state that is launched and then pending waits for all of its events. -/
theorem waits_of_launched (distinct : DistinctPairs workflowDef onEvent) (functional : PureFunctions services)
    (single : eventState.onEvents = [onEvent]) {new waiting : StateMachineInstanceAggregate} {s₁ : StateMachineInstanceState}
    (registered : Registered workflowDef definition eventState s.defId) (active : new.state.status = some .ACTIVE)
    (found : new.state.getState (some stateId) = some s) (created : s.status = .CREATE) (empty : s.events = [])
    (leaves : LaunchLeaves services filters workflowDef definition stateId new waiting)
    (found₁ : waiting.state.getState (some stateId) = some s₁) (pending : s₁.status = .PENDING) :
    Listens services workflowDef onEvent ∧
      Waits services workflowDef definition eventState onEvent data stateId s₁.inputStr [] waiting s₁ ∧
      mergedOutput services workflowDef eventState s₁.inputStr
        (atStages services workflowDef onEvent data fun _ => .CREATED) = .ok none := by
  rcases launchLeaves_created registered active found created leaves with
    same | ⟨handling, started, sA, turned, status, events, activity, s', executed⟩
  · obtain rfl := Option.some.inj (same.symm.trans found₁)
    cases created.symm.trans pending
  have id : sA.id = stateId := turned.id_eq
  have there := executed.found
  rw [id, found₁] at there
  obtain rfl := Option.some.inj there
  rw [events, empty] at executed
  cases listened : EventsOfState.listenEvents ⟨services, workflowDef, sA, handling⟩ onEvent [] with
  | mk after outcome =>
    cases outcome with
    | error e =>
      have results : actionResults ⟨services, workflowDef, sA, handling⟩ sA eventState eventState.onEvents.zipIdx [] =
          .error e := by
        rw [single, List.zipIdx_singleton, actionResults, listened]
      obtain ⟨last, -, handled⟩ := handle_of_error results
      have outcome := executed.outcome
      rw [handled] at outcome
      cases pending.symm.trans outcome
    | ok _ =>
      have refs : onEvent.eventRefs.Nodup := List.Nodup.of_map _ distinct
      obtain ⟨rfl, listens⟩ := listenEvents_first onEvent.eventRefs refs 0 (by simp) listened
      have first : EventsOfState.handle ⟨services, workflowDef, sA, handling⟩ sA eventState [] =
          EventsOfState.handle ⟨services, workflowDef, sA, handling⟩ sA eventState
            (atStages services workflowDef onEvent data fun _ => .CREATED) := by
        refine handle_congr single ?_
        rw [consumeGroup_eq, consumeGroup_eq, listened, listenEvents_again listens]
        rfl
      rw [first] at executed
      have stages : atStages services workflowDef onEvent data (stageAfter workflowDef eventState onEvent fun _ => .CREATED) =
          atStages services workflowDef onEvent data fun _ => .CREATED :=
        atStages_congr fun evt _ => if_neg fun due => by cases (mem_dueOf due).2
      refine ⟨listens, ?_⟩
      rcases executed_cases listens distinct functional single executed rfl with
        ⟨error, -⟩ | ⟨-, ⟨nothing, -, status', events'⟩ | ⟨output, transition, -, completes⟩⟩
      · cases pending.symm.trans error
      · rw [stages] at nothing events'
        rw [← executed.inputStr] at nothing
        have same : s₁.defId = s.defId := executed.defId.trans (turned.defId_eq found)
        exact ⟨⟨status'.trans activity, found₁, pending, by rw [same]; exact registered, rfl, events'⟩, nothing⟩
      · unfold Completes at completes
        split at completes
        · cases pending.symm.trans completes.1
        · cases pending.symm.trans (completes.trans status)

/-! ## All arrivals -/

/-- An event that is referred to can arrive. -/
theorem exists_arrives (listens : Listens services workflowDef onEvent) (referenced : ref ∈ onEvent.eventRefs)
    (before : StateMachineInstanceAggregate) :
    ∃ after, Arrives services filters workflowDef definition data stateId ref before after := by
  obtain ⟨evt, known, -⟩ := listens ref referenced
  have env : InstanceEnv := ⟨"", "", 0⟩
  exact ⟨_, evt, env, known, fun _ => ⟨fun _ _ => env, fun _ => env, []⟩, fun _ => ⟨env, env, env, env⟩, none, 0, rfl⟩

/-- A state that waits has something to wait for. -/
theorem eventRefs_ne_nil (single : eventState.onEvents = [onEvent])
    (nothing : mergedOutput services workflowDef eventState inputStr (atStages services workflowDef onEvent data fun _ => .CREATED) =
      .ok none) : onEvent.eventRefs ≠ [] := by
  intro empty
  refine mergedOutput_processed single (fun ref referenced => ?_) nothing
  rw [empty] at referenced
  cases referenced

section
variable {waiting : StateMachineInstanceAggregate} (listens : Listens services workflowDef onEvent)
  (distinct : DistinctPairs workflowDef onEvent) (functional : PureFunctions services)
  (single : eventState.onEvents = [onEvent])
  (waits : Waits services workflowDef definition eventState onEvent data stateId inputStr [] waiting s)
  (nothing : mergedOutput services workflowDef eventState inputStr
    (atStages services workflowDef onEvent data fun _ => .CREATED) = .ok none)
include listens distinct functional single waits nothing

/-- The events come in any order; induction on the arrivals. -/
theorem delivered_completing {output : Option J} {text : String}
    (completing : Completing services filters workflowDef eventState onEvent data inputStr)
    (merged : mergedOutput services workflowDef eventState inputStr
      (atStages services workflowDef onEvent data fun _ => .PROCESSED) = .ok (some output))
    (stored : storedOutput services.toJTokens filters eventState.stateDataFilterOuput output = some text)
    (delivered : Delivered services filters workflowDef definition data stateId waiting arrived after)
    (once : arrived.Nodup) (referenced : arrived ⊆ onEvent.eventRefs) :
    (¬ AllCame workflowDef onEvent arrived →
        ∃ s', Waits services workflowDef definition eventState onEvent data stateId inputStr arrived after s') ∧
      (AllCame workflowDef onEvent arrived →
        ∃ s', after.state.getState (some stateId) = some s' ∧ s'.status = .COMPLETE ∧ s'.outputStr = some text) := by
  have tokens : ∀ evt ∈ listenedTo workflowDef onEvent, eventToken services workflowDef onEvent data evt ≠ none := by
    intro evt member null
    obtain ⟨v, gives⟩ := completing.tokens evt member
    rw [eventToken_eq_some.mpr gives] at null
    cases null
  induction delivered with
  | start =>
    refine ⟨fun _ => ⟨s, waits⟩, fun came => ?_⟩
    obtain ⟨ref, referenced⟩ := List.exists_mem_of_ne_nil _ (eventRefs_ne_nil single nothing)
    cases (came ref referenced).2
  | @next arrived ref between after delivered arrives ih =>
    obtain ⟨once, -, apart⟩ := List.nodup_append.mp once
    have new : ref ∉ arrived := fun inside => apart ref inside ref List.mem_cons_self rfl
    have mine : ref ∈ onEvent.eventRefs := referenced (by simp)
    obtain ⟨s₁, waits₁⟩ := (ih once fun ref' inside => referenced (by simp [inside])).1 fun came => new (came ref mine).2
    constructor
    · intro missing
      obtain ⟨s', -, ⟨-, evt, member, null⟩ | ⟨-, waits'⟩⟩ :=
        waits₁.missing listens distinct functional single nothing mine new missing arrives
      · exact absurd null (tokens evt member)
      · exact ⟨s', waits'⟩
    · intro came
      obtain ⟨s', found, ⟨-, ⟨evt, member, null⟩ | ⟨e, thrown⟩⟩ | ⟨-, output', gives, completes⟩⟩ :=
        waits₁.last listens distinct functional single mine new came arrives merged
      · exact absurd null (tokens evt member)
      · cases thrown
      · obtain rfl := Option.some.inj (Except.ok.inj gives)
        rw [stored] at completes
        exact ⟨s', found, completes⟩

/-- If the state is pending all along, it waits; induction on what has come of the references in their order. -/
theorem waits_of_orderIndependent
    (independent : OrderIndependent services filters workflowDef definition onEvent data stateId waiting)
    {arrived rest : List (Option String)} (order : arrived ++ rest = onEvent.eventRefs) (some : rest ≠ []) :
    ∃ after s', Delivered services filters workflowDef definition data stateId waiting arrived after ∧
      Waits services workflowDef definition eventState onEvent data stateId inputStr arrived after s' ∧
      (eventState.exclusive → ∀ evt ∈ listenedTo workflowDef onEvent, evt.name ∈ arrived →
        (eventToken services workflowDef onEvent data evt).isSome) := by
  have refs : onEvent.eventRefs.Nodup := List.Nodup.of_map _ distinct
  induction arrived using List.reverseRecOn generalizing rest with
  | nil => exact ⟨waiting, s, .start, waits, fun _ _ _ => nofun⟩
  | append_singleton arrived ref ih =>
    obtain ⟨between, s₁, delivered, waits₁, tokens⟩ := @ih (ref :: rest) (by rw [← order]; simp) (by simp)
    have mine : ref ∈ onEvent.eventRefs := by rw [← order]; simp
    rw [← order] at refs
    obtain ⟨refs', -, apart⟩ := List.nodup_append.mp refs
    have new : ref ∉ arrived := fun inside => (List.nodup_append.mp refs').2.2 ref inside ref List.mem_cons_self rfl
    have missing : ¬ AllCame workflowDef onEvent (arrived ++ [ref]) := by
      intro came
      obtain ⟨ref', later⟩ := List.exists_mem_of_ne_nil _ some
      exact apart ref' (came ref' (by rw [← order]; simp [later])).2 ref' later rfl
    obtain ⟨after, arrives⟩ : ∃ after, Arrives services filters workflowDef definition data stateId ref between after :=
      exists_arrives listens mine between
    obtain ⟨output, all⟩ := independent
    obtain ⟨s', found, pending⟩ := all (arrived ++ [ref]) rest (.of_eq order) after (delivered.next arrives)
    rw [if_neg some] at pending
    obtain ⟨s'', found', ⟨error, -⟩ | ⟨token, waits'⟩⟩ :=
      waits₁.missing listens distinct functional single nothing mine new missing arrives
    · obtain rfl := Option.some.inj (found.symm.trans found')
      cases pending.symm.trans error
    · refine ⟨after, s'', delivered.next arrives, waits', fun mode evt member came => ?_⟩
      rcases List.mem_append.mp came with earlier | last
      · exact tokens mode evt member earlier
      · exact token mode evt member (List.mem_singleton.mp last)

/-- If the order does not matter, each completion has an output that can be stored. -/
theorem completing_of_orderIndependent
    (independent : OrderIndependent services filters workflowDef definition onEvent data stateId waiting) :
    Completing services filters workflowDef eventState onEvent data inputStr := by
  have refs : onEvent.eventRefs.Nodup := List.Nodup.of_map _ distinct
  obtain ⟨init, ref, order⟩ := (List.eq_nil_or_concat onEvent.eventRefs).resolve_left (eventRefs_ne_nil single nothing)
  rw [List.concat_eq_append] at order
  obtain ⟨between, s₁, delivered, waits₁, tokens⟩ := waits_of_orderIndependent listens distinct functional single waits nothing
    independent order.symm (by simp)
  have mine : ref ∈ onEvent.eventRefs := by rw [order]; simp
  have new : ref ∉ init := by
    rw [order] at refs
    exact fun inside => (List.nodup_append.mp refs).2.2 ref inside ref List.mem_cons_self rfl
  obtain ⟨after, arrives⟩ : ∃ after, Arrives services filters workflowDef definition data stateId ref between after :=
    exists_arrives listens mine between
  obtain ⟨text, all⟩ := independent
  obtain ⟨s', found, complete, -⟩ := all (init ++ [ref]) [] (.of_eq (by rw [order, List.append_nil])) after
    (delivered.next arrives)
  by_cases came : AllCame workflowDef onEvent (init ++ [ref])
  · obtain ⟨s'', found', ⟨error, -⟩ | ⟨token, output, merged, completes⟩⟩ :=
      waits₁.last listens distinct functional single mine new came arrives rfl
    · obtain rfl := Option.some.inj (found.symm.trans found')
      cases complete.symm.trans error
    · obtain rfl := Option.some.inj (found.symm.trans found')
      refine ⟨fun ref' referenced => (came ref' referenced).1, fun evt member => ?_, output, merged, ?_⟩
      · have gives : (eventToken services workflowDef onEvent data evt).isSome := by
          have inside := (mem_listenedTo.mp member).1
          rw [order] at inside
          cases mode : eventState.exclusive with
          | false => exact token evt member (.inr mode)
          | true =>
            rcases List.mem_append.mp inside with earlier | last
            · exact tokens mode evt member earlier
            · exact token evt member (.inl (List.mem_singleton.mp last))
        obtain ⟨v, gives⟩ := Option.isSome_iff_exists.mp gives
        exact ⟨v, eventToken_eq_some.mp gives⟩
      · cases stored : storedOutput services.toJTokens filters eventState.stateDataFilterOuput output with
        | none =>
          rw [stored] at completes
          cases complete.symm.trans completes
        | some text => rfl
  · obtain ⟨s'', found', ⟨error, -⟩ | ⟨-, waits'⟩⟩ :=
      waits₁.missing listens distinct functional single nothing mine new came arrives
    · obtain rfl := Option.some.inj (found.symm.trans found')
      cases complete.symm.trans error
    · obtain rfl := Option.some.inj (found.symm.trans waits'.found)
      cases complete.symm.trans waits'.pending

end

/-- **The order in which the events come does not matter exactly as long as every event is consumed and processed and the
outputs can be merged and stored.** -/
theorem orderIndependent_iff (distinct : DistinctPairs workflowDef onEvent) (functional : PureFunctions services)
    (single : eventState.onEvents = [onEvent]) {new waiting : StateMachineInstanceAggregate} {s₁ : StateMachineInstanceState}
    (registered : Registered workflowDef definition eventState s.defId) (active : new.state.status = some .ACTIVE)
    (found : new.state.getState (some stateId) = some s) (created : s.status = .CREATE) (empty : s.events = [])
    (leaves : LaunchLeaves services filters workflowDef definition stateId new waiting)
    (found₁ : waiting.state.getState (some stateId) = some s₁) (pending : s₁.status = .PENDING) :
    OrderIndependent services filters workflowDef definition onEvent data stateId waiting ↔
      Completing services filters workflowDef eventState onEvent data s₁.inputStr := by
  obtain ⟨listens, waits, nothing⟩ := @waits_of_launched _ services filters workflowDef definition eventState onEvent data
    stateId s distinct functional single new waiting s₁ registered active found created empty leaves found₁ pending
  refine ⟨completing_of_orderIndependent listens distinct functional single waits nothing, fun completing => ?_⟩
  obtain ⟨output, merged, stored⟩ := completing.merged
  obtain ⟨text, stored⟩ := Option.isSome_iff_exists.mp stored
  refine ⟨text, fun arrived rest order after delivered => ?_⟩
  have refs : (arrived ++ rest).Nodup := order.nodup_iff.mpr (List.Nodup.of_map _ distinct)
  obtain ⟨once, -, apart⟩ := List.nodup_append.mp refs
  obtain ⟨missing, last⟩ := delivered_completing listens distinct functional single waits nothing completing merged stored
    delivered once fun ref inside => order.mem_iff.mp (List.mem_append_left _ inside)
  by_cases finished : rest = []
  · subst finished
    obtain ⟨s', found', completes⟩ := last fun ref referenced =>
      ⟨completing.consumed ref referenced, by simpa using order.mem_iff.mpr referenced⟩
    exact ⟨s', found', by rwa [if_pos rfl]⟩
  · obtain ⟨ref, later⟩ := List.exists_mem_of_ne_nil _ finished
    obtain ⟨s', waits'⟩ := missing fun came =>
      apart ref (came ref (order.mem_iff.mp (List.mem_append_right _ later))).2 ref later rfl
    exact ⟨s', waits'.found, by rw [if_neg finished]; exact waits'.pending⟩

end

/-! ## A state that waits for two events -/

/-- Objects by the names of their properties, whose values are 0, and a string. -/
inductive KeyedToken where
  | object (keys : List String)
  | letter
  deriving DecidableEq, Repr

namespace KeyedToken

def toText : KeyedToken → String
  | object keys => "\x7b" ++ ",".intercalate (keys.map fun key => "\"" ++ key ++ "\":0") ++ "\x7d"
  | letter => "a"

/-- The objects that are read. -/
def objects : List KeyedToken := [object [], object ["one"], object ["two"], object ["one", "two"], object ["two", "one"]]

def parse (text : String) : Option KeyedToken :=
  if text = "\"a\"" then some letter else objects.find? fun v => v.toText = text

/-- The properties of the second are put after those of the first. -/
def merge : KeyedToken → Option KeyedToken → KeyedToken
  | object keys, some (object keys') => object (keys ++ keys'.filter fun key => key ∉ keys)
  | v, _ => v

end KeyedToken

/-- Functions that give the empty object, and expressions that give what they are evaluated on. -/
def keyedServices : RuntimeServices KeyedToken where
  toText := KeyedToken.toText
  parse := KeyedToken.parse
  parseObject text := (KeyedToken.parse text).filter fun v => v ≠ .letter
  type v := if v = .letter then .String else .Object
  dated _ := false
  depth v := if v = .letter then 0 else 1
  transform := fun input _ => some input
  cleanExpression := id
  evalToToken := fun _ input => .ok input
  property := fun _ _ => none
  items := fun _ => none
  array := fun _ => .object []
  add := fun v _ => v
  mergeObject := KeyedToken.merge
  mergeAt := fun v _ _ => .ok (v.getD (.object []))
  functionProcessors := fun _ => some fun _ _ _ _ => .ok (some (.object []))
  exceptionToString := fun _ => "error"

/-- One function, and two events. -/
def firstAndSecond (eventState : StateMachineDefinitionEventState) : StateMachineDefinitionAggregate where
  functions := [{ name := some "f", type := .REST }]
  events := [{ name := some "first", source := some "source", type := some "one", kind := .Consumed },
    { name := some "second", source := some "source", type := some "two", kind := .Consumed }]
  states := [.event eventState]

def waitForBoth : StateMachineDefinitionOnEvent where
  eventRefs := [some "first", some "second"]
  actions := [.mk none (some { refName := some "f" }) none none, .mk none (some { refName := some "f" }) none none]

/-- The function is called for each of them. -/
def waitsForBoth (exclusive : Bool) : StateMachineDefinitionEventState where
  id := some "def"
  type := .Event
  isEnd := true
  exclusive
  onEvents := [waitForBoth]

/-- The state is the only one. -/
def onlyState (exclusive : Bool) : StateMachineDefinition where
  states := [(DefinitionState.event (waitsForBoth exclusive)).launched]
  root := "def"
  distinct := by simp
  rooted := by
    simp only [List.map_cons, List.map_nil, List.mem_singleton]
    rfl
  closed := by
    intro d member t transition
    obtain rfl := List.mem_singleton.mp member
    cases transition

def newWaiting : StateMachineInstanceAggregate :=
  (StateMachineInstanceAggregate.addState keyedServices.toJTokens
    (StateMachineInstanceAggregate.create keyedServices.toJTokens ⟨"", "instance", 0⟩ noDefinition) ⟨"", "state", 0⟩
    (some "def")).1

/-- What a launch from the state leaves. -/
def launchedFrom (exclusive : Bool) (before : StateMachineInstanceAggregate) : StateMachineInstanceAggregate :=
  leftBy (·.aggregate) (visits keyedServices (fun input _ => some input) (firstAndSecond (waitsForBoth exclusive))
    (onlyState exclusive) (fun _ => ⟨fun _ _ => ⟨"", "", 0⟩, fun _ => ⟨"", "", 0⟩, []⟩)
    (fun _ => ⟨⟨"", "", 0⟩, ⟨"", "", 0⟩, ⟨"", "", 0⟩, ⟨"", "", 0⟩⟩) 1 ⟨0, before, some (.object []), some "state"⟩)

/-- The launch leaves this. -/
theorem launchLeaves_launchedFrom (exclusive : Bool) (before : StateMachineInstanceAggregate) :
    LaunchLeaves keyedServices (fun input _ => some input) (firstAndSecond (waitsForBoth exclusive)) (onlyState exclusive)
      "state" before (launchedFrom exclusive before) :=
  ⟨_, _, _, 0, rfl⟩

/-- The functions give the empty object, whatever they are given. -/
theorem pureFunctions_keyedServices : PureFunctions keyedServices := by
  intro type processor known call call' input function s s'
  obtain rfl := Option.some.inj known
  rfl

/-- An object of its own for each event. -/
def objectsOf : Option String → Option String
  | some "first" => some "\x7b\"one\":0\x7d"
  | _ => some "\x7b\"two\":0\x7d"

/-- Two events with objects, in a state that processes each when it comes: their properties are merged in the order of the
references. -/
theorem orderIndependent_both : OrderIndependent keyedServices (fun input _ => some input)
    (firstAndSecond (waitsForBoth true)) (onlyState true) waitForBoth objectsOf "state" (launchedFrom true newWaiting) := by
  have tokens : ∀ evt ∈ listenedTo (firstAndSecond (waitsForBoth true)) waitForBoth,
      (eventToken keyedServices (firstAndSecond (waitsForBoth true)) waitForBoth objectsOf evt).isSome := by decide
  refine (orderIndependent_iff (by decide) pureFunctions_keyedServices rfl ⟨rfl, rfl, rfl⟩ rfl rfl rfl rfl
    (launchLeaves_launchedFrom _ _) rfl rfl).mpr ⟨by decide, fun evt member => ?_, some (.object ["one", "two"]), rfl, rfl⟩
  obtain ⟨v, token⟩ := Option.isSome_iff_exists.mp (tokens evt member)
  exact ⟨v, eventToken_eq_some.mp token⟩

/-- What an arrival leaves. -/
def afterArrival (type data : String) (before : StateMachineInstanceAggregate) : StateMachineInstanceAggregate :=
  launchedFrom true (StateMachineInstanceAggregate.tryConsumeEvt keyedServices.toJTokens before ⟨"", "", 0⟩
    (some "state") (some "source") (some type) (some data)).1

/-- Two events whose data are a JSON string: what is stored of it is no JSON, and the state ends in an error when the last one
comes. -/
theorem not_orderIndependent_letter :
    ((launchedFrom true newWaiting).state.getState (some "state")).map (·.status) = some .PENDING ∧
      DistinctPairs (firstAndSecond (waitsForBoth true)) waitForBoth ∧ PureFunctions keyedServices ∧
      ¬ OrderIndependent keyedServices (fun input _ => some input) (firstAndSecond (waitsForBoth true))
        (onlyState true) waitForBoth (fun _ => some "\"a\"") "state" (launchedFrom true newWaiting) := by
  refine ⟨by decide, by decide, pureFunctions_keyedServices, ?_⟩
  rintro ⟨output, all⟩
  have first : Delivered keyedServices (fun input _ => some input) (firstAndSecond (waitsForBoth true))
      (onlyState true) (fun _ => some "\"a\"") "state" (launchedFrom true newWaiting) [some "first"]
      (afterArrival "one" "\"a\"" (launchedFrom true newWaiting)) :=
    .next .start ⟨_, ⟨"", "", 0⟩, rfl, launchLeaves_launchedFrom _ _⟩
  have second : Delivered keyedServices (fun input _ => some input) (firstAndSecond (waitsForBoth true))
      (onlyState true) (fun _ => some "\"a\"") "state" (launchedFrom true newWaiting) [some "first", some "second"]
      (afterArrival "two" "\"a\"" (afterArrival "one" "\"a\"" (launchedFrom true newWaiting))) :=
    first.next ⟨_, ⟨"", "", 0⟩, rfl, launchLeaves_launchedFrom _ _⟩
  obtain ⟨s, found, complete, -⟩ := all [some "first", some "second"] [] (.of_eq rfl) _ second
  have status : ((afterArrival "two" "\"a\"" (afterArrival "one" "\"a\""
      (launchedFrom true newWaiting))).state.getState (some "state")).map (·.status) = some .ERROR := by
    decide
  rw [found] at status
  cases complete.symm.trans (Option.some.inj status)

end FaasNet.StateMachine
