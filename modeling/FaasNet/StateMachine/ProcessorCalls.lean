import FaasNet.StateMachine.Processors

/-!
# What processors do and answer

A processor changes the aggregate by `ListenEvt` and `ProcessEvent` for its own state only, whether it throws or not, and
answers with a way on that the definition of the state gives. So the processors of a definition are among those that the
engine is verified for.
-/

namespace FaasNet.StateMachine

open FaasNet.Lib FaasNet.Common FaasNet.Domain
open StateMachineInstanceAggregate (Call exec)

/-! ## What they do to the aggregate -/

section
variable {J : Type} {context : ExecutionContext J} {json : JTokens J} {stateId : String}

/-- By listening to events and processing them, both of its own state, the one aggregate becomes the other. -/
def Worked (json : JTokens J) (stateId : String) (before after : StateMachineInstanceAggregate) : Prop :=
  ∃ calls : List (Call J), (∀ call ∈ calls, ProcessorCall stateId call) ∧ after = runCommands json before calls

theorem Worked.refl (aggregate : StateMachineInstanceAggregate) : Worked json stateId aggregate aggregate :=
  ⟨[], by simp, rfl⟩

/-- What was worked on twice was worked on. -/
theorem Worked.trans (before between after : StateMachineInstanceAggregate) (first : Worked json stateId before between)
    (second : Worked json stateId between after) : Worked json stateId before after := by
  obtain ⟨calls, own, rfl⟩ := first
  obtain ⟨calls', own', rfl⟩ := second
  refine ⟨calls ++ calls', fun call member => ?_, ?_⟩
  · exact (List.mem_append.mp member).elim (own call) (own' call)
  · rw [runCommands, runCommands, runCommands, List.foldl_append]

/-- One call of a processor. -/
theorem Worked.of_call (call : Call J) (own : ProcessorCall stateId call) (aggregate : StateMachineInstanceAggregate) :
    Worked json stateId aggregate (exec json aggregate call.1 call.2).1 :=
  ⟨[call], by simpa using own, rfl⟩

open Method

/-- A command leaves what its method leaves. -/
theorem command_fst (method : StateMachineInstanceAggregate → StateMachineInstanceAggregate × Except InstanceException Unit)
    (aggregate : StateMachineInstanceAggregate) : (Handling.command method aggregate).1 = (method aggregate).1 := by
  unfold Handling.command
  split <;> simp_all

/-- What a part of a processor does, whether it throws or not. -/
def Works (context : ExecutionContext J) {α : Type} (handling : Handling α) : Prop :=
  Respects (Worked context.services.toJTokens context.stateInstance.id) handling

/-- One handling after another. -/
theorem Works.bind {α β : Type} {first : Handling α} {next : α → Handling β} (one : Works context first)
    (other : ∀ value, Works context (next value)) : Works context (first >>= next) :=
  Respects.bind Worked.trans one other

/-- A value changes nothing. -/
theorem works_pure {α : Type} (value : α) : Works context (pure value : Handling α) := Worked.refl

/-- An exception changes nothing. -/
theorem works_throw {α : Type} (e : ProcessorError) : Works context (throw e : Handling α) := Worked.refl

theorem works_of {α : Type} (value : Except ProcessorError α) : Works context (of value : Handling α) := Worked.refl

/-- Reading the state changes nothing. -/
theorem works_current : Works context context.current := Worked.refl

/-- The state is looked up each time it is needed. -/
theorem current_apply {aggregate : StateMachineInstanceAggregate} {s : StateMachineInstanceState}
    (found : aggregate.state.getState (some context.stateInstance.id) = some s) :
    (context.current : Handling StateMachineInstanceState) aggregate = (aggregate, .ok s) := by
  have reads : context.current aggregate = (aggregate, .ok ((aggregate.state.getState
      (some context.stateInstance.id)).getD context.stateInstance)) := rfl
  rw [reads, found, Option.getD_some]

theorem works_listenEvt (env : InstanceEnv) (evt : StateMachineDefinitionEvent) :
    Works context (context.listenEvt env evt) := by
  refine (works_of _).bind fun topic aggregate => ?_
  rw [command_fst]
  exact Worked.of_call (env, .listenEvt (some context.stateInstance.id) evt.name evt.source evt.type topic) rfl aggregate

theorem works_processEvent (env : InstanceEnv) (evtName : Option String) (output : Option J) :
    Works context (context.processEvent env evtName output) := by
  cases output with
  | none => exact works_throw _
  | some output =>
    intro aggregate
    unfold ExecutionContext.processEvent
    rw [command_fst]
    exact Worked.of_call
      (env, .processEvent (some context.stateInstance.id) evtName (some (context.services.toText output))) rfl aggregate

/-- A loop works if its body does. -/
theorem works_forEach {ι : Type} {body : ι → Handling Unit} (each : ∀ i, Works context (body i)) (is : List ι) :
    Works context (forEach body is) :=
  respects_forEach Worked.refl Worked.trans each is

theorem works_mapEach {ι α : Type} {body : ι → Handling α} (each : ∀ i, Works context (body i)) (is : List ι) :
    Works context (mapEach body is) :=
  respects_mapEach Worked.refl Worked.trans each is

theorem works_listenEvents (group : Nat) (onEvent : StateMachineDefinitionOnEvent) :
    Works context (EventStateProcessor.listenEvents context group onEvent) := by
  refine works_forEach (fun (ref, k) => ?_) _
  dsimp only
  split
  · exact works_throw _
  · split
    · exact works_listenEvt _ _
    · exact works_pure _

theorem works_consumeGroup (eventState : StateMachineDefinitionEventState)
    (onEvent : StateMachineDefinitionOnEvent × Nat) :
    Works context (EventStateProcessor.consumeGroup context eventState onEvent) := by
  refine (works_listenEvents _ _).bind fun _ => works_current.bind fun state => ?_
  split
  · exact works_of _
  · exact works_pure _

theorem works_processEvents (consumedResult : List (Option String × Option J)) :
    Works context (EventStateProcessor.processEvents context consumedResult) :=
  works_forEach (fun _ => works_processEvent _ _ _) _

theorem works_consumeEvents (eventState : StateMachineDefinitionEventState) :
    Works context (EventStateProcessor.consumeEvents context eventState) :=
  (works_mapEach (works_consumeGroup eventState) _).bind fun _ => works_processEvents _

/-- Event states work on their own state. -/
theorem works_event (eventState : StateMachineDefinitionEventState) :
    Works context (EventStateProcessor.handle context eventState) := by
  refine (works_consumeEvents eventState).bind fun _ => works_current.bind fun state => (works_of _).bind fun output => ?_
  cases output <;> exact works_pure _

/-- Callback states work on their own state. -/
theorem works_callback (callbackState : StateMachineDefinitionCallbackState) :
    Works context (CallbackEventStateProcessor.handle context callbackState) := by
  unfold CallbackEventStateProcessor.handle
  split
  · exact works_throw _
  · refine (works_listenEvt _ _).bind fun _ => works_current.bind fun state => ?_
    split
    · exact works_pure _
    · refine (works_of _).bind fun input => (works_of _).bind fun output => ?_
      split
      · exact works_throw _
      · exact (works_of _).bind fun result => works_pure _

/-- Foreach states work on their own state. -/
theorem works_forEachState (foreachState : StateMachineDefinitionForeachState) :
    Works context (ForeachStateProcessor.handle context foreachState) := by
  refine works_current.bind fun state => (works_of _).bind fun input => ?_
  split
  · exact works_pure _
  · exact (works_of _).bind fun value => (works_of _).bind fun result => works_pure _

theorem works_tryCheckEvent (conditions : List (StateMachineDefinitionSwitchEventCondition × Nat)) :
    Works context (SwitchStateProcessor.tryCheckEvent context conditions) := by
  induction conditions with
  | nil => exact works_pure _
  | cons condition conditions ih =>
    unfold SwitchStateProcessor.tryCheckEvent
    split
    · exact works_throw _
    · refine (works_listenEvt _ _).bind fun _ => works_current.bind fun state => ?_
      split
      · exact works_pure _
      · exact ih

/-- Switch states work on their own state. -/
theorem works_switch (switchState : StateMachineDefinitionSwitchState) :
    Works context (SwitchStateProcessor.handle context switchState) := by
  unfold SwitchStateProcessor.handle
  split
  · refine (works_of _).bind fun conditions => works_current.bind fun state => (works_of _).bind fun found => ?_
    split
    · exact (works_of _).bind fun input => works_pure _
    · exact works_pure _
  · refine (works_of _).bind fun conditions => (works_tryCheckEvent _).bind fun found => ?_
    split
    · exact works_current.bind fun state => (works_of _).bind fun input => (works_of _).bind fun output =>
        (works_processEvent _ _ _).bind fun _ => works_pure _
    · exact works_pure _

/-- Every processor only listens to events of its state and processes them. -/
theorem works_handle (state : DefinitionState) : Works context (handle context state) := by
  unfold handle
  split
  · exact works_event _
  · exact (works_of _).bind fun data => works_pure _
  · exact works_current.bind fun state => (works_of _).bind fun input => (works_of _).bind fun result => works_pure _
  · exact works_switch _
  · exact works_forEachState _
  · exact works_callback _
  · exact works_throw _

end

/-! ## What they answer -/

section
variable {J : Type} {context : ExecutionContext J}

/-- The answer goes on, or ends, as one of the flows says. -/
def Answers (flows : List Flow) : StateProcessorResult J → Prop
  | .next _ transition => ∃ flow ∈ flows, flow.isEnd = false ∧ flow.transition = transition
  | .end _ => ∃ flow ∈ flows, flow.isEnd
  | _ => True

open Method

/-- A flowable state answers with its transition, or ends. -/
theorem answers_ok (stateDef : BaseStateMachineFlowableState) (output : Option J) :
    Answers [⟨stateDef.isEnd, stateDef.transition⟩] (stateDef.ok output) := by
  unfold BaseStateMachineFlowableState.ok
  split
  next ends => exact ⟨_, List.mem_singleton_self _, ends⟩
  next goes => exact ⟨_, List.mem_singleton_self _, by simpa using goes, rfl⟩

/-- A condition answers with its own flow. -/
theorem answers_condition {condition : BaseEventCondition} {flows : List Flow}
    (listed : (⟨condition.isEnd, condition.transition⟩ : Flow) ∈ flows) (output : Option J) :
    Answers flows (condition.ok output) := by
  unfold BaseEventCondition.ok
  split
  next ends => exact ⟨_, listed, ends⟩
  next goes => exact ⟨_, listed, by simpa using goes, rfl⟩

/-- An event state answers with the flow of its definition. -/
theorem returns_event (eventState : StateMachineDefinitionEventState) :
    Returns (Answers [⟨eventState.isEnd, eventState.transition⟩]) (EventStateProcessor.handle context eventState) := by
  refine returns_bind fun _ => returns_bind fun state => returns_bind fun output => ?_
  cases output with
  | none => exact returns_pure trivial
  | some output => exact returns_pure (answers_ok _ output)

/-- A callback state answers with the flow of its definition. -/
theorem returns_callback (callbackState : StateMachineDefinitionCallbackState) :
    Returns (Answers [⟨callbackState.isEnd, callbackState.transition⟩])
      (CallbackEventStateProcessor.handle context callbackState) := by
  unfold CallbackEventStateProcessor.handle
  split
  · exact returns_throw _
  · refine returns_bind fun _ => returns_bind fun state => ?_
    split
    · exact returns_pure trivial
    · refine returns_bind fun input => returns_bind fun output => ?_
      split
      · exact returns_throw _
      · exact returns_bind fun result => returns_pure (answers_ok _ result)

/-- A foreach state answers with the flow of its definition. -/
theorem returns_forEachState (foreachState : StateMachineDefinitionForeachState) :
    Returns (Answers [⟨foreachState.isEnd, foreachState.transition⟩])
      (ForeachStateProcessor.handle context foreachState) := by
  refine returns_bind fun state => returns_bind fun input => ?_
  split
  · exact returns_pure (answers_ok _ input)
  · exact returns_bind fun value => returns_bind fun result => returns_pure (answers_ok _ _)

/-- The conditions that are cast are those of the state. -/
theorem castData_eq_ok {conditions : List EventCondition} {data : List StateMachineDefinitionSwitchDataCondition} :
    SwitchStateProcessor.castData conditions = .ok data ↔ conditions = data.map .data := by
  apply mapM_eq_ok_iff_map
  intro condition result
  cases condition with
  | data condition => simp
  | event condition => simp

/-- The cast returns if every condition is on an event. -/
theorem castEvent_eq_ok {conditions : List EventCondition} {events : List StateMachineDefinitionSwitchEventCondition} :
    SwitchStateProcessor.castEvent conditions = .ok events ↔ conditions = events.map .event := by
  apply mapM_eq_ok_iff_map
  intro condition result
  cases condition with
  | data condition => simp
  | event condition => simp

/-- The condition that holds is one of those that were asked. -/
theorem mem_of_tryCheckData {state : StateMachineInstanceState}
    {conditions : List StateMachineDefinitionSwitchDataCondition} {result : StateMachineDefinitionSwitchDataCondition}
    (found : SwitchStateProcessor.tryCheckData context state conditions = .ok (some result)) : result ∈ conditions := by
  induction conditions with
  | nil => cases found
  | cons condition conditions ih =>
    unfold SwitchStateProcessor.tryCheckData at found
    cases evaluated : context.services.evaluateCondition state condition.condition with
    | error e =>
      rw [evaluated] at found
      cases found
    | ok isTrue =>
      rw [evaluated] at found
      cases isTrue with
      | true =>
        obtain rfl : condition = result := Option.some.inj (Except.ok.inj found)
        exact List.mem_cons_self
      | false => exact List.mem_cons_of_mem _ (ih found)

/-- The condition that holds is one of those that were asked. -/
theorem returns_tryCheckEvent (conditions : List (StateMachineDefinitionSwitchEventCondition × Nat)) :
    Returns (fun found => ∀ result ∈ found, result.1 ∈ conditions.map (·.1))
      (SwitchStateProcessor.tryCheckEvent context conditions) := by
  induction conditions with
  | nil => exact returns_pure (by simp)
  | cons condition conditions ih =>
    unfold SwitchStateProcessor.tryCheckEvent
    split
    · exact returns_throw _
    · refine returns_bind fun _ => returns_bind fun state => ?_
      split
      · exact returns_pure (by simp)
      · intro s s' found returned result member
        exact List.mem_cons_of_mem _ (ih s s' found returned result member)

/-- A switch answers with the flow of one of its conditions. -/
theorem returns_switch (switchState : StateMachineDefinitionSwitchState) :
    Returns (Answers (DefinitionState.switch switchState).flows) (SwitchStateProcessor.handle context switchState) := by
  unfold SwitchStateProcessor.handle
  split
  · refine (returns_of _).bind fun conditions cast => returns_bind fun state => (returns_of _).bind fun found checked => ?_
    split
    next result =>
      refine returns_bind fun input => returns_pure (answers_condition ?_ input)
      have listed : EventCondition.data result ∈ switchState.conditions := by
        rw [castData_eq_ok.mp cast]
        exact List.mem_map_of_mem (mem_of_tryCheckData checked)
      exact List.mem_map.mpr ⟨_, listed, rfl⟩
    · exact returns_pure trivial
  · refine (returns_of _).bind fun conditions cast => (returns_tryCheckEvent _).bind fun found member => ?_
    split
    next result stateEvt =>
      refine returns_bind fun state => returns_bind fun input => returns_bind fun output => returns_bind fun _ =>
        returns_pure (answers_condition ?_ output)
      have among : result ∈ conditions := by
        have first := member (result, stateEvt) rfl
        rwa [List.zipIdx_map_fst] at first
      have listed : EventCondition.event result ∈ switchState.conditions := by
        rw [castEvent_eq_ok.mp cast]
        exact List.mem_map_of_mem among
      exact List.mem_map.mpr ⟨_, listed, rfl⟩
    · exact returns_pure trivial

/-- **Every processor answers with a flow of its definition.** -/
theorem returns_handle (state : DefinitionState) : Returns (Answers state.flows) (handle context state) := by
  unfold handle
  split
  · exact returns_event _
  · exact returns_bind fun data => returns_pure (answers_ok _ data)
  · exact returns_bind fun state => returns_bind fun input => returns_bind fun result => returns_pure (answers_ok _ result)
  · exact returns_switch _
  · exact returns_forEachState _
  · exact returns_callback _
  · exact returns_throw _

/-- What is answered when something was thrown goes nowhere. -/
theorem answers_process (state : DefinitionState) (aggregate : StateMachineInstanceAggregate) :
    Answers state.flows (process context state aggregate).2 := by
  unfold process
  split
  next after result returned => exact returns_handle state aggregate after result returned
  next => trivial

/-- **Every processor makes calls about its own state only.** -/
theorem worked_process (state : DefinitionState) (aggregate : StateMachineInstanceAggregate) :
    Worked context.services.toJTokens context.stateInstance.id aggregate (process context state aggregate).1 := by
  have worked := (works_handle state : Works context _) aggregate
  unfold process
  split
  next after result returned =>
    rw [returned] at worked
    exact worked
  next after e thrown =>
    rw [thrown] at worked
    exact worked

end

/-- **The processors of a definition conform to what the engine is verified for.** -/
theorem conforming_stateProcessors {J : Type} (services : RuntimeServices J)
    (workflowDef : StateMachineDefinitionAggregate) (envs : Nat → HandlingEnv) :
    Conforming services.toJTokens (stateProcessors services workflowDef envs) := by
  refine ⟨fun n d s aggregate => ?_, fun n d s aggregate output transition answer => ?_,
    fun n d s aggregate output answer => ?_⟩
  · unfold stateProcessors
    split
    · exact Worked.refl aggregate
    next state found => exact @worked_process _ ⟨services, workflowDef, s, envs n⟩ state aggregate
  · unfold stateProcessors at answer
    split at answer
    · cases answer
    next state found =>
      have answers := @answers_process _ ⟨services, workflowDef, s, envs n⟩ state aggregate
      rw [answer] at answers
      obtain ⟨flow, listed, goes, rfl⟩ := answers
      have same : state.launched = d := by simpa using List.find?_some found
      rw [← same]
      exact List.mem_map.mpr ⟨flow, List.mem_filter.mpr ⟨listed, by simpa using goes⟩, rfl⟩
  · unfold stateProcessors at answer
    split at answer
    · cases answer
    next state found =>
      have answers := @answers_process _ ⟨services, workflowDef, s, envs n⟩ state aggregate
      rw [answer] at answers
      have same : state.launched = d := by simpa using List.find?_some found
      rw [← same]
      exact answers

end FaasNet.StateMachine
