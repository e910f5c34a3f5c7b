import FaasNet.StateMachine.EventStates
import FaasNet.StateMachine.StateExecution

/-!
# Launching an event state

A launch from an event state executes it: what it leaves of the state is what the processor does to the events of the
state, and what becomes of the state by the answer of the processor.
-/

namespace FaasNet.StateMachine

open FaasNet.Lib FaasNet.Common FaasNet.Domain
open StateMachineInstanceAggregate (Call emit exec)

/-! ## Executing an event state -/

/-- The answer: what is thrown is answered. -/
def answerOf {J : Type} (services : RuntimeServices J) :
    Except ProcessorError (StateProcessorResult J) → StateProcessorResult J
  | .ok result => result
  | .error e => .error (some (services.exceptionToString e))

section
variable {J : Type} {services : RuntimeServices J} {filters : Filters J} {eventState : StateMachineDefinitionEventState}
  {workflowDef : StateMachineDefinitionAggregate} {handlings : Nat → HandlingEnv} {env : VisitEnv}
  {aggregate : StateMachineInstanceAggregate} {s : StateMachineInstanceState}

/-- What the launch does with the answer of an event state. -/
theorem executeState_event (typed : eventState.type = .Event)
    (registered : (workflowDef.states.find? fun state => state.launched = (DefinitionState.event eventState).launched) =
      some (.event eventState))
    (visited : Nat) (found : aggregate.state.getState (some s.id) = some s) (underWay : s.UnderWay) :
    ∃ s', ExecutedTo services.toJTokens filters eventState.stateDataFilterOuput aggregate.state
        { s with events := (EventsOfState.handle ⟨services, workflowDef, s, handlings visited⟩ s eventState s.events).1 }
        (answerOf services (EventsOfState.handle ⟨services, workflowDef, s, handlings visited⟩ s eventState s.events).2)
        (leftBy (·.1) (executeState services.toRuntimeJson filters (stateProcessors services workflowDef handlings) env
          visited (DefinitionState.event eventState).launched s aggregate)).state s' ∧
      (s'.status = .COMPLETE ∨ (executeState services.toRuntimeJson filters (stateProcessors services workflowDef handlings)
        env visited (DefinitionState.event eventState).launched s aggregate).isLeft) := by
  obtain ⟨left, answered⟩ := @process_event _ ⟨services, workflowDef, s, handlings visited⟩ eventState aggregate s typed
    found underWay
  have runs : stateProcessors services workflowDef handlings visited (DefinitionState.event eventState).launched s aggregate =
      process ⟨services, workflowDef, s, handlings visited⟩ (.event eventState) aggregate := by
    unfold stateProcessors
    rw [registered]
  generalize process ⟨services, workflowDef, s, handlings visited⟩ (.event eventState) aggregate = processed
    at left answered runs
  obtain ⟨between, answer⟩ := processed
  generalize EventsOfState.handle ⟨services, workflowDef, s, handlings visited⟩ s eventState s.events = handled
    at left answered ⊢
  obtain ⟨events, outcome⟩ := handled
  dsimp only at left answered ⊢
  obtain rfl : answer = answerOf services outcome := by
    rw [answered]
    cases outcome <;> rfl
  have now : between.state.getState (some s.id) = some { s with events } := by
    rw [left, getState_withEvents found]
  have status : between.state.status = aggregate.state.status := by
    rw [left]
    rfl
  obtain ⟨s', executed, ends⟩ := @executeState_outcome _ services.toRuntimeJson filters
    (stateProcessors services workflowDef handlings) env aggregate between { s with events }
    (DefinitionState.event eventState).launched visited s _ rfl runs now
  exact ⟨s', { executed with active := fun blocked => (executed.active blocked).trans status }, ends⟩

/-! ## Visiting it -/

variable {definition : StateMachineDefinition} {config : LaunchConfig J}

/-- The end of a visit changes nothing. -/
theorem left_nextVisit (visited : Nat) (aggregate : StateMachineInstanceAggregate) (output : Option J)
    (transition : Option String) :
    leftBy (·.aggregate) (nextVisit definition visited aggregate output transition) = aggregate := by
  unfold nextVisit
  split
  · rfl
  · split <;> rfl

/-- What the visit does to an event state, when it executes it. -/
structure EventVisited (services : RuntimeServices J) (filters : Filters J) (eventState : StateMachineDefinitionEventState)
    (before : StateMachineInstance) (s : StateMachineInstanceState)
    (handled : List StateMachineInstanceStateEvent × Except ProcessorError (StateProcessorResult J))
    (result : LaunchResult ⊕ LaunchConfig J) (s' : StateMachineInstanceState) : Prop where
  executed : ExecutedTo services.toJTokens filters eventState.stateDataFilterOuput before { s with events := handled.1 }
    (answerOf services handled.2) (leftBy (·.aggregate) result).state s'
  ends : s'.status = .COMPLETE ∨ result.isLeft

theorem visit_of_execute (registered : (workflowDef.states.find? fun state => state.launched =
      (DefinitionState.event eventState).launched) = some (.event eventState)) (typed : eventState.type = .Event)
    {s₀ : StateMachineInstanceState} (active : config.aggregate.state.status = some .ACTIVE)
    (found₀ : config.aggregate.state.getState config.stateInstanceId = some s₀)
    (defined : definition.getState s₀.defId = some (DefinitionState.event eventState).launched)
    (executes : processState services.toRuntimeJson filters (stateProcessors services workflowDef handlings) env config
        (DefinitionState.event eventState).launched s₀ =
      executeState services.toRuntimeJson filters (stateProcessors services workflowDef handlings) env config.visited
        (DefinitionState.event eventState).launched s aggregate)
    (found : aggregate.state.getState (some s.id) = some s) (underWay : s.UnderWay) :
    ∃ s', EventVisited services filters eventState aggregate.state s
      (EventsOfState.handle ⟨services, workflowDef, s, handlings config.visited⟩ s eventState s.events)
      (visit services.toRuntimeJson filters (stateProcessors services workflowDef handlings) definition env config) s' := by
  have runs : (DefinitionState.event eventState).launched.type.hasProcessor = true := by
    simp only [DefinitionState.launched, DefinitionState.base, typed, StateMachineDefinitionStateTypes.hasProcessor]
  obtain ⟨s', executed, ends⟩ := @executeState_event _ services filters eventState workflowDef handlings env aggregate s typed
    registered config.visited found underWay
  refine ⟨s', ?_⟩
  unfold visit
  rw [if_neg (by simp [active]), found₀]
  dsimp only
  rw [defined]
  dsimp only
  rw [if_neg (by simp [runs]), executes]
  generalize executeState services.toRuntimeJson filters (stateProcessors services workflowDef handlings) env config.visited
    (DefinitionState.event eventState).launched s aggregate = processed at executed ends
  cases processed with
  | inl result => exact ⟨executed, .inr rfl⟩
  | inr next =>
    refine ⟨?_, .inl (ends.resolve_right Bool.noConfusion)⟩
    rw [left_nextVisit]
    exact executed

end

/-! ## Launching from it -/

section
variable {J : Type} (services : RuntimeServices J) (filters : Filters J) (workflowDef : StateMachineDefinitionAggregate)
  (definition : StateMachineDefinition) (stateId : String)

/-- The visits of a launch. -/
def visits (handlings : Nat → HandlingEnv) (envs : Nat → VisitEnv) (count : Nat) (config : LaunchConfig J) :
    LaunchResult ⊕ LaunchConfig J :=
  steps (fun config => visit services.toRuntimeJson filters (stateProcessors services workflowDef handlings) definition
    (envs config.visited) config) count config

/-- What there is after some of the visits of a launch from the state: after the last one, what the launch leaves. -/
def LaunchLeaves (before after : StateMachineInstanceAggregate) : Prop :=
  ∃ (handlings : Nat → HandlingEnv) (envs : Nat → VisitEnv) (input : Option J) (others : Nat),
    after = leftBy (·.aggregate) (visits services filters workflowDef definition handlings envs (others + 1)
      ⟨0, before, input, some stateId⟩)

variable {services filters workflowDef definition stateId}

theorem launchLeaves_of_launch {handlings : Nat → HandlingEnv} {envs : Nat → VisitEnv} {fuel : Nat} {input : Option J}
    {before : StateMachineInstanceAggregate} {result : LaunchResult}
    (returned : launch services.toRuntimeJson filters (stateProcessors services workflowDef handlings) definition envs fuel
      before input (some stateId) = some result) :
    LaunchLeaves services filters workflowDef definition stateId before result.1 := by
  cases fuel with
  | zero => cases returned
  | succ others =>
    refine ⟨handlings, envs, input, others, ?_⟩
    rw [visits, steps_of_loop returned]
    rfl

/-- What a visit that executes the state leaves, the launch leaves. -/
theorem executed_of_visited {eventState : StateMachineDefinitionEventState} {handlings : Nat → HandlingEnv}
    {envs : Nat → VisitEnv} {config : LaunchConfig J} {before : StateMachineInstance} {s s' : StateMachineInstanceState}
    {handled : List StateMachineInstanceStateEvent × Except ProcessorError (StateProcessorResult J)}
    (visited : EventVisited services filters eventState before s handled (visit services.toRuntimeJson filters
      (stateProcessors services workflowDef handlings) definition (envs config.visited) config) s') (others : Nat) :
    ExecutedTo services.toJTokens filters eventState.stateDataFilterOuput before { s with events := handled.1 }
      (answerOf services handled.2)
      (leftBy (·.aggregate) (visits services filters workflowDef definition handlings envs (others + 1) config)).state s' := by
  obtain ⟨executed, ends⟩ := visited
  rw [visits, steps]
  cases first : visit services.toRuntimeJson filters (stateProcessors services workflowDef handlings) definition
      (envs config.visited) config with
  | inl result =>
    rw [first] at executed
    exact executed
  | inr next =>
    rw [first] at executed ends
    have complete : s'.status = .COMPLETE := ends.resolve_right Bool.noConfusion
    have stays : Keeping (·.state.getState (some s.id) = some s') (·.aggregate)
        (visits services filters workflowDef definition handlings envs others next) :=
      steps_sum (fun config here =>
        visit_complete (conforming_stateProcessors services workflowDef handlings) here complete) others executed.found
    have unblocked : answerOf services handled.2 ≠ .block := by
      intro blocked
      have pending := executed.outcome
      rw [blocked] at pending
      cases complete.symm.trans pending
    refine ⟨?_, executed.defId, executed.inputStr, executed.events_eq, executed.outcome, fun blocked => absurd blocked unblocked⟩
    rw [visits] at stays
    rw [Sum.elim_inr]
    generalize steps _ others next = last at stays ⊢
    cases last with
    | inl result => exact stays
    | inr config => exact stays

variable {eventState : StateMachineDefinitionEventState} {before after : StateMachineInstanceAggregate}
  {s : StateMachineInstanceState}

/-- The registered state of the definition. -/
structure Registered (workflowDef : StateMachineDefinitionAggregate) (definition : StateMachineDefinition)
    (eventState : StateMachineDefinitionEventState) (defId : Option String) : Prop where
  typed : eventState.type = .Event
  listed : (workflowDef.states.find? fun state => state.launched = (DefinitionState.event eventState).launched) =
    some (.event eventState)
  defined : definition.getState defId = some (DefinitionState.event eventState).launched

/-- A launch from the state when it is under way. -/
theorem launchLeaves_underWay (registered : Registered workflowDef definition eventState s.defId)
    (active : before.state.status = some .ACTIVE) (found : before.state.getState (some stateId) = some s)
    (underWay : s.UnderWay) (leaves : LaunchLeaves services filters workflowDef definition stateId before after) :
    ∃ handling s', ExecutedTo services.toJTokens filters eventState.stateDataFilterOuput before.state
      { s with events := (EventsOfState.handle ⟨services, workflowDef, s, handling⟩ s eventState s.events).1 }
      (answerOf services (EventsOfState.handle ⟨services, workflowDef, s, handling⟩ s eventState s.events).2)
      after.state s' := by
  obtain ⟨handlings, envs, input, others, rfl⟩ := leaves
  obtain rfl : stateId = s.id := Option.some.inj (getState_id found)
  have executes : processState services.toRuntimeJson filters (stateProcessors services workflowDef handlings) (envs 0)
      ⟨0, before, input, some s.id⟩ (DefinitionState.event eventState).launched s =
      executeState services.toRuntimeJson filters (stateProcessors services workflowDef handlings) (envs 0) 0
        (DefinitionState.event eventState).launched s before := by
    unfold processState
    rcases underWay with status | status
    · rw [status]
      dsimp only
      rw [found, Option.getD_some]
    · rw [status]
      dsimp only
      rw [found, Option.getD_some]
  obtain ⟨s', visited⟩ := visit_of_execute registered.listed registered.typed active found registered.defined executes
    found underWay
  exact ⟨handlings 0, s', executed_of_visited visited others⟩

/-- A new state is started and executed, or nothing is done. -/
theorem processState_created {json : RuntimeJson J} {processors : Processors J} {env : VisitEnv} {config : LaunchConfig J}
    {d : StateMachineDefinitionState} (found : config.aggregate.state.getState (some s.id) = some s)
    (created : s.status = .CREATE) :
    (∃ result, processState json filters processors env config d s = .inl result ∧
        result.1.state = config.aggregate.state) ∨
      ∃ started s₁, Turned s.id config.aggregate.state s₁ started.state ∧ s₁.status = .ACTIVE ∧ s₁.events = s.events ∧
        started.state.status = config.aggregate.state.status ∧ processState json filters processors env config d s =
          executeState json filters processors env config.visited d s₁ started := by
  unfold processState
  rw [created]
  dsimp only
  cases filters.transform config.input d.stateDataFilterInput with
  | none => exact .inl ⟨_, rfl, rfl⟩
  | some input =>
    dsimp only
    cases read : json.get? (input.map json.toText) with
    | none =>
      left
      have throws : StateMachineInstanceAggregate.startState json.toJTokens config.aggregate env.start (some s.id) input =
          ({ config.aggregate with state := config.aggregate.state }, .error .jsonReaderException) := by
        simp only [StateMachineInstanceAggregate.startState, emit, StateMachineInstance.handle, read]
      exact ⟨_, by rw [throws, andThen], rfl⟩
    | some given =>
      cases given with
      | none =>
        left
        have throws : StateMachineInstanceAggregate.startState json.toJTokens config.aggregate env.start (some s.id) input =
            ({ config.aggregate with state := config.aggregate.state }, .error .nullReferenceException) := by
          simp only [StateMachineInstanceAggregate.startState, emit, StateMachineInstance.handle, read]
        exact ⟨_, by rw [throws, andThen], rfl⟩
      | some token =>
        right
        obtain ⟨started, starts, turned, status⟩ : ∃ started, StateMachineInstanceAggregate.startState json.toJTokens
            config.aggregate env.start (some s.id) input = (started, .ok ()) ∧ _ :=
          emit_turned env.start (·.start (json.toText token) env.start.utcNow) found
            (by simp only [StateMachineInstance.handle, read]) (fun _ => rfl) (fun _ => rfl)
        refine ⟨started, _, turned, rfl, rfl, status, ?_⟩
        rw [starts, andThen, turned.found, Option.getD_some]

/-- The first launch from the state: it is started and executed, or it is not. -/
theorem launchLeaves_created (registered : Registered workflowDef definition eventState s.defId)
    (active : before.state.status = some .ACTIVE) (found : before.state.getState (some stateId) = some s)
    (created : s.status = .CREATE) (leaves : LaunchLeaves services filters workflowDef definition stateId before after) :
    after.state.getState (some stateId) = some s ∨ ∃ handling started s₁, Turned stateId before.state s₁ started ∧
      s₁.status = .ACTIVE ∧ s₁.events = s.events ∧ started.status = some .ACTIVE ∧
      ∃ s', ExecutedTo services.toJTokens filters eventState.stateDataFilterOuput started
        { s₁ with events := (EventsOfState.handle ⟨services, workflowDef, s₁, handling⟩ s₁ eventState s₁.events).1 }
        (answerOf services (EventsOfState.handle ⟨services, workflowDef, s₁, handling⟩ s₁ eventState s₁.events).2)
        after.state s' := by
  obtain ⟨handlings, envs, input, others, rfl⟩ := leaves
  obtain rfl : stateId = s.id := Option.some.inj (getState_id found)
  have processes := @processState_created _ filters s services.toRuntimeJson (stateProcessors services workflowDef handlings)
    (envs 0) ⟨0, before, input, some s.id⟩ (DefinitionState.event eventState).launched found created
  rcases processes with ⟨result, ends, same⟩ | ⟨started, s₁, turned, status, events, activity, executes⟩
  · left
    have runs : (DefinitionState.event eventState).launched.type.hasProcessor = true := by
      simp only [DefinitionState.launched, DefinitionState.base, registered.typed,
        StateMachineDefinitionStateTypes.hasProcessor]
    have first : visit services.toRuntimeJson filters (stateProcessors services workflowDef handlings) definition (envs 0)
        ⟨0, before, input, some s.id⟩ = .inl result := by
      unfold visit
      rw [if_neg (by simp [active]), found]
      dsimp only
      rw [registered.defined]
      dsimp only
      rw [if_neg (by simp [runs]), ends]
    rw [visits, steps, first]
    exact (congrArg (·.getState (some s.id)) same).trans found
  · right
    have same : s₁.id = s.id := turned.id_eq
    obtain ⟨s', visited⟩ := visit_of_execute registered.listed registered.typed active found registered.defined executes
      (by rw [same]; exact turned.found) (.inl status)
    exact ⟨handlings 0, started.state, s₁, turned, status, events, activity.trans active, s', executed_of_visited visited others⟩

end

end FaasNet.StateMachine
