import FaasNet.Lib.Loops
import FaasNet.StateMachine.InstanceSessions

/-!
# Launching an instance

`RuntimeEngine`: the state of an instance is started, run by the processor of its type and completed, and the
transition leads to the next state. A state that is complete is not run again; the transition it was completed
with is followed. The processors are parameters, since what they do depends on functions and filters outside;
what they may answer is given by the definition of the state.
-/

namespace FaasNet.StateMachine

open FaasNet.Lib FaasNet.Common FaasNet.Domain
open StateMachineInstanceAggregate (Call exec)

/-! ## Definitions -/

inductive StateMachineDefinitionStateTypes where
  | Event
  | Operation
  | Switch
  | Sleep
  | Parallel
  | Inject
  | ForEach
  | Callback
  deriving DecidableEq, Repr

/-- The types with a registered `IStateProcessor`. -/
def StateMachineDefinitionStateTypes.hasProcessor : StateMachineDefinitionStateTypes → Bool
  | Sleep => false
  | Parallel => false
  | _ => true

/-- `End` and `Transition` of a flowable state or of a condition. -/
structure Flow where
  isEnd : Bool
  transition : Option String
  deriving DecidableEq, Repr

/-- What is used of a `BaseStateMachineDefinitionState`. A flowable state has one way on, a switch state one
for each condition. -/
structure StateMachineDefinitionState where
  id : String
  type : StateMachineDefinitionStateTypes
  stateDataFilterInput : Option String := none
  stateDataFilterOutput : Option String := none
  flows : List Flow
  deriving DecidableEq, Repr

/-- The transitions a processor may answer with. -/
def StateMachineDefinitionState.transitions (d : StateMachineDefinitionState) : List (Option String) :=
  (d.flows.filter fun flow => !flow.isEnd).map (·.transition)

/-- What is used of a `StateMachineDefinitionAggregate` that can be instantiated: its states have different
ids, since `Instanciate` throws otherwise, one of them is the root, and the transitions name states. -/
structure StateMachineDefinition where
  states : List StateMachineDefinitionState
  root : String
  distinct : (states.map (·.id)).Nodup
  rooted : root ∈ states.map (·.id)
  closed : ∀ d ∈ states, ∀ t ∈ d.transitions, ∃ e ∈ states, t = some e.id

namespace StateMachineDefinition

def getState (definition : StateMachineDefinition) (id : Option String) : Option StateMachineDefinitionState :=
  definition.states.find? fun s => some s.id = id

/-- The edges of the transition graph, from the states that a processor runs. -/
def Edge (definition : StateMachineDefinition) (d e : StateMachineDefinitionState) : Prop :=
  d ∈ definition.states ∧ e ∈ definition.states ∧ d.type.hasProcessor ∧ some e.id ∈ d.transitions

/-- No path of transitions comes back to where it began. -/
def Acyclic (definition : StateMachineDefinition) : Prop := ∀ d, ¬ Relation.TransGen definition.Edge d d

end StateMachineDefinition

/-! ## Processors -/

/-- `StateProcessorResult`, by the method that makes it. -/
inductive StateProcessorResult (J : Type*) where
  | end (output : Option J)
  | next (output : Option J) (transition : Option String)
  | block
  | error (exception : Option String)

/-- `IStateProcessor.Process` of all processors: the aggregate they leave and what they answer. The number says
how many states were visited before. -/
def Processors (J : Type*) : Type _ :=
  Nat → StateMachineDefinitionState → StateMachineInstanceState → StateMachineInstanceAggregate →
    StateMachineInstanceAggregate × StateProcessorResult J

/-- What a processor calls on the aggregate, all of it for the state that it runs. -/
def ProcessorCall {J : Type*} (stateId : String) (call : Call J) : Prop :=
  match call.2 with
  | .listenEvt stateInstanceId _ _ _ _ => stateInstanceId = some stateId
  | .processEvent stateInstanceId _ _ => stateInstanceId = some stateId
  | _ => False

/-- What the processors keep to: they only listen to events and process them, and the answer goes on as the
definition of the state says. -/
structure Conforming {J : Type*} (json : JTokens J) (processors : Processors J) : Prop where
  calls : ∀ n d s aggregate, ∃ calls : List (Call J), (∀ call ∈ calls, ProcessorCall s.id call) ∧
    (processors n d s aggregate).1 = runCommands json aggregate calls
  next : ∀ n d s aggregate output transition, (processors n d s aggregate).2 = .next output transition →
    transition ∈ d.transitions
  ends : ∀ n d s aggregate output, (processors n d s aggregate).2 = .end output → ∃ flow ∈ d.flows, flow.isEnd

/-- What is used of the JSON library besides: `JObject.Parse`. -/
structure RuntimeJson (J : Type*) extends JTokens J where
  parseObject : String → Option J

/-- `JTokenExtensions.Transform` with a filter, which is `none` where it throws. -/
def Filters (J : Type*) : Type _ := Option J → String → Option (Option J)

/-- `RuntimeEngine.Transform`. -/
def Filters.transform {J : Type*} (filters : Filters J) (input : Option J) (filter : Option String) :
    Option (Option J) :=
  if isNullOrWhiteSpace filter then some input else filters input (filter.getD "")

/-- `StateMachineInstanceState.GetOutput`. -/
def RuntimeJson.getOutput {J : Type*} (json : RuntimeJson J) (state : StateMachineInstanceState) : Option (Option J) :=
  if isNullOrWhiteSpace state.outputStr then some none else (json.parseObject (state.outputStr.getD "")).map some

/-! ## `InternalLaunch` -/

/-- What the commands of one visit read from outside. -/
structure VisitEnv where
  start : InstanceEnv
  reactivate : InstanceEnv
  finish : InstanceEnv
  terminate : InstanceEnv

/-- The arguments of `InternalLaunch`, and how many states were visited before. -/
structure LaunchConfig (J : Type*) where
  visited : Nat
  aggregate : StateMachineInstanceAggregate
  input : Option J
  stateInstanceId : Option String

/-- How `InternalLaunch` ends: the aggregate it leaves, and whether it throws. -/
abbrev LaunchResult := StateMachineInstanceAggregate × Except InstanceException Unit

/-- Goes on with the aggregate if a command returns. -/
def andThen {β : Type*} (result : LaunchResult) (next : StateMachineInstanceAggregate → LaunchResult ⊕ β) :
    LaunchResult ⊕ β :=
  match result with
  | (aggregate, .ok ()) => next aggregate
  | (aggregate, .error e) => .inl (aggregate, .error e)

section
variable {J : Type*} (json : RuntimeJson J) (filters : Filters J) (processors : Processors J)
  (definition : StateMachineDefinition) (env : VisitEnv)

/-- `ExecuteState`; it goes on with an output and a transition, or the launch ends. -/
def executeState (visited : Nat) (stateDefinition : StateMachineDefinitionState)
    (stateInstance : StateMachineInstanceState) (aggregate : StateMachineInstanceAggregate) :
    LaunchResult ⊕ (StateMachineInstanceAggregate × Option J × Option String) :=
  let complete (aggregate : StateMachineInstanceAggregate) (output : Option J) (transition : Option String)
      (next : Option J → StateMachineInstanceAggregate →
        LaunchResult ⊕ (StateMachineInstanceAggregate × Option J × Option String)) :=
    match filters.transform output stateDefinition.stateDataFilterOutput with
    | none => .inl (aggregate, .error .jsonReaderException)
    | some output =>
      andThen (StateMachineInstanceAggregate.completeState json.toJTokens aggregate env.finish
        (some stateInstance.id) output transition) (next output)
  match processors visited stateDefinition stateInstance aggregate with
  | (aggregate, .block) =>
    .inl (StateMachineInstanceAggregate.blockState json.toJTokens aggregate env.finish (some stateInstance.id))
  | (aggregate, .error exception) =>
    .inl (StateMachineInstanceAggregate.errorState json.toJTokens aggregate env.finish (some stateInstance.id) exception)
  | (aggregate, .end output) =>
    complete aggregate output none fun output aggregate =>
      .inl (StateMachineInstanceAggregate.terminate json.toJTokens aggregate env.terminate output)
  | (aggregate, .next output transition) =>
    complete aggregate output transition fun output aggregate => .inr (aggregate, output, transition)

/-- The part of `InternalLaunch` that finds the output and the transition: a new state is started, one that
failed is reactivated, and one that is complete is not run. -/
def processState (config : LaunchConfig J) (stateDefinition : StateMachineDefinitionState)
    (stateInstance : StateMachineInstanceState) :
    LaunchResult ⊕ (StateMachineInstanceAggregate × Option J × Option String) :=
  let execute (aggregate : StateMachineInstanceAggregate) :=
    executeState json filters processors env config.visited stateDefinition
      ((aggregate.state.getState (some stateInstance.id)).getD stateInstance) aggregate
  match stateInstance.status with
  | .CREATE =>
    -- `StartState` leaves it ACTIVE, so it is neither complete nor reactivated
    match filters.transform config.input stateDefinition.stateDataFilterInput with
    | none => .inl (config.aggregate, .error .jsonReaderException)
    | some input =>
      andThen (StateMachineInstanceAggregate.startState json.toJTokens config.aggregate env.start
        (some stateInstance.id) input) execute
  | .ERROR =>
    andThen (StateMachineInstanceAggregate.reactivateState json.toJTokens config.aggregate env.reactivate
      (some stateInstance.id)) execute
  | .COMPLETE =>
    match json.getOutput stateInstance with
    | none => .inl (config.aggregate, .error .jsonReaderException)
    | some output => .inr (config.aggregate, output, stateInstance.nextTransition)
  | _ => execute config.aggregate

/-- The end of `InternalLaunch`: the state the transition leads to, if the instance has one. -/
def nextVisit (visited : Nat) (aggregate : StateMachineInstanceAggregate) (output : Option J)
    (transition : Option String) : LaunchResult ⊕ LaunchConfig J :=
  match definition.getState transition with
  | none => .inl (aggregate, .error .nullReferenceException)
  | some stateDef =>
    match aggregate.state.getStateByDefId (some stateDef.id) with
    | none => .inl (aggregate, .ok ())
    | some nextState => .inr ⟨visited + 1, aggregate, output, some nextState.id⟩

/-- The body of `InternalLaunch` up to its call of itself. -/
def visit (config : LaunchConfig J) : LaunchResult ⊕ LaunchConfig J :=
  if config.aggregate.state.status ≠ some .ACTIVE then .inl (config.aggregate, .ok ())
  else
    match config.aggregate.state.getState config.stateInstanceId with
    | none => .inl (config.aggregate, .error .nullReferenceException)
    | some stateInstance =>
      match definition.getState stateInstance.defId with
      | none => .inl (config.aggregate, .error .nullReferenceException)
      | some stateDefinition =>
        if stateDefinition.type.hasProcessor = false then .inl (config.aggregate, .ok ())
        else
          match processState json filters processors env config stateDefinition stateInstance with
          | .inl result => .inl result
          | .inr (aggregate, output, transition) => nextVisit definition config.visited aggregate output transition

variable (envs : Nat → VisitEnv)

/-- `InternalLaunch`: the result, if the fuel is enough for the states it visits. -/
def internalLaunch (fuel : Nat) (config : LaunchConfig J) : Option LaunchResult :=
  loop (fun config => visit json filters processors definition (envs config.visited) config) fuel config

/-- `Launch` from a state of the instance. -/
def launch (fuel : Nat) (aggregate : StateMachineInstanceAggregate) (input : Option J) (stateInstanceId : Option String) :
    Option LaunchResult :=
  internalLaunch json filters processors definition envs fuel ⟨0, aggregate, input, stateInstanceId⟩

/-- `Launch` from the root state. -/
def launchRoot (fuel : Nat) (aggregate : StateMachineInstanceAggregate) (input : Option J) : Option LaunchResult :=
  match aggregate.state.getStateByDefId (some definition.root) with
  | none => some (aggregate, .error .nullReferenceException)
  | some rootState => launch json filters processors definition envs fuel aggregate input (some rootState.id)

end

/-! ## Reachable instances -/

section
variable {J : Type*} (json : RuntimeJson J) (definition : StateMachineDefinition)

/-- `StateMachineLauncher.Instanciate`: an instance with a state for each one of the definition. -/
def instanciate (env : InstanceEnv) (workflowDef : WorkflowDef) (envs : StateMachineDefinitionState → InstanceEnv) :
    StateMachineInstanceAggregate :=
  definition.states.foldl
    (fun aggregate d => (StateMachineInstanceAggregate.addState json.toJTokens aggregate (envs d) (some d.id)).1)
    (StateMachineInstanceAggregate.create json.toJTokens env workflowDef)

/-- The instances that the runtime comes to: one is made with new GUIDs, launched from any of its states, with
whatever processors answer, given events and reactivated. -/
inductive Reachable : StateMachineInstanceAggregate → Prop
  | instanciate (env : InstanceEnv) (workflowDef : WorkflowDef) {envs : StateMachineDefinitionState → InstanceEnv}
      (fresh : ∀ d ∈ definition.states, ∀ e ∈ definition.states,
        (envs d).secondGuid = (envs e).secondGuid → d = e) :
      Reachable (instanciate json definition env workflowDef envs)
  | launch {aggregate : StateMachineInstanceAggregate} (reachable : Reachable aggregate) (filters : Filters J)
      {processors : Processors J} (conforming : Conforming json.toJTokens processors) {envs : Nat → VisitEnv}
      {input : Option J} {stateInstanceId : Option String} {fuel : Nat} {result : LaunchResult}
      (returned : launch json filters processors definition envs fuel aggregate input stateInstanceId = some result) :
      Reachable result.1
  | tryConsumeEvt {aggregate : StateMachineInstanceAggregate} (reachable : Reachable aggregate) (env : InstanceEnv)
      (stateInstanceId source type data : Option String) :
      Reachable (StateMachineInstanceAggregate.tryConsumeEvt json.toJTokens aggregate env stateInstanceId source type data).1
  | reactivate {aggregate : StateMachineInstanceAggregate} (reachable : Reachable aggregate) (env : InstanceEnv) :
      Reachable (StateMachineInstanceAggregate.reactivate json.toJTokens aggregate env).1

/-- Whatever the filters and the processors answer, `Launch` returns or throws after finitely many visits. -/
def LaunchTerminates : Prop :=
  ∀ (filters : Filters J) (processors : Processors J), Conforming json.toJTokens processors →
    ∀ (envs : Nat → VisitEnv) (aggregate : StateMachineInstanceAggregate), Reachable json definition aggregate →
      ∀ (input : Option J) (stateInstanceId : Option String),
        ∃ fuel, (launch json filters processors definition envs fuel aggregate input stateInstanceId).isSome

end

end FaasNet.StateMachine
