import FaasNet.StateMachine.RuntimeEngine

/-!
# Definitions of state machines

`StateMachineDefinitionAggregate` with all its parts, as they are stored. A text that may be null is an
`Option String`. The getters and setters that are not plain fields are functions: `StateDataFilter` of a state,
and the two kinds of conditions and the default condition of a switch state.
-/

namespace FaasNet.StateMachine

open FaasNet.Common

/-! ## Enumerations -/

/-- The types of functions. -/
inductive StateMachineDefinitionTypes where
  | REST
  | ASYNCAPI
  | RPC
  | GRAPHSQL
  | ODATA
  | EXPRESSION
  | CUSTOM
  deriving DecidableEq, Repr

/-- The kinds of events. -/
inductive StateMachineDefinitionEventKinds where
  | Consumed
  | Produced
  deriving DecidableEq, Repr

/-- The modes of actions. -/
inductive StateMachineDefinitionActionModes where
  | Sequential
  | Parallel
  deriving DecidableEq, Repr

/-- The modes of loops. -/
inductive StateMachineDefinitionForeachStateModes where
  | Sequential
  | Parallel
  deriving DecidableEq, Repr

/-- The types of starts. -/
inductive StateMachineDefinitionStartStateTypes where
  | IMMEDIATE
  | SCHEDULED
  deriving DecidableEq, Repr

/-- The statuses of definitions. -/
inductive StateMachineDefinitionStatus where
  | CREATE
  | INACTIVE
  | ACTIVE
  deriving DecidableEq, Repr

/-- The types of conditions. -/
inductive StateMachineDefinitionEventConditionTypes where
  | DATA
  | EVENT
  deriving DecidableEq, Repr

/-! ## Functions, events and actions -/

/-- The text of a `JObject` property is what is stored of it. -/
structure StateMachineDefinitionFunction where
  name : Option String := none
  operation : Option String := none
  type : StateMachineDefinitionTypes := .REST
  metadataStr : Option String := none
  functionId : Option String := none
  deriving DecidableEq, Repr

/-- An event of a definition. -/
structure StateMachineDefinitionEvent where
  name : Option String := none
  source : Option String := none
  type : Option String := none
  kind : StateMachineDefinitionEventKinds := .Consumed
  metadataStr : Option String := none
  deriving DecidableEq, Repr

/-- A reference to a function, with its arguments. -/
structure StateMachineDefinitionFunctionRef where
  refName : Option String := none
  argumentsStr : Option String := none
  selectionSet : Option String := none
  deriving DecidableEq, Repr

/-- How the result of an action gets into the state data. -/
structure StateMachineDefinitionActionDataFilter where
  fromStateData : Option String := none
  useResults : Bool := false
  results : Option String := none
  toStateData : Option String := none
  deriving DecidableEq, Repr

/-- How the data of an event get into the state data. -/
structure StateMachineDefinitionEventDataFilter where
  useData : Bool := true
  data : Option String := none
  toStateData : Option String := none
  deriving DecidableEq, Repr

/-- What all states have. -/
structure BaseStateMachineDefinitionState where
  technicalId : Option String := none
  id : Option String := none
  name : Option String := none
  type : StateMachineDefinitionStateTypes
  stateDataFilterInput : Option String := none
  stateDataFilterOuput : Option String := none
  deriving DecidableEq, Repr

/-- `End` is `isEnd`. -/
structure BaseStateMachineFlowableState extends BaseStateMachineDefinitionState where
  isEnd : Bool := false
  transition : Option String := none
  deriving DecidableEq, Repr

/-- A callback state, over the actions, since an action may in turn have a callback state. -/
structure CallbackStateOf (Action : Type) extends BaseStateMachineFlowableState where
  action : Option Action := none
  eventRef : Option String := none
  actionId : Option Int32 := none
  eventDataFilter : Option StateMachineDefinitionEventDataFilter := none

/-- A call of a function. -/
inductive StateMachineDefinitionAction where
  | mk (name : Option String) (functionRef : Option StateMachineDefinitionFunctionRef)
      (actionDataFilter : Option StateMachineDefinitionActionDataFilter)
      (callbackState : Option (CallbackStateOf StateMachineDefinitionAction))

/-! ## States -/

/-- A state that calls a function and waits for an event. -/
abbrev StateMachineDefinitionCallbackState := CallbackStateOf StateMachineDefinitionAction

/-- What is done on events. -/
structure StateMachineDefinitionOnEvent where
  eventRefs : List (Option String) := []
  actionMode : StateMachineDefinitionActionModes := .Sequential
  actions : List StateMachineDefinitionAction := []
  eventDataFilter : Option StateMachineDefinitionEventDataFilter := none

/-- The constructor leaves `Type` at the value 0. -/
structure StateMachineDefinitionEventState extends BaseStateMachineFlowableState where
  exclusive : Bool := true
  onEvents : List StateMachineDefinitionOnEvent := []

/-- A state that executes its actions for each item of a collection. -/
structure StateMachineDefinitionForeachState extends BaseStateMachineFlowableState where
  inputCollection : Option String := none
  outputCollection : Option String := none
  iterationParam : Option String := none
  batchSize : Option Int32 := none
  mode : StateMachineDefinitionForeachStateModes := .Parallel
  actions : List StateMachineDefinitionAction := []

/-- A state that adds data. -/
structure StateMachineDefinitionInjectState extends BaseStateMachineFlowableState where
  dataStr : Option String := none
  deriving DecidableEq, Repr

/-- A state that executes its actions. -/
structure StateMachineDefinitionOperationState extends BaseStateMachineFlowableState where
  actionMode : StateMachineDefinitionActionModes := .Sequential
  actions : List StateMachineDefinitionAction := []

/-- `BaseEventCondition`; `End` is `isEnd`. -/
structure BaseEventCondition where
  name : Option String := none
  conditionType : StateMachineDefinitionEventConditionTypes
  transition : Option String := none
  isEnd : Bool := false
  deriving DecidableEq, Repr

/-- A transition on a condition on the data. -/
structure StateMachineDefinitionSwitchDataCondition extends BaseEventCondition where
  condition : Option String := none
  deriving DecidableEq, Repr

/-- A transition on an event. -/
structure StateMachineDefinitionSwitchEventCondition extends BaseEventCondition where
  eventRef : Option String := none
  eventDataFilter : Option StateMachineDefinitionEventDataFilter := none
  deriving DecidableEq, Repr

/-- The classes derived from `BaseEventCondition`. -/
inductive EventCondition where
  | data (condition : StateMachineDefinitionSwitchDataCondition)
  | event (condition : StateMachineDefinitionSwitchEventCondition)
  deriving DecidableEq, Repr

/-- A state with conditional transitions. -/
structure StateMachineDefinitionSwitchState extends BaseStateMachineDefinitionState where
  conditions : List EventCondition := []
  defaultConditionStr : Option String := none
  deriving DecidableEq, Repr

/-- The classes derived from `BaseStateMachineDefinitionState`. -/
inductive DefinitionState where
  | callback (state : StateMachineDefinitionCallbackState)
  | event (state : StateMachineDefinitionEventState)
  | forEach (state : StateMachineDefinitionForeachState)
  | inject (state : StateMachineDefinitionInjectState)
  | operation (state : StateMachineDefinitionOperationState)
  | switch (state : StateMachineDefinitionSwitchState)

/-- The fields of the base class. -/
def DefinitionState.base : DefinitionState → BaseStateMachineDefinitionState
  | .callback state => state.toBaseStateMachineDefinitionState
  | .event state => state.toBaseStateMachineDefinitionState
  | .forEach state => state.toBaseStateMachineDefinitionState
  | .inject state => state.toBaseStateMachineDefinitionState
  | .operation state => state.toBaseStateMachineDefinitionState
  | .switch state => state.toBaseStateMachineDefinitionState

/-! ## The aggregate -/

/-- Where a definition starts. -/
structure StateMachineDefinitionStartState where
  stateName : Option String := none
  schedule : Option String := none
  type : StateMachineDefinitionStartStateTypes := .IMMEDIATE
  deriving DecidableEq, Repr

/-- Of the fields of `AggregateRoot`, those that definitions use. -/
structure StateMachineDefinitionAggregate where
  technicalId : Option String := none
  id : Option String := none
  version : Int32 := 0
  isLast : Bool := false
  name : Option String := none
  description : Option String := none
  createDateTime : DateTime := 0
  updateDateTime : DateTime := 0
  start : Option StateMachineDefinitionStartState := none
  states : List DefinitionState := []
  functions : List StateMachineDefinitionFunction := []
  events : List StateMachineDefinitionEvent := []
  vpn : Option String := none
  applicationDomainId : Option String := none
  rootTopic : Option String := none
  status : StateMachineDefinitionStatus := .CREATE

end FaasNet.StateMachine
