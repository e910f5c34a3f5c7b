import FaasNet.StateMachine.SwitchStates
import FaasNet.StateMachine.YamlObjects

/-!
# States in YAML

The properties of the classes of definitions, in the order in which reflection gives them: those of the class
first, then those of its base classes. With them come `YamlWorkflowDefinitionStateConverter.ReadYaml`, which takes
the class of a state from the text of its `type`, and `RuntimeSerializer`.
-/

namespace FaasNet.StateMachine

open FaasNet.Common

/-! ## Enumerations -/

/-- The types of states. -/
def stateTypes : EnumType StateMachineDefinitionStateTypes where
  values := [.Event, .Operation, .Switch, .Sleep, .Parallel, .Inject, .ForEach, .Callback]
  name
    | .Event => "Event"
    | .Operation => "Operation"
    | .Switch => "Switch"
    | .Sleep => "Sleep"
    | .Parallel => "Parallel"
    | .Inject => "Inject"
    | .ForEach => "ForEach"
    | .Callback => "Callback"
  parses e := by cases e <;> decide

/-- The modes of actions. -/
def actionModes : EnumType StateMachineDefinitionActionModes where
  values := [.Sequential, .Parallel]
  name
    | .Sequential => "Sequential"
    | .Parallel => "Parallel"
  parses e := by cases e <;> decide

/-- The modes of loops. -/
def foreachStateModes : EnumType StateMachineDefinitionForeachStateModes where
  values := [.Sequential, .Parallel]
  name
    | .Sequential => "Sequential"
    | .Parallel => "Parallel"
  parses e := by cases e <;> decide

/-- The types of conditions. -/
def eventConditionTypes : EnumType StateMachineDefinitionEventConditionTypes where
  values := [.DATA, .EVENT]
  name
    | .DATA => "DATA"
    | .EVENT => "EVENT"
  parses e := by cases e <;> decide

/-- The types of starts. -/
def startStateTypes : EnumType StateMachineDefinitionStartStateTypes where
  values := [.IMMEDIATE, .SCHEDULED]
  name
    | .IMMEDIATE => "IMMEDIATE"
    | .SCHEDULED => "SCHEDULED"
  parses e := by cases e <;> decide

/-- The types of functions. -/
def functionTypes : EnumType StateMachineDefinitionTypes where
  values := [.REST, .ASYNCAPI, .RPC, .GRAPHSQL, .ODATA, .EXPRESSION, .CUSTOM]
  name
    | .REST => "REST"
    | .ASYNCAPI => "ASYNCAPI"
    | .RPC => "RPC"
    | .GRAPHSQL => "GRAPHSQL"
    | .ODATA => "ODATA"
    | .EXPRESSION => "EXPRESSION"
    | .CUSTOM => "CUSTOM"
  parses e := by cases e <;> decide

/-- The kinds of events. -/
def eventKinds : EnumType StateMachineDefinitionEventKinds where
  values := [.Consumed, .Produced]
  name
    | .Consumed => "Consumed"
    | .Produced => "Produced"
  parses e := by cases e <;> decide

/-- The statuses of definitions. -/
def statuses : EnumType StateMachineDefinitionStatus where
  values := [.CREATE, .INACTIVE, .ACTIVE]
  name
    | .CREATE => "CREATE"
    | .INACTIVE => "INACTIVE"
    | .ACTIVE => "ACTIVE"
  parses e := by cases e <;> decide

/-! ## Filters and functions -/

/-- The value of the property `StateDataFilter` of a state. -/
structure StateDataFilter where
  input : Option String := none
  output : Option String := none
  deriving DecidableEq, Repr

section Classes

open PropertyInfo

variable (json : JObjectTexts)

/-- The properties of a data filter. -/
def StateDataFilter.properties : List (PropertyInfo StateDataFilter) :=
  [string "Input" (·.input) fun v t => { t with input := v },
   string "Output" (·.output) fun v t => { t with output := v }]

/-- The properties of a reference to a function. -/
def StateMachineDefinitionFunctionRef.properties : List (PropertyInfo StateMachineDefinitionFunctionRef) :=
  [string "RefName" (·.refName) fun v t => { t with refName := v },
   (string "ArgumentsStr" (·.argumentsStr) fun v t => { t with argumentsStr := v }).ignored,
   string "SelectionSet" (·.selectionSet) fun v t => { t with selectionSet := v },
   jObject json "Arguments" (·.argumentsStr) fun v t => { t with argumentsStr := v }]

/-- The properties of the filter of an action. -/
def StateMachineDefinitionActionDataFilter.properties :
    List (PropertyInfo StateMachineDefinitionActionDataFilter) :=
  [string "FromStateData" (·.fromStateData) fun v t => { t with fromStateData := v },
   bool "UseResults" (·.useResults) fun v t => { t with useResults := v },
   string "Results" (·.results) fun v t => { t with results := v },
   string "ToStateData" (·.toStateData) fun v t => { t with toStateData := v }]

/-- The properties of the filter of an event. -/
def StateMachineDefinitionEventDataFilter.properties : List (PropertyInfo StateMachineDefinitionEventDataFilter) :=
  [bool "UseData" (·.useData) fun v t => { t with useData := v },
   string "Data" (·.data) fun v t => { t with data := v },
   string "ToStateData" (·.toStateData) fun v t => { t with toStateData := v }]

/-- The class of the filters of events. -/
def eventDataFilterClass : Class StateMachineDefinitionEventDataFilter :=
  .built {} StateMachineDefinitionEventDataFilter.properties

/-! ## The base classes of states -/

namespace BaseStateMachineDefinitionState

/-- The getter of `StateDataFilter`, which asks for the output twice. -/
def stateDataFilter (state : BaseStateMachineDefinitionState) : Option StateDataFilter :=
  if isNullOrWhiteSpace state.stateDataFilterOuput && isNullOrWhiteSpace state.stateDataFilterOuput then none
  else some { input := state.stateDataFilterInput, output := state.stateDataFilterOuput }

/-- The setter of `StateDataFilter`. -/
def setStateDataFilter (value : Option StateDataFilter) (state : BaseStateMachineDefinitionState) :
    BaseStateMachineDefinitionState :=
  { state with
    stateDataFilterInput := value.bind (·.input)
    stateDataFilterOuput := value.bind (·.output) }

/-- The type of a state, an event state if it is left out. -/
def typeProperty : PropertyInfo BaseStateMachineDefinitionState :=
  enum stateTypes .Event "Type" (·.type) fun v t => { t with type := v }

/-- The properties of all states. -/
def properties : List (PropertyInfo BaseStateMachineDefinitionState) :=
  [(string "TechnicalId" (·.technicalId) fun v t => { t with technicalId := v }).ignored,
   string "Id" (·.id) fun v t => { t with id := v },
   string "Name" (·.name) fun v t => { t with name := v },
   typeProperty,
   string "StateDataFilterInput" (·.stateDataFilterInput) fun v t => { t with stateDataFilterInput := v },
   string "StateDataFilterOuput" (·.stateDataFilterOuput) fun v t => { t with stateDataFilterOuput := v },
   object (.built {} StateDataFilter.properties) "StateDataFilter" (·.stateDataFilter) setStateDataFilter]

end BaseStateMachineDefinitionState

/-- What a state with a transition has of all states. -/
def BaseStateMachineFlowableState.base : BaseClass BaseStateMachineFlowableState BaseStateMachineDefinitionState where
  get t := t.toBaseStateMachineDefinitionState
  set s t := { t with toBaseStateMachineDefinitionState := s }
  get_set _ _ := rfl
  set_set _ _ _ := rfl
  set_get _ := rfl

/-- The properties of a state with a transition. -/
def BaseStateMachineFlowableState.properties : List (PropertyInfo BaseStateMachineFlowableState) :=
  [bool "End" (·.isEnd) fun v t => { t with isEnd := v },
   string "Transition" (·.transition) fun v t => { t with transition := v }] ++
  BaseStateMachineDefinitionState.properties.map (inherited base)

/-! ## Actions and callback states -/

/-- What a callback state has of the states with a transition. -/
def CallbackStateOf.base : BaseClass StateMachineDefinitionCallbackState BaseStateMachineFlowableState where
  get t := t.toBaseStateMachineFlowableState
  set s t := { t with toBaseStateMachineFlowableState := s }
  get_set _ _ := rfl
  set_set _ _ _ := rfl
  set_get _ := rfl

/-- The properties of a callback state, whatever the class of its action. -/
def CallbackStateOf.properties (actionClass : Class StateMachineDefinitionAction) :
    List (PropertyInfo StateMachineDefinitionCallbackState) :=
  [object actionClass "Action" (·.action) fun v t => { t with action := v },
   string "EventRef" (·.eventRef) fun v t => { t with eventRef := v },
   nullableInt "ActionId" (·.actionId) fun v t => { t with actionId := v },
   object eventDataFilterClass "EventDataFilter" (·.eventDataFilter) fun v t => { t with eventDataFilter := v }] ++
  BaseStateMachineFlowableState.properties.map (inherited base)

/-- The class of callback states, whatever the class of their actions. -/
def callbackClass (actionClass : Class StateMachineDefinitionAction) : Class StateMachineDefinitionCallbackState :=
  .built { type := .Callback } (CallbackStateOf.properties actionClass)

namespace StateMachineDefinitionAction

/-- The name of an action. -/
def name : StateMachineDefinitionAction → Option String
  | mk name _ _ _ => name

/-- The function that an action calls. -/
def functionRef : StateMachineDefinitionAction → Option StateMachineDefinitionFunctionRef
  | mk _ functionRef _ _ => functionRef

/-- The filter of an action. -/
def actionDataFilter : StateMachineDefinitionAction → Option StateMachineDefinitionActionDataFilter
  | mk _ _ actionDataFilter _ => actionDataFilter

/-- The callback state of an action. -/
def callbackState : StateMachineDefinitionAction → Option StateMachineDefinitionCallbackState
  | mk _ _ _ callbackState => callbackState

/-- The properties of an action. -/
def properties (callbackClass : Class StateMachineDefinitionCallbackState) :
    List (PropertyInfo StateMachineDefinitionAction) :=
  [string "Name" name fun v t => mk v t.functionRef t.actionDataFilter t.callbackState,
   object (.built {} (StateMachineDefinitionFunctionRef.properties json)) "FunctionRef" functionRef
    fun v t => mk t.name v t.actionDataFilter t.callbackState,
   object (.built {} StateMachineDefinitionActionDataFilter.properties) "ActionDataFilter" actionDataFilter
    fun v t => mk t.name t.functionRef v t.callbackState,
   object callbackClass "CallbackState" callbackState fun v t => mk t.name t.functionRef t.actionDataFilter v]

end StateMachineDefinitionAction

/-- The class of actions that are less than `depth` deep, each in the callback state of the one before. Deeper
ones are refused, as YamlDotNet refuses objects beyond its maximum recursion. -/
def actionClass : Nat → Class StateMachineDefinitionAction
  | 0 =>
    { write := fun _ => throw .insufficientExecutionStack
      build := fun _ => throw .insufficientExecutionStack }
  | depth + 1 =>
    .built (.mk none none none none)
      (StateMachineDefinitionAction.properties json (callbackClass (actionClass depth)))

/-! ## States -/

/-- The properties of what is done on events. -/
def StateMachineDefinitionOnEvent.properties (depth : Nat) : List (PropertyInfo StateMachineDefinitionOnEvent) :=
  [strings "EventRefs" (·.eventRefs) fun v t => { t with eventRefs := v },
   enum actionModes .Sequential "ActionMode" (·.actionMode) fun v t => { t with actionMode := v },
   list (actionClass json depth) "Actions" (·.actions) fun v t => { t with actions := v },
   object eventDataFilterClass "EventDataFilter" (·.eventDataFilter) fun v t => { t with eventDataFilter := v }]

/-- What an event state has of the states with a transition. -/
def StateMachineDefinitionEventState.base : BaseClass StateMachineDefinitionEventState
    BaseStateMachineFlowableState where
  get t := t.toBaseStateMachineFlowableState
  set s t := { t with toBaseStateMachineFlowableState := s }
  get_set _ _ := rfl
  set_set _ _ _ := rfl
  set_get _ := rfl

/-- The properties of an event state. -/
def StateMachineDefinitionEventState.properties (depth : Nat) :
    List (PropertyInfo StateMachineDefinitionEventState) :=
  [bool "Exclusive" (·.exclusive) fun v t => { t with exclusive := v },
   list (.built {} (StateMachineDefinitionOnEvent.properties json depth)) "OnEvents" (·.onEvents)
    fun v t => { t with onEvents := v }] ++
  BaseStateMachineFlowableState.properties.map (inherited base)

/-- What a loop has of the states with a transition. -/
def StateMachineDefinitionForeachState.base : BaseClass StateMachineDefinitionForeachState
    BaseStateMachineFlowableState where
  get t := t.toBaseStateMachineFlowableState
  set s t := { t with toBaseStateMachineFlowableState := s }
  get_set _ _ := rfl
  set_set _ _ _ := rfl
  set_get _ := rfl

/-- The properties of a loop. -/
def StateMachineDefinitionForeachState.properties (depth : Nat) :
    List (PropertyInfo StateMachineDefinitionForeachState) :=
  [string "InputCollection" (·.inputCollection) fun v t => { t with inputCollection := v },
   string "OutputCollection" (·.outputCollection) fun v t => { t with outputCollection := v },
   string "IterationParam" (·.iterationParam) fun v t => { t with iterationParam := v },
   nullableInt "BatchSize" (·.batchSize) fun v t => { t with batchSize := v },
   enum foreachStateModes .Sequential "Mode" (·.mode) fun v t => { t with mode := v },
   list (actionClass json depth) "Actions" (·.actions) fun v t => { t with actions := v }] ++
  BaseStateMachineFlowableState.properties.map (inherited base)

/-- What an inject state has of the states with a transition. -/
def StateMachineDefinitionInjectState.base : BaseClass StateMachineDefinitionInjectState
    BaseStateMachineFlowableState where
  get t := t.toBaseStateMachineFlowableState
  set s t := { t with toBaseStateMachineFlowableState := s }
  get_set _ _ := rfl
  set_set _ _ _ := rfl
  set_get _ := rfl

/-- The properties of an inject state. -/
def StateMachineDefinitionInjectState.properties : List (PropertyInfo StateMachineDefinitionInjectState) :=
  [(string "DataStr" (·.dataStr) fun v t => { t with dataStr := v }).ignored,
   jObject json "Data" (·.dataStr) fun v t => { t with dataStr := v }] ++
  BaseStateMachineFlowableState.properties.map (inherited base)

/-- What an operation state has of the states with a transition. -/
def StateMachineDefinitionOperationState.base : BaseClass StateMachineDefinitionOperationState
    BaseStateMachineFlowableState where
  get t := t.toBaseStateMachineFlowableState
  set s t := { t with toBaseStateMachineFlowableState := s }
  get_set _ _ := rfl
  set_set _ _ _ := rfl
  set_get _ := rfl

/-- The properties of an operation state. -/
def StateMachineDefinitionOperationState.properties (depth : Nat) :
    List (PropertyInfo StateMachineDefinitionOperationState) :=
  [enum actionModes .Sequential "ActionMode" (·.actionMode) fun v t => { t with actionMode := v },
   list (actionClass json depth) "Actions" (·.actions) fun v t => { t with actions := v }] ++
  BaseStateMachineFlowableState.properties.map (inherited base)

/-! ### Switch states -/

/-- The properties of all conditions. -/
def BaseEventCondition.properties : List (PropertyInfo BaseEventCondition) :=
  [string "Name" (·.name) fun v t => { t with name := v },
   enum eventConditionTypes .DATA "ConditionType" (·.conditionType) fun v t => { t with conditionType := v },
   string "Transition" (·.transition) fun v t => { t with transition := v },
   bool "End" (·.isEnd) fun v t => { t with isEnd := v }]

/-- What a data condition has of all conditions. -/
def StateMachineDefinitionSwitchDataCondition.base : BaseClass StateMachineDefinitionSwitchDataCondition
    BaseEventCondition where
  get t := t.toBaseEventCondition
  set s t := { t with toBaseEventCondition := s }
  get_set _ _ := rfl
  set_set _ _ _ := rfl
  set_get _ := rfl

/-- The properties of a data condition. -/
def StateMachineDefinitionSwitchDataCondition.properties :
    List (PropertyInfo StateMachineDefinitionSwitchDataCondition) :=
  [string "Condition" (·.condition) fun v t => { t with condition := v }] ++
  BaseEventCondition.properties.map (inherited base)

/-- What an event condition has of all conditions. -/
def StateMachineDefinitionSwitchEventCondition.base : BaseClass StateMachineDefinitionSwitchEventCondition
    BaseEventCondition where
  get t := t.toBaseEventCondition
  set s t := { t with toBaseEventCondition := s }
  get_set _ _ := rfl
  set_set _ _ _ := rfl
  set_get _ := rfl

/-- The properties of an event condition. -/
def StateMachineDefinitionSwitchEventCondition.properties :
    List (PropertyInfo StateMachineDefinitionSwitchEventCondition) :=
  [string "EventRef" (·.eventRef) fun v t => { t with eventRef := v },
   object eventDataFilterClass "EventDataFilter" (·.eventDataFilter) fun v t => { t with eventDataFilter := v }] ++
  BaseEventCondition.properties.map (inherited base)

/-- The properties of a default condition. -/
def StateMachineDefinitionDefaultCondition.properties : List (PropertyInfo StateMachineDefinitionDefaultCondition) :=
  [string "Transition" (·.transition) fun v t => { t with transition := v }]

namespace StateMachineDefinitionSwitchState

/-- What a switch state has of all states. -/
def base : BaseClass StateMachineDefinitionSwitchState BaseStateMachineDefinitionState where
  get t := t.toBaseStateMachineDefinitionState
  set s t := { t with toBaseStateMachineDefinitionState := s }
  get_set _ _ := rfl
  set_set _ _ _ := rfl
  set_get _ := rfl

/-- The data conditions, which cannot be written if one cannot be cast. -/
def dataConditionsProperty : PropertyInfo StateMachineDefinitionSwitchState :=
  listOf (.built { conditionType := .DATA } StateMachineDefinitionSwitchDataCondition.properties) "DataConditions"
    (fun t => t.dataConditions.mapError fun _ => .invalidCast) fun v t => t.setDataConditions (some v)

/-- The event conditions, which cannot be written if one cannot be cast. -/
def eventConditionsProperty : PropertyInfo StateMachineDefinitionSwitchState :=
  listOf (.built { conditionType := .EVENT } StateMachineDefinitionSwitchEventCondition.properties)
    "EventConditions" (fun t => t.eventConditions.mapError fun _ => .invalidCast) fun v t =>
    t.setEventConditions (some v)

/-- The default condition. -/
def defaultConditionProperty : PropertyInfo StateMachineDefinitionSwitchState :=
  object (.built ⟨none⟩ StateMachineDefinitionDefaultCondition.properties) "DefaultCondition" (·.defaultCondition)
    fun v t => t.setDefaultCondition v

/-- The properties of a switch state. -/
def properties : List (PropertyInfo StateMachineDefinitionSwitchState) :=
  -- A `BaseEventCondition` is abstract.
  [(list ⟨fun _ => pure [], fun nodes => if nodes.isEmpty then pure none else throw .missingMethod⟩ "Conditions"
    (·.conditions) fun v t => { t with conditions := v }).ignored,
   (string "DefaultConditionStr" (·.defaultConditionStr) fun v t => { t with defaultConditionStr := v }).ignored,
   dataConditionsProperty,
   eventConditionsProperty,
   defaultConditionProperty] ++
  BaseStateMachineDefinitionState.properties.map (inherited base)

end StateMachineDefinitionSwitchState

/-! ## The classes of states -/

/-- The class of callback states. -/
def callbackStateClass (depth : Nat) : Class StateMachineDefinitionCallbackState :=
  callbackClass (actionClass json depth)

/-- The class of event states. -/
def eventStateClass (depth : Nat) : Class StateMachineDefinitionEventState :=
  .built { type := .Event } (StateMachineDefinitionEventState.properties json depth)

/-- The class of loops. -/
def foreachStateClass (depth : Nat) : Class StateMachineDefinitionForeachState :=
  .built { type := .ForEach } (StateMachineDefinitionForeachState.properties json depth)

/-- The class of inject states. -/
def injectStateClass : Class StateMachineDefinitionInjectState :=
  .built { type := .Inject } (StateMachineDefinitionInjectState.properties json)

/-- The constructor leaves `Type` at the value 0. -/
def operationStateClass (depth : Nat) : Class StateMachineDefinitionOperationState :=
  .built { type := .Event } (StateMachineDefinitionOperationState.properties json depth)

/-- The class of switch states. -/
def switchStateClass : Class StateMachineDefinitionSwitchState :=
  .built { type := .Switch } StateMachineDefinitionSwitchState.properties

/-- What is emitted of a state: the properties of its own class. -/
def DefinitionState.write (depth : Nat) : DefinitionState → Except SerializerException (List (String × YamlNode))
  | .callback state => (callbackStateClass json depth).write state
  | .event state => (eventStateClass json depth).write state
  | .forEach state => (foreachStateClass json depth).write state
  | .inject state => (injectStateClass json).write state
  | .operation state => (operationStateClass json depth).write state
  | .switch state => switchStateClass.write state

/-! ## `YamlWorkflowDefinitionStateConverter` -/

namespace YamlWorkflowDefinitionStateConverter

/-- `Build`, for the class that `MappingEnumToType` has for the type. -/
def build (depth : Nat) (stateEnum : StateMachineDefinitionStateTypes) (nodes : List (String × TreeNode)) :
    Except SerializerException (Option DefinitionState) :=
  match stateEnum with
  | .Callback => do return (← (callbackStateClass json depth).build nodes).map .callback
  | .Event => do return (← (eventStateClass json depth).build nodes).map .event
  | .ForEach => do return (← (foreachStateClass json depth).build nodes).map .forEach
  | .Inject => do return (← (injectStateClass json).build nodes).map .inject
  | .Operation => do return (← (operationStateClass json depth).build nodes).map .operation
  | .Switch => do return (← switchStateClass.build nodes).map .switch
  | .Sleep | .Parallel => throw .keyNotFound

/-- `ReadYaml`, after `Extract`. -/
def ofNodes (depth : Nat) (nodes : List (String × TreeNode)) : Except SerializerException DefinitionState :=
  match nodes.find? fun node => node.1 = "type" with
  | some (_, .property value) =>
    match stateTypes.values.find? fun v => some (toLowerInvariant (stateTypes.name v)) = value with
    | some stateEnum => do
      match ← build json depth stateEnum nodes with
      | some state => pure state
      -- There is a node, so that `Build` does not give null.
      | none => throw .nullReference
    | none => throw .invalidOperation
  | _ => throw .invalidOperation

/-- `ReadYaml`. -/
def readYaml (depth : Nat) (parser : List ParsingEvent) :
    Except SerializerException (DefinitionState × List ParsingEvent) := do
  let (nodes, rest) ← ParserExtensions.extract parser
  return (← ofNodes json depth nodes, rest)

end YamlWorkflowDefinitionStateConverter

/-- How a sequence of states is read: by the converter, up to the end of the sequence. A state takes an event at
least, so the events bound the states. -/
def readStates (depth : Nat) : Nat → List ParsingEvent → Except SerializerException (List DefinitionState)
  | 0, _ => throw .insufficientExecutionStack
  | _ + 1, .sequenceEnd :: _ => pure []
  | fuel + 1, parser => do
    let (state, parser) ← YamlWorkflowDefinitionStateConverter.readYaml json depth parser
    let states ← readStates depth fuel parser
    return state :: states

end Classes

end FaasNet.StateMachine
