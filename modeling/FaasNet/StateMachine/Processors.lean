import FaasNet.Lib.Methods
import FaasNet.StateMachine.Definitions
import FaasNet.StateMachine.StateData

/-!
# The processors of states

`ActionExecutor` and the six state processors. A processor works on the aggregate: it listens to events and marks them
as processed, and what it has done stays done when it throws; `BaseStateProcessor.Process` makes an answer of the
exception. Functions, JQ expressions and the JSON library are parameters. Tokens are values here: the code merges into a
token in place, but only into one that it has just read from a text.
-/

namespace FaasNet.StateMachine

open FaasNet.Lib FaasNet.Common FaasNet.Domain

/-! ## What is outside -/

/-- What a processor throws. -/
inductive ProcessorError where
  | nullReference
  | argument
  | argumentOutOfRange
  | invalidOperation
  | invalidCast
  | format
  | jsonReader
  | processorException (message : String)
  | instance (e : InstanceException)
  | external (message : String)
  deriving DecidableEq, Repr

/-- What the processors use of the JSON library, of JQ, and of the functions. A call of a function is told apart by where
it is made: two calls with the same arguments need not give the same. -/
structure RuntimeServices (J : Type) extends JsonNet J where
  /-- `JTokenExtensions.Transform` with a filter. -/
  transform : Filters J
  /-- `JTokenExtensions.CleanExpression`, and `JQ.EvalToToken`. -/
  cleanExpression : String → String
  evalToToken : String → Option J → Except String (Option J)
  /-- The property of an object, the items of an array, and an array of some items. -/
  property : J → String → Option J
  items : J → Option (List J)
  array : List (Option J) → J
  /-- `JArray.Add`, `JObject.Merge` with the union of arrays, and `JTokenExtensions.Merge` at a path. -/
  add : J → Option J → J
  mergeObject : J → Option J → J
  mergeAt : Option J → String → Option J → Except String J
  functionProcessors : StateMachineDefinitionTypes →
    Option (List Nat → Option J → StateMachineDefinitionFunction → StateMachineInstanceState → Except String (Option J))
  exceptionToString : ProcessorError → String

/-- A part of a processor: it works on the aggregate. -/
abbrev Handling := Method StateMachineInstanceAggregate ProcessorError

/-- A method of the aggregate. -/
def Handling.command (method : StateMachineInstanceAggregate → StateMachineInstanceAggregate × Except InstanceException Unit) :
    Handling Unit := fun aggregate =>
  match method aggregate with
  | (aggregate, .ok ()) => (aggregate, .ok ())
  | (aggregate, .error e) => (aggregate, .error (.instance e))

/-! ## Getters -/

namespace StateMachineDefinitionAggregate

/-- The function with a name. -/
def getFunction (definition : StateMachineDefinitionAggregate) (name : Option String) :
    Option StateMachineDefinitionFunction :=
  definition.functions.find? fun f => f.name = name

/-- The event with a name. -/
def getEvent (definition : StateMachineDefinitionAggregate) (name : Option String) : Option StateMachineDefinitionEvent :=
  definition.events.find? fun e => e.name = name

end StateMachineDefinitionAggregate

namespace StateMachineInstanceState

/-- The consumed event with a name. -/
def getConsumedEvt (state : StateMachineInstanceState) (name : Option String) : Option StateMachineInstanceStateEvent :=
  state.events.find? fun e => e.state = .CONSUMED ∧ e.name = name

/-- The consumed events with these names. -/
def getConsumedEvts (state : StateMachineInstanceState) (names : List (Option String)) :
    List StateMachineInstanceStateEvent :=
  state.events.filter fun e => e.state = .CONSUMED ∧ e.name ∈ names

/-- The processed events with these names. -/
def getProcessedEvts (state : StateMachineInstanceState) (names : List (Option String)) :
    List StateMachineInstanceStateEvent :=
  state.events.filter fun e => e.state = .PROCESSED ∧ e.name ∈ names

/-- All events with these names are in a state. -/
def isAllEvts (state : StateMachineInstanceState) (names : List (Option String))
    (eventState : StateMachineInstanceStateEventStates) : Bool :=
  names.all fun name => state.events.any fun e => e.name = name ∧ e.state = eventState

/-- The event with a name is consumed. -/
def isEvtConsumed (state : StateMachineInstanceState) (name : Option String) : Bool := state.isAllEvts [name] .CONSUMED

/-- All events with these names are consumed. -/
def isAllEvtsConsumed (state : StateMachineInstanceState) (names : List (Option String)) : Bool :=
  state.isAllEvts names .CONSUMED

/-- All events with these names are processed. -/
def isAllEvtsProcessed (state : StateMachineInstanceState) (names : List (Option String)) : Bool :=
  state.isAllEvts names .PROCESSED

end StateMachineInstanceState

namespace RuntimeServices

section
variable {J : Type} (services : RuntimeServices J)

/-- `GetInput`, with its exception. -/
def getInput (state : StateMachineInstanceState) : Except ProcessorError (Option J) :=
  (services.toRuntimeJson.getInput state).elim (.error .jsonReader) .ok

/-- `GetInputDataObj` of an event: null for an empty text. -/
def getInputDataObj (evt : StateMachineInstanceStateEvent) : Except ProcessorError (Option J) :=
  match evt.inputData with
  | none => .ok none
  | some text => if text = "" then .ok none else (services.parse text).elim (.error .jsonReader) (.ok ∘ some)

/-- `GetOutputDataObj` of an event: null for a blank text. -/
def getOutputDataObj (evt : StateMachineInstanceStateEvent) : Except ProcessorError (Option J) :=
  (services.get? evt.outputData).elim (.error .jsonReader) .ok

/-- `Transform` with a filter that may be blank. -/
def transformed (input : Option J) (filter : Option String) : Except ProcessorError (Option J) :=
  (services.transform.transform input filter).elim (.error (.external "")) .ok

/-- `JTokenExtensions.Merge(jObj, token)`. -/
def mergeToken (jObj token : Option J) : Except ProcessorError (Option J) :=
  match jObj with
  | none => .error .nullReference
  | some jObj =>
    match services.type jObj with
    | .Array => .ok (some (services.add jObj token))
    | .Object => .ok (some (services.mergeObject jObj token))
    | _ => .ok (some jObj)

/-- `JTokenExtensions.Merge(jObj, targetPath, token)`. -/
def mergePath (jObj : Option J) (targetPath : Option String) (token : Option J) : Except ProcessorError (Option J) :=
  if isNullOrWhiteSpace targetPath then services.mergeToken jObj token
  else ((services.mergeAt jObj (targetPath.getD "") token).map some).mapError .external

/-- `JTokenExtensions.Merge(jObj, dataObj, data, toState)`. -/
def mergeData (jObj dataObj : Option J) (data toState : Option String) : Except ProcessorError (Option J) :=
  if isNullOrWhiteSpace data then services.mergePath jObj toState dataObj
  else do
    match ← services.transformed dataObj data with
    | none => return jObj
    | some record => services.mergePath jObj toState (some record)

/-- `Topic` of the definition of an event. -/
def topic (evt : StateMachineDefinitionEvent) : Except ProcessorError (Option String) :=
  if isNullOrWhiteSpace evt.metadataStr then .ok none
  else (services.parseObject (evt.metadataStr.getD "")).elim (.error .jsonReader) fun metadata =>
    .ok ((services.property metadata "topic").map services.toText)

/-- `bool.Parse`. -/
def parseBool (text : String) : Except ProcessorError Bool :=
  let trimmed := String.ofList ((text.toList.dropWhile isWhiteSpace).reverse.dropWhile isWhiteSpace).reverse
  if trimmed.toLower = "true" then .ok true else if trimmed.toLower = "false" then .ok false else .error .format

/-- `EvaluateCondition`. -/
def evaluateCondition (state : StateMachineInstanceState) (expression : Option String) : Except ProcessorError Bool := do
  match expression with
  | none => throw .argument
  | some expression =>
    match ← (services.evalToToken (services.cleanExpression expression) (← services.getInput state)).mapError .external with
    | none => throw .nullReference
    | some token => parseBool (services.toText token)

end

end RuntimeServices

/-! ## `ActionExecutor` -/

/-- What the commands of a processor read from outside, and the elements of a parallel loop whose calls have been
completed when it returns, in the order of that. -/
structure HandlingEnv where
  listen : Nat → Nat → InstanceEnv
  process : Nat → InstanceEnv
  finished : List Nat

/-- `StateMachineInstanceExecutionContext`, without the definition of the state. -/
structure ExecutionContext (J : Type) where
  services : RuntimeServices J
  workflowDef : StateMachineDefinitionAggregate
  stateInstance : StateMachineInstanceState
  env : HandlingEnv

namespace ActionExecutor

section
variable {J : Type} (context : ExecutionContext J)

/-- The name of a type of functions. -/
def typeName : StateMachineDefinitionTypes → String
  | .REST => "REST"
  | .ASYNCAPI => "ASYNCAPI"
  | .RPC => "RPC"
  | .GRAPHSQL => "GRAPHSQL"
  | .ODATA => "ODATA"
  | .EXPRESSION => "EXPRESSION"
  | .CUSTOM => "CUSTOM"

/-- The function that an action calls. -/
def functionRef : StateMachineDefinitionAction → Option StateMachineDefinitionFunctionRef
  | .mk _ functionRef _ _ => functionRef

/-- The filter of an action. -/
def actionDataFilter : StateMachineDefinitionAction → Option StateMachineDefinitionActionDataFilter
  | .mk _ _ actionDataFilter _ => actionDataFilter

/-- The arguments of a function, with the input put into their expressions. -/
def getInput (functionRef : StateMachineDefinitionFunctionRef) (filter : Option StateMachineDefinitionActionDataFilter)
    (inputState : Option J) : Except ProcessorError (Option J) := do
  let inputState ← context.services.transformed inputState (filter.bind (·.fromStateData))
  context.services.transformed inputState functionRef.argumentsStr

/-- One action of `ExecuteActions`; `call` says where it is called. -/
def executeAction (call : List Nat) (state : StateMachineInstanceState) (input : Option J)
    (action : StateMachineDefinitionAction) : Except ProcessorError (Option J) :=
  match functionRef action with
  | none => .error .nullReference
  | some ref =>
    match context.workflowDef.getFunction ref.refName with
    | none => .error (.processorException ("the workflow definition " ++ ref.refName.getD "" ++ " doesn't exist"))
    | some function =>
      match context.services.functionProcessors function.type with
      | none => .error (.processorException ("there is no processor for the function " ++ typeName function.type))
      | some functionProcessor => do
        let functionInput ← getInput context ref (actionDataFilter action) input
        (functionProcessor call functionInput function state).mapError .external

/-- `ExecuteActions`: the results, in the order in which they are added to the dictionary. The action mode is not
looked at. -/
def executeActions (call : List Nat) (state : StateMachineInstanceState) (input : Option J)
    (actions : List StateMachineDefinitionAction) :
    Except ProcessorError (List (StateMachineDefinitionAction × Option J)) :=
  actions.zipIdx.mapM fun (action, k) => (executeAction context (call ++ [k]) state input action).map fun result =>
    (action, result)

/-- The result of an action is merged into the output, as its filter says. -/
def enrichOutputState (outputState : Option J) (kvp : StateMachineDefinitionAction × Option J) :
    Except ProcessorError (Option J) := do
  let filter := actionDataFilter kvp.1
  if filter.elim true (·.useResults) then
    match ← context.services.transformed kvp.2 (filter.bind (·.results)) with
    | none => return outputState
    | some inputToken => context.services.mergePath outputState (filter.bind (·.toStateData)) (some inputToken)
  else return outputState

/-- The actions are executed, and their results are merged into the input. -/
def executeAndMerge (call : List Nat) (state : StateMachineInstanceState) (input : Option J)
    (actions : List StateMachineDefinitionAction) : Except ProcessorError (Option J) := do
  let dic ← executeActions context call state input actions
  dic.foldlM (enrichOutputState context) input

/-- The actions are executed, and their results are the items of an array, unless there is one only. -/
def executeAndConcatenate (call : List Nat) (state : StateMachineInstanceState) (input : Option J)
    (actions : List StateMachineDefinitionAction) : Except ProcessorError (Option J) := do
  match (← executeActions context call state input actions).map (·.2) with
  | [] => throw .invalidOperation
  | [record] => return record
  | records => return some (context.services.array records)

end

end ActionExecutor

/-! ## State processors -/

namespace ExecutionContext

section
variable {J : Type} (context : ExecutionContext J)

/-- `StateInstance`, as it is now. -/
def current : Handling StateMachineInstanceState := do
  let aggregate ← Method.read
  return (aggregate.state.getState (some context.stateInstance.id)).getD context.stateInstance

/-- `ListenEvt` for an event of the definition. -/
def listenEvt (env : InstanceEnv) (evt : StateMachineDefinitionEvent) : Handling Unit := do
  let topic ← Method.of (context.services.topic evt)
  Handling.command fun aggregate => StateMachineInstanceAggregate.listenEvt context.services.toJTokens aggregate env
    (some context.stateInstance.id) evt.name evt.source evt.type topic

/-- `ProcessEvent`, with the text of a token that may be null. -/
def processEvent (env : InstanceEnv) (evtName : Option String) (output : Option J) : Handling Unit :=
  match output with
  | none => Method.throw .nullReference
  | some output =>
    Handling.command fun aggregate => StateMachineInstanceAggregate.processEvent context.services.toJTokens aggregate env
      (some context.stateInstance.id) evtName (some (context.services.toText output))

/-- `ApplyEventDataFilter`. -/
def applyEventDataFilter (inputStateInstance : Option J) (eventDataFilter : Option StateMachineDefinitionEventDataFilter)
    (stateEvtInstance : StateMachineInstanceStateEvent) : Except ProcessorError (Option J) := do
  match eventDataFilter with
  | none => return inputStateInstance
  | some filter =>
    if filter.useData then
      let data ← context.services.getInputDataObj stateEvtInstance
      context.services.mergeData inputStateInstance data filter.data filter.toStateData
    else return inputStateInstance

end

end ExecutionContext

/-- `BaseFlowableStateProcessor.Ok`. -/
def BaseStateMachineFlowableState.ok {J : Type} (stateDef : BaseStateMachineFlowableState) (jObj : Option J) :
    StateProcessorResult J :=
  if stateDef.isEnd then .end jObj else .next jObj stateDef.transition

/-- `Ok` of the switch processor. -/
def BaseEventCondition.ok {J : Type} (evtCondition : BaseEventCondition) (result : Option J) : StateProcessorResult J :=
  if evtCondition.isEnd then .end result else .next result evtCondition.transition

/-! ### `EventStateProcessor` -/

namespace EventStateProcessor

section
variable {J : Type} (context : ExecutionContext J)

/-- `onEvent.EventRefs.Select(GetEvent).Where(Consumed)`, each of them listened to. -/
def listenEvents (group : Nat) (onEvent : StateMachineDefinitionOnEvent) : Handling Unit :=
  Method.forEach (fun (ref, k) => match context.workflowDef.getEvent ref with
    | none => Method.throw .nullReference
    | some evt => if evt.kind = .Consumed then context.listenEvt (context.env.listen group k) evt else pure ())
    onEvent.eventRefs.zipIdx

/-- What is done for one event of `ProcessOnEvent`. -/
def processOne (group : Nat) (state : StateMachineInstanceState) (onEvent : StateMachineDefinitionOnEvent)
    (evt : StateMachineInstanceStateEvent × Nat) : Except ProcessorError (Option String × Option J) := do
  match (onEvent.eventRefs.findIdx? fun ref => ref = evt.1.name).bind fun index => onEvent.actions[index]? with
  | none => throw .argumentOutOfRange
  | some action =>
    let input ← context.services.getInputDataObj evt.1
    let content ← ActionExecutor.executeAndMerge context [group, evt.2] state input [action]
    return (evt.1.name, content)

/-- The actions are executed for each consumed event. -/
def processOnEvent (group : Nat) (state : StateMachineInstanceState) (onEvent : StateMachineDefinitionOnEvent) :
    Except ProcessorError (List (Option String × Option J)) :=
  (state.getConsumedEvts onEvent.eventRefs).zipIdx.mapM (processOne context group state onEvent)

/-- The first loop of `ConsumeEvents`, for one group. -/
def consumeGroup (eventState : StateMachineDefinitionEventState) (onEvent : StateMachineDefinitionOnEvent × Nat) :
    Handling (List (Option String × Option J)) := do
  listenEvents context onEvent.2 onEvent.1
  let state ← context.current
  if eventState.exclusive ∨ state.isAllEvtsConsumed onEvent.1.eventRefs then
    Method.of (processOnEvent context onEvent.2 state onEvent.1)
  else return []

/-- The second loop: the results are kept. -/
def processEvents (consumedResult : List (Option String × Option J)) : Handling Unit :=
  Method.forEach (fun (consumedEvt, k) => context.processEvent (context.env.process k) consumedEvt.1 consumedEvt.2)
    consumedResult.zipIdx

/-- The groups of events are consumed, then their results are processed. -/
def consumeEvents (eventState : StateMachineDefinitionEventState) : Handling Unit := do
  let consumedResult ← Method.mapEach (consumeGroup context eventState) eventState.onEvents.zipIdx
  processEvents context consumedResult.flatten

/-- The outputs of the events of a group are merged into the output. -/
def mergeGroup (state : StateMachineInstanceState) (output : Option J) (onEvent : StateMachineDefinitionOnEvent) :
    Except ProcessorError (Option J) :=
  if onEvent.eventDataFilter.elim false (!·.useData) then .ok output
  else (state.getProcessedEvts onEvent.eventRefs).foldlM (fun output processedEvt => do
    let data ← context.services.getOutputDataObj processedEvt
    context.services.mergeData output data (onEvent.eventDataFilter.bind (·.data))
      (onEvent.eventDataFilter.bind (·.toStateData))) output

/-- `TryGetOutput`; the output is `none` where it returns false. -/
def tryGetOutput (eventState : StateMachineDefinitionEventState) (state : StateMachineInstanceState) :
    Except ProcessorError (Option (Option J)) := do
  let input ← context.services.getInput state
  let complete := eventState.onEvents.filter fun onEvent => state.isAllEvtsProcessed onEvent.eventRefs
  let output ← complete.foldlM (mergeGroup context state) input
  return if complete.isEmpty then none else some output

/-- `Handle` of an event state. -/
def handle (eventState : StateMachineDefinitionEventState) : Handling (StateProcessorResult J) := do
  consumeEvents context eventState
  let state ← context.current
  match ← Method.of (tryGetOutput context eventState state) with
  | some output => return eventState.ok output
  | none => return .block

end

end EventStateProcessor

/-! ### The other processors -/

section
variable {J : Type} (context : ExecutionContext J)

namespace CallbackEventStateProcessor

/-- `Handle` of a callback state. -/
def handle (callbackState : StateMachineDefinitionCallbackState) : Handling (StateProcessorResult J) := do
  match context.workflowDef.getEvent callbackState.eventRef with
  | none => Method.throw .nullReference
  | some evtDef =>
    context.listenEvt (context.env.listen 0 0) evtDef
    let state ← context.current
    match state.getConsumedEvts [callbackState.eventRef] with
    | [] => return .block
    | consumedEvt :: _ =>
      let input ← Method.of (context.services.getInput state)
      let output ← Method.of (context.applyEventDataFilter input callbackState.eventDataFilter consumedEvt)
      match callbackState.action with
      | none => Method.throw .nullReference
      | some action =>
        let result ← Method.of (ActionExecutor.executeAndMerge context [] state output [action])
        return callbackState.ok result

end CallbackEventStateProcessor

namespace ForeachStateProcessor

/-- `ParallelOptions.MaxDegreeOfParallelism`, which takes no other values. -/
def validBatchSize (batchSize : Option Int32) : Bool :=
  batchSize.elim true fun batchSize => batchSize = -1 ∨ 0 < batchSize

/-- The call for one element. -/
def callback (foreachState : StateMachineDefinitionForeachState) (state : StateMachineInstanceState) (token : J × Nat) :
    Except ProcessorError (Option J) :=
  ActionExecutor.executeAndConcatenate context [token.2] state (some token.1) foreachState.actions

/-- `Parallel.ForEach` with an asynchronous callback: it goes on when every call has been begun, and has the records of
those that were completed by then. What a call throws comes to nobody. -/
def parallelRecords (foreachState : StateMachineDefinitionForeachState) (state : StateMachineInstanceState) (tokens : List J) :
    List (Option J) :=
  context.env.finished.filterMap fun k => tokens[k]?.bind fun token =>
    (callback context foreachState state (token, k)).toOption

/-- The loop over the elements. -/
def records (foreachState : StateMachineDefinitionForeachState) (state : StateMachineInstanceState)
    (tokens : Option (List J)) : Except ProcessorError (List (Option J)) :=
  match foreachState.mode with
  | .Sequential => tokens.elim (.error .nullReference) fun tokens => tokens.zipIdx.mapM (callback context foreachState state)
  | .Parallel =>
    if validBatchSize foreachState.batchSize then
      tokens.elim (.error .argument) fun tokens => .ok (parallelRecords context foreachState state tokens)
    else .error .argumentOutOfRange

/-- `Handle` of a loop. -/
def handle (foreachState : StateMachineDefinitionForeachState) : Handling (StateProcessorResult J) := do
  let state ← context.current
  let input ← Method.of (context.services.getInput state)
  if isNullOrWhiteSpace foreachState.inputCollection then return foreachState.ok input
  else
    let inputCollection := context.services.cleanExpression (foreachState.inputCollection.getD "")
    let value ← Method.of ((context.services.evalToToken inputCollection input).mapError .external)
    let result ← Method.of (records context foreachState state (value.bind context.services.items))
    return foreachState.ok (some (context.services.array result))

end ForeachStateProcessor

namespace InjectStateProcessor

/-- `Data` of the state. -/
def data (services : RuntimeServices J) (injectState : StateMachineDefinitionInjectState) : Except ProcessorError (Option J) :=
  if isNullOrWhiteSpace injectState.dataStr then .ok none
  else (services.parseObject (injectState.dataStr.getD "")).elim (.error .jsonReader) (.ok ∘ some)

/-- `Handle` of an inject state. -/
def handle (injectState : StateMachineDefinitionInjectState) : Handling (StateProcessorResult J) := do
  let data ← Method.of (data context.services injectState)
  return injectState.ok data

end InjectStateProcessor

namespace OperationStateProcessor

/-- `Handle` of an operation state. -/
def handle (operationState : StateMachineDefinitionOperationState) : Handling (StateProcessorResult J) := do
  let state ← context.current
  let input ← Method.of (context.services.getInput state)
  let result ← Method.of (ActionExecutor.executeAndMerge context [] state input operationState.actions)
  return operationState.ok result

end OperationStateProcessor

namespace SwitchStateProcessor

/-- `Cast` of all conditions to the one class. -/
def castData (conditions : List EventCondition) : Except ProcessorError (List StateMachineDefinitionSwitchDataCondition) :=
  conditions.mapM fun
    | .data condition => .ok condition
    | .event _ => .error .invalidCast

/-- The conditions as event conditions, if all are. -/
def castEvent (conditions : List EventCondition) : Except ProcessorError (List StateMachineDefinitionSwitchEventCondition) :=
  conditions.mapM fun
    | .event condition => .ok condition
    | .data _ => .error .invalidCast

/-- `TryCheck` of data conditions. -/
def tryCheckData (state : StateMachineInstanceState) :
    List StateMachineDefinitionSwitchDataCondition →
      Except ProcessorError (Option StateMachineDefinitionSwitchDataCondition)
  | [] => .ok none
  | condition :: conditions => do
    if ← context.services.evaluateCondition state condition.condition then return some condition
    else tryCheckData state conditions

/-- `TryCheck` of event conditions: it listens to the events until it finds a consumed one. -/
def tryCheckEvent : List (StateMachineDefinitionSwitchEventCondition × Nat) →
    Handling (Option (StateMachineDefinitionSwitchEventCondition × StateMachineInstanceStateEvent))
  | [] => pure none
  | (condition, k) :: conditions => do
    match context.workflowDef.getEvent condition.eventRef with
    | none => Method.throw .nullReference
    | some evt =>
      context.listenEvt (context.env.listen 0 k) evt
      let state ← context.current
      match state.getConsumedEvt evt.name with
      | some stateEvt => return some (condition, stateEvt)
      | none => tryCheckEvent conditions

/-- The type of a condition. -/
def conditionType : EventCondition → StateMachineDefinitionEventConditionTypes
  | .data condition => condition.conditionType
  | .event condition => condition.conditionType

/-- `Handle` of a switch state. -/
def handle (switchState : StateMachineDefinitionSwitchState) : Handling (StateProcessorResult J) := do
  if switchState.conditions.any fun c => conditionType c = .DATA then
    let conditions ← Method.of (castData switchState.conditions)
    let state ← context.current
    match ← Method.of (tryCheckData context state conditions) with
    | some result =>
      let input ← Method.of (context.services.getInput state)
      return result.ok input
    | none => return .block
  else
    let conditions ← Method.of (castEvent switchState.conditions)
    match ← tryCheckEvent context conditions.zipIdx with
    | some (result, stateEvt) =>
      let state ← context.current
      let input ← Method.of (context.services.getInput state)
      let output ← Method.of (context.applyEventDataFilter input result.eventDataFilter stateEvt)
      context.processEvent (context.env.process 0) stateEvt.name output
      return result.ok output
    | none => return .block

end SwitchStateProcessor

/-- The processor that a state is run by; a state of another class is none for it. -/
def handle (state : DefinitionState) : Handling (StateProcessorResult J) :=
  match state.base.type, state with
  | .Event, .event state => EventStateProcessor.handle context state
  | .Inject, .inject state => InjectStateProcessor.handle context state
  | .Operation, .operation state => OperationStateProcessor.handle context state
  | .Switch, .switch state => SwitchStateProcessor.handle context state
  | .ForEach, .forEach state => ForeachStateProcessor.handle context state
  | .Callback, .callback state => CallbackEventStateProcessor.handle context state
  | _, _ => Method.throw .nullReference

/-- `BaseStateProcessor.Process`: what is thrown is answered. -/
def process (state : DefinitionState) (aggregate : StateMachineInstanceAggregate) :
    StateMachineInstanceAggregate × StateProcessorResult J :=
  match handle context state aggregate with
  | (aggregate, .ok result) => (aggregate, result)
  | (aggregate, .error e) => (aggregate, .error (some (context.services.exceptionToString e)))

end

/-! ## The processors of a definition -/

/-- The ways on from a state. -/
def DefinitionState.flows : DefinitionState → List Flow
  | .callback state => [⟨state.isEnd, state.transition⟩]
  | .event state => [⟨state.isEnd, state.transition⟩]
  | .forEach state => [⟨state.isEnd, state.transition⟩]
  | .inject state => [⟨state.isEnd, state.transition⟩]
  | .operation state => [⟨state.isEnd, state.transition⟩]
  | .switch state => state.conditions.map fun
    | .data condition => ⟨condition.isEnd, condition.transition⟩
    | .event condition => ⟨condition.isEnd, condition.transition⟩

/-- What the engine uses of a state. -/
def DefinitionState.launched (state : DefinitionState) : StateMachineDefinitionState where
  id := state.base.id.getD ""
  type := state.base.type
  stateDataFilterInput := state.base.stateDataFilterInput
  stateDataFilterOutput := state.base.stateDataFilterOuput
  flows := state.flows

/-- The registered processors, for the states of a definition. -/
def stateProcessors {J : Type} (services : RuntimeServices J) (workflowDef : StateMachineDefinitionAggregate)
    (envs : Nat → HandlingEnv) : Processors J := fun n d stateInstance aggregate =>
  match workflowDef.states.find? fun state => state.launched = d with
  | none => (aggregate, .error none)
  | some state => process ⟨services, workflowDef, stateInstance, envs n⟩ state aggregate

end FaasNet.StateMachine
