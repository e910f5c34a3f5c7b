import FaasNet.Lib.JsonText
import FaasNet.StateDiagram.Model

/-!
# The classes of a machine in the stores

What `getJson` of each class writes and `build` reads. `undefined`, and a key that is not written, is `none`. Where the
keys of the JSON are the fields of the class, one record serves for both. A value that is `any` is a JSON value.
-/

namespace FaasNet.StateDiagram.Stores

open FaasNet.Lib

section
variable {N : Type*} [Zero N] [DecidableEq N]

/-- What a value is as a condition. -/
def isTruthy : Option (Json N) → Bool
  | none | some .null => false
  | some (.boolean value) => value
  | some (.number value) => value ≠ 0
  | some (.string value) => value ≠ []
  | some (.array _) | some (.object _) => true

/-- `Object.keys(value).length > 0`. -/
def hasKeys : Option (Json N) → Bool
  | some (.string value) => value ≠ []
  | some (.array items) => items ≠ []
  | some (.object members) => members ≠ []
  | _ => false

end

/-- A text that is written or read only if it is a condition. -/
def given (text : Option String) : Option String := if truthy text then text else none

/-- A value that is written or read only if it is a condition. -/
def givenValue {N : Type*} [Zero N] [DecidableEq N] (value : Option (Json N)) : Option (Json N) :=
  if isTruthy value then value else none

/-! ## Filters -/

structure StateDataFilter where
  input : Option String := some ""
  output : Option String := some ""
  deriving DecidableEq

def StateDataFilter.getJson (f : StateDataFilter) : StateDataFilter where
  input := given f.input
  output := given f.output

def StateDataFilter.build (json : StateDataFilter) : StateDataFilter where
  input := if truthy json.input then json.input else some ""
  output := if truthy json.output then json.output else some ""

structure EventDataFilter where
  useData : Option Bool := some true
  data : Option String := none
  toStateData : Option String := none
  deriving DecidableEq

structure EventDataFilterJson where
  useResults : Option Bool := none
  useData : Option Bool := none
  data : Option String := none
  toStateData : Option String := none
  deriving DecidableEq

/-- It is written under another name than it is read. -/
def EventDataFilter.getJson (f : EventDataFilter) : EventDataFilterJson where
  useResults := f.useData
  data := given f.data
  toStateData := given f.toStateData

def EventDataFilterJson.build (json : EventDataFilterJson) : EventDataFilter where
  useData := json.useData
  data := given json.data
  toStateData := given json.toStateData

/-! ## Transitions -/

structure EventCondition where
  eventRef : Option String := some ""
  transition : Option String := some ""
  eventDataFilter : Option EventDataFilter := none
  deriving DecidableEq

structure EventConditionJson where
  eventRef : Option String := none
  transition : Option String := none
  eventDataFilter : Option EventDataFilterJson := none
  deriving DecidableEq

def EventCondition.getJson (c : EventCondition) : EventConditionJson where
  eventRef := c.eventRef
  transition := c.transition
  eventDataFilter := c.eventDataFilter.map (·.getJson)

def EventConditionJson.build (json : EventConditionJson) : EventCondition where
  eventRef := json.eventRef
  transition := json.transition
  eventDataFilter := json.eventDataFilter.map (·.build)

def dataConditionJson (c : DataCondition) : DataCondition where
  name := c.name
  condition := given c.condition
  transition := c.transition

/-- `DataCondition.build`: the condition is set once more, whether it is one or not. -/
def buildDataCondition (json : DataCondition) : DataCondition where
  name := json.name
  condition := json.condition
  transition := json.transition

/-! ## States -/

/-- The fields of `StateMachineState`. -/
structure StateFields where
  id : Option String := none
  name : Option String := none
  isEnd : Option Bool := some false
  stateDataFilter : Option StateDataFilter := none
  deriving DecidableEq

structure InjectStateMachineState (N : Type*) extends StateFields where
  transition : Option String := some ""
  data : Option (Json N) := some .null

structure OperationActionFunctionRef (N : Type*) where
  refName : Option String := none
  arguments : Option (Json N) := none

structure ActionDataFilter where
  useResults : Option Bool := some true
  results : Option String := none
  toStateData : Option String := none
  deriving DecidableEq

structure OperationAction (N : Type*) where
  name : Option String := none
  functionRef : Option (OperationActionFunctionRef N) := none
  actionDataFilter : Option ActionDataFilter := none

structure OperationStateMachineState (N : Type*) extends StateFields where
  transition : Option String := some ""
  actionMode : Option String := some "sequential"
  actions : List (OperationAction N) := []

structure ForeachStateMachineState extends StateFields where
  transition : Option String := some ""
  deriving DecidableEq

structure SwitchStateMachineState extends StateFields where
  switchType : SwitchTypes := .event
  eventConditions : List EventCondition := []
  dataConditions : List DataCondition := []
  defaultCondition : Option EmptyTransition := none
  deriving DecidableEq

inductive StateMachineState (N : Type*) where
  | inject (state : InjectStateMachineState N)
  | operation (state : OperationStateMachineState N)
  | foreach (state : ForeachStateMachineState)
  | switch (state : SwitchStateMachineState)

/-- A state of the JSON text. -/
structure StateJson (N : Type*) where
  type : String
  id : Option String := none
  name : Option String := none
  isEnd : Option Bool := none
  stateDataFilter : Option StateDataFilter := none
  transition : Option String := none
  data : Option (Json N) := none
  actionMode : Option String := none
  actions : Option (List (OperationAction N)) := none
  eventConditions : Option (List EventConditionJson) := none
  dataConditions : Option (List DataCondition) := none
  defaultCondition : Option EmptyTransition := none

/-- `StateDataFilter.build` of what may be `undefined`. -/
def buildFilter (json : Option StateDataFilter) : Option StateDataFilter := json.map (·.build)

section
variable {N : Type*} [Zero N] [DecidableEq N]

def InjectStateMachineState.getJson (s : InjectStateMachineState N) : StateJson N where
  id := s.id
  name := s.name
  type := "inject"
  isEnd := s.isEnd
  transition := given s.transition
  stateDataFilter := s.stateDataFilter.map (·.getJson)
  data := if isTruthy s.data && hasKeys s.data then s.data else none

def OperationActionFunctionRef.getJson (r : OperationActionFunctionRef N) : OperationActionFunctionRef N where
  refName := r.refName
  arguments := givenValue r.arguments

def OperationActionFunctionRef.build (json : OperationActionFunctionRef N) : OperationActionFunctionRef N where
  refName := json.refName
  arguments := givenValue json.arguments

def ActionDataFilter.getJson (f : ActionDataFilter) : ActionDataFilter where
  useResults := f.useResults
  results := given f.results
  toStateData := given f.toStateData

def ActionDataFilter.build (json : ActionDataFilter) : ActionDataFilter where
  useResults := json.useResults
  results := given json.results
  toStateData := given json.toStateData

def OperationAction.getJSON (a : OperationAction N) : OperationAction N where
  name := a.name
  functionRef := a.functionRef.map (·.getJson)
  actionDataFilter := a.actionDataFilter.map (·.getJson)

def OperationAction.build (json : OperationAction N) : OperationAction N where
  name := json.name
  functionRef := json.functionRef.map (·.build)
  actionDataFilter := json.actionDataFilter.map (·.build)

def OperationStateMachineState.getJson (s : OperationStateMachineState N) : StateJson N where
  id := s.id
  name := s.name
  stateDataFilter := s.stateDataFilter.map (·.getJson)
  type := "operation"
  actionMode := s.actionMode
  isEnd := s.isEnd
  actions := some (s.actions.map (·.getJSON))
  transition := given s.transition

def ForeachStateMachineState.getJson (s : ForeachStateMachineState) : StateJson N where
  id := s.id
  name := s.name
  stateDataFilter := s.stateDataFilter.map (·.getJson)
  type := "foreach"
  isEnd := s.isEnd
  transition := given s.transition

def SwitchStateMachineState.getJson (s : SwitchStateMachineState) : StateJson N where
  id := s.id
  name := s.name
  type := "switch"
  isEnd := s.isEnd
  defaultCondition := s.defaultCondition.filter fun d => truthy d.transition
  stateDataFilter := s.stateDataFilter.map (·.getJson)
  eventConditions := if s.eventConditions = [] then none else some (s.eventConditions.map (·.getJson))
  dataConditions := if s.dataConditions = [] then none else some (s.dataConditions.map dataConditionJson)

def StateMachineState.getJson : StateMachineState N → StateJson N
  | inject s => s.getJson
  | operation s => s.getJson
  | foreach s => s.getJson
  | switch s => s.getJson

namespace StateJson

def buildInject (s : StateJson N) : InjectStateMachineState N where
  id := s.id
  data := if isTruthy s.data then s.data else some .null
  transition := s.transition
  name := s.name
  isEnd := s.isEnd
  stateDataFilter := buildFilter s.stateDataFilter

/-- The type of the switch is not among what is read. -/
def buildSwitch (s : StateJson N) : SwitchStateMachineState where
  id := s.id
  name := s.name
  isEnd := s.isEnd
  stateDataFilter := buildFilter s.stateDataFilter
  eventConditions := (s.eventConditions.getD []).map (·.build)
  dataConditions := (s.dataConditions.getD []).map buildDataCondition
  defaultCondition := s.defaultCondition

def buildOperation (s : StateJson N) : OperationStateMachineState N where
  id := s.id
  name := s.name
  isEnd := s.isEnd
  transition := s.transition
  actionMode := s.actionMode
  stateDataFilter := buildFilter s.stateDataFilter
  actions := (s.actions.getD []).map (·.build)

/-- The filter is not among what is read. -/
def buildForeach (s : StateJson N) : ForeachStateMachineState where
  id := s.id
  name := s.name
  isEnd := s.isEnd
  transition := s.transition

/-- The state that `build` makes; a type that it does not know gives `undefined`. -/
def build (s : StateJson N) : Option (StateMachineState N) :=
  match s.type with
  | "inject" => some (.inject s.buildInject)
  | "switch" => some (.switch s.buildSwitch)
  | "operation" => some (.operation s.buildOperation)
  | "foreach" => some (.foreach s.buildForeach)
  | _ => none

end StateJson

end

/-! ## `StateMachineModel` -/

structure StartStateMachineModel where
  stateName : Option String := none
  schedule : Option String := none
  deriving DecidableEq

def StartStateMachineModel.build (json : StartStateMachineModel) : StartStateMachineModel where
  stateName := given json.stateName
  schedule := given json.schedule

structure StateMachineFunction (N : Type*) where
  name : Option String := none
  type : Option String := none
  operation : Option String := none
  metadata : Option (Json N) := none

structure StateMachineEvent (N : Type*) where
  name : Option String := some ""
  type : Option String := some ""
  source : Option String := some ""
  kind : Option String := some ""
  metadata : Option (Json N) := none

structure StateMachineModel (N : Type*) where
  id : Option String := none
  name : Option String := none
  description : Option String := none
  version : Option String := none
  specVersion : Option String := none
  applicationDomainId : Option String := none
  vpn : Option String := some ""
  start : Option StartStateMachineModel := none
  states : List (StateMachineState N) := []
  functions : List (StateMachineFunction N) := []
  events : List (StateMachineEvent N) := []

structure StateMachineModelJson (N : Type*) where
  id : Option String := none
  name : Option String := none
  description : Option String := none
  version : Option String := none
  specVersion : Option String := none
  applicationDomainId : Option String := none
  vpn : Option String := none
  start : Option StartStateMachineModel := none
  states : List (StateJson N) := []
  functions : Option (List (StateMachineFunction N)) := none
  events : Option (List (StateMachineEvent N)) := none

section
variable {N : Type*} [Zero N] [DecidableEq N]

def StateMachineFunction.getJson (f : StateMachineFunction N) : StateMachineFunction N where
  name := f.name
  type := f.type
  operation := f.operation
  metadata := givenValue f.metadata

def StateMachineFunction.build (toLowerCase : String → String) (json : StateMachineFunction N) :
    StateMachineFunction N where
  name := json.name
  type := (given json.type).map toLowerCase
  operation := json.operation
  metadata := json.metadata

def StateMachineEvent.getJson (e : StateMachineEvent N) : StateMachineEvent N where
  name := e.name
  type := e.type
  source := e.source
  kind := e.kind
  metadata := givenValue e.metadata

/-- Without a kind, the call of `toLowerCase` throws. -/
def StateMachineEvent.build (toLowerCase : String → String) (json : StateMachineEvent N) :
    Option (StateMachineEvent N) :=
  json.kind.map fun kind =>
    { name := json.name
      type := json.type
      source := json.source
      kind := some (toLowerCase kind)
      metadata := givenValue json.metadata }

/-- The events that are written. -/
def StateMachineEvent.isWritten (e : StateMachineEvent N) : Bool := truthy e.name && truthy e.source && truthy e.type

def StateMachineModel.getJson (m : StateMachineModel N) : StateMachineModelJson N where
  id := m.id
  version := m.version
  name := m.name
  description := m.description
  specVersion := m.specVersion
  start := m.start
  states := m.states.map (·.getJson)
  events :=
    let filteredEvts := m.events.filter (·.isWritten)
    if filteredEvts.isEmpty then none else some (filteredEvts.map (·.getJson))
  functions := if m.functions.isEmpty then none else some (m.functions.map (·.getJson))

/-- `StateMachineModel.build`, where it does not throw and gives states only. -/
def StateMachineModelJson.build (toLowerCase : String → String) (json : StateMachineModelJson N) :
    Option (StateMachineModel N) := do
  let states ← json.states.mapM (·.build)
  let events ← (json.events.getD []).mapM (·.build toLowerCase)
  return {
    id := json.id
    applicationDomainId := json.applicationDomainId
    vpn := json.vpn
    name := json.name
    description := json.description
    version := json.version
    specVersion := json.specVersion
    start := json.start.map (·.build)
    states := states
    functions := (json.functions.getD []).map (·.build toLowerCase)
    events := events }

end

/-! ## The methods of a switch state -/

/-- Which object a transition of a switch state is: a condition, by its place among those of its type, or the default. -/
inductive ConditionRef where
  | event (index : Nat)
  | data (index : Nat)
  | default
  deriving DecidableEq, Repr

def ConditionRef.eventIndex : ConditionRef → Option Nat
  | event index => some index
  | _ => none

def ConditionRef.dataIndex : ConditionRef → Option Nat
  | data index => some index
  | _ => none

/-- A transition of a switch state, with its target. -/
structure Transition where
  ref : ConditionRef
  transition : Option String
  deriving DecidableEq, Repr

/-- The transitions with these targets. -/
def transitionsOf (ref : Nat → ConditionRef) (targets : List (Option String)) : List Transition :=
  targets.mapIdx fun index target => ⟨ref index, target⟩

namespace SwitchStateMachineState

def getNextTransitions (s : SwitchStateMachineState) : List Transition :=
  transitionsOf .event (s.eventConditions.map (·.transition)) ++ transitionsOf .data (s.dataConditions.map (·.transition)) ++
    (s.defaultCondition.filter fun d => truthy d.transition).toList.map fun d => ⟨.default, d.transition⟩

def setTransitions (s : SwitchStateMachineState) (transitions : List Transition) : SwitchStateMachineState :=
  let ended := { s with isEnd := some transitions.isEmpty }
  match s.switchType with
  | .event =>
    { ended with eventConditions := transitions.filterMap fun t => t.ref.eventIndex.bind fun i => s.eventConditions[i]? }
  | .data =>
    { ended with dataConditions := transitions.filterMap fun t => t.ref.dataIndex.bind fun i => s.dataConditions[i]? }

def tryAddTransition (s : SwitchStateMachineState) (transitionName : Option String) : SwitchStateMachineState :=
  match s.switchType with
  | .event =>
    { s with isEnd := some false, eventConditions := s.eventConditions ++ [{ transition := transitionName }] }
  | .data =>
    { s with
      isEnd := some false
      dataConditions := s.dataConditions ++ [{ condition := some "true", transition := transitionName }] }

def switchToEventCondition (s : SwitchStateMachineState) : SwitchStateMachineState :=
  { s with
    switchType := .event
    eventConditions := s.dataConditions.map fun e => { eventRef := some "event", transition := e.transition }
    dataConditions := [] }

def switchToDataCondition (s : SwitchStateMachineState) : SwitchStateMachineState :=
  { s with
    switchType := .data
    dataConditions := s.eventConditions.map fun e => { condition := some "true", transition := e.transition }
    eventConditions := [] }

/-- The transition is looked for among the conditions of the switch type; `indexOf` of another one is -1. -/
def removeTransition (s : SwitchStateMachineState) (transition : Transition) : SwitchStateMachineState :=
  match s.switchType with
  | .event => { s with eventConditions := splice s.eventConditions transition.ref.eventIndex }
  | .data => { s with dataConditions := splice s.dataConditions transition.ref.dataIndex }

def swichTransitionToDefault (s : SwitchStateMachineState) (transition : Transition) : SwitchStateMachineState :=
  let setDefault (s : SwitchStateMachineState) : SwitchStateMachineState :=
    { s.removeTransition transition with defaultCondition := some ⟨transition.transition⟩ }
  match s.defaultCondition with
  | none => setDefault s
  | some d =>
    if transition.transition = d.transition then s else setDefault (s.tryAddTransition d.transition)

end SwitchStateMachineState

/-- What the diagram does to a switch state. It gives `setTransitions` those of the transitions that are kept. -/
inductive SwitchEdit where
  | tryAddTransition (transitionName : String)
  | setTransitions (keep : ConditionRef → Bool)
  | swichTransitionToDefault (ref : ConditionRef)
  | switchTo (type : SwitchTypes)

/-- The switch state afterwards; a transition that it does not have is no default. -/
def SwitchEdit.apply (s : SwitchStateMachineState) : SwitchEdit → SwitchStateMachineState
  | tryAddTransition transitionName => s.tryAddTransition (some transitionName)
  | setTransitions keep => s.setTransitions (s.getNextTransitions.filter fun t => keep t.ref)
  | swichTransitionToDefault ref => (s.getNextTransitions.find? fun t => t.ref = ref).elim s s.swichTransitionToDefault
  | switchTo .event => s.switchToEventCondition
  | switchTo .data => s.switchToDataCondition

def SwitchStateMachineState.run (s : SwitchStateMachineState) (edits : List SwitchEdit) : SwitchStateMachineState :=
  edits.foldl SwitchEdit.apply s

end FaasNet.StateDiagram.Stores
