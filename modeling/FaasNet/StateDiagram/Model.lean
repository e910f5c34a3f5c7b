import FaasNet.Lib.Graphs

/-!
# The model behind the state diagram

`StateMachineModel` of the website with its four classes of states, and what the diagram editor does to it. The states
refer to each other by their ids. `undefined` is `none`. A state is an object that the diagram shares with the model; it
is found by its id. After every operation the diagram is drawn again, so what it shows is a function of the model.
-/

namespace FaasNet.StateDiagram

open FaasNet.Lib

/-- What a text is as a condition: neither `undefined` nor empty. -/
def truthy (text : Option String) : Bool := text.any (· ≠ "")

/-! ## States -/

/-- `getType` of a transition. -/
inductive TransitionTypes where
  | event
  | data
  | empty
  deriving DecidableEq, Repr

/-- `BaseTransition`, as the operations of the diagram see it. -/
structure BaseTransition where
  type : TransitionTypes
  transition : Option String
  deriving DecidableEq, Repr

structure EventCondition where
  eventRef : Option String := some ""
  transition : Option String := some ""
  deriving DecidableEq, Repr

structure DataCondition where
  name : Option String := none
  condition : Option String := some ""
  transition : Option String := some ""
  deriving DecidableEq, Repr

structure EmptyTransition where
  transition : Option String := some ""
  deriving DecidableEq, Repr

def EventCondition.toTransition (c : EventCondition) : BaseTransition := ⟨.event, c.transition⟩

def DataCondition.toTransition (c : DataCondition) : BaseTransition := ⟨.data, c.transition⟩

def EmptyTransition.toTransition (c : EmptyTransition) : BaseTransition := ⟨.empty, c.transition⟩

/-- The classes with one `transition`, whose methods do the same. -/
inductive FlowableTypes where
  | inject
  | operation
  | foreach
  deriving DecidableEq, Repr

inductive SwitchTypes where
  | event
  | data
  deriving DecidableEq, Repr

/-- The fields of `SwitchStateMachineState`. -/
structure SwitchConditions where
  switchType : SwitchTypes := .event
  eventConditions : List EventCondition := []
  dataConditions : List DataCondition := []
  defaultCondition : Option EmptyTransition := none
  deriving DecidableEq, Repr

inductive StateBody where
  | flowable (type : FlowableTypes) (transition : Option String)
  | switch (conditions : SwitchConditions)
  deriving DecidableEq, Repr

structure StateMachineState where
  id : String
  name : Option String
  isEnd : Bool
  body : StateBody
  deriving DecidableEq, Repr

/-- `splice(index, 1)` with the index that `indexOf` or `findIndex` gives, which is -1 if nothing was found. -/
def splice {α : Type*} (l : List α) (index : Option Nat) : List α := index.elim l.dropLast l.eraseIdx

namespace SwitchConditions

def getNextTransitions (s : SwitchConditions) : List BaseTransition :=
  s.eventConditions.map (·.toTransition) ++ s.dataConditions.map (·.toTransition) ++
    ((s.defaultCondition.filter fun d => truthy d.transition).toList.map (·.toTransition))

/-- The conditions that `setTransitions` is given are among those of the state, so those of a type are taken from
there. -/
def setTransitions (s : SwitchConditions) (keep : BaseTransition → Bool) : SwitchConditions :=
  match s.switchType with
  | .event => { s with eventConditions := s.eventConditions.filter fun c => keep c.toTransition }
  | .data => { s with dataConditions := s.dataConditions.filter fun c => keep c.toTransition }

def tryAddTransition (s : SwitchConditions) (transitionName : Option String) : SwitchConditions :=
  match s.switchType with
  | .event => { s with eventConditions := s.eventConditions ++ [{ transition := transitionName }] }
  | .data =>
    { s with dataConditions := s.dataConditions ++ [{ condition := some "true", transition := transitionName }] }

def switchToEventCondition (s : SwitchConditions) : SwitchConditions :=
  { s with
    switchType := .event
    eventConditions := s.dataConditions.map fun e => { eventRef := some "event", transition := e.transition }
    dataConditions := [] }

def switchToDataCondition (s : SwitchConditions) : SwitchConditions :=
  { s with
    switchType := .data
    dataConditions := s.eventConditions.map fun e => { condition := some "true", transition := e.transition }
    eventConditions := [] }

/-- `removeTransition`: the transition, which is the one at this index among those of its type, is looked for among the
conditions of the switch type. -/
def removeTransition (s : SwitchConditions) (type : TransitionTypes) (index : Nat) : SwitchConditions :=
  match s.switchType with
  | .event => { s with eventConditions := splice s.eventConditions (if type = .event then some index else none) }
  | .data => { s with dataConditions := splice s.dataConditions (if type = .data then some index else none) }

end SwitchConditions

namespace StateMachineState

def getNextTransitions (s : StateMachineState) : List BaseTransition :=
  match s.body with
  | .flowable _ transition => [⟨.empty, transition⟩]
  | .switch conditions => conditions.getNextTransitions

/-- `setTransitions` with those of `getNextTransitions` that are to be kept. -/
def setTransitions (s : StateMachineState) (keep : BaseTransition → Bool) : StateMachineState :=
  let transitions := s.getNextTransitions.filter keep
  match s.body with
  | .flowable type _ =>
    match transitions with
    | [] => { s with isEnd := true, body := .flowable type (some "") }
    | t :: _ => { s with isEnd := false, body := .flowable type t.transition }
  | .switch conditions => { s with isEnd := transitions.isEmpty, body := .switch (conditions.setTransitions keep) }

/-- The state after it, and the transition that is replaced. -/
def tryAddTransition (s : StateMachineState) (transitionName : String) : StateMachineState × Option String :=
  match s.body with
  | .flowable type transition => ({ s with isEnd := false, body := .flowable type (some transitionName) }, transition)
  | .switch conditions => ({ s with isEnd := false, body := .switch (conditions.tryAddTransition (some transitionName)) }, none)

/-- `swichTransitionToDefault` with the transition at a place of `getNextTransitions`. A state that is no switch state
has no such method; the exception leaves it as it is. -/
def swichTransitionToDefault (s : StateMachineState) (place : Nat) (transition : BaseTransition) : StateMachineState :=
  match s.body with
  | .flowable .. => s
  | .switch conditions =>
    let index := if transition.type = .event then place else place - conditions.eventConditions.length
    let setDefault (s : StateMachineState) (conditions : SwitchConditions) : StateMachineState :=
      let removed := conditions.removeTransition transition.type index
      { s with body := .switch { removed with defaultCondition := some ⟨transition.transition⟩ } }
    match conditions.defaultCondition with
    | none => setDefault s conditions
    | some d =>
      if transition.transition = d.transition then s
      else setDefault { s with isEnd := false } (conditions.tryAddTransition d.transition)

/-- `switchToEventCondition` or `switchToDataCondition`, which the editor of a switch state calls. -/
def switchTo (s : StateMachineState) (type : SwitchTypes) : StateMachineState :=
  match s.body with
  | .flowable .. => s
  | .switch conditions =>
    match type with
    | .event => { s with body := .switch conditions.switchToEventCondition }
    | .data => { s with body := .switch conditions.switchToDataCondition }

end StateMachineState

/-! ## `StateMachineModel` -/

structure StartStateMachineModel where
  stateName : Option String := none
  deriving DecidableEq, Repr

structure StateMachineModel where
  id : Option String
  start : Option StartStateMachineModel
  states : List StateMachineState
  deriving DecidableEq, Repr

/-- A state of the JSON text of a definition. -/
structure StateJson where
  type : String
  id : String
  name : Option String := none
  isEnd : Option Bool := none
  transition : Option String := none
  eventConditions : Option (List EventCondition) := none
  dataConditions : Option (List DataCondition) := none
  defaultCondition : Option EmptyTransition := none
  deriving DecidableEq, Repr

/-- The JSON text of a definition. -/
structure StateMachineJson where
  id : Option String
  start : Option StartStateMachineModel
  states : List StateJson
  deriving DecidableEq, Repr

/-- The state that `build` makes; a type that it does not know gives `undefined`. The switch type is not among the
fields that it sets. -/
def StateJson.build (s : StateJson) : Option StateMachineState :=
  let flowable (type : FlowableTypes) : StateMachineState := ⟨s.id, s.name, s.isEnd.getD false, .flowable type s.transition⟩
  match s.type with
  | "inject" => some (flowable .inject)
  | "operation" => some (flowable .operation)
  | "foreach" => some (flowable .foreach)
  | "switch" => some ⟨s.id, s.name, s.isEnd.getD false, .switch
      { eventConditions := s.eventConditions.getD []
        dataConditions := s.dataConditions.getD []
        defaultCondition := s.defaultCondition }⟩
  | _ => none

/-- `StateMachineModel.build`, where it gives states only. -/
def StateMachineJson.build (json : StateMachineJson) : Option StateMachineModel :=
  (json.states.mapM StateJson.build).map fun states => { id := json.id, start := json.start, states }

/-- Where the states are looked for by name. -/
def getStateOf (states : List StateMachineState) (stateName : Option String) : Option StateMachineState :=
  states.find? fun s => some s.id = stateName

namespace StateMachineModel

def getState (m : StateMachineModel) (stateName : Option String) : Option StateMachineState := getStateOf m.states stateName

def getRootState (m : StateMachineModel) : Option StateMachineState :=
  m.states.find? fun s => m.start.any fun start => truthy start.stateName && some s.id = start.stateName

/-- `remove`: the states that come after the state are removed first. -/
def remove (fuel : Nat) (states : List StateMachineState) (state : StateMachineState) : Option (List StateMachineState) :=
  prune (fun s => some s.id) (fun s => s.getNextTransitions.map (·.transition)) fuel states state

def removeByNames (fuel : Nat) (states : List StateMachineState) (names : List String) : Option (List StateMachineState) :=
  (states.filter fun s => truthy s.name && s.name.any fun name => name ∈ names).foldlM (remove fuel) states

/-- Changes the state with this id. -/
def modify (m : StateMachineModel) (id : String) (change : StateMachineState → StateMachineState) : StateMachineModel :=
  { m with states := m.states.map fun s => if s.id = id then change s else s }

/-! ## The diagram -/

/-- The states that the transitions of a state lead to. -/
def children (m : StateMachineModel) (id : String) : List String :=
  ((m.getState (some id)).elim [] (·.getNextTransitions)).filterMap fun t => (m.getState t.transition).map (·.id)

/-- `refreshUI`, with `buildNodeHierarchy`: the nodes and the edges that are shown. -/
def refreshUI (m : StateMachineModel) : Drawing String :=
  if truthy m.id then
    match m.getRootState with
    | none => {}
    | some rootState => (draw m.children (m.states.length + 1) rootState.id {}).getD {}
  else {}

/-- `getParent`: the state from which the only edge leads to this one. -/
def getParent (m : StateMachineModel) (id : String) : Option String :=
  match m.refreshUI.edges.filter fun edge => edge.2 = id with
  | [edge] => some edge.1
  | _ => none

end StateMachineModel

/-! ## The operations -/

/-- The type of a state that is dragged into the diagram. -/
inductive DraggedTypes where
  | flowable (type : FlowableTypes)
  | switch
  deriving DecidableEq, Repr

/-- The texts of the types. -/
def DraggedTypes.text : DraggedTypes → String
  | .flowable .inject => "inject"
  | .flowable .operation => "operation"
  | .flowable .foreach => "foreach"
  | .switch => "switch"

/-- The state that is made for it, with the id that `buildId` gives. -/
def newState (type : DraggedTypes) (id : String) : StateMachineState where
  id
  name := some type.text
  isEnd := true
  body := match type with
    | .flowable type => .flowable type (some "")
    | .switch => .switch {}

/-- What can be done in the diagram. A node is given by the id of its state, an edge by its node and the place of its
transition. -/
inductive EditorOperation where
  | drop (node : String) (type : DraggedTypes) (newId : String)
  | dropCircleStart (type : DraggedTypes) (newId : String)
  | removeNode (node : String)
  | setDefaultCondition (node : String) (place : Nat)
  | switchTo (node : String) (type : SwitchTypes)
  deriving DecidableEq, Repr

namespace StateMachineModel

/-- The state of a node that is shown. -/
def node (m : StateMachineModel) (id : String) : Option StateMachineState :=
  if id ∈ m.refreshUI.nodes then m.getState (some id) else none

/-- `onDrop`. -/
def onDrop (fuel : Nat) (m : StateMachineModel) (parent : StateMachineState) (type : DraggedTypes) (newId : String) :
    Option StateMachineModel :=
  let child := newState type newId
  let (changed, removedTransition) := parent.tryAddTransition child.id
  let m := m.modify parent.id fun _ => changed
  let removed := if truthy removedTransition then removeByNames fuel m.states removedTransition.toList else some m.states
  removed.map fun states => { m with states := states ++ [child] }

/-- `onDropCircleStart`. -/
def onDropCircleStart (m : StateMachineModel) (type : DraggedTypes) (newId : String) : StateMachineModel :=
  { m with
    start := m.start.map fun start => { start with stateName := some newId }
    states := [newState type newId] }

/-- `removeNode`. A state without a parent and without transitions is removed in the same way. -/
def removeNode (fuel : Nat) (m : StateMachineModel) (state : StateMachineState) : Option StateMachineModel :=
  let parent := m.getParent state.id
  (remove fuel m.states state).map fun states =>
    match parent with
    | none => { m with states }
    | some parent => { m with states }.modify parent fun p => p.setTransitions fun t => t.transition ≠ some state.id

/-- An operation in the diagram, if what it is about is shown. -/
def edit (fuel : Nat) (m : StateMachineModel) : EditorOperation → Option StateMachineModel
  | .drop node type newId => (m.node node).bind fun parent => m.onDrop fuel parent type newId
  | .dropCircleStart type newId => some (m.onDropCircleStart type newId)
  | .removeNode node => (m.node node).bind (m.removeNode fuel)
  | .setDefaultCondition node place => (m.node node).bind fun s =>
      s.getNextTransitions[place]?.bind fun t =>
        (m.getState t.transition).map fun _ => m.modify s.id fun s => s.swichTransitionToDefault place t
  | .switchTo node type => (m.node node).map fun s => m.modify s.id fun s => s.switchTo type

end StateMachineModel

end FaasNet.StateDiagram
