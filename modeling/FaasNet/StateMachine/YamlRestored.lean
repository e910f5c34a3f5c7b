import FaasNet.Lib.Lists
import FaasNet.StateMachine.YamlStates

/-!
# What is read back of a state

For each class, the object that is built of what was emitted of an object: blank texts are null, numbers that may
be null are lost, and the conditions of a switch state are sorted by their kind. An object is emitted as an empty
mapping, which cannot be extracted, only if nothing of it is left; that happens to actions and to references to
functions.
-/

namespace FaasNet.StateMachine

open FaasNet.Common PropertyInfo

/-- A text is emitted if it is not blank. -/
theorem isSome_emitted (text : Option String) : (emitted text).isSome = !isNullOrWhiteSpace text := by
  unfold emitted
  cases h : isNullOrWhiteSpace text with
  | true => rfl
  | false =>
    cases text with
    | none => exact h.symm
    | some text => rfl

/-- No texts at all. The names of the properties do not depend on the texts or on the depth. -/
def JObjectTexts.absent : JObjectTexts where
  write _ := pure none
  toString _ := ""

theorem all_true {α : Type} (values : List α) : (values.all fun _ => true) = true :=
  List.all_eq_true.2 fun _ _ => rfl

/-! ## Filters and functions -/

/-- A data filter as it is restored. -/
def StateDataFilter.restored (filter : StateDataFilter) : StateDataFilter where
  input := emitted filter.input
  output := emitted filter.output

/-- A filter that has a text is built again. -/
theorem stateDataFilter_restores (filter : StateDataFilter) :
    (Class.built {} StateDataFilter.properties).Restores filter
      ((emitted filter.input).isSome || (emitted filter.output).isSome) filter.restored := by
  have h : AllRestore filter StateDataFilter.properties {} _ _ filter.restored :=
    .cons (string_restores rfl) (.cons (string_restores rfl) .nil)
  simpa using Class.built_restores h (by decide)

/-- A reference to a function as it is restored. -/
def StateMachineDefinitionFunctionRef.restored (functionRef : StateMachineDefinitionFunctionRef) :
    StateMachineDefinitionFunctionRef where
  refName := emitted functionRef.refName
  selectionSet := emitted functionRef.selectionSet

/-- Something of the reference is emitted. -/
def StateMachineDefinitionFunctionRef.isWritten (functionRef : StateMachineDefinitionFunctionRef) : Bool :=
  (emitted functionRef.refName).isSome || (emitted functionRef.selectionSet).isSome

theorem StateMachineDefinitionFunctionRef.distinct (json : JObjectTexts) :
    DistinctNames ((properties json).map (·.name)) := by
  show DistinctNames ["RefName", "ArgumentsStr", "SelectionSet", "Arguments"]
  decide

/-- A reference without arguments is built again. -/
theorem functionRef_restores (json : JObjectTexts) (functionRef : StateMachineDefinitionFunctionRef)
    (hj : isNullOrWhiteSpace functionRef.argumentsStr = true) :
    (Class.built {} (StateMachineDefinitionFunctionRef.properties json)).Restores functionRef functionRef.isWritten
      functionRef.restored := by
  have h : AllRestore functionRef (StateMachineDefinitionFunctionRef.properties json) {} _ _ functionRef.restored :=
    .cons (string_restores rfl) (.cons ignored_restores (.cons (string_restores rfl)
      (.cons (jObject_restores hj) .nil)))
  simpa [StateMachineDefinitionFunctionRef.isWritten] using
    Class.built_restores h (StateMachineDefinitionFunctionRef.distinct json)

/-- The filter of an action as it is restored. -/
def StateMachineDefinitionActionDataFilter.restored (filter : StateMachineDefinitionActionDataFilter) :
    StateMachineDefinitionActionDataFilter where
  fromStateData := emitted filter.fromStateData
  useResults := filter.useResults
  results := emitted filter.results
  toStateData := emitted filter.toStateData

/-- The filter of an action is always written, and built again. -/
theorem actionDataFilter_restores (filter : StateMachineDefinitionActionDataFilter) :
    (Class.built {} StateMachineDefinitionActionDataFilter.properties).Restores filter true filter.restored := by
  have h : AllRestore filter StateMachineDefinitionActionDataFilter.properties {} _ _ filter.restored :=
    .cons (string_restores rfl) (.cons bool_restores (.cons (string_restores rfl)
      (.cons (string_restores rfl) .nil)))
  simpa using Class.built_restores h (by decide)

/-- The filter of an event as it is restored. -/
def StateMachineDefinitionEventDataFilter.restored (filter : StateMachineDefinitionEventDataFilter) :
    StateMachineDefinitionEventDataFilter where
  useData := filter.useData
  data := emitted filter.data
  toStateData := emitted filter.toStateData

/-- The filter of an event is always written, and built again. -/
theorem eventDataFilter_restores (filter : StateMachineDefinitionEventDataFilter) :
    eventDataFilterClass.Restores filter true filter.restored := by
  have h : AllRestore filter StateMachineDefinitionEventDataFilter.properties {} _ _ filter.restored :=
    .cons bool_restores (.cons (string_restores rfl) (.cons (string_restores rfl) .nil))
  simpa [eventDataFilterClass] using Class.built_restores h (by decide)

/-! ## The base classes of states -/

/-- The technical id is not emitted, and the constructor sets none. -/
def BaseStateMachineDefinitionState.restored (state : BaseStateMachineDefinitionState) :
    BaseStateMachineDefinitionState where
  id := emitted state.id
  name := emitted state.name
  type := state.type
  stateDataFilterInput := emitted state.stateDataFilterInput
  stateDataFilterOuput := emitted state.stateDataFilterOuput

namespace BaseStateMachineDefinitionState

/-- A state has a filter if one of its texts is not blank. -/
theorem stateDataFilter_eq_some {state : BaseStateMachineDefinitionState} {filter : StateDataFilter}
    (h : state.stateDataFilter = some filter) :
    isNullOrWhiteSpace state.stateDataFilterOuput = false ∧
      filter = { input := state.stateDataFilterInput, output := state.stateDataFilterOuput } := by
  unfold stateDataFilter at h
  rw [Bool.and_self] at h
  cases hb : isNullOrWhiteSpace state.stateDataFilterOuput with
  | true => simp [hb] at h
  | false => exact ⟨rfl, by simpa [hb] using h.symm⟩

/-- `StateDataFilter` comes last, and sets again what the texts of the filters have set. -/
theorem allRestore (state : BaseStateMachineDefinitionState) (type : StateMachineDefinitionStateTypes) :
    AllRestore state properties { type := type } true true state.restored := by
  have filter : (object (.built {} StateDataFilter.properties) "StateDataFilter" (·.stateDataFilter)
      setStateDataFilter).Restores state state.restored _ _ state.restored :=
    object_restores_same (fun filter _ => stateDataFilter_restores filter) fun filter hf => by
      rw [(stateDataFilter_eq_some hf).2]
      rfl
  have extractable : (state.stateDataFilter.all fun filter =>
      (emitted filter.input).isSome || (emitted filter.output).isSome) = true := by
    refine Option.all_eq_true .. |>.2 fun filter hf => ?_
    obtain ⟨hb, rfl⟩ := stateDataFilter_eq_some hf
    simp [isSome_emitted, hb]
  rw [extractable] at filter
  have h : AllRestore state properties { type := type } _ _ state.restored :=
    .cons ignored_restores (.cons (string_restores rfl) (.cons (string_restores rfl) (.cons enum_restores
      (.cons (string_restores rfl) (.cons (string_restores rfl) (.cons filter .nil))))))
  simpa using h

end BaseStateMachineDefinitionState

namespace BaseStateMachineFlowableState

/-- A state with a transition as it is restored. -/
def restored (state : BaseStateMachineFlowableState) : BaseStateMachineFlowableState where
  toBaseStateMachineDefinitionState := state.toBaseStateMachineDefinitionState.restored
  isEnd := state.isEnd
  transition := emitted state.transition

/-- The properties that all flowable states have are built again. -/
theorem allRestore (state : BaseStateMachineFlowableState) (type : StateMachineDefinitionStateTypes) :
    AllRestore state properties { type := type } true true state.restored := by
  have inherited := AllRestore.inherited base state (state.toBaseStateMachineDefinitionState.allRestore type)
    { type := type, isEnd := state.isEnd, transition := emitted state.transition } rfl
  have h : AllRestore state properties { type := type } _ _ state.restored :=
    .cons bool_restores (.cons (string_restores rfl) inherited)
  simpa using h

end BaseStateMachineFlowableState

/-! ## Actions and callback states -/

/-- How deep actions are nested in the callback states of actions. -/
def StateMachineDefinitionAction.depth : StateMachineDefinitionAction → Nat
  | mk _ _ _ none => 0
  | mk _ _ _ (some ⟨_, none, _, _, _⟩) => 0
  | mk _ _ _ (some ⟨_, some action, _, _, _⟩) => action.depth + 1

/-- The `JObject` of the action, and those in its callback state, are left empty. -/
def StateMachineDefinitionAction.leavesJObjects : StateMachineDefinitionAction → Bool
  | mk _ functionRef _ none => functionRef.all fun f => isNullOrWhiteSpace f.argumentsStr
  | mk _ functionRef _ (some ⟨_, none, _, _, _⟩) => functionRef.all fun f => isNullOrWhiteSpace f.argumentsStr
  | mk _ functionRef _ (some ⟨_, some action, _, _, _⟩) =>
    functionRef.all (fun f => isNullOrWhiteSpace f.argumentsStr) && action.leavesJObjects

/-- No mapping in what is emitted of the action is empty. -/
def StateMachineDefinitionAction.isWritten : StateMachineDefinitionAction → Bool
  | mk name functionRef actionDataFilter none =>
    ((emitted name).isSome || functionRef.isSome || actionDataFilter.isSome) && functionRef.all (·.isWritten)
  | mk _ functionRef _ (some ⟨_, none, _, _, _⟩) => functionRef.all (·.isWritten)
  | mk _ functionRef _ (some ⟨_, some action, _, _, _⟩) => functionRef.all (·.isWritten) && action.isWritten

/-- An action as it is restored. -/
def StateMachineDefinitionAction.restored : StateMachineDefinitionAction → StateMachineDefinitionAction
  | mk name functionRef actionDataFilter none =>
    mk (emitted name) (functionRef.map (·.restored)) (actionDataFilter.map (·.restored)) none
  | mk name functionRef actionDataFilter (some ⟨state, none, eventRef, _, eventDataFilter⟩) =>
    mk (emitted name) (functionRef.map (·.restored)) (actionDataFilter.map (·.restored))
      (some ⟨state.restored, none, emitted eventRef, none, eventDataFilter.map (·.restored)⟩)
  | mk name functionRef actionDataFilter (some ⟨state, some action, eventRef, _, eventDataFilter⟩) =>
    mk (emitted name) (functionRef.map (·.restored)) (actionDataFilter.map (·.restored))
      (some ⟨state.restored, some action.restored, emitted eventRef, none, eventDataFilter.map (·.restored)⟩)

/-- A callback state as it is restored. -/
def CallbackStateOf.restored (state : StateMachineDefinitionCallbackState) : StateMachineDefinitionCallbackState where
  toBaseStateMachineFlowableState := state.toBaseStateMachineFlowableState.restored
  action := state.action.map (·.restored)
  eventRef := emitted state.eventRef
  eventDataFilter := state.eventDataFilter.map (·.restored)

namespace StateMachineDefinitionAction

theorem depth_mk (name functionRef actionDataFilter callbackState) :
    (mk name functionRef actionDataFilter callbackState).depth =
      ((callbackState.bind (·.action)).map (·.depth + 1)).getD 0 := by
  rcases callbackState with _ | ⟨_, _ | action, _, _, _⟩ <;> rfl

theorem leavesJObjects_mk (name functionRef actionDataFilter callbackState) :
    (mk name functionRef actionDataFilter callbackState).leavesJObjects =
      (functionRef.all (fun f => isNullOrWhiteSpace f.argumentsStr) &&
        callbackState.all fun state => state.action.all (·.leavesJObjects)) := by
  rcases callbackState with _ | ⟨_, _ | action, _, _, _⟩ <;> simp [leavesJObjects]

theorem isWritten_mk (name functionRef actionDataFilter callbackState) :
    (mk name functionRef actionDataFilter callbackState).isWritten =
      (((emitted name).isSome || functionRef.isSome || actionDataFilter.isSome || callbackState.isSome) &&
        (functionRef.all (·.isWritten) && callbackState.all fun state => state.action.all (·.isWritten))) := by
  rcases callbackState with _ | ⟨_, _ | action, _, _, _⟩ <;> simp [isWritten]

theorem restored_mk (name functionRef actionDataFilter callbackState) :
    (mk name functionRef actionDataFilter callbackState).restored =
      mk (emitted name) (functionRef.map (·.restored)) (actionDataFilter.map (·.restored))
        (callbackState.map (·.restored)) := by
  rcases callbackState with _ | ⟨_, _ | action, _, _, _⟩ <;> rfl

end StateMachineDefinitionAction

theorem CallbackStateOf.distinct (type : Class StateMachineDefinitionAction) :
    DistinctNames ((properties type).map (·.name)) := by
  show DistinctNames ["Action", "EventRef", "ActionId", "EventDataFilter", "End", "Transition", "TechnicalId", "Id", "Name", "Type",
    "StateDataFilterInput", "StateDataFilterOuput", "StateDataFilter"]
  decide

/-- A callback is built again if its action is. -/
theorem callbackClass_restores {type : Class StateMachineDefinitionAction}
    (state : StateMachineDefinitionCallbackState)
    (ha : ∀ action, state.action = some action → type.Restores action action.isWritten action.restored) :
    (callbackClass type).Restores state (state.action.all (·.isWritten)) state.restored := by
  have inherited := AllRestore.inherited CallbackStateOf.base state
    (state.toBaseStateMachineFlowableState.allRestore .Callback)
    { type := .Callback, action := state.action.map (·.restored), eventRef := emitted state.eventRef,
      eventDataFilter := state.eventDataFilter.map (·.restored) } rfl
  have h : AllRestore state (CallbackStateOf.properties type) { type := .Callback } _ _ state.restored :=
    .cons (object_restores ha rfl) (.cons (string_restores rfl) (.cons nullableInt_restores
      (.cons (object_restores (fun filter _ => eventDataFilter_restores filter) rfl) inherited)))
  simpa [callbackClass] using Class.built_restores h (CallbackStateOf.distinct type)

theorem StateMachineDefinitionAction.distinct (json : JObjectTexts)
    (type : Class StateMachineDefinitionCallbackState) :
    DistinctNames ((properties json type).map (·.name)) := by
  show DistinctNames ["Name", "FunctionRef", "ActionDataFilter", "CallbackState"]
  decide

/-- An action is restored, level by level of the callback states in it. -/
theorem actionClass_restores (json : JObjectTexts) : ∀ (depth : Nat) (action : StateMachineDefinitionAction),
    action.depth < depth → action.leavesJObjects = true →
    (actionClass json depth).Restores action action.isWritten action.restored
  | depth + 1, .mk name functionRef actionDataFilter callbackState, hd, hj => by
    rw [StateMachineDefinitionAction.leavesJObjects_mk, Bool.and_eq_true] at hj
    rw [StateMachineDefinitionAction.isWritten_mk, StateMachineDefinitionAction.restored_mk]
    have callback : ∀ state, callbackState = some state → (callbackClass (actionClass json depth)).Restores state
        (state.action.all (·.isWritten)) state.restored := by
      rintro state rfl
      refine callbackClass_restores state fun action ha => actionClass_restores json depth action ?_ ?_
      · simp [StateMachineDefinitionAction.depth_mk, ha] at hd
        omega
      · simpa [ha] using hj.2
    have function : ∀ f, functionRef = some f → isNullOrWhiteSpace f.argumentsStr := by
      rintro f rfl
      exact hj.1
    have h : AllRestore (.mk name functionRef actionDataFilter callbackState)
        (StateMachineDefinitionAction.properties json (callbackClass (actionClass json depth)))
        (.mk none none none none) _ _ (.mk (emitted name) (functionRef.map (·.restored))
          (actionDataFilter.map (·.restored)) (callbackState.map (·.restored))) :=
      .cons (string_restores rfl) (.cons (object_restores (fun f hf => functionRef_restores json f (function f hf)) rfl)
        (.cons (object_restores (fun filter _ => actionDataFilter_restores filter) rfl)
          (.cons (object_restores callback rfl) .nil)))
    simpa [actionClass, Bool.or_assoc, StateMachineDefinitionAction.name, StateMachineDefinitionAction.functionRef,
      StateMachineDefinitionAction.actionDataFilter, StateMachineDefinitionAction.callbackState] using
      Class.built_restores h (StateMachineDefinitionAction.distinct json _)

/-! ## States -/

section States

variable (json : JObjectTexts) {depth : Nat}

/-- All that a list of actions needs to be restored. -/
def ActionsFit (depth : Nat) (actions : List StateMachineDefinitionAction) : Prop :=
  ∀ action ∈ actions, action.depth < depth ∧ action.leavesJObjects = true

/-- Actions within the depth are built again. -/
theorem actions_restore {actions : List StateMachineDefinitionAction} (h : ActionsFit depth actions) :
    ∀ action ∈ actions, (actionClass json depth).Restores action action.isWritten action.restored :=
  fun action ha => actionClass_restores json depth action (h action ha).1 (h action ha).2

/-- What is done on events as it is restored. -/
def StateMachineDefinitionOnEvent.restored (onEvent : StateMachineDefinitionOnEvent) :
    StateMachineDefinitionOnEvent where
  eventRefs := onEvent.eventRefs.map fun text => some (text.getD "")
  actionMode := onEvent.actionMode
  actions := onEvent.actions.map (·.restored)
  eventDataFilter := onEvent.eventDataFilter.map (·.restored)

theorem StateMachineDefinitionOnEvent.distinct (depth : Nat) :
    DistinctNames ((properties json depth).map (·.name)) := by
  show DistinctNames ["EventRefs", "ActionMode", "Actions", "EventDataFilter"]
  decide

/-- The events that are waited for, with their actions. -/
theorem onEvent_restores (onEvent : StateMachineDefinitionOnEvent) (h : ActionsFit depth onEvent.actions) :
    (Class.built {} (StateMachineDefinitionOnEvent.properties json depth)).Restores onEvent
      (onEvent.actions.all (·.isWritten)) onEvent.restored := by
  have h : AllRestore onEvent (StateMachineDefinitionOnEvent.properties json depth) {} _ _ onEvent.restored :=
    .cons (strings_restores rfl) (.cons enum_restores (.cons (list_restores (actions_restore json h) rfl)
      (.cons (object_restores (fun filter _ => eventDataFilter_restores filter) rfl) .nil)))
  simpa using Class.built_restores h (StateMachineDefinitionOnEvent.distinct json depth)

/-- An event state as it is restored. -/
def StateMachineDefinitionEventState.restored (state : StateMachineDefinitionEventState) :
    StateMachineDefinitionEventState where
  toBaseStateMachineFlowableState := state.toBaseStateMachineFlowableState.restored
  exclusive := state.exclusive
  onEvents := state.onEvents.map (·.restored)

theorem StateMachineDefinitionEventState.distinct (depth : Nat) :
    DistinctNames ((properties json depth).map (·.name)) := by
  show DistinctNames ["Exclusive", "OnEvents", "End", "Transition", "TechnicalId", "Id", "Name", "Type",
    "StateDataFilterInput", "StateDataFilterOuput", "StateDataFilter"]
  decide

/-- An event state is built again. -/
theorem eventStateClass_restores (state : StateMachineDefinitionEventState)
    (h : ∀ onEvent ∈ state.onEvents, ActionsFit depth onEvent.actions) :
    (eventStateClass json depth).Restores state
      (state.onEvents.all fun onEvent => onEvent.actions.all (·.isWritten)) state.restored := by
  have inherited := AllRestore.inherited StateMachineDefinitionEventState.base state
    (state.toBaseStateMachineFlowableState.allRestore .Event)
    { type := .Event, exclusive := state.exclusive, onEvents := state.onEvents.map (·.restored) } rfl
  have h : AllRestore state (StateMachineDefinitionEventState.properties json depth) { type := .Event } _ _
      state.restored :=
    .cons bool_restores (.cons (list_restores (fun onEvent ho => onEvent_restores json onEvent (h onEvent ho)) rfl)
      inherited)
  simpa [eventStateClass] using Class.built_restores h (StateMachineDefinitionEventState.distinct json depth)

/-- The size of a batch is lost. -/
def StateMachineDefinitionForeachState.restored (state : StateMachineDefinitionForeachState) :
    StateMachineDefinitionForeachState where
  toBaseStateMachineFlowableState := state.toBaseStateMachineFlowableState.restored
  inputCollection := emitted state.inputCollection
  outputCollection := emitted state.outputCollection
  iterationParam := emitted state.iterationParam
  mode := state.mode
  actions := state.actions.map (·.restored)

theorem StateMachineDefinitionForeachState.distinct (depth : Nat) :
    DistinctNames ((properties json depth).map (·.name)) := by
  show DistinctNames ["InputCollection", "OutputCollection", "IterationParam", "BatchSize", "Mode", "Actions",
    "End", "Transition", "TechnicalId", "Id", "Name", "Type",
    "StateDataFilterInput", "StateDataFilterOuput", "StateDataFilter"]
  decide

/-- A foreach state is built again. -/
theorem foreachStateClass_restores (state : StateMachineDefinitionForeachState) (h : ActionsFit depth state.actions) :
    (foreachStateClass json depth).Restores state (state.actions.all (·.isWritten)) state.restored := by
  have inherited := AllRestore.inherited StateMachineDefinitionForeachState.base state
    (state.toBaseStateMachineFlowableState.allRestore .ForEach)
    { state.restored with toBaseStateMachineFlowableState := { type := .ForEach } } rfl
  have h : AllRestore state (StateMachineDefinitionForeachState.properties json depth) { type := .ForEach } _ _
      state.restored :=
    .cons (string_restores rfl) (.cons (string_restores rfl) (.cons (string_restores rfl)
      (.cons nullableInt_restores (.cons enum_restores (.cons (list_restores (actions_restore json h) rfl)
        inherited)))))
  simpa [foreachStateClass] using Class.built_restores h (StateMachineDefinitionForeachState.distinct json depth)

/-- An inject state as it is restored. -/
def StateMachineDefinitionInjectState.restored (state : StateMachineDefinitionInjectState) :
    StateMachineDefinitionInjectState where
  toBaseStateMachineFlowableState := state.toBaseStateMachineFlowableState.restored

theorem StateMachineDefinitionInjectState.distinct : DistinctNames ((properties json).map (·.name)) := by
  show DistinctNames ["DataStr", "Data", "End", "Transition", "TechnicalId", "Id", "Name", "Type",
    "StateDataFilterInput", "StateDataFilterOuput", "StateDataFilter"]
  decide

/-- An inject state without data is built again. -/
theorem injectStateClass_restores (state : StateMachineDefinitionInjectState)
    (hj : isNullOrWhiteSpace state.dataStr = true) :
    (injectStateClass json).Restores state true state.restored := by
  have inherited := AllRestore.inherited StateMachineDefinitionInjectState.base state
    (state.toBaseStateMachineFlowableState.allRestore .Inject) { type := .Inject } rfl
  have h : AllRestore state (StateMachineDefinitionInjectState.properties json) { type := .Inject } _ _
      state.restored :=
    .cons ignored_restores (.cons (jObject_restores hj) inherited)
  simpa [injectStateClass] using Class.built_restores h (StateMachineDefinitionInjectState.distinct json)

/-- An operation state as it is restored. -/
def StateMachineDefinitionOperationState.restored (state : StateMachineDefinitionOperationState) :
    StateMachineDefinitionOperationState where
  toBaseStateMachineFlowableState := state.toBaseStateMachineFlowableState.restored
  actionMode := state.actionMode
  actions := state.actions.map (·.restored)

theorem StateMachineDefinitionOperationState.distinct (depth : Nat) :
    DistinctNames ((properties json depth).map (·.name)) := by
  show DistinctNames ["ActionMode", "Actions", "End", "Transition", "TechnicalId", "Id", "Name", "Type",
    "StateDataFilterInput", "StateDataFilterOuput", "StateDataFilter"]
  decide

/-- An operation state is built again. -/
theorem operationStateClass_restores (state : StateMachineDefinitionOperationState)
    (h : ActionsFit depth state.actions) :
    (operationStateClass json depth).Restores state (state.actions.all (·.isWritten)) state.restored := by
  have inherited := AllRestore.inherited StateMachineDefinitionOperationState.base state
    (state.toBaseStateMachineFlowableState.allRestore .Event)
    { state.restored with toBaseStateMachineFlowableState := { type := .Event } } rfl
  have h : AllRestore state (StateMachineDefinitionOperationState.properties json depth) { type := .Event } _ _
      state.restored :=
    .cons enum_restores (.cons (list_restores (actions_restore json h) rfl) inherited)
  simpa [operationStateClass] using Class.built_restores h (StateMachineDefinitionOperationState.distinct json depth)

end States

/-! ### Switch states -/

/-- What all conditions have as it is restored. -/
def BaseEventCondition.restored (condition : BaseEventCondition) : BaseEventCondition where
  name := emitted condition.name
  conditionType := condition.conditionType
  transition := emitted condition.transition
  isEnd := condition.isEnd

/-- What all conditions have is built again. -/
theorem BaseEventCondition.allRestore (condition : BaseEventCondition)
    (type : StateMachineDefinitionEventConditionTypes) :
    AllRestore condition properties { conditionType := type } true true condition.restored := by
  have h : AllRestore condition properties { conditionType := type } _ _ condition.restored :=
    .cons (string_restores rfl) (.cons enum_restores (.cons (string_restores rfl) (.cons bool_restores .nil)))
  simpa using h

/-- A data condition as it is restored. -/
def StateMachineDefinitionSwitchDataCondition.restored (condition : StateMachineDefinitionSwitchDataCondition) :
    StateMachineDefinitionSwitchDataCondition where
  toBaseEventCondition := condition.toBaseEventCondition.restored
  condition := emitted condition.condition

/-- A condition on the data is built again, with its type. -/
theorem dataCondition_restores (condition : StateMachineDefinitionSwitchDataCondition) :
    (Class.built { conditionType := .DATA } StateMachineDefinitionSwitchDataCondition.properties).Restores condition
      true condition.restored := by
  have inherited := AllRestore.inherited StateMachineDefinitionSwitchDataCondition.base condition
    (condition.toBaseEventCondition.allRestore .DATA)
    { conditionType := .DATA, condition := emitted condition.condition } rfl
  have h : AllRestore condition StateMachineDefinitionSwitchDataCondition.properties { conditionType := .DATA } _ _
      condition.restored :=
    .cons (string_restores rfl) inherited
  simpa using Class.built_restores h (by decide)

/-- An event condition as it is restored. -/
def StateMachineDefinitionSwitchEventCondition.restored (condition : StateMachineDefinitionSwitchEventCondition) :
    StateMachineDefinitionSwitchEventCondition where
  toBaseEventCondition := condition.toBaseEventCondition.restored
  eventRef := emitted condition.eventRef
  eventDataFilter := condition.eventDataFilter.map (·.restored)

/-- A condition on an event is built again, with its type. -/
theorem eventCondition_restores (condition : StateMachineDefinitionSwitchEventCondition) :
    (Class.built { conditionType := .EVENT } StateMachineDefinitionSwitchEventCondition.properties).Restores condition
      true condition.restored := by
  have inherited := AllRestore.inherited StateMachineDefinitionSwitchEventCondition.base condition
    (condition.toBaseEventCondition.allRestore .EVENT)
    { condition.restored with toBaseEventCondition := { conditionType := .EVENT } } rfl
  have h : AllRestore condition StateMachineDefinitionSwitchEventCondition.properties { conditionType := .EVENT } _ _
      condition.restored :=
    .cons (string_restores rfl)
      (.cons (object_restores (fun filter _ => eventDataFilter_restores filter) rfl) inherited)
  simpa using Class.built_restores h (by decide)

namespace EventCondition

/-- The type of the condition is that of its class. -/
def IsTyped : EventCondition → Prop
  | data condition => condition.conditionType = .DATA
  | event condition => condition.conditionType = .EVENT

/-- A condition, if it is one on data. -/
def data? : EventCondition → Option StateMachineDefinitionSwitchDataCondition
  | data condition => some condition
  | event _ => none

/-- A condition, if it is one on an event. -/
def event? : EventCondition → Option StateMachineDefinitionSwitchEventCondition
  | data _ => none
  | event condition => some condition

end EventCondition

namespace StateMachineDefinitionSwitchState

/-- The conditions of a data switch are those on the data. -/
theorem filter_data : ∀ {conditions : List EventCondition}, (∀ c ∈ conditions, c.IsTyped) →
    conditions.filter (fun c => SwitchStateProcessor.conditionType c = .DATA) =
      (conditions.filterMap (·.data?)).map .data
  | [], _ => rfl
  | .data condition :: conditions, typed => by
    have here : condition.conditionType = .DATA := typed _ List.mem_cons_self
    have tail := filter_data fun c member => typed c (List.mem_cons_of_mem _ member)
    simpa [SwitchStateProcessor.conditionType, EventCondition.data?, here] using tail
  | .event condition :: conditions, typed => by
    have here : condition.conditionType = .EVENT := typed _ List.mem_cons_self
    have tail := filter_data fun c member => typed c (List.mem_cons_of_mem _ member)
    simpa [SwitchStateProcessor.conditionType, EventCondition.data?, here] using tail

/-- The conditions of an event switch are those on events. -/
theorem filter_event : ∀ {conditions : List EventCondition}, (∀ c ∈ conditions, c.IsTyped) →
    conditions.filter (fun c => SwitchStateProcessor.conditionType c = .EVENT) =
      (conditions.filterMap (·.event?)).map .event
  | [], _ => rfl
  | .data condition :: conditions, typed => by
    have here : condition.conditionType = .DATA := typed _ List.mem_cons_self
    have tail := filter_event fun c member => typed c (List.mem_cons_of_mem _ member)
    simpa [SwitchStateProcessor.conditionType, EventCondition.event?, here] using tail
  | .event condition :: conditions, typed => by
    have here : condition.conditionType = .EVENT := typed _ List.mem_cons_self
    have tail := filter_event fun c member => typed c (List.mem_cons_of_mem _ member)
    simpa [SwitchStateProcessor.conditionType, EventCondition.event?, here] using tail

theorem eq_ok_of_mapError {α ε ε' : Type} {x : Except ε α} {f : ε → ε'} {a : α} (h : x.mapError f = .ok a) :
    x = .ok a := by
  cases x with
  | error e => cases h
  | ok b => rw [Except.ok.inj h]

/-- Where the type of a condition is not that of its class, one of the getters throws. -/
theorem typed_of_getters {state : StateMachineDefinitionSwitchState}
    {dataItems : List StateMachineDefinitionSwitchDataCondition}
    {eventItems : List StateMachineDefinitionSwitchEventCondition} {f : ProcessorError → SerializerException}
    (hd : state.dataConditions.mapError f = .ok dataItems) (he : state.eventConditions.mapError f = .ok eventItems) :
    ∀ c ∈ state.conditions, c.IsTyped := by
  intro c hc
  have data := castData_eq_ok.1 (eq_ok_of_mapError hd)
  have event := castEvent_eq_ok.1 (eq_ok_of_mapError he)
  cases type : SwitchStateProcessor.conditionType c with
  | DATA =>
    obtain ⟨_, -, rfl⟩ := List.mem_map.1 (data ▸ List.mem_filter.2 ⟨hc, decide_eq_true type⟩)
    exact type
  | EVENT =>
    obtain ⟨_, -, rfl⟩ := List.mem_map.1 (event ▸ List.mem_filter.2 ⟨hc, decide_eq_true type⟩)
    exact type

/-- The conditions are set by two properties, those on data first. -/
def restored (state : StateMachineDefinitionSwitchState) : StateMachineDefinitionSwitchState where
  toBaseStateMachineDefinitionState := state.toBaseStateMachineDefinitionState.restored
  conditions := ((state.conditions.filterMap (·.data?)).map (·.restored)).map .data ++
    ((state.conditions.filterMap (·.event?)).map (·.restored)).map .event
  defaultConditionStr := emitted state.defaultConditionStr

end StateMachineDefinitionSwitchState

/-- A default condition as it is restored. -/
def StateMachineDefinitionDefaultCondition.restored (condition : StateMachineDefinitionDefaultCondition) :
    StateMachineDefinitionDefaultCondition where
  transition := emitted condition.transition

/-- The default condition is built again with its transition. -/
theorem defaultConditionClass_restores (condition : StateMachineDefinitionDefaultCondition) :
    (Class.built ⟨none⟩ StateMachineDefinitionDefaultCondition.properties).Restores condition
      (emitted condition.transition).isSome condition.restored := by
  have h : AllRestore condition StateMachineDefinitionDefaultCondition.properties ⟨none⟩ _ _ condition.restored :=
    .cons (string_restores rfl) .nil
  simpa using Class.built_restores h (by decide)

namespace StateMachineDefinitionSwitchState

/-- The getter of `DefaultCondition` gives one only for a text that is not blank, and its setter sets the text. -/
theorem defaultCondition_restores (state r : StateMachineDefinitionSwitchState) (hr : r.defaultConditionStr = none) :
    defaultConditionProperty.Restores state r state.defaultCondition.isSome true
      { r with defaultConditionStr := emitted state.defaultConditionStr } := by
  have restores : defaultConditionProperty.Restores state r _ _ _ :=
    object_restores (fun condition _ => defaultConditionClass_restores condition) rfl
  cases hb : isNullOrWhiteSpace state.defaultConditionStr with
  | true =>
    have same : { r with defaultConditionStr := emitted state.defaultConditionStr } = r := by
      simp only [emitted, hb, if_true, ← hr]
    simpa [same, defaultCondition, hb, setDefaultCondition] using restores
  | false =>
    simpa [defaultCondition, hb, setDefaultCondition, StateMachineDefinitionDefaultCondition.restored,
      isSome_emitted] using restores

theorem distinct : DistinctNames (properties.map (·.name)) := by decide

/-- Only the properties of the conditions may be absent, so that something is always emitted. -/
theorem restores (state : StateMachineDefinitionSwitchState) (h : ∀ c ∈ state.conditions, c.IsTyped) :
    switchStateClass.Restores state true state.restored := by
  have inherited := AllRestore.inherited base state
    (state.toBaseStateMachineDefinitionState.allRestore .Switch)
    { state.restored with toBaseStateMachineDefinitionState := { type := .Switch } } rfl
  have conditions := (defaultCondition_restores state
    { type := .Switch, conditions := state.restored.conditions } rfl)
  have dataConditions : (state.dataConditions.mapError fun _ => SerializerException.invalidCast) =
      .ok (state.conditions.filterMap (·.data?)) := by
    rw [StateMachineDefinitionSwitchState.dataConditions, castData_eq_ok.2 (filter_data h)]
    rfl
  have eventConditions : (state.eventConditions.mapError fun _ => SerializerException.invalidCast) =
      .ok (state.conditions.filterMap (·.event?)) := by
    rw [StateMachineDefinitionSwitchState.eventConditions, castEvent_eq_ok.2 (filter_event h)]
    rfl
  have h : AllRestore state properties { type := .Switch } _ _ state.restored :=
    .cons ignored_restores (.cons ignored_restores
      (.cons (listOf_restores dataConditions (fun c _ => dataCondition_restores c) rfl)
        (.cons (listOf_restores eventConditions (fun c _ => eventCondition_restores c) (by simp [setEventConditions]))
          (.cons conditions inherited))))
  simpa [switchStateClass, all_true, -List.all_filterMap] using Class.built_restores h distinct

end StateMachineDefinitionSwitchState

end FaasNet.StateMachine
