import FaasNet.StateMachine.RuntimeSerializer

/-!
# Definitions that workflows resume with

The engine and the processors read some of the properties of a definition only. A definition resumes as it was if
those are read back from its YAML as they were written.
-/

namespace FaasNet.StateMachine

open FaasNet.Lib FaasNet.Common PropertyInfo

/-! ## What the processors read -/

/-- `ActionExecutor` reads the name of the function and its arguments, which are null as an object if they are blank
as a text. -/
def StateMachineDefinitionFunctionRef.processed (functionRef : StateMachineDefinitionFunctionRef) :
    StateMachineDefinitionFunctionRef where
  refName := functionRef.refName
  argumentsStr := emitted functionRef.argumentsStr

/-- Nothing reads the name of an action, or its callback state. -/
def StateMachineDefinitionAction.processed : StateMachineDefinitionAction → StateMachineDefinitionAction
  | mk _ functionRef actionDataFilter _ => mk none (functionRef.map (·.processed)) actionDataFilter none

/-- `RuntimeEngine` reads these of any state. -/
def BaseStateMachineDefinitionState.processed (state : BaseStateMachineDefinitionState) :
    BaseStateMachineDefinitionState where
  id := state.id
  type := state.type
  stateDataFilterInput := state.stateDataFilterInput
  stateDataFilterOuput := state.stateDataFilterOuput

/-- A state with a transition as it is processed. -/
def BaseStateMachineFlowableState.processed (state : BaseStateMachineFlowableState) : BaseStateMachineFlowableState where
  toBaseStateMachineDefinitionState := state.toBaseStateMachineDefinitionState.processed
  isEnd := state.isEnd
  transition := state.transition

/-- The id of the action is a foreign key of the store. -/
def CallbackStateOf.processed (state : StateMachineDefinitionCallbackState) : StateMachineDefinitionCallbackState where
  toBaseStateMachineFlowableState := state.toBaseStateMachineFlowableState.processed
  action := state.action.map (·.processed)
  eventRef := state.eventRef
  eventDataFilter := state.eventDataFilter

/-- What is done on events as it is processed. -/
def StateMachineDefinitionOnEvent.processed (onEvent : StateMachineDefinitionOnEvent) : StateMachineDefinitionOnEvent where
  eventRefs := onEvent.eventRefs
  actionMode := onEvent.actionMode
  actions := onEvent.actions.map (·.processed)
  eventDataFilter := onEvent.eventDataFilter

/-- An event state as it is processed. -/
def StateMachineDefinitionEventState.processed (state : StateMachineDefinitionEventState) :
    StateMachineDefinitionEventState where
  toBaseStateMachineFlowableState := state.toBaseStateMachineFlowableState.processed
  exclusive := state.exclusive
  onEvents := state.onEvents.map (·.processed)

/-- Neither the output collection nor the parameter of the iterations is read. -/
def StateMachineDefinitionForeachState.processed (state : StateMachineDefinitionForeachState) :
    StateMachineDefinitionForeachState where
  toBaseStateMachineFlowableState := state.toBaseStateMachineFlowableState.processed
  inputCollection := state.inputCollection
  batchSize := state.batchSize
  mode := state.mode
  actions := state.actions.map (·.processed)

/-- An inject state as it is processed. -/
def StateMachineDefinitionInjectState.processed (state : StateMachineDefinitionInjectState) :
    StateMachineDefinitionInjectState where
  toBaseStateMachineFlowableState := state.toBaseStateMachineFlowableState.processed
  dataStr := emitted state.dataStr

/-- An operation state as it is processed. -/
def StateMachineDefinitionOperationState.processed (state : StateMachineDefinitionOperationState) :
    StateMachineDefinitionOperationState where
  toBaseStateMachineFlowableState := state.toBaseStateMachineFlowableState.processed
  actionMode := state.actionMode
  actions := state.actions.map (·.processed)

/-- All but the name. -/
def BaseEventCondition.processed (condition : BaseEventCondition) : BaseEventCondition :=
  { condition with name := none }

/-- A condition as it is processed. -/
def EventCondition.processed : EventCondition → EventCondition
  | data condition => data { condition with toBaseEventCondition := condition.toBaseEventCondition.processed }
  | event condition => event { condition with toBaseEventCondition := condition.toBaseEventCondition.processed }

/-- The default condition is not read. -/
def StateMachineDefinitionSwitchState.processed (state : StateMachineDefinitionSwitchState) :
    StateMachineDefinitionSwitchState where
  toBaseStateMachineDefinitionState := state.toBaseStateMachineDefinitionState.processed
  conditions := state.conditions.map (·.processed)

/-- A state as it is processed. -/
def DefinitionState.processed : DefinitionState → DefinitionState
  | callback state => callback state.processed
  | event state => event state.processed
  | forEach state => forEach state.processed
  | inject state => inject state.processed
  | operation state => operation state.processed
  | switch state => switch state.processed

/-- A function as it is processed. -/
def StateMachineDefinitionFunction.processed (function : StateMachineDefinitionFunction) :
    StateMachineDefinitionFunction where
  name := function.name
  operation := function.operation
  type := function.type
  metadataStr := emitted function.metadataStr

/-- An event as it is processed. -/
def StateMachineDefinitionEvent.processed (event : StateMachineDefinitionEvent) : StateMachineDefinitionEvent :=
  { event with metadataStr := emitted event.metadataStr }

/-! ## What is kept -/

/-- A text that is not blank without being null. -/
def isKept (text : Option String) : Bool := text.all fun text => !isNullOrWhiteSpace (some text)

/-- A text is emitted as it is exactly if it is kept. -/
theorem emitted_eq_iff {text : Option String} : emitted text = text ↔ isKept text := by
  cases text with
  | none => exact iff_of_true rfl rfl
  | some text => simp [emitted, isKept]

/-- The texts of the filter are kept. -/
def StateMachineDefinitionActionDataFilter.keepsValues (filter : StateMachineDefinitionActionDataFilter) : Bool :=
  isKept filter.fromStateData && isKept filter.results && isKept filter.toStateData

/-- The texts of the filter are kept. -/
def StateMachineDefinitionEventDataFilter.keepsValues (filter : StateMachineDefinitionEventDataFilter) : Bool :=
  isKept filter.data && isKept filter.toStateData

/-- The texts of the action are kept. -/
def StateMachineDefinitionAction.keepsValues : StateMachineDefinitionAction → Bool
  | mk _ functionRef actionDataFilter _ =>
    functionRef.all (fun functionRef => isKept functionRef.refName) && actionDataFilter.all (·.keepsValues)

/-- The texts that all states have are kept. -/
def BaseStateMachineDefinitionState.keepsValues (state : BaseStateMachineDefinitionState) : Bool :=
  isKept state.id && isKept state.stateDataFilterInput && isKept state.stateDataFilterOuput

/-- The texts of a state with a transition are kept. -/
def BaseStateMachineFlowableState.keepsValues (state : BaseStateMachineFlowableState) : Bool :=
  state.toBaseStateMachineDefinitionState.keepsValues && isKept state.transition

/-- No event reference is null. -/
def StateMachineDefinitionOnEvent.keepsValues (onEvent : StateMachineDefinitionOnEvent) : Bool :=
  onEvent.eventRefs.all (·.isSome) && onEvent.actions.all (·.keepsValues) &&
    onEvent.eventDataFilter.all (·.keepsValues)

/-- The texts of the condition are kept. -/
def EventCondition.keepsValues : EventCondition → Bool
  | data condition => isKept condition.transition && isKept condition.condition
  | event condition =>
    isKept condition.transition && isKept condition.eventRef && condition.eventDataFilter.all (·.keepsValues)

/-- The texts that are read are not blank without being null, and there is no size of a batch. -/
def DefinitionState.keepsValues : DefinitionState → Bool
  | callback state =>
    state.toBaseStateMachineFlowableState.keepsValues && state.action.all (·.keepsValues) && isKept state.eventRef &&
      state.eventDataFilter.all (·.keepsValues)
  | event state => state.toBaseStateMachineFlowableState.keepsValues && state.onEvents.all (·.keepsValues)
  | forEach state =>
    state.toBaseStateMachineFlowableState.keepsValues && isKept state.inputCollection && state.batchSize.isNone &&
      state.actions.all (·.keepsValues)
  | inject state => state.toBaseStateMachineFlowableState.keepsValues
  | operation state => state.toBaseStateMachineFlowableState.keepsValues && state.actions.all (·.keepsValues)
  | switch state =>
    state.toBaseStateMachineDefinitionState.keepsValues && state.conditions.all (·.keepsValues)

/-- The condition is one on data. -/
def EventCondition.isData : EventCondition → Bool
  | data _ => true
  | event _ => false

/-- All that a state needs to be read back. -/
structure DefinitionState.Survives (state : DefinitionState) : Prop where
  -- The converter chooses the class by the type.
  type : state.base.type = state.kind
  written : state.isWritten = true
  typed : ∀ c ∈ state.conditions, c.IsTyped
  sorted : state.conditions.Pairwise fun c d => d.isData → c.isData
  values : state.keepsValues = true

/-! ## What is read back -/

theorem StateMachineDefinitionActionDataFilter.restored_eq_iff {filter : StateMachineDefinitionActionDataFilter} :
    filter.restored = filter ↔ filter.keepsValues := by
  cases filter
  simp [restored, keepsValues, emitted_eq_iff, and_assoc]

theorem StateMachineDefinitionEventDataFilter.restored_eq_iff {filter : StateMachineDefinitionEventDataFilter} :
    filter.restored = filter ↔ filter.keepsValues := by
  cases filter
  simp [restored, keepsValues, emitted_eq_iff]

theorem eventDataFilter_restored_iff {filter : Option StateMachineDefinitionEventDataFilter} :
    filter.map (·.restored) = filter ↔ filter.all (·.keepsValues) := by
  cases filter <;> simp [StateMachineDefinitionEventDataFilter.restored_eq_iff]

theorem StateMachineDefinitionFunctionRef.processed_restored_iff {functionRef : StateMachineDefinitionFunctionRef}
    (empty : isNullOrWhiteSpace functionRef.argumentsStr = true) :
    functionRef.restored.processed = functionRef.processed ↔ isKept functionRef.refName := by
  have none : emitted functionRef.argumentsStr = none := if_pos empty
  simp [restored, processed, emitted_eq_iff, none]

theorem StateMachineDefinitionAction.processed_restored_iff {action : StateMachineDefinitionAction}
    (empty : action.leavesJObjects = true) : action.restored.processed = action.processed ↔ action.keepsValues := by
  obtain ⟨name, functionRef, actionDataFilter, callbackState⟩ := action
  rw [leavesJObjects_mk, Bool.and_eq_true, Option.all_eq_true] at empty
  have function : (functionRef.map (·.restored)).map (·.processed) = functionRef.map (·.processed) ↔
      functionRef.all fun functionRef => isKept functionRef.refName :=
    option_map_map_eq_map_iff fun f hf => StateMachineDefinitionFunctionRef.processed_restored_iff (empty.1 f hf)
  have filter : actionDataFilter.map (·.restored) = actionDataFilter ↔ actionDataFilter.all (·.keepsValues) := by
    cases actionDataFilter <;> simp [StateMachineDefinitionActionDataFilter.restored_eq_iff]
  rw [restored_mk]
  simp only [processed, mk.injEq, true_and, and_true, function, filter, keepsValues, Bool.and_eq_true]

theorem BaseStateMachineDefinitionState.processed_restored_iff {state : BaseStateMachineDefinitionState} :
    state.restored.processed = state.processed ↔ state.keepsValues := by
  simp [restored, processed, keepsValues, emitted_eq_iff, and_assoc]

theorem BaseStateMachineFlowableState.processed_restored_iff {state : BaseStateMachineFlowableState} :
    state.restored.processed = state.processed ↔ state.keepsValues := by
  simp [restored, processed, keepsValues, emitted_eq_iff, BaseStateMachineDefinitionState.processed_restored_iff]

/-- The actions of a state, or of one of its events. -/
theorem actions_processed_restored_iff {actions : List StateMachineDefinitionAction}
    (empty : ∀ action ∈ actions, action.leavesJObjects = true) :
    (actions.map (·.restored)).map (·.processed) = actions.map (·.processed) ↔ actions.all (·.keepsValues) :=
  map_map_eq_map_iff fun action member => StateMachineDefinitionAction.processed_restored_iff (empty action member)

theorem eventRefs_restored_iff {eventRefs : List (Option String)} :
    (eventRefs.map fun text => some (text.getD "")) = eventRefs ↔ eventRefs.all (·.isSome) := by
  rw [← List.map_id eventRefs, List.map_map, List.map_inj_left, List.all_eq_true, List.map_id]
  refine forall₂_congr fun text _ => ?_
  cases text <;> simp

theorem StateMachineDefinitionOnEvent.processed_restored_iff {onEvent : StateMachineDefinitionOnEvent}
    (empty : ∀ action ∈ onEvent.actions, action.leavesJObjects = true) :
    onEvent.restored.processed = onEvent.processed ↔ onEvent.keepsValues := by
  simp [restored, processed, keepsValues, actions_processed_restored_iff empty, eventRefs_restored_iff,
    eventDataFilter_restored_iff, and_assoc, -List.map_map, -List.all_eq_true]

/-! ### Switch states -/

namespace EventCondition

/-- What is built of a condition. -/
def restored : EventCondition → EventCondition
  | data condition => data condition.restored
  | event condition => event condition.restored

theorem processed_restored_iff (condition : EventCondition) :
    condition.restored.processed = condition.processed ↔ condition.keepsValues := by
  cases condition with
  | data condition =>
    simp [restored, processed, keepsValues, StateMachineDefinitionSwitchDataCondition.restored,
      BaseEventCondition.restored, BaseEventCondition.processed, emitted_eq_iff]
  | event condition =>
    simp [restored, processed, keepsValues, StateMachineDefinitionSwitchEventCondition.restored,
      BaseEventCondition.restored, BaseEventCondition.processed, emitted_eq_iff, eventDataFilter_restored_iff,
      and_assoc]

theorem isData_processed (condition : EventCondition) : condition.processed.isData = condition.isData := by
  cases condition <;> rfl

theorem isData_restored (condition : EventCondition) : condition.restored.isData = condition.isData := by
  cases condition <;> rfl

theorem filterMap_data : ∀ conditions : List EventCondition,
    ((conditions.filterMap (·.data?)).map (·.restored)).map .data = (conditions.filter (·.isData)).map (·.restored)
  | [] => rfl
  | data condition :: conditions => by
    have tail := filterMap_data conditions
    simpa [data?, isData, restored] using tail
  | event condition :: conditions => by
    have tail := filterMap_data conditions
    simpa [data?, isData] using tail

theorem filterMap_event : ∀ conditions : List EventCondition,
    ((conditions.filterMap (·.event?)).map (·.restored)).map .event =
      (conditions.filter fun c => !c.isData).map (·.restored)
  | [] => rfl
  | data condition :: conditions => by
    have tail := filterMap_event conditions
    simpa [event?, isData] using tail
  | event condition :: conditions => by
    have tail := filterMap_event conditions
    simpa [event?, isData, restored] using tail

end EventCondition

/-- The conditions are read back as they were if those on data came first. -/
theorem StateMachineDefinitionSwitchState.conditions_restored_iff (state : StateMachineDefinitionSwitchState) :
    state.restored.conditions.map (·.processed) = state.conditions.map (·.processed) ↔
      (state.conditions.Pairwise fun c d => d.isData → c.isData) ∧ state.conditions.all (·.keepsValues) := by
  have parts : state.restored.conditions = (state.conditions.filter (·.isData) ++
      state.conditions.filter fun c => !c.isData).map (·.restored) := by
    rw [List.map_append, ← EventCondition.filterMap_data, ← EventCondition.filterMap_event]
    rfl
  have each : (state.conditions.map (·.restored)).map (·.processed) = state.conditions.map (·.processed) ↔
      state.conditions.all (·.keepsValues) :=
    map_map_eq_map_iff fun c _ => c.processed_restored_iff
  rw [parts]
  constructor
  · intro same
    have kinds := congrArg (List.map (·.isData)) same
    simp only [List.map_map, Function.comp_def, EventCondition.isData_processed, EventCondition.isData_restored] at kinds
    have first : (state.conditions.map (·.isData)).Pairwise fun c d => d = true → c = true := by
      refine (filter_append_filter_iff id _).1 ?_
      simpa [List.filter_map, Function.comp_def] using kinds
    have sorted := List.pairwise_map.1 first
    rw [(filter_append_filter_iff _ _).2 sorted] at same
    exact ⟨sorted, each.1 same⟩
  · rintro ⟨sorted, kept⟩
    rw [(filter_append_filter_iff _ _).2 sorted]
    exact each.2 kept

/-! ### States -/

namespace DefinitionState

/-- A state is processed as one of its kind. -/
theorem kind_processed (state : DefinitionState) : state.processed.kind = state.kind := by cases state <;> rfl

/-- What is built of a state gives the processors the same exactly under the conditions of its class. -/
theorem processed_restored_iff {state : DefinitionState}
    (empty : ∀ action ∈ state.actions, action.leavesJObjects = true)
    (blank : isNullOrWhiteSpace state.dataStr = true) :
    state.restored.processed = state.processed ↔
      (state.conditions.Pairwise fun c d => d.isData → c.isData) ∧ state.keepsValues := by
  cases state with
  | callback state =>
    have action : (state.action.map (·.restored)).map (·.processed) = state.action.map (·.processed) ↔
        state.action.all (·.keepsValues) :=
      option_map_map_eq_map_iff fun action ha =>
        StateMachineDefinitionAction.processed_restored_iff (empty action (by simp [actions, ha]))
    simp [restored, processed, CallbackStateOf.restored, CallbackStateOf.processed, keepsValues, conditions, action,
      BaseStateMachineFlowableState.processed_restored_iff, emitted_eq_iff, eventDataFilter_restored_iff, and_assoc,
      -Option.map_map]
  | event state =>
    have onEvents : (state.onEvents.map (·.restored)).map (·.processed) = state.onEvents.map (·.processed) ↔
        state.onEvents.all (·.keepsValues) :=
      map_map_eq_map_iff fun onEvent member => StateMachineDefinitionOnEvent.processed_restored_iff
        fun action ha => empty action (List.mem_flatMap.2 ⟨onEvent, member, ha⟩)
    simp [restored, processed, StateMachineDefinitionEventState.restored, StateMachineDefinitionEventState.processed,
      keepsValues, conditions, onEvents, BaseStateMachineFlowableState.processed_restored_iff, -List.map_map,
      -List.all_eq_true]
  | forEach state =>
    have same := actions_processed_restored_iff empty
    simp only [actions] at same
    have batchSize : none = state.batchSize ↔ state.batchSize = none := eq_comm
    simp [restored, processed, StateMachineDefinitionForeachState.restored,
      StateMachineDefinitionForeachState.processed, keepsValues, conditions, same, batchSize,
      BaseStateMachineFlowableState.processed_restored_iff, emitted_eq_iff, and_assoc, -List.map_map,
      -List.all_eq_true]
  | inject state =>
    have none : emitted state.dataStr = none := if_pos blank
    simp [restored, processed, StateMachineDefinitionInjectState.restored,
      StateMachineDefinitionInjectState.processed, keepsValues, conditions, none,
      BaseStateMachineFlowableState.processed_restored_iff]
  | operation state =>
    have same := actions_processed_restored_iff empty
    simp only [actions] at same
    simp [restored, processed, StateMachineDefinitionOperationState.restored,
      StateMachineDefinitionOperationState.processed, keepsValues, conditions, same,
      BaseStateMachineFlowableState.processed_restored_iff, -List.map_map, -List.all_eq_true]
  | switch state =>
    have same := state.conditions_restored_iff
    simp only [restored, processed, StateMachineDefinitionSwitchState.processed, keepsValues, conditions, switch.injEq,
      StateMachineDefinitionSwitchState.mk.injEq, and_true, same, Bool.and_eq_true]
    rw [show state.restored.toBaseStateMachineDefinitionState = state.toBaseStateMachineDefinitionState.restored from rfl,
      BaseStateMachineDefinitionState.processed_restored_iff]
    tauto

end DefinitionState

/-! ### The round trip of a state -/

section

variable {json : JObjectTexts} {depth : Nat}

open YamlWorkflowDefinitionStateConverter

/-- A state that is built is made of what is built. -/
theorem exists_of_map_eq_ok {S U : Type} {built : Except SerializerException (Option U)} {make : U → S} {state : S}
    (h : (do return (← built).map make) = (.ok (some state) : Except SerializerException (Option S))) :
    ∃ u, make u = state := by
  cases built with
  | error e => cases h
  | ok u =>
    cases u with
    | none => cases Except.ok.inj h
    | some u => exact ⟨u, Option.some.inj (Except.ok.inj h)⟩

/-- `Build` makes an object of the class that it is given. -/
theorem kind_of_build {type : StateMachineDefinitionStateTypes} {nodes : List (String × TreeNode)}
    {state : DefinitionState} (h : build json depth type nodes = .ok (some state)) : state.kind = type := by
  cases type with
  | Sleep => cases h
  | Parallel => cases h
  | _ =>
    obtain ⟨_, rfl⟩ := exists_of_map_eq_ok h
    rfl

/-- A record is found in the tree of the records by its key. -/
theorem find_treeRecords (key : String) : ∀ records : List (String × YamlNode),
    (YamlNode.treeRecords records).find? (fun node => node.1 = key) =
      (records.find? fun record => record.1 = key).map fun record => (record.1, record.2.treeNode)
  | [] => rfl
  | (name, node) :: records => by
    have tail := find_treeRecords key records
    by_cases h : name = key <;> simp [YamlNode.treeRecords, h, tail]

/-- The class is chosen by the text of the type. -/
theorem ofNodes_eq_ok_iff {records : List (String × YamlNode)} {type : StateMachineDefinitionStateTypes}
    (found : records.find? (fun record => record.1 = "type") =
      some ("type", .scalar (toLowerInvariant (stateTypes.name type)))) {state : DefinitionState} :
    ofNodes json depth (YamlNode.treeRecords records) = .ok state ↔
      build json depth type (YamlNode.treeRecords records) = .ok (some state) := by
  have node := find_treeRecords "type" records
  rw [found] at node
  have parsed := stateTypes.parses type
  have chosen : ofNodes json depth (YamlNode.treeRecords records) =
      (build json depth type (YamlNode.treeRecords records) >>= fun built => built.elim (throw .nullReference) pure) := by
    simp only [ofNodes, node, Option.map_some, YamlNode.treeNode, Option.some.injEq, parsed]
    refine bind_congr fun built => ?_
    cases built <;> rfl
  rw [chosen]
  cases build json depth type (YamlNode.treeRecords records) with
  | error e => exact iff_of_false (fun h => by cases h) (fun h => by cases h)
  | ok built =>
    cases built with
    | none => exact iff_of_false (fun h => by cases h) (fun h => by cases h)
    | some built =>
      show Except.ok built = Except.ok state ↔ _
      simp

/-- A state of the same kind is read back exactly if the state can be written and read by its class. -/
theorem DefinitionState.roundTrip_eq_ok_iff {state resumed : DefinitionState} (fits : ActionsFit depth state.actions)
    (blank : isNullOrWhiteSpace state.dataStr = true) (kind : resumed.kind = state.kind) :
    state.roundTrip json depth = .ok resumed ↔
      state.base.type = state.kind ∧ state.isWritten = true ∧ (∀ c ∈ state.conditions, c.IsTyped) ∧
        resumed = state.restored := by
  constructor
  · intro h
    rw [roundTrip] at h
    cases written : state.write json depth with
    | error e => rw [written] at h; cases h
    | ok records =>
      have typed := typed_of_write written
      obtain ⟨same, writes, extractable, built⟩ := write_restores json fits blank typed
      obtain rfl := Except.ok.inj (written.symm.trans writes)
      rw [written] at h
      change readRecords json depth records = .ok resumed at h
      rw [readRecords, extractable] at h
      cases complete : state.isWritten with
      | false => rw [complete] at h; cases h
      | true =>
        rw [complete] at h
        have read := (ofNodes_eq_ok_iff (find_type written)).1 h
        have type : state.base.type = state.kind := (kind_of_build read).symm.trans kind
        rw [type, built complete] at read
        exact ⟨type, rfl, typed, (Option.some.inj (Except.ok.inj read)).symm⟩
  · rintro ⟨type, complete, typed, rfl⟩
    obtain ⟨records, writes, extractable, built⟩ := write_restores json fits blank typed
    have read := (ofNodes_eq_ok_iff (find_type writes)).2 (by rw [type]; exact built complete)
    rw [roundTrip, writes]
    show readRecords json depth records = _
    rw [readRecords, extractable, complete]
    exact read

/-- A state that survives is restored by a round trip. -/
theorem DefinitionState.Survives.roundTrip {state : DefinitionState} (survives : state.Survives)
    (fits : ActionsFit depth state.actions) (blank : isNullOrWhiteSpace state.dataStr = true) :
    state.roundTrip json depth = .ok state.restored ∧ state.restored.processed = state.processed := by
  have same := (processed_restored_iff (fun action member => (fits action member).2) blank).2
    ⟨survives.sorted, survives.values⟩
  have kind : state.restored.kind = state.kind := by rw [← kind_processed, same, kind_processed]
  exact ⟨(roundTrip_eq_ok_iff fits blank kind).2 ⟨survives.type, survives.written, survives.typed, rfl⟩, same⟩

/-- The processors find the same in what is read back exactly if the state survives. -/
theorem DefinitionState.survives_iff {state : DefinitionState} (fits : ActionsFit depth state.actions)
    (blank : isNullOrWhiteSpace state.dataStr = true) :
    (∃ resumed, state.roundTrip json depth = .ok resumed ∧ resumed.processed = state.processed) ↔ state.Survives := by
  constructor
  · rintro ⟨resumed, read, same⟩
    have kind : resumed.kind = state.kind := by rw [← kind_processed, same, kind_processed]
    obtain ⟨type, complete, typed, rfl⟩ := (roundTrip_eq_ok_iff fits blank kind).1 read
    obtain ⟨sorted, kept⟩ := (processed_restored_iff (fun action member => (fits action member).2) blank).1 same
    exact ⟨type, complete, typed, sorted, kept⟩
  · intro survives
    exact ⟨state.restored, survives.roundTrip fits blank⟩

end

/-! ## Definitions -/

theorem StateMachineDefinitionFunction.processed_restored_iff {function : StateMachineDefinitionFunction}
    (blank : isNullOrWhiteSpace function.metadataStr = true) :
    function.restored.processed = function.processed ↔ (isKept function.name && isKept function.operation) := by
  have none : emitted function.metadataStr = none := if_pos blank
  simp [restored, processed, emitted_eq_iff, none]

theorem StateMachineDefinitionEvent.processed_restored_iff {event : StateMachineDefinitionEvent}
    (blank : isNullOrWhiteSpace event.metadataStr = true) :
    event.restored.processed = event.processed ↔ (isKept event.name && isKept event.source && isKept event.type) := by
  have none : emitted event.metadataStr = none := if_pos blank
  simp [restored, processed, emitted_eq_iff, none, and_assoc]

namespace StateMachineDefinitionAggregate

/-- What is read back of the YAML of the definition has the same states, functions and events for the processors. -/
def Resumes (json : JObjectTexts) (depth : Nat) (definition : StateMachineDefinitionAggregate) : Prop :=
  ∃ resumed, (serializeYaml json depth definition >>= deserializeYaml json depth) = .ok resumed ∧
    resumed.states.map (·.processed) = definition.states.map (·.processed) ∧
    resumed.functions.map (·.processed) = definition.functions.map (·.processed) ∧
    resumed.events.map (·.processed) = definition.events.map (·.processed)

structure Survives (definition : StateMachineDefinitionAggregate) : Prop where
  states : ∀ state ∈ definition.states, state.Survives
  functions : definition.functions.all fun function => isKept function.name && isKept function.operation
  events : definition.events.all fun event => isKept event.name && isKept event.source && isKept event.type

/-- No action is nested deeper in callback states than the recursion goes. -/
def Fits (depth : Nat) (definition : StateMachineDefinitionAggregate) : Prop :=
  ∀ state ∈ definition.states, ∀ action ∈ state.actions, action.depth < depth

section
variable {json : JObjectTexts} {depth : Nat} {definition : StateMachineDefinitionAggregate}

/-- The states are read back one by one. -/
theorem deserialize_serialize_eq_ok_iff (empty : definition.LeavesJObjects) {resumed : StateMachineDefinitionAggregate} :
    (serializeYaml json depth definition >>= deserializeYaml json depth) = .ok resumed ↔
      ∃ states, List.Forall₂ (fun state state' => state.roundTrip json depth = .ok state') definition.states states ∧
        definition.restored states = resumed := by
  have rounds (states : List DefinitionState) : (definition.states.mapM (DefinitionState.write json depth) >>=
      fun records => records.mapM (YamlWorkflowDefinitionStateConverter.readRecords json depth)) = .ok states ↔
      List.Forall₂ (fun state state' => state.roundTrip json depth = .ok state') definition.states states := by
    rw [← mapM_eq_ok_iff]
    show _ ↔ definition.states.mapM (fun state => state.write json depth >>= _) = _
    rw [mapM_bind_eq_ok_iff]
    cases definition.states.mapM (DefinitionState.write json depth) with
    | error e => exact iff_of_false (fun h => by cases h) (fun ⟨_, h, _⟩ => by cases h)
    | ok records =>
      constructor
      · exact fun read => ⟨records, rfl, read⟩
      · rintro ⟨_, same, read⟩
        cases same
        exact read
  rw [deserialize_serialize empty]
  constructor
  · intro read
    cases given : definition.states.mapM (DefinitionState.write json depth) >>= fun records =>
        records.mapM (YamlWorkflowDefinitionStateConverter.readRecords json depth) with
    | error e =>
      rw [given] at read
      cases read
    | ok states =>
      rw [given] at read
      exact ⟨states, (rounds states).1 given, Except.ok.inj read⟩
  · rintro ⟨states, each, rfl⟩
    rw [(rounds states).2 each]
    rfl

/-- A definition resumes as it was started exactly if nothing in it is one of those that are lost. -/
theorem resumes_iff (fits : definition.Fits depth) (empty : definition.LeavesJObjects) :
    definition.Resumes json depth ↔ definition.Survives := by
  have functions : (definition.functions.map (·.restored)).map (·.processed) =
      definition.functions.map (·.processed) ↔
        definition.functions.all fun function => isKept function.name && isKept function.operation :=
    map_map_eq_map_iff fun function member =>
      StateMachineDefinitionFunction.processed_restored_iff (empty.functions function member)
  have events : (definition.events.map (·.restored)).map (·.processed) = definition.events.map (·.processed) ↔
      definition.events.all fun event => isKept event.name && isKept event.source && isKept event.type :=
    map_map_eq_map_iff fun event member =>
      StateMachineDefinitionEvent.processed_restored_iff (empty.events event member)
  have actionsFit : ∀ state ∈ definition.states, ActionsFit depth state.actions := fun state member action inside =>
    ⟨fits state member action inside, (empty.states state member).2 action inside⟩
  constructor
  · rintro ⟨_, read, sameStates, sameFunctions, sameEvents⟩
    obtain ⟨states, each, rfl⟩ := (deserialize_serialize_eq_ok_iff empty).1 read
    refine ⟨fun state member => ?_, functions.1 sameFunctions, events.1 sameEvents⟩
    exact (DefinitionState.survives_iff (actionsFit state member) (empty.states state member).1).1
      (exists_of_forall₂ each sameStates state member)
  · intro all
    have each : ∀ state ∈ definition.states, state.roundTrip json depth = .ok state.restored ∧
        state.restored.processed = state.processed := fun state member =>
      (all.states state member).roundTrip (actionsFit state member) (empty.states state member).1
    have pairs : List.Forall₂ (fun state state' => state.roundTrip json depth = .ok state') definition.states
        (definition.states.map (·.restored)) :=
      List.forall₂_map_right_iff.2 (List.forall₂_same.2 fun state member => (each state member).1)
    refine ⟨definition.restored (definition.states.map (·.restored)), ?_, ?_, functions.2 all.functions,
      events.2 all.events⟩
    · exact (deserialize_serialize_eq_ok_iff empty).2 ⟨_, pairs, rfl⟩
    · show (definition.states.map (·.restored)).map (·.processed) = _
      rw [List.map_map]
      exact List.map_inj_left.2 fun state member => (each state member).2

end

/-- A workflow of one state, which sends the items of its input, a batch at a time if there is a size. -/
def sendingItems (batchSize : Option Int32) : StateMachineDefinitionAggregate where
  name := some "sending"
  start := some { stateName := some "each" }
  states := [.forEach {
    id := some "each", name := some "each", type := .ForEach, isEnd := true, inputCollection := some ".items",
    batchSize := batchSize, actions := [.mk (some "send") (some { refName := some "send" }) none none] }]
  functions := [{ name := some "send", operation := some "https://api/swagger.json#send" }]

theorem fits_sendingItems (batchSize : Option Int32) : (sendingItems batchSize).Fits 1 := by
  intro state member action inside
  simp only [sendingItems, List.mem_singleton] at member
  subst member
  simp only [DefinitionState.actions, List.mem_singleton] at inside
  subst inside
  decide

theorem leavesJObjects_sendingItems (batchSize : Option Int32) : (sendingItems batchSize).LeavesJObjects := by
  refine ⟨?_, ?_, fun event member => by cases member⟩
  · intro state member
    simp only [sendingItems, List.mem_singleton] at member
    subst member
    refine ⟨rfl, fun action inside => ?_⟩
    simp only [DefinitionState.actions, List.mem_singleton] at inside
    subst inside
    rfl
  · intro function member
    simp only [sendingItems, List.mem_singleton] at member
    subst member
    rfl

/-- Without a batch size the definition that sends items resumes. -/
theorem resumes_iff_sendingItems : (sendingItems none).Resumes .absent 1 := by
  refine (resumes_iff (fits_sendingItems none) (leavesJObjects_sendingItems none)).2 ⟨?_, by decide, by decide⟩
  intro state member
  simp only [sendingItems, List.mem_singleton] at member
  subst member
  exact ⟨rfl, by decide, (fun c inside => by cases inside), .nil, by decide⟩

/-- The size of the batches is lost. -/
theorem not_resumes_batchSize : (sendingItems (some 2)).Fits 1 ∧ (sendingItems (some 2)).LeavesJObjects ∧
    ¬ (sendingItems (some 2)).Resumes .absent 1 := by
  have empty := leavesJObjects_sendingItems (some 2)
  refine ⟨fits_sendingItems (some 2), empty, ?_⟩
  rintro ⟨_, read, sameStates, -⟩
  obtain ⟨states, each, rfl⟩ := (deserialize_serialize_eq_ok_iff empty).1 read
  have restored := exists_of_forall₂ each sameStates _ List.mem_cons_self
  have survives := (DefinitionState.survives_iff (fun action inside =>
    ⟨fits_sendingItems (some 2) _ List.mem_cons_self action inside,
      (empty.states _ List.mem_cons_self).2 action inside⟩) (empty.states _ List.mem_cons_self).1).1 restored
  exact absurd survives.values (by decide)

end StateMachineDefinitionAggregate

end FaasNet.StateMachine
