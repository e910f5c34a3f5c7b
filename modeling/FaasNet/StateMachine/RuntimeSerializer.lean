import FaasNet.StateMachine.YamlRestored

/-!
# Definitions in YAML

`RuntimeSerializer` writes a definition when it is instantiated, and every later message to the instance is handled
with what is read back. YamlDotNet reads the definition itself, its start state, functions and events; the states
are read by the converter. What the processors do depends on some of the properties only; those are kept under
conditions that every class has of its own.
-/

namespace FaasNet.StateMachine

open FaasNet.Common PropertyInfo

/-! ## `RuntimeSerializer` -/

section Serializer

variable (json : JObjectTexts) (depth : Nat)

/-- The properties of a start. -/
def StateMachineDefinitionStartState.properties : List (PropertyInfo StateMachineDefinitionStartState) :=
  [string "StateName" (·.stateName) fun v t => { t with stateName := v },
   string "Schedule" (·.schedule) fun v t => { t with schedule := v },
   enum startStateTypes .IMMEDIATE "Type" (·.type) fun v t => { t with type := v }]

/-- The properties of a function. -/
def StateMachineDefinitionFunction.properties : List (PropertyInfo StateMachineDefinitionFunction) :=
  [string "Name" (·.name) fun v t => { t with name := v },
   string "Operation" (·.operation) fun v t => { t with operation := v },
   enum functionTypes .REST "Type" (·.type) fun v t => { t with type := v },
   convertedJObject json "Metadata" (·.metadataStr) fun v t => { t with metadataStr := v }]

/-- The properties of an event. -/
def StateMachineDefinitionEvent.properties : List (PropertyInfo StateMachineDefinitionEvent) :=
  [string "Name" (·.name) fun v t => { t with name := v },
   string "Source" (·.source) fun v t => { t with source := v },
   string "Type" (·.type) fun v t => { t with type := v },
   enum eventKinds .Consumed "Kind" (·.kind) fun v t => { t with kind := v },
   convertedJObject json "Metadata" (·.metadataStr) fun v t => { t with metadataStr := v }]

namespace StateMachineDefinitionAggregate

/-- The properties before `States`. Those with `YamlIgnore` are neither written nor read, and `Topic` is empty. -/
def firstProperties : List (PropertyInfo StateMachineDefinitionAggregate) :=
  [bool "IsLast" (·.isLast) fun v t => { t with isLast := v },
   string "Name" (·.name) fun v t => { t with name := v },
   string "Description" (·.description) fun v t => { t with description := v },
   object (.plain {} StateMachineDefinitionStartState.properties) "Start" (·.start)
    fun v t => { t with start := v }]

/-- The properties of a definition behind its states. -/
def lastProperties : List (PropertyInfo StateMachineDefinitionAggregate) :=
  [list (.plain {} (StateMachineDefinitionFunction.properties json)) "Functions" (·.functions)
    fun v t => { t with functions := v },
   list (.plain {} (StateMachineDefinitionEvent.properties json)) "Events" (·.events)
    fun v t => { t with events := v },
   string "Vpn" (·.vpn) fun v t => { t with vpn := v },
   string "ApplicationDomainId" (·.applicationDomainId) fun v t => { t with applicationDomainId := v },
   string "RootTopic" (·.rootTopic) fun v t => { t with rootTopic := v },
   enum statuses .CREATE "Status" (·.status) fun v t => { t with status := v },
   string "Id" (·.id) fun v t => { t with id := v },
   int "Version" (·.version) fun v t => { t with version := v }]

/-- The property with a name in camel case. -/
def findProperty (key : String) : Option (PropertyInfo StateMachineDefinitionAggregate) :=
  (firstProperties ++ lastProperties json).find? fun p => camelCase p.name = key

/-- Sets the property of a record. The items of `States` are left to the converter. -/
def setRecord (definition : StateMachineDefinitionAggregate) (record : String × YamlNode) :
    Except SerializerException StateMachineDefinitionAggregate :=
  if record.1 = "states" then
    match record.2 with
    | .sequence items => do
      let parser := YamlNode.itemEvents items ++ [.sequenceEnd]
      let states ← readStates json depth parser.length parser
      return { definition with states := states }
    | _ => throw .unexpectedNode
  else setNode (findProperty json) (fun _ => throw .propertyNotFound) definition (record.1, record.2.treeNode)

end StateMachineDefinitionAggregate

/-- `SerializeYaml`, up to the text of the document. -/
def serializeYaml (workflowDefinition : StateMachineDefinitionAggregate) : Except SerializerException YamlNode := do
  let first ← writeAll workflowDefinition StateMachineDefinitionAggregate.firstProperties
  let states ← workflowDefinition.states.mapM (DefinitionState.write json depth)
  let last ← writeAll workflowDefinition (StateMachineDefinitionAggregate.lastProperties json)
  let records := if states.isEmpty then [] else [("states", YamlNode.sequence (states.map .mapping))]
  return .mapping (first ++ (records ++ last))

/-- `DeserializeYaml`, from the document of the text. -/
def deserializeYaml : YamlNode → Except SerializerException StateMachineDefinitionAggregate
  | .mapping records => records.foldlM (StateMachineDefinitionAggregate.setRecord json depth) {}
  | _ => throw .unexpectedNode

end Serializer

/-! ## States -/

namespace DefinitionState

/-- The type that `MappingEnumToType` has the class of the state under. -/
def kind : DefinitionState → StateMachineDefinitionStateTypes
  | callback _ => .Callback
  | event _ => .Event
  | forEach _ => .ForEach
  | inject _ => .Inject
  | operation _ => .Operation
  | switch _ => .Switch

/-- The actions of a state. -/
def actions : DefinitionState → List StateMachineDefinitionAction
  | callback state => state.action.toList
  | event state => state.onEvents.flatMap (·.actions)
  | forEach state => state.actions
  | inject _ => []
  | operation state => state.actions
  | switch _ => []

/-- The conditions of a state. -/
def conditions : DefinitionState → List EventCondition
  | switch state => state.conditions
  | _ => []

/-- The text that stands for the `JObject` of an inject state. -/
def dataStr : DefinitionState → Option String
  | inject state => state.dataStr
  | _ => none

/-- All actions of the state are written. -/
def isWritten (state : DefinitionState) : Bool := state.actions.all (·.isWritten)

/-- A state as it is restored. -/
def restored : DefinitionState → DefinitionState
  | callback state => callback state.restored
  | event state => event state.restored
  | forEach state => forEach state.restored
  | inject state => inject state.restored
  | operation state => operation state.restored
  | switch state => switch state.restored

end DefinitionState

section States

variable {json : JObjectTexts} {depth : Nat}

/-- What a class restores is restored by the converter, under the type of the class. -/
theorem Class.Restores.build {U : Type} {type : Class U} {u u' : U} {extractable written : Bool}
    (h : type.Restores u extractable u') (same : extractable = written) (state : U → DefinitionState) :
    ∃ records, type.write u = .ok records ∧ (YamlNode.mapping records).isExtractable = written ∧
      (written = true → (do return (← type.build (YamlNode.treeRecords records)).map state) =
        (.ok (some (state u')) : Except SerializerException (Option DefinitionState))) := by
  obtain ⟨records, hw, he, hb⟩ := h
  subst same
  exact ⟨records, hw, he, fun hx => by rw [hb hx]; rfl⟩

/-- A state is emitted by its class and built again by it. -/
theorem DefinitionState.write_restores (json : JObjectTexts) {state : DefinitionState}
    (hd : ActionsFit depth state.actions)
    (hj : isNullOrWhiteSpace state.dataStr = true) (hc : ∀ c ∈ state.conditions, c.IsTyped) :
    ∃ records, state.write json depth = .ok records ∧ (YamlNode.mapping records).isExtractable = state.isWritten ∧
      (state.isWritten = true →
        YamlWorkflowDefinitionStateConverter.build json depth state.kind (YamlNode.treeRecords records) =
          .ok (some state.restored)) := by
  cases state with
  | callback state =>
    have restores := callbackClass_restores state fun action ha =>
      actions_restore json hd action (by simp [actions, ha])
    exact restores.build (by cases h : state.action <;> simp [isWritten, actions, h]) .callback
  | event state =>
    have restores := eventStateClass_restores json state fun onEvent ho action ha =>
      hd action (List.mem_flatMap.2 ⟨onEvent, ho, ha⟩)
    exact restores.build (by simp [isWritten, actions, List.all_flatMap]) .event
  | forEach state => exact (foreachStateClass_restores json state hd).build rfl .forEach
  | inject state => exact (injectStateClass_restores json state hj).build rfl .inject
  | operation state => exact (operationStateClass_restores json state hd).build rfl .operation
  | switch state => exact (state.restores hc).build rfl .switch

theorem DefinitionState.typed_of_write {state : DefinitionState} {records : List (String × YamlNode)}
    (h : state.write json depth = .ok records) : ∀ c ∈ state.conditions, c.IsTyped := by
  cases state with
  | switch state =>
    obtain ⟨_, hd⟩ := getValue_of_writeAll h StateMachineDefinitionSwitchState.dataConditionsProperty
      (by simp [StateMachineDefinitionSwitchState.properties])
    obtain ⟨_, he⟩ := getValue_of_writeAll h StateMachineDefinitionSwitchState.eventConditionsProperty
      (by simp [StateMachineDefinitionSwitchState.properties])
    obtain ⟨_, hd⟩ := get_of_getValue hd
    obtain ⟨_, he⟩ := get_of_getValue he
    exact StateMachineDefinitionSwitchState.typed_of_getters hd he
  | _ => exact fun _ hc => by cases hc

/-- The type in the YAML is the one that a property `Type` has. -/
theorem find_type_of_mem {T : Type} {t : T} {properties : List (PropertyInfo T)} {records : List (String × YamlNode)}
    {property : PropertyInfo T} {type : StateMachineDefinitionStateTypes}
    (hn : DistinctNames (properties.map (·.name))) (h : writeAll t properties = .ok records)
    (member : property ∈ properties) (name : property.name = "Type")
    (value : property.getValue t = .ok (some (.scalar (toLowerInvariant (stateTypes.name type))))) :
    records.find? (fun record => record.1 = "type") =
      some ("type", .scalar (toLowerInvariant (stateTypes.name type))) := by
  have key : camelCase property.name = "type" := by rw [name]; decide
  rw [← key]
  exact find_of_writeAll hn.nodup_camelCase h property member _ value

theorem BaseStateMachineDefinitionState.type_mem : typeProperty ∈ properties := by simp [properties]

theorem BaseStateMachineFlowableState.type_mem :
    BaseStateMachineDefinitionState.typeProperty.inherited base ∈ properties :=
  List.mem_append_right _ (List.mem_map_of_mem BaseStateMachineDefinitionState.type_mem)

/-- The type in the YAML is that of the state, whatever its class. -/
theorem DefinitionState.find_type {state : DefinitionState} {records : List (String × YamlNode)}
    (h : state.write json depth = .ok records) :
    records.find? (fun record => record.1 = "type") =
      some ("type", .scalar (toLowerInvariant (stateTypes.name state.base.type))) := by
  have inheritedMember {T : Type} {own : List (PropertyInfo T)} (base : BaseClass T BaseStateMachineFlowableState) :
      (BaseStateMachineDefinitionState.typeProperty.inherited BaseStateMachineFlowableState.base).inherited base ∈
        own ++ BaseStateMachineFlowableState.properties.map (inherited base) :=
    List.mem_append_right _ (List.mem_map_of_mem BaseStateMachineFlowableState.type_mem)
  cases state with
  | callback state =>
    exact find_type_of_mem (CallbackStateOf.distinct (actionClass json depth)) h (inheritedMember _) rfl rfl
  | event state =>
    exact find_type_of_mem (StateMachineDefinitionEventState.distinct json depth) h (inheritedMember _) rfl rfl
  | forEach state =>
    exact find_type_of_mem (StateMachineDefinitionForeachState.distinct json depth) h (inheritedMember _) rfl rfl
  | inject state =>
    exact find_type_of_mem (StateMachineDefinitionInjectState.distinct json) h (inheritedMember _) rfl rfl
  | operation state =>
    exact find_type_of_mem (StateMachineDefinitionOperationState.distinct json depth) h (inheritedMember _) rfl rfl
  | switch state =>
    exact find_type_of_mem StateMachineDefinitionSwitchState.distinct h
      (List.mem_append_right _ (List.mem_map_of_mem BaseStateMachineDefinitionState.type_mem)) rfl rfl

namespace YamlWorkflowDefinitionStateConverter

/-- What `ReadYaml` makes of the events of a mapping. -/
def readRecords (json : JObjectTexts) (depth : Nat) (records : List (String × YamlNode)) :
    Except SerializerException DefinitionState :=
  bif (YamlNode.mapping records).isExtractable then ofNodes json depth (YamlNode.treeRecords records)
  else .error .nullReference

theorem readYaml_events (records : List (String × YamlNode)) (rest : List ParsingEvent) :
    readYaml json depth ((YamlNode.mapping records).events ++ rest) =
      (readRecords json depth records).map fun state => (state, rest) := by
  unfold readYaml readRecords
  rw [ParserExtensions.extract_events]
  cases (YamlNode.mapping records).isExtractable with
  | false => rfl
  | true =>
    simp only [cond_true]
    show (ofNodes json depth (YamlNode.treeRecords records) >>= fun state => pure (state, rest)) = _
    cases ofNodes json depth (YamlNode.treeRecords records) <;> rfl

end YamlWorkflowDefinitionStateConverter

open YamlWorkflowDefinitionStateConverter

/-- The states of a sequence are read one after the other. -/
theorem readStates_itemEvents (rest : List ParsingEvent) :
    ∀ (states : List (List (String × YamlNode))) (fuel : Nat), states.length < fuel →
    readStates json depth fuel (YamlNode.itemEvents (states.map .mapping) ++ .sequenceEnd :: rest) =
      states.mapM (readRecords json depth)
  | [], fuel + 1, _ => rfl
  | records :: states, fuel + 1, h => by
    have tail := readStates_itemEvents rest states fuel (by simpa using h)
    have step : readStates json depth (fuel + 1)
        (YamlNode.itemEvents ((records :: states).map .mapping) ++ .sequenceEnd :: rest) =
        (readYaml json depth ((YamlNode.mapping records).events ++
            (YamlNode.itemEvents (states.map .mapping) ++ .sequenceEnd :: rest)) >>= fun read =>
          readStates json depth fuel read.2 >>= fun states => pure (read.1 :: states)) := by
      simp only [List.map_cons, YamlNode.itemEvents, List.append_assoc]
      rfl
    rw [step, YamlWorkflowDefinitionStateConverter.readYaml_events, List.mapM_cons]
    cases readRecords json depth records with
    | error e => rfl
    | ok state =>
      show (readStates json depth fuel _ >>= fun states => pure (state :: states)) = _
      rw [tail]
      rfl

/-- A state, written and read. -/
def DefinitionState.roundTrip (json : JObjectTexts) (depth : Nat) (state : DefinitionState) :
    Except SerializerException DefinitionState :=
  state.write json depth >>= readRecords json depth

end States

/-! ## The definition -/

/-- A start as it is restored. -/
def StateMachineDefinitionStartState.restored (start : StateMachineDefinitionStartState) :
    StateMachineDefinitionStartState where
  stateName := emitted start.stateName
  schedule := emitted start.schedule
  type := start.type

theorem startState_restores (start : StateMachineDefinitionStartState) :
    (Class.plain {} StateMachineDefinitionStartState.properties).Restores start true start.restored := by
  have h : AllRestore start StateMachineDefinitionStartState.properties {} _ _ start.restored :=
    .cons (string_restores rfl) (.cons (string_restores rfl) (.cons enum_restores .nil))
  simpa using Class.plain_restores h (by decide)

/-- A function as it is restored. -/
def StateMachineDefinitionFunction.restored (function : StateMachineDefinitionFunction) :
    StateMachineDefinitionFunction where
  name := emitted function.name
  operation := emitted function.operation
  type := function.type

theorem StateMachineDefinitionFunction.distinct (json : JObjectTexts) :
    DistinctNames ((properties json).map (·.name)) := by
  show DistinctNames ((properties .absent).map (·.name))
  decide

theorem function_restores (json : JObjectTexts) (function : StateMachineDefinitionFunction)
    (hj : isNullOrWhiteSpace function.metadataStr = true) :
    (Class.plain {} (StateMachineDefinitionFunction.properties json)).Restores function true function.restored := by
  have h : AllRestore function (StateMachineDefinitionFunction.properties json) {} _ _ function.restored :=
    .cons (string_restores rfl) (.cons (string_restores rfl) (.cons enum_restores
      (.cons (convertedJObject_restores hj) .nil)))
  simpa using Class.plain_restores h (StateMachineDefinitionFunction.distinct json)

/-- An event as it is restored. -/
def StateMachineDefinitionEvent.restored (event : StateMachineDefinitionEvent) : StateMachineDefinitionEvent where
  name := emitted event.name
  source := emitted event.source
  type := emitted event.type
  kind := event.kind

theorem StateMachineDefinitionEvent.distinct (json : JObjectTexts) :
    DistinctNames ((properties json).map (·.name)) := by
  show DistinctNames ((properties .absent).map (·.name))
  decide

theorem event_restores (json : JObjectTexts) (event : StateMachineDefinitionEvent)
    (hj : isNullOrWhiteSpace event.metadataStr = true) :
    (Class.plain {} (StateMachineDefinitionEvent.properties json)).Restores event true event.restored := by
  have h : AllRestore event (StateMachineDefinitionEvent.properties json) {} _ _ event.restored :=
    .cons (string_restores rfl) (.cons (string_restores rfl) (.cons (string_restores rfl) (.cons enum_restores
      (.cons (convertedJObject_restores hj) .nil))))
  simpa using Class.plain_restores h (StateMachineDefinitionEvent.distinct json)

namespace StateMachineDefinitionAggregate

/-- What is read back of a definition, given its states. -/
def restored (definition : StateMachineDefinitionAggregate) (states : List DefinitionState) :
    StateMachineDefinitionAggregate where
  id := emitted definition.id
  version := definition.version
  isLast := definition.isLast
  name := emitted definition.name
  description := emitted definition.description
  start := definition.start.map (·.restored)
  states := states
  functions := definition.functions.map (·.restored)
  events := definition.events.map (·.restored)
  vpn := emitted definition.vpn
  applicationDomainId := emitted definition.applicationDomainId
  rootTopic := emitted definition.rootTopic
  status := definition.status

/-- The properties of the `JObject` type are left empty. -/
structure LeavesJObjects (definition : StateMachineDefinitionAggregate) : Prop where
  states : ∀ state ∈ definition.states, isNullOrWhiteSpace state.dataStr = true ∧
    ∀ action ∈ state.actions, action.leavesJObjects = true
  functions : ∀ function ∈ definition.functions, isNullOrWhiteSpace function.metadataStr = true
  events : ∀ event ∈ definition.events, isNullOrWhiteSpace event.metadataStr = true

section

variable {json : JObjectTexts} {depth : Nat}

theorem distinct : DistinctNames ("States" :: (firstProperties ++ lastProperties json).map (·.name)) := by
  show DistinctNames ("States" :: (firstProperties ++ lastProperties .absent).map (·.name))
  decide

/-- What is read back of a definition up to `States`. -/
def firstRestored (definition : StateMachineDefinitionAggregate) : StateMachineDefinitionAggregate where
  isLast := definition.isLast
  name := emitted definition.name
  description := emitted definition.description
  start := definition.start.map (·.restored)

theorem first_allRestore (definition : StateMachineDefinitionAggregate) :
    ∃ b, AllRestore definition firstProperties {} b true definition.firstRestored := by
  have h : AllRestore definition firstProperties {} _ _ definition.firstRestored :=
    .cons bool_restores (.cons (string_restores rfl) (.cons (string_restores rfl)
      (.cons (object_restores (fun start _ => startState_restores start) rfl) .nil)))
  exact ⟨_, by simpa using h⟩

theorem last_allRestore (json : JObjectTexts) {definition : StateMachineDefinitionAggregate}
    (hj : definition.LeavesJObjects)
    (states : List DefinitionState) :
    ∃ b, AllRestore definition (lastProperties json) { definition.firstRestored with states := states } b true
      (definition.restored states) := by
  have h : AllRestore definition (lastProperties json) { definition.firstRestored with states := states } _ _
      (definition.restored states) :=
    .cons (list_restores (fun function hf => function_restores json function (hj.functions function hf)) rfl)
      (.cons (list_restores (fun event he => event_restores json event (hj.events event he)) rfl)
        (.cons (string_restores rfl) (.cons (string_restores rfl) (.cons (string_restores rfl) (.cons enum_restores
          (.cons (string_restores rfl) (.cons int_restores .nil)))))))
  exact ⟨_, by simpa [all_true] using h⟩

/-- Every property but `States` is set from its record as it is by `Build`. -/
theorem setRecord_camelCase (definition : StateMachineDefinitionAggregate) (node : YamlNode) :
    ∀ p ∈ firstProperties ++ lastProperties json,
      setRecord json depth definition (camelCase p.name, node) = p.setValue node.treeNode definition := by
  intro p member
  have nodup : (camelCase "States" :: ((firstProperties ++ lastProperties json).map (·.name)).map camelCase).Nodup :=
    distinct.nodup_map
  rw [List.nodup_cons] at nodup
  have other : camelCase p.name ≠ "states" := by
    intro same
    have states : camelCase "States" = "states" := by decide
    apply nodup.1
    rw [states, ← same]
    exact List.mem_map_of_mem (List.mem_map_of_mem member)
  have keys : ((firstProperties ++ lastProperties json).map fun p => camelCase p.name).Nodup := by
    simpa [List.map_map, Function.comp_def] using nodup.2
  have found := find_of_nodup keys p member
  simp only [setRecord, other, if_false, setNode, findProperty, found]

/-- A state takes an event at least. -/
theorem length_le_itemEvents : ∀ states : List (List (String × YamlNode)),
    states.length ≤ (YamlNode.itemEvents (states.map .mapping)).length
  | [] => Nat.le_refl _
  | records :: states => by
    have tail := length_le_itemEvents states
    simp only [List.map_cons, YamlNode.itemEvents, YamlNode.events, List.length_cons, List.length_append]
    omega

/-- The states are read from the one record for them. -/
theorem setRecord_states (definition : StateMachineDefinitionAggregate) (states : List (List (String × YamlNode))) :
    setRecord json depth definition ("states", .sequence (states.map .mapping)) =
      (states.mapM (YamlWorkflowDefinitionStateConverter.readRecords json depth)).map
        fun states => { definition with states := states } := by
  have enough : states.length < (YamlNode.itemEvents (states.map .mapping) ++ [ParsingEvent.sequenceEnd]).length := by
    have := length_le_itemEvents states
    simp only [List.length_append, List.length_cons, List.length_nil]
    omega
  show (readStates json depth _ _ >>= fun states => pure { definition with states := states }) = _
  rw [readStates_itemEvents [] states _ enough]
  cases states.mapM (YamlWorkflowDefinitionStateConverter.readRecords json depth) <;> rfl

/-- The records for `States`. -/
def statesRecords (states : List (List (String × YamlNode))) : List (String × YamlNode) :=
  if states.isEmpty then [] else [("states", .sequence (states.map .mapping))]

/-- With or without a record for them, the states are read. -/
theorem foldlM_statesRecords (definition : StateMachineDefinitionAggregate) (none : definition.states = [])
    (states : List (List (String × YamlNode))) :
    (statesRecords states).foldlM (setRecord json depth) definition =
      (states.mapM (YamlWorkflowDefinitionStateConverter.readRecords json depth)).map
        fun states => { definition with states := states } := by
  cases states with
  | nil =>
    have same : { definition with states := [] } = definition := by rw [← none]
    show Except.ok definition = Except.ok { definition with states := [] }
    rw [same]
  | cons records states =>
    rw [statesRecords, if_neg (by simp), List.foldlM_cons, setRecord_states]
    cases (records :: states).mapM (YamlWorkflowDefinitionStateConverter.readRecords json depth) <;> rfl

/-- The definition is read back exactly if each of its states is. -/
theorem deserialize_serialize {definition : StateMachineDefinitionAggregate} (hj : definition.LeavesJObjects) :
    (serializeYaml json depth definition >>= deserializeYaml json depth) =
      (definition.states.mapM (DefinitionState.write json depth) >>= fun states =>
        states.mapM (YamlWorkflowDefinitionStateConverter.readRecords json depth)).map definition.restored := by
  obtain ⟨_, first⟩ := definition.first_allRestore
  obtain ⟨firstRecords, hfirst, -, -, readFirst⟩ := first.records
  obtain ⟨_, last⟩ := last_allRestore json hj []
  obtain ⟨lastRecords, hlast, -⟩ := last.records
  have readLast : ∀ states, lastRecords.foldlM (setRecord json depth) { definition.firstRestored with states := states } =
      .ok (definition.restored states) := by
    intro states
    obtain ⟨_, last⟩ := last_allRestore json hj states
    obtain ⟨records, hrecords, -, -, read⟩ := last.records
    obtain rfl := Except.ok.inj (hlast.symm.trans hrecords)
    exact read rfl (setRecord json depth) fun p hp r node => setRecord_camelCase r node p (List.mem_append_right _ hp)
  have written : serializeYaml json depth definition = (definition.states.mapM (DefinitionState.write json depth)).map
      fun states => .mapping (firstRecords ++ (statesRecords states ++ lastRecords)) := by
    simp only [serializeYaml, hfirst, hlast]
    cases definition.states.mapM (DefinitionState.write json depth) <;> rfl
  rw [written]
  cases definition.states.mapM (DefinitionState.write json depth) with
  | error e => rfl
  | ok states =>
    show (firstRecords ++ (statesRecords states ++ lastRecords)).foldlM (setRecord json depth) {} = _
    rw [List.foldlM_append, readFirst rfl (setRecord json depth)
      fun p hp r node => setRecord_camelCase r node p (List.mem_append_left _ hp)]
    show (statesRecords states ++ lastRecords).foldlM (setRecord json depth) definition.firstRestored = _
    rw [List.foldlM_append, foldlM_statesRecords _ rfl]
    show _ = (states.mapM (YamlWorkflowDefinitionStateConverter.readRecords json depth)).map definition.restored
    cases states.mapM (YamlWorkflowDefinitionStateConverter.readRecords json depth) with
    | error e => rfl
    | ok states => exact readLast states

end

end StateMachineDefinitionAggregate

end FaasNet.StateMachine
