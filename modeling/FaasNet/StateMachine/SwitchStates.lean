import FaasNet.StateMachine.StateExecution

/-!
# Switch states

A switch state takes the first of its data conditions that is true. Its definition has a default condition besides, for
when none is; the processor does not look at it.
-/

namespace FaasNet.StateMachine

open FaasNet.Lib FaasNet.Common FaasNet.Domain

/-! ## The conditions of the definition -/

/-- The transition without a condition. -/
structure StateMachineDefinitionDefaultCondition where
  transition : Option String
  deriving DecidableEq, Repr

namespace StateMachineDefinitionSwitchState

variable (state : StateMachineDefinitionSwitchState)

/-- The conditions of this type, if they can be cast. -/
def dataConditions : Except ProcessorError (List StateMachineDefinitionSwitchDataCondition) :=
  SwitchStateProcessor.castData (state.conditions.filter fun c => SwitchStateProcessor.conditionType c = .DATA)

/-- The conditions of this type, if they can be cast. -/
def eventConditions : Except ProcessorError (List StateMachineDefinitionSwitchEventCondition) :=
  SwitchStateProcessor.castEvent (state.conditions.filter fun c => SwitchStateProcessor.conditionType c = .EVENT)

/-- The default condition, if there is one. -/
def defaultCondition : Option StateMachineDefinitionDefaultCondition :=
  if isNullOrWhiteSpace state.defaultConditionStr then none else some ⟨state.defaultConditionStr⟩

/-- Data conditions are added to the conditions. -/
def setDataConditions (value : Option (List StateMachineDefinitionSwitchDataCondition)) :
    StateMachineDefinitionSwitchState :=
  { state with conditions := state.conditions ++ (value.getD []).map .data }

/-- Event conditions are added to the conditions. -/
def setEventConditions (value : Option (List StateMachineDefinitionSwitchEventCondition)) :
    StateMachineDefinitionSwitchState :=
  { state with conditions := state.conditions ++ (value.getD []).map .event }

/-- The default condition is replaced by one that is given. -/
def setDefaultCondition (value : Option StateMachineDefinitionDefaultCondition) : StateMachineDefinitionSwitchState :=
  { state with defaultConditionStr := value.elim state.defaultConditionStr (·.transition) }

variable {state}

/-- Without event conditions, the conditions are the data conditions in their order. -/
theorem conditions_of_dataConditions {data : List StateMachineDefinitionSwitchDataCondition}
    (read : state.dataConditions = .ok data) (noEvents : state.eventConditions = .ok []) :
    state.conditions = data.map .data ∧ ∀ c ∈ state.conditions, SwitchStateProcessor.conditionType c = .DATA := by
  have nothing : state.conditions.filter (fun c => SwitchStateProcessor.conditionType c = .EVENT) = [] := castEvent_eq_ok.mp noEvents
  have all : ∀ c ∈ state.conditions, SwitchStateProcessor.conditionType c = .DATA := by
    intro c member
    have other := List.filter_eq_nil_iff.mp nothing c member
    cases type : SwitchStateProcessor.conditionType c with
    | DATA => rfl
    | EVENT => simp [type] at other
  refine ⟨?_, all⟩
  have same : state.conditions.filter (fun c => SwitchStateProcessor.conditionType c = .DATA) = state.conditions :=
    List.filter_eq_self.mpr fun c member => by simp [all c member]
  rw [← same]
  exact castData_eq_ok.mp read

/-- What is set is read back. -/
theorem dataConditions_setDataConditions {data : List StateMachineDefinitionSwitchDataCondition} (new : state.conditions = [])
    (typed : ∀ c ∈ data, c.conditionType = .DATA) :
    (state.setDataConditions (some data)).dataConditions = .ok data ∧
      (state.setDataConditions (some data)).eventConditions = .ok [] := by
  have conditions : (state.setDataConditions (some data)).conditions = data.map .data := by
    rw [setDataConditions, new]
    rfl
  rw [dataConditions, eventConditions, conditions]
  constructor
  · rw [List.filter_eq_self.mpr, castData_eq_ok]
    simp only [List.mem_map, forall_exists_index, and_imp, decide_eq_true_eq]
    rintro _ c member rfl
    exact typed c member
  · rw [List.filter_eq_nil_iff.mpr]
    · rfl
    · simp only [List.mem_map, forall_exists_index, and_imp, decide_eq_true_eq]
      rintro _ c member rfl
      simp [SwitchStateProcessor.conditionType, typed c member]

end StateMachineDefinitionSwitchState

/-! ## The processor -/

section
variable {J : Type} (context : ExecutionContext J) (switchState : StateMachineDefinitionSwitchState)

/-- The first of the conditions that is true of the input. -/
def firstTrue (s : StateMachineInstanceState) (conditions : List StateMachineDefinitionSwitchDataCondition) :
    Option StateMachineDefinitionSwitchDataCondition :=
  conditions.find? fun c => context.services.evaluateCondition s c.condition = .ok true

/-- What a switch state is to answer: it goes on as the first true condition says, else as the default condition, and it
is blocked only if there is none. -/
def SwitchAnswer (s : StateMachineInstanceState) (conditions : List StateMachineDefinitionSwitchDataCondition)
    (answer : StateProcessorResult J) : Prop :=
  match firstTrue context s conditions with
  | some condition => ∃ input, context.services.getInput s = .ok input ∧ answer = condition.ok input
  | none =>
    match switchState.defaultCondition with
    | some default => ∃ input, context.services.getInput s = .ok input ∧ answer = .next input default.transition
    | none => answer = .block

variable {context switchState} {s : StateMachineInstanceState} {aggregate : StateMachineInstanceAggregate}
  {conditions : List StateMachineDefinitionSwitchDataCondition}

open Method

theorem tryCheckData_eq (booleans : ∀ c ∈ conditions, ∃ b, context.services.evaluateCondition s c.condition = .ok b) :
    SwitchStateProcessor.tryCheckData context s conditions = .ok (firstTrue context s conditions) := by
  induction conditions with
  | nil => rfl
  | cons c conditions ih =>
    obtain ⟨b, evaluated⟩ := booleans c List.mem_cons_self
    rw [SwitchStateProcessor.tryCheckData, evaluated, firstTrue]
    cases b with
    | true => rw [List.find?_cons_of_pos (by simp [evaluated])]; rfl
    | false =>
      rw [List.find?_cons_of_neg (by simp [evaluated])]
      exact ih fun c later => booleans c (List.mem_cons_of_mem _ later)

theorem getInput_of_evaluateCondition {expression : Option String} {b : Bool}
    (evaluated : context.services.evaluateCondition s expression = .ok b) : ∃ input, context.services.getInput s = .ok input := by
  unfold RuntimeServices.evaluateCondition at evaluated
  cases expression with
  | none => cases evaluated
  | some expression =>
    cases given : context.services.getInput s with
    | ok input => exact ⟨input, rfl⟩
    | error e =>
      rw [given] at evaluated
      cases evaluated

/-- What the processor does: it changes nothing, and looks at the conditions only. -/
theorem process_switch (typed : switchState.type = .Switch)
    (found : aggregate.state.getState (some context.stateInstance.id) = some s)
    (read : switchState.dataConditions = .ok conditions) (noEvents : switchState.eventConditions = .ok [])
    (booleans : ∀ c ∈ conditions, ∃ b, context.services.evaluateCondition s c.condition = .ok b) :
    (∀ condition, firstTrue context s conditions = some condition → ∃ input, context.services.getInput s = .ok input ∧
        process context (.switch switchState) aggregate = (aggregate, condition.ok input)) ∧
      (firstTrue context s conditions = none → process context (.switch switchState) aggregate = (aggregate, .block)) := by
  obtain ⟨same, data⟩ := StateMachineDefinitionSwitchState.conditions_of_dataConditions read noEvents
  have handles : handle context (.switch switchState) = SwitchStateProcessor.handle context switchState := by
    unfold handle
    simp only [DefinitionState.base, typed]
  have runs : SwitchStateProcessor.handle context switchState aggregate = (aggregate,
      match firstTrue context s conditions with
      | some condition => (context.services.getInput s).map fun input => condition.ok input
      | none => .ok .block) := by
    cases conditions with
    | nil =>
      rw [List.map_nil] at same
      simp only [SwitchStateProcessor.handle, same, List.any_nil, Bool.false_eq_true, if_false]
      rfl
    | cons c conditions =>
      have data' : (switchState.conditions.any fun c => SwitchStateProcessor.conditionType c = .DATA) = true := by
        rw [List.any_eq_true]
        refine ⟨.data c, by simp [same], ?_⟩
        simp [data (.data c) (by simp [same])]
      have cast : SwitchStateProcessor.castData switchState.conditions = .ok (c :: conditions) :=
        castData_eq_ok.mpr same
      rw [SwitchStateProcessor.handle, if_pos data', cast, bind_of_ok (of_apply _), bind_of_ok (current_apply found), tryCheckData_eq booleans,
        bind_of_ok (of_apply _)]
      cases firstTrue context s (c :: conditions) with
      | none => rfl
      | some condition =>
        dsimp only
        rw [bind_apply, of_apply]
        cases context.services.getInput s with
        | error e => rfl
        | ok input => rfl
  constructor
  · intro condition first
    have member := List.mem_of_find?_eq_some first
    obtain ⟨b, evaluated⟩ := booleans condition member
    obtain ⟨input, given⟩ := getInput_of_evaluateCondition evaluated
    refine ⟨input, given, ?_⟩
    unfold process
    rw [handles, runs, first, given]
    rfl
  · intro nothing
    unfold process
    rw [handles, runs, nothing]

end

/-! ## The state after a launch -/

section
variable {J : Type} {services : RuntimeServices J} {workflowDef : StateMachineDefinitionAggregate}
  {switchState : StateMachineDefinitionSwitchState} {handlings : Nat → HandlingEnv} {visited : Nat}
  {s : StateMachineInstanceState} {aggregate : StateMachineInstanceAggregate}
  {conditions : List StateMachineDefinitionSwitchDataCondition}

/-- **A switch state answers as defined exactly as long as a condition is true or there is no default condition; what it
answers becomes of the state.** -/
theorem switchAnswer_iff (typed : switchState.type = .Switch)
    (listed : (workflowDef.states.find? fun state => state.launched = (DefinitionState.switch switchState).launched) =
      some (.switch switchState))
    (found : aggregate.state.getState (some s.id) = some s)
    (read : switchState.dataConditions = .ok conditions) (noEvents : switchState.eventConditions = .ok [])
    (booleans : ∀ c ∈ conditions, ∃ b, services.evaluateCondition s c.condition = .ok b) :
    (SwitchAnswer ⟨services, workflowDef, s, handlings visited⟩ switchState s conditions (stateProcessors services workflowDef
        handlings visited (DefinitionState.switch switchState).launched s aggregate).2 ↔
      (∃ c ∈ conditions, services.evaluateCondition s c.condition = .ok true) ∨ switchState.defaultCondition = none) ∧
      ∀ (filters : Filters J) (env : VisitEnv), ∃ s', ExecutedTo services.toJTokens filters switchState.stateDataFilterOuput
        aggregate.state s (stateProcessors services workflowDef handlings visited
          (DefinitionState.switch switchState).launched s aggregate).2
        (leftBy (·.1) (executeState services.toRuntimeJson filters (stateProcessors services workflowDef handlings) env
          visited (DefinitionState.switch switchState).launched s aggregate)).state s' := by
  have runs : stateProcessors services workflowDef handlings visited (DefinitionState.switch switchState).launched s aggregate =
      process ⟨services, workflowDef, s, handlings visited⟩ (.switch switchState) aggregate := by
    unfold stateProcessors
    rw [listed]
  obtain ⟨goesOn, blocked⟩ := @process_switch _ ⟨services, workflowDef, s, handlings visited⟩ switchState s aggregate conditions
    typed found read noEvents booleans
  rw [← runs] at goesOn blocked
  have some : (∃ c ∈ conditions, services.evaluateCondition s c.condition = .ok true) ↔
      ∃ condition, firstTrue ⟨services, workflowDef, s, handlings visited⟩ s conditions = some condition := by
    rw [← Option.isSome_iff_exists, firstTrue, List.find?_isSome]
    simp
  have still : ∃ answer, stateProcessors services workflowDef handlings visited
      (DefinitionState.switch switchState).launched s aggregate = (aggregate, answer) := by
    cases first : firstTrue ⟨services, workflowDef, s, handlings visited⟩ s conditions with
    | none => exact ⟨_, blocked first⟩
    | some condition =>
      obtain ⟨input, -, answers⟩ := goesOn condition first
      exact ⟨_, answers⟩
  constructor
  · unfold SwitchAnswer
    cases first : firstTrue ⟨services, workflowDef, s, handlings visited⟩ s conditions with
    | some condition =>
      obtain ⟨input, given, answers⟩ := goesOn condition first
      rw [answers]
      exact iff_of_true ⟨input, given, rfl⟩ (.inl (some.mpr ⟨condition, first⟩))
    | none =>
      rw [blocked first, some, first]
      cases switchState.defaultCondition with
      | none => simp
      | some default => simp
  · intro filters env
    obtain ⟨answer, answers⟩ := still
    obtain ⟨s', executed, -⟩ := @executeState_outcome _ services.toRuntimeJson filters
      (stateProcessors services workflowDef handlings) env aggregate aggregate s
      (DefinitionState.switch switchState).launched visited s answer rfl answers found
    rw [answers]
    exact ⟨s', executed⟩

end

/-! ## Two conditions -/

/-- Tokens that are their texts, and expressions that give themselves. -/
def textServices : RuntimeServices String where
  toText := id
  parse := some
  parseObject := some
  type := fun _ => .Object
  dated := fun _ => false
  depth := fun _ => 1
  transform := fun input _ => some input
  cleanExpression := id
  evalToToken := fun expression _ => .ok (some expression)
  property := fun _ _ => none
  items := fun _ => none
  array := fun _ => ""
  add := fun v _ => v
  mergeObject := fun v _ => v
  mergeAt := fun v _ _ => .ok (v.getD "")
  functionProcessors := fun _ => none
  exceptionToString := fun _ => "error"

/-- A condition that is false, one that is as said, and a default. -/
def choosing (second : String) : StateMachineDefinitionSwitchState :=
  ({ type := .Switch } : StateMachineDefinitionSwitchState).setDataConditions (some [
    { conditionType := .DATA, transition := some "one", condition := some "false" },
    { conditionType := .DATA, transition := some "two", condition := some second }])
  |>.setDefaultCondition (some ⟨some "otherwise"⟩)

/-- A definition that chooses. -/
def choosingDefinition (second : String) : StateMachineDefinitionAggregate where
  states := [.switch (choosing second)]

/-- The state that chooses, started. -/
def startedChoice : StateMachineInstanceState where
  id := "state"
  defId := none
  status := .ACTIVE
  inputStr := some "\x7b\x7d"

/-- What becomes of the state that chooses. -/
def onChoice (second : String) : StateMachineInstanceAggregate × StateProcessorResult String :=
  stateProcessors textServices (choosingDefinition second) (fun _ => ⟨fun _ _ => ⟨"", "", 0⟩, fun _ => ⟨"", "", 0⟩, []⟩) 0
    (DefinitionState.switch (choosing second)).launched startedChoice { state := { states := [startedChoice] } }

theorem parseBool_true : RuntimeServices.parseBool "true" = .ok true := by decide +kernel

theorem parseBool_false : RuntimeServices.parseBool "false" = .ok false := by decide +kernel

/-- Where the state that chooses is executed. -/
def choiceContext (second : String) : ExecutionContext String :=
  ⟨textServices, choosingDefinition second, startedChoice, fun _ _ => ⟨"", "", 0⟩, fun _ => ⟨"", "", 0⟩, []⟩

/-- The conditions of the definition. -/
def choices (second : String) : List StateMachineDefinitionSwitchDataCondition :=
  [{ conditionType := .DATA, transition := some "one", condition := some "false" },
    { conditionType := .DATA, transition := some "two", condition := some second }]

/-- The second condition is true. -/
theorem switchAnswer_second : firstTrue (choiceContext "true") startedChoice (choices "true") = (choices "true")[1]? ∧
    SwitchAnswer (choiceContext "true") (choosing "true") startedChoice (choices "true") (onChoice "true").2 := by
  have booleans : ∀ c ∈ choices "true", ∃ b, textServices.evaluateCondition startedChoice c.condition = .ok b := by
    intro c member
    rcases List.mem_pair.mp member with rfl | rfl
    · exact ⟨false, parseBool_false⟩
    · exact ⟨true, parseBool_true⟩
  exact ⟨by decide +kernel, (switchAnswer_iff rfl rfl rfl rfl rfl booleans).1.mpr (.inl ⟨_, .tail _ (.head _), parseBool_true⟩)⟩

/-- No condition is true: it is blocked, though there is a default. -/
theorem not_switchAnswer_default : (onChoice "false").2 = .block ∧
    (choosing "false").defaultCondition = some ⟨some "otherwise"⟩ ∧
    ¬ SwitchAnswer (choiceContext "false") (choosing "false") startedChoice (choices "false") (onChoice "false").2 := by
  have nothing : firstTrue (choiceContext "false") startedChoice (choices "false") = none := by decide +kernel
  have booleans : ∀ c ∈ choices "false", ∃ b, textServices.evaluateCondition startedChoice c.condition = .ok b := by
    intro c member
    rcases List.mem_pair.mp member with rfl | rfl
    · exact ⟨false, parseBool_false⟩
    · exact ⟨false, parseBool_false⟩
  have answers := (@process_switch _ (choiceContext "false") (choosing "false") startedChoice
    { state := { states := [startedChoice] } } (choices "false") rfl rfl rfl rfl booleans).2 nothing
  have blocked : (onChoice "false").2 = .block := congrArg Prod.snd answers
  refine ⟨blocked, by decide, ?_⟩
  rw [SwitchAnswer, nothing, blocked]
  rintro ⟨input, -, answer⟩
  cases answer

end FaasNet.StateMachine
