import FaasNet.StateMachine.StateExecution

/-!
# Foreach states

A foreach state calls its actions for each element of an array. In sequential mode it waits for every call before it makes
the next one. In parallel mode it begins them all and takes what has been completed by then.
-/

namespace FaasNet.StateMachine

open FaasNet.Lib FaasNet.Common FaasNet.Domain

/-! ## What is answered -/

/-- Which of `n` calls have been completed when the loop that began them returns, in the order of that. -/
structure CompletionOrder (finished : List Nat) (n : Nat) : Prop where
  once : finished.Nodup
  begun : ∀ k ∈ finished, k < n

section
variable {J : Type} (context : ExecutionContext J) (foreachState : StateMachineDefinitionForeachState)

/-- What a foreach state is to answer: the array of what `ExecuteAndConcatenate` gives for each of the elements, in their
order, and an error if it fails for one of them. -/
def ForeachAnswer (s : StateMachineInstanceState) (tokens : List J) (answer : StateProcessorResult J) : Prop :=
  match tokens.zipIdx.mapM (ForeachStateProcessor.callback context foreachState s) with
  | .ok records => answer = foreachState.ok (some (context.services.array records))
  | .error _ => ∃ exception, answer = .error exception

variable {context foreachState} {s : StateMachineInstanceState} {aggregate : StateMachineInstanceAggregate}
  {input : Option J} {value : J} {tokens : List J}

open Method ForeachStateProcessor

theorem ok_inj {stateDef : BaseStateMachineFlowableState} {output output' : Option J}
    (same : stateDef.ok output = stateDef.ok output') : output = output' := by
  unfold BaseStateMachineFlowableState.ok at same
  split at same
  · exact StateProcessorResult.end.inj same
  · exact (StateProcessorResult.next.inj same).1

theorem ok_ne_error {stateDef : BaseStateMachineFlowableState} {output : Option J} {exception : Option String} :
    stateDef.ok output ≠ .error exception := by
  unfold BaseStateMachineFlowableState.ok
  split
  · simp
  · simp

theorem length_of_mapM_callback {records : List (Option J)}
    (called : tokens.zipIdx.mapM (callback context foreachState s) = .ok records) : records.length = tokens.length := by
  rw [← (mapM_eq_ok_iff.mp called).length_eq, List.length_zipIdx]

/-- What the processor does: it changes nothing, and answers with the records of the loop. -/
theorem process_foreach (typed : foreachState.type = .ForEach)
    (found : aggregate.state.getState (some context.stateInstance.id) = some s)
    (named : isNullOrWhiteSpace foreachState.inputCollection = false) (given : context.services.getInput s = .ok input)
    (evaluated : context.services.evalToToken
      (context.services.cleanExpression (foreachState.inputCollection.getD "")) input = .ok (some value))
    (elements : context.services.items value = some tokens) :
    process context (.forEach foreachState) aggregate = (aggregate,
      match records context foreachState s (some tokens) with
      | .ok result => foreachState.ok (some (context.services.array result))
      | .error e => .error (some (context.services.exceptionToString e))) := by
  have handles : handle context (.forEach foreachState) = ForeachStateProcessor.handle context foreachState := by
    unfold handle
    simp only [DefinitionState.base, typed]
  have runs : ForeachStateProcessor.handle context foreachState aggregate = (aggregate,
      (records context foreachState s (some tokens)).map fun result =>
        foreachState.ok (some (context.services.array result))) := by
    rw [ForeachStateProcessor.handle, bind_of_ok (current_apply found), given, bind_of_ok (of_apply _), named, if_neg Bool.false_ne_true,
      evaluated]
    dsimp only [Except.mapError]
    rw [bind_of_ok (of_apply _), Option.bind_some, elements, bind_apply, of_apply]
    cases records context foreachState s (some tokens) with
    | ok result => rfl
    | error e => rfl
  unfold process
  rw [handles, runs]
  cases records context foreachState s (some tokens) with
  | ok result => rfl
  | error e => rfl

/-- The records of a loop that waits for its calls, whatever it does besides. -/
theorem foreachAnswer_of_records {answer : StateProcessorResult J}
    (answers : answer = match tokens.zipIdx.mapM (callback context foreachState s) with
      | .ok result => foreachState.ok (some (context.services.array result))
      | .error e => .error (some (context.services.exceptionToString e))) :
    ForeachAnswer context foreachState s tokens answer := by
  subst answers
  unfold ForeachAnswer
  cases tokens.zipIdx.mapM (callback context foreachState s) with
  | ok result => rfl
  | error e => exact ⟨_, rfl⟩

/-- An array of no records is the right one only if there are no elements. -/
theorem foreachAnswer_nothing
    (counts : ∀ records, ∃ items, context.services.items (context.services.array records) = some items ∧
      items.length = records.length) :
    ForeachAnswer context foreachState s tokens (foreachState.ok (some (context.services.array []))) ↔ tokens = [] := by
  constructor
  · unfold ForeachAnswer
    intro right
    cases called : tokens.zipIdx.mapM (callback context foreachState s) with
    | error e =>
      rw [called] at right
      obtain ⟨exception, right⟩ := right
      exact absurd right ok_ne_error
    | ok result =>
      rw [called] at right
      have same : context.services.array [] = context.services.array result := Option.some.inj (ok_inj right)
      obtain ⟨items, listed, many⟩ := counts result
      obtain ⟨items', listed', none⟩ := counts []
      rw [← same, listed'] at listed
      obtain rfl := Option.some.inj listed
      rw [none, length_of_mapM_callback called] at many
      exact List.eq_nil_of_length_eq_zero many.symm
  · rintro rfl
    rfl

theorem foreachAnswer_error {exception : Option String} :
    ForeachAnswer context foreachState s tokens (.error exception) ↔
      ∃ token ∈ tokens.zipIdx, ∃ e, callback context foreachState s token = .error e := by
  rw [← mapM_eq_error_iff]
  unfold ForeachAnswer
  cases tokens.zipIdx.mapM (callback context foreachState s) with
  | ok result =>
    refine iff_of_false (fun right => ok_ne_error right.symm) ?_
    rintro ⟨e, failed⟩
    cases failed
  | error e => exact iff_of_true ⟨_, rfl⟩ ⟨e, rfl⟩

end

/-! ## The state after a launch -/

section
variable {J : Type} {services : RuntimeServices J} {workflowDef : StateMachineDefinitionAggregate}
  {foreachState : StateMachineDefinitionForeachState} {handlings : Nat → HandlingEnv} {visited : Nat}
  {s : StateMachineInstanceState} {aggregate : StateMachineInstanceAggregate}
  {input : Option J} {value : J} {tokens : List J}

/-- The processors, where the loop of the foreach state has these calls completed when it returns. -/
def finishing (services : RuntimeServices J) (workflowDef : StateMachineDefinitionAggregate)
    (handlings : Nat → HandlingEnv) (finished : List Nat) : Processors J :=
  stateProcessors services workflowDef fun n => { handlings n with finished }

/-- **A foreach state answers with one result for each element, whatever the order in which the calls are completed,
exactly as long as it does not have to wait in parallel mode; what it answers becomes of the state.** -/
theorem foreachAnswer_iff (typed : foreachState.type = .ForEach)
    (listed : (workflowDef.states.find? fun state => state.launched = (DefinitionState.forEach foreachState).launched) =
      some (.forEach foreachState))
    (found : aggregate.state.getState (some s.id) = some s)
    (named : isNullOrWhiteSpace foreachState.inputCollection = false) (given : services.getInput s = .ok input)
    (evaluated : services.evalToToken (services.cleanExpression (foreachState.inputCollection.getD "")) input =
      .ok (some value))
    (elements : services.items value = some tokens)
    (counts : ∀ records, ∃ items, services.items (services.array records) = some items ∧ items.length = records.length) :
    ((∀ finished, CompletionOrder finished tokens.length →
        ForeachAnswer ⟨services, workflowDef, s, handlings visited⟩ foreachState s tokens
          (finishing services workflowDef handlings finished visited
            (DefinitionState.forEach foreachState).launched s aggregate).2) ↔
      foreachState.mode = .Sequential ∨
        if ForeachStateProcessor.validBatchSize foreachState.batchSize then tokens = []
        else ∃ token ∈ tokens.zipIdx, ∃ e, ForeachStateProcessor.callback
          ⟨services, workflowDef, s, handlings visited⟩ foreachState s token = .error e) ∧
      ∀ (finished : List Nat) (filters : Filters J) (env : VisitEnv), ∃ s',
        ExecutedTo services.toJTokens filters foreachState.stateDataFilterOuput aggregate.state s
          (finishing services workflowDef handlings finished visited
            (DefinitionState.forEach foreachState).launched s aggregate).2
          (leftBy (·.1) (executeState services.toRuntimeJson filters (finishing services workflowDef handlings finished) env
            visited (DefinitionState.forEach foreachState).launched s aggregate)).state s' := by
  have answers (finished : List Nat) : finishing services workflowDef handlings finished visited
      (DefinitionState.forEach foreachState).launched s aggregate = (aggregate,
        match ForeachStateProcessor.records ⟨services, workflowDef, s, { handlings visited with finished }⟩ foreachState s
          (some tokens) with
        | .ok result => foreachState.ok (some (services.array result))
        | .error e => .error (some (services.exceptionToString e))) := by
    unfold finishing stateProcessors
    rw [listed]
    exact @process_foreach _ ⟨services, workflowDef, s, { handlings visited with finished }⟩ foreachState s aggregate input
      value tokens typed found named given evaluated elements
  constructor
  · simp only [answers]
    cases mode : foreachState.mode with
    | Sequential =>
      refine iff_of_true (fun finished _ => foreachAnswer_of_records ?_) (.inl rfl)
      rw [ForeachStateProcessor.records, mode]
      rfl
    | Parallel =>
      simp only [ForeachStateProcessor.records, mode, reduceCtorEq, false_or]
      split
      next valid =>
        simp only [Option.elim_some]
        constructor
        · intro right
          exact (foreachAnswer_nothing counts).mp (right [] ⟨List.nodup_nil, by simp⟩)
        · rintro rfl finished order
          have nothing : finished = [] := List.eq_nil_iff_forall_not_mem.mpr fun k member =>
            absurd (order.begun k member) (Nat.not_lt_zero k)
          rw [nothing]
          exact (foreachAnswer_nothing counts).mpr rfl
      next invalid =>
        rw [← @foreachAnswer_error _ ⟨services, workflowDef, s, handlings visited⟩]
        exact ⟨fun right => right [] ⟨List.nodup_nil, by simp⟩, fun right _ _ => right⟩
  · intro finished filters env
    obtain ⟨s', executed, -⟩ := @executeState_outcome _ services.toRuntimeJson filters
      (finishing services workflowDef handlings finished) env aggregate aggregate s
      (DefinitionState.forEach foreachState).launched visited s _ rfl (answers finished) found
    rw [answers]
    exact ⟨s', executed⟩

end

/-! ## Two elements -/

/-- Tokens that are texts, or arrays of texts. -/
inductive TextArray where
  | text (value : String)
  | array (values : List String)
  deriving DecidableEq

/-- The text of an item. -/
def TextArray.value : Option TextArray → String
  | some (.text value) => value
  | _ => ""

/-- The expressions give two elements, and the function gives what it gets. -/
def twoElements : RuntimeServices TextArray where
  toText := fun token => TextArray.value (some token)
  parse := fun text => some (.text text)
  parseObject := fun text => some (.text text)
  type := fun _ => .Object
  dated := fun _ => false
  depth := fun _ => 1
  transform := fun input _ => some input
  cleanExpression := id
  evalToToken := fun _ _ => .ok (some (.array ["a", "b"]))
  property := fun _ _ => none
  items
    | .array values => some (values.map .text)
    | .text _ => none
  array := fun records => .array (records.map TextArray.value)
  add := fun v _ => v
  mergeObject := fun v _ => v
  mergeAt := fun v _ _ => .ok (v.getD (.text ""))
  functionProcessors
    | .EXPRESSION => some fun _ input _ _ => .ok input
    | _ => none
  exceptionToString := fun _ => "error"

/-- A loop that calls the function echo with each item. -/
def echoing (mode : StateMachineDefinitionForeachStateModes) : StateMachineDefinitionForeachState where
  type := .ForEach
  transition := some "next"
  inputCollection := some ".items"
  mode
  actions := [.mk none (some { refName := some "echo" }) none none]

/-- The definition of the loop. -/
def echoingDefinition (mode : StateMachineDefinitionForeachStateModes) : StateMachineDefinitionAggregate where
  states := [.forEach (echoing mode)]
  functions := [{ name := some "echo", type := .EXPRESSION }]

/-- The loop, started. -/
def startedEcho : StateMachineInstanceState where
  id := "state"
  defId := none
  status := .ACTIVE
  inputStr := some "\x7b\x7d"

/-- Nothing is drawn and nothing is clocked. -/
def noHandling : HandlingEnv := ⟨fun _ _ => ⟨"", "", 0⟩, fun _ => ⟨"", "", 0⟩, []⟩

/-- What the state answers when these calls have been completed. -/
def onEcho (mode : StateMachineDefinitionForeachStateModes) (finished : List Nat) :
    StateMachineInstanceAggregate × StateProcessorResult TextArray :=
  finishing twoElements (echoingDefinition mode) (fun _ => noHandling) finished 0
    (DefinitionState.forEach (echoing mode)).launched startedEcho { state := { states := [startedEcho] } }

theorem counts_twoElements (records : List (Option TextArray)) :
    ∃ items, twoElements.items (twoElements.array records) = some items ∧ items.length = records.length :=
  ⟨(records.map TextArray.value).map .text, rfl, by simp⟩

/-- One call after the other. -/
theorem foreachAnswer_sequential : (onEcho .Sequential []).2 = .next (some (.array ["a", "b"])) (some "next") ∧
    ForeachAnswer ⟨twoElements, echoingDefinition .Sequential, startedEcho, noHandling⟩ (echoing .Sequential) startedEcho
      [.text "a", .text "b"] (onEcho .Sequential []).2 := by
  have evaluated : twoElements.evalToToken ".items" (some (.text "\x7b\x7d")) = .ok (some (.array ["a", "b"])) := rfl
  have elements : twoElements.items (.array ["a", "b"]) = some [.text "a", .text "b"] := rfl
  have right := (@foreachAnswer_iff _ twoElements (echoingDefinition .Sequential) (echoing .Sequential) (fun _ => noHandling) 0
    startedEcho { state := { states := [startedEcho] } } _ _ _ rfl rfl rfl rfl rfl evaluated elements
    counts_twoElements).1.mpr (.inl rfl)
  exact ⟨rfl, right [] ⟨List.nodup_nil, by simp⟩⟩

/-- All calls at once, and none of them has been completed. -/
theorem not_foreachAnswer_parallel : CompletionOrder [] 2 ∧
    (onEcho .Parallel []).2 = .next (some (.array [])) (some "next") ∧
    ¬ ForeachAnswer ⟨twoElements, echoingDefinition .Parallel, startedEcho, noHandling⟩ (echoing .Parallel) startedEcho
      [.text "a", .text "b"] (onEcho .Parallel []).2 := by
  have answers : (onEcho .Parallel []).2 = .next (some (.array [])) (some "next") := rfl
  refine ⟨⟨List.nodup_nil, by simp⟩, answers, ?_⟩
  rw [answers]
  intro right
  have nothing := (@foreachAnswer_nothing _ ⟨twoElements, echoingDefinition .Parallel, startedEcho, noHandling⟩
    (echoing .Parallel) startedEcho [.text "a", .text "b"] counts_twoElements).mp right
  cases nothing

end FaasNet.StateMachine
