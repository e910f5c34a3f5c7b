import FaasNet.StateMachine.EventConsumer
import FaasNet.StateMachine.StateData

/-!
# Reactivating an instance

`StateMachineLauncher.Reactivate` makes a failed instance active and launches it from its root. The launch walks along
the states that are complete, reading the output of each from its text, and runs the state that failed. Which
processors a launch calls, and with what, is recorded by a list of executions beside the launch itself.
-/

namespace FaasNet.StateMachine

open FaasNet.Lib FaasNet.Common FaasNet.Domain FaasNet.EventStore
open StateMachineInstanceAggregate (emit)

/-! ## The executions of a launch -/

/-- A call of a processor: the definition of the state, and the state and the instance as it is given them. -/
structure Execution where
  definition : StateMachineDefinitionState
  state : StateMachineInstanceState
  aggregate : StateMachineInstanceAggregate

/-- The call after a command, if that returns. -/
def executing (stateDefinition : StateMachineDefinitionState) (stateInstance : StateMachineInstanceState) :
    LaunchResult → Option Execution
  | (aggregate, .ok ()) =>
    some ⟨stateDefinition, (aggregate.state.getState (some stateInstance.id)).getD stateInstance, aggregate⟩
  | (_, .error _) => none

section
variable {J : Type*} (json : RuntimeJson J) (filters : Filters J) (env : VisitEnv)

/-- The call that `processState` makes, if it makes one. -/
def execution (config : LaunchConfig J) (stateDefinition : StateMachineDefinitionState)
    (stateInstance : StateMachineInstanceState) : Option Execution :=
  match stateInstance.status with
  | .CREATE =>
    (filters.transform config.input stateDefinition.stateDataFilterInput).bind fun input =>
      executing stateDefinition stateInstance (StateMachineInstanceAggregate.startState json.toJTokens config.aggregate
        env.start (some stateInstance.id) input)
  | .ERROR =>
    executing stateDefinition stateInstance (StateMachineInstanceAggregate.reactivateState json.toJTokens
      config.aggregate env.reactivate (some stateInstance.id))
  | .COMPLETE => none
  | _ => executing stateDefinition stateInstance (config.aggregate, .ok ())

/-- The call that a visit makes, if it makes one. -/
def visitExecution (definition : StateMachineDefinition) (config : LaunchConfig J) : Option Execution :=
  if config.aggregate.state.status ≠ some .ACTIVE then none
  else
    (config.aggregate.state.getState config.stateInstanceId).bind fun stateInstance =>
      (definition.getState stateInstance.defId).bind fun stateDefinition =>
        if stateDefinition.type.hasProcessor = false then none
        else execution json filters env config stateDefinition stateInstance

variable (processors : Processors J) (definition : StateMachineDefinition) (envs : Nat → VisitEnv)

/-- The calls of `InternalLaunch`, as far as the fuel reaches. -/
def launchExecutions : Nat → LaunchConfig J → List Execution
  | 0, _ => []
  | fuel + 1, config =>
    (visitExecution json filters (envs config.visited) definition config).toList ++
      match visit json filters processors definition (envs config.visited) config with
      | .inl _ => []
      | .inr next => launchExecutions fuel next

variable {json filters env processors definition} {config : LaunchConfig J} {d : StateMachineDefinitionState}
  {s : StateMachineInstanceState}

/-- What executes a state goes on to it. -/
theorem andThen_of_executing {β : Type*} {result : LaunchResult} {call : Execution} (calls : executing d s result = some call)
    (next : StateMachineDefinitionState → StateMachineInstanceState → StateMachineInstanceAggregate → LaunchResult ⊕ β) :
    andThen result (fun aggregate => next d ((aggregate.state.getState (some s.id)).getD s) aggregate) =
      next call.definition call.state call.aggregate := by
  obtain ⟨aggregate, outcome⟩ := result
  cases outcome with
  | ok =>
    cases calls
    rfl
  | error e => cases calls

/-- What executes no state does not depend on how it would. -/
theorem andThen_of_not_executing {β : Type*} {result : LaunchResult} (unexecuted : executing d s result = none)
    (next next' : StateMachineInstanceAggregate → LaunchResult ⊕ β) : andThen result next = andThen result next' := by
  obtain ⟨aggregate, outcome⟩ := result
  cases outcome with
  | ok => cases unexecuted
  | error e => rfl

/-- The processor is called as the execution says. -/
theorem processState_of_execution {call : Execution} (calls : execution json filters env config d s = some call) :
    processState json filters processors env config d s =
      executeState json filters processors env config.visited call.definition call.state call.aggregate := by
  have called := @andThen_of_executing d s
  unfold execution at calls
  unfold processState
  generalize s.status = status at calls ⊢
  cases status with
  | CREATE =>
    cases transformed : filters.transform config.input d.stateDataFilterInput with
    | none => simp [transformed] at calls
    | some input =>
      simp only [transformed, Option.bind_some] at calls ⊢
      exact called calls (executeState json filters processors env config.visited)
  | ERROR => exact called calls (executeState json filters processors env config.visited)
  | COMPLETE => cases calls
  | ACTIVE => exact called calls (executeState json filters processors env config.visited)
  | PENDING => exact called calls (executeState json filters processors env config.visited)

/-- Where there is no execution, no processor is asked. -/
theorem processState_of_no_execution (processors' : Processors J) (unexecuted : execution json filters env config d s = none) :
    processState json filters processors env config d s = processState json filters processors' env config d s := by
  unfold execution at unexecuted
  unfold processState
  generalize s.status = status at unexecuted ⊢
  cases status with
  | CREATE =>
    cases transformed : filters.transform config.input d.stateDataFilterInput with
    | none => rfl
    | some input =>
      simp only [transformed, Option.bind_some] at unexecuted ⊢
      exact andThen_of_not_executing unexecuted _ _
  | ERROR => exact andThen_of_not_executing unexecuted _ _
  | COMPLETE => rfl
  | ACTIVE => cases unexecuted
  | PENDING => cases unexecuted

/-- A visit executes what the state it finds does. -/
theorem visitExecution_of_processes {definition : StateMachineDefinition} (active : config.aggregate.state.status = some .ACTIVE)
    (found : config.aggregate.state.getState config.stateInstanceId = some s) (defined : definition.getState s.defId = some d)
    (runs : d.type.hasProcessor) :
    visitExecution json filters env definition config = execution json filters env config d s := by
  unfold visitExecution
  simp only [active, found, defined, runs, ne_eq, not_true_eq_false, if_false, Option.bind_some, Bool.true_eq_false]

/-- A visit processes the state it finds. -/
theorem visit_of_processes {definition : StateMachineDefinition} (active : config.aggregate.state.status = some .ACTIVE)
    (found : config.aggregate.state.getState config.stateInstanceId = some s) (defined : definition.getState s.defId = some d)
    (runs : d.type.hasProcessor) :
    visit json filters processors definition env config =
      match processState json filters processors env config d s with
      | .inl result => .inl result
      | .inr (aggregate, output, transition) => nextVisit definition config.visited aggregate output transition := by
  unfold visit
  rw [if_neg (not_not.mpr active), found]
  dsimp only
  rw [defined]
  exact if_neg (by rw [runs]; decide)

/-- A state without a processor ends the launch. -/
theorem visit_idle {definition : StateMachineDefinition} (active : config.aggregate.state.status = some .ACTIVE)
    (found : config.aggregate.state.getState config.stateInstanceId = some s) (defined : definition.getState s.defId = some d)
    (idle : d.type.hasProcessor = false) :
    visitExecution json filters env definition config = none ∧
      visit json filters processors definition env config = .inl (config.aggregate, .ok ()) := by
  unfold visitExecution visit
  simp only [active, found, defined, idle, ne_eq, not_true_eq_false, if_false, if_true, Option.bind_some, and_self]

/-- A state that is given to its processor. -/
structure GivenTo (before : StateMachineInstance) (s : StateMachineInstanceState) (d : StateMachineDefinitionState)
    (call : Execution) : Prop where
  definition : call.definition = d
  turned : Turned s.id before call.state call.aggregate.state
  instanceStatus : call.aggregate.state.status = before.status
  under : call.state.status = .ACTIVE ∨ call.state.status = .PENDING

/-- What is executed is given the state that it is for. -/
theorem givenTo_of_executing {result : LaunchResult} {call : Execution} {before : StateMachineInstance}
    (calls : executing d s result = some call)
    (turns : ∀ after, result = (after, .ok ()) → ∃ new, Turned s.id before new after.state ∧
      (new.status = .ACTIVE ∨ new.status = .PENDING) ∧ after.state.status = before.status) :
    GivenTo before s d call := by
  obtain ⟨aggregate, outcome⟩ := result
  cases outcome with
  | ok =>
    obtain ⟨new, turned, under, status⟩ := turns aggregate rfl
    cases calls
    have given : ((aggregate.state.getState (some s.id)).getD s) = new := by rw [turned.found, Option.getD_some]
    refine ⟨rfl, ?_, status, ?_⟩
    · rw [given]
      exact turned
    · rw [given]
      exact under
  | error e => cases calls

/-- A state is given its own input. -/
theorem execution_givenTo {call : Execution} (calls : execution json filters env config d s = some call)
    (found : config.aggregate.state.getState (some s.id) = some s) : GivenTo config.aggregate.state s d call := by
  unfold execution at calls
  cases status : s.status with
  | CREATE =>
    rw [status] at calls
    obtain ⟨input, -, calls⟩ := Option.bind_eq_some_iff.mp calls
    refine givenTo_of_executing calls fun after starts => ?_
    obtain ⟨new, turned, started, same⟩ := startState_turned found starts
    exact ⟨new, turned, .inl started, same⟩
  | ERROR =>
    rw [status] at calls
    refine givenTo_of_executing calls fun after reactivates => ?_
    obtain ⟨new, turned, started, same⟩ := reactivateState_turned found reactivates
    exact ⟨new, turned, .inl started, same⟩
  | COMPLETE =>
    rw [status] at calls
    cases calls
  | ACTIVE =>
    rw [status] at calls
    refine givenTo_of_executing calls fun after same => ?_
    obtain rfl := (Prod.mk.inj same).1
    exact ⟨s, .refl found, .inl status, rfl⟩
  | PENDING =>
    rw [status] at calls
    refine givenTo_of_executing calls fun after same => ?_
    obtain rfl := (Prod.mk.inj same).1
    exact ⟨s, .refl found, .inr status, rfl⟩

/-- A failed state is given to its processor as it was, but for its status. -/
theorem execution_of_failed (failed : s.status = .ERROR) (found : config.aggregate.state.getState (some s.id) = some s) :
    ∃ call, execution json filters env config d s = some call ∧ call.state = s.activate env.reactivate.utcNow := by
  obtain ⟨after, reactivates, turned, -⟩ : ∃ after,
      StateMachineInstanceAggregate.reactivateState json.toJTokens config.aggregate env.reactivate (some s.id) =
        (after, .ok ()) ∧
      Turned s.id config.aggregate.state (s.activate env.reactivate.utcNow) after.state ∧
      after.state.status = config.aggregate.state.status :=
    emit_turned env.reactivate (·.activate env.reactivate.utcNow) found rfl (fun _ => rfl) (fun _ => rfl)
  refine ⟨⟨d, (after.state.getState (some s.id)).getD s, after⟩, ?_, ?_⟩
  · unfold execution
    rw [failed]
    dsimp only
    rw [reactivates]
    rfl
  · dsimp only
    rw [turned.found, Option.getD_some]

end

/-! ## Executions along a walk -/

section
variable {J : Type*} {json : RuntimeJson J} {filters : Filters J} {processors : Processors J}
  {definition : StateMachineDefinition} {path : List StateMachineInstanceState} {stop s e : StateMachineInstanceState}
  {config : LaunchConfig J} {env : VisitEnv} {envs : Nat → VisitEnv}

/-- The states of a walk are found. -/
theorem Walk.getState_mem (walk : Walk definition config.aggregate.state path stop) (member : s ∈ path ++ [stop]) :
    config.aggregate.state.getState (some s.id) = some s :=
  getState_of_state_mem walk.instanceOf.distinct (walk.mem_states member)

/-- A complete state is passed by, if its output can be read. -/
theorem visit_passes (processors : Processors J) (walk : Walk definition config.aggregate.state path stop)
    (active : config.aggregate.state.status = some .ACTIVE) (member : s ∈ path)
    (id : config.stateInstanceId = some s.id) (present : e ∈ path ++ [stop]) (leads : s.LeadsTo e) :
    visitExecution json filters env definition config = none ∧
      visit json filters processors definition env config =
        match json.getOutput s with
        | none => .inl (config.aggregate, .error .jsonReaderException)
        | some output => .inr ⟨config.visited + 1, config.aggregate, output, some e.id⟩ := by
  have listed : s ∈ path ++ [stop] := List.mem_append_left _ member
  have found : config.aggregate.state.getState config.stateInstanceId = some s := by rw [id, walk.getState_mem listed]
  obtain ⟨there, complete⟩ := (walk.complete s).mp member
  obtain ⟨d, known, defId⟩ := walk.instanceOf.exists_defId there
  have defined : definition.getState s.defId = some d := by
    rw [defId]
    exact getState_of_mem known
  have runs := walk.ran s there (by simp [complete]) d known defId
  rw [visitExecution_of_processes active found defined runs, visit_of_processes active found defined runs]
  unfold execution processState
  simp only [complete, true_and]
  cases json.getOutput s with
  | none => rfl
  | some output =>
    obtain ⟨t, transition, names⟩ := leads
    obtain ⟨f, known', defId'⟩ := walk.instanceOf.exists_defId (walk.mem_states present)
    obtain rfl : t = f.id := Option.some.inj (names.symm.trans defId')
    obtain ⟨next, foundNext, memberNext, defIdNext⟩ := walk.instanceOf.getStateByDefId_isSome known'
    obtain rfl := walk.instanceOf.eq_of_defId memberNext (walk.mem_states present) (defIdNext.trans defId'.symm)
    simp only [nextVisit, transition, getState_of_mem known', foundNext]

/-- The visit of the first of some complete states that the walk still has before it. -/
theorem visit_along (json : RuntimeJson J) (filters : Filters J) (processors : Processors J) (envs : Nat → VisitEnv)
    (walk : Walk definition config.aggregate.state path stop)
    (active : config.aggregate.state.status = some .ACTIVE) {rest : List StateMachineInstanceState}
    (chain : (s :: rest ++ [stop]).IsChain StateMachineInstanceState.LeadsTo) (within : ∀ s' ∈ s :: rest, s' ∈ path)
    (first : config.stateInstanceId = some s.id) :
    (rest ++ [stop]).IsChain StateMachineInstanceState.LeadsTo ∧ ∃ e, (rest ++ [stop]).head? = some e ∧
      visitExecution json filters (envs config.visited) definition config = none ∧
      visit json filters processors definition (envs config.visited) config =
        match json.getOutput s with
        | none => .inl (config.aggregate, .error .jsonReaderException)
        | some output => .inr ⟨config.visited + 1, config.aggregate, output, some e.id⟩ := by
  obtain ⟨e, head⟩ : ∃ e, (rest ++ [stop]).head? = some e := by cases rest <;> simp
  obtain ⟨leads, chain'⟩ := List.isChain_cons.mp chain
  have listed : e ∈ path ++ [stop] := by
    rcases List.mem_append.mp (List.mem_of_head? head) with before | last
    · exact List.mem_append_left _ (within e (List.mem_cons_of_mem _ before))
    · exact List.mem_append_right _ last
  exact ⟨chain', e, head, visit_passes processors walk active (within s List.mem_cons_self) first listed (leads e head)⟩

/-- Along complete states with outputs that can be read nothing is executed until the walk stops. -/
theorem executions_along (walk : Walk definition config.aggregate.state path stop)
    (active : config.aggregate.state.status = some .ACTIVE) {rest : List StateMachineInstanceState}
    (chain : (rest ++ [stop]).IsChain StateMachineInstanceState.LeadsTo) (within : ∀ s ∈ rest, s ∈ path)
    (first : ∀ s ∈ (rest ++ [stop]).head?, config.stateInstanceId = some s.id)
    (readable : ∀ s ∈ rest, (json.getOutput s).isSome) :
    ∃ input, (∀ fuel ≤ rest.length, launchExecutions json filters processors definition envs fuel config = []) ∧
      ∀ fuel, launchExecutions json filters processors definition envs (rest.length + fuel) config =
          launchExecutions json filters processors definition envs fuel
            ⟨config.visited + rest.length, config.aggregate, input, some stop.id⟩ ∧
        internalLaunch json filters processors definition envs (rest.length + fuel) config =
          internalLaunch json filters processors definition envs fuel
            ⟨config.visited + rest.length, config.aggregate, input, some stop.id⟩ := by
  induction rest generalizing config with
  | nil =>
    have here : config.stateInstanceId = some stop.id := first stop (by simp)
    refine ⟨config.input, fun fuel short => ?_, fun fuel => ?_⟩
    · obtain rfl : fuel = 0 := Nat.le_zero.mp short
      rfl
    · rw [← here, List.length_nil, Nat.zero_add, Nat.add_zero]
      exact ⟨rfl, rfl⟩
  | cons s rest ih =>
    obtain ⟨output, read⟩ := Option.isSome_iff_exists.mp (readable s List.mem_cons_self)
    obtain ⟨chain', e, head, unexecuted, passes⟩ :=
      visit_along json filters processors envs walk active chain within (first s (by simp))
    rw [read] at passes
    obtain ⟨input, before, after⟩ := @ih ⟨config.visited + 1, config.aggregate, output, some e.id⟩ walk active
      chain' (fun s' member => within s' (List.mem_cons_of_mem _ member))
      (fun s' head' => by rw [Option.some.inj (head.symm.trans head')])
      (fun s' member => readable s' (List.mem_cons_of_mem _ member))
    have steps (fuel : Nat) : launchExecutions json filters processors definition envs (fuel + 1) config =
        launchExecutions json filters processors definition envs fuel
          ⟨config.visited + 1, config.aggregate, output, some e.id⟩ := by
      rw [launchExecutions, unexecuted, passes]
      rfl
    have returns (fuel : Nat) : internalLaunch json filters processors definition envs (fuel + 1) config =
        internalLaunch json filters processors definition envs fuel
          ⟨config.visited + 1, config.aggregate, output, some e.id⟩ := by
      rw [internalLaunch, loop_succ, passes]
      rfl
    refine ⟨input, fun fuel short => ?_, fun fuel => ?_⟩
    · cases fuel with
      | zero => rfl
      | succ fuel => rw [steps, before fuel (by simpa using short)]
    · rw [List.length_cons, show rest.length + 1 + fuel = rest.length + fuel + 1 by omega, steps, returns,
        show config.visited + (rest.length + 1) = config.visited + 1 + rest.length by omega]
      exact after fuel

/-- If one of them cannot be read, nothing is executed at all. -/
theorem no_executions_along (walk : Walk definition config.aggregate.state path stop)
    (active : config.aggregate.state.status = some .ACTIVE) {rest : List StateMachineInstanceState}
    (chain : (rest ++ [stop]).IsChain StateMachineInstanceState.LeadsTo) (within : ∀ s ∈ rest, s ∈ path)
    (first : ∀ s ∈ (rest ++ [stop]).head?, config.stateInstanceId = some s.id)
    (unreadable : ∃ s ∈ rest, json.getOutput s = none) (fuel : Nat) :
    launchExecutions json filters processors definition envs fuel config = [] := by
  induction rest generalizing config fuel with
  | nil => simp at unreadable
  | cons s rest ih =>
    cases fuel with
    | zero => rfl
    | succ fuel =>
      obtain ⟨chain', e, head, unexecuted, passes⟩ :=
        visit_along json filters processors envs walk active chain within (first s (by simp))
      rw [launchExecutions, unexecuted, passes]
      cases read : json.getOutput s with
      | none => rfl
      | some output =>
        obtain ⟨s', member, unread⟩ := unreadable
        have later : s' ∈ rest := by
          rcases List.mem_cons.mp member with rfl | later
          · rw [read] at unread
            cases unread
          · exact later
        exact @ih ⟨config.visited + 1, config.aggregate, output, some e.id⟩ walk active chain'
          (fun s' member => within s' (List.mem_cons_of_mem _ member))
          (fun s' head' => by rw [Option.some.inj (head.symm.trans head')]) ⟨s', later, unread⟩ fuel

/-! ## Executions after the walk -/

/-- A state that goes on has been completed with a transition of its definition. -/
theorem executeState_next (conforming : Conforming json.toJTokens processors) {visited : Nat}
    {d : StateMachineDefinitionState} {before after : StateMachineInstanceAggregate} {output : Option J}
    {transition : Option String} (found : before.state.getState (some s.id) = some s)
    (goes : executeState json filters processors env visited d s before = .inr (after, output, transition)) :
    (∃ answered, (processors visited d s before).2 = .next answered transition) ∧
      ∃ new, Turned s.id before.state new after.state ∧ new.status = .COMPLETE ∧ new.nextTransition = transition ∧
        transition ∈ d.transitions ∧ after.state.status = before.state.status := by
  obtain ⟨calls, own, called⟩ := conforming.calls visited d s before
  have next := conforming.next visited d s before
  have quiet : Quiet s.id before.state (processors visited d s before).1.state := by
    rw [called]
    exact runCommands_quiet own
  unfold executeState at goes
  generalize processors visited d s before = answered at next quiet goes
  obtain ⟨between, answer⟩ := answered
  obtain ⟨now, turned, -⟩ := quiet.2 s found
  cases answer with
  | block => cases goes
  | error exception => cases goes
  | «end» output =>
    dsimp only at goes
    split at goes
    · cases goes
    · unfold andThen at goes
      split at goes <;> cases goes
  | next output transition =>
    dsimp only at goes
    split at goes
    · cases goes
    next filtered =>
      unfold andThen at goes
      split at goes
      next result aggregate completes =>
        cases goes
        obtain ⟨new, turned', complete, there, same⟩ := completeState_turned turned.found completes
        exact ⟨⟨output, rfl⟩, new, turned.trans turned', complete, there, next output transition rfl, same.trans quiet.1⟩
      next => cases goes

/-- A state whose processor answers with a transition goes on, or an exception ends the launch. -/
theorem executeState_of_next {visited : Nat} {d : StateMachineDefinitionState} {before : StateMachineInstanceAggregate}
    {answered : Option J} {transition : Option String} (answer : (processors visited d s before).2 = .next answered transition)
    {result : LaunchResult} (ends : executeState json filters processors env visited d s before = .inl result) :
    result.2 ≠ .ok () := by
  unfold executeState at ends
  generalize processors visited d s before = all at answer ends
  obtain ⟨between, last⟩ := all
  obtain rfl : last = .next answered transition := answer
  dsimp only at ends
  split at ends
  · cases ends
    intro impossible
    cases impossible
  · unfold andThen at ends
    split at ends
    · cases ends
    · cases ends
      intro impossible
      cases impossible

/-- Each call and the one after it, if there is one, with the number of the visit. -/
def Stepwise (P : Nat → Execution → Option Execution → Prop) : Nat → List Execution → Prop
  | _, [] => True
  | visited, call :: executions => P visited call executions.head? ∧ Stepwise P (visited + 1) executions

/-- The next call is of the state that the processor has answered with. -/
def AsAnswered (processors : Processors J) (visited : Nat) (call : Execution) (next : Option Execution) : Prop :=
  ∀ call' ∈ next, ∃ answered, (processors visited call.definition call.state call.aggregate).2 =
    .next answered (some call'.definition.id)

/-- The state that the processor answers with is called next, if it has a processor. -/
def Continues (definition : StateMachineDefinition) (processors : Processors J) (visited : Nat) (call : Execution)
    (next : Option Execution) : Prop :=
  ∀ answered, ∀ d ∈ definition.states, d.type.hasProcessor →
    (processors visited call.definition call.state call.aggregate).2 = .next answered (some d.id) →
    ∃ call' ∈ next, call'.definition = d

/-- What is executed when the walk has stopped: first the state it stopped at, then states that were new, each once and
by a transition of the one before it. -/
structure ExecutedFrom (definition : StateMachineDefinition) (machine : StateMachineInstance)
    (stop : StateMachineInstanceState) (executions : List Execution) : Prop where
  first : ∀ call ∈ executions.head?, call.state.id = stop.id ∧ stop.status ≠ .COMPLETE ∧
    call.definition ∈ definition.states ∧ stop.defId = some call.definition.id
  later : ∀ call ∈ executions.tail, ∃ s ∈ machine.states, s.id = call.state.id ∧ s.id ≠ stop.id ∧ s.status = .CREATE
  once : (executions.map (·.state.id)).Nodup
  follows : executions.IsChain fun call next => some next.definition.id ∈ call.definition.transitions

/-- Nothing is executed. -/
theorem ExecutedFrom.nil {machine : StateMachineInstance} : ExecutedFrom definition machine stop [] :=
  ⟨by simp, by simp, by simp, List.isChain_nil⟩

/-- The state where a walk stops is executed, then what follows. -/
theorem ExecutedFrom.cons {before after : StateMachineInstance} {new next : StateMachineInstanceState} {call : Execution}
    {executions : List Execution} (walk : Walk definition before path stop) (incomplete : stop.status ≠ .COMPLETE)
    (turned : Turned stop.id before new after) (complete : new.status = .COMPLETE) (id : call.state.id = stop.id)
    (known : call.definition ∈ definition.states) (defId : stop.defId = some call.definition.id)
    (leads : new.LeadsTo next) (transition : new.nextTransition ∈ call.definition.transitions)
    (present : next ∈ after.states) (executed : ExecutedFrom definition after next executions) :
    ExecutedFrom definition before stop (call :: executions) := by
  have distinct := walk.instanceOf.distinct
  -- what was not complete when the state was completed was new before
  have fresh {s : StateMachineInstanceState} (member : s ∈ after.states) (status : s.status ≠ .COMPLETE) :
      s ∈ before.states ∧ s.id ≠ stop.id ∧ s.status = .CREATE := by
    rcases (turned.mem_iff distinct).mp member with rfl | ⟨apart, there⟩
    · exact absurd complete status
    · have idle : ¬ s.InFrontier := fun under => apart (walk.others s there under ▸ rfl)
      exact ⟨there, apart, ((status_cases s).resolve_left idle).resolve_left status⟩
  have later : ∀ call' ∈ executions, ∃ s ∈ before.states, s.id = call'.state.id ∧ s.id ≠ stop.id ∧ s.status = .CREATE := by
    intro call' member
    cases executions with
    | nil => cases member
    | cons head tail =>
      rcases List.mem_cons.mp member with rfl | member
      · obtain ⟨same, unfinished, -, -⟩ := executed.first call' rfl
        obtain ⟨there, apart, created⟩ := fresh present unfinished
        exact ⟨next, there, same.symm, apart, created⟩
      · obtain ⟨s, there, same, -, created⟩ := executed.later call' member
        obtain ⟨there', apart, -⟩ := fresh there (by simp [created])
        exact ⟨s, there', same, apart, created⟩
  refine ⟨fun call' head => ?_, later, ?_, ?_⟩
  · obtain rfl : call = call' := Option.some.inj head
    exact ⟨id, incomplete, known, defId⟩
  · refine List.nodup_cons.mpr ⟨fun listed => ?_, executed.once⟩
    obtain ⟨call', member, same⟩ := List.mem_map.mp listed
    obtain ⟨s, -, there, apart, -⟩ := later call' member
    exact apart (there.trans (same.trans id))
  · refine executed.follows.cons fun call' head => ?_
    obtain ⟨-, -, -, there⟩ := executed.first call' head
    obtain ⟨t, names, leads⟩ := leads
    rw [← there, leads, ← names]
    exact transition

/-- The state where a walk stops is executed at last. -/
theorem ExecutedFrom.single {machine : StateMachineInstance} {call : Execution} (id : call.state.id = stop.id)
    (incomplete : stop.status ≠ .COMPLETE) (known : call.definition ∈ definition.states)
    (defId : stop.defId = some call.definition.id) : ExecutedFrom definition machine stop [call] := by
  refine ⟨fun call' head => ?_, by simp, by simp, List.isChain_singleton _⟩
  obtain rfl : call = call' := Option.some.inj head
  exact ⟨id, incomplete, known, defId⟩

/-- A walk that goes round executes nothing. -/
theorem no_executions_round (walk : Walk definition config.aggregate.state path stop)
    (active : config.aggregate.state.status = some .ACTIVE) (round : stop ∈ path) (member : s ∈ path)
    (id : config.stateInstanceId = some s.id) (fuel : Nat) :
    launchExecutions json filters processors definition envs fuel config = [] := by
  induction fuel generalizing config s with
  | zero => rfl
  | succ fuel ih =>
    obtain ⟨e, present, leads⟩ := walk.isPath.next member
    obtain ⟨unexecuted, passes⟩ : visitExecution json filters (envs config.visited) definition config = none ∧ _ :=
      visit_passes processors walk active member id present leads
    rw [launchExecutions, unexecuted, passes]
    cases json.getOutput s with
    | none => rfl
    | some output =>
      have there : e ∈ path := by
        rcases List.mem_append.mp present with before | last
        · exact before
        · rwa [List.mem_singleton.mp last]
      exact @ih e ⟨config.visited + 1, config.aggregate, output, some e.id⟩ walk active there rfl

/-- A state that is not complete is executed, or the launch ends with an exception. -/
theorem processState_of_not_executed {d : StateMachineDefinitionState} (incomplete : s.status ≠ .COMPLETE)
    (unexecuted : execution json filters env config d s = none) :
    ∃ result, processState json filters processors env config d s = .inl result ∧ result.2 ≠ .ok () := by
  have ends {result : LaunchResult} (unexecuted : executing d s result = none)
      (next : StateMachineInstanceAggregate → LaunchResult ⊕ (StateMachineInstanceAggregate × Option J × Option String)) :
      andThen result next = .inl result ∧ result.2 ≠ .ok () := by
    obtain ⟨aggregate, outcome⟩ := result
    cases outcome with
    | ok => cases unexecuted
    | error e => exact ⟨rfl, fun impossible => by cases impossible⟩
  unfold execution at unexecuted
  unfold processState
  generalize s.status = status at unexecuted incomplete ⊢
  cases status with
  | CREATE =>
    cases transformed : filters.transform config.input d.stateDataFilterInput with
    | none => exact ⟨_, rfl, fun impossible => by cases impossible⟩
    | some input =>
      simp only [transformed, Option.bind_some] at unexecuted ⊢
      exact ⟨_, ends unexecuted _⟩
  | ERROR => exact ⟨_, ends unexecuted _⟩
  | COMPLETE => exact absurd rfl incomplete
  | ACTIVE => cases unexecuted
  | PENDING => cases unexecuted

/-- Where a visit goes on to. -/
theorem nextVisit_cases {visited : Nat} {after : StateMachineInstanceAggregate} {output : Option J}
    {transition : Option String} {next : LaunchConfig J}
    (goes : nextVisit definition visited after output transition = .inr next) :
    ∃ e ∈ after.state.states, next = ⟨visited + 1, after, output, some e.id⟩ ∧ ∃ t, transition = some t ∧ e.defId = some t := by
  unfold nextVisit at goes
  split at goes
  · cases goes
  next f defined =>
    split at goes
    · cases goes
    next e found =>
      cases goes
      have named : some f.id = transition := by simpa using List.find?_some defined
      exact ⟨e, List.mem_of_find?_eq_some found, rfl, f.id, named.symm, getStateByDefId_defId found⟩

/-- A visit of the state that a walk has stopped at: either nothing is executed and the launch ends, without an exception
only where the state has no processor, or the state is given to its processor. -/
theorem visit_stop (json : RuntimeJson J) (filters : Filters J) (processors : Processors J) (env : VisitEnv)
    (walk : Walk definition config.aggregate.state path stop)
    (active : config.aggregate.state.status = some .ACTIVE) (id : config.stateInstanceId = some stop.id)
    (incomplete : stop.status ≠ .COMPLETE) :
    (visitExecution json filters env definition config = none ∧
      ∃ result, visit json filters processors definition env config = .inl result ∧
        (result.2 = .ok () → ∀ d ∈ definition.states, stop.defId = some d.id → d.type.hasProcessor = false)) ∨
    ∃ call, visitExecution json filters env definition config = some call ∧
      GivenTo config.aggregate.state stop call.definition call ∧ call.definition ∈ definition.states ∧
      stop.defId = some call.definition.id ∧ call.definition.type.hasProcessor ∧
      visit json filters processors definition env config =
        match executeState json filters processors env config.visited call.definition call.state call.aggregate with
        | .inl result => .inl result
        | .inr (aggregate, output, transition) => nextVisit definition config.visited aggregate output transition := by
  have found : config.aggregate.state.getState config.stateInstanceId = some stop := by rw [id, walk.getState]
  obtain ⟨d, known, defId⟩ := walk.instanceOf.exists_defId walk.present
  have defined : definition.getState stop.defId = some d := by
    rw [defId]
    exact getState_of_mem known
  have only {e : StateMachineDefinitionState} (known' : e ∈ definition.states) (same : stop.defId = some e.id) : d = e :=
    List.inj_on_of_nodup_map definition.distinct known known' (Option.some.inj (defId.symm.trans same))
  by_cases runs : d.type.hasProcessor
  · rw [visitExecution_of_processes active found defined runs, visit_of_processes active found defined runs]
    cases executed : execution json filters env config d stop with
    | none =>
      obtain ⟨result, ends, fails⟩ := @processState_of_not_executed _ _ _ processors _ _ _ _ incomplete executed
      rw [ends]
      exact .inl ⟨rfl, result, rfl, fun returns => absurd returns fails⟩
    | some call =>
      have given := execution_givenTo executed walk.getState
      obtain ⟨rfl, -, -, -⟩ := given
      rw [processState_of_execution executed]
      exact .inr ⟨call, rfl, execution_givenTo executed walk.getState, known, defId, runs, rfl⟩
  · have idle : d.type.hasProcessor = false := by simpa using runs
    obtain ⟨unexecuted, ends⟩ : visitExecution json filters env definition config = none ∧ _ :=
      visit_idle active found defined idle
    refine .inl ⟨unexecuted, _, ends, fun _ e known' same => ?_⟩
    rw [← only known' same]
    exact idle

/-- Where the state that a walk has stopped at is completed with a transition, the walk is longer by it. -/
structure WentFrom (definition : StateMachineDefinition) (processors : Processors J) (config : LaunchConfig J)
    (path : List StateMachineInstanceState) (stop : StateMachineInstanceState) (call : Execution)
    (after : StateMachineInstanceAggregate) (transition : Option String) (new : StateMachineInstanceState) : Prop where
  answer : ∃ answered, (processors config.visited call.definition call.state call.aggregate).2 = .next answered transition
  turned : Turned stop.id config.aggregate.state new after.state
  complete : new.status = .COMPLETE
  transition_eq : new.nextTransition = transition
  listed : transition ∈ call.definition.transitions
  status : after.state.status = config.aggregate.state.status
  completed : Completed definition after.state path new
  wentOn : WentOn definition new

/-- A visit of an incomplete state goes on from it. -/
theorem wentFrom (conforming : Conforming json.toJTokens processors) (walk : Walk definition config.aggregate.state path stop)
    (incomplete : stop.status ≠ .COMPLETE) {call : Execution} (given : GivenTo config.aggregate.state stop call.definition call)
    (known : call.definition ∈ definition.states) (defId : stop.defId = some call.definition.id)
    (runs : call.definition.type.hasProcessor) {after : StateMachineInstanceAggregate} {output : Option J}
    {transition : Option String} (goes : executeState json filters processors env config.visited call.definition call.state
      call.aggregate = .inr (after, output, transition)) :
    ∃ new, WentFrom definition processors config path stop call after transition new := by
  obtain ⟨-, turned, status, -⟩ := given
  have found : call.aggregate.state.getState (some call.state.id) = some call.state := by
    rw [turned.id_eq]
    exact turned.found
  obtain ⟨answer, new, turned', done, there, listed, status'⟩ := executeState_next conforming found goes
  rw [turned.id_eq] at turned'
  have both : Turned stop.id config.aggregate.state new after.state := turned.trans turned'
  have processed : ∀ f ∈ definition.states, stop.defId = some f.id → f.type.hasProcessor := by
    intro f known' same
    obtain rfl := List.inj_on_of_nodup_map definition.distinct known known' (Option.some.inj (defId.symm.trans same))
    exact runs
  exact ⟨new, answer, both, done, there, listed, status'.trans status, walk.completed incomplete both done processed,
    call.definition, known, (both.defId_eq walk.getState).trans defId, there ▸ listed⟩

/-- What a launch executes follows the walk. -/
theorem executions_from (conforming : Conforming json.toJTokens processors)
    (walk : Walk definition config.aggregate.state path stop) (active : config.aggregate.state.status = some .ACTIVE)
    (id : config.stateInstanceId = some stop.id) (fuel : Nat) :
    ExecutedFrom definition config.aggregate.state stop
      (launchExecutions json filters processors definition envs fuel config) ∧
    Stepwise (AsAnswered processors) config.visited (launchExecutions json filters processors definition envs fuel config) := by
  induction fuel generalizing config path stop with
  | zero => exact ⟨.nil, trivial⟩
  | succ fuel ih =>
    by_cases complete : stop.status = .COMPLETE
    · have round : stop ∈ path := (walk.complete stop).mpr ⟨walk.present, complete⟩
      rw [no_executions_round walk active round round id]
      exact ⟨.nil, trivial⟩
    · rw [launchExecutions]
      obtain ⟨unexecuted, result, ends, -⟩ | ⟨call, executed, given, known, defId, runs, visits⟩ :=
        visit_stop json filters processors (envs config.visited) walk active id complete
      · rw [unexecuted, ends]
        exact ⟨.nil, trivial⟩
      · rw [executed, visits]
        have single : ExecutedFrom definition config.aggregate.state stop [call] ∧
            Stepwise (AsAnswered processors) config.visited [call] := by
          refine ⟨.single given.turned.id_eq complete known defId, fun call' none => ?_, trivial⟩
          cases none
        cases goes : executeState json filters processors (envs config.visited) config.visited call.definition call.state
            call.aggregate with
        | inl result => exact single
        | inr passed =>
          obtain ⟨after, output, transition⟩ := passed
          dsimp only
          cases moves : nextVisit definition config.visited after output transition with
          | inl result => exact single
          | inr next =>
            obtain ⟨e, present, rfl, t, names, leads⟩ := nextVisit_cases moves
            obtain ⟨new, went⟩ := wentFrom conforming walk complete given known defId runs goes
            have leadsTo : new.LeadsTo e := ⟨t, went.transition_eq.trans names, leads⟩
            obtain ⟨later, answers⟩ := @ih _ _ ⟨config.visited + 1, after, output, some e.id⟩
              (went.completed.walk went.wentOn present leadsTo) (went.status.trans active) rfl
            refine ⟨.cons walk complete went.turned went.complete given.turned.id_eq known defId leadsTo
              (went.transition_eq ▸ went.listed) present later, fun call' head => ?_, answers⟩
            obtain ⟨-, -, -, there⟩ := later.first call' head
            obtain ⟨answered, answer⟩ := went.answer
            exact ⟨answered, by rw [answer, names, ← leads, there]⟩

/-- A walk that goes round never comes back without an exception. -/
theorem no_return_round (walk : Walk definition config.aggregate.state path stop)
    (active : config.aggregate.state.status = some .ACTIVE) (round : stop ∈ path) (member : s ∈ path)
    (id : config.stateInstanceId = some s.id) {fuel : Nat} {after : StateMachineInstanceAggregate} :
    internalLaunch json filters processors definition envs fuel config ≠ some (after, .ok ()) := by
  induction fuel generalizing config s with
  | zero =>
    intro impossible
    cases impossible
  | succ fuel ih =>
    obtain ⟨e, present, leads⟩ := walk.isPath.next member
    obtain ⟨-, passes⟩ : visitExecution json filters (envs config.visited) definition config = none ∧ _ :=
      visit_passes processors walk active member id present leads
    rw [internalLaunch, loop_succ, passes]
    cases json.getOutput s with
    | none =>
      intro impossible
      cases impossible
    | some output =>
      have there : e ∈ path := by
        rcases List.mem_append.mp present with before | last
        · exact before
        · rwa [List.mem_singleton.mp last]
      exact @ih e ⟨config.visited + 1, config.aggregate, output, some e.id⟩ walk active there rfl

/-- In a launch that ends without an exception, the state it stopped at is executed if it has a processor, and so is each
state that a processor answers with. -/
theorem executions_continue (conforming : Conforming json.toJTokens processors)
    (walk : Walk definition config.aggregate.state path stop) (active : config.aggregate.state.status = some .ACTIVE)
    (id : config.stateInstanceId = some stop.id) {fuel : Nat} {after : StateMachineInstanceAggregate}
    (returns : internalLaunch json filters processors definition envs fuel config = some (after, .ok ())) :
    (∀ d ∈ definition.states, stop.defId = some d.id → d.type.hasProcessor →
      ∃ call ∈ (launchExecutions json filters processors definition envs fuel config).head?, call.definition = d) ∧
    Stepwise (Continues definition processors) config.visited
      (launchExecutions json filters processors definition envs fuel config) := by
  induction fuel generalizing config path stop with
  | zero => cases returns
  | succ fuel ih =>
    by_cases complete : stop.status = .COMPLETE
    · have round : stop ∈ path := (walk.complete stop).mpr ⟨walk.present, complete⟩
      exact absurd returns (no_return_round walk active round round id)
    · rw [internalLaunch, loop_succ] at returns
      rw [launchExecutions]
      obtain ⟨unexecuted, result, ends, idle⟩ | ⟨call, executed, given, known, defId, runs, visits⟩ :=
        visit_stop json filters processors (envs config.visited) walk active id complete
      · rw [ends] at returns
        rw [unexecuted, ends]
        obtain rfl := Option.some.inj returns
        refine ⟨fun d known defId runs => ?_, trivial⟩
        rw [idle rfl d known defId] at runs
        cases runs
      · rw [visits] at returns
        rw [executed, visits]
        have here (others : List Execution) : ∀ d ∈ definition.states, stop.defId = some d.id → d.type.hasProcessor →
            ∃ call' ∈ (call :: others).head?, call'.definition = d := by
          intro d known' same _
          exact ⟨call, rfl, List.inj_on_of_nodup_map definition.distinct known known' (Option.some.inj (defId.symm.trans same))⟩
        cases goes : executeState json filters processors (envs config.visited) config.visited call.definition call.state
            call.aggregate with
        | inl result =>
          rw [goes] at returns
          obtain rfl := Option.some.inj returns
          refine ⟨here _, fun answered d _ _ answer => ?_, trivial⟩
          exact absurd rfl (executeState_of_next answer goes)
        | inr passed =>
          obtain ⟨between, output, transition⟩ := passed
          rw [goes] at returns
          dsimp only at returns ⊢
          obtain ⟨new, went⟩ := wentFrom conforming walk complete given known defId runs goes
          obtain ⟨answered', answer'⟩ := went.answer
          have named {answered : Option J} {d : StateMachineDefinitionState}
              (answer : (processors config.visited call.definition call.state call.aggregate).2 =
                .next answered (some d.id)) : transition = some d.id :=
            (StateProcessorResult.next.inj (answer'.symm.trans answer)).2
          cases moves : nextVisit definition config.visited between output transition with
          | inl result =>
            rw [moves] at returns
            refine ⟨here _, fun answered d known' _ answer => ?_, trivial⟩
            obtain ⟨e, found, -, -⟩ := went.completed.instanceOf.getStateByDefId_isSome known'
            simp only [nextVisit, named answer, getState_of_mem known', found] at moves
            cases moves
          | inr next =>
            rw [moves] at returns
            obtain ⟨e, present, rfl, t, names, leads⟩ := nextVisit_cases moves
            have leadsTo : new.LeadsTo e := ⟨t, went.transition_eq.trans names, leads⟩
            obtain ⟨first, later⟩ := @ih _ _ ⟨config.visited + 1, between, output, some e.id⟩
              (went.completed.walk went.wentOn present leadsTo) (went.status.trans active) rfl returns
            refine ⟨here _, fun answered d known' runs' answer => ?_, later⟩
            exact first d known' (leads.trans (names.symm.trans (named answer))) runs'

/-- Where a walk has stopped at a state that failed, this is executed. -/
theorem executions_of_failed (walk : Walk definition config.aggregate.state path stop)
    (active : config.aggregate.state.status = some .ACTIVE) (id : config.stateInstanceId = some stop.id)
    (failed : stop.status = .ERROR) (fuel : Nat) :
    ∃ call ∈ (launchExecutions json filters processors definition envs (fuel + 1) config).head?, ∃ now,
      call.state = stop.activate now := by
  have found : config.aggregate.state.getState config.stateInstanceId = some stop := by rw [id, walk.getState]
  obtain ⟨d, known, defId⟩ := walk.instanceOf.exists_defId walk.present
  have defined : definition.getState stop.defId = some d := by
    rw [defId]
    exact getState_of_mem known
  have runs : d.type.hasProcessor := walk.ran stop walk.present (by simp [failed]) d known defId
  obtain ⟨call, executed, given⟩ : ∃ call, execution json filters (envs config.visited) config d stop = some call ∧ _ :=
    execution_of_failed failed walk.getState
  refine ⟨call, ?_, _, given⟩
  rw [launchExecutions, visitExecution_of_processes active found defined runs, executed]
  rfl

end

/-! ## `StateMachineLauncher.Reactivate` -/

/-- What a reactivation reads from outside. -/
structure ReactivateRequest (J : Type*) where
  id : String
  env : InstanceEnv
  filters : Filters J
  processors : Processors J
  envs : Nat → VisitEnv

/-- What `Reactivate` throws: an exception of the instance, or one of `DeserializeYaml`. -/
inductive ReactivateException where
  | instance (e : InstanceException)
  | deserialize
  deriving DecidableEq, Repr

section
variable {J : Type*} (worker : Worker J) (request : ReactivateRequest J) (newObject : J)

/-- The instance that is loaded and made active, and its definition. -/
def loadAndReactivate (stores : WorkerStores) :
    Except ReactivateException (StateMachineInstanceAggregate × StateMachineDefinition) :=
  match CommitAggregateHelper.get (instanceClass worker.json.toJTokens) request.id stores.instances with
  | .error e => .error (.instance e)
  | .ok stateMachineInstance =>
    match StateMachineInstanceAggregate.reactivate worker.json.toJTokens stateMachineInstance request.env with
    | (_, .error e) => .error (.instance e)
    | (stateMachineInstance, .ok ()) =>
      match worker.deserializeYaml (stateMachineInstance.state.workflowDef.bind (·.serializedDefinition)) with
      | none => .error .deserialize
      | some stateMachineDef => .ok (stateMachineInstance, stateMachineDef)

/-- `Reactivate`: the stores it leaves, and whether it throws; `none` where the launch does not return. The launch is
given a `new JObject()`. -/
def reactivateInstance (fuel : Nat) (stores : WorkerStores) :
    Option (WorkerStores × Except ReactivateException Unit) :=
  match loadAndReactivate worker request stores with
  | .error e => some (stores, .error e)
  | .ok (stateMachineInstance, stateMachineDef) =>
    match launchRoot worker.json request.filters request.processors stateMachineDef request.envs fuel
        stateMachineInstance (some newObject) with
    | none => none
    | some (_, .error e) => some (stores, .error (.instance e))
    | some (stateMachineInstance, .ok ()) =>
      let processed := { stores with
        cloudEvents := stores.cloudEvents ++ stateMachineInstance.integrationEvents.map CloudEventSubscription.create }
      some ((processed.commit worker stateMachineInstance).2, .ok ())

/-- The calls of processors that `Reactivate` makes. -/
def reactivateExecutions (fuel : Nat) (stores : WorkerStores) : List Execution :=
  match loadAndReactivate worker request stores with
  | .error _ => []
  | .ok (stateMachineInstance, stateMachineDef) =>
    match stateMachineInstance.state.getStateByDefId (some stateMachineDef.root) with
    | none => []
    | some rootState =>
      launchExecutions worker.json request.filters request.processors stateMachineDef request.envs fuel
        ⟨0, stateMachineInstance, some newObject, some rootState.id⟩

end

/-- The executions of a reactivation of an instance that failed in some state, after some visits. First that state is
executed, as it was but for its status, then states that were new, each once and as the processor of the one before it has
answered. -/
structure ResumedAt {J : Type*} (definition : StateMachineDefinition) (processors : Processors J) (visits : Nat)
    (machine : StateMachineInstance) (failed : StateMachineInstanceState) (executions : List Execution) : Prop where
  first : ∃ call ∈ executions.head?, (∃ now, call.state = failed.activate now) ∧ call.state.inputStr = failed.inputStr ∧
    call.definition ∈ definition.states ∧ failed.defId = some call.definition.id
  later : ∀ call ∈ executions.tail, ∃ s ∈ machine.states, s.id = call.state.id ∧ s.status = .CREATE
  once : (executions.map (·.state.id)).Nodup
  follows : executions.IsChain fun call next => some next.definition.id ∈ call.definition.transitions
  answers : Stepwise (AsAnswered processors) visits executions

/-- It is reactivated with its definition. However that is done, nothing is executed before the state that failed, and if the
launch comes to it, it is resumed there; where no exception ends the launch, it goes on with each state that a processor
answers with. -/
def ResumesAtFailure {J : Type*} (worker : Worker J) (definition : StateMachineDefinition) (id : String)
    (newObject : J) (stores : WorkerStores) (machine : StateMachineInstance) : Prop :=
  worker.deserializeYaml (machine.workflowDef.bind (·.serializedDefinition)) = some definition ∧
  ∃ failed ∈ machine.states, failed.status = .ERROR ∧ ∃ visits, ∀ request : ReactivateRequest J, request.id = id →
    Conforming worker.json.toJTokens request.processors →
    (∀ fuel ≤ visits, reactivateExecutions worker request newObject fuel stores = []) ∧
      ∀ fuel, visits < fuel →
        ResumedAt definition request.processors visits machine failed
          (reactivateExecutions worker request newObject fuel stores) ∧
        ∀ after, reactivateInstance worker request newObject fuel stores = some (after, .ok ()) →
          Stepwise (Continues definition request.processors) visits
            (reactivateExecutions worker request newObject fuel stores)

section
variable {J : Type*} {worker : Worker J} {definition : StateMachineDefinition} {machine : StateMachineInstance}
  {path : List StateMachineInstanceState} {failed : StateMachineInstanceState} {request : ReactivateRequest J}
  {newObject : J} {stores : WorkerStores} {aggregate : StateMachineInstanceAggregate}

/-- The stored output of a state is blank, or the text of an object. -/
def ReadableOutput (json : RuntimeJson J) (s : StateMachineInstanceState) : Prop :=
  isNullOrWhiteSpace s.outputStr ∨ (json.parseObject (s.outputStr.getD "")).isSome

instance (json : RuntimeJson J) (s : StateMachineInstanceState) : Decidable (ReadableOutput json s) :=
  inferInstanceAs (Decidable (_ ∨ _))

/-- The output of a state can be got exactly if it is readable. -/
theorem getOutput_isSome_iff {json : RuntimeJson J} {s : StateMachineInstanceState} :
    (json.getOutput s).isSome ↔ ReadableOutput json s := by
  unfold RuntimeJson.getOutput ReadableOutput
  split <;> simp_all

/-- An instance that has not failed is not reactivated. -/
theorem reactivate_of_not_failed {json : JTokens J} (sound : aggregate.state.status ≠ some .FAILED) (env : InstanceEnv) :
    ∃ message, StateMachineInstanceAggregate.reactivate json aggregate env =
      (aggregate, .error (.businessException message)) := by
  unfold StateMachineInstanceAggregate.reactivate emit
  simp only [StateMachineInstance.handle, if_pos sound]
  exact ⟨_, rfl⟩

/-- A failed instance can be reactivated. -/
theorem reactivate_of_failed {json : JTokens J} (failed : aggregate.state.status = some .FAILED) (env : InstanceEnv) :
    ∃ after, StateMachineInstanceAggregate.reactivate json aggregate env = (after, .ok ()) ∧
      after.state = aggregate.state.updateState env.utcNow .ACTIVE := by
  unfold StateMachineInstanceAggregate.reactivate emit
  simp [StateMachineInstance.handle, failed]

/-- The walk of an instance begins at its root. -/
theorem Walk.root (walk : Walk definition machine path failed) :
    ∃ root, (path ++ [failed]).head? = some root ∧ machine.getStateByDefId (some definition.root) = some root := by
  obtain ⟨first, head⟩ : ∃ first, (path ++ [failed]).head? = some first := by cases path <;> simp
  obtain ⟨d, known, same⟩ := List.mem_map.mp definition.rooted
  obtain ⟨root, found, member, defId⟩ := walk.instanceOf.getStateByDefId_isSome known
  rw [same] at found defId
  have starts := walk.isPath.2 first head
  obtain rfl := walk.instanceOf.eq_of_defId member (walk.mem_states (List.mem_of_head? head)) (defId.trans starts.symm)
  exact ⟨root, head, found⟩

/-- The launch of a reactivation. -/
theorem reactivateExecutions_eq {id : String}
    (loaded : CommitAggregateHelper.get (instanceClass worker.json.toJTokens) id stores.instances = .ok aggregate)
    (readBack : worker.deserializeYaml (aggregate.state.workflowDef.bind (·.serializedDefinition)) = some definition)
    (status : aggregate.state.status = some .FAILED) (walk : Walk definition aggregate.state path failed)
    (request : ReactivateRequest J) (named : request.id = id) (newObject : J) :
    ∃ after root, (path ++ [failed]).head? = some root ∧ Walk definition after.state path failed ∧
      after.state.status = some .ACTIVE ∧ after.state.states = aggregate.state.states ∧
      ∀ fuel, reactivateExecutions worker request newObject fuel stores =
          launchExecutions worker.json request.filters request.processors definition request.envs fuel
            ⟨0, after, some newObject, some root.id⟩ ∧
        ∀ stores', reactivateInstance worker request newObject fuel stores = some (stores', .ok ()) →
          ∃ last, internalLaunch worker.json request.filters request.processors definition request.envs fuel
            ⟨0, after, some newObject, some root.id⟩ = some (last, .ok ()) := by
  obtain ⟨after, reactivates, state⟩ : ∃ after,
      StateMachineInstanceAggregate.reactivate worker.json.toJTokens aggregate request.env = (after, .ok ()) ∧ _ :=
    reactivate_of_failed status request.env
  have walk' : Walk definition after.state path failed := by
    rw [state]
    exact walk.of_states rfl
  obtain ⟨root, head, found⟩ := walk'.root
  refine ⟨after, root, head, walk', by rw [state]; rfl, by rw [state]; rfl, fun fuel => ?_⟩
  have definitionRead : worker.deserializeYaml (after.state.workflowDef.bind (·.serializedDefinition)) = some definition := by
    rw [state]
    exact readBack
  have prepared : loadAndReactivate worker request stores = .ok (after, definition) := by
    unfold loadAndReactivate
    simp only [named, loaded, reactivates, definitionRead]
  unfold reactivateExecutions reactivateInstance launchRoot launch
  simp only [prepared, found, true_and]
  intro stores' returns
  split at returns
  · cases returns
  · cases returns
  next last launched => exact ⟨last, launched⟩

/-- With outputs that can be read, the launch comes to the state that failed. -/
theorem resumes_of_readable {id : String}
    (loaded : CommitAggregateHelper.get (instanceClass worker.json.toJTokens) id stores.instances = .ok aggregate)
    (readBack : worker.deserializeYaml (aggregate.state.workflowDef.bind (·.serializedDefinition)) = some definition)
    (status : aggregate.state.status = some .FAILED) (walk : Walk definition aggregate.state path failed)
    (error : failed.status = .ERROR) (readable : ∀ s ∈ path, (worker.json.getOutput s).isSome) :
    ResumesAtFailure worker definition id newObject stores aggregate.state := by
  refine ⟨readBack, failed, walk.present, error, path.length, fun request named conforming => ?_⟩
  obtain ⟨after, root, head, walk', active, sameStates, launches⟩ :=
    reactivateExecutions_eq loaded readBack status walk request named newObject
  have begins : ∀ s ∈ (path ++ [failed]).head?, some root.id = some s.id := fun s first => by
    rw [Option.some.inj (head.symm.trans first)]
  obtain ⟨input, before, comes⟩ := @executions_along _ worker.json request.filters request.processors definition path failed
    ⟨0, after, some newObject, some root.id⟩ request.envs walk' active path walk'.isPath.1 (fun s member => member) begins
    readable
  refine ⟨fun fuel short => by rw [(launches fuel).1, before fuel short], fun fuel long => ?_⟩
  obtain ⟨more, rfl⟩ : ∃ more, fuel = path.length + (more + 1) := ⟨fuel - path.length - 1, by omega⟩
  obtain ⟨same, returned⟩ := launches (path.length + (more + 1))
  obtain ⟨executes, ends⟩ := comes (more + 1)
  rw [same, executes, Nat.zero_add]
  rw [Nat.zero_add] at ends
  let here : LaunchConfig J := ⟨path.length, after, input, some failed.id⟩
  obtain ⟨executed, answers⟩ : ExecutedFrom definition here.aggregate.state failed (launchExecutions worker.json request.filters
      request.processors definition request.envs (more + 1) here) ∧ _ :=
    executions_from conforming walk' active rfl (more + 1)
  obtain ⟨call, first, now, given⟩ : ∃ call ∈ (launchExecutions worker.json request.filters request.processors definition
      request.envs (more + 1) here).head?, ∃ now, call.state = failed.activate now :=
    executions_of_failed walk' active rfl error more
  obtain ⟨-, -, known, defId⟩ := executed.first call first
  refine ⟨⟨⟨call, first, ⟨now, given⟩, by rw [given]; rfl, known, defId⟩, fun later member => ?_, executed.once,
    executed.follows, answers⟩, fun stores' reactivated => ?_⟩
  · obtain ⟨s, present, there, -, created⟩ := executed.later later member
    exact ⟨s, sameStates ▸ present, there, created⟩
  · obtain ⟨last, launched⟩ := returned stores' reactivated
    have returns : internalLaunch worker.json request.filters request.processors definition request.envs (more + 1) here =
        some (last, .ok ()) := ends.symm.trans launched
    exact (executions_continue conforming walk' active rfl returns).2

/-- If one of them cannot be read, no processor is called. -/
theorem no_reactivateExecutions {id : String}
    (loaded : CommitAggregateHelper.get (instanceClass worker.json.toJTokens) id stores.instances = .ok aggregate)
    (readBack : worker.deserializeYaml (aggregate.state.workflowDef.bind (·.serializedDefinition)) = some definition)
    (status : aggregate.state.status = some .FAILED) (walk : Walk definition aggregate.state path failed)
    (request : ReactivateRequest J) (named : request.id = id) (newObject : J)
    (unreadable : ∃ s ∈ path, worker.json.getOutput s = none) (fuel : Nat) :
    reactivateExecutions worker request newObject fuel stores = [] := by
  obtain ⟨after, root, head, walk', active, -, launches⟩ :=
    reactivateExecutions_eq loaded readBack status walk request named newObject
  have begins : ∀ s ∈ (path ++ [failed]).head?, some root.id = some s.id := fun s first => by
    rw [Option.some.inj (head.symm.trans first)]
  rw [(launches fuel).1]
  exact @no_executions_along _ worker.json request.filters request.processors definition path failed
    ⟨0, after, some newObject, some root.id⟩ request.envs walk' active path walk'.isPath.1 (fun s member => member) begins
    unreadable fuel

/-- **An instance that failed is resumed at its failure exactly when its definition is read back and the outputs of its complete
states can be read.** An instance that has not failed is not reactivated, and nothing is stored. -/
theorem resumesAtFailure_iff (worker : Worker J) (definition : StateMachineDefinition) (env : InstanceEnv)
    (workflowDef : WorkflowDef) {envs : StateMachineDefinitionState → InstanceEnv}
    (fresh : ∀ d ∈ definition.states, ∀ e ∈ definition.states, (envs d).secondGuid = (envs e).secondGuid → d = e)
    {after : StateMachineInstanceAggregate}
    (operated : Relation.ReflTransGen (Operated worker.json definition)
      (instanciate worker.json definition env workflowDef envs) after)
    (newObject : J) {id : String} {stores : WorkerStores} {aggregate : StateMachineInstanceAggregate}
    (loaded : CommitAggregateHelper.get (instanceClass worker.json.toJTokens) id stores.instances = .ok aggregate)
    (same : aggregate.state = after.state) :
    (after.state.status = some .FAILED →
      (ResumesAtFailure worker definition id newObject stores after.state ↔
        worker.deserializeYaml (after.state.workflowDef.bind (·.serializedDefinition)) = some definition ∧
        ∀ s ∈ after.state.states, s.status = .COMPLETE → ReadableOutput worker.json s)) ∧
      (after.state.status ≠ some .FAILED → ∀ (request : ReactivateRequest J) (fuel : Nat), request.id = id →
        ∃ message,
          StateMachineInstanceAggregate.reactivate worker.json.toJTokens aggregate request.env =
            (aggregate, .error (.businessException message)) ∧
          reactivateInstance worker request newObject fuel stores =
            some (stores, .error (.instance (.businessException message)))) := by
  have settled : Settled definition after.state := settled_of_operated worker.json definition env workflowDef fresh operated
  rw [← same] at settled ⊢
  refine ⟨fun status => ?_, fun sound request fuel named => ?_⟩
  · cases settled with
    | ended nodup isPath complete wentOn lastEnded others ends =>
      rw [status] at ends
      cases ends
    | @stopped path stop walk incomplete stops =>
      have error : stop.status = .ERROR := by
        by_contra sound
        simp [status, sound] at stops
      refine ⟨fun resumes => ⟨resumes.1, fun s member complete => ?_⟩, fun ⟨readBack, readable⟩ => ?_⟩
      · rw [← getOutput_isSome_iff]
        by_contra unread
        have unreadable : ∃ s ∈ path, worker.json.getOutput s = none :=
          ⟨s, (walk.complete s).mpr ⟨member, complete⟩, by simpa using unread⟩
        -- whatever the processors do, they are not called
        let request : ReactivateRequest J :=
          ⟨id, env, fun input _ => some input, fun _ _ _ aggregate => (aggregate, .block), fun _ => ⟨env, env, env, env⟩⟩
        have conforming : Conforming worker.json.toJTokens request.processors :=
          ⟨fun _ _ _ _ => ⟨[], by simp, rfl⟩, fun _ _ _ _ _ _ => nofun, fun _ _ _ _ _ => nofun⟩
        obtain ⟨readBack, failed, -, -, visits, resumed⟩ := resumes
        obtain ⟨call, first, -⟩ := ((resumed request rfl conforming).2 (visits + 1) (Nat.lt_succ_self _)).1.first
        rw [no_reactivateExecutions loaded readBack status walk request rfl newObject unreadable] at first
        cases first
      · refine resumes_of_readable loaded readBack status walk error fun s member => ?_
        obtain ⟨there, complete⟩ := (walk.complete s).mp member
        exact getOutput_isSome_iff.mpr (readable s there complete)
  · obtain ⟨message, fails⟩ := @reactivate_of_not_failed _ aggregate worker.json.toJTokens sound request.env
    refine ⟨message, fails, ?_⟩
    unfold reactivateInstance loadAndReactivate
    simp only [named, loaded, fails]

end

/-! ## An instance that fails in its second state -/

/-- Processors that answer with a token, and fail where the state ends. -/
def stumbling (v : PlainToken) : Processors PlainToken := fun _ d _ aggregate =>
  (aggregate, match d.flows.head? with
    | none => .block
    | some flow => if flow.isEnd then .error none else .next (some v) flow.transition)

/-- The processors that stumble conform. -/
theorem conforming_stumbling (v : PlainToken) : Conforming plainTokens.toJTokens (stumbling v) := by
  refine ⟨fun n d s aggregate => ⟨[], by simp, rfl⟩, fun n d s aggregate output transition answer => ?_,
    fun n d s aggregate output answer => ?_⟩
  · simp only [stumbling] at answer
    split at answer
    · cases answer
    next flow first =>
      split at answer
      · cases answer
      next goes =>
        cases answer
        exact List.mem_map.mpr ⟨flow, List.mem_filter.mpr ⟨List.mem_of_head? first, by simpa using goes⟩, rfl⟩
  · simp only [stumbling] at answer
    split at answer
    · cases answer
    · split at answer <;> cases answer

/-- A worker with these tokens. -/
def plainWorker : Worker PlainToken where
  json := plainTokens.toRuntimeJson
  deserializeYaml := fun _ => some twoInjects
  snapshotFrequency := 1
  utcNow := id

/-- Two inject states, of which the first one answers with the token. -/
def stumblingRequest (v : PlainToken) : LaunchRequest PlainToken where
  definition := twoInjects
  workflowDef := noDefinition
  env := ⟨"", "instance", 0⟩
  stateEnvs := fun d => ⟨"", d.id, 0⟩
  input := some .emptyObject
  filters := noFilters
  processors := stumbling v
  envs := fun _ => ⟨⟨"", "", 0⟩, ⟨"", "", 0⟩, ⟨"", "", 0⟩, ⟨"", "", 0⟩⟩
  fuel := 3

/-- The instance after that, and the stores it was committed to. -/
def stumbledInstance (v : PlainToken) : StateMachineInstanceAggregate :=
  ((launchRoot plainWorker.json noFilters (stumbling v) twoInjects (stumblingRequest v).envs 3
    (instanciate plainWorker.json twoInjects ⟨"", "instance", 0⟩ noDefinition fun d => ⟨"", d.id, 0⟩)
    (some .emptyObject)).map Prod.fst).getD { state := {} }

def stumbledStores (v : PlainToken) : WorkerStores :=
  (instanciateAndLaunch plainWorker (stumblingRequest v) {}).getD {}

/-- A new instance, with the ids of the states for GUIDs. -/
def newInjects : StateMachineInstanceAggregate :=
  instanciate plainWorker.json twoInjects ⟨"", "instance", 0⟩ noDefinition fun d => ⟨"", d.id, 0⟩

/-- The instance that stumbled has been led there by launches. -/
theorem stumbled_operated (v : PlainToken) (returns : launchRoot plainWorker.json noFilters (stumbling v) twoInjects
      (stumblingRequest v).envs 3 newInjects (some .emptyObject) = some (stumbledInstance v, .ok ())) :
    Relation.ReflTransGen (Operated plainWorker.json twoInjects) newInjects (stumbledInstance v) :=
  .single (.launch noFilters (conforming_stumbling v) returns)

/-- The empty object is read again, and the second state is resumed. -/
theorem resumesAtFailure_emptyObject : ResumesAtFailure plainWorker twoInjects "instance" .emptyObject
    (stumbledStores .emptyObject) (stumbledInstance .emptyObject).state := by
  have fresh : ∀ d ∈ twoInjects.states, ∀ e ∈ twoInjects.states, d.id = e.id → d = e :=
    fun d known e known' same => List.inj_on_of_nodup_map twoInjects.distinct known known' same
  obtain ⟨aggregate, loaded, same⟩ : ∃ aggregate, CommitAggregateHelper.get (instanceClass plainWorker.json.toJTokens)
      "instance" (stumbledStores .emptyObject).instances = .ok aggregate ∧
      aggregate.state = (stumbledInstance .emptyObject).state := ⟨_, rfl, rfl⟩
  have readable : ∀ s ∈ (stumbledInstance .emptyObject).state.states, s.status = .COMPLETE →
      ReadableOutput plainWorker.json s := by decide
  exact ((resumesAtFailure_iff plainWorker twoInjects _ noDefinition fresh (stumbled_operated .emptyObject rfl)
    .emptyObject loaded same).1 rfl).mpr ⟨rfl, readable⟩

/-- The empty array is not, and `Reactivate` throws before it comes to the second state. -/
theorem not_resumesAtFailure_emptyArray :
    Relation.ReflTransGen (Operated plainWorker.json twoInjects) newInjects (stumbledInstance .emptyArray) ∧
      (stumbledInstance .emptyArray).state.status = some .FAILED ∧
      ¬ ResumesAtFailure plainWorker twoInjects "instance" .emptyObject (stumbledStores .emptyArray)
        (stumbledInstance .emptyArray).state := by
  refine ⟨stumbled_operated .emptyArray rfl, rfl, fun ⟨_, failed, _, _, visits, resumed⟩ => ?_⟩
  let request : ReactivateRequest PlainToken :=
    ⟨"instance", ⟨"", "", 0⟩, noFilters, stumbling .emptyArray, (stumblingRequest .emptyArray).envs⟩
  obtain ⟨call, first, -⟩ := ((resumed request rfl (conforming_stumbling .emptyArray)).2 (visits + 1) (by omega)).1.first
  have nothing : reactivateExecutions plainWorker request .emptyObject (visits + 1) (stumbledStores .emptyArray) = [] := rfl
  rw [nothing] at first
  cases first

end FaasNet.StateMachine
