import FaasNet.StateMachine.EventConsumption

/-!
# What becomes of a state

`ExecuteState` stores what its processor answers: the state is completed with an output and a transition, it is blocked, or
it fails. The visits of other states leave it as it is, and if it is complete, so do its own.
-/

namespace FaasNet.StateMachine

open FaasNet.Lib FaasNet.Common FaasNet.Domain
open StateMachineInstanceAggregate (Call emit exec)

/-! ## Executing a state -/

/-- The aggregate that a part of a launch leaves, or goes on with. -/
def leftBy {β : Type*} (of : β → StateMachineInstanceAggregate) : LaunchResult ⊕ β → StateMachineInstanceAggregate :=
  Sum.elim (·.1) of

section
variable {J : Type*} (json : JTokens J) (filters : Filters J) (filter : Option String)

/-- The text that is stored of an output, if the state can be completed with it. -/
def storedOutput (output : Option J) : Option String :=
  (filters.transform output filter).bind fun output =>
    (json.get? (output.map json.toText)).map fun output => (output.map json.toText).getD ""

/-- What becomes of the state when the processor answers with an output. -/
def Completes (s s' : StateMachineInstanceState) (output : Option J) (transition : Option String) : Prop :=
  match storedOutput json filters filter output with
  | some text => s'.status = .COMPLETE ∧ s'.outputStr = some text ∧ s'.nextTransition = transition
  | none => s'.status = s.status

/-- What becomes of the state by the answer. -/
def Outcome (s s' : StateMachineInstanceState) : StateProcessorResult J → Prop
  | .block => s'.status = .PENDING
  | .error _ => s'.status = .ERROR
  | .next output transition => Completes json filters filter s s' output transition
  | .end output => Completes json filters filter s s' output none

/-- The state after an execution. -/
structure ExecutedTo (machine : StateMachineInstance) (s : StateMachineInstanceState) (answer : StateProcessorResult J)
    (after : StateMachineInstance) (s' : StateMachineInstanceState) : Prop where
  found : after.getState (some s.id) = some s'
  defId : s'.defId = s.defId
  inputStr : s'.inputStr = s.inputStr
  events_eq : s'.events = s.events
  outcome : Outcome json filters filter s s' answer
  active : answer = .block → after.status = machine.status

end

section
variable {J : Type*} {json : RuntimeJson J} {filters : Filters J} {processors : Processors J} {env : VisitEnv}
  {aggregate between : StateMachineInstanceAggregate} {s : StateMachineInstanceState} {d : StateMachineDefinitionState}

theorem completeState_left {output : Option J} (transition : Option String)
    {next : Option J → StateMachineInstanceAggregate → LaunchResult ⊕ (StateMachineInstanceAggregate × Option J × Option String)}
    {completed : LaunchResult ⊕ (StateMachineInstanceAggregate × Option J × Option String)}
    (completes : completed = match filters.transform output d.stateDataFilterOutput with
      | none => .inl (aggregate, .error .jsonReaderException)
      | some output => andThen (StateMachineInstanceAggregate.completeState json.toJTokens aggregate env.finish
          (some s.id) output transition) (next output))
    (keeps : ∀ output aggregate, (leftBy (·.1) (next output aggregate)).state.states = aggregate.state.states)
    (found : aggregate.state.getState (some s.id) = some s) :
    ∃ s', (leftBy (·.1) completed).state.getState (some s.id) = some s' ∧ s'.defId = s.defId ∧ s'.inputStr = s.inputStr ∧
      s'.events = s.events ∧ Completes json.toJTokens filters d.stateDataFilterOutput s s' output transition ∧
      (s'.status = .COMPLETE ∨ completed.isLeft) := by
  subst completes
  unfold Completes storedOutput
  cases filters.transform output d.stateDataFilterOutput with
  | none => exact ⟨s, found, rfl, rfl, rfl, rfl, .inr rfl⟩
  | some output =>
    rw [Option.bind_some]
    cases read : json.get? (output.map json.toText) with
    | none =>
      have throws : StateMachineInstanceAggregate.completeState json.toJTokens aggregate env.finish (some s.id) output
          transition = ({ aggregate with state := aggregate.state }, .error .jsonReaderException) := by
        simp only [StateMachineInstanceAggregate.completeState, emit, StateMachineInstance.handle, read]
      dsimp only
      rw [throws]
      exact ⟨s, found, rfl, rfl, rfl, rfl, .inr rfl⟩
    | some output' =>
      obtain ⟨after, completes, turned, -⟩ : ∃ after, StateMachineInstanceAggregate.completeState json.toJTokens
          aggregate env.finish (some s.id) output transition = (after, .ok ()) ∧ _ :=
        emit_turned env.finish (·.complete (output'.map json.toText) transition env.finish.utcNow) found
          (by simp only [StateMachineInstance.handle, read]) (fun _ => rfl) (fun _ => rfl)
      refine ⟨s.complete (output'.map json.toText) transition env.finish.utcNow, ?_, rfl, rfl, rfl, ⟨rfl, rfl, rfl⟩, .inl rfl⟩
      dsimp only
      rw [completes]
      have same := keeps output after
      rw [andThen, StateMachineInstance.getState, same]
      exact turned.found

/-- What the engine does with the answer of a processor. -/
theorem executeState_outcome {visited : Nat} {stateInstance : StateMachineInstanceState} {answer : StateProcessorResult J}
    (same : stateInstance.id = s.id) (answers : processors visited d stateInstance aggregate = (between, answer))
    (found : between.state.getState (some s.id) = some s) :
    ∃ s', ExecutedTo json.toJTokens filters d.stateDataFilterOutput between.state s answer
        (leftBy (·.1) (executeState json filters processors env visited d stateInstance aggregate)).state s' ∧
      (s'.status = .COMPLETE ∨ (executeState json filters processors env visited d stateInstance aggregate).isLeft) := by
  unfold executeState
  rw [answers, same]
  cases answer with
  | block =>
    obtain ⟨last, blocks, turned, status⟩ : ∃ last, StateMachineInstanceAggregate.blockState json.toJTokens between
        env.finish (some s.id) = (last, .ok ()) ∧ _ :=
      emit_turned env.finish (fun state => if state.status = .PENDING then state else state.block env.finish.utcNow) found rfl
        (fun s => by split <;> rfl) (fun s => by split <;> rfl)
    dsimp only
    rw [blocks]
    refine ⟨_, ⟨turned.found, ?_, ?_, ?_, ?_, fun _ => status⟩, .inr rfl⟩
    · split <;> rfl
    · split <;> rfl
    · split <;> rfl
    · unfold Outcome
      dsimp only
      split
      next pending => exact pending
      next => rfl
  | error exception =>
    refine ⟨s.error exception env.finish.utcNow, ⟨?_, rfl, rfl, rfl, rfl, fun blocked => by cases blocked⟩, .inr rfl⟩
    have failing : (between.state.updateState env.finish.utcNow .FAILED).getState (some s.id) = some s := found
    simp only [leftBy, Sum.elim_inl, StateMachineInstanceAggregate.errorState, emit_state, StateMachineInstance.handle,
      StateMachineInstance.onState, failing]
    rw [getState_modifyState, failing, Option.map_some]
    intro s
    rfl
  | next output transition =>
    obtain ⟨s', there, defId, inputStr, same, completes, ends⟩ := @completeState_left _ json filters env between s d output
      transition (fun output aggregate => .inr (aggregate, output, transition)) _ rfl (fun _ _ => rfl) found
    exact ⟨s', ⟨there, defId, inputStr, same, completes, fun blocked => by cases blocked⟩, ends⟩
  | «end» output =>
    obtain ⟨s', there, defId, inputStr, same, completes, ends⟩ := @completeState_left _ json filters env between s d output
      none (fun output aggregate => .inl (StateMachineInstanceAggregate.terminate json.toJTokens aggregate env.terminate output))
      _ rfl
      (fun output aggregate => by
        rw [leftBy, Sum.elim_inl, StateMachineInstanceAggregate.terminate, emit_state]
        simp only [StateMachineInstance.handle]
        split <;> rfl) found
    exact ⟨s', ⟨there, defId, inputStr, same, completes, fun blocked => by cases blocked⟩, ends⟩

end

/-! ## The visits of other states -/

section
variable {J : Type} {json : RuntimeJson J} {filters : Filters J} {processors : Processors J}
  {definition : StateMachineDefinition} {id stateId : String} {s : StateMachineInstanceState}

theorem onState_other {machine : StateMachineInstance} (apart : id ≠ stateId)
    {change : StateMachineInstanceState → StateMachineInstanceState} (keepsId : ∀ s, (change s).id = s.id) :
    (machine.onState (some stateId) change).1.getState (some id) = machine.getState (some id) := by
  unfold StateMachineInstance.onState
  split
  · rfl
  · exact getState_modifyState_other apart keepsId

/-- The events of the engine in the visit of one state leave another one as it is. -/
theorem emit_other {json : JTokens J} {aggregate : StateMachineInstanceAggregate} {env : InstanceEnv} (apart : id ≠ stateId)
    {payload : InstanceEvent} (ofEngine : payload.OfEngine stateId) :
    (emit json aggregate env payload).1.state.getState (some id) = aggregate.state.getState (some id) := by
  rw [emit_state]
  cases payload with
  | stateStarted stateId' inputStr t =>
    obtain rfl : stateId' = some stateId := ofEngine
    simp only [StateMachineInstance.handle]
    split
    · rfl
    · rfl
    · exact onState_other apart fun _ => rfl
  | stateReactivated stateId' t =>
    obtain rfl : stateId' = some stateId := ofEngine
    exact onState_other apart fun _ => rfl
  | stateBlocked stateId' t =>
    obtain rfl : stateId' = some stateId := ofEngine
    exact onState_other apart fun s => by split <;> rfl
  | stateFailed stateId' exception t =>
    obtain rfl : stateId' = some stateId := ofEngine
    have same : (aggregate.state.updateState t .FAILED).getState (some id) = aggregate.state.getState (some id) := rfl
    rw [← same]
    exact onState_other apart fun _ => rfl
  | stateCompleted stateId' outputStr nextTransition t =>
    obtain rfl : stateId' = some stateId := ofEngine
    simp only [StateMachineInstance.handle]
    split
    · rfl
    · exact onState_other apart fun _ => rfl
  | stateMachineTerminated outputStr t =>
    simp only [StateMachineInstance.handle]
    split <;> rfl
  | _ => exact ofEngine.elim

theorem runCommands_other {json : JTokens J} {aggregate : StateMachineInstanceAggregate} {calls : List (Call J)}
    (own : ∀ call ∈ calls, ProcessorCall stateId call) (apart : id ≠ stateId) :
    (runCommands json aggregate calls).state.getState (some id) = aggregate.state.getState (some id) := by
  cases found : aggregate.state.getState (some stateId) with
  | none => rw [runCommands_unknown own found]
  | some s =>
    have quiet : Quiet stateId aggregate.state (runCommands json aggregate calls).state := runCommands_quiet own
    obtain ⟨new, turned, -⟩ := quiet.2 s found
    exact turned.others id apart

/-- A state that is complete stays as it is. -/
theorem visit_complete (conforming : Conforming json.toJTokens processors) {env : VisitEnv} {config : LaunchConfig J}
    (found : config.aggregate.state.getState (some id) = some s) (complete : s.status = .COMPLETE) :
    Keeping (·.state.getState (some id) = some s) (·.aggregate) (visit json filters processors definition env config) := by
  by_cases own : config.stateInstanceId = some id
  · unfold visit
    split
    · exact found
    rw [own, found]
    dsimp only
    split
    · exact found
    split
    · exact found
    unfold processState
    rw [complete]
    dsimp only
    cases json.getOutput s with
    | none => exact found
    | some output =>
      dsimp only
      unfold nextVisit
      split
      · exact found
      · split <;> exact found
  · have apart {s' : StateMachineInstanceState} (there : config.aggregate.state.getState config.stateInstanceId = some s') :
        id ≠ s'.id := fun same => own (by rw [same, getState_id there])
    refine visit_keeping (fun s' there aggregate env payload ofEngine here => ?_) (fun s' d there _ aggregate here => ?_) found
    · exact (emit_other (apart there) ofEngine).trans here
    · obtain ⟨calls, mine, called⟩ := conforming.calls config.visited d
        ((aggregate.state.getState (some s'.id)).getD s') aggregate
      have same : ((aggregate.state.getState (some s'.id)).getD s').id = s'.id := by
        cases now : aggregate.state.getState (some s'.id) with
        | none => rfl
        | some s'' => exact (Option.some.inj (getState_id now)).symm
      rw [same] at mine
      rw [called]
      exact (runCommands_other mine (apart there)).trans here

end

end FaasNet.StateMachine
