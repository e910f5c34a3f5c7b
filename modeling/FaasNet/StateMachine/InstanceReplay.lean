import FaasNet.StateMachine.Instance

/-!
# Replaying the events of an instance

A command of a `StateMachineInstanceAggregate` handles its event and then keeps it, so the events kept are
those that were handled, as long as a handler that throws leaves the aggregate as it was. Two handlers do
not: `StateFailedEvent` changes the status before it looks for the state, `StateMachineTerminatedEvent` before
it reads the output.
-/

namespace FaasNet.StateMachine

open FaasNet.Lib FaasNet.Domain

namespace StateMachineInstance

section
variable {J : Type*} (json : JTokens J)

/-- What the two handlers that change the status first need: the state exists, the output can be read. -/
def Prepared (machine : StateMachineInstance) : InstanceEvent → Prop
  | .stateFailed stateId _ _ => (machine.getState stateId).isSome
  | .stateMachineTerminated outputStr _ => (json.get? outputStr).isSome
  | _ => True

variable {json} {machine : StateMachineInstance}

/-- A state that is not found changes nothing. -/
theorem onState_error {stateId : Option String} {change : StateMachineInstanceState → StateMachineInstanceState}
    {e : InstanceException} (threw : (machine.onState stateId change).2 = .error e) :
    (machine.onState stateId change).1 = machine := by
  unfold onState at *
  cases found : machine.getState stateId with
  | none => rfl
  | some state => simp [found] at threw

/-- A state that is found is changed. -/
theorem onState_ok {stateId : Option String} (change : StateMachineInstanceState → StateMachineInstanceState)
    (found : (machine.getState stateId).isSome) : (machine.onState stateId change).2 = .ok () := by
  obtain ⟨state, found⟩ := Option.isSome_iff_exists.mp found
  simp [onState, found]

@[simp] theorem getState_updateState (stateId : Option String) (t : DateTime) (status : StateMachineInstanceStatus) :
    (machine.updateState t status).getState stateId = machine.getState stateId := rfl

/-- An update of the status is one history more. -/
@[simp] theorem length_histories_updateState (t : DateTime) (status : StateMachineInstanceStatus) :
    (machine.updateState t status).histories.length = machine.histories.length + 1 := by
  simp [updateState]

/-- A handler that throws has changed nothing, if it was prepared. -/
theorem handle_error {evt : DomainEvent InstanceEvent} (prepared : machine.Prepared json evt.payload)
    {e : InstanceException} (threw : (machine.handle json evt).2 = .error e) :
    (machine.handle json evt).1 = machine := by
  unfold handle at *
  cases payload : evt.payload with
  | stateMachineInstanceCreated workflowDef t => simp [payload] at threw
  | stateInstanceCreated stateInstanceId defId t => simp [payload] at threw
  | stateStarted stateId inputStr t =>
    simp only [payload] at threw ⊢
    split <;> simp_all [onState_error]
  | stateReactivated stateId t =>
    simp only [payload] at threw ⊢
    exact onState_error threw
  | stateBlocked stateId t =>
    simp only [payload] at threw ⊢
    exact onState_error threw
  | stateFailed stateId exception t =>
    simp only [payload, Prepared] at threw prepared
    have known : ((machine.updateState t .FAILED).getState stateId).isSome := prepared
    rw [onState_ok _ known] at threw
    simp at threw
  | stateCompleted stateId outputStr nextTransition t =>
    simp only [payload] at threw ⊢
    split <;> simp_all [onState_error]
  | stateMachineTerminated outputStr t =>
    simp only [payload, Prepared] at threw prepared
    obtain ⟨output, read⟩ := Option.isSome_iff_exists.mp prepared
    simp [read] at threw
  | stateEvtListened stateId evtName evtSource evtType topic =>
    simp only [payload] at threw ⊢
    exact onState_error threw
  | stateEvtConsumed stateId evtSource evtType input =>
    simp only [payload] at threw ⊢
    split <;> simp_all
  | stateProcessed stateId evtName output =>
    simp only [payload] at threw ⊢
    split <;> simp_all
  | stateMachineInstanceReactivated t =>
    simp only [payload] at threw ⊢
    split <;> simp_all

/-- A handler that was not prepared throws, and leaves one history more. -/
theorem handle_of_not_prepared {evt : DomainEvent InstanceEvent} (unprepared : ¬ machine.Prepared json evt.payload) :
    (∃ e, (machine.handle json evt).2 = .error e) ∧
      (machine.handle json evt).1.histories.length = machine.histories.length + 1 := by
  unfold handle
  cases payload : evt.payload with
  | stateFailed stateId exception t =>
    have unknown : machine.getState stateId = none := by simpa [payload, Prepared] using unprepared
    simp [onState, unknown]
  | stateMachineTerminated outputStr t =>
    have unreadable : json.get? outputStr = none := by simpa [payload, Prepared] using unprepared
    simp [unreadable]
  | _ => simp [payload, Prepared] at unprepared

end

end StateMachineInstance

namespace StateMachineInstanceAggregate

section
variable {J : Type*} (json : JTokens J)

/-- Handling the events kept, from a new aggregate, gives the aggregate. -/
def Replays (aggregate : StateMachineInstanceAggregate) : Prop :=
  replay (StateMachineInstance.handle json) {} aggregate.domainEvts = (aggregate.state, .ok ())

/-- A command, and what it reads from outside. -/
abbrev Call (J : Type*) := InstanceEnv × InstanceCommand J

/-- A run goes on after a command that throws. -/
def step (aggregate : StateMachineInstanceAggregate) (call : Call J) : Option StateMachineInstanceAggregate :=
  some (exec json aggregate call.1 call.2).1

/-- If the command throws, the aggregate and its events are as they were. -/
def Atomic (aggregate : StateMachineInstanceAggregate) (call : Call J) : Prop :=
  ∀ e, (exec json aggregate call.1 call.2).2 = .error e → (exec json aggregate call.1 call.2).1 = aggregate

/-- `ErrorState` names a state of the instance, and the text of the output of `Terminate` is blank or can be
read as a token. -/
def Expected (aggregate : StateMachineInstanceAggregate) (call : Call J) : Prop :=
  match call.2 with
  | .errorState stateId _ => (aggregate.state.getState stateId).isSome
  | .terminate output => (json.get? (output.map json.toText)).isSome
  | _ => True

variable {json} {aggregate : StateMachineInstanceAggregate} {env : InstanceEnv}

/-- What a command does when it does not fail halfway: nothing, or it handles one event and keeps it. -/
inductive Effect (json : JTokens J) (aggregate : StateMachineInstanceAggregate) :
    StateMachineInstanceAggregate → Except InstanceException Unit → Prop
  | nothing (outcome : Except InstanceException Unit) : Effect json aggregate aggregate outcome
  | emits {evt : DomainEvent InstanceEvent} {state : StateMachineInstance}
      (handled : aggregate.state.handle json evt = (state, .ok ())) (integrationEvents : List EventListenedEvent) :
      Effect json aggregate
        { aggregate with state, domainEvts := aggregate.domainEvts ++ [evt], integrationEvents } (.ok ())

/-- What replays still does after a command. -/
theorem Effect.replays {after : StateMachineInstanceAggregate} {outcome : Except InstanceException Unit}
    (effect : Effect json aggregate after outcome) (replays : aggregate.Replays json) : after.Replays json := by
  cases effect with
  | nothing => exact replays
  | emits handled => exact replay_concat replays handled

/-- A command that throws changes nothing. -/
theorem Effect.unchanged {after : StateMachineInstanceAggregate} {outcome : Except InstanceException Unit}
    (effect : Effect json aggregate after outcome) {e : InstanceException} (threw : outcome = .error e) :
    after = aggregate := by
  cases effect with
  | nothing => rfl
  | emits => simp at threw

/-- A prepared event is handled and kept, or the command throws and changes nothing. -/
theorem emit_cases {payload : InstanceEvent} (prepared : aggregate.state.Prepared json payload) (env : InstanceEnv) :
    (∃ evt state, aggregate.state.handle json evt = (state, .ok ()) ∧ emit json aggregate env payload =
      ({ aggregate with state, domainEvts := aggregate.domainEvts ++ [evt] }, .ok ())) ∨
    ∃ e, emit json aggregate env payload = (aggregate, .error e) := by
  unfold emit
  dsimp only
  split
  next state handled => exact .inl ⟨_, state, handled, rfl⟩
  next state e failed =>
    have kept : (aggregate.state.handle json ⟨env.newGuid, aggregate.state.id, 0, payload⟩).1 = aggregate.state :=
      StateMachineInstance.handle_error prepared (congrArg Prod.snd failed)
    rw [failed] at kept
    obtain rfl : state = aggregate.state := kept
    exact .inr ⟨e, rfl⟩

/-- A prepared event has an effect. -/
theorem emit_effect {payload : InstanceEvent} (prepared : aggregate.state.Prepared json payload) :
    Effect json aggregate (emit json aggregate env payload).1 (emit json aggregate env payload).2 := by
  rcases emit_cases prepared env with ⟨evt, state, handled, emitted⟩ | ⟨e, failed⟩
  · rw [emitted]
    exact .emits handled _
  · rw [failed]
    exact .nothing _

/-- To listen to an event has an effect. -/
theorem listenEvt_effect (stateInstanceId name source type topic : Option String) :
    Effect json aggregate (listenEvt json aggregate env stateInstanceId name source type topic).1
      (listenEvt json aggregate env stateInstanceId name source type topic).2 := by
  unfold listenEvt
  split
  next => exact .nothing _
  next state found =>
    split
    next => exact .nothing _
    next =>
      split
      next => exact .nothing _
      next =>
        have prepared : aggregate.state.Prepared json (.stateEvtListened stateInstanceId name source type topic) := trivial
        rcases emit_cases prepared env with ⟨evt, state, handled, emitted⟩ | ⟨e, failed⟩
        · simp only [emitted]
          exact .emits handled _
        · simp only [failed]
          exact .nothing _

/-- To try to consume an event has an effect. -/
theorem tryConsumeEvt_effect (stateInstanceId source type data : Option String) :
    Effect json aggregate (tryConsumeEvt json aggregate env stateInstanceId source type data).1
      ((tryConsumeEvt json aggregate env stateInstanceId source type data).2.map fun _ => ()) := by
  unfold tryConsumeEvt
  split
  next => exact .nothing _
  next state found =>
    split
    next => exact .nothing _
    next =>
      split
      next => exact .nothing _
      next evt read =>
        split
        next =>
          have prepared : aggregate.state.Prepared json (.stateEvtConsumed stateInstanceId source type data) := trivial
          rcases emit_cases prepared env with ⟨evt, state, handled, emitted⟩ | ⟨e, failed⟩
          · simp only [emitted]
            exact .emits handled _
          · simp only [failed]
            exact .nothing _
        next => exact .nothing _

/-- An expected command has an effect. -/
theorem exec_effect {call : Call J} (expected : Expected json aggregate call) :
    Effect json aggregate (exec json aggregate call.1 call.2).1 (exec json aggregate call.1 call.2).2 := by
  obtain ⟨env, command⟩ := call
  cases command with
  | errorState stateId exception => exact emit_effect expected
  | terminate output => exact emit_effect expected
  | listenEvt stateInstanceId name source type topic => exact listenEvt_effect ..
  | tryConsumeEvt stateInstanceId source type data => exact tryConsumeEvt_effect ..
  | _ => exact emit_effect trivial

/-- A command whose event is not prepared throws, and changes the instance all the same. -/
theorem emit_of_not_prepared {payload : InstanceEvent} (unprepared : ¬ aggregate.state.Prepared json payload)
    (env : InstanceEnv) :
    ∃ e, (emit json aggregate env payload).2 = .error e ∧ (emit json aggregate env payload).1 ≠ aggregate := by
  let evt : DomainEvent InstanceEvent := ⟨env.newGuid, aggregate.state.id, 0, payload⟩
  obtain ⟨⟨e, threw⟩, longer⟩ : (∃ e, (aggregate.state.handle json evt).2 = .error e) ∧
      (aggregate.state.handle json evt).1.histories.length = aggregate.state.histories.length + 1 :=
    StateMachineInstance.handle_of_not_prepared unprepared
  cases handled : aggregate.state.handle json evt with
  | mk state outcome =>
    rw [handled] at threw longer
    obtain rfl : outcome = .error e := threw
    refine ⟨e, by simp [emit, evt, handled], fun same => ?_⟩
    have unchanged : state = aggregate.state := by simpa [emit, evt, handled] using congrArg (·.state) same
    rw [unchanged] at longer
    exact absurd longer (Nat.succ_ne_self _).symm

/-- A command that throws leaves everything as it was exactly when it is expected. -/
theorem atomic_iff_expected (aggregate : StateMachineInstanceAggregate) (call : Call J) :
    Atomic json aggregate call ↔ Expected json aggregate call := by
  constructor
  · intro atomic
    by_contra unexpected
    obtain ⟨env, command⟩ := call
    cases command with
    | errorState stateId exception =>
      have unprepared : ¬ aggregate.state.Prepared json (.stateFailed stateId exception env.utcNow) := unexpected
      obtain ⟨e, threw, changed⟩ := emit_of_not_prepared unprepared env
      exact changed (atomic e threw)
    | terminate output =>
      have unprepared : ¬ aggregate.state.Prepared json
        (.stateMachineTerminated (output.map json.toText) env.utcNow) := unexpected
      obtain ⟨e, threw, changed⟩ := emit_of_not_prepared unprepared env
      exact changed (atomic e threw)
    | _ => exact unexpected trivial
  · exact fun expected e threw => (exec_effect expected).unchanged threw

/-- A new instance replays. -/
theorem replays_create (env : InstanceEnv) (workflowDef : WorkflowDef) :
    (create json env workflowDef).Replays json := rfl

/-- **When an instance is replayed from its events and its commands are atomic.** -/
theorem replays_and_atomic_iff (env : InstanceEnv) (workflowDef : WorkflowDef) (calls : List (Call J)) :
    Always (step json) (Replays json) (create json env workflowDef) calls ∧
        Along (step json) (Atomic json) (create json env workflowDef) calls ↔
      Along (step json) (Expected json) (create json env workflowDef) calls := by
  rw [along_congr atomic_iff_expected]
  refine ⟨And.right, fun expected => ⟨always_of_along ?_ (replays_create env workflowDef) expected, expected⟩⟩
  rintro aggregate call _ replays expected ⟨⟩
  exact (exec_effect expected).replays replays

end

/-- Tokens of which there is one, the empty object. -/
def emptyObject : JTokens Unit where
  toText _ := "\x7b\x7d"
  parse text := if text = "\x7b\x7d" then some () else none

/-- An instance of a definition without anything in it. -/
def newInstance : StateMachineInstanceAggregate :=
  create emptyObject ⟨"evt", "instance", 1⟩ ⟨none, none, none, none, 0, none, none, none⟩

/-- `ErrorState` for a state that does not exist throws, and the instance is FAILED. -/
theorem error_of_unknown_state_not_atomic :
    ¬ (Always (step emptyObject) (Replays emptyObject) newInstance [(⟨"evt2", "", 2⟩, .errorState (some "unknown") none)] ∧
      Along (step emptyObject) (Atomic emptyObject) newInstance
        [(⟨"evt2", "", 2⟩, .errorState (some "unknown") none)]) := by
  rintro ⟨_, atomic⟩
  have unchanged := atomic.1 .nullReferenceException (by decide)
  exact absurd unchanged (by decide)

end StateMachineInstanceAggregate

end FaasNet.StateMachine
