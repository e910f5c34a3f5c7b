import FaasNet.StateMachine.ListenedEvents
import FaasNet.StateMachine.ProcessorCalls

/-!
# How listened events are consumed

`TryConsumeEvt` asks for the first listened event with a source and a type, and for that alone whether it is new. What
becomes of an event then is up to the processors: over a run of launches, arrivals and reactivations, with the
processors of the code, a listened event is consumed and then processed, and never goes back.
-/

namespace FaasNet.StateMachine

open FaasNet.Lib FaasNet.Common FaasNet.Domain
open StateMachineInstanceAggregate (Call emit exec)

/-! ## `TryConsumeEvt` -/

/-- A listened event with this source and type, which is not consumed yet. -/
def StateMachineInstanceStateEvent.Awaits (source type : Option String) (e : StateMachineInstanceStateEvent) : Prop :=
  e.source = source ∧ e.type = type ∧ e.state = .CREATED

instance (source type : Option String) (e : StateMachineInstanceStateEvent) : Decidable (e.Awaits source type) :=
  inferInstanceAs (Decidable (_ ∧ _))

namespace StateMachineInstanceState

/-- The state is under way. -/
def UnderWay (s : StateMachineInstanceState) : Prop := s.status = .ACTIVE ∨ s.status = .PENDING

instance (s : StateMachineInstanceState) : Decidable s.UnderWay := inferInstanceAs (Decidable (_ ∨ _))

/-- A new event is not behind another one with its source and type that was consumed already. -/
def FirstIsNew (s : StateMachineInstanceState) (source type : Option String) : Prop :=
  (∃ e ∈ s.events, e.Awaits source type) → (s.tryGetEventOf source type).any (·.state = .CREATED)

instance (s : StateMachineInstanceState) (source type : Option String) : Decidable (s.FirstIsNew source type) :=
  inferInstanceAs (Decidable (_ → _))

end StateMachineInstanceState

section
variable {J : Type*} (json : JTokens J)

/-- If the state is under way and an event is new, one such event is consumed, and the rest of the instance is as it was.
Else nothing is done. -/
structure ConsumesExactly (aggregate : StateMachineInstanceAggregate) (env : InstanceEnv) (s : StateMachineInstanceState)
    (stateId source type data : Option String) : Prop where
  accepted : s.UnderWay → (∃ e ∈ s.events, e.Awaits source type) → ∃ (k : Nat) (e : StateMachineInstanceStateEvent)
    (after : StateMachineInstanceAggregate), s.events[k]? = some e ∧ e.Awaits source type ∧
      StateMachineInstanceAggregate.tryConsumeEvt json aggregate env stateId source type data = (after, .ok true) ∧
      after.state = aggregate.state.modifyState stateId (fun s =>
        { s with events := s.events.set k { e with state := .CONSUMED, inputData := data } }) ∧
      after.integrationEvents = aggregate.integrationEvents
  refused : ¬ (s.UnderWay ∧ ∃ e ∈ s.events, e.Awaits source type) →
    StateMachineInstanceAggregate.tryConsumeEvt json aggregate env stateId source type data = (aggregate, .ok false)

variable {json} {aggregate : StateMachineInstanceAggregate} {env : InstanceEnv} {s : StateMachineInstanceState}
  {stateId source type data : Option String} {e : StateMachineInstanceStateEvent}

/-- Two changes that agree on the state do the same. -/
theorem modifyState_congr {machine : StateMachineInstance} {change change' : StateMachineInstanceState → StateMachineInstanceState}
    (found : machine.getState stateId = some s) (same : change s = change' s) :
    machine.modifyState stateId change = machine.modifyState stateId change' := by
  have states := modifyFirst_congr (f := change) (g := change') (p := fun s => some s.id = stateId) (l := machine.states)
    fun other first => by
      obtain rfl : s = other := Option.some.inj (found.symm.trans first)
      exact same
  rw [StateMachineInstance.modifyState, StateMachineInstance.modifyState, states]

/-- What is done when the first event with the source and the type is new. -/
theorem tryConsumeEvt_first (found : aggregate.state.getState stateId = some s) (underWay : s.UnderWay)
    (first : s.tryGetEventOf source type = some e) (created : e.state = .CREATED) :
    StateMachineInstanceAggregate.tryConsumeEvt json aggregate env stateId source type data =
      ({ aggregate with
          state := aggregate.state.modifyState stateId (·.modifyEvent (fun e => e.source = source ∧ e.type = type)
            fun e => { e with state := .CONSUMED, inputData := data })
          domainEvts := aggregate.domainEvts ++ [{ id := env.newGuid, aggregateId := aggregate.state.id
                                                   payload := .stateEvtConsumed stateId source type data }] },
        .ok true) := by
  have started : ¬ (s.status ≠ .ACTIVE ∧ s.status ≠ .PENDING) := fun apart => underWay.elim apart.1 apart.2
  simp [StateMachineInstanceAggregate.tryConsumeEvt, emit, StateMachineInstance.handle, found, started, first, created]

/-- Nothing is done when the first event with the source and the type is not new. -/
theorem tryConsumeEvt_refuses (found : aggregate.state.getState stateId = some s)
    (stale : s.UnderWay → ∀ e, s.tryGetEventOf source type = some e → e.state ≠ .CREATED) :
    StateMachineInstanceAggregate.tryConsumeEvt json aggregate env stateId source type data = (aggregate, .ok false) := by
  simp only [StateMachineInstanceAggregate.tryConsumeEvt, found]
  split
  · rfl
  next under =>
    have underWay : s.UnderWay := by
      unfold StateMachineInstanceState.UnderWay
      tauto
    split
    · rfl
    next e first => rw [if_neg (stale underWay e first)]

theorem matches_of_tryGetEventOf (first : s.tryGetEventOf source type = some e) :
    e ∈ s.events ∧ e.source = source ∧ e.type = type :=
  ⟨List.mem_of_find?_eq_some first, by simpa using List.find?_some first⟩

/-- An event is consumed exactly as long as no new event is behind one that was consumed already. -/
theorem consumesExactly_iff (found : aggregate.state.getState stateId = some s) :
    ConsumesExactly json aggregate env s stateId source type data ↔ (s.UnderWay → s.FirstIsNew source type) := by
  constructor
  · rintro ⟨accepted, -⟩ underWay awaited
    obtain ⟨k, e, after, -, -, consumes, -⟩ := accepted underWay awaited
    by_contra stale
    have refuses : StateMachineInstanceAggregate.tryConsumeEvt json aggregate env stateId source type data =
        (aggregate, .ok false) := by
      refine tryConsumeEvt_refuses found fun _ first there created => stale ?_
      rw [there]
      simpa using created
    rw [refuses] at consumes
    cases (Prod.mk.inj consumes).2
  · intro new
    refine ⟨fun underWay awaited => ?_, fun idle => tryConsumeEvt_refuses found fun underWay first there created => ?_⟩
    · obtain ⟨first, there, created⟩ := (Option.any_eq_true _ _).mp (new underWay awaited)
      have created : first.state = .CREATED := by simpa using created
      obtain ⟨-, same⟩ := matches_of_tryGetEventOf there
      obtain ⟨k, at_k, changed⟩ := modifyFirst_eq_set (f := fun e : StateMachineInstanceStateEvent =>
        { e with state := .CONSUMED, inputData := data }) there
      refine ⟨k, first, _, at_k, ⟨same.1, same.2, created⟩, tryConsumeEvt_first found underWay there created, ?_, rfl⟩
      refine modifyState_congr found ?_
      rw [StateMachineInstanceState.modifyEvent, changed]
    · obtain ⟨member, same⟩ := matches_of_tryGetEventOf there
      exact idle ⟨underWay, first, member, same.1, same.2, created⟩

end

/-! ## The order in which an event goes through its states -/

/-- An event is consumed. -/
def Consumption (s t : StateMachineInstanceStateEventStates) : Prop := s = .CREATED ∧ t = .CONSUMED

/-- An event is processed. -/
def Processing (s t : StateMachineInstanceStateEventStates) : Prop := s = .CONSUMED ∧ t = .PROCESSED

/-- It is the same event, with the data that it was consumed with; its state is the same, or another one if that is
allowed. -/
structure EventProceeds (allowed : StateMachineInstanceStateEventStates → StateMachineInstanceStateEventStates → Prop)
    (e e' : StateMachineInstanceStateEvent) : Prop where
  name : e'.name = e.name
  source : e'.source = e.source
  type : e'.type = e.type
  topic : e'.topic = e.topic
  inputData : e.state = .CREATED ∨ e'.inputData = e.inputData
  state : e'.state = e.state ∨ allowed e.state e'.state

section
variable {allowed : StateMachineInstanceStateEventStates → StateMachineInstanceStateEventStates → Prop}

/-- An event may stay as it is. -/
theorem EventProceeds.refl (e : StateMachineInstanceStateEvent) : EventProceeds allowed e e :=
  ⟨rfl, rfl, rfl, rfl, .inr rfl, .inl rfl⟩

theorem EventProceeds.mono {allowed' : StateMachineInstanceStateEventStates → StateMachineInstanceStateEventStates → Prop}
    {e e' : StateMachineInstanceStateEvent} (proceeds : EventProceeds allowed e e')
    (more : ∀ s t, allowed s t → allowed' s t) : EventProceeds allowed' e e' :=
  ⟨proceeds.name, proceeds.source, proceeds.type, proceeds.topic, proceeds.inputData, proceeds.state.imp_right (more _ _)⟩

/-- An event that was consumed is not new again. -/
theorem EventProceeds.used {e e' : StateMachineInstanceStateEvent} (proceeds : EventProceeds Processing e e')
    (used : e.state ≠ .CREATED) : e'.state ≠ .CREATED := by
  rcases proceeds.state with same | ⟨-, done⟩
  · rwa [same]
  · simp [done]

/-- Processing twice is processing once. -/
theorem EventProceeds.trans {e e' e'' : StateMachineInstanceStateEvent} (first : EventProceeds Processing e e')
    (second : EventProceeds Processing e' e'') : EventProceeds Processing e e'' := by
  refine ⟨second.name.trans first.name, second.source.trans first.source, second.type.trans first.type,
    second.topic.trans first.topic, ?_, ?_⟩
  · by_cases created : e.state = .CREATED
    · exact .inl created
    · exact .inr ((second.inputData.resolve_left (first.used created)).trans (first.inputData.resolve_left created))
  · rcases first.state with same | ⟨before, done⟩
    · rw [← same]
      exact second.state
    rcases second.state with same | ⟨again, -⟩
    · exact .inr ⟨before, same.trans done⟩
    -- an event that is processed is not processed once more
    · rw [done] at again
      cases again

/-- Every event of every state proceeds, at its place among the events of the state. -/
def EventsProceed (allowed : StateMachineInstanceStateEventStates → StateMachineInstanceStateEventStates → Prop)
    (machine after : StateMachineInstance) : Prop :=
  ∀ id s, machine.getState id = some s → ∃ s', after.getState id = some s' ∧
    ∀ (k : Nat) (e : StateMachineInstanceStateEvent), s.events[k]? = some e →
      ∃ e', s'.events[k]? = some e' ∧ EventProceeds allowed e e'

namespace EventsProceed
variable {machine between after : StateMachineInstance}

theorem refl (machine : StateMachineInstance) : EventsProceed allowed machine machine :=
  fun _ s found => ⟨s, found, fun _ e there => ⟨e, there, .refl e⟩⟩

theorem mono {allowed' : StateMachineInstanceStateEventStates → StateMachineInstanceStateEventStates → Prop}
    (proceed : EventsProceed allowed machine after) (more : ∀ s t, allowed s t → allowed' s t) :
    EventsProceed allowed' machine after := by
  intro id s found
  obtain ⟨s', found', each⟩ := proceed id s found
  refine ⟨s', found', fun k e there => ?_⟩
  obtain ⟨e', there', proceeds⟩ := each k e there
  exact ⟨e', there', proceeds.mono more⟩

/-- Events that proceed to their processing, and further. -/
theorem trans (first : EventsProceed Processing machine between) (second : EventsProceed Processing between after) :
    EventsProceed Processing machine after := by
  intro id s found
  obtain ⟨s', found', each⟩ := first id s found
  obtain ⟨s'', found'', each'⟩ := second id s' found'
  refine ⟨s'', found'', fun k e there => ?_⟩
  obtain ⟨e', there', proceeds⟩ := each k e there
  obtain ⟨e'', there'', proceeds'⟩ := each' k e' there'
  exact ⟨e'', there'', proceeds.trans proceeds'⟩

/-- Where the states are the same, so are their events. -/
theorem of_states (same : after.states = machine.states) : EventsProceed allowed machine after := by
  intro id s found
  refine ⟨s, ?_, fun _ e there => ⟨e, there, .refl e⟩⟩
  rw [StateMachineInstance.getState, same]
  exact found

/-- Changing one state lets its events proceed if they do so in that state. -/
theorem modifyState {stateId : Option String} {change : StateMachineInstanceState → StateMachineInstanceState}
    (keepsId : ∀ s, (change s).id = s.id)
    (each : ∀ s, machine.getState stateId = some s → ∀ (k : Nat) (e : StateMachineInstanceStateEvent), s.events[k]? = some e →
      ∃ e', (change s).events[k]? = some e' ∧ EventProceeds allowed e e') :
    EventsProceed allowed machine (machine.modifyState stateId change) := by
  intro id s found
  by_cases here : id = stateId
  · subst here
    refine ⟨change s, ?_, each s found⟩
    rw [getState_modifyState keepsId, found, Option.map_some]
  · refine ⟨s, ?_, fun _ e there => ⟨e, there, .refl e⟩⟩
    rw [← found]
    refine find?_modifyFirst_other (fun s => by rw [keepsId]) (fun s mine other => ?_) _
    exact here ((of_decide_eq_true other).symm.trans (of_decide_eq_true mine))

/-- A change that leaves the events alone. -/
theorem onState {stateId : Option String} {change : StateMachineInstanceState → StateMachineInstanceState}
    (keepsId : ∀ s, (change s).id = s.id) (keepsEvents : ∀ s, (change s).events = s.events) :
    EventsProceed allowed machine (machine.onState stateId change).1 := by
  unfold StateMachineInstance.onState
  split
  · exact .refl _
  · refine .modifyState keepsId fun s _ k e there => ⟨e, ?_, .refl e⟩
    rw [keepsEvents, there]

/-- The first event that is looked for is changed. -/
theorem modifyEvent {stateId : Option String} {s : StateMachineInstanceState} {wanted : StateMachineInstanceStateEvent → Bool}
    {change : StateMachineInstanceStateEvent → StateMachineInstanceStateEvent} {first : StateMachineInstanceStateEvent}
    (found : machine.getState stateId = some s) (there : s.events.find? wanted = some first)
    (proceeds : EventProceeds allowed first (change first)) :
    EventsProceed allowed machine (machine.modifyState stateId (·.modifyEvent wanted change)) := by
  refine .modifyState (fun _ => rfl) fun s' found' k e at_k => ?_
  obtain rfl : s = s' := Option.some.inj (found.symm.trans found')
  obtain ⟨j, at_j, changed⟩ := modifyFirst_eq_set (f := change) there
  have events : (s.modifyEvent wanted change).events = s.events.set j (change first) := changed
  rw [events]
  by_cases here : j = k
  · subst here
    obtain rfl : first = e := Option.some.inj (at_j.symm.trans at_k)
    refine ⟨change first, ?_, proceeds⟩
    rw [List.getElem?_set_self (List.getElem?_eq_some_iff.mp at_j).1]
  · exact ⟨e, by rw [List.getElem?_set_ne here, at_k], .refl e⟩

end EventsProceed

end

/-- The events of a state have different names. -/
def Named (machine : StateMachineInstance) : Prop := ∀ s ∈ machine.states, (s.events.map (·.name)).Nodup

/-- Names stay distinct when the events are kept. -/
theorem Named.kept {machine after : StateMachineInstance} (named : Named machine) (kept : Kept machine after) :
    Named after := by
  intro s member
  have listed : s.names ∈ machine.states.map (·.names) := by
    rw [← kept.names]
    exact List.mem_map_of_mem member
  obtain ⟨old, present, same⟩ := List.mem_map.mp listed
  have events : old.events.map (·.name) = s.events.map (·.name) := congrArg (·.2.2) same
  rw [← events]
  exact named old present

section
variable {J : Type*} {json : JTokens J} {aggregate : StateMachineInstanceAggregate} {env : InstanceEnv}
  {allowed : StateMachineInstanceStateEventStates → StateMachineInstanceStateEventStates → Prop}

/-- The engine itself leaves the events of the states as they are. -/
theorem emit_proceed {stateId : String} {payload : InstanceEvent} (ofEngine : payload.OfEngine stateId) :
    EventsProceed allowed aggregate.state (emit json aggregate env payload).1.state := by
  rw [emit_state]
  unfold StateMachineInstance.handle
  cases payload with
  | stateStarted stateId inputStr t =>
    dsimp only
    split
    · exact .refl _
    · exact .refl _
    · exact .onState (fun _ => rfl) (fun _ => rfl)
  | stateReactivated stateId t => exact .onState (fun _ => rfl) (fun _ => rfl)
  | stateBlocked stateId t =>
    refine .onState (fun s => ?_) (fun s => ?_)
    · split <;> rfl
    · split <;> rfl
  | stateFailed stateId exception t =>
    exact @EventsProceed.onState allowed (aggregate.state.updateState t .FAILED) stateId (·.error exception t) (fun _ => rfl)
      (fun _ => rfl)
  | stateCompleted stateId outputStr nextTransition t =>
    dsimp only
    split
    · exact .refl _
    · exact .onState (fun _ => rfl) (fun _ => rfl)
  | stateMachineTerminated outputStr t =>
    dsimp only
    split <;> exact .of_states rfl
  | _ => exact ofEngine.elim

end

/-! ## What the processors do to the events -/

section
variable {machine between after : StateMachineInstance} {id : String} {s : StateMachineInstanceState}

/-- The state has come to listen to some more events, and nothing else was done. -/
def ListensMore (id : String) (machine after : StateMachineInstance) : Prop :=
  ∃ new : List StateMachineInstanceStateEvent, (∀ e ∈ new, e.state = .CREATED) ∧
    after = machine.modifyState (some id) fun s => { s with events := s.events ++ new }

theorem ListensMore.refl (machine : StateMachineInstance) : ListensMore id machine machine := by
  have same : (fun s : StateMachineInstanceState => { s with events := s.events ++ [] }) = (fun s => s) := by
    funext s
    rw [List.append_nil]
  refine ⟨[], by simp, ?_⟩
  have states : ((machine.states.findIdx? fun s => some s.id = some id).elim machine.states fun k =>
      machine.states.modify k fun s => s) = machine.states := by
    cases machine.states.findIdx? fun s => some s.id = some id with
    | none => rfl
    | some k => exact List.modify_id k machine.states
  rw [same, StateMachineInstance.modifyState, states]

theorem ListensMore.trans (first : ListensMore id machine between) (second : ListensMore id between after) :
    ListensMore id machine after := by
  obtain ⟨new, created, rfl⟩ := first
  obtain ⟨newer, created', rfl⟩ := second
  refine ⟨new ++ newer, fun e member => (List.mem_append.mp member).elim (created e) (created' e), ?_⟩
  have states := @modifyFirst_modifyFirst StateMachineInstanceState (fun s => some s.id = some id)
    (fun s => { s with events := s.events ++ new }) (fun _ => rfl) (fun s => { s with events := s.events ++ newer })
    machine.states
  simp only [StateMachineInstance.modifyState, states, Function.comp_def, List.append_assoc]

/-- The state then, with the events it has come to listen to. -/
theorem ListensMore.getState (more : ListensMore id machine after) (found : machine.getState (some id) = some s) :
    ∃ new, (∀ e ∈ new, e.state = .CREATED) ∧ after.getState (some id) = some { s with events := s.events ++ new } := by
  obtain ⟨new, created, rfl⟩ := more
  refine ⟨new, created, ?_⟩
  rw [getState_modifyState, found, Option.map_some]
  intro s
  rfl

/-- New events at the end let the others be. -/
theorem ListensMore.proceed {allowed : StateMachineInstanceStateEventStates → StateMachineInstanceStateEventStates → Prop}
    (more : ListensMore id machine after) : EventsProceed allowed machine after := by
  obtain ⟨new, created, rfl⟩ := more
  refine .modifyState (fun _ => rfl) fun s _ k e there => ⟨e, ?_, .refl e⟩
  rw [List.getElem?_append_left (List.getElem?_eq_some_iff.mp there).1, there]

end

section
variable {J : Type} {context : ExecutionContext J} {before : StateMachineInstanceAggregate}

open Method

/-- A command, which leaves the same object whether it throws or not. -/
theorem triple_command {P I : StateMachineInstanceAggregate → Prop}
    {method : StateMachineInstanceAggregate → StateMachineInstanceAggregate × Except InstanceException Unit}
    (each : ∀ aggregate, P aggregate → I (method aggregate).1) : Triple P (Handling.command method) (fun _ => I) I := by
  intro aggregate pre
  have post := each aggregate pre
  rw [← command_fst method aggregate] at post
  split
  next left => rwa [left] at post
  next left => rwa [left] at post

/-- Listening adds at most one event, at the end. -/
theorem listenEvt_more {json : JTokens J} {aggregate : StateMachineInstanceAggregate} {env : InstanceEnv} {id : String}
    (name source type topic : Option String) (named : Named aggregate.state) :
    ListensMore id aggregate.state
        (StateMachineInstanceAggregate.listenEvt json aggregate env (some id) name source type topic).1.state ∧
      Named (StateMachineInstanceAggregate.listenEvt json aggregate env (some id) name source type topic).1.state := by
  unfold StateMachineInstanceAggregate.listenEvt
  split
  · exact ⟨.refl _, named⟩
  next s found =>
    split
    · exact ⟨.refl _, named⟩
    split
    · exact ⟨.refl _, named⟩
    next absent =>
      simp only [emit, StateMachineInstance.handle, StateMachineInstance.onState, found]
      refine ⟨⟨[{ name, source, type, topic }], by simp, rfl⟩, fun s' member => ?_⟩
      rcases StateMachineInstance.mem_modifyState member with there | ⟨old, found', rfl⟩
      · exact named s' there
      · obtain rfl : s = old := Option.some.inj (found.symm.trans found')
        have new : name ∉ s.events.map (·.name) := by
          have nowhere := List.find?_eq_none.mp absent
          simpa using nowhere
        rw [StateMachineInstanceState.addEvent, List.map_append, List.nodup_append]
        refine ⟨named s (List.mem_of_find?_eq_some found), by simp, ?_⟩
        rintro listed present listed' single rfl
        obtain rfl : listed = name := by simpa using single
        exact new present

/-- By listening to more events, and keeping their names different. -/
def Attentive (id : String) (before after : StateMachineInstanceAggregate) : Prop :=
  ListensMore id before.state after.state ∧ Named after.state

/-- Listening to an event keeps the others. -/
theorem triple_listenEvt (env : InstanceEnv) (evt : StateMachineDefinitionEvent) :
    Triple (Attentive context.stateInstance.id before) (context.listenEvt env evt)
      (fun _ => Attentive context.stateInstance.id before) (Attentive context.stateInstance.id before) := by
  refine Triple.bind (Q := fun _ => Attentive context.stateInstance.id before)
    (triple_of (fun _ _ _ holds => holds) fun _ holds => holds) fun topic => triple_command ?_
  rintro aggregate ⟨more, named⟩
  obtain ⟨still, named'⟩ := @listenEvt_more _ context.services.toJTokens aggregate env context.stateInstance.id evt.name
    evt.source evt.type topic named
  exact ⟨more.trans still, named'⟩

/-- So does listening to all events of a group. -/
theorem triple_listenEvents (group : Nat) (onEvent : StateMachineDefinitionOnEvent) :
    Triple (Attentive context.stateInstance.id before) (EventStateProcessor.listenEvents context group onEvent)
      (fun _ => Attentive context.stateInstance.id before) (Attentive context.stateInstance.id before) := by
  refine triple_forEach fun (ref, k) _ => ?_
  dsimp only
  split
  · exact triple_throw _ fun _ holds => holds
  · split
    · exact triple_listenEvt _ _
    · exact triple_pure fun _ holds => holds

/-- The state that is read then is the one of before, with more events. -/
theorem triple_current {s : StateMachineInstanceState} {E : StateMachineInstanceAggregate → Prop}
    (found : before.state.getState (some context.stateInstance.id) = some s) :
    Triple (Attentive context.stateInstance.id before) context.current
      (fun state aggregate => Attentive context.stateInstance.id before aggregate ∧
        aggregate.state.getState (some context.stateInstance.id) = some state ∧
        ∃ new, (∀ e ∈ new, e.state = .CREATED) ∧ state = { s with events := s.events ++ new }) E := by
  intro aggregate holds
  obtain ⟨new, created, now⟩ := holds.1.getState found
  have same : (aggregate.state.getState (some context.stateInstance.id)).getD context.stateInstance =
      { s with events := s.events ++ new } := by rw [now, Option.getD_some]
  exact ⟨holds, by rw [same, now], new, created, same⟩

/-- New events are not among those that are consumed. -/
theorem getConsumedEvts_append {s : StateMachineInstanceState} {new : List StateMachineInstanceStateEvent}
    (created : ∀ e ∈ new, e.state = .CREATED) (names : List (Option String)) :
    StateMachineInstanceState.getConsumedEvts { s with events := s.events ++ new } names = s.getConsumedEvts names := by
  have nothing : (new.filter fun e => e.state = .CONSUMED ∧ e.name ∈ names) = [] :=
    List.filter_eq_nil_iff.mpr fun e member => by simp [created e member]
  rw [StateMachineInstanceState.getConsumedEvts, List.filter_append, nothing, List.append_nil]
  rfl

/-- The result is that of an event which was consumed. -/
def OfConsumed (s : StateMachineInstanceState) (result : Option String × Option J) : Prop :=
  ∃ e ∈ s.events, e.name = result.1 ∧ e.state = .CONSUMED

/-- Results belong to consumed events. -/
theorem ofConsumed_of_processOnEvent {group : Nat} {s : StateMachineInstanceState}
    {onEvent : StateMachineDefinitionOnEvent} {results : List (Option String × Option J)}
    (processed : EventStateProcessor.processOnEvent context group s onEvent = .ok results) :
    ∀ result ∈ results, OfConsumed s result := by
  intro result member
  obtain ⟨⟨e, k⟩, listed, one⟩ := exists_of_mem_mapM_eq_ok processed member
  have consumed := List.mem_filter.mp (List.fst_mem_of_mem_zipIdx listed)
  have state := of_decide_eq_true consumed.2
  refine ⟨e, consumed.1, ?_, state.1⟩
  unfold EventStateProcessor.processOne at one
  split at one
  · cases one
  · obtain ⟨input, -, rest⟩ := except_bind_eq_ok one
    obtain ⟨content, -, last⟩ := except_bind_eq_ok rest
    rw [← Except.ok.inj last]

variable {s : StateMachineInstanceState}

/-- A group listens, and answers with the results for its consumed events. -/
theorem triple_consumeGroup (found : before.state.getState (some context.stateInstance.id) = some s)
    (eventState : StateMachineDefinitionEventState) (onEvent : StateMachineDefinitionOnEvent × Nat) :
    Triple (Attentive context.stateInstance.id before) (EventStateProcessor.consumeGroup context eventState onEvent)
      (fun results aggregate => Attentive context.stateInstance.id before aggregate ∧ ∀ result ∈ results, OfConsumed s result)
      (Attentive context.stateInstance.id before) := by
  refine (triple_listenEvents _ _).bind fun _ => (triple_current found).bind fun state => ?_
  split
  · refine triple_of (fun results aggregate processed ⟨holds, _, new, created, same⟩ => ⟨holds, fun result member => ?_⟩)
      fun aggregate holds => holds.1
    subst same
    obtain ⟨e, inside, name, consumed⟩ := ofConsumed_of_processOnEvent processed result member
    refine ⟨e, (List.mem_append.mp inside).resolve_right fun late => ?_, name, consumed⟩
    rw [created e late] at consumed
    cases consumed
  · exact triple_pure fun aggregate holds => ⟨holds.1, by simp⟩

/-- Events proceed by being processed, and have different names. -/
def Attended (before after : StateMachineInstanceAggregate) : Prop :=
  EventsProceed Processing before.state after.state ∧ Named after.state

theorem Attentive.attended {id : String} {after : StateMachineInstanceAggregate} (attentive : Attentive id before after) :
    Attended before after := ⟨attentive.1.proceed, attentive.2⟩

/-- An event is found by its name, if names are distinct. -/
theorem tryGetEvent_of_mem (distinct : (s.events.map (·.name)).Nodup) {e : StateMachineInstanceStateEvent}
    (member : e ∈ s.events) : s.tryGetEvent e.name = some e := by
  obtain ⟨first, found⟩ : ∃ first, s.tryGetEvent e.name = some first :=
    Option.isSome_iff_exists.mp (List.find?_isSome.mpr ⟨e, member, by simp⟩)
  have same : first.name = e.name := by simpa using List.find?_some found
  rw [found, List.inj_on_of_nodup_map distinct (List.mem_of_find?_eq_some found) member same]

/-- An event that is processed after it was consumed. -/
theorem processEvent_attended {json : JTokens J} {env : InstanceEnv} {aggregate : StateMachineInstanceAggregate}
    {stateId output : Option String} (named : Named aggregate.state) (found : aggregate.state.getState stateId = some s)
    {e : StateMachineInstanceStateEvent} (member : e ∈ s.events) (used : e.state ≠ .CREATED) :
    Attended aggregate (StateMachineInstanceAggregate.processEvent json aggregate env stateId e.name output).1 := by
  refine ⟨?_, named.kept (emit_kept trivial)⟩
  have first := tryGetEvent_of_mem (named s (List.mem_of_find?_eq_some found)) member
  rw [StateMachineInstanceAggregate.processEvent, emit_state]
  simp only [StateMachineInstance.handle, found, Option.bind_some, first]
  refine .modifyEvent found first ⟨rfl, rfl, rfl, rfl, .inr rfl, ?_⟩
  cases state : e.state with
  | CREATED => exact absurd state used
  | CONSUMED => exact .inr ⟨rfl, rfl⟩
  | PROCESSED => exact .inl rfl

/-- An event that was consumed is processed. -/
theorem triple_processEvent {env : InstanceEnv} {name : Option String} {output : Option J}
    {P : StateMachineInstanceAggregate → Prop} (attended : ∀ aggregate, P aggregate → Attended before aggregate)
    (used : ∀ aggregate, P aggregate → ∃ s e, aggregate.state.getState (some context.stateInstance.id) = some s ∧
      e ∈ s.events ∧ e.name = name ∧ e.state ≠ .CREATED) :
    Triple P (context.processEvent env name output) (fun _ => Attended before) (Attended before) := by
  unfold ExecutionContext.processEvent
  cases output with
  | none => exact triple_throw _ attended
  | some output =>
    refine triple_command fun aggregate holds => ?_
    obtain ⟨s, e, found, member, rfl, consumed⟩ := used aggregate holds
    obtain ⟨proceed, named⟩ := attended aggregate holds
    obtain ⟨further, named'⟩ := @processEvent_attended _ s context.services.toJTokens env aggregate
      (some context.stateInstance.id) (some (context.services.toText output)) named found e member consumed
    exact ⟨proceed.trans further, named'⟩

/-- An event that was consumed before can be processed. -/
theorem OfConsumed.used (found : before.state.getState (some context.stateInstance.id) = some s)
    {result : Option String × Option J} (consumed : OfConsumed s result) {aggregate : StateMachineInstanceAggregate}
    (attended : Attended before aggregate) :
    ∃ s e, aggregate.state.getState (some context.stateInstance.id) = some s ∧ e ∈ s.events ∧ e.name = result.1 ∧
      e.state ≠ .CREATED := by
  obtain ⟨e, member, name, state⟩ := consumed
  obtain ⟨k, at_k⟩ := List.mem_iff_getElem?.mp member
  obtain ⟨s', found', each⟩ := attended.1 _ s found
  obtain ⟨e', at_k', proceeds⟩ := each k e at_k
  exact ⟨s', e', found', List.mem_of_getElem? at_k', proceeds.name.trans name, proceeds.used (by simp [state])⟩

/-- All events with a result are processed. -/
theorem triple_processEvents (found : before.state.getState (some context.stateInstance.id) = some s)
    {results : List (Option String × Option J)} (consumed : ∀ result ∈ results, OfConsumed s result) :
    Triple (Attended before) (EventStateProcessor.processEvents context results) (fun _ => Attended before)
      (Attended before) := by
  refine triple_forEach fun (result, k) listed => ?_
  have one := consumed result (List.fst_mem_of_mem_zipIdx listed)
  exact triple_processEvent (fun _ holds => holds) fun aggregate holds => one.used found holds

/-- An event state listens, then processes what was consumed. -/
theorem triple_event (found : before.state.getState (some context.stateInstance.id) = some s)
    (eventState : StateMachineDefinitionEventState) :
    Triple (Attentive context.stateInstance.id before) (EventStateProcessor.handle context eventState)
      (fun _ => Attended before) (Attended before) := by
  have consumes : Triple (Attentive context.stateInstance.id before) (EventStateProcessor.consumeEvents context eventState)
      (fun _ => Attended before) (Attended before) := by
    have gathers := triple_mapEach (V := fun results => ∀ result ∈ results, OfConsumed s result)
      fun onEvent (_ : onEvent ∈ eventState.onEvents.zipIdx) => triple_consumeGroup found eventState onEvent
    refine Triple.bind (gathers.weaken (fun _ holds => holds) (fun _ _ holds => holds) fun _ => Attentive.attended)
      fun results aggregate ⟨holds, all⟩ => ?_
    have consumed : ∀ result ∈ results.flatten, OfConsumed s result := fun result member => by
      obtain ⟨group, listed, inside⟩ := List.mem_flatten.mp member
      exact all group listed result inside
    exact triple_processEvents found consumed aggregate holds.attended
  refine consumes.bind fun _ => Triple.bind (Q := fun _ => Attended before) (fun _ holds => holds) fun state => ?_
  refine Triple.bind (Q := fun _ => Attended before) (triple_of (fun _ _ _ holds => holds) fun _ holds => holds) fun output => ?_
  cases output with
  | none => exact triple_pure fun _ holds => holds
  | some output => exact triple_pure fun _ holds => holds

/-- What is computed without touching the aggregate. -/
theorem triple_computed {α : Type} (value : Except ProcessorError α) :
    Triple (Attentive context.stateInstance.id before) (of value : Handling α)
      (fun _ => Attentive context.stateInstance.id before) (Attended before) :=
  triple_of (fun _ _ _ holds => holds) fun _ => Attentive.attended

/-- The conditions of a switch listen to their events. -/
theorem triple_tryCheckEvent (found : before.state.getState (some context.stateInstance.id) = some s)
    (conditions : List (StateMachineDefinitionSwitchEventCondition × Nat)) :
    Triple (Attentive context.stateInstance.id before) (SwitchStateProcessor.tryCheckEvent context conditions)
      (fun found aggregate => Attended before aggregate ∧ ∀ result ∈ found, ∃ state,
        aggregate.state.getState (some context.stateInstance.id) = some state ∧ result.2 ∈ state.events ∧
          result.2.state = .CONSUMED)
      (Attended before) := by
  induction conditions with
  | nil => exact triple_pure fun _ holds => ⟨holds.attended, by simp⟩
  | cons condition conditions ih =>
    unfold SwitchStateProcessor.tryCheckEvent
    split
    · exact triple_throw _ fun _ => Attentive.attended
    · refine Triple.bind ((triple_listenEvt _ _).weaken (fun _ holds => holds) (fun _ _ holds => holds) fun _ =>
        Attentive.attended) fun _ => (triple_current found).bind fun state => ?_
      split
      next e consumed =>
        refine triple_pure fun aggregate holds => ⟨holds.1.attended, ?_⟩
        rintro result ⟨⟩
        have both := List.find?_some consumed
        exact ⟨state, holds.2.1, List.mem_of_find?_eq_some consumed, (of_decide_eq_true both).1⟩
      next => exact ih.weaken (fun _ holds => holds.1) (fun _ _ holds => holds) fun _ holds => holds

/-- A switch listens, then processes the event that decides. -/
theorem triple_switch (found : before.state.getState (some context.stateInstance.id) = some s)
    (switchState : StateMachineDefinitionSwitchState) :
    Triple (Attentive context.stateInstance.id before) (SwitchStateProcessor.handle context switchState)
      (fun _ => Attended before) (Attended before) := by
  unfold SwitchStateProcessor.handle
  split
  · refine (triple_computed _).bind fun conditions => (triple_current found).bind fun state => ?_
    refine Triple.bind (triple_of (fun _ _ _ holds => holds.1) fun _ holds => holds.1.attended) fun result => ?_
    split
    · exact (triple_computed _).bind fun input => triple_pure fun _ => Attentive.attended
    · exact triple_pure fun _ => Attentive.attended
  · refine (triple_computed _).bind fun conditions => (triple_tryCheckEvent found conditions.zipIdx).bind fun result => ?_
    split
    next condition e =>
      -- what is read in between leaves the aggregate as it is
      let P (aggregate : StateMachineInstanceAggregate) : Prop := Attended before aggregate ∧ ∃ state,
        aggregate.state.getState (some context.stateInstance.id) = some state ∧ e ∈ state.events ∧ e.state = .CONSUMED
      have computes {α : Type} (value : Except ProcessorError α) :
          Triple P (of value : Handling α) (fun _ => P) (Attended before) :=
        triple_of (fun _ _ _ holds => holds) fun _ holds => holds.1
      refine Triple.bind (Q := fun _ => P) (fun _ holds => ⟨holds.1, holds.2 _ rfl⟩) fun state => ?_
      refine (computes _).bind fun input => (computes _).bind fun output => ?_
      refine Triple.bind (triple_processEvent (fun _ holds => holds.1) fun aggregate holds => ?_) fun _ =>
        triple_pure fun _ holds => holds
      obtain ⟨-, state, now, member, consumed⟩ := holds
      exact ⟨state, e, now, member, rfl, by simp [consumed]⟩
    · exact triple_pure fun _ holds => holds.1

/-- A callback listens, then processes its event. -/
theorem triple_callback (callbackState : StateMachineDefinitionCallbackState) :
    Triple (Attentive context.stateInstance.id before) (CallbackEventStateProcessor.handle context callbackState)
      (fun _ => Attended before) (Attended before) := by
  unfold CallbackEventStateProcessor.handle
  split
  · exact triple_throw _ fun _ => Attentive.attended
  · refine Triple.bind ((triple_listenEvt _ _).weaken (fun _ holds => holds) (fun _ _ holds => holds) fun _ =>
      Attentive.attended) fun _ => ?_
    refine Triple.bind (Q := fun _ => Attentive context.stateInstance.id before) (fun _ holds => holds) fun state => ?_
    split
    · exact triple_pure fun _ => Attentive.attended
    · refine (triple_computed _).bind fun input => (triple_computed _).bind fun output => ?_
      split
      · exact triple_throw _ fun _ => Attentive.attended
      · exact (triple_computed _).bind fun result => triple_pure fun _ => Attentive.attended

/-- A processor that is run in a state of the instance. -/
theorem triple_handle (found : before.state.getState (some context.stateInstance.id) = some s) (state : DefinitionState) :
    Triple (Attentive context.stateInstance.id before) (handle context state) (fun _ => Attended before)
      (Attended before) := by
  have read : Triple (Attentive context.stateInstance.id before) context.current
      (fun _ => Attentive context.stateInstance.id before) (Attended before) := fun _ holds => holds
  unfold handle
  split
  · exact triple_event found _
  · exact (triple_computed _).bind fun data => triple_pure fun _ => Attentive.attended
  · exact read.bind fun state => (triple_computed _).bind fun input => (triple_computed _).bind fun result =>
      triple_pure fun _ => Attentive.attended
  · exact triple_switch found _
  · refine read.bind fun state => (triple_computed _).bind fun input => ?_
    split
    · exact triple_pure fun _ => Attentive.attended
    · exact (triple_computed _).bind fun value => (triple_computed _).bind fun result => triple_pure fun _ => Attentive.attended
  · exact triple_callback _
  · exact triple_throw _ fun _ => Attentive.attended

/-- Commands for a state that the instance does not have change nothing. -/
theorem runCommands_unknown {json : JTokens J} {stateId : String} {calls : List (Call J)}
    (own : ∀ call ∈ calls, ProcessorCall stateId call) {aggregate : StateMachineInstanceAggregate}
    (unknown : aggregate.state.getState (some stateId) = none) :
    (runCommands json aggregate calls).state = aggregate.state := by
  induction calls generalizing aggregate with
  | nil => rfl
  | cons call calls ih =>
    have here : (exec json aggregate call.1 call.2).1.state = aggregate.state := by
      have mine := own call List.mem_cons_self
      obtain ⟨env, command⟩ := call
      cases command with
      | listenEvt id name source type topic =>
        obtain rfl : id = some stateId := mine
        simp [exec, StateMachineInstanceAggregate.listenEvt, unknown]
      | processEvent id name output =>
        obtain rfl : id = some stateId := mine
        simp [exec, StateMachineInstanceAggregate.processEvent, emit, StateMachineInstance.handle, unknown]
      | _ => exact mine.elim
    exact (ih (fun other member => own other (List.mem_cons_of_mem _ member)) (by rw [here, unknown])).trans here

/-- **Every processor only listens and processes.** -/
theorem process_attended (state : DefinitionState) {aggregate : StateMachineInstanceAggregate}
    (named : Named aggregate.state) : Attended aggregate (process context state aggregate).1 := by
  cases found : aggregate.state.getState (some context.stateInstance.id) with
  | none =>
    obtain ⟨calls, own, after⟩ := @worked_process _ context state aggregate
    have same : (process context state aggregate).1.state = aggregate.state := by
      rw [after]
      exact runCommands_unknown own found
    exact ⟨.of_states (by rw [same]), by rwa [same]⟩
  | some s =>
    have handled := (triple_handle found state).leaves ⟨.refl _, named⟩
    unfold process
    split
    next left => rwa [left] at handled
    next left => rwa [left] at handled

end

/-! ## Launches and arrivals -/

section
variable {J : Type} {services : RuntimeServices J} {workflowDef : StateMachineDefinitionAggregate}
  {definition : StateMachineDefinition} {aggregate before after : StateMachineInstanceAggregate}

theorem Attended.trans {between : StateMachineInstanceAggregate} (first : Attended before between)
    (second : Attended between after) : Attended before after := ⟨first.1.trans second.1, second.2⟩

/-- What a launch does to the events of the states. -/
theorem launch_attended {filters : Filters J} {handlings : Nat → HandlingEnv} {envs : Nat → VisitEnv} {fuel : Nat}
    {input : Option J} {stateInstanceId : Option String} {result : LaunchResult} (named : Named aggregate.state)
    (returned : launch services.toRuntimeJson filters (stateProcessors services workflowDef handlings) definition envs fuel
      aggregate input stateInstanceId = some result) : Attended aggregate result.1 := by
  have each (config : LaunchConfig J) (here : Attended aggregate config.aggregate) :
      Sum.elim (fun result : LaunchResult => Attended aggregate result.1) (fun next => Attended aggregate next.aggregate)
        (visit services.toRuntimeJson filters (stateProcessors services workflowDef handlings) definition
          (envs config.visited) config) := by
    refine visit_keeping (P := Attended aggregate) (fun s _ between env payload ofEngine attended => ?_)
      (fun s d _ _ between attended => ?_) here
    · exact attended.trans ⟨emit_proceed ofEngine, attended.2.kept (emit_kept ofEngine.plain)⟩
    · unfold stateProcessors
      split
      · exact attended
      · exact attended.trans (process_attended _ attended.2)
  exact launch_rule (P := Attended aggregate) each returned ⟨.refl _, named⟩

variable (services workflowDef definition)

/-- A launch from any state with the processors of the code, an event that arrives, or a reactivation, whether it throws
or not. -/
inductive RuntimeStep (before : StateMachineInstanceAggregate) : StateMachineInstanceAggregate → Prop
  | launch {filters : Filters J} {handlings : Nat → HandlingEnv} {envs : Nat → VisitEnv} {fuel : Nat} {input : Option J}
      {stateInstanceId : Option String} {result : LaunchResult}
      (returned : launch services.toRuntimeJson filters (stateProcessors services workflowDef handlings) definition envs fuel
        before input stateInstanceId = some result) : RuntimeStep before result.1
  | tryConsumeEvt (env : InstanceEnv) (stateInstanceId source type data : Option String) :
      RuntimeStep before
        (StateMachineInstanceAggregate.tryConsumeEvt services.toJTokens before env stateInstanceId source type data).1
  | reactivate (env : InstanceEnv) :
      RuntimeStep before (StateMachineInstanceAggregate.reactivate services.toJTokens before env).1

variable {services workflowDef definition}

/-- An arrival consumes one event at most. -/
theorem tryConsumeEvt_proceed {json : JTokens J} {env : InstanceEnv} {stateInstanceId source type data : Option String}
    (named : Named aggregate.state) :
    EventsProceed Consumption aggregate.state
        (StateMachineInstanceAggregate.tryConsumeEvt json aggregate env stateInstanceId source type data).1.state ∧
      Named (StateMachineInstanceAggregate.tryConsumeEvt json aggregate env stateInstanceId source type data).1.state := by
  cases found : aggregate.state.getState stateInstanceId with
  | none =>
    rw [StateMachineInstanceAggregate.tryConsumeEvt, found]
    exact ⟨.refl _, named⟩
  | some s =>
    by_cases new : s.UnderWay ∧ ∃ e, s.tryGetEventOf source type = some e ∧ e.state = .CREATED
    · obtain ⟨underWay, e, first, created⟩ := new
      rw [tryConsumeEvt_first found underWay first created]
      refine ⟨.modifyEvent found first ⟨rfl, rfl, rfl, rfl, .inl created, .inr ⟨created, rfl⟩⟩, ?_⟩
      refine named.kept (.modifyState _ (fun s => s.names_modifyEvent _ fun _ => rfl) fun s => ?_)
      refine s.waited_modifyEvent _ fun e waits => ?_
      cases waits
    · rw [tryConsumeEvt_refuses found fun underWay e first created => new ⟨underWay, e, first, created⟩]
      exact ⟨.refl _, named⟩

/-- What one step does to the events of the states. -/
theorem RuntimeStep.proceed (step : RuntimeStep services workflowDef definition before after) (named : Named before.state) :
    EventsProceed (fun s t => Consumption s t ∨ Processing s t) before.state after.state ∧ Named after.state := by
  cases step with
  | launch returned =>
    obtain ⟨proceed, named'⟩ := launch_attended named returned
    exact ⟨proceed.mono fun _ _ => .inr, named'⟩
  | tryConsumeEvt env stateInstanceId source type data =>
    obtain ⟨proceed, named'⟩ := @tryConsumeEvt_proceed _ before services.toJTokens env stateInstanceId source type data named
    exact ⟨proceed.mono fun _ _ => .inl, named'⟩
  | reactivate env =>
    have same : (StateMachineInstanceAggregate.reactivate services.toJTokens before env).1.state.states =
        before.state.states := by
      rw [StateMachineInstanceAggregate.reactivate, emit_state]
      simp only [StateMachineInstance.handle]
      split <;> rfl
    exact ⟨.of_states same, fun s member => named s (same ▸ member)⟩

/-- The instances that the runtime comes to from a new one. -/
def RuntimeRun (services : RuntimeServices J) (workflowDef : StateMachineDefinitionAggregate)
    (definition : StateMachineDefinition) (env : InstanceEnv) (made : WorkflowDef)
    (stateEnvs : StateMachineDefinitionState → InstanceEnv) (after : StateMachineInstanceAggregate) : Prop :=
  Relation.ReflTransGen (RuntimeStep services workflowDef definition)
    (instanciate services.toRuntimeJson definition env made stateEnvs) after

/-- In a run the events of a state have distinct names. -/
theorem RuntimeRun.named {env : InstanceEnv} {made : WorkflowDef} {stateEnvs : StateMachineDefinitionState → InstanceEnv}
    (run : RuntimeRun services workflowDef definition env made stateEnvs after) : Named after.state := by
  induction run with
  | refl =>
    intro s member
    rw [(instanciate_state env made stateEnvs).2] at member
    obtain ⟨d, -, rfl⟩ := List.mem_map.mp member
    exact List.nodup_nil
  | tail _ step ih => exact (step.proceed ih).2

/-- **How events are consumed.** `TryConsumeEvt` consumes one new event with the source and the type exactly as long as
the first one listened to is new, if one of them is. Whatever happens in a run, an event is consumed before it is
processed, and does not go back. -/
theorem eventConsumption_iff (services : RuntimeServices J) (workflowDef : StateMachineDefinitionAggregate)
    (definition : StateMachineDefinition) :
    (∀ (aggregate : StateMachineInstanceAggregate) (env : InstanceEnv) (s : StateMachineInstanceState)
      (stateId source type data : Option String), aggregate.state.getState stateId = some s →
        (ConsumesExactly services.toJTokens aggregate env s stateId source type data ↔
          (s.UnderWay → s.FirstIsNew source type))) ∧
      ∀ (env : InstanceEnv) (made : WorkflowDef) (stateEnvs : StateMachineDefinitionState → InstanceEnv)
        (before after : StateMachineInstanceAggregate),
        RuntimeRun services workflowDef definition env made stateEnvs before →
        RuntimeStep services workflowDef definition before after →
        EventsProceed (fun s t => Consumption s t ∨ Processing s t) before.state after.state :=
  ⟨fun _ _ _ _ _ _ _ found => consumesExactly_iff found, fun _ _ _ _ _ run step => (step.proceed run.named).1⟩

end

/-! ## Two events with one source and type -/

/-- Plain tokens, expressions that give what they are evaluated on, and functions that give the empty object; one kind of
functions is out of order, and one path is no expression. -/
def plainServices : RuntimeServices PlainToken where
  toJsonNet := plainTokens
  transform := fun input _ => some input
  cleanExpression := id
  evalToToken := fun _ input => .ok input
  property := fun _ _ => none
  items := fun v => if v = .emptyArray then some [] else none
  array := fun _ => .emptyArray
  add := fun v _ => v
  mergeObject := fun v _ => v
  mergeAt := fun v path _ => if path = "(" then .error "no expression" else .ok (v.getD .emptyObject)
  functionProcessors := fun type => some fun _ _ _ _ =>
    if type = .CUSTOM then .error "out of order" else .ok (some .emptyObject)
  exceptionToString := fun _ => "error"

/-- A function, and two events, "first" and "second", with the same source and type. -/
def alikeEvents : StateMachineDefinitionAggregate where
  functions := [{ name := some "f", type := .REST }]
  events := [{ name := some "first", source := some "source", type := some "type", kind := .Consumed },
    { name := some "second", source := some "source", type := some "type", kind := .Consumed }]
  states := [.event
    { id := some "def", type := .Event, isEnd := true, exclusive := true
      onEvents := [{ eventRefs := [some "first", some "second"]
                     actions := [.mk none (some { refName := some "f" }) none none] }] }]

/-- The state that listens to both is the only one. -/
def listeningAlone : StateMachineDefinition where
  states := [⟨"def", .Event, none, none, [⟨true, none⟩]⟩]
  root := "def"
  distinct := by decide
  rooted := by decide
  closed := by decide

def launchedListening (before : StateMachineInstanceAggregate) : Option LaunchResult :=
  launch plainServices.toRuntimeJson noFilters
    (stateProcessors plainServices alikeEvents fun _ => ⟨fun _ _ => ⟨"", "", 0⟩, fun _ => ⟨"", "", 0⟩, []⟩) listeningAlone
    (fun _ => ⟨⟨"", "", 0⟩, ⟨"", "", 0⟩, ⟨"", "", 0⟩, ⟨"", "", 0⟩⟩) 2 before (some .emptyObject) (some "state")

/-- What a launch of the state leaves. -/
def afterLaunch (before : StateMachineInstanceAggregate) : StateMachineInstanceAggregate :=
  ((launchedListening before).map (·.1)).getD before

/-- The launch is a step of the runtime. -/
theorem runtimeStep_afterLaunch {before : StateMachineInstanceAggregate} (returns : (launchedListening before).isSome) :
    RuntimeStep plainServices alikeEvents listeningAlone before (afterLaunch before) := by
  obtain ⟨result, returned⟩ := Option.isSome_iff_exists.mp returns
  rw [afterLaunch, returned]
  exact .launch returned

def newListening : StateMachineInstanceAggregate :=
  instanciate plainServices.toRuntimeJson listeningAlone ⟨"", "instance", 0⟩ noDefinition fun _ => ⟨"", "state", 0⟩

/-- The state listens to both events. -/
def listeningTwice : StateMachineInstanceAggregate := afterLaunch newListening

/-- After one such event has arrived. -/
def consumedOnce : StateMachineInstanceAggregate :=
  (StateMachineInstanceAggregate.tryConsumeEvt plainTokens.toJTokens listeningTwice ⟨"", "", 0⟩ (some "state") (some "source")
    (some "type") (some "\x7b\x7d")).1

/-- The names and the states of the events of an instance. -/
def eventStates (aggregate : StateMachineInstanceAggregate) :
    List (List (Option String × StateMachineInstanceStateEventStates)) :=
  aggregate.state.states.map fun s => s.events.map fun e => (e.name, e.state)

/-- The first arrival is consumed, and processed by the next launch. -/
theorem eventConsumption_first :
    (∃ s, listeningTwice.state.getState (some "state") = some s ∧
      ConsumesExactly plainServices.toJTokens listeningTwice ⟨"", "", 0⟩ s (some "state") (some "source") (some "type")
        (some "\x7b\x7d")) ∧
      (EventsProceed (fun s t => Consumption s t ∨ Processing s t) listeningTwice.state consumedOnce.state ∧
        eventStates listeningTwice = [[(some "first", .CREATED), (some "second", .CREATED)]] ∧
        eventStates consumedOnce = [[(some "first", .CONSUMED), (some "second", .CREATED)]]) ∧
      EventsProceed (fun s t => Consumption s t ∨ Processing s t) consumedOnce.state (afterLaunch consumedOnce).state ∧
      eventStates (afterLaunch consumedOnce) = [[(some "first", .PROCESSED), (some "second", .CREATED)]] := by
  have exactly := eventConsumption_iff plainServices alikeEvents listeningAlone
  have launched : RuntimeRun plainServices alikeEvents listeningAlone ⟨"", "instance", 0⟩ noDefinition
      (fun _ => ⟨"", "state", 0⟩) listeningTwice :=
    .single (runtimeStep_afterLaunch rfl)
  have arrives : RuntimeStep plainServices alikeEvents listeningAlone listeningTwice consumedOnce :=
    .tryConsumeEvt ⟨"", "", 0⟩ (some "state") (some "source") (some "type") (some "\x7b\x7d")
  have again : RuntimeStep plainServices alikeEvents listeningAlone consumedOnce (afterLaunch consumedOnce) :=
    runtimeStep_afterLaunch rfl
  refine ⟨⟨_, rfl, (exactly.1 listeningTwice _ _ _ _ _ _ rfl).mpr (by decide)⟩, ⟨?_, rfl, rfl⟩, ?_, rfl⟩
  · exact exactly.2 _ _ _ _ _ launched arrives
  · exact exactly.2 _ _ _ _ _ (launched.tail arrives) again

/-- The second one is refused, though the second event is new. -/
theorem not_consumesExactly_second : ∃ s, consumedOnce.state.getState (some "state") = some s ∧ s.status = .PENDING ∧
    (s.events.map fun e => (e.name, e.state)) = [(some "first", .CONSUMED), (some "second", .CREATED)] ∧
    ¬ ConsumesExactly plainServices.toJTokens consumedOnce ⟨"", "", 0⟩ s (some "state") (some "source") (some "type")
      (some "\x7b\x7d") := by
  refine ⟨_, rfl, rfl, rfl, fun exactly => ?_⟩
  obtain ⟨k, e, after, -, -, consumes, -⟩ := exactly.accepted (by decide) (by decide)
  cases (Prod.mk.inj consumes).2

end FaasNet.StateMachine
