import FaasNet.StateMachine.EventConsumption

/-!
# Event states

All that the processor of an event state reads and changes of an instance are the events of its state. So it is described
here as a method on these events alone, and the processor of the code does to the instance what this method does to them.
-/

namespace FaasNet.StateMachine

open FaasNet.Lib FaasNet.Common FaasNet.Domain
open StateMachineInstanceAggregate (emit)

/-! ## The events of one state -/

/-- The instance with other events in one of its states. -/
def StateMachineInstance.withEvents (machine : StateMachineInstance) (id : String)
    (events : List StateMachineInstanceStateEvent) : StateMachineInstance :=
  machine.modifyState (some id) fun s => { s with events }

section
variable {machine : StateMachineInstance} {id : String} {s : StateMachineInstanceState}
  {events : List StateMachineInstanceStateEvent}

/-- The state is found with the events it is given. -/
theorem getState_withEvents (found : machine.getState (some id) = some s) :
    (machine.withEvents id events).getState (some id) = some { s with events } := by
  rw [StateMachineInstance.withEvents, getState_modifyState, found, Option.map_some]
  intro s
  rfl

theorem modifyState_withEvents {change : StateMachineInstanceState → StateMachineInstanceState}
    (events' : List StateMachineInstanceStateEvent) (found : machine.getState (some id) = some s)
    (changed : change { s with events } = { s with events := events' }) :
    (machine.withEvents id events).modifyState (some id) change = machine.withEvents id events' := by
  have once : (machine.withEvents id events).modifyState (some id) change =
      (machine.withEvents id events).modifyState (some id) fun s => { s with events := events' } :=
    modifyState_congr (getState_withEvents found) changed
  rw [once]
  have states := @modifyFirst_modifyFirst StateMachineInstanceState (fun s => some s.id = some id)
    (fun s => { s with events }) (fun _ => rfl) (fun s => { s with events := events' }) machine.states
  simp only [StateMachineInstance.withEvents, StateMachineInstance.modifyState, states, Function.comp_def]

theorem withEvents_self (found : machine.getState (some id) = some s) : machine.withEvents id s.events = machine := by
  obtain ⟨new, -, same⟩ : ListensMore id machine machine := .refl machine
  have once : machine.modifyState (some id) (fun s => { s with events := s.events ++ new }) =
      machine.withEvents id (s.events ++ new) := modifyState_congr found rfl
  have nothing : s.events ++ new = s.events := by
    have now := found
    rw [same, once, getState_withEvents found] at now
    exact congrArg (·.events) (Option.some.inj now)
  rw [nothing] at once
  rw [← once, ← same]

end

/-! ## The processor on the events -/

/-- A part of the processor, on the events of the state. -/
abbrev Attending := Method (List StateMachineInstanceStateEvent) ProcessorError

namespace EventsOfState

section
variable {J : Type} (context : ExecutionContext J) (s : StateMachineInstanceState)

/-- An event is listened to, once. -/
def listen (evt : StateMachineDefinitionEvent) : Attending Unit := do
  let topic ← Method.of (context.services.topic evt)
  fun events =>
    (if events.any (·.name = evt.name) then events
      else events ++ [{ name := evt.name, source := evt.source, type := evt.type, topic }], .ok ())

/-- The first event of a name has been processed. -/
def process (name : Option String) (output : Option J) : Attending Unit :=
  match output with
  | none => Method.throw .nullReference
  | some output => fun events =>
    match events.find? (·.name = name) with
    | none => (events, .error (.instance .invalidOperationException))
    | some _ =>
      ((events.findIdx? (·.name = name)).elim events fun k => events.modify k fun e =>
        { e with state := .PROCESSED, outputData := some (context.services.toText output) }, .ok ())

/-- The state with the events. -/
def current : Attending StateMachineInstanceState := fun events => (events, .ok { s with events })

/-- The state listens to those of the events that are consumed ones. -/
def listenEvents (onEvent : StateMachineDefinitionOnEvent) : Attending Unit :=
  Method.forEach (fun (ref, _) => match context.workflowDef.getEvent ref with
    | none => Method.throw .nullReference
    | some evt => if evt.kind = .Consumed then listen context evt else pure ())
    onEvent.eventRefs.zipIdx

/-- A group listens to its events, and is processed if they are consumed. -/
def consumeGroup (eventState : StateMachineDefinitionEventState) (onEvent : StateMachineDefinitionOnEvent × Nat) :
    Attending (List (Option String × Option J)) := do
  listenEvents context onEvent.1
  let state ← current s
  if eventState.exclusive ∨ state.isAllEvtsConsumed onEvent.1.eventRefs then
    Method.of (EventStateProcessor.processOnEvent context onEvent.2 state onEvent.1)
  else return []

/-- The results are recorded one by one. -/
def processEvents (consumedResult : List (Option String × Option J)) : Attending Unit :=
  Method.forEach (fun (consumedEvt, _) => process context consumedEvt.1 consumedEvt.2) consumedResult.zipIdx

/-- The groups are consumed, then their results are recorded. -/
def consumeEvents (eventState : StateMachineDefinitionEventState) : Attending Unit := do
  let consumedResult ← Method.mapEach (consumeGroup context s eventState) eventState.onEvents.zipIdx
  processEvents context consumedResult.flatten

/-- `Handle`, on the events of the state. -/
def handle (eventState : StateMachineDefinitionEventState) : Attending (StateProcessorResult J) := do
  consumeEvents context s eventState
  let state ← current s
  match ← Method.of (EventStateProcessor.tryGetOutput context eventState state) with
  | some output => return eventState.ok output
  | none => return .block

end

end EventsOfState

/-! ## What the code does is what is done to the events -/

section
variable {J : Type} {context : ExecutionContext J} {machine : StateMachineInstance} {s : StateMachineInstanceState}

open Method

/-- The instance is the one of before, with these events in the state. -/
def HasEvents (context : ExecutionContext J) (machine : StateMachineInstance) (aggregate : StateMachineInstanceAggregate)
    (events : List StateMachineInstanceStateEvent) : Prop :=
  aggregate.state = machine.withEvents context.stateInstance.id events

theorem simulates_listenEvt (found : machine.getState (some context.stateInstance.id) = some s) (underWay : s.UnderWay)
    (env : InstanceEnv) (evt : StateMachineDefinitionEvent) :
    Simulates (HasEvents context machine) (context.listenEvt env evt) (EventsOfState.listen context evt) := by
  refine (simulates_of _).bind fun topic aggregate events has => ?_
  have now : aggregate.state.getState (some context.stateInstance.id) = some { s with events } := by
    rw [has, getState_withEvents found]
  have started : ¬ (s.status ≠ .ACTIVE ∧ s.status ≠ .PENDING) := fun apart => underWay.elim apart.1 apart.2
  unfold Handling.command StateMachineInstanceAggregate.listenEvt
  simp only [now, started, if_false, StateMachineInstanceState.tryGetEvent]
  cases known : events.find? (fun e => decide (e.name = evt.name)) with
  | some e =>
    have any : (events.any fun e => decide (e.name = evt.name)) = true :=
      List.any_eq_true.mpr ⟨e, List.mem_of_find?_eq_some known, by simpa using List.find?_some known⟩
    simp only [any, if_true]
    exact ⟨has, trivial⟩
  | none =>
    have none : (events.any fun e => decide (e.name = evt.name)) = false := by
      rw [List.any_eq_false]
      exact List.find?_eq_none.mp known
    simp only [emit, StateMachineInstance.handle, StateMachineInstance.onState, now, none]
    refine ⟨?_, trivial⟩
    unfold HasEvents
    dsimp only
    rw [has]
    exact modifyState_withEvents _ found rfl

theorem simulates_processEvent (found : machine.getState (some context.stateInstance.id) = some s)
    (env : InstanceEnv) (name : Option String) (output : Option J) :
    Simulates (HasEvents context machine) (context.processEvent env name output)
      (EventsOfState.process context name output) := by
  cases output with
  | none => exact simulates_throw _
  | some output =>
    intro aggregate events has
    have now : aggregate.state.getState (some context.stateInstance.id) = some { s with events } := by
      rw [has, getState_withEvents found]
    unfold ExecutionContext.processEvent EventsOfState.process Handling.command StateMachineInstanceAggregate.processEvent
    simp only [emit, StateMachineInstance.handle, now, Option.bind_some, StateMachineInstanceState.tryGetEvent]
    cases known : events.find? (fun e => decide (e.name = name)) with
    | none => exact ⟨has, rfl⟩
    | some e =>
      refine ⟨?_, rfl⟩
      unfold HasEvents
      dsimp only
      rw [has]
      exact modifyState_withEvents _ found rfl

theorem simulates_current (found : machine.getState (some context.stateInstance.id) = some s) :
    Simulates (HasEvents context machine) context.current (EventsOfState.current s) := by
  intro aggregate events has
  have now : aggregate.state.getState (some context.stateInstance.id) = some { s with events } := by
    rw [has, getState_withEvents found]
  rw [current_apply now]
  exact ⟨has, rfl⟩

/-- The processor of the code does to the instance what is done to the events of its state. -/
theorem simulates_handle (found : machine.getState (some context.stateInstance.id) = some s) (underWay : s.UnderWay)
    (eventState : StateMachineDefinitionEventState) :
    Simulates (HasEvents context machine) (EventStateProcessor.handle context eventState)
      (EventsOfState.handle context s eventState) := by
  have listens (group : Nat) (onEvent : StateMachineDefinitionOnEvent) :
      Simulates (HasEvents context machine) (EventStateProcessor.listenEvents context group onEvent)
        (EventsOfState.listenEvents context onEvent) := by
    refine simulates_forEach (fun (ref, k) => ?_) _
    dsimp only
    cases context.workflowDef.getEvent ref with
    | none => exact simulates_throw _
    | some evt =>
      dsimp only
      split
      · exact simulates_listenEvt found underWay _ _
      · exact simulates_pure ()
  have consumes : Simulates (HasEvents context machine) (EventStateProcessor.consumeEvents context eventState)
      (EventsOfState.consumeEvents context s eventState) := by
    refine (simulates_mapEach (fun onEvent => ?_) _).bind fun results => ?_
    · refine (listens _ _).bind fun _ => (simulates_current found).bind fun state => ?_
      split
      · exact simulates_of _
      · exact simulates_pure _
    · exact simulates_forEach (fun (result, k) => simulates_processEvent found _ _ _) _
  refine consumes.bind fun _ => (simulates_current found).bind fun state => (simulates_of _).bind fun output => ?_
  cases output with
  | none => exact simulates_pure _
  | some output => exact simulates_pure _

end

/-! ## The two loops of the processor -/

section
variable {J : Type} (context : ExecutionContext J) (s : StateMachineInstanceState)

/-- The events of a state that are processed for a group: all consumed ones, or none as long as one is missing. -/
def dueEvents (eventState : StateMachineDefinitionEventState) (s : StateMachineInstanceState)
    (onEvent : StateMachineDefinitionOnEvent) : List StateMachineInstanceStateEvent :=
  if eventState.exclusive ∨ s.isAllEvtsConsumed onEvent.eventRefs then s.getConsumedEvts onEvent.eventRefs else []

/-- What the actions of the due events give, group by group, and the events that are listened to in the end. An action
is given the state with the events of its group and of those before it. -/
def actionResults (eventState : StateMachineDefinitionEventState) :
    List (StateMachineDefinitionOnEvent × Nat) → List StateMachineInstanceStateEvent →
      Except ProcessorError (List (Option String × Option J) × List StateMachineInstanceStateEvent)
  | [], events => .ok ([], events)
  | (onEvent, group) :: groups, events =>
    match EventsOfState.listenEvents context onEvent events with
    | (_, .error e) => .error e
    | (events, .ok ()) => do
      let results ← (dueEvents eventState { s with events } onEvent).zipIdx.mapM
        (EventStateProcessor.processOne context group { s with events } onEvent)
      let (others, events) ← actionResults eventState groups events
      return (results ++ others, events)

/-- The events after the outputs have been recorded. -/
def recorded (results : List (Option String × Option J)) (events : List StateMachineInstanceStateEvent) :
    List StateMachineInstanceStateEvent :=
  results.foldl (fun events result => (EventsOfState.process context result.1 result.2 events).1) events

end

section
variable {J : Type} {context : ExecutionContext J} {s : StateMachineInstanceState}
  {eventState : StateMachineDefinitionEventState} {events : List StateMachineInstanceStateEvent}

open Method

/-- More events, which are new and have other names. -/
def MoreEvents (before after : List StateMachineInstanceStateEvent) : Prop :=
  (∃ new, (∀ e ∈ new, e.state = .CREATED) ∧ after = before ++ new) ∧
    ((before.map (·.name)).Nodup → (after.map (·.name)).Nodup)

theorem MoreEvents.refl (events : List StateMachineInstanceStateEvent) : MoreEvents events events :=
  ⟨⟨[], by simp⟩, id⟩

theorem MoreEvents.trans (before between after : List StateMachineInstanceStateEvent) (first : MoreEvents before between)
    (second : MoreEvents between after) : MoreEvents before after := by
  obtain ⟨⟨new, created, rfl⟩, distinct⟩ := first
  obtain ⟨⟨newer, created', rfl⟩, distinct'⟩ := second
  refine ⟨⟨new ++ newer, fun e member => ?_, by simp⟩, distinct' ∘ distinct⟩
  exact (List.mem_append.mp member).elim (created e) (created' e)

theorem respects_listen (evt : StateMachineDefinitionEvent) : Respects MoreEvents (EventsOfState.listen context evt) := by
  refine (respects_of MoreEvents.refl _).bind MoreEvents.trans fun topic events => ?_
  dsimp only
  split
  · exact .refl events
  next absent =>
    refine ⟨⟨_, by simp, rfl⟩, fun distinct => ?_⟩
    have new : evt.name ∉ events.map (·.name) := by simpa using absent
    rw [List.map_append, List.nodup_append]
    refine ⟨distinct, by simp, ?_⟩
    rintro listed present listed' single rfl
    obtain rfl : listed = evt.name := by simpa using single
    exact new present

theorem respects_listenEvents (onEvent : StateMachineDefinitionOnEvent) :
    Respects MoreEvents (EventsOfState.listenEvents context onEvent) := by
  refine respects_forEach MoreEvents.refl MoreEvents.trans (fun (ref, k) => ?_) _
  dsimp only
  split
  · exact respects_throw MoreEvents.refl _
  · split
    · exact respects_listen _
    · exact respects_pure MoreEvents.refl ()

theorem respects_gather (groups : List (StateMachineDefinitionOnEvent × Nat)) :
    Respects MoreEvents (mapEach (EventsOfState.consumeGroup context s eventState) groups) := by
  refine respects_mapEach MoreEvents.refl MoreEvents.trans (fun onEvent => ?_) _
  refine (respects_listenEvents _).bind MoreEvents.trans fun _ => ?_
  refine Respects.bind MoreEvents.trans (MoreEvents.refl : Respects MoreEvents (EventsOfState.current s)) fun state => ?_
  split
  · exact respects_of MoreEvents.refl _
  · exact respects_pure MoreEvents.refl _

/-- One round of the first loop. -/
theorem consumeGroup_eq (onEvent : StateMachineDefinitionOnEvent) (group : Nat) :
    EventsOfState.consumeGroup context s eventState (onEvent, group) events =
      match EventsOfState.listenEvents context onEvent events with
      | (after, .ok ()) => (after, (dueEvents eventState { s with events := after } onEvent).zipIdx.mapM
          (EventStateProcessor.processOne context group { s with events := after } onEvent))
      | (after, .error e) => (after, .error e) := by
  rw [EventsOfState.consumeGroup, bind_apply]
  generalize EventsOfState.listenEvents context onEvent events = listened
  obtain ⟨after, e | ⟨⟩⟩ := listened
  · rfl
  · have reads : EventsOfState.current s after = (after, .ok { s with events := after }) := rfl
    dsimp only
    rw [bind_of_ok reads, dueEvents]
    split
    · rfl
    · rfl

/-- The first loop gives what the actions give. -/
theorem gather_eq (groups : List (StateMachineDefinitionOnEvent × Nat)) :
    match mapEach (EventsOfState.consumeGroup context s eventState) groups events with
    | (after, .ok results) => actionResults context s eventState groups events = .ok (results.flatten, after)
    | (_, .error e) => actionResults context s eventState groups events = .error e := by
  induction groups generalizing events with
  | nil => rfl
  | cons onEvent groups ih =>
    obtain ⟨onEvent, group⟩ := onEvent
    rw [actionResults, mapEach, bind_apply, consumeGroup_eq]
    generalize EventsOfState.listenEvents context onEvent events = listened
    obtain ⟨after, e | ⟨⟩⟩ := listened
    · rfl
    dsimp only
    generalize (dueEvents eventState { s with events := after } onEvent).zipIdx.mapM
      (EventStateProcessor.processOne context group { s with events := after } onEvent) = given
    cases given with
    | error e => rfl
    | ok results =>
      have rest := @ih after
      dsimp only
      rw [bind_apply]
      generalize mapEach (EventsOfState.consumeGroup context s eventState) groups after = gathered at rest ⊢
      obtain ⟨last, e | others⟩ := gathered
      · dsimp only at rest ⊢
        rw [rest]
        rfl
      · dsimp only at rest
        rw [rest]
        rfl

/-- An event that was consumed is one of those that were there before. -/
theorem MoreEvents.mem {after : List StateMachineInstanceStateEvent} (more : MoreEvents events after)
    {e : StateMachineInstanceStateEvent} (member : e ∈ after) (used : e.state ≠ .CREATED) : e ∈ events := by
  obtain ⟨⟨new, created, rfl⟩, -⟩ := more
  exact (List.mem_append.mp member).resolve_right fun late => used (created e late)

/-- What is due was consumed. -/
theorem mem_dueEvents {onEvent : StateMachineDefinitionOnEvent} {e : StateMachineInstanceStateEvent}
    (due : e ∈ dueEvents eventState s onEvent) : e ∈ s.events ∧ e.state = .CONSUMED := by
  unfold dueEvents at due
  split at due
  · obtain ⟨member, consumed⟩ := List.mem_filter.mp due
    have both := of_decide_eq_true consumed
    exact ⟨member, both.1⟩
  · cases due

/-- What is processed has the name of its event. -/
theorem name_of_processOne {group : Nat} {onEvent : StateMachineDefinitionOnEvent}
    {evt : StateMachineInstanceStateEvent × Nat} {result : Option String × Option J}
    (processed : EventStateProcessor.processOne context group s onEvent evt = .ok result) : evt.1.name = result.1 := by
  unfold EventStateProcessor.processOne at processed
  split at processed
  · cases processed
  · obtain ⟨input, -, rest⟩ := except_bind_eq_ok processed
    obtain ⟨content, -, last⟩ := except_bind_eq_ok rest
    rw [← Except.ok.inj last]

/-- The results are those of events that were consumed. -/
theorem consumed_of_actionResults {groups : List (StateMachineDefinitionOnEvent × Nat)}
    {results : List (Option String × Option J)} {after : List StateMachineInstanceStateEvent}
    (given : actionResults context s eventState groups events = .ok (results, after)) :
    MoreEvents events after ∧ ∀ result ∈ results, ∃ e ∈ events, e.name = result.1 ∧ e.state = .CONSUMED := by
  induction groups generalizing events results with
  | nil =>
    obtain ⟨rfl, rfl⟩ := Prod.mk.inj (Except.ok.inj given)
    exact ⟨.refl events, by simp⟩
  | cons onEvent groups ih =>
    obtain ⟨onEvent, group⟩ := onEvent
    rw [actionResults] at given
    have more := @respects_listenEvents _ context onEvent events
    generalize EventsOfState.listenEvents context onEvent events = listened at given more
    obtain ⟨between, e | ⟨⟩⟩ := listened
    · cases given
    obtain ⟨here, actions, given⟩ := except_bind_eq_ok given
    obtain ⟨⟨others, last⟩, rest, given⟩ := except_bind_eq_ok given
    obtain ⟨rfl, rfl⟩ := Prod.mk.inj (Except.ok.inj given)
    obtain ⟨more', consumed⟩ := ih rest
    refine ⟨more.trans _ _ _ more', fun result member => ?_⟩
    rcases List.mem_append.mp member with mine | other
    · obtain ⟨⟨e, k⟩, listed, processed⟩ := exists_of_mem_mapM_eq_ok actions mine
      obtain ⟨inside, state⟩ : e ∈ between ∧ e.state = .CONSUMED := mem_dueEvents (List.fst_mem_of_mem_zipIdx listed)
      exact ⟨e, more.mem inside (by simp [state]), name_of_processOne processed, state⟩
    · obtain ⟨e, inside, name, state⟩ := consumed result other
      exact ⟨e, more.mem inside (by simp [state]), name, state⟩

/-! ### Recording the results -/

/-- What recording an output does. -/
theorem process_some {name : Option String} {e : StateMachineInstanceStateEvent} (member : e ∈ events)
    (named : e.name = name) (output : J) :
    ∃ (k : Nat) (first : StateMachineInstanceStateEvent), events[k]? = some first ∧ first.name = name ∧
      EventsOfState.process context name (some output) events = (events.set k
        { first with state := .PROCESSED, outputData := some (context.services.toText output) }, .ok ()) := by
  obtain ⟨first, found⟩ : ∃ first, events.find? (fun e => decide (e.name = name)) = some first :=
    Option.isSome_iff_exists.mp (List.find?_isSome.mpr ⟨e, member, by simpa using named⟩)
  obtain ⟨k, at_k, changed⟩ := modifyFirst_eq_set (f := fun e : StateMachineInstanceStateEvent =>
    { e with state := .PROCESSED, outputData := some (context.services.toText output) }) found
  refine ⟨k, first, at_k, by simpa using List.find?_some found, ?_⟩
  unfold EventsOfState.process
  simp only [found, changed]

/-- Every event keeps its name, and one that was processed stays so. -/
def Records (before after : List StateMachineInstanceStateEvent) : Prop :=
  ∀ e ∈ before, ∃ e' ∈ after, e'.name = e.name ∧ (e.state = .PROCESSED → e'.state = .PROCESSED)

theorem Records.refl (events : List StateMachineInstanceStateEvent) : Records events events :=
  fun e member => ⟨e, member, rfl, id⟩

theorem Records.trans (before between after : List StateMachineInstanceStateEvent) (first : Records before between)
    (second : Records between after) : Records before after := by
  intro e member
  obtain ⟨e', member', name, state⟩ := first e member
  obtain ⟨e'', member'', name', state'⟩ := second e' member'
  exact ⟨e'', member'', name'.trans name, state' ∘ state⟩

/-- To process an event records its output. -/
theorem records_process (name : Option String) (output : Option J) :
    Respects Records (EventsOfState.process context name output) := by
  cases output with
  | none => exact respects_throw Records.refl _
  | some output =>
    intro events
    by_cases known : ∃ e ∈ events, e.name = name
    · obtain ⟨e, member, named⟩ := known
      obtain ⟨k, first, at_k, -, processed⟩ := @process_some _ context _ _ _ member named output
      rw [processed]
      intro e' member'
      obtain ⟨j, at_j⟩ := List.mem_iff_getElem?.mp member'
      by_cases here : k = j
      · subst here
        obtain rfl : first = e' := Option.some.inj (at_k.symm.trans at_j)
        exact ⟨_, List.mem_set (List.getElem?_eq_some_iff.mp at_k).1 _, rfl, fun _ => rfl⟩
      · have still : (events.set k { first with state := .PROCESSED
                                                outputData := some (context.services.toText output) })[j]? = some e' := by
          rw [List.getElem?_set_ne here, at_j]
        exact ⟨e', List.mem_of_getElem? still, rfl, id⟩
    · have nowhere : events.find? (fun e => decide (e.name = name)) = none :=
        List.find?_eq_none.mpr fun e member same => known ⟨e, member, of_decide_eq_true same⟩
      unfold EventsOfState.process
      simp only [nowhere]
      exact .refl events

/-- With outputs for events that are there, all of them are recorded. -/
theorem processEvents_of_some {results : List (Option String × Option J)}
    (known : ∀ result ∈ results, ∃ e ∈ events, e.name = result.1) (some : ∀ result ∈ results, result.2.isSome) :
    EventsOfState.processEvents context results events = (recorded context results events, .ok ()) := by
  unfold EventsOfState.processEvents
  generalize 0 = from_
  induction results generalizing events from_ with
  | nil => rfl
  | cons result results ih =>
    obtain ⟨name, output⟩ := result
    obtain ⟨e, member, named⟩ := known _ List.mem_cons_self
    obtain ⟨v, rfl⟩ := Option.isSome_iff_exists.mp (some _ List.mem_cons_self)
    obtain ⟨k, first, -, -, processed⟩ := @process_some _ context _ _ _ member named v
    rw [List.zipIdx_cons, forEach, bind_of_ok processed, ih]
    · rw [recorded, recorded, List.foldl_cons, processed]
    · intro result later
      obtain ⟨e, member, named⟩ := known result (List.mem_cons_of_mem _ later)
      obtain ⟨e', member', same, -⟩ := (records_process name (.some v) : Respects Records
        (EventsOfState.process context name (.some v))) events e member
      rw [processed] at member'
      exact ⟨e', member', same.trans named⟩
    · exact fun result later => some result (List.mem_cons_of_mem _ later)

/-- If one of the outputs is null, recording them throws. -/
theorem processEvents_of_none {results : List (Option String × Option J)} {result : Option String × Option J}
    (member : result ∈ results) (null : result.2 = none) :
    ∃ e, (EventsOfState.processEvents context results events).2 = .error e := by
  obtain ⟨k, at_k⟩ := List.mem_iff_getElem?.mp member
  refine forEach_throws (List.mk_mem_zipIdx_iff_getElem?.mpr at_k) (fun events => ?_) events
  dsimp only
  rw [null]
  exact ⟨_, rfl⟩

/-! ### The processor from the results on -/

/-- Where the actions give results, these are recorded. -/
theorem handle_of_actionResults {results : List (Option String × Option J)} {after : List StateMachineInstanceStateEvent}
    (given : actionResults context s eventState eventState.onEvents.zipIdx events = .ok (results, after)) :
    EventsOfState.handle context s eventState events =
      match EventsOfState.processEvents context results after with
      | (last, .ok ()) => (last, (EventStateProcessor.tryGetOutput context eventState { s with events := last }).map fun output =>
          output.elim .block eventState.ok)
      | (last, .error e) => (last, .error e) := by
  have gathered := @gather_eq _ context s eventState events eventState.onEvents.zipIdx
  rw [given] at gathered
  rw [EventsOfState.handle, bind_apply, EventsOfState.consumeEvents, bind_apply]
  generalize mapEach (EventsOfState.consumeGroup context s eventState) eventState.onEvents.zipIdx events = first
    at gathered ⊢
  obtain ⟨between, e | lists⟩ := first
  · cases gathered
  obtain ⟨rfl, rfl⟩ := Prod.mk.inj (Except.ok.inj gathered)
  dsimp only
  generalize EventsOfState.processEvents context lists.flatten after = second
  obtain ⟨last, e | ⟨⟩⟩ := second
  · rfl
  · dsimp only
    rw [bind_apply, EventsOfState.current]
    dsimp only
    rw [bind_apply, of_apply]
    cases EventStateProcessor.tryGetOutput context eventState { s with events := last } with
    | error e => rfl
    | ok output => cases output <;> rfl

/-- Where an action fails, so does the handler. -/
theorem handle_of_error {e : ProcessorError}
    (failed : actionResults context s eventState eventState.onEvents.zipIdx events = .error e) :
    ∃ after, MoreEvents events after ∧ EventsOfState.handle context s eventState events = (after, .error e) := by
  have gathered := @gather_eq _ context s eventState events eventState.onEvents.zipIdx
  have more := @respects_gather _ context s eventState eventState.onEvents.zipIdx events
  rw [failed] at gathered
  rw [EventsOfState.handle, bind_apply, EventsOfState.consumeEvents, bind_apply]
  generalize mapEach (EventsOfState.consumeGroup context s eventState) eventState.onEvents.zipIdx events = first
    at gathered more ⊢
  obtain ⟨between, e' | lists⟩ := first
  · obtain rfl : e = e' := Except.error.inj gathered
    exact ⟨between, more, rfl⟩
  · cases gathered

end

/-! ## When an event state fails -/

section
variable {J : Type} (context : ExecutionContext J) (eventState : StateMachineDefinitionEventState)

/-- If processing the state ends in an error, its events are as they were, and the same ones, with the same data, are due
when it is processed again. -/
def KeepsEvents (aggregate : StateMachineInstanceAggregate) (s : StateMachineInstanceState) : Prop :=
  ∀ after exception, process context (.event eventState) aggregate = (after, .error exception) →
    ∃ new, (∀ e ∈ new, e.state = .CREATED) ∧
      after.state = aggregate.state.withEvents context.stateInstance.id (s.events ++ new) ∧
      ∀ onEvent, dueEvents eventState { s with events := s.events ++ new } onEvent = dueEvents eventState s onEvent

/-- An action throws, no output is recorded before one is found to be null, or all of them are recorded and merged. -/
def FailsBeforeRecording (s : StateMachineInstanceState) : Prop :=
  ∀ results after, actionResults context s eventState eventState.onEvents.zipIdx s.events = .ok (results, after) →
    (∀ first ∈ results.head?, first.2 = none) ∨
      ((∀ result ∈ results, result.2.isSome) ∧ ∃ output,
        EventStateProcessor.tryGetOutput context eventState { s with events := recorded context results after } = .ok output)

variable {context eventState} {aggregate : StateMachineInstanceAggregate} {s : StateMachineInstanceState}

open Method

/-- What the processor does to the instance, and what it answers. -/
theorem process_event (typed : eventState.type = .Event)
    (found : aggregate.state.getState (some context.stateInstance.id) = some s) (underWay : s.UnderWay) :
    (process context (.event eventState) aggregate).1.state =
        aggregate.state.withEvents context.stateInstance.id (EventsOfState.handle context s eventState s.events).1 ∧
      (process context (.event eventState) aggregate).2 =
        match (EventsOfState.handle context s eventState s.events).2 with
        | .ok result => result
        | .error e => .error (some (context.services.exceptionToString e)) := by
  have handles : handle context (.event eventState) = EventStateProcessor.handle context eventState := by
    unfold handle
    simp only [DefinitionState.base, typed]
  have has : HasEvents context aggregate.state aggregate s.events := (withEvents_self found).symm
  obtain ⟨left, outcome⟩ := simulates_handle found underWay eventState aggregate s.events has
  unfold process
  rw [handles]
  generalize EventStateProcessor.handle context eventState aggregate = handled at left outcome ⊢
  obtain ⟨after, e | result⟩ := handled
  · rw [← outcome]
    exact ⟨left, rfl⟩
  · rw [← outcome]
    exact ⟨left, rfl⟩

/-- New events are not due. -/
theorem dueEvents_append {new : List StateMachineInstanceStateEvent} (created : ∀ e ∈ new, e.state = .CREATED)
    (onEvent : StateMachineDefinitionOnEvent) :
    dueEvents eventState { s with events := s.events ++ new } onEvent = dueEvents eventState s onEvent := by
  have all : StateMachineInstanceState.isAllEvtsConsumed { s with events := s.events ++ new } onEvent.eventRefs =
      s.isAllEvtsConsumed onEvent.eventRefs := by
    have none (name : Option String) : (new.any fun e => decide (e.name = name ∧ e.state = .CONSUMED)) = false :=
      List.any_eq_false.mpr fun e member => by simp [created e member]
    simp only [StateMachineInstanceState.isAllEvtsConsumed, StateMachineInstanceState.isAllEvts, List.any_append, none,
      Bool.or_false]
  rw [dueEvents, dueEvents, all, getConsumedEvts_append created]

/-- When recording begins, the first event is processed, and it stays so. -/
theorem processed_of_first {name : Option String} {v : J} {rest : List (Option String × Option J)}
    {events : List StateMachineInstanceStateEvent} {e : StateMachineInstanceStateEvent} (member : e ∈ events)
    (named : e.name = name) :
    ∃ e' ∈ (EventsOfState.processEvents context ((name, some v) :: rest) events).1,
      e'.name = name ∧ e'.state = .PROCESSED := by
  obtain ⟨k, first, at_k, same, processed⟩ := @process_some _ context _ _ _ member named v
  have begins : EventsOfState.processEvents context ((name, some v) :: rest) events =
      forEach (fun (result, _) => EventsOfState.process context result.1 result.2) (rest.zipIdx 1) (events.set k
        { first with state := .PROCESSED, outputData := some (context.services.toText v) }) := by
    rw [EventsOfState.processEvents, List.zipIdx_cons, forEach, bind_of_ok processed]
  have kept : Respects Records (forEach (fun (result, _) => EventsOfState.process context result.1 result.2)
      (rest.zipIdx 1)) := respects_forEach Records.refl Records.trans (fun _ => records_process _ _) _
  obtain ⟨e', there, name', state⟩ := kept _ _ (List.mem_set (List.getElem?_eq_some_iff.mp at_k).1
    { first with state := .PROCESSED, outputData := some (context.services.toText v) })
  rw [begins]
  exact ⟨e', there, name'.trans same, state rfl⟩

/-- If an output has been recorded, and then one is null or the outputs cannot be merged, the first event is processed
though it ends in an error. -/
theorem fails_late {name : Option String} {v : J} {rest : List (Option String × Option J)}
    {after : List StateMachineInstanceStateEvent}
    (given : actionResults context s eventState eventState.onEvents.zipIdx s.events = .ok ((name, some v) :: rest, after))
    (incomplete : ¬ ((∀ result ∈ (name, some v) :: rest, result.2.isSome) ∧ ∃ output, EventStateProcessor.tryGetOutput
      context eventState { s with events := recorded context ((name, some v) :: rest) after } = .ok output)) :
    ∃ last e, EventsOfState.handle context s eventState s.events = (last, .error e) ∧
      ∃ e' ∈ last, e'.name = name ∧ e'.state = .PROCESSED := by
  obtain ⟨⟨⟨new, -, rfl⟩, -⟩, consumed⟩ := consumed_of_actionResults given
  have known : ∀ result ∈ (name, some v) :: rest, ∃ e ∈ s.events ++ new, e.name = result.1 := fun result member => by
    obtain ⟨e, inside, named, -⟩ := consumed result member
    exact ⟨e, List.mem_append_left _ inside, named⟩
  obtain ⟨e₁, inside, named⟩ := known _ List.mem_cons_self
  refine ⟨(EventsOfState.processEvents context ((name, some v) :: rest) (s.events ++ new)).1, ?_⟩
  suffices fails : ∃ e, EventsOfState.handle context s eventState s.events =
      ((EventsOfState.processEvents context ((name, some v) :: rest) (s.events ++ new)).1, .error e) by
    obtain ⟨e, fails⟩ := fails
    exact ⟨e, fails, processed_of_first inside named⟩
  rw [handle_of_actionResults given]
  by_cases all : ∀ result ∈ (name, some v) :: rest, result.2.isSome
  · rw [processEvents_of_some known all]
    dsimp only
    cases merged : EventStateProcessor.tryGetOutput context eventState
      { s with events := recorded context ((name, some v) :: rest) (s.events ++ new) } with
    | error e => exact ⟨e, rfl⟩
    | ok output => exact absurd ⟨all, output, merged⟩ incomplete
  · push Not at all
    obtain ⟨result, member, null⟩ := all
    obtain ⟨e, thrown⟩ := @processEvents_of_none _ context (s.events ++ new) _ _ member (by simpa using null)
    generalize EventsOfState.processEvents context ((name, some v) :: rest) (s.events ++ new) = recording at thrown
    obtain ⟨last, outcome⟩ := recording
    obtain rfl : outcome = .error e := thrown
    exact ⟨e, rfl⟩

/-- Under the condition, either the events are as they were or nothing fails. -/
theorem keeps_of_failsBeforeRecording (early : FailsBeforeRecording context eventState s) :
    MoreEvents s.events (EventsOfState.handle context s eventState s.events).1 ∨
      ∃ (last : List StateMachineInstanceStateEvent) (output : Option (Option J)),
        EventsOfState.handle context s eventState s.events = (last, .ok (output.elim .block eventState.ok)) := by
  cases given : actionResults context s eventState eventState.onEvents.zipIdx s.events with
  | error e =>
    obtain ⟨last, more, handled⟩ := handle_of_error given
    rw [handled]
    exact .inl more
  | ok gathered =>
    obtain ⟨results, last⟩ := gathered
    obtain ⟨more, consumed⟩ := consumed_of_actionResults given
    rw [handle_of_actionResults given]
    rcases early results last given with null | ⟨all, output, merged⟩
    · cases results with
      | nil => exact .inl more
      | cons first rest =>
        obtain ⟨name, output⟩ := first
        obtain rfl : output = none := null _ rfl
        exact .inl more
    · have known : ∀ result ∈ results, ∃ e ∈ last, e.name = result.1 := fun result member => by
        obtain ⟨e, inside, named, -⟩ := consumed result member
        obtain ⟨⟨new, -, rfl⟩, -⟩ := more
        exact ⟨e, List.mem_append_left _ inside, named⟩
      rw [processEvents_of_some known all]
      dsimp only
      rw [merged]
      exact .inr ⟨_, output, rfl⟩

/-- **An event state that fails has kept its events exactly as long as it fails before an output is recorded.** -/
theorem keepsEvents_iff (typed : eventState.type = .Event)
    (found : aggregate.state.getState (some context.stateInstance.id) = some s) (underWay : s.UnderWay)
    (distinct : (s.events.map (·.name)).Nodup) :
    KeepsEvents context eventState aggregate s ↔ FailsBeforeRecording context eventState s := by
  obtain ⟨left, answer⟩ := process_event typed found underWay
  constructor
  · intro keeps results after given
    by_contra late
    obtain ⟨nonNull, incomplete⟩ := not_or.mp late
    cases results with
    | nil => simp at nonNull
    | cons first rest =>
      obtain ⟨name, output⟩ := first
      obtain ⟨v, rfl⟩ : ∃ v, output = some v := Option.ne_none_iff_exists'.mp (by simpa using nonNull)
      obtain ⟨last, e, failed, e', there, named', processed⟩ := fails_late given incomplete
      rw [failed] at left answer
      obtain ⟨new, created, same, -⟩ := keeps _ _ (Prod.ext rfl answer)
      have events : s.events ++ new = last := by
        rw [left] at same
        have states := congrArg (·.getState (some context.stateInstance.id)) same
        dsimp only at states
        rw [getState_withEvents found, getState_withEvents found] at states
        exact (congrArg (·.events) (Option.some.inj states)).symm
      rw [← events] at there
      rcases List.mem_append.mp there with old | fresh
      · -- it was consumed, and not processed
        obtain ⟨e₀, inside, named, state⟩ := (consumed_of_actionResults given).2 _ List.mem_cons_self
        obtain rfl := List.inj_on_of_nodup_map distinct old inside (named'.trans named.symm)
        rw [state] at processed
        cases processed
      · rw [created e' fresh] at processed
        cases processed
  · intro early after exception failed
    rw [failed] at left answer
    rcases keeps_of_failsBeforeRecording early with more | ⟨last, output, handled⟩
    · obtain ⟨⟨new, created, same⟩, -⟩ := more
      exact ⟨new, created, by rw [← same]; exact left, dueEvents_append created⟩
    · rw [handled] at answer
      cases output with
      | none => cases answer
      | some output =>
        dsimp only [Option.elim] at answer
        unfold BaseStateMachineFlowableState.ok at answer
        split at answer <;> cases answer

end

/-! ## A state that waits for one event -/

/-- A definition with one event and one function of some type. -/
def oneGroup (type : StateMachineDefinitionTypes) : StateMachineDefinitionAggregate where
  functions := [{ name := some "f", type }]
  events := [{ name := some "first", source := some "source", type := some "type" }]

/-- The function is called when the event is there, and its result is merged at a path. -/
def waitsForOne (toStateData : Option String) : StateMachineDefinitionEventState where
  type := .Event
  onEvents := [{ eventRefs := [some "first"], actions := [.mk none (some { refName := some "f" }) none none]
                 eventDataFilter := some { toStateData } }]

/-- The state, when the event is there. -/
def gotOne : StateMachineInstanceState where
  id := "state"
  defId := none
  status := .ACTIVE
  inputStr := some "\x7b\x7d"
  events := [{ name := some "first", source := some "source", type := some "type", topic := none, state := .CONSUMED
               inputData := some "\x7b\x7d" }]

/-- Where a state with one group is executed. -/
def executingOne (type : StateMachineDefinitionTypes) : ExecutionContext PlainToken where
  services := plainServices
  workflowDef := oneGroup type
  stateInstance := gotOne
  env := ⟨fun _ _ => ⟨"", "", 0⟩, fun _ => ⟨"", "", 0⟩, []⟩

/-- The function is out of order. -/
theorem keepsEvents_outOfOrder :
    (process (executingOne .CUSTOM) (.event (waitsForOne none)) { state := { states := [gotOne] } }).2 = .error (some "error") ∧
      KeepsEvents (executingOne .CUSTOM) (waitsForOne none) { state := { states := [gotOne] } } gotOne := by
  have throws : actionResults (executingOne .CUSTOM) gotOne (waitsForOne none) (waitsForOne none).onEvents.zipIdx
      gotOne.events = .error (.external "out of order") := rfl
  refine ⟨rfl, (keepsEvents_iff rfl rfl (by decide) (by decide)).mpr fun results after given => ?_⟩
  rw [throws] at given
  cases given

/-- The function is called, but the path to which its result is merged is no expression. -/
theorem not_keepsEvents_noExpression :
    (process (executingOne .REST) (.event (waitsForOne (some "("))) { state := { states := [gotOne] } }).2 =
        .error (some "error") ∧
      ¬ KeepsEvents (executingOne .REST) (waitsForOne (some "(")) { state := { states := [gotOne] } } gotOne := by
  refine ⟨rfl, fun keeps => ?_⟩
  obtain ⟨new, created, same, -⟩ := keeps _ _ rfl
  have events := congrArg (fun machine : StateMachineInstance => machine.states.map (·.events.map (·.state))) same
  cases events

end FaasNet.StateMachine
