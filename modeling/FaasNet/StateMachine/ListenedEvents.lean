import FaasNet.StateMachine.Frontier

/-!
# The events that states listen to

A launch starts, completes, blocks and fails states, and the events that the states listen to are only used up by this.
New ones come from the processors, by `ListenEvt`, which records each in the state and as an integration event. So the
events that a new instance waits for are among its integration events; and where the states from some state on listen to
all their events already, a launch from there adds none.
-/

namespace FaasNet.StateMachine

open FaasNet.Lib FaasNet.Common FaasNet.Domain
open StateMachineInstanceAggregate (Call exec emit)

/-! ## The events that are waited for -/

/-- What an event is waited for under: the state, the source and the type. -/
abbrev WaitKey := Option String × Option String × Option String

/-- The event, if it is still waited for. -/
def StateMachineInstanceStateEvent.waited (stateId : String) (e : StateMachineInstanceStateEvent) : List WaitKey :=
  if e.state = .CREATED then [(some stateId, e.source, e.type)] else []

def StateMachineInstanceState.waited (s : StateMachineInstanceState) : List WaitKey := s.events.flatMap (·.waited s.id)

def StateMachineInstance.waited (machine : StateMachineInstance) : List WaitKey := machine.states.flatMap (·.waited)

/-- A state that listens to an event waits for it. -/
theorem mem_waited {machine : StateMachineInstance} {s : StateMachineInstanceState} (member : s ∈ machine.states)
    {e : StateMachineInstanceStateEvent} (listened : e ∈ s.events) (created : e.state = .CREATED) :
    (some s.id, e.source, e.type) ∈ machine.waited := by
  refine List.mem_flatMap.mpr ⟨s, member, List.mem_flatMap.mpr ⟨e, listened, ?_⟩⟩
  simp [StateMachineInstanceStateEvent.waited, created]

/-- A state with the names of the events that it listens to. -/
def StateMachineInstanceState.names (s : StateMachineInstanceState) : String × Option String × List (Option String) :=
  (s.id, s.defId, s.events.map (·.name))

/-- The instance is the same one, its states listen to what they listened to, and nothing is waited for that was not. -/
structure Kept (machine after : StateMachineInstance) : Prop where
  id : after.id = machine.id
  workflowDef : after.workflowDef = machine.workflowDef
  names : after.states.map (·.names) = machine.states.map (·.names)
  waited : after.waited.Sublist machine.waited

namespace Kept
variable {machine between after : StateMachineInstance}

theorem of_states (id : after.id = machine.id) (workflowDef : after.workflowDef = machine.workflowDef)
    (states : after.states = machine.states) : Kept machine after := by
  refine ⟨id, workflowDef, by rw [states], ?_⟩
  rw [StateMachineInstance.waited, StateMachineInstance.waited, states]

theorem refl (machine : StateMachineInstance) : Kept machine machine := .of_states rfl rfl rfl

theorem trans (first : Kept machine between) (second : Kept between after) : Kept machine after :=
  ⟨second.id.trans first.id, second.workflowDef.trans first.workflowDef, second.names.trans first.names,
    second.waited.trans first.waited⟩

/-- A state that changes keeps its names, and waits for nothing new. -/
theorem modifyState (stateId : Option String) {change : StateMachineInstanceState → StateMachineInstanceState}
    (names : ∀ s, (change s).names = s.names) (waited : ∀ s, (change s).waited.Sublist s.waited) :
    Kept machine (machine.modifyState stateId change) :=
  ⟨rfl, rfl, map_modifyFirst names _, flatMap_modifyFirst_sublist waited _⟩

theorem onState (stateId : Option String) {change : StateMachineInstanceState → StateMachineInstanceState}
    (names : ∀ s, (change s).names = s.names) (waited : ∀ s, (change s).waited.Sublist s.waited) :
    Kept machine (machine.onState stateId change).1 := by
  unfold StateMachineInstance.onState
  split
  · exact .refl _
  · exact .modifyState stateId names waited

/-- The states are found by the same keys, and listen to events of the same names. -/
theorem getState (kept : Kept machine after) (id : Option String) :
    (after.getState id).map (·.names) = (machine.getState id).map (·.names) := by
  have named (machine : StateMachineInstance) : (machine.getState id).map (·.names) =
      (machine.states.map (·.names)).find? fun name => some name.1 = id := by
    rw [List.find?_map]
    rfl
  rw [named, named, kept.names]

end Kept

/-! ## The handlers -/

namespace StateMachineInstanceState

/-- An event is changed so that it is not waited for any more. -/
theorem waited_modifyEvent (s : StateMachineInstanceState) (wanted : StateMachineInstanceStateEvent → Bool)
    {change : StateMachineInstanceStateEvent → StateMachineInstanceStateEvent} (used : ∀ e, (change e).state ≠ .CREATED) :
    (s.modifyEvent wanted change).waited.Sublist s.waited := by
  refine flatMap_modifyFirst_sublist (fun e => ?_) s.events
  rw [StateMachineInstanceStateEvent.waited, if_neg (used e)]
  exact List.nil_sublist _

/-- An event that changes keeps its name. -/
theorem names_modifyEvent (s : StateMachineInstanceState) (wanted : StateMachineInstanceStateEvent → Bool)
    {change : StateMachineInstanceStateEvent → StateMachineInstanceStateEvent} (same : ∀ e, (change e).name = e.name) :
    (s.modifyEvent wanted change).names = s.names := by
  have events : (s.modifyEvent wanted change).events.map (·.name) = s.events.map (·.name) := map_modifyFirst same _
  rw [names, events]
  rfl

end StateMachineInstanceState

/-- An event that neither makes an instance or a state nor listens to anything. -/
def InstanceEvent.Plain : InstanceEvent → Prop
  | .stateMachineInstanceCreated .. => False
  | .stateInstanceCreated .. => False
  | .stateEvtListened .. => False
  | _ => True

/-- An event that the engine itself makes in the visit of a state: it is about the status of this state or of the
instance. -/
def InstanceEvent.OfEngine (stateId : String) : InstanceEvent → Prop
  | .stateStarted id _ _ => id = some stateId
  | .stateReactivated id _ => id = some stateId
  | .stateBlocked id _ => id = some stateId
  | .stateFailed id _ _ => id = some stateId
  | .stateCompleted id _ _ _ => id = some stateId
  | .stateMachineTerminated .. => True
  | _ => False

/-- What the engine emits listens to nothing. -/
theorem InstanceEvent.OfEngine.plain {stateId : String} {payload : InstanceEvent} (ofEngine : payload.OfEngine stateId) :
    payload.Plain := by
  cases payload <;> trivial

section
variable {J : Type*} {json : JTokens J} {aggregate : StateMachineInstanceAggregate} {env : InstanceEnv}

/-- A plain event keeps what the instance listens to. -/
theorem handle_kept {machine : StateMachineInstance} {evt : DomainEvent InstanceEvent} (plain : evt.payload.Plain) :
    Kept machine (machine.handle json evt).1 := by
  unfold StateMachineInstance.handle
  cases payload : evt.payload with
  | stateMachineInstanceCreated workflowDef t =>
    rw [payload] at plain
    exact plain.elim
  | stateInstanceCreated stateInstanceId defId t =>
    rw [payload] at plain
    exact plain.elim
  | stateEvtListened stateId evtName evtSource evtType topic =>
    rw [payload] at plain
    exact plain.elim
  | stateStarted stateId inputStr t =>
    simp only
    split
    · exact .refl _
    · exact .refl _
    · exact .onState stateId (fun _ => rfl) (fun _ => .refl _)
  | stateReactivated stateId t => exact .onState stateId (fun _ => rfl) (fun _ => .refl _)
  | stateBlocked stateId t =>
    refine .onState stateId (fun s => ?_) (fun s => ?_)
    · split <;> rfl
    · split <;> exact .refl _
  | stateFailed stateId exception t =>
    have failed : Kept machine (machine.updateState t .FAILED) := .of_states rfl rfl rfl
    exact failed.trans (.onState stateId (fun _ => rfl) (fun _ => .refl _))
  | stateCompleted stateId outputStr nextTransition t =>
    simp only
    split
    · exact .refl _
    · exact .onState stateId (fun _ => rfl) (fun _ => .refl _)
  | stateMachineTerminated outputStr t =>
    simp only
    split <;> exact .of_states rfl rfl rfl
  | stateEvtConsumed stateId evtSource evtType input =>
    simp only
    split
    · exact .refl _
    · exact .modifyState stateId (fun s => s.names_modifyEvent _ fun _ => rfl) (fun s => s.waited_modifyEvent _ fun _ => nofun)
  | stateProcessed stateId evtName output =>
    simp only
    split
    · exact .refl _
    · exact .modifyState stateId (fun s => s.names_modifyEvent _ fun _ => rfl) (fun s => s.waited_modifyEvent _ fun _ => nofun)
  | stateMachineInstanceReactivated t =>
    simp only
    split
    · exact .refl _
    · exact .of_states rfl rfl rfl

/-- To emit a plain event keeps what the instance listens to. -/
theorem emit_kept {payload : InstanceEvent} (plain : payload.Plain) :
    Kept aggregate.state (emit json aggregate env payload).1.state := by
  rw [emit_state]
  exact handle_kept plain

/-- To emit an event announces nothing. -/
theorem emit_integrationEvents (payload : InstanceEvent) :
    (emit json aggregate env payload).1.integrationEvents = aggregate.integrationEvents := by
  unfold emit
  dsimp only
  split <;> rfl

/-! ## The commands of the processors -/

/-- A state that listens to an event of this name already is left as it is. -/
theorem listenEvt_listened {stateId name : Option String}
    (listened : ∀ s, aggregate.state.getState stateId = some s → name ∈ s.events.map (·.name))
    (source type topic : Option String) :
    (StateMachineInstanceAggregate.listenEvt json aggregate env stateId name source type topic).1 = aggregate := by
  unfold StateMachineInstanceAggregate.listenEvt
  split
  · rfl
  next s found =>
    obtain ⟨e, member, same⟩ := List.mem_map.mp (listened s found)
    have isSome : (s.tryGetEvent name).isSome := List.find?_isSome.mpr ⟨e, member, by simpa using same⟩
    obtain ⟨known, there⟩ := Option.isSome_iff_exists.mp isSome
    simp only [there]
    split <;> rfl

/-- What an integration event waits for. -/
def EventListenedEvent.waited (evt : EventListenedEvent) : WaitKey := (evt.stateInstanceId, evt.source, evt.type)

/-- What a new instance with this id and definition waits for has been announced. -/
structure Announced (instanceId : Option String) (made : Option WorkflowDef) (aggregate : StateMachineInstanceAggregate) :
    Prop where
  id : aggregate.state.id = instanceId
  workflowDef : aggregate.state.workflowDef = made
  own : ∀ evt ∈ aggregate.integrationEvents, evt.aggregateId = instanceId
  waited : aggregate.state.waited.Subperm (aggregate.integrationEvents.map (·.waited))

variable {instanceId : Option String} {made : Option WorkflowDef}

theorem Announced.emit (announced : Announced instanceId made aggregate) {payload : InstanceEvent} (plain : payload.Plain) :
    Announced instanceId made (emit json aggregate env payload).1 := by
  have kept : Kept aggregate.state (StateMachineInstanceAggregate.emit json aggregate env payload).1.state := emit_kept plain
  refine ⟨kept.id.trans announced.id, kept.workflowDef.trans announced.workflowDef, ?_, ?_⟩
  · rw [emit_integrationEvents]
    exact announced.own
  · rw [emit_integrationEvents]
    exact kept.waited.subperm.trans announced.waited

/-- An event that a state listens to now is waited for. -/
theorem waited_addEvent {machine : StateMachineInstance} {id : String} {s : StateMachineInstanceState}
    (found : machine.getState (some id) = some s) (name source type topic : Option String) :
    (machine.modifyState (some id) (·.addEvent name source type topic)).waited.Perm
      (machine.waited ++ [(some id, source, type)]) := by
  have own : s.id = id := (Option.some.inj (getState_id found)).symm
  have added : (s.addEvent name source type topic).waited = s.waited ++ [(some id, source, type)] := by
    rw [StateMachineInstanceState.waited, StateMachineInstanceState.addEvent, List.flatMap_append, ← own]
    rfl
  have changed := flatMap_modifyFirst_perm (f := (·.addEvent name source type topic)) (·.waited) found
  rw [added, ← List.append_assoc, List.append_assoc] at changed
  refine (List.perm_append_right_iff s.waited).mp (changed.trans ?_)
  rw [List.append_assoc]
  exact List.perm_append_comm.append_left _

/-- A state that listens announces it. -/
theorem Announced.listenEvt (announced : Announced instanceId made aggregate) (stateId : String)
    (name source type topic : Option String) : Announced instanceId made
      (StateMachineInstanceAggregate.listenEvt json aggregate env (some stateId) name source type topic).1 := by
  unfold StateMachineInstanceAggregate.listenEvt
  split
  · exact announced
  next s found =>
    split
    · exact announced
    split
    · exact announced
    have handled : aggregate.state.handle json
        { id := env.newGuid, aggregateId := aggregate.state.id
          payload := .stateEvtListened (some stateId) name source type topic } =
          (aggregate.state.modifyState (some stateId) (·.addEvent name source type topic), .ok ()) := by
      simp only [StateMachineInstance.handle, StateMachineInstance.onState, found]
    simp only [StateMachineInstanceAggregate.emit, handled]
    refine ⟨announced.id, announced.workflowDef, fun evt member => ?_, ?_⟩
    · rcases List.mem_append.mp member with earlier | last
      · exact announced.own evt earlier
      · rw [List.mem_singleton.mp last]
        exact announced.id
    · rw [List.map_append]
      exact (waited_addEvent found name source type topic).subperm.trans
        ((List.subperm_append_right _).mpr announced.waited)

/-- The commands of a processor announce what they wait for. -/
theorem Announced.runCommands {stateId : String} {calls : List (Call J)}
    (own : ∀ call ∈ calls, ProcessorCall stateId call) (announced : Announced instanceId made aggregate) :
    Announced instanceId made (runCommands json aggregate calls) := by
  induction calls generalizing aggregate with
  | nil => exact announced
  | cons call calls ih =>
    apply ih fun other member => own other (List.mem_cons_of_mem _ member)
    have here := own call List.mem_cons_self
    obtain ⟨env, command⟩ := call
    cases command with
    | listenEvt stateInstanceId name source type topic =>
      obtain rfl : stateInstanceId = some stateId := here
      exact announced.listenEvt stateId name source type topic
    | processEvent => exact announced.emit trivial
    | _ => exact here.elim

end

/-! ## A visit -/

/-- What a part of a visit leaves, or goes on with, satisfies `P`. -/
def Keeping {β : Type*} (P : StateMachineInstanceAggregate → Prop) (of : β → StateMachineInstanceAggregate) :
    LaunchResult ⊕ β → Prop :=
  Sum.elim (fun result => P result.1) fun next => P (of next)

theorem andThen_keeping {β : Type*} {P : StateMachineInstanceAggregate → Prop} {of : β → StateMachineInstanceAggregate}
    {result : LaunchResult} {next : StateMachineInstanceAggregate → LaunchResult ⊕ β} (kept : P result.1)
    (continues : Keeping P of (next result.1)) : Keeping P of (andThen result next) := by
  obtain ⟨aggregate, outcome⟩ := result
  cases outcome with
  | ok => exact continues
  | error => exact kept

section
variable {J : Type*} {json : RuntimeJson J} {filters : Filters J} {processors : Processors J}
  {definition : StateMachineDefinition} {env : VisitEnv} {P : StateMachineInstanceAggregate → Prop}

/-- To execute a state keeps what its processor keeps. -/
theorem executeState_keeping {visited : Nat} {d : StateMachineDefinitionState} {s : StateMachineInstanceState}
    (emits : ∀ aggregate env payload, InstanceEvent.OfEngine s.id payload → P aggregate →
      P (emit json.toJTokens aggregate env payload).1)
    {aggregate : StateMachineInstanceAggregate} (processed : P (processors visited d s aggregate).1) :
    Keeping P (·.1) (executeState json filters processors env visited d s aggregate) := by
  unfold executeState
  generalize processors visited d s aggregate = answered at processed ⊢
  obtain ⟨after, answer⟩ := answered
  have completed (output : Option J) (transition : Option String) :
      P (StateMachineInstanceAggregate.completeState json.toJTokens after env.finish (some s.id) output transition).1 :=
    emits _ _ _ rfl processed
  cases answer with
  | block => exact emits _ _ _ rfl processed
  | error exception => exact emits _ _ _ rfl processed
  | «end» output =>
    dsimp only
    cases filters.transform output d.stateDataFilterOutput with
    | none => exact processed
    | some output => exact andThen_keeping (completed output none) (emits _ _ _ trivial (completed output none))
  | next output transition =>
    dsimp only
    cases filters.transform output d.stateDataFilterOutput with
    | none => exact processed
    | some output => exact andThen_keeping (completed output transition) (completed output transition)

/-- To process a state keeps what its processor keeps. -/
theorem processState_keeping {config : LaunchConfig J} {d : StateMachineDefinitionState} {s : StateMachineInstanceState}
    (emits : ∀ aggregate env payload, InstanceEvent.OfEngine s.id payload → P aggregate →
      P (emit json.toJTokens aggregate env payload).1)
    (processes : ∀ aggregate, P aggregate →
      P (processors config.visited d ((aggregate.state.getState (some s.id)).getD s) aggregate).1)
    (start : P config.aggregate) : Keeping P (·.1) (processState json filters processors env config d s) := by
  have execute {aggregate : StateMachineInstanceAggregate} (here : P aggregate) :
      Keeping P (·.1) (executeState json filters processors env config.visited d
        ((aggregate.state.getState (some s.id)).getD s) aggregate) := by
    refine executeState_keeping (fun between env payload ofEngine => emits between env payload ?_)
      (processes aggregate here)
    have same : ((aggregate.state.getState (some s.id)).getD s).id = s.id := by
      cases now : aggregate.state.getState (some s.id) with
      | none => rfl
      | some s' => exact (Option.some.inj (getState_id now)).symm
    rwa [same] at ofEngine
  unfold processState
  cases s.status with
  | CREATE =>
    dsimp only
    cases filters.transform config.input d.stateDataFilterInput with
    | none => exact start
    | some input => exact andThen_keeping (emits _ _ _ rfl start) (execute (emits _ _ _ rfl start))
  | ERROR => exact andThen_keeping (emits _ _ _ rfl start) (execute (emits _ _ _ rfl start))
  | COMPLETE =>
    dsimp only
    cases json.getOutput s with
    | none => exact start
    | some output => exact start
  | ACTIVE => exact execute start
  | PENDING => exact execute start

/-- What the events of a launch and the processor of the state keep, a visit keeps. -/
theorem visit_keeping {config : LaunchConfig J}
    (emits : ∀ s, config.aggregate.state.getState config.stateInstanceId = some s → ∀ aggregate env payload,
      InstanceEvent.OfEngine s.id payload → P aggregate → P (emit json.toJTokens aggregate env payload).1)
    (processes : ∀ s d, config.aggregate.state.getState config.stateInstanceId = some s →
      definition.getState s.defId = some d → ∀ aggregate, P aggregate →
        P (processors config.visited d ((aggregate.state.getState (some s.id)).getD s) aggregate).1)
    (start : P config.aggregate) :
    Keeping P (·.aggregate) (visit json filters processors definition env config) := by
  unfold visit
  split
  · exact start
  cases found : config.aggregate.state.getState config.stateInstanceId with
  | none => exact start
  | some s =>
    dsimp only
    cases defined : definition.getState s.defId with
    | none => exact start
    | some d =>
      dsimp only
      split
      · exact start
      have kept : Keeping P (·.1) (processState json filters processors env config d s) :=
        processState_keeping (emits s found) (processes s d found defined) start
      generalize processState json filters processors env config d s = answered at kept ⊢
      cases answered with
      | inl result => exact kept
      | inr next =>
        obtain ⟨after, output, transition⟩ := next
        dsimp only
        unfold nextVisit
        split
        · exact kept
        split
        · exact kept
        · exact kept

end

/-! ## Launches of new instances -/

section
variable {J : Type*} {json : RuntimeJson J} {filters : Filters J} {processors : Processors J}
  {definition : StateMachineDefinition} {envs : Nat → VisitEnv} {fuel : Nat} {input : Option J}

/-- A new instance waits for nothing. -/
theorem announced_instanciate (env : InstanceEnv) (workflowDef : WorkflowDef)
    (stateEnvs : StateMachineDefinitionState → InstanceEnv) :
    Announced (some env.secondGuid) (some workflowDef) (instanciate json definition env workflowDef stateEnvs) := by
  have added (ds : List StateMachineDefinitionState) (aggregate : StateMachineInstanceAggregate)
      (announced : Announced (some env.secondGuid) (some workflowDef) aggregate) :
      Announced (some env.secondGuid) (some workflowDef) (ds.foldl (fun aggregate d =>
        (StateMachineInstanceAggregate.addState json.toJTokens aggregate (stateEnvs d) (some d.id)).1) aggregate) := by
    induction ds generalizing aggregate with
    | nil => exact announced
    | cons d ds ih =>
      apply ih
      have same : (StateMachineInstanceAggregate.addState json.toJTokens aggregate (stateEnvs d)
          (some d.id)).1.integrationEvents = aggregate.integrationEvents := emit_integrationEvents _
      refine ⟨?_, ?_, ?_, ?_⟩
      · rw [addState_state]
        exact announced.id
      · rw [addState_state]
        exact announced.workflowDef
      · rw [same]
        exact announced.own
      · rw [addState_state, same]
        simpa [StateMachineInstance.waited, StateMachineInstanceState.waited, StateMachineInstanceState.create,
          StateMachineInstanceState.applyStatus] using announced.waited
  exact added definition.states _ ⟨rfl, rfl, nofun, .refl _⟩

/-- What every visit keeps holds of the aggregate that a launch leaves. -/
theorem launch_rule {Inv : LaunchConfig J → Prop} {P : StateMachineInstanceAggregate → Prop}
    (each : ∀ config, Inv config →
      Sum.elim (fun result => P result.1) Inv (visit json filters processors definition (envs config.visited) config))
    {aggregate : StateMachineInstanceAggregate} {stateInstanceId : Option String} {result : LaunchResult}
    (returned : launch json filters processors definition envs fuel aggregate input stateInstanceId = some result)
    (start : Inv ⟨0, aggregate, input, stateInstanceId⟩) : P result.1 := by
  have post := loop_sum each returned start
  exact post

/-- What it waits for after its launch has been announced, and it is sound. -/
theorem launch_announced (conforming : Conforming json.toJTokens processors) {instanceId : Option String}
    {made : Option WorkflowDef} {aggregate : StateMachineInstanceAggregate} {stateInstanceId : Option String}
    {result : LaunchResult} (announced : Announced instanceId made aggregate) (sound : Sound definition aggregate.state)
    (returned : launch json filters processors definition envs fuel aggregate input stateInstanceId = some result) :
    Announced instanceId made result.1 ∧ Sound definition result.1.state := by
  have each (config : LaunchConfig J)
      (here : Announced instanceId made config.aggregate ∧ Sound definition config.aggregate.state) :
      Sum.elim (fun result : LaunchResult => Announced instanceId made result.1 ∧ Sound definition result.1.state)
        (fun next : LaunchConfig J => Announced instanceId made next.aggregate ∧ Sound definition next.aggregate.state)
        (visit json filters processors definition (envs config.visited) config) := by
    obtain ⟨announced, sound⟩ := here
    have kept : Keeping (Announced instanceId made) (·.aggregate)
        (visit json filters processors definition (envs config.visited) config) := by
      refine visit_keeping (fun _ _ _ _ _ ofEngine announced => announced.emit ofEngine.plain) (fun s d _ _ after announced => ?_) announced
      obtain ⟨calls, own, called⟩ := conforming.calls config.visited d ((after.state.getState (some s.id)).getD s) after
      rw [called]
      exact announced.runCommands own
    cases taken : visit json filters processors definition (envs config.visited) config with
    | inl result =>
      rw [taken] at kept
      exact ⟨kept, visit_returns conforming sound taken⟩
    | inr next =>
      rw [taken] at kept
      exact ⟨kept, (visit_continues conforming sound taken).launched.sound sound⟩
  exact launch_rule (P := fun after => Announced instanceId made after ∧ Sound definition after.state) each returned
    ⟨announced, sound⟩

/-! ## Launches that listen to nothing new -/

/-- The processors listen only to the events that the definition of the state refers to. -/
structure Listening (json : JTokens J) (eventRefs : StateMachineDefinitionState → List (Option String))
    (processors : Processors J) : Prop extends Conforming json processors where
  refs : ∀ n d s aggregate, ∃ calls : List (Call J),
    (∀ call ∈ calls, ProcessorCall s.id call ∧
      ∀ stateId name source type topic, call.2 = .listenEvt stateId name source type topic → name ∈ eventRefs d) ∧
    (processors n d s aggregate).1 = runCommands json aggregate calls

/-- A launch from the state may come to this definition. -/
def Leads (definition : StateMachineDefinition) (machine : StateMachineInstance) (stateId : Option String)
    (e : StateMachineDefinitionState) : Prop :=
  ∃ s d, machine.getState stateId = some s ∧ definition.getState s.defId = some d ∧
    Relation.ReflTransGen definition.Edge d e

/-- The states that a launch from this one may come to listen to all events of their definitions already. -/
def Heard (eventRefs : StateMachineDefinitionState → List (Option String)) (definition : StateMachineDefinition)
    (machine : StateMachineInstance) (stateId : Option String) : Prop :=
  ∀ e, Leads definition machine stateId e → ∀ s ∈ machine.states, s.defId = some e.id →
    ∀ name ∈ eventRefs e, name ∈ s.events.map (·.name)

/-- What was heard is still heard. -/
theorem Heard.kept {eventRefs : StateMachineDefinitionState → List (Option String)} {machine after : StateMachineInstance}
    {stateId : Option String} (heard : Heard eventRefs definition machine stateId) (kept : Kept machine after) :
    Heard eventRefs definition after stateId := by
  rintro e ⟨s, d, found, defined, path⟩ s' member defId name listed
  have same := kept.getState stateId
  rw [found] at same
  obtain ⟨first, there, names⟩ := Option.map_eq_some_iff.mp same.symm
  have firstDef : first.defId = s.defId := congrArg (·.2.1) names
  have present : s'.names ∈ machine.states.map (·.names) := by
    rw [← kept.names]
    exact List.mem_map_of_mem member
  obtain ⟨old, before, names'⟩ := List.mem_map.mp present
  have oldDef : old.defId = s'.defId := congrArg (·.2.1) names'
  have events : old.events.map (·.name) = s'.events.map (·.name) := congrArg (·.2.2) names'
  rw [← events]
  exact heard e ⟨first, d, there, by rw [firstDef, defined], path⟩ old before (oldDef.trans defId) name listed

/-- Commands that listen to what is heard already keep it. -/
theorem runCommands_kept {json : JTokens J} {names : List (Option String)} {stateId : String} {calls : List (Call J)}
    (own : ∀ call ∈ calls, ProcessorCall stateId call ∧
      ∀ id name source type topic, call.2 = .listenEvt id name source type topic → name ∈ names)
    {aggregate : StateMachineInstanceAggregate}
    (heard : ∀ s, aggregate.state.getState (some stateId) = some s → ∀ name ∈ names, name ∈ s.events.map (·.name)) :
    Kept aggregate.state (runCommands json aggregate calls).state := by
  induction calls generalizing aggregate with
  | nil => exact .refl _
  | cons call calls ih =>
    have here : Kept aggregate.state (exec json aggregate call.1 call.2).1.state := by
      obtain ⟨mine, refs⟩ := own call List.mem_cons_self
      obtain ⟨env, command⟩ := call
      cases command with
      | listenEvt id name source type topic =>
        obtain rfl : id = some stateId := mine
        have unchanged : (exec json aggregate env (.listenEvt (some stateId) name source type topic)).1 = aggregate :=
          listenEvt_listened (fun s found => heard s found name (refs _ _ _ _ _ rfl)) source type topic
        rw [unchanged]
        exact .refl _
      | processEvent => exact emit_kept trivial
      | _ => exact mine.elim
    refine here.trans (ih (fun other member => own other (List.mem_cons_of_mem _ member)) fun s found name listed => ?_)
    have same := here.getState (some stateId)
    rw [found] at same
    obtain ⟨old, before, names⟩ := Option.map_eq_some_iff.mp same.symm
    have events : old.events.map (·.name) = s.events.map (·.name) := congrArg (·.2.2) names
    rw [← events]
    exact heard old before name listed

/-- Where a launch is that began at a state of `machine`. -/
structure Onward (definition : StateMachineDefinition) (machine : StateMachineInstance) (stateId : Option String)
    (config : LaunchConfig J) : Prop where
  kept : Kept machine config.aggregate.state
  sound : Sound definition config.aggregate.state
  leads : ∀ s e, config.aggregate.state.getState config.stateInstanceId = some s →
    definition.getState s.defId = some e → Leads definition machine stateId e

variable {eventRefs : StateMachineDefinitionState → List (Option String)} {stateId : Option String}

/-- A processor of a visit keeps what is heard. -/
theorem Onward.processes (listening : Listening json.toJTokens eventRefs processors) {machine : StateMachineInstance}
    {config : LaunchConfig J} (onward : Onward definition machine stateId config)
    (heard : Heard eventRefs definition machine stateId) {s : StateMachineInstanceState} {e : StateMachineDefinitionState}
    (found : config.aggregate.state.getState config.stateInstanceId = some s) (defined : definition.getState s.defId = some e)
    {aggregate : StateMachineInstanceAggregate} (kept : Kept machine aggregate.state) :
    Kept machine (processors config.visited e ((aggregate.state.getState (some s.id)).getD s) aggregate).1.state := by
  have own : config.stateInstanceId = some s.id := getState_id found
  have id : ((aggregate.state.getState (some s.id)).getD s).id = s.id := by
    cases here : aggregate.state.getState (some s.id) with
    | none => rfl
    | some now => exact (Option.some.inj (getState_id here)).symm
  obtain ⟨calls, refs, called⟩ := listening.refs config.visited e ((aggregate.state.getState (some s.id)).getD s) aggregate
  rw [called]
  rw [id] at refs
  refine kept.trans (runCommands_kept refs fun now here name listed => ?_)
  -- the state is the same one as in `machine`, under the same names
  have same := onward.kept.getState (some s.id)
  rw [← own, found, own] at same
  obtain ⟨first, there, names⟩ := Option.map_eq_some_iff.mp same.symm
  have again := kept.getState (some s.id)
  rw [here, there] at again
  have defId : first.defId = s.defId := congrArg (·.2.1) names
  have events : now.events.map (·.name) = first.events.map (·.name) := congrArg (·.2.2) (Option.some.inj again)
  rw [events]
  exact heard e (onward.leads s e found defined) first (List.mem_of_find?_eq_some there)
    (defId.trans (getState_mem defined).2) name listed

/-- A visit leads onward. -/
theorem Onward.next {machine : StateMachineInstance} {config next : LaunchConfig J}
    (onward : Onward definition machine stateId config) (visited : Visited definition config next)
    (kept : Kept machine next.aggregate.state) : Onward definition machine stateId next := by
  have sound := visited.launched.sound onward.sound
  obtain ⟨s, d, e, s', found, defId, edge, there, id⟩ := visited.edge
  have here : next.aggregate.state.getState next.stateInstanceId = some s' := by
    rw [id]
    exact getState_of_state_mem sound.distinct (List.mem_of_find?_eq_some there)
  refine ⟨kept, sound, fun s'' e' found' defined => ?_⟩
  obtain rfl := Option.some.inj (here.symm.trans found')
  rw [getStateByDefId_defId there, getState_of_mem edge.2.1] at defined
  obtain rfl := Option.some.inj defined
  obtain ⟨first, d', start, defined', path⟩ := onward.leads s d found (by rw [defId, getState_of_mem edge.1])
  exact ⟨first, d', start, defined', path.tail edge⟩

/-- A launch from a state after which every event is listened to already waits for nothing new. -/
theorem launch_kept (listening : Listening json.toJTokens eventRefs processors) {aggregate : StateMachineInstanceAggregate}
    {result : LaunchResult} (sound : Sound definition aggregate.state)
    (heard : Heard eventRefs definition aggregate.state stateId)
    (returned : launch json filters processors definition envs fuel aggregate input stateId = some result) :
    Kept aggregate.state result.1.state ∧ Sound definition result.1.state := by
  have each (config : LaunchConfig J) (onward : Onward definition aggregate.state stateId config) :
      Sum.elim (fun result : LaunchResult => Kept aggregate.state result.1.state ∧ Sound definition result.1.state)
        (Onward definition aggregate.state stateId)
        (visit json filters processors definition (envs config.visited) config) := by
    have kept : Keeping (fun after => Kept aggregate.state after.state) (·.aggregate)
        (visit json filters processors definition (envs config.visited) config) :=
      visit_keeping (fun _ _ _ _ _ ofEngine kept => kept.trans (emit_kept ofEngine.plain))
        (fun _ _ found defined _ kept => onward.processes listening heard found defined kept) onward.kept
    cases taken : visit json filters processors definition (envs config.visited) config with
    | inl result =>
      rw [taken] at kept
      exact ⟨kept, visit_returns listening.toConforming onward.sound taken⟩
    | inr next =>
      rw [taken] at kept
      exact onward.next (visit_continues listening.toConforming onward.sound taken) kept
  exact launch_rule (P := fun after => Kept aggregate.state after.state ∧ Sound definition after.state) each returned
    ⟨.refl _, sound, fun s d found defined => ⟨s, d, found, defined, .refl⟩⟩

end

/-! ## Consuming an event -/

/-- What `TryConsumeEvt` asks for: the state is under way and the event is new. -/
def StateMachineInstance.accepts (machine : StateMachineInstance) (stateId source type : Option String) : Bool :=
  (machine.getState stateId).any fun s =>
    decide (s.status = .ACTIVE ∨ s.status = .PENDING) && (s.tryGetEventOf source type).any (·.state = .CREATED)

/-- An event that is consumed is not waited for any more. -/
theorem waited_consume {machine : StateMachineInstance} {stateId : Option String} {s : StateMachineInstanceState}
    (found : machine.getState stateId = some s) {wanted : StateMachineInstanceStateEvent → Bool}
    {e : StateMachineInstanceStateEvent} (listened : s.events.find? wanted = some e) (created : e.state = .CREATED)
    {change : StateMachineInstanceStateEvent → StateMachineInstanceStateEvent} (used : ∀ e, (change e).state ≠ .CREATED) :
    machine.waited.Perm
      ((machine.modifyState stateId (·.modifyEvent wanted change)).waited ++ [(stateId, e.source, e.type)]) := by
  have here : e.waited s.id = [(stateId, e.source, e.type)] := by
    rw [StateMachineInstanceStateEvent.waited, if_pos created, getState_id found]
  have gone : (change e).waited s.id = [] := if_neg (used e)
  have inState : ((s.modifyEvent wanted change).waited ++ [(stateId, e.source, e.type)]).Perm s.waited := by
    have changed := flatMap_modifyFirst_perm (f := change) (·.waited s.id) listened
    rw [here, gone, List.append_nil] at changed
    exact changed
  have inMachine := flatMap_modifyFirst_perm (f := (·.modifyEvent wanted change)) (·.waited) found
  -- what the state gives up is what the instance gives up
  refine (List.perm_append_right_iff (s.modifyEvent wanted change).waited).mp (inMachine.symm.trans ?_)
  rw [List.append_assoc]
  exact (inState.symm.trans List.perm_append_comm).append_left _

section
variable {J : Type*} {json : JTokens J} {aggregate after : StateMachineInstanceAggregate} {env : InstanceEnv}
  {stateId source type data : Option String}

/-- An event that is accepted is one that was waited for. -/
theorem tryConsumeEvt_accepted
    (accepted : StateMachineInstanceAggregate.tryConsumeEvt json aggregate env stateId source type data = (after, .ok true)) :
    Kept aggregate.state after.state ∧
      aggregate.state.waited.Perm (after.state.waited ++ [(stateId, source, type)]) := by
  unfold StateMachineInstanceAggregate.tryConsumeEvt at accepted
  split at accepted
  · cases (Prod.mk.inj accepted).2
  next s found =>
    split_ifs at accepted
    · cases (Prod.mk.inj accepted).2
    split at accepted
    · cases (Prod.mk.inj accepted).2
    next e listened =>
      split_ifs at accepted with created
      · split at accepted
        next consumed emitted =>
          obtain ⟨rfl, -⟩ := Prod.mk.inj accepted
          have handled := handle_of_emit emitted
          have kept : Kept aggregate.state consumed.state := by
            have state : _ = consumed.state := congrArg Prod.fst handled
            rw [← state]
            exact handle_kept trivial
          have same : e.source = source ∧ e.type = type := by simpa using List.find?_some listened
          simp only [StateMachineInstance.handle, found, Option.bind_some, listened] at handled
          rw [← (Prod.mk.inj handled).1, ← same.1, ← same.2]
          rw [← (Prod.mk.inj handled).1, ← same.1, ← same.2] at kept
          rw [← same.1, ← same.2] at listened
          refine ⟨kept, waited_consume found listened created fun _ waiting => ?_⟩
          cases waiting
        · cases (Prod.mk.inj accepted).2
      · cases (Prod.mk.inj accepted).2

/-- Under the conditions of `TryConsumeEvt` the event is not refused. -/
theorem not_refused (accepts : aggregate.state.accepts stateId source type) :
    StateMachineInstanceAggregate.tryConsumeEvt json aggregate env stateId source type data ≠ (after, .ok false) := by
  intro refused
  unfold StateMachineInstance.accepts at accepts
  obtain ⟨s, found, waiting⟩ := (Option.any_eq_true _ _).mp accepts
  rw [Bool.and_eq_true, decide_eq_true_iff] at waiting
  obtain ⟨under, known⟩ := waiting
  obtain ⟨e, listened, created⟩ := (Option.any_eq_true _ _).mp known
  have started : ¬ (s.status ≠ .ACTIVE ∧ s.status ≠ .PENDING) := fun apart => under.elim apart.1 apart.2
  have new : e.state = .CREATED := by simpa using created
  unfold StateMachineInstanceAggregate.tryConsumeEvt at refused
  simp only [found, started, if_false, listened, new, if_true] at refused
  split at refused
  · cases (Prod.mk.inj refused).2
  · cases (Prod.mk.inj refused).2

end

end FaasNet.StateMachine
