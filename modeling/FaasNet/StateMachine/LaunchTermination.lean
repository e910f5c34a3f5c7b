import FaasNet.Lib.Lists
import FaasNet.StateMachine.RuntimeEngine

/-!
# Launches that return

A visit goes on along a transition of the state it runs, also when the state was complete before. So a launch
returns if no path of transitions comes back to where it began, whatever the processors answer. If one does, the
states on it are completed once and then followed round for ever.
-/

namespace FaasNet.StateMachine

open FaasNet.Lib FaasNet.Common FaasNet.Domain
open StateMachineInstanceAggregate (Call exec emit)

/-! ## What a handler does to the states -/

namespace StateMachineInstance

section
variable {J : Type*} {json : JTokens J} {machine : StateMachineInstance}

/-- What a handler may do to a state: which state it is stays, and it becomes complete by `StateCompletedEvent`. -/
structure Changes (payload : InstanceEvent) (stateId : Option String)
    (change : StateMachineInstanceState → StateMachineInstanceState) : Prop where
  id : ∀ s, (change s).id = s.id
  defId : ∀ s, (change s).defId = s.defId
  complete : ∀ s, (change s).status = .COMPLETE →
    (s.status = .COMPLETE ∧ (change s).nextTransition = s.nextTransition) ∨
      ∃ outputStr t, payload = .stateCompleted stateId outputStr (change s).nextTransition t

theorem mem_modifyState {stateId : Option String} {change : StateMachineInstanceState → StateMachineInstanceState}
    {s : StateMachineInstanceState} (member : s ∈ (machine.modifyState stateId change).states) :
    s ∈ machine.states ∨ ∃ old, machine.getState stateId = some old ∧ s = change old :=
  mem_modifyFirst member

/-- The states are left, or one is changed as its event says. -/
def Leaves (machine : StateMachineInstance) (payload : InstanceEvent) (after : StateMachineInstance) : Prop :=
  after.states = machine.states ∨
    ∃ stateId change, Changes payload stateId change ∧ after.states = (machine.modifyState stateId change).states

theorem onState_leaves {before : StateMachineInstance} (same : before.states = machine.states)
    {payload : InstanceEvent} {stateId : Option String}
    {change : StateMachineInstanceState → StateMachineInstanceState} (changes : Changes payload stateId change) :
    machine.Leaves payload (before.onState stateId change).1 := by
  unfold onState
  cases before.getState stateId with
  | none => exact .inl same
  | some _ =>
    refine .inr ⟨stateId, change, changes, ?_⟩
    rw [modifyState, modifyState, same]

/-- A handler changes one state at most, unless it makes one. -/
theorem handle_leaves {evt : DomainEvent InstanceEvent}
    (existing : ∀ stateInstanceId defId t, evt.payload ≠ .stateInstanceCreated stateInstanceId defId t) :
    machine.Leaves evt.payload (machine.handle json evt).1 := by
  unfold handle
  cases payload : evt.payload with
  | stateMachineInstanceCreated workflowDef t => exact .inl rfl
  | stateInstanceCreated stateInstanceId defId t => exact absurd payload (existing stateInstanceId defId t)
  | stateStarted stateId inputStr t =>
    simp only
    split
    · exact .inl rfl
    · exact .inl rfl
    · exact onState_leaves rfl ⟨fun _ => rfl, fun _ => rfl, fun _ => nofun⟩
  | stateReactivated stateId t => exact onState_leaves rfl ⟨fun _ => rfl, fun _ => rfl, fun _ => nofun⟩
  | stateBlocked stateId t =>
    refine onState_leaves rfl ⟨fun s => ?_, fun s => ?_, fun s complete => ?_⟩
    · split <;> rfl
    · split <;> rfl
    · split at complete
      next pending => simp [pending] at complete
      next => cases complete
  | stateFailed stateId exception t => exact onState_leaves rfl ⟨fun _ => rfl, fun _ => rfl, fun _ => nofun⟩
  | stateCompleted stateId outputStr nextTransition t =>
    simp only
    split
    · exact .inl rfl
    · exact onState_leaves rfl ⟨fun _ => rfl, fun _ => rfl, fun _ _ => .inr ⟨outputStr, t, rfl⟩⟩
  | stateMachineTerminated outputStr t =>
    simp only
    split <;> exact .inl rfl
  | stateEvtListened stateId evtName evtSource evtType topic =>
    exact onState_leaves rfl ⟨fun _ => rfl, fun _ => rfl, fun _ complete => .inl ⟨complete, rfl⟩⟩
  | stateEvtConsumed stateId evtSource evtType input =>
    simp only
    split
    · exact .inl rfl
    · refine .inr ⟨stateId, _, ?_, rfl⟩
      exact ⟨fun _ => rfl, fun _ => rfl, fun _ complete => .inl ⟨complete, rfl⟩⟩
  | stateProcessed stateId evtName output =>
    simp only
    split
    · exact .inl rfl
    · refine .inr ⟨stateId, _, ?_, rfl⟩
      exact ⟨fun _ => rfl, fun _ => rfl, fun _ complete => .inl ⟨complete, rfl⟩⟩
  | stateMachineInstanceReactivated t =>
    simp only
    split <;> exact .inl rfl

end

end StateMachineInstance

/-! ## Instances that only follow transitions -/

/-- A state that is complete goes on along a transition of its definition, if it goes on. -/
def StateMachineDefinition.Follows (definition : StateMachineDefinition) (defId transition : Option String) : Prop :=
  transition = none ∨ ∃ d ∈ definition.states, defId = some d.id ∧ transition ∈ d.transitions

/-- What holds of every instance of a definition that the runtime comes to. -/
structure Sound (definition : StateMachineDefinition) (machine : StateMachineInstance) : Prop where
  distinct : (machine.states.map (·.id)).Nodup
  complete : ∀ s ∈ machine.states, s.status = .COMPLETE → definition.Follows s.defId s.nextTransition

section
variable {J : Type*} {json : JTokens J} {definition : StateMachineDefinition}

/-- An event of a launch: no state is made, and one is completed with a transition of its definition. -/
def Follows (definition : StateMachineDefinition) (machine : StateMachineInstance) : InstanceEvent → Prop
  | .stateInstanceCreated .. => False
  | .stateCompleted stateId _ nextTransition _ =>
    ∀ s, machine.getState stateId = some s → definition.Follows s.defId nextTransition
  | _ => True

/-- Which states there are stays as it is in a launch. -/
def keys (machine : StateMachineInstance) : List (String × Option String) :=
  machine.states.map fun s => (s.id, s.defId)

theorem map_id_keys (machine : StateMachineInstance) : (keys machine).map Prod.fst = machine.states.map (·.id) := by
  simp [keys]

theorem Leaves.keys {machine after : StateMachineInstance} {payload : InstanceEvent}
    (leaves : machine.Leaves payload after) : keys after = keys machine := by
  rcases leaves with same | ⟨stateId, change, changes, modified⟩
  · rw [StateMachine.keys, StateMachine.keys, same]
  · rw [StateMachine.keys, modified]
    exact map_modifyFirst (fun s => by rw [changes.id, changes.defId]) _

theorem Leaves.sound {machine after : StateMachineInstance} {payload : InstanceEvent}
    (leaves : machine.Leaves payload after) (follows : Follows definition machine payload)
    (sound : Sound definition machine) : Sound definition after := by
  refine ⟨?_, fun s member complete => ?_⟩
  · rw [← map_id_keys, Leaves.keys leaves, map_id_keys]
    exact sound.distinct
  · rcases leaves with same | ⟨stateId, change, changes, modified⟩
    · exact sound.complete s (same ▸ member) complete
    · rcases StateMachineInstance.mem_modifyState (modified ▸ member) with old | ⟨old, found, rfl⟩
      · exact sound.complete s old complete
      · rw [changes.defId]
        rcases changes.complete old complete with ⟨before, next⟩ | ⟨outputStr, t, rfl⟩
        · rw [next]
          exact sound.complete old (List.mem_of_find?_eq_some found) before
        · exact follows old found

variable {aggregate : StateMachineInstanceAggregate}

theorem emit_state (env : InstanceEnv) (payload : InstanceEvent) :
    (emit json aggregate env payload).1.state =
      (aggregate.state.handle json { id := env.newGuid, aggregateId := aggregate.state.id, payload }).1 := by
  unfold emit
  dsimp only
  split <;> simp_all

/-- What a launch does to the states, whole or in part. -/
structure Launched (definition : StateMachineDefinition) (before after : StateMachineInstance) : Prop where
  keys : keys after = keys before
  sound : Sound definition before → Sound definition after

theorem Launched.refl (machine : StateMachineInstance) : Launched definition machine machine := ⟨rfl, id⟩

theorem Launched.trans {before between after : StateMachineInstance} (first : Launched definition before between)
    (second : Launched definition between after) : Launched definition before after :=
  ⟨second.keys.trans first.keys, second.sound ∘ first.sound⟩

theorem emit_launched (env : InstanceEnv) {payload : InstanceEvent}
    (follows : Follows definition aggregate.state payload) :
    Launched definition aggregate.state (emit json aggregate env payload).1.state := by
  have existing : ∀ stateInstanceId defId t, payload ≠ .stateInstanceCreated stateInstanceId defId t := by
    rintro stateInstanceId defId t rfl
    exact follows
  have leaves : aggregate.state.Leaves payload (emit json aggregate env payload).1.state := by
    rw [emit_state]
    exact StateMachineInstance.handle_leaves existing
  exact ⟨Leaves.keys leaves, Leaves.sound leaves follows⟩

/-- The other commands of the runtime. -/
theorem listenEvt_launched (env : InstanceEnv) (stateInstanceId name source type topic : Option String) :
    Launched definition aggregate.state
      (StateMachineInstanceAggregate.listenEvt json aggregate env stateInstanceId name source type topic).1.state := by
  unfold StateMachineInstanceAggregate.listenEvt
  split
  · exact .refl _
  split
  · exact .refl _
  split
  · exact .refl _
  have emitted : Launched definition aggregate.state
      (emit json aggregate env (.stateEvtListened stateInstanceId name source type topic)).1.state :=
    emit_launched env trivial
  dsimp only
  split <;> simp_all

theorem tryConsumeEvt_launched (env : InstanceEnv) (stateInstanceId source type data : Option String) :
    Launched definition aggregate.state
      (StateMachineInstanceAggregate.tryConsumeEvt json aggregate env stateInstanceId source type data).1.state := by
  unfold StateMachineInstanceAggregate.tryConsumeEvt
  split
  · exact .refl _
  split
  · exact .refl _
  split
  · exact .refl _
  split
  · have emitted : Launched definition aggregate.state
        (emit json aggregate env (.stateEvtConsumed stateInstanceId source type data)).1.state :=
      emit_launched env trivial
    split <;> simp_all
  · exact .refl _

/-- What the processors call. -/
theorem runCommands_launched {stateId : String} {calls : List (Call J)} (own : ∀ call ∈ calls, ProcessorCall stateId call) :
    Launched definition aggregate.state (runCommands json aggregate calls).state := by
  induction calls generalizing aggregate with
  | nil => exact .refl _
  | cons call calls ih =>
    refine .trans ?_ (ih fun other member => own other (List.mem_cons_of_mem _ member))
    have here := own call List.mem_cons_self
    obtain ⟨env, command⟩ := call
    cases command with
    | listenEvt => exact listenEvt_launched ..
    | processEvent => exact emit_launched _ trivial
    | _ => exact here.elim

end

/-! ## A visit -/

theorem getState_mem {definition : StateMachineDefinition} {id : Option String} {d : StateMachineDefinitionState}
    (found : definition.getState id = some d) : d ∈ definition.states ∧ id = some d.id :=
  ⟨List.mem_of_find?_eq_some found, by simpa [eq_comm] using List.find?_some found⟩

theorem getState_of_mem {definition : StateMachineDefinition} {d : StateMachineDefinitionState}
    (known : d ∈ definition.states) : definition.getState (some d.id) = some d := by
  have isSome : (definition.getState (some d.id)).isSome := List.find?_isSome.mpr ⟨d, known, by simp⟩
  obtain ⟨found, here⟩ := Option.isSome_iff_exists.mp isSome
  obtain ⟨member, same⟩ := getState_mem here
  rw [here, List.inj_on_of_nodup_map definition.distinct known member (Option.some.inj same)]

/-- A transition that is followed to a state is an edge. -/
theorem edge_of_follows {definition : StateMachineDefinition} {d e : StateMachineDefinitionState} {transition : Option String}
    (known : d ∈ definition.states) (processed : d.type.hasProcessor)
    (follows : definition.Follows (some d.id) transition) (found : definition.getState transition = some e) :
    definition.Edge d e := by
  obtain ⟨member, rfl⟩ := getState_mem found
  rcases follows with none | ⟨d', known', same, listed⟩
  · cases none
  · obtain rfl := List.inj_on_of_nodup_map definition.distinct known known' (Option.some.inj same)
    exact ⟨known, member, processed, listed⟩

/-- The definition of a state is found by its keys. -/
theorem getState_defId {before after : StateMachineInstance} (same : keys after = keys before) (id : Option String) :
    (after.getState id).map (·.defId) = (before.getState id).map (·.defId) := by
  have keyed (machine : StateMachineInstance) : (machine.getState id).map (·.defId) =
      ((keys machine).find? fun key => some key.1 = id).map Prod.snd := by
    rw [keys, List.find?_map, Option.map_map]
    rfl
  rw [keyed, keyed, same]

section
variable {J : Type*} {json : RuntimeJson J} {filters : Filters J} {processors : Processors J}
  {definition : StateMachineDefinition} {env : VisitEnv}

/-- A part of a visit that leaves the states in order; what it goes on with satisfies `Next`. -/
def Orderly {β : Type*} (definition : StateMachineDefinition) (machine : StateMachineInstance) (Next : β → Prop) :
    LaunchResult ⊕ β → Prop
  | .inl result => Launched definition machine result.1.state
  | .inr next => Next next

theorem Orderly.from {β : Type*} {before after : StateMachineInstance} {Next Next' : β → Prop} {result : LaunchResult ⊕ β}
    (orderly : Orderly definition after Next result) (launched : Launched definition before after)
    (weaker : ∀ next, Next next → Next' next) : Orderly definition before Next' result := by
  cases result with
  | inl result => exact launched.trans orderly
  | inr next => exact weaker next orderly

theorem andThen_orderly {β : Type*} {machine : StateMachineInstance} {Next : β → Prop} {result : LaunchResult}
    {next : StateMachineInstanceAggregate → LaunchResult ⊕ β} (launched : Launched definition machine result.1.state)
    (continues : Orderly definition machine Next (next result.1)) :
    Orderly definition machine Next (andThen result next) := by
  obtain ⟨aggregate, outcome⟩ := result
  cases outcome with
  | ok => exact continues
  | error => exact launched

/-- What a state goes on with: a transition of its definition. -/
def Executed (definition : StateMachineDefinition) (d : StateMachineDefinitionState) (machine : StateMachineInstance)
    (next : StateMachineInstanceAggregate × Option J × Option String) : Prop :=
  Launched definition machine next.1.state ∧ definition.Follows (some d.id) next.2.2

theorem executeState_orderly (conforming : Conforming json.toJTokens processors) {visited : Nat}
    {d : StateMachineDefinitionState} (known : d ∈ definition.states) {s : StateMachineInstanceState}
    {aggregate : StateMachineInstanceAggregate}
    (instanceOf : ∀ s', aggregate.state.getState (some s.id) = some s' → s'.defId = some d.id) :
    Orderly definition aggregate.state (Executed definition d aggregate.state)
      (executeState json filters processors env visited d s aggregate) := by
  obtain ⟨calls, own, called⟩ := conforming.calls visited d s aggregate
  have next := conforming.next visited d s aggregate
  have processed : Launched definition aggregate.state (processors visited d s aggregate).1.state := by
    rw [called]
    exact runCommands_launched own
  unfold executeState
  generalize processors visited d s aggregate = answered at next processed ⊢
  obtain ⟨after, answer⟩ := answered
  have still {s' : StateMachineInstanceState} (found : after.state.getState (some s.id) = some s') :
      s'.defId = some d.id := by
    have same := getState_defId processed.keys (some s.id)
    rw [found] at same
    obtain ⟨old, before, defId⟩ := Option.map_eq_some_iff.mp same.symm
    exact defId.symm.trans (instanceOf old before)
  have completed (output : Option J) {transition : Option String} (allowed : definition.Follows (some d.id) transition) :
      Launched definition aggregate.state
        (StateMachineInstanceAggregate.completeState json.toJTokens after env.finish (some s.id) output transition).1.state := by
    have follows (s' : StateMachineInstanceState) (found : after.state.getState (some s.id) = some s') :
        definition.Follows s'.defId transition := by
      rw [still found]
      exact allowed
    exact processed.trans (emit_launched _ follows)
  cases answer with
  | block => exact processed.trans (emit_launched _ trivial)
  | error exception => exact processed.trans (emit_launched _ trivial)
  | «end» output =>
    dsimp only
    cases filters.transform output d.stateDataFilterOutput with
    | none => exact processed
    | some output =>
      refine andThen_orderly (completed output (.inl rfl)) ?_
      exact (completed output (.inl rfl)).trans (emit_launched _ trivial)
  | next output transition =>
    dsimp only
    have allowed : definition.Follows (some d.id) transition := .inr ⟨d, known, rfl, next output transition rfl⟩
    cases filters.transform output d.stateDataFilterOutput with
    | none => exact processed
    | some output =>
      exact andThen_orderly (completed output allowed) ⟨completed output allowed, allowed⟩

/-- A visit that goes on has followed an edge. -/
structure Visited (definition : StateMachineDefinition) (config next : LaunchConfig J) : Prop where
  launched : Launched definition config.aggregate.state next.aggregate.state
  edge : ∃ s d e s', config.aggregate.state.getState config.stateInstanceId = some s ∧
    s.defId = some d.id ∧ definition.Edge d e ∧
    next.aggregate.state.getStateByDefId (some e.id) = some s' ∧ next.stateInstanceId = some s'.id

theorem getState_id {machine : StateMachineInstance} {id : Option String} {s : StateMachineInstanceState}
    (found : machine.getState id = some s) : id = some s.id := by
  simpa [eq_comm] using List.find?_some found

theorem processState_orderly (conforming : Conforming json.toJTokens processors) {config : LaunchConfig J}
    (sound : Sound definition config.aggregate.state) {s : StateMachineInstanceState}
    (found : config.aggregate.state.getState config.stateInstanceId = some s) {d : StateMachineDefinitionState}
    (known : d ∈ definition.states) (defId : s.defId = some d.id) :
    Orderly definition config.aggregate.state (Executed definition d config.aggregate.state)
      (processState json filters processors env config d s) := by
  have own : config.stateInstanceId = some s.id := getState_id found
  have execute {after : StateMachineInstanceAggregate}
      (launched : Launched definition config.aggregate.state after.state) :
      Orderly definition config.aggregate.state (Executed definition d config.aggregate.state)
        (executeState json filters processors env config.visited d
          ((after.state.getState (some s.id)).getD s) after) := by
    have same := getState_defId launched.keys (some s.id)
    rw [← own, found, own] at same
    obtain ⟨now, here, defId'⟩ := Option.map_eq_some_iff.mp same
    have id : now.id = s.id := Option.some.inj (getState_id here).symm
    rw [here, Option.getD_some]
    have executed : Orderly definition after.state (Executed definition d after.state)
        (executeState json filters processors env config.visited d now after) := by
      refine executeState_orderly conforming known fun s' again => ?_
      rw [id, here] at again
      obtain rfl := Option.some.inj again
      exact defId'.trans defId
    exact executed.from launched fun next ⟨there, follows⟩ => ⟨launched.trans there, follows⟩
  unfold processState
  cases status : s.status with
  | CREATE =>
    dsimp only
    cases filters.transform config.input d.stateDataFilterInput with
    | none => exact .refl _
    | some input =>
      exact andThen_orderly (emit_launched _ trivial) (execute (emit_launched _ trivial))
  | ERROR => exact andThen_orderly (emit_launched _ trivial) (execute (emit_launched _ trivial))
  | COMPLETE =>
    dsimp only
    cases json.getOutput s with
    | none => exact .refl _
    | some output =>
      have follows := sound.complete s (List.mem_of_find?_eq_some found) status
      exact ⟨.refl _, defId ▸ follows⟩
  | ACTIVE => exact execute (.refl _)
  | PENDING => exact execute (.refl _)

theorem visit_orderly (conforming : Conforming json.toJTokens processors) {config : LaunchConfig J}
    (sound : Sound definition config.aggregate.state) :
    Orderly definition config.aggregate.state (Visited definition config)
      (visit json filters processors definition env config) := by
  unfold visit
  split
  · exact .refl _
  cases found : config.aggregate.state.getState config.stateInstanceId with
  | none => exact .refl _
  | some s =>
    dsimp only
    cases defined : definition.getState s.defId with
    | none => exact .refl _
    | some d =>
      obtain ⟨known, defId⟩ := getState_mem defined
      dsimp only
      split
      · exact .refl _
      next processed =>
        have executed : Orderly definition config.aggregate.state (Executed definition d config.aggregate.state)
            (processState json filters processors env config d s) :=
          processState_orderly conforming sound found known defId
        cases answer : processState json filters processors env config d s with
        | inl result =>
          rw [answer] at executed
          exact executed
        | inr next =>
          obtain ⟨after, output, transition⟩ := next
          rw [answer] at executed
          obtain ⟨launched, follows⟩ := executed
          dsimp only
          unfold nextVisit
          cases there : definition.getState transition with
          | none => exact launched
          | some e =>
            dsimp only
            cases present : after.state.getStateByDefId (some e.id) with
            | none => exact launched
            | some s' =>
              have edge : definition.Edge d e := edge_of_follows known (by simpa using processed) follows there
              exact ⟨launched, s, d, e, s', found, defId, edge, present, rfl⟩

theorem visit_returns (conforming : Conforming json.toJTokens processors) {config : LaunchConfig J}
    (sound : Sound definition config.aggregate.state) {result : LaunchResult}
    (returned : visit json filters processors definition env config = .inl result) : Sound definition result.1.state := by
  have orderly : Orderly definition config.aggregate.state (Visited definition config)
      (visit json filters processors definition env config) := visit_orderly conforming sound
  rw [returned] at orderly
  exact Launched.sound orderly sound

theorem visit_continues (conforming : Conforming json.toJTokens processors) {config next : LaunchConfig J}
    (sound : Sound definition config.aggregate.state)
    (continues : visit json filters processors definition env config = .inr next) : Visited definition config next := by
  have orderly : Orderly definition config.aggregate.state (Visited definition config)
      (visit json filters processors definition env config) := visit_orderly conforming sound
  rw [continues] at orderly
  exact orderly

end

/-! ## Launches over an acyclic definition -/

section
variable {J : Type*} {json : RuntimeJson J} {filters : Filters J} {processors : Processors J}
  {definition : StateMachineDefinition} {envs : Nat → VisitEnv}

theorem getState_of_state_mem {machine : StateMachineInstance} (distinct : (machine.states.map (·.id)).Nodup)
    {s : StateMachineInstanceState} (member : s ∈ machine.states) : machine.getState (some s.id) = some s := by
  have isSome : (machine.getState (some s.id)).isSome := List.find?_isSome.mpr ⟨s, member, by simp⟩
  obtain ⟨found, here⟩ := Option.isSome_iff_exists.mp isSome
  have same : s.id = found.id := Option.some.inj (getState_id here)
  rw [here, List.inj_on_of_nodup_map distinct member (List.mem_of_find?_eq_some here) same]

theorem getStateByDefId_defId {machine : StateMachineInstance} {defId : Option String} {s : StateMachineInstanceState}
    (found : machine.getStateByDefId defId = some s) : s.defId = defId := by
  simpa using List.find?_some found

/-- The definition whose state is visited. -/
def At (definition : StateMachineDefinition) (config : LaunchConfig J) (d : {d // d ∈ definition.states}) : Prop :=
  Sound definition config.aggregate.state ∧
    ∃ s, config.aggregate.state.getState config.stateInstanceId = some s ∧ s.defId = some d.1.id

/-- The next visit is at a successor. -/
theorem visit_descends (conforming : Conforming json.toJTokens processors) {config next : LaunchConfig J}
    (sound : Sound definition config.aggregate.state) {env : VisitEnv}
    (continues : visit json filters processors definition env config = .inr next) :
    ∃ d e, definition.Edge d.1 e.1 ∧ At definition config d ∧ At definition next e := by
  obtain ⟨launched, s, d, e, s', found, defId, edge, there, id⟩ := visit_continues conforming sound continues
  have after : Sound definition next.aggregate.state := launched.sound sound
  refine ⟨⟨d, edge.1⟩, ⟨e, edge.2.1⟩, edge, ⟨sound, s, found, defId⟩, after, s', ?_, getStateByDefId_defId there⟩
  rw [id]
  exact getState_of_state_mem after.distinct (List.mem_of_find?_eq_some there)

/-- A visit is at one state. -/
theorem At.unique {config : LaunchConfig J} {d e : {d // d ∈ definition.states}} (one : At definition config d)
    (other : At definition config e) : d = e := by
  obtain ⟨-, s, found, defId⟩ := one
  obtain ⟨-, s', found', defId'⟩ := other
  obtain rfl := Option.some.inj (found.symm.trans found')
  exact Subtype.ext (List.inj_on_of_nodup_map definition.distinct d.2 e.2 (Option.some.inj (defId.symm.trans defId')))

/-- Without cycles there is no infinite way. -/
theorem wellFounded_edge (acyclic : definition.Acyclic) :
    WellFounded fun e d : {d // d ∈ definition.states} => definition.Edge d.1 e.1 := by
  have finite : Finite {d // d ∈ definition.states} := definition.states.finite_toSet
  refine wellFounded_of_acyclic fun d cycle => acyclic d.1 ?_
  have backwards : Relation.TransGen (Function.swap definition.Edge) d.1 d.1 :=
    cycle.lift Subtype.val fun _ _ edge => edge
  exact Relation.transGen_swap.mp backwards

/-- Every launch of an acyclic machine returns. -/
theorem launch_returns (acyclic : definition.Acyclic) (conforming : Conforming json.toJTokens processors)
    {config : LaunchConfig J} (sound : Sound definition config.aggregate.state) :
    LoopEnds (fun config => visit json filters processors definition (envs config.visited) config) config := by
  cases taken : visit json filters processors definition (envs config.visited) config with
  | inl result => exact loopEnds_of_returns taken
  | inr next =>
    obtain ⟨d, e, -, here, -⟩ := visit_descends conforming sound taken
    refine loopEnds_of_wellFounded (wellFounded_edge acyclic) (At definition) ?_ here
    intro config d next here continues
    obtain ⟨d', e, edge, here', there⟩ := visit_descends conforming here.1 continues
    obtain rfl := here.unique here'
    exact ⟨e, edge, there⟩

end

/-! ## Reachable instances are sound -/

section
variable {J : Type*} {json : RuntimeJson J} {definition : StateMachineDefinition}

theorem addState_state (aggregate : StateMachineInstanceAggregate) (env : InstanceEnv) (defId : Option String) :
    (StateMachineInstanceAggregate.addState json.toJTokens aggregate env defId).1.state =
      { aggregate.state with states := aggregate.state.states ++ [.create env.secondGuid defId env.utcNow] } :=
  emit_state ..

/-- A new instance is active and has a new state for each one of the definition. -/
theorem instanciate_state (env : InstanceEnv) (workflowDef : WorkflowDef)
    (envs : StateMachineDefinitionState → InstanceEnv) :
    (instanciate json definition env workflowDef envs).state.status = some .ACTIVE ∧
      (instanciate json definition env workflowDef envs).state.states = definition.states.map fun d =>
        .create (envs d).secondGuid (some d.id) (envs d).utcNow := by
  have added (ds : List StateMachineDefinitionState) (aggregate : StateMachineInstanceAggregate) :
      let after := ds.foldl (fun aggregate d =>
        (StateMachineInstanceAggregate.addState json.toJTokens aggregate (envs d) (some d.id)).1) aggregate
      after.state.status = aggregate.state.status ∧ after.state.states = aggregate.state.states ++ ds.map fun d =>
        .create (envs d).secondGuid (some d.id) (envs d).utcNow := by
    induction ds generalizing aggregate with
    | nil => simp
    | cons d ds ih =>
      obtain ⟨status, states⟩ := ih (StateMachineInstanceAggregate.addState json.toJTokens aggregate (envs d) (some d.id)).1
      rw [addState_state] at status states
      exact ⟨status, by simpa using states⟩
  exact added definition.states (StateMachineInstanceAggregate.create json.toJTokens env workflowDef)

/-- New GUIDs make distinct states. -/
theorem distinct_instanciate (env : InstanceEnv) (workflowDef : WorkflowDef)
    {envs : StateMachineDefinitionState → InstanceEnv}
    (fresh : ∀ d ∈ definition.states, ∀ e ∈ definition.states, (envs d).secondGuid = (envs e).secondGuid → d = e) :
    ((instanciate json definition env workflowDef envs).state.states.map (·.id)).Nodup := by
  rw [(instanciate_state env workflowDef envs).2, List.map_map]
  exact definition.distinct.of_map.map_on fun d known e known' same => fresh d known e known' same

/-- A new instance has a state for each one of its definition. -/
theorem sound_instanciate (env : InstanceEnv) (workflowDef : WorkflowDef)
    {envs : StateMachineDefinitionState → InstanceEnv}
    (fresh : ∀ d ∈ definition.states, ∀ e ∈ definition.states, (envs d).secondGuid = (envs e).secondGuid → d = e) :
    Sound definition (instanciate json definition env workflowDef envs).state := by
  refine ⟨distinct_instanciate env workflowDef fresh, fun s member complete => ?_⟩
  rw [(instanciate_state env workflowDef envs).2] at member
  obtain ⟨d, -, rfl⟩ := List.mem_map.mp member
  cases complete

/-- So has every instance that the runtime comes to. -/
theorem Reachable.sound {aggregate : StateMachineInstanceAggregate} (reachable : Reachable json definition aggregate) :
    Sound definition aggregate.state := by
  induction reachable with
  | instanciate env workflowDef fresh => exact sound_instanciate env workflowDef fresh
  | launch reachable filters conforming returned ih =>
    have keeps (config next : LaunchConfig J) (sound : Sound definition config.aggregate.state) (env : VisitEnv)
        (continues : visit json filters _ definition env config = .inr next) :
        Sound definition next.aggregate.state :=
      (visit_continues conforming sound continues).launched.sound sound
    exact loop_invariant (fun _ _ sound returned => visit_returns conforming sound returned)
      (fun config next sound continues => keeps config next sound _ continues) returned ih
  | tryConsumeEvt reachable env stateInstanceId source type data ih => exact (tryConsumeEvt_launched ..).sound ih
  | reactivate reachable env ih => exact Launched.sound (emit_launched env trivial) ih

end

/-! ## Launches round a cycle -/

/-- What is used of the empty object of the JSON library: `new JObject()`, whose text is read back. -/
structure EmptyObject {J : Type*} (json : RuntimeJson J) (empty : J) : Prop where
  toText : json.toText empty = "\x7b\x7d"
  parse : json.parse "\x7b\x7d" = some empty
  parseObject : json.parseObject "\x7b\x7d" = some empty

section
variable {J : Type*} {json : RuntimeJson J} {definition : StateMachineDefinition} {empty : J}

theorem EmptyObject.get? (law : EmptyObject json empty) : json.get? (some (json.toText empty)) = some (some empty) := by
  have visible : isNullOrWhiteSpace (some "\x7b\x7d") = false := by decide
  rw [law.toText, JTokens.get?, visible, Option.getD_some, law.parse]
  rfl

/-- The empty object is read as the output. -/
theorem EmptyObject.getOutput (law : EmptyObject json empty) {s : StateMachineInstanceState}
    (output : s.outputStr = some (json.toText empty)) : json.getOutput s = some (some empty) := by
  have visible : isNullOrWhiteSpace (some "\x7b\x7d") = false := by decide
  rw [RuntimeJson.getOutput, output, law.toText, visible, Option.getD_some, law.parseObject]
  rfl

/-- The states that a path of transitions comes back to. -/
def Cyclic (definition : StateMachineDefinition) (d : StateMachineDefinitionState) : Prop :=
  Relation.TransGen definition.Edge d d

/-- From a cycle there is a way to go on. -/
theorem Cyclic.next {d : StateMachineDefinitionState} (cyclic : Cyclic definition d) :
    ∃ e, definition.Edge d e ∧ Cyclic definition e := by
  obtain ⟨e, edge, back⟩ := Relation.TransGen.head'_iff.mp cyclic
  exact ⟨e, edge, .tail' back edge⟩

theorem Cyclic.mem {d : StateMachineDefinitionState} (cyclic : Cyclic definition d) : d ∈ definition.states := by
  obtain ⟨e, edge, -⟩ := cyclic.next
  exact edge.1

open Classical in
/-- Processors that answer with an empty object, go on round the cycles and block elsewhere. -/
noncomputable def circling (definition : StateMachineDefinition) (empty : J)
    (next : StateMachineDefinitionState → StateMachineDefinitionState) : Processors J := fun _ d _ aggregate =>
  (aggregate, if Cyclic definition d then .next (some empty) (some (next d).id) else .block)

/-- Filters that leave a token as it is. -/
def noFilters : Filters J := fun input _ => some input

@[simp] theorem transform_noFilters (input : Option J) (filter : Option String) :
    (noFilters : Filters J).transform input filter = some input := by
  simp [Filters.transform, noFilters]

variable {next : StateMachineDefinitionState → StateMachineDefinitionState}

/-- Processors that follow a cycle are among those that are allowed. -/
theorem conforming_circling (edge : ∀ d, Cyclic definition d → definition.Edge d (next d)) :
    Conforming json.toJTokens (circling definition empty next) := by
  refine ⟨fun n d s aggregate => ⟨[], by simp, rfl⟩, fun n d s aggregate output transition answer => ?_,
    fun n d s aggregate output answer => ?_⟩
  · unfold circling at answer
    split at answer
    next cyclic =>
      cases answer
      exact (edge d cyclic).2.2.2
    next => cases answer
  · unfold circling at answer
    split at answer <;> cases answer

/-- A state that was not visited yet, or was completed with the transition round the cycle. -/
def OnTheWay (json : RuntimeJson J) (empty : J) (transition : Option String) (s : StateMachineInstanceState) : Prop :=
  s.status = .CREATE ∨
    (s.status = .COMPLETE ∧ s.outputStr = some (json.toText empty) ∧ s.nextTransition = transition)

/-- An instance that is launched round its cycles. -/
structure Circles (json : RuntimeJson J) (definition : StateMachineDefinition) (empty : J)
    (next : StateMachineDefinitionState → StateMachineDefinitionState) (machine : StateMachineInstance) : Prop where
  active : machine.status = some .ACTIVE
  distinct : (machine.states.map (·.id)).Nodup
  present : ∀ d ∈ definition.states, some d.id ∈ machine.states.map (·.defId)
  onTheWay : ∀ s ∈ machine.states, ∀ d, Cyclic definition d → s.defId = some d.id →
    OnTheWay json empty (some (next d).id) s

/-- A new instance circles. -/
theorem circles_instanciate (env : InstanceEnv) (workflowDef : WorkflowDef)
    {envs : StateMachineDefinitionState → InstanceEnv}
    (fresh : ∀ d ∈ definition.states, ∀ e ∈ definition.states, (envs d).secondGuid = (envs e).secondGuid → d = e) :
    Circles json definition empty next (instanciate json definition env workflowDef envs).state := by
  obtain ⟨active, states⟩ : (instanciate json definition env workflowDef envs).state.status = some .ACTIVE ∧ _ :=
    instanciate_state env workflowDef envs
  refine ⟨active, distinct_instanciate env workflowDef fresh, fun d known => ?_, fun s member d cyclic defId => .inl ?_⟩
  · rw [states, List.map_map]
    exact List.mem_map_of_mem known
  · rw [states] at member
    obtain ⟨e, -, rfl⟩ := List.mem_map.mp member
    rfl

/-- A command returns if its event is handled. -/
theorem emit_returns {aggregate : StateMachineInstanceAggregate} {env : InstanceEnv} {payload : InstanceEvent}
    {machine : StateMachineInstance} (handled : aggregate.state.handle json.toJTokens
      { id := env.newGuid, aggregateId := aggregate.state.id, payload } = (machine, .ok ())) :
    ∃ after, emit json.toJTokens aggregate env payload = (after, .ok ()) ∧ after.state = machine := by
  simp [emit, handled]

/-- A state can be started with the empty object. -/
theorem startState_returns (law : EmptyObject json empty) {aggregate : StateMachineInstanceAggregate} (env : InstanceEnv)
    {id : Option String} (found : (aggregate.state.getState id).isSome) :
    ∃ after, StateMachineInstanceAggregate.startState json.toJTokens aggregate env id (some empty) = (after, .ok ()) ∧
      after.state = aggregate.state.modifyState id (·.start (json.toText empty) env.utcNow) := by
  obtain ⟨s, found⟩ := Option.isSome_iff_exists.mp found
  apply emit_returns
  simp only [StateMachineInstance.handle, Option.map_some, law.get?, StateMachineInstance.onState, found]

/-- A state can be completed with the empty object. -/
theorem completeState_returns (law : EmptyObject json empty) {aggregate : StateMachineInstanceAggregate}
    (env : InstanceEnv) {id : Option String} (found : (aggregate.state.getState id).isSome) (transition : Option String) :
    ∃ after, StateMachineInstanceAggregate.completeState json.toJTokens aggregate env id (some empty) transition =
        (after, .ok ()) ∧
      after.state = aggregate.state.modifyState id (·.complete (some (json.toText empty)) transition env.utcNow) := by
  obtain ⟨s, found⟩ := Option.isSome_iff_exists.mp found
  apply emit_returns
  simp only [StateMachineInstance.handle, Option.map_some, law.get?, StateMachineInstance.onState, found]

theorem map_modifyState {κ : Type*} {key : StateMachineInstanceState → κ} {machine : StateMachineInstance}
    {id : Option String} {change : StateMachineInstanceState → StateMachineInstanceState}
    (kept : ∀ s, key (change s) = key s) : (machine.modifyState id change).states.map key = machine.states.map key :=
  map_modifyFirst kept _

theorem modifyState_modifyState {machine : StateMachineInstance} {id : Option String}
    {first : StateMachineInstanceState → StateMachineInstanceState} (kept : ∀ s, (first s).id = s.id)
    (second : StateMachineInstanceState → StateMachineInstanceState) :
    (machine.modifyState id first).modifyState id second = machine.modifyState id (second ∘ first) := by
  have states := modifyFirst_modifyFirst (p := fun s => some s.id = id) (fun s => by rw [kept]) second machine.states
  unfold StateMachineInstance.modifyState
  dsimp only
  rw [states]

/-- The state is found with its change. -/
theorem getState_modifyState {machine : StateMachineInstance} {id : Option String}
    {change : StateMachineInstanceState → StateMachineInstanceState} (kept : ∀ s, (change s).id = s.id) :
    (machine.modifyState id change).getState id = (machine.getState id).map change :=
  find?_modifyFirst (fun s => by rw [kept]) _

/-- A state that is started and completed. -/
theorem Circles.completed {machine : StateMachineInstance} (circles : Circles json definition empty next machine)
    {s : StateMachineInstanceState} (found : machine.getState (some s.id) = some s) {d : StateMachineDefinitionState}
    (cyclic : Cyclic definition d) (defId : s.defId = some d.id) (t u : DateTime) :
    Circles json definition empty next
      ((machine.modifyState (some s.id) (·.start (json.toText empty) t)).modifyState (some s.id)
        (·.complete (some (json.toText empty)) (some (next d).id) u)) := by
  have once : (machine.modifyState (some s.id) (·.start (json.toText empty) t)).modifyState (some s.id)
      (·.complete (some (json.toText empty)) (some (next d).id) u) =
      machine.modifyState (some s.id) ((·.complete (some (json.toText empty)) (some (next d).id) u) ∘
        (·.start (json.toText empty) t)) := by
    apply modifyState_modifyState
    intro s
    rfl
  rw [once]
  refine ⟨circles.active, ?_, fun e known => ?_, fun s' member e cyclic' defId' => ?_⟩
  · rw [map_modifyState]
    · exact circles.distinct
    · intro s
      rfl
  · rw [map_modifyState]
    · exact circles.present e known
    · intro s
      rfl
  · rcases StateMachineInstance.mem_modifyState member with old | ⟨old, here, rfl⟩
    · exact circles.onTheWay s' old e cyclic' defId'
    · obtain rfl := Option.some.inj (found.symm.trans here)
      have same : d.id = e.id := Option.some.inj (defId.symm.trans defId')
      obtain rfl := List.inj_on_of_nodup_map definition.distinct cyclic.mem cyclic'.mem same
      exact .inr ⟨rfl, rfl, rfl⟩

/-- A visit completes the state and goes to the next one of the cycle. -/
theorem processState_circling (law : EmptyObject json empty) {env : VisitEnv} {config : LaunchConfig J}
    (circles : Circles json definition empty next config.aggregate.state) (input : config.input = some empty)
    {s : StateMachineInstanceState} (found : config.aggregate.state.getState (some s.id) = some s)
    {d : StateMachineDefinitionState} (cyclic : Cyclic definition d) (defId : s.defId = some d.id) :
    ∃ after, processState json noFilters (circling definition empty next) env config d s =
        .inr (after, some empty, some (next d).id) ∧ Circles json definition empty next after.state := by
  rcases circles.onTheWay s (List.mem_of_find?_eq_some found) d cyclic defId with created | ⟨complete, output, transition⟩
  · obtain ⟨started, starts, startedState⟩ :=
      startState_returns law env.start (Option.isSome_iff_exists.mpr ⟨s, found⟩)
    have still : started.state.getState (some s.id) = some (s.start (json.toText empty) env.start.utcNow) := by
      rw [startedState, getState_modifyState, found, Option.map_some]
      intro s
      rfl
    obtain ⟨after, completes, state⟩ := completeState_returns law env.finish
      (Option.isSome_iff_exists.mpr ⟨_, still⟩) (some (next d).id)
    refine ⟨after, ?_, ?_⟩
    · unfold processState
      simp only [created, input, transform_noFilters, starts, andThen, still, Option.getD_some]
      unfold executeState circling
      simp only [cyclic, if_true, transform_noFilters]
      have id : (s.start (json.toText empty) env.start.utcNow).id = s.id := rfl
      rw [id, completes]
      rfl
    · rw [state, startedState]
      exact circles.completed found cyclic defId _ _
  · refine ⟨config.aggregate, ?_, circles⟩
    unfold processState
    simp only [complete, law.getOutput output, transition]

/-- Where a launch round a cycle is. -/
structure Circling (json : RuntimeJson J) (definition : StateMachineDefinition) (empty : J)
    (next : StateMachineDefinitionState → StateMachineDefinitionState) (config : LaunchConfig J) : Prop where
  circles : Circles json definition empty next config.aggregate.state
  input : config.input = some empty
  at_cyclic : ∃ d s, Cyclic definition d ∧ s ∈ config.aggregate.state.states ∧ config.stateInstanceId = some s.id ∧
    s.defId = some d.id

/-- A visit stays on the cycle. -/
theorem visit_circling (law : EmptyObject json empty)
    (edge : ∀ d, Cyclic definition d → definition.Edge d (next d) ∧ Cyclic definition (next d)) {env : VisitEnv}
    {config : LaunchConfig J} (circling' : Circling json definition empty next config) :
    ∃ config', visit json noFilters (circling definition empty next) definition env config = .inr config' ∧
      Circling json definition empty next config' := by
  obtain ⟨circles, input, d, s, cyclic, member, id, defId⟩ := circling'
  have found := getState_of_state_mem circles.distinct member
  obtain ⟨edge, cyclic'⟩ := edge d cyclic
  obtain ⟨after, processed, circles'⟩ : ∃ after,
      processState json noFilters (circling definition empty next) env config d s =
        .inr (after, some empty, some (next d).id) ∧ Circles json definition empty next after.state :=
    processState_circling law circles input found cyclic defId
  have present := circles'.present (next d) edge.2.1
  obtain ⟨s', there⟩ : ∃ s', after.state.getStateByDefId (some (next d).id) = some s' := by
    obtain ⟨s', member', defId'⟩ := List.mem_map.mp present
    exact Option.isSome_iff_exists.mp (List.find?_isSome.mpr ⟨s', member', by simpa using defId'⟩)
  refine ⟨⟨config.visited + 1, after, some empty, some s'.id⟩, ?_, circles', rfl, next d, s', cyclic',
    List.mem_of_find?_eq_some there, rfl, getStateByDefId_defId there⟩
  unfold visit
  simp only [circles.active, id, found, defId, getState_of_mem edge.1, edge.2.2.1, processed, nextVisit,
    getState_of_mem edge.2.1, there]
  simp

end

/-! ## When launches return -/

section
variable {J : Type*} {json : RuntimeJson J} {empty : J} {definition : StateMachineDefinition}

/-- A new instance, with the ids of the states for GUIDs, is launched round a cycle for ever. -/
theorem not_launchTerminates_of_cyclic (law : EmptyObject json empty) {d : StateMachineDefinitionState}
    (cyclic : Cyclic definition d) : ¬ LaunchTerminates json definition := by
  intro terminates
  have nonempty : Nonempty StateMachineDefinitionState := ⟨d⟩
  have successor (d : StateMachineDefinitionState) (cyclic : Cyclic definition d) := cyclic.next
  choose! next edge using successor
  let envs (d : StateMachineDefinitionState) : InstanceEnv := ⟨"", d.id, 0⟩
  have fresh : ∀ d ∈ definition.states, ∀ e ∈ definition.states, (envs d).secondGuid = (envs e).secondGuid → d = e :=
    fun d known e known' same => List.inj_on_of_nodup_map definition.distinct known known' same
  let aggregate := instanciate json definition ⟨"", "", 0⟩ noDefinition envs
  have circles : Circles json definition empty next aggregate.state := circles_instanciate _ _ fresh
  obtain ⟨s, member, defId⟩ := List.mem_map.mp (circles.present d cyclic.mem)
  let env : VisitEnv := ⟨⟨"", "", 0⟩, ⟨"", "", 0⟩, ⟨"", "", 0⟩, ⟨"", "", 0⟩⟩
  have start : Circling json definition empty next ⟨0, aggregate, some empty, some s.id⟩ :=
    ⟨circles, rfl, d, s, cyclic, member, rfl, defId⟩
  exact not_loopEnds (fun _ circling' => visit_circling law edge circling') start
    (terminates noFilters (circling definition empty next) (conforming_circling fun d cyclic => (edge d cyclic).1)
      (fun _ => env) aggregate (.instanciate _ _ fresh) (some empty) (some s.id))

/-- Acyclic machines return, whatever is launched. -/
theorem launchTerminates_of_acyclic (acyclic : definition.Acyclic) : LaunchTerminates json definition :=
  fun _ _ conforming _ _ reachable _ _ => launch_returns acyclic conforming reachable.sound

/-- **A launch returns from every reachable instance of a definition exactly when its transitions have no
cycle.** -/
theorem launchTerminates_iff (law : EmptyObject json empty) (definition : StateMachineDefinition) :
    LaunchTerminates json definition ↔ definition.Acyclic := by
  constructor
  · intro terminates d cyclic
    exact not_launchTerminates_of_cyclic law cyclic terminates
  · exact launchTerminates_of_acyclic

end

/-- A JSON library with one token. -/
def emptyObjects : RuntimeJson Unit where
  toText _ := "\x7b\x7d"
  parse text := if text = "\x7b\x7d" then some () else none
  parseObject text := if text = "\x7b\x7d" then some () else none

theorem emptyObject_emptyObjects : EmptyObject emptyObjects () := ⟨rfl, rfl, rfl⟩

/-- An inject state that goes on to another one, which ends. -/
def twoInjects : StateMachineDefinition where
  states := [⟨"first", .Inject, none, none, [⟨false, some "second"⟩]⟩, ⟨"second", .Inject, none, none, [⟨true, none⟩]⟩]
  root := "first"
  distinct := by decide
  rooted := by decide
  closed := by decide

/-- Two states in a row make no cycle. -/
theorem acyclic_twoInjects : twoInjects.Acyclic := by
  have edge : ∀ d ∈ twoInjects.states, ∀ e ∈ twoInjects.states, some e.id ∈ d.transitions →
      d.id = "first" ∧ e.id = "second" := by decide
  intro d cyclic
  obtain ⟨e, ⟨known, known', -, listed⟩, cyclic'⟩ := Cyclic.next cyclic
  obtain ⟨f, ⟨-, known'', -, listed'⟩, -⟩ := cyclic'.next
  have first := (edge e known' f known'' listed').1
  rw [(edge d known e known' listed).2] at first
  exact absurd first (by decide)

/-- It is launched from the first state and returns. -/
theorem launchTerminates_twoInjects :
    EmptyObject emptyObjects () ∧ twoInjects.Acyclic ∧ LaunchTerminates emptyObjects twoInjects :=
  ⟨emptyObject_emptyObjects, acyclic_twoInjects,
    (launchTerminates_iff emptyObject_emptyObjects twoInjects).mpr acyclic_twoInjects⟩

/-- Two inject states that go on to each other. -/
def roundTrip : StateMachineDefinition where
  states :=
    [⟨"first", .Inject, none, none, [⟨false, some "second"⟩]⟩, ⟨"second", .Inject, none, none, [⟨false, some "first"⟩]⟩]
  root := "first"
  distinct := by decide
  rooted := by decide
  closed := by decide

/-- They are launched for ever. -/
theorem not_launchTerminates_roundTrip : ¬ LaunchTerminates emptyObjects roundTrip := by
  let first : StateMachineDefinitionState := ⟨"first", .Inject, none, none, [⟨false, some "second"⟩]⟩
  let second : StateMachineDefinitionState := ⟨"second", .Inject, none, none, [⟨false, some "first"⟩]⟩
  have there : roundTrip.Edge first second := ⟨by decide, by decide, by decide, by decide⟩
  have back : roundTrip.Edge second first := ⟨by decide, by decide, by decide, by decide⟩
  exact not_launchTerminates_of_cyclic emptyObject_emptyObjects (.tail (.single there) back : Cyclic roundTrip first)

end FaasNet.StateMachine
