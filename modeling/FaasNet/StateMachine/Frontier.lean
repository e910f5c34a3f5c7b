import FaasNet.Lib.Paths
import FaasNet.StateMachine.LaunchTermination

/-!
# The frontier of an instance

An instance is launched from its root, given events at the state that waits for them and reactivated after a failure.
Between these operations one state at most is under way: the states before it are complete and each leads to the next
one, and no other state has been touched. A launch walks along the complete states and runs the one after them; if that
goes on to a state which is complete already, the walk goes round and the launch never returns.
-/

namespace FaasNet.StateMachine

open FaasNet.Lib FaasNet.Common FaasNet.Domain
open StateMachineInstanceAggregate (Call exec emit)

/-! ## The property -/

namespace StateMachineInstanceState

/-- The state is under way. -/
def InFrontier (s : StateMachineInstanceState) : Prop := s.status = .ACTIVE ∨ s.status = .PENDING ∨ s.status = .ERROR

/-- `NextTransition` of the one names the other. -/
def LeadsTo (s next : StateMachineInstanceState) : Prop := ∃ t, s.nextTransition = some t ∧ next.defId = some t

end StateMachineInstanceState

/-- The states from the root along `NextTransition`. -/
def IsPath (definition : StateMachineDefinition) (path : List StateMachineInstanceState) : Prop :=
  PathFrom (fun s => s.defId = some definition.root) StateMachineInstanceState.LeadsTo path

/-- The state was completed as an end of its definition. -/
def Ended (definition : StateMachineDefinition) (s : StateMachineInstanceState) : Prop :=
  s.nextTransition = none ∧ ∃ d ∈ definition.states, s.defId = some d.id ∧ ∃ flow ∈ d.flows, flow.isEnd

/-- The state was completed with a transition of its definition. -/
def WentOn (definition : StateMachineDefinition) (s : StateMachineInstanceState) : Prop :=
  ∃ d ∈ definition.states, s.defId = some d.id ∧ s.nextTransition ∈ d.transitions

/-- One state at most is under way, the complete ones are those on the path to it, and the status of the instance
says how the path ends. -/
structure SingleFrontier (definition : StateMachineDefinition) (machine : StateMachineInstance) : Prop where
  one : ∀ s ∈ machine.states, ∀ s' ∈ machine.states, s.InFrontier → s'.InFrontier → s = s'
  path : ∃ path, path.Nodup ∧ IsPath definition path ∧
    (∀ s, s ∈ path ↔ s ∈ machine.states ∧ s.status = .COMPLETE) ∧
    ∀ s ∈ machine.states, s.InFrontier → IsPath definition (path ++ [s])
  others : ∀ s ∈ machine.states, ¬ s.InFrontier → s.status ≠ .COMPLETE → s.status = .CREATE
  failed : machine.status = some .FAILED ↔ ∃ s ∈ machine.states, s.status = .ERROR
  terminated : machine.status = some .TERMINATE ↔ ∃ s ∈ machine.states, s.status = .COMPLETE ∧ Ended definition s
  completed : ∀ s ∈ machine.states, s.status = .COMPLETE → Ended definition s ∨ WentOn definition s

/-- One operation on an instance that returns, with whatever the processors and filters answer meanwhile:
`InstanciateAndLaunch` and `Reactivate` of the launcher, and what `HandleMessage` does for a subscription. -/
inductive Operated {J : Type*} (json : RuntimeJson J) (definition : StateMachineDefinition) :
    StateMachineInstanceAggregate → StateMachineInstanceAggregate → Prop
  | launch {before after : StateMachineInstanceAggregate} (filters : Filters J) {processors : Processors J}
      (conforming : Conforming json.toJTokens processors) {envs : Nat → VisitEnv} {input : Option J} {fuel : Nat}
      (returned : launchRoot json filters processors definition envs fuel before input = some (after, .ok ())) :
      Operated json definition before after
  | refuse {before after : StateMachineInstanceAggregate} {env : InstanceEnv}
      {stateInstanceId source type data : Option String}
      (refused : StateMachineInstanceAggregate.tryConsumeEvt json.toJTokens before env stateInstanceId source type data =
        (after, .ok false)) : Operated json definition before after
  | consume {before between after : StateMachineInstanceAggregate} {env : InstanceEnv}
      {stateInstanceId source type data : Option String}
      (consumed : StateMachineInstanceAggregate.tryConsumeEvt json.toJTokens before env stateInstanceId source type data =
        (between, .ok true)) (filters : Filters J) {processors : Processors J}
      (conforming : Conforming json.toJTokens processors) {envs : Nat → VisitEnv} {input : Option J} {fuel : Nat}
      (returned : StateMachine.launch json filters processors definition envs fuel between input stateInstanceId =
        some (after, .ok ())) : Operated json definition before after
  | reactivate {before between after : StateMachineInstanceAggregate} {env : InstanceEnv}
      (reactivated : StateMachineInstanceAggregate.reactivate json.toJTokens before env = (between, .ok ()))
      (filters : Filters J) {processors : Processors J} (conforming : Conforming json.toJTokens processors)
      {envs : Nat → VisitEnv} {input : Option J} {fuel : Nat}
      (returned : launchRoot json filters processors definition envs fuel between input = some (after, .ok ())) :
      Operated json definition before after

/-! ## Changing one state -/

/-- A state is found by its identifier, if these are distinct. -/
theorem mem_iff_getState {machine : StateMachineInstance} (distinct : (machine.states.map (·.id)).Nodup)
    {s : StateMachineInstanceState} : s ∈ machine.states ↔ machine.getState (some s.id) = some s :=
  ⟨getState_of_state_mem distinct, List.mem_of_find?_eq_some⟩

/-- Other states are left as they are. -/
theorem getState_modifyState_other {machine : StateMachineInstance} {id other : String} (apart : other ≠ id)
    {change : StateMachineInstanceState → StateMachineInstanceState} (keepsId : ∀ s, (change s).id = s.id) :
    (machine.modifyState (some id) change).getState (some other) = machine.getState (some other) := by
  refine find?_modifyFirst_other (fun s => by rw [keepsId]) (fun s here there => ?_) _
  simp only [decide_eq_true_eq] at here there
  exact apart (Option.some.inj (there.symm.trans here))

/-- The state with this id has become `new`; the others are as they were. -/
structure Turned (id : String) (before : StateMachineInstance) (new : StateMachineInstanceState)
    (after : StateMachineInstance) : Prop where
  keys : keys after = keys before
  found : after.getState (some id) = some new
  others : ∀ other, other ≠ id → after.getState (some other) = before.getState (some other)

namespace Turned
variable {id : String} {before between after : StateMachineInstance} {s new newer : StateMachineInstanceState}

theorem refl (found : before.getState (some id) = some s) : Turned id before s before :=
  ⟨rfl, found, fun _ _ => rfl⟩

/-- A state that has turned twice has turned. -/
theorem trans (first : Turned id before new between) (second : Turned id between newer after) :
    Turned id before newer after :=
  ⟨second.keys.trans first.keys, second.found, fun other apart => (second.others other apart).trans (first.others other apart)⟩

theorem id_eq (turned : Turned id before new after) : new.id = id :=
  (Option.some.inj (getState_id turned.found)).symm

theorem defId_eq (turned : Turned id before new after) (found : before.getState (some id) = some s) :
    new.defId = s.defId := by
  have same := getState_defId turned.keys (some id)
  rw [turned.found, found] at same
  exact Option.some.inj same

/-- The identifiers stay distinct. -/
theorem distinct (turned : Turned id before new after) (distinct : (before.states.map (·.id)).Nodup) :
    (after.states.map (·.id)).Nodup := by
  rw [← map_id_keys, turned.keys, map_id_keys]
  exact distinct

/-- The states afterwards are the new one and the others. -/
theorem mem_iff (turned : Turned id before new after) (distinct : (before.states.map (·.id)).Nodup) :
    s ∈ after.states ↔ s = new ∨ (s.id ≠ id ∧ s ∈ before.states) := by
  rw [mem_iff_getState (turned.distinct distinct)]
  by_cases here : s.id = id
  · rw [here, turned.found, Option.some_inj]
    simp [eq_comm]
  · rw [turned.others s.id here, ← mem_iff_getState distinct]
    have other : s ≠ new := fun same => here (same ▸ turned.id_eq)
    simp [here, other]

theorem of_modifyState {machine : StateMachineInstance} {change : StateMachineInstanceState → StateMachineInstanceState}
    (found : machine.getState (some id) = some s) (keepsId : ∀ s, (change s).id = s.id)
    (keepsDefId : ∀ s, (change s).defId = s.defId) :
    Turned id machine (change s) (machine.modifyState (some id) change) := by
  refine ⟨?_, ?_, fun other apart => getState_modifyState_other apart keepsId⟩
  · exact map_modifyState fun s => by rw [keepsId, keepsDefId]
  · rw [getState_modifyState keepsId, found, Option.map_some]

end Turned

/-! ## What the commands do to a state -/

section
variable {J : Type*} {json : JTokens J} {aggregate after : StateMachineInstanceAggregate} {env : InstanceEnv}
  {id : String} {s : StateMachineInstanceState}

/-- A command that returns has handled its event. -/
theorem handle_of_emit {payload : InstanceEvent} (emitted : emit json aggregate env payload = (after, .ok ())) :
    aggregate.state.handle json { id := env.newGuid, aggregateId := aggregate.state.id, payload } =
      (after.state, .ok ()) := by
  unfold emit at emitted
  dsimp only at emitted
  split at emitted
  next state handled =>
    obtain ⟨rfl, -⟩ := Prod.mk.inj emitted
    exact handled
  next state e failed => cases (Prod.mk.inj emitted).2

theorem turned_of_onState {machine machine' : StateMachineInstance}
    {change : StateMachineInstanceState → StateMachineInstanceState}
    (handled : machine.onState (some id) change = (machine', .ok ())) (found : machine.getState (some id) = some s)
    (keepsId : ∀ s, (change s).id = s.id) (keepsDefId : ∀ s, (change s).defId = s.defId) :
    Turned id machine (change s) machine' ∧ machine'.status = machine.status := by
  rw [StateMachineInstance.onState, found] at handled
  obtain ⟨rfl, -⟩ := Prod.mk.inj handled
  exact ⟨.of_modifyState found keepsId keepsDefId, rfl⟩

/-- Starting turns one state. -/
theorem startState_turned {input : Option J} (found : aggregate.state.getState (some id) = some s)
    (started : StateMachineInstanceAggregate.startState json aggregate env (some id) input = (after, .ok ())) :
    ∃ new, Turned id aggregate.state new after.state ∧ new.status = .ACTIVE ∧
      after.state.status = aggregate.state.status := by
  have handled := handle_of_emit started
  simp only [StateMachineInstance.handle] at handled
  split at handled
  · cases (Prod.mk.inj handled).2
  · cases (Prod.mk.inj handled).2
  · obtain ⟨turned, status⟩ := turned_of_onState handled found (fun _ => rfl) (fun _ => rfl)
    exact ⟨_, turned, rfl, status⟩

theorem reactivateState_turned (found : aggregate.state.getState (some id) = some s)
    (reactivated : StateMachineInstanceAggregate.reactivateState json aggregate env (some id) = (after, .ok ())) :
    ∃ new, Turned id aggregate.state new after.state ∧ new.status = .ACTIVE ∧
      after.state.status = aggregate.state.status := by
  have handled := handle_of_emit reactivated
  obtain ⟨turned, status⟩ := turned_of_onState handled found (fun _ => rfl) (fun _ => rfl)
  exact ⟨_, turned, rfl, status⟩

/-- Blocking turns one state. -/
theorem blockState_turned (found : aggregate.state.getState (some id) = some s)
    (blocked : StateMachineInstanceAggregate.blockState json aggregate env (some id) = (after, .ok ())) :
    ∃ new, Turned id aggregate.state new after.state ∧ new.status = .PENDING ∧
      after.state.status = aggregate.state.status := by
  have handled := handle_of_emit blocked
  obtain ⟨turned, status⟩ := turned_of_onState handled found (fun s => by split <;> rfl) (fun s => by split <;> rfl)
  refine ⟨_, turned, ?_, status⟩
  split
  next pending => exact pending
  next => rfl

/-- A failure turns one state, and the instance fails. -/
theorem errorState_turned {exception : Option String} (found : aggregate.state.getState (some id) = some s)
    (failed : StateMachineInstanceAggregate.errorState json aggregate env (some id) exception = (after, .ok ())) :
    ∃ new, Turned id aggregate.state new after.state ∧ new.status = .ERROR ∧ after.state.status = some .FAILED := by
  have handled := handle_of_emit failed
  have still : (aggregate.state.updateState env.utcNow .FAILED).getState (some id) = some s := found
  obtain ⟨turned, status⟩ := turned_of_onState handled still (fun _ => rfl) (fun _ => rfl)
  exact ⟨_, ⟨turned.keys, turned.found, turned.others⟩, rfl, status⟩

/-- Completing turns one state. -/
theorem completeState_turned {output : Option J} {transition : Option String}
    (found : aggregate.state.getState (some id) = some s)
    (completed : StateMachineInstanceAggregate.completeState json aggregate env (some id) output transition =
      (after, .ok ())) :
    ∃ new, Turned id aggregate.state new after.state ∧ new.status = .COMPLETE ∧ new.nextTransition = transition ∧
      after.state.status = aggregate.state.status := by
  have handled := handle_of_emit completed
  simp only [StateMachineInstance.handle] at handled
  split at handled
  · cases (Prod.mk.inj handled).2
  · obtain ⟨turned, status⟩ := turned_of_onState handled found (fun _ => rfl) (fun _ => rfl)
    exact ⟨_, turned, rfl, rfl, status⟩

/-- At its end an instance keeps its states. -/
theorem terminate_state {output : Option J}
    (terminated : StateMachineInstanceAggregate.terminate json aggregate env output = (after, .ok ())) :
    after.state.states = aggregate.state.states ∧ after.state.status = some .TERMINATE := by
  have handled := handle_of_emit terminated
  simp only [StateMachineInstance.handle] at handled
  split at handled
  · cases (Prod.mk.inj handled).2
  · rw [← (Prod.mk.inj handled).1]
    exact ⟨rfl, rfl⟩

/-- A command that leaves the statuses as they are. -/
def Quiet (id : String) (before after : StateMachineInstance) : Prop :=
  after.status = before.status ∧ ∀ s, before.getState (some id) = some s →
    ∃ new, Turned id before new after ∧ new.status = s.status

theorem Quiet.refl (machine : StateMachineInstance) : Quiet id machine machine :=
  ⟨rfl, fun s found => ⟨s, .refl found, rfl⟩⟩

theorem Quiet.trans {before between after : StateMachineInstance} (first : Quiet id before between)
    (second : Quiet id between after) : Quiet id before after := by
  refine ⟨second.1.trans first.1, fun s found => ?_⟩
  obtain ⟨new, turned, status⟩ := first.2 s found
  obtain ⟨newer, again, status'⟩ := second.2 new turned.found
  exact ⟨newer, turned.trans again, status'.trans status⟩

theorem quiet_modifyState {machine : StateMachineInstance} {change : StateMachineInstanceState → StateMachineInstanceState}
    (keepsId : ∀ s, (change s).id = s.id) (keepsDefId : ∀ s, (change s).defId = s.defId)
    (keepsStatus : ∀ s, (change s).status = s.status) : Quiet id machine (machine.modifyState (some id) change) :=
  ⟨rfl, fun s found => ⟨change s, .of_modifyState found keepsId keepsDefId, keepsStatus s⟩⟩

/-- Listening to an event changes no status. -/
theorem listenEvt_quiet (name source type topic : Option String) :
    Quiet id aggregate.state
      (StateMachineInstanceAggregate.listenEvt json aggregate env (some id) name source type topic).1.state := by
  have emitted : Quiet id aggregate.state
      (emit json aggregate env (.stateEvtListened (some id) name source type topic)).1.state := by
    rw [emit_state]
    simp only [StateMachineInstance.handle, StateMachineInstance.onState]
    split
    · exact .refl _
    · exact quiet_modifyState (fun _ => rfl) (fun _ => rfl) (fun _ => rfl)
  unfold StateMachineInstanceAggregate.listenEvt
  split
  · exact .refl _
  split
  · exact .refl _
  split
  · exact .refl _
  dsimp only
  split <;> simp_all

/-- Processing an event changes no status. -/
theorem processEvent_quiet (evtName output : Option String) :
    Quiet id aggregate.state
      (StateMachineInstanceAggregate.processEvent json aggregate env (some id) evtName output).1.state := by
  rw [StateMachineInstanceAggregate.processEvent, emit_state]
  simp only [StateMachineInstance.handle]
  split
  · exact .refl _
  · exact quiet_modifyState (fun _ => rfl) (fun _ => rfl) (fun _ => rfl)

/-- What a processor does to the state that it runs. -/
theorem runCommands_quiet {calls : List (Call J)} (own : ∀ call ∈ calls, ProcessorCall id call) :
    Quiet id aggregate.state (runCommands json aggregate calls).state := by
  induction calls generalizing aggregate with
  | nil => exact .refl _
  | cons call calls ih =>
    refine .trans ?_ (ih fun other member => own other (List.mem_cons_of_mem _ member))
    have here := own call List.mem_cons_self
    obtain ⟨env, command⟩ := call
    cases command with
    | listenEvt =>
      obtain rfl := here
      exact listenEvt_quiet ..
    | processEvent =>
      obtain rfl := here
      exact processEvent_quiet ..
    | _ => exact here.elim

/-- An event is consumed by a state that is under way and has not failed. -/
theorem tryConsumeEvt_quiet {stateInstanceId source type data : Option String}
    (consumed : StateMachineInstanceAggregate.tryConsumeEvt json aggregate env stateInstanceId source type data =
      (after, .ok true)) :
    ∃ s, aggregate.state.getState stateInstanceId = some s ∧ (s.status = .ACTIVE ∨ s.status = .PENDING) ∧
      Quiet s.id aggregate.state after.state := by
  unfold StateMachineInstanceAggregate.tryConsumeEvt at consumed
  split at consumed
  · cases (Prod.mk.inj consumed).2
  next s found =>
    split at consumed
    · cases (Prod.mk.inj consumed).2
    next waiting =>
      refine ⟨s, found, by tauto, ?_⟩
      split at consumed
      · cases (Prod.mk.inj consumed).2
      split at consumed
      · split at consumed
        next emitted =>
          obtain ⟨rfl, -⟩ := Prod.mk.inj consumed
          have handled := handle_of_emit emitted
          simp only [StateMachineInstance.handle] at handled
          split at handled
          · cases (Prod.mk.inj handled).2
          · rw [← (Prod.mk.inj handled).1, getState_id found]
            exact quiet_modifyState (fun _ => rfl) (fun _ => rfl) (fun _ => rfl)
        next => cases (Prod.mk.inj consumed).2
      · cases (Prod.mk.inj consumed).2

/-- An event that is refused leaves the instance as it was. -/
theorem tryConsumeEvt_refused {stateInstanceId source type data : Option String}
    (refused : StateMachineInstanceAggregate.tryConsumeEvt json aggregate env stateInstanceId source type data =
      (after, .ok false)) : after = aggregate := by
  unfold StateMachineInstanceAggregate.tryConsumeEvt at refused
  repeat' split at refused
  all_goals first
    | exact (Prod.mk.inj refused).1.symm
    | cases (Prod.mk.inj refused).2

end

/-! ## The walk of a launch -/

/-- The states of the instance are those of the definition. -/
structure InstanceOf (definition : StateMachineDefinition) (machine : StateMachineInstance) : Prop where
  distinct : (machine.states.map (·.id)).Nodup
  defIds : machine.states.map (·.defId) = definition.states.map fun d => some d.id

namespace InstanceOf
variable {definition : StateMachineDefinition} {machine after : StateMachineInstance} {s s' : StateMachineInstanceState}

theorem of_keys (of : InstanceOf definition machine) (same : keys after = keys machine) : InstanceOf definition after := by
  have defIds (m : StateMachineInstance) : m.states.map (·.defId) = (keys m).map Prod.snd := by simp [keys]
  refine ⟨?_, ?_⟩
  · rw [← map_id_keys, same, map_id_keys]
    exact of.distinct
  · rw [defIds, same, ← defIds]
    exact of.defIds

/-- A definition has one state. -/
theorem eq_of_defId (of : InstanceOf definition machine) (member : s ∈ machine.states) (member' : s' ∈ machine.states)
    (same : s.defId = s'.defId) : s = s' := by
  have nodup : (machine.states.map (·.defId)).Nodup := by
    rw [of.defIds]
    have mapped : (definition.states.map fun d => some d.id) = (definition.states.map (·.id)).map some := by simp
    rw [mapped]
    exact definition.distinct.map (Option.some_injective _)
  exact List.inj_on_of_nodup_map nodup member member' same

/-- Each state was made of a definition. -/
theorem exists_defId (of : InstanceOf definition machine) (member : s ∈ machine.states) :
    ∃ d ∈ definition.states, s.defId = some d.id := by
  have listed : s.defId ∈ machine.states.map (·.defId) := List.mem_map_of_mem member
  rw [of.defIds] at listed
  obtain ⟨d, known, same⟩ := List.mem_map.mp listed
  exact ⟨d, known, same.symm⟩

theorem getStateByDefId_isSome (of : InstanceOf definition machine) {d : StateMachineDefinitionState}
    (known : d ∈ definition.states) :
    ∃ s, machine.getStateByDefId (some d.id) = some s ∧ s ∈ machine.states ∧ s.defId = some d.id := by
  have listed : some d.id ∈ machine.states.map (·.defId) := by
    rw [of.defIds]
    exact List.mem_map_of_mem known
  obtain ⟨s', member, same⟩ := List.mem_map.mp listed
  obtain ⟨s, found⟩ := Option.isSome_iff_exists.mp
    (List.find?_isSome.mpr ⟨s', member, by simpa using same⟩ : (machine.getStateByDefId (some d.id)).isSome)
  exact ⟨s, found, List.mem_of_find?_eq_some found, getStateByDefId_defId found⟩

end InstanceOf

/-- The states that are no longer new have a processor. -/
def Ran (definition : StateMachineDefinition) (machine : StateMachineInstance) : Prop :=
  ∀ s ∈ machine.states, s.status ≠ .CREATE → ∀ d ∈ definition.states, s.defId = some d.id → d.type.hasProcessor

/-- The complete states form a path, which leads to `stop`; no other state is under way. `stop` may be complete too:
then it is on the path, and the walk goes round. -/
structure Walk (definition : StateMachineDefinition) (machine : StateMachineInstance)
    (path : List StateMachineInstanceState) (stop : StateMachineInstanceState) : Prop where
  instanceOf : InstanceOf definition machine
  nodup : path.Nodup
  isPath : IsPath definition (path ++ [stop])
  complete : ∀ s, s ∈ path ↔ s ∈ machine.states ∧ s.status = .COMPLETE
  wentOn : ∀ s ∈ path, WentOn definition s
  present : stop ∈ machine.states
  others : ∀ s ∈ machine.states, s.InFrontier → s = stop
  ran : Ran definition machine

/-- What an operation leaves: the walk has stopped at a state that is new or under way, or the last state has ended it. -/
inductive Settled (definition : StateMachineDefinition) (machine : StateMachineInstance) : Prop
  | stopped {path : List StateMachineInstanceState} {stop : StateMachineInstanceState}
      (walk : Walk definition machine path stop) (incomplete : stop.status ≠ .COMPLETE)
      (status : machine.status = some (if stop.status = .ERROR then .FAILED else .ACTIVE))
  | ended {path : List StateMachineInstanceState} {last : StateMachineInstanceState} (nodup : (path ++ [last]).Nodup)
      (isPath : IsPath definition (path ++ [last]))
      (complete : ∀ s, s ∈ path ++ [last] ↔ s ∈ machine.states ∧ s.status = .COMPLETE)
      (wentOn : ∀ s ∈ path, WentOn definition s) (lastEnded : Ended definition last)
      (others : ∀ s ∈ machine.states, ¬ s.InFrontier) (status : machine.status = some .TERMINATE)

theorem status_cases (s : StateMachineInstanceState) : s.InFrontier ∨ s.status = .COMPLETE ∨ s.status = .CREATE := by
  unfold StateMachineInstanceState.InFrontier
  cases s.status <;> simp

theorem not_ended_of_wentOn {definition : StateMachineDefinition} {s : StateMachineInstanceState}
    (wentOn : WentOn definition s) : ¬ Ended definition s := by
  rintro ⟨none, -⟩
  obtain ⟨d, known, -, listed⟩ := wentOn
  obtain ⟨e, -, there⟩ := definition.closed d known _ listed
  rw [none] at there
  cases there

theorem Settled.singleFrontier {definition : StateMachineDefinition} {machine : StateMachineInstance}
    (settled : Settled definition machine) : SingleFrontier definition machine := by
  have others : ∀ s ∈ machine.states, ¬ s.InFrontier → s.status ≠ .COMPLETE → s.status = .CREATE :=
    fun s _ idle incomplete => ((status_cases s).resolve_left idle).resolve_left incomplete
  cases settled with
  | @stopped path stop walk incomplete status =>
    refine ⟨fun s member s' member' here here' => ?_, ⟨path, walk.nodup, walk.isPath.left, walk.complete,
      fun s member here => ?_⟩, others, ?_, ?_, fun s member complete => ?_⟩
    · rw [walk.others s member here, walk.others s' member' here']
    · rw [walk.others s member here]
      exact walk.isPath
    · rw [status]
      constructor
      · intro failed
        refine ⟨stop, walk.present, ?_⟩
        by_contra sound
        simp [sound] at failed
      · rintro ⟨s, member, error⟩
        rw [← walk.others s member (.inr (.inr error)), if_pos error]
    · rw [status]
      constructor
      · intro terminated
        split at terminated <;> cases terminated
      · rintro ⟨s, member, complete, ended⟩
        exact absurd ended (not_ended_of_wentOn (walk.wentOn s ((walk.complete s).mpr ⟨member, complete⟩)))
    · exact .inr (walk.wentOn s ((walk.complete s).mpr ⟨member, complete⟩))
  | @ended path last nodup isPath complete wentOn lastEnded idle status =>
    refine ⟨fun s member _ _ here => absurd here (idle s member), ⟨path ++ [last], nodup, isPath, complete,
      fun s member here => absurd here (idle s member)⟩, others, ?_, ?_, fun s member done => ?_⟩
    · rw [status]
      constructor
      · intro failed
        cases failed
      · rintro ⟨s, member, error⟩
        exact absurd (.inr (.inr error)) (idle s member)
    · obtain ⟨member, done⟩ := (complete last).mp (by simp)
      exact ⟨fun _ => ⟨last, member, done, lastEnded⟩, fun _ => status⟩
    · rcases List.mem_append.mp ((complete s).mpr ⟨member, done⟩) with before | here
      · exact .inr (wentOn s before)
      · rw [List.mem_singleton] at here
        exact .inl (here ▸ lastEnded)

section
variable {definition : StateMachineDefinition} {machine after : StateMachineInstance}
  {path : List StateMachineInstanceState} {stop new : StateMachineInstanceState}

theorem Walk.getState (walk : Walk definition machine path stop) : machine.getState (some stop.id) = some stop :=
  getState_of_state_mem walk.instanceOf.distinct walk.present

theorem Walk.mem_states (walk : Walk definition machine path stop) {s : StateMachineInstanceState}
    (member : s ∈ path ++ [stop]) : s ∈ machine.states := by
  rcases List.mem_append.mp member with before | last
  · exact ((walk.complete s).mp before).1
  · rw [List.mem_singleton] at last
    exact last ▸ walk.present

/-- The states of the path are others than the one it stops at. -/
theorem Walk.id_ne (walk : Walk definition machine path stop) (incomplete : stop.status ≠ .COMPLETE)
    {s : StateMachineInstanceState} (member : s ∈ path) : s.id ≠ stop.id := by
  intro same
  obtain ⟨there, complete⟩ := (walk.complete s).mp member
  rw [List.inj_on_of_nodup_map walk.instanceOf.distinct there walk.present same] at complete
  exact incomplete complete

theorem Walk.ran_turned (walk : Walk definition machine path stop) (turned : Turned stop.id machine new after)
    (processed : ∀ d ∈ definition.states, stop.defId = some d.id → d.type.hasProcessor) : Ran definition after := by
  intro s member touched d known same
  rcases (turned.mem_iff walk.instanceOf.distinct).mp member with rfl | ⟨-, there⟩
  · rw [turned.defId_eq walk.getState] at same
    exact processed d known same
  · exact walk.ran s there touched d known same

theorem Walk.isPath_turned (walk : Walk definition machine path stop) (turned : Turned stop.id machine new after) :
    IsPath definition (path ++ [new]) := by
  have same := turned.defId_eq walk.getState
  refine walk.isPath.replace (fun first => same.trans first) fun s leads => ?_
  obtain ⟨t, next, there⟩ := leads
  exact ⟨t, next, same.trans there⟩

/-- The state at the end of the walk gets under way. -/
theorem Walk.turn (walk : Walk definition machine path stop) (incomplete : stop.status ≠ .COMPLETE)
    (turned : Turned stop.id machine new after) (still : new.status ≠ .COMPLETE)
    (processed : ∀ d ∈ definition.states, stop.defId = some d.id → d.type.hasProcessor) :
    Walk definition after path new := by
  have distinct := walk.instanceOf.distinct
  refine ⟨walk.instanceOf.of_keys turned.keys, walk.nodup, walk.isPath_turned turned, fun s => ?_, walk.wentOn,
    (turned.mem_iff distinct).mpr (.inl rfl), fun s member here => ?_,
    walk.ran_turned turned processed⟩
  · rw [turned.mem_iff distinct]
    constructor
    · intro member
      obtain ⟨there, complete⟩ := (walk.complete s).mp member
      exact ⟨.inr ⟨walk.id_ne incomplete member, there⟩, complete⟩
    · rintro ⟨rfl | ⟨-, there⟩, complete⟩
      · exact absurd complete still
      · exact (walk.complete s).mpr ⟨there, complete⟩
  · rcases (turned.mem_iff distinct).mp member with rfl | ⟨apart, there⟩
    · rfl
    · exact absurd (walk.others s there here ▸ rfl) apart

/-- The walk after the state at its end was completed. -/
structure Completed (definition : StateMachineDefinition) (machine : StateMachineInstance)
    (path : List StateMachineInstanceState) (last : StateMachineInstanceState) : Prop where
  instanceOf : InstanceOf definition machine
  nodup : (path ++ [last]).Nodup
  isPath : IsPath definition (path ++ [last])
  complete : ∀ s, s ∈ path ++ [last] ↔ s ∈ machine.states ∧ s.status = .COMPLETE
  wentOn : ∀ s ∈ path, WentOn definition s
  idle : ∀ s ∈ machine.states, ¬ s.InFrontier
  ran : Ran definition machine

theorem Walk.completed (walk : Walk definition machine path stop) (incomplete : stop.status ≠ .COMPLETE)
    (turned : Turned stop.id machine new after) (complete : new.status = .COMPLETE)
    (processed : ∀ d ∈ definition.states, stop.defId = some d.id → d.type.hasProcessor) :
    Completed definition after path new := by
  have distinct := walk.instanceOf.distinct
  have fresh : new ∉ path := fun member => walk.id_ne incomplete member turned.id_eq
  refine ⟨walk.instanceOf.of_keys turned.keys, ?_, walk.isPath_turned turned, fun s => ?_, walk.wentOn,
    fun s member here => ?_, walk.ran_turned turned processed⟩
  · exact walk.nodup.append (List.nodup_singleton new) (by simpa using fresh)
  · rw [turned.mem_iff distinct, List.mem_append, List.mem_singleton]
    constructor
    · rintro (member | rfl)
      · obtain ⟨there, done⟩ := (walk.complete s).mp member
        exact ⟨.inr ⟨walk.id_ne incomplete member, there⟩, done⟩
      · exact ⟨.inl rfl, complete⟩
    · rintro ⟨rfl | ⟨-, there⟩, done⟩
      · exact .inr rfl
      · exact .inl ((walk.complete s).mpr ⟨there, done⟩)
  · rcases (turned.mem_iff distinct).mp member with rfl | ⟨apart, there⟩
    · simp [StateMachineInstanceState.InFrontier, complete] at here
    · exact apart (walk.others s there here ▸ rfl)

/-- It goes on with the state that the completed one leads to, whether that is new or not. -/
theorem Completed.walk (completed : Completed definition machine path stop) (wentOn : WentOn definition stop)
    {next : StateMachineInstanceState} (present : next ∈ machine.states) (leads : stop.LeadsTo next) :
    Walk definition machine (path ++ [stop]) next := by
  refine ⟨completed.instanceOf, completed.nodup, completed.isPath.extend leads, completed.complete, fun s member => ?_,
    present, fun s member here => absurd here (completed.idle s member), completed.ran⟩
  rcases List.mem_append.mp member with before | last
  · exact completed.wentOn s before
  · rw [List.mem_singleton] at last
    exact last ▸ wentOn

theorem Completed.settled (completed : Completed definition machine path stop) (ended : Ended definition stop)
    (same : after.states = machine.states) (status : after.status = some .TERMINATE) : Settled definition after :=
  .ended completed.nodup completed.isPath (by rw [same]; exact completed.complete) completed.wentOn ended
    (by rw [same]; exact completed.idle) status

end

/-! ## One visit -/

/-- A part of a visit: what returns is settled, what goes on satisfies `Next`. -/
def Settles {β : Type*} (definition : StateMachineDefinition) (Next : β → Prop) : LaunchResult ⊕ β → Prop
  | .inl result => result.2 = .ok () → Settled definition result.1.state
  | .inr next => Next next

section
variable {J : Type*} {json : RuntimeJson J} {filters : Filters J} {processors : Processors J}
  {definition : StateMachineDefinition} {env : VisitEnv} {path : List StateMachineInstanceState}

theorem andThen_settles {β : Type*} {Next : β → Prop} {result : LaunchResult}
    {next : StateMachineInstanceAggregate → LaunchResult ⊕ β}
    (continues : ∀ after, result = (after, .ok ()) → Settles definition Next (next after)) :
    Settles definition Next (andThen result next) := by
  obtain ⟨aggregate, outcome⟩ := result
  cases outcome with
  | ok => exact continues aggregate rfl
  | error e => exact nofun

/-- What a state goes on with when it was completed. -/
def Passed (definition : StateMachineDefinition) (path : List StateMachineInstanceState)
    (next : StateMachineInstanceAggregate × Option J × Option String) : Prop :=
  next.1.state.status = some .ACTIVE ∧ ∃ last, Completed definition next.1.state path last ∧
    last.nextTransition = next.2.2 ∧ WentOn definition last

theorem executeState_settles (conforming : Conforming json.toJTokens processors) {visited : Nat}
    {d : StateMachineDefinitionState} (known : d ∈ definition.states) (runs : d.type.hasProcessor)
    {aggregate : StateMachineInstanceAggregate} {s : StateMachineInstanceState}
    (walk : Walk definition aggregate.state path s) (active : aggregate.state.status = some .ACTIVE)
    (waiting : s.status = .ACTIVE ∨ s.status = .PENDING) (defId : s.defId = some d.id) :
    Settles definition (Passed definition path) (executeState json filters processors env visited d s aggregate) := by
  obtain ⟨calls, own, called⟩ := conforming.calls visited d s aggregate
  have next := conforming.next visited d s aggregate
  have ends := conforming.ends visited d s aggregate
  have quiet : Quiet s.id aggregate.state (processors visited d s aggregate).1.state := by
    rw [called]
    exact runCommands_quiet own
  unfold executeState
  generalize processors visited d s aggregate = answered at next ends quiet ⊢
  obtain ⟨after, answer⟩ := answered
  have processed : ∀ e ∈ definition.states, s.defId = some e.id → e.type.hasProcessor := by
    intro e known' same
    obtain rfl := List.inj_on_of_nodup_map definition.distinct known known' (Option.some.inj (defId.symm.trans same))
    exact runs
  -- the processor leaves the state under way
  obtain ⟨now, turned, status⟩ := quiet.2 s walk.getState
  have active' : after.state.status = some .ACTIVE := quiet.1.trans active
  have incomplete : s.status ≠ .COMPLETE := by rcases waiting with here | here <;> simp [here]
  have still : now.status ≠ .COMPLETE := by rw [status]; exact incomplete
  have walk' : Walk definition after.state path now := walk.turn incomplete turned still processed
  have defId' : now.defId = some d.id := (turned.defId_eq walk.getState).trans defId
  have processed' : ∀ e ∈ definition.states, now.defId = some e.id → e.type.hasProcessor := by
    rw [defId', ← defId]
    exact processed
  have id : now.id = s.id := turned.id_eq
  have found := turned.found
  rw [← id] at found ⊢
  cases answer with
  | block =>
    intro returned
    obtain ⟨new, blocked, pending, same⟩ := blockState_turned found (Prod.ext rfl returned)
    refine .stopped (walk'.turn still blocked (by simp [pending]) processed') (by simp [pending]) ?_
    simp only [pending, reduceCtorEq, if_false]
    exact same.trans active'
  | error exception =>
    intro returned
    obtain ⟨new, failed, error, same⟩ := errorState_turned found (Prod.ext rfl returned)
    refine .stopped (walk'.turn still failed (by simp [error]) processed') (by simp [error]) ?_
    simp only [error, if_true]
    exact same
  | «end» output =>
    dsimp only
    cases filters.transform output d.stateDataFilterOutput with
    | none => exact nofun
    | some filtered =>
      refine andThen_settles fun between completes => ?_
      obtain ⟨new, turned', complete, transition, -⟩ := completeState_turned found completes
      have completed := walk'.completed still turned' complete processed'
      intro returned
      obtain ⟨states, terminated⟩ := terminate_state (Prod.ext rfl returned)
      refine completed.settled ⟨transition, d, known, ?_, ends output rfl⟩ states terminated
      exact (turned'.defId_eq found).trans defId'
  | next output transition =>
    dsimp only
    cases filters.transform output d.stateDataFilterOutput with
    | none => exact nofun
    | some filtered =>
      refine andThen_settles fun between completes => ?_
      obtain ⟨new, turned', complete, there, same⟩ := completeState_turned found completes
      refine ⟨same.trans active', new, walk'.completed still turned' complete processed', there, d, known,
        (turned'.defId_eq found).trans defId', ?_⟩
      rw [there]
      exact next output transition rfl

/-- The state at the end of the walk is started, or reactivated, and run. -/
theorem processState_settles (conforming : Conforming json.toJTokens processors) {config : LaunchConfig J}
    {d : StateMachineDefinitionState} (known : d ∈ definition.states) (runs : d.type.hasProcessor)
    {s : StateMachineInstanceState} (walk : Walk definition config.aggregate.state path s)
    (active : config.aggregate.state.status = some .ACTIVE) (incomplete : s.status ≠ .COMPLETE)
    (defId : s.defId = some d.id) :
    Settles definition (Passed definition path) (processState json filters processors env config d s) := by
  have processed : ∀ e ∈ definition.states, s.defId = some e.id → e.type.hasProcessor := by
    intro e known' same
    obtain rfl := List.inj_on_of_nodup_map definition.distinct known known' (Option.some.inj (defId.symm.trans same))
    exact runs
  have resumed {after : StateMachineInstanceAggregate} {new : StateMachineInstanceState}
      (turned : Turned s.id config.aggregate.state new after.state) (started : new.status = .ACTIVE)
      (same : after.state.status = config.aggregate.state.status) :
      Settles definition (Passed definition path) (executeState json filters processors env config.visited d
        ((after.state.getState (some s.id)).getD s) after) := by
    rw [turned.found, Option.getD_some]
    exact executeState_settles conforming known runs (walk.turn incomplete turned (by simp [started]) processed)
      (same.trans active) (.inl started) ((turned.defId_eq walk.getState).trans defId)
  have waiting (under : s.status = .ACTIVE ∨ s.status = .PENDING) :
      Settles definition (Passed definition path) (executeState json filters processors env config.visited d
        ((config.aggregate.state.getState (some s.id)).getD s) config.aggregate) := by
    rw [walk.getState, Option.getD_some]
    exact executeState_settles conforming known runs walk active under defId
  unfold processState
  cases status : s.status with
  | CREATE =>
    dsimp only
    cases filters.transform config.input d.stateDataFilterInput with
    | none => exact nofun
    | some input =>
      refine andThen_settles fun after starts => ?_
      obtain ⟨new, turned, started, same⟩ := startState_turned walk.getState starts
      exact resumed turned started same
  | ERROR =>
    refine andThen_settles fun after reactivates => ?_
    obtain ⟨new, turned, started, same⟩ := reactivateState_turned walk.getState reactivates
    exact resumed turned started same
  | COMPLETE => exact absurd status incomplete
  | ACTIVE => exact waiting (.inl status)
  | PENDING => exact waiting (.inr status)

/-- Where a launch is: at a state of the path, or at the one after it. -/
def OnWalk (definition : StateMachineDefinition) (config : LaunchConfig J) : Prop :=
  config.aggregate.state.status = some .ACTIVE ∧ ∃ path stop, Walk definition config.aggregate.state path stop ∧
    ∃ s ∈ path ++ [stop], config.stateInstanceId = some s.id

/-- A state that was completed leads to one of the instance. -/
theorem nextVisit_settles {visited : Nat} {aggregate : StateMachineInstanceAggregate} {output : Option J}
    {s : StateMachineInstanceState} (instanceOf : InstanceOf definition aggregate.state) (wentOn : WentOn definition s)
    {Next : LaunchConfig J → Prop}
    (continues : ∀ next ∈ aggregate.state.states, s.LeadsTo next → Next ⟨visited + 1, aggregate, output, some next.id⟩) :
    Settles definition Next (nextVisit definition visited aggregate output s.nextTransition) := by
  obtain ⟨d, known, -, listed⟩ := wentOn
  obtain ⟨e, known', there⟩ := definition.closed d known _ listed
  obtain ⟨next, found, member, defId⟩ := instanceOf.getStateByDefId_isSome known'
  unfold nextVisit
  rw [there, getState_of_mem known']
  dsimp only
  rw [found]
  exact continues next member ⟨e.id, there, defId⟩

theorem visit_settles (conforming : Conforming json.toJTokens processors) {config : LaunchConfig J}
    (on : OnWalk definition config) :
    Settles definition (OnWalk definition) (visit json filters processors definition env config) := by
  obtain ⟨active, path, stop, walk, s, member, id⟩ := on
  have present := walk.mem_states member
  have found : config.aggregate.state.getState config.stateInstanceId = some s := by
    rw [id]
    exact getState_of_state_mem walk.instanceOf.distinct present
  obtain ⟨d, known, defId⟩ := walk.instanceOf.exists_defId present
  have defined : definition.getState s.defId = some d := by
    rw [defId]
    exact getState_of_mem known
  unfold visit
  simp only [active, found, defined, ne_eq, not_true_eq_false, if_false]
  by_cases complete : s.status = .COMPLETE
  · -- the state is on the path, and so is what comes after it
    have before : s ∈ path := (walk.complete s).mpr ⟨present, complete⟩
    have runs := walk.ran s present (by simp [complete]) d known defId
    rw [if_neg (by simp [runs])]
    unfold processState
    simp only [complete]
    cases json.getOutput s with
    | none => exact nofun
    | some output =>
      dsimp only
      refine nextVisit_settles walk.instanceOf (walk.wentOn s before) fun next there leads => ?_
      obtain ⟨after, follows, leads'⟩ := walk.isPath.next before
      obtain ⟨t, transition, defId⟩ := leads
      obtain ⟨t', transition', defId'⟩ := leads'
      obtain rfl : t = t' := Option.some.inj (transition.symm.trans transition')
      have present' : after ∈ config.aggregate.state.states := walk.mem_states follows
      obtain rfl := walk.instanceOf.eq_of_defId there present' (defId.trans defId'.symm)
      exact ⟨active, path, stop, walk, next, follows, rfl⟩
  · obtain rfl : s = stop := by
      rcases List.mem_append.mp member with before | last
      · exact absurd ((walk.complete s).mp before).2 complete
      · exact List.mem_singleton.mp last
    split_ifs with idle
    · -- nothing runs the state, so it is new
      have new : s.status = .CREATE := by
        by_contra touched
        simp [walk.ran s present touched d known defId] at idle
      exact fun _ => .stopped walk complete (by simp [active, new])
    · have runs : d.type.hasProcessor := by simpa using idle
      have processed : Settles definition (Passed definition path)
          (processState json filters processors env config d s) :=
        processState_settles conforming known runs walk active complete defId
      generalize processState json filters processors env config d s = answered at processed ⊢
      cases answered with
      | inl result => exact processed
      | inr passed =>
        obtain ⟨after, output, transition⟩ := passed
        obtain ⟨active', last, completed, rfl, wentOn⟩ := processed
        refine nextVisit_settles completed.instanceOf wentOn fun next there leads => ?_
        exact ⟨active', _, next, completed.walk wentOn there leads, next, by simp, rfl⟩

/-! ## Operations -/

variable {envs : Nat → VisitEnv} {fuel : Nat} {input : Option J}

theorem launch_settles (conforming : Conforming json.toJTokens processors)
    {aggregate after : StateMachineInstanceAggregate} {id : Option String}
    (on : OnWalk definition (⟨0, aggregate, input, id⟩ : LaunchConfig J))
    (returned : launch json filters processors definition envs fuel aggregate input id = some (after, .ok ())) :
    Settled definition after.state := by
  have visited (config : LaunchConfig J) (on : OnWalk definition config) :
      Settles definition (OnWalk definition)
        (visit json filters processors definition (envs config.visited) config) := visit_settles conforming on
  have returns : ∀ (config : LaunchConfig J) (result : LaunchResult), OnWalk definition config →
      visit json filters processors definition (envs config.visited) config = .inl result →
      (result.2 = .ok () → Settled definition result.1.state) := by
    intro config result on ends
    have settles := visited config on
    rw [ends] at settles
    exact settles
  have keeps : ∀ config next : LaunchConfig J, OnWalk definition config →
      visit json filters processors definition (envs config.visited) config = .inr next → OnWalk definition next := by
    intro config next on continues
    have settles := visited config on
    rw [continues] at settles
    exact settles
  exact loop_invariant returns keeps returned on rfl

/-- An instance that is not active is left as it is. -/
theorem launch_inactive {aggregate : StateMachineInstanceAggregate} {id : Option String} {result : LaunchResult}
    (inactive : aggregate.state.status ≠ some .ACTIVE)
    (returned : launch json filters processors definition envs fuel aggregate input id = some result) :
    result.1 = aggregate := by
  cases fuel with
  | zero => cases returned
  | succ fuel =>
    have stops : visit json filters processors definition (envs 0) ⟨0, aggregate, input, id⟩ =
        .inl (aggregate, .ok ()) := by
      unfold visit
      exact if_pos inactive
    have first : launch json filters processors definition envs (fuel + 1) aggregate input id =
        some (aggregate, .ok ()) := by
      simp only [launch, internalLaunch, loop, stops]
    rw [← Option.some.inj (first.symm.trans returned)]

theorem launchRoot_settles (conforming : Conforming json.toJTokens processors)
    {aggregate after : StateMachineInstanceAggregate} {stop : StateMachineInstanceState}
    (walk : Walk definition aggregate.state path stop) (active : aggregate.state.status = some .ACTIVE)
    (returned : launchRoot json filters processors definition envs fuel aggregate input = some (after, .ok ())) :
    Settled definition after.state := by
  obtain ⟨d, known, same⟩ := List.mem_map.mp definition.rooted
  obtain ⟨root, found, member, defId⟩ := walk.instanceOf.getStateByDefId_isSome known
  rw [same] at found defId
  -- the root is where the path begins
  obtain ⟨first, head⟩ : ∃ first, (path ++ [stop]).head? = some first := by cases path <;> simp
  have first_mem : first ∈ path ++ [stop] := List.mem_of_head? head
  have first_root := walk.isPath.2 first head
  obtain rfl := walk.instanceOf.eq_of_defId member (walk.mem_states first_mem) (defId.trans first_root.symm)
  unfold launchRoot at returned
  rw [found] at returned
  exact launch_settles conforming ⟨active, path, stop, walk, root, first_mem, rfl⟩ returned

theorem launchRoot_inactive {aggregate after : StateMachineInstanceAggregate}
    (inactive : aggregate.state.status ≠ some .ACTIVE)
    (returned : launchRoot json filters processors definition envs fuel aggregate input = some (after, .ok ())) :
    after = aggregate := by
  unfold launchRoot at returned
  split at returned
  · cases (Prod.mk.inj (Option.some.inj returned)).2
  · exact launch_inactive inactive returned

theorem Walk.of_states {machine after : StateMachineInstance} {stop : StateMachineInstanceState}
    (walk : Walk definition machine path stop) (same : after.states = machine.states) : Walk definition after path stop := by
  have keys : keys after = keys machine := by rw [keys, keys, same]
  refine ⟨walk.instanceOf.of_keys keys, walk.nodup, walk.isPath, ?_, walk.wentOn, ?_, ?_, ?_⟩
  · rw [same]
    exact walk.complete
  · rw [same]
    exact walk.present
  · rw [same]
    exact walk.others
  · unfold Ran
    rw [same]
    exact walk.ran

/-- Reactivating makes a failed instance active and does nothing else to it. -/
theorem reactivate_state {aggregate after : StateMachineInstanceAggregate} {env : InstanceEnv}
    (reactivated : StateMachineInstanceAggregate.reactivate json.toJTokens aggregate env = (after, .ok ())) :
    aggregate.state.status = some .FAILED ∧ after.state.states = aggregate.state.states ∧
      after.state.status = some .ACTIVE := by
  have handled := handle_of_emit reactivated
  simp only [StateMachineInstance.handle] at handled
  split at handled
  · cases (Prod.mk.inj handled).2
  next failed =>
    rw [← (Prod.mk.inj handled).1]
    exact ⟨not_not.mp failed, rfl, rfl⟩

theorem Settled.operated {before after : StateMachineInstanceAggregate} (settled : Settled definition before.state)
    (operated : Operated json definition before after) : Settled definition after.state := by
  cases operated with
  | launch filters conforming returned =>
    by_cases active : before.state.status = some .ACTIVE
    · cases settled with
      | stopped walk incomplete status => exact launchRoot_settles conforming walk active returned
      | ended nodup isPath complete wentOn lastEnded others status =>
        rw [status] at active
        cases active
    · rw [launchRoot_inactive active returned]
      exact settled
  | refuse refused =>
    rw [tryConsumeEvt_refused refused]
    exact settled
  | consume consumed filters conforming returned =>
    obtain ⟨s, found, waiting, quiet⟩ := tryConsumeEvt_quiet consumed
    have member := List.mem_of_find?_eq_some found
    have here : s.InFrontier := waiting.imp_right .inl
    cases settled with
    | stopped walk incomplete status =>
      obtain rfl := walk.others s member here
      obtain ⟨new, turned, same⟩ := quiet.2 s walk.getState
      have touched : s.status ≠ .CREATE := by rcases waiting with under | under <;> simp [under]
      have walk' := walk.turn incomplete turned (by rw [same]; exact incomplete) (walk.ran s member touched)
      have active : before.state.status = some .ACTIVE := by
        rcases waiting with under | under <;> simp [status, under]
      refine launch_settles conforming ⟨quiet.1.trans active, _, new, walk', new, by simp, ?_⟩ returned
      rw [getState_id found, turned.id_eq]
    | ended nodup isPath complete wentOn lastEnded others status => exact absurd here (others s member)
  | reactivate reactivated filters conforming returned =>
    obtain ⟨failed, same, active⟩ := reactivate_state reactivated
    cases settled with
    | stopped walk incomplete status => exact launchRoot_settles conforming (walk.of_states same) active returned
    | ended nodup isPath complete wentOn lastEnded others status =>
      rw [status] at failed
      cases failed

theorem settled_instanciate (json : RuntimeJson J) (definition : StateMachineDefinition) (env : InstanceEnv)
    (workflowDef : WorkflowDef) {envs : StateMachineDefinitionState → InstanceEnv}
    (fresh : ∀ d ∈ definition.states, ∀ e ∈ definition.states, (envs d).secondGuid = (envs e).secondGuid → d = e) :
    Settled definition (instanciate json definition env workflowDef envs).state := by
  obtain ⟨active, states⟩ : (instanciate json definition env workflowDef envs).state.status = some .ACTIVE ∧ _ :=
    instanciate_state env workflowDef envs
  have instanceOf : InstanceOf definition (instanciate json definition env workflowDef envs).state := by
    refine ⟨distinct_instanciate env workflowDef fresh, ?_⟩
    rw [states, List.map_map]
    rfl
  have new : ∀ s ∈ (instanciate json definition env workflowDef envs).state.states, s.status = .CREATE := by
    rw [states]
    intro s member
    obtain ⟨d, -, rfl⟩ := List.mem_map.mp member
    rfl
  obtain ⟨d, known, same⟩ := List.mem_map.mp definition.rooted
  obtain ⟨root, -, member, defId⟩ := instanceOf.getStateByDefId_isSome known
  rw [same] at defId
  refine .stopped ⟨instanceOf, List.nodup_nil, pathFrom_singleton.mpr defId, fun s => ?_, nofun, member,
    fun s there here => ?_, fun s there touched => absurd (new s there) touched⟩ (by simp [new root member])
    (by simp [new root member, active])
  · constructor
    · nofun
    · rintro ⟨there, complete⟩
      rw [new s there] at complete
      cases complete
  · simp [StateMachineInstanceState.InFrontier, new s there] at here

theorem settled_of_operated (json : RuntimeJson J) (definition : StateMachineDefinition) (env : InstanceEnv)
    (workflowDef : WorkflowDef) {envs : StateMachineDefinitionState → InstanceEnv}
    (fresh : ∀ d ∈ definition.states, ∀ e ∈ definition.states, (envs d).secondGuid = (envs e).secondGuid → d = e)
    {after : StateMachineInstanceAggregate}
    (operated : Relation.ReflTransGen (Operated json definition) (instanciate json definition env workflowDef envs) after) :
    Settled definition after.state := by
  induction operated with
  | refl => exact settled_instanciate json definition env workflowDef fresh
  | tail _ operated ih => exact ih.operated operated

/-- **An instance has a single frontier.** Whatever is done to it, in any order, between two operations one state at
most is under way, and the complete states are those on the path to it. -/
theorem single_frontier (json : RuntimeJson J) (definition : StateMachineDefinition) (env : InstanceEnv)
    (workflowDef : WorkflowDef) {envs : StateMachineDefinitionState → InstanceEnv}
    (fresh : ∀ d ∈ definition.states, ∀ e ∈ definition.states, (envs d).secondGuid = (envs e).secondGuid → d = e)
    {after : StateMachineInstanceAggregate}
    (operated : Relation.ReflTransGen (Operated json definition) (instanciate json definition env workflowDef envs) after) :
    SingleFrontier definition after.state :=
  (settled_of_operated json definition env workflowDef fresh operated).singleFrontier

end

/-- Processors that go on, or end, as the first flow of the state says. -/
def flowing : Processors Unit := fun _ d _ aggregate =>
  (aggregate, match d.flows.head? with
    | none => .block
    | some flow => if flow.isEnd then .end (some ()) else .next (some ()) flow.transition)

theorem conforming_flowing : Conforming emptyObjects.toJTokens flowing := by
  refine ⟨fun n d s aggregate => ⟨[], by simp, rfl⟩, fun n d s aggregate output transition answer => ?_,
    fun n d s aggregate output answer => ?_⟩
  · simp only [flowing] at answer
    split at answer
    · cases answer
    next flow first =>
      split at answer
      · cases answer
      next goes =>
        cases answer
        exact List.mem_map.mpr ⟨flow, List.mem_filter.mpr ⟨List.mem_of_head? first, by simpa using goes⟩, rfl⟩
  · simp only [flowing] at answer
    split at answer
    · cases answer
    next flow first =>
      split at answer
      next ends => exact ⟨flow, List.mem_of_head? first, ends⟩
      · cases answer

/-- Processors that fail. -/
def failing : Processors Unit := fun _ _ _ aggregate => (aggregate, .error none)

theorem conforming_failing : Conforming emptyObjects.toJTokens failing := by
  refine ⟨fun n d s aggregate => ⟨[], by simp, rfl⟩, fun n d s aggregate output transition answer => ?_,
    fun n d s aggregate output answer => ?_⟩
  · simp [failing] at answer
  · simp [failing] at answer

/-- A new instance, with the ids of the states for GUIDs. -/
def newInstance (definition : StateMachineDefinition) : StateMachineInstanceAggregate :=
  instanciate emptyObjects definition ⟨"", "", 0⟩ noDefinition fun d => ⟨"", d.id, 0⟩

/-- It is launched with some processors. -/
def launched (processors : Processors Unit) (before : StateMachineInstanceAggregate) : Option LaunchResult :=
  launchRoot emptyObjects noFilters processors twoInjects
    (fun _ => ⟨⟨"", "", 0⟩, ⟨"", "", 0⟩, ⟨"", "", 0⟩, ⟨"", "", 0⟩⟩) 3 before (some ())

/-- The instance after it has failed in its first state, and when it is active again. -/
def failedInstance : StateMachineInstanceAggregate :=
  ((launched failing (newInstance twoInjects)).map Prod.fst).getD (newInstance twoInjects)

def reactivatedInstance : StateMachineInstanceAggregate :=
  (StateMachineInstanceAggregate.reactivate emptyObjects.toJTokens failedInstance ⟨"", "", 0⟩).1

/-- It fails in its first state and, reactivated, comes to its end. -/
theorem single_frontier_reactivated :
    ∃ after, Relation.ReflTransGen (Operated emptyObjects twoInjects) (newInstance twoInjects) after ∧
      after.state.status = some .TERMINATE ∧ SingleFrontier twoInjects after.state := by
  have fresh : ∀ d ∈ twoInjects.states, ∀ e ∈ twoInjects.states, d.id = e.id → d = e :=
    fun d known e known' same => List.inj_on_of_nodup_map twoInjects.distinct known known' same
  have fails : launched failing (newInstance twoInjects) = some (failedInstance, .ok ()) := rfl
  have reactivates : StateMachineInstanceAggregate.reactivate emptyObjects.toJTokens failedInstance ⟨"", "", 0⟩ =
      (reactivatedInstance, .ok ()) := rfl
  obtain ⟨after, ends, terminated⟩ : ∃ after, launched flowing reactivatedInstance = some (after, .ok ()) ∧
      after.state.status = some .TERMINATE := ⟨_, rfl, rfl⟩
  have operated : Relation.ReflTransGen (Operated emptyObjects twoInjects) (newInstance twoInjects) after :=
    .tail (.single (.launch noFilters conforming_failing fails)) (.reactivate reactivates noFilters conforming_flowing ends)
  exact ⟨after, operated, terminated, single_frontier emptyObjects twoInjects _ _ fresh operated⟩

end FaasNet.StateMachine
