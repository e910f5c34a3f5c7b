import Mathlib.Data.List.Chain
import Mathlib.Data.List.Induction
import FaasNet.Lib.Lists
import FaasNet.StateMachine.InstanceReplay

/-!
# Status histories

An entry of a status history is closed when the next one is added. The entry to close is found by its start: the
instance takes the last one of an ascending order, a state the first one of a descending order. Both orders are stable,
so among entries that started together the instance closes the one added last and a state the one added first.
-/

namespace FaasNet.StateMachine

open FaasNet.Lib FaasNet.Domain

namespace History

section
variable {Status : Type}

/-- The entries follow one another: only the last one is open, the others end where the next one starts, and the
status is that of the last one. -/
structure Chained (histories : List (History Status)) (status : Status) : Prop where
  linked : histories.IsChain fun entry next => entry.endDateTime = some next.startDateTime
  unfinished : ∀ k entry, histories[k]? = some entry → (entry.endDateTime = none ↔ k + 1 = histories.length)
  current : histories.getLast?.map (·.status) = some status

/-- No entry but the last started as late as the last one. -/
def StartedLast (histories : List (History Status)) : Prop :=
  ∀ last ∈ histories.getLast?, ∀ entry ∈ histories.dropLast, entry.startDateTime < last.startDateTime

instance (histories : List (History Status)) : Decidable (StartedLast histories) :=
  inferInstanceAs (Decidable (∀ last ∈ histories.getLast?, _))

/-- The entries are in the order of their starts, all of them before `now`. -/
def Ordered (histories : List (History Status)) (now : DateTime) : Prop :=
  (histories.map (·.startDateTime) ++ [now]).Pairwise (· ≤ ·)

variable {histories before : List (History Status)} {last entry : History Status} {status : Status} {now : DateTime}

theorem linked_concat_open (linked : (before ++ [last]).IsChain fun entry next => entry.endDateTime = some next.startDateTime)
    (finished : last.endDateTime = none) (k : Nat) (found : (before ++ [last])[k]? = some entry) :
    entry.endDateTime = none ↔ k + 1 = (before ++ [last]).length := by
  constructor
  · intro unfinished
    by_contra early
    have inside : k + 1 < (before ++ [last]).length := by
      obtain ⟨small, -⟩ := List.getElem?_eq_some_iff.mp found
      omega
    have next := List.isChain_iff_getElem.mp linked k inside
    obtain ⟨small, rfl⟩ := List.getElem?_eq_some_iff.mp found
    rw [unfinished] at next
    cases next
  · intro final
    have last_eq : k = before.length := by simpa using final
    subst last_eq
    obtain rfl : last = entry := by simpa using found
    exact finished

/-- A chain ends with one open entry, which has the status. -/
theorem chained_concat_iff : Chained (before ++ [last]) status ↔
    (before ++ [last]).IsChain (fun entry next => entry.endDateTime = some next.startDateTime) ∧
      last.endDateTime = none ∧ last.status = status := by
  constructor
  · rintro ⟨linked, unfinished, current⟩
    refine ⟨linked, (unfinished before.length last (by simp)).mpr (by simp), by simpa using current⟩
  · rintro ⟨linked, finished, current⟩
    exact ⟨linked, fun k entry => linked_concat_open linked finished k, by simpa using current⟩

/-- One open entry is a chain. -/
theorem chained_singleton (finished : last.endDateTime = none) : Chained [last] last.status :=
  @chained_concat_iff Status [] last last.status |>.mpr ⟨List.isChain_singleton _, finished, rfl⟩

/-- A chain has a last entry. -/
theorem Chained.exists_concat (chained : Chained histories status) : ∃ before last, histories = before ++ [last] := by
  rcases List.eq_nil_or_concat histories with rfl | ⟨before, last, split⟩
  · simpa using chained.current
  · exact ⟨before, last, by simpa using split⟩

/-! ### The place of the entry to close -/

/-- In an ascending order the entry added last stays last. -/
theorem lastAscending_concat (ordered : (before ++ [last]).Pairwise fun a b => a.startDateTime ≤ b.startDateTime) :
    lastAscending (before ++ [last]) = some before.length := by
  have indexed : (before ++ [last]).zipIdx.Pairwise fun a b => a.1.startDateTime ≤ b.1.startDateTime := by
    rwa [← List.zipIdx_map_fst 0 (before ++ [last]), List.pairwise_map] at ordered
  rw [lastAscending, indexed.insertionSort_eq, List.zipIdx_append]
  simp

/-- The newest entry is the last one, if the others were before it. -/
theorem firstDescending_concat_of_later (later : ∀ entry ∈ before, entry.startDateTime < last.startDateTime) :
    firstDescending (before ++ [last]) = some before.length := by
  rw [firstDescending, List.zipIdx_append, List.zipIdx_singleton, head?_descending_concat]
  cases first : (descending (fun h => h.1.startDateTime) before.zipIdx).head? with
  | none => simp
  | some found =>
    have inside : found.1 ∈ before := List.fst_mem_of_mem_zipIdx (mem_descending.mp (List.mem_of_mem_head? first))
    simp [later found.1 inside]

/-- In a descending order an entry that started together with the last one, and was added before it, stands before it. -/
theorem firstDescending_concat_of_together (inside : entry ∈ before) (together : last.startDateTime ≤ entry.startDateTime) :
    ∃ k < before.length, firstDescending (before ++ [last]) = some k := by
  rw [firstDescending, List.zipIdx_append, List.zipIdx_singleton, head?_descending_concat]
  obtain ⟨k, small, rfl⟩ := List.getElem_of_mem inside
  have listed : (before[k], k) ∈ before.zipIdx := List.mk_mem_zipIdx_iff_getElem?.mpr (by simp)
  obtain ⟨found, first, highest⟩ :=
    find?_descending_of_mem (fun h : History Status × Nat => h.1.startDateTime) (fun _ => true) listed rfl
  have head : (descending (fun h => h.1.startDateTime) before.zipIdx).head? = some found := by
    rwa [← List.head?_filter, List.filter_true] at first
  have late : last.startDateTime ≤ found.1.startDateTime := together.trans (highest.highest _ listed rfl)
  refine ⟨found.2, List.snd_lt_of_mem_zipIdx highest.mem, ?_⟩
  simp [head, not_lt.mpr late]

/-! ### Closing an entry and adding the next -/

theorem map_startDateTime_endAt (histories : List (History Status)) (place : Option Nat) (endDateTime : DateTime) :
    (endAt histories place endDateTime).map (·.startDateTime) = histories.map (·.startDateTime) := by
  cases place with
  | none => rfl
  | some k =>
    refine List.ext_getElem? fun j => ?_
    by_cases here : k = j <;> cases found : histories[j]? <;> simp [endAt, here, found]

theorem endAt_last (before : List (History Status)) (last : History Status) (endDateTime : DateTime) :
    endAt (before ++ [last]) (some before.length) endDateTime = before ++ [{ last with endDateTime := some endDateTime }] := by
  have inside : before.length < (before ++ [last]).length := by simp
  simp [endAt, List.modify_eq_take_cons_drop inside]

/-- Closing the last entry keeps the chain. -/
theorem Chained.endAt_last (chained : Chained (before ++ [last]) status) (new : History Status) (unended : new.endDateTime = none) :
    Chained (endAt (before ++ [last]) (some before.length) new.startDateTime ++ [new]) new.status := by
  obtain ⟨linked, -, -⟩ := chained_concat_iff.mp chained
  rw [History.endAt_last, chained_concat_iff]
  refine ⟨?_, unended, rfl⟩
  rw [List.append_assoc, List.singleton_append, List.isChain_append_cons_cons]
  refine ⟨?_, rfl, by simp⟩
  rw [List.isChain_append] at linked ⊢
  refine ⟨linked.1, by simp, fun entry inside next => ?_⟩
  rintro ⟨⟩
  exact linked.2.2 entry inside last rfl

/-- Closing another entry leaves the last one open, and it is not the last any more. -/
theorem not_chained_endAt {k : Nat} (early : k < before.length) (finished : last.endDateTime = none) (new : History Status)
    (endDateTime : DateTime) : ¬ Chained (endAt (before ++ [last]) (some k) endDateTime ++ [new]) status := by
  intro chained
  have kept : (endAt (before ++ [last]) (some k) endDateTime ++ [new])[before.length]? = some last := by
    rw [List.getElem?_append_left (by simp), endAt, Option.elim_some, List.getElem?_modify]
    simp [early.ne]
  have final := (chained.unfinished before.length last kept).mp finished
  simp at final

/-- The entries are in the order of their times. -/
theorem Ordered.pairwise (ordered : Ordered histories now) :
    histories.Pairwise fun a b => a.startDateTime ≤ b.startDateTime :=
  List.pairwise_map.mp (List.pairwise_append.mp ordered).1

theorem Ordered.later (ordered : Ordered histories now) {next : DateTime} (after : now ≤ next) : Ordered histories next := by
  obtain ⟨starts, -, before⟩ := List.pairwise_append.mp ordered
  refine List.pairwise_append.mpr ⟨starts, by simp, fun start inside time same => ?_⟩
  obtain rfl : time = next := by simpa using same
  exact (before start inside now (by simp)).trans after

/-- An entry of the present keeps the order. -/
theorem Ordered.endAt (ordered : Ordered histories now) (place : Option Nat) (new : History Status) (added : new.startDateTime = now) :
    Ordered (endAt histories place now ++ [new]) now := by
  have starts : (History.endAt histories place now ++ [new]).map (·.startDateTime) = histories.map (·.startDateTime) ++ [now] := by
    simp [map_startDateTime_endAt, added]
  rw [Ordered, starts]
  obtain ⟨-, -, before⟩ := List.pairwise_append.mp ordered
  refine List.pairwise_append.mpr ⟨ordered, by simp, fun start inside time same => ?_⟩
  obtain rfl : time = now := by simpa using same
  rcases List.mem_append.mp inside with earlier | same
  · exact before start earlier time (by simp)
  · exact le_of_eq (by simpa using same)

end

end History

/-! ## One change of status -/

section
variable {machine : StateMachineInstance} {state : StateMachineInstanceState} {now : DateTime}

/-- A state closes its last entry exactly when no other started as late. -/
theorem StateMachineInstanceState.chained_applyStatus_iff (chained : History.Chained state.histories state.status)
    (status : StateMachineInstanceStateStatus) (startDateTime : DateTime) (value : Option String) :
    History.Chained (state.applyStatus status startDateTime value).histories status ↔
      History.StartedLast state.histories := by
  obtain ⟨before, last, split⟩ := chained.exists_concat
  rw [split] at chained
  simp only [applyStatus, split, History.StartedLast, List.getLast?_concat, List.dropLast_concat]
  constructor
  · intro after member inside entry earlier
    obtain rfl : last = member := by simpa using inside
    by_contra together
    obtain ⟨k, early, place⟩ := History.firstDescending_concat_of_together earlier (not_lt.mp together)
    rw [place] at after
    exact History.not_chained_endAt early (History.chained_concat_iff.mp chained).2.1 _ _ after
  · intro later
    rw [History.firstDescending_concat_of_later (later last rfl)]
    exact chained.endAt_last { status, startDateTime, data := value } rfl

namespace StateMachineInstance

/-- The histories of the instance and of all its states are chains. -/
structure Chained (machine : StateMachineInstance) : Prop where
  whole : ∃ status, machine.status = some status ∧ History.Chained machine.histories status
  each : ∀ state ∈ machine.states, History.Chained state.histories state.status

/-- An instance always closes its last entry. -/
theorem chained_updateState {status : StateMachineInstanceStatus} (chained : History.Chained machine.histories status)
    (ordered : History.Ordered machine.histories now) (next : StateMachineInstanceStatus) :
    History.Chained (machine.updateState now next).histories next := by
  obtain ⟨before, last, split⟩ := chained.exists_concat
  rw [split] at chained
  have sorted := ordered.pairwise
  rw [split] at sorted
  simp only [updateState, split, History.lastAscending_concat sorted]
  exact chained.endAt_last { status := next, startDateTime := now } rfl

/-- The states that are there before keep a property that the changed one has exactly when all have it. -/
theorem forall_modifyState_iff {Q : StateMachineInstanceState → Prop} (all : ∀ state ∈ machine.states, Q state)
    {stateId : Option String} (found : machine.getState stateId = some state)
    (change : StateMachineInstanceState → StateMachineInstanceState) :
    (∀ state ∈ (machine.modifyState stateId change).states, Q state) ↔ Q (change state) := by
  constructor
  · exact fun after => after (change state) (mem_modifyFirst_of_find? found)
  · intro changed other member
    rcases mem_modifyFirst member with there | ⟨old, first, rfl⟩
    · exact all other there
    · obtain rfl : state = old := by simpa [getState, first] using found.symm
      exact changed

/-- A list of states in which every state has the histories and the status of one that was there keeps what is said of
them. -/
theorem chained_of_kept {states : List StateMachineInstanceState}
    (each : ∀ state ∈ machine.states, History.Chained state.histories state.status)
    (kept : ∀ state ∈ states, ∃ old ∈ machine.states, state.histories = old.histories ∧ state.status = old.status) :
    ∀ state ∈ states, History.Chained state.histories state.status := by
  intro state member
  obtain ⟨old, there, histories, status⟩ := kept state member
  rw [histories, status]
  exact each old there

/-- A change that leaves the history alone keeps the chains. -/
theorem kept_modifyState (stateId : Option String) {change : StateMachineInstanceState → StateMachineInstanceState}
    (quiet : ∀ state, machine.getState stateId = some state →
      (change state).histories = state.histories ∧ (change state).status = state.status) :
    ∀ state ∈ (machine.modifyState stateId change).states,
      ∃ old ∈ machine.states, state.histories = old.histories ∧ state.status = old.status := by
  intro state member
  rcases mem_modifyFirst member with there | ⟨old, first, rfl⟩
  · exact ⟨state, there, rfl, rfl⟩
  · exact ⟨old, List.mem_of_find?_eq_some first, quiet old first⟩

end StateMachineInstance

end

/-! ## What a command changes -/

namespace StateMachineInstanceAggregate

section
variable {J : Type*} (json : JTokens J)

/-- The state to whose histories a command adds an entry. -/
def changedState (machine : StateMachineInstance) : InstanceCommand J → Option StateMachineInstanceState
  | .startState stateId input =>
    (json.get? (input.map json.toText)).join.bind fun _ => machine.getState stateId
  | .completeState stateId output _ => (json.get? (output.map json.toText)).bind fun _ => machine.getState stateId
  | .blockState stateId => (machine.getState stateId).filter (·.status ≠ .PENDING)
  | .errorState stateId _ => machine.getState stateId
  | .reactivateState stateId => machine.getState stateId
  | _ => none

/-- The states after a command, at the time of its event: one is added, or one gets another status, or none does. -/
inductive StatesAfter (machine : StateMachineInstance) (now : DateTime) :
    Option StateMachineInstanceState → List StateMachineInstanceState → Prop
  | kept {states : List StateMachineInstanceState}
      (same : ∀ state ∈ states, ∃ old ∈ machine.states, state.histories = old.histories ∧ state.status = old.status) :
      StatesAfter machine now none states
  | added (id : String) (defId : Option String) : StatesAfter machine now none (machine.states ++ [.create id defId now])
  | changed {stateId : Option String} {state : StateMachineInstanceState}
      {change : StateMachineInstanceState → StateMachineInstanceState} (status : StateMachineInstanceStateStatus)
      (value : Option String) (found : machine.getState stateId = some state)
      (histories : (change state).histories = (state.applyStatus status now value).histories)
      (current : (change state).status = status) :
      StatesAfter machine now (some state) (machine.modifyState stateId change).states

/-- The histories of the instance after a command: they are what they were, or the status was changed. -/
def WholeAfter (machine : StateMachineInstance) (now : DateTime) (after : StateMachineInstance) : Prop :=
  after.histories = machine.histories ∧ after.status = machine.status ∨
    ∃ status, after.histories = (machine.updateState now status).histories ∧ after.status = some status

variable {json} {aggregate : StateMachineInstanceAggregate} {env : InstanceEnv}

/-- Whether the handler throws or not, its changes stay. -/
theorem state_emit (payload : InstanceEvent) :
    (emit json aggregate env payload).1.state =
      (aggregate.state.handle json { id := env.newGuid, aggregateId := aggregate.state.id, payload }).1 := by
  unfold emit
  dsimp only
  split <;> simp_all

theorem StatesAfter.same (machine : StateMachineInstance) (now : DateTime) : StatesAfter machine now none machine.states :=
  .kept fun state member => ⟨state, member, rfl, rfl⟩

theorem WholeAfter.same (machine : StateMachineInstance) (now : DateTime) : WholeAfter machine now machine :=
  .inl ⟨rfl, rfl⟩

/-- A change of a state leaves the history of the instance alone. -/
theorem onState_whole (machine : StateMachineInstance) (stateId : Option String)
    (change : StateMachineInstanceState → StateMachineInstanceState) :
    (machine.onState stateId change).1.histories = machine.histories ∧
      (machine.onState stateId change).1.status = machine.status := by
  unfold StateMachineInstance.onState
  split <;> exact ⟨rfl, rfl⟩

/-- A handler that changes the status of the state it finds. -/
theorem onState_after (machine : StateMachineInstance) (now : DateTime) (stateId : Option String)
    {change : StateMachineInstanceState → StateMachineInstanceState} (status : StateMachineInstanceStateStatus)
    (value : Option String) (histories : ∀ state, (change state).histories = (state.applyStatus status now value).histories)
    (current : ∀ state, (change state).status = status) :
    StatesAfter machine now (machine.getState stateId) (machine.onState stateId change).1.states := by
  unfold StateMachineInstance.onState
  cases found : machine.getState stateId with
  | none => exact .same machine now
  | some state => exact .changed status value found (histories state) (current state)

/-- A handler that changes something else of the state it finds. -/
theorem onState_quiet (machine : StateMachineInstance) (now : DateTime) (stateId : Option String)
    {change : StateMachineInstanceState → StateMachineInstanceState}
    (quiet : ∀ state, (change state).histories = state.histories ∧ (change state).status = state.status) :
    StatesAfter machine now none (machine.onState stateId change).1.states := by
  unfold StateMachineInstance.onState
  split
  next => exact .same machine now
  next => exact .kept (StateMachineInstance.kept_modifyState stateId fun state _ => quiet state)

/-- Starting changes the history of the state at most. -/
theorem startState_after (stateId : Option String) (input : Option J) :
    StatesAfter aggregate.state env.utcNow (changedState json aggregate.state (.startState stateId input))
        (startState json aggregate env stateId input).1.state.states ∧
      WholeAfter aggregate.state env.utcNow (startState json aggregate env stateId input).1.state := by
  rw [startState, state_emit]
  simp only [StateMachineInstance.handle, changedState]
  cases json.get? (input.map json.toText) with
  | none => exact ⟨.same _ _, .same _ _⟩
  | some read =>
    cases read with
    | none => exact ⟨.same _ _, .same _ _⟩
    | some token => exact ⟨onState_after _ _ _ .ACTIVE none (fun _ => rfl) fun _ => rfl, .inl (onState_whole _ _ _)⟩

/-- Completing changes the history of the state at most. -/
theorem completeState_after (stateId : Option String) (output : Option J) (nextTransition : Option String) :
    StatesAfter aggregate.state env.utcNow (changedState json aggregate.state (.completeState stateId output nextTransition))
        (completeState json aggregate env stateId output nextTransition).1.state.states ∧
      WholeAfter aggregate.state env.utcNow (completeState json aggregate env stateId output nextTransition).1.state := by
  rw [completeState, state_emit]
  simp only [StateMachineInstance.handle, changedState]
  cases json.get? (output.map json.toText) with
  | none => exact ⟨.same _ _, .same _ _⟩
  | some read => exact ⟨onState_after _ _ _ .COMPLETE none (fun _ => rfl) fun _ => rfl, .inl (onState_whole _ _ _)⟩

/-- Blocking changes the history of the state at most. -/
theorem blockState_after (stateId : Option String) :
    StatesAfter aggregate.state env.utcNow (changedState json aggregate.state (.blockState stateId))
        (blockState json aggregate env stateId).1.state.states ∧
      WholeAfter aggregate.state env.utcNow (blockState json aggregate env stateId).1.state := by
  rw [blockState, state_emit]
  refine ⟨?_, .inl (onState_whole _ _ _)⟩
  simp only [StateMachineInstance.handle, changedState, StateMachineInstance.onState]
  cases found : aggregate.state.getState stateId with
  | none => exact .same _ _
  | some state =>
    by_cases pending : state.status = .PENDING
    · -- a state that is PENDING is left as it is
      simp only [Option.filter, pending, ne_eq, not_true_eq_false, decide_false, Bool.false_eq_true, if_false]
      refine .kept (StateMachineInstance.kept_modifyState stateId fun other same => ?_)
      obtain rfl : state = other := Option.some.inj (found.symm.trans same)
      simp [pending]
    · simp only [Option.filter, ne_eq, pending, not_false_eq_true, decide_true, if_true]
      exact .changed .PENDING none found (by simp [pending, StateMachineInstanceState.block])
        (by simp [pending, StateMachineInstanceState.block, StateMachineInstanceState.applyStatus])

/-- A failure changes the histories of the state and of the instance. -/
theorem errorState_after (stateId exception : Option String) :
    StatesAfter aggregate.state env.utcNow (changedState json aggregate.state (.errorState stateId exception))
        (errorState json aggregate env stateId exception).1.state.states ∧
      WholeAfter aggregate.state env.utcNow (errorState json aggregate env stateId exception).1.state := by
  rw [errorState, state_emit]
  obtain ⟨histories, status⟩ := onState_whole (aggregate.state.updateState env.utcNow .FAILED) stateId
    (·.error exception env.utcNow)
  refine ⟨?_, .inr ⟨.FAILED, histories, status⟩⟩
  simp only [StateMachineInstance.handle, changedState, StateMachineInstance.onState,
    StateMachineInstance.getState_updateState]
  cases found : aggregate.state.getState stateId with
  | none => exact .same _ _
  | some state => exact .changed .ERROR exception found rfl rfl

/-- Listening changes no history. -/
theorem listened_after (stateId evtName evtSource evtType topic : Option String) :
    StatesAfter aggregate.state env.utcNow none
        (emit json aggregate env (.stateEvtListened stateId evtName evtSource evtType topic)).1.state.states ∧
      WholeAfter aggregate.state env.utcNow
        (emit json aggregate env (.stateEvtListened stateId evtName evtSource evtType topic)).1.state := by
  rw [state_emit]
  exact ⟨onState_quiet _ _ _ fun _ => ⟨rfl, rfl⟩, .inl (onState_whole _ _ _)⟩

/-- Consuming changes no history. -/
theorem consumed_after (stateId evtSource evtType input : Option String) :
    StatesAfter aggregate.state env.utcNow none
        (emit json aggregate env (.stateEvtConsumed stateId evtSource evtType input)).1.state.states ∧
      WholeAfter aggregate.state env.utcNow
        (emit json aggregate env (.stateEvtConsumed stateId evtSource evtType input)).1.state := by
  rw [state_emit]
  simp only [StateMachineInstance.handle]
  split
  next => exact ⟨.same _ _, .same _ _⟩
  next => exact ⟨.kept (StateMachineInstance.kept_modifyState _ fun _ _ => ⟨rfl, rfl⟩), .inl ⟨rfl, rfl⟩⟩

/-- Processing changes no history. -/
theorem processEvent_after (stateId evtName output : Option String) :
    StatesAfter aggregate.state env.utcNow none (processEvent json aggregate env stateId evtName output).1.state.states ∧
      WholeAfter aggregate.state env.utcNow (processEvent json aggregate env stateId evtName output).1.state := by
  rw [processEvent, state_emit]
  simp only [StateMachineInstance.handle]
  split
  next => exact ⟨.same _ _, .same _ _⟩
  next => exact ⟨.kept (StateMachineInstance.kept_modifyState _ fun _ _ => ⟨rfl, rfl⟩), .inl ⟨rfl, rfl⟩⟩

/-- A reactivation changes the history of the instance at most. -/
theorem reactivate_after :
    StatesAfter aggregate.state env.utcNow none (reactivate json aggregate env).1.state.states ∧
      WholeAfter aggregate.state env.utcNow (reactivate json aggregate env).1.state := by
  rw [reactivate, state_emit]
  simp only [StateMachineInstance.handle]
  split
  next => exact ⟨.same _ _, .same _ _⟩
  next => exact ⟨.same _ _, .inr ⟨.ACTIVE, rfl, rfl⟩⟩

/-- The end changes the history of the instance at most. -/
theorem terminate_after (output : Option J) :
    StatesAfter aggregate.state env.utcNow none (terminate json aggregate env output).1.state.states ∧
      WholeAfter aggregate.state env.utcNow (terminate json aggregate env output).1.state := by
  rw [terminate, state_emit]
  simp only [StateMachineInstance.handle]
  split <;> exact ⟨.same _ _, .inr ⟨.TERMINATE, rfl, rfl⟩⟩

/-- The command changes no history. -/
theorem listenEvt_after (stateInstanceId name source type topic : Option String) :
    StatesAfter aggregate.state env.utcNow none
        (listenEvt json aggregate env stateInstanceId name source type topic).1.state.states ∧
      WholeAfter aggregate.state env.utcNow (listenEvt json aggregate env stateInstanceId name source type topic).1.state := by
  obtain ⟨states, whole⟩ := @listened_after _ json aggregate env stateInstanceId name source type topic
  unfold listenEvt
  split
  next => exact ⟨.same _ _, .same _ _⟩
  next =>
    split
    next => exact ⟨.same _ _, .same _ _⟩
    next =>
      split
      next => exact ⟨.same _ _, .same _ _⟩
      next => split <;> simp_all

/-- An arrival changes no history. -/
theorem tryConsumeEvt_after (stateInstanceId source type data : Option String) :
    StatesAfter aggregate.state env.utcNow none
        (tryConsumeEvt json aggregate env stateInstanceId source type data).1.state.states ∧
      WholeAfter aggregate.state env.utcNow (tryConsumeEvt json aggregate env stateInstanceId source type data).1.state := by
  obtain ⟨states, whole⟩ := @consumed_after _ json aggregate env stateInstanceId source type data
  unfold tryConsumeEvt
  split
  next => exact ⟨.same _ _, .same _ _⟩
  next =>
    split
    next => exact ⟨.same _ _, .same _ _⟩
    next =>
      split
      next => exact ⟨.same _ _, .same _ _⟩
      next =>
        split
        next => split <;> simp_all
        next => exact ⟨.same _ _, .same _ _⟩

/-- What a command does to the histories, whether it throws or not. -/
theorem exec_after (command : InstanceCommand J) :
    StatesAfter aggregate.state env.utcNow (changedState json aggregate.state command)
        (exec json aggregate env command).1.state.states ∧
      WholeAfter aggregate.state env.utcNow (exec json aggregate env command).1.state := by
  cases command with
  | addState defId =>
    rw [exec, addState, state_emit]
    exact ⟨.added _ _, .inl ⟨rfl, rfl⟩⟩
  | startState stateId input => exact startState_after stateId input
  | completeState stateId output nextTransition => exact completeState_after stateId output nextTransition
  | blockState stateId => exact @blockState_after _ json aggregate env stateId
  | errorState stateId exception => exact @errorState_after _ json aggregate env stateId exception
  | reactivateState stateId =>
    rw [exec, reactivateState, state_emit]
    exact ⟨onState_after _ _ _ .ACTIVE none (fun _ => rfl) fun _ => rfl, .inl (onState_whole _ _ _)⟩
  | listenEvt stateInstanceId name source type topic => exact listenEvt_after stateInstanceId name source type topic
  | tryConsumeEvt stateInstanceId source type data => exact tryConsumeEvt_after stateInstanceId source type data
  | processEvent stateId evtName output => exact processEvent_after stateId evtName output
  | reactivate => exact reactivate_after
  | terminate output => exact terminate_after output

/-! ## Runs of commands -/

/-- In a state to whose histories the command adds an entry, no entry but the last started as late as the last one. -/
def ClosesLast (json : JTokens J) (aggregate : StateMachineInstanceAggregate) (call : Call J) : Prop :=
  ∀ state ∈ changedState json aggregate.state call.2, History.StartedLast state.histories

/-- The histories are chained afterwards if that of the changed state is. -/
theorem StatesAfter.chained_iff {machine : StateMachineInstance} {now : DateTime} {changed : Option StateMachineInstanceState}
    {states : List StateMachineInstanceState} (after : StatesAfter machine now changed states)
    (each : ∀ state ∈ machine.states, History.Chained state.histories state.status) :
    (∀ state ∈ states, History.Chained state.histories state.status) ↔
      ∀ state ∈ changed, History.StartedLast state.histories := by
  cases after with
  | kept same => exact ⟨fun _ _ absent => (nomatch absent), fun _ => StateMachineInstance.chained_of_kept each same⟩
  | added id defId =>
    refine ⟨fun _ _ absent => (nomatch absent), fun _ state member => ?_⟩
    rcases List.mem_append.mp member with there | new
    · exact each state there
    · obtain rfl : state = .create id defId now := by simpa using new
      exact History.chained_singleton rfl
  | @changed stateId state change status value found histories current =>
    have one := each state (List.mem_of_find?_eq_some found)
    rw [StateMachineInstance.forall_modifyState_iff each found, histories, current,
      StateMachineInstanceState.chained_applyStatus_iff one]
    simp

/-- The history of the instance stays chained. -/
theorem WholeAfter.chained {machine after : StateMachineInstance} {now : DateTime} (whole : WholeAfter machine now after)
    (ordered : History.Ordered machine.histories now)
    (chained : ∃ status, machine.status = some status ∧ History.Chained machine.histories status) :
    ∃ status, after.status = some status ∧ History.Chained after.histories status := by
  obtain ⟨status, current, chained⟩ := chained
  rcases whole with ⟨histories, same⟩ | ⟨next, histories, same⟩
  · exact ⟨status, same.trans current, histories ▸ chained⟩
  · exact ⟨next, same, histories ▸ StateMachineInstance.chained_updateState chained ordered next⟩

/-- The history of the instance stays in order. -/
theorem WholeAfter.ordered {machine after : StateMachineInstance} {now : DateTime} (whole : WholeAfter machine now after)
    (ordered : History.Ordered machine.histories now) : History.Ordered after.histories now := by
  rcases whole with ⟨histories, -⟩ | ⟨next, histories, -⟩
  · exact histories ▸ ordered
  · exact histories ▸ ordered.endAt _ _ rfl

/-- A command keeps the chains exactly when it closes the last entries. -/
theorem chained_exec_iff {call : Call J} (ordered : History.Ordered aggregate.state.histories call.1.utcNow)
    (chained : aggregate.state.Chained) :
    (exec json aggregate call.1 call.2).1.state.Chained ↔ ClosesLast json aggregate call := by
  obtain ⟨states, whole⟩ := @exec_after _ json aggregate call.1 call.2
  have each := states.chained_iff chained.each
  exact ⟨fun after => each.mp after.each, fun closes => ⟨whole.chained ordered chained.whole, each.mpr closes⟩⟩

/-- From `now` on, the time of an event is never before that of the one before it. -/
def Timely (now : DateTime) (calls : List (Call J)) : Prop :=
  (now :: calls.map (·.1.utcNow)).Pairwise (· ≤ ·)

instance (now : DateTime) (calls : List (Call J)) : Decidable (Timely now calls) :=
  inferInstanceAs (Decidable (List.Pairwise _ _))

/-- **When status histories form chains.** Those of the instance always do; those of a state as long as no command
finds two entries that started together at the end of them. -/
theorem histories_chained_iff (json : JTokens J) (env : InstanceEnv) (workflowDef : WorkflowDef) (calls : List (Call J))
    (timely : Timely env.utcNow calls) :
    Always (step json) (fun aggregate => aggregate.state.Chained) (create json env workflowDef) calls ↔
      Along (step json) (ClosesLast json) (create json env workflowDef) calls := by
  refine always_iff_along_rest (fun aggregate calls => ∃ now, History.Ordered aggregate.state.histories now ∧ Timely now calls)
    ?_ ?_ ?_ ⟨env.utcNow, ?_, timely⟩ ?_
  · rintro aggregate call calls _ ⟨now, ordered, times⟩ - ⟨⟩
    obtain ⟨after, rest⟩ := List.pairwise_cons.mp times
    have later := ordered.later (after call.1.utcNow (by simp))
    exact ⟨call.1.utcNow, (exec_after call.2).2.ordered later, rest⟩
  · rintro aggregate call calls - - ⟨⟩
  · rintro aggregate call calls _ ⟨now, ordered, times⟩ chained ⟨⟩
    obtain ⟨after, -⟩ := List.pairwise_cons.mp times
    exact chained_exec_iff (ordered.later (after call.1.utcNow (by simp))) chained
  · simp [create, StateMachineInstance.handle, StateMachineInstance.updateState, History.Ordered, History.lastAscending,
      History.endAt]
  · refine ⟨⟨.ACTIVE, rfl, ?_⟩, by simp [create, StateMachineInstance.handle, StateMachineInstance.updateState]⟩
    exact History.chained_singleton rfl

end

/-- A state is added and started at one tick, and completed later. -/
def startedAtOnce : List (Call Unit) :=
  [(⟨"e2", "s1", 1⟩, .addState (some "def")), (⟨"e3", "", 1⟩, .startState (some "s1") (some ())),
    (⟨"e4", "", 2⟩, .completeState (some "s1") none none)]

/-- The same, with a tick between the two. -/
def startedLater : List (Call Unit) :=
  [(⟨"e2", "s1", 1⟩, .addState (some "def")), (⟨"e3", "", 2⟩, .startState (some "s1") (some ())),
    (⟨"e4", "", 2⟩, .completeState (some "s1") none none)]

instance (aggregate : StateMachineInstanceAggregate) (call : Call Unit) :
    Decidable (ClosesLast emptyObject aggregate call) :=
  inferInstanceAs (Decidable (∀ state ∈ changedState emptyObject aggregate.state call.2, _))

/-- A state that is started later than it was made has a chained history. -/
theorem histories_chained_startedLater :
    Timely 1 startedLater ∧ Always (step emptyObject) (fun aggregate => aggregate.state.Chained) newInstance startedLater :=
  ⟨by decide, (histories_chained_iff emptyObject ⟨"evt", "instance", 1⟩ ⟨none, none, none, none, 0, none, none, none⟩
    startedLater (by decide)).mpr (by decide)⟩

/-- The entry ACTIVE stays open when the state is completed: the entry CREATE is closed a second time. -/
theorem histories_not_chained_startedAtOnce :
    Timely 1 startedAtOnce ∧
      ¬ Always (step emptyObject) (fun aggregate => aggregate.state.Chained) newInstance startedAtOnce := by
  refine ⟨by decide, fun always => ?_⟩
  have chained := always.2 _ rfl |>.2 _ rfl |>.2 _ rfl
  have last := (chained.each _ (List.mem_of_getElem? (i := 0) rfl)).unfinished 1 ⟨.ACTIVE, 1, none, none⟩ (by decide)
  exact absurd (last.mp rfl) (by decide)

end StateMachineInstanceAggregate

end FaasNet.StateMachine
