import FaasNet.Lib.Lists
import FaasNet.Lib.Runs
import FaasNet.StateDiagram.Model

/-!
# Models that are edited

A model is well formed if its transitions name its states, every state can be reached from the start and the states
without a way on are the ends. The operations of the diagram do not keep it so: a state that is dropped on one with a
successor leaves that successor behind, since it is removed by its name, and it is looked for by its id; a state with
several parents or with shared successors is removed from under the others; and a switch state forgets the conditions
that are not of its type. Where none of this is met, they do.
-/

namespace FaasNet.StateDiagram

open FaasNet.Lib

/-! ## Well-formed models -/

/-- The type of the conditions of a switch state. -/
def SwitchTypes.transitionType : SwitchTypes → TransitionTypes
  | .event => .event
  | .data => .data

/-- A transition of the state names `b`. -/
def StateMachineState.Leads (s : StateMachineState) (b : String) : Prop :=
  b ≠ "" ∧ some b ∈ s.getNextTransitions.map (·.transition)

namespace StateMachineModel

/-- What can be come to from the start. -/
inductive Reaches (m : StateMachineModel) : String → Prop
  | start {root : String} (named : m.start.bind (·.stateName) = some root) (given : root ≠ "") : Reaches m root
  | step {s : StateMachineState} {b : String} (reached : Reaches m s.id) (member : s ∈ m.states) (leads : s.Leads b) :
      Reaches m b

structure WellFormed (m : StateMachineModel) : Prop where
  unique : (m.states.map (·.id)).Nodup
  closed : ∀ s ∈ m.states, ∀ b, s.Leads b → ∃ s' ∈ m.states, s'.id = b
  reachable : ∀ s ∈ m.states, m.Reaches s.id
  ends : ∀ s ∈ m.states, s.isEnd = true ↔ ∀ b, ¬ s.Leads b

/-! ## The condition -/

/-- A transition of the one names the other. -/
def Follows (m : StateMachineModel) : StateMachineState → StateMachineState → Prop :=
  Linked (fun s => some s.id) (fun s => s.getNextTransitions.map (·.transition)) m.states

/-- The states that are removed together with one. -/
def Below (m : StateMachineModel) (s b : StateMachineState) : Prop := Relation.ReflTransGen m.Follows s b

/-- A state can lose its transition to another one: a switch state has it among the conditions of its type, and others
that lead somewhere unless they all go. -/
def Releases (p : StateMachineState) (id : String) : Prop :=
  match p.body with
  | .flowable .. => True
  | .switch conditions =>
    (∀ t ∈ p.getNextTransitions, t.transition = some id → t.type = conditions.switchType.transitionType) ∧
      ((∀ t ∈ p.getNextTransitions, t.transition = some id) ∨ ∃ b, b ≠ id ∧ p.Leads b)

/-- A state can be removed: no cycle comes after it, and from the other states only its parent leads to it, and nothing
to those after it. -/
structure Removable (m : StateMachineModel) (s : StateMachineState) : Prop where
  acyclic : AcyclicFrom (fun s => some s.id) (fun s => s.getNextTransitions.map (·.transition)) m.states s
  alone : ∀ a ∈ m.states, ¬ m.Below s a → ∀ b, m.Below s b → a.Leads b.id → b = s ∧ m.getParent s.id = some a.id
  released : ∀ p ∈ m.states, m.getParent s.id = some p.id → Releases p s.id

/-- The condition on an operation; `buildId` gives a new id. -/
def Fits (m : StateMachineModel) : EditorOperation → Prop
  | .drop node _ newId => newId ≠ "" ∧ newId ∉ m.states.map (·.id) ∧
      ∀ s ∈ m.states, s.id = node → ∀ type transition, s.body = .flowable type transition → truthy transition = false
  | .dropCircleStart _ newId => newId ≠ "" ∧ m.start.isSome
  | .removeNode node => ∀ s ∈ m.states, s.id = node → m.Removable s
  | .setDefaultCondition node place => ∀ s ∈ m.states, s.id = node → ∀ conditions, s.body = .switch conditions →
      ∀ t ∈ s.getNextTransitions[place]?, t.type = .empty ∨ t.type = conditions.switchType.transitionType ∨
        ∃ d ∈ conditions.defaultCondition, t.transition = d.transition
  | .switchTo node type => ∀ s ∈ m.states, s.id = node → ∀ conditions, s.body = .switch conditions →
      match type with
      | .event => ∀ c ∈ conditions.eventConditions, truthy c.transition = false
      | .data => ∀ c ∈ conditions.dataConditions, truthy c.transition = false

end StateMachineModel

/-! ## Where a state leads -/

section
variable {s : StateMachineState} {b : String}

/-- A flowable state leads to its transition. -/
theorem leads_flowable {type : FlowableTypes} {transition : Option String} (body : s.body = .flowable type transition) :
    s.Leads b ↔ b ≠ "" ∧ transition = some b := by
  simp [StateMachineState.Leads, StateMachineState.getNextTransitions, body, eq_comm]

/-- A switch state leads to the targets of its conditions and of its default. -/
theorem leads_switch {conditions : SwitchConditions} (body : s.body = .switch conditions) :
    s.Leads b ↔ b ≠ "" ∧ ((∃ c ∈ conditions.eventConditions, c.transition = some b) ∨
      (∃ c ∈ conditions.dataConditions, c.transition = some b) ∨
      ∃ d ∈ conditions.defaultCondition, d.transition = some b) := by
  have default (given : b ≠ "") : (∃ d, (conditions.defaultCondition = some d ∧ truthy d.transition = true) ∧
      d.transition = some b) ↔ ∃ d ∈ conditions.defaultCondition, d.transition = some b := by
    constructor
    · rintro ⟨d, ⟨there, -⟩, names⟩
      exact ⟨d, there, names⟩
    · rintro ⟨d, there, names⟩
      exact ⟨d, ⟨there, by simp [truthy, names, given]⟩, names⟩
  refine and_congr_right fun given => ?_
  rw [← default given]
  simp only [StateMachineState.getNextTransitions, body, SwitchConditions.getNextTransitions, List.map_append, List.map_map,
    List.mem_append, List.mem_map, Function.comp_apply, Option.mem_toList, Option.filter_eq_some_iff, or_assoc,
    EventCondition.toTransition, DataCondition.toTransition, EmptyTransition.toTransition]

theorem truthy_of_leads {transition : Option String} (given : b ≠ "") (names : transition = some b) : truthy transition = true := by
  simp [truthy, names, given]

/-! ## Switch states -/

variable {conditions : SwitchConditions}

/-- A switch state changes its type. -/
theorem leads_switchTo {type : SwitchTypes} (body : s.body = .switch conditions)
    (lost : match type with
      | .event => ∀ c ∈ conditions.eventConditions, truthy c.transition = false
      | .data => ∀ c ∈ conditions.dataConditions, truthy c.transition = false) :
    (s.switchTo type).Leads b ↔ s.Leads b := by
  rw [leads_switch body]
  have nothing {transition : Option String} (given : b ≠ "") (empty : truthy transition = false) : transition ≠ some b := by
    intro names
    rw [truthy_of_leads given names] at empty
    cases empty
  cases type with
  | event =>
    have body' : (s.switchTo .event).body = .switch conditions.switchToEventCondition := by
      rw [StateMachineState.switchTo, body]
    rw [leads_switch body']
    refine and_congr_right fun given => ?_
    have none : ¬ ∃ c ∈ conditions.eventConditions, c.transition = some b := by
      rintro ⟨c, listed, names⟩
      exact nothing given (lost c listed) names
    simp [SwitchConditions.switchToEventCondition, none]
  | data =>
    have body' : (s.switchTo .data).body = .switch conditions.switchToDataCondition := by
      rw [StateMachineState.switchTo, body]
    rw [leads_switch body']
    refine and_congr_right fun given => ?_
    have none : ¬ ∃ c ∈ conditions.dataConditions, c.transition = some b := by
      rintro ⟨c, listed, names⟩
      exact nothing given (lost c listed) names
    simp [SwitchConditions.switchToDataCondition, none]

/-- The transition at a place, by its type. -/
theorem getNextTransitions_event {place : Nat} {t : BaseTransition} (found : conditions.getNextTransitions[place]? = some t)
    (event : t.type = .event) : ∃ c, conditions.eventConditions[place]? = some c ∧ t.transition = c.transition := by
  unfold SwitchConditions.getNextTransitions at found
  rw [List.append_assoc, List.getElem?_append] at found
  split at found
  next inside =>
    rw [List.getElem?_map] at found
    obtain ⟨c, listed, rfl⟩ := Option.map_eq_some_iff.mp found
    exact ⟨c, listed, rfl⟩
  next =>
    have member := List.mem_of_getElem? found
    simp only [List.mem_append, List.mem_map] at member
    rcases member with ⟨c, -, rfl⟩ | ⟨c, -, rfl⟩ <;> cases event

/-- A transition of this type is a condition on the data. -/
theorem getNextTransitions_data {place : Nat} {t : BaseTransition} (found : conditions.getNextTransitions[place]? = some t)
    (data : t.type = .data) : ∃ c, conditions.dataConditions[place - conditions.eventConditions.length]? = some c ∧
      t.transition = c.transition := by
  unfold SwitchConditions.getNextTransitions at found
  rw [List.append_assoc, List.getElem?_append] at found
  split at found
  next =>
    have member := List.mem_of_getElem? found
    obtain ⟨c, -, rfl⟩ := List.mem_map.mp member
    cases data
  next =>
    rw [List.getElem?_append, List.length_map] at found
    split at found
    next =>
      rw [List.getElem?_map] at found
      obtain ⟨c, listed, rfl⟩ := Option.map_eq_some_iff.mp found
      exact ⟨c, listed, rfl⟩
    next =>
      have member := List.mem_of_getElem? found
      obtain ⟨c, -, rfl⟩ := List.mem_map.mp member
      cases data

/-- A transition without a type is the default. -/
theorem getNextTransitions_empty {place : Nat} {t : BaseTransition} (found : conditions.getNextTransitions[place]? = some t)
    (empty : t.type = .empty) : ∃ d, conditions.defaultCondition = some d ∧ t.transition = d.transition := by
  have member := List.mem_of_getElem? found
  simp only [SwitchConditions.getNextTransitions, List.mem_append, List.mem_map, Option.mem_toList,
    Option.filter_eq_some_iff] at member
  rcases member with (⟨c, -, rfl⟩ | ⟨c, -, rfl⟩) | ⟨d, ⟨there, -⟩, rfl⟩
  · cases empty
  · cases empty
  · exact ⟨d, there, rfl⟩

/-- What is said of some element of a list, when one of them is taken out. -/
theorem exists_eraseIdx {α : Type*} {l : List α} {k : Nat} {a : α} (found : l[k]? = some a) (P : α → Prop) :
    (∃ c ∈ l, P c) ↔ (∃ c ∈ l.eraseIdx k, P c) ∨ P a := by
  obtain ⟨whole, erased⟩ := eraseIdx_split found
  have split : (∃ c ∈ l, P c) ↔ ∃ c ∈ l.take k ++ a :: l.drop (k + 1), P c := by rw [← whole]
  rw [split, erased]
  simp only [List.mem_append, List.mem_cons, or_and_right, exists_or, exists_eq_left]
  exact (or_congr_right or_comm).trans or_assoc.symm

/-- A condition names the state. -/
def SwitchConditions.Names (conditions : SwitchConditions) (b : String) : Prop :=
  (∃ c ∈ conditions.eventConditions, c.transition = some b) ∨ ∃ c ∈ conditions.dataConditions, c.transition = some b

/-- An added transition is named as well. -/
theorem names_tryAddTransition (transition : Option String) :
    (conditions.tryAddTransition transition).Names b ↔ conditions.Names b ∨ transition = some b := by
  unfold SwitchConditions.tryAddTransition SwitchConditions.Names
  cases conditions.switchType with
  | event =>
    simp only [List.mem_append, List.mem_singleton, or_and_right, exists_or, exists_eq_left]
    exact or_right_comm
  | data =>
    simp only [List.mem_append, List.mem_singleton, or_and_right, exists_or, exists_eq_left]
    exact or_assoc.symm

/-- The condition at an index of the list of this type. -/
def SwitchConditions.At (conditions : SwitchConditions) (type : TransitionTypes) (index : Nat)
    (transition : Option String) : Prop :=
  match type with
  | .event => ∃ c, conditions.eventConditions[index]? = some c ∧ transition = c.transition
  | .data => ∃ c, conditions.dataConditions[index]? = some c ∧ transition = c.transition
  | .empty => False

/-- The targets are those of the other conditions and that of the one that is taken out. -/
theorem names_removeTransition {index : Nat} {transition : Option String}
    (at_ : conditions.At conditions.switchType.transitionType index transition) :
    conditions.Names b ↔
      (conditions.removeTransition conditions.switchType.transitionType index).Names b ∨ transition = some b := by
  unfold SwitchConditions.removeTransition SwitchConditions.Names
  unfold SwitchConditions.At at at_
  cases type : conditions.switchType with
  | event =>
    simp only [type, SwitchTypes.transitionType] at at_ ⊢
    obtain ⟨c, found, rfl⟩ := at_
    rw [exists_eraseIdx found]
    exact or_right_comm
  | data =>
    simp only [type, SwitchTypes.transitionType] at at_ ⊢
    obtain ⟨c, found, rfl⟩ := at_
    have before := exists_eraseIdx found (fun c => c.transition = some b)
    rw [before]
    exact or_assoc.symm

/-- The condition stays at its place when another one is added. -/
theorem At.tryAddTransition {type : TransitionTypes} {index : Nat} {transition : Option String}
    (at_ : conditions.At type index transition) (added : Option String) :
    (conditions.tryAddTransition added).At type index transition := by
  unfold SwitchConditions.At at *
  cases type with
  | event =>
    obtain ⟨c, found, same⟩ := at_
    refine ⟨c, ?_, same⟩
    unfold SwitchConditions.tryAddTransition
    cases conditions.switchType with
    | event => exact (List.getElem?_append_left (List.getElem?_eq_some_iff.mp found).1).trans found
    | data => exact found
  | data =>
    obtain ⟨c, found, same⟩ := at_
    refine ⟨c, ?_, same⟩
    unfold SwitchConditions.tryAddTransition
    cases conditions.switchType with
    | event => exact found
    | data => exact (List.getElem?_append_left (List.getElem?_eq_some_iff.mp found).1).trans found
  | empty => exact at_

theorem switchType_tryAddTransition (added : Option String) :
    (conditions.tryAddTransition added).switchType = conditions.switchType := by
  unfold SwitchConditions.tryAddTransition
  cases conditions.switchType with
  | event => rfl
  | data => rfl

theorem defaultCondition_tryAddTransition (added : Option String) :
    (conditions.tryAddTransition added).defaultCondition = conditions.defaultCondition := by
  unfold SwitchConditions.tryAddTransition
  cases conditions.switchType with
  | event => rfl
  | data => rfl

/-- Setting the default condition among the conditions of its type, or to where it leads already. -/
theorem leads_setDefault {place : Nat} {t : BaseTransition} (body : s.body = .switch conditions)
    (found : s.getNextTransitions[place]? = some t)
    (fits : t.type = .empty ∨ t.type = conditions.switchType.transitionType ∨
      ∃ d ∈ conditions.defaultCondition, t.transition = d.transition) :
    (s.swichTransitionToDefault place t).Leads b ↔ s.Leads b := by
  have found' : conditions.getNextTransitions[place]? = some t := by
    simpa only [StateMachineState.getNextTransitions, body] using found
  rcases fits with empty | own | ⟨d, default, same⟩
  · -- it is the default condition already
    obtain ⟨d, default, same⟩ := getNextTransitions_empty found' empty
    simp only [StateMachineState.swichTransitionToDefault, body, default, same, if_true]
  · have at_ : conditions.At conditions.switchType.transitionType
        (if t.type = .event then place else place - conditions.eventConditions.length) t.transition := by
      unfold SwitchConditions.At
      cases type : conditions.switchType with
      | event =>
        rw [type] at own
        simp only [own, SwitchTypes.transitionType, if_true]
        exact getNextTransitions_event found' own
      | data =>
        rw [type] at own
        simp only [own, SwitchTypes.transitionType]
        exact getNextTransitions_data found' own
    cases default : conditions.defaultCondition with
    | none =>
      have body' : (s.swichTransitionToDefault place t).body = .switch { conditions.removeTransition t.type
          (if t.type = .event then place else place - conditions.eventConditions.length) with
            defaultCondition := some ⟨t.transition⟩ } := by
        simp only [StateMachineState.swichTransitionToDefault, body, default]
      have names := names_removeTransition (b := b) at_
      rw [← own] at names
      rw [leads_switch body', leads_switch body, ← or_assoc, ← or_assoc, default]
      refine and_congr_right fun _ => ?_
      simpa [SwitchConditions.Names] using names.symm
    | some d =>
      by_cases same : t.transition = d.transition
      · simp only [StateMachineState.swichTransitionToDefault, body, default, same, if_true]
      · have body' : (s.swichTransitionToDefault place t).body =
            .switch { (conditions.tryAddTransition d.transition).removeTransition t.type
              (if t.type = .event then place else place - conditions.eventConditions.length) with
                defaultCondition := some ⟨t.transition⟩ } := by
          simp only [StateMachineState.swichTransitionToDefault, body, default, same, if_false]
        have own' : t.type = (conditions.tryAddTransition d.transition).switchType.transitionType := by
          rw [switchType_tryAddTransition, own]
        have added := At.tryAddTransition at_ d.transition
        rw [← switchType_tryAddTransition d.transition] at added
        have names := names_removeTransition (b := b) added
        rw [← own', names_tryAddTransition] at names
        rw [leads_switch body', leads_switch body, ← or_assoc, ← or_assoc, default]
        refine and_congr_right fun _ => ?_
        simpa [SwitchConditions.Names] using names.symm
  · -- nothing is done
    rw [Option.mem_def] at default
    simp only [StateMachineState.swichTransitionToDefault, body, default, same, if_true]

end

namespace StateMachineModel

/-! ## States that are looked up -/

variable {m m' : StateMachineModel}

/-- A state that is found is in the model. -/
theorem getState_mem {name : Option String} {s : StateMachineState} (found : m.getState name = some s) :
    s ∈ m.states ∧ name = some s.id :=
  ⟨List.mem_of_find?_eq_some found, by simpa [eq_comm] using List.find?_some found⟩

/-- Each state is found by its identifier. -/
theorem getState_of_mem (unique : (m.states.map (·.id)).Nodup) {s : StateMachineState} (member : s ∈ m.states) :
    m.getState (some s.id) = some s := by
  have isSome : (m.getState (some s.id)).isSome := List.find?_isSome.mpr ⟨s, member, by simp⟩
  obtain ⟨found, here⟩ := Option.isSome_iff_exists.mp isSome
  obtain ⟨inside, same⟩ := getState_mem here
  rw [here, List.inj_on_of_nodup_map unique member inside (Option.some.inj same)]

/-- No state with an empty name is reached. -/
theorem Reaches.ne_empty {id : String} (reached : m.Reaches id) : id ≠ "" := by
  cases reached with
  | start named given => exact given
  | step reached member leads => exact leads.1

/-- A model that leads on at least as this one comes to at least as much. -/
theorem Reaches.mono {id : String} (reached : m.Reaches id) (start : m'.start = m.start)
    (edges : ∀ s ∈ m.states, ∀ b, s.Leads b → ∃ s' ∈ m'.states, s'.id = s.id ∧ s'.Leads b) : m'.Reaches id := by
  induction reached with
  | start named given => exact .start (start ▸ named) given
  | step reached member leads ih =>
    obtain ⟨s', there, same, leads'⟩ := edges _ member _ leads
    exact .step (same ▸ ih) there leads'

theorem mem_modify {id : String} {change : StateMachineState → StateMachineState} {s' : StateMachineState} :
    s' ∈ (m.modify id change).states ↔ ∃ s ∈ m.states, s' = if s.id = id then change s else s := by
  simp only [modify, List.mem_map, eq_comm]

/-- The identifiers stay as they are. -/
theorem ids_modify {id : String} {change : StateMachineState → StateMachineState}
    (kept : ∀ s ∈ m.states, s.id = id → (change s).id = s.id) :
    (m.modify id change).states.map (·.id) = m.states.map (·.id) := by
  rw [modify, List.map_map]
  refine List.map_congr_left fun s member => ?_
  rw [Function.comp_apply]
  split
  next here => exact kept s member here
  next => rfl

/-- A state is changed and leads where it led. -/
theorem WellFormed.modify (wellFormed : m.WellFormed) {id : String} {change : StateMachineState → StateMachineState}
    (kept : ∀ s ∈ m.states, s.id = id → (change s).id = s.id)
    (leads : ∀ s ∈ m.states, s.id = id → ∀ b, (change s).Leads b ↔ s.Leads b)
    (ends : ∀ s ∈ m.states, s.id = id → (change s).isEnd = s.isEnd) : (m.modify id change).WellFormed := by
  have same {s s' : StateMachineState} (member : s ∈ m.states) (changed : s' = if s.id = id then change s else s) :
      s'.id = s.id ∧ (∀ b, s'.Leads b ↔ s.Leads b) ∧ s'.isEnd = s.isEnd := by
    split at changed
    next here =>
      subst changed
      exact ⟨kept s member here, leads s member here, ends s member here⟩
    next =>
      subst changed
      exact ⟨rfl, fun _ => Iff.rfl, rfl⟩
  have present {s : StateMachineState} (member : s ∈ m.states) :
      ∃ s' ∈ (m.modify id change).states, s'.id = s.id ∧ ∀ b, s'.Leads b ↔ s.Leads b :=
    ⟨_, mem_modify.mpr ⟨s, member, rfl⟩, (same member rfl).1, (same member rfl).2.1⟩
  refine ⟨?_, fun s' member' b names => ?_, fun s' member' => ?_, fun s' member' => ?_⟩
  · rw [ids_modify kept]
    exact wellFormed.unique
  · obtain ⟨s, member, changed⟩ := mem_modify.mp member'
    obtain ⟨target, inside, rfl⟩ := wellFormed.closed s member b (((same member changed).2.1 b).mp names)
    obtain ⟨target', inside', id_eq, -⟩ := present inside
    exact ⟨target', inside', id_eq⟩
  · obtain ⟨s, member, changed⟩ := mem_modify.mp member'
    rw [(same member changed).1]
    refine (wellFormed.reachable s member).mono rfl fun a inside b names => ?_
    obtain ⟨a', inside', id_eq, leads'⟩ := present inside
    exact ⟨a', inside', id_eq, (leads' b).mpr names⟩
  · obtain ⟨s, member, changed⟩ := mem_modify.mp member'
    obtain ⟨-, leads', end_eq⟩ := same member changed
    rw [end_eq, wellFormed.ends s member]
    exact forall_congr' fun b => not_congr (leads' b).symm

/-! ## A state is dropped -/

/-- A new state leads nowhere. -/
theorem not_leads_newState (type : DraggedTypes) (newId b : String) : ¬ (newState type newId).Leads b := by
  cases type with
  | flowable type =>
    rw [leads_flowable rfl]
    rintro ⟨given, names⟩
    exact given (Option.some.inj names).symm
  | switch =>
    rw [leads_switch rfl]
    rintro ⟨-, ⟨c, listed, -⟩ | ⟨c, listed, -⟩ | ⟨d, there, -⟩⟩
    · cases listed
    · cases listed
    · cases there

/-- The state leads to the new one besides, if it had no successor that it loses. -/
theorem leads_tryAddTransition {s : StateMachineState} {newId b : String} (given : newId ≠ "")
    (keeps : ∀ type transition, s.body = .flowable type transition → truthy transition = false) :
    (s.tryAddTransition newId).1.Leads b ↔ s.Leads b ∨ b = newId := by
  cases body : s.body with
  | flowable type transition =>
    have body' : (s.tryAddTransition newId).1.body = .flowable type (some newId) := by
      simp only [StateMachineState.tryAddTransition, body]
    rw [leads_flowable body', leads_flowable body]
    constructor
    · rintro ⟨-, names⟩
      exact .inr (Option.some.inj names).symm
    · rintro (⟨ne, names⟩ | rfl)
      · have lost := keeps type transition body
        rw [truthy_of_leads ne names] at lost
        cases lost
      · exact ⟨given, rfl⟩
  | switch conditions =>
    have body' : (s.tryAddTransition newId).1.body = .switch (conditions.tryAddTransition (some newId)) := by
      simp only [StateMachineState.tryAddTransition, body]
    have names : (conditions.tryAddTransition (some newId)).Names b ↔ conditions.Names b ∨ some newId = some b :=
      names_tryAddTransition (some newId)
    rw [leads_switch body', leads_switch body, ← or_assoc, ← or_assoc, defaultCondition_tryAddTransition]
    constructor
    · rintro ⟨ne, named | default⟩
      · rcases names.mp named with old | new
        · exact .inl ⟨ne, .inl old⟩
        · exact .inr (Option.some.inj new).symm
      · exact .inl ⟨ne, .inr default⟩
    · rintro (⟨ne, old | default⟩ | rfl)
      · exact ⟨ne, .inl (names.mpr (.inl old))⟩
      · exact ⟨ne, .inr default⟩
      · exact ⟨given, .inl (names.mpr (.inr rfl))⟩

/-- A state with a successor is no end. -/
theorem isEnd_tryAddTransition (s : StateMachineState) (newId : String) : (s.tryAddTransition newId).1.isEnd = false := by
  unfold StateMachineState.tryAddTransition
  split <;> rfl

theorem id_tryAddTransition (s : StateMachineState) (newId : String) : (s.tryAddTransition newId).1.id = s.id := by
  unfold StateMachineState.tryAddTransition
  split <;> rfl

/-- A new state is put after one that loses no successor. -/
theorem WellFormed.onDrop (wellFormed : m.WellFormed) {parent : StateMachineState} (member : parent ∈ m.states)
    {type : DraggedTypes} {newId : String} (given : newId ≠ "") (new : newId ∉ m.states.map (·.id))
    (keeps : ∀ type transition, parent.body = .flowable type transition → truthy transition = false) {fuel : Nat} :
    ∃ after, m.onDrop fuel parent type newId = some after ∧ after.WellFormed := by
  have removed : truthy (parent.tryAddTransition newId).2 = false := by
    cases body : parent.body with
    | flowable type transition => simpa only [StateMachineState.tryAddTransition, body] using keeps type transition body
    | switch conditions => simp only [StateMachineState.tryAddTransition, body, truthy, Option.any_none]
  let changed := (parent.tryAddTransition newId).1
  refine ⟨{ m with states := (m.modify parent.id fun _ => changed).states ++ [newState type newId] }, ?_, ?_⟩
  · have id : (newState type newId).id = newId := rfl
    simp only [StateMachineModel.onDrop, id, removed]
    rfl
  have only {s : StateMachineState} (inside : s ∈ m.states) (here : s.id = parent.id) : s = parent :=
    List.inj_on_of_nodup_map wellFormed.unique inside member here
  have members {s' : StateMachineState} :
      s' ∈ (m.modify parent.id fun _ => changed).states ++ [newState type newId] ↔
        (∃ s ∈ m.states, s ≠ parent ∧ s' = s) ∨ s' = changed ∨ s' = newState type newId := by
    rw [List.mem_append, mem_modify, List.mem_singleton, ← or_assoc]
    refine or_congr_left ⟨?_, ?_⟩
    · rintro ⟨s, inside, rfl⟩
      split
      next => exact .inr rfl
      next other =>
        refine .inl ⟨s, inside, ?_, rfl⟩
        rintro rfl
        exact other rfl
    · rintro (⟨s, inside, other, rfl⟩ | rfl)
      · exact ⟨s', inside, (if_neg fun here => other (only inside here)).symm⟩
      · exact ⟨parent, member, (if_pos rfl).symm⟩
  have leads (b : String) : changed.Leads b ↔ parent.Leads b ∨ b = newId := leads_tryAddTransition given keeps
  have id_eq : changed.id = parent.id := id_tryAddTransition parent newId
  have present {s : StateMachineState} (inside : s ∈ m.states) :
      ∃ s' ∈ (m.modify parent.id fun _ => changed).states ++ [newState type newId], s'.id = s.id ∧
        ∀ b, s.Leads b → s'.Leads b := by
    by_cases here : s = parent
    · subst here
      exact ⟨changed, members.mpr (.inr (.inl rfl)), id_eq, fun b names => (leads b).mpr (.inl names)⟩
    · exact ⟨s, members.mpr (.inl ⟨s, inside, here, rfl⟩), rfl, fun b names => names⟩
  have reaches {id : String} (reached : m.Reaches id) :
      StateMachineModel.Reaches { m with states := (m.modify parent.id fun _ => changed).states ++ [newState type newId] } id := by
    refine reached.mono rfl fun s inside b names => ?_
    obtain ⟨s', there, same, leads'⟩ := present inside
    exact ⟨s', there, same, leads' b names⟩
  refine ⟨?_, fun s' member' b names => ?_, fun s' member' => ?_, fun s' member' => ?_⟩
  · have ids : (m.modify parent.id fun _ => changed).states.map (·.id) = m.states.map (·.id) :=
      ids_modify fun s inside here => by rw [only inside here, id_eq]
    rw [List.map_append, ids, List.map_singleton, List.nodup_append_comm, List.singleton_append]
    exact List.nodup_cons.mpr ⟨new, wellFormed.unique⟩
  · have old {s : StateMachineState} (inside : s ∈ m.states) (names : s.Leads b) :
        ∃ s' ∈ (m.modify parent.id fun _ => changed).states ++ [newState type newId], s'.id = b := by
      obtain ⟨target, there, rfl⟩ := wellFormed.closed s inside b names
      obtain ⟨target', there', same, -⟩ := present there
      exact ⟨target', there', same⟩
    rcases members.mp member' with ⟨s, inside, -, rfl⟩ | rfl | rfl
    · exact old inside names
    · rcases (leads b).mp names with before | rfl
      · exact old member before
      · exact ⟨newState type b, members.mpr (.inr (.inr rfl)), rfl⟩
    · exact absurd names (not_leads_newState type newId b)
  · have start : StateMachineModel.Reaches { m with
        states := (m.modify parent.id fun _ => changed).states ++ [newState type newId] } changed.id := by
      rw [id_eq]
      exact reaches (wellFormed.reachable parent member)
    rcases members.mp member' with ⟨s, inside, -, rfl⟩ | rfl | rfl
    · exact reaches (wellFormed.reachable s' inside)
    · exact start
    · exact .step start (members.mpr (.inr (.inl rfl))) ((leads newId).mpr (.inr rfl))
  · rcases members.mp member' with ⟨s, inside, -, rfl⟩ | rfl | rfl
    · exact wellFormed.ends s' inside
    · have goes : changed.Leads newId := (leads newId).mpr (.inr rfl)
      have isEnd : changed.isEnd = false := isEnd_tryAddTransition parent newId
      rw [isEnd]
      exact ⟨nofun, fun none => absurd goes (none newId)⟩
    · exact ⟨fun _ b => not_leads_newState type newId b, fun _ => rfl⟩

/-- Dropping a state on the start makes it the only one. -/
theorem WellFormed.onDropCircleStart (started : m.start.isSome) {type : DraggedTypes} {newId : String} (given : newId ≠ "") :
    (m.onDropCircleStart type newId).WellFormed := by
  have only {s : StateMachineState} (member : s ∈ (m.onDropCircleStart type newId).states) : s = newState type newId :=
    List.mem_singleton.mp member
  refine ⟨List.nodup_singleton _, fun s member b names => ?_, fun s member => ?_, fun s member => ?_⟩
  · rw [only member] at names
    exact absurd names (not_leads_newState type newId b)
  · rw [only member]
    obtain ⟨start, there⟩ := Option.isSome_iff_exists.mp started
    refine .start ?_ given
    simp [StateMachineModel.onDropCircleStart, there, newState]
  · rw [only member]
    exact ⟨fun _ b => not_leads_newState type newId b, fun _ => rfl⟩

/-! ## A state is removed -/

/-- In a well-formed model what a state leads to follows it. -/
theorem follows_iff (wellFormed : m.WellFormed) {a b : StateMachineState} (member : b ∈ m.states) :
    m.Follows a b ↔ a ∈ m.states ∧ a.Leads b.id := by
  have given : b.id ≠ "" := (wellFormed.reachable b member).ne_empty
  constructor
  · rintro ⟨inside, -, names⟩
    exact ⟨inside, given, names⟩
  · rintro ⟨inside, -, names⟩
    exact ⟨inside, member, names⟩

/-- The states that are left. -/
theorem remove_eq (wellFormed : m.WellFormed) {s : StateMachineState} (member : s ∈ m.states) (removable : m.Removable s) :
    ∃ n, ∀ fuel ≥ n, remove fuel m.states s = some (without m.states (m.Below s)) := by
  have distinct : (m.states.map fun s => some s.id).Nodup := by
    have keys : (m.states.map fun s => some s.id) = (m.states.map (·.id)).map some := by rw [List.map_map]; rfl
    rw [keys]
    exact wellFormed.unique.map fun _ _ same => Option.some.inj same
  have nothing : ∀ c d : StateMachineState, False → m.Follows c d → False := fun _ _ gone _ => gone
  obtain ⟨n, pruned⟩ := prune_eq distinct member removable.acyclic nothing not_false
  have all : without m.states (fun _ => False) = m.states := List.filter_eq_self.mpr (by simp)
  refine ⟨n, fun fuel enough => ?_⟩
  have gone := pruned fuel enough
  rw [all] at gone
  rw [remove, gone]
  exact congrArg some (without_congr fun b _ => by simp [Below, Follows])

/-- What is drawn of a parent. -/
theorem leads_of_getParent {s : StateMachineState} {parent : String} (shown : m.getParent s.id = some parent) :
    ∃ p ∈ m.states, p.id = parent ∧ some s.id ∈ p.getNextTransitions.map (·.transition) := by
  unfold getParent at shown
  split at shown
  next edge only =>
    obtain rfl := Option.some.inj shown
    have member : edge ∈ m.refreshUI.edges.filter fun edge => edge.2 = s.id := by rw [only]; exact List.mem_singleton_self _
    obtain ⟨drawn, same⟩ := List.mem_filter.mp member
    have here : edge.2 = s.id := by simpa using same
    have edges : ∀ e ∈ m.refreshUI.edges, e.2 ∈ m.children e.1 := by
      unfold refreshUI
      split
      next =>
        split
        · nofun
        next root _ =>
          cases drawn : draw m.children (m.states.length + 1) root.id {} with
          | none => nofun
          | some drawing =>
            obtain ⟨new, grows, -⟩ := draw_grows drawn
            intro e inside
            have listed := grows.edges.mem_iff.mp inside
            simp only [List.nil_append, List.append_nil, List.mem_flatMap] at listed
            obtain ⟨a, -, from_a⟩ := listed
            obtain ⟨b, next, rfl⟩ := List.mem_map.mp from_a
            exact next
      next => nofun
    have child := edges edge drawn
    unfold children at child
    obtain ⟨t, listed, names⟩ := List.mem_filterMap.mp child
    obtain ⟨target, found, id_eq⟩ := Option.map_eq_some_iff.mp names
    have transition := (getState_mem found).2
    cases parent : m.getState (some edge.1) with
    | none =>
      rw [parent] at listed
      cases listed
    | some p =>
      rw [parent] at listed
      obtain ⟨inside, same⟩ := getState_mem parent
      refine ⟨p, inside, (Option.some.inj same).symm, List.mem_map.mpr ⟨t, listed, ?_⟩⟩
      rw [transition, id_eq, here]
  next => cases shown

/-- The transitions of a switch state to another one are among the conditions of its type. -/
structure Own (conditions : SwitchConditions) (id : String) : Prop where
  event : ∀ c ∈ conditions.eventConditions, c.transition = some id → conditions.switchType = .event
  data : ∀ c ∈ conditions.dataConditions, c.transition = some id → conditions.switchType = .data
  default : ∀ d ∈ conditions.defaultCondition, d.transition ≠ some id

theorem own_of_types {conditions : SwitchConditions} {id : String} (given : id ≠ "")
    (types : ∀ t ∈ conditions.getNextTransitions, t.transition = some id → t.type = conditions.switchType.transitionType) :
    Own conditions id := by
  refine ⟨fun c listed names => ?_, fun c listed names => ?_, fun d there names => ?_⟩
  · have type := types c.toTransition (List.mem_append_left _ (List.mem_append_left _ (List.mem_map_of_mem listed))) names
    cases switchType : conditions.switchType with
    | event => rfl
    | data =>
      rw [switchType] at type
      cases type
  · have type := types c.toTransition (List.mem_append_left _ (List.mem_append_right _ (List.mem_map_of_mem listed))) names
    cases switchType : conditions.switchType with
    | data => rfl
    | event =>
      rw [switchType] at type
      cases type
  · have listed : d.toTransition ∈ conditions.getNextTransitions := by
      refine List.mem_append_right _ (List.mem_map_of_mem ?_)
      rw [Option.mem_toList, Option.filter_eq_some_iff]
      exact ⟨there, truthy_of_leads given names⟩
    have type := types d.toTransition listed names
    cases switchType : conditions.switchType with
    | event =>
      rw [switchType] at type
      cases type
    | data =>
      rw [switchType] at type
      cases type

/-- A switch state loses its transitions to a state, and those only. -/
theorem names_setTransitions {conditions : SwitchConditions} {id b : String} (own : Own conditions id) :
    (conditions.setTransitions fun t => t.transition ≠ some id).Names b ↔ conditions.Names b ∧ b ≠ id := by
  have other {transition : Option String} (names : transition = some b) (kept : transition ≠ some id) : b ≠ id := by
    rintro rfl
    exact kept names
  unfold SwitchConditions.setTransitions SwitchConditions.Names
  cases switchType : conditions.switchType with
  | event =>
    dsimp only
    constructor
    · rintro (⟨c, listed, names⟩ | ⟨c, listed, names⟩)
      · obtain ⟨inside, kept⟩ := List.mem_filter.mp listed
        exact ⟨.inl ⟨c, inside, names⟩, other names (of_decide_eq_true kept)⟩
      · refine ⟨.inr ⟨c, listed, names⟩, ?_⟩
        rintro rfl
        have type := own.data c listed names
        rw [switchType] at type
        cases type
    · rintro ⟨⟨c, listed, names⟩ | ⟨c, listed, names⟩, apart⟩
      · exact .inl ⟨c, List.mem_filter.mpr ⟨listed, by simpa [EventCondition.toTransition, names] using apart⟩, names⟩
      · exact .inr ⟨c, listed, names⟩
  | data =>
    dsimp only
    constructor
    · rintro (⟨c, listed, names⟩ | ⟨c, listed, names⟩)
      · refine ⟨.inl ⟨c, listed, names⟩, ?_⟩
        rintro rfl
        have type := own.event c listed names
        rw [switchType] at type
        cases type
      · obtain ⟨inside, kept⟩ := List.mem_filter.mp listed
        exact ⟨.inr ⟨c, inside, names⟩, other names (of_decide_eq_true kept)⟩
    · rintro ⟨⟨c, listed, names⟩ | ⟨c, listed, names⟩, apart⟩
      · exact .inl ⟨c, listed, names⟩
      · exact .inr ⟨c, List.mem_filter.mpr ⟨listed, by simpa [DataCondition.toTransition, names] using apart⟩, names⟩

theorem defaultCondition_setTransitions (conditions : SwitchConditions) (keep : BaseTransition → Bool) :
    (conditions.setTransitions keep).defaultCondition = conditions.defaultCondition := by
  unfold SwitchConditions.setTransitions
  split <;> rfl

/-- A state loses its transition to another one. -/
theorem leads_setTransitions {p : StateMachineState} {id b : String} (given : id ≠ "") (released : Releases p id)
    (leads : some id ∈ p.getNextTransitions.map (·.transition)) :
    (p.setTransitions fun t => t.transition ≠ some id).Leads b ↔ p.Leads b ∧ b ≠ id := by
  cases body : p.body with
  | flowable type transition =>
    have only : transition = some id := by
      simpa [StateMachineState.getNextTransitions, body, eq_comm] using leads
    have body' : (p.setTransitions fun t => t.transition ≠ some id).body = .flowable type (some "") := by
      simp [StateMachineState.setTransitions, StateMachineState.getNextTransitions, body, only]
    rw [leads_flowable body', leads_flowable body, only]
    constructor
    · rintro ⟨ne, names⟩
      exact absurd (Option.some.inj names).symm ne
    · rintro ⟨⟨-, names⟩, other⟩
      exact absurd (Option.some.inj names).symm other
  | switch conditions =>
    unfold Releases at released
    rw [body] at released
    have own : Own conditions id := by
      refine own_of_types given fun t listed names => released.1 t ?_ names
      simpa only [StateMachineState.getNextTransitions, body] using listed
    have body' : (p.setTransitions fun t => t.transition ≠ some id).body =
        .switch (conditions.setTransitions fun t => t.transition ≠ some id) := by
      simp only [StateMachineState.setTransitions, body]
    have names : (conditions.setTransitions fun t => t.transition ≠ some id).Names b ↔ conditions.Names b ∧ b ≠ id :=
      names_setTransitions own
    rw [leads_switch body', leads_switch body, ← or_assoc, ← or_assoc, defaultCondition_setTransitions]
    constructor
    · rintro ⟨ne, named | ⟨d, there, same⟩⟩
      · obtain ⟨old, apart⟩ := names.mp named
        exact ⟨⟨ne, .inl old⟩, apart⟩
      · refine ⟨⟨ne, .inr ⟨d, there, same⟩⟩, ?_⟩
        rintro rfl
        exact own.default d there same
    · rintro ⟨⟨ne, old | default⟩, apart⟩
      · exact ⟨ne, .inl (names.mpr ⟨old, apart⟩)⟩
      · exact ⟨ne, .inr default⟩

/-- A state that loses its last transition is an end. -/
theorem isEnd_setTransitions {p : StateMachineState} {id : String} (released : Releases p id)
    (leads : some id ∈ p.getNextTransitions.map (·.transition)) :
    (p.setTransitions fun t => t.transition ≠ some id).isEnd = true ↔ ∀ b, ¬ (p.Leads b ∧ b ≠ id) := by
  cases body : p.body with
  | flowable type transition =>
    have only : transition = some id := by
      simpa [StateMachineState.getNextTransitions, body, eq_comm] using leads
    have isEnd : (p.setTransitions fun t => t.transition ≠ some id).isEnd = true := by
      simp [StateMachineState.setTransitions, StateMachineState.getNextTransitions, body, only]
    refine ⟨fun _ b => ?_, fun _ => isEnd⟩
    rw [leads_flowable body, only]
    rintro ⟨⟨-, names⟩, other⟩
    exact other (Option.some.inj names).symm
  | switch conditions =>
    unfold Releases at released
    rw [body] at released
    have isEnd : (p.setTransitions fun t => t.transition ≠ some id).isEnd =
        (p.getNextTransitions.filter fun t => t.transition ≠ some id).isEmpty := by
      simp only [StateMachineState.setTransitions, body]
    rw [isEnd, List.isEmpty_iff, List.filter_eq_nil_iff]
    constructor
    · rintro none b ⟨⟨-, names⟩, other⟩
      obtain ⟨t, listed, same⟩ := List.mem_map.mp names
      have kept := none t listed
      simp only [same, ne_eq, Option.some_inj, decide_eq_true_eq, not_not] at kept
      exact other kept
    · intro nothing t listed
      rcases released.2 with all | ⟨b, other, goes⟩
      · simpa using all t listed
      · exact absurd ⟨goes, other⟩ (nothing b)

theorem id_setTransitions (p : StateMachineState) (keep : BaseTransition → Bool) : (p.setTransitions keep).id = p.id := by
  unfold StateMachineState.setTransitions
  dsimp only
  split
  · split <;> rfl
  · rfl

/-- The change of the parent of the removed state. -/
def release (parent : Option String) (id : String) (p : StateMachineState) : StateMachineState :=
  if parent = some p.id then p.setTransitions fun t => t.transition ≠ some id else p

/-- What is left after a state is removed, with its parent released. -/
theorem removeNode_eq {fuel : Nat} {s : StateMachineState} {left : List StateMachineState}
    (removed : remove fuel m.states s = some left) :
    m.removeNode fuel s = some { m with states := left.map (release (m.getParent s.id) s.id) } := by
  unfold StateMachineModel.removeNode
  rw [removed, Option.map_some]
  cases m.getParent s.id with
  | none =>
    have same : release none s.id = fun p => p := funext fun p => if_neg nofun
    rw [same, List.map_id']
  | some parent =>
    have same : release (some parent) s.id =
        fun p => if p.id = parent then p.setTransitions fun t => t.transition ≠ some s.id else p := by
      funext p
      simp only [release, Option.some_inj, eq_comm]
    rw [same]
    rfl

/-- A removable state is removed, with all that comes after it. -/
theorem WellFormed.removeNode (wellFormed : m.WellFormed) {s : StateMachineState} (member : s ∈ m.states)
    (removable : m.Removable s) :
    StateMachineModel.WellFormed { m with
      states := (without m.states (m.Below s)).map (release (m.getParent s.id) s.id) } := by
  have given : s.id ≠ "" := (wellFormed.reachable s member).ne_empty
  have id_eq (p : StateMachineState) : (release (m.getParent s.id) s.id p).id = p.id := by
    unfold release
    split
    · exact id_setTransitions p _
    · rfl
  -- what is left leads where it led, apart from the removed state
  have leads {p : StateMachineState} (inside : p ∈ m.states) (b : String) :
      (release (m.getParent s.id) s.id p).Leads b ↔ p.Leads b ∧ (m.getParent s.id = some p.id → b ≠ s.id) := by
    unfold release
    split
    next parent =>
      obtain ⟨p', inside', same, shown⟩ := leads_of_getParent parent
      obtain rfl := List.inj_on_of_nodup_map wellFormed.unique inside' inside same
      rw [leads_setTransitions given (removable.released p' inside parent) shown]
      simp [parent]
    next other => simp [other]
  have outside {p : StateMachineState} (inside : p ∈ m.states) (left : ¬ m.Below s p) {b : String}
      (goes : (release (m.getParent s.id) s.id p).Leads b) : ∃ target ∈ m.states, target.id = b ∧ ¬ m.Below s target := by
    obtain ⟨names, apart⟩ := (leads inside b).mp goes
    obtain ⟨target, there, rfl⟩ := wellFormed.closed p inside b names
    refine ⟨target, there, rfl, fun below => ?_⟩
    obtain ⟨rfl, parent⟩ := removable.alone p inside left target below names
    exact apart parent rfl
  have reaches {id : String} (reached : m.Reaches id)
      (stays : ∀ target ∈ m.states, target.id = id → ¬ m.Below s target) :
      StateMachineModel.Reaches { m with
        states := (without m.states (m.Below s)).map (release (m.getParent s.id) s.id) } id := by
    induction reached with
    | start named given => exact .start named given
    | @step a b reached inside names ih =>
      obtain ⟨target, there, rfl⟩ := wellFormed.closed a inside b names
      have left : ¬ m.Below s a :=
        fun below => stays target there rfl (below.tail ((follows_iff wellFormed there).mpr ⟨inside, names⟩))
      have start := ih fun other there' same => by rwa [List.inj_on_of_nodup_map wellFormed.unique there' inside same]
      rw [← id_eq a] at start
      refine .step start (List.mem_map_of_mem (mem_without.mpr ⟨inside, left⟩)) ((leads inside target.id).mpr ⟨names, ?_⟩)
      intro _ same
      obtain rfl := List.inj_on_of_nodup_map wellFormed.unique there member same
      exact stays target there rfl .refl
  refine ⟨?_, fun s' member' b names => ?_, fun s' member' => ?_, fun s' member' => ?_⟩
  · have ids : ((without m.states (m.Below s)).map (release (m.getParent s.id) s.id)).map (·.id) =
        (without m.states (m.Below s)).map (·.id) := by
      rw [List.map_map]
      exact List.map_congr_left fun p _ => id_eq p
    rw [ids]
    exact wellFormed.unique.sublist (List.filter_sublist.map _)
  · obtain ⟨p, inside, rfl⟩ := List.mem_map.mp member'
    obtain ⟨here, left⟩ := mem_without.mp inside
    obtain ⟨target, there, rfl, stays⟩ := outside here left names
    exact ⟨_, List.mem_map_of_mem (mem_without.mpr ⟨there, stays⟩), id_eq target⟩
  · obtain ⟨p, inside, rfl⟩ := List.mem_map.mp member'
    obtain ⟨here, left⟩ := mem_without.mp inside
    rw [id_eq]
    refine reaches (wellFormed.reachable p here) fun target there same => ?_
    rwa [List.inj_on_of_nodup_map wellFormed.unique there here same]
  · obtain ⟨p, inside, rfl⟩ := List.mem_map.mp member'
    obtain ⟨here, left⟩ := mem_without.mp inside
    have ends : (release (m.getParent s.id) s.id p).isEnd = true ↔
        ∀ b, ¬ (p.Leads b ∧ (m.getParent s.id = some p.id → b ≠ s.id)) := by
      unfold release
      split
      next parent =>
        obtain ⟨p', inside', same, shown⟩ := leads_of_getParent parent
        obtain rfl := List.inj_on_of_nodup_map wellFormed.unique inside' here same
        rw [isEnd_setTransitions (removable.released p' here parent) shown]
        simp [parent]
      next other =>
        rw [wellFormed.ends p here]
        simp [other]
    rw [ends]
    exact forall_congr' fun b => not_congr (leads here b).symm

/-! ## What is shown -/

theorem children_mem {a b : String} (child : b ∈ m.children a) : b ∈ m.states.map (·.id) := by
  unfold children at child
  obtain ⟨t, -, names⟩ := List.mem_filterMap.mp child
  obtain ⟨target, found, rfl⟩ := Option.map_eq_some_iff.mp names
  exact List.mem_map_of_mem (getState_mem found).1

/-- The states of a model can be drawn. -/
theorem draw_root_isSome {root : StateMachineState} (found : m.getRootState = some root) :
    (draw m.children (m.states.length + 1) root.id {}).isSome := by
  have inside : root ∈ m.states := List.mem_of_find?_eq_some found
  refine draw_isSome (fun a _ b child => children_mem child) (List.mem_map_of_mem inside) ?_
  simp

/-- Every state of a well-formed model is shown. -/
theorem WellFormed.node_of_mem (wellFormed : m.WellFormed) (named : truthy m.id) {s : StateMachineState}
    (member : s ∈ m.states) : m.node s.id = some s := by
  -- something can be reached, so there is a root
  have root_of : ∀ {id : String}, m.Reaches id → id ∈ m.states.map (·.id) → ∃ root, m.getRootState = some root ∧
      m.start.bind (·.stateName) = some root.id := by
    intro id reached
    induction reached with
    | @start root named given =>
      intro there
      obtain ⟨r, inside, rfl⟩ := List.mem_map.mp there
      obtain ⟨start, begun, names⟩ := Option.bind_eq_some_iff.mp named
      have isSome : m.getRootState.isSome :=
        List.find?_isSome.mpr ⟨r, inside, by simp [begun, names, truthy, given]⟩
      obtain ⟨root, found⟩ := Option.isSome_iff_exists.mp isSome
      have same := List.find?_some found
      simp only [begun, Option.any_some, names, Bool.and_eq_true, decide_eq_true_eq] at same
      exact ⟨root, found, by rw [named, same.2]⟩
    | step reached inside names ih => exact fun _ => ih (List.mem_map_of_mem inside)
  obtain ⟨root, found, starts⟩ := root_of (wellFormed.reachable s member) (List.mem_map_of_mem member)
  have inside : root ∈ m.states := List.mem_of_find?_eq_some found
  obtain ⟨drawing, drawn⟩ : ∃ drawing, draw m.children (m.states.length + 1) root.id {} = some drawing :=
    Option.isSome_iff_exists.mp (draw_root_isSome found)
  obtain ⟨new, grows, here⟩ := draw_grows drawn
  have nodes : m.refreshUI.nodes = drawing.nodes := by
    simp only [refreshUI, named, if_true, found, drawn, Option.getD_some]
  have all : drawing.nodes = new := by simpa using grows.nodes
  have reached : ∀ {id : String}, m.Reaches id → id ∈ m.states.map (·.id) → id ∈ drawing.nodes := by
    intro id reached
    induction reached with
    | start named given =>
      intro _
      rw [starts] at named
      rw [← Option.some.inj named]
      exact here
    | @step a b reached member' names ih =>
      intro there
      have before := ih (List.mem_map_of_mem member')
      rw [all] at before
      refine grows.closed a.id before b ?_
      obtain ⟨t, listed, same⟩ := List.mem_map.mp names.2
      obtain ⟨target, there', rfl⟩ := wellFormed.closed a member' b names
      refine List.mem_filterMap.mpr ⟨t, ?_, ?_⟩
      · rw [getState_of_mem wellFormed.unique member']
        exact listed
      · rw [same, getState_of_mem wellFormed.unique there']
        rfl
  unfold node
  rw [nodes, if_pos (reached (wellFormed.reachable s member) (List.mem_map_of_mem member)),
    getState_of_mem wellFormed.unique member]

theorem node_mem {id : String} {s : StateMachineState} (shown : m.node id = some s) : s ∈ m.states ∧ s.id = id := by
  unfold node at shown
  split_ifs at shown
  obtain ⟨member, same⟩ := getState_mem shown
  exact ⟨member, (Option.some.inj same).symm⟩

/-! ## Operations -/

/-- What the operation is about is in the model. -/
def Concerns (m : StateMachineModel) : EditorOperation → Prop
  | .drop node _ _ => node ∈ m.states.map (·.id)
  | .dropCircleStart _ _ => True
  | .removeNode node => node ∈ m.states.map (·.id)
  | .setDefaultCondition node place => ∃ s ∈ m.states, s.id = node ∧ ∃ t ∈ s.getNextTransitions[place]?, truthy t.transition
  | .switchTo node _ => node ∈ m.states.map (·.id)

/-- A switch state that has no condition of the new type changes its type. -/
theorem WellFormed.switchTo (wellFormed : m.WellFormed) {s : StateMachineState}
    {type : SwitchTypes} (fits : m.Fits (.switchTo s.id type)) :
    (m.modify s.id fun s => s.switchTo type).WellFormed := by
  refine wellFormed.modify (fun s _ _ => ?_) (fun p inside here b => ?_) fun s _ _ => ?_
  · unfold StateMachineState.switchTo
    split
    · rfl
    · cases type <;> rfl
  · cases body : p.body with
    | flowable => simp only [StateMachineState.switchTo, body]
    | switch conditions => exact leads_switchTo body (fits p inside here conditions body)
  · unfold StateMachineState.switchTo
    split
    · rfl
    · cases type <;> rfl

/-- Choosing a default keeps where the state leads. -/
theorem WellFormed.setDefaultCondition (wellFormed : m.WellFormed) {s target : StateMachineState} (member : s ∈ m.states)
    {place : Nat} {t : BaseTransition} (found : s.getNextTransitions[place]? = some t)
    (there : m.getState t.transition = some target) (fits : m.Fits (.setDefaultCondition s.id place)) :
    (m.modify s.id fun s => s.swichTransitionToDefault place t).WellFormed := by
  have only {p : StateMachineState} (inside : p ∈ m.states) (here : p.id = s.id) : p = s :=
    List.inj_on_of_nodup_map wellFormed.unique inside member here
  obtain ⟨present, names⟩ := getState_mem there
  have goes : s.Leads target.id :=
    ⟨(wellFormed.reachable target present).ne_empty, List.mem_map.mpr ⟨t, List.mem_of_getElem? found, names⟩⟩
  have notEnd : s.isEnd = false := by
    rw [← Bool.not_eq_true, wellFormed.ends s member]
    exact fun none => none target.id goes
  refine wellFormed.modify (fun p _ _ => ?_) (fun p inside here b => ?_) fun p inside here => ?_
  · unfold StateMachineState.swichTransitionToDefault
    split
    · rfl
    · dsimp only
      split
      · rfl
      · split <;> rfl
  · obtain rfl := only inside here
    cases body : p.body with
    | flowable => simp only [StateMachineState.swichTransitionToDefault, body]
    | switch conditions => exact leads_setDefault body found (fits p inside rfl conditions body t found)
  · obtain rfl := only inside here
    unfold StateMachineState.swichTransitionToDefault
    split
    · rfl
    · dsimp only
      split
      · rfl
      · split
        · rfl
        · exact notEnd.symm

/-- **Each operation that fits keeps the model well formed.** -/
theorem WellFormed.edit (wellFormed : m.WellFormed) {operation : EditorOperation} (fits : m.Fits operation) {fuel : Nat}
    (edited : m.edit fuel operation = some m') : m'.WellFormed := by
  cases operation with
  | drop node type newId =>
    obtain ⟨parent, shown, dropped⟩ := Option.bind_eq_some_iff.mp edited
    obtain ⟨member, rfl⟩ := node_mem shown
    obtain ⟨given, new, keeps⟩ := fits
    have kept : ∃ after, m.onDrop fuel parent type newId = some after ∧ after.WellFormed :=
      wellFormed.onDrop member given new (keeps parent member rfl)
    obtain ⟨after, same, wellFormed'⟩ := kept
    rw [Option.some.inj (dropped.symm.trans same)]
    exact wellFormed'
  | dropCircleStart type newId =>
    rw [← Option.some.inj edited]
    exact .onDropCircleStart fits.2 fits.1
  | removeNode node =>
    obtain ⟨s, shown, removed⟩ := Option.bind_eq_some_iff.mp edited
    obtain ⟨member, rfl⟩ := node_mem shown
    have removable := fits s member rfl
    obtain ⟨n, gone⟩ := remove_eq wellFormed member removable
    cases here : remove fuel m.states s with
    | none => simp [StateMachineModel.removeNode, here] at removed
    | some left =>
      have more := prune_mono (Nat.le_max_left fuel n) here
      obtain rfl := Option.some.inj ((gone (max fuel n) (Nat.le_max_right fuel n)).symm.trans more)
      rw [removeNode_eq here] at removed
      rw [← Option.some.inj removed]
      exact wellFormed.removeNode member removable
  | setDefaultCondition node place =>
    obtain ⟨s, shown, rest⟩ := Option.bind_eq_some_iff.mp edited
    obtain ⟨member, rfl⟩ := node_mem shown
    obtain ⟨t, found, set⟩ := Option.bind_eq_some_iff.mp rest
    obtain ⟨target, there, rfl⟩ := Option.map_eq_some_iff.mp set
    exact wellFormed.setDefaultCondition member found there fits
  | switchTo node type =>
    obtain ⟨s, shown, rfl⟩ := Option.map_eq_some_iff.mp edited
    obtain ⟨-, rfl⟩ := node_mem shown
    exact wellFormed.switchTo fits

/-- The operation comes to an end. -/
theorem WellFormed.edit_isSome (wellFormed : m.WellFormed) (named : truthy m.id) {operation : EditorOperation}
    (fits : m.Fits operation) (concerns : m.Concerns operation) : ∃ fuel, (m.edit fuel operation).isSome := by
  have shown {node : String} (there : node ∈ m.states.map (·.id)) : ∃ s ∈ m.states, m.node node = some s ∧ s.id = node := by
    obtain ⟨s, member, rfl⟩ := List.mem_map.mp there
    exact ⟨s, member, wellFormed.node_of_mem named member, rfl⟩
  cases operation with
  | drop node type newId =>
    obtain ⟨s, member, found, same⟩ := shown concerns
    obtain ⟨given, new, keeps⟩ := fits
    have kept : ∃ after, m.onDrop 0 s type newId = some after ∧ after.WellFormed :=
      wellFormed.onDrop member given new (keeps s member same)
    obtain ⟨after, dropped, -⟩ := kept
    exact ⟨0, by simp [StateMachineModel.edit, found, dropped]⟩
  | dropCircleStart type newId => exact ⟨0, rfl⟩
  | removeNode node =>
    obtain ⟨s, member, found, same⟩ := shown concerns
    obtain ⟨n, gone⟩ := remove_eq wellFormed member (fits s member same)
    exact ⟨n, by simp [StateMachineModel.edit, found, removeNode_eq (gone n (Nat.le_refl n))]⟩
  | setDefaultCondition node place =>
    obtain ⟨s, member, rfl, t, found, given⟩ := concerns
    obtain ⟨b, names⟩ : ∃ b, t.transition = some b := by
      cases transition : t.transition with
      | none => simp [truthy, transition] at given
      | some b => exact ⟨b, rfl⟩
    have ne : b ≠ "" := by simpa [truthy, names] using given
    have goes : s.Leads b := ⟨ne, List.mem_map.mpr ⟨t, List.mem_of_getElem? found, names⟩⟩
    obtain ⟨target, there, rfl⟩ := wellFormed.closed s member b goes
    refine ⟨0, ?_⟩
    have found' : s.getNextTransitions[place]? = some t := found
    simp [StateMachineModel.edit, wellFormed.node_of_mem named member, found', names, getState_of_mem wellFormed.unique there]
  | switchTo node type =>
    obtain ⟨s, -, found, -⟩ := shown concerns
    exact ⟨0, by simp [StateMachineModel.edit, found]⟩

theorem id_edit {operation : EditorOperation} {fuel : Nat} (edited : m.edit fuel operation = some m') : m'.id = m.id := by
  cases operation with
  | drop node type newId =>
    obtain ⟨parent, -, dropped⟩ := Option.bind_eq_some_iff.mp edited
    obtain ⟨states, -, rfl⟩ := Option.map_eq_some_iff.mp dropped
    rfl
  | dropCircleStart type newId =>
    rw [← Option.some.inj edited]
    rfl
  | removeNode node =>
    obtain ⟨s, -, removed⟩ := Option.bind_eq_some_iff.mp edited
    obtain ⟨states, -, rfl⟩ := Option.map_eq_some_iff.mp removed
    split <;> rfl
  | setDefaultCondition node place =>
    obtain ⟨s, -, rest⟩ := Option.bind_eq_some_iff.mp edited
    obtain ⟨t, -, set⟩ := Option.bind_eq_some_iff.mp rest
    obtain ⟨target, -, rfl⟩ := Option.map_eq_some_iff.mp set
    rfl
  | switchTo node type =>
    obtain ⟨s, -, rfl⟩ := Option.map_eq_some_iff.mp edited
    rfl

end StateMachineModel

/-! ## Sequences of operations -/

/-- An operation, and how deep the recursion of `remove` may go. -/
structure Edit where
  operation : EditorOperation
  fuel : Nat
  deriving DecidableEq, Repr

def StateMachineModel.step (m : StateMachineModel) (edit : Edit) : Option StateMachineModel :=
  m.edit edit.fuel edit.operation

/-- What is about the model comes to an end. -/
def StateMachineModel.Terminates (m : StateMachineModel) (edit : Edit) : Prop :=
  m.Concerns edit.operation → ∃ fuel, (m.edit fuel edit.operation).isSome

/-- **The diagram keeps models well formed.** In a sequence of operations that fit the model they are made on, each one
comes to an end, and every model is well formed. -/
theorem edits_wellFormed (m : StateMachineModel) (named : truthy m.id) (wellFormed : m.WellFormed) (edits : List Edit)
    (fits : Along StateMachineModel.step (fun m edit => m.Fits edit.operation) m edits) :
    Always StateMachineModel.step StateMachineModel.WellFormed m edits ∧
      Along StateMachineModel.step StateMachineModel.Terminates m edits := by
  have preserved (m : StateMachineModel) (edit : Edit) (m' : StateMachineModel) (here : m.WellFormed ∧ truthy m.id)
      (fits : m.Fits edit.operation) (taken : m.step edit = some m') : m'.WellFormed ∧ truthy m'.id :=
    ⟨here.1.edit fits taken, by rw [StateMachineModel.id_edit taken]; exact here.2⟩
  constructor
  · have always : Always StateMachineModel.step (fun m => m.WellFormed ∧ truthy m.id) m edits :=
      always_of_along preserved ⟨wellFormed, named⟩ fits
    exact always.imp fun _ => And.left
  · exact along_of_invariant (fun m => m.WellFormed ∧ truthy m.id) preserved
      (fun m edit here fits concerns => here.1.edit_isSome here.2 fits concerns) ⟨wellFormed, named⟩ fits

/-- A definition of two states, one after the other. -/
def twoStates : StateMachineJson where
  id := some "flow"
  start := some { stateName := some "a" }
  states := [{ type := "inject", id := "a", name := some "first", transition := some "b" },
    { type := "inject", id := "b", name := some "second", isEnd := some true, transition := some "" }]

/-- The states that are built from it. -/
def twoStatesModel : StateMachineModel where
  id := some "flow"
  start := some { stateName := some "a" }
  states := [⟨"a", some "first", false, .flowable .inject (some "b")⟩, ⟨"b", some "second", true, .flowable .inject (some "")⟩]

theorem twoStates_build : twoStates.build = some twoStatesModel := by decide

/-- The model of two states is well formed. -/
theorem twoStates_wellFormed : twoStatesModel.WellFormed := by
  have first : twoStatesModel.Reaches "a" := .start rfl (by decide)
  have second : twoStatesModel.Reaches "b" :=
    .step (s := ⟨"a", some "first", false, .flowable .inject (some "b")⟩) first List.mem_cons_self ⟨by decide, by decide⟩
  refine ⟨by decide, fun s member b leads => ?_, fun s member => ?_, fun s member => ?_⟩
  · simp only [twoStatesModel, List.mem_cons, List.not_mem_nil, or_false] at member
    rcases member with rfl | rfl
    · obtain ⟨-, same⟩ := (leads_flowable rfl).mp leads
      exact ⟨_, List.mem_cons_of_mem _ List.mem_cons_self, Option.some.inj same⟩
    · obtain ⟨ne, same⟩ := (leads_flowable rfl).mp leads
      exact absurd (Option.some.inj same).symm ne
  · simp only [twoStatesModel, List.mem_cons, List.not_mem_nil, or_false] at member
    rcases member with rfl | rfl
    · exact first
    · exact second
  · simp only [twoStatesModel, List.mem_cons, List.not_mem_nil, or_false] at member
    rcases member with rfl | rfl
    · simpa using ⟨"b", (leads_flowable rfl).mpr ⟨by decide, rfl⟩⟩
    · refine iff_of_true rfl fun b leads => ?_
      obtain ⟨ne, same⟩ := (leads_flowable rfl).mp leads
      exact ne (Option.some.inj same).symm

/-- A switch state is dropped at the end, and changes its type. -/
theorem edits_wellFormed_dropped :
    Along StateMachineModel.step (fun m edit => m.Fits edit.operation) twoStatesModel
        [⟨.drop "b" .switch "c", 1⟩, ⟨.switchTo "c" .data, 0⟩] ∧
      Always StateMachineModel.step StateMachineModel.WellFormed twoStatesModel
        [⟨.drop "b" .switch "c", 1⟩, ⟨.switchTo "c" .data, 0⟩] := by
  have fits : Along StateMachineModel.step (fun m edit => m.Fits edit.operation) twoStatesModel
      [⟨.drop "b" .switch "c", 1⟩, ⟨.switchTo "c" .data, 0⟩] := by
    refine ⟨⟨by decide, by decide, fun s member here type transition body => ?_⟩, fun m dropped => ⟨?_, fun _ _ => trivial⟩⟩
    · simp only [twoStatesModel, List.mem_cons, List.not_mem_nil, or_false] at member
      rcases member with rfl | rfl
      · simp at here
      · cases body
        rfl
    · intro s member here conditions body
      have after : twoStatesModel.step ⟨.drop "b" .switch "c", 1⟩ = some { twoStatesModel with
          states := [⟨"a", some "first", false, .flowable .inject (some "b")⟩,
            ⟨"b", some "second", false, .flowable .inject (some "c")⟩, ⟨"c", some "switch", true, .switch {}⟩] } := by
        decide
      obtain rfl := Option.some.inj (dropped.symm.trans after)
      simp only [List.mem_cons, List.not_mem_nil, or_false] at member
      rcases member with rfl | rfl | rfl
      · simp at here
      · simp at here
      · cases body
        simp
  exact ⟨fits, (edits_wellFormed twoStatesModel rfl twoStates_wellFormed _ fits).1⟩

/-- A state is dropped on one with a successor: the successor stays, and nothing leads to it. -/
theorem not_wellFormed_dropped : twoStates.build = some twoStatesModel ∧ twoStatesModel.WellFormed ∧
    ∃ m, twoStatesModel.step ⟨.drop "a" (.flowable .inject) "c", 3⟩ = some m ∧ ¬ m.WellFormed := by
  refine ⟨twoStates_build, twoStates_wellFormed, { twoStatesModel with
    states := [⟨"a", some "first", false, .flowable .inject (some "c")⟩, ⟨"b", some "second", true, .flowable .inject (some "")⟩,
      ⟨"c", some "inject", true, .flowable .inject (some "")⟩] }, by decide, fun wellFormed => ?_⟩
  have never {id : String} (reached : StateMachineModel.Reaches { twoStatesModel with
      states := [⟨"a", some "first", false, .flowable .inject (some "c")⟩, ⟨"b", some "second", true, .flowable .inject (some "")⟩,
        ⟨"c", some "inject", true, .flowable .inject (some "")⟩] } id) : id ≠ "b" := by
    cases reached with
    | start names =>
      rw [← Option.some.inj names]
      decide
    | step _ member leads =>
      rintro rfl
      simp only [List.mem_cons, List.not_mem_nil, or_false] at member
      rcases member with rfl | rfl | rfl <;> exact absurd leads.2 (by decide)
  exact never (wellFormed.reachable _ (List.mem_cons_of_mem _ List.mem_cons_self)) rfl

end FaasNet.StateDiagram
