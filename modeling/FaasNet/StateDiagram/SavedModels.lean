import Mathlib
import FaasNet.Lib.Lists
import FaasNet.StateDiagram.Stores

/-!
# Models that are saved and reloaded

What `build` makes of what `getJson` writes, compared with the model that was saved. An empty text, or a value with
nothing in it, is not written, so it comes back as what the constructor sets. Whether that counts as the same is a
parameter. The rest is lost: the filter of a foreach state, the use of the data of an event, the type of a switch.
-/

namespace FaasNet.StateDiagram.Stores

open FaasNet.Lib

section
variable {N : Type*} [Zero N] [DecidableEq N]

/-! ## What counts as the same -/

/-- There is nothing in it. -/
def isBlank : Option (Json N) → Bool
  | none | some .null | some (.string []) | some (.array []) | some (.object []) => true
  | _ => false

variable (lenient : Bool)

/-- If `lenient`, all texts that are no condition are the same. -/
def SameText (a b : Option String) : Prop := a = b ∨ lenient ∧ truthy a = false ∧ truthy b = false

def SameValue (a b : Option (Json N)) : Prop := a = b ∨ lenient ∧ isBlank a ∧ isBlank b

def StateDataFilter.Same (f g : StateDataFilter) : Prop :=
  SameText lenient f.input g.input ∧ SameText lenient f.output g.output

def EventDataFilter.Same (f g : EventDataFilter) : Prop :=
  f.useData = g.useData ∧ SameText lenient f.data g.data ∧ SameText lenient f.toStateData g.toStateData

def EventCondition.Same (c d : EventCondition) : Prop :=
  c.eventRef = d.eventRef ∧ c.transition = d.transition ∧
    Option.Rel (EventDataFilter.Same lenient) c.eventDataFilter d.eventDataFilter

def SameDataCondition (c d : DataCondition) : Prop :=
  c.name = d.name ∧ SameText lenient c.condition d.condition ∧ c.transition = d.transition

def StateFields.Same (s t : StateFields) : Prop :=
  s.id = t.id ∧ s.name = t.name ∧ s.isEnd = t.isEnd ∧
    Option.Rel (StateDataFilter.Same lenient) s.stateDataFilter t.stateDataFilter

def OperationActionFunctionRef.Same (r q : OperationActionFunctionRef N) : Prop :=
  r.refName = q.refName ∧ SameValue lenient r.arguments q.arguments

def ActionDataFilter.Same (f g : ActionDataFilter) : Prop :=
  f.useResults = g.useResults ∧ SameText lenient f.results g.results ∧ SameText lenient f.toStateData g.toStateData

def OperationAction.Same (a b : OperationAction N) : Prop :=
  a.name = b.name ∧ Option.Rel (OperationActionFunctionRef.Same lenient) a.functionRef b.functionRef ∧
    Option.Rel (ActionDataFilter.Same lenient) a.actionDataFilter b.actionDataFilter

/-- What a switch state shows. -/
def SwitchStateMachineState.Same (s t : SwitchStateMachineState) : Prop :=
  StateFields.Same lenient s.toStateFields t.toStateFields ∧
    List.Forall₂ (EventCondition.Same lenient) s.eventConditions t.eventConditions ∧
    List.Forall₂ (SameDataCondition lenient) s.dataConditions t.dataConditions ∧
    s.defaultCondition = t.defaultCondition

/-- The same kind and contents, and a switch state shows the same after any edits. -/
def StateMachineState.Same : StateMachineState N → StateMachineState N → Prop
  | inject s, inject t =>
    StateFields.Same lenient s.toStateFields t.toStateFields ∧ SameText lenient s.transition t.transition ∧
      SameValue lenient s.data t.data
  | operation s, operation t =>
    StateFields.Same lenient s.toStateFields t.toStateFields ∧ SameText lenient s.transition t.transition ∧
      s.actionMode = t.actionMode ∧ List.Forall₂ (OperationAction.Same lenient) s.actions t.actions
  | foreach s, foreach t =>
    StateFields.Same lenient s.toStateFields t.toStateFields ∧ SameText lenient s.transition t.transition
  | switch s, switch t => ∀ edits, (s.run edits).Same lenient (t.run edits)
  | _, _ => False

def StartStateMachineModel.Same (s t : StartStateMachineModel) : Prop :=
  SameText lenient s.stateName t.stateName ∧ SameText lenient s.schedule t.schedule

def StateMachineFunction.Same (f g : StateMachineFunction N) : Prop :=
  f.name = g.name ∧ SameText lenient f.type g.type ∧ f.operation = g.operation ∧
    SameValue lenient f.metadata g.metadata

def StateMachineEvent.Same (e f : StateMachineEvent N) : Prop :=
  e.name = f.name ∧ e.type = f.type ∧ e.source = f.source ∧ e.kind = f.kind ∧ SameValue lenient e.metadata f.metadata

structure StateMachineModel.Same (m m' : StateMachineModel N) : Prop where
  start : Option.Rel (StartStateMachineModel.Same lenient) m.start m'.start
  states : List.Forall₂ (StateMachineState.Same lenient) m.states m'.states
  functions : List.Forall₂ (StateMachineFunction.Same lenient) m.functions m'.functions
  events : List.Forall₂ (StateMachineEvent.Same lenient) m.events m'.events

/-- What is saved can be reloaded, as the same model. -/
def SavedFaithfully (toLowerCase : String → String) (m : StateMachineModel N) : Prop :=
  ∃ m', m.getJson.build toLowerCase = some m' ∧ m.Same lenient m'

/-! ## What is kept -/

def KeepsText (text : Option String) : Prop := lenient ∨ text ≠ some ""

def KeepsValue (value : Option (Json N)) : Prop := isTruthy value ∨ value = none ∨ lenient ∧ isBlank value

/-- A value without keys, such as a number, is not written. -/
def KeepsData (data : Option (Json N)) : Prop :=
  (isTruthy data ∧ hasKeys data) ∨ data = some .null ∨ lenient ∧ isBlank data

/-- The texts of a filter of a state are empty without a value. -/
def StateDataFilter.Kept (f : StateDataFilter) : Prop := lenient ∨ f.input ≠ none ∧ f.output ≠ none

def EventDataFilter.Kept (f : EventDataFilter) : Prop :=
  f.useData = none ∧ KeepsText lenient f.data ∧ KeepsText lenient f.toStateData

def OperationAction.Kept (a : OperationAction N) : Prop :=
  (∀ r ∈ a.functionRef, KeepsValue lenient r.arguments) ∧
    ∀ f ∈ a.actionDataFilter, KeepsText lenient f.results ∧ KeepsText lenient f.toStateData

/-- The switch is one on events, and its default leads somewhere. -/
structure SwitchStateMachineState.Kept (s : SwitchStateMachineState) : Prop where
  switchType : s.switchType = .event
  eventDataFilters : ∀ c ∈ s.eventConditions, ∀ f ∈ c.eventDataFilter, f.Kept lenient
  dataConditions : ∀ c ∈ s.dataConditions, KeepsText lenient c.condition
  defaultCondition : ∀ d ∈ s.defaultCondition, truthy d.transition

def StateMachineState.Kept : StateMachineState N → Prop
  | inject s => (∀ f ∈ s.stateDataFilter, f.Kept lenient) ∧ KeepsText lenient s.transition ∧ KeepsData lenient s.data
  | operation s => (∀ f ∈ s.stateDataFilter, f.Kept lenient) ∧ KeepsText lenient s.transition ∧ ∀ a ∈ s.actions, a.Kept lenient
  | foreach s => s.stateDataFilter = none ∧ KeepsText lenient s.transition
  | switch s => (∀ f ∈ s.stateDataFilter, f.Kept lenient) ∧ s.Kept lenient

def StateMachineFunction.Kept (toLowerCase : String → String) (f : StateMachineFunction N) : Prop :=
  (∀ type ∈ f.type, type ≠ "" → toLowerCase type = type) ∧ KeepsText lenient f.type ∧ KeepsValue lenient f.metadata

/-- An event is written if it has a name, a source and a type, and read in lower case. -/
def StateMachineEvent.Kept (toLowerCase : String → String) (e : StateMachineEvent N) : Prop :=
  e.isWritten ∧ (∃ kind, e.kind = some kind ∧ toLowerCase kind = kind) ∧ KeepsValue lenient e.metadata

structure StateMachineModel.Kept (toLowerCase : String → String) (m : StateMachineModel N) : Prop where
  start : ∀ s ∈ m.start, KeepsText lenient s.stateName ∧ KeepsText lenient s.schedule
  states : ∀ s ∈ m.states, s.Kept lenient
  functions : ∀ f ∈ m.functions, f.Kept lenient toLowerCase
  events : ∀ e ∈ m.events, e.Kept lenient toLowerCase

end

/-! ## Texts and values -/

section
variable {N : Type*} [Zero N] [DecidableEq N] {lenient : Bool} {text : Option String} {value : Option (Json N)}

@[simp] theorem given_given (text : Option String) : given (given text) = given text := by
  by_cases condition : truthy text <;> simp [given, condition]

@[simp] theorem givenValue_givenValue (value : Option (Json N)) : givenValue (givenValue value) = givenValue value := by
  by_cases condition : isTruthy value <;> simp [givenValue, condition]

/-- Falsy is nothing, or the empty text. -/
theorem truthy_eq_false_iff : truthy text = false ↔ text = none ∨ text = some "" := by
  cases text <;> simp [truthy]

/-- A text that is not there is not written either. -/
theorem sameText_given : SameText lenient text (given text) ↔ KeepsText lenient text := by
  by_cases condition : truthy text
  · have filled : text ≠ some "" := by
      rintro rfl
      cases condition
    simp [SameText, KeepsText, given, condition, filled]
  · have empty := truthy_eq_false_iff.mp ((Bool.not_eq_true _).mp condition)
    obtain rfl | rfl := empty <;> simp [SameText, KeepsText, given, truthy]

theorem sameText_getD : SameText lenient text (if truthy (given text) then given text else some "") ↔
    lenient ∨ text ≠ none := by
  by_cases condition : truthy text
  · have there : text ≠ none := by
      rintro rfl
      cases condition
    simp [SameText, given, condition, there]
  · have empty := truthy_eq_false_iff.mp ((Bool.not_eq_true _).mp condition)
    obtain rfl | rfl := empty <;> simp [SameText, given, truthy]

/-- A value is the same if it is kept. -/
theorem sameValue_givenValue : SameValue lenient value (givenValue value) ↔ KeepsValue lenient value := by
  by_cases condition : isTruthy value
  · simp [SameValue, KeepsValue, givenValue, condition]
  · have nothing : isBlank (none : Option (Json N)) = true := rfl
    simp [SameValue, KeepsValue, givenValue, condition, nothing]

theorem optionRel_map {α : Type*} {R : α → α → Prop} {f : α → α} {o : Option α} :
    Option.Rel R o (o.map f) ↔ ∀ a ∈ o, R a (f a) := by
  cases o <;> simp [Option.rel_none_none, Option.rel_some_some]

end

/-! ## Switch states that show the same -/

/-- Two switch states that also do the same. -/
structure Twins (lenient : Bool) (s t : SwitchStateMachineState) : Prop where
  same : s.Same lenient t
  switchType : s.switchType = t.switchType

section
variable {lenient : Bool} {s t : SwitchStateMachineState}

theorem optionRel_getElem? {α : Type*} {R : α → α → Prop} {l l' : List α} (related : List.Forall₂ R l l') (i : Nat) :
    Option.Rel R l[i]? l'[i]? := by
  induction related generalizing i with
  | nil => exact .none
  | cons first _ ih =>
    cases i with
    | zero => exact .some first
    | succ i => exact ih i

/-- The same place is taken out of both lists. -/
theorem forall₂_splice {α : Type*} {R : α → α → Prop} {l l' : List α} (related : List.Forall₂ R l l') (index : Option Nat) :
    List.Forall₂ R (splice l index) (splice l' index) := by
  cases index with
  | none =>
    rw [splice, splice, Option.elim_none, Option.elim_none, List.dropLast_eq_take, List.dropLast_eq_take, related.length_eq]
    exact List.forall₂_take _ related
  | some i =>
    rw [splice, splice, Option.elim_some, Option.elim_some, List.eraseIdx_eq_take_drop_succ,
      List.eraseIdx_eq_take_drop_succ]
    exact List.rel_append (List.forall₂_take i related) (List.forall₂_drop (i + 1) related)

/-- The same places are picked from both. -/
theorem forall₂_pick {α ι : Type*} {R : α → α → Prop} {l l' : List α} (related : List.Forall₂ R l l') (places : List ι)
    (index : ι → Option Nat) : List.Forall₂ R (places.filterMap fun p => (index p).bind fun i => l[i]?)
      (places.filterMap fun p => (index p).bind fun i => l'[i]?) := by
  refine List.rel_filterMap (R := Eq) ?_ (List.forall₂_same.mpr fun _ _ => rfl)
  rintro p _ rfl
  show Option.Rel R ((index p).bind fun i => l[i]?) ((index p).bind fun i => l'[i]?)
  cases index p with
  | none => exact .none
  | some i => exact optionRel_getElem? related i

theorem map_eq_of_forall₂ {α β : Type*} {R : α → α → Prop} {f : α → β} (keeps : ∀ a b, R a b → f a = f b) {l l' : List α}
    (related : List.Forall₂ R l l') : l.map f = l'.map f := by
  induction related with
  | nil => rfl
  | cons first _ ih => rw [List.map_cons, List.map_cons, keeps _ _ first, ih]

/-- The same states have the same transitions. -/
theorem getNextTransitions_same (same : s.Same lenient t) : s.getNextTransitions = t.getNextTransitions := by
  obtain ⟨-, events, datas, default⟩ := same
  rw [SwitchStateMachineState.getNextTransitions, SwitchStateMachineState.getNextTransitions, default,
    map_eq_of_forall₂ (fun _ _ related => related.2.1) events, map_eq_of_forall₂ (fun _ _ related => related.2.2) datas]

theorem Twins.tryAddTransition (twins : Twins lenient s t) (transitionName : Option String) :
    Twins lenient (s.tryAddTransition transitionName) (t.tryAddTransition transitionName) := by
  obtain ⟨⟨⟨id, name, -, filter⟩, events, datas, default⟩, type⟩ := twins
  rw [SwitchStateMachineState.tryAddTransition, SwitchStateMachineState.tryAddTransition, ← type]
  cases s.switchType with
  | event =>
    have added : EventCondition.Same lenient { transition := transitionName } { transition := transitionName } :=
      ⟨rfl, rfl, .none⟩
    exact ⟨⟨⟨id, name, rfl, filter⟩, List.rel_append events (.cons added .nil), datas, default⟩, rfl⟩
  | data =>
    have added : SameDataCondition lenient { condition := some "true", transition := transitionName }
        { condition := some "true", transition := transitionName } := ⟨rfl, .inl rfl, rfl⟩
    exact ⟨⟨⟨id, name, rfl, filter⟩, events, List.rel_append datas (.cons added .nil), default⟩, rfl⟩

theorem Twins.setTransitions (twins : Twins lenient s t) (transitions : List Transition) :
    Twins lenient (s.setTransitions transitions) (t.setTransitions transitions) := by
  obtain ⟨⟨⟨id, name, -, filter⟩, events, datas, default⟩, type⟩ := twins
  rw [SwitchStateMachineState.setTransitions, SwitchStateMachineState.setTransitions, ← type]
  cases s.switchType with
  | event => exact ⟨⟨⟨id, name, rfl, filter⟩, forall₂_pick events _ _, datas, default⟩, rfl⟩
  | data => exact ⟨⟨⟨id, name, rfl, filter⟩, events, forall₂_pick datas _ _, default⟩, rfl⟩

theorem Twins.setDefault (twins : Twins lenient s t) (transition : Transition) :
    Twins lenient { s.removeTransition transition with defaultCondition := some ⟨transition.transition⟩ }
      { t.removeTransition transition with defaultCondition := some ⟨transition.transition⟩ } := by
  obtain ⟨⟨fields, events, datas, -⟩, type⟩ := twins
  rw [SwitchStateMachineState.removeTransition, SwitchStateMachineState.removeTransition, ← type]
  cases s.switchType with
  | event => exact ⟨⟨fields, forall₂_splice events _, datas, rfl⟩, rfl⟩
  | data => exact ⟨⟨fields, events, forall₂_splice datas _, rfl⟩, rfl⟩

/-- Twins stay twins when a transition is switched to the default. -/
theorem Twins.swichTransitionToDefault (twins : Twins lenient s t) (transition : Transition) :
    Twins lenient (s.swichTransitionToDefault transition) (t.swichTransitionToDefault transition) := by
  rw [SwitchStateMachineState.swichTransitionToDefault, SwitchStateMachineState.swichTransitionToDefault,
    ← twins.same.2.2.2]
  cases s.defaultCondition with
  | none => exact twins.setDefault transition
  | some d =>
    by_cases already : transition.transition = d.transition
    · simpa [already] using twins
    · simpa [already] using (twins.tryAddTransition d.transition).setDefault transition

theorem Twins.switchTo (twins : Twins lenient s t) (type : SwitchTypes) :
    Twins lenient (SwitchEdit.apply s (.switchTo type)) (SwitchEdit.apply t (.switchTo type)) := by
  obtain ⟨⟨fields, events, datas, default⟩, -⟩ := twins
  cases type with
  | event =>
    refine ⟨⟨fields, List.rel_map ?_ datas, .nil, default⟩, rfl⟩
    exact fun c d related => ⟨rfl, related.2.2, .none⟩
  | data =>
    refine ⟨⟨fields, .nil, List.rel_map ?_ events, default⟩, rfl⟩
    exact fun c d related => ⟨rfl, .inl rfl, related.2.1⟩

/-- What one edit preserves. -/
theorem Twins.apply (twins : Twins lenient s t) (edit : SwitchEdit) :
    Twins lenient (SwitchEdit.apply s edit) (SwitchEdit.apply t edit) := by
  cases edit with
  | tryAddTransition transitionName => exact twins.tryAddTransition _
  | setTransitions keep =>
    rw [SwitchEdit.apply, SwitchEdit.apply, getNextTransitions_same twins.same]
    exact twins.setTransitions _
  | swichTransitionToDefault ref =>
    rw [SwitchEdit.apply, SwitchEdit.apply, getNextTransitions_same twins.same]
    cases t.getNextTransitions.find? fun t => t.ref = ref with
    | none => exact twins
    | some transition => exact twins.swichTransitionToDefault transition
  | switchTo type => exact twins.switchTo type

/-- No edits tell twins apart. -/
theorem Twins.run (twins : Twins lenient s t) (edits : List SwitchEdit) : Twins lenient (s.run edits) (t.run edits) := by
  induction edits generalizing s t with
  | nil => exact twins
  | cons edit edits ih => exact ih (twins.apply edit)

/-- Two switch states that show the same whatever is done have one type. -/
theorem switchType_eq_of_run (same : ∀ edits, (s.run edits).Same lenient (t.run edits)) : s.switchType = t.switchType := by
  have start := (same []).2.1.length_eq
  have added := (same [.tryAddTransition ""]).2.1.length_eq
  simp only [SwitchStateMachineState.run, List.foldl_nil, List.foldl_cons, SwitchEdit.apply,
    SwitchStateMachineState.tryAddTransition] at start added
  cases kind : s.switchType <;> cases kind' : t.switchType <;> simp_all

end

/-! ## What comes back -/

section
variable {lenient : Bool}

theorem filter_same_iff {filter : Option StateDataFilter} :
    Option.Rel (StateDataFilter.Same lenient) filter (buildFilter (filter.map (·.getJson))) ↔
      ∀ f ∈ filter, f.Kept lenient := by
  rw [buildFilter, Option.map_map, optionRel_map]
  refine forall₂_congr fun f _ => ?_
  exact (and_congr sameText_getD sameText_getD).trans or_and_left.symm

theorem eventCondition_same_iff {c : EventCondition} :
    EventCondition.Same lenient c c.getJson.build ↔ ∀ f ∈ c.eventDataFilter, f.Kept lenient := by
  have filters : Option.Rel (EventDataFilter.Same lenient) c.eventDataFilter c.getJson.build.eventDataFilter ↔
      ∀ f ∈ c.eventDataFilter, f.Kept lenient := by
    rw [EventCondition.getJson, EventConditionJson.build, Option.map_map, optionRel_map]
    refine forall₂_congr fun f _ => ?_
    simp only [EventDataFilter.Same, EventDataFilter.Kept, EventDataFilter.getJson, EventDataFilterJson.build,
      Function.comp_apply, given_given, sameText_given]
  rw [← filters]
  exact ⟨fun same => same.2.2, fun same => ⟨rfl, rfl, same⟩⟩

/-- A data condition is restored exactly if its expression is kept. -/
theorem dataCondition_same_iff {c : DataCondition} :
    SameDataCondition lenient c (buildDataCondition (dataConditionJson c)) ↔ KeepsText lenient c.condition := by
  rw [← sameText_given]
  exact ⟨fun same => same.2.1, fun same => ⟨rfl, same, rfl⟩⟩

variable {N : Type*}

/-- What a switch state shows comes back but for the filters of its events and a default that leads nowhere. -/
theorem switch_same_iff {s : SwitchStateMachineState} : s.Same lenient (s.getJson : StateJson N).buildSwitch ↔
    (∀ f ∈ s.stateDataFilter, f.Kept lenient) ∧ (∀ c ∈ s.eventConditions, ∀ f ∈ c.eventDataFilter, f.Kept lenient) ∧
      (∀ c ∈ s.dataConditions, KeepsText lenient c.condition) ∧ ∀ d ∈ s.defaultCondition, truthy d.transition := by
  have events : (s.getJson : StateJson N).buildSwitch.eventConditions = s.eventConditions.map fun c => c.getJson.build := by
    by_cases empty : s.eventConditions = [] <;> simp [SwitchStateMachineState.getJson, StateJson.buildSwitch, empty]
  have datas : (s.getJson : StateJson N).buildSwitch.dataConditions =
      s.dataConditions.map fun c => buildDataCondition (dataConditionJson c) := by
    by_cases empty : s.dataConditions = [] <;> simp [SwitchStateMachineState.getJson, StateJson.buildSwitch, empty]
  have default : s.defaultCondition = (s.getJson : StateJson N).buildSwitch.defaultCondition ↔
      ∀ d ∈ s.defaultCondition, truthy d.transition := by
    show s.defaultCondition = s.defaultCondition.filter (fun d => truthy d.transition) ↔ _
    cases s.defaultCondition with
    | none => simp
    | some d => by_cases leads : truthy d.transition <;> simp [Option.filter, leads]
  have fields : StateFields.Same lenient s.toStateFields (s.getJson : StateJson N).buildSwitch.toStateFields ↔
      ∀ f ∈ s.stateDataFilter, f.Kept lenient :=
    ⟨fun same => filter_same_iff.mp same.2.2.2, fun kept => ⟨rfl, rfl, rfl, filter_same_iff.mpr kept⟩⟩
  rw [SwitchStateMachineState.Same, fields, events, datas, default, List.forall₂_map_right_iff, List.forall₂_same,
    List.forall₂_map_right_iff, List.forall₂_same]
  simp only [eventCondition_same_iff, dataCondition_same_iff]

/-- It then also does the same, if it is a switch on events. -/
theorem switch_run_same_iff {s : SwitchStateMachineState} :
    (∀ edits, (s.run edits).Same lenient ((s.getJson : StateJson N).buildSwitch.run edits)) ↔
      (∀ f ∈ s.stateDataFilter, f.Kept lenient) ∧ s.Kept lenient := by
  constructor
  · intro same
    obtain ⟨filter, events, datas, default⟩ := switch_same_iff.mp (same [])
    exact ⟨filter, switchType_eq_of_run same, events, datas, default⟩
  · rintro ⟨filter, type, events, datas, default⟩ edits
    have twins : Twins lenient s (s.getJson : StateJson N).buildSwitch :=
      ⟨switch_same_iff.mpr ⟨filter, events, datas, default⟩, type⟩
    exact (twins.run edits).same

variable [Zero N] [DecidableEq N]

/-- The data of an inject state are restored exactly if they are kept. -/
theorem sameValue_data {data : Option (Json N)} :
    SameValue lenient data (if isTruthy (if isTruthy data && hasKeys data then data else none) then
      (if isTruthy data && hasKeys data then data else none) else some .null) ↔ KeepsData lenient data := by
  by_cases written : isTruthy data ∧ hasKeys data
  · simp [SameValue, KeepsData, written]
  · have lost : (isTruthy data && hasKeys data) = false := by simpa using written
    have nothing : isTruthy (none : Option (Json N)) = false := rfl
    have blank : isBlank (some .null : Option (Json N)) = true := rfl
    simp [SameValue, KeepsData, written, lost, nothing, blank]

/-- A reference to a function is restored exactly if its arguments are kept. -/
theorem functionRef_same_iff {r : OperationActionFunctionRef N} :
    OperationActionFunctionRef.Same lenient r r.getJson.build ↔ KeepsValue lenient r.arguments := by
  rw [← sameValue_givenValue, ← givenValue_givenValue]
  exact ⟨fun same => same.2, fun same => ⟨rfl, same⟩⟩

theorem actionDataFilter_same_iff {f : ActionDataFilter} :
    ActionDataFilter.Same lenient f f.getJson.build ↔ KeepsText lenient f.results ∧ KeepsText lenient f.toStateData := by
  rw [← sameText_given, ← sameText_given, ← given_given f.results, ← given_given f.toStateData]
  exact ⟨fun same => same.2, fun same => ⟨rfl, same⟩⟩

/-- An action is restored exactly if its parts are kept. -/
theorem action_same_iff {a : OperationAction N} : OperationAction.Same lenient a a.getJSON.build ↔ a.Kept lenient := by
  have functions : Option.Rel (OperationActionFunctionRef.Same lenient) a.functionRef a.getJSON.build.functionRef ↔
      ∀ r ∈ a.functionRef, KeepsValue lenient r.arguments := by
    show Option.Rel _ a.functionRef ((a.functionRef.map (·.getJson)).map (·.build)) ↔ _
    rw [Option.map_map, optionRel_map]
    exact forall₂_congr fun r _ => functionRef_same_iff
  have filters : Option.Rel (ActionDataFilter.Same lenient) a.actionDataFilter a.getJSON.build.actionDataFilter ↔
      ∀ f ∈ a.actionDataFilter, KeepsText lenient f.results ∧ KeepsText lenient f.toStateData := by
    show Option.Rel _ a.actionDataFilter ((a.actionDataFilter.map (·.getJson)).map (·.build)) ↔ _
    rw [Option.map_map, optionRel_map]
    exact forall₂_congr fun f _ => actionDataFilter_same_iff
  rw [OperationAction.Kept, ← functions, ← filters]
  exact ⟨fun same => same.2, fun same => ⟨rfl, same⟩⟩

end

/-! ## Models -/

section
variable {N : Type*} [Zero N] [DecidableEq N] {lenient : Bool} {toLowerCase : String → String}

/-- A state is restored exactly if what belongs to its type is kept. -/
theorem state_same_iff {s : StateMachineState N} :
    (∃ t, s.getJson.build = some t ∧ s.Same lenient t) ↔ s.Kept lenient := by
  cases s with
  | inject s =>
    have built : (StateMachineState.inject s).getJson.build = some (.inject s.getJson.buildInject) := rfl
    simp only [built, Option.some.injEq, exists_eq_left']
    refine Iff.trans ?_ (and_congr filter_same_iff (and_congr sameText_given sameValue_data))
    exact ⟨fun ⟨fields, same⟩ => ⟨fields.2.2.2, same⟩, fun ⟨filter, same⟩ => ⟨⟨rfl, rfl, rfl, filter⟩, same⟩⟩
  | operation s =>
    have built : (StateMachineState.operation s).getJson.build = some (.operation s.getJson.buildOperation) := rfl
    simp only [built, Option.some.injEq, exists_eq_left']
    have actions : List.Forall₂ (OperationAction.Same lenient) s.actions s.getJson.buildOperation.actions ↔
        ∀ a ∈ s.actions, a.Kept lenient := by
      rw [OperationStateMachineState.getJson, StateJson.buildOperation, Option.getD_some, List.map_map,
        List.forall₂_map_right_iff, List.forall₂_same]
      exact forall₂_congr fun a _ => action_same_iff
    refine Iff.trans ?_ (and_congr filter_same_iff (and_congr sameText_given actions))
    exact ⟨fun ⟨fields, text, _, same⟩ => ⟨fields.2.2.2, text, same⟩,
      fun ⟨filter, text, same⟩ => ⟨⟨rfl, rfl, rfl, filter⟩, text, rfl, same⟩⟩
  | foreach s =>
    have built : (StateMachineState.foreach s : StateMachineState N).getJson.build =
      some (.foreach (s.getJson : StateJson N).buildForeach) := rfl
    simp only [built, Option.some.injEq, exists_eq_left']
    have lost : Option.Rel (StateDataFilter.Same lenient) s.stateDataFilter none ↔ s.stateDataFilter = none := by
      cases s.stateDataFilter <;> simp
    refine Iff.trans ?_ (and_congr lost sameText_given)
    exact ⟨fun ⟨fields, same⟩ => ⟨fields.2.2.2, same⟩, fun ⟨filter, same⟩ => ⟨⟨rfl, rfl, rfl, filter⟩, same⟩⟩
  | switch s =>
    have built : (StateMachineState.switch s : StateMachineState N).getJson.build =
      some (.switch (s.getJson : StateJson N).buildSwitch) := rfl
    simp only [built, Option.some.injEq, exists_eq_left']
    exact switch_run_same_iff

/-- A function is restored exactly if its type and its metadata are kept. -/
theorem function_same_iff {f : StateMachineFunction N} :
    StateMachineFunction.Same lenient f (f.getJson.build toLowerCase) ↔ f.Kept lenient toLowerCase := by
  have type : SameText lenient f.type ((given f.type).map toLowerCase) ↔
      (∀ type ∈ f.type, type ≠ "" → toLowerCase type = type) ∧ KeepsText lenient f.type := by
    cases f.type with
    | none => simp [SameText, KeepsText, given, truthy]
    | some type =>
      by_cases empty : type = ""
      · simp [SameText, KeepsText, given, truthy, empty]
      · simp only [SameText, KeepsText, given, truthy, empty, Option.any_some, ne_eq, not_false_eq_true, decide_true,
          if_true, Option.map_some, Option.some.injEq, Option.mem_some_iff, forall_eq', forall_const, or_true, and_true,
          Bool.true_eq_false, false_and, and_false, or_false]
        exact eq_comm
  rw [StateMachineFunction.Kept, ← and_assoc, ← type, ← sameValue_givenValue]
  exact ⟨fun same => ⟨same.2.1, same.2.2.2⟩, fun same => ⟨rfl, same.1, rfl, same.2⟩⟩

/-- An event is restored exactly if it has a kind in lower case and its metadata are kept. -/
theorem event_same_iff {e : StateMachineEvent N} :
    (∃ f, e.getJson.build toLowerCase = some f ∧ StateMachineEvent.Same lenient e f) ↔
      (∃ kind, e.kind = some kind ∧ toLowerCase kind = kind) ∧ KeepsValue lenient e.metadata := by
  rw [← sameValue_givenValue, ← givenValue_givenValue]
  constructor
  · rintro ⟨f, built, same⟩
    obtain ⟨kind, there, rfl⟩ := Option.map_eq_some_iff.mp built
    have kinds : e.kind = some (toLowerCase kind) := same.2.2.2.1
    exact ⟨⟨kind, there, Option.some.inj (kinds.symm.trans there)⟩, same.2.2.2.2⟩
  · rintro ⟨⟨kind, there, lower⟩, metadata⟩
    refine ⟨_, Option.map_eq_some_iff.mpr ⟨kind, there, rfl⟩, rfl, rfl, rfl, ?_, metadata⟩
    rw [there, lower]

/-- The events that are not written are missing, so all have to be. -/
theorem events_same_iff {events : List (StateMachineEvent N)} :
    (∃ events', ((events.filter (·.isWritten)).map (·.getJson)).mapM (·.build toLowerCase) = some events' ∧
      List.Forall₂ (StateMachineEvent.Same lenient) events events') ↔ ∀ e ∈ events, e.Kept lenient toLowerCase := by
  have kept (all : ∀ e ∈ events, e.isWritten) :
      (∃ events', ((events.filter (·.isWritten)).map (·.getJson)).mapM (·.build toLowerCase) = some events' ∧
        List.Forall₂ (StateMachineEvent.Same lenient) events events') ↔ ∀ e ∈ events,
          (∃ kind, e.kind = some kind ∧ toLowerCase kind = kind) ∧ KeepsValue lenient e.metadata := by
    rw [List.filter_eq_self.mpr all, List.mapM_map, exists_forall₂_mapM_iff]
    exact forall₂_congr fun e _ => event_same_iff
  constructor
  · rintro ⟨events', built, same⟩
    have length := (forall₂_of_mapM built).length_eq
    rw [List.length_map, ← same.length_eq] at length
    have all := List.length_filter_eq_length_iff.mp length
    have rest := (kept all).mp ⟨events', built, same⟩
    exact fun e mem => ⟨all e mem, rest e mem⟩
  · intro each
    exact (kept fun e mem => (each e mem).1).mpr fun e mem => (each e mem).2

/-- What is read of a model that was written, part by part. -/
theorem build_getJson (m : StateMachineModel N) : m.getJson.build toLowerCase = do
    let states ← (m.states.map (·.getJson)).mapM (·.build)
    let events ← ((m.events.filter (·.isWritten)).map (·.getJson)).mapM (·.build toLowerCase)
    return {
      id := m.id
      applicationDomainId := none
      vpn := none
      name := m.name
      description := m.description
      version := m.version
      specVersion := m.specVersion
      start := m.start.map (·.build)
      states := states
      functions := m.functions.map fun f => f.getJson.build toLowerCase
      events := events } := by
  have events : m.getJson.events.getD [] = (m.events.filter (·.isWritten)).map (·.getJson) := by
    by_cases nothing : m.events.filter (·.isWritten) = [] <;> simp [StateMachineModel.getJson, nothing]
  have functions : (m.getJson.functions.getD []).map (·.build toLowerCase) =
      m.functions.map fun f => f.getJson.build toLowerCase := by
    by_cases nothing : m.functions = [] <;> simp [StateMachineModel.getJson, nothing]
  rw [StateMachineModelJson.build, events, functions]
  rfl

/-- **A model is saved faithfully exactly if all that is in it is kept.** -/
theorem savedFaithfully_iff (lenient : Bool) (toLowerCase : String → String) (m : StateMachineModel N) :
    SavedFaithfully lenient toLowerCase m ↔ m.Kept lenient toLowerCase := by
  have start : Option.Rel (StartStateMachineModel.Same lenient) m.start (m.start.map (·.build)) ↔
      ∀ s ∈ m.start, KeepsText lenient s.stateName ∧ KeepsText lenient s.schedule := by
    rw [optionRel_map]
    exact forall₂_congr fun s _ => and_congr sameText_given sameText_given
  have states : (∃ states, (m.states.map (·.getJson)).mapM (·.build) = some states ∧
      List.Forall₂ (StateMachineState.Same lenient) m.states states) ↔ ∀ s ∈ m.states, s.Kept lenient := by
    rw [List.mapM_map, exists_forall₂_mapM_iff]
    exact forall₂_congr fun s _ => state_same_iff
  have functions : List.Forall₂ (StateMachineFunction.Same lenient) m.functions
      (m.functions.map fun f => f.getJson.build toLowerCase) ↔ ∀ f ∈ m.functions, f.Kept lenient toLowerCase := by
    rw [List.forall₂_map_right_iff, List.forall₂_same]
    exact forall₂_congr fun f _ => function_same_iff
  constructor
  · rintro ⟨m', built, same⟩
    rw [build_getJson] at built
    obtain ⟨ss, readStates, built⟩ := Option.bind_eq_some_iff.mp built
    obtain ⟨es, readEvents, built⟩ := Option.bind_eq_some_iff.mp built
    cases built
    exact ⟨start.mp same.start, states.mp ⟨ss, readStates, same.states⟩, functions.mp same.functions,
      events_same_iff.mp ⟨es, readEvents, same.events⟩⟩
  · intro kept
    obtain ⟨ss, readStates, sameStates⟩ := states.mpr kept.states
    obtain ⟨es, readEvents, sameEvents⟩ := events_same_iff.mpr kept.events
    have built : m.getJson.build toLowerCase = _ := build_getJson m
    rw [readStates, readEvents] at built
    exact ⟨_, built, start.mpr kept.start, sameStates, functions.mpr kept.functions, sameEvents⟩

/-- A switch state on data, as the editor makes it from a new one. -/
def dataSwitch : SwitchStateMachineState where
  id := some "a"
  name := some "switch"
  switchType := .data
  dataConditions := [{ condition := some "true", transition := some "b" }]

def dataSwitchModel : StateMachineModel Nat where
  id := some "m"
  start := some { stateName := some "a" }
  states := [.switch dataSwitch]

/-- It comes back as a switch on events. -/
theorem not_savedFaithfully_dataSwitch : ¬ SavedFaithfully true id dataSwitchModel := by
  rintro ⟨m', built, same⟩
  obtain rfl := Option.some.inj ((build_getJson dataSwitchModel).symm.trans built)
  have behaves := (List.forall₂_cons.mp same.states).1
  cases switchType_eq_of_run behaves

end

end FaasNet.StateDiagram.Stores
