import Mathlib.Data.List.Perm.Subperm
import FaasNet.StateDiagram.Stores

/-!
# Choosing the default of a switch state

The transition that is to be the default is removed from the conditions of the switch type, where one of the other type
is not found, and the last condition goes instead. A default that leads nowhere is not among the transitions, but it
becomes a condition that is.
-/

namespace FaasNet.StateDiagram.Stores

open FaasNet.Lib

/-- A condition object. -/
inductive Condition where
  | event (condition : EventCondition)
  | data (condition : DataCondition)

def Condition.transition : Condition → Option String
  | event c => c.transition
  | data c => c.transition

def Condition.isEvent : Condition → Bool
  | event _ => true
  | data _ => false

/-- The transition is a condition of the type. -/
def ConditionRef.IsOf : SwitchTypes → ConditionRef → Prop
  | .event, .event _ | .data, .data _ => True
  | _, _ => False

namespace SwitchStateMachineState

def conditions (s : SwitchStateMachineState) : List Condition :=
  s.eventConditions.map .event ++ s.dataConditions.map .data

/-- The conditions other than this transition. -/
def others (s : SwitchStateMachineState) : ConditionRef → List Condition
  | .event index => (s.eventConditions.eraseIdx index).map .event ++ s.dataConditions.map .data
  | .data index => s.eventConditions.map .event ++ (s.dataConditions.eraseIdx index).map .data
  | .default => s.conditions

/-- Where `getNextTransitions` leads. -/
def targets (s : SwitchStateMachineState) : List (Option String) := s.getNextTransitions.map (·.transition)

/-- No condition is of the switch type. -/
def HasNoneOfType (s : SwitchStateMachineState) : Prop :=
  match s.switchType with
  | .event => s.eventConditions = []
  | .data => s.dataConditions = []

/-- The transition becomes the default: the targets stay the same, the other conditions are as they were, and a default
with another target is one more of them. -/
structure KeepsTargets (s : SwitchStateMachineState) (t : Transition) : Prop where
  chosen : (s.swichTransitionToDefault t).defaultCondition.map (·.transition) = some t.transition
  targets : (s.swichTransitionToDefault t).targets.Perm s.targets
  others : (s.others t.ref).Sublist (s.swichTransitionToDefault t).conditions
  demoted : ∀ d, s.defaultCondition = some d → d.transition ≠ t.transition → ∃ c : Condition, c.transition = d.transition ∧
    (c :: s.others t.ref).Subperm (s.swichTransitionToDefault t).conditions

/-- The default leads there already, or the transition is one of the switch type and both it and the default lead
somewhere, or it leads nowhere and there is nothing that could be removed in its place. -/
def CanSwitch (s : SwitchStateMachineState) (t : Transition) : Prop :=
  (∃ d, s.defaultCondition = some d ∧ d.transition = t.transition) ∨
    (t.ref.IsOf s.switchType ∧ truthy t.transition ∧ ∀ d ∈ s.defaultCondition, truthy d.transition) ∨
      (¬ t.ref.IsOf s.switchType ∧ s.HasNoneOfType ∧ truthy t.transition = false ∧ s.defaultCondition = none)

end SwitchStateMachineState

/-! ## Conditions and their targets -/

section
variable {s : SwitchStateMachineState} {t : Transition} {d : EmptyTransition}

/-- The transitions lead to the targets they are built from. -/
theorem map_transitionsOf (ref : Nat → ConditionRef) (targets : List (Option String)) :
    (transitionsOf ref targets).map (·.transition) = targets := by
  apply List.ext_getElem <;> simp [transitionsOf]

/-- What the default contributes. -/
theorem targets_eq (s : SwitchStateMachineState) : s.targets = s.conditions.map (·.transition) ++
    (s.defaultCondition.filter fun d => truthy d.transition).toList.map (·.transition) := by
  rw [SwitchStateMachineState.targets, SwitchStateMachineState.getNextTransitions, List.map_append, List.map_append,
    map_transitionsOf, map_transitionsOf, SwitchStateMachineState.conditions, List.map_append, List.map_map, List.map_map,
    List.map_map]
  rfl

/-- A transition that is shown is that of a condition, or of a default that leads somewhere. -/
theorem mem_getNextTransitions : t ∈ s.getNextTransitions ↔
    (∃ i, ∃ inside : i < s.eventConditions.length, t = ⟨.event i, s.eventConditions[i].transition⟩) ∨
      (∃ i, ∃ inside : i < s.dataConditions.length, t = ⟨.data i, s.dataConditions[i].transition⟩) ∨
        ∃ d, s.defaultCondition = some d ∧ truthy d.transition ∧ t = ⟨.default, d.transition⟩ := by
  simp only [SwitchStateMachineState.getNextTransitions, transitionsOf, List.mem_append, List.mem_mapIdx, List.mem_map,
    Option.mem_toList, Option.filter_eq_some_iff, List.length_map, List.getElem_map, or_assoc, and_assoc, eq_comm (a := t)]

/-- The transition of the default leads where the default does. -/
theorem transition_eq_of_default (shown : t ∈ s.getNextTransitions) (ref : t.ref = .default) :
    ∃ d, s.defaultCondition = some d ∧ d.transition = t.transition := by
  obtain ⟨i, _, rfl⟩ | ⟨i, _, rfl⟩ | ⟨d, there, -, rfl⟩ := mem_getNextTransitions.mp shown
  · cases ref
  · cases ref
  · exact ⟨d, there, rfl⟩

/-- A condition and the others are all of them. -/
theorem conditions_perm (shown : t ∈ s.getNextTransitions) (ref : t.ref ≠ .default) :
    ∃ c : Condition, c.transition = t.transition ∧ s.conditions.Perm (c :: s.others t.ref) := by
  obtain ⟨i, inside, rfl⟩ | ⟨i, inside, rfl⟩ | ⟨d, -, -, rfl⟩ := mem_getNextTransitions.mp shown
  · refine ⟨.event s.eventConditions[i], rfl, ?_⟩
    exact ((List.getElem_cons_eraseIdx_perm inside).symm.map _).append_right _
  · refine ⟨.data s.dataConditions[i], rfl, ?_⟩
    refine (((List.getElem_cons_eraseIdx_perm inside).symm.map _).append_left _).trans ?_
    exact List.perm_middle
  · exact absurd rfl ref

end

/-! ## What is removed -/

section
variable {s : SwitchStateMachineState} {t : Transition} {target : Option String}

/-- What is removed is the transition, if it is of the switch type. -/
theorem conditions_removeTransition (type : t.ref.IsOf s.switchType) : (s.removeTransition t).conditions = s.others t.ref := by
  obtain ⟨ref, transition⟩ := t
  rw [SwitchStateMachineState.removeTransition]
  cases kind : s.switchType <;> cases ref <;> simp only [kind, ConditionRef.IsOf] at type <;> rfl

/-- If not, it is the last condition of the switch type. -/
theorem conditions_removeTransition_of_not (type : ¬ t.ref.IsOf s.switchType) :
    (s.removeTransition t).conditions = match s.switchType with
      | .event => s.eventConditions.dropLast.map .event ++ s.dataConditions.map .data
      | .data => s.eventConditions.map .event ++ s.dataConditions.dropLast.map .data := by
  obtain ⟨ref, transition⟩ := t
  rw [SwitchStateMachineState.removeTransition]
  cases kind : s.switchType <;> cases ref <;> simp only [kind, ConditionRef.IsOf, not_true_eq_false] at type <;> rfl

/-- A transition that is added does not change the type. -/
theorem switchType_tryAdd (s : SwitchStateMachineState) (target : Option String) :
    (s.tryAddTransition target).switchType = s.switchType := by
  rw [SwitchStateMachineState.tryAddTransition]
  cases s.switchType <;> rfl

/-- A transition of no condition is removed without a change. -/
theorem conditions_removeTransition_of_none (type : ¬ t.ref.IsOf s.switchType) (nothing : s.HasNoneOfType) :
    (s.removeTransition t).conditions = s.conditions := by
  rw [conditions_removeTransition_of_not type]
  rw [SwitchStateMachineState.HasNoneOfType] at nothing
  cases kind : s.switchType with
  | event =>
    simp only [kind] at nothing ⊢
    rw [SwitchStateMachineState.conditions, nothing, List.dropLast_nil]
  | data =>
    simp only [kind] at nothing ⊢
    rw [SwitchStateMachineState.conditions, nothing, List.dropLast_nil]

/-- The condition that is added comes last, so it is the one that is removed. -/
theorem conditions_add_remove_of_not (type : ¬ t.ref.IsOf s.switchType) :
    ((s.tryAddTransition target).removeTransition t).conditions = s.conditions := by
  rw [conditions_removeTransition_of_not (by rwa [switchType_tryAdd]), switchType_tryAdd,
    SwitchStateMachineState.tryAddTransition]
  cases s.switchType with
  | event => simp only [List.dropLast_concat, SwitchStateMachineState.conditions]
  | data => simp only [List.dropLast_concat, SwitchStateMachineState.conditions]

/-- A condition that is added is one more of the others, behind those of its type. -/
theorem others_tryAddTransition (target : Option String) (shown : t ∈ s.getNextTransitions) (type : t.ref.IsOf s.switchType) :
    (s.others t.ref).Sublist ((s.tryAddTransition target).others t.ref) ∧
      ∃ c : Condition, c.transition = target ∧ ((s.tryAddTransition target).others t.ref).Perm (c :: s.others t.ref) := by
  rw [SwitchStateMachineState.tryAddTransition]
  obtain ⟨i, inside, rfl⟩ | ⟨i, inside, rfl⟩ | ⟨d, -, -, rfl⟩ := mem_getNextTransitions.mp shown
  · cases kind : s.switchType with
    | event =>
      have kept : (s.eventConditions ++ [({ transition := target } : EventCondition)]).eraseIdx i =
          s.eventConditions.eraseIdx i ++ [{ transition := target }] := List.eraseIdx_append_of_lt_length inside _
      simp only [SwitchStateMachineState.others, kept, List.map_append, List.append_assoc, List.map_cons, List.map_nil]
      refine ⟨(List.sublist_append_right _ _).append_left _, .event { transition := target }, rfl, ?_⟩
      exact List.perm_middle
    | data => simp only [kind, ConditionRef.IsOf] at type
  · cases kind : s.switchType with
    | event => simp only [kind, ConditionRef.IsOf] at type
    | data =>
      have kept : (s.dataConditions ++ [({ condition := some "true", transition := target } : DataCondition)]).eraseIdx i =
          s.dataConditions.eraseIdx i ++ [{ condition := some "true", transition := target }] :=
        List.eraseIdx_append_of_lt_length inside _
      simp only [SwitchStateMachineState.others, kept, List.map_append, List.map_cons, List.map_nil]
      refine ⟨(List.sublist_append_left _ _).append_left _, .data { condition := some "true", transition := target }, rfl, ?_⟩
      rw [← List.append_assoc]
      exact List.perm_append_singleton _ _
  · cases kind : s.switchType <;> simp only [kind, ConditionRef.IsOf] at type

theorem filter_isEvent (events : List EventCondition) (datas : List DataCondition) :
    (events.map Condition.event ++ datas.map Condition.data).filter (·.isEvent) = events.map .event := by
  simp [List.filter_append, List.filter_map, Function.comp_def, Condition.isEvent]

theorem filter_not_isEvent (events : List EventCondition) (datas : List DataCondition) :
    (events.map Condition.event ++ datas.map Condition.data).filter (fun c => !c.isEvent) = datas.map .data := by
  simp [List.filter_append, List.filter_map, Function.comp_def, Condition.isEvent]

/-- A transition that is none of the switch type leaves the others alone only if nothing is removed in its place. -/
theorem hasNoneOfType_of_sublist (condition : t.ref ≠ .default) (type : ¬ t.ref.IsOf s.switchType)
    (kept : (s.others t.ref).Sublist (s.removeTransition t).conditions) : s.HasNoneOfType := by
  obtain ⟨ref, transition⟩ := t
  rw [conditions_removeTransition_of_not type] at kept
  rw [SwitchStateMachineState.HasNoneOfType]
  cases kind : s.switchType with
  | event =>
    cases ref with
    | event => simp only [kind, ConditionRef.IsOf, not_true_eq_false] at type
    | default => exact absurd rfl condition
    | data i =>
      simp only [kind, SwitchStateMachineState.others] at kept
      have fewer := (kept.filter (·.isEvent)).length_le
      rw [filter_isEvent, filter_isEvent, List.length_map, List.length_map, List.length_dropLast] at fewer
      apply List.eq_nil_of_length_eq_zero
      omega
  | data =>
    cases ref with
    | data => simp only [kind, ConditionRef.IsOf, not_true_eq_false] at type
    | default => exact absurd rfl condition
    | event i =>
      simp only [kind, SwitchStateMachineState.others] at kept
      have fewer := (kept.filter fun c => !c.isEvent).length_le
      rw [filter_not_isEvent, filter_not_isEvent, List.length_map, List.length_map, List.length_dropLast] at fewer
      apply List.eq_nil_of_length_eq_zero
      omega

end

/-! ## When the targets are kept -/

section
variable {s : SwitchStateMachineState} {t : Transition} {d : EmptyTransition}

/-- The targets of a state whose default leads to this one. -/
theorem targets_of_default {conditions : List Condition} (same : s.conditions.Perm conditions)
    (default : s.defaultCondition = some d) : s.targets.Perm (conditions.map (·.transition) ++
      if truthy d.transition then [d.transition] else []) := by
  rw [targets_eq, default]
  refine (same.map _).append ?_
  by_cases leads : truthy d.transition <;> simp [Option.filter, leads]

/-- With a default its target is one more. -/
theorem targets_setDefault {conditions : List Condition} (same : s.conditions.Perm conditions) (target : Option String) :
    ({ s with defaultCondition := some ⟨target⟩ } : SwitchStateMachineState).targets.Perm
      (conditions.map (·.transition) ++ if truthy target then [target] else []) :=
  targets_of_default (s := { s with defaultCondition := some ⟨target⟩ }) same rfl

/-- Without a default the targets are those of the conditions. -/
theorem targets_of_none {conditions : List Condition} (same : s.conditions.Perm conditions)
    (none : s.defaultCondition = none) : s.targets.Perm (conditions.map (·.transition)) := by
  rw [targets_eq, none]
  simpa using same.map _

theorem others_sublist (s : SwitchStateMachineState) (ref : ConditionRef) : (s.others ref).Sublist s.conditions := by
  cases ref with
  | event i => exact ((List.eraseIdx_sublist _ _).map _).append_right _
  | data i => exact ((List.eraseIdx_sublist _ _).map _).append_left _
  | default => exact List.Sublist.refl _

/-- Where the default leads to the target already, the targets are kept. -/
theorem keepsTargets_of_leads (default : s.defaultCondition = some d) (leads : d.transition = t.transition) :
    s.KeepsTargets t := by
  have same : s.swichTransitionToDefault t = s := by
    rw [SwitchStateMachineState.swichTransitionToDefault, default]
    simp only [leads, if_true]
  refine ⟨?_, ?_, ?_, fun d' default' apart => ?_⟩
  · rw [same, default, Option.map_some, leads]
  · rw [same]
  · rw [same]
    exact others_sublist s t.ref
  · obtain rfl := Option.some.inj (default.symm.trans default')
    exact absurd leads apart

/-- Without a default the transition is removed and becomes the default. -/
theorem swich_of_none (none : s.defaultCondition = none) :
    s.swichTransitionToDefault t = { s.removeTransition t with defaultCondition := some ⟨t.transition⟩ } := by
  simp only [SwitchStateMachineState.swichTransitionToDefault, none]

/-- The old default becomes a condition before the transition becomes the default. -/
theorem swich_of_ne (default : s.defaultCondition = some d) (apart : d.transition ≠ t.transition) :
    s.swichTransitionToDefault t =
      { (s.tryAddTransition d.transition).removeTransition t with defaultCondition := some ⟨t.transition⟩ } := by
  simp only [SwitchStateMachineState.swichTransitionToDefault, default, Ne.symm apart, if_false]

/-- Without a default before. -/
theorem keepsTargets_iff_of_none (shown : t ∈ s.getNextTransitions) (none : s.defaultCondition = none) :
    s.KeepsTargets t ↔ s.CanSwitch t := by
  have condition : t.ref ≠ .default := by
    intro ref
    obtain ⟨d, default, -⟩ := transition_eq_of_default shown ref
    rw [none] at default
    cases default
  obtain ⟨c, leads, perm⟩ := conditions_perm shown condition
  have before := targets_of_none perm none
  have afterwards {conditions : List Condition} (same : (s.removeTransition t).conditions.Perm conditions) :
      (s.swichTransitionToDefault t).targets.Perm (conditions.map (·.transition) ++
        if truthy t.transition then [t.transition] else []) := by
    rw [swich_of_none none]
    exact targets_setDefault same _
  constructor
  · rintro ⟨-, targets, others, -⟩
    rw [swich_of_none none] at others
    by_cases type : t.ref.IsOf s.switchType
    · have same := ((afterwards (.of_eq (conditions_removeTransition type))).symm.trans targets).trans before
      have length := same.length_eq
      refine .inr (.inl ⟨type, ?_, by simp [none]⟩)
      by_contra nowhere
      simp [nowhere] at length
    · have nothing := hasNoneOfType_of_sublist condition type others
      refine .inr (.inr ⟨type, nothing, ?_, none⟩)
      have kept := (conditions_removeTransition_of_none type nothing) ▸ perm
      have length := (((afterwards kept).symm.trans targets).trans before).length_eq
      by_contra somewhere
      simp [(Bool.not_eq_false _).mp somewhere] at length
  · rintro (⟨d, default, -⟩ | ⟨type, somewhere, -⟩ | ⟨type, nothing, nowhere, -⟩)
    · rw [none] at default
      cases default
    · have removed := conditions_removeTransition type
      refine ⟨?_, ?_, ?_, fun d default => ?_⟩
      · rw [swich_of_none none]
        rfl
      · refine (afterwards (.of_eq removed)).trans (List.Perm.trans ?_ before.symm)
        rw [somewhere, if_pos rfl, List.map_cons, leads]
        exact List.perm_append_singleton _ _
      · rw [swich_of_none none]
        exact removed ▸ List.Sublist.refl _
      · rw [none] at default
        cases default
    · have kept := conditions_removeTransition_of_none type nothing
      refine ⟨?_, ?_, ?_, fun d default => ?_⟩
      · rw [swich_of_none none]
        rfl
      · refine (afterwards (kept ▸ perm)).trans (List.Perm.trans ?_ before.symm)
        rw [nowhere, if_neg Bool.false_ne_true, List.append_nil]
      · rw [swich_of_none none]
        exact kept ▸ others_sublist s t.ref
      · rw [none] at default
        cases default

/-- With a default that leads elsewhere. -/
theorem keepsTargets_iff_of_ne (shown : t ∈ s.getNextTransitions) (default : s.defaultCondition = some d)
    (apart : d.transition ≠ t.transition) : s.KeepsTargets t ↔ s.CanSwitch t := by
  have condition : t.ref ≠ .default := by
    intro ref
    obtain ⟨d', default', leads⟩ := transition_eq_of_default shown ref
    obtain rfl := Option.some.inj (default.symm.trans default')
    exact apart leads
  obtain ⟨c, leads, perm⟩ := conditions_perm shown condition
  have before := targets_of_default perm default
  rw [List.map_cons, leads] at before
  constructor
  · rintro ⟨-, targets, -, demoted⟩
    by_cases type : t.ref.IsOf s.switchType
    · obtain ⟨-, new, same, others⟩ := others_tryAddTransition d.transition shown type
      have removed := conditions_removeTransition (s := s.tryAddTransition d.transition) (by rwa [switchType_tryAdd])
      have afterwards := targets_setDefault ((List.Perm.of_eq removed).trans others) t.transition
      rw [List.map_cons, same] at afterwards
      rw [swich_of_ne default apart] at targets
      have both := (afterwards.symm.trans targets).trans before
      refine .inr (.inl ⟨type, ?_⟩)
      by_cases somewhere : truthy t.transition <;> by_cases was : truthy d.transition
      · exact ⟨somewhere, by simpa [default] using was⟩
      · have length := both.length_eq
        simp [somewhere, was] at length
      · have length := both.length_eq
        simp [somewhere, was] at length
      · have count := both.count_eq d.transition
        simp [somewhere, was, apart.symm] at count
    · obtain ⟨new, same, fits⟩ := demoted d default apart
      rw [swich_of_ne default apart] at fits
      have fits : (new :: s.others t.ref).Subperm s.conditions := conditions_add_remove_of_not type ▸ fits
      have whole := (fits.perm_of_length_le (by rw [perm.length_eq]; rfl)).trans perm
      have count := (whole.map (·.transition)).count_eq d.transition
      simp [same, leads, apart.symm] at count
  · rintro (⟨d', default', leads⟩ | ⟨type, somewhere, was⟩ | ⟨-, -, -, none⟩)
    · obtain rfl := Option.some.inj (default.symm.trans default')
      exact absurd leads apart
    · obtain ⟨sublist, new, same, others⟩ := others_tryAddTransition d.transition shown type
      have removed := conditions_removeTransition (s := s.tryAddTransition d.transition) (by rwa [switchType_tryAdd])
      refine ⟨?_, ?_, ?_, fun d' default' _ => ?_⟩
      · rw [swich_of_ne default apart]
        rfl
      · rw [swich_of_ne default apart]
        refine (targets_setDefault ((List.Perm.of_eq removed).trans others) t.transition).trans ?_
        refine List.Perm.trans ?_ before.symm
        rw [List.map_cons, same, somewhere, was d default, if_pos rfl, if_pos rfl]
        -- the old target and the new one change places
        refine (List.perm_append_singleton _ _).trans (List.Perm.trans ?_ (List.perm_append_singleton _ _).symm)
        exact .swap _ _ _
      · rw [swich_of_ne default apart]
        exact removed ▸ sublist
      · obtain rfl := Option.some.inj (default.symm.trans default')
        rw [swich_of_ne default apart]
        exact ⟨new, same, (((List.Perm.of_eq removed).trans others).symm).subperm⟩
    · rw [none] at default
      cases default

/-- The targets are kept exactly if the transition can be switched. -/
theorem keepsTargets_iff (shown : t ∈ s.getNextTransitions) : s.KeepsTargets t ↔ s.CanSwitch t := by
  cases default : s.defaultCondition with
  | none => exact keepsTargets_iff_of_none shown default
  | some d =>
    by_cases leads : d.transition = t.transition
    · exact ⟨fun _ => .inl ⟨d, default, leads⟩, fun _ => keepsTargets_of_leads default leads⟩
    · exact keepsTargets_iff_of_ne shown default leads

end

/-! ## Runs -/

/-- All conditions are of the switch type and lead somewhere, and so does the default. -/
structure Sound (s : SwitchStateMachineState) : Prop where
  events : ∀ c ∈ s.eventConditions, s.switchType = .event ∧ truthy c.transition
  datas : ∀ c ∈ s.dataConditions, s.switchType = .data ∧ truthy c.transition
  default : ∀ d ∈ s.defaultCondition, truthy d.transition

/-- A transition that is added leads somewhere. -/
def SwitchEdit.Named : SwitchEdit → Prop
  | tryAddTransition transitionName => transitionName ≠ ""
  | _ => True

section
variable {s : SwitchStateMachineState} {t : Transition}

/-- Every transition that is shown leads somewhere, and is of the type, or the default. -/
theorem Sound.leads (sound : Sound s) (shown : t ∈ s.getNextTransitions) :
    truthy t.transition ∧ (t.ref.IsOf s.switchType ∨ ∃ d, s.defaultCondition = some d ∧ d.transition = t.transition) := by
  by_cases ref : t.ref = .default
  · obtain ⟨d, default, leads⟩ := transition_eq_of_default shown ref
    exact ⟨leads ▸ sound.default d default, .inr ⟨d, default, leads⟩⟩
  · obtain ⟨i, inside, rfl⟩ | ⟨i, inside, rfl⟩ | ⟨d, -, -, rfl⟩ := mem_getNextTransitions.mp shown
    · obtain ⟨type, leads⟩ := sound.events _ (List.getElem_mem inside)
      exact ⟨leads, .inl (by rw [type]; trivial)⟩
    · obtain ⟨type, leads⟩ := sound.datas _ (List.getElem_mem inside)
      exact ⟨leads, .inl (by rw [type]; trivial)⟩
    · exact absurd rfl ref

theorem Sound.tryAddTransition (sound : Sound s) {target : Option String} (named : truthy target) :
    Sound (s.tryAddTransition target) := by
  obtain ⟨events, datas, default⟩ := sound
  rw [SwitchStateMachineState.tryAddTransition]
  cases kind : s.switchType with
  | event =>
    refine ⟨fun c mem => ⟨rfl, ?_⟩, fun c mem => ?_, default⟩
    · rcases List.mem_append.mp mem with before | added
      · exact (events c before).2
      · obtain rfl := List.mem_singleton.mp added
        exact named
    · have type := (datas c mem).1
      rw [kind] at type
      cases type
  | data =>
    refine ⟨fun c mem => ?_, fun c mem => ⟨rfl, ?_⟩, default⟩
    · have type := (events c mem).1
      rw [kind] at type
      cases type
    · rcases List.mem_append.mp mem with before | added
      · exact (datas c before).2
      · obtain rfl := List.mem_singleton.mp added
        exact named

/-- Fewer conditions are as sound. -/
theorem Sound.mono {u : SwitchStateMachineState} (sound : Sound s) (type : u.switchType = s.switchType)
    (events : u.eventConditions ⊆ s.eventConditions) (datas : u.dataConditions ⊆ s.dataConditions)
    (default : ∀ d ∈ u.defaultCondition, truthy d.transition) : Sound u :=
  ⟨fun c mem => type ▸ sound.events c (events mem), fun c mem => type ▸ sound.datas c (datas mem), default⟩

theorem pick_subset {α ι : Type*} (l : List α) (places : List ι) (index : ι → Option Nat) :
    (places.filterMap fun p => (index p).bind fun i => l[i]?) ⊆ l := by
  intro a mem
  obtain ⟨p, -, picked⟩ := List.mem_filterMap.mp mem
  obtain ⟨i, -, found⟩ := Option.bind_eq_some_iff.mp picked
  exact List.mem_of_getElem? found

theorem splice_subset {α : Type*} (l : List α) (index : Option Nat) : splice l index ⊆ l := by
  cases index with
  | none => exact List.dropLast_subset l
  | some i => exact List.eraseIdx_subset

theorem Sound.setTransitions (sound : Sound s) (transitions : List Transition) : Sound (s.setTransitions transitions) := by
  rw [SwitchStateMachineState.setTransitions]
  cases kind : s.switchType with
  | event => exact sound.mono kind.symm (pick_subset _ _ _) (List.Subset.refl _) sound.default
  | data => exact sound.mono kind.symm (List.Subset.refl _) (pick_subset _ _ _) sound.default

theorem Sound.setDefault (sound : Sound s) (named : truthy t.transition) :
    Sound { s.removeTransition t with defaultCondition := some ⟨t.transition⟩ } := by
  have default : ∀ d ∈ some (⟨t.transition⟩ : EmptyTransition), truthy d.transition := by simpa using named
  rw [SwitchStateMachineState.removeTransition]
  cases kind : s.switchType with
  | event => exact sound.mono kind.symm (splice_subset _ _) (List.Subset.refl _) default
  | data => exact sound.mono kind.symm (List.Subset.refl _) (splice_subset _ _) default

/-- A transition to a named state can be switched to the default. -/
theorem Sound.swichTransitionToDefault (sound : Sound s) (named : truthy t.transition) :
    Sound (s.swichTransitionToDefault t) := by
  cases default : s.defaultCondition with
  | none =>
    rw [swich_of_none default]
    exact sound.setDefault named
  | some d =>
    by_cases leads : d.transition = t.transition
    · rw [SwitchStateMachineState.swichTransitionToDefault, default]
      simpa only [leads, if_true] using sound
    · rw [swich_of_ne default leads]
      exact (sound.tryAddTransition (sound.default d default)).setDefault named

theorem Sound.switchTo (sound : Sound s) (type : SwitchTypes) : Sound (SwitchEdit.apply s (.switchTo type)) := by
  cases type with
  | event =>
    refine ⟨fun c mem => ?_, fun c mem => (by cases mem), sound.default⟩
    obtain ⟨old, listed, rfl⟩ := List.mem_map.mp mem
    exact ⟨rfl, (sound.datas old listed).2⟩
  | data =>
    refine ⟨fun c mem => (by cases mem), fun c mem => ?_, sound.default⟩
    obtain ⟨old, listed, rfl⟩ := List.mem_map.mp mem
    exact ⟨rfl, (sound.events old listed).2⟩

/-- What one edit preserves. -/
theorem Sound.apply (sound : Sound s) {edit : SwitchEdit} (named : edit.Named) : Sound (edit.apply s) := by
  cases edit with
  | tryAddTransition transitionName =>
    have named : transitionName ≠ "" := named
    exact sound.tryAddTransition (by simpa [truthy] using named)
  | setTransitions keep => exact sound.setTransitions _
  | swichTransitionToDefault ref =>
    rw [SwitchEdit.apply]
    cases found : s.getNextTransitions.find? fun t => t.ref = ref with
    | none => exact sound
    | some t => exact sound.swichTransitionToDefault (sound.leads (List.mem_of_find?_eq_some found)).1
  | switchTo type => exact sound.switchTo type

/-- Edits with named targets keep a switch state sound. -/
theorem Sound.run (sound : Sound s) {edits : List SwitchEdit} (named : ∀ edit ∈ edits, edit.Named) : Sound (s.run edits) := by
  induction edits generalizing s with
  | nil => exact sound
  | cons edit edits ih =>
    have next := sound.apply (named edit List.mem_cons_self)
    exact ih next fun later mem => named later (List.mem_cons_of_mem _ mem)

/-- In a sound switch state no target is lost by a switch to the default. -/
theorem Sound.keepsTargets (sound : Sound s) (shown : t ∈ s.getNextTransitions) : s.KeepsTargets t := by
  obtain ⟨somewhere, type | default⟩ := sound.leads shown
  · exact (keepsTargets_iff shown).mpr (.inr (.inl ⟨type, somewhere, sound.default⟩))
  · exact (keepsTargets_iff shown).mpr (.inl default)

end

section
variable {N : Type*}

/-- JSON without conditions on data, whose transitions lead somewhere. -/
def StateJson.Plain (json : StateJson N) : Prop :=
  (∀ c ∈ json.eventConditions.getD [], truthy c.transition) ∧ json.dataConditions.getD [] = [] ∧
    ∀ d ∈ json.defaultCondition, truthy d.transition

/-- A plain switch state is sound when it is read. -/
theorem StateJson.Plain.sound [Zero N] [DecidableEq N] {json : StateJson N} (plain : json.Plain) : Sound json.buildSwitch := by
  obtain ⟨events, datas, default⟩ := plain
  refine ⟨fun c mem => ?_, fun c mem => ?_, default⟩
  · obtain ⟨written, listed, rfl⟩ := List.mem_map.mp mem
    exact ⟨rfl, events written listed⟩
  · rw [StateJson.buildSwitch, datas] at mem
    cases mem

/-- **Choosing a default keeps the targets exactly if the default leads there, or the transition is of the switch type and both
lead somewhere, or nothing is changed.** So it does in every run from JSON without conditions on data. -/
theorem swichTransitionToDefault_keepsTargets [Zero N] [DecidableEq N] :
    (∀ (s : SwitchStateMachineState), ∀ t ∈ s.getNextTransitions, s.KeepsTargets t ↔ s.CanSwitch t) ∧
      ∀ (json : StateJson N) (edits : List SwitchEdit), json.Plain → (∀ edit ∈ edits, edit.Named) →
        ∀ t ∈ (json.buildSwitch.run edits).getNextTransitions, (json.buildSwitch.run edits).KeepsTargets t := by
  refine ⟨fun s t shown => keepsTargets_iff shown, fun json edits plain named t shown => ?_⟩
  exact (plain.sound.run named).keepsTargets shown

/-- A switch state with a condition on an event. -/
def eventJson : StateJson Nat where
  type := "switch"
  eventConditions := some [{ eventRef := some "ordered", transition := some "b" }]

/-- A condition is added, and the first one becomes the default, then the second. -/
theorem swichTransitionToDefault_keepsTargets_event :
    eventJson.buildSwitch.KeepsTargets ⟨.event 0, some "b"⟩ ∧
      (eventJson.buildSwitch.run [.tryAddTransition "c", .swichTransitionToDefault (.event 0)]).KeepsTargets
        ⟨.event 0, some "c"⟩ := by
  have plain : eventJson.Plain := ⟨by decide, by decide, by decide⟩
  have named : ∀ edit ∈ [SwitchEdit.tryAddTransition "c", .swichTransitionToDefault (.event 0)], edit.Named := by
    rintro edit (_ | ⟨_, _ | ⟨_, ⟨⟩⟩⟩)
    · exact (by decide : "c" ≠ "")
    · trivial
  refine ⟨(swichTransitionToDefault_keepsTargets (N := Nat).1 _ _ (by decide)).mpr ?_, ?_⟩
  · exact .inr (.inl ⟨trivial, by decide, by decide⟩)
  · exact swichTransitionToDefault_keepsTargets.2 eventJson _ plain named _ (by decide)

/-- A switch state with a condition on data. -/
def dataJson : StateJson Nat where
  type := "switch"
  dataConditions := some [{ name := some "n", condition := some "${ .x }", transition := some "b" }]

/-- The condition stays beside the default. -/
theorem not_keepsTargets_data : ⟨.data 0, some "b"⟩ ∈ dataJson.buildSwitch.getNextTransitions ∧
    ¬ dataJson.buildSwitch.KeepsTargets ⟨.data 0, some "b"⟩ := by
  refine ⟨by decide, fun keeps => ?_⟩
  have length := keeps.targets.length_eq
  revert length
  decide

end

end FaasNet.StateDiagram.Stores
