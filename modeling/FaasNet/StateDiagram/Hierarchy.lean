import FaasNet.Lib.LeveledGraphs
import FaasNet.StateDiagram.Edits

/-!
# The levels of the diagram

`buildNodeHierarchy` draws each state that can be reached once and each transition to a state, whatever the machine. A
state that is come to again from further down is put lower, but the states after it are not, so an edge can point upwards
even without cycles.
-/

namespace FaasNet.StateDiagram

open FaasNet.Lib

namespace StateMachineModel

/-- The root is at the first level. -/
def buildNodeHierarchy (m : StateMachineModel) (rootState : StateMachineState) : Option (LeveledDrawing String) :=
  drawLevels m.children (m.states.length + 1) 0 rootState.id {}

/-- It comes to an end with one node for each state that can be reached and an edge for each of its transitions to a state.
Without cycles the edges point downwards and the levels are the lengths of the longest ways. -/
def DrawsDownwards (m : StateMachineModel) (rootState : StateMachineState) : Prop :=
  ∃ drawing, m.buildNodeHierarchy rootState = some drawing ∧
    drawing.nodes.Nodup ∧ (∀ id, id ∈ drawing.nodes ↔ Relation.ReflTransGen (Leads m.children) rootState.id id) ∧
    drawing.edges.Perm (drawing.nodes.flatMap (edgesFrom m.children)) ∧
    (NoCycleFrom m.children rootState.id → LevelsAreLongest m.children rootState.id drawing)

section
variable {m : StateMachineModel} {rootState : StateMachineState}

theorem buildNodeHierarchy_isSome (root : m.getRootState = some rootState) : (m.buildNodeHierarchy rootState).isSome := by
  have plain : (draw m.children (m.states.length + 1) rootState.id ({} : LeveledDrawing String).toDrawing).isSome :=
    draw_root_isSome root
  exact drawLevels_isSome plain

/-- The levels are new to the drawing that is shown. -/
theorem refreshUI_eq (named : truthy m.id) (root : m.getRootState = some rootState) :
    some m.refreshUI = (m.buildNodeHierarchy rootState).map (·.toDrawing) := by
  obtain ⟨drawing, drawn⟩ := Option.isSome_iff_exists.mp (buildNodeHierarchy_isSome root)
  have plain : draw m.children (m.states.length + 1) rootState.id {} = some drawing.toDrawing := draw_of_drawLevels drawn
  have built : m.buildNodeHierarchy rootState = some drawing := drawn
  rw [built, refreshUI, if_pos named, root]
  simp only [plain, Option.getD_some, Option.map_some]

/-- **A machine is drawn downwards exactly if it has a cycle, or each state is preceded on a longest way by one that is first
come to by a longest way.** -/
theorem drawsDownwards_iff (root : m.getRootState = some rootState) :
    m.DrawsDownwards rootState ↔ (NoCycleFrom m.children rootState.id → FirstIsLongest m.children rootState.id) := by
  obtain ⟨drawing, drawn⟩ := Option.isSome_iff_exists.mp (buildNodeHierarchy_isSome root)
  obtain ⟨once, reached, edges⟩ := draw_root (draw_of_drawLevels drawn)
  constructor
  · rintro ⟨d, same, -, -, -, downwards⟩ noCycle
    obtain rfl := Option.some.inj (drawn.symm.trans same)
    exact ((leveled_of_drawn noCycle drawn).longest_iff noCycle).mp (downwards noCycle)
  · intro longest
    refine ⟨drawing, drawn, once, reached, edges, fun noCycle => ?_⟩
    exact ((leveled_of_drawn noCycle drawn).longest_iff noCycle).mpr (longest noCycle)

end

end StateMachineModel

/-- A state with one transition, or an end. -/
def injectState (id : String) (transition : Option String) : StateMachineState where
  id
  name := some "inject"
  isEnd := transition.isNone
  body := .flowable .inject transition

/-- A state is followed by another one. -/
def chain : StateMachineModel where
  id := some "m"
  start := some { stateName := some "a" }
  states := [injectState "a" (some "b"), injectState "b" none]

theorem noCycleFrom_of_states {m : StateMachineModel} {rank : String → Nat}
    (rises : ∀ a ∈ m.states.map (·.id), ∀ b ∈ m.children a, rank a < rank b) (id : String) : NoCycleFrom m.children id := by
  have everywhere (a b : String) (leads : b ∈ m.children a) : rank a < rank b := by
    by_cases there : a ∈ m.states.map (·.id)
    · exact rises a there b leads
    · have nothing : m.children a = [] := by
        rw [StateMachineModel.children, StateMachineModel.getState, getStateOf, List.find?_eq_none.mpr fun s mem same => there ?_]
        · rfl
        · exact List.mem_map.mpr ⟨s, mem, by simpa using same⟩
      rw [nothing] at leads
      cases leads
  exact noCycleFrom_of_rank everywhere id

theorem children_chain : chain.children "a" = ["b"] ∧ chain.children "b" = [] := by decide

/-- A state with one successor is drawn above it. -/
theorem drawsDownwards_chain : chain.DrawsDownwards (injectState "a" (some "b")) := by
  refine (StateMachineModel.drawsDownwards_iff rfl).mpr fun noCycle id path apart => ?_
  have first : FirstWalk chain.children "a" "a" 0 := .here "a"
  obtain same | ⟨next, leads, rest⟩ := Relation.ReflTransGen.cases_head path
  · exact absurd same.symm apart
  · have leads : next ∈ chain.children "a" := leads
    rw [children_chain.1, List.mem_singleton] at leads
    subst leads
    obtain rfl | ⟨last, leads, -⟩ := Relation.ReflTransGen.cases_head rest
    · have leads : "b" ∈ chain.children "a" := by rw [children_chain.1]; exact List.mem_singleton_self _
      refine ⟨"a", 0, leads, first, .step leads (.here "b"), fun k walk => ?_⟩
      obtain ⟨rfl, -⟩ | ⟨c, n, leads', rest', rfl⟩ := walk.cases_head
      · omega
      · have leads' : c ∈ chain.children "a" := leads'
        rw [children_chain.1, List.mem_singleton] at leads'
        subst leads'
        obtain ⟨rfl, -⟩ | ⟨d, n, leads', -⟩ := rest'.cases_head
        · omega
        · rw [children_chain.2] at leads'
          cases leads'
    · have leads : last ∈ chain.children "b" := leads
      rw [children_chain.2] at leads
      cases leads

/-- It leads to two states. -/
def detourRoot : StateMachineState where
  id := "r"
  name := some "switch"
  isEnd := false
  body := .switch { eventConditions := [{ transition := some "a" }, { transition := some "b" }] }

/-- Two ways lead to a state: the second is longer, and the state has a successor. -/
def lateDetour : StateMachineModel where
  id := some "m"
  start := some { stateName := some "r" }
  states := [detourRoot, injectState "a" (some "c"), injectState "b" (some "a"), injectState "c" none]

/-- The order in which the longest ways come to the states. -/
def detourRank (id : String) : Nat := ["r", "b", "a", "c"].idxOf id

/-- The state is put lower, and its successor stays where it was, beside it. -/
theorem not_drawsDownwards_lateDetour : lateDetour.getRootState = some detourRoot ∧
    NoCycleFrom lateDetour.children detourRoot.id ∧ ¬ lateDetour.DrawsDownwards detourRoot := by
  have rises : ∀ a ∈ lateDetour.states.map (·.id), ∀ b ∈ lateDetour.children a, detourRank a < detourRank b := by
    decide
  have noCycle := noCycleFrom_of_states rises detourRoot.id
  refine ⟨by decide, noCycle, ?_⟩
  rintro ⟨drawing, drawn, -, -, -, downwards⟩
  have levels : (lateDetour.buildNodeHierarchy detourRoot).map (fun d => (d.nodes, d.level "a", d.level "c")) =
      some (["r", "a", "c", "b"], 2, 2) := by decide
  rw [drawn] at levels
  simp only [Option.map_some, Option.some.injEq, Prod.mk.injEq] at levels
  have leads : "c" ∈ lateDetour.children "a" := by decide
  have lower := (downwards noCycle).1 "a" (by rw [levels.1]; decide) "c" leads
  omega

end FaasNet.StateDiagram
