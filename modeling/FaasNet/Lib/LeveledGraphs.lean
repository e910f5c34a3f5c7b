import FaasNet.Lib.Graphs

/-!
# Graphs that are drawn in levels

An element is drawn one level below the one it is first come to from, and put lower if it is come to again from further
down; what comes after it stays where it is. Without cycles, an element is first come to by the first way that leads
there, and ends below the lowest place at which one before it was first put. That is the length of the longest way
exactly if some element before it on a longest way is first come to by one.
-/

namespace FaasNet.Lib

/-- A drawing, with the level of each element. -/
structure LeveledDrawing (α : Type*) extends Drawing α where
  level : α → Nat := fun _ => 0

section
variable {α : Type*} [DecidableEq α] (next : α → List α)

namespace LeveledDrawing

/-- An element that is there is put lower if it is come to from further down. -/
def lower (drawing : LeveledDrawing α) (newLevel : Nat) (a : α) : LeveledDrawing α :=
  if drawing.level a < newLevel then { drawing with level := Function.update drawing.level a newLevel } else drawing

def push (drawing : LeveledDrawing α) (newLevel : Nat) (a : α) : LeveledDrawing α :=
  { drawing with nodes := drawing.nodes ++ [a], level := Function.update drawing.level a newLevel }

def edge (drawing : LeveledDrawing α) (a b : α) : LeveledDrawing α := { drawing with edges := drawing.edges ++ [(a, b)] }

end LeveledDrawing

/-- Draws an element at a level and what comes after it below, unless it is there. -/
def drawLevels : Nat → Nat → α → LeveledDrawing α → Option (LeveledDrawing α)
  | 0, _, _, _ => none
  | fuel + 1, newLevel, a, drawing =>
    if a ∈ drawing.nodes then some (drawing.lower newLevel a)
    else (next a).foldlM (fun drawing b => (drawLevels fuel (drawing.level a + 1) b drawing).map (·.edge a b))
      (drawing.push newLevel a)

/-! ## Ways -/

/-- A way of some length. -/
inductive Walk : α → α → Nat → Prop
  | here (a : α) : Walk a a 0
  | step {a b c : α} {n : Nat} (leads : b ∈ next a) (rest : Walk b c n) : Walk a c (n + 1)

/-- The longest way. -/
def LongestWalk (a b : α) (n : Nat) : Prop := Walk next a b n ∧ ∀ k, Walk next a b k → k ≤ n

def Leads (a b : α) : Prop := b ∈ next a

/-- The first way: everywhere it takes the first of the next elements from which the other one can be reached. -/
inductive FirstWalk : α → α → Nat → Prop
  | here (a : α) : FirstWalk a a 0
  | step {a b c : α} {n : Nat} {before after : List α} (split : next a = before ++ b :: after)
    (apart : ∀ x ∈ before, ¬ Relation.ReflTransGen (Leads next) x c) (rest : FirstWalk b c n) : FirstWalk a c (n + 1)

/-- No cycle can be reached. -/
def NoCycleFrom (a : α) : Prop := ∀ b, Relation.ReflTransGen (Leads next) a b → ¬ Relation.TransGen (Leads next) b b

section
variable {next} {a b c : α} {n m : Nat}

omit [DecidableEq α]

theorem Walk.reach (walk : Walk next a b n) : Relation.ReflTransGen (Leads next) a b := by
  induction walk with
  | here => exact .refl
  | step leads _ ih => exact .head leads ih

theorem Walk.concat (walk : Walk next a b n) (leads : c ∈ next b) : Walk next a c (n + 1) := by
  induction walk with
  | here b => exact .step leads (.here c)
  | step first _ ih => exact .step first (ih leads)

theorem Walk.cases_head (walk : Walk next a c n) : (n = 0 ∧ a = c) ∨ ∃ b k, b ∈ next a ∧ Walk next b c k ∧ n = k + 1 := by
  cases walk with
  | here => exact .inl ⟨rfl, rfl⟩
  | step leads rest => exact .inr ⟨_, _, leads, rest, rfl⟩

theorem FirstWalk.walk (first : FirstWalk next a b n) : Walk next a b n := by
  induction first with
  | here a => exact .here a
  | step split _ _ ih => exact .step (by rw [split]; simp) ih

theorem NoCycleFrom.of_next (noCycle : NoCycleFrom next a) (leads : b ∈ next a) : NoCycleFrom next b :=
  fun c path => noCycle c (.head leads path)

theorem NoCycleFrom.not_mem_next (noCycle : NoCycleFrom next a) (path : Relation.ReflTransGen (Leads next) a b) :
    a ∉ next b :=
  fun leads => noCycle a .refl (Relation.TransGen.tail' path leads)

/-- Where every edge leads to a higher rank there is no cycle. -/
theorem noCycleFrom_of_rank {rank : α → Nat} (rises : ∀ a b, b ∈ next a → rank a < rank b) (a : α) : NoCycleFrom next a := by
  intro b _ cycle
  have up {x y : α} (path : Relation.TransGen (Leads next) x y) : rank x < rank y := by
    induction path with
    | single leads => exact rises _ _ leads
    | tail _ leads ih => exact Nat.lt_trans ih (rises _ _ leads)
  exact Nat.lt_irrefl _ (up cycle)

/-- The first of some elements that leads to another one. -/
theorem first_unique {P : α → Prop} {x y : α} {before before' after after' : List α}
    (same : before ++ x :: after = before' ++ y :: after') (skip : ∀ z ∈ before, ¬ P z) (skip' : ∀ z ∈ before', ¬ P z)
    (hit : P x) (hit' : P y) : x = y := by
  induction before generalizing before' with
  | nil =>
    cases before' with
    | nil => exact (List.cons.inj same).1
    | cons z before' =>
      obtain rfl : x = z := (List.cons.inj same).1
      exact absurd hit (skip' x List.mem_cons_self)
  | cons w before ih =>
    cases before' with
    | nil =>
      obtain rfl : w = y := (List.cons.inj same).1
      exact absurd hit' (skip w List.mem_cons_self)
    | cons z before' =>
      exact ih (List.cons.inj same).2 (fun u mem => skip u (List.mem_cons_of_mem _ mem))
        fun u mem => skip' u (List.mem_cons_of_mem _ mem)

theorem mem_of_split {before after : List α} (split : next a = before ++ b :: after) : b ∈ next a := by
  rw [split]
  exact List.mem_append_right _ List.mem_cons_self

/-- There is one first way. -/
theorem FirstWalk.unique (noCycle : NoCycleFrom next a) (first : FirstWalk next a b n) (first' : FirstWalk next a b m) :
    n = m := by
  induction first generalizing m with
  | here a =>
    cases first' with
    | here => rfl
    | step split _ rest => exact absurd (Relation.TransGen.head' (mem_of_split split) rest.walk.reach) (noCycle a .refl)
  | step split apart rest ih =>
    cases first' with
    | here => exact absurd (Relation.TransGen.head' (mem_of_split split) rest.walk.reach) (noCycle _ .refl)
    | step split' apart' rest' =>
      obtain rfl := first_unique (split.symm.trans split') apart apart' rest.walk.reach rest'.walk.reach
      rw [ih (noCycle.of_next (mem_of_split split)) rest']

end

/-! ## Drawing without levels -/

section
variable {next} {fuel newLevel : Nat} {a : α} {drawing after : LeveledDrawing α}

@[simp] theorem toDrawing_lower : (drawing.lower newLevel a).toDrawing = drawing.toDrawing := by
  rw [LeveledDrawing.lower]
  split <;> rfl

/-- Without its levels it is a drawing. -/
theorem draw_of_drawLevels (drawn : drawLevels next fuel newLevel a drawing = some after) :
    draw next fuel a drawing.toDrawing = some after.toDrawing := by
  induction fuel generalizing newLevel a drawing after with
  | zero => cases drawn
  | succ fuel ih =>
    unfold drawLevels at drawn
    unfold draw
    split_ifs at drawn ⊢ with present
    · obtain rfl := Option.some.inj drawn
      rw [toDrawing_lower]
    · have all {bs : List α} {d after : LeveledDrawing α}
          (drawn : bs.foldlM (fun d b => (drawLevels next fuel (d.level a + 1) b d).map (·.edge a b)) d = some after) :
          bs.foldlM (fun d b => (draw next fuel b d).map fun d => { d with edges := d.edges ++ [(a, b)] }) d.toDrawing =
            some after.toDrawing := by
        induction bs generalizing d with
        | nil =>
          obtain rfl : d = after := Option.some.inj drawn
          rfl
        | cons b bs ih' =>
          rw [List.foldlM_cons] at drawn ⊢
          obtain ⟨between, first, rest⟩ := Option.bind_eq_some_iff.mp drawn
          obtain ⟨reached, here, rfl⟩ := Option.map_eq_some_iff.mp first
          rw [ih here]
          exact ih' rest
      exact all drawn

/-- Whatever is drawn can be reached. -/
theorem reached_of_draw {drawing after : Drawing α} (drawn : draw next fuel a drawing = some after) {b : α}
    (there : b ∈ after.nodes) : b ∈ drawing.nodes ∨ Relation.ReflTransGen (Leads next) a b := by
  induction fuel generalizing a drawing after with
  | zero => cases drawn
  | succ fuel ih =>
    unfold draw at drawn
    split_ifs at drawn with present
    · obtain rfl := Option.some.inj drawn
      exact .inl there
    · have all {bs : List α} (listed : bs ⊆ next a) {d after : Drawing α}
          (drawn : bs.foldlM (fun d b => (draw next fuel b d).map fun d => { d with edges := d.edges ++ [(a, b)] }) d = some after)
          (there : b ∈ after.nodes) : b ∈ d.nodes ∨ Relation.ReflTransGen (Leads next) a b := by
        induction bs generalizing d with
        | nil =>
          obtain rfl : d = after := Option.some.inj drawn
          exact .inl there
        | cons c bs ih' =>
          rw [List.foldlM_cons] at drawn
          obtain ⟨_, one, rest⟩ := Option.bind_eq_some_iff.mp drawn
          obtain ⟨between, first, rfl⟩ := Option.map_eq_some_iff.mp one
          obtain before | path := ih' (fun x mem => listed (List.mem_cons_of_mem c mem)) rest
          · exact (ih first before).imp_right fun path => .head (listed List.mem_cons_self) path
          · exact .inr path
      obtain before | path := all (List.Subset.refl _) drawn there
      · rcases List.mem_append.mp before with earlier | here
        · exact .inl earlier
        · exact .inr (List.mem_singleton.mp here ▸ .refl)
      · exact .inr path

/-- Drawing from nothing puts each element that can be reached once, with an edge for each way to a next one. -/
theorem draw_root {after : Drawing α} (drawn : draw next fuel a {} = some after) :
    after.nodes.Nodup ∧ (∀ b, b ∈ after.nodes ↔ Relation.ReflTransGen (Leads next) a b) ∧
      after.edges.Perm (after.nodes.flatMap (edgesFrom next)) := by
  obtain ⟨new, grows, there⟩ := draw_grows drawn
  have nodes : after.nodes = new := grows.nodes
  refine ⟨grows.fresh List.nodup_nil, fun b => ⟨fun mem => ?_, fun path => ?_⟩, ?_⟩
  · refine (reached_of_draw drawn mem).resolve_left fun before => ?_
    cases before
  · induction path with
    | refl => exact there
    | tail _ leads ih => exact grows.closed _ (nodes ▸ ih) _ leads
  · rw [nodes]
    simpa using grows.edges

/-- It comes to an end as often. -/
theorem drawLevels_isSome (drawn : (draw next fuel a drawing.toDrawing).isSome) :
    (drawLevels next fuel newLevel a drawing).isSome := by
  induction fuel generalizing newLevel a drawing with
  | zero => cases drawn
  | succ fuel ih =>
    unfold draw at drawn
    unfold drawLevels
    split_ifs at drawn ⊢ with present
    · rfl
    · have all {bs : List α} {d : LeveledDrawing α}
          (drawn : (bs.foldlM (fun d b => (draw next fuel b d).map fun d => { d with edges := d.edges ++ [(a, b)] })
            d.toDrawing).isSome) :
          (bs.foldlM (fun d b => (drawLevels next fuel (d.level a + 1) b d).map (·.edge a b)) d).isSome := by
        induction bs generalizing d with
        | nil => rfl
        | cons b bs ih' =>
          rw [List.foldlM_cons] at drawn ⊢
          obtain ⟨last, drawn⟩ := Option.isSome_iff_exists.mp drawn
          obtain ⟨between, first, rest⟩ := Option.bind_eq_some_iff.mp drawn
          obtain ⟨reached, here, rfl⟩ := Option.map_eq_some_iff.mp first
          obtain ⟨leveled, found⟩ := Option.isSome_iff_exists.mp (ih (Option.isSome_of_eq_some here))
          obtain rfl := Option.some.inj ((draw_of_drawLevels found).symm.trans here)
          rw [found]
          exact ih' (d := leveled.edge a b) (Option.isSome_of_eq_some rest)
      exact all drawn

end

/-! ## Levels -/

/-- What drawing an element adds: each new element is first put as far below it as the first way is long, whatever comes
after a new one is below that place, and there is no other reason for a level. -/
structure Descends (drawing after : LeveledDrawing α) (a : α) (newLevel : Nat) (new : List (α × Nat)) : Prop where
  nodes : after.nodes = drawing.nodes ++ new.map (·.1)
  fresh : ∀ e ∈ new, e.1 ∉ drawing.nodes
  first : ∀ e ∈ new, ∃ k, FirstWalk next a e.1 k ∧ e.2 = newLevel + k
  here : newLevel ≤ after.level a
  below : ∀ e ∈ new, ∀ b ∈ next e.1, e.2 + 1 ≤ after.level b
  mono : ∀ b ∈ drawing.nodes, drawing.level b ≤ after.level b
  attained : ∀ b ∈ after.nodes, b ∈ drawing.nodes ∧ after.level b = drawing.level b ∨ b = a ∧ after.level b = newLevel ∨
    ∃ e ∈ new, b ∈ next e.1 ∧ after.level b = e.2 + 1

/-- The same for some elements, one after the other. -/
structure DescendsAll (drawing after : LeveledDrawing α) (bs : List α) (newLevel : Nat) (new : List (α × Nat)) : Prop where
  nodes : after.nodes = drawing.nodes ++ new.map (·.1)
  fresh : ∀ e ∈ new, e.1 ∉ drawing.nodes
  first : ∀ e ∈ new, ∃ before b later, bs = before ++ b :: later ∧
    (∀ x ∈ before, ¬ Relation.ReflTransGen (Leads next) x e.1) ∧ ∃ k, FirstWalk next b e.1 k ∧ e.2 = newLevel + k
  here : ∀ b ∈ bs, newLevel ≤ after.level b
  below : ∀ e ∈ new, ∀ b ∈ next e.1, e.2 + 1 ≤ after.level b
  mono : ∀ b ∈ drawing.nodes, drawing.level b ≤ after.level b
  attained : ∀ b ∈ after.nodes, b ∈ drawing.nodes ∧ after.level b = drawing.level b ∨ b ∈ bs ∧ after.level b = newLevel ∨
    ∃ e ∈ new, b ∈ next e.1 ∧ after.level b = e.2 + 1

/-- All that comes after an element is there, unless the element is on the way. -/
def Complete (drawing : Drawing α) (OnTheWay : α → Prop) : Prop :=
  ∀ x ∈ drawing.nodes, (∀ y ∈ next x, y ∈ drawing.nodes) ∨ OnTheWay x

section
variable {next} {fuel newLevel : Nat} {a b : α} {drawing between after : LeveledDrawing α}

omit [DecidableEq α] in
/-- What can be reached from a next element that is there is there as well. -/
theorem Complete.mem_of_reach {drawing : Drawing α} (complete : Complete next drawing (Relation.ReflTransGen (Leads next) · a))
    (noCycle : NoCycleFrom next a) (leads : b ∈ next a) (there : b ∈ drawing.nodes) {x : α}
    (path : Relation.ReflTransGen (Leads next) b x) : x ∈ drawing.nodes := by
  induction path with
  | refl => exact there
  | @tail x y path step ih =>
    obtain all | back := complete x ih
    · exact all y step
    · exact absurd (Relation.TransGen.head' leads (path.trans back)) (noCycle a .refl)

/-- An element on the way stays so, and the new ones are complete. -/
theorem Complete.of_draw {drawing after : Drawing α} (complete : Complete next drawing (Relation.ReflTransGen (Leads next) · a))
    (drawn : draw next fuel b drawing = some after) :
    Complete next after (Relation.ReflTransGen (Leads next) · a) ∧ b ∈ after.nodes := by
  obtain ⟨new, grows, there⟩ := draw_grows drawn
  refine ⟨fun x mem => ?_, there⟩
  rw [grows.nodes] at mem
  rcases List.mem_append.mp mem with before | added
  · refine (complete x before).imp_left fun all y leads => ?_
    rw [grows.nodes]
    exact List.mem_append_left _ (all y leads)
  · exact .inl (grows.closed x added)

omit [DecidableEq α] in
/-- The element whose next ones are drawn stays where it is. -/
theorem Descends.level_eq (noCycle : NoCycleFrom next a) (leads : b ∈ next a) {new : List (α × Nat)}
    (descends : Descends next drawing after b newLevel new) (there : a ∈ drawing.nodes) :
    after.level a = drawing.level a := by
  have stays : a ∈ after.nodes := by
    rw [descends.nodes]
    exact List.mem_append_left _ there
  obtain ⟨-, same⟩ | ⟨rfl, -⟩ | ⟨e, mem, back, -⟩ := descends.attained a stays
  · exact same
  · exact absurd leads (noCycle.not_mem_next .refl)
  · obtain ⟨k, way, -⟩ := descends.first e mem
    exact absurd back (noCycle.not_mem_next (.head leads way.walk.reach))

omit [DecidableEq α] in
/-- An edge changes nothing of it. -/
theorem Descends.edge {new : List (α × Nat)} (descends : Descends next drawing after b newLevel new) (a c : α) :
    Descends next drawing (after.edge a c) b newLevel new :=
  ⟨descends.nodes, descends.fresh, descends.first, descends.here, descends.below, descends.mono, descends.attained⟩

omit [DecidableEq α] in
/-- One element and then the others. -/
theorem Descends.cons {bs : List α} {new new' : List (α × Nat)} (one : Descends next drawing between b newLevel new)
    (known : ∀ x, Relation.ReflTransGen (Leads next) b x → x ∈ between.nodes)
    (others : DescendsAll next between after bs newLevel new') :
    DescendsAll next drawing after (b :: bs) newLevel (new ++ new') := by
  have there : b ∈ between.nodes := known b .refl
  have later : ∀ e ∈ new, ∀ c ∈ next e.1, c ∈ between.nodes := by
    intro e mem c leads
    obtain ⟨k, way, -⟩ := one.first e mem
    exact known c (way.walk.reach.tail leads)
  refine ⟨?_, fun e mem => ?_, fun e mem => ?_, fun c mem => ?_, fun e mem c leads => ?_, fun c mem => ?_, fun c mem => ?_⟩
  · rw [others.nodes, one.nodes, List.map_append, List.append_assoc]
  · rcases List.mem_append.mp mem with early | late
    · exact one.fresh e early
    · intro before
      apply others.fresh e late
      rw [one.nodes]
      exact List.mem_append_left _ before
  · rcases List.mem_append.mp mem with early | late
    · exact ⟨[], b, bs, rfl, fun x mem => (by cases mem), one.first e early⟩
    · -- what can be reached from the one is not new to the others
      obtain ⟨before, c, later, rfl, apart, way⟩ := others.first e late
      refine ⟨b :: before, c, later, rfl, fun x mem => ?_, way⟩
      rcases List.mem_cons.mp mem with rfl | mem
      · exact fun path => others.fresh e late (known _ path)
      · exact apart x mem
  · rcases List.mem_cons.mp mem with rfl | mem
    · exact Nat.le_trans one.here (others.mono c there)
    · exact others.here c mem
  · rcases List.mem_append.mp mem with early | late
    · exact Nat.le_trans (one.below e early c leads) (others.mono c (later e early c leads))
    · exact others.below e late c leads
  · refine Nat.le_trans (one.mono c mem) (others.mono c ?_)
    rw [one.nodes]
    exact List.mem_append_left _ mem
  · obtain ⟨before, same⟩ | ⟨listed, level⟩ | ⟨e, late, leads, level⟩ := others.attained c mem
    · obtain ⟨earlier, same'⟩ | ⟨rfl, level⟩ | ⟨e, early, leads, level⟩ := one.attained c before
      · exact .inl ⟨earlier, same.trans same'⟩
      · exact .inr (.inl ⟨List.mem_cons_self, same.trans level⟩)
      · exact .inr (.inr ⟨e, List.mem_append_left _ early, leads, same.trans level⟩)
    · exact .inr (.inl ⟨List.mem_cons_of_mem _ listed, level⟩)
    · exact .inr (.inr ⟨e, List.mem_append_right _ late, leads, level⟩)

theorem descends_lower (present : a ∈ drawing.nodes) :
    Descends next drawing (drawing.lower newLevel a) a newLevel [] := by
  refine ⟨?_, ?_, ?_, ?_, ?_, fun b _ => ?_, fun b mem => ?_⟩
  · rw [toDrawing_lower]
    simp
  · exact fun _ mem => by cases mem
  · exact fun _ mem => by cases mem
  · rw [LeveledDrawing.lower]
    split_ifs with lower
    · simp
    · exact Nat.le_of_not_lt lower
  · exact fun _ mem => by cases mem
  · rw [LeveledDrawing.lower]
    split_ifs with lower
    · by_cases same : b = a
      · subst same
        simpa using Nat.le_of_lt lower
      · simp [same]
    · exact Nat.le_refl _
  · rw [toDrawing_lower] at mem
    rw [LeveledDrawing.lower]
    split_ifs with lower
    · by_cases same : b = a
      · subst same
        exact .inr (.inl ⟨rfl, by simp⟩)
      · exact .inl ⟨mem, by simp [same]⟩
    · exact .inl ⟨mem, rfl⟩

/-- An element is put, and then what comes after it. -/
theorem DescendsAll.of_push {new : List (α × Nat)} (absent : a ∉ drawing.nodes)
    (all : DescendsAll next (drawing.push newLevel a) after (next a) (newLevel + 1) new) :
    Descends next drawing after a newLevel ((a, newLevel) :: new) := by
  have put : (drawing.push newLevel a).level a = newLevel := Function.update_self ..
  have apart {b : α} (mem : b ∈ drawing.nodes) : (drawing.push newLevel a).level b = drawing.level b := by
    apply Function.update_of_ne
    rintro rfl
    exact absent mem
  have there : a ∈ (drawing.push newLevel a).nodes := List.mem_append_right _ List.mem_cons_self
  refine ⟨?_, fun e mem => ?_, fun e mem => ?_, ?_, fun e mem b leads => ?_, fun b mem => ?_, fun b mem => ?_⟩
  · rw [all.nodes]
    simp [LeveledDrawing.push]
  · rcases List.mem_cons.mp mem with rfl | later
    · exact absent
    · exact fun before => all.fresh e later (List.mem_append_left _ before)
  · rcases List.mem_cons.mp mem with rfl | later
    · exact ⟨0, .here a, rfl⟩
    · obtain ⟨before, b, rest, split, apart, k, way, level⟩ := all.first e later
      exact ⟨k + 1, .step split apart way, by omega⟩
  · have stays := all.mono a there
    rwa [put] at stays
  · rcases List.mem_cons.mp mem with rfl | later
    · exact all.here b leads
    · exact all.below e later b leads
  · have stays := all.mono b (List.mem_append_left _ mem)
    rwa [apart mem] at stays
  · obtain ⟨before, same⟩ | ⟨leads, level⟩ | ⟨e, later, leads, level⟩ := all.attained b mem
    · rcases List.mem_append.mp before with before | added
      · exact .inl ⟨before, same.trans (apart before)⟩
      · obtain rfl := List.mem_singleton.mp added
        exact .inr (.inl ⟨rfl, same.trans put⟩)
    · exact .inr (.inr ⟨(a, newLevel), List.mem_cons_self, leads, level⟩)
    · exact .inr (.inr ⟨e, List.mem_cons_of_mem _ later, leads, level⟩)

/-- The next elements of one that has just been put. -/
theorem drawAllLevels_descends (noCycle : NoCycleFrom next a)
    (each : ∀ b ∈ next a, ∀ {drawing after : LeveledDrawing α} {newLevel : Nat},
      Complete next drawing.toDrawing (Relation.TransGen (Leads next) · b) →
      drawLevels next fuel newLevel b drawing = some after → ∃ new, Descends next drawing after b newLevel new)
    {bs : List α} (listed : bs ⊆ next a) {level : Nat} (there : a ∈ drawing.nodes) (at_level : drawing.level a = level)
    (complete : Complete next drawing.toDrawing (Relation.ReflTransGen (Leads next) · a))
    (drawn : bs.foldlM (fun d b => (drawLevels next fuel (d.level a + 1) b d).map (·.edge a b)) drawing = some after) :
    ∃ new, DescendsAll next drawing after bs (level + 1) new := by
  induction bs generalizing drawing with
  | nil =>
    obtain rfl : drawing = after := Option.some.inj drawn
    refine ⟨[], by simp, ?_, ?_, ?_, ?_, fun b _ => Nat.le_refl _, fun b mem => .inl ⟨mem, rfl⟩⟩ <;>
      exact fun _ mem => by cases mem
  | cons b bs ih =>
    have leads : b ∈ next a := listed List.mem_cons_self
    rw [List.foldlM_cons] at drawn
    obtain ⟨_, one, rest⟩ := Option.bind_eq_some_iff.mp drawn
    obtain ⟨between, here, rfl⟩ := Option.map_eq_some_iff.mp one
    have ready : Complete next drawing.toDrawing (Relation.TransGen (Leads next) · b) :=
      fun x mem => (complete x mem).imp_right fun path => Relation.TransGen.tail' path leads
    obtain ⟨new, descends⟩ := each b leads ready here
    rw [at_level] at descends
    obtain ⟨still, reached⟩ := complete.of_draw (draw_of_drawLevels here)
    have stays : a ∈ between.nodes := by
      rw [descends.nodes]
      exact List.mem_append_left _ there
    have level_eq := (descends.level_eq noCycle leads there).trans at_level
    have later : bs ⊆ next a := fun c mem => listed (List.mem_cons_of_mem _ mem)
    obtain ⟨new', others⟩ : ∃ new', DescendsAll next (between.edge a b) after bs (level + 1) new' :=
      ih later stays level_eq still rest
    exact ⟨new ++ new', (descends.edge a b).cons (fun x path => still.mem_of_reach noCycle leads reached path) others⟩

/-- Drawing an element. -/
theorem drawLevels_descends (noCycle : NoCycleFrom next a)
    (complete : Complete next drawing.toDrawing (Relation.TransGen (Leads next) · a))
    (drawn : drawLevels next fuel newLevel a drawing = some after) :
    ∃ new, Descends next drawing after a newLevel new := by
  induction fuel generalizing newLevel a drawing after with
  | zero => cases drawn
  | succ fuel ih =>
    unfold drawLevels at drawn
    split_ifs at drawn with present
    · obtain rfl := Option.some.inj drawn
      exact ⟨[], descends_lower present⟩
    · have each : ∀ b ∈ next a, ∀ {drawing after : LeveledDrawing α} {newLevel : Nat},
          Complete next drawing.toDrawing (Relation.TransGen (Leads next) · b) →
          drawLevels next fuel newLevel b drawing = some after → ∃ new, Descends next drawing after b newLevel new :=
        fun b leads _ _ _ ready here => ih (noCycle.of_next leads) ready here
      have pushed : Complete next (drawing.push newLevel a).toDrawing (Relation.ReflTransGen (Leads next) · a) := by
        intro x mem
        rcases List.mem_append.mp mem with before | added
        · exact (complete x before).imp (fun all y leads => List.mem_append_left _ (all y leads)) fun path => path.to_reflTransGen
        · obtain rfl := List.mem_singleton.mp added
          exact .inr .refl
      obtain ⟨new, all⟩ := drawAllLevels_descends noCycle each (List.Subset.refl _)
        (List.mem_append_right _ List.mem_cons_self) (Function.update_self ..) pushed drawn
      exact ⟨(a, newLevel) :: new, all.of_push present⟩

/-! ## The levels of all elements -/

variable {root : α}

/-- From an empty drawing. -/
theorem drawLevels_root (noCycle : NoCycleFrom next root) (drawn : drawLevels next fuel 0 root {} = some after) :
    ∃ new, Descends next {} after root 0 new :=
  drawLevels_descends noCycle (fun _ mem => by cases mem) drawn

variable (next) in
/-- The levels of what can be reached: an element is below the places at which those before it were first put, and right
below one of them. -/
structure Leveled (root : α) (drawing : LeveledDrawing α) : Prop where
  reached : ∀ b, b ∈ drawing.nodes ↔ Relation.ReflTransGen (Leads next) root b
  top : drawing.level root = 0
  below : ∀ a n, FirstWalk next root a n → ∀ b ∈ next a, n + 1 ≤ drawing.level b
  attained : ∀ b ∈ drawing.nodes, b = root ∨ ∃ a n, FirstWalk next root a n ∧ b ∈ next a ∧ drawing.level b = n + 1

theorem leveled_of_drawn (noCycle : NoCycleFrom next root) (drawn : drawLevels next fuel 0 root {} = some after) :
    Leveled next root after := by
  obtain ⟨new, descends⟩ := drawLevels_root noCycle drawn
  obtain ⟨-, reached, -⟩ := draw_root (draw_of_drawLevels drawn)
  have there : root ∈ after.nodes := (reached root).mpr .refl
  have nodes : after.nodes = new.map (·.1) := descends.nodes
  have way {e : α × Nat} (mem : e ∈ new) : FirstWalk next root e.1 e.2 := by
    obtain ⟨k, way, level⟩ := descends.first e mem
    rw [level, Nat.zero_add]
    exact way
  have back {a : α} (leads : root ∈ next a) (path : Relation.ReflTransGen (Leads next) root a) : False :=
    noCycle.not_mem_next path leads
  have attained (b : α) (mem : b ∈ after.nodes) : b = root ∧ after.level b = 0 ∨
      ∃ a n, FirstWalk next root a n ∧ b ∈ next a ∧ after.level b = n + 1 := by
    obtain ⟨before, -⟩ | here | ⟨e, listed, leads, level⟩ := descends.attained b mem
    · cases before
    · exact .inl here
    · exact .inr ⟨e.1, e.2, way listed, leads, level⟩
  refine ⟨reached, ?_, fun a n first b leads => ?_, fun b mem => (attained b mem).imp_left fun here => here.1⟩
  · obtain ⟨-, level⟩ | ⟨a, n, first, leads, -⟩ := attained root there
    · exact level
    · exact (back leads first.walk.reach).elim
  · have mem := (reached a).mpr first.walk.reach
    rw [nodes] at mem
    obtain ⟨e, listed, rfl⟩ := List.mem_map.mp mem
    rw [first.unique noCycle (way listed)]
    exact descends.below e listed b leads

variable (next) in
/-- All edges lead down, and the levels are the lengths of the longest ways. -/
def LevelsAreLongest (root : α) (drawing : LeveledDrawing α) : Prop :=
  (∀ a ∈ drawing.nodes, ∀ b ∈ next a, drawing.level a < drawing.level b) ∧
    ∀ b ∈ drawing.nodes, LongestWalk next root b (drawing.level b)

variable (next) in
/-- Some element right before the end of a longest way is first come to by the rest of it. -/
def FirstIsLongest (root : α) : Prop :=
  ∀ b, Relation.ReflTransGen (Leads next) root b → b ≠ root →
    ∃ a n, b ∈ next a ∧ FirstWalk next root a n ∧ LongestWalk next root b (n + 1)

omit [DecidableEq α] in
theorem Leveled.longest_iff (leveled : Leveled next root after) (noCycle : NoCycleFrom next root) :
    LevelsAreLongest next root after ↔ FirstIsLongest next root := by
  constructor
  · rintro ⟨-, longest⟩ b path apart
    have mem := (leveled.reached b).mpr path
    obtain same | ⟨a, n, first, leads, level⟩ := leveled.attained b mem
    · exact absurd same apart
    · exact ⟨a, n, leads, first, level ▸ longest b mem⟩
  · intro firstIsLongest
    have longest (b : α) (mem : b ∈ after.nodes) : LongestWalk next root b (after.level b) := by
      obtain rfl | ⟨a, n, first, leads, level⟩ := leveled.attained b mem
      · rw [leveled.top]
        refine ⟨.here _, fun k walk => ?_⟩
        cases walk with
        | here => exact Nat.le_refl 0
        | step leads rest => exact absurd (Relation.TransGen.head' leads rest.reach) (noCycle _ .refl)
      · have apart : b ≠ root := by
          rintro rfl
          exact noCycle.not_mem_next first.walk.reach leads
        obtain ⟨a', m, leads', first', longest⟩ := firstIsLongest b ((leveled.reached b).mp mem) apart
        have least := leveled.below a' m first' b leads'
        have most := longest.2 _ (first.walk.concat leads)
        obtain same : after.level b = m + 1 := by omega
        rwa [same]
    refine ⟨fun a mem b leads => ?_, longest⟩
    have there := (leveled.reached b).mpr (((leveled.reached a).mp mem).tail leads)
    have most := (longest b there).2 _ ((longest a mem).1.concat leads)
    omega

end

end

end FaasNet.Lib
